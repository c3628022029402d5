import ResearchController.Tick.Attendance

/-!
# Tasks that wait for a failed one

Nothing in the controller skips or cancels a task whose dependency has failed, and `FAILED` is never
left. So every task that waits for a failed one, directly or through other waiting tasks, stays
`PENDING` for ever (`starved_waits`). `run_until_idle` counts such tasks as work that remains: it
returns only if every task that was there has its verdict, and then no task that others depend on
has failed (`until_idle_returns`).
-/

namespace ResearchController
open Lib

variable {valid : Json → Except PyErr ComputeTaskSpec} {db db' : Db}

/-- A task that waits for one that has failed, directly or through others that wait for it. -/
inductive Starved (db : Db) : String → Prop where
  | failed {id dependencyId : String} :
    db.DependsOn id dependencyId →
    db.HasTask dependencyId (fun t => t.status = .failed) →
    Starved db id
  | waits {id dependencyId : String} :
    db.DependsOn id dependencyId →
    Starved db dependencyId →
    Starved db id

/-- A database that the controller reaches from the empty one. -/
def Db.Reachable (valid : Json → Except PyErr ComputeTaskSpec) (db : Db) : Prop :=
  Db.empty.Reaches valid db

lemma Db.Reachable.steady : Steady valid (Db.Reachable valid) :=
  fun _ _ reachable reaches => reachable.trans reaches

lemma Db.Reachable.ordered (reachable : db.Reachable valid) : Ordered db.toRows := by
  obtain ⟨actions, rn⟩ := reachable
  exact moves_invariant (fun r r' od mv => mv.ordered od) (controller_refines rn) Ordered.empty

lemma Db.Reachable.inUse (reachable : db.Reachable valid) {id : String} {t : Task}
    (ht : db.tasks.get id = some t) : t.status.inUse = true := by
  obtain ⟨actions, rn⟩ := reachable
  exact ((task_rows Task.Recorded.first Task.Recorded.step rn).row ht).inUse

/-- A task of a reachable database waits, or all that it depends on has succeeded. -/
lemma Db.Reachable.pending_or (reachable : db.Reachable valid) {id : String} {t : Task}
    (ht : db.tasks.get id = some t) : t.status = .pending ∨
      ∀ dependencyId, db.DependsOn id dependencyId →
        db.HasTask dependencyId fun t => t.status = .succeeded := by
  have inUse := reachable.inUse ht
  by_cases started : t.status.started = true
  · right
    intro dependencyId depends
    obtain ⟨s, hs⟩ := reachable.ordered.target depends
    exact ⟨s, hs, reachable.ordered.succeeded depends ht started hs⟩
  · left
    revert inUse started
    cases t.status <;> decide

/-- Dependencies are never removed. -/
lemma Db.Reaches.dependsOn (reaches : db.Reaches valid db') {id dependencyId : String}
    (depends : db.DependsOn id dependencyId) : db'.DependsOn id dependencyId := by
  obtain ⟨actions, rn⟩ := reaches
  refine moves_invariant (P := fun r : Rows => _ ∈ r.dependencies) ?_ (controller_refines rn)
    depends
  intro r r' mem mv
  cases mv with
  | created _ _ => exact List.mem_append_left _ mem
  | _ => exact mem

/-- A task that waits for a failed one is pending. -/
lemma Starved.pending (reachable : db.Reachable valid) {id : String} (st : Starved db id) :
    db.HasTask id fun t => t.status = .pending := by
  have unfinished : ∀ {id dependencyId : String} {s : TaskStatus}, db.DependsOn id dependencyId →
      db.HasTask dependencyId (fun t => t.status = s) → s ≠ .succeeded →
      db.HasTask id fun t => t.status = .pending := by
    intro id dependencyId s depends has ne
    obtain ⟨t, ht⟩ := reachable.ordered.source depends
    refine ⟨t, ht, ?_⟩
    obtain pending | succeeded := reachable.pending_or ht
    · exact pending
    · obtain ⟨u, hu, rfl⟩ := has
      obtain ⟨u', hu', done⟩ := succeeded dependencyId depends
      cases hu.symm.trans hu'
      exact (ne done).elim
  induction st with
  | failed depends failed => exact unfinished depends failed (by decide)
  | waits depends _ ih => exact unfinished depends ih (by decide)

/-- Who waits for a failed task waits for ever. -/
lemma Starved.reached {id : String} (st : Starved db id) (reaches : db.Reaches valid db') :
    Starved db' id := by
  induction st with
  | failed depends failed =>
    refine .failed (reaches.dependsOn depends) (failed.reached ?_ reaches)
    intro t l t' failed st
    exact (st.settled_status (Or.inr failed)).trans failed
  | waits depends _ ih => exact .waits (reaches.dependsOn depends) ih

/-- A task that waits for a failed one, directly or through other waiting tasks, is pending with no
    attempt and no event after its creation, in the state that is reached and in every later one. -/
theorem starved_waits {actions later : List Action}
    (rn : (controller valid).run Db.empty actions = some db)
    (rn' : (controller valid).run db later = some db') {id : String} (st : Starved db id) :
    ∃ t, db'.tasks.get id = some t ∧ t.status = .pending ∧ t.attemptCount = 0 ∧
      (db'.entityEvents "TASK" id).map Event.entry =
        [("TASK_CREATED", some TaskStatus.pending.value)] := by
  have reachable : db.Reachable valid := ⟨actions, rn⟩
  have reaches : db.Reaches valid db' := ⟨later, rn'⟩
  have reachable' := reachable.trans reaches
  obtain ⟨t, ht, pending⟩ := (st.reached reaches).pending reachable'
  obtain ⟨all, rn⟩ := reachable'
  have rc := (task_rows Task.Recorded.first Task.Recorded.step rn).row ht
  refine ⟨t, ht, pending, rc.waiting pending, ?_⟩
  have log := rc.log
  simp only [Task.history, pending] at log
  exact log

/-- A task that depends on a task that has been refused. -/
def starvedTask : List Action :=
  refusedTask ++ [.createTask { sharedTask "t3" with dependencyIds := ["t1"] }]

/-- The readiness service passes it over. -/
theorem starved_waits_refused :
    ∃ db db' t, (controller fun _ => .ok sharedSpec).run Db.empty starvedTask = some db ∧
      (controller fun _ => .ok sharedSpec).run db [.reconcile 9 9 ["t3"]] = some db' ∧
      db'.tasks.get "t3" = some t ∧ t.status = .pending := by
  have all : (((controller fun _ => .ok sharedSpec).run Db.empty starvedTask).bind fun db =>
      ((controller fun _ => .ok sharedSpec).run db [.reconcile 9 9 ["t3"]]).map fun _ =>
        (db.dependencies, (db.tasks.get "t1").map (·.status))) =
      some ([{ taskId := "t3", dependsOnTaskId := "t1" }], some .failed) := by decide
  obtain ⟨db, rn, all⟩ := Option.bind_eq_some_iff.mp all
  obtain ⟨db', rn', all⟩ := Option.map_eq_some_iff.mp all
  simp only [Prod.mk.injEq] at all
  obtain ⟨dependencies, failed⟩ := all
  obtain ⟨t1, ht1, failed⟩ := Option.map_eq_some_iff.mp failed
  have depends : db.DependsOn "t3" "t1" := by
    unfold Db.DependsOn
    rw [dependencies]
    exact List.mem_singleton_self _
  obtain ⟨t, ht, pending, _⟩ := starved_waits rn rn' (.failed depends ⟨t1, ht1, failed⟩)
  exact ⟨db, db', t, rn, rn', ht, pending⟩

/-! ## Running until idle -/

/-- Leaving out that a task is there. -/
lemma Db.remaining_none (none : db.remaining = none) {id : String} {t : Task}
    (ht : db.tasks.get id = some t) : t.status.remains = false := by
  rw [← Bool.not_eq_true]
  intro remains
  have mem : id ∈ db.tasks.keysWhere fun _ t => t.status.remains :=
    Dict.mem_keysWhere.mpr ⟨t, ht, remains⟩
  unfold Db.remaining at none
  rw [List.head?_eq_none_iff] at none
  rw [none] at mem
  cases mem

/-- A reachable database with a task that is there. -/
structure There (valid : Json → Except PyErr ComputeTaskSpec) (id : String) (db : Db) : Prop where
  reachable : db.Reachable valid
  task : db.HasTask id fun _ => True

lemma There.steady (id : String) : Steady valid (There valid id) := by
  rintro db db' ⟨reachable, task⟩ reaches
  exact ⟨reachable.trans reaches, task.reached (fun _ _ => trivial) reaches⟩

/-- `run_until_idle` returns only if every task has its verdict. -/
lemma ControllerProcess.runUntilIdle_leads (c : ControllerProcess) (id : String)
    (rounds : List ReconcilerSetup) :
    Ticking.Leads valid (There valid id) (Verified id) (c.runUntilIdle valid rounds) := by
  induction rounds with
  | nil => exact Program.Leads.raise _ _ _
  | cons r rounds ih =>
    have tick : Ticking.Leads valid (There valid id) (There valid id) (c.tick valid r) :=
      Ticking.Leads.keeps (There.steady id) fun w => c.tick_upholds r w
    apply tick.bind
    intro _
    apply Ticking.Leads.transaction (e := .remaining) (There.steady id) trivial
    intro w o there
    have answered : (w.handleTick valid .remaining o).2 = w.db.remaining := rfl
    rw [answered]
    cases left : w.db.remaining with
    | some other => exact ih w there
    | none =>
      obtain ⟨t, ht, _⟩ := there.task
      have inUse := there.reachable.inUse ht
      have ended := Db.remaining_none left ht
      refine fun _ _ => ⟨t, ht, ?_⟩
      unfold Task.Settled
      revert inUse ended
      cases t.status <;> decide

/-- If `run_until_idle` returns, every task that was there when it was called has its verdict and
    keeps it, everything that one of them depends on has succeeded, and none waited for a failed
    task. -/
theorem until_idle_returns {w : LocalWorld} (empty : w.db = Db.empty)
    {before events later : List TickEvent} {p p₁ p₂ p₃ : TickState} {c : ControllerProcess}
    {rounds : List ReconcilerSetup} (rn : (tickSystem valid).run { world := w } before = some p)
    (st : (tickSystem valid).step p ((), .start (c, .untilIdle rounds)) = some p₁)
    (rn₁ : (tickSystem valid).run p₁ events = some p₂)
    (once : ∀ started, ((), .start started) ∉ events) {result : Option TickResult}
    (returned : p₂.ended () = some (.ok result))
    (rn₂ : (tickSystem valid).run p₂ later = some p₃) :
    (∀ {id t}, p.world.db.tasks.get id = some t →
      ∃ t', p₃.world.db.tasks.get id = some t' ∧ (t'.status = .succeeded ∨ t'.status = .failed)) ∧
    (∀ {id dependencyId}, p.world.db.DependsOn id dependencyId →
      ∃ t', p₃.world.db.tasks.get dependencyId = some t' ∧ t'.status = .succeeded) ∧
    ∀ id, ¬ Starved p.world.db id := by
  have reachable : p.world.db.Reachable valid := by
    have reaches : Db.Reaches valid w.db p.world.db := Machine.pool_rely (ticks_fit w) rn
    rw [empty] at reaches
    exact reaches
  have kept : ∀ {F : Db → Prop}, Steady valid F → F p.world.db → F p₃.world.db :=
    fun steady holds => command_reaches rn st rn₁ once returned rn₂ steady
      (Ticking.Leads.keeps steady fun w => c.main_upholds _ w) holds
  have verified : ∀ {id t}, p.world.db.tasks.get id = some t → Verified id p₃.world.db := by
    intro id t ht
    have leads : Ticking.Leads valid (There valid id) (Verified id)
        (c.main valid (.untilIdle rounds)) :=
      (c.runUntilIdle_leads id rounds).bind fun _ => Program.Leads.ret _ _
    exact command_reaches rn st rn₁ once returned rn₂ (Verified.steady id) leads
      ⟨reachable, t, ht, trivial⟩
  have reachable' := kept Db.Reachable.steady reachable
  refine ⟨verified, ?_, ?_⟩
  · intro id dependencyId depends
    have depends' : p₃.world.db.DependsOn id dependencyId :=
      kept (F := fun db => db.DependsOn id dependencyId)
        (fun _ _ depends reaches => reaches.dependsOn depends) depends
    obtain ⟨t, ht⟩ := reachable.ordered.source depends
    obtain ⟨t', ht', settled⟩ := verified ht
    obtain pending | succeeded := reachable'.pending_or ht'
    · rcases settled with e | e <;> rw [e] at pending <;> cases pending
    · exact succeeded dependencyId depends'
  · intro id starved
    obtain ⟨t, ht, _⟩ := starved.pending reachable
    obtain ⟨t', ht', settled⟩ := verified ht
    have starved' := kept (F := fun db => Starved db id)
      (fun _ _ starved reaches => starved.reached reaches) starved
    obtain ⟨t'', ht'', pending⟩ := starved'.pending reachable'
    cases ht'.symm.trans ht''
    rcases settled with e | e <;> rw [e] at pending <;> cases pending

/-- Every job is seen to have failed. -/
def failingSetup : ReconcilerSetup :=
  { tickedSetup with
    poll := fun view => .ok { computeJobId := view.id, observedAt := 2, observationStatus := .fresh,
                              executionStatus := .failed, exitCode := some 1 } }

/-- In three rounds a task is dispatched, submitted, and refused. Another process ticks once
    more. -/
theorem until_idle_returns_refused :
    ∃ p p₁ p₂ p₃ t, tickedSystem.run { world := { db := Db.empty } } tickedStart = some p ∧
      tickedSystem.step p ((), .start (tickedProcess "a",
        .untilIdle (List.replicate 3 failingSetup))) = some p₁ ∧
      tickedSystem.run p₁ (List.replicate 49 ((), .perform (tickedAnswer "j1"))) = some p₂ ∧
      tickedSystem.run p₂ (((), .start (tickedProcess "b", .once failingSetup)) ::
        List.replicate 5 ((), .perform (tickedAnswer "j2"))) = some p₃ ∧
      p.world.db.tasks.get "t" = some t ∧ t.status = .pending ∧
      ∃ t', p₃.world.db.tasks.get "t" = some t' ∧
        (t'.status = .succeeded ∨ t'.status = .failed) := by
  have all : ((tickedSystem.run { world := { db := Db.empty } } tickedStart).bind fun p =>
      (tickedSystem.step p ((), .start (tickedProcess "a",
          .untilIdle (List.replicate 3 failingSetup)))).bind fun p₁ =>
        (tickedSystem.run p₁ (List.replicate 49 ((), .perform (tickedAnswer "j1")))).bind fun p₂ =>
          (tickedSystem.run p₂ (((), .start (tickedProcess "b", .once failingSetup)) ::
            List.replicate 5 ((), .perform (tickedAnswer "j2")))).map fun _ =>
              ((p.world.db.tasks.get "t").map (·.status), (p₂.ended ()).any (·.isOk))) =
      some (some .pending, true) := by
    decide
  obtain ⟨p, rn, all⟩ := Option.bind_eq_some_iff.mp all
  obtain ⟨p₁, st, all⟩ := Option.bind_eq_some_iff.mp all
  obtain ⟨p₂, rn₁, all⟩ := Option.bind_eq_some_iff.mp all
  obtain ⟨p₃, rn₂, all⟩ := Option.map_eq_some_iff.mp all
  simp only [Prod.mk.injEq] at all
  obtain ⟨pending, ended⟩ := all
  obtain ⟨t, ht, pending⟩ := Option.map_eq_some_iff.mp pending
  have once : ∀ started, (((), .start started) : TickEvent) ∉
      List.replicate 49 ((), .perform (tickedAnswer "j1")) := by
    intro started mem
    cases List.eq_of_mem_replicate mem
  cases returned : p₂.ended () with
  | none =>
    rw [returned] at ended
    cases ended
  | some result =>
    cases result with
    | error e =>
      rw [returned] at ended
      cases ended
    | ok result =>
      obtain ⟨verdicts, _⟩ := until_idle_returns rfl rn st rn₁ once returned rn₂
      exact ⟨p, p₁, p₂, p₃, t, rn, st, rn₁, rn₂, ht, pending, verdicts ht⟩

end ResearchController
