import ResearchController.Services.TaskReadiness

/-!
# Exactness of readiness

`TaskReadinessService.reconcile` queries the states of the dependencies again in every iteration,
from the tables it is updating. Its own updates take tasks from `PENDING` to `READY`, and neither is
`SUCCEEDED`, so they never change the outcome of a later test (`readied_dependencyStates`). The loop
therefore moves the candidates that pass the test before it, in the order of the visit.
-/

namespace ResearchController
open Lib

/-- The task waits for nothing any more: it is pending, its start time has come and all tasks it
    depends on have succeeded. -/
def Db.MayStart (db : Db) (current : Datetime) (id : String) : Prop :=
  ∃ t, db.tasks.get id = some t ∧ t.status = .pending ∧
    (∀ notBefore, t.notBefore = some notBefore → notBefore ≤ current) ∧
    ∀ d ∈ db.dependencies, d.taskId = id →
      ∀ s, db.tasks.get d.dependsOnTaskId = some s → s.status = .succeeded

/-- The event of a task that becomes ready. -/
def Event.Readies (e : Event) (id : String) (t : Task) : Prop :=
  e.projectId = t.projectId ∧ e.eventType = "TASK_READY" ∧ e.entityType = "TASK" ∧
    e.entityId = id ∧ e.oldState = some "PENDING" ∧ e.newState = some "READY"

/-- Two databases differ by the listed tasks, which have become ready, and by one event for each of
    them. -/
structure Db.Readied (changedAt : Datetime) (ids : List String) (db db' : Db) : Prop where
  moved : ∀ id ∈ ids, ∃ t, db.tasks.get id = some t ∧ t.status = .pending ∧
    db'.tasks.get id = some (t.moved .ready changedAt)
  others : ∀ id, id ∉ ids → db'.tasks.get id = db.tasks.get id
  jobs : db'.jobs = db.jobs
  artifacts : db'.artifacts = db.artifacts
  dependencies : db'.dependencies = db.dependencies
  events : ∃ events, db'.events = db.events ++ events ∧
    List.Forall₂ (fun id e => ∃ t, db.tasks.get id = some t ∧ e.Readies id t) ids events

/-- The transition of an iteration of `reconcile`. -/
def Db.makeReady (changedAt : Datetime) (db : Db) (id : String) : Except PyErr Db :=
  db.transitionTask id .ready (some .pending) none [] changedAt

/-- The test of an iteration of `reconcile`. -/
def Db.dependenciesSucceeded (db : Db) (id : String) : Bool :=
  (db.dependencyStates id).all (· == .succeeded)

lemma Db.reconcileOne_eq_visit (changedAt : Datetime) :
    Db.reconcileOne changedAt = visit Db.dependenciesSucceeded (Db.makeReady changedAt) := rfl

lemma Db.dependenciesSucceeded_iff {db : Db} {id : String} :
    db.dependenciesSucceeded id = true ↔
      ∀ d ∈ db.dependencies, d.taskId = id →
        ∀ t, db.tasks.get d.dependsOnTaskId = some t → t.status = .succeeded := by
  constructor
  · intro h d mem own t ht
    exact dependencyStates_all h mem own ht
  · intro h
    refine List.all_eq_true.mpr fun s mem => ?_
    obtain ⟨d, memD, es⟩ := List.mem_filterMap.mp mem
    split at es
    · rename_i own
      obtain ⟨t, ht, rfl⟩ := Option.map_eq_some_iff.mp es
      exact beq_iff_eq.mpr (h d memD own t ht)
    · cases es

/-- A task may start if it is a candidate that passes the test. -/
lemma Db.mayStart_iff {db : Db} {current : Datetime} {id : String} :
    db.MayStart current id ↔
      id ∈ db.readinessCandidates current ∧ db.dependenciesSucceeded id = true := by
  rw [dependenciesSucceeded_iff, readinessCandidates, Dict.mem_keysWhere]
  simp only [MayStart, Bool.and_eq_true, beq_iff_eq, Option.all_eq_true, decide_eq_true_eq]
  constructor
  · rintro ⟨t, ht, pending, due, dependencies⟩
    exact ⟨⟨t, ht, pending, due⟩, dependencies⟩
  · rintro ⟨⟨t, ht, pending, due⟩, dependencies⟩
    exact ⟨t, ht, pending, due, dependencies⟩

/-! ## One transition -/

/-- Inversion for one transition, with its event. -/
lemma Db.makeReady_ok {changedAt : Datetime} {db db' : Db} {id : String}
    (h : db.makeReady changedAt id = .ok db') :
    ∃ t e, db.tasks.get id = some t ∧ t.status = .pending ∧ e.Readies id t ∧
      db'.toRows = { db.toRows with tasks := db.tasks.set id (t.moved .ready changedAt) } ∧
      db'.events = db.events ++ [e] := by
  obtain ⟨t, _, _, ht, expected, _, _, _⟩ := transitionTask_ok h
  have pending : t.status = .pending := expected _ rfl
  have logs : ({ db with tasks := db.tasks.set id (t.moved .ready changedAt) } : Db).append
      t.projectId
        { eventType := "TASK_READY", entityType := "TASK", entityId := id,
          oldState := some "PENDING", newState := some "READY" } = .ok db' := by
    rw [← h]
    simp [makeReady, transitionTask, ht, pending, taskTransitions, taskEventTypes,
      TaskStatus.value]
  obtain ⟨_, hp, _, _, rfl⟩ := append_ok logs
  refine ⟨t, _, ht, pending, ?_, logged_rows _ _ _, logged_events hp _⟩
  exact ⟨rfl, rfl, rfl, rfl, rfl, rfl⟩

/-- Making a task ready changes no test: neither its old nor its new status is `SUCCEEDED`. -/
lemma Db.makeReady_stable {changedAt : Datetime} {db : Db} {id : String} {db' : Db}
    (h : db.makeReady changedAt id = .ok db') :
    db'.dependenciesSucceeded = db.dependenciesSucceeded := by
  obtain ⟨t, _, ht, pending, _, rows, _⟩ := makeReady_ok h
  funext k
  rw [Bool.eq_iff_iff, dependenciesSucceeded_iff, dependenciesSucceeded_iff, rows]
  refine forall₃_congr fun d _ _ => ?_
  rw [Dict.get_set]
  split
  · rename_i same
    rw [same]
    refine iff_of_false (fun h => ?_) fun h => ?_
    · have succeeded := h _ rfl
      rw [Task.moved_status] at succeeded
      cases succeeded
    · have succeeded := h t ht
      rw [pending] at succeeded
      cases succeeded
  · exact Iff.rfl

/-! ## The loop -/

/-- The loop over the candidates in terms of the test before it. -/
lemma Db.reconcile_eq (db : Db) (changedAt : Datetime) (candidates : List String) :
    db.reconcile changedAt candidates =
      ((candidates.filter db.dependenciesSucceeded).foldlM (Db.makeReady changedAt) db).map
        fun db' => (candidates.filter db.dependenciesSucceeded, db') := by
  rw [reconcile, reconcileOne_eq_visit,
    foldlM_visit (fun _ _ _ => makeReady_stable) candidates [] db, List.nil_append]

/-- What the transitions of distinct tasks have done. -/
lemma Db.readied_of_foldlM {changedAt : Datetime} {ids : List String} {db db' : Db}
    (distinct : ids.Nodup) (h : ids.foldlM (Db.makeReady changedAt) db = .ok db') :
    Db.Readied changedAt ids db db' := by
  induction ids generalizing db with
  | nil =>
    cases h
    refine ⟨?_, fun _ _ => rfl, rfl, rfl, rfl, [], (List.append_nil _).symm, .nil⟩
    intro id mem
    cases mem
  | cons id ids ih =>
    obtain ⟨db1, first, h⟩ := foldlM_cons_ok.mp h
    obtain ⟨fresh, distinct⟩ := List.nodup_cons.mp distinct
    obtain ⟨t, e, ht, pending, readies, rows, logged⟩ := makeReady_ok first
    have rest := ih distinct h
    have own : db1.tasks.get id = some (t.moved .ready changedAt) := by
      rw [rows]
      exact Dict.get_set_self _ _ _
    have apart : ∀ k, k ≠ id → db1.tasks.get k = db.tasks.get k := by
      intro k ne
      rw [rows]
      exact Dict.get_set_ne _ _ ne
    refine ⟨?_, ?_, ?_, ?_, ?_, ?_⟩
    · intro k mem
      rcases List.mem_cons.mp mem with rfl | later
      · exact ⟨t, ht, pending, (rest.others k fresh).trans own⟩
      · rw [← apart k (ne_of_mem_of_not_mem later fresh)]
        exact rest.moved k later
    · intro k absent
      obtain ⟨ne, absent⟩ := not_or.mp (mt List.mem_cons.mpr absent)
      exact (rest.others k absent).trans (apart k ne)
    · rw [rest.jobs, rows]
    · rw [rest.artifacts, rows]
    · rw [rest.dependencies, rows]
    · obtain ⟨events, appended, each⟩ := rest.events
      refine ⟨e :: events, by rw [appended, logged, List.append_assoc]; rfl, ?_⟩
      -- the later tasks are others, so their rows are still those of the start
      refine .cons ⟨t, ht, readies⟩ ?_
      have others : ∀ k ∈ ids, k ≠ id := fun k mem => ne_of_mem_of_not_mem mem fresh
      refine ((List.forall₂_and_left _ _).mpr ⟨others, each⟩).imp ?_
      rintro k e ⟨ne, s, hs, readies⟩
      exact ⟨s, (apart k ne).symm.trans hs, readies⟩

/-- On a sound database the transitions of distinct pending tasks succeed. -/
lemma Db.Sound.makeReady_total {ids : List String} {db : Db} (sd : db.Sound)
    (changedAt : Datetime) (distinct : ids.Nodup)
    (pending : ∀ id ∈ ids, ∃ t, db.tasks.get id = some t ∧ t.status = .pending) :
    ∃ db', ids.foldlM (Db.makeReady changedAt) db = .ok db' := by
  induction ids generalizing db with
  | nil => exact ⟨db, rfl⟩
  | cons id ids ih =>
    obtain ⟨fresh, distinct⟩ := List.nodup_cons.mp distinct
    obtain ⟨t, ht, waits⟩ := pending id List.mem_cons_self
    have legal : TaskStatus.ready ∈ taskTransitions t.status := by
      rw [waits]
      decide
    obtain ⟨db1, first⟩ :=
      sd.transitionTask_total ht legal (expected_some waits) none [] changedAt
    have later : ∀ k ∈ ids, ∃ t, db1.tasks.get k = some t ∧ t.status = .pending := by
      intro k mem
      obtain ⟨t1, _, _, _, _, rows, _⟩ := makeReady_ok first
      rw [rows, Dict.get_set_ne _ _ (ne_of_mem_of_not_mem mem fresh)]
      exact pending k (List.mem_cons_of_mem _ mem)
    obtain ⟨db', rest⟩ := ih (sd.transitionTask first) distinct later
    exact ⟨db', foldlM_cons_ok.mpr ⟨db1, first, rest⟩⟩

/-- After the tasks that may start have become ready no other one may start. -/
lemma Db.Readied.nothingMayStart {current changedAt : Datetime} {ids : List String} {db db' : Db}
    (rd : Db.Readied changedAt ids db db') (all : ∀ id, db.MayStart current id → id ∈ ids)
    (id : String) : ¬ db'.MayStart current id := by
  rintro ⟨t, ht, pending, due, dependencies⟩
  have absent : id ∉ ids := by
    intro mem
    obtain ⟨_, _, _, moved⟩ := rd.moved id mem
    rw [moved] at ht
    cases ht
    rw [Task.moved_status] at pending
    cases pending
  have before := rd.others id absent
  apply absent
  apply all
  refine ⟨t, before ▸ ht, pending, due, ?_⟩
  intro d mem own s hs
  rw [← rd.dependencies] at mem
  by_cases readied : d.dependsOnTaskId ∈ ids
  · obtain ⟨u, _, _, moved⟩ := rd.moved _ readied
    have succeeded := dependencies d mem own _ moved
    rw [Task.moved_status] at succeeded
    cases succeeded
  · rw [← rd.others _ readied] at hs
    exact dependencies d mem own s hs

/-- In whatever order the candidates are visited, exactly the tasks that may start become ready,
    each with one event and nothing else changed, and a second call at the same time moves
    nothing. -/
theorem Db.reconcile_exact (db : Db) (current changedAt : Datetime) (candidates : List String)
    (order : candidates.Perm (db.readinessCandidates current)) :
    (db.Sound → ∃ readied db', db.reconcile changedAt candidates = .ok (readied, db')) ∧
      ∀ readied db', db.reconcile changedAt candidates = .ok (readied, db') →
        (∀ id, id ∈ readied ↔ db.MayStart current id) ∧
          readied.Nodup ∧
          Db.Readied changedAt readied db db' ∧
          ∀ changedAgain visited, visited.Perm (db'.readinessCandidates current) →
            db'.reconcile changedAgain visited = .ok ([], db') := by
  have distinct : (candidates.filter db.dependenciesSucceeded).Nodup :=
    (order.nodup_iff.mpr (Dict.nodup_keysWhere _ _)).filter _
  have chosen : ∀ id, id ∈ candidates.filter db.dependenciesSucceeded ↔ db.MayStart current id := by
    intro id
    rw [List.mem_filter, order.mem_iff, mayStart_iff]
  constructor
  · intro sd
    have pending : ∀ id ∈ candidates.filter db.dependenciesSucceeded,
        ∃ t, db.tasks.get id = some t ∧ t.status = .pending := by
      intro id mem
      obtain ⟨t, ht, waits, _⟩ := (chosen id).mp mem
      exact ⟨t, ht, waits⟩
    obtain ⟨db', moved⟩ := sd.makeReady_total changedAt distinct pending
    exact ⟨_, db', by rw [reconcile_eq, moved]; rfl⟩
  · intro readied db' h
    rw [reconcile_eq] at h
    cases moved : (candidates.filter db.dependenciesSucceeded).foldlM (Db.makeReady changedAt) db
    with
    | error e =>
      rw [moved] at h
      cases h
    | ok db1 =>
      rw [moved] at h
      cases h
      have rd := readied_of_foldlM distinct moved
      refine ⟨chosen, distinct, rd, ?_⟩
      intro changedAgain visited orderAgain
      -- a second pass: whatever could start has left `pending`
      have nothing : visited.filter db'.dependenciesSucceeded = [] := by
        refine List.filter_eq_nil_iff.mpr fun id mem succeeded => ?_
        have stays := rd.nothingMayStart (fun id => (chosen id).mpr) id
        exact stays (mayStart_iff.mpr ⟨orderAgain.mem_iff.mp mem, succeeded⟩)
      rw [reconcile_eq, nothing]
      rfl

/-- A pending task without dependencies and one that depends on it. -/
def waitingPair : Db :=
  let row (key : String) : Task :=
    { projectId := "p", executor := .compute, specJson := .null, idempotencyKey := key,
      createdAt := 0 }
  { tasks := (Dict.empty.set "first" (row "first")).set "second" (row "second"),
    dependencies := [{ taskId := "second", dependsOnTaskId := "first" }],
    projects := Dict.empty.set "p" { slug := "p" } }

/-- Visiting the dependent task after the one it waits for does not make it ready. -/
theorem Db.reconcile_exact_waitingPair :
    ∃ db', waitingPair.reconcile 1 ["first", "second"] = .ok (["first"], db') ∧
      Db.Readied 1 ["first"] waitingPair db' ∧
      db'.reconcile 2 (db'.readinessCandidates 1) = .ok ([], db') := by
  have order : ["first", "second"].Perm (waitingPair.readinessCandidates 1) := by decide
  have first : (waitingPair.reconcile 1 ["first", "second"]).toOption.map Prod.fst =
      some ["first"] := by decide
  obtain ⟨⟨_, db'⟩, returned, rfl⟩ := Option.map_eq_some_iff.mp first
  have ok := ok_of_toOption returned
  obtain ⟨_, exact⟩ := Db.reconcile_exact waitingPair 1 1 ["first", "second"] order
  obtain ⟨_, _, rd, again⟩ := exact _ db' ok
  exact ⟨db', ok, rd, again 2 _ (List.Perm.refl _)⟩

end ResearchController
