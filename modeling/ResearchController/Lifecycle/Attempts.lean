import ResearchController.Isolation.Dispatch
import ResearchController.Lifecycle.Identity
import ResearchController.Lifecycle.Safety

/-!
# Attempts

Two results about the attempts that the dispatcher counts.

* `attempt_budget`: no task is attempted more often than `max(1, max_attempts)`. Only lease recovery
  compares the count with the budget, so the bound is carried by an invariant that is stronger in
  the two states before a dispatch.
* `fresh_attempts_iff`: the jobs of a compute task are its attempts 1, 2, …, exactly as long as no
  dispatch finds a job under the submission key of its task. Such a job belongs to an earlier
  attempt or to another task, and the dispatcher runs the task without one of its own.
-/

namespace ResearchController
open Lib

variable {valid : Json → Except PyErr ComputeTaskSpec}

/-! ## The budget -/

/-- The attempts a task may have: at least one, whatever its `max_attempts` says. -/
def Task.budget (t : Task) : Int := max 1 t.maxAttempts

/-- A task is within its budget, with an attempt to spare before it is dispatched. -/
structure Task.InBudget (t : Task) : Prop where
  pending : t.status = .pending → t.attemptCount = 0
  ready : t.status = .ready → (t.attemptCount : Int) < t.budget
  spent : (t.attemptCount : Int) ≤ t.budget

@[simp] lemma Task.moved_budget (t : Task) (toStatus : TaskStatus) (now : Datetime) :
    (t.moved toStatus now).budget = t.budget := by
  unfold moved; split <;> split <;> rfl

/-- A move that does not start an attempt stays in the budget, unless it makes the task ready. -/
lemma Task.InBudget.move {t : Task} (ib : t.InBudget) {toStatus : TaskStatus} (now : Datetime)
    (idle : toStatus ≠ .running) (pending : toStatus ≠ .pending)
    (spare : toStatus = .ready → (t.attemptCount : Int) < t.budget) :
    (t.moved toStatus now).InBudget := by
  have count : (t.moved toStatus now).attemptCount = t.attemptCount := by
    rw [moved_attemptCount, if_neg idle, Nat.add_zero]
  refine ⟨?_, ?_, ?_⟩
  · rw [moved_status]
    exact fun e => (pending e).elim
  · rw [moved_status, count, moved_budget]
    exact spare
  · rw [count, moved_budget]
    exact ib.spent

/-- A ready task has an attempt to spend. -/
lemma Task.InBudget.start {t : Task} (ib : t.InBudget) (ready : t.status = .ready)
    (now : Datetime) : (t.moved .running now).InBudget := by
  refine ⟨?_, ?_, ?_⟩
  · rw [moved_status]
    intro e
    cases e
  · rw [moved_status]
    intro e
    cases e
  · have spare := ib.ready ready
    rw [moved_attemptCount, if_pos rfl, moved_budget]
    omega

/-- Columns that the budget does not look at. -/
lemma Task.InBudget.ofSame {t t' : Task} (ib : t.InBudget) (status : t'.status = t.status)
    (count : t'.attemptCount = t.attemptCount) (maxAttempts : t'.maxAttempts = t.maxAttempts) :
    t'.InBudget := by
  have budget : t'.budget = t.budget := by
    unfold Task.budget
    rw [maxAttempts]
  exact ⟨fun e => count.trans (ib.pending (status.symm.trans e)),
    fun e => by rw [count, budget]; exact ib.ready (status.symm.trans e),
    by rw [count, budget]; exact ib.spent⟩

lemma Task.InBudget.unleased {t : Task} (ib : t.InBudget) : t.unleased.InBudget :=
  ib.ofSame rfl rfl rfl

lemma Task.InBudget.leased {t : Task} (ib : t.InBudget) (owner : String) (expiresAt : Datetime) :
    (t.leased owner expiresAt).InBudget :=
  ib.ofSame rfl rfl rfl

lemma Task.InBudget.summarised {t : Task} (ib : t.InBudget) (result : ValidationResult) :
    (t.summarised result).InBudget :=
  ib.ofSame rfl rfl rfl

/-- A task whose lease has expired is made ready again only if attempts are left. -/
lemma Task.InBudget.expire {t : Task} (ib : t.InBudget) (now : Datetime) :
    (t.expired now).InBudget := by
  have failed : (t.unleased.moved .failed now).InBudget :=
    ib.unleased.move now (by decide) (by decide) fun e => TaskStatus.noConfusion e
  unfold expired
  split
  · rename_i attempts
    apply failed.move now (by decide) (by decide)
    intro _
    rw [moved_attemptCount, if_neg (by decide), moved_budget, Nat.add_zero]
    exact lt_of_lt_of_le attempts (le_max_right 1 t.maxAttempts)
  · exact failed

/-- Every move keeps every task within its budget. -/
theorem Move.inBudget {r r' : Rows} (mv : Move valid r r')
    (all : ∀ id t, r.tasks.get id = some t → t.InBudget) (id : String) (t' : Task)
    (ht : r'.tasks.get id = some t') : t'.InBudget := by
  have stored : ∀ {id t}, r.tasks.get id = some t → t.InBudget := fun ht => all _ _ ht
  have set : ∀ {k s}, s.InBudget → (r.tasks.set k s).get id = some t' → t'.InBudget := by
    intro k s inBudget h
    rw [Dict.get_set] at h
    split at h
    · cases h
      exact inBudget
    · exact stored h
  cases mv with
  | @created a fresh _ =>
    refine set (s := a.row) ⟨fun _ => rfl, fun e => TaskStatus.noConfusion e, ?_⟩ ht
    exact (Int.zero_lt_one.trans_le (le_max_left 1 _)).le
  | @readied _ t now ht0 pending _ =>
    have ib := stored ht0
    refine set (ib.move now (by decide) (by decide) fun _ => ?_) ht
    rw [ib.pending pending]
    exact Int.zero_lt_one.trans_le (le_max_left 1 t.maxAttempts)
  | unleased ht0 kept => exact set (stored ht0).unleased ht
  | expired ht0 running idle => exact set ((stored ht0).expire _) ht
  | joined ht0 ready => exact set (((stored ht0).leased _ _).start ready _) ht
  | dispatched ht0 ready fresh attempt =>
    exact set (((stored ht0).leased _ _).start ready _) ht
  | advanced _ _ => exact stored ht
  | finalised _ _ _ owner _ =>
    exact set ((stored owner).move _ (by decide) (by decide) fun e => TaskStatus.noConfusion e) ht
  | orphaned _ _ _ _ => exact stored ht
  | ingested _ _ => exact stored ht
  | passed ht0 verifying parsed accepted =>
    exact set (((stored ht0).summarised _).move _ (by decide) (by decide)
      fun e => TaskStatus.noConfusion e) ht
  | refused ht0 verifying =>
    exact set (((stored ht0).summarised _).move _ (by decide) (by decide)
      fun e => TaskStatus.noConfusion e) ht

/-- No task is attempted more often than its budget allows, and a ready task has an attempt left. -/
theorem attempt_budget {db : Db} {actions : List Action}
    (rn : (controller valid).run Db.empty actions = some db) {id : String} {t : Task}
    (ht : db.tasks.get id = some t) :
    (t.attemptCount : Int) ≤ max 1 t.maxAttempts ∧
      (t.status = .ready → (t.attemptCount : Int) < max 1 t.maxAttempts) := by
  have start : ∀ id t, Db.empty.tasks.get id = some t → t.InBudget := by
    intro id t ht
    cases ht
  have all := moves_invariant (P := fun r : Rows => ∀ id t, r.tasks.get id = some t → t.InBudget)
    (fun r r' each mv => mv.inBudget each) (controller_refines rn) start
  exact ⟨(all id t ht).spent, (all id t ht).ready⟩

/-- A task that is dispatched, whose lease expires, and that is dispatched again. -/
def retriedTask : List Action :=
  [ .createProject "p" "slug" .active,
    .createTask { id := "t", projectId := "p", executor := .compute, idempotencyKey := "t",
                  specJson := .null, maxAttempts := 2 },
    .createTask (sharedTask "t1"),
    .reconcile 0 0 ["t", "t1"],
    .dispatch (sharedJob "j1" "t1") "c" 60 0,
    .dispatch (sharedJob "j" "t") "c" 60 0,
    .recoverExpiredLeases 60 60 ["t1", "t"],
    .dispatch (sharedJob "j" "t") "c" 120 60 ]

/-- The retried task has used up its budget of two attempts. -/
theorem attempt_budget_retried :
    ∃ db t, (controller fun _ => .ok sharedSpec).run Db.empty retriedTask = some db ∧
      db.tasks.get "t" = some t ∧ t.attemptCount = 2 ∧
      (t.attemptCount : Int) ≤ max 1 t.maxAttempts := by
  obtain ⟨db, rn⟩ := Option.isSome_iff_exists.mp
    (show ((controller fun _ => .ok sharedSpec).run Db.empty retriedTask).isSome = true by decide)
  have twice : ((controller fun _ => .ok sharedSpec).run Db.empty retriedTask).map (fun db =>
      (db.tasks.get "t").map (·.attemptCount)) = some (some 2) := by decide
  rw [rn, Option.map_some, Option.some.injEq, Option.map_eq_some_iff] at twice
  obtain ⟨t, ht, count⟩ := twice
  exact ⟨db, t, rn, ht, count, (attempt_budget rn ht).1⟩

/-! ## One job an attempt -/

/-- The attempt numbers of a task's jobs, in the order of the table. -/
def Db.attemptNos (db : Db) (id : String) : List Nat :=
  (db.jobs.items.filter fun (_, j) => j.taskId == id).map fun (_, j) => j.attemptNo

/-- The jobs of every compute task are its attempts 1, 2, … up to the number it counts. -/
def Db.FreshAttempts (db : Db) : Prop :=
  ∀ id t, db.tasks.get id = some t → t.executor = .compute →
    db.attemptNos id = List.range' 1 t.attemptCount

/-- A dispatch that finds its compute task ready finds no job under the submission key. -/
def Db.DispatchesAnew (db : Db) : Action → Prop
  | .dispatch a _ _ _ => ∀ t, db.tasks.get a.taskId = some t → t.executor = .compute →
      t.status = .ready → ∀ k j, db.jobs.get k = some j →
        ¬ (j.providerId = a.providerId ∧ j.submissionKey = a.submissionKey)
  | _ => True

/-- The attempts of a task are read off the fixed columns of the jobs. -/
lemma Db.attemptNos_eq (db : Db) (id : String) :
    db.attemptNos id =
      (db.fixedJobs.filter fun (_, o) => o.taskId == id).map fun (_, o) => o.attemptNo := by
  simp only [attemptNos, fixedJobs, List.filter_map, List.map_map]
  rfl

lemma Db.attemptNos_addJob {db : Db} {k : String} (fresh : db.jobs.get k = none) (j : ComputeJob)
    (id : String) :
    ({ db with jobs := db.jobs.set k j } : Db).attemptNos id =
      db.attemptNos id ++ if j.taskId = id then [j.attemptNo] else [] := by
  simp only [attemptNos, Dict.items_set_of_none fresh, List.filter_append, List.map_append]
  congr 1
  by_cases own : j.taskId = id
  · simp [own]
  · simp [own]

/-- A task without a row has no attempts. -/
lemma Db.Sound.attemptNos_absent {db : Db} (sd : db.Sound) {id : String}
    (absent : db.tasks.get id = none) : db.attemptNos id = [] := by
  rw [Db.attemptNos, List.map_eq_nil_iff, List.filter_eq_nil_iff]
  intro item mem own
  obtain ⟨k, j⟩ := item
  obtain ⟨t, ht⟩ := sd.jobTask ((Dict.mem_items _).mp mem)
  rw [beq_iff_eq.mp own, absent] at ht
  cases ht

/-- Tasks and jobs under the same identities have the same attempts. -/
lemma Db.FreshAttempts.ofFixed {db db' : Db} (fresh : db.FreshAttempts)
    (tasks : db'.tasks.items.map (Prod.map id Task.identity) =
      db.tasks.items.map (Prod.map id Task.identity))
    (jobs : db'.fixedJobs = db.fixedJobs) : db'.FreshAttempts := by
  intro id t' ht' compute
  have e := Dict.get_map_of_items tasks id
  rw [ht'] at e
  obtain ⟨t, ht, same⟩ := Option.map_eq_some_iff.mp e.symm
  have executor : t.executor = t'.executor := congrArg TaskIdentity.executor same
  have count : t.attemptCount = t'.attemptCount := congrArg TaskIdentity.attemptCount same
  have before := fresh id t ht (executor.trans compute)
  rw [attemptNos_eq, jobs, ← attemptNos_eq, before, count]

/-- A new task has no attempts. -/
lemma Db.FreshAttempts.createTask {db db' : Db} (fresh : db.FreshAttempts) (sd : db.Sound)
    {a : TaskArgs} {id : String} (h : db.createTask a = .ok (id, db')) : db'.FreshAttempts := by
  obtain ⟨rfl, _⟩ | ⟨p, _, absent, _, _, rfl⟩ := createTask_ok h
  · exact fresh
  · intro i t ht compute
    rw [logged_rows] at ht
    simp only [attemptNos, logged_rows]
    rw [Dict.get_set] at ht
    split at ht
    · rename_i e
      cases ht
      rw [e]
      exact sd.attemptNos_absent absent
    · exact fresh i t ht compute

/-- A dispatched task counts its new attempt. -/
lemma Db.FreshAttempts.dispatched {db : Db} (fresh : db.FreshAttempts) {a : JobArgs} {t : Task}
    (ht : db.tasks.get a.taskId = some t) (compute : t.executor = .compute)
    (absent : db.jobs.get a.id = none) {owner : String} {expiresAt now : Datetime} {db' : Db}
    (rows : db'.toRows = { db.toRows with
      jobs := db.jobs.set a.id (a.row t),
      tasks := db.tasks.set a.taskId ((t.leased owner expiresAt).moved .running now) }) :
    db'.FreshAttempts := by
  intro id t' ht' compute'
  have attempts : db'.attemptNos id =
      db.attemptNos id ++ if a.taskId = id then [t.attemptCount + 1] else [] := by
    have added := attemptNos_addJob absent (a.row t) id
    simp only [attemptNos] at added ⊢
    rw [rows]
    exact added
  rw [attempts]
  rw [rows, Dict.get_set] at ht'
  split at ht'
  · rename_i own
    cases ht'
    rw [own, if_pos rfl, fresh a.taskId t ht compute, Task.moved_attemptCount, if_pos rfl,
      List.range'_1_concat]
    show _ = List.range' 1 t.attemptCount ++ [1 + t.attemptCount]
    rw [Nat.add_comm 1]
  · rename_i other
    rw [if_neg (Ne.symm other), List.append_nil]
    exact fresh id t' ht' compute'

/-- A dispatch that uses a job again leaves its task with an attempt that has no job. -/
lemma Db.FreshAttempts.not_joined {db : Db} (fresh : db.FreshAttempts) {a : JobArgs} {t : Task}
    (ht : db.tasks.get a.taskId = some t) (compute : t.executor = .compute) {owner : String}
    {expiresAt now : Datetime} {db' : Db}
    (rows : db'.toRows = { db.toRows with
      tasks := db.tasks.set a.taskId ((t.leased owner expiresAt).moved .running now) }) :
    ¬ db'.FreshAttempts := by
  intro fresh'
  have ht' : db'.tasks.get a.taskId = some ((t.leased owner expiresAt).moved .running now) := by
    rw [rows]
    exact Dict.get_set_self _ _ _
  have compute' : ((t.leased owner expiresAt).moved .running now).executor = .compute := compute
  have attempts : db'.attemptNos a.taskId = db.attemptNos a.taskId := by
    simp only [attemptNos]
    rw [rows]
  have after := fresh' a.taskId _ ht' compute'
  rw [attempts, fresh a.taskId t ht compute, Task.moved_attemptCount, if_pos rfl] at after
  have lengths := congrArg List.length after
  rw [List.length_range', List.length_range'] at lengths
  exact Nat.succ_ne_self _ lengths.symm

/-- A dispatch keeps the attempts fresh exactly when it does not use a job again. -/
lemma Db.FreshAttempts.dispatch_iff {db : Db} (fresh : db.FreshAttempts) (sd : db.Sound)
    {a : JobArgs} {owner : String} {leaseExpiresAt now : Datetime}
    (enabled : db.enabled (.dispatch a owner leaseExpiresAt now)) :
    (db.act valid (.dispatch a owner leaseExpiresAt now)).FreshAttempts ↔
      db.DispatchesAnew (.dispatch a owner leaseExpiresAt now) := by
  have returns := db.commit_cases (db.dispatchCommit a owner leaseExpiresAt now)
  change (db.commit (db.dispatchCommit a owner leaseExpiresAt now)).FreshAttempts ↔ _
  constructor
  · intro fresh' t ht compute ready k j hj same
    -- the transaction finds the job and commits
    obtain ⟨⟨jobIds, db1⟩, commits⟩ := (sd.dispatchCommit_total_iff ht ready owner leaseExpiresAt
      now).mpr (Or.inl (Taken.reuses_iff.mpr ⟨k, j, hj, same⟩))
    rw [commits] at fresh'
    obtain ⟨_, notReady⟩ | ⟨t', jobs, ht', _, rows, ⟨rfl, _⟩ | ⟨_, _, noKey, _⟩⟩ :=
      dispatchCommit_ok commits
    · exact notReady t ht ready
    · exact fresh.not_joined ht compute (by rw [ht] at ht'; cases ht'; exact rows) fresh'
    · exact noKey hj same
  · intro anew
    obtain same | ⟨jobIds, h⟩ := returns
    · rw [same]
      exact fresh
    · obtain ⟨same, _⟩ | ⟨t, jobs, ht, ready, rows, ⟨_, k, j, hj, same⟩ | ⟨rfl, absent, _, _⟩⟩ :=
        dispatchCommit_ok h
      · rw [same]
        exact fresh
      · exact (anew t ht (enabled t ht) ready k j hj same).elim
      · exact fresh.dispatched ht (enabled t ht) absent rows

/-- In a run of the controller the jobs of every compute task are its attempts in every state that
    is reached, exactly when no dispatch of the run finds a job under the submission key of its
    task. -/
theorem fresh_attempts_iff (actions : List Action) :
    (∀ before after db, actions = before ++ after →
        (controller valid).run Db.empty before = some db → db.FreshAttempts) ↔
      (controller valid).Meets Db.DispatchesAnew Db.empty actions := by
  rw [← System.throughout_iff]
  refine System.throughout_iff_meets (I := Db.Sound) ?_ ?_ ?_ Db.Sound.empty ?_
  · intro db e db' sd st
    obtain ⟨_, rfl⟩ := controller_step st
    exact sd.act valid e
  · intro db e db' sd fresh st
    obtain ⟨enabled, rfl⟩ := controller_step st
    cases adds : e.addsRow with
    | false =>
      obtain ⟨_, tasks, jobs⟩ := db.act_keepsFixed valid adds
      refine iff_of_true (fresh.ofFixed tasks jobs) ?_
      cases e with
      | dispatch a owner leaseExpiresAt now => cases adds
      | _ => trivial
    | true =>
      cases e with
      | dispatch a owner leaseExpiresAt now => exact fresh.dispatch_iff sd enabled
      | createTask a =>
        exact iff_of_true (Db.commit_keeps fresh fun _ _ h => fresh.createTask sd h) trivial
      | _ => cases adds
  · intro db e disabled
    cases e with
    | dispatch a owner leaseExpiresAt now =>
      simp only [controller] at disabled
      split at disabled
      · cases disabled
      · rename_i notEnabled
        intro t ht compute
        refine (notEnabled fun t' ht' => ?_).elim
        rw [Option.mem_def, ht] at ht'
        cases ht'
        exact compute
    | _ => trivial
  · intro id t ht
    cases ht

/-- Two tasks with one submission key: the dispatch of the second one counts an attempt and creates
    no job for it. -/
theorem attempts_not_fresh :
    ¬ ∀ (actions : List Action) (db : Db),
        (controller fun _ => .ok sharedSpec).run Db.empty actions = some db →
        db.FreshAttempts := by
  intro fresh
  obtain ⟨db, rn⟩ := Option.isSome_iff_exists.mp
    (show ((controller fun _ => .ok sharedSpec).run Db.empty sharedDispatch).isSome = true by
      decide)
  have second : ((controller fun _ => .ok sharedSpec).run Db.empty sharedDispatch).map (fun db =>
      ((db.tasks.get "t2").map fun t => (t.executor, t.attemptCount), db.attemptNos "t2")) =
      some (some (.compute, 1), []) := by decide
  rw [rn, Option.map_some, Option.some.injEq, Prod.mk.injEq, Option.map_eq_some_iff] at second
  obtain ⟨⟨t, ht, columns⟩, none⟩ := second
  rw [Prod.mk.injEq] at columns
  have attempts := fresh sharedDispatch db rn "t2" t ht columns.1
  rw [none, columns.2] at attempts
  cases attempts

end ResearchController
