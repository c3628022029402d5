import ResearchController.Services.ProjectState

/-!
# Task readiness

Port of `services/task_readiness.py`. Both services visit the tasks of one query in one transaction.
The order of the visit is not fixed by the query, so the loops take the list of candidates as an
argument; `readinessCandidates` and `expiredCandidates` are the queries. `changedAt` is the clock
reading of the transitions, which the source takes again for each of them.
-/

namespace ResearchController
open Lib

/-- The query of `reconcile`: pending tasks whose `not_before` has passed. -/
def Db.readinessCandidates (db : Db) (current : Datetime) : List String :=
  db.tasks.keysWhere fun _ t => t.status == .pending && t.notBefore.all (decide <| · ≤ current)

/-- The statuses of the tasks that a task depends on. -/
def Db.dependencyStates (db : Db) (id : String) : List TaskStatus :=
  db.dependencies.filterMap fun d =>
    if d.taskId = id then (db.tasks.get d.dependsOnTaskId).map Task.status else none

/-- One iteration of `reconcile`. -/
def Db.reconcileOne (changedAt : Datetime) (s : List String × Db) (id : String) :
    Except PyErr (List String × Db) :=
  if (s.2.dependencyStates id).all (· == .succeeded) then do
    let db ← s.2.transitionTask id .ready (some .pending) none [] changedAt
    return (s.1 ++ [id], db)
  else
    return s

/-- `TaskReadinessService.reconcile`. -/
def Db.reconcile (db : Db) (changedAt : Datetime) (candidates : List String) :
    Except PyErr (List String × Db) :=
  candidates.foldlM (Db.reconcileOne changedAt) ([], db)

/-- The query of `recover_expired_leases`. -/
def Db.expiredCandidates (db : Db) (current : Datetime) : List String :=
  db.tasks.keysWhere fun _ t =>
    t.leaseExpiresAt.any (decide <| · ≤ current) && (t.status == .ready || t.status == .running)

/-- `has_external_work`: some job of the task is not terminal. -/
def Db.hasExternalWork (db : Db) (id : String) : Bool :=
  db.jobs.any fun _ j => j.taskId == id && j.executionStatus.isNonterminal

/-- `task.lease_owner = None; task.lease_expires_at = None`. -/
def Task.unleased (t : Task) : Task :=
  { t with leaseOwner := none, leaseExpiresAt := none }

/-- The second half of an iteration of `recover_expired_leases`, for a task without external
    work. -/
def Db.retryOrFail (db : Db) (changedAt : Datetime) (id : String) (t : Task) : Except PyErr Db := do
  let db ← db.transitionTask id .failed (some .running) (some "TASK_LEASE_EXPIRED")
    [("recovery", .str "retry_without_external_work")] changedAt
  if (t.attemptCount : Int) < t.maxAttempts then
    db.transitionTask id .ready (some .failed) (some "TASK_RETRIED") [] changedAt
  else
    return db

/-- One iteration of `recover_expired_leases`. -/
def Db.recoverOne (changedAt : Datetime) (s : List String × Db) (id : String) :
    Except PyErr (List String × Db) :=
  match s.2.tasks.get id with
  | none => .error (.staleDataError s!"Task {id}")
  | some t =>
    let hasExternalWork := s.2.hasExternalWork id
    -- the lease goes in any case; a job that is under way keeps the task running
    let db := s.2.modifyTask id Task.unleased
    if t.status = .running ∧ hasExternalWork = false then do
      let db ← db.retryOrFail changedAt id t
      return (s.1 ++ [id], db)
    else
      return (s.1 ++ [id], db)

/-- `TaskReadinessService.recover_expired_leases`. -/
def Db.recoverExpiredLeases (db : Db) (changedAt : Datetime) (candidates : List String) :
    Except PyErr (List String × Db) :=
  candidates.foldlM (Db.recoverOne changedAt) ([], db)

/-! ## Inversion -/

lemma Db.dependencyStates_all {db : Db} {id : String}
    (h : (db.dependencyStates id).all (· == .succeeded) = true) {d : TaskDependency} {t : Task}
    (mem : d ∈ db.dependencies) (eq : d.taskId = id)
    (ht : db.tasks.get d.dependsOnTaskId = some t) : t.status = .succeeded := by
  have hall := List.all_eq_true.mp h t.status
  apply beq_iff_eq.mp
  apply hall
  refine List.mem_filterMap.mpr ⟨d, mem, ?_⟩
  rw [if_pos eq, ht]
  rfl

lemma Db.hasExternalWork_iff {db : Db} {id : String} :
    db.hasExternalWork id = true ↔
      ∃ k j, db.jobs.get k = some j ∧ j.taskId = id ∧ j.executionStatus.isNonterminal = true := by
  simp only [hasExternalWork, Dict.any_iff, Bool.and_eq_true, beq_iff_eq]

/-- Inversion for an iteration of `reconcile`: the task becomes ready or nothing happens. -/
lemma Db.reconcileOne_ok {changedAt : Datetime} {s s' : List String × Db} {id : String}
    (h : Db.reconcileOne changedAt s id = .ok s') :
    s' = s ∨
      ∃ t, s.2.tasks.get id = some t ∧ t.status = .pending ∧
        (s.2.dependencyStates id).all (· == .succeeded) = true ∧
        s.2.transitionTask id .ready (some .pending) none [] changedAt = .ok s'.2 ∧
        s'.2.toRows =
          { s.2.toRows with tasks := s.2.tasks.set id (t.moved .ready changedAt) } := by
  unfold reconcileOne at h
  split at h
  · rename_i succeeded
    obtain ⟨db, tr, e⟩ := bind_ok.mp h
    cases e
    obtain ⟨t, p, ty, ht, expected, _, _, rfl⟩ := transitionTask_ok tr
    exact Or.inr ⟨t, ht, expected _ rfl, succeeded, tr, by simp⟩
  · cases h
    exact Or.inl rfl

/-- The task row after its lease has expired without external work. -/
def Task.expired (t : Task) (changedAt : Datetime) : Task :=
  if (t.attemptCount : Int) < t.maxAttempts then
    (t.unleased.moved .failed changedAt).moved .ready changedAt
  else
    t.unleased.moved .failed changedAt

/-- Inversion for `retryOrFail`: one failing move, followed by a retry if attempts are left. -/
lemma Db.retryOrFail_ok {db db' : Db} {changedAt : Datetime} {id : String} {t : Task}
    (ht : db.tasks.get id = some t.unleased) (h : db.retryOrFail changedAt id t = .ok db') :
    t.status = .running ∧
      db'.toRows = { db.toRows with tasks := db.tasks.set id (t.expired changedAt) } := by
  obtain ⟨db1, tr1, h⟩ := bind_ok.mp h
  obtain ⟨t1, _, _, ht1, expected, _, _, e1⟩ := transitionTask_ok tr1
  rw [ht] at ht1
  cases ht1
  have running : t.status = .running := expected _ rfl
  have rows1 : db1.toRows =
      { db.toRows with tasks := db.tasks.set id (t.unleased.moved .failed changedAt) } := by
    rw [e1]
    simp
  refine ⟨running, ?_⟩
  split at h
  · rename_i attempts
    obtain ⟨t2, _, _, ht2, _, _, _, e2⟩ := transitionTask_ok h
    rw [rows1, Dict.get_set_self] at ht2
    cases ht2
    rw [e2]
    simp only [Db.logged_rows, rows1, Task.expired, attempts, if_true, Dict.set_set]
  · rename_i exhausted
    cases h
    simp only [rows1, Task.expired, exhausted, if_false]

/-- Inversion for an iteration of `recover_expired_leases`: the lease is cleared, and a running task
    without external work fails or becomes ready again. -/
lemma Db.recoverOne_ok {changedAt : Datetime} {s s' : List String × Db} {id : String}
    (h : Db.recoverOne changedAt s id = .ok s') :
    ∃ t, s.2.tasks.get id = some t ∧
      (¬ (t.status = .running ∧ s.2.hasExternalWork id = false) ∧
          s'.2 = { s.2 with tasks := s.2.tasks.set id t.unleased } ∨
        t.status = .running ∧ s.2.hasExternalWork id = false ∧
          s'.2.toRows = { s.2.toRows with tasks := s.2.tasks.set id (t.expired changedAt) }) := by
  unfold recoverOne at h
  split at h
  · cases h
  · rename_i t ht
    refine ⟨t, ht, ?_⟩
    simp only [modifyTask_of_get ht] at h
    split at h
    · rename_i stranded
      obtain ⟨db, rt, e⟩ := bind_ok.mp h
      cases e
      obtain ⟨running, rows⟩ := retryOrFail_ok (Dict.get_set_self _ _ _) rt
      refine Or.inr ⟨running, stranded.2, ?_⟩
      simp only [rows, Dict.set_set]
    · rename_i kept
      cases h
      exact Or.inl ⟨kept, rfl⟩

/-! ## Soundness is kept -/

lemma Db.Sound.reconcileOne {changedAt : Datetime} {s s' : List String × Db} {id : String}
    (sd : s.2.Sound) (h : Db.reconcileOne changedAt s id = .ok s') : s'.2.Sound := by
  obtain rfl | ⟨t, _, _, _, tr, _⟩ := reconcileOne_ok h
  · exact sd
  · exact sd.transitionTask tr

lemma Db.Sound.recoverOne {changedAt : Datetime} {s s' : List String × Db} {id : String}
    (sd : s.2.Sound) (h : Db.recoverOne changedAt s id = .ok s') : s'.2.Sound := by
  unfold Db.recoverOne at h
  split at h
  · cases h
  · rename_i t ht
    simp only [modifyTask_of_get ht] at h
    have sd1 : ({ s.2 with tasks := s.2.tasks.set id t.unleased } : Db).Sound :=
      sd.setTask ht rfl
    split at h
    · obtain ⟨db, rt, e⟩ := bind_ok.mp h
      cases e
      obtain ⟨db1, tr1, rt⟩ := bind_ok.mp rt
      have sd2 := sd1.transitionTask tr1
      split at rt
      · exact sd2.transitionTask rt
      · cases rt
        exact sd2
    · cases h
      exact sd1

end ResearchController
