import ResearchController.Compute.Router
import ResearchController.Services.ProjectState

/-!
# Dispatcher

Port of `services/dispatcher.py`. `dispatch_ready` reads the ready tasks once and then handles them
one after the other: validation of the spec, routing and preparation happen outside of any
transaction, and `Db.dispatchCommit` is the transaction that ends the iteration. Nothing in the loop
catches an exception, so the loop is `commitEach`.

What the dispatcher asks of its surroundings while it handles a task (the validation library, the
providers, the identifier of a new row, the clock) is a field of `ComputeDispatcher`.
-/

namespace ResearchController
open Lib

/-- `ComputeDispatcher` and its surroundings. -/
structure ComputeDispatcher where
  modelValidate : Json → Except PyErr ComputeTaskSpec
  registryAt : String → ProviderRegistry
  newJobId : String → String
  clock : String → Datetime
  controllerId : String
  leaseSeconds : Int

/-- `ORDER BY priority DESC, created_at`. -/
def Task.dispatchBefore (t t' : Task) : Bool :=
  decide (t'.priority < t.priority) ||
    (t.priority == t'.priority && decide (t.createdAt ≤ t'.createdAt))

/-- The query of `dispatch_ready`: ready compute tasks of active projects, by descending priority
    and then by creation time. -/
def Db.readyTasks (db : Db) : List String :=
  let selected := db.tasks.items.filter fun (_, t) =>
    t.status == .ready && t.executor == .compute &&
      (db.projects.get t.projectId).any (·.lifecycle == .active)
  (selected.insertionSort fun (_, t) (_, t') => t.dispatchBefore t').map Prod.fst

/-- `task.lease_owner = …; task.lease_expires_at = …`. -/
def Task.leased (t : Task) (owner : String) (expiresAt : Datetime) : Task :=
  { t with leaseOwner := some owner, leaseExpiresAt := some expiresAt }

/-- The transaction of an iteration of `dispatch_ready`. -/
def Db.dispatchCommit (db : Db) (a : JobArgs) (owner : String) (leaseExpiresAt now : Datetime) :
    Except PyErr (List String × Db) :=
  match db.tasks.get a.taskId with
  | none => .ok ([], db)
  | some task =>
    -- the row is read again, since other transactions may have come in between
    if task.status ≠ .ready then
      .ok ([], db)
    else do
      let (jobId, db) ← db.createComputeJob a
      let db := db.modifyTask a.taskId (·.leased owner leaseExpiresAt)
      let db ← db.transitionTask a.taskId .running (some .ready) none [] now
      return ([jobId], db)

/-- What an iteration computes outside of the transaction. -/
def ComputeDispatcher.plan (c : ComputeDispatcher) (taskId : String) (specJson : Json) :
    Except PyErr JobArgs := do
  let spec ← c.modelValidate specJson
  let registry := c.registryAt taskId
  let route ← registry.route spec
  let provider ← registry.get route.providerId
  let prepared ← provider.prepare spec route.resourceClass
  return { id := c.newJobId taskId, taskId := taskId, providerId := route.providerId,
           resourceClass := route.resourceClass, submissionKey := spec.submissionKey,
           remoteWorkdir := prepared.workdir, specJson := spec }

/-- One iteration of `dispatch_ready`. -/
def ComputeDispatcher.dispatchOne (c : ComputeDispatcher) (s : List String × Db) (taskId : String) :
    Except PyErr (List String × Db) :=
  match s.2.tasks.get taskId with
  | none => .ok s
  | some task =>
    if task.status ≠ .ready then
      .ok s
    else do
      -- an exception of any provider leaves the loop here
      let a ← c.plan taskId task.specJson
      let now := c.clock taskId
      let (jobIds, db) ← s.2.dispatchCommit a c.controllerId (now + c.leaseSeconds * 1000000) now
      return (s.1 ++ jobIds, db)

/-- `ComputeDispatcher.dispatch_ready` over the list of tasks its query returned: the committed
    database, the dispatched jobs and the exception that ended the loop, if any. -/
def ComputeDispatcher.dispatchReady (c : ComputeDispatcher) (db : Db) (taskIds : List String) :
    (List String × Db) × Option PyErr :=
  commitEach c.dispatchOne ([], db) taskIds

/-! ## Inversion -/

/-- Inversion for the transaction of the dispatcher: nothing, or the task runs under a lease with a
    job that is new or that was there before. -/
lemma Db.dispatchCommit_ok {db db' : Db} {a : JobArgs} {owner : String}
    {leaseExpiresAt now : Datetime} {jobIds : List String}
    (h : db.dispatchCommit a owner leaseExpiresAt now = .ok (jobIds, db')) :
    (db' = db ∧ ∀ task, db.tasks.get a.taskId = some task → task.status ≠ .ready) ∨
      ∃ task jobs, db.tasks.get a.taskId = some task ∧ task.status = .ready ∧
        db'.toRows = { db.toRows with
          jobs := jobs,
          tasks := db.tasks.set a.taskId ((task.leased owner leaseExpiresAt).moved .running now) } ∧
        (jobs = db.jobs ∧ (∃ k j, db.jobs.get k = some j ∧ j.providerId = a.providerId ∧
            j.submissionKey = a.submissionKey) ∨
          jobs = db.jobs.set a.id (a.row task) ∧ db.jobs.get a.id = none ∧
            (∀ {k j}, db.jobs.get k = some j →
              ¬ (j.providerId = a.providerId ∧ j.submissionKey = a.submissionKey)) ∧
            ∀ {k j}, db.jobs.get k = some j →
              ¬ (j.taskId = a.taskId ∧ j.attemptNo = task.attemptCount + 1)) := by
  unfold dispatchCommit at h
  split at h
  · rename_i absent
    cases h
    exact Or.inl ⟨rfl, fun task ht => by rw [absent] at ht; cases ht⟩
  · rename_i task ht
    split at h
    · rename_i notReady
      cases h
      refine Or.inl ⟨rfl, fun task' ht' => ?_⟩
      rw [ht] at ht'
      cases ht'
      exact notReady
    · rename_i ready
      obtain ⟨⟨jobId, db1⟩, cj, h⟩ := bind_ok.mp h
      obtain ⟨db2, tr, e⟩ := bind_ok.mp h
      cases e
      refine Or.inr ⟨task, db1.jobs, ht, not_not.mp ready, ?_⟩
      -- `create_compute_job` leaves the task's row as it was
      have same : db1.toRows = { db.toRows with jobs := db1.jobs } := by
        obtain ⟨e, _⟩ | ⟨task', p, _, _, _, _, _, _, e⟩ := createComputeJob_ok cj <;> simp [e]
      have ht1 : db1.tasks.get a.taskId = some task := by
        rw [same]
        exact ht
      rw [modifyTask_of_get ht1] at tr
      obtain ⟨t2, _, _, ht2, _, _, _, rfl⟩ := transitionTask_ok tr
      rw [Dict.get_set_self] at ht2
      cases ht2
      constructor
      · -- the lease and the transition are two writes of the same row
        simp only [logged_rows, Dict.set_set]
        rw [same]
      · obtain ⟨e, j, hj, sameKey⟩ | ⟨task', p, _, ht', absent, noKey, noAttempt, _, e⟩ :=
          createComputeJob_ok cj
        · exact Or.inl ⟨by rw [e], jobId, j, hj, sameKey⟩
        · rw [ht] at ht'
          cases ht'
          exact Or.inr ⟨by rw [e]; simp, absent, noKey, noAttempt⟩

lemma Db.Sound.dispatchCommit {db db' : Db} (sd : db.Sound) {a : JobArgs} {owner : String}
    {leaseExpiresAt now : Datetime} {jobIds : List String}
    (h : db.dispatchCommit a owner leaseExpiresAt now = .ok (jobIds, db')) : db'.Sound := by
  unfold Db.dispatchCommit at h
  split at h
  · cases h
    exact sd
  · split at h
    · cases h
      exact sd
    · obtain ⟨⟨jobId, db1⟩, cj, h⟩ := bind_ok.mp h
      obtain ⟨db2, tr, e⟩ := bind_ok.mp h
      cases e
      have sd1 := sd.createComputeJob cj
      have sd2 := sd1.modifyTask a.taskId (f := (·.leased owner leaseExpiresAt)) (fun _ => rfl)
      exact sd2.transitionTask tr

end ResearchController
