import ResearchController.Controller

/-!
# What the transactions of the controller leave alone

A task or job keeps its identity for as long as it exists: its owner, its spec, the number of the
attempt and, once it is known, the identifier the provider has given to the job. `Db.KeepsIdentity`
says that two databases hold the same tasks and jobs, in the same order, up to the columns that
transitions and observations assign, and the same dependencies.

Only three transactions do more. `create_task` adds a task with its dependencies, the dispatcher
adds a job and counts an attempt, and the `SUBMITTED` commit fills in the identifier of a job; all
others keep the identities (`Db.act_keepsIdentity`).
-/

namespace ResearchController
open Lib

/-- The columns of a task that are fixed when it is created, and the attempts that the dispatcher
    counts. -/
structure TaskIdentity where
  projectId : String
  executor : TaskExecutor
  specJson : Json
  maxAttempts : Int
  idempotencyKey : String
  attemptCount : Nat

/-- The columns of a job that are fixed when it is created. -/
structure JobOwner where
  projectId : String
  taskId : String
  providerId : String
  submissionKey : String
  attemptNo : Nat
  remoteWorkdir : String
  specJson : ComputeTaskSpec

/-- The identity of a task. -/
def Task.identity (t : Task) : TaskIdentity :=
  { projectId := t.projectId, executor := t.executor, specJson := t.specJson,
    maxAttempts := t.maxAttempts, idempotencyKey := t.idempotencyKey,
    attemptCount := t.attemptCount }

/-- The fixed columns of a job. -/
def ComputeJob.fixed (j : ComputeJob) : JobOwner :=
  { projectId := j.projectId, taskId := j.taskId, providerId := j.providerId,
    submissionKey := j.submissionKey, attemptNo := j.attemptNo, remoteWorkdir := j.remoteWorkdir,
    specJson := j.specJson }

/-- The fixed columns of a job and the identifier that the provider has given to it. -/
def ComputeJob.identity (j : ComputeJob) : JobOwner × Option String :=
  (j.fixed, j.externalJobId)

/-! ## Rows -/

lemma Task.moved_identity (t : Task) {toStatus : TaskStatus} (idle : toStatus ≠ .running)
    (now : Datetime) : (t.moved toStatus now).identity = t.identity := by
  simp only [moved, idle, if_false]
  split <;> rfl

lemma Task.expired_identity (t : Task) (now : Datetime) :
    (t.expired now).identity = t.identity := by
  unfold expired
  split
  · rw [moved_identity _ (by decide), moved_identity _ (by decide)]
    rfl
  · rw [moved_identity _ (by decide)]
    rfl

@[simp] lemma ComputeJob.moved_identity (j : ComputeJob) (toStatus : ComputeExecutionStatus)
    (now : Datetime) : (j.moved toStatus now).identity = j.identity := by
  unfold moved; split <;> split <;> split <;> rfl

@[simp] lemma ComputeJob.stepped_identity (j : ComputeJob) (toStatus : ComputeExecutionStatus)
    (now : Datetime) : (j.stepped toStatus now).identity = j.identity := by
  unfold stepped
  split
  · rfl
  · exact j.moved_identity toStatus now

@[simp] lemma ComputeJob.seen_identity (j : ComputeJob) (status : ObservationStatus) :
    (j.seen status).identity = j.identity := by
  unfold seen
  split <;> rfl

@[simp] lemma ComputeJob.started_identity (j : ComputeJob) (status : ComputeExecutionStatus)
    (now : Datetime) : (j.started status now).identity = j.identity := by
  unfold started
  split
  · exact j.stepped_identity .running now
  · rfl

/-- An observation does not change who a job is. -/
lemma ComputeJob.recorded_identity (j : ComputeJob) (obs : JobObservation) (pollInterval : Int)
    (now : Datetime) : (j.recorded obs pollInterval now).identity = j.identity := by
  have polled : ((j.seen obs.observationStatus).polled obs pollInterval).identity = j.identity :=
    j.seen_identity obs.observationStatus
  unfold recorded
  split
  · rfl
  · simp only
    split
    · exact polled
    · split
      · split
        · exact (stepped_identity _ _ _).trans polled
        · exact polled
      · split
        · rw [stepped_identity]
          exact (started_identity _ _ _).trans polled
        · exact polled

/-! ## Tables -/

/-- Two databases hold the same tasks, jobs and dependencies, up to the columns of the state. -/
structure Db.KeepsIdentity (db db' : Db) : Prop where
  dependencies : db'.dependencies = db.dependencies
  tasks : db'.tasks.items.map (Prod.map id Task.identity) =
    db.tasks.items.map (Prod.map id Task.identity)
  jobs : db'.jobs.items.map (Prod.map id ComputeJob.identity) =
    db.jobs.items.map (Prod.map id ComputeJob.identity)

namespace Db.KeepsIdentity

variable {db db' db'' : Db}

lemma ofRows (rows : db'.toRows = db.toRows) : db.KeepsIdentity db' := by
  refine ⟨?_, ?_, ?_⟩ <;> rw [rows]

lemma refl (db : Db) : db.KeepsIdentity db := ofRows rfl

lemma trans (same : db.KeepsIdentity db') (same' : db'.KeepsIdentity db'') :
    db.KeepsIdentity db'' :=
  ⟨same'.dependencies.trans same.dependencies, same'.tasks.trans same.tasks,
    same'.jobs.trans same.jobs⟩

/-- A replaced task row. -/
lemma setTask {id : String} {t t' : Task} (stored : db.tasks.get id = some t)
    (same : t'.identity = t.identity)
    (rows : db'.toRows = { db.toRows with tasks := db.tasks.set id t' }) :
    db.KeepsIdentity db' := by
  refine ⟨?_, ?_, ?_⟩
  · rw [rows]
  · rw [rows]
    exact Dict.mapValues_set stored same
  · rw [rows]

/-- A replaced job row. -/
lemma setJob {id : String} {j j' : ComputeJob} (stored : db.jobs.get id = some j)
    (same : j'.identity = j.identity) (st : Db.SetsJob id j' db db') : db.KeepsIdentity db' := by
  unfold SetsJob at st
  refine ⟨?_, ?_, ?_⟩
  · rw [st]
  · rw [st]
  · rw [st]
    exact Dict.mapValues_set stored same

end Db.KeepsIdentity

/-- A task that is there has been there under the same identity. -/
lemma Db.KeepsIdentity.task {db db' : Db} (same : db.KeepsIdentity db') {id : String} {t' : Task}
    (ht : db'.tasks.get id = some t') :
    ∃ t, db.tasks.get id = some t ∧ t'.identity = t.identity := by
  have e := Dict.get_map_of_items same.tasks id
  rw [ht] at e
  obtain ⟨t, stored, eq⟩ := Option.map_eq_some_iff.mp e.symm
  exact ⟨t, stored, eq.symm⟩

/-- A job that is there has been there under the same identity. -/
lemma Db.KeepsIdentity.job {db db' : Db} (same : db.KeepsIdentity db') {id : String}
    {j' : ComputeJob} (hj : db'.jobs.get id = some j') :
    ∃ j, db.jobs.get id = some j ∧ j'.identity = j.identity := by
  have e := Dict.get_map_of_items same.jobs id
  rw [hj] at e
  obtain ⟨j, stored, eq⟩ := Option.map_eq_some_iff.mp e.symm
  exact ⟨j, stored, eq.symm⟩

/-! ## Transactions -/

/-- The transactions that add a task or a job. -/
def Action.addsRow : Action → Bool
  | .createTask _ => true
  | .dispatch _ _ _ _ => true
  | _ => false

/-- The transactions that neither add a row nor fill in an identifier. -/
def Action.keepsIdentity : Action → Bool
  | .submitted _ _ _ => false
  | e => !e.addsRow

lemma Db.reconcileOne_keepsIdentity {changedAt : Datetime} {s s' : List String × Db} {id : String}
    (h : Db.reconcileOne changedAt s id = .ok s') : s.2.KeepsIdentity s'.2 := by
  obtain rfl | ⟨t, ht, _, _, _, rows⟩ := reconcileOne_ok h
  · exact .refl _
  · exact .setTask ht (t.moved_identity (by decide) changedAt) rows

lemma Db.recoverOne_keepsIdentity {changedAt : Datetime} {s s' : List String × Db} {id : String}
    (h : Db.recoverOne changedAt s id = .ok s') : s.2.KeepsIdentity s'.2 := by
  obtain ⟨t, ht, ⟨_, e⟩ | ⟨_, _, rows⟩⟩ := recoverOne_ok h
  · have same : t.unleased.identity = t.identity := rfl
    exact .setTask ht same (by rw [e])
  · exact .setTask ht (t.expired_identity changedAt) rows

lemma TaskValidator.verifyOne_keepsIdentity {v : TaskValidator} {changedAt : Datetime}
    {s s' : List String × Db} {id : String} (h : v.verifyOne changedAt s id = .ok s') :
    s.2.KeepsIdentity s'.2 := by
  obtain ⟨t, result, db1, ht, _, vc, _, rows⟩ := verifyOne_ok h
  have marked : s.2.KeepsIdentity db1 := by
    obtain ⟨spec, _, ⟨_, rfl⟩ | ⟨_, rfl, _⟩⟩ := validateComputeTask_ok vc
    · exact .refl _
    · exact ⟨rfl, rfl, rfl⟩
  have same : db1.tasks = s.2.tasks := by
    obtain ⟨spec, _, ⟨_, rfl⟩ | ⟨_, rfl, _⟩⟩ := validateComputeTask_ok vc <;> rfl
  have summarised : ((t.summarised result).moved
      (if result.passed then .succeeded else .failed) changedAt).identity = t.identity := by
    refine (Task.moved_identity _ ?_ changedAt).trans rfl
    split <;> decide
  rw [← same] at ht rows
  exact marked.trans (.setTask ht summarised rows)

lemma Db.collectingCommit_keepsIdentity {db db' : Db} {id : String} {now : Datetime}
    {jobIds : List String} (h : db.collectingCommit id now = .ok (jobIds, db')) :
    db.KeepsIdentity db' := by
  obtain ⟨rfl, _⟩ | ⟨job, terminal, hj, _, _, _, _, sameD, jobs, tasks⟩ := collectingCommit_ok h
  · exact .refl _
  · refine ⟨sameD, ?_, ?_⟩
    · obtain ⟨task, ht, _, e⟩ | ⟨e, _⟩ := tasks
      · rw [e]
        exact Dict.mapValues_set ht (task.moved_identity (by decide) now)
      · rw [e]
    · rw [jobs]
      exact Dict.mapValues_set hj (job.stepped_identity terminal now)

/-- Every transaction but three keeps the identities. -/
theorem Db.act_keepsIdentity (db : Db) (modelValidate : Json → Except PyErr ComputeTaskSpec)
    {e : Action} (keeps : e.keepsIdentity = true) :
    db.KeepsIdentity (db.act modelValidate e) := by
  have committed : ∀ {α : Type} {r : Except PyErr (α × Db)},
      (∀ a db', r = .ok (a, db') → db.KeepsIdentity db') → db.KeepsIdentity (db.commit r) :=
    Db.commit_keeps (.refl db)
  have committedUnit : ∀ {r : Except PyErr Db},
      (∀ db', r = .ok db' → db.KeepsIdentity db') → db.KeepsIdentity (db.commitUnit r) :=
    Db.commitUnit_keeps (.refl db)
  cases e with
  | createProject id slug lifecycle =>
    refine committed fun _ db' h => ?_
    obtain ⟨_, _, e⟩ := createProject_ok h
    exact .ofRows (by rw [e, logged_rows])
  | createTask a => cases keeps
  | reconcile current changedAt candidates =>
    refine committed fun ids db' h => ?_
    exact foldlM_invariant (P := fun s : List String × Db => db.KeepsIdentity s.2)
      (fun s id s' _ hs st => hs.trans (reconcileOne_keepsIdentity st)) h (.refl db)
  | recoverExpiredLeases current changedAt candidates =>
    refine committed fun ids db' h => ?_
    exact foldlM_invariant (P := fun s : List String × Db => db.KeepsIdentity s.2)
      (fun s id s' _ hs st => hs.trans (recoverOne_keepsIdentity st)) h (.refl db)
  | dispatch a owner leaseExpiresAt now => cases keeps
  | submitted jobId externalId now => cases keeps
  | observed obs pollInterval now =>
    refine committedUnit fun db' h => ?_
    cases hj : db.jobs.get obs.computeJobId with
    | none =>
      simp only [recordObservation, hj] at h
      cases h
      exact .refl db
    | some job =>
      exact .setJob hj (job.recorded_identity obs pollInterval now) (recordObservation_sets hj h)
  | pollRaised jobId errorType pollInterval now =>
    refine committedUnit fun db' h => ?_
    cases hj : db.jobs.get jobId with
    | none =>
      simp only [pollErrorCommit, hj] at h
      cases h
      exact .refl db
    | some job =>
      refine .setJob hj ?_ (pollErrorCommit_sets hj h)
      exact job.seen_identity .pollError
  | ingested jobId candidate id digest uri sizeBytes =>
    simp only [Db.act]
    split
    · exact .refl db
    · refine committed fun _ db' h => ?_
      obtain ⟨rfl, _⟩ | ⟨_, _, rows⟩ := ingestRow_ok h
      · exact .refl _
      · exact ⟨by rw [rows], by rw [rows], by rw [rows]⟩
  | finalised jobId now => exact committed fun _ _ h => collectingCommit_keepsIdentity h
  | verified readFile loads frames changedAt candidates =>
    refine committed fun ids db' h => ?_
    exact foldlM_invariant (P := fun s : List String × Db => db.KeepsIdentity s.2)
      (fun s id s' _ hs st => hs.trans (TaskValidator.verifyOne_keepsIdentity st)) h (.refl db)

/-- The `SUBMITTED` commit fills in the identifier of one job. -/
lemma Db.act_submitted (db : Db) (modelValidate : Json → Except PyErr ComputeTaskSpec)
    (jobId externalId : String) (now : Datetime) :
    let db' := db.act modelValidate (.submitted jobId externalId now)
    db'.toRows = db.toRows ∨ ∃ job, db.jobs.get jobId = some job ∧
      Db.SetsJob jobId ((job.identified externalId).moved .submitted now) db db' := by
  apply Db.commit_keeps (P := fun db' : Db => db'.toRows = db.toRows ∨ ∃ job,
    db.jobs.get jobId = some job ∧
      Db.SetsJob jobId ((job.identified externalId).moved .submitted now) db db') (Or.inl rfl)
  intro ids db' h
  obtain rfl | ⟨job, hj, _, st⟩ := reconcileCreatedCommit_ok h
  · exact Or.inl rfl
  · exact Or.inr ⟨job, hj, st⟩

/-- The fixed columns of the jobs, in the order of the table. -/
def Db.fixedJobs (db : Db) : List (String × JobOwner) :=
  db.jobs.items.map (Prod.map id ComputeJob.fixed)

lemma Db.KeepsIdentity.fixedJobs {db db' : Db} (same : db.KeepsIdentity db') :
    db'.fixedJobs = db.fixedJobs := by
  have first := congrArg (List.map (Prod.map id Prod.fst)) same.jobs
  rw [List.map_map, List.map_map] at first
  exact first

/-- Only `create_task` and the dispatcher change more than states and identifiers. -/
theorem Db.act_keepsFixed (db : Db) (modelValidate : Json → Except PyErr ComputeTaskSpec)
    {e : Action} (adds : e.addsRow = false) :
    let db' := db.act modelValidate e
    db'.dependencies = db.dependencies ∧
      db'.tasks.items.map (Prod.map id Task.identity) =
        db.tasks.items.map (Prod.map id Task.identity) ∧
      db'.fixedJobs = db.fixedJobs := by
  cases keeps : e.keepsIdentity with
  | true =>
    have same := db.act_keepsIdentity modelValidate keeps
    exact ⟨same.dependencies, same.tasks, same.fixedJobs⟩
  | false =>
    cases e with
    | createTask a => cases adds
    | dispatch a owner leaseExpiresAt now => cases adds
    | submitted jobId externalId now =>
      obtain rows | ⟨j, hj, st⟩ := db.act_submitted modelValidate jobId externalId now
      · simp only [Db.fixedJobs]
        rw [rows]
        exact ⟨rfl, rfl, rfl⟩
      · unfold SetsJob at st
        simp only [Db.fixedJobs]
        rw [st]
        refine ⟨rfl, rfl, Dict.mapValues_set hj ?_⟩
        exact congrArg Prod.fst ((j.identified externalId).moved_identity .submitted now)
    | _ => cases keeps

end ResearchController
