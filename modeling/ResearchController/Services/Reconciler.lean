import ResearchController.Lib.Loop
import ResearchController.Services.Transitions

/-!
# Reconciler transactions

Port of the transactions of `services/reconciler.py`: the `SUBMITTED` commit of `reconcile_created`,
the recording of an observation, the branch of `reconcile_due` for a poll that raised, and the
transaction that finalises a collected job. The provider calls between them are in `Compute/Local`.

The effect of each transaction on the tables is one replaced job row (`Db.SetsJob`); the row after
an observation is `ComputeJob.recorded`, which follows the branches of `_record_observation`.
-/

namespace ResearchController
open Lib

/-- `job_view`. -/
def ComputeJob.view (job : ComputeJob) (id : String) : ComputeJobView :=
  { id := id, projectId := job.projectId, taskId := job.taskId, providerId := job.providerId,
    resourceClass := job.resourceClass, submissionKey := job.submissionKey,
    externalJobId := job.externalJobId, remoteWorkdir := job.remoteWorkdir,
    executionStatus := job.executionStatus, observationStatus := job.observationStatus,
    logCursor := job.logCursorJson, providerMetadata := job.providerMetadataJson }

/-- `job.external_job_id = external_id`. -/
def ComputeJob.identified (job : ComputeJob) (externalId : String) : ComputeJob :=
  { job with externalJobId := some externalId }

/-- The transaction of `reconcile_created`. -/
def Db.reconcileCreatedCommit (db : Db) (jobId externalId : String) (now : Datetime) :
    Except PyErr (List String × Db) :=
  match db.jobs.get jobId with
  | none => .ok ([], db)
  | some job =>
    if job.executionStatus ≠ .created then
      .ok ([], db)
    else do
      let db := db.modifyJob jobId (·.identified externalId)
      let db ← db.transitionComputeJob jobId .submitted (some .created)
        [("external_job_id", .str externalId)] now
      return ([jobId], db)

/-- The poll columns that `_record_observation` assigns for every observation. -/
def ComputeJob.polled (job : ComputeJob) (obs : JobObservation) (pollInterval : Int) : ComputeJob :=
  { job with
    lastPollAt := some obs.observedAt,
    lastConfirmedAt :=
      if obs.observationStatus = .fresh then some obs.observedAt else job.lastConfirmedAt,
    nextPollAt := some (obs.observedAt + pollInterval),
    logCursorJson := obs.logCursor,
    runtimeSummaryJson :=
      if obs.progress.isEmpty then job.runtimeSummaryJson else obs.progress,
    lastProgressAt := if obs.progress.isEmpty then job.lastProgressAt else some obs.observedAt }

/-- The outcome columns that `_record_observation` assigns for a terminal observation. -/
def ComputeJob.decided (job : ComputeJob) (obs : JobObservation) : ComputeJob :=
  { job with
    exitCode := obs.exitCode,
    failureClass := obs.failureClass,
    providerMetadataJson :=
      (job.providerMetadataJson.set "observed_terminal_status"
        (.str obs.executionStatus.value)).set "raw_scheduler_state"
        ((obs.rawSchedulerState.map Json.str).getD .null) }

/-- The step to `RUNNING` of a job that finished before it was ever seen running. -/
def Db.fastCompletion (db : Db) (jobId : String) (status : ComputeExecutionStatus)
    (now : Datetime) :
    Except PyErr Db :=
  if status = .submitted ∨ status = .pending then
    db.transitionComputeJob jobId .running none [("reconciled_fast_completion", .bool true)] now
  else
    .ok db

/-- Whether an observation decides the outcome of a job. -/
def JobObservation.decides (obs : JobObservation) : Bool :=
  obs.observationStatus == .fresh && obs.executionStatus.isTerminal

/-- Whether the columns can hold what an observation assigns. The time of the next poll overflows at
    its computation, the others fail at the flush. -/
def JobObservation.storable (obs : JobObservation) (pollInterval : Int) : Except PyErr Unit := do
  let _ ← obs.observedAt.plus pollInterval
  if obs.serializable = false then
    .error (.statementError "Object is not JSON serializable")
  else if obs.decides then
    bindInteger obs.exitCode
  else
    .ok ()

/-- `ComputeReconciler._record_observation`. -/
def Db.recordObservation (db : Db) (obs : JobObservation) (pollInterval : Int) (now : Datetime) :
    Except PyErr Db :=
  match db.jobs.get obs.computeJobId with
  | none => .ok db
  | some job =>
    if job.executionStatus.isPollable = false then
      .ok db
    else do
      obs.storable pollInterval
      let db ← db.updateObservationStatus obs.computeJobId obs.observationStatus []
      let db := db.modifyJob obs.computeJobId (·.polled obs pollInterval)
      -- what a stale observation says about the execution is ignored
      if obs.observationStatus ≠ .fresh then
        return db
      else if obs.executionStatus = .running then
        if job.executionStatus ≠ .running then
          db.transitionComputeJob obs.computeJobId .running none [] now
        else
          return db
      else if obs.executionStatus.isTerminal then
        let db ← db.fastCompletion obs.computeJobId job.executionStatus now
        let db := db.modifyJob obs.computeJobId (·.decided obs)
        db.transitionComputeJob obs.computeJobId .collecting none [] now
      else
        -- a job that waits for its resources stays as it was
        return db

/-- The branch of `reconcile_due` for a poll that raised an exception of type `errorType`. -/
def Db.pollErrorCommit (db : Db) (jobId errorType : String) (pollInterval : Int) (now : Datetime) :
    Except PyErr Db :=
  match db.jobs.get jobId with
  | none => .ok db
  | some _ => do
    let _ ← now.plus pollInterval
    -- unlike an observation, the exception is recorded whatever the job has become meanwhile
    let db ← db.updateObservationStatus jobId .pollError [("error_type", .str errorType)]
    return db.modifyJob jobId
      ({ · with lastPollAt := some now, nextPollAt := some (now + pollInterval) })

/-- `ComputeExecutionStatus(metadata.get("observed_terminal_status", "FAILED"))`. -/
def observedTerminal (metadata : JsonObject) : Except PyErr ComputeExecutionStatus :=
  match (metadata.get "observed_terminal_status").getD (.str "FAILED") with
  | .str raw =>
    match ComputeExecutionStatus.ofValue? raw with
    | some status => .ok status
    | none => .error (.valueError s!"'{raw}' is not a valid ComputeExecutionStatus")
  | _ => .error (.valueError "not a valid ComputeExecutionStatus")

/-- The finalising transaction of `_reconcile_collecting`. -/
def Db.collectingCommit (db : Db) (jobId : String) (now : Datetime) :
    Except PyErr (List String × Db) :=
  match db.jobs.get jobId with
  | none => .ok ([], db)
  | some job =>
    if job.executionStatus ≠ .collecting then
      .ok ([], db)
    else do
      let terminal ← observedTerminal job.providerMetadataJson
      let db ← db.transitionComputeJob jobId terminal (some .collecting) [] now
      match db.tasks.get job.taskId with
      | some task =>
        -- a task that does not run any more is left alone
        if task.status = .running then
          let db ← db.transitionTask job.taskId .verifying (some .running) none [] now
          return ([jobId], db)
        else
          return ([jobId], db)
      | none => return ([jobId], db)

/-- The status of a task once its job has been finalised. -/
def TaskStatus.settled : TaskStatus → TaskStatus
  | .running => .verifying
  | status => status

/-! ## One replaced job row -/

/-- The tables change in one job row only. -/
def Db.SetsJob (id : String) (j : ComputeJob) (db db' : Db) : Prop :=
  db'.toRows = { db.toRows with jobs := db.jobs.set id j }

lemma Db.SetsJob.refl {id : String} {j : ComputeJob} {db : Db} (hj : db.jobs.get id = some j) :
    Db.SetsJob id j db db := by
  unfold SetsJob
  rw [Dict.set_of_get hj]

lemma Db.SetsJob.trans {id : String} {j j' : ComputeJob} {db db' db'' : Db}
    (st : Db.SetsJob id j db db') (st' : Db.SetsJob id j' db' db'') : Db.SetsJob id j' db db'' := by
  unfold SetsJob at *
  rw [st', st]
  simp only [Dict.set_set]

lemma Db.SetsJob.get {id : String} {j : ComputeJob} {db db' : Db} (st : Db.SetsJob id j db db') :
    db'.jobs.get id = some j := by
  unfold SetsJob at st
  rw [st]
  exact Dict.get_set_self _ _ _

lemma Db.SetsJob.modifyJob {id : String} {j : ComputeJob} {db : Db} (hj : db.jobs.get id = some j)
    (f : ComputeJob → ComputeJob) : Db.SetsJob id (f j) db (db.modifyJob id f) := by
  rw [modifyJob_of_get hj]
  rfl

/-- The row after `update_observation_status`. -/
def ComputeJob.seen (j : ComputeJob) (status : ObservationStatus) : ComputeJob :=
  if j.observationStatus = status then j else j.observed status

/-- The row after `transition_compute_job`. -/
def ComputeJob.stepped (j : ComputeJob) (toStatus : ComputeExecutionStatus) (now : Datetime) :
    ComputeJob :=
  if toStatus = j.executionStatus then j else j.moved toStatus now

lemma Db.updateObservationStatus_sets {db db' : Db} {id : String} {j : ComputeJob}
    {status : ObservationStatus} {payload : JsonObject} (hj : db.jobs.get id = some j)
    (h : db.updateObservationStatus id status payload = .ok db') :
    Db.SetsJob id (j.seen status) db db' := by
  obtain ⟨j', hj', ⟨same, rfl⟩ | ⟨p, differs, _, rfl⟩⟩ := updateObservationStatus_ok h
  · rw [hj] at hj'
    cases hj'
    simp only [ComputeJob.seen, same, if_true]
    exact SetsJob.refl hj
  · rw [hj] at hj'
    cases hj'
    simp only [SetsJob, logged_rows, ComputeJob.seen, differs, if_false]

lemma Db.transitionComputeJob_sets {db db' : Db} {id : String} {j : ComputeJob}
    {toStatus : ComputeExecutionStatus} {expectedStatus : Option ComputeExecutionStatus}
    {payload : JsonObject} {now : Datetime} (hj : db.jobs.get id = some j)
    (h : db.transitionComputeJob id toStatus expectedStatus payload now = .ok db') :
    Db.SetsJob id (j.stepped toStatus now) db db' := by
  obtain ⟨j', hj', _, ⟨same, rfl⟩ | ⟨p, ty, legal, _, _, rfl⟩⟩ := transitionComputeJob_ok h
  · rw [hj] at hj'
    cases hj'
    simp only [ComputeJob.stepped, same, if_true]
    exact SetsJob.refl hj
  · rw [hj] at hj'
    cases hj'
    have differs : toStatus ≠ j.executionStatus := by
      intro e
      rw [e] at legal
      revert legal
      cases j.executionStatus <;> decide
    simp only [SetsJob, logged_rows, ComputeJob.stepped, differs, if_false]

/-- The row after the step of a fast completion. -/
def ComputeJob.started (j : ComputeJob) (status : ComputeExecutionStatus) (now : Datetime) :
    ComputeJob :=
  if status = .submitted ∨ status = .pending then j.stepped .running now else j

lemma Db.fastCompletion_sets {db db' : Db} {id : String} {j : ComputeJob}
    {status : ComputeExecutionStatus} {now : Datetime} (hj : db.jobs.get id = some j)
    (h : db.fastCompletion id status now = .ok db') :
    Db.SetsJob id (j.started status now) db db' := by
  unfold fastCompletion at h
  unfold ComputeJob.started
  split at h
  · rename_i early
    simp only [early, if_true]
    exact transitionComputeJob_sets hj h
  · rename_i late
    cases h
    simp only [late, if_false]
    exact SetsJob.refl hj

/-- The job row after `_record_observation`. -/
def ComputeJob.recorded (job : ComputeJob) (obs : JobObservation) (pollInterval : Int)
    (now : Datetime) : ComputeJob :=
  if job.executionStatus.isPollable = false then job
  else
    let seen := (job.seen obs.observationStatus).polled obs pollInterval
    if obs.observationStatus ≠ .fresh then seen
    else if obs.executionStatus = .running then
      if job.executionStatus ≠ .running then seen.stepped .running now else seen
    else if obs.executionStatus.isTerminal then
      ((seen.started job.executionStatus now).decided obs).stepped .collecting now
    else seen

/-- What a recorded observation does to the tables. -/
lemma Db.recordObservation_sets {db db' : Db} {obs : JobObservation} {pollInterval : Int}
    {now : Datetime} {job : ComputeJob} (hj : db.jobs.get obs.computeJobId = some job)
    (h : db.recordObservation obs pollInterval now = .ok db') :
    Db.SetsJob obs.computeJobId (job.recorded obs pollInterval now) db db' := by
  unfold recordObservation at h
  unfold ComputeJob.recorded
  simp only [hj] at h
  split at h
  · rename_i closed
    cases h
    simp only [closed, if_true]
    exact SetsJob.refl hj
  · rename_i pollable
    obtain ⟨_, _, h⟩ := bind_ok.mp h
    obtain ⟨db1, up, h⟩ := bind_ok.mp h
    have st1 := updateObservationStatus_sets hj up
    have st2 := st1.trans (SetsJob.modifyJob st1.get (·.polled obs pollInterval))
    simp only [pollable]
    split at h
    · rename_i stale
      cases h
      simp only [stale, if_true, not_false_eq_true, ne_eq]
      exact st2
    · rename_i fresh
      simp only [fresh, if_false]
      split at h
      · rename_i running
        simp only [running, if_true]
        split at h
        · rename_i notYet
          simp only [notYet, if_true, not_false_eq_true, ne_eq]
          exact st2.trans (transitionComputeJob_sets st2.get h)
        · rename_i already
          cases h
          simp only [already, if_false]
          exact st2
      · rename_i notRunning
        simp only [notRunning, if_false]
        split at h
        · rename_i terminal
          obtain ⟨db3, tr, h⟩ := bind_ok.mp h
          simp only [terminal, if_true]
          have st3 := st2.trans (fastCompletion_sets st2.get tr)
          have st4 := st3.trans (SetsJob.modifyJob st3.get (·.decided obs))
          exact st4.trans (transitionComputeJob_sets st4.get h)
        · rename_i other
          cases h
          simp only [other]
          exact st2

/-- What a poll that raised does to the tables. -/
lemma Db.pollErrorCommit_sets {db db' : Db} {id errorType : String} {pollInterval : Int}
    {now : Datetime} {job : ComputeJob} (hj : db.jobs.get id = some job)
    (h : db.pollErrorCommit id errorType pollInterval now = .ok db') :
    Db.SetsJob id { job.seen .pollError with
      lastPollAt := some now, nextPollAt := some (now + pollInterval) } db db' := by
  simp only [pollErrorCommit, hj] at h
  obtain ⟨_, _, h⟩ := bind_ok.mp h
  obtain ⟨db1, up, e⟩ := bind_ok.mp h
  cases e
  have st := updateObservationStatus_sets hj up
  exact st.trans (SetsJob.modifyJob st.get _)

/-- What the `SUBMITTED` commit does to the tables. -/
lemma Db.reconcileCreatedCommit_ok {db db' : Db} {id externalId : String} {now : Datetime}
    {jobIds : List String} (h : db.reconcileCreatedCommit id externalId now = .ok (jobIds, db')) :
    db' = db ∨
      ∃ job, db.jobs.get id = some job ∧ job.executionStatus = .created ∧
        Db.SetsJob id ((job.identified externalId).moved .submitted now) db db' := by
  unfold reconcileCreatedCommit at h
  split at h
  · cases h
    exact Or.inl rfl
  · rename_i job hj
    split at h
    · cases h
      exact Or.inl rfl
    · rename_i created
      have created := not_not.mp created
      obtain ⟨db1, tr, e⟩ := bind_ok.mp h
      cases e
      have st1 := SetsJob.modifyJob hj (·.identified externalId)
      have st2 := st1.trans (transitionComputeJob_sets st1.get tr)
      refine Or.inr ⟨job, hj, created, ?_⟩
      simpa [ComputeJob.stepped, ComputeJob.identified, created] using st2

/-- What the finalising transaction does to the tables. -/
lemma Db.collectingCommit_ok {db db' : Db} {id : String} {now : Datetime} {jobIds : List String}
    (h : db.collectingCommit id now = .ok (jobIds, db')) :
    (db' = db ∧ ∀ job, db.jobs.get id = some job → job.executionStatus ≠ .collecting) ∨
      ∃ job terminal, db.jobs.get id = some job ∧ job.executionStatus = .collecting ∧
        observedTerminal job.providerMetadataJson = .ok terminal ∧
        (terminal = .collecting ∨ terminal ∈ computeTransitions .collecting) ∧
        db'.artifacts = db.artifacts ∧ db'.dependencies = db.dependencies ∧
        db'.jobs = db.jobs.set id (job.stepped terminal now) ∧
        ((∃ task, db.tasks.get job.taskId = some task ∧ task.status = .running ∧
            db'.tasks = db.tasks.set job.taskId (task.moved .verifying now)) ∨
          db'.tasks = db.tasks ∧
            ∀ task, db.tasks.get job.taskId = some task → task.status ≠ .running) := by
  unfold collectingCommit at h
  split at h
  · rename_i absent
    cases h
    exact Or.inl ⟨rfl, fun job hj => by rw [absent] at hj; cases hj⟩
  · rename_i job hj
    split at h
    · rename_i closed
      cases h
      refine Or.inl ⟨rfl, fun job' hj' => ?_⟩
      rw [hj] at hj'
      cases hj'
      exact closed
    · rename_i collecting
      have collecting := not_not.mp collecting
      obtain ⟨terminal, ot, h⟩ := bind_ok.mp h
      obtain ⟨db1, tr, h⟩ := bind_ok.mp h
      have st := transitionComputeJob_sets hj tr
      have legal : terminal = .collecting ∨ terminal ∈ computeTransitions .collecting := by
        obtain ⟨j', hj', _, ⟨same, _⟩ | ⟨_, _, legal, _⟩⟩ := transitionComputeJob_ok tr
        · rw [hj] at hj'
          cases hj'
          exact Or.inl (same.trans collecting)
        · rw [hj] at hj'
          cases hj'
          exact Or.inr (collecting ▸ legal)
      refine Or.inr ⟨job, terminal, hj, collecting, ot, legal, ?_⟩
      unfold SetsJob at st
      split at h
      · rename_i task ht
        rw [st] at ht
        split at h
        · rename_i running
          obtain ⟨db2, tr2, e⟩ := bind_ok.mp h
          cases e
          obtain ⟨t2, _, _, ht2, _, _, _, rfl⟩ := transitionTask_ok tr2
          rw [st] at ht2
          cases ht.symm.trans ht2
          simp only [logged_rows]
          rw [st]
          exact ⟨rfl, rfl, rfl, Or.inl ⟨task, ht, running, rfl⟩⟩
        · rename_i idle
          cases h
          rw [st]
          refine ⟨rfl, rfl, rfl, Or.inr ⟨rfl, fun task' ht' => ?_⟩⟩
          cases ht.symm.trans ht'
          exact idle
      · rename_i absent
        cases h
        rw [st] at absent
        rw [st]
        refine ⟨rfl, rfl, rfl, Or.inr ⟨rfl, fun task' ht' => ?_⟩⟩
        cases absent.symm.trans ht'

/-- A finalising transaction settles the task of its job. -/
lemma Db.collectingCommit_settles {db db' : Db} {id : String} {job : ComputeJob}
    (hj : db.jobs.get id = some job) (collecting : job.executionStatus = .collecting)
    {now : Datetime} {jobIds : List String}
    (h : db.collectingCommit id now = .ok (jobIds, db')) (taskId : String) :
    (db'.tasks.get taskId).map (·.status) = (db.tasks.get taskId).map fun t =>
      if job.taskId = taskId then t.status.settled else t.status := by
  obtain ⟨_, open_⟩ | ⟨job', _, hj', _, _, _, _, _, _, tasks⟩ := collectingCommit_ok h
  · exact (open_ job hj collecting).elim
  · cases hj.symm.trans hj'
    obtain ⟨task, ht, running, tasks⟩ | ⟨tasks, idle⟩ := tasks
    · rw [tasks, Dict.get_set]
      by_cases own : job.taskId = taskId
      · subst own
        rw [if_pos rfl, ht, Option.map_some, Option.map_some, Task.moved_status, running,
          if_pos rfl]
        rfl
      · rw [if_neg (Ne.symm own)]
        simp only [if_neg own]
    · rw [tasks]
      split
      · rename_i own
        cases ht : db.tasks.get taskId with
        | none => rfl
        | some t =>
          have other := idle t (own ▸ ht)
          rw [Option.map_some, Option.map_some, Option.some.injEq]
          revert other
          cases t.status <;> simp [TaskStatus.settled]
      · rfl

/-! ## The row after a transaction -/

/-- Columns that decide about a job: owner, attempt, outcome. -/
structure ComputeJob.SameWork (j j' : ComputeJob) : Prop where
  taskId : j'.taskId = j.taskId
  attemptNo : j'.attemptNo = j.attemptNo
  exitCode : j'.exitCode = j.exitCode
  failureClass : j'.failureClass = j.failureClass
  metadata : j'.providerMetadataJson = j.providerMetadataJson

lemma ComputeJob.SameWork.trans {j j' j'' : ComputeJob} (same : j.SameWork j')
    (same' : j'.SameWork j'') : j.SameWork j'' :=
  ⟨same'.taskId.trans same.taskId, same'.attemptNo.trans same.attemptNo,
    same'.exitCode.trans same.exitCode, same'.failureClass.trans same.failureClass,
    same'.metadata.trans same.metadata⟩

lemma ComputeJob.SameWork.refl (j : ComputeJob) : j.SameWork j :=
  ⟨rfl, rfl, rfl, rfl, rfl⟩

lemma ComputeJob.sameWork_moved (j : ComputeJob) (s : ComputeExecutionStatus) (now : Datetime) :
    j.SameWork (j.moved s now) :=
  ⟨moved_taskId j s now, moved_attemptNo j s now, moved_exitCode j s now,
    moved_failureClass j s now, moved_providerMetadataJson j s now⟩

lemma ComputeJob.sameWork_stepped (j : ComputeJob) (s : ComputeExecutionStatus) (now : Datetime) :
    j.SameWork (j.stepped s now) := by
  unfold stepped
  split
  · exact .refl j
  · exact j.sameWork_moved s now

@[simp] lemma ComputeJob.stepped_executionStatus (j : ComputeJob) (s : ComputeExecutionStatus)
    (now : Datetime) : (j.stepped s now).executionStatus = s := by
  unfold stepped
  split
  · rename_i same
    exact same.symm
  · exact moved_executionStatus j s now

lemma ComputeJob.sameWork_seen (j : ComputeJob) (status : ObservationStatus) :
    j.SameWork (j.seen status) := by
  unfold seen
  split
  · exact .refl j
  · exact ⟨rfl, rfl, rfl, rfl, rfl⟩

@[simp] lemma ComputeJob.seen_executionStatus (j : ComputeJob) (status : ObservationStatus) :
    (j.seen status).executionStatus = j.executionStatus := by
  unfold seen
  split <;> rfl

lemma ComputeJob.sameWork_polled (j : ComputeJob) (obs : JobObservation) (pollInterval : Int) :
    j.SameWork (j.polled obs pollInterval) :=
  ⟨rfl, rfl, rfl, rfl, rfl⟩

lemma ComputeJob.sameWork_started (j : ComputeJob) (status : ComputeExecutionStatus)
    (now : Datetime) : j.SameWork (j.started status now) := by
  unfold started
  split
  · exact j.sameWork_stepped .running now
  · exact .refl j

/-- The outcome that a decided job holds as a string is the observed status. -/
lemma observedTerminal_decided (j : ComputeJob) (obs : JobObservation) :
    observedTerminal (j.decided obs).providerMetadataJson = .ok obs.executionStatus := by
  have held : (j.decided obs).providerMetadataJson.get "observed_terminal_status" =
      some (.str obs.executionStatus.value) := by
    simp only [ComputeJob.decided, JsonObject.get_set]
    rfl
  simp only [observedTerminal, held, Option.getD_some, ComputeExecutionStatus.ofValue?_value]

/-- The row of a pollable job after an observation that does not decide: the outcome stays, and a
    fresh observation of a running job makes the job run. -/
lemma ComputeJob.recorded_undecided {j : ComputeJob}
    (pollable : j.executionStatus.isPollable = true)
    {obs : JobObservation} (undecided : obs.decides = false) (pollInterval : Int) (now : Datetime) :
    j.SameWork (j.recorded obs pollInterval now) ∧
      (j.recorded obs pollInterval now).executionStatus =
        if obs.observationStatus = .fresh ∧ obs.executionStatus = .running then .running
        else j.executionStatus := by
  have same := (j.sameWork_seen obs.observationStatus).trans (sameWork_polled _ obs pollInterval)
  have status : ((j.seen obs.observationStatus).polled obs pollInterval).executionStatus =
      j.executionStatus := j.seen_executionStatus obs.observationStatus
  have polls : ¬ j.executionStatus.isPollable = false := by
    rw [pollable]
    decide
  unfold recorded
  rw [if_neg polls]
  by_cases runs : obs.observationStatus = .fresh ∧ obs.executionStatus = .running
  · rw [if_pos runs, if_neg (not_not.mpr runs.1), if_pos runs.2]
    split
    · exact ⟨same.trans (sameWork_stepped _ _ _), stepped_executionStatus _ _ _⟩
    · rename_i already
      exact ⟨same, status.trans (not_not.mp already)⟩
  · rw [if_neg runs]
    simp only
    split
    · exact ⟨same, status⟩
    · rename_i fresh
      have fresh := not_not.mp fresh
      rw [if_neg fun running => runs ⟨fresh, running⟩]
      split
      · rename_i terminal
        rw [JobObservation.decides, fresh, terminal] at undecided
        cases undecided
      · exact ⟨same, status⟩

/-- The row of a pollable job after an observation that decides. -/
lemma ComputeJob.recorded_decided {j : ComputeJob} (pollable : j.executionStatus.isPollable = true)
    {obs : JobObservation} (decides : obs.decides = true) (pollInterval : Int) (now : Datetime) :
    let j' := j.recorded obs pollInterval now
    j'.taskId = j.taskId ∧ j'.attemptNo = j.attemptNo ∧ j'.executionStatus = .collecting ∧
      j'.exitCode = obs.exitCode ∧ j'.failureClass = obs.failureClass ∧
      observedTerminal j'.providerMetadataJson = .ok obs.executionStatus := by
  obtain ⟨fresh, terminal⟩ := Bool.and_eq_true_iff.mp decides
  have fresh := beq_iff_eq.mp fresh
  have notRunning : obs.executionStatus ≠ .running := by
    intro e
    rw [e] at terminal
    cases terminal
  have e : j.recorded obs pollInterval now =
      ((((j.seen obs.observationStatus).polled obs pollInterval).started j.executionStatus
        now).decided obs).stepped .collecting now := by
    unfold recorded
    rw [if_neg (by rw [pollable]; decide), if_neg (by rw [fresh]; decide), if_neg notRunning,
      if_pos terminal]
  have before := ((j.sameWork_seen obs.observationStatus).trans
    (sameWork_polled _ obs pollInterval)).trans (sameWork_started _ j.executionStatus now)
  have after := sameWork_stepped ((((j.seen obs.observationStatus).polled obs pollInterval).started
    j.executionStatus now).decided obs) .collecting now
  simp only [e]
  refine ⟨after.taskId.trans before.taskId, after.attemptNo.trans before.attemptNo,
    stepped_executionStatus _ _ _, after.exitCode, after.failureClass, ?_⟩
  rw [after.metadata]
  exact observedTerminal_decided _ obs

/-- A job that is not pollable ignores observations. -/
lemma ComputeJob.recorded_closed {j : ComputeJob} (closed : j.executionStatus.isPollable = false)
    (obs : JobObservation) (pollInterval : Int) (now : Datetime) :
    j.recorded obs pollInterval now = j := by
  unfold recorded
  rw [if_pos closed]

/-! ## Soundness is kept -/

lemma Db.Sound.modifyJob {db : Db} (sd : db.Sound) (id : String) {f : ComputeJob → ComputeJob}
    (eqP : ∀ j, (f j).projectId = j.projectId) (eqT : ∀ j, (f j).taskId = j.taskId) :
    (db.modifyJob id f).Sound := by
  unfold Db.modifyJob
  split
  · rename_i j hj
    exact sd.setJob hj (eqP j) (eqT j)
  · exact sd

lemma Db.Sound.reconcileCreatedCommit {db db' : Db} (sd : db.Sound) {id externalId : String}
    {now : Datetime} {jobIds : List String}
    (h : db.reconcileCreatedCommit id externalId now = .ok (jobIds, db')) : db'.Sound := by
  unfold Db.reconcileCreatedCommit at h
  split at h
  · cases h
    exact sd
  · split at h
    · cases h
      exact sd
    · obtain ⟨db1, tr, e⟩ := bind_ok.mp h
      cases e
      have sd1 := sd.modifyJob id (f := (·.identified externalId)) (fun _ => rfl) (fun _ => rfl)
      exact sd1.transitionComputeJob tr

lemma Db.Sound.pollErrorCommit {db db' : Db} (sd : db.Sound) {id errorType : String}
    {pollInterval : Int} {now : Datetime}
    (h : db.pollErrorCommit id errorType pollInterval now = .ok db') : db'.Sound := by
  unfold Db.pollErrorCommit at h
  split at h
  · cases h
    exact sd
  · obtain ⟨_, _, h⟩ := bind_ok.mp h
    obtain ⟨db1, up, e⟩ := bind_ok.mp h
    cases e
    exact (sd.updateObservationStatus up).modifyJob id (fun _ => rfl) (fun _ => rfl)

lemma Db.Sound.fastCompletion {db db' : Db} (sd : db.Sound) {id : String}
    {status : ComputeExecutionStatus} {now : Datetime}
    (h : db.fastCompletion id status now = .ok db') : db'.Sound := by
  unfold Db.fastCompletion at h
  split at h
  · exact sd.transitionComputeJob h
  · cases h
    exact sd

lemma Db.Sound.recordObservation {db db' : Db} (sd : db.Sound) {obs : JobObservation}
    {pollInterval : Int} {now : Datetime}
    (h : db.recordObservation obs pollInterval now = .ok db') : db'.Sound := by
  unfold Db.recordObservation at h
  split at h
  · cases h
    exact sd
  · split at h
    · cases h
      exact sd
    · obtain ⟨_, _, h⟩ := bind_ok.mp h
      obtain ⟨db1, up, h⟩ := bind_ok.mp h
      have sd1 := (sd.updateObservationStatus up).modifyJob obs.computeJobId
        (f := (·.polled obs pollInterval)) (fun _ => rfl) (fun _ => rfl)
      split at h
      · cases h
        exact sd1
      · split at h
        · split at h
          · exact sd1.transitionComputeJob h
          · cases h
            exact sd1
        · split at h
          · obtain ⟨db3, tr, h⟩ := bind_ok.mp h
            have sd4 := (sd1.fastCompletion tr).modifyJob obs.computeJobId (f := (·.decided obs))
              (fun _ => rfl) (fun _ => rfl)
            exact sd4.transitionComputeJob h
          · cases h
            exact sd1

lemma Db.Sound.collectingCommit {db db' : Db} (sd : db.Sound) {id : String} {now : Datetime}
    {jobIds : List String} (h : db.collectingCommit id now = .ok (jobIds, db')) : db'.Sound := by
  unfold Db.collectingCommit at h
  split at h
  · cases h
    exact sd
  · split at h
    · cases h
      exact sd
    · obtain ⟨terminal, ot, h⟩ := bind_ok.mp h
      obtain ⟨db1, tr, h⟩ := bind_ok.mp h
      have sd1 := sd.transitionComputeJob tr
      split at h
      · split at h
        · obtain ⟨db2, tr2, e⟩ := bind_ok.mp h
          cases e
          exact sd1.transitionTask tr2
        · cases h
          exact sd1
      · cases h
        exact sd1

/-! ## Totality on sound databases -/

/-- The step of a fast completion never fails for a job in the given state. -/
lemma Db.Sound.fastCompletion_total {db : Db} (sd : db.Sound) {id : String} {j : ComputeJob}
    (hj : db.jobs.get id = some j) (now : Datetime) :
    ∃ db', db.fastCompletion id j.executionStatus now = .ok db' := by
  unfold Db.fastCompletion
  split
  · rename_i early
    refine sd.transitionComputeJob_total hj (Or.inr ?_) expected_none _ now
    rcases early with e | e
    · rw [e]
      decide
    · rw [e]
      decide
  · exact ⟨db, rfl⟩

/-- After the step of a fast completion a pollable job runs. -/
lemma ComputeJob.started_running {j : ComputeJob} (pollable : j.executionStatus.isPollable = true)
    (now : Datetime) : (j.started j.executionStatus now).executionStatus = .running := by
  unfold started
  split
  · exact stepped_executionStatus j .running now
  · rename_i late
    revert pollable late
    cases j.executionStatus <;> decide

/-- Recording an observation that the columns can hold never fails on a sound database. -/
lemma Db.Sound.recordObservation_total {db : Db} (sd : db.Sound) {obs : JobObservation}
    {job : ComputeJob} (hj : db.jobs.get obs.computeJobId = some job) {pollInterval : Int}
    (storable : obs.storable pollInterval = .ok ()) (now : Datetime) :
    ∃ db', db.recordObservation obs pollInterval now = .ok db' := by
  unfold Db.recordObservation
  simp only [hj]
  split
  · exact ⟨db, rfl⟩
  · rename_i pollable
    rw [Bool.not_eq_false] at pollable
    obtain ⟨db1, up⟩ := sd.updateObservationStatus_total hj obs.observationStatus []
    have st1 := updateObservationStatus_sets hj up
    have st2 := st1.trans (SetsJob.modifyJob st1.get (·.polled obs pollInterval))
    have sd2 := (sd.updateObservationStatus up).modifyJob obs.computeJobId
      (f := (·.polled obs pollInterval)) (fun _ => rfl) (fun _ => rfl)
    have status2 : ((job.seen obs.observationStatus).polled obs pollInterval).executionStatus =
        job.executionStatus := job.seen_executionStatus obs.observationStatus
    apply bind_total storable
    apply bind_total up
    split
    · exact ⟨_, rfl⟩
    · split
      · split
        · rename_i notYet
          refine sd2.transitionComputeJob_total st2.get (Or.inr ?_) expected_none [] now
          rw [status2]
          revert pollable notYet
          cases job.executionStatus <;> decide
        · exact ⟨_, rfl⟩
      · split
        · obtain ⟨db3, tr⟩ := sd2.fastCompletion_total st2.get now
          rw [status2] at tr
          have st3 := st2.trans (fastCompletion_sets st2.get tr)
          have st4 := st3.trans (SetsJob.modifyJob st3.get (·.decided obs))
          have sd4 := (sd2.fastCompletion tr).modifyJob obs.computeJobId (f := (·.decided obs))
            (fun _ => rfl) (fun _ => rfl)
          apply bind_total tr
          refine sd4.transitionComputeJob_total st4.get (Or.inr ?_) expected_none [] now
          have running := ComputeJob.started_running (status2 ▸ pollable) now
          rw [status2] at running
          show _ ∈ computeTransitions (ComputeJob.started _ _ _).executionStatus
          rw [running]
          decide
        · exact ⟨_, rfl⟩

/-- An observation that the columns cannot hold is not recorded. -/
lemma Db.recordObservation_refused {db : Db} {obs : JobObservation} {job : ComputeJob}
    (hj : db.jobs.get obs.computeJobId = some job)
    (pollable : job.executionStatus.isPollable = true) {pollInterval : Int} {e : PyErr}
    (refused : obs.storable pollInterval = .error e) (now : Datetime) :
    db.recordObservation obs pollInterval now = .error e := by
  simp only [recordObservation, hj, pollable, refused]
  rfl

/-- The branch for a poll that raised never fails on a sound database, up to the year 9999. -/
lemma Db.Sound.pollErrorCommit_total {db : Db} (sd : db.Sound) {id : String} {job : ComputeJob}
    (hj : db.jobs.get id = some job) (errorType : String) {pollInterval : Int} {now : Datetime}
    {next : Datetime} (time : now.plus pollInterval = .ok next) :
    ∃ db', db.pollErrorCommit id errorType pollInterval now = .ok db' := by
  obtain ⟨db1, up⟩ :=
    sd.updateObservationStatus_total hj .pollError [("error_type", .str errorType)]
  simp only [Db.pollErrorCommit, hj]
  exact bind_total time (bind_total up ⟨_, rfl⟩)

/-- The branch for a poll that raised fails behind the year 9999. -/
lemma Db.pollErrorCommit_refused {db : Db} {id : String} {job : ComputeJob}
    (hj : db.jobs.get id = some job) (errorType : String) {pollInterval : Int} {now : Datetime}
    {e : PyErr} (late : now.plus pollInterval = .error e) :
    db.pollErrorCommit id errorType pollInterval now = .error e := by
  simp only [pollErrorCommit, hj, late]
  rfl

/-- Finalising never fails on a sound database if the held outcome is terminal. -/
lemma Db.Sound.collectingCommit_total {db : Db} (sd : db.Sound) {id : String} {job : ComputeJob}
    (hj : db.jobs.get id = some job) (now : Datetime)
    (held : job.executionStatus = .collecting →
      ∃ s, observedTerminal job.providerMetadataJson = .ok s ∧ s.isTerminal = true) :
    ∃ r, db.collectingCommit id now = .ok r := by
  unfold Db.collectingCommit
  simp only [hj]
  split
  · exact ⟨_, rfl⟩
  · rename_i collecting
    have collecting := not_not.mp collecting
    obtain ⟨s, outcome, terminal⟩ := held collecting
    apply bind_total outcome
    have legal : s = job.executionStatus ∨ s ∈ computeTransitions job.executionStatus := by
      rw [collecting]
      revert terminal
      cases s <;> decide
    obtain ⟨db1, tr⟩ :=
      sd.transitionComputeJob_total hj legal (expected_some collecting) [] now
    apply bind_total tr
    split
    · rename_i task ht
      split
      · rename_i running
        have legal : .verifying ∈ taskTransitions task.status := by
          rw [running]
          decide
        have sd1 := sd.transitionComputeJob tr
        obtain ⟨db2, tr2⟩ := sd1.transitionTask_total ht legal (expected_some running) none [] now
        exact bind_total tr2 ⟨_, rfl⟩
      · exact ⟨_, rfl⟩
    · exact ⟨_, rfl⟩

end ResearchController
