import ResearchController.Services.EventLog

/-!
# Transitions

Port of `services/transitions.py`: the legal transitions of tasks and compute jobs, the names of
their events, and the three operations of `TransitionService`. The row update of each operation is a
function on the row (`Task.moved`, `ComputeJob.moved`, `ComputeJob.observed`), so that the effect of
an operation on the database is one row update followed by one logged event.

Each operation has two lemmas. `*_ok` reads off what a successful call has done and is what the
invariants over arbitrary runs use. `*_total` says that on a sound database a legal call succeeds.
-/

namespace ResearchController
open Lib

/-- `TASK_TRANSITIONS`. -/
def taskTransitions : TaskStatus → List TaskStatus
  | .pending => [.ready, .blocked, .cancelled, .skipped]
  | .ready => [.running, .blocked, .cancelled]
  | .running => [.verifying, .failed, .blocked, .cancelled]
  | .verifying => [.succeeded, .failed, .blocked]
  | .failed => [.ready, .blocked, .cancelled]
  | .blocked => [.ready, .cancelled]
  | .succeeded => []
  | .cancelled => []
  | .skipped => []

/-- `COMPUTE_TRANSITIONS`. -/
def computeTransitions : ComputeExecutionStatus → List ComputeExecutionStatus
  | .created => [.submitted, .pending, .running, .failed, .cancelled]
  | .submitted =>
    [.pending, .running, .collecting, .succeeded, .failed, .oom, .timeout, .cancelled]
  | .pending => [.running, .collecting, .succeeded, .failed, .oom, .timeout, .cancelled]
  | .running => [.collecting, .succeeded, .failed, .oom, .timeout, .cancelled]
  | .collecting => [.succeeded, .failed, .oom, .timeout, .cancelled]
  | .succeeded => []
  | .failed => []
  | .oom => []
  | .timeout => []
  | .cancelled => []

/-- `TASK_EVENT_TYPES`. -/
def taskEventTypes : TaskStatus → Option String
  | .pending => none
  | .ready => some "TASK_READY"
  | .running => some "TASK_STARTED"
  | .verifying => some "TASK_VERIFYING"
  | .succeeded => some "TASK_SUCCEEDED"
  | .failed => some "TASK_FAILED"
  | .blocked => some "TASK_BLOCKED"
  | .cancelled => some "TASK_CANCELLED"
  | .skipped => some "TASK_SKIPPED"

/-- `COMPUTE_EVENT_TYPES`. -/
def computeEventTypes : ComputeExecutionStatus → Option String
  | .created => none
  | .submitted => some "COMPUTE_JOB_SUBMITTED"
  | .pending => some "COMPUTE_JOB_PENDING"
  | .running => some "COMPUTE_JOB_STARTED"
  | .collecting => some "COMPUTE_JOB_COLLECTING"
  | .succeeded => some "COMPUTE_JOB_SUCCEEDED"
  | .failed => some "COMPUTE_JOB_FAILED"
  | .oom => some "COMPUTE_JOB_OOM"
  | .timeout => some "COMPUTE_JOB_TIMEOUT"
  | .cancelled => some "COMPUTE_JOB_CANCELLED"

lemma taskTransitions_event {s s' : TaskStatus} (legal : s' ∈ taskTransitions s) :
    ∃ ty, taskEventTypes s' = some ty := by
  cases s <;> cases s' <;> first | exact ⟨_, rfl⟩ | exact absurd legal (by decide)

lemma computeTransitions_event {s s' : ComputeExecutionStatus}
    (legal : s' ∈ computeTransitions s) : ∃ ty, computeEventTypes s' = some ty := by
  cases s <;> cases s' <;> first | exact ⟨_, rfl⟩ | exact absurd legal (by decide)

/-- The column updates of `transition_task`. -/
def Task.moved (t : Task) (toStatus : TaskStatus) (changedAt : Datetime) : Task :=
  let t := { t with status := toStatus, lockVersion := t.lockVersion + 1 }
  let t :=
    if toStatus = .running then
      { t with
        startedAt := t.startedAt <|> some changedAt,
        attemptCount := t.attemptCount + 1 }
    else t
  if toStatus = .succeeded ∨ toStatus = .failed ∨ toStatus = .cancelled ∨ toStatus = .skipped then
    { t with finishedAt := some changedAt, leaseOwner := none, leaseExpiresAt := none }
  else t

/-- The column updates of `transition_compute_job`. -/
def ComputeJob.moved (j : ComputeJob) (toStatus : ComputeExecutionStatus) (changedAt : Datetime) :
    ComputeJob :=
  let j := { j with executionStatus := toStatus, lockVersion := j.lockVersion + 1 }
  let j :=
    if toStatus = .submitted then { j with submittedAt := j.submittedAt <|> some changedAt } else j
  let j := if toStatus = .running then { j with startedAt := j.startedAt <|> some changedAt } else j
  if toStatus.isTerminal then { j with finishedAt := some changedAt } else j

/-- The column updates of `update_observation_status`. -/
def ComputeJob.observed (j : ComputeJob) (status : ObservationStatus) : ComputeJob :=
  { j with observationStatus := status, lockVersion := j.lockVersion + 1 }

/-- The event type that `update_observation_status` logs. -/
def observationEventType : ObservationStatus → String
  | .fresh => "COMPUTE_OBSERVABILITY_RESTORED"
  | .unreachable => "COMPUTE_OBSERVABILITY_LOST"
  | .authRequired => "COMPUTE_OBSERVABILITY_LOST"
  | _ => "COMPUTE_OBSERVATION_CHANGED"

/-- `TransitionService.transition_task`. -/
def Db.transitionTask (db : Db) (id : String) (toStatus : TaskStatus)
    (expectedStatus : Option TaskStatus) (eventType : Option String) (payload : JsonObject)
    (now : Datetime) : Except PyErr Db :=
  match db.tasks.get id with
  | none => .error (.staleDataError s!"Task {id}")
  | some t =>
    if expectedStatus.any (· != t.status) then
      let expected := (expectedStatus.map TaskStatus.value).getD ""
      .error (.invalidTransition s!"expected Task {id} in {expected}, found {t.status.value}")
    else if toStatus ∉ taskTransitions t.status then
      .error (.invalidTransition s!"illegal Task transition: {t.status.value} -> {toStatus.value}")
    else
      match eventType.filter (· != "") <|> taskEventTypes toStatus with
      | none => .error (.keyError toStatus.value)
      | some ty =>
        { db with tasks := db.tasks.set id (t.moved toStatus now) }.append t.projectId
          { eventType := ty, entityType := "TASK", entityId := id,
            oldState := some t.status.value, newState := some toStatus.value, payload := payload }

/-- `TransitionService.transition_compute_job`. -/
def Db.transitionComputeJob (db : Db) (id : String) (toStatus : ComputeExecutionStatus)
    (expectedStatus : Option ComputeExecutionStatus) (payload : JsonObject) (now : Datetime) :
    Except PyErr Db :=
  match db.jobs.get id with
  | none => .error (.staleDataError s!"ComputeJob {id}")
  | some j =>
    if expectedStatus.any (· != j.executionStatus) then
      let expected := (expectedStatus.map ComputeExecutionStatus.value).getD ""
      .error (.invalidTransition
        s!"expected ComputeJob {id} in {expected}, found {j.executionStatus.value}")
    else if toStatus = j.executionStatus then
      .ok db
    else if toStatus ∉ computeTransitions j.executionStatus then
      .error (.invalidTransition
        s!"illegal ComputeJob transition: {j.executionStatus.value} -> {toStatus.value}")
    else
      match computeEventTypes toStatus with
      | none => .error (.keyError toStatus.value)
      | some ty =>
        { db with jobs := db.jobs.set id (j.moved toStatus now) }.append j.projectId
          { eventType := ty, entityType := "COMPUTE_JOB", entityId := id,
            oldState := some j.executionStatus.value, newState := some toStatus.value,
            payload := payload }

/-- `TransitionService.update_observation_status`. -/
def Db.updateObservationStatus (db : Db) (id : String) (status : ObservationStatus)
    (payload : JsonObject) : Except PyErr Db :=
  match db.jobs.get id with
  | none => .error (.staleDataError s!"ComputeJob {id}")
  | some j =>
    if j.observationStatus = status then
      .ok db
    else
      { db with jobs := db.jobs.set id (j.observed status) }.append j.projectId
        { eventType := observationEventType status, entityType := "COMPUTE_JOB", entityId := id,
          oldState := some j.observationStatus.value, newState := some status.value,
          payload := payload }

/-! ## Columns that an update keeps -/

@[simp] lemma Task.moved_status (t : Task) (toStatus : TaskStatus) (now : Datetime) :
    (t.moved toStatus now).status = toStatus := by
  unfold moved; split <;> split <;> rfl

@[simp] lemma Task.moved_projectId (t : Task) (toStatus : TaskStatus) (now : Datetime) :
    (t.moved toStatus now).projectId = t.projectId := by
  unfold moved; split <;> split <;> rfl

@[simp] lemma Task.moved_executor (t : Task) (toStatus : TaskStatus) (now : Datetime) :
    (t.moved toStatus now).executor = t.executor := by
  unfold moved; split <;> split <;> rfl

@[simp] lemma Task.moved_specJson (t : Task) (toStatus : TaskStatus) (now : Datetime) :
    (t.moved toStatus now).specJson = t.specJson := by
  unfold moved; split <;> split <;> rfl

@[simp] lemma Task.moved_acceptancePolicyJson (t : Task) (toStatus : TaskStatus) (now : Datetime) :
    (t.moved toStatus now).acceptancePolicyJson = t.acceptancePolicyJson := by
  unfold moved; split <;> split <;> rfl

@[simp] lemma Task.moved_lockVersion (t : Task) (toStatus : TaskStatus) (now : Datetime) :
    (t.moved toStatus now).lockVersion = t.lockVersion + 1 := by
  unfold moved; split <;> split <;> rfl

lemma Task.moved_attemptCount (t : Task) (toStatus : TaskStatus) (now : Datetime) :
    (t.moved toStatus now).attemptCount =
      t.attemptCount + if toStatus = .running then 1 else 0 := by
  unfold moved; split <;> split <;> rfl

/-- Only the four finishing states clear the lease. -/
lemma Task.moved_lease {t : Task} {toStatus : TaskStatus} {now : Datetime}
    (unfinished : ¬ (toStatus = .succeeded ∨ toStatus = .failed ∨ toStatus = .cancelled ∨
      toStatus = .skipped)) :
    (t.moved toStatus now).leaseExpiresAt = t.leaseExpiresAt := by
  simp only [moved, unfinished, if_false]
  split <;> rfl

@[simp] lemma ComputeJob.moved_executionStatus (j : ComputeJob) (toStatus : ComputeExecutionStatus)
    (now : Datetime) : (j.moved toStatus now).executionStatus = toStatus := by
  unfold moved; split <;> split <;> split <;> rfl

@[simp] lemma ComputeJob.moved_projectId (j : ComputeJob) (toStatus : ComputeExecutionStatus)
    (now : Datetime) : (j.moved toStatus now).projectId = j.projectId := by
  unfold moved; split <;> split <;> split <;> rfl

@[simp] lemma ComputeJob.moved_taskId (j : ComputeJob) (toStatus : ComputeExecutionStatus)
    (now : Datetime) : (j.moved toStatus now).taskId = j.taskId := by
  unfold moved; split <;> split <;> split <;> rfl

@[simp] lemma ComputeJob.moved_attemptNo (j : ComputeJob) (toStatus : ComputeExecutionStatus)
    (now : Datetime) : (j.moved toStatus now).attemptNo = j.attemptNo := by
  unfold moved; split <;> split <;> split <;> rfl

@[simp] lemma ComputeJob.moved_exitCode (j : ComputeJob) (toStatus : ComputeExecutionStatus)
    (now : Datetime) : (j.moved toStatus now).exitCode = j.exitCode := by
  unfold moved; split <;> split <;> split <;> rfl

@[simp] lemma ComputeJob.moved_failureClass (j : ComputeJob) (toStatus : ComputeExecutionStatus)
    (now : Datetime) : (j.moved toStatus now).failureClass = j.failureClass := by
  unfold moved; split <;> split <;> split <;> rfl

@[simp] lemma ComputeJob.moved_providerMetadataJson (j : ComputeJob)
    (toStatus : ComputeExecutionStatus) (now : Datetime) :
    (j.moved toStatus now).providerMetadataJson = j.providerMetadataJson := by
  unfold moved; split <;> split <;> split <;> rfl

@[simp] lemma ComputeJob.moved_observationStatus (j : ComputeJob)
    (toStatus : ComputeExecutionStatus) (now : Datetime) :
    (j.moved toStatus now).observationStatus = j.observationStatus := by
  unfold moved; split <;> split <;> split <;> rfl

@[simp] lemma ComputeJob.moved_lockVersion (j : ComputeJob) (toStatus : ComputeExecutionStatus)
    (now : Datetime) : (j.moved toStatus now).lockVersion = j.lockVersion + 1 := by
  unfold moved; split <;> split <;> split <;> rfl

/-! ## Inversion -/

/-- Inversion for `transition_task`: a legal move of the row and one `TASK` event. -/
lemma Db.transitionTask_ok {db db' : Db} {id : String} {toStatus : TaskStatus}
    {expectedStatus : Option TaskStatus} {eventType : Option String} {payload : JsonObject}
    {now : Datetime}
    (h : db.transitionTask id toStatus expectedStatus eventType payload now = .ok db') :
    ∃ t p ty,
      db.tasks.get id = some t ∧
      (∀ s, expectedStatus = some s → t.status = s) ∧
      toStatus ∈ taskTransitions t.status ∧
      db.projects.get t.projectId = some p ∧
      db' = ({ db with tasks := db.tasks.set id (t.moved toStatus now) } : Db).logged t.projectId
        { eventType := ty, entityType := "TASK", entityId := id,
          oldState := some t.status.value, newState := some toStatus.value,
          payload := payload } := by
  unfold transitionTask at h
  split at h
  · cases h
  · rename_i t ht
    split at h
    · cases h
    · rename_i expected
      split at h
      · cases h
      · rename_i legal
        split at h
        · cases h
        · rename_i ty _
          obtain ⟨p, hp, _, _, e⟩ := append_ok h
          refine ⟨t, p, ty, ht, ?_, not_not.mp legal, hp, e⟩
          intro s es
          rw [es, Option.any_some, bne_iff_ne, ne_eq, not_not] at expected
          exact expected.symm

/-- Inversion for `transition_compute_job`: a no-op, or a legal move of the row and one event. -/
lemma Db.transitionComputeJob_ok {db db' : Db} {id : String} {toStatus : ComputeExecutionStatus}
    {expectedStatus : Option ComputeExecutionStatus} {payload : JsonObject} {now : Datetime}
    (h : db.transitionComputeJob id toStatus expectedStatus payload now = .ok db') :
    ∃ j,
      db.jobs.get id = some j ∧
      (∀ s, expectedStatus = some s → j.executionStatus = s) ∧
      (toStatus = j.executionStatus ∧ db' = db ∨
        ∃ p ty,
          toStatus ∈ computeTransitions j.executionStatus ∧
          computeEventTypes toStatus = some ty ∧
          db.projects.get j.projectId = some p ∧
          db' = ({ db with jobs := db.jobs.set id (j.moved toStatus now) } : Db).logged j.projectId
            { eventType := ty, entityType := "COMPUTE_JOB", entityId := id,
              oldState := some j.executionStatus.value, newState := some toStatus.value,
              payload := payload }) := by
  unfold transitionComputeJob at h
  split at h
  · cases h
  · rename_i j hj
    split at h
    · cases h
    · rename_i expected
      have exp : ∀ s, expectedStatus = some s → j.executionStatus = s := by
        intro s es
        rw [es, Option.any_some, bne_iff_ne, ne_eq, not_not] at expected
        exact expected.symm
      refine ⟨j, hj, exp, ?_⟩
      split at h
      · rename_i same
        cases h
        exact Or.inl ⟨same, rfl⟩
      · split at h
        · cases h
        · rename_i legal
          split at h
          · cases h
          · rename_i ty hty
            obtain ⟨p, hp, _, _, e⟩ := append_ok h
            exact Or.inr ⟨p, ty, not_not.mp legal, hty, hp, e⟩

/-- Inversion for `update_observation_status`: a no-op, or an update of the row and one event. -/
lemma Db.updateObservationStatus_ok {db db' : Db} {id : String} {status : ObservationStatus}
    {payload : JsonObject} (h : db.updateObservationStatus id status payload = .ok db') :
    ∃ j,
      db.jobs.get id = some j ∧
      (j.observationStatus = status ∧ db' = db ∨
        ∃ p,
          j.observationStatus ≠ status ∧
          db.projects.get j.projectId = some p ∧
          db' = ({ db with jobs := db.jobs.set id (j.observed status) } : Db).logged j.projectId
            { eventType := observationEventType status, entityType := "COMPUTE_JOB",
              entityId := id, oldState := some j.observationStatus.value,
              newState := some status.value, payload := payload }) := by
  unfold updateObservationStatus at h
  split at h
  · cases h
  · rename_i j hj
    refine ⟨j, hj, ?_⟩
    split at h
    · rename_i same
      cases h
      exact Or.inl ⟨same, rfl⟩
    · rename_i differs
      obtain ⟨p, hp, _, _, e⟩ := append_ok h
      exact Or.inr ⟨p, differs, hp, e⟩

/-! ## Totality on sound databases -/

/-- Without an expected status every status is the expected one. -/
lemma expected_none {α : Type} {status : α} :
    ∀ s, (none : Option α) = some s → status = s := by
  intro s e
  cases e

/-- The expected status is the one that was found. -/
lemma expected_some {α : Type} {status expected : α} (found : status = expected) :
    ∀ s, some expected = some s → status = s := by
  intro s e
  cases e
  exact found

/-- A legal `transition_task` succeeds on a sound database. -/
lemma Db.Sound.transitionTask_total {db : Db} (sd : db.Sound) {id : String} {t : Task}
    (ht : db.tasks.get id = some t) {toStatus : TaskStatus}
    (legal : toStatus ∈ taskTransitions t.status)
    {expectedStatus : Option TaskStatus} (exp : ∀ s, expectedStatus = some s → t.status = s)
    (eventType : Option String) (payload : JsonObject) (now : Datetime) :
    ∃ db', db.transitionTask id toStatus expectedStatus eventType payload now = .ok db' := by
  obtain ⟨p, hp⟩ := sd.taskProject ht
  obtain ⟨ty, hty⟩ := taskTransitions_event legal
  have noMismatch : expectedStatus.any (· != t.status) = false := by
    cases expectedStatus with
    | none => rfl
    | some s => simp [exp s rfl]
  obtain ⟨ty', hty'⟩ :
      ∃ ty', (eventType.filter (· != "") <|> taskEventTypes toStatus) = some ty' := by
    cases eventType.filter (· != "") with
    | none => exact ⟨ty, hty⟩
    | some ty' => exact ⟨ty', rfl⟩
  simp only [transitionTask, ht, noMismatch, legal, not_true, if_false, hty', Bool.false_eq_true]
  have sd' := sd.setTask ht (t.moved_projectId toStatus now)
  exact ⟨_, sd'.append_total hp rfl⟩

/-- A legal `transition_compute_job` succeeds on a sound database. -/
lemma Db.Sound.transitionComputeJob_total {db : Db} (sd : db.Sound) {id : String} {j : ComputeJob}
    (hj : db.jobs.get id = some j) {toStatus : ComputeExecutionStatus}
    (legal : toStatus = j.executionStatus ∨ toStatus ∈ computeTransitions j.executionStatus)
    {expectedStatus : Option ComputeExecutionStatus}
    (exp : ∀ s, expectedStatus = some s → j.executionStatus = s)
    (payload : JsonObject) (now : Datetime) :
    ∃ db', db.transitionComputeJob id toStatus expectedStatus payload now = .ok db' := by
  obtain ⟨p, hp⟩ := sd.jobProject hj
  have noMismatch : expectedStatus.any (· != j.executionStatus) = false := by
    cases expectedStatus with
    | none => rfl
    | some s => simp [exp s rfl]
  simp only [transitionComputeJob, hj, noMismatch, Bool.false_eq_true, if_false]
  split
  · exact ⟨db, rfl⟩
  · rename_i differs
    have legal := legal.resolve_left differs
    obtain ⟨ty, hty⟩ := computeTransitions_event legal
    simp only [legal, not_true, if_false, hty]
    have sd' := sd.setJob hj (j.moved_projectId toStatus now) (j.moved_taskId toStatus now)
    exact ⟨_, sd'.append_total hp rfl⟩

/-- `update_observation_status` succeeds on a sound database. -/
lemma Db.Sound.updateObservationStatus_total {db : Db} (sd : db.Sound) {id : String}
    {j : ComputeJob} (hj : db.jobs.get id = some j) (status : ObservationStatus)
    (payload : JsonObject) :
    ∃ db', db.updateObservationStatus id status payload = .ok db' := by
  obtain ⟨p, hp⟩ := sd.jobProject hj
  simp only [updateObservationStatus, hj]
  split
  · exact ⟨db, rfl⟩
  · have sd' : ({ db with jobs := db.jobs.set id (j.observed status) } : Db).Sound :=
      sd.setJob hj rfl rfl
    exact ⟨_, sd'.append_total hp rfl⟩

/-! ## Soundness is kept -/

lemma Db.Sound.transitionTask {db db' : Db} (sd : db.Sound) {id : String} {toStatus : TaskStatus}
    {expectedStatus : Option TaskStatus} {eventType : Option String} {payload : JsonObject}
    {now : Datetime}
    (h : db.transitionTask id toStatus expectedStatus eventType payload now = .ok db') :
    db'.Sound := by
  obtain ⟨t, p, ty, ht, _, _, _, rfl⟩ := transitionTask_ok h
  have sd' := sd.setTask ht (t.moved_projectId toStatus now)
  exact sd'.logged _ _

lemma Db.Sound.transitionComputeJob {db db' : Db} (sd : db.Sound) {id : String}
    {toStatus : ComputeExecutionStatus} {expectedStatus : Option ComputeExecutionStatus}
    {payload : JsonObject} {now : Datetime}
    (h : db.transitionComputeJob id toStatus expectedStatus payload now = .ok db') : db'.Sound := by
  obtain ⟨j, hj, _, ⟨_, rfl⟩ | ⟨p, ty, _, _, _, rfl⟩⟩ := transitionComputeJob_ok h
  · exact sd
  · have sd' := sd.setJob hj (j.moved_projectId toStatus now) (j.moved_taskId toStatus now)
    exact sd'.logged _ _

lemma Db.Sound.updateObservationStatus {db db' : Db} (sd : db.Sound) {id : String}
    {status : ObservationStatus} {payload : JsonObject}
    (h : db.updateObservationStatus id status payload = .ok db') : db'.Sound := by
  obtain ⟨j, hj, ⟨_, rfl⟩ | ⟨p, _, _, rfl⟩⟩ := updateObservationStatus_ok h
  · exact sd
  · have sd' : ({ db with jobs := db.jobs.set id (j.observed status) } : Db).Sound :=
      sd.setJob hj rfl rfl
    exact sd'.logged _ _

end ResearchController
