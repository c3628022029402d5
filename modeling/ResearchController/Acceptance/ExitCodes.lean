import ResearchController.Artifacts.Produced
import ResearchController.Isolation.Verification
import ResearchController.Recovery.PollAgreement

/-!
# Exit codes

A spec may say that its command need not exit with zero. The exit code is interpreted twice on its
way to the verdict: `poll` makes a failed job of every code but zero, and `validate_compute_task`
asks the spec about the code and, whatever the spec says, wants a job that succeeded. The flag of
the spec therefore never has an effect (`nonzero_exit_accepted_iff`).

The pipeline is followed transaction by transaction: the observation of a poll is recorded, the
candidates of the job are ingested, the job is finalised and its task is verified.
-/

namespace ResearchController
open Lib

/-- The job of a task's highest attempt. -/
structure Db.Latest (db : Db) (id k : String) (job : ComputeJob) : Prop where
  stored : db.jobs.get k = some job
  owner : job.taskId = id
  newest : ∀ {k' j'}, db.jobs.get k' = some j' → j'.taskId = id → k' ≠ k →
    j'.attemptNo < job.attemptNo

/-- The checks of the required artifacts and of the metrics find nothing wrong. -/
structure TaskValidator.Satisfied (v : TaskValidator) (spec : ComputeTaskSpec) (policy : JsonObject)
    (artifacts : List Artifact) : Prop where
  required : ∃ names, requiredNames policy spec.outputs = .ok names ∧
    ∀ name ∈ names, requiredReason (byName artifacts) name = none
  metrics : ∃ validators, declaredValidators spec.success policy = .ok validators ∧
    v.metricsBlock validators artifacts = .ok []

/-! ## The latest job -/

namespace Db.Latest

variable {db db' : Db} {id k : String} {job job' : ComputeJob}

/-- The query for the latest job finds it. -/
lemma latestJobRow (lt : db.Latest id k job) : db.latestJobRow id = some job := by
  cases found : db.latestJob id with
  | none =>
    have mem : (k, job) ∈ ([] : List (String × ComputeJob)) := by
      rw [← List.argmax_eq_none.mp found]
      exact List.mem_filter.mpr ⟨(Dict.mem_items _).mpr lt.stored, beq_iff_eq.mpr lt.owner⟩
    cases mem
  | some item =>
    obtain ⟨k', j'⟩ := item
    obtain ⟨stored, owner, highest⟩ := latestJob_some found
    have same : k' = k := by
      by_contra other
      exact absurd (highest lt.stored lt.owner) (not_le.mpr (lt.newest stored owner other))
    rw [same, lt.stored] at stored
    cases stored
    rw [Db.latestJobRow, found]
    rfl

lemma latestJob (lt : db.Latest id k job) : db.latestJob id = some (k, job) := by
  have row := lt.latestJobRow
  obtain ⟨⟨k', job'⟩, found, rfl⟩ := Option.map_eq_some_iff.mp row
  obtain ⟨stored, owner, _⟩ := latestJob_some found
  have same : k' = k := by
    by_contra other
    exact absurd (lt.newest stored owner other) (lt_irrefl _)
  rw [found, same]

/-- A new row of the same attempt. -/
lemma setJob (lt : db.Latest id k job) (jobs : db'.jobs = db.jobs.set k job')
    (owner : job'.taskId = job.taskId) (attemptNo : job'.attemptNo = job.attemptNo) :
    db'.Latest id k job' := by
  refine ⟨by rw [jobs]; exact Dict.get_set_self _ _ _, owner.trans lt.owner, ?_⟩
  intro k0 j0 stored own other
  rw [jobs, Dict.get_set_ne _ _ other] at stored
  rw [attemptNo]
  exact lt.newest stored own other

lemma ofJobs (lt : db.Latest id k job) (jobs : db'.jobs = db.jobs) : db'.Latest id k job := by
  refine ⟨by rw [jobs]; exact lt.stored, lt.owner, ?_⟩
  intro k0 j0 stored
  rw [jobs] at stored
  exact lt.newest stored

end Db.Latest

/-! ## The verdict -/

/-- If everything else is fine, the verdict is the one of the job row. -/
lemma TaskValidator.Satisfied.reasons {v : TaskValidator} {spec : ComputeTaskSpec}
    {policy : JsonObject} {artifacts : List Artifact} (st : v.Satisfied spec policy artifacts)
    (job : ComputeJob) :
    v.reasons spec policy job artifacts = .ok (jobReasons spec.success job) := by
  obtain ⟨names, listed, fine⟩ := st.required
  obtain ⟨validators, declared, nothing⟩ := st.metrics
  have noNames : names.filterMap (requiredReason (byName artifacts)) = [] :=
    List.filterMap_eq_nil_iff.mpr fine
  refine bind_ok.mpr ⟨names, listed, bind_ok.mpr ⟨validators, declared,
    bind_ok.mpr ⟨[], nothing, ?_⟩⟩⟩
  rw [noNames, List.append_nil, List.append_nil]
  rfl

/-- What passes the validator satisfies the checks. -/
lemma TaskValidator.satisfied_of_reasons {v : TaskValidator} {spec : ComputeTaskSpec}
    {policy : JsonObject} {job : ComputeJob} {artifacts : List Artifact}
    (h : v.reasons spec policy job artifacts = .ok []) : v.Satisfied spec policy artifacts := by
  obtain ⟨_, _, validators, declared, nothing⟩ := reasons_nil h
  obtain ⟨names, listed, h⟩ := bind_ok.mp h
  obtain ⟨_, _, h⟩ := bind_ok.mp h
  obtain ⟨_, _, h⟩ := bind_ok.mp h
  obtain ⟨front, _⟩ := List.append_eq_nil_iff.mp (Except.ok.inj h)
  obtain ⟨_, noNames⟩ := List.append_eq_nil_iff.mp front
  exact ⟨⟨names, listed, List.filterMap_eq_nil_iff.mp noNames⟩, validators, declared, nothing⟩

/-- Without a demand on the exit code only the status of the job counts. -/
lemma jobReasons_tolerant {success : SuccessSpec} (tolerant : success.requireZeroExitCode = false)
    (job : ComputeJob) :
    (jobReasons success job).isEmpty = (job.executionStatus == .succeeded) := by
  simp only [jobReasons, tolerant, Bool.false_and, Bool.false_eq_true, if_false, List.nil_append]
  cases e : job.executionStatus == .succeeded with
  | true => rw [bne, e]; rfl
  | false => rw [bne, e]; rfl

/-- A tolerant task that has everything else succeeds exactly if its job did. -/
lemma TaskValidator.Satisfied.verdict {v : TaskValidator} {specJson : Json} {spec : ComputeTaskSpec}
    {policy : JsonObject} {artifacts : List Artifact} (st : v.Satisfied spec policy artifacts)
    (valid : v.modelValidate specJson = .ok spec)
    (tolerant : spec.success.requireZeroExitCode = false) (job : ComputeJob) :
    v.verdict specJson policy (some job) artifacts =
        .ok { passed := job.executionStatus == .succeeded,
              reasons := jobReasons spec.success job } := by
  rw [← jobReasons_tolerant tolerant]
  exact bind_ok.mpr ⟨spec, valid, bind_ok.mpr ⟨_, st.reasons job, rfl⟩⟩

/-! ## The steps of the pipeline -/

/-- A poll that finds the exit record reports the status that belongs to its code. -/
lemma poll_exited {loads : String → Except PyErr Json} {job : ComputeJobView} {w w' : RunWorld}
    {trace : List (PollEffect × RunWorld)} {obs : JobObservation} {c : Int}
    (exited : w.exit = some c)
    (polled : pollMachine.Interleaved (poll loads job) w trace (.ok obs) w') :
    ∃ logs, obs = observation job logs (exitVerdict c) := by
  obtain ⟨logs, w1, _, _, logged, executed, _⟩ := polled.bind_inv
  have exited1 := (pollMachine_later (logged.drifts fun _ _ _ => rfl)).exit c exited
  obtain ⟨verdict, _, _, _, decided, finished, _⟩ := executed.bind_inv
  obtain ⟨_, e, _⟩ := finished.ret_inv
  cases e
  obtain ⟨w2, o2, _, drifts2, call2, _⟩ := decided.call_inv
  have exited2 := (pollMachine_later drifts2).exit c exited1
  have found : (pollMachine.handle w2 .exitExists o2).2 = true :=
    congrArg Option.isSome exited2
  rw [found, if_pos rfl] at call2
  obtain ⟨w3, o3, _, drifts3, call3, _⟩ := call2.call_inv
  have loaded : (pollMachine.handle w3 .loadExit o3).2 = .ok (runnerExit c) :=
    RunWorld.read_loadExit ((pollMachine_later drifts3).exit c exited2) o3
  rw [loaded] at call3
  obtain ⟨exitData, e, call4⟩ := call3.check_inv
  cases e
  obtain ⟨code, e, call5⟩ := call4.check_inv
  rw [exitCodeOf_runnerExit] at e
  cases e
  obtain ⟨_, e, _⟩ := call5.ret_inv
  cases e
  exact ⟨logs, rfl⟩

/-- The status that `poll` makes of an exit code. -/
lemma exitVerdict_status (c : Int) :
    (exitVerdict c).status.isTerminal = true ∧ ((exitVerdict c).status = .succeeded ↔ c = 0) := by
  unfold exitVerdict
  by_cases zero : c = 0
  · simp [zero, ComputeExecutionStatus.isTerminal]
  · simp [zero, ComputeExecutionStatus.isTerminal]

/-- Recording an observation that decides begins the collection. -/
lemma Db.Latest.record {db : Db} {id : String} {job : ComputeJob} {obs : JobObservation}
    (lt : db.Latest id obs.computeJobId job) (sd : db.Sound)
    (pollable : job.executionStatus.isPollable = true) (decides : obs.decides = true)
    {pollInterval : Int} (storable : obs.storable pollInterval = .ok ()) (now : Datetime) :
    ∃ db1 job1, db.recordObservation obs pollInterval now = .ok db1 ∧ db1.Sound ∧
      db1.tasks = db.tasks ∧ db1.Latest id obs.computeJobId job1 ∧
      job1.executionStatus = .collecting ∧
      observedTerminal job1.providerMetadataJson = .ok obs.executionStatus := by
  obtain ⟨db1, recorded⟩ := sd.recordObservation_total lt.stored storable now
  have st := recordObservation_sets lt.stored recorded
  obtain ⟨owner, attemptNo, collecting, _, _, held⟩ :=
    ComputeJob.recorded_decided pollable decides pollInterval now
  refine ⟨db1, _, recorded, sd.recordObservation recorded, by rw [st], ?_, collecting, held⟩
  exact lt.setJob (by rw [st]) owner attemptNo

/-- Finalising a collected job moves it to the status it holds and its task to verification. -/
lemma Db.Latest.finalise {db : Db} {id k : String} {job : ComputeJob} {t : Task}
    (lt : db.Latest id k job) (sd : db.Sound) (ht : db.tasks.get id = some t)
    (running : t.status = .running) (collecting : job.executionStatus = .collecting)
    {s : ComputeExecutionStatus} (held : observedTerminal job.providerMetadataJson = .ok s)
    (terminal : s.isTerminal = true) (now : Datetime) :
    ∃ jobIds db' job', db.collectingCommit k now = .ok (jobIds, db') ∧ db'.Sound ∧
      db'.tasks = db.tasks.set id (t.moved .verifying now) ∧ db'.artifacts = db.artifacts ∧
      db'.Latest id k job' ∧ job'.executionStatus = s := by
  obtain ⟨⟨jobIds, db'⟩, commits⟩ :=
    sd.collectingCommit_total lt.stored now fun _ => ⟨s, held, terminal⟩
  obtain ⟨_, open_⟩ | ⟨job', s', hj', _, held', _, artifacts, _, jobs, tasks⟩ :=
    collectingCommit_ok commits
  · exact (open_ job lt.stored collecting).elim
  · cases lt.stored.symm.trans hj'
    cases held.symm.trans held'
    refine ⟨jobIds, db', _, commits, sd.collectingCommit commits, ?_, artifacts, ?_,
      ComputeJob.stepped_executionStatus job s now⟩
    · rw [lt.owner, ht] at tasks
      obtain ⟨_, e, _, tasks⟩ | ⟨_, idle⟩ := tasks
      · cases e
        exact tasks
      · exact (idle t rfl running).elim
    · have same := job.sameWork_stepped s now
      exact lt.setJob jobs same.taskId same.attemptNo

/-- A task whose checks find nothing wrong is settled by the status of its job. -/
lemma Db.Latest.verify {v : TaskValidator} {db : Db} {id k : String} {job : ComputeJob} {t : Task}
    {spec : ComputeTaskSpec} (lt : db.Latest id k job) (sd : db.Sound)
    (ht : db.tasks.get id = some t) (verifying : t.status = .verifying)
    (compute : t.executor = .compute) (valid : v.modelValidate t.specJson = .ok spec)
    (tolerant : spec.success.requireZeroExitCode = false)
    (st : v.Satisfied spec t.acceptancePolicyJson (db.artifactsOf id)) {taskIds : List String}
    (query : taskIds.Perm db.verifyingTasks)
    (others : ∀ other ∈ taskIds, other ≠ id → ∀ t', db.tasks.get other = some t' →
      ∃ result, v.verdictOn db other t' = .ok result) (changedAt : Datetime) :
    ∃ verified db' t', v.verifyCompletedWork db changedAt taskIds = .ok (verified, db') ∧
      db'.tasks.get id = some t' ∧
      (t'.status = .succeeded ↔ job.executionStatus = .succeeded) := by
  have own : v.verdictOn db id t =
      .ok { passed := job.executionStatus == .succeeded,
            reasons := jobReasons spec.success job } := by
    rw [TaskValidator.verdictOn, lt.latestJobRow]
    exact st.verdict valid tolerant job
  have each : ∀ other ∈ taskIds, ∀ t', db.tasks.get other = some t' →
      ∃ result, v.verdictOn db other t' = .ok result := by
    intro other mem t' ht'
    by_cases same : other = id
    · subst same
      cases ht.symm.trans ht'
      exact ⟨_, own⟩
    · exact others other mem same t' ht'
  -- every task has a verdict, so the loop returns and settles each of them
  obtain ⟨s, returned⟩ := (TaskValidator.verifyCompletedWork_total_iff sd query changedAt).mpr each
  obtain ⟨verified, db', verifies, settled⟩ := TaskValidator.settlesEach_of_total sd query returned
  have mem : id ∈ taskIds := by
    refine query.mem_iff.mpr (Dict.mem_keysWhere.mpr ⟨t, ht, ?_⟩)
    rw [verifying, compute]
    rfl
  obtain ⟨t0, t', ht0, ht', _, status⟩ := settled id mem
  cases ht.symm.trans ht0
  refine ⟨verified, db', t', verifies, ht', ?_⟩
  rw [TaskValidator.verdictOn] at own
  rw [status, TaskValidator.outcome, own]
  cases e : job.executionStatus == .succeeded with
  | true => simp [beq_iff_eq.mp e]
  | false => simp [beq_eq_false_iff_ne.mp e]

/-- The pipeline behind a poll, on a task that has everything but the status of its job: each
    transaction returns, and the task ends in a status with a given property. The other tasks that
    are verified in the same transaction must not raise. An observation that cannot be stored ends
    the pipeline, and the task keeps its status. -/
def Db.Pipeline (db : Db) (v : TaskValidator) (r : ReconcilerSetup) (id : String) (t : Task)
    (spec : ComputeTaskSpec) (obs : JobObservation) (ends : TaskStatus → Prop) : Prop :=
  ∀ recordedAt,
    (∃ e, db.recordObservation obs r.pollInterval recordedAt = .error e ∧ ends t.status) ∨
    ∃ db1 job1, db.recordObservation obs r.pollInterval recordedAt = .ok db1 ∧
    db1.jobs.get obs.computeJobId = some job1 ∧
    ∀ candidates db2, IngestsEach r (job1.view obs.computeJobId) db1 candidates db2 →
      v.Satisfied spec t.acceptancePolicyJson (db2.artifactsOf id) →
      ∀ collectedAt, ∃ jobIds db3,
        db2.collectingCommit obs.computeJobId collectedAt = .ok (jobIds, db3) ∧
        ∀ verifiedAt taskIds, taskIds.Perm db3.verifyingTasks →
          (∀ other ∈ taskIds, other ≠ id → ∀ t', db3.tasks.get other = some t' →
            ∃ result, v.verdictOn db3 other t' = .ok result) →
          ∃ verified db4 t4,
            v.verifyCompletedWork db3 verifiedAt taskIds = .ok (verified, db4) ∧
              db4.tasks.get id = some t4 ∧ ends t4.status

lemma Db.Pipeline.congr {db : Db} {v : TaskValidator} {r : ReconcilerSetup} {id : String} {t : Task}
    {spec : ComputeTaskSpec} {obs : JobObservation} {ends ends' : TaskStatus → Prop}
    (same : ∀ s, ends' s ↔ ends s) (pipeline : db.Pipeline v r id t spec obs ends) :
    db.Pipeline v r id t spec obs ends' := by
  have e : ends' = ends := funext fun s => propext (same s)
  rw [e]
  exact pipeline

/-- The pipeline brings a tolerant task to success exactly if the observed status is success and the
    observation can be stored. -/
lemma Db.Latest.pipeline {v : TaskValidator} (r : ReconcilerSetup) {db : Db} {id : String}
    {t : Task} {job : ComputeJob} {spec : ComputeTaskSpec} {obs : JobObservation}
    (lt : db.Latest id obs.computeJobId job) (sd : db.Sound) (ht : db.tasks.get id = some t)
    (running : t.status = .running) (compute : t.executor = .compute)
    (pollable : job.executionStatus.isPollable = true)
    (valid : v.modelValidate t.specJson = .ok spec)
    (tolerant : spec.success.requireZeroExitCode = false) (decides : obs.decides = true) :
    db.Pipeline v r id t spec obs fun s => s = .succeeded ↔
      obs.executionStatus = .succeeded ∧ obs.storable r.pollInterval = .ok () := by
  intro recordedAt
  cases storable : obs.storable r.pollInterval with
  | error e =>
    refine Or.inl ⟨e, Db.recordObservation_refused lt.stored pollable storable recordedAt, ?_⟩
    simp [running]
  | ok =>
    right
    obtain ⟨db1, job1, recorded, sd1, tasks1, lt1, collecting, held⟩ :=
      lt.record sd pollable decides storable recordedAt
    refine ⟨db1, job1, recorded, lt1.stored, ?_⟩
    intro candidates db2 ingests st collectedAt
    -- the candidates leave the job and the task alone
    obtain ⟨jobs2, tasks2, sound2⟩ := ingests.keeps
    have sd2 := sound2 sd1
    have ht2 : db2.tasks.get id = some t := by rw [tasks2, tasks1, ht]
    have terminal := (Bool.and_eq_true_iff.mp decides).2
    obtain ⟨jobIds, db3, job3, commits, sd3, tasks3, artifacts3, lt3, status3⟩ :=
      (lt1.ofJobs jobs2).finalise sd2 ht2 running collecting held terminal collectedAt
    refine ⟨jobIds, db3, commits, ?_⟩
    intro verifiedAt taskIds query others
    have ht3 : db3.tasks.get id = some (t.moved .verifying collectedAt) := by
      rw [tasks3]
      exact Dict.get_set_self _ _ _
    -- finalising does not touch the artifacts, which still satisfy the checks
    have same : db3.artifactsOf id = db2.artifactsOf id := by
      simp only [Db.artifactsOf, artifacts3]
    obtain ⟨verified, db4, t4, verifies, ht4, settled⟩ :=
      lt3.verify sd3 ht3 (t.moved_status _ _) ((t.moved_executor _ _).trans compute)
        (by rw [t.moved_specJson]; exact valid) tolerant
        (by rw [t.moved_acceptancePolicyJson, same]; exact st) query others verifiedAt
    refine ⟨verified, db4, t4, verifies, ht4, ?_⟩
    rw [← status3, and_iff_left rfl]
    exact settled

/-- A running task that tolerates any exit code, and its latest job, which is still polled. -/
structure Db.Tolerant (db : Db) (v : TaskValidator) (id k : String) (t : Task) (job : ComputeJob)
    (spec : ComputeTaskSpec) : Prop where
  sound : db.Sound
  stored : db.tasks.get id = some t
  running : t.status = .running
  compute : t.executor = .compute
  latest : db.Latest id k job
  pollable : job.executionStatus.isPollable = true
  valid : v.modelValidate t.specJson = .ok spec
  tolerant : spec.success.requireZeroExitCode = false

/-- What a poll reports about an exit record can be stored if the code is zero and the time of the
    next poll can be. -/
lemma exitVerdict_storable_zero (job : ComputeJobView) (logs : PollLogs) (pollInterval : Int) :
    (observation job logs (exitVerdict 0)).storable pollInterval = .ok () ↔
      ∃ next, logs.observed.plus pollInterval = .ok next := by
  constructor
  · intro storable
    obtain ⟨next, time, _⟩ := bind_ok.mp storable
    exact ⟨next, time⟩
  · rintro ⟨next, time⟩
    exact bind_ok.mpr ⟨next, time, rfl⟩

/-- The pipeline of a job that has left an exit record brings its tolerant task to success exactly
    if the code in the record is zero, as long as the calendar has a time for the next poll. -/
theorem nonzero_exit_accepted_iff {v : TaskValidator} {r : ReconcilerSetup}
    {loads : String → Except PyErr Json} {db : Db} {id k : String} {t : Task} {job : ComputeJob}
    {spec : ComputeTaskSpec} (ex : db.Tolerant v id k t job spec) {c : Int} {w w' : RunWorld}
    {trace : List (PollEffect × RunWorld)} {obs : JobObservation} (exited : w.exit = some c)
    (polled : pollMachine.Interleaved (poll loads (job.view k)) w trace (.ok obs) w') :
    db.Pipeline v r id t spec obs fun s => s = .succeeded ↔
      c = 0 ∧ ∃ next, obs.observedAt.plus r.pollInterval = .ok next := by
  obtain ⟨logs, rfl⟩ := poll_exited exited polled
  obtain ⟨terminal, succeeded⟩ := exitVerdict_status c
  have decides : (observation (job.view k) logs (exitVerdict c)).decides = true := by
    simp only [JobObservation.decides, observation, Bool.and_eq_true]
    exact ⟨rfl, terminal⟩
  have same : (exitVerdict c).status = .succeeded ∧
      (observation (job.view k) logs (exitVerdict c)).storable r.pollInterval = .ok () ↔
        c = 0 ∧ ∃ next, logs.observed.plus r.pollInterval = .ok next := by
    rw [succeeded]
    refine and_congr_right ?_
    rintro rfl
    exact exitVerdict_storable_zero (job.view k) logs r.pollInterval
  refine Db.Pipeline.congr (fun s => iff_congr Iff.rfl same.symm) ?_
  exact Db.Latest.pipeline r ex.latest ex.sound ex.stored ex.running ex.compute ex.pollable
    ex.valid ex.tolerant decides

/-! ## A job that exits with 3 -/

def tolerantSpec : ComputeTaskSpec :=
  { projectId := "p", taskId := "t", submissionKey := "s", execution := {}, resources := {},
    success := { requireZeroExitCode := false, requiredValidators := [] } }

def tolerantTask : Task :=
  { projectId := "p", executor := .compute, status := .running, specJson := .null,
    attemptCount := 1, idempotencyKey := "t", createdAt := 0 }

def tolerantJob : ComputeJob :=
  { projectId := "p", taskId := "t", providerId := "local", resourceClass := "local_cpu",
    submissionKey := "s", attemptNo := 1, remoteWorkdir := "/w", executionStatus := .running,
    specJson := tolerantSpec }

/-- A running task that tolerates any exit code, with its running job. -/
def tolerantDb : Db :=
  { tasks := Dict.empty.set "t" tolerantTask, jobs := Dict.empty.set "j" tolerantJob,
    projects := Dict.empty.set "p" { slug := "p" } }

def tolerantValidator : TaskValidator :=
  ⟨fun _ => .ok tolerantSpec, fun _ => .unreadable "", noTelemetry, 0⟩

lemma tolerantDb_tolerant :
    tolerantDb.Tolerant tolerantValidator "t" "j" tolerantTask tolerantJob tolerantSpec := by
  have task : ∀ {id t}, tolerantDb.tasks.get id = some t → id = "t" ∧ t = tolerantTask := by
    intro id t ht
    rw [tolerantDb, Dict.get_set] at ht
    split at ht
    · cases ht
      exact ⟨‹_›, rfl⟩
    · cases ht
  have job : ∀ {k j}, tolerantDb.jobs.get k = some j → k = "j" ∧ j = tolerantJob := by
    intro k j hj
    rw [tolerantDb, Dict.get_set] at hj
    split at hj
    · cases hj
      exact ⟨‹_›, rfl⟩
    · cases hj
  have project : tolerantDb.projects.get "p" = some { slug := "p" } := rfl
  refine ⟨⟨?_, ?_, ?_, ?_⟩, rfl, rfl, rfl, ⟨rfl, rfl, ?_⟩, rfl, rfl, rfl⟩
  · intro id t ht
    obtain ⟨_, rfl⟩ := task ht
    exact ⟨_, project⟩
  · intro k j hj
    obtain ⟨_, rfl⟩ := job hj
    exact ⟨_, project⟩
  · intro k j hj
    obtain ⟨_, rfl⟩ := job hj
    exact ⟨tolerantTask, rfl⟩
  · intro e mem
    cases mem
  · intro k j hj _ other
    exact (other (job hj).1).elim

/-- The job has exited with 3. -/
def exitedJob : RunWorld := { runningJob with exit := some 3 }

/-- What a poll of it returns. -/
def exitedObservation : JobObservation :=
  observation (tolerantJob.view "j") runningLogs (exitVerdict 3)

lemma exitedJob_polled :
    pollMachine.Interleaved (poll noTelemetry (tolerantJob.view "j")) exitedJob
      [ (.now, exitedJob), (.logExists .out, exitedJob), (.logExists .err, exitedJob),
        (.exitExists, exitedJob), (.loadExit, exitedJob) ] (.ok exitedObservation) exitedJob :=
  .perform (o := {}) .refl (.perform (o := {}) .refl (.perform (o := {}) .refl
    (.perform (o := {}) .refl (.perform (o := {}) .refl .ret))))

/-- The three files that every run leaves behind, with their names as contents. -/
def tolerantSetup : ReconcilerSetup :=
  { registered := fun _ => true, collect := fun _ => .ok [],
    poll := fun _ => .ok exitedObservation, workspaceRoot := "/root",
    files := fun _ => { prepared := .ok [], present := fun _ => true, isFile := fun _ => true,
                        resolve := fun path => path, glob := fun _ => .ok [],
                        digest := fun path => path, size := fun _ => 0 },
    pollInterval := 1 }

def tolerantCandidates : List (ArtifactCandidate × String) :=
  [ (fixedCandidate "/w" ("run.out", "run.out", "LOG"), "out"),
    (fixedCandidate "/w" ("run.error", "run.error", "LOG"), "error"),
    (fixedCandidate "/w" ("exit.json", "exit.json", "RUN_EXIT"), "exit") ]

/-- The pipeline of this job. -/
theorem nonzero_exit_accepted_iff_three :
    tolerantDb.Pipeline tolerantValidator tolerantSetup "t" tolerantTask tolerantSpec
      exitedObservation fun s => s = .succeeded ↔
        (3 : Int) = 0 ∧ ∃ next, exitedObservation.observedAt.plus 1 = .ok next :=
  nonzero_exit_accepted_iff tolerantDb_tolerant rfl exitedJob_polled

/-- Its files can be collected and satisfy the checks. -/
lemma tolerantDb_collects {db1 : Db} {job1 : ComputeJob}
    (recorded : tolerantDb.recordObservation exitedObservation 1 0 = .ok db1)
    (found : db1.jobs.get "j" = some job1) :
    ∃ db2, IngestsEach tolerantSetup (job1.view "j") db1 (tolerantCandidates.map Prod.fst) db2 ∧
      tolerantValidator.Satisfied tolerantSpec [] (db2.artifactsOf "t") := by
  have passes : ((tolerantDb.recordObservation exitedObservation 1 0).toOption.bind fun db1 =>
      (db1.jobs.get "j").bind fun job1 =>
        (tolerantSetup.ingestAll (job1.view "j") db1 tolerantCandidates).toOption.map fun db2 =>
          (tolerantValidator.reasons tolerantSpec []
            { tolerantJob with executionStatus := .succeeded } (db2.artifactsOf "t")).toOption) =
      some (some []) := by decide
  rw [recorded] at passes
  simp only [Except.toOption, Option.bind_some, found] at passes
  obtain ⟨db2, ingested, passes⟩ := Option.map_eq_some_iff.mp passes
  refine ⟨db2, ReconcilerSetup.ingestAll_ok (ok_of_toOption ingested), ?_⟩
  exact TaskValidator.satisfied_of_reasons (ok_of_toOption passes)

/-- There is no other task in any of the states of the pipeline. -/
lemma tolerantDb_alone {db1 db2 db3 : Db} {view : ComputeJobView}
    {candidates : List ArtifactCandidate} {jobIds : List String}
    (recorded : tolerantDb.recordObservation exitedObservation 1 0 = .ok db1)
    (ingests : IngestsEach tolerantSetup view db1 candidates db2)
    (commits : db2.collectingCommit "j" 0 = .ok (jobIds, db3)) {other : String} {t : Task}
    (ht : db3.tasks.get other = some t) : other = "t" := by
  have st := Db.recordObservation_sets tolerantDb_tolerant.latest.stored recorded
  have tasks : db2.tasks = tolerantDb.tasks := by rw [ingests.keeps.2.1, st]
  by_contra ne
  have absent : db2.tasks.get other = none := by
    rw [tasks, tolerantDb, Dict.get_set_ne _ _ ne]
    rfl
  obtain ⟨rfl, _⟩ | ⟨job, _, hj, _, _, _, _, _, _, ⟨_, _, _, e⟩ | ⟨e, _⟩⟩ :=
    Db.collectingCommit_ok commits
  · rw [absent] at ht
    cases ht
  · have own : job.taskId = "t" := by
      rw [ingests.keeps.1, st] at hj
      cases (Dict.get_set_self _ _ _).symm.trans hj
      rfl
    rw [e, own, Dict.get_set_ne _ _ ne, absent] at ht
    cases ht
  · rw [e, absent] at ht
    cases ht

/-- The exit code 3 is refused although the spec tolerates it and everything else is there. -/
theorem nonzero_exit_refused :
    ¬ ∀ {v : TaskValidator} {r : ReconcilerSetup} {loads : String → Except PyErr Json} {db : Db}
        {id k : String} {t : Task} {job : ComputeJob} {spec : ComputeTaskSpec} {c : Int}
        {w w' : RunWorld} {trace : List (PollEffect × RunWorld)} {obs : JobObservation},
        db.Tolerant v id k t job spec → w.exit = some c →
        pollMachine.Interleaved (poll loads (job.view k)) w trace (.ok obs) w' →
        db.Pipeline v r id t spec obs fun s => s = .succeeded := by
  intro accepted
  have ex := tolerantDb_tolerant
  have same := accepted (r := tolerantSetup) ex rfl exitedJob_polled
  -- what is to be refused and what the code does are followed through the same transactions
  have settles : tolerantDb.Pipeline tolerantValidator tolerantSetup "t" tolerantTask tolerantSpec
      exitedObservation fun s => s = .succeeded ↔
        exitedObservation.executionStatus = .succeeded ∧
          exitedObservation.storable 1 = .ok () :=
    Db.Latest.pipeline tolerantSetup ex.latest ex.sound ex.stored ex.running ex.compute
      ex.pollable ex.valid ex.tolerant rfl
  obtain ⟨_, _, running⟩ | ⟨db1, job1, recorded, found, accepts⟩ := same 0
  · cases running
  obtain ⟨_, refused, _⟩ | ⟨_, _, recorded', found', refuses⟩ := settles 0
  · cases recorded.symm.trans refused
  cases recorded.symm.trans recorded'
  cases found.symm.trans found'
  obtain ⟨db2, ingests, st⟩ := tolerantDb_collects recorded found
  obtain ⟨jobIds, db3, commits, accepts⟩ := accepts _ db2 ingests st 0
  obtain ⟨_, _, commits', refuses⟩ := refuses _ db2 ingests st 0
  cases commits.symm.trans commits'
  have others : ∀ other ∈ db3.verifyingTasks, other ≠ "t" → ∀ t', db3.tasks.get other = some t' →
      ∃ result, tolerantValidator.verdictOn db3 other t' = .ok result :=
    fun other _ ne t' ht' => (ne (tolerantDb_alone recorded ingests commits ht')).elim
  obtain ⟨_, db4, t4, verifies, ht4, succeeded⟩ := accepts 0 _ (List.Perm.refl _) others
  obtain ⟨_, _, _, verifies', ht4', settled⟩ := refuses 0 _ (List.Perm.refl _) others
  cases verifies.symm.trans verifies'
  cases ht4.symm.trans ht4'
  obtain ⟨wrong, _⟩ := settled.mp succeeded
  revert wrong
  decide

end ResearchController
