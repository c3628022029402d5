import ResearchController.Acceptance.Passing

/-!
# The latest attempt and its artifacts

The validator picks the job of the highest attempt, but the artifacts of the task, whoever produced
them, and collapses them by name. Two states that agree on the task, on that job and on the
artifacts the job produced may differ in every other artifact of the task (`Db.SameAttempt`). The
verdict is the same in all of them exactly if the job's own data refuse the task by themselves
(`latest_attempt_decides_iff`): otherwise the rows of other producers can complete what the attempt
left out, and can spoil what it did.
-/

namespace ResearchController
open Lib

/-- An artifact of a task that one of its jobs produced. -/
def Artifact.Own (x : Artifact) (id k : String) : Prop :=
  x.taskId = some id ∧ x.producerType = "COMPUTE_JOB" ∧ x.producerRefId = k

instance (x : Artifact) (id k : String) : Decidable (x.Own id k) :=
  inferInstanceAs (Decidable (_ ∧ _ ∧ _))

/-- The database without the artifacts that others than the job produced. -/
def Db.onlyOwn (db : Db) (id k : String) : Db :=
  { db with artifacts := db.artifacts.filter fun _ x => x.Own id k }

/-- Two states, each a database with the files behind its artifacts, agree on a task, its latest job
    and the artifacts of this job. -/
structure Db.SameAttempt (id k : String) (readFile readFile' : String → FileContent)
    (db db' : Db) : Prop where
  task : db.tasks.get id = db'.tasks.get id
  job : ∃ job, db.Latest id k job ∧ db'.Latest id k job
  artifacts : ∀ {i x}, x.Own id k → (db.artifacts.get i = some x ↔ db'.artifacts.get i = some x)
  files : ∀ {i x}, x.Own id k → db.artifacts.get i = some x → readFile x.uri = readFile' x.uri

/-- The data of the latest attempt do not refuse the task by themselves. -/
structure TaskValidator.Undecided (v : TaskValidator) (spec : ComputeTaskSpec) (policy : JsonObject)
    (job : ComputeJob) (own : List Artifact) : Prop where
  readable : policy.Readable
  job : jobReasons spec.success job = []
  metrics : wantsMetrics spec.success policy = true → ∀ x ∈ metricsArtifacts own,
    v.metricReason (wantsFinite spec.success policy) x = .ok []

/-- The verdict is the same in all states that agree with a given one on the latest attempt. -/
def TaskValidator.AttemptDecides (v : TaskValidator) (db : Db) (id k : String) (t : Task) : Prop :=
  ∀ {readFile readFile' db1 db2 db1' db2' r r'}, db1.Constrained → db2.Constrained →
    db.SameAttempt id k v.readFile readFile db1 → db.SameAttempt id k v.readFile readFile' db2 →
    TaskValidator.validateComputeTask { v with readFile := readFile } db1 id t = .ok (r, db1') →
    TaskValidator.validateComputeTask { v with readFile := readFile' } db2 id t = .ok (r', db2') →
    r.passed = r'.passed

/-! ## The states that agree -/

section

variable {v : TaskValidator} {db : Db} {id k : String} {t : Task} {job : ComputeJob}
  {spec : ComputeTaskSpec}

lemma Db.mem_onlyOwn {i : String} {x : Artifact} :
    (db.onlyOwn id k).artifacts.get i = some x ↔ db.artifacts.get i = some x ∧ x.Own id k := by
  rw [Db.onlyOwn, Dict.get_filter, decide_eq_true_iff]

lemma Db.Constrained.onlyOwn (cd : db.Constrained) (id k : String) :
    (db.onlyOwn id k).Constrained := by
  constructor
  · intro i i' x x' hx hx'
    exact cd.version (Db.mem_onlyOwn.mp hx).1 (Db.mem_onlyOwn.mp hx').1
  · intro i i' x x' hx hx'
    exact cd.producer (Db.mem_onlyOwn.mp hx).1 (Db.mem_onlyOwn.mp hx').1

/-- Rows of other producers do not touch what the states agree on. -/
lemma Db.Latest.sameAttempt_extended (lt : db.Latest id k job) {rows : List Artifact} {db' : Db}
    (ex : (db.onlyOwn id k).Extended id rows db')
    (foreign : ∀ x ∈ rows, x.producerType ≠ "COMPUTE_JOB")
    {readFile readFile' : String → FileContent}
    (files : ∀ {i x}, (db.onlyOwn id k).artifacts.get i = some x →
      readFile x.uri = readFile' x.uri) :
    db.SameAttempt id k readFile readFile' db' := by
  refine ⟨by rw [ex.tasks]; rfl, ⟨job, lt, lt.ofJobs ex.jobs⟩, ?_, ?_⟩
  · intro i x own
    constructor
    · intro hx
      exact ex.kept (Db.mem_onlyOwn.mpr ⟨hx, own⟩)
    · intro hx
      obtain old | new := ex.added hx
      · exact (Db.mem_onlyOwn.mp old).1
      · exact (foreign x new own.2.1).elim
  · intro i x own hx
    exact files (Db.mem_onlyOwn.mpr ⟨hx, own⟩)

/-- The artifacts that the states agree on are among the task's artifacts. -/
lemma Db.SameAttempt.mem_artifactsOf {readFile readFile' : String → FileContent} {db' : Db}
    (same : db.SameAttempt id k readFile readFile' db') {x : Artifact}
    (mem : x ∈ (db.onlyOwn id k).artifactsOf id) :
    x ∈ db'.artifactsOf id ∧ readFile x.uri = readFile' x.uri := by
  obtain ⟨i, stored, owner⟩ := Db.mem_artifactsOf.mp mem
  obtain ⟨stored, own⟩ := Db.mem_onlyOwn.mp stored
  exact ⟨Db.mem_artifactsOf.mpr ⟨i, (same.artifacts own).mp stored, owner⟩, same.files own stored⟩

/-! ## The verdicts -/

/-- A task that passes in some state was not refused by its own data. -/
lemma TaskValidator.undecided_of_passed (valid : v.modelValidate t.specJson = .ok spec)
    (lt : db.Latest id k job) {readFile : String → FileContent} {db1 db1' : Db}
    {r : ValidationResult} (same : db.SameAttempt id k v.readFile readFile db1)
    (h : TaskValidator.validateComputeTask { v with readFile := readFile } db1 id t =
      .ok (r, db1')) (passed : r.passed = true) :
    v.Undecided spec t.acceptancePolicyJson job ((db.onlyOwn id k).artifactsOf id) := by
  obtain ⟨k', job', latest, ps⟩ :=
    (validate_passed_iff (v := { v with readFile := readFile }) valid).mp ⟨r, db1', h, passed⟩
  obtain ⟨job0, lt0, lt1⟩ := same.job
  cases lt.stored.symm.trans lt0.stored
  cases latest.symm.trans lt1.latestJob
  refine ⟨ps.readable, ps.job, ?_⟩
  intro wanted x mem
  obtain ⟨own, metrics⟩ := List.mem_filter.mp mem
  obtain ⟨mem1, file⟩ := same.mem_artifactsOf own
  have fine := (ps.metrics wanted).each x (List.mem_filter.mpr ⟨mem1, metrics⟩)
  simp only [metricReason, file]
  exact fine

/-- A row that spoils the check of the run's output. -/
def spoiler (projectId id : String) (version : Nat) (producer uri : String) : Artifact :=
  { projectId := projectId, taskId := some id, kind := "LOG", logicalName := "run.out:late",
    version := version, uri := uri, sizeBytes := 0, sha256 := "", producerType := "USER",
    producerRefId := producer, integrityStatus := .pending, evidenceEligible := false }

/-- An unverified row under a name that belongs to the run's output is a reason against the task. -/
lemma TaskValidator.Passing.not_spoiled {policy : JsonObject} {artifacts : List Artifact}
    {x : Artifact} (named : x.logicalName = "run.out:late")
    (pending : x.integrityStatus = .pending) :
    ¬ v.Passing spec policy job (artifacts ++ [x]) := by
  intro ps
  have fine := ps.present "run.out" (Or.inr (Or.inr List.mem_cons_self))
  obtain ⟨_, verified⟩ := requiredReason_none_iff.mp fine
  obtain ⟨y, mem, found⟩ :=
    byName_covered artifacts ⟨x, List.mem_singleton.mpr rfl, named⟩
  cases List.mem_singleton.mp mem
  have matches' : nameMatches "run.out" "run.out:late" = true := by decide
  rw [verified _ _ found matches'] at pending
  cases pending

/-- Where its own data do not refuse a task, some state does. -/
lemma TaskValidator.Undecided.exists_failing (cd : db.Constrained) (lt : db.Latest id k job)
    (valid : v.modelValidate t.specJson = .ok spec)
    (un : v.Undecided spec t.acceptancePolicyJson job ((db.onlyOwn id k).artifactsOf id)) :
    ∃ db' r db'', db'.Constrained ∧ db.SameAttempt id k v.readFile v.readFile db' ∧
      v.validateComputeTask db' id t = .ok (r, db'') ∧ r.passed = false := by
  obtain ⟨version, producer, uri, unused⟩ := (db.onlyOwn id k).exists_unused
  obtain ⟨db', cd', ex⟩ := (cd.onlyOwn id k).exists_withArtifact
    (show (spoiler t.projectId id version producer uri).taskId = some id from rfl)
    (by
      intro i y hy _
      obtain ⟨otherVersion, otherProducer, _⟩ := unused hy
      exact ⟨otherVersion.symm, otherProducer.symm⟩)
  have foreign : ∀ x ∈ [spoiler t.projectId id version producer uri],
      x.producerType ≠ "COMPUTE_JOB" := by
    intro x mem
    rw [List.mem_singleton.mp mem]
    show "USER" ≠ "COMPUTE_JOB"
    decide
  have same : db.SameAttempt id k v.readFile v.readFile db' :=
    lt.sameAttempt_extended ex foreign fun _ => rfl
  have latest := (lt.ofJobs ex.jobs).latestJob
  have checkable : v.Checkable spec t.acceptancePolicyJson (db'.artifactsOf id) := by
    refine ⟨un.readable.required, un.readable.names, un.readable.validators, ?_⟩
    intro wanted x mem
    rw [ex.listed, metricsArtifacts_append] at mem
    rcases List.mem_append.mp mem with mem | mem
    · exact metricReason_total_iff.mp ⟨[], un.metrics wanted x mem⟩
    -- the spoiler is not a metrics file
    · have plain : ("LOG" == "METRICS" || startsWith "run.out:late" "metrics") = false := by decide
      have nothing : metricsArtifacts [spoiler t.projectId id version producer uri] = [] :=
        List.filter_cons_of_neg (Bool.eq_false_iff.mp plain)
      rw [nothing] at mem
      cases mem
  obtain ⟨_, computed⟩ := (verdictOn_total_iff valid).mpr fun _ => checkable
  obtain ⟨⟨r, db''⟩, validated⟩ := validate_of_verdict computed
  refine ⟨db', r, db'', cd', same, validated, ?_⟩
  -- if it passed, the unverified row would have to be verified
  by_contra passed
  obtain ⟨k', job', latest', ps⟩ :=
    (validate_passed_iff valid).mp ⟨r, db'', validated, by simpa using passed⟩
  rw [ex.listed] at ps
  exact ps.not_spoiled rfl rfl

/-- Where its own data do not refuse a task, there are a state that passes and a state that does
    not, and the validator returns in both. -/
lemma TaskValidator.Undecided.two_verdicts (object : v.loads "{}" = .ok (.dict []))
    (cd : db.Constrained) (lt : db.Latest id k job) (valid : v.modelValidate t.specJson = .ok spec)
    (un : v.Undecided spec t.acceptancePolicyJson job ((db.onlyOwn id k).artifactsOf id)) :
    ¬ v.AttemptDecides db id k t := by
  intro decides
  have own := cd.onlyOwn id k
  obtain ⟨readFile, rows, db1, files, foreign, cd1, ex1, ps⟩ :=
    exists_passing object own t.projectId id un.readable un.job un.metrics
  have same1 : db.SameAttempt id k v.readFile readFile db1 :=
    lt.sameAttempt_extended ex1 foreign fun hx => (files hx).symm
  obtain ⟨r, db1', validated1, passed⟩ :=
    (validate_passed_iff (v := { v with readFile := readFile }) valid).mpr
      ⟨k, job, (lt.ofJobs ex1.jobs).latestJob, ps⟩
  obtain ⟨db2, r', db2', cd2, same2, validated2, failed⟩ := un.exists_failing cd lt valid
  have wrong := decides cd1 cd2 same1 same2 validated1 validated2
  rw [passed, failed] at wrong
  cases wrong

end

/-- All states that agree with a given one on the latest attempt of a task get the same verdict,
    exactly if the policy lists cannot be read, the job row gives a reason against the task, or one
    of the job's own metrics files does. -/
theorem latest_attempt_decides_iff {v : TaskValidator} (object : v.loads "{}" = .ok (.dict []))
    {db : Db} (cd : db.Constrained) {id k : String} {t : Task} {job : ComputeJob}
    {spec : ComputeTaskSpec} (lt : db.Latest id k job)
    (valid : v.modelValidate t.specJson = .ok spec) :
    v.AttemptDecides db id k t ↔
      ¬ v.Undecided spec t.acceptancePolicyJson job ((db.onlyOwn id k).artifactsOf id) := by
  constructor
  · intro decides un
    exact un.two_verdicts object cd lt valid decides
  · intro decided readFile readFile' db1 db2 db1' db2' r r' _ _ same1 same2 h1 h2
    have failed : r.passed = false := by
      by_contra passed
      exact decided (TaskValidator.undecided_of_passed valid lt same1 h1 (by simpa using passed))
    have failed' : r'.passed = false := by
      by_contra passed
      exact decided (TaskValidator.undecided_of_passed valid lt same2 h2 (by simpa using passed))
    rw [failed, failed']

/-! ## A file of the first attempt completes the second -/

/-- A spec with one required output. -/
def modelSpec : ComputeTaskSpec :=
  { projectId := "p", taskId := "t", submissionKey := "s", execution := {}, resources := {},
    outputs := [{ logicalName := "model", glob := "model.*", artifactKind := "MODEL" }] }

def modelTask : Task :=
  { projectId := "p", executor := .compute, status := .verifying, specJson := .null,
    attemptCount := 2, maxAttempts := 2, idempotencyKey := "t", createdAt := 0 }

def modelValidator : TaskValidator :=
  ⟨fun _ => .ok modelSpec, fun _ => .unreadable "", fun _ => .ok (.dict []), 0⟩

/-- The second attempt succeeded without its output. -/
def withoutModel : Db :=
  { tasks := Dict.empty.set "t" modelTask,
    jobs := (Dict.empty.set "j1" { passedJob "t" modelSpec 3 with executionStatus := .failed }).set
      "j2" { passedJob "t" modelSpec 0 with attemptNo := 2 },
    artifacts :=
      ((Dict.empty.set "a" (leftBehind "j2" "run.out")).set "b" (leftBehind "j2" "run.error")).set
        "c" (leftBehind "j2" "exit.json"),
    projects := Dict.empty.set "p" { slug := "p" } }

/-- The first attempt had left the output behind before it failed. -/
def withModel : Db :=
  { withoutModel with artifacts := withoutModel.artifacts.set "d" (leftBehind "j1" "model") }

/-- Rows under different names meet the constraints. -/
lemma Db.constrained_of_names {db : Db}
    (names : (db.artifacts.items.map fun item => item.2.logicalName).Nodup) : db.Constrained := by
  have same : ∀ {i i' x x'}, db.artifacts.get i = some x → db.artifacts.get i' = some x' →
      x.logicalName = x'.logicalName → i = i' := by
    intro i i' x x' hx hx' name
    exact congrArg Prod.fst (List.inj_on_of_nodup_map names ((Dict.mem_items _).mpr hx)
      ((Dict.mem_items _).mpr hx') name)
  constructor
  · intro i i' x x' hx hx' _ name _
    exact same hx hx' name
  · intro i i' x x' hx hx' _ _ _ name _
    exact same hx hx' name

lemma withoutModel_latest :
    withoutModel.Latest "t" "j2" { passedJob "t" modelSpec 0 with attemptNo := 2 } := by
  refine ⟨rfl, rfl, ?_⟩
  intro k' j' hj' _ other
  rw [withoutModel, Dict.get_set_ne _ _ other, Dict.get_set] at hj'
  split at hj'
  · cases hj'
    decide
  · cases hj'

/-- The two states agree on the second attempt. -/
lemma withModel_sameAttempt (readFile : String → FileContent) :
    withoutModel.SameAttempt "t" "j2" readFile readFile withModel := by
  refine ⟨rfl, ⟨_, withoutModel_latest, withoutModel_latest.ofJobs rfl⟩, ?_, fun _ _ => rfl⟩
  intro i x own
  rw [withModel, Dict.get_set]
  split
  · rename_i e
    rw [e]
    constructor
    · intro h
      cases h
    · intro h
      cases h
      have other : ("j1" : String) ≠ "j2" := by decide
      exact (other own.2.2).elim
  · rfl

/-- The second attempt alone does not decide. -/
theorem latest_attempt_decides_iff_model :
    modelValidator.AttemptDecides withoutModel "t" "j2" modelTask ↔
      ¬ modelValidator.Undecided modelSpec modelTask.acceptancePolicyJson
        { passedJob "t" modelSpec 0 with attemptNo := 2 }
        ((withoutModel.onlyOwn "t" "j2").artifactsOf "t") :=
  latest_attempt_decides_iff (v := modelValidator) rfl (Db.constrained_of_names (by decide))
    withoutModel_latest rfl

/-- The verdict on the second attempt is settled by the file of the first. -/
theorem latest_attempt_undecided :
    ¬ ∀ {v : TaskValidator} {db : Db} {id k : String} {t : Task} {job : ComputeJob}
        {spec : ComputeTaskSpec}, db.Constrained → db.Latest id k job →
        v.modelValidate t.specJson = .ok spec → v.AttemptDecides db id k t := by
  intro decides
  have cd : withoutModel.Constrained := Db.constrained_of_names (by decide)
  have cd' : withModel.Constrained := Db.constrained_of_names (by decide)
  have fails : ((modelValidator.validateComputeTask withoutModel "t" modelTask).toOption.map
      fun r => r.1.passed) = some false := by decide
  have passes : ((modelValidator.validateComputeTask withModel "t" modelTask).toOption.map
      fun r => r.1.passed) = some true := by decide
  obtain ⟨⟨r, db1⟩, validated, failed⟩ := Option.map_eq_some_iff.mp fails
  obtain ⟨⟨r', db2⟩, validated', passed⟩ := Option.map_eq_some_iff.mp passes
  have self : withoutModel.SameAttempt "t" "j2" modelValidator.readFile modelValidator.readFile
      withoutModel :=
    ⟨rfl, ⟨_, withoutModel_latest, withoutModel_latest⟩, fun _ => Iff.rfl, fun _ _ => rfl⟩
  have valid : modelValidator.modelValidate modelTask.specJson = .ok modelSpec := rfl
  have same := decides cd withoutModel_latest valid cd cd' self
    (withModel_sameAttempt _) (ok_of_toOption validated) (ok_of_toOption validated')
  simp only at failed passed
  rw [failed, passed] at same
  cases same

end ResearchController
