import ResearchController.Acceptance.Passing

/-!
# Declared validators

A task names its validators in two places, the spec and the acceptance policy. Two of the names are
looked up by `validate_compute_task`; the check of the third, `exit_code_zero`, hangs on a flag of
the spec instead, and any other name is never looked at. `validators_enforced_iff` says for which
declarations a task that passes went through every check it declared.
-/

namespace ResearchController
open Lib

/-- The check that a declared name stands for was carried out and held. -/
inductive TaskValidator.Enforced (v : TaskValidator) (job : ComputeJob)
    (artifacts : List Artifact) : Json → Prop where
  | exitCodeZero :
    job.exitCode = some 0 → v.Enforced job artifacts (.str "exit_code_zero")
  | metricsJson :
    metricsArtifacts artifacts ≠ [] →
    (∀ x ∈ metricsArtifacts artifacts, ∃ value, v.Parses x value) →
    v.Enforced job artifacts (.str "metrics_json")
  | noNan :
    metricsArtifacts artifacts ≠ [] →
    (∀ x ∈ metricsArtifacts artifacts, ∃ value, v.Parses x value ∧
      ∀ n, (Json.float n).Occurs value → n.isFinite = true) →
    v.Enforced job artifacts (.str "no_nan")

/-- If the task passes, the check of every declared name was carried out and held. -/
def TaskValidator.EnforcesDeclared (v : TaskValidator) (db : Db) (id : String) (task : Task)
    (spec : ComputeTaskSpec) : Prop :=
  ∀ result db', v.validateComputeTask db id task = .ok (result, db') → result.passed = true →
    ∃ k job, db.latestJob id = some (k, job) ∧
      ∀ name ∈ declaredNames spec.success task.acceptancePolicyJson,
        v.Enforced job (db.artifactsOf id) name

/-- A name that stands for a check. -/
def Json.isCheck (name : Json) : Bool :=
  name.isStr "exit_code_zero" || name.isStr "metrics_json" || name.isStr "no_nan"

lemma Json.isStr_iff {value : Json} {s : String} : value.isStr s = true ↔ value = .str s := by
  cases value with
  | str s' =>
    rw [isStr, beq_iff_eq]
    constructor
    · rintro rfl
      rfl
    · intro e
      cases e
      rfl
  | _ =>
    constructor
    · intro h
      cases h
    · intro e
      cases e

lemma Json.isCheck_iff {name : Json} : name.isCheck = true ↔
    name = .str "exit_code_zero" ∨ name = .str "metrics_json" ∨ name = .str "no_nan" := by
  rw [isCheck, Bool.or_eq_true_iff, Bool.or_eq_true_iff, isStr_iff, isStr_iff, isStr_iff, or_assoc]

/-- Only the three names can be enforced. -/
lemma TaskValidator.Enforced.isCheck {v : TaskValidator} {job : ComputeJob}
    {artifacts : List Artifact} {name : Json} (en : v.Enforced job artifacts name) :
    name.isCheck = true := by
  cases en with
  | exitCodeZero => rfl
  | metricsJson => rfl
  | noNan => rfl

/-- The name of the exit code is enforced by the exit code. -/
lemma TaskValidator.Enforced.exitCode {v : TaskValidator} {job : ComputeJob}
    {artifacts : List Artifact} (en : v.Enforced job artifacts (.str "exit_code_zero")) :
    job.exitCode = some 0 := by
  generalize e : Json.str "exit_code_zero" = name at en
  cases en with
  | exitCodeZero zero => exact zero
  | metricsJson => exact absurd e (by simp)
  | noNan => exact absurd e (by simp)

/-- A passing task went through the checks behind the names, if its spec asks for the exit code. -/
lemma TaskValidator.Passing.enforced {v : TaskValidator} {spec : ComputeTaskSpec}
    {policy : JsonObject} {job : ComputeJob} {artifacts : List Artifact}
    (ps : v.Passing spec policy job artifacts) {name : Json}
    (declared : name ∈ declaredNames spec.success policy) (check : name.isCheck = true)
    (asked : name = .str "exit_code_zero" → spec.success.requireZeroExitCode = true) :
    v.Enforced job artifacts name := by
  obtain rfl | rfl | rfl := Json.isCheck_iff.mp check
  · exact .exitCodeZero ((jobReasons_nil ps.job).2 (asked rfl))
  · have wanted : wantsMetrics spec.success policy = true :=
      List.any_eq_true.mpr ⟨_, declared, rfl⟩
    obtain ⟨exist, each⟩ := ps.metrics wanted
    refine .metricsJson exist ?_
    intro x mem
    obtain ⟨value, parses, _⟩ := metricReason_nil_iff.mp (each x mem)
    exact ⟨value, parses⟩
  · have wanted : wantsMetrics spec.success policy = true :=
      List.any_eq_true.mpr ⟨_, declared, rfl⟩
    have finite : wantsFinite spec.success policy = true :=
      List.any_eq_true.mpr ⟨_, declared, rfl⟩
    obtain ⟨exist, each⟩ := ps.metrics wanted
    refine .noNan exist ?_
    intro x mem
    obtain ⟨value, parses, none⟩ := metricReason_nil_iff.mp (each x mem)
    refine ⟨value, parses, ?_⟩
    intro n occurs
    by_contra infinite
    have found := nonfinite_iff.mpr ⟨n, occurs, Bool.eq_false_iff.mpr infinite⟩
    rw [nonfinite_of_searched (none finite)] at found
    cases found

/-- Some state with a job that succeeded passes, if the spec does not mind the exit code. -/
lemma TaskValidator.exists_passing_job {v : TaskValidator} (object : v.loads "{}" = .ok (.dict []))
    (id : String) {spec : ComputeTaskSpec} {policy : JsonObject} (readable : policy.Readable)
    {exitCode : Int} (fine : spec.success.requireZeroExitCode = true → exitCode = 0) :
    ∃ (readFile : String → FileContent) (db : Db),
      db.latestJob id = some ("j", passedJob id spec exitCode) ∧
      TaskValidator.Passing { v with readFile := readFile } spec policy
        (passedJob id spec exitCode) (db.artifactsOf id) := by
  let job := passedJob id spec exitCode
  have noJob : jobReasons spec.success job = [] := by
    have zero : (spec.success.requireZeroExitCode && job.exitCode != some 0) = false := by
      cases asked : spec.success.requireZeroExitCode with
      | false => rfl
      | true =>
        show (true && some exitCode != some 0) = false
        rw [fine asked]
        rfl
    simp only [jobReasons, zero]
    rfl
  let start : Db := { jobs := Dict.empty.set "j" job }
  have lt : start.Latest id "j" job := by
    refine ⟨rfl, rfl, ?_⟩
    intro k' j' hj' _ other
    rw [Dict.get_set_ne _ _ other] at hj'
    cases hj'
  -- there are no artifacts yet
  have cd : start.Constrained := by
    constructor
    · intro _ _ _ _ h
      cases h
    · intro _ _ _ _ h
      cases h
  obtain ⟨readFile, rows, db, _, _, _, ex, ps⟩ :=
    exists_passing object cd "p" id readable noJob fun _ x mem => by cases mem
  exact ⟨readFile, db, (lt.ofJobs ex.jobs).latestJob, ps⟩

/-- Whatever state a task with readable policy lists passes in, every validator it declares was
    enforced, exactly if it declares none but the three that exist, and `exit_code_zero` only
    together with the flag of the spec. -/
theorem validators_enforced_iff {v : TaskValidator} (object : v.loads "{}" = .ok (.dict []))
    (id : String) {task : Task} {spec : ComputeTaskSpec}
    (valid : v.modelValidate task.specJson = .ok spec) :
    (∀ readFile db,
      TaskValidator.EnforcesDeclared { v with readFile := readFile } db id task spec) ↔
      (task.acceptancePolicyJson.Readable →
        ∀ name ∈ declaredNames spec.success task.acceptancePolicyJson, name.isCheck = true ∧
          (name = .str "exit_code_zero" → spec.success.requireZeroExitCode = true)) := by
  constructor
  · intro enforces readable name declared
    -- a state that passes has a job with any exit code that the spec allows
    have enforced : ∀ exitCode : Int,
        (spec.success.requireZeroExitCode = true → exitCode = 0) →
        ∃ v : TaskValidator, ∃ artifacts,
          v.Enforced (passedJob id spec exitCode) artifacts name := by
      intro exitCode fine
      obtain ⟨readFile, db, latest, ps⟩ := v.exists_passing_job object id readable fine
      obtain ⟨result, db', validated, passed⟩ :=
        (TaskValidator.validate_passed_iff (v := { v with readFile := readFile }) valid).mpr
          ⟨_, _, latest, ps⟩
      obtain ⟨k, job, latest', each⟩ := enforces readFile db result db' validated passed
      cases latest.symm.trans latest'
      exact ⟨_, _, each name declared⟩
    constructor
    · obtain ⟨_, _, en⟩ := enforced 0 fun _ => rfl
      exact en.isCheck
    · rintro rfl
      by_contra unasked
      -- the spec does not ask for exit code 0, so a job that exits with 3 passes
      obtain ⟨_, _, en⟩ := enforced 3 fun asked => (unasked asked).elim
      cases en.exitCode
  · intro checks readFile db result db' validated passed
    obtain ⟨k, job, latest, ps⟩ :=
      (TaskValidator.validate_passed_iff (v := { v with readFile := readFile }) valid).mp
        ⟨result, db', validated, passed⟩
    refine ⟨k, job, latest, ?_⟩
    intro name declared
    obtain ⟨check, asked⟩ := checks ps.readable name declared
    exact ps.enforced declared check asked

/-! ## A name that no check stands for -/

/-- A spec with a validator that does not exist. -/
def unknownSpec : ComputeTaskSpec :=
  { projectId := "p", taskId := "t", submissionKey := "s", execution := {}, resources := {},
    success := { requiredValidators := ["exit_code_zero", "loss_decreases"] } }

def unknownTask : Task :=
  { projectId := "p", executor := .compute, status := .verifying, specJson := .null,
    attemptCount := 1, idempotencyKey := "t", createdAt := 0 }

def unknownValidator : TaskValidator :=
  ⟨fun _ => .ok unknownSpec, fun _ => .unreadable "", fun _ => .ok (.dict []), 0⟩

/-- A task whose only job succeeded and left its three files behind. -/
def unknownDb : Db :=
  { tasks := Dict.empty.set "t" unknownTask,
    jobs := Dict.empty.set "j" (passedJob "t" unknownSpec 0),
    artifacts :=
      ((Dict.empty.set "a" (leftBehind "j" "run.out")).set "b" (leftBehind "j" "run.error")).set
        "c" (leftBehind "j" "exit.json"),
    projects := Dict.empty.set "p" { slug := "p" } }

/-- The declarations of this task are not enforced. -/
theorem validators_enforced_iff_unknown :
    (∀ readFile db, TaskValidator.EnforcesDeclared { unknownValidator with readFile := readFile } db
      "t" unknownTask unknownSpec) ↔
      (unknownTask.acceptancePolicyJson.Readable →
        ∀ name ∈ declaredNames unknownSpec.success unknownTask.acceptancePolicyJson,
          name.isCheck = true ∧
            (name = .str "exit_code_zero" → unknownSpec.success.requireZeroExitCode = true)) :=
  validators_enforced_iff (v := unknownValidator) rfl "t" rfl

/-- The task passes although nothing looked at the validator that it declares. -/
theorem validators_not_enforced :
    ¬ ∀ {v : TaskValidator} {db : Db} {id : String} {task : Task} {spec : ComputeTaskSpec},
        v.modelValidate task.specJson = .ok spec → v.EnforcesDeclared db id task spec := by
  intro enforces
  have passes : ((unknownValidator.validateComputeTask unknownDb "t" unknownTask).toOption.map
      fun r => r.1.passed) = some true := by decide
  obtain ⟨⟨result, db'⟩, validated, passed⟩ := Option.map_eq_some_iff.mp passes
  have valid : unknownValidator.modelValidate unknownTask.specJson = .ok unknownSpec := rfl
  obtain ⟨_, _, _, each⟩ := enforces valid result db' (ok_of_toOption validated) passed
  have declared : Json.str "loss_decreases" ∈
      declaredNames unknownSpec.success unknownTask.acceptancePolicyJson :=
    List.mem_cons_of_mem _ List.mem_cons_self
  cases (each _ declared).isCheck

end ResearchController
