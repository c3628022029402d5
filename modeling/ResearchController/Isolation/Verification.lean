import ResearchController.Controller

/-!
# Isolation of verification

`verify_completed_work` settles all verifying tasks in one transaction, so an exception for one of
them rolls back the others and recurs on every tick. Each iteration works on the data of its own
task: the row, the job of its highest attempt and its artifacts (`SameTask`). What is left to say is
which data make the validator raise.

`TaskValidator.Checkable` is the answer. The two lists of the acceptance policy must have the shape
that `set` and `sorted` accept, without a lone surrogate among the required names, and where the
metrics validator runs, the bytes of every metrics file that can be read must be UTF-8:
`UnicodeDecodeError` is missing in the handler that turns a bad metrics file into a reason. The
handler also misses what `json.load` raises on numbers or brackets beyond the limits of the
interpreter, and the search for numbers that are not finite is not under it at all.
-/

namespace ResearchController
open Lib

/-! ## The data that make the validator raise -/

/-- The elements that an iteration over a JSON value yields. -/
def Json.elements : Json → List Json
  | .str s => s.toList.map fun c => .str (String.singleton c)
  | .surrogates codes => codes.map codeString
  | .list items => items
  | .dict items => items.map fun item => .str item.1
  | _ => []

/-- Whether a JSON value is a string that can be written as UTF-8. -/
def Json.isString : Json → Bool
  | .str _ => true
  | _ => false

/-- Whether `set` accepts a JSON value: an iterable of hashable elements. -/
def Json.isSet : Json → Bool
  | .str _ => true
  | .surrogates _ => true
  | .list items => items.all Json.hashable
  | .dict _ => true
  | _ => false

/-- A list of the acceptance policy, absent meaning empty. -/
def JsonObject.listed (policy : JsonObject) (key : String) : Json :=
  (policy.get key).getD (.list [])

/-- The validator names that a spec and the policy's list declare. -/
def declaredNames (success : SuccessSpec) (policy : JsonObject) : List Json :=
  success.requiredValidators.map Json.str ++ (policy.listed "validators").elements

/-- Whether the metrics have to be finite. -/
def wantsFinite (success : SuccessSpec) (policy : JsonObject) : Bool :=
  (declaredNames success policy).any (·.isStr "no_nan")

/-- Whether the metrics validator is asked for. -/
def wantsMetrics (success : SuccessSpec) (policy : JsonObject) : Bool :=
  (success.requiredValidators.map Json.str ++ (policy.listed "validators").elements).any fun name =>
    name.isStr "metrics_json" || name.isStr "no_nan"

/-- Whether the file behind an artifact is unreadable or holds UTF-8 text, which is no JSON, or is
    a value with the nesting of which the search for numbers that are not finite can cope, where
    there is a search. -/
def TaskValidator.searchable (v : TaskValidator) (noNan : Bool) (x : Artifact) : Bool :=
  match v.readFile x.uri with
  | .unreadable _ => true
  | .bytes content =>
    match decodeUtf8 content with
    | none => false
    | some text =>
      match v.loads text with
      | .error (.jsonDecodeError _) => true
      | .error _ => false
      | .ok value => !noNan || decide (value.searchFrames ≤ v.frames + 2)

/-- The data of a task with a job on which the validator does not raise. -/
structure TaskValidator.Checkable (v : TaskValidator) (spec : ComputeTaskSpec) (policy : JsonObject)
    (artifacts : List Artifact) : Prop where
  required : (policy.listed "required_artifacts").isSet = true
  names : ∀ name ∈ (policy.listed "required_artifacts").elements, name.isString = true
  validators : (policy.listed "validators").isSet = true
  metrics : wantsMetrics spec.success policy = true →
    ∀ x ∈ metricsArtifacts artifacts, v.searchable (wantsFinite spec.success policy) x = true

lemma pySet_of_isSet {value : Json} (isSet : value.isSet = true) :
    pySet value = .ok value.elements := by
  cases value with
  | str s => rfl
  | surrogates codes => rfl
  | dict items => rfl
  | list items =>
    rw [Json.isSet] at isSet
    rw [pySet, if_pos isSet]
    rfl
  | _ => cases isSet

lemma pySet_of_not_isSet {value : Json} (noSet : value.isSet = false) :
    ∃ e, pySet value = .error e := by
  cases value with
  | str s => cases noSet
  | surrogates codes => cases noSet
  | dict items => cases noSet
  | list items =>
    rw [Json.isSet] at noSet
    rw [pySet, if_neg (Bool.eq_false_iff.mp noSet)]
    exact ⟨_, rfl⟩
  | _ => exact ⟨_, rfl⟩

/-- What `set` returns, and when. -/
lemma pySet_ok_iff {value : Json} {declared : List Json} :
    pySet value = .ok declared ↔ value.isSet = true ∧ declared = value.elements := by
  cases isSet : value.isSet with
  | true =>
    rw [pySet_of_isSet isSet, Except.ok.injEq]
    constructor
    · intro same
      exact ⟨rfl, same.symm⟩
    · rintro ⟨_, same⟩
      exact same.symm
  | false =>
    obtain ⟨e, raises⟩ := pySet_of_not_isSet isSet
    rw [raises]
    constructor
    · intro h
      cases h
    · rintro ⟨h, _⟩
      cases h

/-- Names can be sorted, and the reasons about them stored, exactly when all of them are strings. -/
lemma sortableNames_total_iff {declared : List Json} :
    (∃ names, sortableNames declared = .ok names) ↔ ∀ name ∈ declared, name.isString = true := by
  induction declared with
  | nil =>
    refine ⟨?_, fun _ => ⟨[], rfl⟩⟩
    intro _ name mem
    cases mem
  | cons item rest ih =>
    rw [List.forall_mem_cons, ← ih]
    cases item with
    | str s =>
      constructor
      · rintro ⟨names, h⟩
        obtain ⟨others, sortable, _⟩ := bind_ok.mp h
        exact ⟨rfl, others, sortable⟩
      · rintro ⟨_, others, sortable⟩
        exact bind_total sortable ⟨s :: others, rfl⟩
    | _ =>
      constructor
      · rintro ⟨_, h⟩
        cases h
      · rintro ⟨other, _⟩
        cases other

lemma requiredNames_total_iff {policy : JsonObject} {outputs : List OutputSpec} :
    (∃ names, requiredNames policy outputs = .ok names) ↔
      (policy.listed "required_artifacts").isSet = true ∧
        ∀ name ∈ (policy.listed "required_artifacts").elements, name.isString = true := by
  rw [← sortableNames_total_iff]
  constructor
  · rintro ⟨names, h⟩
    obtain ⟨declared, set, h⟩ := bind_ok.mp h
    obtain ⟨strings, sortable, _⟩ := bind_ok.mp h
    obtain ⟨isSet, rfl⟩ := pySet_ok_iff.mp set
    exact ⟨isSet, strings, sortable⟩
  · rintro ⟨isSet, strings, sortable⟩
    apply bind_total (pySet_ok_iff.mpr ⟨isSet, rfl⟩)
    exact bind_total sortable ⟨_, rfl⟩

lemma declaredValidators_ok_iff {success : SuccessSpec} {policy : JsonObject}
    {validators : List Json} :
    declaredValidators success policy = .ok validators ↔
      (policy.listed "validators").isSet = true ∧
        validators = declaredNames success policy := by
  constructor
  · intro h
    obtain ⟨declared, set, h⟩ := bind_ok.mp h
    obtain ⟨isSet, rfl⟩ := pySet_ok_iff.mp set
    cases h
    exact ⟨isSet, rfl⟩
  · rintro ⟨isSet, rfl⟩
    exact bind_ok.mpr ⟨_, pySet_ok_iff.mpr ⟨isSet, rfl⟩, rfl⟩

/-- What makes the check of a metrics file raise. -/
lemma TaskValidator.metricReason_total_iff {v : TaskValidator} {noNan : Bool} {x : Artifact} :
    (∃ reasons, v.metricReason noNan x = .ok reasons) ↔ v.searchable noNan x = true := by
  cases read : v.readFile x.uri with
  | unreadable msg =>
    simp only [metricReason, searchable, read]
    exact ⟨fun _ => trivial, fun _ => ⟨_, rfl⟩⟩
  | bytes content =>
    cases decoded : decodeUtf8 content with
    | none =>
      simp only [metricReason, searchable, read, decoded]
      constructor
      · rintro ⟨_, h⟩
        cases h
      · intro h
        cases h
    | some text =>
      cases parsed : v.loads text with
      | error e =>
        simp only [metricReason, searchable, read, decoded, parsed]
        cases e with
        | jsonDecodeError msg => exact ⟨fun _ => rfl, fun _ => ⟨_, rfl⟩⟩
        | _ =>
          constructor
          · rintro ⟨_, h⟩
            cases h
          · intro h
            cases h
      | ok value =>
        simp only [metricReason, searchable, read, decoded, parsed]
        cases noNan with
        | false => exact ⟨fun _ => rfl, fun _ => ⟨_, rfl⟩⟩
        | true =>
          rw [containsNonfinite_eq, Json.searched]
          by_cases fits : value.searchFrames ≤ v.frames + 2
          · simp only [fits, if_true, decide_true, Bool.or_true, iff_true]
            exact ⟨_, rfl⟩
          · simp only [fits, if_true, if_false, decide_false, Bool.not_true, Bool.or_false,
              Bool.false_eq_true, iff_false]
            rintro ⟨_, h⟩
            cases h

lemma TaskValidator.metricReasons_total_iff {v : TaskValidator} {noNan : Bool}
    {artifacts : List Artifact} :
    (∃ reasons, v.metricReasons noNan artifacts = .ok reasons) ↔
      ∀ x ∈ artifacts, v.searchable noNan x = true := by
  induction artifacts with
  | nil =>
    refine ⟨?_, fun _ => ⟨[], rfl⟩⟩
    intro _ x mem
    cases mem
  | cons x rest ih =>
    have head : (∃ reasons, v.metricReason noNan x = .ok reasons) ↔ v.searchable noNan x = true :=
      metricReason_total_iff
    rw [List.forall_mem_cons, ← ih, ← head]
    constructor
    · rintro ⟨reasons, h⟩
      obtain ⟨first, hx, h⟩ := bind_ok.mp h
      obtain ⟨others, hrest, _⟩ := bind_ok.mp h
      exact ⟨⟨first, hx⟩, others, hrest⟩
    · rintro ⟨⟨first, hx⟩, others, hrest⟩
      apply bind_total hx
      exact bind_total hrest ⟨_, rfl⟩

/-- The question that both metrics validators ask. -/
lemma wantsMetrics_eq (success : SuccessSpec) (policy : JsonObject) :
    wantsMetrics success policy =
      ((declaredNames success policy).any (·.isStr "metrics_json") ||
        wantsFinite success policy) := by
  simp only [wantsMetrics, wantsFinite, declaredNames]
  induction success.requiredValidators.map Json.str ++ (policy.listed "validators").elements with
  | nil => rfl
  | cons name rest ih =>
    simp only [List.any_cons, ih]
    cases name.isStr "metrics_json" <;> cases name.isStr "no_nan" <;> simp

lemma TaskValidator.metricsBlock_total_iff {v : TaskValidator} {success : SuccessSpec}
    {policy : JsonObject} {artifacts : List Artifact} :
    (∃ reasons, v.metricsBlock (declaredNames success policy) artifacts = .ok reasons) ↔
      (wantsMetrics success policy = true →
        ∀ x ∈ metricsArtifacts artifacts, v.searchable (wantsFinite success policy) x = true) := by
  rw [wantsMetrics_eq]
  simp only [metricsBlock]
  rw [← wantsFinite]
  split
  · rename_i wanted
    have loop : (∃ reasons, v.metricReasons (wantsFinite success policy)
        (metricsArtifacts artifacts) = .ok reasons) ↔
          ∀ x ∈ metricsArtifacts artifacts, v.searchable (wantsFinite success policy) x = true :=
      metricReasons_total_iff
    rw [← loop]
    constructor
    · rintro ⟨reasons, h⟩ _
      obtain ⟨read, hread, _⟩ := bind_ok.mp h
      exact ⟨read, hread⟩
    · intro reads
      obtain ⟨read, hread⟩ := reads wanted
      exact bind_total hread ⟨_, rfl⟩
  · rename_i unwanted
    exact ⟨fun _ wanted => (unwanted wanted).elim, fun _ => ⟨[], rfl⟩⟩

/-- The body of the validator returns exactly on checkable data. -/
lemma TaskValidator.reasons_total_iff {v : TaskValidator} {spec : ComputeTaskSpec}
    {policy : JsonObject} {job : ComputeJob} {artifacts : List Artifact} :
    (∃ reasons, v.reasons spec policy job artifacts = .ok reasons) ↔
      v.Checkable spec policy artifacts := by
  constructor
  · rintro ⟨reasons, h⟩
    obtain ⟨names, hnames, h⟩ := bind_ok.mp h
    obtain ⟨validators, hvalidators, h⟩ := bind_ok.mp h
    obtain ⟨metrics, hmetrics, _⟩ := bind_ok.mp h
    obtain ⟨required, strings⟩ := requiredNames_total_iff.mp ⟨names, hnames⟩
    obtain ⟨isSet, rfl⟩ := declaredValidators_ok_iff.mp hvalidators
    exact ⟨required, strings, isSet, metricsBlock_total_iff.mp ⟨metrics, hmetrics⟩⟩
  · rintro ⟨required, strings, isSet, metrics⟩
    obtain ⟨names, hnames⟩ := requiredNames_total_iff.mpr ⟨required, strings⟩
    obtain ⟨found, hfound⟩ := metricsBlock_total_iff.mpr metrics
    apply bind_total hnames
    apply bind_total (declaredValidators_ok_iff.mpr ⟨isSet, rfl⟩)
    exact bind_total hfound ⟨_, rfl⟩

/-! ## One iteration on the data of its task -/

/-- The verdict of the validator as a function of the data of one task. -/
def TaskValidator.verdict (v : TaskValidator) (specJson : Json) (policy : JsonObject)
    (job : Option ComputeJob) (artifacts : List Artifact) : Except PyErr ValidationResult := do
  let spec ← v.modelValidate specJson
  match job with
  | none => return { passed := false, reasons := ["compute job missing"] }
  | some job =>
    let reasons ← v.reasons spec policy job artifacts
    return { passed := reasons.isEmpty, reasons := reasons }

/-- The status that a task's own data earn it. -/
def TaskValidator.outcome (v : TaskValidator) (specJson : Json) (policy : JsonObject)
    (job : Option ComputeJob) (artifacts : List Artifact) : TaskStatus :=
  match v.verdict specJson policy job artifacts with
  | .ok result => if result.passed then .succeeded else .failed
  | .error _ => .failed

/-- The job of a task's highest attempt, without its identifier. -/
def Db.latestJobRow (db : Db) (taskId : String) : Option ComputeJob :=
  (db.latestJob taskId).map Prod.snd

/-- The verdict on a task of the database. -/
def TaskValidator.verdictOn (v : TaskValidator) (db : Db) (id : String) (t : Task) :
    Except PyErr ValidationResult :=
  v.verdict t.specJson t.acceptancePolicyJson (db.latestJobRow id) (db.artifactsOf id)

/-- `validate_compute_task` computes the verdict. -/
lemma TaskValidator.verdict_of_validate {v : TaskValidator} {db db' : Db} {id : String} {t : Task}
    {result : ValidationResult} (h : v.validateComputeTask db id t = .ok (result, db')) :
    v.verdictOn db id t = .ok result := by
  obtain ⟨spec, valid, h⟩ := bind_ok.mp h
  refine bind_ok.mpr ⟨spec, valid, ?_⟩
  cases latest : db.latestJob id with
  | none =>
    simp only [latest] at h
    cases h
    simp only [Db.latestJobRow, latest, Option.map_none]
    rfl
  | some found =>
    simp only [latest] at h
    obtain ⟨reasons, computed, h⟩ := bind_ok.mp h
    simp only [Db.latestJobRow, latest, Option.map_some]
    refine bind_ok.mpr ⟨reasons, computed, ?_⟩
    split at h
    · rename_i empty
      cases h
      rw [List.isEmpty_iff.mp empty]
      rfl
    · rename_i nonempty
      cases h
      rw [Bool.eq_false_iff.mpr nonempty]
      rfl

/-- `validate_compute_task` returns wherever there is a verdict. -/
lemma TaskValidator.validate_of_verdict {v : TaskValidator} {db : Db} {id : String} {t : Task}
    {result : ValidationResult} (h : v.verdictOn db id t = .ok result) :
    ∃ r, v.validateComputeTask db id t = .ok r := by
  obtain ⟨spec, valid, h⟩ := bind_ok.mp h
  apply bind_total valid
  cases latest : db.latestJob id with
  | none => exact ⟨_, rfl⟩
  | some found =>
    simp only [Db.latestJobRow, latest, Option.map_some] at h
    obtain ⟨reasons, computed, _⟩ := bind_ok.mp h
    simp only
    apply bind_total computed
    split <;> exact ⟨_, rfl⟩

/-- There is a verdict on a task with a valid spec exactly when its data are checkable. -/
lemma TaskValidator.verdictOn_total_iff {v : TaskValidator} {db : Db} {id : String} {t : Task}
    {spec : ComputeTaskSpec} (valid : v.modelValidate t.specJson = .ok spec) :
    (∃ result, v.verdictOn db id t = .ok result) ↔
      (db.latestJob id ≠ none →
        v.Checkable spec t.acceptancePolicyJson (db.artifactsOf id)) := by
  cases latest : db.latestJob id with
  | none =>
    refine ⟨fun _ absent => (absent rfl).elim, fun _ => bind_total valid ?_⟩
    simp only [Db.latestJobRow, latest]
    exact ⟨_, rfl⟩
  | some found =>
    have body : (∃ reasons, v.reasons spec t.acceptancePolicyJson found.2 (db.artifactsOf id) =
        .ok reasons) ↔ v.Checkable spec t.acceptancePolicyJson (db.artifactsOf id) :=
      reasons_total_iff
    rw [← body]
    constructor
    · rintro ⟨result, h⟩ _
      obtain ⟨spec', valid', h⟩ := bind_ok.mp h
      rw [valid] at valid'
      cases valid'
      simp only [Db.latestJobRow, latest, Option.map_some] at h
      obtain ⟨reasons, computed, _⟩ := bind_ok.mp h
      exact ⟨reasons, computed⟩
    · intro computed
      obtain ⟨reasons, computed⟩ := computed (Option.some_ne_none _)
      apply bind_total valid
      simp only [Db.latestJobRow, latest, Option.map_some]
      exact bind_total computed ⟨_, rfl⟩

/-- A task that is being verified can be settled. -/
lemma Db.Sound.settle_total {db : Db} (sd : db.Sound) {id : String} {t : Task}
    (ht : db.tasks.get id = some t) (verifying : t.status = .verifying) (changedAt : Datetime)
    (result : ValidationResult) : ∃ db', db.settle changedAt id result = .ok db' := by
  unfold Db.settle
  split
  · exact sd.transitionTask_total ht (by rw [verifying]; decide) (expected_some verifying) _ _ _
  · exact sd.transitionTask_total ht (by rw [verifying]; decide) (expected_some verifying) _ _ _

/-- An iteration returns exactly when its task is being verified and there is a verdict on it. -/
lemma TaskValidator.verifyOne_total_iff {v : TaskValidator} {changedAt : Datetime}
    {s : List String × Db} (sd : s.2.Sound) {id : String} :
    (∃ s', v.verifyOne changedAt s id = .ok s') ↔
      ∃ t, s.2.tasks.get id = some t ∧ t.status = .verifying ∧
        ∃ result, v.verdictOn s.2 id t = .ok result := by
  constructor
  · rintro ⟨s', h⟩
    obtain ⟨t, result, db1, ht, verifying, validated, _⟩ := verifyOne_ok h
    exact ⟨t, ht, verifying, result, verdict_of_validate validated⟩
  · rintro ⟨t, ht, verifying, result, computed⟩
    obtain ⟨⟨result', db1⟩, validated⟩ := validate_of_verdict computed
    have kept : db1.Sound ∧ db1.tasks.get id = some t := by
      obtain ⟨spec, _, ⟨_, rfl⟩ | ⟨_, rfl, _⟩⟩ := validateComputeTask_ok validated
      · exact ⟨sd, ht⟩
      · exact ⟨sd.markEvidence id spec.outputs, ht⟩
    obtain ⟨sd1, ht1⟩ := kept
    have sd2 := sd1.modifyTask id (f := (·.summarised result')) (fun _ => rfl)
    have ht2 : (db1.modifyTask id (·.summarised result')).tasks.get id =
        some (t.summarised result') := by
      rw [Db.modifyTask_of_get ht1, Dict.get_set_self]
    obtain ⟨db3, settled⟩ := sd2.settle_total ht2 verifying changedAt result'
    simp only [verifyOne, ht]
    apply bind_total validated
    exact bind_total settled ⟨_, rfl⟩

/-! ## The part of the database that belongs to a task -/

/-- Two states of the loop agree on the row, the job and the artifacts of a task. -/
structure SameTask (id : String) (s s' : List String × Db) : Prop where
  task : s.2.tasks.get id = s'.2.tasks.get id
  job : s.2.latestJobRow id = s'.2.latestJobRow id
  artifacts : s.2.artifactsOf id = s'.2.artifactsOf id

/-- Marking the evidence of one task leaves the artifacts of the others alone. -/
lemma Db.artifactsOf_markEvidence {db : Db} {id other : String} (outputs : List OutputSpec)
    (ne : other ≠ id) : (db.markEvidence id outputs).artifactsOf other = db.artifactsOf other := by
  have owner : ∀ x : Artifact, (x.marked id outputs).taskId = x.taskId := by
    intro x
    unfold Artifact.marked
    split <;> rfl
  have foreign : ∀ x : Artifact, x.taskId = some other → x.marked id outputs = x := by
    intro x owned
    have notOwn : (x.taskId == some id) = false := by
      rw [owned, beq_eq_false_iff_ne, ne_eq, Option.some.injEq]
      exact ne
    simp only [Artifact.marked, notOwn, Bool.false_and, Bool.false_eq_true, if_false]
  simp only [artifactsOf, markEvidence, Dict.mapValues, List.filter_map, Function.comp_def, owner,
    List.map_map]
  apply List.map_congr_left
  rintro ⟨i, x⟩ mem
  exact foreign x (beq_iff_eq.mp (List.mem_filter.mp mem).2)

/-- The iterations of `verify_completed_work` are isolated on sound databases. -/
lemma TaskValidator.verifyOne_isolated (v : TaskValidator) (changedAt : Datetime) :
    Isolated (v.verifyOne changedAt) (fun s => s.2.Sound) SameTask where
  refl id s := ⟨rfl, rfl, rfl⟩
  symm same := ⟨same.task.symm, same.job.symm, same.artifacts.symm⟩
  trans same same' :=
    ⟨same.task.trans same'.task, same.job.trans same'.job, same.artifacts.trans same'.artifacts⟩
  keeps sd h := sd.verifyOne h
  frame := by
    intro s id s' other _ h ne
    obtain ⟨t, result, db1, ht, _, validated, _, rows⟩ := verifyOne_ok h
    have tasks := congrArg Rows.tasks rows
    have jobs := congrArg Rows.jobs rows
    have artifacts := congrArg Rows.artifacts rows
    have kept : db1.jobs = s.2.jobs ∧ db1.artifactsOf other = s.2.artifactsOf other := by
      obtain ⟨spec, _, ⟨_, rfl⟩ | ⟨_, rfl, _⟩⟩ := validateComputeTask_ok validated
      · exact ⟨rfl, rfl⟩
      · exact ⟨rfl, Db.artifactsOf_markEvidence spec.outputs ne⟩
    refine ⟨?_, ?_, ?_⟩
    · rw [tasks, Dict.get_set_ne _ _ ne]
    · simp only [Db.latestJobRow, Db.latestJob, jobs, kept.1]
    · rw [← kept.2]
      simp only [Db.artifactsOf, artifacts]
  own := by
    intro s s' id sd sd' same h
    obtain ⟨t, ht, verifying, result, computed⟩ := (verifyOne_total_iff sd).mp h
    apply (verifyOne_total_iff sd').mpr
    refine ⟨t, same.task ▸ ht, verifying, result, ?_⟩
    rw [← computed]
    simp only [verdictOn, same.job, same.artifacts]

/-- The task of an iteration ends in the status its data earn it. -/
lemma TaskValidator.verifyOne_outcome {v : TaskValidator} {changedAt : Datetime}
    {s s' : List String × Db} {id : String} (h : v.verifyOne changedAt s id = .ok s') :
    ∃ t t', s.2.tasks.get id = some t ∧ s'.2.tasks.get id = some t' ∧
      t'.status = v.outcome t.specJson t.acceptancePolicyJson (s.2.latestJobRow id)
        (s.2.artifactsOf id) := by
  obtain ⟨t, result, db1, ht, _, validated, _, rows⟩ := verifyOne_ok h
  have tasks := congrArg Rows.tasks rows
  have computed := verdict_of_validate validated
  refine ⟨t, _, ht, by rw [tasks]; exact Dict.get_set_self _ _ _, ?_⟩
  rw [Task.moved_status]
  unfold verdictOn at computed
  simp only [outcome, computed]

/-! ## The loop -/

/-- The promise of `verify_completed_work`: it returns, and every task of its query ends in the
    status that the task's own spec, policy, job and artifacts earn it. -/
def TaskValidator.SettlesEach (v : TaskValidator) (db : Db) (changedAt : Datetime)
    (candidates : List String) : Prop :=
  ∃ verified db', v.verifyCompletedWork db changedAt candidates = .ok (verified, db') ∧
    ∀ id ∈ candidates, ∃ t t', db.tasks.get id = some t ∧ db'.tasks.get id = some t' ∧
      (t'.status = .succeeded ∨ t'.status = .failed) ∧
      t'.status = v.outcome t.specJson t.acceptancePolicyJson (db.latestJobRow id)
        (db.artifactsOf id)

lemma TaskValidator.outcome_finished (v : TaskValidator) (specJson : Json) (policy : JsonObject)
    (job : Option ComputeJob) (artifacts : List Artifact) :
    v.outcome specJson policy job artifacts = .succeeded ∨
      v.outcome specJson policy job artifacts = .failed := by
  unfold outcome
  split
  · split
    · exact Or.inl rfl
    · exact Or.inr rfl
  · exact Or.inr rfl

/-- The query returns the tasks that are being verified, each once. -/
lemma Db.mem_verifyingTasks {db : Db} {candidates : List String}
    (query : candidates.Perm db.verifyingTasks) :
    candidates.Nodup ∧
      ∀ id ∈ candidates, ∃ t, db.tasks.get id = some t ∧ t.status = .verifying := by
  refine ⟨query.nodup_iff.mpr (Dict.nodup_keysWhere _ _), ?_⟩
  intro id mem
  obtain ⟨t, ht, selected⟩ := Dict.mem_keysWhere.mp (query.mem_iff.mp mem)
  exact ⟨t, ht, beq_iff_eq.mp (Bool.and_eq_true_iff.mp selected).1⟩

/-- Whether `verify_completed_work` returns does not depend on the order of its query, only on every
    task by itself. -/
lemma TaskValidator.verifyCompletedWork_total_iff {v : TaskValidator} {db : Db} (sd : db.Sound)
    {candidates : List String} (query : candidates.Perm db.verifyingTasks) (changedAt : Datetime) :
    (∃ s, v.verifyCompletedWork db changedAt candidates = .ok s) ↔
      ∀ id ∈ candidates, ∀ t, db.tasks.get id = some t →
        ∃ result, v.verdictOn db id t = .ok result := by
  obtain ⟨nd, selected⟩ := Db.mem_verifyingTasks query
  have iso := v.verifyOne_isolated changedAt
  have start : (([], db) : List String × Db).2.Sound := sd
  unfold verifyCompletedWork
  rw [iso.loop_total_iff nd start]
  constructor
  · intro each id mem t ht
    obtain ⟨t', ht', _, computed⟩ := (verifyOne_total_iff start).mp (each id mem)
    simp only at ht'
    rw [ht] at ht'
    cases ht'
    exact computed
  · intro each id mem
    obtain ⟨t, ht, verifying⟩ := selected id mem
    apply (verifyOne_total_iff start).mpr
    exact ⟨t, ht, verifying, each id mem t ht⟩

/-- If `verify_completed_work` returns, every task is settled by its own data. -/
lemma TaskValidator.settlesEach_of_total {v : TaskValidator} {db : Db} (sd : db.Sound)
    {candidates : List String} (query : candidates.Perm db.verifyingTasks) {changedAt : Datetime}
    {s : List String × Db} (h : v.verifyCompletedWork db changedAt candidates = .ok s) :
    v.SettlesEach db changedAt candidates := by
  obtain ⟨nd, _⟩ := Db.mem_verifyingTasks query
  have iso := v.verifyOne_isolated changedAt
  refine ⟨s.1, s.2, h, ?_⟩
  intro id mem
  obtain ⟨u, u', _, before, hu, after⟩ :=
    iso.loop_result nd (show (([], db) : List String × Db).2.Sound from sd) h mem
  obtain ⟨t, t', ht, ht', status⟩ := verifyOne_outcome hu
  have ends := v.outcome_finished t.specJson t.acceptancePolicyJson (db.latestJobRow id)
    (db.artifactsOf id)
  rw [← before.job, ← before.artifacts] at status
  refine ⟨t, t', before.task.trans ht, after.task.symm.trans ht', ?_, status⟩
  rw [status]
  exact ends

/-- A task whose data are not checkable keeps the whole transaction from committing. -/
theorem verification_stalls {v : TaskValidator} {db : Db} (sd : db.Sound) {candidates : List String}
    (query : candidates.Perm db.verifyingTasks) (changedAt : Datetime) {id : String} {t : Task}
    {spec : ComputeTaskSpec} (mem : id ∈ candidates) (ht : db.tasks.get id = some t)
    (valid : v.modelValidate t.specJson = .ok spec) (worked : db.latestJob id ≠ none)
    (bad : ¬ v.Checkable spec t.acceptancePolicyJson (db.artifactsOf id)) :
    db.commit (v.verifyCompletedWork db changedAt candidates) = db := by
  obtain same | ⟨verified, ok⟩ :=
    db.commit_cases (v.verifyCompletedWork db changedAt candidates)
  · exact same
  · have each := (v.verifyCompletedWork_total_iff sd query changedAt).mp ⟨_, ok⟩
    have computed := (v.verdictOn_total_iff valid).mp (each id mem t ht)
    exact (bad (computed worked)).elim

/-- For verifying tasks with valid specs, `verify_completed_work` settles each of them by its own
    data exactly when the data of every task that has a job are checkable. -/
theorem verification_isolates_iff {v : TaskValidator} {db : Db} (sd : db.Sound)
    {candidates : List String} (query : candidates.Perm db.verifyingTasks)
    (valid : ∀ id ∈ candidates, ∀ t, db.tasks.get id = some t →
      ∃ spec, v.modelValidate t.specJson = .ok spec) (changedAt : Datetime) :
    v.SettlesEach db changedAt candidates ↔
      ∀ id ∈ candidates, ∀ t spec, db.tasks.get id = some t →
        v.modelValidate t.specJson = .ok spec → db.latestJob id ≠ none →
        v.Checkable spec t.acceptancePolicyJson (db.artifactsOf id) := by
  have total := v.verifyCompletedWork_total_iff sd query changedAt
  constructor
  · rintro ⟨verified, db', h, _⟩ id mem t spec ht parsed
    exact (v.verdictOn_total_iff parsed).mp (total.mp ⟨_, h⟩ id mem t ht)
  · intro checkable
    have each : ∀ id ∈ candidates, ∀ t, db.tasks.get id = some t →
        ∃ result, v.verdictOn db id t = .ok result := by
      intro id mem t ht
      obtain ⟨spec, parsed⟩ := valid id mem t ht
      exact (v.verdictOn_total_iff parsed).mpr (checkable id mem t spec ht parsed)
    obtain ⟨s, h⟩ := total.mpr each
    exact TaskValidator.settlesEach_of_total sd query h

/-! ## Two tasks, one of them with a broken metrics file -/

/-- A spec that asks for finite metrics. -/
def metricsSpec : ComputeTaskSpec :=
  { projectId := "p", taskId := "t", submissionKey := "s", execution := {}, resources := {},
    success := { requiredValidators := ["exit_code_zero", "no_nan"] } }

/-- A task is dispatched, its job succeeds and its files are collected. -/
def completedWork (taskId jobId : String) : List Action :=
  [ .dispatch { id := jobId, taskId := taskId, providerId := "local", resourceClass := "cpu",
                submissionKey := jobId, remoteWorkdir := "/w", specJson := metricsSpec } "c" 60 0,
    .submitted jobId "x" 1,
    .observed { computeJobId := jobId, observedAt := 2, observationStatus := .fresh,
                executionStatus := .succeeded, exitCode := some 0 } 1 2 ] ++
  (["run.out", "run.error", "exit.json", "metrics"].map fun name =>
    .ingested jobId { logicalName := name, path := name, artifactKind := "FILE" } (jobId ++ name)
      name (jobId ++ name) 0) ++
  [ .finalised jobId 3 ]

/-- Two tasks wait for verification. -/
def twoCompleted : List Action :=
  [ .createProject "p" "slug" .active,
    .createTask { id := "t1", projectId := "p", executor := .compute, idempotencyKey := "t1",
                  specJson := .null },
    .createTask { id := "t2", projectId := "p", executor := .compute, idempotencyKey := "t2",
                  specJson := .null },
    .reconcile 0 0 ["t1", "t2"] ] ++ completedWork "t1" "j1" ++ completedWork "t2" "j2"

/-- The metrics of the second task start with a byte that no UTF-8 text has; every other file holds
    an empty JSON object. -/
def brokenMetrics : TaskValidator :=
  { modelValidate := fun _ => .ok metricsSpec,
    readFile := fun uri => .bytes (if uri = "j2metrics" then [0xff] else [0x7b, 0x7d]),
    loads := fun _ => .ok (.dict []),
    frames := 0 }

/-- The surroundings of the same two tasks with every file in order. -/
def soundMetrics : TaskValidator :=
  { brokenMetrics with readFile := fun _ => .bytes [0x7b, 0x7d] }

/-- The run of the two tasks, with what the witnesses read off its end. -/
lemma twoCompleted_run :
    ∃ db, (controller brokenMetrics.modelValidate).run Db.empty twoCompleted = some db ∧
      db.verifyingTasks = ["t1", "t2"] ∧
      (∀ id t, db.tasks.get id = some t → t.acceptancePolicyJson = []) ∧
      (brokenMetrics.verifyCompletedWork db 9 ["t1", "t2"]).isOk = false := by
  have last : ((controller brokenMetrics.modelValidate).run Db.empty twoCompleted).map (fun db =>
      (db.verifyingTasks, db.tasks.any fun _ t => !t.acceptancePolicyJson.isEmpty,
        (brokenMetrics.verifyCompletedWork db 9 ["t1", "t2"]).isOk)) =
          some (["t1", "t2"], false, false) := by decide
  obtain ⟨db, rn, e⟩ := Option.map_eq_some_iff.mp last
  obtain ⟨query, e⟩ := Prod.mk.inj e
  obtain ⟨policies, raised⟩ := Prod.mk.inj e
  refine ⟨db, rn, query, ?_, raised⟩
  intro id t ht
  by_contra nonempty
  have wanted : (!t.acceptancePolicyJson.isEmpty) = true := by
    rw [Bool.not_eq_true', List.isEmpty_eq_false_iff]
    exact nonempty
  rw [Dict.any_iff.mpr ⟨id, t, ht, wanted⟩] at policies
  cases policies

/-- The broken file of the second task keeps the first one from being settled. -/
theorem verification_not_isolated :
    ∃ db, (controller brokenMetrics.modelValidate).run Db.empty twoCompleted = some db ∧
      ["t1", "t2"].Perm db.verifyingTasks ∧ ¬ brokenMetrics.SettlesEach db 9 ["t1", "t2"] := by
  obtain ⟨db, rn, query, _, raised⟩ := twoCompleted_run
  refine ⟨db, rn, by rw [query], ?_⟩
  rintro ⟨verified, db', h, _⟩
  rw [h] at raised
  cases raised

/-- With every file in order, both tasks are settled. -/
theorem verification_isolates_iff_sound :
    ∃ db, (controller soundMetrics.modelValidate).run Db.empty twoCompleted = some db ∧
      soundMetrics.SettlesEach db 9 ["t1", "t2"] := by
  obtain ⟨db, rn, query, policies, _⟩ := twoCompleted_run
  refine ⟨db, rn, ?_⟩
  apply (verification_isolates_iff (controller_sound rn) (by rw [query])
    (fun _ _ _ _ => ⟨metricsSpec, rfl⟩) 9).mpr
  intro id _ t spec ht parsed _
  cases parsed
  rw [policies id t ht]
  refine ⟨rfl, ?_, rfl, fun _ x _ => rfl⟩
  intro name mem
  cases mem

end ResearchController
