import ResearchController.Lib.Loop
import ResearchController.Services.Transitions

/-!
# Validators

Port of `services/validators.py`. `TaskValidator.reasons` is the body of `validate_compute_task` as
a function of the data it reads for one task: the spec, the acceptance policy, the job of the
highest attempt, the task's artifacts and the files behind them. `Db.validateComputeTask` collects
that data from the tables and marks the evidence of a task that passes.

The policy is an arbitrary JSON object, so its two lists may be anything; `pySet` is `set(value)` on
a JSON value. Checking a metrics file may fail in several ways. An unreadable file and text that is
no JSON are caught and become a reason. What is neither an `OSError` nor a `JSONDecodeError`
escapes: bytes that are not UTF-8, an integer with more digits than `int` converts, and brackets that are
nested deeper than the stack of the interpreter allows, which `json.load` may meet as well as the
recursive walk over the value that it has returned.
-/

namespace ResearchController
open Lib

/-- `ValidationResult`. -/
structure ValidationResult where
  passed : Bool
  reasons : List String

/-- What opening and reading a file yields: an `OSError`, or its bytes. -/
inductive FileContent where
  | unreadable (msg : String)
  | bytes (content : List UInt8)

/-- The surroundings of the validator: the validation library, the file system, `json.loads`, and
    the frames that the stack of the interpreter has left, beyond the two that `json.load` has used
    before. -/
structure TaskValidator where
  modelValidate : Json → Except PyErr ComputeTaskSpec
  readFile : String → FileContent
  loads : String → Except PyErr Json
  frames : Nat

/-- Strict UTF-8 decoding. -/
def decodeUtf8 (content : List UInt8) : Option String :=
  String.fromUTF8? ⟨content.toArray⟩

/-- A call for which the stack has no frame left. -/
def recursionError {α : Type} : Except PyErr α :=
  .error (.recursionError "maximum recursion depth exceeded")

mutual

/-- `_contains_nonfinite`, with a number of frames left on the stack. -/
def containsNonfinite : Nat → Json → Except PyErr Bool
  | 0, _ => recursionError
  | _ + 1, .float x => .ok !x.isFinite
  | frames + 1, .dict items => containsNonfiniteItems frames items
  | frames + 1, .list items => containsNonfiniteList frames items
  | _ + 1, .null => .ok false
  | _ + 1, .bool _ => .ok false
  | _ + 1, .int _ => .ok false
  | _ + 1, .str _ => .ok false
  | _ + 1, .surrogates _ => .ok false

/-- `any(_contains_nonfinite(item) for item in value)`. The generator takes a frame of its own, and
    the search ends at the first item that is found. -/
def containsNonfiniteList : Nat → List Json → Except PyErr Bool
  | 0, _ => recursionError
  | _ + 1, [] => .ok false
  | frames + 1, item :: rest => do
    if ← containsNonfinite frames item then return true
    else containsNonfiniteList (frames + 1) rest

/-- `any(_contains_nonfinite(item) for item in value.values())`. -/
def containsNonfiniteItems : Nat → List (String × Json) → Except PyErr Bool
  | 0, _ => recursionError
  | _ + 1, [] => .ok false
  | frames + 1, (_, item) :: rest => do
    if ← containsNonfinite frames item then return true
    else containsNonfiniteItems (frames + 1) rest

end

mutual

/-- Whether a value holds a number that is not finite. -/
def Json.nonfinite : Json → Bool
  | .float x => !x.isFinite
  | .dict items => nonfiniteItems items
  | .list items => nonfiniteList items
  | _ => false

def nonfiniteList : List Json → Bool
  | [] => false
  | item :: rest => item.nonfinite || nonfiniteList rest

def nonfiniteItems : List (String × Json) → Bool
  | [] => false
  | (_, item) :: rest => item.nonfinite || nonfiniteItems rest

end

mutual

/-- The frames of the stack that the search takes: two for every level of nesting, as far as it
    looks. -/
def Json.searchFrames : Json → Nat
  | .dict items => searchFramesItems items + 1
  | .list items => searchFramesList items + 1
  | _ => 1

def searchFramesList : List Json → Nat
  | [] => 1
  | item :: rest =>
    max (item.searchFrames + 1) (if item.nonfinite then 0 else searchFramesList rest)

def searchFramesItems : List (String × Json) → Nat
  | [] => 1
  | (_, item) :: rest =>
    max (item.searchFrames + 1) (if item.nonfinite then 0 else searchFramesItems rest)

end

/-- What the search returns, on a stack that is large enough. -/
def Json.searched (value : Json) (frames : Nat) : Except PyErr Bool :=
  if value.searchFrames ≤ frames then .ok value.nonfinite else recursionError

/-- One turn of the search through the items of a list or an object, of which the first takes some
    frames and is of some kind, and the others take some frames and hold something of that kind or
    not. -/
lemma searched_cons {here there frames : Nat} {found others : Bool} :
    (do
      if ← (if here ≤ frames then .ok found else recursionError : Except PyErr Bool) then
        return true
      else if there ≤ frames + 1 then .ok others else recursionError) =
    (if max (here + 1) (if found then 0 else there) ≤ frames + 1 then .ok (found || others)
      else recursionError : Except PyErr Bool) := by
  by_cases fits : here ≤ frames
  · cases found with
    | true =>
      have enough : max (here + 1) 0 ≤ frames + 1 := by omega
      simp only [fits, enough, if_true, Bool.true_or]
      rfl
    | false =>
      have same : max (here + 1) there ≤ frames + 1 ↔ there ≤ frames + 1 := by omega
      simp only [fits, same, Bool.false_eq_true, if_true, if_false, Bool.false_or]
      rfl
  · have tooFew : ¬ max (here + 1) (if found then 0 else there) ≤ frames + 1 := by omega
    simp only [fits, tooFew, if_false]
    rfl

mutual

/-- The search overflows the stack exactly when it has too few frames for the value. -/
lemma containsNonfinite_eq : ∀ (frames : Nat) (value : Json),
    containsNonfinite frames value = value.searched frames
  | 0, value => by
    rw [containsNonfinite, Json.searched, if_neg]
    cases value <;> simp [Json.searchFrames]
  | frames + 1, .dict items => by
    rw [containsNonfinite, containsNonfiniteItems_eq frames items]
    simp [Json.searched, Json.searchFrames, Json.nonfinite]
  | frames + 1, .list items => by
    rw [containsNonfinite, containsNonfiniteList_eq frames items]
    simp [Json.searched, Json.searchFrames, Json.nonfinite]
  | frames + 1, .float x => by
    simp [containsNonfinite, Json.searched, Json.searchFrames, Json.nonfinite]
  | frames + 1, .null | frames + 1, .bool _ | frames + 1, .int _ | frames + 1, .str _
  | frames + 1, .surrogates _ => by
    simp [containsNonfinite, Json.searched, Json.searchFrames, Json.nonfinite]

lemma containsNonfiniteList_eq : ∀ (frames : Nat) (items : List Json),
    containsNonfiniteList frames items =
      if searchFramesList items ≤ frames then .ok (nonfiniteList items) else recursionError
  | 0, items => by
    rw [containsNonfiniteList, if_neg]
    cases items <;> simp [searchFramesList]
  | frames + 1, [] => by
    simp [containsNonfiniteList, searchFramesList, nonfiniteList]
  | frames + 1, item :: rest => by
    rw [containsNonfiniteList, containsNonfinite_eq frames item,
      containsNonfiniteList_eq (frames + 1) rest, searchFramesList, nonfiniteList]
    exact searched_cons

lemma containsNonfiniteItems_eq : ∀ (frames : Nat) (items : List (String × Json)),
    containsNonfiniteItems frames items =
      if searchFramesItems items ≤ frames then .ok (nonfiniteItems items) else recursionError
  | 0, items => by
    rw [containsNonfiniteItems, if_neg]
    cases items <;> simp [searchFramesItems]
  | frames + 1, [] => by
    simp [containsNonfiniteItems, searchFramesItems, nonfiniteItems]
  | frames + 1, (key, item) :: rest => by
    rw [containsNonfiniteItems, containsNonfinite_eq frames item,
      containsNonfiniteItems_eq (frames + 1) rest, searchFramesItems, nonfiniteItems]
    exact searched_cons

end

/-- Whether a JSON value can be put into a set. -/
def Json.hashable : Json → Bool
  | .list _ => false
  | .dict _ => false
  | _ => true

/-- Whether a JSON value is a given string. -/
def Json.isStr (value : Json) (s : String) : Bool :=
  match value with
  | .str s' => s' == s
  | _ => false

/-- A string of one code point. -/
def codeString (code : Nat) : Json :=
  if code.isValidChar then .str (String.singleton (Char.ofNat code)) else .surrogates [code]

/-- `set(value)`: the elements of an iterable of hashable values. -/
def pySet : Json → Except PyErr (List Json)
  | .str s => .ok (s.toList.map fun c => .str (String.singleton c))
  | .surrogates codes => .ok (codes.map codeString)
  | .list items =>
    if items.all Json.hashable then .ok items else .error (.typeError "unhashable type")
  | .dict items => .ok (items.map fun item => .str item.1)
  | _ => .error (.typeError "object is not iterable")

/-- The strings of a set that is going to be sorted together with other strings. No artifact has a
    name with a lone surrogate, so such a string ends up in the summary of a failed task, which the
    database driver cannot encode: the transaction fails at its next flush. -/
def sortableNames : List Json → Except PyErr (List String)
  | [] => .ok []
  | .str s :: rest => do
    let names ← sortableNames rest
    return s :: names
  | .surrogates _ :: _ => .error (.unicodeEncodeError "'utf-8' codec can't encode: surrogates")
  | _ :: _ => .error (.typeError "'<' not supported between instances")

/-- `sorted(required_names)`. -/
def requiredNames (policy : JsonObject) (outputs : List OutputSpec) :
    Except PyErr (List String) := do
  let declared ← pySet ((policy.get "required_artifacts").getD (.list []))
  -- strings are in the set in any case, so an element that is none breaks the comparison
  let names ← sortableNames declared
  let outputNames := (outputs.filter (·.required)).map (·.logicalName)
  return (names ++ outputNames ++ ["run.out", "run.error", "exit.json"]).dedup.insertionSort (· ≤ ·)

/-- `name == logical_name or name.startswith(f"{logical_name}:")`. -/
def nameMatches (logicalName name : String) : Bool :=
  name == logicalName || startsWith name (logicalName ++ ":")

/-- `{artifact.logical_name: artifact for artifact in artifacts}`. -/
def byName (artifacts : List Artifact) : Dict String Artifact :=
  artifacts.foldl (fun d x => d.set x.logicalName x) Dict.empty

/-- The check of one required name. -/
def requiredReason (names : Dict String Artifact) (logicalName : String) : Option String :=
  let found := names.items.filter fun item => nameMatches logicalName item.1
  if found.isEmpty then
    some s!"required artifact missing: {logicalName}"
  else if found.any fun item => item.2.integrityStatus != .verified then
    some s!"required artifact is not verified: {logicalName}"
  else
    none

/-- The validator names that a spec and a policy declare. -/
def declaredValidators (success : SuccessSpec) (policy : JsonObject) :
    Except PyErr (List Json) := do
  let declared ← pySet ((policy.get "validators").getD (.list []))
  return success.requiredValidators.map Json.str ++ declared

/-- The artifacts that the metrics validators read. -/
def metricsArtifacts (artifacts : List Artifact) : List Artifact :=
  artifacts.filter fun x => x.kind == "METRICS" || startsWith x.logicalName "metrics"

/-- The check of one metrics artifact. -/
def TaskValidator.metricReason (v : TaskValidator) (noNan : Bool) (x : Artifact) :
    Except PyErr (List String) :=
  match v.readFile x.uri with
  | .unreadable msg => .ok [s!"invalid metrics JSON {x.logicalName}: {msg}"]
  | .bytes content =>
    match decodeUtf8 content with
    -- neither an `OSError` nor a `JSONDecodeError`
    | none => .error (.unicodeDecodeError "'utf-8' codec can't decode")
    | some text =>
      match v.loads text with
      | .error (.jsonDecodeError msg) => .ok [s!"invalid metrics JSON {x.logicalName}: {msg}"]
      | .error e => .error e
      | .ok value =>
        if noNan then do
          -- outside of the `try`
          let found ← containsNonfinite (v.frames + 2) value
          return if found then [s!"non-finite metric in {x.logicalName}"] else []
        else
          .ok []

/-- The loop over the metrics artifacts. -/
def TaskValidator.metricReasons (v : TaskValidator) (noNan : Bool) :
    List Artifact → Except PyErr (List String)
  | [] => .ok []
  | x :: rest => do
    let first ← v.metricReason noNan x
    let others ← v.metricReasons noNan rest
    return first ++ others

/-- The block of `validate_compute_task` on metrics. -/
def TaskValidator.metricsBlock (v : TaskValidator) (validators : List Json)
    (artifacts : List Artifact) : Except PyErr (List String) :=
  let noNan := validators.any (·.isStr "no_nan")
  if validators.any (·.isStr "metrics_json") || noNan then do
    let found := metricsArtifacts artifacts
    let missing :=
      if found.isEmpty then ["metrics validator requested but no metrics artifact exists"] else []
    let reasons ← v.metricReasons noNan found
    return missing ++ reasons
  else
    .ok []

/-- `repr` of an exit code. -/
def reprExitCode : Option Int → String
  | none => "None"
  | some c => toString c

/-- The checks of the job row. -/
def jobReasons (success : SuccessSpec) (job : ComputeJob) : List String :=
  (if success.requireZeroExitCode && job.exitCode != some 0 then
    [s!"exit code is {reprExitCode job.exitCode}, expected 0"] else []) ++
  (if job.executionStatus != .succeeded then
    [s!"compute job terminal status is {job.executionStatus.value}"] else [])

/-- `validate_compute_task` on the data of one task with a job. -/
def TaskValidator.reasons (v : TaskValidator) (spec : ComputeTaskSpec) (policy : JsonObject)
    (job : ComputeJob) (artifacts : List Artifact) : Except PyErr (List String) := do
  let names ← requiredNames policy spec.outputs
  let validators ← declaredValidators spec.success policy
  let metrics ← v.metricsBlock validators artifacts
  return jobReasons spec.success job ++ names.filterMap (requiredReason (byName artifacts)) ++
    metrics

/-- The artifact rows of a task. -/
def Db.artifactsOf (db : Db) (taskId : String) : List Artifact :=
  (db.artifacts.items.filter fun (_, x) => x.taskId == some taskId).map Prod.snd

/-- The job of a task with the highest attempt number. -/
def Db.latestJob (db : Db) (taskId : String) : Option (String × ComputeJob) :=
  (db.jobs.items.filter fun (_, j) => j.taskId == taskId).argmax fun (_, j) => j.attemptNo

/-- Whether a passed task's artifact becomes evidence. -/
def isEvidence (outputs : List OutputSpec) (x : Artifact) : Bool :=
  ((outputs.filter (·.evidenceCandidate)).map (·.logicalName)).any fun name =>
    nameMatches name x.logicalName

/-- An artifact row after the marking loop of `validate_compute_task`. -/
def Artifact.marked (x : Artifact) (taskId : String) (outputs : List OutputSpec) : Artifact :=
  if x.taskId == some taskId && isEvidence outputs x then { x with evidenceEligible := true } else x

/-- The marking loop of `validate_compute_task`. -/
def Db.markEvidence (db : Db) (taskId : String) (outputs : List OutputSpec) : Db :=
  { db with artifacts := db.artifacts.mapValues (·.marked taskId outputs) }

/-- `TaskValidator.validate_compute_task`. -/
def TaskValidator.validateComputeTask (v : TaskValidator) (db : Db) (taskId : String)
    (task : Task) :
    Except PyErr (ValidationResult × Db) := do
  let spec ← v.modelValidate task.specJson
  match db.latestJob taskId with
  | none => return ({ passed := false, reasons := ["compute job missing"] }, db)
  | some (_, job) =>
    let reasons ← v.reasons spec task.acceptancePolicyJson job (db.artifactsOf taskId)
    if reasons.isEmpty then
      return ({ passed := true, reasons := [] }, db.markEvidence taskId spec.outputs)
    else
      return ({ passed := false, reasons := reasons }, db)

/-! ## Inversion -/

/-- A name that the acceptance policy, an output of the spec or the collector requires. -/
def RequiredName (policy : JsonObject) (outputs : List OutputSpec) (name : String) : Prop :=
  (∃ declared, pySet ((policy.get "required_artifacts").getD (.list [])) = .ok declared ∧
      Json.str name ∈ declared) ∨
    (∃ o ∈ outputs, o.required = true ∧ o.logicalName = name) ∨
    name ∈ ["run.out", "run.error", "exit.json"]

lemma mem_sortableNames {declared : List Json} {names : List String}
    (h : sortableNames declared = .ok names) {name : String} (mem : Json.str name ∈ declared) :
    name ∈ names := by
  induction declared generalizing names with
  | nil => cases mem
  | cons item rest ih =>
    cases item with
    | str s =>
      obtain ⟨others, sortable, e⟩ := bind_ok.mp h
      cases e
      rcases List.mem_cons.mp mem with e | mem
      · cases e
        exact List.mem_cons_self
      · exact List.mem_cons_of_mem _ (ih sortable mem)
    | _ => cases h

/-- Every required name is checked. -/
lemma mem_requiredNames {policy : JsonObject} {outputs : List OutputSpec} {names : List String}
    (h : requiredNames policy outputs = .ok names) {name : String}
    (required : RequiredName policy outputs name) : name ∈ names := by
  obtain ⟨declared, set, h⟩ := bind_ok.mp h
  obtain ⟨strings, sortable, h⟩ := bind_ok.mp h
  cases h
  rw [(List.perm_insertionSort _ _).mem_iff, List.mem_dedup, List.mem_append, List.mem_append]
  rcases required with ⟨declared', set', mem⟩ | ⟨o, mem, required, rfl⟩ | builtin
  · rw [set] at set'
    cases set'
    exact Or.inl (Or.inl (mem_sortableNames sortable mem))
  · exact Or.inl (Or.inr (List.mem_map.mpr ⟨o, List.mem_filter.mpr ⟨mem, required⟩, rfl⟩))
  · exact Or.inr builtin

/-- Every name matches itself. -/
lemma nameMatches_self (name : String) : nameMatches name name = true := by
  rw [nameMatches, beq_self_eq_true, Bool.true_or]

/-- The artifact under a name in `by_name` is one of the artifacts and has that name. -/
lemma byName_get {artifacts : List Artifact} {name : String} {x : Artifact}
    (h : (byName artifacts).get name = some x) : x ∈ artifacts ∧ x.logicalName = name := by
  have kept : ∀ (d : Dict String Artifact),
      (artifacts.foldl (fun d x => d.set x.logicalName x) d).get name = some x →
      d.get name = some x ∨ x ∈ artifacts ∧ x.logicalName = name := by
    clear h
    induction artifacts with
    | nil => exact fun d h => Or.inl h
    | cons y artifacts ih =>
      intro d h
      rcases ih (d.set y.logicalName y) h with before | ⟨mem, named⟩
      · rw [Dict.get_set] at before
        split at before
        · rename_i e
          cases before
          exact Or.inr ⟨List.mem_cons_self, e.symm⟩
        · exact Or.inl before
      · exact Or.inr ⟨List.mem_cons_of_mem _ mem, named⟩
  rcases kept Dict.empty h with absent | found
  · cases absent
  · exact found

/-- A required name without a reason is the name of a verified artifact. -/
lemma requiredReason_none {artifacts : List Artifact} {name : String}
    (h : requiredReason (byName artifacts) name = none) :
    ∃ x ∈ artifacts, x.integrityStatus = .verified ∧ nameMatches name x.logicalName = true := by
  unfold requiredReason at h
  simp only at h
  split at h
  · cases h
  · rename_i nonempty
    split at h
    · cases h
    · rename_i verified
      obtain ⟨⟨key, x⟩, mem⟩ := List.exists_mem_of_ne_nil _ (mt List.isEmpty_iff.mpr nonempty)
      obtain ⟨item, named⟩ := List.mem_filter.mp mem
      obtain ⟨memX, eqName⟩ := byName_get ((Dict.mem_items _).mp item)
      refine ⟨x, memX, ?_, by rw [eqName]; exact named⟩
      by_contra unverified
      apply verified
      exact List.any_eq_true.mpr ⟨(key, x), mem, bne_iff_ne.mpr unverified⟩

/-- A job without a reason succeeded, with exit code zero where the spec asks for it. -/
lemma jobReasons_nil {success : SuccessSpec} {job : ComputeJob} (h : jobReasons success job = []) :
    job.executionStatus = .succeeded ∧
      (success.requireZeroExitCode = true → job.exitCode = some 0) := by
  obtain ⟨zero, status⟩ := List.append_eq_nil_iff.mp h
  constructor
  · by_contra other
    rw [if_pos (bne_iff_ne.mpr other)] at status
    cases status
  · intro require
    by_contra other
    rw [if_pos (by rw [require, Bool.true_and]; exact bne_iff_ne.mpr other)] at zero
    cases zero

/-- The validator passes a task with a job only if the job, the required names and the metrics give
    no reason. -/
lemma TaskValidator.reasons_nil {v : TaskValidator} {spec : ComputeTaskSpec} {policy : JsonObject}
    {job : ComputeJob} {artifacts : List Artifact}
    (h : v.reasons spec policy job artifacts = .ok []) :
    jobReasons spec.success job = [] ∧
      (∀ name, RequiredName policy spec.outputs name →
        requiredReason (byName artifacts) name = none) ∧
      ∃ validators, declaredValidators spec.success policy = .ok validators ∧
        v.metricsBlock validators artifacts = .ok [] := by
  obtain ⟨names, rn, h⟩ := bind_ok.mp h
  obtain ⟨validators, dv, h⟩ := bind_ok.mp h
  obtain ⟨metrics, mb, h⟩ := bind_ok.mp h
  have nil : jobReasons spec.success job ++ names.filterMap (requiredReason (byName artifacts)) ++
      metrics = [] := Except.ok.inj h
  obtain ⟨front, noMetrics⟩ := List.append_eq_nil_iff.mp nil
  obtain ⟨noJob, noNames⟩ := List.append_eq_nil_iff.mp front
  refine ⟨noJob, ?_, validators, dv, by rw [mb, noMetrics]⟩
  intro name required
  exact List.filterMap_eq_nil_iff.mp noNames name (mem_requiredNames rn required)

/-- The job of the highest attempt. -/
lemma Db.latestJob_some {db : Db} {id k : String} {job : ComputeJob}
    (h : db.latestJob id = some (k, job)) :
    db.jobs.get k = some job ∧ job.taskId = id ∧
      ∀ {k' j'}, db.jobs.get k' = some j' → j'.taskId = id → j'.attemptNo ≤ job.attemptNo := by
  obtain ⟨stored, owner⟩ := List.mem_filter.mp (List.argmax_mem h)
  refine ⟨(Dict.mem_items _).mp stored, beq_iff_eq.mp owner, ?_⟩
  intro k' j' hj' owner'
  have mem : (k', j') ∈ db.jobs.items.filter fun (_, j) => j.taskId == id :=
    List.mem_filter.mpr ⟨(Dict.mem_items _).mpr hj', beq_iff_eq.mpr owner'⟩
  exact List.le_of_mem_argmax (f := fun item : String × ComputeJob => item.2.attemptNo) mem h

/-- The artifacts of a task. -/
lemma Db.mem_artifactsOf {db : Db} {id : String} {x : Artifact} :
    x ∈ db.artifactsOf id ↔ ∃ i, db.artifacts.get i = some x ∧ x.taskId = some id := by
  unfold artifactsOf
  rw [List.mem_map]
  constructor
  · rintro ⟨⟨i, y⟩, mem, rfl⟩
    obtain ⟨stored, owner⟩ := List.mem_filter.mp mem
    exact ⟨i, (Dict.mem_items _).mp stored, beq_iff_eq.mp owner⟩
  · rintro ⟨i, stored, owner⟩
    exact ⟨(i, x), List.mem_filter.mpr ⟨(Dict.mem_items _).mpr stored, beq_iff_eq.mpr owner⟩, rfl⟩

end ResearchController
