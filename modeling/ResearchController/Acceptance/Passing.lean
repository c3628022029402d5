import ResearchController.Acceptance.ExitCodes

/-!
# What passes the validator

The validator passes a task without a word about the checks it made. `TaskValidator.Passing` spells
them out: the two lists of the policy can be read, the job row gives no reason, no required name
does, and where the metrics are asked for there are some and each of them is in order.
`nonfinite_iff` says what the recursive walk over a metrics file looks for.

The last sections are about states that pass. Whatever artifacts a task has, later rows under the
same names take their places in `by_name`, so verified rows under every name cover them up
(`requiredReason_covered`), and rows can always be added (`Db.Constrained.exists_withArtifacts`).
-/

namespace ResearchController
open Lib

/-! ## Numbers inside a JSON value -/

/-- A value at some depth of a JSON value. -/
inductive Json.Occurs (inner : Json) : Json → Prop where
  | self : Json.Occurs inner inner
  | item {items : List Json} {item : Json} :
    item ∈ items → Json.Occurs inner item → Json.Occurs inner (.list items)
  | entry {items : List (String × Json)} {key : String} {item : Json} :
    (key, item) ∈ items → Json.Occurs inner item → Json.Occurs inner (.dict items)

lemma nonfiniteList_iff {items : List Json} :
    nonfiniteList items = true ↔ ∃ item ∈ items, item.nonfinite = true := by
  induction items with
  | nil =>
    rw [nonfiniteList]
    simp
  | cons item rest ih =>
    rw [nonfiniteList, Bool.or_eq_true_iff, ih, List.exists_mem_cons_iff]

lemma nonfiniteItems_iff {items : List (String × Json)} :
    nonfiniteItems items = true ↔
      ∃ key item, (key, item) ∈ items ∧ item.nonfinite = true := by
  induction items with
  | nil =>
    rw [nonfiniteItems]
    simp
  | cons entry rest ih =>
    obtain ⟨key, item⟩ := entry
    rw [nonfiniteItems, Bool.or_eq_true_iff, ih]
    constructor
    · rintro (here | ⟨key', item', mem, found⟩)
      · exact ⟨key, item, List.mem_cons_self, here⟩
      · exact ⟨key', item', List.mem_cons_of_mem _ mem, found⟩
    · rintro ⟨key', item', mem, found⟩
      rcases List.mem_cons.mp mem with e | mem
      · cases e
        exact Or.inl found
      · exact Or.inr ⟨key', item', mem, found⟩

/-- The walk finds a number that is not finite only where there is one. -/
lemma Json.occurs_of_nonfinite (value : Json) (found : value.nonfinite = true) :
    ∃ x, (Json.float x).Occurs value ∧ x.isFinite = false := by
  match value with
  | .float x =>
    rw [nonfinite, Bool.not_eq_true'] at found
    exact ⟨x, .self, found⟩
  | .list items =>
    rw [nonfinite] at found
    obtain ⟨item, mem, here⟩ := nonfiniteList_iff.mp found
    have smaller := List.sizeOf_lt_of_mem mem
    obtain ⟨x, occurs, infinite⟩ := occurs_of_nonfinite item here
    exact ⟨x, .item mem occurs, infinite⟩
  | .dict items =>
    rw [nonfinite] at found
    obtain ⟨key, item, mem, here⟩ := nonfiniteItems_iff.mp found
    have smaller : sizeOf item < sizeOf items := by
      have entry := List.sizeOf_lt_of_mem mem
      rw [Prod.mk.sizeOf_spec] at entry
      omega
    obtain ⟨x, occurs, infinite⟩ := occurs_of_nonfinite item here
    exact ⟨x, .entry mem occurs, infinite⟩
  | .null | .bool _ | .int _ | .str _ | .surrogates _ => cases found
termination_by sizeOf value
decreasing_by
  · simp only [Json.list.sizeOf_spec]
    omega
  · simp only [Json.dict.sizeOf_spec]
    omega

/-- The walk looks for a number that is not finite, at any depth. -/
lemma nonfinite_iff {value : Json} :
    value.nonfinite = true ↔ ∃ x, (Json.float x).Occurs value ∧ x.isFinite = false := by
  constructor
  · exact value.occurs_of_nonfinite
  · rintro ⟨x, occurs, infinite⟩
    induction occurs with
    | self =>
      rw [Json.nonfinite, infinite]
      rfl
    | item mem _ ih =>
      rw [Json.nonfinite]
      exact nonfiniteList_iff.mpr ⟨_, mem, ih⟩
    | entry mem _ ih =>
      rw [Json.nonfinite]
      exact nonfiniteItems_iff.mpr ⟨_, _, mem, ih⟩

/-- What the walk reports, if the stack is large enough for it. -/
lemma nonfinite_of_searched {frames : Nat} {value : Json} {found : Bool}
    (h : containsNonfinite frames value = .ok found) : value.nonfinite = found := by
  rw [containsNonfinite_eq, Json.searched] at h
  split at h
  · exact Except.ok.inj h
  · cases h

/-! ## The checks that a passed task went through -/

/-- The file behind an artifact parses as a JSON value. -/
def TaskValidator.Parses (v : TaskValidator) (x : Artifact) (value : Json) : Prop :=
  ∃ content text, v.readFile x.uri = .bytes content ∧ decodeUtf8 content = some text ∧
    v.loads text = .ok value

/-- The policy's lists can be read. -/
structure JsonObject.Readable (policy : JsonObject) : Prop where
  required : (policy.listed "required_artifacts").isSet = true
  names : ∀ name ∈ (policy.listed "required_artifacts").elements, name.isString = true
  validators : (policy.listed "validators").isSet = true

/-- The metrics of a task are in order, where they are asked for. -/
structure TaskValidator.Measured (v : TaskValidator) (spec : ComputeTaskSpec) (policy : JsonObject)
    (artifacts : List Artifact) : Prop where
  exist : metricsArtifacts artifacts ≠ []
  each : ∀ x ∈ metricsArtifacts artifacts,
    v.metricReason (wantsFinite spec.success policy) x = .ok []

/-- The data on which the validator passes. -/
structure TaskValidator.Passing (v : TaskValidator) (spec : ComputeTaskSpec) (policy : JsonObject)
    (job : ComputeJob) (artifacts : List Artifact) : Prop where
  readable : policy.Readable
  job : jobReasons spec.success job = []
  present : ∀ name, RequiredName policy spec.outputs name →
    requiredReason (byName artifacts) name = none
  metrics : wantsMetrics spec.success policy = true → v.Measured spec policy artifacts

/-- A metrics file is in order if it parses, and holds only finite numbers where it has to. -/
lemma TaskValidator.metricReason_nil_iff {v : TaskValidator} {noNan : Bool} {x : Artifact} :
    v.metricReason noNan x = .ok [] ↔
      ∃ value, v.Parses x value ∧
        (noNan = true → containsNonfinite (v.frames + 2) value = .ok false) := by
  constructor
  · intro h
    simp only [metricReason] at h
    split at h
    · cases h
    · rename_i content read
      split at h
      · cases h
      · rename_i text decoded
        split at h
        · cases h
        · cases h
        · rename_i value parsed
          refine ⟨value, ⟨content, text, read, decoded, parsed⟩, ?_⟩
          intro wanted
          rw [if_pos wanted] at h
          obtain ⟨found, searched, h⟩ := bind_ok.mp h
          cases found with
          | true => cases h
          | false => exact searched
  · rintro ⟨value, ⟨content, text, read, decoded, parsed⟩, finite⟩
    simp only [metricReason, read, decoded, parsed]
    cases noNan with
    | false => rfl
    | true =>
      rw [finite rfl]
      rfl

lemma TaskValidator.metricReasons_nil_iff {v : TaskValidator} {noNan : Bool}
    {artifacts : List Artifact} :
    v.metricReasons noNan artifacts = .ok [] ↔
      ∀ x ∈ artifacts, v.metricReason noNan x = .ok [] := by
  induction artifacts with
  | nil => simp [metricReasons]
  | cons x rest ih =>
    rw [List.forall_mem_cons, ← ih]
    constructor
    · intro h
      obtain ⟨first, hx, h⟩ := bind_ok.mp h
      obtain ⟨others, hrest, h⟩ := bind_ok.mp h
      obtain ⟨rfl, rfl⟩ := List.append_eq_nil_iff.mp (Except.ok.inj h)
      exact ⟨hx, hrest⟩
    · rintro ⟨hx, hrest⟩
      exact bind_ok.mpr ⟨[], hx, bind_ok.mpr ⟨[], hrest, rfl⟩⟩

lemma TaskValidator.metricsBlock_nil_iff {v : TaskValidator} {spec : ComputeTaskSpec}
    {policy : JsonObject} {artifacts : List Artifact} :
    v.metricsBlock (declaredNames spec.success policy) artifacts = .ok [] ↔
      (wantsMetrics spec.success policy = true → v.Measured spec policy artifacts) := by
  rw [wantsMetrics_eq]
  simp only [metricsBlock]
  rw [← wantsFinite]
  split
  · rename_i wanted
    constructor
    · intro h _
      obtain ⟨reasons, read, h⟩ := bind_ok.mp h
      obtain ⟨found, rfl⟩ := List.append_eq_nil_iff.mp (Except.ok.inj h)
      refine ⟨?_, metricReasons_nil_iff.mp read⟩
      intro none
      rw [none] at found
      cases found
    · intro measured
      obtain ⟨exist, each⟩ := measured wanted
      refine bind_ok.mpr ⟨[], metricReasons_nil_iff.mpr each, ?_⟩
      rw [Bool.eq_false_iff.mpr (mt List.isEmpty_iff.mp exist)]
      rfl
  · rename_i unwanted
    exact ⟨fun _ wanted => (unwanted wanted).elim, fun _ => rfl⟩

lemma sortableNames_mem {declared : List Json} {names : List String}
    (h : sortableNames declared = .ok names) {name : String} (mem : name ∈ names) :
    Json.str name ∈ declared := by
  induction declared generalizing names with
  | nil =>
    cases h
    cases mem
  | cons item rest ih =>
    cases item with
    | str s =>
      obtain ⟨others, sortable, e⟩ := bind_ok.mp h
      cases e
      rcases List.mem_cons.mp mem with e | mem
      · cases e
        exact List.mem_cons_self
      · exact List.mem_cons_of_mem _ (ih sortable mem)
    | _ => cases h

/-- Every name that is checked is required. -/
lemma requiredName_of_mem {policy : JsonObject} {outputs : List OutputSpec} {names : List String}
    (h : requiredNames policy outputs = .ok names) {name : String} (mem : name ∈ names) :
    RequiredName policy outputs name := by
  obtain ⟨declared, set, h⟩ := bind_ok.mp h
  obtain ⟨strings, sortable, h⟩ := bind_ok.mp h
  cases h
  rw [(List.perm_insertionSort _ _).mem_iff, List.mem_dedup, List.mem_append, List.mem_append]
    at mem
  rcases mem with (mem | mem) | builtin
  · exact Or.inl ⟨declared, set, sortableNames_mem sortable mem⟩
  · obtain ⟨o, mem, named⟩ := List.mem_map.mp mem
    obtain ⟨mem, required⟩ := List.mem_filter.mp mem
    exact Or.inr (Or.inl ⟨o, mem, required, named⟩)
  · exact Or.inr (Or.inr builtin)

/-- The body of the validator finds no reason exactly on the data that pass. -/
lemma TaskValidator.reasons_nil_iff {v : TaskValidator} {spec : ComputeTaskSpec}
    {policy : JsonObject} {job : ComputeJob} {artifacts : List Artifact} :
    v.reasons spec policy job artifacts = .ok [] ↔ v.Passing spec policy job artifacts := by
  constructor
  · intro h
    obtain ⟨required, names, validators, _⟩ := reasons_total_iff.mp ⟨[], h⟩
    obtain ⟨noJob, present, declared, listed, nothing⟩ := reasons_nil h
    obtain ⟨_, rfl⟩ := declaredValidators_ok_iff.mp listed
    exact ⟨⟨required, names, validators⟩, noJob, present, metricsBlock_nil_iff.mp nothing⟩
  · rintro ⟨⟨required, strings, isSet⟩, noJob, present, metrics⟩
    obtain ⟨names, listed⟩ := requiredNames_total_iff.mpr ⟨required, strings⟩
    have st : v.Satisfied spec policy artifacts :=
      ⟨⟨names, listed, fun name mem => present name (requiredName_of_mem listed mem)⟩,
        _, declaredValidators_ok_iff.mpr ⟨isSet, rfl⟩, metricsBlock_nil_iff.mpr metrics⟩
    rw [st.reasons job, noJob]

/-- A verdict that passes. -/
lemma TaskValidator.validate_passed_iff {v : TaskValidator} {db : Db} {id : String} {task : Task}
    {spec : ComputeTaskSpec} (valid : v.modelValidate task.specJson = .ok spec) :
    (∃ result db', v.validateComputeTask db id task = .ok (result, db') ∧ result.passed = true) ↔
      ∃ k job, db.latestJob id = some (k, job) ∧
        v.Passing spec task.acceptancePolicyJson job (db.artifactsOf id) := by
  constructor
  · rintro ⟨result, db', h, passed⟩
    obtain ⟨spec', valid', h⟩ := bind_ok.mp h
    cases valid.symm.trans valid'
    cases latest : db.latestJob id with
    | none =>
      simp only [latest] at h
      cases h
      cases passed
    | some found =>
      simp only [latest] at h
      obtain ⟨reasons, computed, h⟩ := bind_ok.mp h
      split at h
      · rename_i empty
        rw [List.isEmpty_iff.mp empty] at computed
        exact ⟨found.1, found.2, rfl, reasons_nil_iff.mp computed⟩
      · cases h
        cases passed
  · rintro ⟨k, job, latest, passing⟩
    refine ⟨{ passed := true, reasons := [] }, db.markEvidence id spec.outputs, ?_, rfl⟩
    refine bind_ok.mpr ⟨spec, valid, ?_⟩
    simp only [latest]
    exact bind_ok.mpr ⟨[], reasons_nil_iff.mpr passing, rfl⟩

/-! ## Rows under further names -/

/-- The two unique constraints of `artifacts`. -/
structure Db.Constrained (db : Db) : Prop where
  version : ∀ {i i' x x'}, db.artifacts.get i = some x → db.artifacts.get i' = some x' →
    x.projectId = x'.projectId → x.logicalName = x'.logicalName → x.version = x'.version → i = i'
  producer : ∀ {i i' x x'}, db.artifacts.get i = some x → db.artifacts.get i' = some x' →
    x.projectId = x'.projectId → x.producerType = x'.producerType →
    x.producerRefId = x'.producerRefId → x.logicalName = x'.logicalName → x.sha256 = x'.sha256 →
    i = i'

/-- Two rows that no constraint sets against each other. -/
def Artifact.Apart (x y : Artifact) : Prop :=
  x.logicalName = y.logicalName → x.version ≠ y.version ∧ x.producerRefId ≠ y.producerRefId

/-- A database to whose artifacts rows of a task were added. -/
structure Db.Extended (db : Db) (id : String) (rows : List Artifact) (db' : Db) : Prop where
  tasks : db'.tasks = db.tasks
  jobs : db'.jobs = db.jobs
  kept : ∀ {i x}, db.artifacts.get i = some x → db'.artifacts.get i = some x
  added : ∀ {i x}, db'.artifacts.get i = some x → db.artifacts.get i = some x ∨ x ∈ rows
  listed : db'.artifactsOf id = db.artifactsOf id ++ rows

/-- One more row. -/
lemma Db.Constrained.exists_withArtifact {db : Db} (cd : db.Constrained) {id : String}
    {x : Artifact} (owner : x.taskId = some id)
    (apart : ∀ {i y}, db.artifacts.get i = some y → x.Apart y) :
    ∃ db', db'.Constrained ∧ db.Extended id [x] db' := by
  obtain ⟨i, new⟩ := Infinite.exists_notMem_finset (db.artifacts.items.map Prod.fst).toFinset
  have absent : db.artifacts.get i = none := by
    by_contra stored
    obtain ⟨y, hy⟩ := Option.ne_none_iff_exists'.mp stored
    exact new (List.mem_toFinset.mpr (db.artifacts.mem_keys.mpr ⟨y, hy⟩))
  have found : ∀ {j y}, (db.artifacts.set i x).get j = some y →
      j ≠ i ∧ db.artifacts.get j = some y ∨ j = i ∧ y = x := by
    intro j y h
    rw [Dict.get_set] at h
    split at h
    · cases h
      exact Or.inr ⟨‹_›, rfl⟩
    · exact Or.inl ⟨‹_›, h⟩
  refine ⟨{ db with artifacts := db.artifacts.set i x }, ⟨?_, ?_⟩, rfl, rfl, ?_, ?_, ?_⟩
  · intro j j' y y' hy hy' project name version
    obtain ⟨_, old⟩ | ⟨rfl, rfl⟩ := found hy <;> obtain ⟨_, old'⟩ | ⟨rfl, rfl⟩ := found hy'
    · exact cd.version old old' project name version
    · exact ((apart old name.symm).1 version.symm).elim
    · exact ((apart old' name).1 version).elim
    · rfl
  · intro j j' y y' hy hy' project type producer name digest
    obtain ⟨_, old⟩ | ⟨rfl, rfl⟩ := found hy <;> obtain ⟨_, old'⟩ | ⟨rfl, rfl⟩ := found hy'
    · exact cd.producer old old' project type producer name digest
    · exact ((apart old name.symm).2 producer.symm).elim
    · exact ((apart old' name).2 producer).elim
    · rfl
  · intro j y hy
    have other : j ≠ i := by
      rintro rfl
      rw [absent] at hy
      cases hy
    exact (Dict.get_set_ne _ _ other).trans hy
  · intro j y hy
    obtain ⟨_, hy⟩ | ⟨_, rfl⟩ := found hy
    · exact Or.inl hy
    · exact Or.inr List.mem_cons_self
  · simp only [artifactsOf, Dict.items_set_of_none absent, List.filter_append, List.map_append,
      List.filter_cons, owner, beq_self_eq_true, if_true, List.filter_nil, List.map_cons,
      List.map_nil]

/-- Rows of a task under different names. -/
lemma Db.Constrained.exists_withArtifacts (id : String) {rows : List Artifact}
    (names : rows.Pairwise fun x y => x.logicalName ≠ y.logicalName) :
    ∀ {db : Db}, db.Constrained → (∀ x ∈ rows, x.taskId = some id) →
      (∀ x ∈ rows, ∀ {i y}, db.artifacts.get i = some y → x.Apart y) →
      ∃ db', db'.Constrained ∧ db.Extended id rows db' := by
  induction rows with
  | nil =>
    intro db cd _ _
    exact ⟨db, cd, rfl, rfl, fun h => h, Or.inl, (List.append_nil _).symm⟩
  | cons x rest ih =>
    intro db cd owner apart
    obtain ⟨different, names⟩ := List.pairwise_cons.mp names
    obtain ⟨db1, cd1, ex1⟩ :=
      cd.exists_withArtifact (owner x List.mem_cons_self) (apart x List.mem_cons_self)
    obtain ⟨db2, cd2, ex2⟩ := ih names cd1 (fun y mem => owner y (List.mem_cons_of_mem _ mem)) <| by
      intro y mem i z hz
      obtain old | new := ex1.added hz
      · exact apart y (List.mem_cons_of_mem _ mem) old
      · intro same
        rw [List.mem_singleton.mp new] at same
        exact (different y mem same.symm).elim
    refine ⟨db2, cd2, ex2.tasks.trans ex1.tasks, ex2.jobs.trans ex1.jobs, ?_, ?_, ?_⟩
    · intro i y hy
      exact ex2.kept (ex1.kept hy)
    · intro i y hy
      obtain old | new := ex2.added hy
      · obtain old | new := ex1.added old
        · exact Or.inl old
        · exact Or.inr (List.mem_cons.mpr (Or.inl (List.mem_singleton.mp new)))
      · exact Or.inr (List.mem_cons_of_mem _ new)
    · rw [ex2.listed, ex1.listed, List.append_assoc]
      rfl

/-- A version, a producer and a path that no artifact has. -/
lemma Db.exists_unused (db : Db) :
    ∃ version producer uri, ∀ {i x}, db.artifacts.get i = some x →
      x.version ≠ version ∧ x.producerRefId ≠ producer ∧ x.uri ≠ uri := by
  obtain ⟨version, v⟩ :=
    Infinite.exists_notMem_finset (db.artifacts.items.map (·.2.version)).toFinset
  obtain ⟨producer, p⟩ :=
    Infinite.exists_notMem_finset (db.artifacts.items.map (·.2.producerRefId)).toFinset
  obtain ⟨uri, u⟩ := Infinite.exists_notMem_finset (db.artifacts.items.map (·.2.uri)).toFinset
  refine ⟨version, producer, uri, ?_⟩
  intro i x hx
  have mem := (Dict.mem_items _).mpr hx
  refine ⟨?_, ?_, ?_⟩
  · rintro rfl
    exact v (List.mem_toFinset.mpr (List.mem_map.mpr ⟨_, mem, rfl⟩))
  · rintro rfl
    exact p (List.mem_toFinset.mpr (List.mem_map.mpr ⟨_, mem, rfl⟩))
  · rintro rfl
    exact u (List.mem_toFinset.mpr (List.mem_map.mpr ⟨_, mem, rfl⟩))

/-! ## States that pass -/

/-- A later row takes the place of the earlier ones of its name. -/
lemma byName_covered (artifacts : List Artifact) {cover : List Artifact} {name : String}
    (named : ∃ y ∈ cover, y.logicalName = name) :
    ∃ x ∈ cover, (byName (artifacts ++ cover)).get name = some x := by
  induction cover using List.reverseRecOn with
  | nil =>
    obtain ⟨y, mem, _⟩ := named
    cases mem
  | append_singleton cover x ih =>
    have last : byName (artifacts ++ (cover ++ [x])) =
        (byName (artifacts ++ cover)).set x.logicalName x := by
      rw [← List.append_assoc]
      exact List.foldl_append
    rw [last]
    by_cases same : name = x.logicalName
    · refine ⟨x, List.mem_append_right _ List.mem_cons_self, ?_⟩
      rw [same]
      exact Dict.get_set_self _ _ _
    · obtain ⟨y, mem, named⟩ := named
      have inCover : y ∈ cover := by
        rcases List.mem_append.mp mem with mem | mem
        · exact mem
        · rw [List.mem_singleton.mp mem] at named
          exact (same named.symm).elim
      obtain ⟨z, memZ, found⟩ := ih ⟨y, inCover, named⟩
      exact ⟨z, List.mem_append_left _ memZ, (Dict.get_set_ne _ _ same).trans found⟩

/-- The check of a required name: some row matches it, and all that do are verified. -/
lemma requiredReason_none_iff {names : Dict String Artifact} {name : String} :
    requiredReason names name = none ↔
      (∃ key x, names.get key = some x ∧ nameMatches name key = true) ∧
        ∀ key x, names.get key = some x → nameMatches name key = true →
          x.integrityStatus = .verified := by
  have found : ∀ {key x}, (key, x) ∈ names.items.filter (fun item => nameMatches name item.1) ↔
      names.get key = some x ∧ nameMatches name key = true := by
    intro key x
    rw [List.mem_filter, Dict.mem_items]
  unfold requiredReason
  simp only
  split
  · rename_i empty
    constructor
    · intro h
      cases h
    · rintro ⟨⟨key, x, hx⟩, _⟩
      have mem := found.mpr hx
      rw [List.isEmpty_iff.mp empty] at mem
      cases mem
  · rename_i nonempty
    obtain ⟨⟨key, x⟩, mem⟩ := List.exists_mem_of_ne_nil _ (mt List.isEmpty_iff.mpr nonempty)
    split
    · rename_i unverified
      constructor
      · intro h
        cases h
      · rintro ⟨_, verified⟩
        obtain ⟨⟨key', x'⟩, mem', bad⟩ := List.any_eq_true.mp unverified
        obtain ⟨stored, matches'⟩ := found.mp mem'
        exact (bne_iff_ne.mp bad (verified key' x' stored matches')).elim
    · rename_i verified
      refine ⟨fun _ => ⟨⟨key, x, found.mp mem⟩, ?_⟩, fun _ => rfl⟩
      intro key' x' stored matches'
      by_contra bad
      apply verified
      exact List.any_eq_true.mpr ⟨(key', x'), found.mpr ⟨stored, matches'⟩, bne_iff_ne.mpr bad⟩

/-- Verified rows under every name make up for whatever else there is. -/
lemma requiredReason_covered {artifacts cover : List Artifact}
    (verified : ∀ y ∈ cover, y.integrityStatus = .verified)
    (covers : ∀ x ∈ artifacts, ∃ y ∈ cover, y.logicalName = x.logicalName) {name : String}
    (named : ∃ y ∈ cover, y.logicalName = name) :
    requiredReason (byName (artifacts ++ cover)) name = none := by
  apply requiredReason_none_iff.mpr
  constructor
  · obtain ⟨x, _, found⟩ := byName_covered artifacts named
    exact ⟨name, x, found, nameMatches_self name⟩
  · intro key x stored _
    obtain ⟨mem, named⟩ := byName_get stored
    have covered : ∃ y ∈ cover, y.logicalName = key := by
      rw [← named]
      rcases List.mem_append.mp mem with mem | mem
      · exact covers x mem
      · exact ⟨x, mem, rfl⟩
    obtain ⟨y, memY, found⟩ := byName_covered artifacts covered
    cases stored.symm.trans found
    exact verified x memY

/-- A verified metrics file of a producer that is no job. -/
def coverArtifact (projectId id : String) (version : Nat) (producer uri name : String) : Artifact :=
  { projectId := projectId, taskId := some id, kind := "METRICS", logicalName := name,
    version := version, uri := uri, sizeBytes := 2, sha256 := "", producerType := "USER",
    producerRefId := producer, integrityStatus := .verified, evidenceEligible := false }

/-- A cover for the required names and for the names of the artifacts that are there. -/
def coverRows (projectId id : String) (version : Nat) (producer uri : String) (names : List String)
    (artifacts : List Artifact) : List Artifact :=
  (names ++ artifacts.map (·.logicalName)).dedup.map
    (coverArtifact projectId id version producer uri)

section

variable {projectId id producer uri name : String} {version : ℕ} {names : List String}
  {artifacts : List Artifact} {x : Artifact}

lemma shape_coverRows (mem : x ∈ coverRows projectId id version producer uri names artifacts) :
    ∃ name, coverArtifact projectId id version producer uri name = x := by
  obtain ⟨name, _, e⟩ := List.mem_map.mp mem
  exact ⟨name, e⟩

/-- The cover has every name. -/
lemma named_coverRows (known : name ∈ names ∨ ∃ x ∈ artifacts, x.logicalName = name) :
    ∃ y ∈ coverRows projectId id version producer uri names artifacts, y.logicalName = name := by
  refine ⟨_, List.mem_map.mpr ⟨name, ?_, rfl⟩, rfl⟩
  rw [List.mem_dedup, List.mem_append, List.mem_map]
  exact known

/-- The cover has every name once. -/
lemma pairwise_coverRows :
    (coverRows projectId id version producer uri names artifacts).Pairwise fun x y =>
      x.logicalName ≠ y.logicalName := by
  unfold coverRows
  rw [List.pairwise_map]
  exact List.nodup_dedup _

lemma metricsArtifacts_coverRows :
    metricsArtifacts (coverRows projectId id version producer uri names artifacts) =
      coverRows projectId id version producer uri names artifacts := by
  apply List.filter_eq_self.mpr
  intro x mem
  obtain ⟨_, rfl⟩ := shape_coverRows mem
  rfl

end

/-- A file system with an empty JSON object under one path. -/
def withObject (readFile : String → FileContent) (uri : String) : String → FileContent :=
  fun path => if path = uri then .bytes [0x7b, 0x7d] else readFile path

lemma metricsArtifacts_append (artifacts rows : List Artifact) :
    metricsArtifacts (artifacts ++ rows) = metricsArtifacts artifacts ++ metricsArtifacts rows :=
  List.filter_append ..

/-- Where nothing of the task's own stands against it, some state with the same job passes. -/
lemma TaskValidator.exists_passing {v : TaskValidator} (object : v.loads "{}" = .ok (.dict []))
    {db : Db} (cd : db.Constrained) (projectId id : String) {spec : ComputeTaskSpec}
    {policy : JsonObject} {job : ComputeJob} (readable : policy.Readable)
    (noJob : jobReasons spec.success job = [])
    (metrics : wantsMetrics spec.success policy = true → ∀ x ∈ metricsArtifacts (db.artifactsOf id),
      v.metricReason (wantsFinite spec.success policy) x = .ok []) :
    ∃ readFile rows db',
      (∀ {i x}, db.artifacts.get i = some x → readFile x.uri = v.readFile x.uri) ∧
      (∀ x ∈ rows, x.producerType ≠ "COMPUTE_JOB") ∧ db'.Constrained ∧ db.Extended id rows db' ∧
      TaskValidator.Passing { v with readFile := readFile } spec policy job
        (db'.artifactsOf id) := by
  obtain ⟨version, producer, uri, unused⟩ := db.exists_unused
  obtain ⟨names, listed⟩ := requiredNames_total_iff.mpr ⟨readable.required, readable.names⟩
  let rows := coverRows projectId id version producer uri names (db.artifactsOf id)
  have covers : ∀ {name}, (name ∈ names ∨ ∃ x ∈ db.artifactsOf id, x.logicalName = name) →
      ∃ y ∈ rows, y.logicalName = name := named_coverRows
  have different : rows.Pairwise fun x y => x.logicalName ≠ y.logicalName := pairwise_coverRows
  obtain ⟨db', cd', ex⟩ := Db.Constrained.exists_withArtifacts id different cd
    (by
      intro x mem
      obtain ⟨_, rfl⟩ := shape_coverRows mem
      rfl)
    (by
      intro x mem i y hy _
      obtain ⟨_, rfl⟩ := shape_coverRows mem
      obtain ⟨otherVersion, otherProducer, _⟩ := unused hy
      exact ⟨otherVersion.symm, otherProducer.symm⟩)
  have sameFiles : ∀ {i x}, db.artifacts.get i = some x →
      withObject v.readFile uri x.uri = v.readFile x.uri := by
    intro i x hx
    exact if_neg (unused hx).2.2
  refine ⟨withObject v.readFile uri, rows, db', sameFiles, ?_, cd', ex, readable, noJob, ?_, ?_⟩
  · intro x mem
    obtain ⟨_, rfl⟩ := shape_coverRows mem
    show "USER" ≠ "COMPUTE_JOB"
    decide
  · intro name required
    rw [ex.listed]
    refine requiredReason_covered ?_ (fun x mem => covers (Or.inr ⟨x, mem, rfl⟩))
      (covers (Or.inl (mem_requiredNames listed required)))
    intro y mem
    obtain ⟨_, rfl⟩ := shape_coverRows mem
    rfl
  · intro wanted
    have own : metricsArtifacts rows = rows := metricsArtifacts_coverRows
    rw [ex.listed]
    constructor
    · rw [metricsArtifacts_append, own]
      obtain ⟨y, mem, _⟩ := covers (Or.inl (mem_requiredNames listed
        (Or.inr (Or.inr (List.mem_cons_self (a := "run.out"))))))
      exact List.append_ne_nil_of_right_ne_nil _ (List.ne_nil_of_mem mem)
    · rw [metricsArtifacts_append, own]
      intro x mem
      rcases List.mem_append.mp mem with mem | mem
      · obtain ⟨i, stored, _⟩ := Db.mem_artifactsOf.mp (List.mem_filter.mp mem).1
        have fine := metrics wanted x mem
        simp only [TaskValidator.metricReason, sameFiles stored]
        exact fine
      · -- the file of a row of the cover is an empty object, which has no numbers
        obtain ⟨name, rfl⟩ := shape_coverRows mem
        have parses : TaskValidator.Parses { v with readFile := withObject v.readFile uri }
            (coverArtifact projectId id version producer uri name) (.dict []) :=
          ⟨[0x7b, 0x7d], "{}", if_pos rfl, by decide, object⟩
        exact metricReason_nil_iff.mpr ⟨.dict [], parses, fun _ => rfl⟩

/-! ## A job that succeeded and what it left behind -/

/-- A job that succeeded, with an exit code of its own. -/
def passedJob (id : String) (spec : ComputeTaskSpec) (exitCode : Int) : ComputeJob :=
  { projectId := "p", taskId := id, providerId := "local", resourceClass := "local_cpu",
    submissionKey := "s", attemptNo := 1, remoteWorkdir := "/w", executionStatus := .succeeded,
    exitCode := some exitCode, specJson := spec }

/-- A file that the run of a job left behind. -/
def leftBehind (k name : String) : Artifact :=
  { projectId := "p", taskId := some "t", kind := "LOG", logicalName := name, version := 1,
    uri := name, sizeBytes := 0, sha256 := name, producerType := "COMPUTE_JOB",
    producerRefId := k, integrityStatus := .verified, evidenceEligible := false }

end ResearchController
