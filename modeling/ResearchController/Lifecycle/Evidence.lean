import ResearchController.Artifacts.Produced
import ResearchController.Lifecycle.Trust

/-!
# Which artifacts become evidence

`collect` records in the metadata of an artifact whether its output is an evidence candidate.
`validate_compute_task` does not read that value: it marks the artifacts whose name is the one of an
evidence output, or begins with it and a colon. An artifact that was recorded as evidence is always
marked. The other direction fails where a name is claimed twice: by an output of the same name, by
an output whose name begins with the name of an evidence output and a colon, or by an evidence
output that is named like a fixed file.

`evidence_exact_iff` is the exact condition on the outputs and the working directories.
-/

namespace ResearchController
open Lib

/-- What is stored for a working directory: of the fixed files and the first matches of every file,
    the first one of each name and content. -/
def Workdir.recorded (files : Workdir) (workdir : String) (outputs : List OutputSpec) :
    List ArtifactCandidate :=
  firsts files.content [] (files.collected workdir outputs)

/-- No file that is stored without the flag has the name of an evidence output, or a name that
    begins with it and a colon. -/
def Workdir.Separates (files : Workdir) (workdir : String) (outputs : List OutputSpec) : Prop :=
  ∀ candidate ∈ files.recorded workdir outputs, candidate.evidenceCandidate = false →
    ∀ output ∈ outputs, output.evidenceCandidate = true →
      nameMatches output.logicalName candidate.logicalName = false

instance (files : Workdir) (workdir : String) (outputs : List OutputSpec) :
    Decidable (files.Separates workdir outputs) :=
  inferInstanceAs (Decidable (∀ candidate ∈ files.recorded workdir outputs,
    candidate.evidenceCandidate = false → ∀ output ∈ outputs, output.evidenceCandidate = true →
      nameMatches output.logicalName candidate.logicalName = false))

/-- `metadata_json["evidence_candidate"]`. -/
def Artifact.evidenceCandidate (x : Artifact) : Option Bool :=
  match x.metadataJson.get "evidence_candidate" with
  | some (.bool b) => some b
  | _ => none

/-- The jobs of a task are collected one after the other, and their candidates are ingested. -/
inductive CollectsEach (r : ReconcilerSetup) (outputs : List OutputSpec) :
    Db → List ComputeJobView → Db → Prop where
  | nil {db} :
    CollectsEach r outputs db [] db
  | cons {db db1 db2 view views candidates} :
    (r.files view.remoteWorkdir).prepared = .ok outputs →
    LocalProvider.collect (r.files view.remoteWorkdir) view = .ok candidates →
    IngestsEach r view db candidates db1 →
    CollectsEach r outputs db1 views db2 →
    CollectsEach r outputs db (view :: views) db2

variable {r : ReconcilerSetup} {outputs : List OutputSpec}

/-! ## Names -/

lemma nameMatches_colon (name suffix : String) :
    nameMatches name (name ++ ":" ++ suffix) = true := by
  simp [nameMatches, startsWith]

lemma OutputSpec.nameMatches_matchName (output : OutputSpec) (count index : Nat) (path : String) :
    nameMatches output.logicalName (output.matchName count index path) = true := by
  unfold matchName
  generalize toString index = number
  generalize fileName path = file
  split
  · have parts : output.logicalName ++ ":" ++ number ++ ":" ++ file =
        output.logicalName ++ ":" ++ (number ++ ":" ++ file) := by
      simp only [String.append_assoc]
    rw [parts]
    exact nameMatches_colon output.logicalName (number ++ ":" ++ file)
  · exact nameMatches_self output.logicalName

/-- A collected evidence candidate has the name of an evidence output. -/
lemma Workdir.collected_evidence (files : Workdir) (workdir : String)
    {candidate : ArtifactCandidate} (mem : candidate ∈ files.collected workdir outputs)
    (evidence : candidate.evidenceCandidate = true) :
    ∃ output ∈ outputs, output.evidenceCandidate = true ∧
      nameMatches output.logicalName candidate.logicalName = true := by
  rcases List.mem_append.mp mem with fixed | first
  · obtain ⟨⟨item, _, rfl⟩, _⟩ := List.mem_filter.mp fixed |>.imp List.mem_map.mp id
    cases evidence
  · have offered : candidate ∈ files.offered outputs := mem_of_mem_firsts first
    obtain ⟨output, memOutput, found⟩ := List.mem_flatMap.mp offered
    cases matches' : files.glob output.glob with
    | error e =>
      simp only [matches'] at found
      cases found
    | ok paths =>
      simp only [matches'] at found
      obtain ⟨⟨path, index⟩, _, rfl⟩ := List.mem_map.mp found
      exact ⟨output, memOutput, evidence, output.nameMatches_matchName _ _ _⟩

lemma isEvidence_iff {x : Artifact} : isEvidence outputs x = true ↔
    ∃ output ∈ outputs, output.evidenceCandidate = true ∧
      nameMatches output.logicalName x.logicalName = true := by
  simp [isEvidence]

/-! ## The stored rows -/

/-- What is stored after the jobs of a task have been collected: the rows that were there, and a row
    for every file that is to be recorded. -/
lemma CollectsEach.rows {db db' : Db} {views : List ComputeJobView}
    (h : CollectsEach r outputs db views db') (distinct : views.Pairwise (·.id ≠ ·.id))
    (fresh : ∀ view ∈ views, db.contents view = []) :
    (∀ item ∈ db.artifacts.items, item ∈ db'.artifacts.items) ∧
      (∀ item ∈ db'.artifacts.items, item ∈ db.artifacts.items ∨
        ∃ view ∈ views, ∃ candidate ∈ (r.files view.remoteWorkdir).recorded view.remoteWorkdir
          outputs, r.StoredAs view candidate item) ∧
      ∀ view ∈ views, ∀ candidate ∈ (r.files view.remoteWorkdir).recorded view.remoteWorkdir
        outputs, ∃ item ∈ db'.artifacts.items, r.StoredAs view candidate item := by
  induction h with
  | nil =>
    refine ⟨fun _ mem => mem, fun _ mem => Or.inl mem, ?_⟩
    intro view mem
    cases mem
  | @cons db db1 db2 view views candidates prepared collected ingests _ ih =>
    obtain ⟨others, distinct⟩ := List.pairwise_cons.mp distinct
    obtain ⟨added, items, stored⟩ := ingests.items
    have recorded : firsts (r.files view.remoteWorkdir).content (db.contents view) candidates =
        (r.files view.remoteWorkdir).recorded view.remoteWorkdir outputs := by
      obtain ⟨outputs', prepared', _, rfl⟩ := LocalProvider.collect_ok.mp collected
      rw [prepared] at prepared'
      cases prepared'
      rw [fresh view List.mem_cons_self]
      rfl
    rw [recorded] at stored
    have untouched : ∀ view' ∈ views, db1.contents view' = [] := by
      intro view' mem
      unfold Db.contents
      rw [Db.produced_append items, List.filter_eq_nil_iff.mpr, List.append_nil]
      · exact fresh view' (List.mem_cons_of_mem _ mem)
      · intro item memItem
        obtain ⟨candidate, _, row⟩ := exists_left_of_forall₂ stored memItem
        rw [row.other (others view' mem)]
        decide
    obtain ⟨kept, origin, has⟩ := ih distinct untouched
    refine ⟨?_, ?_, ?_⟩
    · intro item mem
      apply kept
      rw [items]
      exact List.mem_append_left _ mem
    · intro item mem
      rcases origin item mem with before | ⟨view', memView, rest⟩
      · rw [items] at before
        rcases List.mem_append.mp before with old | new
        · exact Or.inl old
        · obtain ⟨candidate, memC, row⟩ := exists_left_of_forall₂ stored new
          exact Or.inr ⟨view, List.mem_cons_self, candidate, memC, row⟩
      · exact Or.inr ⟨view', List.mem_cons_of_mem _ memView, rest⟩
    · intro view' mem candidate memC
      rcases List.mem_cons.mp mem with rfl | mem
      · obtain ⟨item, new, row⟩ := exists_right_of_forall₂ stored memC
        refine ⟨item, kept item ?_, row⟩
        rw [items]
        exact List.mem_append_right _ new
      · exact has view' mem candidate memC

/-- The flag that is recorded with a stored candidate. -/
lemma ReconcilerSetup.StoredAs.flag {view : ComputeJobView} {candidate : ArtifactCandidate}
    {item : String × Artifact} (h : r.StoredAs view candidate item) :
    item.2.evidenceCandidate = some candidate.evidenceCandidate := by
  obtain ⟨version, e⟩ := h
  have metadata : item.2.metadataJson.get "evidence_candidate" =
      some (.bool candidate.evidenceCandidate) := by
    rw [e]
    show (candidate.metadata.set "evidence_candidate" (.bool candidate.evidenceCandidate)).get
      "evidence_candidate" = _
    rw [JsonObject.get_set, if_pos rfl]
  simp only [Artifact.evidenceCandidate, metadata]

/-- A stored candidate is no evidence before the validation, and becomes evidence by its name. -/
lemma ReconcilerSetup.StoredAs.marked {view : ComputeJobView} {candidate : ArtifactCandidate}
    {item : String × Artifact} (h : r.StoredAs view candidate item) :
    (item.2.marked view.taskId outputs).evidenceEligible = true ↔
      ∃ output ∈ outputs, output.evidenceCandidate = true ∧
        nameMatches output.logicalName candidate.logicalName = true := by
  obtain ⟨version, e⟩ := h
  have name : item.2.logicalName = candidate.logicalName := by rw [e]; rfl
  have owner : item.2.taskId = some view.taskId := by rw [e]; rfl
  have before : item.2.evidenceEligible = false := by rw [e]; rfl
  have claimed : isEvidence outputs item.2 = true ↔ _ := isEvidence_iff
  rw [name] at claimed
  rw [← claimed]
  unfold Artifact.marked
  rw [owner, beq_self_eq_true, Bool.true_and]
  split
  · rename_i marked
    exact ⟨fun _ => marked, fun _ => rfl⟩
  · rename_i unmarked
    rw [before]
    constructor
    · intro no
      cases no
    · exact fun marked => (unmarked marked).elim

/-- A passed validation has marked the artifacts of the task. -/
lemma TaskValidator.validateComputeTask_passed {v : TaskValidator} {db db' : Db} {taskId : String}
    {task : Task} {spec : ComputeTaskSpec} {result : ValidationResult}
    (valid : v.modelValidate task.specJson = .ok spec)
    (validated : v.validateComputeTask db taskId task = .ok (result, db'))
    (passed : result.passed = true) : db' = db.markEvidence taskId spec.outputs := by
  obtain ⟨spec', valid', ⟨refused, _⟩ | ⟨_, marked, _⟩⟩ := validateComputeTask_ok validated
  · rw [passed] at refused
    cases refused
  · rw [valid] at valid'
    cases valid'
    exact marked

/-! ## Exact marking -/

/-- After the jobs of a task have been collected and the task has passed its validation, the
    artifacts of the task that are evidence are those recorded as evidence candidates, if and only
    if in every working directory the names of the other files are separate from those of the
    evidence outputs. -/
theorem evidence_exact_iff {r : ReconcilerSetup} {v : TaskValidator} {db0 db1 db2 : Db}
    {taskId : String} {task : Task} {spec : ComputeTaskSpec} {views : List ComputeJobView}
    {result : ValidationResult}
    (fresh : ∀ i x, db0.artifacts.get i = some x →
      x.taskId ≠ some taskId ∧ ∀ view ∈ views, x.producedBy view = false)
    (owners : ∀ view ∈ views, view.taskId = taskId)
    (distinct : views.Pairwise (·.id ≠ ·.id))
    (valid : v.modelValidate task.specJson = .ok spec)
    (collected : CollectsEach r spec.outputs db0 views db1)
    (validated : v.validateComputeTask db1 taskId task = .ok (result, db2))
    (passed : result.passed = true) :
    (∀ i x, db2.artifacts.get i = some x → x.taskId = some taskId →
        (x.evidenceEligible = true ↔ x.evidenceCandidate = some true)) ↔
      ∀ view ∈ views,
        (r.files view.remoteWorkdir).Separates view.remoteWorkdir spec.outputs := by
  have nothing : ∀ view ∈ views, db0.contents view = [] := by
    intro view mem
    unfold Db.contents Db.produced
    rw [List.filter_eq_nil_iff.mpr, List.map_nil]
    rintro ⟨i, x⟩ item
    rw [(fresh i x ((Dict.mem_items _).mp item)).2 view mem]
    decide
  obtain ⟨_, origin, has⟩ := collected.rows distinct nothing
  rw [TaskValidator.validateComputeTask_passed valid validated passed]
  have get : ∀ i, (db1.markEvidence taskId spec.outputs).artifacts.get i =
      (db1.artifacts.get i).map (·.marked taskId spec.outputs) :=
    fun i => Dict.get_mapValues _ _ _
  have recorded : ∀ x : Artifact,
      (x.marked taskId spec.outputs).evidenceCandidate = x.evidenceCandidate := by
    intro x
    unfold Artifact.marked
    split <;> rfl
  constructor
  · intro exact_marks view memView candidate memC plain output memOutput evidence
    obtain ⟨⟨i, x⟩, item, row⟩ := has view memView candidate memC
    have hx := (Dict.mem_items _).mp item
    have owner : x.taskId = some taskId := by
      obtain ⟨version, e⟩ := row
      rw [show x = _ from e, ← owners view memView]
      rfl
    have marks := exact_marks i (x.marked taskId spec.outputs) (by rw [get, hx]; rfl)
      (by rw [Artifact.marked_taskId]; exact owner)
    rw [recorded, row.flag, plain, ← owners view memView, row.marked] at marks
    by_contra claimed
    rw [Bool.not_eq_false] at claimed
    cases marks.mp ⟨output, memOutput, evidence, claimed⟩
  · intro separate i x' hx' owner
    rw [get] at hx'
    obtain ⟨x, hx, rfl⟩ := Option.map_eq_some_iff.mp hx'
    rw [Artifact.marked_taskId] at owner
    rw [recorded]
    rcases origin (i, x) ((Dict.mem_items _).mpr hx) with
      old | ⟨view, memView, candidate, memC, row⟩
    · exact ((fresh i x ((Dict.mem_items _).mp old)).1 owner).elim
    · rw [row.flag, ← owners view memView, row.marked]
      cases flag : candidate.evidenceCandidate with
      | true =>
        refine ⟨fun _ => rfl, fun _ => ?_⟩
        exact Workdir.collected_evidence (r.files view.remoteWorkdir) view.remoteWorkdir
          (mem_of_mem_firsts memC) flag
      | false =>
        constructor
        · rintro ⟨output, memOutput, evidence, claimed⟩
          rw [separate view memView candidate memC flag output memOutput evidence] at claimed
          cases claimed
        · intro no
          cases no

/-! ## A name that is claimed twice -/

/-- A spec with an evidence output `a` and another output. -/
def twoOutputs (other : String) : ComputeTaskSpec :=
  { projectId := "p", taskId := "t", submissionKey := "s", execution := { command := ["train"] },
    resources := {},
    outputs := [
      { logicalName := "a", glob := "1", artifactKind := "FILE", evidenceCandidate := true },
      { logicalName := other, glob := "2", artifactKind := "FILE" } ] }

/-- A working directory with the fixed files and one match for each output. -/
def twoFiles (other : String) : Workdir :=
  { prepared := .ok (twoOutputs other).outputs, present := fun _ => true, isFile := fun _ => true,
    resolve := id, glob := fun pattern => .ok [pattern], digest := id, size := fun _ => 1 }

/-- The reconciler over this working directory. -/
def twoSetup (other : String) : ReconcilerSetup :=
  { registered := fun _ => true, collect := fun _ => .ok [], poll := fun _ => .error (.ioError ""),
    workspaceRoot := "", files := fun _ => twoFiles other, pollInterval := 1 }

/-- The job that has produced it. -/
def finishedJob (other : String) : ComputeJob :=
  { projectId := "p", taskId := "t", providerId := "local", resourceClass := "local_cpu",
    submissionKey := "s", attemptNo := 1, remoteWorkdir := "/w", specJson := twoOutputs other,
    executionStatus := .succeeded, exitCode := some 0 }

/-- Its task, which is to be verified. -/
def finishedTask : Task :=
  { projectId := "p", executor := .compute, status := .verifying, specJson := .null,
    idempotencyKey := "t", createdAt := 0 }

/-- The database with this task and its job. -/
def finishedDb (other : String) : Db :=
  { projects := Dict.empty.set "p" { slug := "p" }, tasks := Dict.empty.set "t" finishedTask,
    jobs := Dict.empty.set "j" (finishedJob other) }

/-- The validator. -/
def twoValidator (other : String) : TaskValidator :=
  { modelValidate := fun _ => .ok (twoOutputs other), readFile := fun _ => .bytes [],
    loads := fun _ => .error (.jsonDecodeError ""), frames := 0 }

/-- The job is collected, and its task passes the validation. -/
def collectAndValidate (other : String) : Except PyErr (Db × ValidationResult × Db) := do
  let view := (finishedJob other).view "j"
  let candidates ← LocalProvider.collect (twoFiles other) view
  let db1 ← (twoSetup other).ingestAll view (finishedDb other)
    (candidates.zip ["1", "2", "3", "4", "5", "6"])
  let (result, db2) ← (twoValidator other).validateComputeTask db1 "t" finishedTask
  return (db1, result, db2)

/-- What the run above is a case of. -/
lemma collectAndValidate_ok {other : String} {db1 db2 : Db} {result : ValidationResult}
    (h : collectAndValidate other = .ok (db1, result, db2)) :
    CollectsEach (twoSetup other) (twoOutputs other).outputs (finishedDb other)
        [(finishedJob other).view "j"] db1 ∧
      (twoValidator other).validateComputeTask db1 "t" finishedTask = .ok (result, db2) := by
  obtain ⟨candidates, collected, h⟩ := bind_ok.mp h
  obtain ⟨db, ingested, h⟩ := bind_ok.mp h
  obtain ⟨⟨result', db'⟩, validated, e⟩ := bind_ok.mp h
  cases e
  have six : candidates.length = 6 := by
    have length : (LocalProvider.collect (twoFiles other) ((finishedJob other).view "j")).map
        List.length = .ok 6 := rfl
    rw [collected] at length
    exact Except.ok.inj length
  refine ⟨.cons rfl collected ?_ .nil, validated⟩
  have each := ReconcilerSetup.ingestAll_ok ingested
  rwa [List.map_fst_zip (by rw [six]; rfl)] at each

lemma finishedDb_fresh (other : String) (i : String) (x : Artifact)
    (hx : (finishedDb other).artifacts.get i = some x) :
    x.taskId ≠ some "t" ∧
      ∀ view ∈ [(finishedJob other).view "j"], x.producedBy view = false := by
  cases hx

/-- An output `a:b` without the flag becomes evidence next to an evidence output `a`. -/
theorem evidence_not_exact :
    ¬ ∀ (r : ReconcilerSetup) (v : TaskValidator) (db0 db1 db2 : Db) (taskId : String) (task : Task)
        (spec : ComputeTaskSpec) (views : List ComputeJobView) (result : ValidationResult),
        (∀ i x, db0.artifacts.get i = some x →
          x.taskId ≠ some taskId ∧ ∀ view ∈ views, x.producedBy view = false) →
        (∀ view ∈ views, view.taskId = taskId) → views.Pairwise (·.id ≠ ·.id) →
        v.modelValidate task.specJson = .ok spec → CollectsEach r spec.outputs db0 views db1 →
        v.validateComputeTask db1 taskId task = .ok (result, db2) → result.passed = true →
        ∀ i x, db2.artifacts.get i = some x → x.taskId = some taskId →
          (x.evidenceEligible = true ↔ x.evidenceCandidate = some true) := by
  intro exact_marks
  have marked : (collectAndValidate "a:b").toOption.map (fun s =>
      (s.2.1.passed, (s.2.2.artifacts.get "6").map fun x =>
        (x.taskId, x.evidenceEligible, x.evidenceCandidate))) =
      some (true, some (some "t", true, some false)) := by decide
  cases run : collectAndValidate "a:b" with
  | error e =>
    rw [run] at marked
    cases marked
  | ok s =>
    obtain ⟨db1, result, db2⟩ := s
    rw [run] at marked
    obtain ⟨passed, sixth⟩ := Prod.mk.inj (Option.some.inj marked)
    obtain ⟨x, hx, columns⟩ := Option.map_eq_some_iff.mp sixth
    obtain ⟨owner, columns⟩ := Prod.mk.inj columns
    obtain ⟨eligible, recorded⟩ := Prod.mk.inj columns
    obtain ⟨collects, validated⟩ := collectAndValidate_ok run
    have claimed := exact_marks _ (twoValidator "a:b") _ _ _ "t" finishedTask (twoOutputs "a:b") _
      result (finishedDb_fresh "a:b") (by decide) (List.pairwise_singleton _ _) rfl collects
      validated passed "6" x hx owner
    rw [recorded] at claimed
    cases claimed.mp eligible

/-- With an output `c` instead, the evidence is exactly what was recorded as a candidate. -/
theorem evidence_exact_iff_separate :
    ∃ db1 result db2, collectAndValidate "c" = .ok (db1, result, db2) ∧
      ∀ i x, db2.artifacts.get i = some x → x.taskId = some "t" →
        (x.evidenceEligible = true ↔ x.evidenceCandidate = some true) := by
  have done : (collectAndValidate "c").toOption.map (fun s => s.2.1.passed) = some true := by decide
  cases run : collectAndValidate "c" with
  | error e =>
    rw [run] at done
    cases done
  | ok s =>
    obtain ⟨db1, result, db2⟩ := s
    rw [run] at done
    obtain ⟨collects, validated⟩ := collectAndValidate_ok run
    refine ⟨db1, result, db2, rfl, ?_⟩
    refine (evidence_exact_iff (finishedDb_fresh "c") (by decide) (List.pairwise_singleton _ _) rfl
      collects validated (Option.some.inj done)).mpr ?_
    decide

end ResearchController
