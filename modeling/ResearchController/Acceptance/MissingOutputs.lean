import ResearchController.Acceptance.Passing
import ResearchController.Lifecycle.Evidence

/-!
# Missing outputs

`collect` gives each file to the first output that matches it, and the four fixed files to none;
`validate_compute_task` looks for an artifact that has the name of a required output, or this name
followed by a colon. So an output may be reported as missing although its pattern matches a file,
and a file of another output may stand in for it. `missing_output_iff` says when an output is
reported as missing, and that this is the case without a match exactly where neither happens.
-/

namespace ResearchController
open Lib

/-- The reason for a required name without an artifact. -/
def missingReason (name : String) : String :=
  s!"required artifact missing: {name}"

/-- A pattern matches a regular file. -/
def Workdir.Matches (files : Workdir) (glob : String) : Prop :=
  ∃ found path, files.glob glob = .ok found ∧ path ∈ found ∧ files.isFile path = true

/-- The file of a candidate has been collected before: it is a fixed file, or one of `before`. -/
def Workdir.Taken (files : Workdir) (workdir : String) (before : List ArtifactCandidate)
    (candidate : ArtifactCandidate) : Prop :=
  ∃ earlier ∈ files.fixed workdir ++ before, files.target earlier = files.target candidate

/-- Nothing is collected under a name that stands for `name`: not one of the fixed files, and every
    match under such a name is a file that has been collected before. -/
structure Workdir.Uncollected (files : Workdir) (workdir : String) (outputs : List OutputSpec)
    (name : String) : Prop where
  fixed : ∀ candidate ∈ files.fixed workdir, nameMatches name candidate.logicalName = false
  taken : ∀ before candidate after, files.offered outputs = before ++ candidate :: after →
    nameMatches name candidate.logicalName = true → files.Taken workdir before candidate

/-- Neither a fixed file nor a file that one of `others` matches gets a name that stands for
    `name`. -/
def Workdir.Unnamed (files : Workdir) (workdir : String) (others : List OutputSpec)
    (name : String) : Prop :=
  ∀ candidate ∈ files.fixed workdir ++ files.offered others,
    nameMatches name candidate.logicalName = false

/-! ## The reasons -/

/-- A letter of a text stays where it is if something is appended. -/
lemma letter_append {s : String} {i : ℕ} {c : Char} (h : s.toList[i]? = some c) (t : String) :
    (s ++ t).toList[i]? = some c := by
  obtain ⟨bound, _⟩ := List.getElem?_eq_some_iff.mp h
  rw [String.toList_append, List.getElem?_append_left bound, h]

/-- A text with another first letter. -/
lemma missingReason_ne {name text : String} {c : Char} (letter : text.toList[0]? = some c)
    (other : c ≠ 'r') : missingReason name ≠ text := by
  intro e
  have first : (missingReason name).toList[0]? = some 'r' := letter_append (by decide) _
  rw [e, letter] at first
  exact other (Option.some.inj first)

/-- A name that is missing is not unverified. -/
lemma missingReason_unverified (name other : String) :
    s!"required artifact is not verified: {other}" ≠ missingReason name := by
  intro e
  have letter : s!"required artifact is not verified: {other}".toList[18]? = some 'i' :=
    letter_append (by decide) _
  have letter' : (missingReason name).toList[18]? = some 'm' := letter_append (by decide) _
  rw [e, letter'] at letter
  cases letter

/-- A name is missing if no artifact has a name that stands for it. -/
lemma requiredReason_missing_iff {artifacts : List Artifact} {name : String} :
    requiredReason (byName artifacts) name = some (missingReason name) ↔
      ∀ x ∈ artifacts, nameMatches name x.logicalName = false := by
  unfold requiredReason
  simp only
  split
  · rename_i empty
    refine ⟨fun _ x mem => ?_, fun _ => rfl⟩
    obtain ⟨y, _, found⟩ := byName_covered [] ⟨x, mem, rfl⟩
    by_contra stands
    have item : (x.logicalName, y) ∈ (byName artifacts).items.filter fun item =>
        nameMatches name item.1 :=
      List.mem_filter.mpr ⟨(Dict.mem_items _).mpr found, Bool.of_not_eq_false stands⟩
    rw [List.isEmpty_iff.mp empty] at item
    cases item
  · rename_i nonempty
    obtain ⟨⟨key, x⟩, mem⟩ := List.exists_mem_of_ne_nil _ (mt List.isEmpty_iff.mpr nonempty)
    obtain ⟨item, stands⟩ := List.mem_filter.mp mem
    obtain ⟨memX, named⟩ := byName_get ((Dict.mem_items _).mp item)
    have found : ¬ ∀ x ∈ artifacts, nameMatches name x.logicalName = false := by
      intro none
      rw [← named, none x memX] at stands
      cases stands
    refine iff_of_false ?_ found
    intro missing
    split at missing
    · exact missingReason_unverified name name (Option.some.inj missing)
    · cases missing

/-- The reason for another name is another one. -/
lemma eq_of_requiredReason {names : Dict String Artifact} {name name' : String}
    (h : requiredReason names name' = some (missingReason name)) : name' = name := by
  unfold requiredReason at h
  simp only at h
  split at h
  · exact (String.append_right_inj _).mp (Option.some.inj h)
  · split at h
    · exact (missingReason_unverified name name' (Option.some.inj h)).elim
    · cases h

lemma missingReason_job (name : String) (success : SuccessSpec) (job : ComputeJob) :
    missingReason name ∉ jobReasons success job := by
  have exit : s!"exit code is {reprExitCode job.exitCode}, expected 0".toList[0]? = some 'e' :=
    letter_append (letter_append (by decide) _) _
  have status : s!"compute job terminal status is {job.executionStatus.value}".toList[0]? =
      some 'c' := letter_append (by decide) _
  unfold jobReasons
  rw [List.mem_append, not_or]
  constructor
  · split
    · rw [List.mem_singleton]
      exact missingReason_ne exit (by decide)
    · exact List.not_mem_nil
  · split
    · rw [List.mem_singleton]
      exact missingReason_ne status (by decide)
    · exact List.not_mem_nil

lemma missingReason_metric {v : TaskValidator} {noNan : Bool} {x : Artifact}
    {reasons : List String} (h : v.metricReason noNan x = .ok reasons) (name : String) :
    missingReason name ∉ reasons := by
  have invalid : ∀ msg : String,
      s!"invalid metrics JSON {x.logicalName}: {msg}".toList[0]? = some 'i' :=
    fun msg => letter_append (letter_append (letter_append (by decide) _) _) _
  have nonfinite : s!"non-finite metric in {x.logicalName}".toList[0]? = some 'n' :=
    letter_append (by decide) _
  simp only [TaskValidator.metricReason] at h
  split at h
  · cases h
    rw [List.mem_singleton]
    exact missingReason_ne (invalid _) (by decide)
  · split at h
    · cases h
    · split at h
      · cases h
        rw [List.mem_singleton]
        exact missingReason_ne (invalid _) (by decide)
      · cases h
      · split at h
        · obtain ⟨found, _, h⟩ := bind_ok.mp h
          cases h
          split
          · rw [List.mem_singleton]
            exact missingReason_ne nonfinite (by decide)
          · exact List.not_mem_nil
        · cases h
          exact List.not_mem_nil

lemma missingReason_metrics {v : TaskValidator} {noNan : Bool} {artifacts : List Artifact}
    {reasons : List String} (h : v.metricReasons noNan artifacts = .ok reasons) (name : String) :
    missingReason name ∉ reasons := by
  induction artifacts generalizing reasons with
  | nil =>
    cases h
    exact List.not_mem_nil
  | cons x rest ih =>
    obtain ⟨first, own, h⟩ := bind_ok.mp h
    obtain ⟨others, later, h⟩ := bind_ok.mp h
    cases h
    rw [List.mem_append, not_or]
    exact ⟨missingReason_metric own name, ih later⟩

/-- The other checks do not report a name as missing. -/
lemma missingReason_metricsBlock {v : TaskValidator} {validators : List Json}
    {artifacts : List Artifact} {reasons : List String}
    (h : v.metricsBlock validators artifacts = .ok reasons) (name : String) :
    missingReason name ∉ reasons := by
  simp only [TaskValidator.metricsBlock] at h
  split at h
  · obtain ⟨others, later, h⟩ := bind_ok.mp h
    cases h
    rw [List.mem_append, not_or]
    refine ⟨?_, missingReason_metrics later name⟩
    split
    · rw [List.mem_singleton]
      exact missingReason_ne (rfl : _ = some 'm') (by decide)
    · exact List.not_mem_nil
  · cases h
    exact List.not_mem_nil

/-- What the validator says about a required name. -/
lemma TaskValidator.missing_mem_iff {v : TaskValidator} {spec : ComputeTaskSpec}
    {policy : JsonObject} {job : ComputeJob} {artifacts : List Artifact} {reasons : List String}
    (h : v.reasons spec policy job artifacts = .ok reasons) {name : String}
    (required : RequiredName policy spec.outputs name) :
    missingReason name ∈ reasons ↔ ∀ x ∈ artifacts, nameMatches name x.logicalName = false := by
  obtain ⟨names, listed, h⟩ := bind_ok.mp h
  obtain ⟨validators, _, h⟩ := bind_ok.mp h
  obtain ⟨metrics, measured, h⟩ := bind_ok.mp h
  cases h
  rw [← requiredReason_missing_iff, List.mem_append, List.mem_append, List.mem_filterMap]
  constructor
  · rintro ((no | ⟨name', _, reason⟩) | no)
    · exact (missingReason_job name _ _ no).elim
    · rw [eq_of_requiredReason reason] at reason
      exact reason
    · exact (missingReason_metricsBlock measured name no).elim
  · intro reason
    exact Or.inl (Or.inr ⟨name, mem_requiredNames listed required, reason⟩)

/-- The validator returns the reasons that it finds in the data of the latest job. -/
lemma TaskValidator.validateComputeTask_reasons {v : TaskValidator} {db db' : Db}
    {taskId k : String} {task : Task} {job : ComputeJob} {spec : ComputeTaskSpec}
    {result : ValidationResult} (valid : v.modelValidate task.specJson = .ok spec)
    (latest : db.latestJob taskId = some (k, job))
    (h : v.validateComputeTask db taskId task = .ok (result, db')) :
    v.reasons spec task.acceptancePolicyJson job (db.artifactsOf taskId) = .ok result.reasons := by
  obtain ⟨spec', valid', h⟩ := bind_ok.mp h
  cases valid.symm.trans valid'
  rw [latest] at h
  obtain ⟨reasons, found, h⟩ := bind_ok.mp h
  rw [found]
  split at h
  · rename_i empty
    cases h
    rw [List.isEmpty_iff.mp empty]
  · cases h
    rfl

/-! ## The artifacts of a task after a collection -/

section

variable {r : ReconcilerSetup} {view : ComputeJobView} {candidates : List ArtifactCandidate}
  {db db' : Db}

/-- Every artifact of the task comes from a candidate of its job. -/
def ReconcilerSetup.Own (r : ReconcilerSetup) (view : ComputeJobView)
    (candidates : List ArtifactCandidate) (db : Db) : Prop :=
  ∀ item ∈ db.artifacts.items,
    item.2.taskId = some view.taskId ∨ item.2.producedBy view = true →
      ∃ candidate ∈ candidates, r.StoredAs view candidate item

lemma ReconcilerSetup.StoredAs.named {candidate : ArtifactCandidate} {item : String × Artifact}
    (h : r.StoredAs view candidate item) :
    item.2.taskId = some view.taskId ∧ item.2.logicalName = candidate.logicalName := by
  obtain ⟨version, e⟩ := h
  rw [e]
  exact ⟨rfl, rfl⟩

/-- After its candidates have been ingested a task has their names. -/
lemma IngestsEach.names (h : IngestsEach r view db candidates db') (own : r.Own view candidates db)
    {name : String} :
    (∃ x ∈ db'.artifactsOf view.taskId, x.logicalName = name) ↔
      ∃ candidate ∈ candidates, candidate.logicalName = name := by
  obtain ⟨added, items, stored⟩ := h.items
  have mem_iff : ∀ {x}, x ∈ db'.artifactsOf view.taskId ↔
      ∃ id, ((id, x) ∈ db.artifacts.items ∨ (id, x) ∈ added) ∧ x.taskId = some view.taskId := by
    intro x
    unfold Db.artifactsOf
    rw [items]
    simp only [List.mem_map, List.mem_filter, List.mem_append, beq_iff_eq, Prod.exists,
      exists_eq_right]
  constructor
  · rintro ⟨x, mem, rfl⟩
    obtain ⟨id, before | mem, task⟩ := mem_iff.mp mem
    · obtain ⟨candidate, memC, row⟩ := own (id, x) before (Or.inl task)
      exact ⟨candidate, memC, row.named.2.symm⟩
    · obtain ⟨candidate, kept, row⟩ := exists_left_of_forall₂ stored mem
      exact ⟨candidate, mem_of_mem_firsts kept, row.named.2.symm⟩
  · rintro ⟨candidate, memC, rfl⟩
    by_cases known : (r.files view.remoteWorkdir).content candidate ∈ db.contents view
    · obtain ⟨⟨id, x⟩, produced, same⟩ := List.mem_map.mp known
      obtain ⟨mem, mine⟩ := List.mem_filter.mp produced
      obtain ⟨_, _, row⟩ := own (id, x) mem (Or.inr mine)
      exact ⟨x, mem_iff.mpr ⟨id, Or.inl mem, row.named.1⟩, congrArg Prod.fst same⟩
    · obtain ⟨other, kept, same⟩ := exists_mem_firsts memC known
      obtain ⟨⟨id, x⟩, mem, row⟩ := exists_right_of_forall₂ stored kept
      exact ⟨x, mem_iff.mpr ⟨id, Or.inr mem, row.named.1⟩,
        row.named.2.trans (congrArg Prod.fst same)⟩

end

/-! ## What is collected under a name -/

namespace Workdir

variable {files : Workdir} {workdir name : String} {outputs before after : List OutputSpec}
  {output : OutputSpec}

lemma taken_iff {rest : List ArtifactCandidate} {candidate : ArtifactCandidate} :
    files.Taken workdir rest candidate ↔
      files.target candidate ∈ (files.fixed workdir).map files.target ∨
        ∃ earlier ∈ rest, files.target earlier = files.target candidate := by
  simp only [Taken, List.mem_append, List.mem_map, or_and_right, exists_or]

/-- What is collected are the fixed files and the matches of files that have not been collected
    before. -/
lemma uncollected_iff :
    files.Uncollected workdir outputs name ↔
      ∀ candidate ∈ files.collected workdir outputs,
        nameMatches name candidate.logicalName = false := by
  unfold collected
  constructor
  · rintro ⟨fixed, taken⟩ candidate mem
    rcases List.mem_append.mp mem with mem | mem
    · exact fixed candidate mem
    · obtain ⟨fresh, before, after, split, others⟩ := mem_firsts.mp mem
      by_contra stands
      have earlier := taken before candidate after split (Bool.of_not_eq_false stands)
      obtain known | ⟨earlier, memE, same⟩ := taken_iff.mp earlier
      · exact fresh known
      · exact others earlier memE same
  · intro none
    refine ⟨fun candidate mem => none candidate (List.mem_append_left _ mem), ?_⟩
    intro before candidate after split stands
    by_contra fresh
    rw [taken_iff, not_or] at fresh
    have kept : candidate ∈ firsts files.target ((files.fixed workdir).map files.target)
        (files.offered outputs) := by
      refine mem_firsts.mpr ⟨fresh.1, before, after, split, ?_⟩
      exact fun earlier mem same => fresh.2 ⟨earlier, mem, same⟩
    rw [none candidate (List.mem_append_right _ kept)] at stands
    cases stands

lemma offered_append (before after : List OutputSpec) :
    files.offered (before ++ after) = files.offered before ++ files.offered after :=
  List.flatMap_append

/-- What an output offers are the files that its pattern matches. -/
lemma mem_offered_single {candidate : ArtifactCandidate} :
    candidate ∈ files.offered [output] ↔
      ∃ found path index, files.glob output.glob = .ok found ∧ (path, index) ∈ found.zipIdx ∧
        files.isFile path = true ∧ output.candidate found.length index path = candidate := by
  unfold offered
  rw [List.flatMap_singleton]
  cases globbed : files.glob output.glob with
  | error e => simp
  | ok found =>
    simp only [matched, List.mem_map, List.mem_filter, Prod.exists, Except.ok.injEq, and_assoc]
    constructor
    · rintro ⟨path, index, h⟩
      exact ⟨found, path, index, rfl, h⟩
    · rintro ⟨_, path, index, rfl, h⟩
      exact ⟨path, index, h⟩

lemma nameMatches_offered {candidate : ArtifactCandidate}
    (mem : candidate ∈ files.offered [output]) :
    nameMatches output.logicalName candidate.logicalName = true := by
  obtain ⟨found, path, index, _, _, _, rfl⟩ := mem_offered_single.mp mem
  exact output.nameMatches_matchName found.length index path

/-- An output offers something if its pattern matches a file. -/
lemma exists_offered_iff :
    (∃ candidate, candidate ∈ files.offered [output]) ↔ files.Matches output.glob := by
  constructor
  · rintro ⟨candidate, mem⟩
    obtain ⟨found, path, index, globbed, mem, file, _⟩ := mem_offered_single.mp mem
    rw [List.mk_mem_zipIdx_iff_getElem?] at mem
    exact ⟨found, path, globbed, List.mem_of_getElem? mem, file⟩
  · rintro ⟨found, path, globbed, mem, file⟩
    obtain ⟨index, bound, rfl⟩ := List.getElem_of_mem mem
    have here : (found[index], index) ∈ found.zipIdx := by
      rw [List.mk_mem_zipIdx_iff_getElem?]
      exact List.getElem?_eq_getElem bound
    exact ⟨_, mem_offered_single.mpr ⟨found, _, index, globbed, here, file, rfl⟩⟩

/-- What has been collected after some outputs are the fixed files and whatever these match. -/
lemma taken_offered_iff {candidate : ArtifactCandidate} :
    files.Taken workdir (files.offered before) candidate ↔
      files.target candidate ∈ (files.fixed workdir).map files.target ++
        (firsts files.target ((files.fixed workdir).map files.target)
          (files.offered before)).map files.target := by
  rw [taken_iff, List.mem_append]
  constructor
  · rintro (known | ⟨earlier, mem, same⟩)
    · exact Or.inl known
    · by_cases known : files.target earlier ∈ (files.fixed workdir).map files.target
      · exact Or.inl (same ▸ known)
      · obtain ⟨first, kept, same'⟩ := exists_mem_firsts mem known
        exact Or.inr (List.mem_map.mpr ⟨first, kept, same'.trans same⟩)
  · rintro (known | known)
    · exact Or.inl known
    · obtain ⟨earlier, kept, same⟩ := List.mem_map.mp known
      exact Or.inr ⟨earlier, mem_of_mem_firsts kept, same⟩

/-- An output whose name nothing else stands for is collected unless all of its matches have been
    collected before. -/
lemma uncollected_own_iff (unnamed : files.Unnamed workdir (before ++ after) output.logicalName) :
    files.Uncollected workdir (before ++ output :: after) output.logicalName ↔
      ∀ candidate ∈ files.offered [output],
        files.Taken workdir (files.offered before) candidate := by
  have split : files.offered (before ++ output :: after) =
      files.offered before ++ (files.offered [output] ++ files.offered after) := by
    rw [offered_append, ← offered_append [output] after]
    rfl
  rw [uncollected_iff]
  unfold collected
  rw [split, firsts_append, firsts_append]
  constructor
  · intro none candidate mem
    by_contra fresh
    -- the first match of its file is one of the output, and it has the output's name
    rw [taken_offered_iff] at fresh
    obtain ⟨first, kept, _⟩ := exists_mem_firsts mem fresh
    have absent := none first
      (List.mem_append_right _ (List.mem_append_right _ (List.mem_append_left _ kept)))
    rw [nameMatches_offered (mem_of_mem_firsts kept)] at absent
    cases absent
  · intro taken candidate mem
    have other : candidate ∈ files.fixed workdir ∨ candidate ∈ files.offered before ∨
        candidate ∈ files.offered after := by
      rcases List.mem_append.mp mem with mem | mem
      · exact Or.inl mem
      · rcases List.mem_append.mp mem with mem | mem
        · exact Or.inr (Or.inl (mem_of_mem_firsts mem))
        · rcases List.mem_append.mp mem with own | mem
          · have fresh := (mem_firsts.mp own).1
            exact (fresh (taken_offered_iff.mp (taken candidate (mem_of_mem_firsts own)))).elim
          · exact Or.inr (Or.inr (mem_of_mem_firsts mem))
    apply unnamed
    rw [offered_append, List.mem_append, List.mem_append]
    exact other

end Workdir

/-- After a collection a required output is reported as missing if nothing is collected under its
    name. -/
lemma TaskValidator.missing_iff_uncollected {v : TaskValidator} {r : ReconcilerSetup}
    {db db' db'' : Db} {k taskId : String} {job : ComputeJob} {task : Task} {spec : ComputeTaskSpec}
    {candidates : List ArtifactCandidate} {result : ValidationResult} {output : OutputSpec}
    (latest : db.Latest taskId k job) (valid : v.modelValidate task.specJson = .ok spec)
    (prepared : (r.files job.remoteWorkdir).prepared = .ok spec.outputs)
    (collects : LocalProvider.collect (r.files job.remoteWorkdir) (job.view k) = .ok candidates)
    (own : r.Own (job.view k) candidates db)
    (ingests : IngestsEach r (job.view k) db candidates db')
    (validates : v.validateComputeTask db' taskId task = .ok (result, db''))
    (member : output ∈ spec.outputs) (required : output.required = true) :
    missingReason output.logicalName ∈ result.reasons ↔
      (r.files job.remoteWorkdir).Uncollected job.remoteWorkdir spec.outputs
        output.logicalName := by
  obtain ⟨outputs, prepared', _, rfl⟩ := LocalProvider.collect_ok.mp collects
  cases prepared.symm.trans prepared'
  have latest' : db'.latestJob taskId = some (k, job) := by
    unfold Db.latestJob
    rw [ingests.keeps.1]
    exact latest.latestJob
  have owner : (job.view k).taskId = taskId := latest.owner
  have name : RequiredName task.acceptancePolicyJson spec.outputs output.logicalName :=
    Or.inr (Or.inl ⟨output, member, required, rfl⟩)
  have found := TaskValidator.validateComputeTask_reasons valid latest' validates
  rw [TaskValidator.missing_mem_iff found name, Workdir.uncollected_iff]
  constructor
  · intro none candidate mem
    obtain ⟨x, memX, named⟩ := (ingests.names own).mpr ⟨candidate, mem, rfl⟩
    rw [owner] at memX
    rw [← named]
    exact none x memX
  · intro none x mem
    rw [← owner] at mem
    obtain ⟨candidate, memC, named⟩ := (ingests.names own).mp ⟨x, mem, rfl⟩
    rw [← named]
    exact none candidate memC

/-- The candidates of a task's job have been ingested, and nothing else is there for the task. An
    output that the spec requires is reported as missing if and only if nothing is collected under
    its name. If no other file gets a name that stands for it, this means that every file it matches
    is a fixed file or is matched by an output before it; and if there is no such file either, that
    it does not match a regular file. -/
theorem missing_output_iff {v : TaskValidator} {r : ReconcilerSetup} {db db' db'' : Db}
    {k taskId : String} {job : ComputeJob} {task : Task} {spec : ComputeTaskSpec}
    {candidates : List ArtifactCandidate} {result : ValidationResult}
    {before after : List OutputSpec} {output : OutputSpec} (latest : db.Latest taskId k job)
    (valid : v.modelValidate task.specJson = .ok spec)
    (prepared : (r.files job.remoteWorkdir).prepared = .ok spec.outputs)
    (collects : LocalProvider.collect (r.files job.remoteWorkdir) (job.view k) = .ok candidates)
    (own : r.Own (job.view k) candidates db)
    (ingests : IngestsEach r (job.view k) db candidates db')
    (validates : v.validateComputeTask db' taskId task = .ok (result, db''))
    (outputs : spec.outputs = before ++ output :: after) (required : output.required = true) :
    let files := r.files job.remoteWorkdir
    (missingReason output.logicalName ∈ result.reasons ↔
        files.Uncollected job.remoteWorkdir spec.outputs output.logicalName) ∧
      (files.Unnamed job.remoteWorkdir (before ++ after) output.logicalName →
        (missingReason output.logicalName ∈ result.reasons ↔
            ∀ candidate ∈ files.offered [output],
              files.Taken job.remoteWorkdir (files.offered before) candidate) ∧
          ((∀ candidate ∈ files.offered [output],
              ¬ files.Taken job.remoteWorkdir (files.offered before) candidate) →
            (missingReason output.logicalName ∈ result.reasons ↔
              ¬ files.Matches output.glob))) := by
  intro files
  have member : output ∈ spec.outputs := by
    rw [outputs]
    exact List.mem_append_right _ List.mem_cons_self
  have reported := TaskValidator.missing_iff_uncollected latest valid prepared collects own ingests
    validates member required
  refine ⟨reported, fun unnamed => ?_⟩
  have taken : missingReason output.logicalName ∈ result.reasons ↔
      ∀ candidate ∈ files.offered [output],
        files.Taken job.remoteWorkdir (files.offered before) candidate := by
    rw [reported, outputs]
    exact Workdir.uncollected_own_iff unnamed
  refine ⟨taken, fun free => ?_⟩
  rw [taken, ← Workdir.exists_offered_iff]
  constructor
  · rintro all ⟨candidate, mem⟩
    exact free candidate mem (all candidate mem)
  · intro nothing candidate mem
    exact (nothing ⟨candidate, mem⟩).elim

/-! ## A file that two outputs match -/

/-- The outputs `all`, with a given pattern, and `metrics.json`. -/
def overlapSpec (glob : String) : ComputeTaskSpec :=
  { projectId := "p", taskId := "t", submissionKey := "s", execution := {}, resources := {},
    outputs := [
      { logicalName := "all", glob := glob, required := false, artifactKind := "FILE" },
      { logicalName := "metrics.json", glob := "metrics.json", artifactKind := "FILE" } ],
    success := { requiredValidators := [] } }

/-- What is in the working directory at the end. -/
def overlapListing : List String :=
  [ "/w/exit.json", "/w/manifest.json", "/w/metrics.json", "/w/prepared.json", "/w/run.error",
    "/w/run.out" ]

/-- A working directory in which `*` and `metrics.json` match one file, and nothing else matches
    that is not there in any case. -/
def overlapFiles (glob : String) : Workdir :=
  { prepared := .ok (overlapSpec glob).outputs, present := fun path => path ∈ overlapListing,
    isFile := fun path => path ∈ overlapListing, resolve := id, digest := id, size := fun _ => 1
    glob := fun pattern =>
      .ok (if pattern = "*" then overlapListing
        else if pattern = "metrics.json" then ["/w/metrics.json"] else []) }

def overlapSetup (glob : String) : ReconcilerSetup :=
  { registered := fun _ => true, collect := fun _ => .ok [], poll := fun _ => .error (.ioError ""),
    workspaceRoot := "", files := fun _ => overlapFiles glob, pollInterval := 1 }

/-- A job that has succeeded. -/
def overlapJob (glob : String) : ComputeJob :=
  { projectId := "p", taskId := "t", providerId := "local", resourceClass := "local_cpu",
    submissionKey := "s", attemptNo := 1, remoteWorkdir := "/w", specJson := overlapSpec glob,
    executionStatus := .succeeded, exitCode := some 0 }

def overlapDb (glob : String) : Db :=
  { projects := Dict.empty.set "p" { slug := "p" }, tasks := Dict.empty.set "t" finishedTask,
    jobs := Dict.empty.set "j" (overlapJob glob) }

def overlapValidator (glob : String) : TaskValidator :=
  ⟨fun _ => .ok (overlapSpec glob), fun _ => .bytes [], noTelemetry, 0⟩

/-- The job is collected and its task is validated. -/
def overlapRun (glob : String) :
    Except PyErr (List ArtifactCandidate × Db × ValidationResult × Db) := do
  let view := (overlapJob glob).view "j"
  let candidates ← LocalProvider.collect (overlapFiles glob) view
  let db ← (overlapSetup glob).ingestAll view (overlapDb glob)
    (candidates.zip ["1", "2", "3", "4", "5", "6"])
  let (result, db') ← (overlapValidator glob).validateComputeTask db "t" finishedTask
  return (candidates, db, result, db')

lemma overlapDb_latest (glob : String) : (overlapDb glob).Latest "t" "j" (overlapJob glob) := by
  refine ⟨rfl, rfl, ?_⟩
  intro k' j' hj _ other
  rw [overlapDb, Dict.get_set_ne _ _ other] at hj
  cases hj

lemma overlapDb_own (glob : String) (candidates : List ArtifactCandidate) :
    (overlapSetup glob).Own ((overlapJob glob).view "j") candidates (overlapDb glob) := by
  intro item mem
  cases mem

/-- What the run above is a case of. -/
lemma overlapRun_ok {glob : String} {candidates : List ArtifactCandidate} {db db' : Db}
    {result : ValidationResult} (few : candidates.length ≤ 6)
    (h : overlapRun glob = .ok (candidates, db, result, db')) :
    LocalProvider.collect (overlapFiles glob) ((overlapJob glob).view "j") = .ok candidates ∧
      IngestsEach (overlapSetup glob) ((overlapJob glob).view "j") (overlapDb glob) candidates db ∧
      (overlapValidator glob).validateComputeTask db "t" finishedTask = .ok (result, db') := by
  obtain ⟨candidates', collected, h⟩ := bind_ok.mp h
  obtain ⟨db1, ingested, h⟩ := bind_ok.mp h
  obtain ⟨⟨result', db2⟩, validated, e⟩ := bind_ok.mp h
  cases e
  have each := ReconcilerSetup.ingestAll_ok ingested
  rw [List.map_fst_zip few] at each
  exact ⟨collected, each, validated⟩

/-- An output with the pattern `*` takes the file of a required output behind it. -/
theorem missing_output_present :
    ¬ ∀ (v : TaskValidator) (r : ReconcilerSetup) (db db' db'' : Db) (k taskId : String)
        (job : ComputeJob) (task : Task) (spec : ComputeTaskSpec)
        (candidates : List ArtifactCandidate) (result : ValidationResult) (output : OutputSpec),
        db.Latest taskId k job → v.modelValidate task.specJson = .ok spec →
        (r.files job.remoteWorkdir).prepared = .ok spec.outputs →
        LocalProvider.collect (r.files job.remoteWorkdir) (job.view k) = .ok candidates →
        r.Own (job.view k) candidates db → IngestsEach r (job.view k) db candidates db' →
        v.validateComputeTask db' taskId task = .ok (result, db'') → output ∈ spec.outputs →
        output.required = true →
        (missingReason output.logicalName ∈ result.reasons ↔
          ¬ (r.files job.remoteWorkdir).Matches output.glob) := by
  intro agree
  have run : (overlapRun "*").toOption.map (fun s =>
      (decide (s.1.length ≤ 6), decide (missingReason "metrics.json" ∈ s.2.2.1.reasons))) =
        some (true, true) := by decide
  obtain ⟨⟨candidates, db, result, db'⟩, ran, checks⟩ := Option.map_eq_some_iff.mp run
  obtain ⟨few, missing⟩ := Prod.mk.inj checks
  obtain ⟨collects, ingests, validates⟩ :=
    overlapRun_ok (of_decide_eq_true few) (ok_of_toOption ran)
  have claimed := agree _ (overlapSetup "*") _ _ _ "j" "t" (overlapJob "*") finishedTask
    (overlapSpec "*") _ _ _ (overlapDb_latest "*") rfl rfl collects (overlapDb_own "*" _) ingests
    validates (List.mem_cons_of_mem _ List.mem_cons_self) rfl
  exact claimed.mp (of_decide_eq_true missing)
    ⟨["/w/metrics.json"], _, rfl, List.mem_cons_self, rfl⟩

/-- With another pattern the output keeps its file. -/
theorem missing_output_iff_apart :
    ∃ candidates db result db', overlapRun "logs" = .ok (candidates, db, result, db') ∧
      missingReason "metrics.json" ∉ result.reasons := by
  have run : (overlapRun "logs").toOption.map (fun s => decide (s.1.length ≤ 6)) = some true := by
    decide
  obtain ⟨⟨candidates, db, result, db'⟩, ran, few⟩ := Option.map_eq_some_iff.mp run
  obtain ⟨collects, ingests, validates⟩ :=
    overlapRun_ok (of_decide_eq_true few) (ok_of_toOption ran)
  refine ⟨candidates, db, result, db', ok_of_toOption ran, ?_⟩
  have outputs : (overlapSpec "logs").outputs = [_] ++ _ :: [] := rfl
  have reported := missing_output_iff (overlapDb_latest "logs") rfl rfl collects
    (overlapDb_own "logs" _) ingests validates outputs rfl
  have kept : missingReason "metrics.json" ∈ result.reasons ↔
      ¬ (overlapFiles "logs").Matches "metrics.json" := by
    apply (reported.2 _).2
    · unfold Workdir.Taken
      decide
    · unfold Workdir.Unnamed
      decide
  rw [kept, not_not]
  exact ⟨["/w/metrics.json"], _, rfl, List.mem_cons_self, rfl⟩

end ResearchController
