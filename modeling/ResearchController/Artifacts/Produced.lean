import ResearchController.Services.ReconcileDue

/-!
# The artifacts of a producer

`Db.produced` are the rows that a job has produced, in the order of their insertion. A producer has
one artifact for each name and content, so ingesting its candidates one after the other adds a row
for the first candidate of each name and content that it does not have yet
(`IngestsEach.items`).
-/

namespace ResearchController
open Lib

/-- Whether an artifact was produced by a job. -/
def Artifact.producedBy (x : Artifact) (view : ComputeJobView) : Bool :=
  x.projectId == view.projectId && x.producerType == "COMPUTE_JOB" && x.producerRefId == view.id

/-- The name and the digest of an artifact. -/
def Artifact.content (x : Artifact) : String × String :=
  (x.logicalName, x.sha256)

/-- The name and the digest of a candidate. -/
def Workdir.content (files : Workdir) (candidate : ArtifactCandidate) : String × String :=
  (candidate.logicalName, files.digest candidate.path)

/-- The artifacts of a job, in the order of their insertion. -/
def Db.produced (db : Db) (view : ComputeJobView) : List (String × Artifact) :=
  db.artifacts.items.filter fun item => item.2.producedBy view

/-- The names and contents that a job has stored. -/
def Db.contents (db : Db) (view : ComputeJobView) : List (String × String) :=
  (db.produced view).map fun item => item.2.content

/-- What an artifact says about its file: logical name, digest, kind and metadata. -/
def Artifact.description (x : Artifact) : String × String × String × JsonObject :=
  (x.logicalName, x.sha256, x.kind, x.metadataJson)

/-- The artifacts of a producer. -/
def Db.descriptions (db : Db) (view : ComputeJobView) :
    List (String × String × String × JsonObject) :=
  (db.produced view).map fun item => item.2.description

/-- The names and contents of a job among what its artifacts say. -/
lemma Db.contents_eq (db : Db) (view : ComputeJobView) :
    db.contents view = (db.descriptions view).map fun said => (said.1, said.2.1) := by
  unfold contents descriptions
  rw [List.map_map]
  rfl

/-- An artifact is the row of a candidate. -/
def ReconcilerSetup.StoredAs (r : ReconcilerSetup) (view : ComputeJobView)
    (candidate : ArtifactCandidate) (item : String × Artifact) : Prop :=
  ∃ version, item.2 = (r.ingestArgs view candidate item.1).row version

/-- What the row of a candidate says about its file. -/
def ReconcilerSetup.described (r : ReconcilerSetup) (view : ComputeJobView)
    (candidate : ArtifactCandidate) : String × String × String × JsonObject :=
  ((r.ingestArgs view candidate "").row 0).description

variable {r : ReconcilerSetup} {view : ComputeJobView} {candidate : ArtifactCandidate}

namespace ReconcilerSetup.StoredAs

variable {item : String × Artifact}

lemma producedBy (h : r.StoredAs view candidate item) : item.2.producedBy view = true := by
  obtain ⟨version, e⟩ := h
  rw [e]
  simp [Artifact.producedBy, ingestArgs, ComputeJobView.ingestArgs, IngestArgs.row]

lemma content (h : r.StoredAs view candidate item) :
    item.2.content = (r.files view.remoteWorkdir).content candidate := by
  obtain ⟨version, e⟩ := h
  rw [e]
  rfl

/-- Rows of one job are not produced by another. -/
lemma other {view' : ComputeJobView} (h : r.StoredAs view candidate item)
    (other : view.id ≠ view'.id) : item.2.producedBy view' = false := by
  obtain ⟨version, e⟩ := h
  rw [e]
  simp [Artifact.producedBy, ingestArgs, ComputeJobView.ingestArgs, IngestArgs.row, other]

end ReconcilerSetup.StoredAs

/-- `ingest_file` looks for the name and the content among the artifacts of the job. -/
lemma Db.existingArtifact_isSome (db : Db) (id : String) :
    (db.existingArtifact (r.ingestArgs view candidate id)).isSome = true ↔
      (r.files view.remoteWorkdir).content candidate ∈ db.contents view := by
  simp only [existingArtifact, Dict.find?, List.find?_isSome, contents, produced, List.mem_map,
    List.mem_filter, Prod.exists, Bool.and_eq_true, beq_iff_eq, ReconcilerSetup.ingestArgs,
    ComputeJobView.ingestArgs, Artifact.producedBy, Artifact.content, Workdir.content,
    Prod.mk.injEq]
  constructor
  · rintro ⟨i, x, mem, ⟨⟨⟨project, type⟩, ref⟩, name⟩, digest⟩
    exact ⟨i, x, ⟨mem, ⟨project, type⟩, ref⟩, name, digest⟩
  · rintro ⟨i, x, ⟨mem, ⟨project, type⟩, ref⟩, name, digest⟩
    exact ⟨i, x, mem, ⟨⟨⟨project, type⟩, ref⟩, name⟩, digest⟩

/-- Inversion for the transaction that ingests a candidate: its name and content are there, or its
    row is added with two events. -/
lemma ReconcilerSetup.ingest_ok {db db' : Db} {id artifactId : String}
    (h : r.ingest db view candidate id = .ok (artifactId, db')) :
    ((r.files view.remoteWorkdir).content candidate ∈ db.contents view ∧ db' = db) ∨
      (r.files view.remoteWorkdir).content candidate ∉ db.contents view ∧
        ∃ x version p, r.StoredAs view candidate (id, x) ∧ db.artifacts.get id = none ∧
          db.projects.get view.projectId = some p ∧
          db' = (({ db with artifacts := db.artifacts.set id x } : Db).logged view.projectId
            ((r.ingestArgs view candidate id).created version)).logged view.projectId
              (r.ingestArgs view candidate id).verified := by
  unfold ingest at h
  split at h
  · have there : (db.existingArtifact (r.ingestArgs view candidate id)).isSome = true ↔ _ :=
      db.existingArtifact_isSome id
    obtain ⟨rfl, x, found⟩ | ⟨_, missing, absent, p, hp, e⟩ := Db.ingestRow_cases h
    · left
      rw [found] at there
      exact ⟨there.mp rfl, rfl⟩
    · right
      rw [missing] at there
      refine ⟨fun mem => ?_, _, _, p, ⟨_, rfl⟩, absent, hp, e⟩
      cases there.mpr mem
  · cases h

/-- An ingest leaves jobs and tasks alone. -/
lemma ReconcilerSetup.ingest_keeps {db db' : Db} {id artifactId : String}
    (h : r.ingest db view candidate id = .ok (artifactId, db')) :
    db'.jobs = db.jobs ∧ db'.tasks = db.tasks := by
  obtain ⟨_, rfl⟩ | ⟨_, x, version, p, _, _, _, rfl⟩ := ingest_ok h
  · exact ⟨rfl, rfl⟩
  · exact ⟨by simp only [Db.logged_rows], by simp only [Db.logged_rows]⟩

lemma Db.Sound.ingest {db db' : Db} (sd : db.Sound) {id artifactId : String}
    (h : r.ingest db view candidate id = .ok (artifactId, db')) : db'.Sound := by
  unfold ReconcilerSetup.ingest at h
  split at h
  · exact sd.ingestRow h
  · cases h

/-- The rows after the ingest of a new content. -/
lemma ReconcilerSetup.ingest_items {db : Db} {id : String} {x : Artifact} {d e : EventDraft}
    {k : String} (absent : db.artifacts.get id = none) :
    ((({ db with artifacts := db.artifacts.set id x } : Db).logged k d).logged k e).artifacts.items
      = db.artifacts.items ++ [(id, x)] := by
  simp only [Db.logged_rows]
  exact Dict.items_set_of_none absent x

/-- The candidates of a job are ingested one after the other, under identifiers that are drawn on
    the way. -/
inductive IngestsEach (r : ReconcilerSetup) (view : ComputeJobView) :
    Db → List ArtifactCandidate → Db → Prop where
  | nil {db} :
    IngestsEach r view db [] db
  | cons {db db1 db2 candidate rest id artifactId} :
    r.ingest db view candidate id = .ok (artifactId, db1) →
    IngestsEach r view db1 rest db2 →
    IngestsEach r view db (candidate :: rest) db2

/-- The candidates of a job with given identifiers are ingested one after the other. -/
def ReconcilerSetup.ingestAll (r : ReconcilerSetup) (view : ComputeJobView) :
    Db → List (ArtifactCandidate × String) → Except PyErr Db
  | db, [] => .ok db
  | db, (candidate, id) :: rest => do
    let (_, db) ← r.ingest db view candidate id
    r.ingestAll view db rest

lemma ReconcilerSetup.ingestAll_ok {db db' : Db} {items : List (ArtifactCandidate × String)}
    (h : r.ingestAll view db items = .ok db') :
    IngestsEach r view db (items.map Prod.fst) db' := by
  induction items generalizing db with
  | nil =>
    cases h
    exact .nil
  | cons item items ih =>
    obtain ⟨⟨artifactId, db1⟩, first, h⟩ := bind_ok.mp h
    exact .cons first (ih h)

/-- What an append adds to the artifacts of a job. -/
lemma Db.produced_append {db db' : Db} {added : List (String × Artifact)}
    (items : db'.artifacts.items = db.artifacts.items ++ added) (view' : ComputeJobView) :
    db'.produced view' = db.produced view' ++ added.filter fun item => item.2.producedBy view' := by
  unfold produced
  rw [items, List.filter_append]

/-- A new artifact of the job. -/
lemma Db.produced_own {db db' : Db} {id : String} {x : Artifact}
    (items : db'.artifacts.items = db.artifacts.items ++ [(id, x)])
    (own : x.producedBy view = true) : db'.produced view = db.produced view ++ [(id, x)] := by
  rw [produced_append items]
  simp [own]

/-- A new artifact of another job. -/
lemma Db.produced_other {db db' : Db} {id : String} {x : Artifact}
    (items : db'.artifacts.items = db.artifacts.items ++ [(id, x)])
    (other : x.producedBy view = false) : db'.produced view = db.produced view := by
  rw [produced_append items]
  simp [other]

lemma Db.contents_append {db db' : Db} {id : String} {x : Artifact}
    (items : db'.artifacts.items = db.artifacts.items ++ [(id, x)])
    (own : x.producedBy view = true) : db'.contents view = db.contents view ++ [x.content] := by
  unfold contents
  rw [produced_own items own, List.map_append]
  rfl

/-- The contents of the rows of candidates. -/
lemma ReconcilerSetup.contents_of_stored {candidates : List ArtifactCandidate}
    {added : List (String × Artifact)}
    (stored : List.Forall₂ (r.StoredAs view) candidates added) :
    added.map (fun item => item.2.content) =
      candidates.map (r.files view.remoteWorkdir).content := by
  induction stored with
  | nil => rfl
  | cons row _ ih => rw [List.map_cons, List.map_cons, ih, row.content]

/-- What the rows of candidates say does not depend on their identifiers and versions. -/
lemma ReconcilerSetup.descriptions_of_stored {candidates : List ArtifactCandidate}
    {added : List (String × Artifact)}
    (stored : List.Forall₂ (r.StoredAs view) candidates added) :
    added.map (fun item => item.2.description) = candidates.map (r.described view) := by
  induction stored with
  | nil => rfl
  | cons row _ ih =>
    obtain ⟨version, e⟩ := row
    rw [List.map_cons, List.map_cons, ih, e]
    rfl

/-- Ingesting candidates adds a row for the first candidate of each new name and content. -/
theorem IngestsEach.items {db db' : Db} {candidates : List ArtifactCandidate}
    (h : IngestsEach r view db candidates db') :
    ∃ added, db'.artifacts.items = db.artifacts.items ++ added ∧
      List.Forall₂ (r.StoredAs view)
        (firsts (r.files view.remoteWorkdir).content (db.contents view) candidates) added := by
  induction h with
  | nil => exact ⟨[], (List.append_nil _).symm, .nil⟩
  | @cons db db1 db2 candidate rest id artifactId first _ ih =>
    obtain ⟨added, items, stored⟩ := ih
    rw [firsts]
    obtain ⟨known, rfl⟩ | ⟨unknown, x, version, p, row, absent, _, rfl⟩ :=
      ReconcilerSetup.ingest_ok first
    · rw [if_pos known]
      exact ⟨added, items, stored⟩
    · rw [if_neg unknown]
      have grown := ReconcilerSetup.ingest_items (x := x) (k := view.projectId)
        (d := (r.ingestArgs view candidate id).created version)
        (e := (r.ingestArgs view candidate id).verified) absent
      refine ⟨(id, x) :: added, ?_, .cons row ?_⟩
      · rw [items, grown, List.append_assoc, List.singleton_append]
      · rw [Db.contents_append grown row.producedBy, row.content] at stored
        exact stored

/-- Ingesting candidates leaves jobs and tasks alone. -/
lemma IngestsEach.keeps {db db' : Db} {candidates : List ArtifactCandidate}
    (h : IngestsEach r view db candidates db') :
    db'.jobs = db.jobs ∧ db'.tasks = db.tasks ∧ (db.Sound → db'.Sound) := by
  induction h with
  | nil => exact ⟨rfl, rfl, id⟩
  | cons first _ ih =>
    obtain ⟨jobs, tasks, sound⟩ := ih
    obtain ⟨jobs1, tasks1⟩ := ReconcilerSetup.ingest_keeps first
    exact ⟨jobs.trans jobs1, tasks.trans tasks1, fun sd => sound (sd.ingest first)⟩

lemma Db.produced_of_forall₂ {candidates : List ArtifactCandidate}
    {added : List (String × Artifact)}
    (stored : List.Forall₂ (r.StoredAs view) candidates added) :
    (added.filter fun item => item.2.producedBy view) = added ∧
      ∀ {view' : ComputeJobView}, view.id ≠ view'.id →
        (added.filter fun item => item.2.producedBy view') = [] := by
  induction stored with
  | nil => exact ⟨rfl, fun _ => rfl⟩
  | cons row _ ih =>
    obtain ⟨own, others⟩ := ih
    refine ⟨by simp only [List.filter_cons, row.producedBy, if_true, own], ?_⟩
    intro view' other
    simp only [List.filter_cons, row.other other, others other, Bool.false_eq_true, if_false]

/-- What a job says about its files after its candidates have been ingested. -/
lemma IngestsEach.descriptions {db db' : Db} {candidates : List ArtifactCandidate}
    (h : IngestsEach r view db candidates db') :
    db'.descriptions view = db.descriptions view ++
      (firsts (r.files view.remoteWorkdir).content (db.contents view) candidates).map
        (r.described view) := by
  obtain ⟨added, items, stored⟩ := h.items
  unfold Db.descriptions
  rw [Db.produced_append items, (Db.produced_of_forall₂ stored).1, List.map_append,
    ReconcilerSetup.descriptions_of_stored stored]

/-- The artifacts of the other jobs stay as they are. -/
lemma IngestsEach.descriptions_other {db db' : Db} {candidates : List ArtifactCandidate}
    (h : IngestsEach r view db candidates db') {view' : ComputeJobView}
    (other : view.id ≠ view'.id) : db'.descriptions view' = db.descriptions view' := by
  obtain ⟨added, items, stored⟩ := h.items
  unfold Db.descriptions
  rw [Db.produced_append items, (Db.produced_of_forall₂ stored).2 other, List.append_nil]

end ResearchController
