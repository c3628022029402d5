import ResearchController.Lib.Loop
import ResearchController.Services.EventLog

/-!
# Artifact store: the rows

Port of the database half of `artifacts/store.py`: what `ArtifactStore.ingest_file` does once the
content of the source file has been hashed and stored. The digest, the path of the stored blob and
its size are arguments. A producer that stores a content again under the same name gets the artifact
that is there.
-/

namespace ResearchController
open Lib

/-- The path of a blob: `workspace_root / project_id / artifacts / sha256 / digest[:2] / digest`. -/
def blobPath (workspaceRoot projectId digest : String) : String :=
  workspaceRoot ++ "/" ++ projectId ++ "/artifacts/sha256/" ++
    String.ofList (digest.toList.take 2) ++ "/" ++ digest

/-- What `ingest_file` knows about the artifact when it reaches the database. -/
structure IngestArgs where
  id : String
  projectId : String
  taskId : Option String
  logicalName : String
  kind : String
  producerType : String
  producerRefId : String
  evidenceEligible : Bool
  metadata : JsonObject
  digest : String
  uri : String
  sizeBytes : Nat

/-- What an artifact is to its producer. -/
structure ArtifactKey where
  projectId : String
  producerType : String
  producerRefId : String
  logicalName : String
  sha256 : String
  deriving DecidableEq

/-- The key of a row. -/
def Artifact.key (x : Artifact) : ArtifactKey :=
  { projectId := x.projectId, producerType := x.producerType, producerRefId := x.producerRefId,
    logicalName := x.logicalName, sha256 := x.sha256 }

/-- The key of the row that an ingest looks for. -/
def IngestArgs.key (a : IngestArgs) : ArtifactKey :=
  { projectId := a.projectId, producerType := a.producerType, producerRefId := a.producerRefId,
    logicalName := a.logicalName, sha256 := a.digest }

/-- `SELECT max(version)` over the artifacts of a project with a logical name. -/
def Db.currentVersion (db : Db) (projectId logicalName : String) : Nat :=
  ((db.artifacts.items.filter fun (_, x) =>
    x.projectId == projectId && x.logicalName == logicalName).map (·.2.version)).foldl max 0

/-- The row that `ingest_file` inserts. -/
def IngestArgs.row (a : IngestArgs) (version : Nat) : Artifact :=
  { projectId := a.projectId, taskId := a.taskId, kind := a.kind, logicalName := a.logicalName,
    version := version, uri := a.uri, sizeBytes := a.sizeBytes, sha256 := a.digest,
    producerType := a.producerType, producerRefId := a.producerRefId,
    integrityStatus := .verified, evidenceEligible := a.evidenceEligible,
    metadataJson := a.metadata }

/-- The query for an artifact that the producer has stored before. -/
def Db.existingArtifact (db : Db) (a : IngestArgs) : Option (String × Artifact) :=
  db.artifacts.find? fun _ x =>
    x.projectId == a.projectId && x.producerType == a.producerType &&
      x.producerRefId == a.producerRefId && x.logicalName == a.logicalName && x.sha256 == a.digest

/-- The dedupe key of the event of a new artifact. -/
def artifactCreatedKey (producerType producerRefId logicalName digest : String) : String :=
  "artifact-created:" ++ producerType ++ ":" ++ producerRefId ++ ":" ++ logicalName ++ ":" ++ digest

/-- The event of a new artifact. -/
def IngestArgs.created (a : IngestArgs) (version : Nat) : EventDraft :=
  { eventType := "ARTIFACT_CREATED", entityType := "ARTIFACT", entityId := a.id,
    dedupeKey := some (artifactCreatedKey a.producerType a.producerRefId a.logicalName a.digest),
    newState := some ArtifactIntegrityStatus.verified.value,
    payload := [("logical_name", .str a.logicalName), ("sha256", .str a.digest),
      ("version", .int version)] }

/-- The event of its verification. -/
def IngestArgs.verified (a : IngestArgs) : EventDraft :=
  { eventType := "ARTIFACT_VERIFIED", entityType := "ARTIFACT", entityId := a.id,
    dedupeKey := some s!"artifact-verified:{a.id}",
    oldState := some ArtifactIntegrityStatus.pending.value,
    newState := some ArtifactIntegrityStatus.verified.value }

/-- The part of `ingest_file` behind its query for the version. -/
def Db.addArtifact (db : Db) (a : IngestArgs) (version : Nat) : Except PyErr (String × Db) :=
  if (db.artifacts.get a.id).isSome then
    .error (.integrityError "artifacts.id")
  else if db.artifacts.any fun _ x =>
      x.projectId == a.projectId && x.logicalName == a.logicalName && x.version == version then
    .error (.integrityError "artifacts.project_id, artifacts.logical_name, artifacts.version")
  else if a.taskId.any fun id => (db.tasks.get id).isNone then
    .error (.integrityError "artifacts.task_id")
  else do
    let db := { db with artifacts := db.artifacts.set a.id (a.row version) }
    let db ← db.append a.projectId (a.created version)
    let db ← db.append a.projectId a.verified
    return (a.id, db)

/-- The database half of `ArtifactStore.ingest_file`. -/
def Db.ingestRow (db : Db) (a : IngestArgs) : Except PyErr (String × Db) :=
  match db.existingArtifact a with
  | some (existing, _) => .ok (existing, db)
  | none => db.addArtifact a (db.currentVersion a.projectId a.logicalName + 1)

/-- Inversion for the insertion of an artifact: a new row with its two events. -/
lemma Db.addArtifact_ok {db db' : Db} {a : IngestArgs} {version : Nat} {id : String}
    (h : db.addArtifact a version = .ok (id, db')) :
    id = a.id ∧ db.artifacts.get a.id = none ∧ ∃ p, db.projects.get a.projectId = some p ∧
      db' = (({ db with artifacts := db.artifacts.set a.id (a.row version) } : Db).logged
        a.projectId (a.created version)).logged a.projectId a.verified := by
  unfold addArtifact at h
  split at h
  · cases h
  · rename_i absent
    split at h
    · cases h
    · split at h
      · cases h
      · obtain ⟨db1, ap1, h⟩ := bind_ok.mp h
        obtain ⟨db2, ap2, e⟩ := bind_ok.mp h
        cases e
        obtain ⟨p1, hp1, _, _, rfl⟩ := append_ok ap1
        obtain ⟨p2, _, _, _, rfl⟩ := append_ok ap2
        exact ⟨rfl, Option.not_isSome_iff_eq_none.mp absent, p1, hp1, rfl⟩

/-- The row that is inserted. -/
lemma Db.addArtifact_get {db db' : Db} {a : IngestArgs} {version : Nat} {id : String}
    (h : db.addArtifact a version = .ok (id, db')) :
    db'.artifacts.get id = some (a.row version) := by
  obtain ⟨rfl, _, p, _, rfl⟩ := addArtifact_ok h
  simp only [Db.logged_rows, Dict.get_set_self]

/-- The row that the query finds. -/
lemma Db.existingArtifact_some {db : Db} {a : IngestArgs} {id : String} {x : Artifact}
    (h : db.existingArtifact a = some (id, x)) :
    db.artifacts.get id = some x ∧ x.key = a.key := by
  obtain ⟨hx, same⟩ := Dict.find?_some h
  simp only [Bool.and_eq_true, beq_iff_eq] at same
  obtain ⟨⟨⟨⟨projectId, producerType⟩, producerRefId⟩, logicalName⟩, digest⟩ := same
  refine ⟨hx, ?_⟩
  unfold Artifact.key IngestArgs.key
  rw [projectId, producerType, producerRefId, logicalName, digest]

/-- Inversion for an ingest: the artifact of the producer with this name and content, or a new row
    with its two events. -/
lemma Db.ingestRow_cases {db db' : Db} {a : IngestArgs} {id : String}
    (h : db.ingestRow a = .ok (id, db')) :
    (db' = db ∧ ∃ x, db.existingArtifact a = some (id, x)) ∨
      id = a.id ∧ db.existingArtifact a = none ∧ db.artifacts.get a.id = none ∧
        ∃ p, db.projects.get a.projectId = some p ∧
          let version := db.currentVersion a.projectId a.logicalName + 1
          db' = (({ db with artifacts := db.artifacts.set a.id (a.row version) } : Db).logged
            a.projectId (a.created version)).logged a.projectId a.verified := by
  unfold ingestRow at h
  split at h
  · rename_i existing x found
    cases h
    exact Or.inl ⟨rfl, x, found⟩
  · rename_i missing
    obtain ⟨rfl, absent, p, hp, rfl⟩ := addArtifact_ok h
    exact Or.inr ⟨rfl, missing, absent, p, hp, rfl⟩

/-- What an ingest does to the tables. -/
lemma Db.ingestRow_ok {db db' : Db} {a : IngestArgs} {id : String}
    (h : db.ingestRow a = .ok (id, db')) :
    (db' = db ∧ ∃ x, db.artifacts.get id = some x) ∨
      id = a.id ∧ db.artifacts.get a.id = none ∧
        db'.toRows = { db.toRows with
          artifacts := db.artifacts.set a.id
            (a.row (db.currentVersion a.projectId a.logicalName + 1)) } := by
  obtain ⟨rfl, x, found⟩ | ⟨rfl, _, absent, p, _, rfl⟩ := ingestRow_cases h
  · exact Or.inl ⟨rfl, x, (Dict.find?_some found).1⟩
  · exact Or.inr ⟨rfl, absent, by simp⟩

lemma Db.Sound.ingestRow {db db' : Db} (sd : db.Sound) {a : IngestArgs} {id : String}
    (h : db.ingestRow a = .ok (id, db')) : db'.Sound := by
  obtain ⟨rfl, _⟩ | ⟨_, _, _, p, _, rfl⟩ := ingestRow_cases h
  · exact sd
  · apply Sound.logged
    apply Sound.logged
    exact ⟨sd.taskProject, sd.jobProject, sd.jobTask, sd.seqBound⟩

end ResearchController
