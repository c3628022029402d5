import ResearchController.Artifacts.Store
import ResearchController.Lib.Program

/-!
# Artifact store: the blobs

Port of `sha256_file` and `ArtifactStore.ingest_file` of `artifacts/store.py` as programs: every
access to a file and every query is an effect of its own, and each of them may raise. A session
ingests some files one after the other and commits or rolls back; an exception rolls back as well. A
crash may strike between any two effects.

The surroundings write wherever they like outside of the `artifacts` directories of the workspace
(`ForeignWrite`), so a source file may change, shrink, grow or vanish between any two reads. They
also choose how many bytes a read returns.

Left out are directories, permissions and time stamps. A file that never ends is never read to its
end: a call reads at most `limit` chunks of a file and gives up.
-/

namespace ResearchController
open Lib

abbrev Bytes := List UInt8

/-- The characters of a hexadecimal digest. -/
def hexDigits : List Char :=
  ['0', '1', '2', '3', '4', '5', '6', '7', '8', '9', 'a', 'b', 'c', 'd', 'e', 'f']

/-- A string of hexadecimal digits. -/
def IsHex (digest : String) : Prop := ∀ c ∈ digest.toList, c ∈ hexDigits

/-- `hashlib.sha256`: the hexadecimal digest of a content. -/
structure Sha256 where
  hexdigest : Bytes → String
  hex : ∀ content, IsHex (hexdigest content)

/-- The files, by their paths. -/
abbrev Files := String → Option Bytes

/-- The name of the copy of a file that is not complete yet: `.{digest}.{pid}.tmp` in the directory
    of the blob. -/
def temporaryPath (workspaceRoot projectId digest : String) (pid : Nat) : String :=
  workspaceRoot ++ "/" ++ projectId ++ "/artifacts/sha256/" ++
    String.ofList (digest.toList.take 2) ++ "/." ++ digest ++ "." ++ toString pid ++ ".tmp"

/-- An effect of a session that ingests files. -/
inductive StoreEffect where
  | isFile (path : String)
  | openRead (path : String)
  | openNew (path : String)
  | read (path : String) (offset : Nat)
  | append (path : String) (chunk : Bytes)
  | sync (path : String)
  | isPresent (path : String)
  | replace (source target : String)
  | unlink (path : String)
  | chmod (path : String)
  | stat (path : String)
  | begin
  | existing (a : IngestArgs)
  | currentVersion (projectId logicalName : String)
  | add (a : IngestArgs) (version : Nat)
  | commit
  | rollback

/-- What an effect that does not raise is answered with. -/
def StoreEffect.Value : StoreEffect → Type
  | .isFile _ => Bool
  | .openRead _ => Unit
  | .openNew _ => Unit
  | .read _ _ => Bytes
  | .append _ _ => Unit
  | .sync _ => Unit
  | .isPresent _ => Bool
  | .replace _ _ => Unit
  | .unlink _ => Unit
  | .chmod _ => Unit
  | .stat _ => Nat
  | .begin => Unit
  | .existing _ => Option String
  | .currentVersion _ _ => Nat
  | .add _ _ => String
  | .commit => Unit
  | .rollback => Unit

/-- What an effect is answered with. -/
def StoreEffect.Answer (e : StoreEffect) : Type := Except PyErr e.Value

/-- A program over the effects of the store. -/
abbrev Storing := Program StoreEffect StoreEffect.Answer PyErr

/-- Perform an effect; an exception goes on to the caller. -/
def Storing.perform (e : StoreEffect) : Storing e.Value :=
  Program.call e >>= Program.check

namespace Storing

abbrev isFile (path : String) : Storing Bool := perform (.isFile path)
abbrev openRead (path : String) : Storing Unit := perform (.openRead path)
abbrev openNew (path : String) : Storing Unit := perform (.openNew path)
abbrev read (path : String) (offset : Nat) : Storing Bytes := perform (.read path offset)
abbrev append (path : String) (chunk : Bytes) : Storing Unit := perform (.append path chunk)
abbrev sync (path : String) : Storing Unit := perform (.sync path)
abbrev isPresent (path : String) : Storing Bool := perform (.isPresent path)
abbrev unlink (path : String) : Storing Unit := perform (.unlink path)
abbrev chmod (path : String) : Storing Unit := perform (.chmod path)
abbrev stat (path : String) : Storing Nat := perform (.stat path)
abbrev begin : Storing Unit := perform .begin
abbrev existing (a : IngestArgs) : Storing (Option String) := perform (.existing a)
abbrev currentVersion (projectId logicalName : String) : Storing Nat :=
  perform (.currentVersion projectId logicalName)
abbrev add (a : IngestArgs) (version : Nat) : Storing String := perform (.add a version)
abbrev commit : Storing Unit := perform .commit
abbrev rollback : Storing Unit := perform .rollback

/-- `os.replace`, whose exception the caller looks at later. -/
abbrev replace (source target : String) : Storing (Except PyErr Unit) :=
  Program.call (StoreEffect.replace source target)

end Storing

/-! ## Programs -/

/-- The loop of `sha256_file`. -/
def sha256Loop (sha : Sha256) (path : String) : Nat → Bytes → Storing String
  | 0, _ => Program.raise (.ioError path)
  | limit + 1, content => do
    let chunk ← Storing.read path content.length
    if chunk = [] then return sha.hexdigest content
    else sha256Loop sha path limit (content ++ chunk)

/-- `sha256_file`. -/
def sha256File (sha : Sha256) (limit : Nat) (path : String) : Storing String := do
  Storing.openRead path
  sha256Loop sha path limit []

/-- The loop of `shutil.copyfileobj`. -/
def copyLoop (source target : String) : Nat → Nat → Storing Unit
  | 0, _ => Program.raise (.ioError source)
  | limit + 1, offset => do
    let chunk ← Storing.read source offset
    if chunk = [] then return ()
    else do
      Storing.append target chunk
      copyLoop source target limit (offset + chunk.length)

/-- The part of `ingest_file` for a content that is not stored yet. -/
def storeBlob (sha : Sha256) (limit : Nat) (source temporary destination digest : String) :
    Storing Unit := do
  Storing.openRead source
  Storing.openNew temporary
  copyLoop source temporary limit 0
  Storing.sync temporary
  let copied ← sha256File sha limit temporary
  if copied ≠ digest then do
    Storing.unlink temporary
    Program.raise (.ioError "artifact copy hash mismatch")
  else do
    let replaced ← Storing.replace temporary destination
    -- the file is removed whether `os.replace` raises or not
    Storing.unlink temporary
    Program.check replaced
    Storing.chmod destination

/-- The part of `ingest_file` for a content that is stored already. -/
def checkBlob (sha : Sha256) (limit : Nat) (destination digest : String) : Storing Unit := do
  let found ← sha256File sha limit destination
  if found ≠ digest then
    Program.raise (.ioError s!"content-addressed artifact corrupted: {destination}")
  else return ()

/-- A call of `ingest_file`, with the process that makes it and a bound on the chunks it reads. -/
structure IngestCall where
  projectId : String
  taskId : Option String := none
  source : String
  logicalName : String
  kind : String
  producerType : String
  producerRefId : String
  evidenceEligible : Bool := false
  metadata : JsonObject := []
  pid : Nat
  limit : Nat

/-- What is known about the artifact once its content has been stored. -/
def IngestCall.args (c : IngestCall) (workspaceRoot digest : String) (sizeBytes : Nat) :
    IngestArgs :=
  { id := "", projectId := c.projectId, taskId := c.taskId, logicalName := c.logicalName,
    kind := c.kind, producerType := c.producerType, producerRefId := c.producerRefId,
    evidenceEligible := c.evidenceEligible, metadata := c.metadata, digest := digest,
    uri := blobPath workspaceRoot c.projectId digest, sizeBytes := sizeBytes }

/-- The blob of a digest is there afterwards. -/
def ensureBlob (sha : Sha256) (workspaceRoot : String) (c : IngestCall) (digest : String) :
    Storing Unit := do
  let destination := blobPath workspaceRoot c.projectId digest
  let present ← Storing.isPresent destination
  if present then checkBlob sha c.limit destination digest
  else
    storeBlob sha c.limit c.source (temporaryPath workspaceRoot c.projectId digest c.pid)
      destination digest

/-- What `ingest_file` does for a digest that its producer has not stored. -/
def ingestNew (sha : Sha256) (workspaceRoot : String) (c : IngestCall) (digest : String) :
    Storing String := do
  ensureBlob sha workspaceRoot c digest
  let current ← Storing.currentVersion c.projectId c.logicalName
  let size ← Storing.stat (blobPath workspaceRoot c.projectId digest)
  Storing.add (c.args workspaceRoot digest size) (current + 1)

/-- `ArtifactStore.ingest_file`. -/
def ingestFile (sha : Sha256) (workspaceRoot : String) (c : IngestCall) : Storing String := do
  let isFile ← Storing.isFile c.source
  if isFile then do
    let digest ← sha256File sha c.limit c.source
    let existing ← Storing.existing (c.args workspaceRoot digest 0)
    match existing with
    | some artifactId => return artifactId
    | none => ingestNew sha workspaceRoot c digest
  else Program.raise (.fileNotFoundError c.source)

/-- The calls of a session. -/
def ingestFiles (sha : Sha256) (workspaceRoot : String) :
    List IngestCall → Storing (List String)
  | [] => return []
  | c :: rest => do
    let first ← ingestFile sha workspaceRoot c
    let others ← ingestFiles sha workspaceRoot rest
    return first :: others

/-- What a session does: its calls, and whether it commits or rolls back in the end. -/
structure IngestPlan where
  calls : List IngestCall
  commits : Bool

/-- The end of a session. -/
def endSession (commits : Bool) : Storing Unit :=
  if commits then Storing.commit else Storing.rollback

/-- A session. -/
def ingestSession (sha : Sha256) (workspaceRoot : String) (plan : IngestPlan) :
    Storing (List String) := do
  Storing.begin
  let artifacts ← ingestFiles sha workspaceRoot plan.calls
  endSession plan.commits
  return artifacts

/-! ## What the effects do -/

/-- The files, the committed database and the working copy of the open session. -/
structure StoreWorld where
  files : Files
  db : Db
  session : Db

/-- What the surroundings answer: an exception, the number of bytes behind the first one that a read
    returns, and a random identifier. -/
structure StoreAnswer where
  fault : Option PyErr := none
  more : Nat := 0
  uuid : String := ""

/-- What an effect does that the surroundings do not let raise. -/
def StoreWorld.act (w : StoreWorld) (o : StoreAnswer) :
    (e : StoreEffect) → StoreWorld × e.Answer
  | .isFile path => (w, .ok (w.files path).isSome)
  | .openRead path =>
    (w, if (w.files path).isSome then .ok () else .error (.fileNotFoundError path))
  | .openNew path =>
    if (w.files path).isSome then (w, .error (.ioError s!"File exists: {path}"))
    else ({ w with files := Function.update w.files path (some []) }, .ok ())
  | .read path offset => (w, .ok ((((w.files path).getD []).drop offset).take (o.more + 1)))
  | .append path chunk =>
    ({ w with files := Function.update w.files path (some ((w.files path).getD [] ++ chunk)) },
      .ok ())
  | .sync _ => (w, .ok ())
  | .isPresent path => (w, .ok (w.files path).isSome)
  | .replace source target =>
    match w.files source with
    | none => (w, .error (.fileNotFoundError source))
    | some content =>
      ({ w with files :=
          Function.update (Function.update w.files source none) target (some content) }, .ok ())
  | .unlink path => ({ w with files := Function.update w.files path none }, .ok ())
  | .chmod _ => (w, .ok ())
  | .stat path =>
    (w, match w.files path with
      | some content => .ok content.length
      | none => .error (.fileNotFoundError path))
  | .begin => ({ w with session := w.db }, .ok ())
  | .existing a => (w, .ok ((w.session.existingArtifact a).map Prod.fst))
  | .currentVersion projectId logicalName =>
    (w, .ok (w.session.currentVersion projectId logicalName))
  | .add a version =>
    match w.session.addArtifact { a with id := o.uuid } version with
    | .ok (artifactId, db) => ({ w with session := db }, .ok artifactId)
    | .error e => (w, .error e)
  | .commit => ({ w with db := w.session }, .ok ())
  | .rollback => ({ w with session := w.db }, .ok ())

/-- The path is below the `artifacts` directory of a project. -/
def BelowArtifacts (workspaceRoot path : String) : Prop :=
  ∃ projectId rest, path = workspaceRoot ++ "/" ++ projectId ++ "/artifacts/" ++ rest

/-- A file outside of the store is written or removed. -/
structure ForeignWrite (workspaceRoot : String) where
  path : String
  content : Option Bytes
  outside : ¬ BelowArtifacts workspaceRoot path

/-- The store with its surroundings. -/
def storeMachine (workspaceRoot : String) :
    Machine StoreWorld StoreEffect StoreEffect.Answer StoreAnswer (ForeignWrite workspaceRoot) where
  handle w e o :=
    match o.fault with
    | some error => (w, .error error)
    | none => w.act o e
  drift w f := some { w with files := Function.update w.files f.path f.content }

/-- A moment of a run. -/
abbrev StoreConfig := Config StoreWorld StoreEffect StoreEffect.Answer PyErr (List String)

/-- The runs of sessions, one after the other. -/
def storeSystem (sha : Sha256) (workspaceRoot : String) :
    System StoreConfig (RunEvent IngestPlan StoreAnswer (ForeignWrite workspaceRoot)) :=
  (storeMachine workspaceRoot).system (ingestSession sha workspaceRoot)

end ResearchController
