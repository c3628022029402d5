import ResearchController.Artifacts.Store
import ResearchController.Compute.Local.Collect
import ResearchController.Controller

/-!
# Reconciling the jobs that are due

Port of `_reconcile_collecting` and `reconcile_due` of `services/reconciler.py`, as programs whose
effects are the queries, the calls of the providers and the transactions. Every candidate is
ingested in a transaction of its own, and another one finalises the job.

`ReconcilerSetup` is what the reconciler works with during such a call: the registered providers
with their answers, the artifact store and the working directories. The query results come in the
order that the surroundings choose.
-/

namespace ResearchController
open Lib

/-- `type(exc).__name__`. -/
def PyErr.typeName : PyErr → String
  | .invalidTransition _ => "InvalidTransition"
  | .lookupError _ => "LookupError"
  | .valueError _ => "ValueError"
  | .validationError _ => "ValidationError"
  | .runtimeError _ => "RuntimeError"
  | .typeError _ => "TypeError"
  | .keyError _ => "KeyError"
  | .attributeError _ => "AttributeError"
  | .overflowError _ => "OverflowError"
  | .fileNotFoundError _ => "FileNotFoundError"
  | .ioError _ => "OSError"
  | .permissionError _ => "PermissionError"
  | .unicodeDecodeError _ => "UnicodeDecodeError"
  | .unicodeEncodeError _ => "UnicodeEncodeError"
  | .jsonDecodeError _ => "JSONDecodeError"
  | .recursionError _ => "RecursionError"
  | .notImplementedError _ => "NotImplementedError"
  | .staleDataError _ => "StaleDataError"
  | .integrityError _ => "IntegrityError"
  | .statementError _ => "StatementError"

/-- An effect of `reconcile_due`. -/
inductive ReconcileEffect where
  | collectingJobs
  | collect (view : ComputeJobView)
  | ingest (view : ComputeJobView) (candidate : ArtifactCandidate)
  | finalise (jobId : String)
  | now
  | dueJobs (now : Datetime)
  | poll (view : ComputeJobView)
  | pollRaised (jobId : String) (error : PyErr) (now : Datetime)
  | record (observation : JobObservation)

/-- What an effect is answered with. -/
def ReconcileEffect.Answer : ReconcileEffect → Type
  | .collectingJobs => List ComputeJobView
  | .collect _ => Except PyErr (List ArtifactCandidate)
  | .ingest _ _ => Except PyErr String
  | .finalise _ => Except PyErr (List String)
  | .now => Datetime
  | .dueJobs _ => List ComputeJobView
  | .poll _ => Except PyErr JobObservation
  | .pollRaised _ _ _ => Except PyErr Unit
  | .record _ => Except PyErr Unit

/-- A program over the effects of `reconcile_due`. -/
abbrev Reconciling := Program ReconcileEffect ReconcileEffect.Answer PyErr

namespace Reconciling

abbrev collectingJobs : Reconciling (List ComputeJobView) :=
  Program.call ReconcileEffect.collectingJobs

abbrev collect (view : ComputeJobView) : Reconciling (Except PyErr (List ArtifactCandidate)) :=
  Program.call (ReconcileEffect.collect view)

abbrev ingest (view : ComputeJobView) (candidate : ArtifactCandidate) :
    Reconciling (Except PyErr String) :=
  Program.call (ReconcileEffect.ingest view candidate)

abbrev finalise (jobId : String) : Reconciling (Except PyErr (List String)) :=
  Program.call (ReconcileEffect.finalise jobId)

abbrev now : Reconciling Datetime := Program.call ReconcileEffect.now

abbrev dueJobs (now : Datetime) : Reconciling (List ComputeJobView) :=
  Program.call (ReconcileEffect.dueJobs now)

abbrev poll (view : ComputeJobView) : Reconciling (Except PyErr JobObservation) :=
  Program.call (ReconcileEffect.poll view)

abbrev pollRaised (jobId : String) (error : PyErr) (now : Datetime) :
    Reconciling (Except PyErr Unit) :=
  Program.call (ReconcileEffect.pollRaised jobId error now)

abbrev record (observation : JobObservation) : Reconciling (Except PyErr Unit) :=
  Program.call (ReconcileEffect.record observation)

end Reconciling

/-- What the reconciler works with: the registered providers, what their `collect` and `poll` answer
    for a job, the root of the artifact store, the working directories and the poll interval. -/
structure ReconcilerSetup where
  registered : String → Bool
  collect : ComputeJobView → Except PyErr (List ArtifactCandidate)
  poll : ComputeJobView → Except PyErr JobObservation
  workspaceRoot : String
  files : String → Workdir
  pollInterval : Int

/-- `registry.get`. -/
def ReconcilerSetup.getProvider (r : ReconcilerSetup) (providerId : String) : Except PyErr Unit :=
  if r.registered providerId then .ok ()
  else .error (.lookupError s!"unknown provider: {providerId}")

/-- The loop over the candidates of a job. -/
def ingestEach (view : ComputeJobView) : List ArtifactCandidate → Reconciling Unit
  | [] => return ()
  | candidate :: rest => do
    let ingested ← Reconciling.ingest view candidate
    let _ ← Program.check ingested
    ingestEach view rest

/-- One iteration of `_reconcile_collecting`. -/
def collectOne (r : ReconcilerSetup) (view : ComputeJobView) : Reconciling (List String) := do
  Program.check (r.getProvider view.providerId)
  let collected ← Reconciling.collect view
  -- an exception of the provider leaves the loop here
  let candidates ← Program.check collected
  ingestEach view candidates
  let finalised ← Reconciling.finalise view.id
  Program.check finalised

/-- The loop of `_reconcile_collecting`. -/
def collectEach (r : ReconcilerSetup) : List ComputeJobView → Reconciling (List String)
  | [] => return []
  | view :: rest => do
    let first ← collectOne r view
    let others ← collectEach r rest
    return first ++ others

/-- `ComputeReconciler._reconcile_collecting`. -/
def reconcileCollecting (r : ReconcilerSetup) : Reconciling (List String) := do
  let views ← Reconciling.collectingJobs
  collectEach r views

/-- One iteration of the loop of `reconcile_due`. -/
def pollOne (r : ReconcilerSetup) (now : Datetime) (view : ComputeJobView) :
    Reconciling (List String) := do
  Program.check (r.getProvider view.providerId)
  let answer ← Reconciling.poll view
  match answer with
  | .error e =>
    -- an exception of the provider is recorded, and the loop goes on
    let recorded ← Reconciling.pollRaised view.id e now
    Program.check recorded
    return []
  | .ok observation =>
    let recorded ← Reconciling.record observation
    Program.check recorded
    return [view.id]

/-- The loop of `reconcile_due`. -/
def pollEach (r : ReconcilerSetup) (now : Datetime) :
    List ComputeJobView → Reconciling (List String)
  | [] => return []
  | view :: rest => do
    let first ← pollOne r now view
    let others ← pollEach r now rest
    return first ++ others

/-- `ComputeReconciler.reconcile_due`. -/
def reconcileDue (r : ReconcilerSetup) : Reconciling (List String) := do
  let _ ← reconcileCollecting r
  let now ← Reconciling.now
  let views ← Reconciling.dueJobs now
  let observed ← pollEach r now views
  let _ ← reconcileCollecting r
  return observed

/-! ## What the effects do -/

/-- What the surroundings answer: a random identifier, the time, and the order of a query result. -/
structure ReconcileAnswer where
  uuid : String := ""
  now : Datetime := 0
  order : List String := []

/-- The rows of a query in some order. -/
def arranged (views : List ComputeJobView) (order : List String) : List ComputeJobView :=
  if order.Perm (views.map (·.id)) then
    order.filterMap fun id => views.find? (·.id == id)
  else
    views

lemma mem_arranged {views : List ComputeJobView} {order : List String} {view : ComputeJobView}
    (mem : view ∈ arranged views order) : view ∈ views := by
  unfold arranged at mem
  split at mem
  · obtain ⟨id, _, found⟩ := List.mem_filterMap.mp mem
    exact List.mem_of_find?_eq_some found
  · exact mem

/-- The query of `_reconcile_collecting`. -/
def Db.collectingJobs (db : Db) : List ComputeJobView :=
  (db.jobs.items.filter fun (_, job) => job.executionStatus == .collecting).map fun (id, job) =>
    job.view id

lemma Db.mem_collectingJobs {db : Db} {view : ComputeJobView} :
    view ∈ db.collectingJobs ↔ ∃ id job, db.jobs.get id = some job ∧
      job.executionStatus = .collecting ∧ view = job.view id := by
  unfold collectingJobs
  rw [List.mem_map]
  constructor
  · rintro ⟨⟨id, job⟩, mem, rfl⟩
    obtain ⟨item, collecting⟩ := List.mem_filter.mp mem
    exact ⟨id, job, (Dict.mem_items _).mp item, eq_of_beq collecting, rfl⟩
  · rintro ⟨id, job, hj, collecting, rfl⟩
    exact ⟨(id, job), List.mem_filter.mpr ⟨(Dict.mem_items _).mpr hj, beq_iff_eq.mpr collecting⟩,
      rfl⟩

/-- The query of `reconcile_due`. -/
def Db.dueJobs (db : Db) (now : Datetime) : List ComputeJobView :=
  (db.jobs.items.filter fun (_, job) =>
    job.executionStatus.isPollable && job.nextPollAt.all (· ≤ now)).map fun (id, job) =>
      job.view id

/-- What `ingest_file` is called with for a candidate, once its file has been hashed and stored. -/
def ReconcilerSetup.ingestArgs (r : ReconcilerSetup) (view : ComputeJobView)
    (candidate : ArtifactCandidate) (id : String) : IngestArgs :=
  let files := r.files view.remoteWorkdir
  let digest := files.digest candidate.path
  view.ingestArgs candidate id digest (blobPath r.workspaceRoot view.projectId digest)
    (files.size candidate.path)

/-- The transaction that ingests a candidate. -/
def ReconcilerSetup.ingest (r : ReconcilerSetup) (db : Db) (view : ComputeJobView)
    (candidate : ArtifactCandidate) (id : String) : Except PyErr (String × Db) :=
  if (r.files view.remoteWorkdir).isFile candidate.path then
    db.ingestRow (r.ingestArgs view candidate id)
  else
    .error (.fileNotFoundError candidate.path)

/-- The committed database and the answer of a transaction. -/
def Db.finish {α : Type} (db : Db) : Except PyErr (α × Db) → Db × Except PyErr α
  | .ok (a, db') => (db', .ok a)
  | .error e => (db, .error e)

/-- What an effect does. -/
def ReconcilerSetup.handle (r : ReconcilerSetup) (db : Db) :
    (e : ReconcileEffect) → ReconcileAnswer → Db × e.Answer
  | .collectingJobs, o => (db, arranged db.collectingJobs o.order)
  | .collect view, _ => (db, r.collect view)
  | .ingest view candidate, o => db.finish (r.ingest db view candidate o.uuid)
  | .finalise jobId, o => db.finish (db.collectingCommit jobId o.now)
  | .now, o => (db, o.now)
  | .dueJobs now, o => (db, arranged (db.dueJobs now) o.order)
  | .poll view, _ => (db, r.poll view)
  | .pollRaised jobId error now, _ =>
    db.finish ((db.pollErrorCommit jobId error.typeName r.pollInterval now).map fun db => ((), db))
  | .record observation, o =>
    db.finish ((db.recordObservation observation r.pollInterval o.now).map fun db => ((), db))

/-- The reconciler at work. Its surroundings answer, but take no steps of their own. -/
def collectingMachine (r : ReconcilerSetup) :
    Machine Db ReconcileEffect ReconcileEffect.Answer ReconcileAnswer Empty where
  handle := r.handle
  drift _ _ := none

end ResearchController
