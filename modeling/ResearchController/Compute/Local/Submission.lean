import ResearchController.Controller
import ResearchController.Lib.Program

/-!
# Submission to the local provider

Port of `prepare`, `submit` and `reconcile_submission` of `compute/local/provider.py` and of
`reconcile_created` of `services/reconciler.py`, as programs: every read and every replacement of a
file, the start of a runner process and the database transaction are effects of their own. A file is
replaced atomically and a runner that has been started is never taken back.

`LocalWorld` is what survives a crash of the controller. While a call is in progress or between
calls, the controller's other transactions may change the database (`localMachine`).

Left out are time stamps and schema versions of the records, the directories that are created on the
way, and the environment that a runner inherits.
-/

namespace ResearchController
open Lib

/-- The status of a submission record. -/
inductive SubmissionStatus where
  | reserved
  | launched
  deriving DecidableEq, Repr

/-- The JSON object of a submission record. -/
structure SubmissionRecord where
  submissionKey : String
  externalJobId : String
  workdir : String
  status : SubmissionStatus
  pid : Option Int := none

/-- An effect of the submission protocol. -/
inductive SubmissionEffect where
  | createdJobs
  | recordExists (path : String)
  | loadRecord (path : String)
  | writeRecord (path : String) (record : SubmissionRecord)
  | newExternalId
  | discoverResources
  | writePrepared (prepared : PreparedJob)
  | launch (prepared : PreparedJob)
  | commitSubmitted (jobId externalId : String)

/-- What an effect is answered with. -/
def SubmissionEffect.Answer : SubmissionEffect → Type
  | .createdJobs => List (ComputeJobView × ComputeTaskSpec)
  | .recordExists _ => Bool
  | .loadRecord _ => Except PyErr SubmissionRecord
  | .writeRecord _ _ => Unit
  | .newExternalId => String
  | .discoverResources => ResourceSnapshot
  | .writePrepared _ => Unit
  | .launch _ => Int
  | .commitSubmitted _ _ => Except PyErr (List String)

/-- A program over the effects of the submission protocol. -/
abbrev Submission := Program SubmissionEffect SubmissionEffect.Answer PyErr

namespace Submission

abbrev createdJobs : Submission (List (ComputeJobView × ComputeTaskSpec)) :=
  Program.call SubmissionEffect.createdJobs

abbrev recordExists (path : String) : Submission Bool :=
  Program.call (SubmissionEffect.recordExists path)

abbrev loadRecord (path : String) : Submission (Except PyErr SubmissionRecord) :=
  Program.call (SubmissionEffect.loadRecord path)

abbrev writeRecord (path : String) (record : SubmissionRecord) : Submission Unit :=
  Program.call (SubmissionEffect.writeRecord path record)

abbrev newExternalId : Submission String :=
  Program.call SubmissionEffect.newExternalId

abbrev discoverResources : Submission ResourceSnapshot :=
  Program.call SubmissionEffect.discoverResources

abbrev writePrepared (prepared : PreparedJob) : Submission Unit :=
  Program.call (SubmissionEffect.writePrepared prepared)

abbrev launch (prepared : PreparedJob) : Submission Int :=
  Program.call (SubmissionEffect.launch prepared)

abbrev commitSubmitted (jobId externalId : String) : Submission (Except PyErr (List String)) :=
  Program.call (SubmissionEffect.commitSubmitted jobId externalId)

end Submission

/-- `LocalProvider`: its root directory and the hex digest of a submission key. -/
structure LocalProvider where
  root : String
  digest : String → String

namespace LocalProvider

/-- `LocalProvider.provider_id`. -/
def providerId : String := "local"

/-- `_submission_path`. -/
def submissionPath (p : LocalProvider) (submissionKey : String) : String :=
  p.root ++ "/submissions/" ++ p.digest submissionKey ++ ".json"

/-- The directory of a job: `jobs_root / project_id / task_id / key_hash`, where the identifiers of
    the project and the task are plain path components, neither absolute nor dotted. -/
def workdir (p : LocalProvider) (spec : ComputeTaskSpec) : String :=
  p.root ++ "/jobs/" ++ spec.projectId ++ "/" ++ spec.taskId ++ "/" ++
    String.ofList ((p.digest spec.submissionKey).toList.take 16)

/-- The loop of `prepare` over the offers, which picks the GPU of the resource class. -/
def prepareEnv (env : List (String × String)) (resourceClass : String)
    (offers : List ResourceOffer) :
    List (String × String) :=
  offers.foldl (fun env offer =>
    match offer.gpuIndex with
    | some index =>
      if offer.resourceClass = resourceClass then
        Dict.setItems env "CUDA_VISIBLE_DEVICES" (toString index)
      else env
    | none => env) env

/-- The `PreparedJob` that `prepare` builds. -/
def preparedJob (p : LocalProvider) (spec : ComputeTaskSpec) (resourceClass : String)
    (offers : List ResourceOffer) : PreparedJob :=
  { providerId := providerId, submissionKey := spec.submissionKey, resourceClass := resourceClass,
    workdir := p.workdir spec, command := spec.execution.command ++ spec.execution.argv,
    env := prepareEnv spec.execution.env resourceClass offers, outputs := spec.outputs }

/-- `LocalProvider.prepare`. -/
def prepare (p : LocalProvider) (spec : ComputeTaskSpec) (resourceClass : String) :
    Submission PreparedJob :=
  if spec.execution.command.isEmpty then
    .raise (.valueError
      "LocalProvider Phase 1 requires execution.command; artifact staging is deferred")
  else do
    let snapshot ← Submission.discoverResources
    let prepared := p.preparedJob spec resourceClass snapshot.offers
    Submission.writePrepared prepared
    return prepared

/-- The end of `submit`: start the runner, then record that it was started. -/
def launch (path : String) (record : SubmissionRecord) (prepared : PreparedJob) :
    Submission String := do
  let pid ← Submission.launch prepared
  Submission.writeRecord path { record with status := .launched, pid := some pid }
  return record.externalJobId

/-- The record that `submit` reserves. -/
def reservation (prepared : PreparedJob) (externalJobId : String) : SubmissionRecord :=
  { submissionKey := prepared.submissionKey, externalJobId := externalJobId,
    workdir := prepared.workdir, status := .reserved }

/-- `LocalProvider.submit`. -/
def submit (p : LocalProvider) (prepared : PreparedJob) : Submission String := do
  let path := p.submissionPath prepared.submissionKey
  let present ← Submission.recordExists path
  if present then
    let loaded ← Submission.loadRecord path
    let record ← Program.check loaded
    if record.submissionKey ≠ prepared.submissionKey then
      Program.raise (.runtimeError "submission hash collision")
    else if record.status = .launched then
      return record.externalJobId
    else
      launch path record prepared
  else
    let externalJobId ← Submission.newExternalId
    let record := reservation prepared externalJobId
    Submission.writeRecord path record
    launch path record prepared

/-- `LocalProvider.reconcile_submission`. -/
def reconcileSubmission (p : LocalProvider) (submissionKey : String) :
    Submission (Option String) := do
  let path := p.submissionPath submissionKey
  let present ← Submission.recordExists path
  if present then
    let loaded ← Submission.loadRecord path
    let record ← Program.check loaded
    if record.submissionKey ≠ submissionKey then
      Program.raise (.runtimeError "submission hash collision")
    else if record.status ≠ .launched then
      return none
    else
      return some record.externalJobId
  else
    return none

/-- One iteration of `reconcile_created`. -/
def reconcileOne (p : LocalProvider) (view : ComputeJobView) (spec : ComputeTaskSpec) :
    Submission (List String) := do
  -- `registry.get`: the controller registers the local provider and no other
  if view.providerId ≠ providerId then
    Program.raise (.lookupError s!"unknown provider: {view.providerId}")
  else
    let known ← p.reconcileSubmission view.submissionKey
    match known with
    | some externalId =>
      let committed ← Submission.commitSubmitted view.id externalId
      Program.check committed
    | none =>
      let prepared ← p.prepare spec view.resourceClass
      let externalId ← p.submit prepared
      let committed ← Submission.commitSubmitted view.id externalId
      Program.check committed

/-- The loop of `reconcile_created`. -/
def reconcileEach (p : LocalProvider) :
    List (ComputeJobView × ComputeTaskSpec) → Submission (List String)
  | [] => return []
  | (view, spec) :: rest => do
    let first ← p.reconcileOne view spec
    let others ← p.reconcileEach rest
    return first ++ others

/-- `ComputeReconciler.reconcile_created`. -/
def reconcileCreated (p : LocalProvider) : Submission (List String) := do
  let records ← Submission.createdJobs
  p.reconcileEach records

end LocalProvider

/-- What survives a crash of the controller: the database, the files of the provider and the runner
    processes that have been started, in the order of their start. -/
structure LocalWorld where
  db : Db
  submissions : Dict String SubmissionRecord := Dict.empty
  preparedJobs : Dict String PreparedJob := Dict.empty
  runners : List PreparedJob := []

/-- What the surroundings answer to an effect: a random identifier, a process id, the resources
    found and the time. -/
structure Surroundings where
  uuid : String := ""
  pid : Int := 1
  offers : List ResourceOffer := []
  now : Datetime := 0

/-- The query of `reconcile_created`. -/
def Db.createdJobs (db : Db) : List (ComputeJobView × ComputeTaskSpec) :=
  (db.jobs.items.filter fun (_, job) => job.executionStatus == .created).map fun (id, job) =>
    (job.view id, job.specJson)

/-- What an effect does. -/
def LocalWorld.handle (w : LocalWorld) :
    (e : SubmissionEffect) → Surroundings → LocalWorld × e.Answer
  | .createdJobs, _ => (w, w.db.createdJobs)
  | .recordExists path, _ => (w, (w.submissions.get path).isSome)
  | .loadRecord path, _ =>
    match w.submissions.get path with
    | some record => (w, .ok record)
    | none => (w, .error (.fileNotFoundError path))
  | .writeRecord path record, _ => ({ w with submissions := w.submissions.set path record }, ())
  | .newExternalId, o => (w, "local-" ++ o.uuid)
  | .discoverResources, o => (w, { providerId := LocalProvider.providerId, offers := o.offers })
  | .writePrepared prepared, _ =>
    ({ w with preparedJobs := w.preparedJobs.set prepared.workdir prepared }, ())
  | .launch prepared, o => ({ w with runners := w.runners ++ [prepared] }, o.pid)
  | .commitSubmitted jobId externalId, o =>
    match w.db.reconcileCreatedCommit jobId externalId o.now with
    | .ok (jobIds, db) => ({ w with db := db }, .ok jobIds)
    | .error e => (w, .error e)

/-- Whether an action is the transaction of `reconcile_created`. -/
def Action.isSubmitted : Action → Bool
  | .submitted _ _ _ => true
  | _ => false

/-- The world under the submission protocol; the other transactions of the controller come in
    between. -/
def localMachine (modelValidate : Json → Except PyErr ComputeTaskSpec) :
    Machine LocalWorld SubmissionEffect SubmissionEffect.Answer Surroundings Action where
  handle := LocalWorld.handle
  drift w e :=
    if e.isSubmitted then none
    else ((controller modelValidate).step w.db e).map fun db => { w with db := db }

/-- The runs of `reconcile_created` with crashes and restarts. -/
def submissionSystem (modelValidate : Json → Except PyErr ComputeTaskSpec) (p : LocalProvider) :
    System (Config LocalWorld SubmissionEffect SubmissionEffect.Answer PyErr (List String))
      (RunEvent Unit Surroundings Action) :=
  (localMachine modelValidate).system fun _ => p.reconcileCreated

end ResearchController
