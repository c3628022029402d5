import ResearchController.Compute.Local.Submission
import ResearchController.Compute.Routing
import ResearchController.Lib.Embed
import ResearchController.Services.ReconcileDue

/-!
# Ticks

Port of `tick` of `controller.py` with everything that it calls: `reconcile_due`, lease recovery,
`reconcile_created`, readiness, verification and `dispatch_ready`, one after the other, as a program
over all of their effects. The loops of the reconciler and of the submission protocol are the
programs of `Services/ReconcileDue` and `Compute/Local/Submission`; the dispatcher is spelled out
here for the local provider, with its routing and its files. `evaluate_project_transitions` does
nothing, and the log line at the end is left out.

A process is a `ControllerProcess`, and `main` of `cli.py` has it tick once, or tick until no task
is left (`Command`). The loop of `run_forever` is one `Command.once` after the other. At any time at
most one process ticks on a database: the design is that of a single controller, and multi-process
dispatch is out of its scope. A process may crash anywhere, and then it is started again, or another
one is (`tickSystem`).
-/

namespace ResearchController
open Lib

/-- What the dispatcher reads of a task before it routes it. -/
def Db.readySpec (db : Db) (taskId : String) : Option Json :=
  (db.tasks.get taskId).bind fun task => if task.status = .ready then some task.specJson else none

/-- An effect of a tick. -/
inductive TickEffect where
  | reconcile (r : ReconcilerSetup) (e : ReconcileEffect)
  | recoverExpiredLeases
  | submission (e : SubmissionEffect)
  | readiness
  | verifyCompletedWork
  | readyTasks
  | readySpec (taskId : String)
  | probe
  | dispatch (a : JobArgs) (owner : String) (leaseSeconds : Int)
  | remaining

/-- What an effect is answered with. -/
def TickEffect.Answer : TickEffect → Type
  | .reconcile _ e => e.Answer
  | .recoverExpiredLeases => Except PyErr (List String)
  | .submission e => e.Answer
  | .readiness => Except PyErr (List String)
  | .verifyCompletedWork => Except PyErr (List String)
  | .readyTasks => List String
  | .readySpec _ => Option Json
  | .probe => Bool
  | .dispatch _ _ _ => Except PyErr (List String)
  | .remaining => Option String

/-- A program over the effects of a tick. -/
abbrev Ticking := Program TickEffect TickEffect.Answer PyErr

namespace Ticking

/-- A part of a tick that the reconciler performs. -/
def reconciling {α : Type} (r : ReconcilerSetup) (p : Reconciling α) : Ticking α :=
  p.embed (TickEffect.reconcile r) fun _ answer => answer

/-- A part of a tick that the submission protocol performs. -/
def submitting {α : Type} (p : Submission α) : Ticking α :=
  p.embed TickEffect.submission fun _ answer => answer

abbrev recoverExpiredLeases : Ticking (Except PyErr (List String)) :=
  Program.call TickEffect.recoverExpiredLeases

abbrev readiness : Ticking (Except PyErr (List String)) :=
  Program.call TickEffect.readiness

abbrev verifyCompletedWork : Ticking (Except PyErr (List String)) :=
  Program.call TickEffect.verifyCompletedWork

abbrev readyTasks : Ticking (List String) :=
  Program.call TickEffect.readyTasks

abbrev readySpec (taskId : String) : Ticking (Option Json) :=
  Program.call (TickEffect.readySpec taskId)

abbrev probe : Ticking Bool :=
  Program.call TickEffect.probe

abbrev dispatch (a : JobArgs) (owner : String) (leaseSeconds : Int) :
    Ticking (Except PyErr (List String)) :=
  Program.call (TickEffect.dispatch a owner leaseSeconds)

abbrev remaining : Ticking (Option String) :=
  Program.call TickEffect.remaining

end Ticking

/-- A controller process: its provider and how it signs leases. -/
structure ControllerProcess where
  provider : LocalProvider
  controllerId : String
  leaseSeconds : Int := 60

namespace ControllerProcess

/-- The loop of `ComputeRouter.route`. The only registered provider is the local one. -/
def routeFrom (spec : ComputeTaskSpec) : List String → Ticking String
  | [] => .raise (.runtimeError "no feasible compute provider")
  | providerId :: rest =>
    if providerId ≠ LocalProvider.providerId then
      .raise (.lookupError s!"unknown provider: {providerId}")
    else do
      let canSubmit ← Ticking.probe
      if canSubmit then
        let snapshot ← Ticking.submitting Submission.discoverResources
        if LocalProvider.canRun spec snapshot then
          match snapshot.offers.find? (·.accepted spec.resources) with
          | some offer => return offer.resourceClass
          | none => routeFrom spec rest
        else
          routeFrom spec rest
      else
        routeFrom spec rest

/-- What `dispatch_ready` passes to `create_compute_job`; the identifier is chosen there. -/
def jobArgs (taskId resourceClass : String) (spec : ComputeTaskSpec) (prepared : PreparedJob) :
    JobArgs :=
  { id := "", taskId := taskId, providerId := LocalProvider.providerId,
    resourceClass := resourceClass, submissionKey := spec.submissionKey,
    remoteWorkdir := prepared.workdir, specJson := spec }

/-- One iteration of `dispatch_ready`. -/
def dispatchOne (modelValidate : Json → Except PyErr ComputeTaskSpec) (c : ControllerProcess)
    (taskId : String) : Ticking (List String) := do
  let found ← Ticking.readySpec taskId
  match found with
  | none => return []
  | some specJson => do
    let spec ← Program.check (modelValidate specJson)
    let resourceClass ← routeFrom spec spec.routing.allowedProviders
    let prepared ← Ticking.submitting (c.provider.prepare spec resourceClass)
    let committed ← Ticking.dispatch (jobArgs taskId resourceClass spec prepared) c.controllerId
      c.leaseSeconds
    Program.check committed

/-- The loop of `dispatch_ready`. -/
def dispatchEach (modelValidate : Json → Except PyErr ComputeTaskSpec) (c : ControllerProcess) :
    List String → Ticking (List String)
  | [] => return []
  | taskId :: rest => do
    let first ← dispatchOne modelValidate c taskId
    let others ← dispatchEach modelValidate c rest
    return first ++ others

/-- `ComputeDispatcher.dispatch_ready`. -/
def dispatchReady (modelValidate : Json → Except PyErr ComputeTaskSpec) (c : ControllerProcess) :
    Ticking (List String) := do
  let taskIds ← Ticking.readyTasks
  dispatchEach modelValidate c taskIds

end ControllerProcess

/-- `TickResult`. -/
structure TickResult where
  observedJobs : Nat := 0
  recoveredTasks : Nat := 0
  reconciledSubmissions : Nat := 0
  readiedTasks : Nat := 0
  verifiedTasks : Nat := 0
  dispatchedJobs : Nat := 0
  deriving DecidableEq

/-- `ResearchController.tick`. -/
def ControllerProcess.tick (modelValidate : Json → Except PyErr ComputeTaskSpec)
    (c : ControllerProcess) (r : ReconcilerSetup) : Ticking TickResult := do
  -- existing external work always comes first
  let observed ← Ticking.reconciling r (reconcileDue r)
  let recovery ← Ticking.recoverExpiredLeases
  let recovered ← Program.check recovery
  let reconciled ← Ticking.submitting c.provider.reconcileCreated
  let readying ← Ticking.readiness
  let readied ← Program.check readying
  let verification ← Ticking.verifyCompletedWork
  let verified ← Program.check verification
  let dispatched ← c.dispatchReady modelValidate
  return { observedJobs := observed.length, recoveredTasks := recovered.length,
           reconciledSubmissions := reconciled.length, readiedTasks := readied.length,
           verifiedTasks := verified.length, dispatchedJobs := dispatched.length }

/-- `ResearchController.run_until_idle`, which gets as far as its deadline allows: one round for
    every time that the deadline has not passed. -/
def ControllerProcess.runUntilIdle (modelValidate : Json → Except PyErr ComputeTaskSpec)
    (c : ControllerProcess) : List ReconcilerSetup → Ticking Unit
  | [] => .raise (.ioError "controller did not become idle before timeout")
  | r :: rounds => do
    let _ ← c.tick modelValidate r
    let remaining ← Ticking.remaining
    match remaining with
    | none => return ()
    | some _ => c.runUntilIdle modelValidate rounds

/-- What a process is started for. -/
inductive Command where
  | once (r : ReconcilerSetup)
  | untilIdle (rounds : List ReconcilerSetup)

/-- `main`. -/
def ControllerProcess.main (modelValidate : Json → Except PyErr ComputeTaskSpec)
    (c : ControllerProcess) : Command → Ticking (Option TickResult)
  | .once r => do
    let result ← c.tick modelValidate r
    return some result
  | .untilIdle rounds => do
    c.runUntilIdle modelValidate rounds
    return none

/-! ## What the effects do -/

/-- The states that the query of `run_until_idle` asks for. -/
def TaskStatus.remains (s : TaskStatus) : Bool :=
  s == .pending || s == .ready || s == .running || s == .verifying

/-- The query of `run_until_idle`. -/
def Db.remaining (db : Db) : Option String :=
  (db.tasks.keysWhere fun _ t => t.status.remains).head?

/-- What the surroundings answer: to the reconciler, to the submission protocol, the clock, the
    order of a query result, the contents of files, what `json.loads` makes of a text, the frames
    left on the stack, whether the provider can submit, and a new identifier. -/
structure TickAnswer where
  reconcile : ReconcileAnswer := {}
  submission : Surroundings := {}
  current : Datetime := 0
  changedAt : Datetime := 0
  order : List String := []
  readFile : String → FileContent := fun _ => .bytes []
  loads : String → Except PyErr Json := fun _ => .error (.jsonDecodeError "")
  frames : Nat := 0
  canSubmit : Bool := true
  uuid : String := ""

/-- The identifiers that a query selects, in some order. -/
def orderedAs (ids order : List String) : List String :=
  if order.Perm ids then order else ids

lemma orderedAs_perm (ids order : List String) : (orderedAs ids order).Perm ids := by
  unfold orderedAs
  split
  · assumption
  · exact .refl _

/-- The world with another database, and an answer. -/
def LocalWorld.withDb {α : Type} (w : LocalWorld) (r : Db × α) : LocalWorld × α :=
  ({ w with db := r.1 }, r.2)

/-- What an effect of a tick does. A `begin()` block is one effect: the session reads before the
    database driver opens its transaction, but nobody else writes in between, since there is no
    other controller process. -/
def LocalWorld.handleTick (modelValidate : Json → Except PyErr ComputeTaskSpec) (w : LocalWorld) :
    (e : TickEffect) → TickAnswer → LocalWorld × e.Answer
  | .reconcile r e, o => w.withDb (r.handle w.db e o.reconcile)
  | .recoverExpiredLeases, o =>
    w.withDb (w.db.finish (w.db.recoverExpiredLeases o.changedAt
      (orderedAs (w.db.expiredCandidates o.current) o.order)))
  | .submission e, o => w.handle e o.submission
  | .readiness, o =>
    w.withDb (w.db.finish (w.db.reconcile o.changedAt
      (orderedAs (w.db.readinessCandidates o.current) o.order)))
  | .verifyCompletedWork, o =>
    let v : TaskValidator := ⟨modelValidate, o.readFile, o.loads, o.frames⟩
    w.withDb (w.db.finish (v.verifyCompletedWork w.db o.changedAt
      (orderedAs w.db.verifyingTasks o.order)))
  | .readyTasks, _ => (w, w.db.readyTasks)
  | .readySpec taskId, _ => (w, w.db.readySpec taskId)
  | .probe, o => (w, o.canSubmit)
  | .dispatch a owner leaseSeconds, o =>
    w.withDb (w.db.finish (w.db.dispatchCommit { a with id := o.uuid } owner
      (o.current + leaseSeconds * 1000000) o.changedAt))
  | .remaining, _ => (w, w.db.remaining)

/-- A step of something else than a tick: files and runners change in any way, or the command line
    creates a project or a task, between two transactions of the controller. -/
inductive Outside where
  | files (w : LocalWorld)
  | createProject (id slug : String) (lifecycle : ProjectLifecycle)
  | createTask (a : TaskArgs)

/-- The world after such a step. -/
def LocalWorld.outside (w : LocalWorld) : Outside → LocalWorld
  | .files other => { other with db := w.db }
  | .createProject id slug lifecycle =>
    { w with db := (w.db.finish (w.db.createProject id slug lifecycle)).1 }
  | .createTask a => { w with db := (w.db.finish (w.db.createTask a)).1 }

/-- The world that a controller process works on. -/
def tickMachine (modelValidate : Json → Except PyErr ComputeTaskSpec) :
    Machine LocalWorld TickEffect TickEffect.Answer TickAnswer Outside where
  handle := LocalWorld.handleTick modelValidate
  drift w x := some (w.outside x)

/-- The world and the controller process that works on it, if there is one. -/
abbrev TickState := Pool Unit LocalWorld TickEffect TickEffect.Answer PyErr (Option TickResult)

/-- A process is started with a command, performs an effect or crashes, or something else
    happens. -/
abbrev TickEvent := Unit × RunEvent (ControllerProcess × Command) TickAnswer Outside

/-- The runs of one controller process at a time. Every start may be that of another process. -/
def tickSystem (modelValidate : Json → Except PyErr ComputeTaskSpec) :
    System TickState TickEvent :=
  (tickMachine modelValidate).pool fun _ started => started.1.main modelValidate started.2

end ResearchController
