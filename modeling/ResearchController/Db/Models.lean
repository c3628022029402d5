import ResearchController.Lib.Dict
import ResearchController.Protocols.Compute

/-!
# Database models

Port of `db/models.py`: the rows of the tables the controller works on, and the database as the
record of its tables. A row does not repeat its primary key, which is the key of its table. Left out
are the tables and columns that no modelled function reads (agent runs, titles, budgets, the input
and output links of artifacts) and the random identifiers of events and correlations.

The database is split in two. `Rows` holds what the lifecycle of tasks, jobs and artifacts is about;
`Db` adds the projects with their event counters and the audit log.

A transaction is a function `Db → Except PyErr Db` on the working copy of the database. `commit`
keeps the result of a transaction that returns and drops the one of a transaction that raises. A
constraint of the database (`UNIQUE`, a primary key) is checked where the row is inserted; the
source meets it at the next flush of the same transaction, which fails as a whole either way.
-/

namespace ResearchController
open Lib

/-- A row of `projects`. -/
structure Project where
  slug : String
  lifecycle : ProjectLifecycle := .active
  eventSeq : Nat := 0
  lockVersion : Nat := 0
  deriving DecidableEq

/-- A row of `tasks`. -/
structure Task where
  projectId : String
  executor : TaskExecutor
  status : TaskStatus := .pending
  priority : Int := 0
  specJson : Json
  acceptancePolicyJson : JsonObject := []
  attemptCount : Nat := 0
  maxAttempts : Int := 1
  idempotencyKey : String
  notBefore : Option Datetime := none
  leaseOwner : Option String := none
  leaseExpiresAt : Option Datetime := none
  validationPassed : Option Bool := none
  validationReasons : List String := []
  errorSummary : Option String := none
  createdAt : Datetime
  startedAt : Option Datetime := none
  finishedAt : Option Datetime := none
  lockVersion : Nat := 0

/-- A row of `compute_jobs`. -/
structure ComputeJob where
  projectId : String
  taskId : String
  providerId : String
  resourceClass : String
  submissionKey : String
  attemptNo : Nat
  externalJobId : Option String := none
  remoteWorkdir : String
  executionStatus : ComputeExecutionStatus := .created
  observationStatus : ObservationStatus := .fresh
  providerMetadataJson : JsonObject := []
  specJson : ComputeTaskSpec
  submittedAt : Option Datetime := none
  startedAt : Option Datetime := none
  finishedAt : Option Datetime := none
  lastConfirmedAt : Option Datetime := none
  lastPollAt : Option Datetime := none
  nextPollAt : Option Datetime := none
  lastProgressAt : Option Datetime := none
  exitCode : Option Int := none
  failureClass : FailureClass := .none
  logCursorJson : JsonObject := []
  runtimeSummaryJson : JsonObject := []
  lockVersion : Nat := 0

/-- A row of `artifacts`. -/
structure Artifact where
  projectId : String
  taskId : Option String
  kind : String
  logicalName : String
  version : Nat
  uri : String
  sizeBytes : Nat
  sha256 : String
  producerType : String
  producerRefId : String
  integrityStatus : ArtifactIntegrityStatus
  evidenceEligible : Bool
  metadataJson : JsonObject := []

/-- A row of `task_dependencies`. -/
structure TaskDependency where
  taskId : String
  dependsOnTaskId : String
  deriving DecidableEq

/-- A row of `events`. -/
structure Event where
  projectId : String
  seq : Nat
  eventType : String
  entityType : String
  entityId : String
  dedupeKey : Option String := none
  oldState : Option String := none
  newState : Option String := none
  payload : JsonObject := []

/-- The tables of tasks, jobs, artifacts and dependencies. -/
structure Rows where
  tasks : Dict String Task := Dict.empty
  jobs : Dict String ComputeJob := Dict.empty
  artifacts : Dict String Artifact := Dict.empty
  dependencies : List TaskDependency := []

/-- The database. -/
structure Db extends Rows where
  projects : Dict String Project := Dict.empty
  events : List Event := []

/-- The empty database. -/
def Db.empty : Db := {}

/-- The database after a transaction: its result if it returns, unchanged if it raises. -/
def Db.commit {α : Type} (db : Db) (r : Except PyErr (α × Db)) : Db :=
  match r with
  | .ok (_, db') => db'
  | .error _ => db

/-- Assign columns of a loaded task. -/
def Db.modifyTask (db : Db) (id : String) (f : Task → Task) : Db :=
  match db.tasks.get id with
  | some t => { db with tasks := db.tasks.set id (f t) }
  | none => db

/-- Assign columns of a loaded job. -/
def Db.modifyJob (db : Db) (id : String) (f : ComputeJob → ComputeJob) : Db :=
  match db.jobs.get id with
  | some j => { db with jobs := db.jobs.set id (f j) }
  | none => db

lemma Db.modifyTask_of_get {db : Db} {id : String} {t : Task} (ht : db.tasks.get id = some t)
    (f : Task → Task) : db.modifyTask id f = { db with tasks := db.tasks.set id (f t) } := by
  simp [modifyTask, ht]

lemma Db.modifyJob_of_get {db : Db} {id : String} {j : ComputeJob} (hj : db.jobs.get id = some j)
    (f : ComputeJob → ComputeJob) :
    db.modifyJob id f = { db with jobs := db.jobs.set id (f j) } := by
  simp [modifyJob, hj]

/-- The five absorbing states of an execution. -/
def ComputeExecutionStatus.isTerminal : ComputeExecutionStatus → Bool
  | .succeeded | .failed | .oom | .timeout | .cancelled => true
  | _ => false

/-- `NONTERMINAL_COMPUTE` of `services/task_readiness.py`. -/
def ComputeExecutionStatus.isNonterminal : ComputeExecutionStatus → Bool
  | .created | .submitted | .pending | .running | .collecting => true
  | _ => false

/-- `POLLABLE` of `services/reconciler.py`. -/
def ComputeExecutionStatus.isPollable : ComputeExecutionStatus → Bool
  | .submitted | .pending | .running => true
  | _ => false

/-- The two sets of execution states are complementary. -/
lemma ComputeExecutionStatus.isNonterminal_eq (s : ComputeExecutionStatus) :
    s.isNonterminal = !s.isTerminal := by
  cases s <;> rfl

/-- A job that is polled has not ended. -/
lemma ComputeExecutionStatus.not_terminal_of_pollable {s : ComputeExecutionStatus}
    (pollable : s.isPollable = true) : s.isTerminal = false := by
  revert pollable
  cases s <;> decide

end ResearchController
