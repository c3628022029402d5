import ResearchController.Lib.Dict
import ResearchController.Lib.Ledger
import ResearchController.Lib.Walk
import ResearchController.Lib.Loop
import ResearchController.Lib.System
import ResearchController.Lib.Totals
import ResearchController.Lib.Program
import ResearchController.Domain.Enums
import ResearchController.Domain.Json
import ResearchController.Protocols.Compute
import ResearchController.Db.Models
import ResearchController.Services.EventLog
import ResearchController.Services.Transitions
import ResearchController.Services.ProjectState
import ResearchController.Db.Sessions
import ResearchController.Services.Replay
import ResearchController.Db.FlushGuard
import ResearchController.Compute.Router
import ResearchController.Services.TaskReadiness
import ResearchController.Services.Dispatcher
import ResearchController.Services.Reconciler
import ResearchController.Services.Validators
import ResearchController.Artifacts.Store
import ResearchController.Controller
import ResearchController.Lifecycle.Model
import ResearchController.Lifecycle.Trust
import ResearchController.Lifecycle.Refinement
import ResearchController.Lifecycle.Safety
import ResearchController.Lifecycle.FirstTerminal
import ResearchController.Isolation.Verification
import ResearchController.Isolation.Dispatch
import ResearchController.Compute.Local.Submission
import ResearchController.Compute.Local.Logs
import ResearchController.Compute.Local.Poll
import ResearchController.Recovery.AtMostOnce
import ResearchController.Recovery.PollAgreement
import ResearchController.Lib.Acyclic
import ResearchController.Lifecycle.Identity
import ResearchController.Lifecycle.Attempts
import ResearchController.Lifecycle.Dependencies
import ResearchController.Services.Books
import ResearchController.Lifecycle.TaskLog
import ResearchController.Lifecycle.JobLog
import ResearchController.Lifecycle.Changes
import ResearchController.Lib.Ghost
import ResearchController.Recovery.SubmissionAgreement
import ResearchController.Compute.Local.Collect
import ResearchController.Services.ReconcileDue
import ResearchController.Artifacts.Produced
import ResearchController.Lifecycle.Evidence
import ResearchController.Lifecycle.Writes
import ResearchController.Lifecycle.ArtifactLog
import ResearchController.Recovery.CollectionIdempotence
import ResearchController.Artifacts.Sessions
import ResearchController.Artifacts.Blobs
import ResearchController.Artifacts.Integrity
import ResearchController.Lib.Worklist
import ResearchController.Isolation.Turns
import ResearchController.Isolation.Call
import ResearchController.Isolation.Reconcile
import ResearchController.Services.ReadinessExact
import ResearchController.Acceptance.ExitCodes
import ResearchController.Lifecycle.FinishTimes
import ResearchController.Compute.Routing
import ResearchController.Acceptance.Passing
import ResearchController.Acceptance.Enforcement
import ResearchController.Acceptance.LatestAttempt
import ResearchController.Observation.Deltas
import ResearchController.Observation.Lines
import ResearchController.Observation.Progress
import ResearchController.Lib.Faults
import ResearchController.Artifacts.Retry
import ResearchController.Acceptance.MissingOutputs
import ResearchController.Lib.Joined
import ResearchController.Services.DedupeKeys
import ResearchController.Lifecycle.Announcements
import ResearchController.Lib.Pool
import ResearchController.Lib.Embed
import ResearchController.Lib.Leads
import ResearchController.Tick.Program
import ResearchController.Tick.Refinement
import ResearchController.Tick.Attendance
import ResearchController.Tick.Starvation
import ResearchController.Lib.Implement
import ResearchController.Lib.FileTree
import ResearchController.Lib.Scratch
import ResearchController.Lib.Shelf
import ResearchController.Compute.Local.AtomicJson
import ResearchController.Recovery.RecordFiles
import ResearchController.Lib.Process
import ResearchController.Runner.Main
import ResearchController.Runner.Observed
