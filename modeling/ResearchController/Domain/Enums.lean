import Mathlib

/-!
# Enumerations

Port of `domain/enums.py`: the enumerations that the modelled services read. Each is a `StrEnum`, so
every member has a string `value` (its name); that string is what the audit log stores and what the
flush guard compares, which is why distinct task states must have distinct values.
-/

namespace ResearchController

/-- `ProjectLifecycle`. -/
inductive ProjectLifecycle where
  | queued
  | active
  | waitingHuman
  | paused
  | blocked
  | completed
  | abandoned
  deriving DecidableEq, Repr

/-- The string value of a `ProjectLifecycle`. -/
def ProjectLifecycle.value : ProjectLifecycle → String
  | .queued => "QUEUED"
  | .active => "ACTIVE"
  | .waitingHuman => "WAITING_HUMAN"
  | .paused => "PAUSED"
  | .blocked => "BLOCKED"
  | .completed => "COMPLETED"
  | .abandoned => "ABANDONED"

/-- `TaskExecutor`. -/
inductive TaskExecutor where
  | controller
  | codex
  | hermes
  | compute
  | human
  deriving DecidableEq, Repr

/-- `TaskStatus`. -/
inductive TaskStatus where
  | pending
  | ready
  | running
  | verifying
  | succeeded
  | failed
  | blocked
  | cancelled
  | skipped
  deriving DecidableEq, Repr

/-- The string value of a `TaskStatus`. -/
def TaskStatus.value : TaskStatus → String
  | .pending => "PENDING"
  | .ready => "READY"
  | .running => "RUNNING"
  | .verifying => "VERIFYING"
  | .succeeded => "SUCCEEDED"
  | .failed => "FAILED"
  | .blocked => "BLOCKED"
  | .cancelled => "CANCELLED"
  | .skipped => "SKIPPED"

/-- `ComputeExecutionStatus`. -/
inductive ComputeExecutionStatus where
  | created
  | submitted
  | pending
  | running
  | collecting
  | succeeded
  | failed
  | oom
  | timeout
  | cancelled
  deriving DecidableEq, Repr

/-- The string value of a `ComputeExecutionStatus`. -/
def ComputeExecutionStatus.value : ComputeExecutionStatus → String
  | .created => "CREATED"
  | .submitted => "SUBMITTED"
  | .pending => "PENDING"
  | .running => "RUNNING"
  | .collecting => "COLLECTING"
  | .succeeded => "SUCCEEDED"
  | .failed => "FAILED"
  | .oom => "OOM"
  | .timeout => "TIMEOUT"
  | .cancelled => "CANCELLED"

/-- `ComputeExecutionStatus(raw)`: the member with a given value, if there is one. -/
def ComputeExecutionStatus.ofValue? : String → Option ComputeExecutionStatus
  | "CREATED" => some .created
  | "SUBMITTED" => some .submitted
  | "PENDING" => some .pending
  | "RUNNING" => some .running
  | "COLLECTING" => some .collecting
  | "SUCCEEDED" => some .succeeded
  | "FAILED" => some .failed
  | "OOM" => some .oom
  | "TIMEOUT" => some .timeout
  | "CANCELLED" => some .cancelled
  | _ => none

/-- `ObservationStatus`. -/
inductive ObservationStatus where
  | fresh
  | stale
  | unreachable
  | authRequired
  | pollError
  deriving DecidableEq, Repr

/-- The string value of an `ObservationStatus`. -/
def ObservationStatus.value : ObservationStatus → String
  | .fresh => "FRESH"
  | .stale => "STALE"
  | .unreachable => "UNREACHABLE"
  | .authRequired => "AUTH_REQUIRED"
  | .pollError => "POLL_ERROR"

/-- `ArtifactIntegrityStatus`. -/
inductive ArtifactIntegrityStatus where
  | pending
  | verified
  | invalid
  deriving DecidableEq, Repr

/-- The string value of an `ArtifactIntegrityStatus`. -/
def ArtifactIntegrityStatus.value : ArtifactIntegrityStatus → String
  | .pending => "PENDING"
  | .verified => "VERIFIED"
  | .invalid => "INVALID"

/-- `FailureClass`. -/
inductive FailureClass where
  | none
  | code
  | environment
  | resource
  | infrastructure
  | userCancel
  | unknown
  deriving DecidableEq, Repr

/-- Distinct task states have distinct values. -/
lemma TaskStatus.value_injective : Function.Injective TaskStatus.value := by
  intro a b e
  cases a <;> cases b <;> first | rfl | exact absurd e (by decide)

/-- The value of an execution state names that state. -/
@[simp] lemma ComputeExecutionStatus.ofValue?_value (s : ComputeExecutionStatus) :
    ofValue? s.value = some s := by
  cases s <;> rfl

end ResearchController
