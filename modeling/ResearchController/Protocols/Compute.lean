import ResearchController.Domain.Enums
import ResearchController.Domain.Json

/-!
# Compute protocols

Port of `protocols/compute.py`: the typed messages that the controller exchanges with a compute
provider. The models are strict and every field keeps its default. Left out are the fields that
nothing in the modelled code reads (schema versions, health texts, queue depths and the like).

`ComputeTaskSpec.model_validate` is a function of the validation library; it enters the model as a
parameter `modelValidate` where a task's `spec_json` is read. A job's `spec_json` is the dump of a
validated spec and is stored here as that spec.
-/

namespace ResearchController

/-- `ExecutionSpec`. -/
structure ExecutionSpec where
  command : List String := []
  entrypointArtifactId : Option String := none
  argv : List String := []
  env : List (String × String) := []
  deriving DecidableEq

/-- `ResourceRequirements`. -/
structure ResourceRequirements where
  gpuCount : Nat := 0
  minGpuMemoryGb : PyFloat := .finite 0
  requiredCapabilities : List String := []
  deriving DecidableEq

/-- `OutputSpec`. -/
structure OutputSpec where
  logicalName : String
  glob : String
  required : Bool := true
  artifactKind : String
  evidenceCandidate : Bool := false
  deriving DecidableEq

/-- `RoutingSpec`. -/
structure RoutingSpec where
  allowedProviders : List String := ["local"]
  deriving DecidableEq

/-- `SuccessSpec`. -/
structure SuccessSpec where
  requireZeroExitCode : Bool := true
  requiredValidators : List String := ["exit_code_zero"]
  deriving DecidableEq

/-- `ComputeTaskSpec`. -/
structure ComputeTaskSpec where
  projectId : String
  taskId : String
  submissionKey : String
  execution : ExecutionSpec
  resources : ResourceRequirements
  outputs : List OutputSpec := []
  routing : RoutingSpec := {}
  success : SuccessSpec := {}
  deriving DecidableEq

/-- `ProviderHealth`, as far as the router reads it. -/
structure ProviderHealth where
  providerId : String
  canSubmit : Bool

/-- `ResourceOffer`. -/
structure ResourceOffer where
  resourceClass : String
  operational : Bool
  schedulable : Bool
  gpuMemoryGb : Option PyFloat := none
  gpuPerNode : Int := 0
  capabilities : List String := []
  gpuIndex : Option Int := none

/-- `ResourceSnapshot`. -/
structure ResourceSnapshot where
  providerId : String
  offers : List ResourceOffer

/-- `ArtifactCandidate`. -/
structure ArtifactCandidate where
  logicalName : String
  path : String
  artifactKind : String
  required : Bool := false
  evidenceCandidate : Bool := false
  metadata : JsonObject := []

/-- `PreparedJob`. -/
structure PreparedJob where
  providerId : String
  submissionKey : String
  resourceClass : String
  workdir : String
  command : List String
  env : List (String × String) := []
  outputs : List OutputSpec := []

/-- `ComputeJobView`: the immutable view of a job that a provider receives. -/
structure ComputeJobView where
  id : String
  projectId : String
  taskId : String
  providerId : String
  resourceClass : String
  submissionKey : String
  externalJobId : Option String
  remoteWorkdir : String
  executionStatus : ComputeExecutionStatus
  observationStatus : ObservationStatus
  logCursor : JsonObject := []
  providerMetadata : JsonObject := []

/-- `JobObservation`. The progress and the cursor are dictionaries of arbitrary values;
    `serializable` says whether `json.dumps` takes them. -/
structure JobObservation where
  computeJobId : String
  externalJobId : Option String := none
  observedAt : Datetime
  observationStatus : ObservationStatus
  executionStatus : ComputeExecutionStatus
  rawSchedulerState : Option String := none
  exitCode : Option Int := none
  failureClass : FailureClass := .none
  retryable : Bool := false
  progress : JsonObject := []
  logCursor : JsonObject := []
  serializable : Bool := true

end ResearchController
