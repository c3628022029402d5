import ResearchController.Lib.Dict
import ResearchController.Lib.Loop
import ResearchController.Protocols.Compute

/-!
# Providers, registry and router

Port of `compute/base.py`, `compute/registry.py` and `compute/router.py`. A `ComputeProvider` is
given by the answers of the methods that routing and preparation call; each may raise. The answers
are those of one moment: a caller that asks again later is given another registry.
-/

namespace ResearchController
open Lib

/-- The part of `ComputeProvider` that the router and the dispatcher call. -/
structure ComputeProvider where
  probe : Except PyErr ProviderHealth
  discoverResources : Except PyErr ResourceSnapshot
  canRun : ComputeTaskSpec → ResourceSnapshot → Except PyErr Bool
  prepare : ComputeTaskSpec → String → Except PyErr PreparedJob

/-- `ProviderRegistry`: providers by `provider_id`. -/
structure ProviderRegistry where
  providers : Dict String ComputeProvider

/-- `ProviderRegistry.get`. -/
def ProviderRegistry.get (registry : ProviderRegistry) (providerId : String) :
    Except PyErr ComputeProvider :=
  match registry.providers.get providerId with
  | some provider => .ok provider
  | none => .error (.lookupError s!"unknown provider: {providerId}")

/-- `ComputeRoute`. -/
structure ComputeRoute where
  providerId : String
  resourceClass : String
  snapshot : ResourceSnapshot

/-- The GPU test that the router and `LocalProvider.can_run` both spell out. -/
def ResourceOffer.meetsGpu (offer : ResourceOffer) (resources : ResourceRequirements) : Bool :=
  (resources.gpuCount == 0 && offer.gpuPerNode == 0) ||
    (decide (0 < resources.gpuCount) && decide ((resources.gpuCount : Int) ≤ offer.gpuPerNode) &&
      (offer.gpuMemoryGb.getD (.finite 0)).ge resources.minGpuMemoryGb)

/-- The loop of `ComputeRouter.route` over the allowed providers. -/
def ProviderRegistry.routeFrom (registry : ProviderRegistry) (spec : ComputeTaskSpec) :
    List String → Except PyErr ComputeRoute
  | [] => .error (.runtimeError "no feasible compute provider")
  | providerId :: rest => do
    let provider ← registry.get providerId
    let health ← provider.probe
    if health.canSubmit then
      let snapshot ← provider.discoverResources
      if ← provider.canRun spec snapshot then
        match snapshot.offers.find? fun offer =>
          offer.operational && offer.schedulable && offer.meetsGpu spec.resources with
        | some offer =>
          return { providerId := providerId, resourceClass := offer.resourceClass,
                   snapshot := snapshot }
        | none => registry.routeFrom spec rest
      else
        registry.routeFrom spec rest
    else
      registry.routeFrom spec rest

/-- `ComputeRouter.route`. -/
def ProviderRegistry.route (registry : ProviderRegistry) (spec : ComputeTaskSpec) :
    Except PyErr ComputeRoute :=
  registry.routeFrom spec spec.routing.allowedProviders

end ResearchController
