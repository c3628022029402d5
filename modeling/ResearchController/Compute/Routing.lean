import ResearchController.Compute.Router

/-!
# The router and `can_run`

Port of `can_run` of `compute/local/provider.py`, and its agreement with `ComputeRouter.route`. Both
go through the offers of a snapshot with the same tests, except that only `can_run` looks at the
capabilities. The router therefore finds the right provider, and it finds one whenever there is one
(`routeFrom_ok_iff`), but it may name an offer that lacks a capability which another offer of the
provider has (`route_right_iff`).
-/

namespace ResearchController
open Lib

/-- An offer on which `can_run` counts. -/
def ResourceOffer.suits (offer : ResourceOffer) (resources : ResourceRequirements) : Bool :=
  offer.operational && offer.schedulable &&
    resources.requiredCapabilities.all (offer.capabilities.contains ·) &&
    offer.meetsGpu resources

/-- `LocalProvider.can_run`. -/
def LocalProvider.canRun (spec : ComputeTaskSpec) (snapshot : ResourceSnapshot) : Bool :=
  snapshot.offers.any (·.suits spec.resources)

/-- An offer that the router takes. -/
def ResourceOffer.accepted (offer : ResourceOffer) (resources : ResourceRequirements) : Bool :=
  offer.operational && offer.schedulable && offer.meetsGpu resources

/-- A provider with some health and some offers that never raises and has the local `can_run`. -/
structure ComputeProvider.Regular (provider : ComputeProvider) : Prop where
  probe : ∃ health, provider.probe = .ok health
  discoverResources : ∃ snapshot, provider.discoverResources = .ok snapshot
  canRun : ∀ spec snapshot, provider.canRun spec snapshot = .ok (LocalProvider.canRun spec snapshot)

/-- Every registered provider is regular. -/
def ProviderRegistry.Regular (registry : ProviderRegistry) : Prop :=
  ∀ id provider, registry.providers.get id = some provider → provider.Regular

/-- A registered provider can submit, and can run a spec on the offers it has. -/
structure ProviderRegistry.Runs (registry : ProviderRegistry) (spec : ComputeTaskSpec)
    (id : String) (snapshot : ResourceSnapshot) : Prop where
  answers : ∃ provider health, registry.providers.get id = some provider ∧
    provider.probe = .ok health ∧ health.canSubmit = true ∧
    provider.discoverResources = .ok snapshot
  canRun : LocalProvider.canRun spec snapshot = true

/-- The router passes over a provider. -/
structure ProviderRegistry.PassesOver (registry : ProviderRegistry) (spec : ComputeTaskSpec)
    (id : String) : Prop where
  registered : ∃ provider, registry.providers.get id = some provider
  cannot : ∀ snapshot, ¬ registry.Runs spec id snapshot

/-- The first allowed provider that can submit and run a spec, with its offers. -/
def ProviderRegistry.First (registry : ProviderRegistry) (spec : ComputeTaskSpec)
    (ids : List String) (id : String) (snapshot : ResourceSnapshot) : Prop :=
  ∃ before after, ids = before ++ id :: after ∧ (∀ b ∈ before, registry.PassesOver spec b) ∧
    registry.Runs spec id snapshot

/-! ## The loop over the providers -/

/-- What suits is accepted. -/
lemma ResourceOffer.accepted_of_suits {offer : ResourceOffer} {resources : ResourceRequirements}
    (suits : offer.suits resources = true) : offer.accepted resources = true := by
  simp only [ResourceOffer.suits, Bool.and_eq_true] at suits
  simp only [ResourceOffer.accepted, Bool.and_eq_true]
  exact ⟨suits.1.1, suits.2⟩

/-- Offers that the provider can run a spec on contain one that the router takes. -/
lemma exists_accepted {spec : ComputeTaskSpec} {snapshot : ResourceSnapshot}
    (canRun : LocalProvider.canRun spec snapshot = true) :
    ∃ offer, snapshot.offers.find? (·.accepted spec.resources) = some offer := by
  obtain ⟨offer, mem, suits⟩ := List.any_eq_true.mp canRun
  apply Option.isSome_iff_exists.mp
  exact List.find?_isSome.mpr ⟨offer, mem, ResourceOffer.accepted_of_suits suits⟩

section Loop

variable {registry : ProviderRegistry} {spec : ComputeTaskSpec} {id : String}

/-- A provider that can submit and run the spec ends the loop. -/
lemma routeFrom_runs (regular : registry.Regular) {snapshot : ResourceSnapshot}
    (runs : registry.Runs spec id snapshot) (rest : List String) :
    ∃ offer, snapshot.offers.find? (·.accepted spec.resources) = some offer ∧
      registry.routeFrom spec (id :: rest) =
        .ok { providerId := id, resourceClass := offer.resourceClass, snapshot := snapshot } := by
  obtain ⟨provider, health, found, probes, canSubmit, discovers⟩ := runs.answers
  have tests := (regular id provider found).canRun spec snapshot
  obtain ⟨offer, accepted⟩ := exists_accepted runs.canRun
  refine ⟨offer, accepted, ?_⟩
  unfold ResourceOffer.accepted at accepted
  rw [ProviderRegistry.routeFrom, ProviderRegistry.get, found]
  simp only [bind, Except.bind, probes, canSubmit, if_true, discovers, tests, runs.canRun, accepted]
  rfl

/-- The loop goes on behind a provider that is passed over. -/
lemma routeFrom_passesOver (regular : registry.Regular) (passes : registry.PassesOver spec id)
    (rest : List String) :
    registry.routeFrom spec (id :: rest) = registry.routeFrom spec rest := by
  obtain ⟨provider, found⟩ := passes.registered
  obtain ⟨health, probes⟩ := (regular id provider found).probe
  obtain ⟨snapshot, discovers⟩ := (regular id provider found).discoverResources
  have tests := (regular id provider found).canRun spec snapshot
  rw [ProviderRegistry.routeFrom, ProviderRegistry.get, found]
  simp only [bind, Except.bind, probes]
  split
  · rename_i canSubmit
    have cannot : LocalProvider.canRun spec snapshot = false := by
      by_contra can
      rw [Bool.not_eq_false] at can
      exact passes.cannot snapshot
        ⟨⟨provider, health, found, probes, canSubmit, discovers⟩, can⟩
    simp only [discovers, tests, cannot, Bool.false_eq_true, if_false]
  · rfl

/-- An unregistered provider ends the loop with an exception. -/
lemma routeFrom_unregistered (absent : registry.providers.get id = none) (rest : List String) :
    ∃ e, registry.routeFrom spec (id :: rest) = .error e := by
  rw [ProviderRegistry.routeFrom, ProviderRegistry.get, absent]
  exact ⟨_, rfl⟩

/-- Every provider is unregistered, passed over, or runs the spec. -/
lemma provider_cases (registry : ProviderRegistry) (spec : ComputeTaskSpec) (id : String) :
    registry.providers.get id = none ∨ registry.PassesOver spec id ∨
      ∃ snapshot, registry.Runs spec id snapshot := by
  by_cases runs : ∃ snapshot, registry.Runs spec id snapshot
  · exact Or.inr (Or.inr runs)
  · cases found : registry.providers.get id with
    | none => exact Or.inl rfl
    | some provider => exact Or.inr (Or.inl ⟨⟨provider, found⟩, not_exists.mp runs⟩)

/-- A provider has one list of offers. -/
lemma runs_unique {snapshot snapshot' : ResourceSnapshot} (runs : registry.Runs spec id snapshot)
    (runs' : registry.Runs spec id snapshot') : snapshot' = snapshot := by
  obtain ⟨_, _, found, _, _, discovers⟩ := runs.answers
  obtain ⟨_, _, found', _, _, discovers'⟩ := runs'.answers
  cases found.symm.trans found'
  cases discovers.symm.trans discovers'
  rfl

/-- The first provider of a list with one more provider in front. -/
lemma first_cons {rest : List String} {id' : String} {snapshot : ResourceSnapshot} :
    registry.First spec (id :: rest) id' snapshot ↔
      (id' = id ∧ registry.Runs spec id snapshot) ∨
        registry.PassesOver spec id ∧ registry.First spec rest id' snapshot := by
  constructor
  · rintro ⟨before, after, e, passed, runs⟩
    cases before with
    | nil =>
      cases e
      exact Or.inl ⟨rfl, runs⟩
    | cons b before =>
      cases e
      exact Or.inr ⟨passed id List.mem_cons_self, before, after, rfl,
        fun b' mem => passed b' (List.mem_cons_of_mem _ mem), runs⟩
  · rintro (⟨rfl, runs⟩ | ⟨passes, before, after, rfl, passed, runs⟩)
    · exact ⟨[], rest, rfl, fun _ mem => (List.not_mem_nil mem).elim, runs⟩
    · exact ⟨id :: before, after, rfl, List.forall_mem_cons.mpr ⟨passes, passed⟩, runs⟩

end Loop

/-- The loop returns the first provider that can submit and run the spec, with the first offer of it
    that the router takes. -/
lemma routeFrom_ok_iff {registry : ProviderRegistry} (regular : registry.Regular)
    {spec : ComputeTaskSpec} {ids : List String} {route : ComputeRoute} :
    registry.routeFrom spec ids = .ok route ↔
      registry.First spec ids route.providerId route.snapshot ∧
        ∃ offer, route.snapshot.offers.find? (·.accepted spec.resources) = some offer ∧
          route.resourceClass = offer.resourceClass := by
  induction ids with
  | nil =>
    refine iff_of_false (fun h => ?_) fun h => ?_
    · cases h
    · obtain ⟨⟨before, after, e, _⟩, _⟩ := h
      cases before <;> cases e
  | cons id rest ih =>
    rw [first_cons]
    obtain absent | passes | ⟨snapshot, runs⟩ := provider_cases registry spec id
    · obtain ⟨e, raised⟩ : ∃ e, registry.routeFrom spec (id :: rest) = .error e :=
        routeFrom_unregistered absent rest
      refine iff_of_false (fun h => ?_) fun h => ?_
      · cases raised.symm.trans h
      · obtain ⟨⟨_, runs⟩ | ⟨passes, _⟩, _⟩ := h
        · obtain ⟨_, _, found, _⟩ := runs.answers
          cases absent.symm.trans found
        · obtain ⟨_, found⟩ := passes.registered
          cases absent.symm.trans found
    · rw [routeFrom_passesOver regular passes, ih]
      refine and_congr_left fun _ => ?_
      constructor
      · exact fun first => Or.inr ⟨passes, first⟩
      · rintro (⟨_, runs⟩ | ⟨_, first⟩)
        · exact (passes.cannot _ runs).elim
        · exact first
    · obtain ⟨offer, accepted, routed⟩ := routeFrom_runs regular runs rest
      -- the first provider that can run the job decides, whatever comes behind it
      rw [routed]
      constructor
      · intro h
        cases h
        exact ⟨Or.inl ⟨rfl, runs⟩, offer, accepted, rfl⟩
      · rintro ⟨⟨same, runs'⟩ | ⟨passes, _⟩, offer', accepted', named⟩
        · have snapshots := runs_unique runs runs'
          rw [snapshots] at accepted'
          cases accepted.symm.trans accepted'
          obtain ⟨providerId, resourceClass, snapshot'⟩ := route
          simp only at same snapshots named
          rw [same, snapshots, named]
        · exact (passes.cannot _ runs).elim

/-- The loop returns if a provider can submit and run the spec and all are registered. -/
lemma routeFrom_total {registry : ProviderRegistry} (regular : registry.Regular)
    {spec : ComputeTaskSpec} {ids : List String}
    (registered : ∀ id ∈ ids, ∃ provider, registry.providers.get id = some provider)
    (able : ∃ id ∈ ids, ∃ snapshot, registry.Runs spec id snapshot) :
    ∃ route, registry.routeFrom spec ids = .ok route := by
  induction ids with
  | nil =>
    obtain ⟨id, mem, _⟩ := able
    cases mem
  | cons id rest ih =>
    obtain absent | passes | ⟨snapshot, runs⟩ := provider_cases registry spec id
    · obtain ⟨_, found⟩ := registered id List.mem_cons_self
      cases absent.symm.trans found
    · rw [routeFrom_passesOver regular passes]
      apply ih fun b mem => registered b (List.mem_cons_of_mem _ mem)
      obtain ⟨id', mem, snapshot, runs⟩ := able
      rcases List.mem_cons.mp mem with rfl | later
      · exact (passes.cannot snapshot runs).elim
      · exact ⟨id', later, snapshot, runs⟩
    · obtain ⟨offer, _, routed⟩ := routeFrom_runs regular runs rest
      exact ⟨_, routed⟩

/-! ## The offer -/

/-- The route names the first provider that can submit and run the spec and the resource class of an
    offer that suits, and there is a route whenever there is such a provider. -/
structure ProviderRegistry.RoutesRight (registry : ProviderRegistry) (spec : ComputeTaskSpec) :
    Prop where
  right : ∀ route, registry.route spec = .ok route →
    registry.First spec spec.routing.allowedProviders route.providerId route.snapshot ∧
      ∃ offer ∈ route.snapshot.offers, offer.resourceClass = route.resourceClass ∧
        offer.suits spec.resources = true
  total : (∀ id ∈ spec.routing.allowedProviders,
      ∃ provider, registry.providers.get id = some provider) →
    (∃ id ∈ spec.routing.allowedProviders, ∃ snapshot, registry.Runs spec id snapshot) →
    ∃ route, registry.route spec = .ok route

/-- The router is right exactly if the first offer that it takes, of the first provider that can
    submit and run the spec, has the capabilities or shares its resource class with an offer that
    suits. -/
theorem route_right_iff {registry : ProviderRegistry} (regular : registry.Regular)
    (spec : ComputeTaskSpec) :
    registry.RoutesRight spec ↔
      ∀ id snapshot offer, registry.First spec spec.routing.allowedProviders id snapshot →
        snapshot.offers.find? (·.accepted spec.resources) = some offer →
        ∃ offer' ∈ snapshot.offers, offer'.resourceClass = offer.resourceClass ∧
          offer'.suits spec.resources = true := by
  have returns : ∀ route, registry.route spec = .ok route ↔
      registry.First spec spec.routing.allowedProviders route.providerId route.snapshot ∧
        ∃ offer, route.snapshot.offers.find? (·.accepted spec.resources) = some offer ∧
          route.resourceClass = offer.resourceClass := fun _ => routeFrom_ok_iff regular
  constructor
  · intro rr id snapshot offer first accepted
    let route : ComputeRoute := ⟨id, offer.resourceClass, snapshot⟩
    exact (rr.right route ((returns route).mpr ⟨first, offer, accepted, rfl⟩)).2
  · intro right
    refine ⟨?_, routeFrom_total regular⟩
    intro route routed
    obtain ⟨first, offer, accepted, named⟩ := (returns route).mp routed
    rw [named]
    exact ⟨first, right _ _ offer first accepted⟩

/-! ## Two offers -/

def plainOffer : ResourceOffer :=
  { resourceClass := "plain", operational := true, schedulable := true }

def licensedOffer : ResourceOffer :=
  { plainOffer with resourceClass := "licensed", capabilities := ["solver"] }

/-- A registry with one provider, which has the given offers. -/
def singleRegistry (offers : List ResourceOffer) : ProviderRegistry :=
  { providers := Dict.empty.set "local"
      { probe := .ok { providerId := "local", canSubmit := true },
        discoverResources := .ok { providerId := "local", offers := offers },
        canRun := fun spec snapshot => .ok (LocalProvider.canRun spec snapshot),
        prepare := fun _ _ => .error (.runtimeError "") } }

/-- A task that needs the licence of the second offer. -/
def solverSpec : ComputeTaskSpec :=
  { projectId := "p", taskId := "t", submissionKey := "s", execution := {},
    resources := { requiredCapabilities := ["solver"] } }

lemma singleRegistry_regular (offers : List ResourceOffer) : (singleRegistry offers).Regular := by
  intro id provider found
  rw [singleRegistry, Dict.get_set] at found
  split at found
  · cases found
    exact ⟨⟨_, rfl⟩, ⟨_, rfl⟩, fun _ _ => rfl⟩
  · cases found

/-- The provider of the registry has the given offers. -/
lemma singleRegistry_runs {offers : List ResourceOffer} {spec : ComputeTaskSpec} {id : String}
    {snapshot : ResourceSnapshot} (runs : (singleRegistry offers).Runs spec id snapshot) :
    snapshot.offers = offers := by
  obtain ⟨provider, _, found, _, _, discovers⟩ := runs.answers
  rw [singleRegistry, Dict.get_set] at found
  split at found
  · cases found
    cases discovers
    rfl
  · cases found

/-- With the offer that suits in front the router is right. -/
theorem route_right_iff_licensed :
    (singleRegistry [licensedOffer, plainOffer]).RoutesRight solverSpec := by
  refine (route_right_iff (singleRegistry_regular _) solverSpec).mpr ?_
  rintro id snapshot offer ⟨_, _, _, _, runs⟩ accepted
  rw [singleRegistry_runs runs] at accepted ⊢
  cases accepted
  exact ⟨licensedOffer, List.mem_cons_self, rfl, by decide⟩

/-- With the plain offer in front the router names it, although it lacks the capability. -/
theorem route_not_right :
    ¬ ∀ (registry : ProviderRegistry), registry.Regular → ∀ spec, registry.RoutesRight spec := by
  intro right
  have routed : (singleRegistry [plainOffer, licensedOffer]).route solverSpec =
      .ok { providerId := "local", resourceClass := "plain",
            snapshot := { providerId := "local", offers := [plainOffer, licensedOffer] } } := rfl
  obtain ⟨_, offer, mem, named, suits⟩ :=
    (right _ (singleRegistry_regular _) solverSpec).right _ routed
  simp only [List.mem_cons, List.not_mem_nil, or_false] at mem
  rcases mem with rfl | rfl
  · revert suits
    decide
  · revert named
    decide

end ResearchController
