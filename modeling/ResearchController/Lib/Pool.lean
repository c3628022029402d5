import ResearchController.Lib.Program

/-!
# Several processes on one world

`Machine.pool` is the system of any number of processes that call programs on one world: between two
effects of one process come the effects of all the others, the steps of the surroundings and the
crashes of any of them.

Reasoning is by rely and guarantee. `Program.Upholds` says that every effect of a program changes
the world as the guarantee allows, under assertions that survive whatever the rely allows the others
to do. If the guarantee of each process is within the rely of the others, no process has to know the
others: `Machine.pool_rely` bounds every run of the pool by the rely, and `Machine.pool_ends` says
that a call that ends among the others ends as it does alone.
-/

namespace ResearchController.Lib

variable {σ E : Type} {R : E → Type} {O W ε α β A ι : Type}

/-- A program whose effects keep a guarantee as long as the others keep the rely, and that ends as
    `Q` says: before every effect some assertion holds that the others do not break. -/
def Program.Upholds (m : Machine σ E R O W) (rely guar : σ → σ → Prop)
    (Q : Except ε α → σ → Prop) : Program E R ε α → σ → Prop
  | .ret a, s => Q (.ok a) s
  | .raise e, s => Q (.error e) s
  | .perform e next, s =>
    ∃ P : σ → Prop, P s ∧ (∀ t t', P t → rely t t' → P t') ∧
      ∀ t, P t → ∀ o, guar t (m.handle t e o).1 ∧
        (next (m.handle t e o).2).Upholds m rely guar Q (m.handle t e o).1

namespace Program.Upholds

variable {m : Machine σ E R O W} {rely guar : σ → σ → Prop} {s s' : σ}

/-- A weaker postcondition. -/
lemma mono {Q Q' : Except ε α → σ → Prop} (weaker : ∀ r s, Q r s → Q' r s) {p : Program E R ε α}
    (h : p.Upholds m rely guar Q s) : p.Upholds m rely guar Q' s := by
  induction p generalizing s with
  | ret a => exact weaker _ s h
  | raise e => exact weaker _ s h
  | perform e next ih =>
    obtain ⟨P, hs, stable, step⟩ := h
    exact ⟨P, hs, stable, fun t ht o => ⟨(step t ht o).1, ih _ (step t ht o).2⟩⟩

/-- A call in progress is not disturbed by the others. -/
lemma relied {Q : Except ε α → σ → Prop} {e : E} {next : R e → Program E R ε α}
    (h : (Program.perform e next).Upholds m rely guar Q s) (r : rely s s') :
    (Program.perform e next).Upholds m rely guar Q s' := by
  obtain ⟨P, hs, stable, step⟩ := h
  exact ⟨P, stable s s' hs r, stable, step⟩

/-- Composition: the rest starts where the first part returns, and exceptions pass through. -/
lemma bind {Q : Except ε α → σ → Prop} {Q' : Except ε β → σ → Prop} {p : Program E R ε α}
    {f : α → Program E R ε β} (h : p.Upholds m rely guar Q s)
    (returns : ∀ a s, Q (.ok a) s → (f a).Upholds m rely guar Q' s)
    (raises : ∀ e s, Q (.error e) s → Q' (.error e) s) :
    (p >>= f).Upholds m rely guar Q' s := by
  induction p generalizing s with
  | ret a => exact returns a s h
  | raise e => exact raises e s h
  | perform e next ih =>
    obtain ⟨P, hs, stable, step⟩ := h
    exact ⟨P, hs, stable, fun t ht o => ⟨(step t ht o).1, ih _ (step t ht o).2⟩⟩

/-- What neither the others nor the program itself can break holds at the end. -/
lemma steady {Q : Except ε α → σ → Prop} {F : σ → Prop} (stable : ∀ t t', F t → rely t t' → F t')
    (guar_rely : ∀ {t t'}, guar t t' → rely t t') {p : Program E R ε α}
    (h : p.Upholds m rely guar Q s) (hs : F s) :
    p.Upholds m rely guar (fun r t => Q r t ∧ F t) s := by
  induction p generalizing s with
  | ret a => exact ⟨h, hs⟩
  | raise e => exact ⟨h, hs⟩
  | perform e next ih =>
    obtain ⟨P, first, keeps, step⟩ := h
    refine ⟨fun t => P t ∧ F t, ⟨first, hs⟩, ?_, ?_⟩
    · exact fun t t' both r => ⟨keeps t t' both.1 r, stable t t' both.2 r⟩
    · intro t both o
      obtain ⟨guards, continues⟩ := step t both.1 o
      exact ⟨guards, ih _ continues (stable _ _ both.2 (guar_rely guards))⟩

/-- One effect under an assertion that the others keep. -/
lemma call {Q : Except ε α → σ → Prop} {e : E} {f : R e → Program E R ε α} (P : σ → Prop)
    (hs : P s) (stable : ∀ t t', P t → rely t t' → P t')
    (guards : ∀ t o, P t → guar t (m.handle t e o).1)
    (continues : ∀ t o, P t →
      (f (m.handle t e o).2).Upholds m rely guar Q (m.handle t e o).1) :
    (Program.call e >>= f).Upholds m rely guar Q s :=
  ⟨P, hs, stable, fun t ht o => ⟨guards t o ht, continues t o ht⟩⟩

/-- A value is taken or its exception is raised. -/
lemma check {Q : Except ε β → σ → Prop} {x : Except ε α} {f : α → Program E R ε β}
    (returns : ∀ a, x = .ok a → (f a).Upholds m rely guar Q s)
    (raises : ∀ e, x = .error e → Q (.error e) s) :
    (Program.check x >>= f).Upholds m rely guar Q s := by
  cases x with
  | ok a => exact returns a rfl
  | error e => exact raises e rfl

end Program.Upholds

/-- A world with the call in progress of every process, and how its last call has ended. -/
structure Pool (ι σ E : Type) (R : E → Type) (ε α : Type) where
  world : σ
  running : ι → Option (Program E R ε α) := fun _ => none
  ended : ι → Option (Except ε α) := fun _ => none

/-- The rest of a call, if there is one. -/
def Program.left : Program E R ε α → Option (Program E R ε α)
  | .perform e next => some (.perform e next)
  | _ => none

/-- The end of a call, if it has come. -/
def Program.outcome : Program E R ε α → Option (Except ε α)
  | .ret a => some (.ok a)
  | .raise e => some (.error e)
  | .perform _ _ => none

/-- A process goes on with the rest of its call. -/
def Pool.goOn [DecidableEq ι] (c : Pool ι σ E R ε α) (i : ι) (world : σ)
    (p : Program E R ε α) : Pool ι σ E R ε α where
  world := world
  running := Function.update c.running i p.left
  ended := Function.update c.ended i p.outcome

/-- The runs of several processes on one world. -/
def Machine.pool [DecidableEq ι] (m : Machine σ E R O W) (main : ι → A → Program E R ε α) :
    System (Pool ι σ E R ε α) (ι × RunEvent A O W) where
  step c
    | (i, .start a) =>
      match c.running i with
      | none => some (c.goOn i c.world (main i a))
      | some _ => none
    | (i, .perform o) =>
      match c.running i with
      | some (.perform e next) =>
        let answered := m.handle c.world e o
        some (c.goOn i answered.1 (next answered.2))
      | _ => none
    | (i, .crash) => some { c with running := Function.update c.running i none }
    | (_, .drift w) => (m.drift c.world w).map fun world => { c with world := world }

/-- A process is in a call that ends as `Q` says, or its last call has ended so, or it has crashed
    since. -/
structure Pool.Heads (m : Machine σ E R O W) (rely guar : σ → σ → Prop)
    (Q : Except ε α → σ → Prop) (c : Pool ι σ E R ε α) (i : ι) : Prop where
  call : ∀ {p}, c.running i = some p → p.left = some p ∧ p.Upholds m rely guar Q c.world
  result : ∀ {r}, c.ended i = some r → Q r c.world

section Pool

variable {m : Machine σ E R O W} {rely guar : σ → σ → Prop} {Q : Except ε α → σ → Prop}
  {s : σ} {c : Pool ι σ E R ε α} {i : ι}

/-- A process goes where it was heading if the others change the world as the rely allows. -/
lemma Pool.Heads.relied {c' : Pool ι σ E R ε α} (stable : ∀ r t t', Q r t → rely t t' → Q r t')
    (hd : c.Heads m rely guar Q i) (moved : rely c.world c'.world)
    (running : c'.running i = c.running i) (ended : c'.ended i = c.ended i) :
    c'.Heads m rely guar Q i := by
  constructor
  · intro p call
    obtain ⟨left, upholds⟩ := hd.call (running.symm.trans call)
    refine ⟨left, ?_⟩
    cases p with
    | ret a => cases left
    | raise e => cases left
    | perform e next => exact upholds.relied moved
  · exact fun result => stable _ _ _ (hd.result (ended.symm.trans result)) moved

variable [DecidableEq ι]

/-- A process that goes on with a program that ends as `Q` says. -/
lemma Pool.Heads.goOn {world : σ} {p : Program E R ε α} (upholds : p.Upholds m rely guar Q world) :
    (c.goOn i world p).Heads m rely guar Q i := by
  constructor
  · intro q running
    simp only [Pool.goOn, Function.update_self] at running
    cases p with
    | ret a => cases running
    | raise e => cases running
    | perform e next =>
      cases running
      exact ⟨rfl, upholds⟩
  · intro r result
    simp only [Pool.goOn, Function.update_self] at result
    cases p with
    | ret a =>
      cases result
      exact upholds
    | raise e =>
      cases result
      exact upholds
    | perform e next => cases result

/-- The other processes go on as before. -/
lemma Pool.Heads.goOn_ne (stable : ∀ r t t', Q r t → rely t t' → Q r t') {k : ι}
    (ne : i ≠ k) {world : σ} {p : Program E R ε α} (hd : c.Heads m rely guar Q i)
    (moved : rely c.world world) : (c.goOn k world p).Heads m rely guar Q i :=
  hd.relied stable moved (Function.update_of_ne ne _ _) (Function.update_of_ne ne _ _)

/-- A crash loses the call, and nothing else. -/
lemma Pool.Heads.crash (hd : c.Heads m rely guar Q i) (k : ι) :
    Pool.Heads m rely guar Q { c with running := Function.update c.running k none } i := by
  refine ⟨fun {p} running => ?_, hd.result⟩
  simp only [Function.update_apply] at running
  split at running
  · cases running
  · exact hd.call running

/-- What holds between any two events of a pool that started in a world. -/
structure Pool.Secure (m : Machine σ E R O W) (rely guar : σ → σ → Prop) (s : σ)
    (c : Pool ι σ E R ε α) : Prop where
  world : rely s c.world
  heads : ∀ i, c.Heads m rely guar (fun _ _ => True) i

/-- Rely and guarantee fit together: the rely is an order that allows the guarantee and the steps of
    the surroundings, and every call upholds the guarantee. -/
structure Machine.Fits (m : Machine σ E R O W) (rely guar : σ → σ → Prop)
    (main : ι → A → Program E R ε α) (s : σ) : Prop where
  refl : ∀ a, rely a a
  trans : ∀ {a b c}, rely a b → rely b c → rely a c
  guar_rely : ∀ {a b}, guar a b → rely a b
  drift_rely : ∀ {a w b}, m.drift a w = some b → rely a b
  upholds : ∀ i a t, rely s t → (main i a).Upholds m rely guar (fun _ _ => True) t

/-- One event, seen from one process: the world changes as the rely allows, and the process goes
    where it was heading unless the event starts a call of it. -/
lemma Pool.Secure.step {main : ι → A → Program E R ε α} (fits : m.Fits rely guar main s)
    (sec : Pool.Secure m rely guar s c) {ev : ι × RunEvent A O W} {c' : Pool ι σ E R ε α}
    (st : (m.pool main).step c ev = some c') :
    rely c.world c'.world ∧ ∀ {Q : Except ε α → σ → Prop} {i : ι},
      (∀ r t t', Q r t → rely t t' → Q r t') → (∀ a, ev ≠ (i, .start a)) →
      c.Heads m rely guar Q i → c'.Heads m rely guar Q i := by
  obtain ⟨k, ev⟩ := ev
  cases ev with
  | start a =>
    simp only [Machine.pool] at st
    split at st
    · cases st
      refine ⟨fits.refl _, fun stable other hd => ?_⟩
      refine hd.goOn_ne stable (fun e => ?_) (fits.refl _)
      exact other a (e ▸ rfl)
    · cases st
  | perform o =>
    simp only [Machine.pool] at st
    split at st
    · rename_i e next running
      cases st
      obtain ⟨_, P, hs, _, step⟩ := (sec.heads k).call running
      have moved := fits.guar_rely (step c.world hs o).1
      refine ⟨moved, fun {Q i} stable _ hd => ?_⟩
      by_cases eq : i = k
      · subst eq
        obtain ⟨_, P, hs, _, step⟩ := hd.call running
        exact Pool.Heads.goOn (step c.world hs o).2
      · exact hd.goOn_ne stable eq moved
    · cases st
  | crash =>
    cases st
    exact ⟨fits.refl _, fun _ _ hd => hd.crash k⟩
  | drift w =>
    obtain ⟨world, drifted, rfl⟩ := Option.map_eq_some_iff.mp st
    have moved := fits.drift_rely drifted
    exact ⟨moved, fun stable _ hd => hd.relied stable moved rfl rfl⟩

/-- Every event keeps a pool secure. -/
lemma Pool.Secure.next {main : ι → A → Program E R ε α} (fits : m.Fits rely guar main s)
    (sec : Pool.Secure m rely guar s c) {ev : ι × RunEvent A O W} {c' : Pool ι σ E R ε α}
    (st : (m.pool main).step c ev = some c') : Pool.Secure m rely guar s c' := by
  obtain ⟨moved, heads⟩ := sec.step fits st
  refine ⟨fits.trans sec.world moved, fun i => ?_⟩
  by_cases started : ∃ a, ev = (i, .start a)
  · obtain ⟨a, rfl⟩ := started
    simp only [Machine.pool] at st
    split at st
    · cases st
      exact Pool.Heads.goOn (fits.upholds i a _ sec.world)
    · cases st
  · exact heads (fun _ _ _ _ _ => trivial) (fun a e => started ⟨a, e⟩) (sec.heads i)

/-- A pool that is secure stays so, and the world moves as the rely allows. -/
lemma Pool.Secure.run {main : ι → A → Program E R ε α} (fits : m.Fits rely guar main s)
    (sec : Pool.Secure m rely guar s c) {events : List (ι × RunEvent A O W)}
    {c' : Pool ι σ E R ε α} (rn : (m.pool main).run c events = some c') :
    Pool.Secure m rely guar s c' ∧ rely c.world c'.world := by
  refine System.run_invariant
    (P := fun d => Pool.Secure m rely guar s d ∧ rely c.world d.world) ?_ rn ⟨sec, fits.refl _⟩
  rintro d ev d' ⟨sec, moved⟩ st
  exact ⟨sec.next fits st, fits.trans moved (sec.step fits st).1⟩

/-- Every run of a pool is secure. -/
lemma Machine.pool_secure {main : ι → A → Program E R ε α} (fits : m.Fits rely guar main s)
    {events : List (ι × RunEvent A O W)}
    (rn : (m.pool main).run { world := s } events = some c) : Pool.Secure m rely guar s c := by
  refine (Pool.Secure.run fits ⟨fits.refl s, fun i => ⟨?_, ?_⟩⟩ rn).1
  · intro p running
    cases running
  · intro r result
    cases result

/-- Every run of a pool stays within the rely: whatever the order of the effects, and whichever
    processes crash. -/
theorem Machine.pool_rely {main : ι → A → Program E R ε α} (fits : m.Fits rely guar main s)
    {events : List (ι × RunEvent A O W)}
    (rn : (m.pool main).run { world := s } events = some c) : rely s c.world :=
  (Machine.pool_secure fits rn).world

/-- A call that a process starts at some time in a run ends as it does alone, whatever the others do
    meanwhile and afterwards. -/
theorem Machine.pool_ends {main : ι → A → Program E R ε α} (fits : m.Fits rely guar main s)
    (stable : ∀ r t t', Q r t → rely t t' → Q r t') {before events : List (ι × RunEvent A O W)}
    {c₁ c₂ : Pool ι σ E R ε α} {a : A}
    (rn : (m.pool main).run { world := s } before = some c)
    (st : (m.pool main).step c (i, .start a) = some c₁)
    (upholds : rely s c.world → (main i a).Upholds m rely guar Q c.world)
    (rn' : (m.pool main).run c₁ events = some c₂) (once : ∀ a, (i, .start a) ∉ events)
    {r : Except ε α} (result : c₂.ended i = some r) : Q r c₂.world := by
  have sec := Machine.pool_secure fits rn
  have first : c₁.Heads m rely guar Q i := by
    simp only [Machine.pool] at st
    split at st
    · cases st
      exact Pool.Heads.goOn (upholds sec.world)
    · cases st
  have sec₁ := sec.next fits st
  suffices hd : c₂.Heads m rely guar Q i from hd.result result
  clear rn st result
  induction events generalizing c₁ with
  | nil =>
    cases rn'
    exact first
  | cons ev events ih =>
    obtain ⟨c', st, rn'⟩ := System.run_cons.mp rn'
    obtain ⟨_, heads⟩ := sec₁.step fits st
    refine ih rn' (fun a mem => once a (List.mem_cons_of_mem _ mem)) ?_ (sec₁.next fits st)
    refine heads stable (fun a e => ?_) first
    exact once a (e ▸ List.mem_cons_self)

end Pool

end ResearchController.Lib
