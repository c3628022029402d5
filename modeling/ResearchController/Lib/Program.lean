import ResearchController.Lib.System

/-!
# Programs that can crash

A `Program` performs its effects one at a time, so that a crash or a step of another process can
fall between any two of them. A `Machine` says what an effect does to the world and which steps the
surroundings take by themselves (`drift`); `Machine.system` is the system of all runs: calls are
started one after the other, each performs its effects, and a crash forgets the call in progress.

Reasoning is by contract. `rest` holds whenever no call is in progress, and therefore at every point
where a crash may strike; `always` holds at every moment; `good` relates the result of a finished
call to the world. `Program.Safe` is the weakest precondition of a program under a contract, with
one stable assertion for each effect. `Machine.run_secure` takes it from the program to every run
whose crashes and drifts the contract permits.
-/

namespace ResearchController.Lib

/-- A program over effects `E`, where `e` is answered by a value of `R e`: it returns, raises, or
    performs an effect and goes on with the answer. -/
inductive Program (E : Type) (R : E → Type) (ε α : Type) where
  | ret (a : α)
  | raise (e : ε)
  | perform (e : E) (next : R e → Program E R ε α)

namespace Program

variable {E : Type} {R : E → Type} {ε α β : Type}

/-- One program after another. -/
def bind : Program E R ε α → (α → Program E R ε β) → Program E R ε β
  | .ret a, f => f a
  | .raise e, _ => .raise e
  | .perform e next, f => .perform e fun r => (next r).bind f

instance : Monad (Program E R ε) where
  pure := .ret
  bind := bind

lemma bind_pure (p : Program E R ε α) : (p >>= pure) = p := by
  induction p with
  | ret a => rfl
  | raise e => rfl
  | perform e next ih => exact congrArg (Program.perform e) (funext ih)

/-- Perform one effect. -/
def call (e : E) : Program E R ε (R e) := .perform e .ret

/-- Go on with a value or raise its exception. -/
def check : Except ε α → Program E R ε α
  | .ok a => .ret a
  | .error e => .raise e

/-- The effect that a program is about to perform. -/
def pending : Program E R ε α → Option E
  | .perform e _ => some e
  | .ret _ => none
  | .raise _ => none

end Program

/-- What effects do to a world `σ`, with the answers `O` of the surroundings, and the steps `W` that
    the surroundings take by themselves. -/
structure Machine (σ E : Type) (R : E → Type) (O W : Type) where
  handle : σ → (e : E) → O → σ × R e
  drift : σ → W → Option σ

/-- A world with the call in progress and the results of the finished calls. -/
structure Config (σ E : Type) (R : E → Type) (ε α : Type) where
  world : σ
  running : Option (Program E R ε α) := none
  results : List (Except ε α) := []

/-- An event of a run. -/
inductive RunEvent (A O W : Type) where
  | start (a : A)
  | perform (o : O)
  | crash
  | drift (w : W)

variable {σ E : Type} {R : E → Type} {O W ε α β A : Type}

/-- Go on with the rest of a call, or take its result. -/
def Config.goOn (c : Config σ E R ε α) (world : σ) : Program E R ε α → Config σ E R ε α
  | .ret a => { world := world, running := none, results := c.results ++ [.ok a] }
  | .raise e => { world := world, running := none, results := c.results ++ [.error e] }
  | .perform e next => { world := world, running := some (.perform e next), results := c.results }

/-- The runs of calls of `main`. -/
def Machine.system (m : Machine σ E R O W) (main : A → Program E R ε α) :
    System (Config σ E R ε α) (RunEvent A O W) where
  step c
    | .start a =>
      match c.running with
      | none => some (c.goOn c.world (main a))
      | some _ => none
    | .perform o =>
      match c.running with
      | some (.perform e next) =>
        let answered := m.handle c.world e o
        some (c.goOn answered.1 (next answered.2))
      | _ => none
    | .crash => some { c with running := none }
    | .drift w => (m.drift c.world w).map fun world => { c with world := world }

/-- A run changes the world by the effects and by the steps of the surroundings only. -/
theorem Machine.run_world {m : Machine σ E R O W} {main : A → Program E R ε α} {P : σ → Prop}
    (handle : ∀ s e o, P s → P (m.handle s e o).1)
    (drift : ∀ s w s', P s → m.drift s w = some s' → P s')
    {c c' : Config σ E R ε α} {events : List (RunEvent A O W)}
    (rn : (m.system main).run c events = some c') (h : P c.world) : P c'.world := by
  have going : ∀ (c : Config σ E R ε α) world (p : Program E R ε α), P world →
      P (c.goOn world p).world := by
    intro c world p h
    cases p <;> exact h
  refine System.run_invariant (P := fun c => P c.world) ?_ rn h
  rintro ⟨world, running, results⟩ ev d h st
  cases ev with
  | start a =>
    cases running with
    | some p => cases st
    | none =>
      cases st
      exact going _ world (main a) h
  | perform o =>
    cases running with
    | none => cases st
    | some p =>
      cases p with
      | ret a => cases st
      | raise e => cases st
      | perform e next =>
        cases st
        exact going _ _ _ (handle world e o h)
  | crash =>
    cases st
    exact h
  | drift w =>
    obtain ⟨world', moved, rfl⟩ := Option.map_eq_some_iff.mp st
    exact drift world w world' h moved

/-- What is promised about the runs of a program. A crash may strike before the effects in
    `crashes`, and while `e` is pending the surroundings take the steps in `drifts e`. -/
structure Contract (σ E W ε α : Type) where
  rest : σ → Prop
  always : σ → Prop := rest
  good : Except ε α → σ → Prop := fun _ _ => True
  crashes : E → Prop := fun _ => True
  drifts : E → σ → W → Prop := fun _ _ _ => True

/-- An assertion that the permitted steps of the surroundings keep. -/
def Machine.Stable (m : Machine σ E R O W) (permitted : σ → W → Prop) (P : σ → Prop) : Prop :=
  ∀ {s w s'}, P s → permitted s w → m.drift s w = some s' → P s'

/-- Weakest precondition of a program: before every effect some stable assertion holds that implies
    the contract and is enough for the rest of the program. -/
def Program.Safe {α' : Type} (m : Machine σ E R O W) (ct : Contract σ E W ε α')
    (Q : Except ε α → σ → Prop) : Program E R ε α → σ → Prop
  | .ret a, s => Q (.ok a) s
  | .raise e, s => Q (.error e) s
  | .perform e next, s =>
    ∃ P : σ → Prop, P s ∧ m.Stable (ct.drifts e) P ∧
      ∀ t, P t → ct.always t ∧ (ct.crashes e → ct.rest t) ∧
        ∀ o, (next (m.handle t e o).2).Safe m ct Q (m.handle t e o).1

namespace Program.Safe

variable {α' : Type} {m : Machine σ E R O W} {ct : Contract σ E W ε α'}

/-- A weaker postcondition. -/
lemma mono {Q Q' : Except ε α → σ → Prop} (weaker : ∀ r s, Q r s → Q' r s) {p : Program E R ε α}
    {s : σ} (h : p.Safe m ct Q s) : p.Safe m ct Q' s := by
  induction p generalizing s with
  | ret a => exact weaker _ s h
  | raise e => exact weaker _ s h
  | perform e next ih =>
    obtain ⟨P, hs, stable, step⟩ := h
    refine ⟨P, hs, stable, ?_⟩
    intro t ht
    obtain ⟨always, rest, continues⟩ := step t ht
    exact ⟨always, rest, fun o => ih _ (continues o)⟩

/-- The contract holds wherever the program has got to. -/
lemma always {Q : Except ε α → σ → Prop} (ends : ∀ r s, Q r s → ct.always s)
    {p : Program E R ε α} {s : σ} (h : p.Safe m ct Q s) : ct.always s := by
  cases p with
  | ret a => exact ends _ s h
  | raise e => exact ends _ s h
  | perform e next =>
    obtain ⟨P, hs, _, step⟩ := h
    exact (step s hs).1

/-- Composition: the rest starts where the first part returns, and exceptions pass through. -/
lemma bind {Q : Except ε α → σ → Prop} {Q' : Except ε β → σ → Prop} {p : Program E R ε α}
    {f : α → Program E R ε β} {s : σ} (h : p.Safe m ct Q s)
    (returns : ∀ a s, Q (.ok a) s → (f a).Safe m ct Q' s)
    (raises : ∀ e s, Q (.error e) s → Q' (.error e) s) : (p >>= f).Safe m ct Q' s := by
  induction p generalizing s with
  | ret a => exact returns a s h
  | raise e => exact raises e s h
  | perform e next ih =>
    obtain ⟨P, hs, stable, step⟩ := h
    refine ⟨P, hs, stable, ?_⟩
    intro t ht
    obtain ⟨always, rest, continues⟩ := step t ht
    exact ⟨always, rest, fun o => ih _ (continues o)⟩

/-- One effect under a stable assertion. -/
lemma call {Q : Except ε α → σ → Prop} {e : E} {f : R e → Program E R ε α} {s : σ} (P : σ → Prop)
    (hs : P s) (stable : m.Stable (ct.drifts e) P) (always : ∀ t, P t → ct.always t)
    (rest : ct.crashes e → ∀ t, P t → ct.rest t)
    (continues : ∀ t o, P t → (f (m.handle t e o).2).Safe m ct Q (m.handle t e o).1) :
    (Program.call e >>= f).Safe m ct Q s :=
  ⟨P, hs, stable, fun t ht => ⟨always t ht, fun c => rest c t ht, fun o => continues t o ht⟩⟩

/-- One effect, when the surroundings take no steps. -/
lemma call_still {Q : Except ε α → σ → Prop} {e : E} {f : R e → Program E R ε α} {s : σ}
    (still : ∀ s w, m.drift s w = none) (always : ct.always s) (rest : ct.crashes e → ct.rest s)
    (continues : ∀ o, (f (m.handle s e o).2).Safe m ct Q (m.handle s e o).1) :
    (Program.call e >>= f).Safe m ct Q s := by
  apply call (· = s) rfl
  · intro t w t' _ _ moved
    rw [still] at moved
    cases moved
  · rintro t rfl
    exact always
  · rintro exposed t rfl
    exact rest exposed
  · rintro t o rfl
    exact continues o

end Program.Safe

/-- The contract fits the machine: no step of the surroundings breaks the invariant between calls,
    and nothing breaks what is known about the result of a finished call. -/
structure Contract.Fits (ct : Contract σ E W ε α) (m : Machine σ E R O W) : Prop where
  always : ∀ {s}, ct.rest s → ct.always s
  stable : m.Stable (fun _ _ => True) ct.rest
  goodHandle : ∀ {r s} (e o), ct.good r s → ct.good r (m.handle s e o).1
  goodDrift : ∀ {r}, m.Stable (fun _ _ => True) (ct.good r)

/-- The crashes and drifts that a contract permits. -/
def Contract.permits (ct : Contract σ E W ε α) (c : Config σ E R ε α) : RunEvent A O W → Prop
  | .crash => ∀ p ∈ c.running, ∀ e ∈ p.pending, ct.crashes e
  | .drift w => ∀ p ∈ c.running, ∀ e ∈ p.pending, ct.drifts e c.world w
  | _ => True

/-- What holds between any two events of a run. -/
structure Contract.Secure (ct : Contract σ E W ε α) (m : Machine σ E R O W)
    (c : Config σ E R ε α) : Prop where
  always : ct.always c.world
  idle : c.running = none → ct.rest c.world
  busy : ∀ p ∈ c.running, (∃ e, p.pending = some e) ∧
    p.Safe m ct (fun r s => ct.rest s ∧ ct.good r s) c.world
  results : ∀ r ∈ c.results, ct.good r c.world

namespace Contract.Secure

variable {ct : Contract σ E W ε α} {m : Machine σ E R O W} {c : Config σ E R ε α}

/-- Between two calls. -/
lemma ofIdle (idle : c.running = none) (always : ct.always c.world) (rest : ct.rest c.world)
    (results : ∀ r ∈ c.results, ct.good r c.world) : ct.Secure m c := by
  refine ⟨always, fun _ => rest, ?_, results⟩
  intro p running
  rw [idle] at running
  cases running

/-- In front of an effect of a call. -/
lemma ofBusy {e : E} {next : R e → Program E R ε α} (busy : c.running = some (.perform e next))
    (safe : (Program.perform e next).Safe m ct (fun r s => ct.rest s ∧ ct.good r s) c.world)
    (results : ∀ r ∈ c.results, ct.good r c.world) : ct.Secure m c := by
  obtain ⟨P, hs, stable, step⟩ := safe
  refine ⟨(step c.world hs).1, ?_, ?_, results⟩
  · intro idle
    rw [busy] at idle
    cases idle
  · intro p running
    rw [busy] at running
    cases running
    exact ⟨⟨e, rfl⟩, P, hs, stable, step⟩

/-- Going on with a safe program keeps a configuration secure. -/
lemma goOn (fits : ct.Fits m) {world : σ} (results : ∀ r ∈ c.results, ct.good r world)
    {p : Program E R ε α} (safe : p.Safe m ct (fun r s => ct.rest s ∧ ct.good r s) world) :
    ct.Secure m (c.goOn world p) := by
  have finished : ∀ r, ct.rest world ∧ ct.good r world →
      ct.Secure m { world := world, running := none, results := c.results ++ [r] } := by
    rintro r ⟨rest, good⟩
    refine .ofIdle rfl (fits.always rest) rest ?_
    intro r' mem
    rcases List.mem_append.mp mem with old | new
    · exact results r' old
    · rw [List.mem_singleton.mp new]
      exact good
  cases p with
  | ret a => exact finished (.ok a) safe
  | raise e => exact finished (.error e) safe
  | perform e next =>
    exact .ofBusy rfl safe results

/-- The contract holds after the effect that a call is about to perform. -/
lemma always_next (fits : ct.Fits m) (sec : ct.Secure m c) {p : Program E R ε α}
    (running : p ∈ c.running) {e : E} (pending : p.pending = some e) (o : O) :
    ct.always (m.handle c.world e o).1 := by
  obtain ⟨_, safe⟩ := sec.busy p running
  cases p with
  | ret a => cases pending
  | raise e => cases pending
  | perform e next =>
    cases pending
    obtain ⟨P, hs, _, step⟩ := safe
    exact ((step c.world hs).2.2 o).always fun _ _ ended => fits.always ended.1

/-- Every permitted event keeps a configuration secure. -/
lemma step (fits : ct.Fits m) {main : A → Program E R ε α}
    (safe : ∀ a s, ct.rest s → (main a).Safe m ct (fun r s => ct.rest s ∧ ct.good r s) s)
    {ev : RunEvent A O W} {c' : Config σ E R ε α} (sec : ct.Secure m c)
    (permitted : ct.permits c ev)
    (st : (m.system main).step c ev = some c') : ct.Secure m c' := by
  cases ev with
  | start a =>
    cases idle : c.running with
    | some p =>
      simp only [Machine.system, idle] at st
      cases st
    | none =>
      simp only [Machine.system, idle] at st
      cases st
      exact goOn fits sec.results (safe a c.world (sec.idle idle))
  | perform o =>
    cases busy : c.running with
    | none =>
      simp only [Machine.system, busy] at st
      cases st
    | some p =>
      obtain ⟨⟨e, pending⟩, running⟩ := sec.busy p busy
      cases p with
      | ret a => cases pending
      | raise e => cases pending
      | perform e next =>
        simp only [Machine.system, busy] at st
        cases st
        obtain ⟨P, hs, stable, goesOn⟩ := running
        obtain ⟨_, _, continues⟩ := goesOn c.world hs
        exact goOn fits (fun r mem => fits.goodHandle e o (sec.results r mem)) (continues o)
  | crash =>
    cases st
    have rest : ct.rest c.world := by
      cases busy : c.running with
      | none => exact sec.idle busy
      | some p =>
        obtain ⟨⟨e, pending⟩, running⟩ := sec.busy p busy
        have exposed := permitted p busy e pending
        cases p with
        | ret a => cases pending
        | raise e => cases pending
        | perform e next =>
          cases pending
          obtain ⟨P, hs, stable, goesOn⟩ := running
          exact (goesOn c.world hs).2.1 exposed
    exact .ofIdle rfl sec.always rest sec.results
  | drift w =>
    obtain ⟨world, moved, rfl⟩ := Option.map_eq_some_iff.mp st
    have results : ∀ r ∈ c.results, ct.good r world :=
      fun r mem => fits.goodDrift (sec.results r mem) trivial moved
    cases busy : c.running with
    | none =>
      have rest := fits.stable (sec.idle busy) trivial moved
      exact .ofIdle rfl (fits.always rest) rest results
    | some p =>
      obtain ⟨⟨e, pending⟩, running⟩ := sec.busy p busy
      have allowed := permitted p busy e pending
      cases p with
      | ret a => cases pending
      | raise e => cases pending
      | perform e next =>
        cases pending
        obtain ⟨P, hs, stable, goesOn⟩ := running
        exact .ofBusy rfl ⟨P, stable hs allowed moved, stable, goesOn⟩ results

/-- Every run whose crashes and drifts are permitted keeps a configuration secure. -/
lemma run (fits : ct.Fits m) {main : A → Program E R ε α}
    (safe : ∀ a s, ct.rest s → (main a).Safe m ct (fun r s => ct.rest s ∧ ct.good r s) s)
    {events : List (RunEvent A O W)} {c' : Config σ E R ε α} (sec : ct.Secure m c)
    (rn : (m.system main).run c events = some c')
    (ms : (m.system main).Meets ct.permits c events) : ct.Secure m c' := by
  refine System.run_invariant_of_meets (P := fun c => ct.Secure m c) ?_ rn ms sec
  intro c ev c' sec permitted st
  exact sec.step fits safe permitted st

/-- Before the first call. -/
lemma start (fits : ct.Fits m) {s : σ} (hs : ct.rest s) :
    ct.Secure m ({ world := s } : Config σ E R ε α) := by
  refine .ofIdle rfl (fits.always hs) hs ?_
  intro r mem
  cases mem

end Contract.Secure

/-- A program that is safe from every state at rest keeps its contract in every run whose crashes
    and drifts are permitted. -/
theorem Machine.run_secure {m : Machine σ E R O W} {ct : Contract σ E W ε α} (fits : ct.Fits m)
    {main : A → Program E R ε α}
    (safe : ∀ a s, ct.rest s → (main a).Safe m ct (fun r s => ct.rest s ∧ ct.good r s) s)
    {s : σ} {events : List (RunEvent A O W)} {c : Config σ E R ε α}
    (rn : (m.system main).run { world := s } events = some c)
    (ms : (m.system main).Meets ct.permits { world := s } events) (hs : ct.rest s) :
    ct.Secure m c :=
  (Contract.Secure.start fits hs).run fits safe rn ms

/-! ## One call among the steps of the surroundings -/

/-- The surroundings take any number of steps. -/
def Machine.Drifts (m : Machine σ E R O W) : σ → σ → Prop :=
  Relation.ReflTransGen fun s t => ∃ w, m.drift s w = some t

/-- A call that runs to its end among the steps of the surroundings, with the effects it performs
    and the world each of them meets. -/
inductive Machine.Interleaved (m : Machine σ E R O W) :
    Program E R ε α → σ → List (E × σ) → Except ε α → σ → Prop where
  | ret {a s} :
    Interleaved m (.ret a) s [] (.ok a) s
  | raise {e s} :
    Interleaved m (.raise e) s [] (.error e) s
  | perform {e next s t o trace r s'} :
    m.Drifts s t →
    Interleaved m (next (m.handle t e o).2) (m.handle t e o).1 trace r s' →
    Interleaved m (.perform e next) s ((e, t) :: trace) r s'

namespace Machine.Interleaved

variable {m : Machine σ E R O W} {s s' : σ} {trace : List (E × σ)}

/-- Two parts of a composition, one after the other. -/
lemma bind {p : Program E R ε α} {f : α → Program E R ε β} {a : α} {t : σ}
    {first rest : List (E × σ)} {r : Except ε β} (h : m.Interleaved p s first (.ok a) t)
    (h' : m.Interleaved (f a) t rest r s') : m.Interleaved (p >>= f) s (first ++ rest) r s' := by
  induction p generalizing s first with
  | ret a =>
    cases h
    exact h'
  | raise e => cases h
  | perform e next ih =>
    cases h with
    | perform drifts h => exact .perform drifts (ih _ h)

/-- A value that is there is taken. -/
lemma check {x : Except ε α} {f : α → Program E R ε β} {a : α} {r : Except ε β}
    (ok : x = .ok a) (h : m.Interleaved (f a) s trace r s') :
    m.Interleaved (Program.check x >>= f) s trace r s' := by
  rw [ok]
  exact h

/-- A finished program performs nothing more. -/
lemma ret_inv {a : α} {r : Except ε α}
    (h : m.Interleaved (.ret a : Program E R ε α) s trace r s') :
    trace = [] ∧ r = .ok a ∧ s' = s := by
  cases h
  exact ⟨rfl, rfl, rfl⟩

/-- A composition that returns is its first part followed by its rest. -/
lemma bind_inv {p : Program E R ε α} {f : α → Program E R ε β} {b : β}
    (h : m.Interleaved (p >>= f) s trace (.ok b) s') :
    ∃ a t first rest, m.Interleaved p s first (.ok a) t ∧
      m.Interleaved (f a) t rest (.ok b) s' ∧ trace = first ++ rest := by
  induction p generalizing s trace with
  | ret a => exact ⟨a, s, [], trace, .ret, h, rfl⟩
  | raise e => cases h
  | perform e next ih =>
    cases h with
    | perform drifts h =>
      obtain ⟨a, t, first, rest, h1, h2, rfl⟩ := ih _ h
      exact ⟨a, t, _ :: first, rest, .perform drifts h1, h2, rfl⟩

/-- A program that starts with an effect. -/
lemma call_inv {e : E} {f : R e → Program E R ε α} {r : Except ε α}
    (h : m.Interleaved (Program.call e >>= f) s trace r s') :
    ∃ t o rest, m.Drifts s t ∧
      m.Interleaved (f (m.handle t e o).2) (m.handle t e o).1 rest r s' ∧
      trace = (e, t) :: rest := by
  cases h with
  | @perform _ _ _ t o rest _ _ drifts h => exact ⟨t, o, rest, drifts, h, rfl⟩

/-- A program that returns has not raised. -/
lemma check_inv {x : Except ε α} {f : α → Program E R ε β} {b : β}
    (h : m.Interleaved (Program.check x >>= f) s trace (.ok b) s') :
    ∃ a, x = .ok a ∧ m.Interleaved (f a) s trace (.ok b) s' := by
  cases x with
  | ok a => exact ⟨a, rfl, h⟩
  | error e => cases h

/-- A composition that raises does so in its first part or in its rest. -/
lemma bind_raises {p : Program E R ε α} {f : α → Program E R ε β} {e : ε}
    (h : m.Interleaved (p >>= f) s trace (.error e) s') :
    m.Interleaved p s trace (.error e) s' ∨
      ∃ a t first rest, m.Interleaved p s first (.ok a) t ∧
        m.Interleaved (f a) t rest (.error e) s' ∧ trace = first ++ rest := by
  induction p generalizing s trace with
  | ret a => exact Or.inr ⟨a, s, [], trace, .ret, h, rfl⟩
  | raise e =>
    cases h
    exact Or.inl .raise
  | perform e next ih =>
    cases h with
    | perform drifts h =>
      obtain raised | ⟨a, t, first, rest, h1, h2, rfl⟩ := ih _ h
      · exact Or.inl (.perform drifts raised)
      · exact Or.inr ⟨a, t, _ :: first, rest, .perform drifts h1, h2, rfl⟩

/-- A program that raises has raised here or later. -/
lemma check_raises {x : Except ε α} {f : α → Program E R ε β} {e : ε}
    (h : m.Interleaved (Program.check x >>= f) s trace (.error e) s') :
    x = .error e ∨ ∃ a, x = .ok a ∧ m.Interleaved (f a) s trace (.error e) s' := by
  cases x with
  | ok a => exact Or.inr ⟨a, rfl, h⟩
  | error e =>
    cases h
    exact Or.inl rfl

/-- If effects do not change the world, the surroundings alone have brought it to its end, past the
    world that each effect met. -/
lemma drifts (reads : ∀ s e o, (m.handle s e o).1 = s) {p : Program E R ε α} {r : Except ε α}
    (h : m.Interleaved p s trace r s') : m.Drifts s s' := by
  induction h with
  | ret => exact .refl
  | raise => exact .refl
  | perform drifts _ ih =>
    rw [reads] at ih
    exact drifts.trans ih

end Machine.Interleaved

/-- The effects that a program may perform. -/
def Program.Within (K : E → Prop) : Program E R ε α → Prop
  | .ret _ => True
  | .raise _ => True
  | .perform e next => K e ∧ ∀ r, (next r).Within K

lemma Program.Within.bind {K : E → Prop} {p : Program E R ε α} {f : α → Program E R ε β}
    (hp : p.Within K) (hf : ∀ a, (f a).Within K) : (p >>= f).Within K := by
  induction p with
  | ret a => exact hf a
  | raise e => trivial
  | perform e next ih => exact ⟨hp.1, fun r => ih r (hp.2 r)⟩

lemma Program.Within.check (K : E → Prop) (x : Except ε α) :
    (Program.check x : Program E R ε α).Within K := by
  cases x with
  | ok a => trivial
  | error e => trivial

/-- A call performs no other effects. -/
lemma Machine.Interleaved.within {m : Machine σ E R O W} {K : E → Prop} {p : Program E R ε α}
    {s s' : σ} {trace : List (E × σ)} {r : Except ε α} (h : m.Interleaved p s trace r s')
    (hp : p.Within K) : ∀ x ∈ trace, K x.1 := by
  induction h with
  | ret =>
    intro x mem
    cases mem
  | raise =>
    intro x mem
    cases mem
  | perform _ _ ih =>
    intro x mem
    rcases List.mem_cons.mp mem with rfl | later
    · exact hp.1
    · exact ih (hp.2 _) x later

/-! ## One call alone -/

/-- The result of a call and the world it leaves, where the surroundings answer every effect by a
    function. -/
def Machine.eval (m : Machine σ E R O W) (answer : σ → E → O) :
    Program E R ε α → σ → Except ε α × σ
  | .ret a, s => (.ok a, s)
  | .raise e, s => (.error e, s)
  | .perform e next, s =>
    let answered := m.handle s e (answer s e)
    m.eval answer (next answered.2) answered.1

/-- Every effect of such a call passes a test. -/
def Machine.evalAll (m : Machine σ E R O W) (answer : σ → E → O) (test : σ → E → Bool) :
    Program E R ε α → σ → Bool
  | .ret _, _ => true
  | .raise _, _ => true
  | .perform e next, s =>
    let answered := m.handle s e (answer s e)
    test s e && m.evalAll answer test (next answered.2) answered.1

/-- A call whose effects all pass the test ends as `Q` says. -/
def Machine.Ends (m : Machine σ E R O W) (answer : σ → E → O) (test : σ → E → Bool)
    (Q : Except ε α → σ → Prop) (p : Program E R ε α) (s : σ) : Prop :=
  m.evalAll answer test p s = true → Q (m.eval answer p s).1 (m.eval answer p s).2

namespace Machine.Ends

variable {m : Machine σ E R O W} {answer : σ → E → O} {test : σ → E → Bool} {s : σ}

lemma ret {Q : Except ε α → σ → Prop} {a : α} (h : Q (.ok a) s) :
    m.Ends answer test Q (pure a) s :=
  fun _ => h

lemma raise {Q : Except ε α → σ → Prop} {e : ε} (h : Q (.error e) s) :
    m.Ends answer test Q (.raise e) s :=
  fun _ => h

/-- A weaker conclusion. -/
lemma mono {Q Q' : Except ε α → σ → Prop} (weaker : ∀ r s, Q r s → Q' r s)
    {p : Program E R ε α} (h : m.Ends answer test Q p s) : m.Ends answer test Q' p s :=
  fun passes => weaker _ _ (h passes)

/-- An effect, and the rest of the program. -/
lemma call {Q : Except ε α → σ → Prop} {e : E} {f : R e → Program E R ε α}
    (continues : test s e = true →
      m.Ends answer test Q (f (m.handle s e (answer s e)).2) (m.handle s e (answer s e)).1) :
    m.Ends answer test Q (Program.call e >>= f) s := by
  intro passes
  obtain ⟨first, rest⟩ := Bool.and_eq_true_iff.mp passes
  exact continues first rest

/-- Composition: the rest starts where the first part returns, and exceptions pass through. -/
lemma bind {Q : Except ε α → σ → Prop} {Q' : Except ε β → σ → Prop} {p : Program E R ε α}
    {f : α → Program E R ε β} (h : m.Ends answer test Q p s)
    (returns : ∀ a s, Q (.ok a) s → m.Ends answer test Q' (f a) s)
    (raises : ∀ e s, Q (.error e) s → Q' (.error e) s) : m.Ends answer test Q' (p >>= f) s := by
  induction p generalizing s with
  | ret a => exact returns a s (h rfl)
  | raise e => exact fun _ => raises e s (h rfl)
  | perform e next ih =>
    apply call
    intro first
    apply ih
    intro rest
    exact h (Bool.and_eq_true_iff.mpr ⟨first, rest⟩)

/-- A value is taken or its exception is raised. -/
lemma check {Q : Except ε β → σ → Prop} {x : Except ε α} {f : α → Program E R ε β}
    (returns : ∀ a, x = .ok a → m.Ends answer test Q (f a) s)
    (raises : ∀ e, x = .error e → Q (.error e) s) :
    m.Ends answer test Q (Program.check x >>= f) s := by
  cases x with
  | ok a => exact returns a rfl
  | error e => exact fun _ => raises e rfl

end Machine.Ends

end ResearchController.Lib
