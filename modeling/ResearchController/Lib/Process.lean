import ResearchController.Lib.Pool

/-!
# The life of a process

`Machine.process` is the system of one process with one program. It performs its effects, it may be
killed before any of them, and after its end it stays visible until it has been reaped. What the
surroundings do to its world goes on after its death.

`Machine.process_run` takes a program from rely and guarantee to the whole life of the process: the
world moves by the guarantee, by the rely or not at all (`Process.Moves`). Where a program relies on
surroundings that keep to certain steps, its machine is the restricted one (`Machine.restrict`).

A call of another process sees a process from outside. `Machine.Views` says that a view of one
machine's states is a simulation into another, up to answers that are alike;
`Machine.Interleaved.viewed` carries every call that does not tell such answers apart
(`Program.Blind`) along.
-/

namespace ResearchController.Lib

variable {σ E : Type} {R : E → Type} {O W ε α β : Type}

/-- A process in its world: the rest of its program, how the program has ended, and whether the
    process is still visible. A process that was killed has no end. -/
structure Process (σ E : Type) (R : E → Type) (ε α : Type) where
  world : σ
  rest : Option (Program E R ε α)
  ended : Option (Except ε α) := none
  present : Bool := true

/-- An event in the life of a process. -/
inductive LifeEvent (O W : Type) where
  | perform (o : O)
  | kill
  | reap
  | drift (w : W)

/-- A process that starts a program. -/
def Process.spawn (world : σ) (p : Program E R ε α) : Process σ E R ε α where
  world := world
  rest := p.left
  ended := p.outcome

/-- A process goes on with the rest of its program. -/
def Process.goOn (c : Process σ E R ε α) (world : σ) (p : Program E R ε α) :
    Process σ E R ε α :=
  { c with world := world, rest := p.left, ended := p.outcome }

/-- The life of a process. -/
def Machine.process (m : Machine σ E R O W) : System (Process σ E R ε α) (LifeEvent O W) where
  step c
    | .perform o =>
      match c.rest with
      | some (.perform e next) =>
        let answered := m.handle c.world e o
        some (c.goOn answered.1 (next answered.2))
      | _ => none
    | .kill => c.rest.map fun _ => { c with rest := none }
    | .reap =>
      if c.rest.isNone = true ∧ c.present = true then some { c with present := false } else none
    | .drift w => (m.drift c.world w).map fun world => { c with world := world }

/-- What an event does to a process and its world. -/
inductive Process.Moves (rely guar : σ → σ → Prop) (c c' : Process σ E R ε α) : Prop where
  | own :
    c.present = true →
    c'.present = true →
    guar c.world c'.world →
    Moves rely guar c c'
  | other :
    c'.present = c.present →
    rely c.world c'.world →
    Moves rely guar c c'
  | killed :
    c'.present = c.present →
    c'.world = c.world →
    Moves rely guar c c'
  | reaped :
    c.present = true →
    c'.present = false →
    c'.world = c.world →
    Moves rely guar c c'

/-- A process is in a program that keeps its guarantee and ends as `Q` says, or has ended so, or has
    been killed. -/
structure Process.Holds (m : Machine σ E R O W) (rely guar : σ → σ → Prop)
    (Q : Except ε α → σ → Prop) (c : Process σ E R ε α) : Prop where
  program : ∀ {p}, c.rest = some p →
    p.left = some p ∧ c.present = true ∧ p.Upholds m rely guar Q c.world
  result : ∀ {r}, c.ended = some r → Q r c.world

namespace Process.Holds

variable {m : Machine σ E R O W} {rely guar : σ → σ → Prop} {Q : Except ε α → σ → Prop}
  {c c' : Process σ E R ε α}

/-- A process that starts such a program. -/
lemma spawn {world : σ} {p : Program E R ε α} (upholds : p.Upholds m rely guar Q world) :
    (Process.spawn world p).Holds m rely guar Q := by
  cases p with
  | ret a =>
    refine ⟨nofun, fun {r} result => ?_⟩
    cases result
    exact upholds
  | raise e =>
    refine ⟨nofun, fun {r} result => ?_⟩
    cases result
    exact upholds
  | perform e next =>
    refine ⟨fun {q} rest => ?_, nofun⟩
    cases rest
    exact ⟨rfl, rfl, upholds⟩

/-- A visible process that goes on with such a program. -/
lemma goOn {world : σ} {p : Program E R ε α} (present : c.present = true)
    (upholds : p.Upholds m rely guar Q world) : (c.goOn world p).Holds m rely guar Q := by
  obtain ⟨old, rest, ended, shown⟩ := c
  cases present
  exact spawn upholds

/-- The surroundings do not stop a process. -/
lemma relied (stable : ∀ r s t, Q r s → rely s t → Q r t) (h : c.Holds m rely guar Q) {world : σ}
    (moved : rely c.world world) :
    Process.Holds m rely guar Q { c with world := world } := by
  refine ⟨fun {p} rest => ?_, fun result => stable _ _ _ (h.result result) moved⟩
  obtain ⟨left, present, upholds⟩ := h.program rest
  refine ⟨left, present, ?_⟩
  cases p with
  | ret a => cases left
  | raise e => cases left
  | perform e next => exact upholds.relied moved

/-- One event in the life of a process. -/
lemma step (drifts : ∀ {s w t}, m.drift s w = some t → rely s t)
    (stable : ∀ r s t, Q r s → rely s t → Q r t) (h : c.Holds m rely guar Q)
    {ev : LifeEvent O W} (st : m.process.step c ev = some c') :
    c'.Holds m rely guar Q ∧ c.Moves rely guar c' := by
  cases ev with
  | perform o =>
    simp only [Machine.process] at st
    split at st
    · rename_i e next rest
      cases st
      obtain ⟨_, present, P, hs, _, goesOn⟩ := h.program rest
      obtain ⟨guards, continues⟩ := goesOn c.world hs o
      exact ⟨goOn present continues, .own present present guards⟩
    · cases st
  | kill =>
    obtain ⟨p, rest, rfl⟩ := Option.map_eq_some_iff.mp st
    exact ⟨⟨nofun, h.result⟩, .killed rfl rfl⟩
  | reap =>
    simp only [Machine.process] at st
    split at st
    · rename_i done
      cases st
      have none : c.rest = none := Option.isNone_iff_eq_none.mp done.1
      refine ⟨⟨fun {p} rest => ?_, h.result⟩, .reaped done.2 rfl rfl⟩
      have rest : c.rest = some p := rest
      rw [none] at rest
      cases rest
    · cases st
  | drift w =>
    obtain ⟨world, moved, rfl⟩ := Option.map_eq_some_iff.mp st
    exact ⟨h.relied stable (drifts moved), .other rfl (drifts moved)⟩

end Process.Holds

/-- The whole life of a process: it holds what its program holds, and it has moved step by step. -/
theorem Machine.process_run {m : Machine σ E R O W} {rely guar : σ → σ → Prop}
    {Q : Except ε α → σ → Prop} (drifts : ∀ {s w t}, m.drift s w = some t → rely s t)
    (stable : ∀ r s t, Q r s → rely s t → Q r t) {c c' : Process σ E R ε α}
    {events : List (LifeEvent O W)} (rn : m.process.run c events = some c')
    (h : c.Holds m rely guar Q) :
    c'.Holds m rely guar Q ∧ Relation.ReflTransGen (Process.Moves rely guar) c c' := by
  refine System.run_invariant
    (P := fun d => d.Holds m rely guar Q ∧ Relation.ReflTransGen (Process.Moves rely guar) c d)
    ?_ rn ⟨h, .refl⟩
  rintro d ev d' ⟨holds, moves⟩ st
  obtain ⟨holds', moved⟩ := holds.step drifts stable st
  exact ⟨holds', moves.tail moved⟩

/-! ## Restricted surroundings -/

/-- The machine in surroundings that take no other steps than the permitted ones. -/
def Machine.restrict (m : Machine σ E R O W) (permitted : W → Bool) : Machine σ E R O W where
  handle := m.handle
  drift s w := if permitted w = true then m.drift s w else none

lemma Machine.restrict_drift {m : Machine σ E R O W} {permitted : W → Bool} {s t : σ} {w : W} :
    (m.restrict permitted).drift s w = some t ↔ permitted w = true ∧ m.drift s w = some t := by
  simp only [restrict]
  split
  · rename_i allowed
    exact ⟨fun moved => ⟨allowed, moved⟩, fun both => both.2⟩
  · rename_i denied
    exact ⟨nofun, fun both => absurd both.1 denied⟩

/-! ## Seen from outside -/

/-- Every effect of a call that only reads meets a world that the surroundings have made of the
    first one. -/
lemma Machine.Interleaved.met {m : Machine σ E R O W} (reads : ∀ s e o, (m.handle s e o).1 = s)
    {p : Program E R ε α} {s s' : σ} {trace : List (E × σ)} {r : Except ε α}
    (h : m.Interleaved p s trace r s') : ∀ x ∈ trace, m.Drifts s x.2 := by
  induction h with
  | ret => exact nofun
  | raise => exact nofun
  | perform drifts _ ih =>
    intro x mem
    rw [reads] at ih
    rcases List.mem_cons.mp mem with rfl | later
    · exact drifts
    · exact drifts.trans (ih x later)

/-- A program that does not tell answers apart that are alike. -/
def Program.Blind (alike : ∀ e, R e → R e → Prop) : Program E R ε α → Prop
  | .ret _ => True
  | .raise _ => True
  | .perform e next => ∀ r, (next r).Blind alike ∧ ∀ r', alike e r r' → next r = next r'

namespace Program.Blind

variable {alike : ∀ e, R e → R e → Prop}

lemma bind {p : Program E R ε α} {f : α → Program E R ε β} (hp : p.Blind alike)
    (hf : ∀ a, (f a).Blind alike) : (p >>= f).Blind alike := by
  induction p with
  | ret a => exact hf a
  | raise e => trivial
  | perform e next ih =>
    intro r
    refine ⟨ih r (hp r).1, fun r' same => ?_⟩
    exact congrArg (Program.bind · f) ((hp r).2 r' same)

/-- One effect, and the rest of the program. -/
lemma call {e : E} {f : R e → Program E R ε α} (hf : ∀ r, (f r).Blind alike)
    (same : ∀ r r', alike e r r' → f r = f r') : (Program.call e >>= f).Blind alike :=
  fun r => ⟨hf r, same r⟩

/-- One effect whose answers are alike only if they are equal. -/
lemma plain {e : E} {f : R e → Program E R ε α} (same : ∀ r r', alike e r r' → r = r')
    (hf : ∀ r, (f r).Blind alike) : (Program.call e >>= f).Blind alike :=
  call hf fun r r' h => congrArg f (same r r' h)

lemma check (x : Except ε α) : (Program.check x : Program E R ε α).Blind alike := by
  cases x with
  | ok a => trivial
  | error e => trivial

end Program.Blind

/-- A view of the states of one machine in which every step of its surroundings is a number of steps
    of the surroundings of another machine, and every answer is like one of the other machine. -/
structure Machine.Views {σ' O' W' : Type} (m : Machine σ E R O W) (m' : Machine σ' E R O' W')
    (view : σ → σ') (I : σ → Prop) (alike : ∀ e, R e → R e → Prop) : Prop where
  drift : ∀ {s w t}, I s → m.drift s w = some t → I t ∧ m'.Drifts (view s) (view t)
  answer : ∀ {s} (e o), I s → I (m.handle s e o).1 ∧
    ∃ o', (m'.handle (view s) e o').1 = view (m.handle s e o).1 ∧
      alike e (m.handle s e o).2 (m'.handle (view s) e o').2

section Views

variable {σ' O' W' : Type} {m : Machine σ E R O W} {m' : Machine σ' E R O' W'} {view : σ → σ'}
  {I : σ → Prop} {alike : ∀ e, R e → R e → Prop} {s s' : σ}

lemma Machine.Views.drifts (views : m.Views m' view I alike) (h : I s) (drifts : m.Drifts s s') :
    I s' ∧ m'.Drifts (view s) (view s') := by
  induction drifts with
  | refl => exact ⟨h, .refl⟩
  | tail _ moved ih =>
    obtain ⟨w, moved⟩ := moved
    obtain ⟨between, before⟩ := ih
    obtain ⟨after, seen⟩ := views.drift between moved
    exact ⟨after, before.trans seen⟩

/-- A call that does not tell alike answers apart runs in the view as it runs in the machine. -/
theorem Machine.Interleaved.viewed (views : m.Views m' view I alike) {p : Program E R ε α}
    (blind : p.Blind alike) (h : I s) {trace : List (E × σ)} {r : Except ε α}
    (call : m.Interleaved p s trace r s') :
    I s' ∧ m'.Interleaved p (view s) (trace.map fun x => (x.1, view x.2)) r (view s') := by
  induction call with
  | ret => exact ⟨h, .ret⟩
  | raise => exact ⟨h, .raise⟩
  | @perform e next s t o trace r s' drifts _ ih =>
    obtain ⟨met, seen⟩ := views.drifts h drifts
    obtain ⟨after, o', world, same⟩ := views.answer e o met
    obtain ⟨blindRest, alikeNext⟩ := blind (m.handle t e o).2
    obtain ⟨last, rest⟩ := ih blindRest after
    rw [alikeNext _ same, ← world] at rest
    exact ⟨last, .perform seen rest⟩

end Views

end ResearchController.Lib
