import ResearchController.Lib.Program

/-!
# Ghost state

A ghost is a value next to the world. It notes every effect and every step of the surroundings, and
nothing reads it. Every run of a machine is a run of the machine with a ghost
(`Machine.run_ghost`), so an invariant may speak of what happened earlier in the run, and of whether
the surroundings have kept their promises so far.
-/

namespace ResearchController.Lib

/-- What a ghost of type `γ` notes. -/
structure Ghost (σ E O W γ : Type) where
  note : γ → σ → E → O → γ
  noteDrift : γ → σ → W → γ

variable {σ E : Type} {R : E → Type} {O W ε α A γ : Type}

/-- The machine with a ghost next to its world. -/
def Machine.withGhost (m : Machine σ E R O W) (h : Ghost σ E O W γ) : Machine (σ × γ) E R O W where
  handle s e o := (((m.handle s.1 e o).1, h.note s.2 s.1 e o), (m.handle s.1 e o).2)
  drift s w := (m.drift s.1 w).map fun world => (world, h.noteDrift s.2 s.1 w)

/-- A configuration with a ghost next to its world. -/
def Config.withGhost (c : Config σ E R ε α) (g : γ) : Config (σ × γ) E R ε α :=
  { world := (c.world, g), running := c.running, results := c.results }

/-- The ghost after an event. -/
def Ghost.after (h : Ghost σ E O W γ) (g : γ) (c : Config σ E R ε α) : RunEvent A O W → γ
  | .perform o =>
    match c.running with
    | some (.perform e _) => h.note g c.world e o
    | _ => g
  | .drift w => h.noteDrift g c.world w
  | _ => g

/-- What every note keeps. -/
lemma Ghost.after_keeps {h : Ghost σ E O W γ} {G : γ → Prop}
    (note : ∀ g s e o, G g → G (h.note g s e o)) (drift : ∀ g s w, G g → G (h.noteDrift g s w))
    (g : γ) (c : Config σ E R ε α) (ev : RunEvent A O W) (hg : G g) : G (h.after g c ev) := by
  unfold after
  split
  · split
    · exact note _ _ _ _ hg
    · exact hg
  · exact drift _ _ _ hg
  · exact hg

lemma Config.goOn_withGhost (c : Config σ E R ε α) (g g' : γ) (world : σ) (p : Program E R ε α) :
    (c.withGhost g).goOn (world, g') p = (c.goOn world p).withGhost g' := by
  cases p <;> rfl

/-- An event of the machine is an event of the machine with the ghost. -/
lemma Machine.step_ghost {m : Machine σ E R O W} {main : A → Program E R ε α}
    (h : Ghost σ E O W γ) (g : γ) {c c' : Config σ E R ε α} {ev : RunEvent A O W}
    (st : (m.system main).step c ev = some c') :
    ((m.withGhost h).system main).step (c.withGhost g) ev =
      some (c'.withGhost (h.after g c ev)) := by
  obtain ⟨world, running, results⟩ := c
  cases ev with
  | start a =>
    cases running with
    | some p => cases st
    | none =>
      cases st
      exact congrArg some (Config.goOn_withGhost _ g g world (main a))
  | perform o =>
    cases running with
    | none => cases st
    | some p =>
      cases p with
      | ret a => cases st
      | raise e => cases st
      | perform e next =>
        cases st
        exact congrArg some (Config.goOn_withGhost _ g _ _ _)
  | crash =>
    cases st
    rfl
  | drift w =>
    obtain ⟨world', moved, rfl⟩ := Option.map_eq_some_iff.mp st
    simp only [system, withGhost, Config.withGhost, Ghost.after, moved, Option.map_some]

/-- A run of the machine is a run of the machine with the ghost. What the ghost shows of the events
    is kept as long as they meet the condition. -/
theorem Machine.run_ghost {m : Machine σ E R O W} {main : A → Program E R ε α}
    {h : Ghost σ E O W γ} {C : Config σ E R ε α → RunEvent A O W → Prop} {G : γ → Prop}
    (keeps : ∀ g c ev, G g → C c ev → G (h.after g c ev))
    {c c' : Config σ E R ε α} {events : List (RunEvent A O W)}
    (rn : (m.system main).run c events = some c') (ms : (m.system main).Meets C c events)
    {g : γ} (hg : G g) :
    ∃ g', ((m.withGhost h).system main).run (c.withGhost g) events = some (c'.withGhost g') ∧
      G g' := by
  induction events generalizing c g with
  | nil =>
    cases rn
    exact ⟨g, rfl, hg⟩
  | cons ev events ih =>
    obtain ⟨d, st, rn⟩ := System.run_cons.mp rn
    obtain ⟨cond, ms⟩ := ms
    obtain ⟨g', rn', hg'⟩ := ih rn (ms d st) (keeps g c ev hg cond)
    exact ⟨g', System.run_cons.mpr ⟨_, step_ghost h g st, rn'⟩, hg'⟩

end ResearchController.Lib
