import Mathlib

/-!
# Guarded transition systems

A system is one guarded, executable step function: `step s e` is the state after event `e`, or
`none` when the event is not enabled in `s`. The same function replays a concrete list of events
(`System.run`) and carries the induction principles the proofs use:

* `System.run_invariant`: a predicate kept by every enabled event is kept by every run;
* `System.run_invariant_of_meets`: the same for runs whose events all meet a side condition on the
  state before the event, with a weaker predicate that may hold while the strong one is broken;
* `System.throughout_iff_meets`: if each step shows exactly whether its event met the condition, a
  predicate holds in every state of a replay exactly when all of its events meet it;
* `System.run_refines`: a projection under which every event becomes a finite sequence of moves of
  an abstract relation maps runs to sequences of moves.
-/

namespace ResearchController.Lib

/-- A guarded step function on states `S` driven by events `E`. -/
structure System (S E : Type*) where
  step : S → E → Option S

namespace System

variable {S E : Type*} (sys : System S E)

/-- Replay a list of events; `none` if one of them is not enabled. -/
def run : S → List E → Option S
  | s, [] => some s
  | s, e :: es => (sys.step s e).bind fun s' => run s' es

/-- Every event of a replay meets a condition on the state it is taken in. -/
def Meets (C : S → E → Prop) : S → List E → Prop
  | _, [] => True
  | s, e :: es => C s e ∧ ∀ s', sys.step s e = some s' → Meets C s' es

/-- A predicate holds in every state of a replay, the first one included. -/
def Throughout (P : S → Prop) : S → List E → Prop
  | s, [] => P s
  | s, e :: es => P s ∧ ∀ s', sys.step s e = some s' → Throughout P s' es

/-- A predicate holds in some state of a replay. -/
def Sometime (P : S → Prop) (s : S) (es : List E) : Prop :=
  ∃ before after s', es = before ++ after ∧ sys.run s before = some s' ∧ P s'

variable {sys}

/-- A run that starts with an event. -/
lemma run_cons {s s' : S} {e : E} {es : List E} :
    sys.run s (e :: es) = some s' ↔ ∃ t, sys.step s e = some t ∧ sys.run t es = some s' := by
  simp [run, Option.bind_eq_some_iff]

/-- A run in two parts. -/
lemma run_append {s s' : S} {es es' : List E} :
    sys.run s (es ++ es') = some s' ↔ ∃ t, sys.run s es = some t ∧ sys.run t es' = some s' := by
  induction es generalizing s with
  | nil => simp [run]
  | cons e es ih =>
    constructor
    · intro rn
      obtain ⟨d, st, rn⟩ := run_cons.mp rn
      obtain ⟨t, first, second⟩ := ih.mp rn
      exact ⟨t, run_cons.mpr ⟨d, st, first⟩, second⟩
    · rintro ⟨t, rn, second⟩
      obtain ⟨d, st, first⟩ := run_cons.mp rn
      exact run_cons.mpr ⟨d, st, ih.mpr ⟨t, first, second⟩⟩

/-- A predicate kept by every enabled event is kept by every run. -/
theorem run_invariant {P : S → Prop} (step : ∀ s e s', P s → sys.step s e = some s' → P s')
    {s s' : S} {es : List E} (rn : sys.run s es = some s') (hs : P s) : P s' := by
  induction es generalizing s with
  | nil => cases rn; exact hs
  | cons e es ih =>
    obtain ⟨t, st, rn⟩ := run_cons.mp rn
    exact ih rn (step _ _ _ hs st)

instance Meets.decidable {C : S → E → Prop} [∀ s e, Decidable (C s e)] :
    ∀ (s : S) (es : List E), Decidable (sys.Meets C s es)
  | _, [] => isTrue trivial
  | s, e :: es =>
    match st : sys.step s e with
    | none => decidable_of_iff (C s e)
        ⟨fun c => ⟨c, fun t st' => by rw [st] at st'; cases st'⟩, fun ms => ms.1⟩
    | some t =>
      have := Meets.decidable (C := C) t es
      decidable_of_iff (C s e ∧ sys.Meets C t es)
        ⟨fun ms => ⟨ms.1, fun t' st' => by rw [st] at st'; cases st'; exact ms.2⟩,
          fun ms => ⟨ms.1, ms.2 t st⟩⟩

/-- A weaker condition. -/
lemma Meets.mono {C C' : S → E → Prop} (weaker : ∀ s e, C s e → C' s e) {s : S} {es : List E}
    (ms : sys.Meets C s es) : sys.Meets C' s es := by
  induction es generalizing s with
  | nil => trivial
  | cons e es ih => exact ⟨weaker s e ms.1, fun t st => ih (ms.2 t st)⟩

/-- A condition that every event meets. -/
lemma Meets.all {C : S → E → Prop} (always : ∀ s e, C s e) (s : S) (es : List E) :
    sys.Meets C s es := by
  induction es generalizing s with
  | nil => trivial
  | cons e es ih => exact ⟨always s e, fun t _ => ih t⟩

/-- The two parts of a run whose events meet a condition. -/
lemma Meets.append {C : S → E → Prop} {s t : S} {es es' : List E}
    (ms : sys.Meets C s (es ++ es')) (rn : sys.run s es = some t) :
    sys.Meets C s es ∧ sys.Meets C t es' := by
  induction es generalizing s with
  | nil =>
    cases rn
    exact ⟨trivial, ms⟩
  | cons e es ih =>
    obtain ⟨d, st, rn⟩ := run_cons.mp rn
    obtain ⟨c, ms⟩ := ms
    refine ⟨⟨c, fun s' st' => ?_⟩, (ih (ms d st) rn).2⟩
    rw [st] at st'
    cases st'
    exact (ih (ms d st) rn).1

/-- A predicate kept by every event that meets the condition holds at the end of every run whose
    events all meet it. -/
theorem run_invariant_of_meets {C : S → E → Prop} {P : S → Prop}
    (step : ∀ s e s', P s → C s e → sys.step s e = some s' → P s')
    {s s' : S} {es : List E} (rn : sys.run s es = some s') (ms : sys.Meets C s es) (hs : P s) :
    P s' := by
  induction es generalizing s with
  | nil => cases rn; exact hs
  | cons e es ih =>
    obtain ⟨t, st, rn⟩ := run_cons.mp rn
    obtain ⟨c, ms⟩ := ms
    exact ih rn (ms t st) (step _ _ _ hs c st)

/-- What holds throughout a replay holds after each of its prefixes, and the other way round. -/
lemma throughout_iff {P : S → Prop} {s : S} {es : List E} :
    sys.Throughout P s es ↔
      ∀ before after s', es = before ++ after → sys.run s before = some s' → P s' := by
  induction es generalizing s with
  | nil =>
    constructor
    · intro hs before after s' e rn
      obtain ⟨rfl, _⟩ := List.nil_eq_append_iff.mp e
      cases rn
      exact hs
    · exact fun each => each [] [] s rfl rfl
  | cons e es ih =>
    constructor
    · rintro ⟨hs, later⟩ before after s' split rn
      cases before with
      | nil =>
        cases rn
        exact hs
      | cons e' before =>
        cases split
        obtain ⟨t, st, rn⟩ := run_cons.mp rn
        exact ih.mp (later t st) before after s' rfl rn
    · intro each
      refine ⟨each [] (e :: es) s rfl rfl, fun t st => ih.mpr ?_⟩
      intro before after s' split rn
      exact each (e :: before) after s' (by rw [split]; rfl) (run_cons.mpr ⟨t, st, rn⟩)

/-- If every step shows whether its event met the condition, a predicate holds throughout a replay
    exactly when all events meet the condition. -/
theorem throughout_iff_meets {I P : S → Prop} {C : S → E → Prop}
    (keeps : ∀ s e s', I s → sys.step s e = some s' → I s')
    (shows : ∀ s e s', I s → P s → sys.step s e = some s' → (P s' ↔ C s e))
    (disabled : ∀ s e, sys.step s e = none → C s e)
    {s : S} {es : List E} (hi : I s) (hp : P s) : sys.Throughout P s es ↔ sys.Meets C s es := by
  induction es generalizing s with
  | nil => exact ⟨fun _ => trivial, fun _ => hp⟩
  | cons e es ih =>
    cases st : sys.step s e with
    | none =>
      have stuck : ∀ {Q : S → Prop} s', sys.step s e = some s' → Q s' := by
        intro Q s' st'
        rw [st] at st'
        cases st'
      exact ⟨fun _ => ⟨disabled s e st, stuck⟩, fun _ => ⟨hp, stuck⟩⟩
    | some t =>
      have only : ∀ {Q : S → Prop}, (∀ s', sys.step s e = some s' → Q s') ↔ Q t := by
        intro Q
        rw [st]
        exact ⟨fun h => h t rfl, fun h s' st' => Option.some.inj st' ▸ h⟩
      have exact_step := shows s e t hi hp st
      constructor
      · rintro ⟨_, later⟩
        have later := only.mp later
        have pt : P t := by
          cases es with
          | nil => exact later
          | cons e' es => exact later.1
        exact ⟨exact_step.mp pt, only.mpr ((ih (keeps s e t hi st) pt).mp later)⟩
      · rintro ⟨c, later⟩
        have pt := exact_step.mpr c
        exact ⟨hp, only.mpr ((ih (keeps s e t hi st) pt).mpr (only.mp later))⟩

/-- A projection under which every enabled event is a sequence of moves maps runs to sequences of
    moves, as long as the events keep an invariant. -/
theorem run_refines {A : Type*} {M : A → A → Prop} (f : S → A) {P : S → Prop}
    (step : ∀ s e s', P s → sys.step s e = some s' → P s' ∧ Relation.ReflTransGen M (f s) (f s'))
    {s s' : S} {es : List E} (rn : sys.run s es = some s') (hs : P s) :
    Relation.ReflTransGen M (f s) (f s') := by
  induction es generalizing s with
  | nil => cases rn; exact .refl
  | cons e es ih =>
    obtain ⟨t, st, rn⟩ := run_cons.mp rn
    obtain ⟨ht, mv⟩ := step _ _ _ hs st
    exact mv.trans (ih rn ht)

end System

/-- A predicate kept by every move is kept by every sequence of moves. -/
theorem moves_invariant {A : Type*} {M : A → A → Prop} {P : A → Prop}
    (move : ∀ a b, P a → M a b → P b) {a b : A} (mv : Relation.ReflTransGen M a b) (ha : P a) :
    P b := by
  induction mv with
  | refl => exact ha
  | tail _ m ih => exact move _ _ ih m

end ResearchController.Lib
