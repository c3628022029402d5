import ResearchController.Lib.Program

/-!
# Runs with at most one fault

A `fine` answer is what the surroundings owe a program. `Machine.Struck` is the run of one call,
without steps of the surroundings, in which at most one effect is answered otherwise; it notes the
effect that was struck and the world the effect met. `Machine.Withstands` is the weakest
precondition of a program under one fault: its rules follow the program to its end once for the
answers that are fine, and once for a fault at each effect.
-/

namespace ResearchController.Lib

variable {σ E : Type} {R : E → Type} {O W ε α β : Type}

/-- A call with at most one answer that is not fine, and where it was given. -/
inductive Machine.Struck (m : Machine σ E R O W) (fine : σ → E → O → Prop) :
    Program E R ε α → σ → Option (E × σ) → Except ε α → σ → Prop where
  | ret {a s} :
    Struck m fine (.ret a) s none (.ok a) s
  | raise {e s} :
    Struck m fine (.raise e) s none (.error e) s
  | perform {e next s o struck r s'} :
    fine s e o →
    Struck m fine (next (m.handle s e o).2) (m.handle s e o).1 struck r s' →
    Struck m fine (.perform e next) s struck r s'
  | strike {e next s o r s'} :
    ¬ fine s e o →
    Struck m fine (next (m.handle s e o).2) (m.handle s e o).1 none r s' →
    Struck m fine (.perform e next) s (some (e, s)) r s'

/-- The run of a call with the given answers. -/
def Machine.strike (m : Machine σ E R O W) (fine : σ → E → O → Prop)
    [∀ s e o, Decidable (fine s e o)] :
    Program E R ε α → σ → List O → Option (Option (E × σ) × Except ε α × σ)
  | .ret a, s, _ => some (none, .ok a, s)
  | .raise e, s, _ => some (none, .error e, s)
  | .perform _ _, _, [] => none
  | .perform e next, s, o :: answers =>
    match m.strike fine (next (m.handle s e o).2) (m.handle s e o).1 answers with
    | none => none
    | some (x, r, s') =>
      if fine s e o then some (x, r, s')
      else match x with
        | none => some (some (e, s), r, s')
        | some _ => none

/-- Every run of a program with at most one fault ends as `Q` says. -/
def Machine.Withstands (m : Machine σ E R O W) (fine : σ → E → O → Prop)
    (Q : Option (E × σ) → Except ε α → σ → Prop) (p : Program E R ε α) (s : σ) : Prop :=
  ∀ struck r s', m.Struck fine p s struck r s' → Q struck r s'

namespace Machine.Struck

variable {m : Machine σ E R O W} {fine : σ → E → O → Prop} {s s' : σ} {struck : Option (E × σ)}

/-- A composition is its first part followed by its rest, and at most one of them is struck. -/
lemma bind_inv {p : Program E R ε α} {f : α → Program E R ε β} {r : Except ε β}
    (h : m.Struck fine (p >>= f) s struck r s') :
    (∃ a t, m.Struck fine p s none (.ok a) t ∧ m.Struck fine (f a) t struck r s') ∨
      (∃ x a t, struck = some x ∧ m.Struck fine p s (some x) (.ok a) t ∧
        m.Struck fine (f a) t none r s') ∨
      ∃ e, r = .error e ∧ m.Struck fine p s struck (.error e) s' := by
  induction p generalizing s struck with
  | ret a => exact Or.inl ⟨a, s, .ret, h⟩
  | raise e =>
    cases h
    exact Or.inr (Or.inr ⟨e, rfl, .raise⟩)
  | perform e next ih =>
    cases h with
    | perform ok h =>
      obtain ⟨a, t, h1, h2⟩ | ⟨x, a, t, rfl, h1, h2⟩ | ⟨err, rfl, h1⟩ := ih _ h
      · exact Or.inl ⟨a, t, .perform ok h1, h2⟩
      · exact Or.inr (Or.inl ⟨x, a, t, rfl, .perform ok h1, h2⟩)
      · exact Or.inr (Or.inr ⟨err, rfl, .perform ok h1⟩)
    | strike bad h =>
      obtain ⟨a, t, h1, h2⟩ | ⟨x, a, t, no, _⟩ | ⟨err, rfl, h1⟩ := ih _ h
      · exact Or.inr (Or.inl ⟨_, a, t, rfl, .strike bad h1, h2⟩)
      · cases no
      · exact Or.inr (Or.inr ⟨err, rfl, .strike bad h1⟩)

lemma of_strike [∀ s e o, Decidable (fine s e o)] {p : Program E R ε α} {answers : List O}
    {r : Except ε α} (h : m.strike fine p s answers = some (struck, r, s')) :
    m.Struck fine p s struck r s' := by
  induction p generalizing s struck answers with
  | ret a =>
    cases h
    exact .ret
  | raise e =>
    cases h
    exact .raise
  | perform e next ih =>
    cases answers with
    | nil => cases h
    | cons o answers =>
      unfold Machine.strike at h
      split at h
      · cases h
      · rename_i x r1 s1 rest
        split at h
        · rename_i ok
          cases h
          exact .perform ok (ih _ rest)
        · rename_i bad
          split at h
          · cases h
            exact .strike bad (ih _ rest)
          · cases h

end Machine.Struck

namespace Machine.Withstands

variable {m : Machine σ E R O W} {fine : σ → E → O → Prop} {s : σ}

lemma ret {Q : Option (E × σ) → Except ε α → σ → Prop} {a : α} (h : Q none (.ok a) s) :
    m.Withstands fine Q (pure a) s := by
  intro struck r s' run
  cases run
  exact h

lemma raise {Q : Option (E × σ) → Except ε α → σ → Prop} {e : ε} (h : Q none (.error e) s) :
    m.Withstands fine Q (.raise e) s := by
  intro struck r s' run
  cases run
  exact h

/-- A weaker conclusion. -/
lemma mono {Q Q' : Option (E × σ) → Except ε α → σ → Prop} {p : Program E R ε α}
    (weaker : ∀ struck r s, Q struck r s → Q' struck r s) (h : m.Withstands fine Q p s) :
    m.Withstands fine Q' p s :=
  fun struck r s' run => weaker struck r s' (h struck r s' run)

/-- An effect is answered as it should, or it is struck and nothing else is. -/
lemma call {Q : Option (E × σ) → Except ε α → σ → Prop} {e : E} {f : R e → Program E R ε α}
    (answered : ∀ o, fine s e o → m.Withstands fine Q (f (m.handle s e o).2) (m.handle s e o).1)
    (struck : ∀ o, ¬ fine s e o → m.Withstands fine (fun x r s' => x = none → Q (some (e, s)) r s')
      (f (m.handle s e o).2) (m.handle s e o).1) :
    m.Withstands fine Q (Program.call e >>= f) s := by
  intro x r s' run
  cases run with
  | perform ok run => exact answered _ ok _ _ _ run
  | strike bad run => exact struck _ bad _ _ _ run rfl

/-- Composition: the rest starts where the first part returns, and exceptions pass through. -/
lemma bind {Q : Option (E × σ) → Except ε α → σ → Prop}
    {Q' : Option (E × σ) → Except ε β → σ → Prop} {p : Program E R ε α}
    {f : α → Program E R ε β} (h : m.Withstands fine Q p s)
    (returns : ∀ a t, Q none (.ok a) t → m.Withstands fine Q' (f a) t)
    (survives : ∀ x a t, Q (some x) (.ok a) t →
      m.Withstands fine (fun y r s' => y = none → Q' (some x) r s') (f a) t)
    (raises : ∀ x e t, Q x (.error e) t → Q' x (.error e) t) :
    m.Withstands fine Q' (p >>= f) s := by
  intro x r s' run
  obtain ⟨a, t, first, rest⟩ | ⟨y, a, t, rfl, first, rest⟩ | ⟨e, rfl, first⟩ := run.bind_inv
  · exact returns a t (h _ _ _ first) _ _ _ rest
  · exact survives y a t (h _ _ _ first) _ _ _ rest rfl
  · exact raises _ e s' (h _ _ _ first)

end Machine.Withstands

end ResearchController.Lib
