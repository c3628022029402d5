import Mathlib

/-!
# Walks along a relation

`Walk R a steps b` says that a list of recorded steps leads from `a` to `b` along a relation `R`:
the first step starts at `a`, each step starts where the one before ended, every step is in `R`, and
the last one ends at `b`. A log of (old state, new state) pairs is trustworthy when it is a walk.
-/

namespace ResearchController.Lib

/-- Recorded steps that lead from one state to another along a relation. -/
inductive Walk {σ : Type*} (R : σ → σ → Prop) : σ → List (σ × σ) → σ → Prop where
  | nil (a : σ) : Walk R a [] a
  | cons {a b c : σ} {steps : List (σ × σ)} (r : R a b) (wk : Walk R b steps c) :
    Walk R a ((a, b) :: steps) c

namespace Walk

variable {σ : Type*} {R : σ → σ → Prop} {a b c d : σ} {steps : List (σ × σ)}

@[simp] lemma nil_iff : Walk R a [] b ↔ a = b := by
  constructor
  · intro wk
    cases wk
    rfl
  · rintro rfl
    exact .nil a

lemma cons_iff : Walk R a ((b, c) :: steps) d ↔ a = b ∧ R b c ∧ Walk R c steps d := by
  constructor
  · intro wk
    cases wk with
    | cons r wk => exact ⟨rfl, r, wk⟩
  · rintro ⟨rfl, r, wk⟩
    exact .cons r wk

/-- A walk may be extended at its end. -/
lemma snoc (wk : Walk R a steps b) (r : R b c) : Walk R a (steps ++ [(b, c)]) c := by
  induction wk with
  | nil a => exact .cons r (.nil c)
  | cons r' _ ih => exact .cons r' (ih r)

end Walk

end ResearchController.Lib
