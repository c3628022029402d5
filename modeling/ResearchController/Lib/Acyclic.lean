import Mathlib

/-!
# Acyclic relations that grow at their front

A relation is acyclic when no element reaches itself. The edges of a dependency graph are often
added together with the element they start from: such an element has no edges before, so the graph
stays acyclic exactly when the element is not listed as its own target.
-/

namespace ResearchController.Lib

/-- No element reaches itself. -/
def Acyclic {α : Type*} (R : α → α → Prop) : Prop := ∀ a, ¬ Relation.TransGen R a a

/-- A relation with edges added from one element. -/
def Extended {α : Type*} (R : α → α → Prop) (new : α) (targets : α → Prop) (a b : α) : Prop :=
  R a b ∨ a = new ∧ targets b

namespace Acyclic

variable {α : Type*} {R : α → α → Prop} {new : α} {targets : α → Prop}

/-- The same edges. -/
lemma congr {R' : α → α → Prop} (same : ∀ a b, R a b ↔ R' a b) : Acyclic R ↔ Acyclic R' := by
  have e : R = R' := funext fun a => funext fun b => propext (same a b)
  rw [e]

/-- A path of the extended relation that starts elsewhere is one of the old relation, if nothing
    leads to the new element. -/
lemma path_elsewhere (unreached : ∀ a, ¬ R a new) {a b : α}
    (path : Relation.TransGen (Extended R new targets) a b) (ne : a ≠ new) :
    Relation.TransGen R a b ∧ b ≠ new := by
  have edge : ∀ {x y}, Extended R new targets x y → x ≠ new → R x y ∧ y ≠ new := by
    rintro x y (old | ⟨e, _⟩) ne
    · exact ⟨old, fun e => unreached x (e ▸ old)⟩
    · exact (ne e).elim
  induction path with
  | single first =>
    obtain ⟨old, target⟩ := edge first ne
    exact ⟨.single old, target⟩
  | tail _ last ih =>
    obtain ⟨path, ne'⟩ := ih
    obtain ⟨old, target⟩ := edge last ne'
    exact ⟨path.tail old, target⟩

/-- An element without edges may be given edges to others, but not to itself. -/
theorem extended_iff (acyclic : Acyclic R) (unreached : ∀ a, ¬ R a new) :
    Acyclic (Extended R new targets) ↔ ¬ targets new := by
  constructor
  · exact fun ac loop => ac new (.single (Or.inr ⟨rfl, loop⟩))
  · intro other a cycle
    by_cases e : a = new
    · subst e
      -- every edge into the new element would come from an old edge or a target
      obtain ⟨b, _, last⟩ := Relation.TransGen.tail'_iff.mp cycle
      rcases last with old | ⟨_, loop⟩
      · exact unreached b old
      · exact other loop
    · exact acyclic a (path_elsewhere unreached cycle e).1

end Acyclic

end ResearchController.Lib
