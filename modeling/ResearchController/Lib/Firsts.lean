import Mathlib

/-!
# The first element of each key

A loop that remembers the keys it has seen and skips the elements of these keys keeps the first
element of each key (`firsts`). What it keeps is a matter of the position in the list only
(`mem_firsts`), so going over a list again that begins with elements it has kept before adds
nothing for them.
-/

namespace ResearchController.Lib

variable {α κ : Type*} [DecidableEq κ] {key : α → κ}

/-- The first element of each key, apart from the keys that have been seen before. -/
def firsts (key : α → κ) : List κ → List α → List α
  | _, [] => []
  | seen, x :: xs =>
    if key x ∈ seen then firsts key seen xs
    else x :: firsts key (seen ++ [key x]) xs

/-- An element is kept if nothing of its key was seen and nothing of its key comes before it. -/
theorem mem_firsts {seen : List κ} {xs : List α} {x : α} :
    x ∈ firsts key seen xs ↔ key x ∉ seen ∧
      ∃ before after, xs = before ++ x :: after ∧ ∀ y ∈ before, key y ≠ key x := by
  induction xs generalizing seen with
  | nil => simp [firsts]
  | cons y xs ih =>
    have later : ∀ {before after}, y :: xs = before ++ x :: after →
        (before = [] ∧ y = x ∧ xs = after) ∨
          ∃ rest, before = y :: rest ∧ xs = rest ++ x :: after := by
      intro before after e
      cases before with
      | nil =>
        obtain ⟨rfl, rfl⟩ := List.cons.inj e
        exact Or.inl ⟨rfl, rfl, rfl⟩
      | cons z rest =>
        obtain ⟨rfl, tail⟩ := List.cons.inj e
        exact Or.inr ⟨rest, rfl, tail⟩
    by_cases known : key y ∈ seen
    · rw [firsts, if_pos known, ih]
      refine and_congr_right fun fresh => ?_
      constructor
      · rintro ⟨before, after, rfl, others⟩
        refine ⟨y :: before, after, rfl, ?_⟩
        intro z mem
        rcases List.mem_cons.mp mem with rfl | mem
        · exact fun same => fresh (same ▸ known)
        · exact others z mem
      · rintro ⟨before, after, e, others⟩
        obtain ⟨_, rfl, _⟩ | ⟨rest, rfl, tail⟩ := later e
        · exact (fresh known).elim
        · exact ⟨rest, after, tail, fun z mem => others z (List.mem_cons_of_mem _ mem)⟩
    · rw [firsts, if_neg known, List.mem_cons, ih]
      constructor
      · rintro (rfl | ⟨fresh, before, after, rfl, others⟩)
        · refine ⟨known, [], xs, rfl, ?_⟩
          intro z mem
          cases mem
        · rw [List.mem_append, not_or, List.mem_singleton] at fresh
          refine ⟨fresh.1, y :: before, after, rfl, ?_⟩
          intro z mem
          rcases List.mem_cons.mp mem with rfl | mem
          · exact fun same => fresh.2 same.symm
          · exact others z mem
      · rintro ⟨fresh, before, after, e, others⟩
        obtain ⟨_, rfl, _⟩ | ⟨rest, rfl, tail⟩ := later e
        · exact Or.inl rfl
        · refine Or.inr ⟨?_, rest, after, tail, fun z mem => others z (List.mem_cons_of_mem _ mem)⟩
          rw [List.mem_append, not_or, List.mem_singleton]
          exact ⟨fresh, fun same => others y List.mem_cons_self same.symm⟩

/-- What is kept is from the list. -/
lemma mem_of_mem_firsts {seen : List κ} {xs : List α} {x : α} (h : x ∈ firsts key seen xs) :
    x ∈ xs := by
  obtain ⟨_, before, after, rfl, _⟩ := mem_firsts.mp h
  exact List.mem_append_right _ List.mem_cons_self

/-- Every key of the list that has not been seen is kept. -/
lemma exists_mem_firsts {seen : List κ} {xs : List α} {x : α} (mem : x ∈ xs)
    (fresh : key x ∉ seen) : ∃ y ∈ firsts key seen xs, key y = key x := by
  induction xs generalizing seen with
  | nil => cases mem
  | cons z xs ih =>
    rw [firsts]
    split
    · rename_i known
      rcases List.mem_cons.mp mem with rfl | mem
      · exact (fresh known).elim
      · exact ih mem fresh
    · by_cases same : key z = key x
      · exact ⟨z, List.mem_cons_self, same⟩
      · rcases List.mem_cons.mp mem with rfl | mem
        · exact (same rfl).elim
        · have fresh' : key x ∉ seen ++ [key z] := by
            rw [List.mem_append, not_or, List.mem_singleton]
            exact ⟨fresh, fun e => same e.symm⟩
          obtain ⟨y, kept, e⟩ := ih mem fresh'
          exact ⟨y, List.mem_cons_of_mem _ kept, e⟩

/-- The loop over a list in two parts. -/
lemma firsts_append (seen : List κ) (xs ys : List α) :
    firsts key seen (xs ++ ys) =
      firsts key seen xs ++ firsts key (seen ++ (firsts key seen xs).map key) ys := by
  induction xs generalizing seen with
  | nil => simp [firsts]
  | cons x xs ih =>
    rw [List.cons_append, firsts, firsts]
    split
    · exact ih seen
    · rw [ih, List.map_cons, List.cons_append, List.append_assoc, List.singleton_append]

/-! ## Lists that are related element by element -/

omit [DecidableEq κ] in
/-- Every element of the second list is related to one of the first. -/
lemma exists_left_of_forall₂ {R : α → κ → Prop} {xs : List α} {ys : List κ}
    (h : List.Forall₂ R xs ys) {y : κ} (mem : y ∈ ys) : ∃ x ∈ xs, R x y := by
  induction h with
  | nil => cases mem
  | @cons x z xs ys related _ ih =>
    rcases List.mem_cons.mp mem with rfl | mem
    · exact ⟨x, List.mem_cons_self, related⟩
    · obtain ⟨x', memX, related'⟩ := ih mem
      exact ⟨x', List.mem_cons_of_mem _ memX, related'⟩

omit [DecidableEq κ] in
/-- Every element of the first list is related to one of the second. -/
lemma exists_right_of_forall₂ {R : α → κ → Prop} {xs : List α} {ys : List κ}
    (h : List.Forall₂ R xs ys) {x : α} (mem : x ∈ xs) : ∃ y ∈ ys, R x y := by
  obtain ⟨y, memY, related⟩ := exists_left_of_forall₂ h.flip mem
  exact ⟨y, memY, related⟩

end ResearchController.Lib
