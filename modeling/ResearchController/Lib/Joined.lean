import Mathlib.Data.List.Basic

/-!
# Words joined with a separator

A list of words joined with a separator is one text, and a word that contains the separator makes
the list ambiguous. `Regroups s ws vs` says how two lists of words can have the same text: read from
the left, their words are the same, or a word of one list goes on, behind a separator, with what the
other list has as words of its own.

* `joined_eq_iff`: two lists have the same text exactly if they regroup;
* `exists_regrouped_iff`: a list of at least two words shares its text with another list of as many
  words exactly if one of its words contains the separator.
-/

namespace ResearchController.Lib

variable {α : Type*} {s : α} {w v u : List α} {ws vs : List (List α)}

/-- The words of one list are those of the other, with separators moved into words and out of
    them. -/
inductive Regroups (s : α) : List (List α) → List (List α) → Prop where
  | nil : Regroups s [] []
  | cons (w : List α) {ws vs} :
    Regroups s ws vs →
    Regroups s (w :: ws) (w :: vs)
  | left (w u : List α) {ws vs} :
    Regroups s (u :: ws) vs →
    Regroups s ((w ++ s :: u) :: ws) (w :: vs)
  | right (w u : List α) {ws vs} :
    Regroups s ws (u :: vs) →
    Regroups s (w :: ws) ((w ++ s :: u) :: vs)

namespace Regroups

lemma refl (s : α) (ws : List (List α)) : Regroups s ws ws := by
  induction ws with
  | nil => exact .nil
  | cons w ws ih => exact .cons w ih

lemma symm (rg : Regroups s ws vs) : Regroups s vs ws := by
  induction rg with
  | nil => exact .nil
  | cons w _ ih => exact .cons w ih
  | left w u _ ih => exact .right w u ih
  | right w u _ ih => exact .left w u ih

/-- Only the empty list regroups to the empty list. -/
lemma nil_iff : Regroups s ws [] ↔ ws = [] := by
  constructor
  · intro rg
    cases rg
    rfl
  · rintro rfl
    exact .nil

/-- A list of words without the separator has the most words of all lists with its text. -/
lemma length_of_free (rg : Regroups s ws vs) (free : ∀ w ∈ ws, s ∉ w) :
    vs = ws ∨ vs.length < ws.length := by
  induction rg with
  | nil => exact Or.inl rfl
  | cons w _ ih =>
    rcases ih fun u mem => free u (List.mem_cons_of_mem w mem) with same | less
    · exact Or.inl (by rw [same])
    · exact Or.inr (Nat.succ_lt_succ less)
  | left w u _ _ =>
    exact absurd (List.mem_append_right w List.mem_cons_self) (free _ List.mem_cons_self)
  | @right w u ws vs _ ih =>
    right
    rcases ih fun u mem => free u (List.mem_cons_of_mem w mem) with same | less
    · rw [← same]
      exact Nat.lt_succ_self _
    · exact Nat.lt_trans less (Nat.lt_succ_self _)

/-- First words without the separator have to be the same. -/
lemma cons_iff (freeW : s ∉ w) (freeV : s ∉ v) :
    Regroups s (w :: ws) (v :: vs) ↔ w = v ∧ Regroups s ws vs := by
  constructor
  · intro rg
    cases rg with
    | cons _ rg => exact ⟨rfl, rg⟩
    | left _ u _ => exact absurd (List.mem_append_right v List.mem_cons_self) freeW
    | right _ u _ => exact absurd (List.mem_append_right w List.mem_cons_self) freeV
  · rintro ⟨rfl, rg⟩
    exact .cons w rg

/-- Single words regroup only if they are the same. -/
lemma singleton_iff : Regroups s [w] [v] ↔ w = v := by
  constructor
  · intro rg
    cases rg with
    | cons _ _ => rfl
    | left _ u rg => cases nil_iff.mp rg
    | right _ u rg => cases nil_iff.mp rg.symm
  · rintro rfl
    exact refl s [w]

end Regroups

/-! ## The text of the words -/

/-- The text of words that each come behind a separator. -/
def spelled (s : α) (ws : List (List α)) : List α :=
  ws.flatMap (s :: ·)

lemma spelled_cons (w : List α) (ws : List (List α)) :
    spelled s (w :: ws) = s :: (w ++ spelled s ws) := rfl

/-- A word with a separator spells like two words. -/
lemma spelled_merge (w u : List α) (ws : List (List α)) :
    spelled s ((w ++ s :: u) :: ws) = s :: (w ++ spelled s (u :: ws)) := by
  rw [spelled_cons, spelled_cons, List.append_assoc, List.cons_append]

lemma Regroups.spelled_eq (rg : Regroups s ws vs) : spelled s ws = spelled s vs := by
  induction rg with
  | nil => rfl
  | cons w _ ih => rw [spelled_cons, ih, spelled_cons]
  | left w u _ ih => rw [spelled_merge, ih, spelled_cons]
  | right w u _ ih => rw [spelled_cons, ih, spelled_merge]

/-- What a list spells in front of another one ends a word of the list. -/
lemma spelled_eq_append {m : List α} (same : spelled s ws = m ++ spelled s vs) :
    m = [] ∧ spelled s ws = spelled s vs ∨
      ∃ u, m = s :: u ∧ spelled s ws = spelled s (u :: vs) := by
  cases m with
  | nil => exact Or.inl ⟨rfl, same⟩
  | cons x u =>
    cases ws with
    | nil => cases same
    | cons w ws =>
      have first : s = x := (List.cons.inj same).1
      subst first
      exact Or.inr ⟨u, rfl, same⟩

lemma Regroups.of_spelled_eq :
    ∀ {ws vs : List (List α)}, spelled s ws = spelled s vs → Regroups s ws vs
  | [], [], _ => .nil
  | [], _ :: _, same => by cases same
  | _ :: _, [], same => by cases same
  | w :: ws, v :: vs, same => by
    rw [spelled_cons, spelled_cons, List.cons_inj_right] at same
    -- one of the two first words goes on with what the other list spells behind its own
    rcases List.append_eq_append_iff.mp same with ⟨m, rfl, rest⟩ | ⟨m, rfl, rest⟩
    · obtain ⟨rfl, rest⟩ | ⟨u, rfl, rest⟩ := spelled_eq_append rest
      · rw [List.append_nil]
        exact .cons w (of_spelled_eq rest)
      · exact .right w u (of_spelled_eq rest)
    · obtain ⟨rfl, rest⟩ | ⟨u, rfl, rest⟩ := spelled_eq_append rest
      · rw [List.append_nil]
        exact .cons v (of_spelled_eq rest.symm)
      · exact .left v u (of_spelled_eq rest.symm)
termination_by ws vs => ws.length + vs.length

/-- Two lists spell the same exactly if they regroup. -/
theorem spelled_eq_iff : spelled s ws = spelled s vs ↔ Regroups s ws vs :=
  ⟨.of_spelled_eq, Regroups.spelled_eq⟩

/-! ## The joined text -/

/-- In a joined text every word but the first comes behind a separator. -/
lemma joined_cons (w : List α) (ws : List (List α)) :
    [s].intercalate (w :: ws) = w ++ spelled s ws := by
  induction ws generalizing w with
  | nil => rw [List.intercalate_singleton, spelled, List.flatMap_nil, List.append_nil]
  | cons u ws ih =>
    rw [List.intercalate_cons_cons, ih, spelled_cons, List.append_assoc, List.singleton_append]

/-- Two lists of words have the same joined text exactly if they regroup. -/
theorem joined_eq_iff :
    [s].intercalate (w :: ws) = [s].intercalate (v :: vs) ↔ Regroups s (w :: ws) (v :: vs) := by
  rw [← spelled_eq_iff, spelled_cons, spelled_cons, joined_cons, joined_cons, List.cons_inj_right]

/-- A separator in a word may be taken for one between two words. -/
lemma exists_regrouped {ws : List (List α)} (two : 2 ≤ ws.length) {w : List α} (mem : w ∈ ws)
    (inside : s ∈ w) : ∃ vs, vs.length = ws.length ∧ vs ≠ ws ∧ Regroups s ws vs := by
  induction ws with
  | nil => cases mem
  | cons v ws ih =>
    cases ws with
    | nil => exact absurd two (Nat.not_succ_le_self 1)
    | cons u ws =>
      rcases List.mem_cons.mp mem with rfl | mem
      · obtain ⟨a, b, rfl⟩ := List.append_of_mem inside
        refine ⟨a :: (b ++ s :: u) :: ws, rfl, ?_, .left a b (.right b u (.refl s _))⟩
        intro same
        exact absurd (List.cons.inj same).1 (by simp)
      · rcases List.mem_cons.mp mem with rfl | later
        · obtain ⟨a, b, rfl⟩ := List.append_of_mem inside
          refine ⟨(v ++ s :: a) :: b :: ws, rfl, ?_, .right v a (.left a b (.refl s _))⟩
          intro same
          exact absurd (List.cons.inj same).1 (by simp)
        · have more : 2 ≤ (u :: ws).length :=
            Nat.succ_le_succ (List.length_pos_of_mem later)
          obtain ⟨vs, length, other, rg⟩ := ih more mem
          refine ⟨v :: vs, congrArg Nat.succ length, ?_, .cons v rg⟩
          intro same
          exact other (List.cons.inj same).2

/-- A list shares its text with another one of as many words exactly if it has several words, one of
    them with the separator. -/
theorem exists_regrouped_iff :
    (∃ vs, vs.length = ws.length ∧ vs ≠ ws ∧ Regroups s ws vs) ↔
      2 ≤ ws.length ∧ ∃ w ∈ ws, s ∈ w := by
  constructor
  · rintro ⟨vs, length, other, rg⟩
    constructor
    · by_contra few
      match ws, vs, length with
      | [], [], _ => exact other rfl
      | [w], [v], _ => exact other (by rw [Regroups.singleton_iff.mp rg])
      | _ :: _ :: _, _, _ => exact few (by simp)
    · by_contra free
      rcases rg.length_of_free fun w mem inside => free ⟨w, mem, inside⟩ with same | less
      · exact other same
      · exact Nat.ne_of_lt less length
  · rintro ⟨two, w, mem, inside⟩
    exact exists_regrouped two mem inside

end ResearchController.Lib
