import Mathlib

/-!
# Work that stops at the first failure

A list of turns is gone through until one of them fails. `done` are the turns before it;
`done_covers_iff` says when all turns of a kind are among them.
-/

namespace ResearchController.Lib

variable {τ : Type*}

/-- The turns before the first one that fails. -/
def done (fails : τ → Bool) (turns : List τ) : List τ :=
  turns.takeWhile fun t => !fails t

variable {fails : τ → Bool}

lemma done_cons_of_fails {t : τ} (failed : fails t = true) (turns : List τ) :
    done fails (t :: turns) = [] := by
  rw [done, List.takeWhile_cons_of_neg (by rw [failed]; decide)]

lemma done_cons {t : τ} (succeeded : fails t = false) (turns : List τ) :
    done fails (t :: turns) = t :: done fails turns := by
  rw [done, List.takeWhile_cons_of_pos (by rw [succeeded]; rfl)]
  rfl

/-- Where nothing fails everything is done. -/
lemma done_eq_self {turns : List τ} (succeed : ∀ t ∈ turns, fails t = false) :
    done fails turns = turns := by
  rw [done, List.takeWhile_eq_self_iff]
  intro t mem
  rw [succeed t mem]
  rfl

lemma mem_of_done {t : τ} {turns : List τ} (mem : t ∈ done fails turns) :
    t ∈ turns ∧ fails t = false := by
  refine ⟨(List.takeWhile_prefix _).subset mem, ?_⟩
  have succeeded := List.mem_takeWhile_imp mem
  rwa [Bool.not_eq_true'] at succeeded

/-- After turns that all succeed the work goes on. -/
lemma done_append {turns : List τ} (succeed : ∀ t ∈ turns, fails t = false) (rest : List τ) :
    done fails (turns ++ rest) = turns ++ done fails rest := by
  induction turns with
  | nil => rfl
  | cons t turns ih =>
    rw [List.cons_append, done_cons (succeed t List.mem_cons_self),
      ih fun t' mem => succeed t' (List.mem_cons_of_mem t mem), List.cons_append]

/-- After a failure nothing more is done. -/
lemma done_append_of_fails {turns : List τ} (failed : ∃ t ∈ turns, fails t = true)
    (rest : List τ) : done fails (turns ++ rest) = done fails turns := by
  induction turns with
  | nil =>
    obtain ⟨t, mem, _⟩ := failed
    cases mem
  | cons t turns ih =>
    cases h : fails t with
    | true => rw [List.cons_append, done_cons_of_fails h, done_cons_of_fails h]
    | false =>
      rw [List.cons_append, done_cons h, done_cons h, ih]
      obtain ⟨t', mem, failed'⟩ := failed
      rcases List.mem_cons.mp mem with rfl | later
      · rw [h] at failed'
        cases failed'
      · exact ⟨t', later, failed'⟩

/-- All turns of a kind are done exactly when none of them comes after a failure. -/
theorem done_covers_iff {turns : List τ} (distinct : turns.Nodup) (kind : τ → Prop)
    (succeeds : ∀ t ∈ turns, kind t → fails t = false) :
    (∀ t ∈ turns, kind t → t ∈ done fails turns) ↔
      turns.Pairwise fun t t' => fails t = true → ¬ kind t' := by
  induction turns with
  | nil => simp
  | cons t turns ih =>
    obtain ⟨new, distinct⟩ := List.nodup_cons.mp distinct
    have succeeds' := fun t' mem => succeeds t' (List.mem_cons_of_mem t mem)
    rw [List.pairwise_cons, ← ih distinct succeeds']
    cases h : fails t with
    | true =>
      rw [done_cons_of_fails h]
      constructor
      · intro covered
        refine ⟨fun t' mem _ k => ?_, fun t' mem k => ?_⟩
        · cases covered t' (List.mem_cons_of_mem t mem) k
        · cases covered t' (List.mem_cons_of_mem t mem) k
      · rintro ⟨none, _⟩ t' mem k
        rcases List.mem_cons.mp mem with rfl | later
        · rw [succeeds t' mem k] at h
          cases h
        · exact (none t' later rfl k).elim
    | false =>
      rw [done_cons h]
      constructor
      · intro covered
        refine ⟨fun t' _ no => (Bool.false_ne_true no).elim, fun t' mem k => ?_⟩
        rcases List.mem_cons.mp (covered t' (List.mem_cons_of_mem t mem) k) with rfl | later
        · exact (new mem).elim
        · exact later
      · rintro ⟨_, covered⟩ t' mem k
        rcases List.mem_cons.mp mem with rfl | later
        · exact List.mem_cons_self
        · exact List.mem_cons_of_mem t (covered t' later k)

end ResearchController.Lib
