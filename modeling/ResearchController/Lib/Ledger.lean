import ResearchController.Lib.Dict

/-!
# Tables with a log of every row

A `Book` is a table together with what has been logged about each of its keys. Its rows go on by
labelled steps: `Step r l r'` is a row that becomes another while the entries `l` are written, and
`Course` is a sequence of such steps with all of their entries. A book grows (`Book.Grows`) when no
row is lost, every row follows a course and every new row begins with what `First` allows.

What ties a row to its log (`Book.Keeps`) is shown for a first row and for one step, and holds of
every book that an empty one has grown into (`Book.Grows.keeps`).
-/

namespace ResearchController.Lib

variable {κ ρ ε : Type*}

/-- A row that goes on step by step, and the entries of all steps. -/
inductive Course (Step : ρ → List ε → ρ → Prop) : ρ → List ε → ρ → Prop where
  | refl (r : ρ) : Course Step r [] r
  | snoc {r r' r'' : ρ} {l l' : List ε} (cs : Course Step r l r') (st : Step r' l' r'') :
    Course Step r (l ++ l') r''

namespace Course

variable {Step : ρ → List ε → ρ → Prop} {r r' r'' : ρ} {l l' : List ε}

lemma single (st : Step r l r') : Course Step r l r' := by
  have cs := Course.snoc (.refl r) st
  rwa [List.nil_append] at cs

lemma trans (cs : Course Step r l r') (cs' : Course Step r' l' r'') :
    Course Step r (l ++ l') r'' := by
  induction cs' with
  | refl => rwa [List.append_nil]
  | snoc _ st ih =>
    rw [← List.append_assoc]
    exact .snoc ih st

/-- What a step keeps of a row and its log, a course keeps. -/
lemma keeps {I : ρ → List ε → Prop} (step : ∀ {r l r' l'}, I r l → Step r l' r' → I r' (l ++ l'))
    {l₀ : List ε} (cs : Course Step r l r') (holds : I r l₀) : I r' (l₀ ++ l) := by
  induction cs with
  | refl => rwa [List.append_nil]
  | snoc _ st ih =>
    rw [← List.append_assoc]
    exact step ih st

/-- What a step keeps of a row, a course keeps. -/
lemma keepsRow {I : ρ → Prop} (step : ∀ {r l r'}, I r → Step r l r' → I r')
    (cs : Course Step r l r') (holds : I r) : I r' := by
  induction cs with
  | refl => exact holds
  | snoc _ st ih => exact step ih st

end Course

/-- A table and what has been logged about its keys. -/
@[ext]
structure Book (κ ρ ε : Type*) where
  rows : Dict κ ρ
  log : κ → List ε

namespace Book

variable [DecidableEq κ] {b b' b'' : Book κ ρ ε} {k : κ} {r r' : ρ} {l l' : List ε}
  {First : ρ → List ε → Prop} {Step : ρ → List ε → ρ → Prop}

/-- Store a row and write entries about it. -/
def write (b : Book κ ρ ε) (k : κ) (r : ρ) (l : List ε) : Book κ ρ ε where
  rows := b.rows.set k r
  log k' := if k' = k then b.log k' ++ l else b.log k'

@[simp] lemma write_rows (b : Book κ ρ ε) (k : κ) (r : ρ) (l : List ε) :
    (b.write k r l).rows = b.rows.set k r := rfl

@[simp] lemma write_log_self (b : Book κ ρ ε) (k : κ) (r : ρ) (l : List ε) :
    (b.write k r l).log k = b.log k ++ l := if_pos rfl

lemma write_log_ne (b : Book κ ρ ε) {k k' : κ} (ne : k' ≠ k) (r : ρ) (l : List ε) :
    (b.write k r l).log k' = b.log k' := if_neg ne

/-- Two writes of one row are one write. -/
@[simp] lemma write_write (b : Book κ ρ ε) (k : κ) (r r' : ρ) (l l' : List ε) :
    (b.write k r l).write k r' l' = b.write k r' (l ++ l') := by
  ext1
  · exact Dict.set_set _ _ _ _
  · funext k'
    simp only [write]
    split
    · rw [List.append_assoc]
    · rfl

/-- A write that changes nothing. -/
lemma write_same (stored : b.rows.get k = some r) : b.write k r [] = b := by
  ext1
  · exact Dict.set_of_get stored
  · funext k'
    simp only [write, List.append_nil, ite_self]

/-- No row is lost, every row follows a course, and a new row begins as it may. -/
structure Grows (First : ρ → List ε → Prop) (Step : ρ → List ε → ρ → Prop) (b b' : Book κ ρ ε) :
    Prop where
  kept : ∀ {k r}, b.rows.get k = some r →
    ∃ r' l, b'.rows.get k = some r' ∧ Course Step r l r' ∧ b'.log k = b.log k ++ l
  fresh : ∀ {k}, b.rows.get k = none →
    (b'.rows.get k = none ∧ b'.log k = b.log k) ∨
      ∃ r l r' l', First r l ∧ b'.rows.get k = some r' ∧ Course Step r l' r' ∧
        b'.log k = b.log k ++ (l ++ l')

namespace Grows

lemma refl (b : Book κ ρ ε) : Grows First Step b b := by
  refine ⟨fun {k r} stored => ?_, fun {k} absent => Or.inl ⟨absent, rfl⟩⟩
  exact ⟨r, [], stored, .refl r, (List.append_nil _).symm⟩

lemma trans (gr : Grows First Step b b') (gr' : Grows First Step b' b'') :
    Grows First Step b b'' := by
  constructor
  · intro k r stored
    obtain ⟨r1, l1, stored1, cs1, log1⟩ := gr.kept stored
    obtain ⟨r2, l2, stored2, cs2, log2⟩ := gr'.kept stored1
    exact ⟨r2, l1 ++ l2, stored2, cs1.trans cs2, by rw [log2, log1, List.append_assoc]⟩
  · intro k absent
    rcases gr.fresh absent with ⟨absent1, log1⟩ | ⟨r, l, r1, l1, first, stored1, cs1, log1⟩
    · rw [← log1]
      exact gr'.fresh absent1
    · obtain ⟨r2, l2, stored2, cs2, log2⟩ := gr'.kept stored1
      refine Or.inr ⟨r, l, r2, l1 ++ l2, first, stored2, cs1.trans cs2, ?_⟩
      simp only [log2, log1, List.append_assoc]

/-- One row takes a step. -/
lemma write (stored : b.rows.get k = some r) (st : Step r l r') :
    Grows First Step b (b.write k r' l) := by
  constructor
  · intro k' s stored'
    by_cases e : k' = k
    · subst e
      cases stored.symm.trans stored'
      exact ⟨r', l, Dict.get_set_self _ _ _, .single st, write_log_self _ _ _ _⟩
    · refine ⟨s, [], ?_, .refl s, ?_⟩
      · rw [write_rows, Dict.get_set_ne _ _ e]
        exact stored'
      · rw [write_log_ne _ e, List.append_nil]
  · intro k' absent
    have ne : k' ≠ k := by
      rintro rfl
      cases stored.symm.trans absent
    exact Or.inl ⟨by rw [write_rows, Dict.get_set_ne _ _ ne]; exact absent, write_log_ne _ ne _ _⟩

/-- One row is new. -/
lemma enter (absent : b.rows.get k = none) (first : First r l) :
    Grows First Step b (b.write k r l) := by
  constructor
  · intro k' s stored
    have ne : k' ≠ k := by
      rintro rfl
      cases absent.symm.trans stored
    refine ⟨s, [], ?_, .refl s, ?_⟩
    · rw [write_rows, Dict.get_set_ne _ _ ne]
      exact stored
    · rw [write_log_ne _ ne, List.append_nil]
  · intro k' absent'
    by_cases e : k' = k
    · subst e
      refine Or.inr ⟨r, l, r, [], first, Dict.get_set_self _ _ _, .refl r, ?_⟩
      rw [write_log_self, List.append_nil]
    · exact Or.inl ⟨by rw [write_rows, Dict.get_set_ne _ _ e]; exact absent', write_log_ne _ e _ _⟩

end Grows

/-- A relation ties every row to its log, and nothing is logged without a row. -/
structure Keeps (I : ρ → List ε → Prop) (b : Book κ ρ ε) : Prop where
  row : ∀ {k r}, b.rows.get k = some r → I r (b.log k)
  silent : ∀ {k}, b.rows.get k = none → b.log k = []

/-- A relation that every first row meets and every step keeps is kept by a book that grows. -/
theorem Grows.keeps {I : ρ → List ε → Prop} (first : ∀ {r l}, First r l → I r l)
    (step : ∀ {r l r' l'}, I r l → Step r l' r' → I r' (l ++ l'))
    (gr : Grows First Step b b') (kp : Keeps I b) : Keeps I b' := by
  constructor
  · intro k r' stored'
    cases stored : b.rows.get k with
    | some r =>
      obtain ⟨s, l, stored1, cs, log⟩ := gr.kept stored
      cases stored'.symm.trans stored1
      rw [log]
      exact cs.keeps step (kp.row stored)
    | none =>
      rcases gr.fresh stored with ⟨absent, _⟩ | ⟨r, l, s, l', begins, stored1, cs, log⟩
      · cases stored'.symm.trans absent
      · cases stored'.symm.trans stored1
        rw [log, kp.silent stored, List.nil_append]
        exact cs.keeps step (first begins)
  · intro k absent'
    cases stored : b.rows.get k with
    | some r =>
      obtain ⟨s, l, stored1, _⟩ := gr.kept stored
      cases absent'.symm.trans stored1
    | none =>
      rcases gr.fresh stored with ⟨_, log⟩ | ⟨r, l, s, l', _, stored1, _⟩
      · rw [log]
        exact kp.silent stored
      · cases absent'.symm.trans stored1

end Book

end ResearchController.Lib
