import ResearchController.Lib.Ledger
import ResearchController.Lib.System

/-!
# Totals of a table, and runs with finitely many changes

The weight of the rows of a table adds up to a total. A table that only gains rows and whose rows
only gain weight has a growing total, strictly if one of them gains (`Dict.total_lt`), and a table
whose rows take distinct slots of another one has at most as many rows as there are slots
(`Dict.length_le_total`). The rows of a book may be weighed by their logs (`Book.Grows.total`).

A system in which every change makes a number grow changes at most as often as the number has grown
(`System.changes_le`). A bound on the number is thereby a bound on the changes of every run: the
system cannot go round in circles.
-/

namespace ResearchController.Lib

namespace Dict

variable {κ ρ σ : Type*}

/-- The weight of all rows. -/
def total (d : Dict κ ρ) (w : ρ → ℕ) : ℕ :=
  (d.items.map fun item => w item.2).sum

lemma total_add (d : Dict κ ρ) (f g : ρ → ℕ) :
    (d.total fun r => f r + g r) = d.total f + d.total g := by
  simp only [total, List.sum_map_add]

lemma total_mul (d : Dict κ ρ) (n : ℕ) (f : ρ → ℕ) :
    (d.total fun r => n * f r) = n * d.total f := by
  simp only [total, List.sum_map_mul_left]

variable [DecidableEq κ]

/-- A total as a sum over any set of keys that has all keys of the table. -/
lemma total_eq_sum (d : Dict κ ρ) (w : ρ → ℕ) {keys : Finset κ}
    (all : ∀ {k r}, d.get k = some r → k ∈ keys) :
    d.total w = ∑ k ∈ keys, (d.get k).elim 0 w := by
  have weights : (d.items.map fun item => w item.2) =
      (d.items.map Prod.fst).map fun k => (d.get k).elim 0 w := by
    rw [List.map_map, List.map_inj_left]
    intro item mem
    simp only [Function.comp_apply, d.mem_items.mp mem, Option.elim_some]
  rw [total, weights, ← List.sum_toFinset _ d.nodup]
  apply Finset.sum_subset
  · intro k mem
    obtain ⟨r, stored⟩ := d.mem_keys.mp (List.mem_toFinset.mp mem)
    exact all stored
  · intro k _ absent
    cases stored : d.get k with
    | none => rfl
    | some r => exact (absent (List.mem_toFinset.mpr (d.mem_keys.mpr ⟨r, stored⟩))).elim

variable {d d' : Dict κ ρ} {w w' : ρ → ℕ}

lemma total_le_total (each : ∀ {k r}, d.get k = some r → ∃ r', d'.get k = some r' ∧ w r ≤ w' r') :
    d.total w ≤ d'.total w' := by
  have here : ∀ {k r}, d.get k = some r → k ∈ (d'.items.map Prod.fst).toFinset := by
    intro k r stored
    obtain ⟨r', stored', _⟩ := each stored
    exact List.mem_toFinset.mpr (d'.mem_keys.mpr ⟨r', stored'⟩)
  rw [total_eq_sum d w here, total_eq_sum d' w' fun {k r} stored =>
    List.mem_toFinset.mpr (d'.mem_keys.mpr ⟨r, stored⟩)]
  apply Finset.sum_le_sum
  intro k _
  cases stored : d.get k with
  | none => exact Nat.zero_le _
  | some r =>
    obtain ⟨r', stored', le⟩ := each stored
    rw [stored']
    exact le

/-- The total grows if one row gains weight, or a row with weight is new. -/
lemma total_lt_total (each : ∀ {k r}, d.get k = some r → ∃ r', d'.get k = some r' ∧ w r ≤ w' r')
    {k : κ} {r' : ρ} (stored' : d'.get k = some r') (gain : (d.get k).elim 0 w < w' r') :
    d.total w < d'.total w' := by
  have known : ∀ {k r}, d'.get k = some r → k ∈ (d'.items.map Prod.fst).toFinset :=
    fun {k r} stored => List.mem_toFinset.mpr (d'.mem_keys.mpr ⟨r, stored⟩)
  have here : ∀ {k r}, d.get k = some r → k ∈ (d'.items.map Prod.fst).toFinset := by
    intro k r stored
    obtain ⟨r', stored', _⟩ := each stored
    exact known stored'
  rw [total_eq_sum d w here, total_eq_sum d' w' known]
  apply Finset.sum_lt_sum
  · intro k _
    cases stored : d.get k with
    | none => exact Nat.zero_le _
    | some r =>
      obtain ⟨r', stored', le⟩ := each stored
      rw [stored']
      exact le
  · refine ⟨k, known stored', ?_⟩
    rw [stored']
    exact gain

/-- A bound for each row bounds the total. -/
lemma total_mono {f g : ρ → ℕ} (le : ∀ {k r}, d.get k = some r → f r ≤ g r) :
    d.total f ≤ d.total g :=
  total_le_total fun {_ r} stored => ⟨r, stored, le stored⟩

/-- The rows of a table that take distinct slots of another table are no more than its slots. -/
theorem length_le_total {d : Dict κ ρ} {owners : Dict κ σ} {slots : σ → ℕ} {owner : ρ → κ}
    {slot : ρ → ℕ}
    (owned : ∀ {k r}, d.get k = some r → ∃ o, owners.get (owner r) = some o ∧ slot r < slots o)
    (distinct : ∀ {k k' r r'}, d.get k = some r → d.get k' = some r' → owner r = owner r' →
      slot r = slot r' → k = k') :
    d.items.length ≤ owners.total slots := by
  let keys := (d.items.map Prod.fst).toFinset
  let places := (owners.items.map Prod.fst).toFinset.sigma fun o =>
    Finset.range ((owners.get o).elim 0 slots)
  have count : d.items.length = keys.card := by
    rw [List.toFinset_card_of_nodup d.nodup, List.length_map]
  have size : places.card = owners.total slots := by
    rw [Finset.card_sigma, total_eq_sum owners slots fun {k r} stored =>
      List.mem_toFinset.mpr (owners.mem_keys.mpr ⟨r, stored⟩)]
    exact Finset.sum_congr rfl fun o _ => Finset.card_range _
  have stored : ∀ k ∈ keys, ∃ r, d.get k = some r :=
    fun k mem => d.mem_keys.mp (List.mem_toFinset.mp mem)
  rw [count, ← size]
  -- each key goes to the slot of its row
  refine Finset.card_le_card_of_injOn
    (fun k => ⟨(d.get k).elim k owner, (d.get k).elim 0 slot⟩) ?_ ?_
  · intro k mem
    obtain ⟨r, hr⟩ := stored k mem
    obtain ⟨o, ho, lt⟩ := owned hr
    refine Finset.mem_coe.mpr (Finset.mem_sigma.mpr ⟨?_, ?_⟩)
    · simp only [hr, Option.elim_some]
      exact List.mem_toFinset.mpr (owners.mem_keys.mpr ⟨o, ho⟩)
    · simp only [hr, Option.elim_some, ho]
      exact Finset.mem_range.mpr lt
  · intro k mem k' mem' same
    obtain ⟨r, hr⟩ := stored k mem
    obtain ⟨r', hr'⟩ := stored k' mem'
    simp only [hr, hr', Option.elim_some, Sigma.mk.injEq] at same
    exact distinct hr hr' same.1 (eq_of_heq same.2)

end Dict

/-- If a longer log weighs more, or at least not less, the total of a book that grows does not fall,
    and it rises if a row is new or shows another value. -/
theorem Book.Grows.total {κ ρ ε α : Type*} [DecidableEq κ] {First : ρ → List ε → Prop}
    {Step : ρ → List ε → ρ → Prop} {b b' : Book κ ρ ε} (gr : Grows First Step b b')
    {I : ρ → List ε → Prop} (kp : Keeps I b) (kp' : Keeps I b') {w : ρ → ℕ} {f : ρ → α}
    (heavy : ∀ {r l}, I r l → 0 < w r)
    (longer : ∀ {r l r' l'}, I r l → I r' (l ++ l') → w r ≤ w r' ∧ (f r ≠ f r' → w r < w r')) :
    b.rows.total w ≤ b'.rows.total w ∧
      ∀ {k r'}, b'.rows.get k = some r' → (b.rows.get k).map f ≠ some (f r') →
        b.rows.total w < b'.rows.total w := by
  have pair : ∀ {k r}, b.rows.get k = some r → ∃ r', b'.rows.get k = some r' ∧
      w r ≤ w r' ∧ (f r ≠ f r' → w r < w r') := by
    intro k r stored
    obtain ⟨r', l, stored', _, log⟩ := gr.kept stored
    have row' := kp'.row stored'
    rw [log] at row'
    exact ⟨r', stored', longer (kp.row stored) row'⟩
  have each : ∀ {k r}, b.rows.get k = some r → ∃ r', b'.rows.get k = some r' ∧ w r ≤ w r' := by
    intro k r stored
    obtain ⟨r', stored', le, _⟩ := pair stored
    exact ⟨r', stored', le⟩
  refine ⟨Dict.total_le_total each, fun {k r'} stored' differs => ?_⟩
  refine Dict.total_lt_total each stored' ?_
  cases stored : b.rows.get k with
  | none => exact heavy (kp'.row stored')
  | some r =>
    obtain ⟨r1, stored1, _, lt⟩ := pair stored
    cases stored'.symm.trans stored1
    rw [stored, Option.map_some] at differs
    exact lt fun e => differs (congrArg some e)

namespace System

variable {S E : Type*} (sys : System S E)

/-- How many events of a replay change something. -/
def changes (changed : S → S → Bool) : S → List E → ℕ
  | _, [] => 0
  | s, e :: es =>
    match sys.step s e with
    | none => 0
    | some s' => (changed s s').toNat + changes changed s' es

variable {sys}

/-- If every change makes a number grow, and nothing makes it fall, a run has at most as many
    changes as the number has grown. -/
theorem changes_le {changed : S → S → Bool} {m : S → ℕ} {P : S → Prop}
    (step : ∀ s e s', P s → sys.step s e = some s' →
      P s' ∧ m s + (changed s s').toNat ≤ m s')
    {s s' : S} {es : List E} (rn : sys.run s es = some s') (hs : P s) :
    m s + sys.changes changed s es ≤ m s' := by
  induction es generalizing s with
  | nil =>
    cases rn
    exact le_of_eq (Nat.add_zero _)
  | cons e es ih =>
    obtain ⟨t, st, rn⟩ := run_cons.mp rn
    obtain ⟨ht, grows⟩ := step s e t hs st
    have later := ih rn ht
    simp only [changes, st]
    omega

end System

end ResearchController.Lib
