import ResearchController.Lib.FileTree

/-!
# Temporary files

Processes share records on a file tree. Each writes a record to a temporary file of its own and
gives it the name of the record when it is complete. `FileTree.Sound` is what they keep up together:
a record is never open for writing, and it was synchronized before it got its name, in all entries
that a power failure may leave. What one process may take for granted of the others is
`FileTree.Relies`, and `FileTree.Private` is a step by which it keeps its own side of this and
changes no record.

A power failure therefore leaves whole records (`FileTree.Sound.fails`,
`FileTree.Sound.fails_text`).
-/

namespace ResearchController.Lib

variable {ι ν δ β : Type}

/-- The names of the records, and the temporary file of each process for each of them. -/
structure Scratch (ι ν : Type) where
  temp : ι → ν → ν
  record : ν → Prop
  temp_inj : ∀ {i j p q}, temp i p = temp j q → i = j ∧ p = q
  temp_ne : ∀ {i p q}, record q → temp i p ≠ q

variable (N : Scratch ι ν) (valid : ν → List β → Prop)

/-- An inode that nobody can open for writing. -/
def FileTree.Settled (t : FileTree ν δ β) (k : Nat) : Prop :=
  k < t.next ∧ ∀ i p, t.entry (N.temp i p) ≠ some k

/-- What all processes keep up together, in every version of the entries that is still possible. -/
structure FileTree.Sound (t : FileTree ν δ β) : Prop where
  allocated : ∀ v ∈ t.versions, ∀ p k, v p = some k → k < t.next
  unshared : ∀ v ∈ t.versions, ∀ p q k, v p = some k → v q = some k → p = q
  records : ∀ v ∈ t.versions, ∀ p k, N.record p → v p = some k →
    t.Settled N k ∧ t.synced k = true ∧ valid p (t.inode k)

/-- What a process may take for granted of the steps of the others. -/
structure FileTree.Relies (i : ι) (t t' : FileTree ν δ β) : Prop where
  temp : ∀ p, t'.entry (N.temp i p) = t.entry (N.temp i p)
  own : ∀ p k, t.entry (N.temp i p) = some k → t'.inode k = t.inode k ∧ t'.synced k = t.synced k
  settled : ∀ k, t.Settled N k → t'.Settled N k ∧ t'.inode k = t.inode k

/-- A step of a process on files that are no records. -/
structure FileTree.Private (i : ι) (t t' : FileTree ν δ β) : Prop where
  sound : t'.Sound N valid
  relies : ∀ j, j ≠ i → t.Relies N j t'
  text : ∀ p, N.record p → t'.text p = t.text p

namespace FileTree

variable {N valid} {t t' : FileTree ν δ β} {i : ι} {path : ν} {k : Nat}

lemma Relies.trans {t'' : FileTree ν δ β} (first : t.Relies N i t') (second : t'.Relies N i t'') :
    t.Relies N i t'' := by
  refine ⟨fun p => (second.temp p).trans (first.temp p), fun p k linked => ?_, fun k settled => ?_⟩
  · obtain ⟨inode, synced⟩ := first.own p k linked
    obtain ⟨inode', synced'⟩ := second.own p k ((first.temp p).trans linked)
    exact ⟨inode'.trans inode, synced'.trans synced⟩
  · obtain ⟨settled, inode⟩ := first.settled k settled
    obtain ⟨settled, inode'⟩ := second.settled k settled
    exact ⟨settled, inode'.trans inode⟩

lemma Relies.refl (t : FileTree ν δ β) : t.Relies N i t :=
  ⟨fun _ => rfl, fun _ _ _ => ⟨rfl, rfl⟩, fun _ h => ⟨h, rfl⟩⟩

/-- No other process has the temporary file of this one. -/
lemma Sound.temp_ne (h : t.Sound N valid) {j : ι} {q : ν} (ne : j ≠ i)
    (mine : t.entry (N.temp i path) = some k) : t.entry (N.temp j q) ≠ some k := by
  intro shared
  have same := h.unshared _ t.entry_mem_versions _ _ _ shared mine
  exact ne (N.temp_inj same).1

/-- A file that is open for writing is no record, in no version. -/
lemma Sound.record_ne (h : t.Sound N valid) (mine : t.entry (N.temp i path) = some k)
    {v : ν → Option Nat} (mem : v ∈ t.versions) {q : ν} {k' : Nat} (record : N.record q)
    (linked : v q = some k') : k' ≠ k := by
  rintro rfl
  exact (h.records v mem q _ record linked).1.2 i path mine

/-! ## What the steps of a process do to the tree -/

/-- A process writes to its own temporary file. -/
lemma Sound.store (h : t.Sound N valid) (mine : t.entry (N.temp i path) = some k)
    (text : List β) : (t.store k text).Sound N valid := by
  refine ⟨h.allocated, h.unshared, fun v mem p k' record linked => ?_⟩
  obtain ⟨settled, synced, good⟩ := h.records v mem p k' record linked
  have ne := h.record_ne mine mem record linked
  refine ⟨settled, (t.store_synced_of_ne ne text).trans synced, ?_⟩
  rw [t.store_inode_of_ne ne]
  exact good

lemma Sound.store_relies (h : t.Sound N valid) (mine : t.entry (N.temp i path) = some k)
    (text : List β) {j : ι} (ne : j ≠ i) : t.Relies N j (t.store k text) := by
  refine ⟨fun _ => rfl, fun p k' linked => ?_, fun k' settled => ⟨settled, ?_⟩⟩
  · have other : k' ≠ k := by
      rintro rfl
      exact h.temp_ne ne mine linked
    exact ⟨t.store_inode_of_ne other text, t.store_synced_of_ne other text⟩
  · apply t.store_inode_of_ne
    rintro rfl
    exact settled.2 i path mine

/-- The records do not change. -/
lemma Sound.store_text (h : t.Sound N valid) (mine : t.entry (N.temp i path) = some k)
    (text : List β) {q : ν} (record : N.record q) : (t.store k text).text q = t.text q := by
  apply Option.map_congr
  intro k' linked
  exact t.store_inode_of_ne (h.record_ne mine t.entry_mem_versions record linked) text

/-- A process synchronizes its temporary file. -/
lemma Sound.sync (h : t.Sound N valid) (k : Nat) :
    ({ t with synced := Function.update t.synced k true } : FileTree ν δ β).Sound N valid := by
  refine ⟨h.allocated, h.unshared, fun v mem p k' record linked => ?_⟩
  obtain ⟨settled, synced, good⟩ := h.records v mem p k' record linked
  refine ⟨settled, ?_, good⟩
  rcases eq_or_ne k' k with rfl | ne
  · exact Function.update_self _ _ _
  · exact (Function.update_of_ne ne _ _).trans synced

lemma Sound.sync_relies (h : t.Sound N valid) (mine : t.entry (N.temp i path) = some k) {j : ι}
    (ne : j ≠ i) : t.Relies N j { t with synced := Function.update t.synced k true } := by
  refine ⟨fun _ => rfl, fun p k' linked => ⟨rfl, ?_⟩, fun _ settled => ⟨settled, rfl⟩⟩
  apply Function.update_of_ne
  rintro rfl
  exact h.temp_ne ne mine linked

/-- A power failure leaves a sound tree. -/
lemma Sound.fails (h : t.Sound N valid) (f : t.Fails t') : t'.Sound N valid := by
  have only : ∀ v ∈ t'.versions, v = t'.entry := by
    intro v mem
    rcases mem_versions.mp mem with same | ⟨d, mem⟩
    · exact same
    · rw [f.past] at mem
      cases mem
  refine ⟨?_, ?_, ?_⟩
  · intro v mem p k linked
    rw [only v mem] at linked
    rw [f.next]
    exact h.allocated _ f.entry p k linked
  · intro v mem p q k first second
    rw [only v mem] at first second
    exact h.unshared _ f.entry p q k first second
  · intro v mem p k record linked
    rw [only v mem] at linked
    obtain ⟨settled, synced, good⟩ := h.records _ f.entry p k record linked
    refine ⟨⟨?_, fun i q other => ?_⟩, f.synced k, ?_⟩
    · rw [f.next]
      exact settled.1
    · exact N.temp_ne record (h.unshared _ f.entry _ _ k other linked)
    · rw [f.inode k synced]
      exact good

/-- After a power failure every record is what it was at the moment that the entries are from. -/
lemma Sound.fails_text (h : t.Sound N valid) (f : t.Fails t') {p : ν} (record : N.record p) :
    t'.text p = (t'.entry p).map t.inode :=
  Option.map_congr fun k linked => f.inode k (h.records _ f.entry p k record linked).2.1

lemma Sound.still (h : t.Sound N valid) : t.Private N valid i t :=
  ⟨h, fun _ _ => .refl t, fun _ _ => rfl⟩

lemma Sound.stores (h : t.Sound N valid) (mine : t.entry (N.temp i path) = some k)
    (text : List β) : t.Private N valid i (t.store k text) :=
  ⟨h.store mine text, fun _ ne => h.store_relies mine text ne,
    fun _ record => h.store_text mine text record⟩

lemma Sound.syncs (h : t.Sound N valid) (mine : t.entry (N.temp i path) = some k) :
    t.Private N valid i { t with synced := Function.update t.synced k true } :=
  ⟨h.sync k, fun _ ne => h.sync_relies mine ne, fun _ _ => rfl⟩

variable [DecidableEq ν]

/-- A file is created that is no record. -/
lemma Sound.create (h : t.Sound N valid) (d : δ) (i : ι) (path : ν) :
    (t.create d (N.temp i path)).Sound N valid := by
  have fresh : ∀ p, t.entry p ≠ some t.next := by
    intro p linked
    exact absurd (h.allocated _ t.entry_mem_versions p _ linked) (Nat.lt_irrefl _)
  have settled : ∀ k, t.Settled N k → (t.create d (N.temp i path)).Settled N k := by
    rintro k ⟨old, closed⟩
    refine ⟨Nat.lt_succ_of_lt old, fun j q linked => ?_⟩
    obtain ⟨_, linked⟩ | ⟨_, rfl⟩ := FileTree.create_inv linked
    · exact closed j q linked
    · exact absurd old (Nat.lt_irrefl _)
  refine ⟨?_, ?_, ?_⟩
  · intro v mem p k linked
    rcases List.mem_cons.mp mem with rfl | mem
    · obtain ⟨_, linked⟩ | ⟨_, rfl⟩ := FileTree.create_inv linked
      · exact Nat.lt_succ_of_lt (h.allocated _ t.entry_mem_versions p k linked)
      · exact Nat.lt_succ_self _
    · exact Nat.lt_succ_of_lt (h.allocated v mem p k linked)
  · intro v mem p q k first second
    rcases List.mem_cons.mp mem with rfl | mem
    · obtain ⟨_, first⟩ | ⟨rfl, new⟩ := FileTree.create_inv first
      · obtain ⟨_, second⟩ | ⟨_, rfl⟩ := FileTree.create_inv second
        · exact h.unshared _ t.entry_mem_versions p q k first second
        · exact absurd first (fresh p)
      · obtain ⟨_, second⟩ | ⟨rfl, _⟩ := FileTree.create_inv second
        · exact absurd (new ▸ second) (fresh q)
        · rfl
    · exact h.unshared v mem p q k first second
  · intro v mem p k record linked
    rcases List.mem_cons.mp mem with rfl | mem
    · obtain ⟨_, linked⟩ | ⟨rfl, _⟩ := FileTree.create_inv linked
      · obtain ⟨before, rest⟩ := h.records _ t.entry_mem_versions p k record linked
        exact ⟨settled k before, rest⟩
      · exact absurd rfl (N.temp_ne record)
    · obtain ⟨before, rest⟩ := h.records v mem p k record linked
      exact ⟨settled k before, rest⟩

lemma create_relies (d : δ) {j : ι} (ne : j ≠ i) :
    t.Relies N j (t.create d (N.temp i path)) := by
  have other : ∀ p, N.temp j p ≠ N.temp i path := fun p same => ne (N.temp_inj same).1
  refine ⟨fun p => FileTree.create_entry_of_ne (other p), fun _ _ _ => ⟨rfl, rfl⟩, ?_⟩
  rintro k ⟨old, closed⟩
  refine ⟨⟨Nat.lt_succ_of_lt old, fun j' q linked => ?_⟩, rfl⟩
  obtain ⟨_, linked⟩ | ⟨_, rfl⟩ := FileTree.create_inv linked
  · exact closed j' q linked
  · exact absurd old (Nat.lt_irrefl _)

lemma create_text (d : δ) {q : ν} (record : N.record q) :
    (t.create d (N.temp i path)).text q = t.text q := by
  have ne : q ≠ N.temp i path := fun same => N.temp_ne record same.symm
  exact congrArg (Option.map t.inode) (FileTree.create_entry_of_ne ne)

lemma Sound.creates (h : t.Sound N valid) (d : δ) (text : List β) :
    t.Private N valid i ((t.create d (N.temp i path)).store t.next text) := by
  have created := h.create d i path
  have mine := t.create_entry_self d (N.temp i path)
  refine ⟨created.store mine text, fun j ne => ?_, fun p record => ?_⟩
  · exact (create_relies d ne).trans (created.store_relies mine text ne)
  · exact (created.store_text mine text record).trans (create_text d record)

/-- A file that is written in full and synchronized becomes a record. -/
lemma Sound.rename (h : t.Sound N valid) (d : δ) (mine : t.entry (N.temp i path) = some k)
    (record : N.record path) (synced : t.synced k = true) (good : valid path (t.inode k)) :
    (t.rename d (N.temp i path) path k).Sound N valid := by
  have ne : N.temp i path ≠ path := N.temp_ne record
  have settled : ∀ k', t.Settled N k' → (t.rename d (N.temp i path) path k).Settled N k' := by
    rintro k' ⟨old, closed⟩
    refine ⟨old, fun j q linked => ?_⟩
    obtain ⟨same, _⟩ | ⟨_, _, linked⟩ := FileTree.rename_inv linked
    · exact N.temp_ne record same
    · exact closed j q linked
  have closed : (t.rename d (N.temp i path) path k).Settled N k := by
    refine ⟨h.allocated _ t.entry_mem_versions _ k mine, fun j q linked => ?_⟩
    obtain ⟨same, _⟩ | ⟨_, other, linked⟩ := FileTree.rename_inv linked
    · exact N.temp_ne record same
    · exact other (h.unshared _ t.entry_mem_versions _ _ k linked mine)
  refine ⟨?_, ?_, ?_⟩
  · intro v mem p k' linked
    rcases List.mem_cons.mp mem with rfl | mem
    · obtain ⟨_, rfl⟩ | ⟨_, _, linked⟩ := FileTree.rename_inv linked
      · exact h.allocated _ t.entry_mem_versions _ _ mine
      · exact h.allocated _ t.entry_mem_versions p k' linked
    · exact h.allocated v mem p k' linked
  · intro v mem p q k' first second
    rcases List.mem_cons.mp mem with rfl | mem
    · have same := h.unshared _ t.entry_mem_versions
      obtain ⟨rfl, new⟩ | ⟨_, other, old⟩ := FileTree.rename_inv first
      · obtain ⟨rfl, _⟩ | ⟨_, other, old⟩ := FileTree.rename_inv second
        · rfl
        · exact absurd (same _ _ _ (new ▸ old) mine) other
      · obtain ⟨_, new⟩ | ⟨_, _, old'⟩ := FileTree.rename_inv second
        · exact absurd (same _ _ _ (new ▸ old) mine) other
        · exact same p q k' old old'
    · exact h.unshared v mem p q k' first second
  · intro v mem p k' record' linked
    rcases List.mem_cons.mp mem with rfl | mem
    · obtain ⟨rfl, rfl⟩ | ⟨_, _, linked⟩ := FileTree.rename_inv linked
      · exact ⟨closed, synced, good⟩
      · obtain ⟨before, rest⟩ := h.records _ t.entry_mem_versions p k' record' linked
        exact ⟨settled k' before, rest⟩
    · obtain ⟨before, rest⟩ := h.records v mem p k' record' linked
      exact ⟨settled k' before, rest⟩

lemma rename_relies (d : δ) (record : N.record path) {j : ι} (ne : j ≠ i) :
    t.Relies N j (t.rename d (N.temp i path) path k) := by
  have other : ∀ p, N.temp j p ≠ N.temp i path := fun p same => ne (N.temp_inj same).1
  refine ⟨fun p => FileTree.rename_entry_of_ne (other p) (N.temp_ne record) k,
    fun _ _ _ => ⟨rfl, rfl⟩, ?_⟩
  rintro k' ⟨old, closed⟩
  refine ⟨⟨old, fun j' q linked => ?_⟩, rfl⟩
  obtain ⟨same, _⟩ | ⟨_, _, linked⟩ := FileTree.rename_inv linked
  · exact N.temp_ne record same
  · exact closed j' q linked

/-- Its text is then the text of the record, and no other record changes. -/
lemma rename_text (d : δ) {q : ν} (record : N.record q) :
    (t.rename d (N.temp i path) path k).text q =
      if q = path then some (t.inode k) else t.text q := by
  split
  · rename_i same
    subst same
    exact congrArg (Option.map t.inode) (FileTree.rename_entry_target _ _ k)
  · rename_i ne
    have ne' : q ≠ N.temp i path := fun same => N.temp_ne record same.symm
    exact congrArg (Option.map t.inode) (FileTree.rename_entry_of_ne ne' ne k)

end FileTree

end ResearchController.Lib
