import Mathlib

/-!
# Insertion-ordered dictionaries

A dictionary is a list of key/value items whose keys are pairwise distinct; the proof of
distinctness is carried by the structure, so a dictionary with two items for one key cannot be
built. `Dict.set` replaces the value of a present key in place and appends a new key at the end, as
the dictionaries of the modelled language (and the rows of a table with a primary key) do.

Everything about a dictionary is read through `Dict.get`: `Dict.get_set` is the only fact about
`Dict.set` later modules need, and `Dict.mem_items` turns a statement about the list of items into
one about lookups.
-/

namespace ResearchController.Lib

/-- A dictionary: items with pairwise distinct keys, in insertion order. -/
structure Dict (κ ρ : Type*) where
  items : List (κ × ρ)
  nodup : (items.map Prod.fst).Nodup

namespace Dict

variable {κ ρ : Type*} [DecidableEq κ]

/-- First value stored under a key in a list of items. -/
def getItems : List (κ × ρ) → κ → Option ρ
  | [], _ => none
  | (k', r) :: items, k => if k' = k then some r else getItems items k

/-- Replace the value of a key in place, or append the item. -/
def setItems : List (κ × ρ) → κ → ρ → List (κ × ρ)
  | [], k, r => [(k, r)]
  | (k', r') :: items, k, r =>
    if k' = k then (k, r) :: items else (k', r') :: setItems items k r

/-- Lookup in the items after a replacement. -/
lemma getItems_setItems (items : List (κ × ρ)) (k k' : κ) (r : ρ) :
    getItems (setItems items k r) k' = if k' = k then some r else getItems items k' := by
  induction items with
  | nil => simp [setItems, getItems, eq_comm]
  | cons head items ih =>
    obtain ⟨k0, r0⟩ := head
    by_cases e : k0 = k
    · subst e
      by_cases e' : k' = k0
      · simp [setItems, getItems, e']
      · simp [setItems, getItems, e', Ne.symm e']
    · by_cases e' : k' = k
      · subst e'
        simp [setItems, getItems, e, ih]
      · simp [setItems, getItems, e, e', ih]

/-- Lookup in two lists of items, one after the other. -/
lemma getItems_append (items items' : List (κ × ρ)) (k : κ) :
    getItems (items ++ items') k = (getItems items k).or (getItems items' k) := by
  induction items with
  | nil => rfl
  | cons head items ih =>
    obtain ⟨k0, r0⟩ := head
    rw [List.cons_append, getItems, getItems, ih]
    split <;> rfl

/-- Replacing keeps the keys and appends at most the new one. -/
lemma keys_setItems (items : List (κ × ρ)) (k : κ) (r : ρ) :
    (setItems items k r).map Prod.fst =
      if k ∈ items.map Prod.fst then items.map Prod.fst else items.map Prod.fst ++ [k] := by
  induction items with
  | nil => simp [setItems]
  | cons head items ih =>
    obtain ⟨k0, r0⟩ := head
    by_cases e : k0 = k
    · simp [setItems, e]
    · have e' : ¬ k = k0 := fun h => e h.symm
      simp only [setItems, e, if_false, List.map_cons, ih, List.mem_cons, e', false_or]
      split <;> rfl

/-- Replacing keeps the keys distinct. -/
lemma nodup_setItems {items : List (κ × ρ)} (nd : (items.map Prod.fst).Nodup) (k : κ) (r : ρ) :
    ((setItems items k r).map Prod.fst).Nodup := by
  rw [keys_setItems]
  split
  · exact nd
  · rename_i absent
    rw [List.nodup_append]
    refine ⟨nd, List.nodup_singleton k, ?_⟩
    intro a ha b hb e
    rw [List.mem_singleton] at hb
    exact absent (hb ▸ e ▸ ha)

/-- The second of two replacements wins. -/
lemma setItems_setItems (items : List (κ × ρ)) (k : κ) (r r' : ρ) :
    setItems (setItems items k r) k r' = setItems items k r' := by
  induction items with
  | nil => simp [setItems]
  | cons head items ih =>
    obtain ⟨k0, r0⟩ := head
    by_cases e : k0 = k
    · simp [setItems, e]
    · simp [setItems, e, ih]

/-- The dictionary without items. -/
def empty : Dict κ ρ := ⟨[], List.nodup_nil⟩

/-- The value stored under a key. -/
def get (d : Dict κ ρ) (k : κ) : Option ρ := getItems d.items k

/-- Store a value under a key. -/
def set (d : Dict κ ρ) (k : κ) (r : ρ) : Dict κ ρ :=
  ⟨setItems d.items k r, nodup_setItems d.nodup k r⟩

/-- The first item, in insertion order, that satisfies a test. -/
def find? (d : Dict κ ρ) (p : κ → ρ → Bool) : Option (κ × ρ) :=
  d.items.find? fun item => p item.1 item.2

/-- The keys of the items that satisfy a test, in insertion order. -/
def keysWhere (d : Dict κ ρ) (p : κ → ρ → Bool) : List κ :=
  (d.items.filter fun item => p item.1 item.2).map Prod.fst

/-- Whether some item satisfies a test. -/
def any (d : Dict κ ρ) (p : κ → ρ → Bool) : Bool :=
  d.items.any fun item => p item.1 item.2

/-- Change every value, keeping the keys. -/
def mapValues (d : Dict κ ρ) (f : ρ → ρ) : Dict κ ρ :=
  ⟨d.items.map fun item => (item.1, f item.2), by
    rw [List.map_map]
    exact d.nodup⟩

/-- The items that satisfy a test. -/
def filter (d : Dict κ ρ) (p : κ → ρ → Bool) : Dict κ ρ :=
  ⟨d.items.filter fun item => p item.1 item.2, (List.filter_sublist.map Prod.fst).nodup d.nodup⟩

/-- Lookup after a store. -/
lemma get_set (d : Dict κ ρ) (k k' : κ) (r : ρ) :
    (d.set k r).get k' = if k' = k then some r else d.get k' :=
  getItems_setItems d.items k k' r

@[simp] lemma get_set_self (d : Dict κ ρ) (k : κ) (r : ρ) : (d.set k r).get k = some r := by
  rw [get_set, if_pos rfl]

lemma get_set_ne (d : Dict κ ρ) {k k' : κ} (r : ρ) (ne : k' ≠ k) :
    (d.set k r).get k' = d.get k' := by
  rw [get_set, if_neg ne]

@[simp] lemma set_set (d : Dict κ ρ) (k : κ) (r r' : ρ) : (d.set k r).set k r' = d.set k r' := by
  obtain ⟨items, nd⟩ := d
  simp only [set, setItems_setItems]

/-- An item is in the dictionary exactly when its key looks it up. -/
lemma mem_items (d : Dict κ ρ) {k : κ} {r : ρ} : (k, r) ∈ d.items ↔ d.get k = some r := by
  obtain ⟨items, nd⟩ := d
  show (k, r) ∈ items ↔ getItems items k = some r
  induction items with
  | nil => simp [getItems]
  | cons head items ih =>
    obtain ⟨k0, r0⟩ := head
    rw [List.map_cons, List.nodup_cons] at nd
    obtain ⟨notin, nd'⟩ := nd
    by_cases e : k0 = k
    · subst e
      simp only [List.mem_cons, Prod.mk.injEq, true_and, getItems, if_true, Option.some.injEq]
      constructor
      · rintro (e | mem)
        · exact e.symm
        · exact (notin (List.mem_map.mpr ⟨(k0, r), mem, rfl⟩)).elim
      · exact fun e => Or.inl e.symm
    · have e' : ¬ k = k0 := fun h => e h.symm
      simp only [List.mem_cons, Prod.mk.injEq, e', false_and, false_or, getItems, e, if_false]
      exact ih nd'

/-- A key is present exactly when it looks something up. -/
lemma mem_keys (d : Dict κ ρ) {k : κ} : k ∈ d.items.map Prod.fst ↔ ∃ r, d.get k = some r := by
  constructor
  · intro mem
    obtain ⟨⟨k', r⟩, memItem, rfl⟩ := List.mem_map.mp mem
    exact ⟨r, d.mem_items.mp memItem⟩
  · rintro ⟨r, e⟩
    exact List.mem_map.mpr ⟨(k, r), d.mem_items.mpr e, rfl⟩

/-- What a successful search finds. -/
lemma find?_some {d : Dict κ ρ} {p : κ → ρ → Bool} {k : κ} {r : ρ} (e : d.find? p = some (k, r)) :
    d.get k = some r ∧ p k r = true :=
  ⟨d.mem_items.mp (List.mem_of_find?_eq_some e),
    List.find?_some (p := fun item : κ × ρ => p item.1 item.2) e⟩

/-- A failed search means that no stored value satisfies the test. -/
lemma find?_none {d : Dict κ ρ} {p : κ → ρ → Bool} (e : d.find? p = none) {k : κ} {r : ρ}
    (hr : d.get k = some r) : p k r = false := by
  have h := List.find?_eq_none.mp e (k, r) (d.mem_items.mpr hr)
  simpa using h

/-- The keys selected by a test. -/
lemma mem_keysWhere {d : Dict κ ρ} {p : κ → ρ → Bool} {k : κ} :
    k ∈ d.keysWhere p ↔ ∃ r, d.get k = some r ∧ p k r = true := by
  constructor
  · intro mem
    obtain ⟨⟨k', r⟩, memItem, rfl⟩ := List.mem_map.mp mem
    obtain ⟨stored, hp⟩ := List.mem_filter.mp memItem
    exact ⟨r, d.mem_items.mp stored, hp⟩
  · rintro ⟨r, e, hp⟩
    exact List.mem_map.mpr ⟨(k, r), List.mem_filter.mpr ⟨d.mem_items.mpr e, hp⟩, rfl⟩

omit [DecidableEq κ] in
/-- Selected keys are distinct. -/
lemma nodup_keysWhere (d : Dict κ ρ) (p : κ → ρ → Bool) : (d.keysWhere p).Nodup :=
  (List.filter_sublist.map Prod.fst).nodup d.nodup

/-- Some stored value satisfies the test. -/
lemma any_iff {d : Dict κ ρ} {p : κ → ρ → Bool} :
    d.any p = true ↔ ∃ k r, d.get k = some r ∧ p k r = true := by
  rw [any, List.any_eq_true]
  constructor
  · rintro ⟨⟨k, r⟩, mem, hp⟩
    exact ⟨k, r, d.mem_items.mp mem, hp⟩
  · rintro ⟨k, r, e, hp⟩
    exact ⟨(k, r), d.mem_items.mpr e, hp⟩

/-- Lookup among the items that satisfy a test. -/
lemma get_filter {d : Dict κ ρ} {p : κ → ρ → Bool} {k : κ} {r : ρ} :
    (d.filter p).get k = some r ↔ d.get k = some r ∧ p k r = true := by
  rw [← mem_items, ← mem_items, filter, List.mem_filter]

/-- A store under a present key keeps the keys. -/
lemma keys_set {d : Dict κ ρ} {k : κ} {r0 : ρ} (stored : d.get k = some r0) (r : ρ) :
    (d.set k r).items.map Prod.fst = d.items.map Prod.fst := by
  show (setItems d.items k r).map Prod.fst = _
  rw [keys_setItems, if_pos (d.mem_keys.mpr ⟨r0, stored⟩)]

/-- Two dictionaries with the same keys answer two queries alike that agree key by key. -/
lemma select_congr {α : Type*} {d d' : Dict κ ρ} {p q : κ → ρ → Bool} {f g : κ → ρ → α}
    (keys : d'.items.map Prod.fst = d.items.map Prod.fst)
    (same : ∀ {k r r'}, d.get k = some r → d'.get k = some r' →
      p k r = q k r' ∧ (p k r = true → f k r = g k r')) :
    (d.items.filter fun item => p item.1 item.2).map (fun item => f item.1 item.2) =
      (d'.items.filter fun item => q item.1 item.2).map fun item => g item.1 item.2 := by
  have agree : ∀ {k r r'}, (k, r) ∈ d.items → (k, r') ∈ d'.items →
      p k r = q k r' ∧ (p k r = true → f k r = g k r') :=
    fun mem mem' => same (d.mem_items.mp mem) (d'.mem_items.mp mem')
  generalize d.items = items at keys agree
  generalize d'.items = items' at keys agree
  induction items generalizing items' with
  | nil =>
    rw [List.map_eq_nil_iff.mp keys]
    rfl
  | cons item items ih =>
    cases items' with
    | nil => cases keys
    | cons item' items' =>
      obtain ⟨k, r⟩ := item
      obtain ⟨k', r'⟩ := item'
      rw [List.map_cons, List.map_cons, List.cons.injEq] at keys
      obtain ⟨rfl, keys⟩ := keys
      obtain ⟨test, image⟩ := agree List.mem_cons_self List.mem_cons_self
      have rest := ih items' keys fun mem mem' =>
        agree (List.mem_cons_of_mem _ mem) (List.mem_cons_of_mem _ mem')
      simp only [List.filter_cons, ← test]
      split
      · rename_i chosen
        rw [List.map_cons, List.map_cons, rest, image chosen]
      · exact rest

/-- Lookup after a change of every value. -/
lemma get_mapValues (d : Dict κ ρ) (f : ρ → ρ) (k : κ) :
    (d.mapValues f).get k = (d.get k).map f := by
  obtain ⟨items, nd⟩ := d
  show getItems (items.map fun item => (item.1, f item.2)) k = (getItems items k).map f
  clear nd
  induction items with
  | nil => rfl
  | cons head items ih =>
    obtain ⟨k0, r0⟩ := head
    by_cases e : k0 = k
    · simp [getItems, e]
    · simp only [List.map_cons, getItems, e, if_false, ih]

/-- Replacing a value by one with the same image changes no image. -/
lemma mapValues_set {α : Type*} {d : Dict κ ρ} {k : κ} {r r' : ρ} {f : ρ → α}
    (stored : d.get k = some r) (same : f r' = f r) :
    (d.set k r').items.map (Prod.map id f) = d.items.map (Prod.map id f) := by
  obtain ⟨items, nd⟩ := d
  change getItems items k = some r at stored
  show (setItems items k r').map (Prod.map id f) = items.map (Prod.map id f)
  clear nd
  induction items with
  | nil => cases stored
  | cons head items ih =>
    obtain ⟨k0, r0⟩ := head
    by_cases ek : k0 = k
    · simp only [getItems, ek, if_true, Option.some.injEq] at stored
      simp [setItems, ek, stored, same]
    · simp only [getItems, ek, if_false] at stored
      simp [setItems, ek, ih stored]

/-- The images of the items determine the images of the lookups. -/
lemma get_map_of_items {α : Type*} {d d' : Dict κ ρ} {f : ρ → α}
    (same : d'.items.map (Prod.map id f) = d.items.map (Prod.map id f)) (k : κ) :
    (d'.get k).map f = (d.get k).map f := by
  have image : ∀ items : List (κ × ρ),
      (getItems items k).map f = getItems (items.map (Prod.map id f)) k := by
    intro items
    induction items with
    | nil => rfl
    | cons head items ih =>
      obtain ⟨k0, r0⟩ := head
      by_cases e : k0 = k
      · simp [getItems, e]
      · simp only [List.map_cons, Prod.map, id, getItems, e, if_false]
        exact ih
  show (getItems d'.items k).map f = (getItems d.items k).map f
  rw [image, image, same]

/-- Some lookup of an image, in the dictionary or of the value that a fresh key adds. -/
lemma exists_get_set_iff {α : Type*} {d : Dict κ ρ} {k : κ} (absent : d.get k = none) (r : ρ)
    (f : ρ → α) (y : α) :
    (∃ i, ((d.set k r).get i).map f = some y) ↔ (∃ i, (d.get i).map f = some y) ∨ f r = y := by
  constructor
  · rintro ⟨i, e⟩
    rw [get_set] at e
    split at e
    · exact Or.inr (Option.some.inj e)
    · exact Or.inl ⟨i, e⟩
  · rintro (⟨i, e⟩ | e)
    · refine ⟨i, ?_⟩
      rw [get_set_ne d r, e]
      rintro rfl
      rw [absent] at e
      cases e
    · exact ⟨k, by rw [get_set_self, Option.map_some, e]⟩

/-- Storing the value that is there changes nothing. -/
lemma set_of_get {d : Dict κ ρ} {k : κ} {r : ρ} (e : d.get k = some r) : d.set k r = d := by
  obtain ⟨items, nd⟩ := d
  change getItems items k = some r at e
  have same : setItems items k r = items := by
    clear nd
    induction items with
    | nil => cases e
    | cons head items ih =>
      obtain ⟨k0, r0⟩ := head
      by_cases ek : k0 = k
      · simp only [getItems, ek, if_true, Option.some.injEq] at e
        simp [setItems, ek, e]
      · simp only [getItems, ek, if_false] at e
        simp [setItems, ek, ih e]
  simp only [set, same]

/-- A fresh key is appended after the present items. -/
lemma items_set_of_none {d : Dict κ ρ} {k : κ} (e : d.get k = none) (r : ρ) :
    (d.set k r).items = d.items ++ [(k, r)] := by
  obtain ⟨items, nd⟩ := d
  change getItems items k = none at e
  show setItems items k r = items ++ [(k, r)]
  clear nd
  induction items with
  | nil => rfl
  | cons head items ih =>
    obtain ⟨k0, r0⟩ := head
    by_cases ek : k0 = k
    · simp [getItems, ek] at e
    · simp only [getItems, ek, if_false] at e
      simp only [setItems, ek, if_false, List.cons_append, ih e]

end Dict

end ResearchController.Lib
