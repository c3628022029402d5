import ResearchController.Artifacts.Store
import ResearchController.Lib.Joined
import ResearchController.Services.ProjectState

/-!
# Dedupe keys

Five kinds of events carry a dedupe key: a created project, task, job or artifact, and the
verification of an artifact. All five keys are written into one column under one unique constraint.
A key is its kind and the components of what it announces, joined with colons, and nothing in a
component is escaped.

`dedupeKey_eq_iff` says which creations share a key: those of one kind whose components regroup.
Creations of different kinds never do, and neither do those with a single component, but a colon in
a component of a job or an artifact always gives another one the same key (`shares_iff`).
-/

namespace ResearchController
open Lib

/-- What an event with a dedupe key announces. -/
inductive Creation where
  | project (id : String)
  | task (id : String)
  | computeJob (providerId submissionKey : String)
  | artifact (producerType producerRefId logicalName sha256 : String)
  | verification (artifactId : String)
  deriving DecidableEq

namespace Creation

/-- The dedupe key of the event. -/
def dedupeKey : Creation → String
  | project id => s!"project-created:{id}"
  | task id => s!"task-created:{id}"
  | computeJob providerId submissionKey => computeCreatedKey providerId submissionKey
  | artifact producerType producerRefId logicalName sha256 =>
    artifactCreatedKey producerType producerRefId logicalName sha256
  | verification artifactId => s!"artifact-verified:{artifactId}"

/-- What the key begins with. -/
def kind : Creation → String
  | project _ => "project-created"
  | task _ => "task-created"
  | computeJob _ _ => "compute-created"
  | artifact _ _ _ _ => "artifact-created"
  | verification _ => "artifact-verified"

/-- What the key is about. -/
def components : Creation → List String
  | project id => [id]
  | task id => [id]
  | computeJob providerId submissionKey => [providerId, submissionKey]
  | artifact producerType producerRefId logicalName sha256 =>
    [producerType, producerRefId, logicalName, sha256]
  | verification artifactId => [artifactId]

/-- The components as lists of characters. -/
def words (c : Creation) : List (List Char) :=
  c.components.map String.toList

/-- Two creations are of one kind, and the components of one are those of the other with colons
    moved into components and out of them. -/
def Regroups (c c' : Creation) : Prop :=
  c.kind = c'.kind ∧ Lib.Regroups ':' c.words c'.words

variable {c c' : Creation}

/-- A key is its kind with the components behind it. -/
lemma dedupeKey_eq (c : Creation) :
    c.dedupeKey = c.components.foldl (fun key component => key ++ ":" ++ component) c.kind := by
  cases c <;> rfl

lemma toList_foldl (key : String) (components : List String) :
    (components.foldl (fun key component => key ++ ":" ++ component) key).toList =
      key.toList ++ spelled ':' (components.map String.toList) := by
  induction components generalizing key with
  | nil => exact (List.append_nil _).symm
  | cons component components ih =>
    rw [List.foldl_cons, ih, String.toList_append, String.toList_append, List.map_cons,
      spelled_cons, List.append_assoc, List.append_assoc]
    rfl

lemma dedupeKey_toList (c : Creation) :
    c.dedupeKey.toList = [':'].intercalate (c.kind.toList :: c.words) := by
  rw [dedupeKey_eq, toList_foldl, joined_cons, words]

/-- No kind contains a colon. -/
lemma kind_free (c : Creation) : ':' ∉ c.kind.toList := by
  cases c <;> simp only [kind] <;> decide

/-- A creation is known by its kind and its words. -/
lemma ext_words (kinds : c.kind = c'.kind) (same : c.words = c'.words) : c = c' := by
  have components : c.components = c'.components :=
    List.map_injective_iff.mpr (fun _ _ => String.toList_injective) same
  cases c <;> cases c' <;> simp_all [kind, Creation.components]

/-- The number of words depends on the kind only. -/
lemma length_words (kinds : c.kind = c'.kind) : c.words.length = c'.words.length := by
  cases c <;> cases c' <;> first | rfl | exact absurd kinds (by simp [kind])

/-- Any words of the right number are those of a creation. -/
lemma exists_words (c : Creation) {vs : List (List Char)} (length : vs.length = c.words.length) :
    ∃ c' : Creation, c'.kind = c.kind ∧ c'.words = vs := by
  have spelled : ∀ v : List Char, (String.ofList v).toList = v := fun _ => String.toList_ofList
  cases c with
  | project id =>
    obtain ⟨v, rfl⟩ := List.length_eq_one_iff.mp length
    exact ⟨project (.ofList v), rfl, by simp [words, components, spelled]⟩
  | task id =>
    obtain ⟨v, rfl⟩ := List.length_eq_one_iff.mp length
    exact ⟨task (.ofList v), rfl, by simp [words, components, spelled]⟩
  | computeJob providerId submissionKey =>
    obtain ⟨v, u, rfl⟩ := List.length_eq_two.mp length
    exact ⟨computeJob (.ofList v) (.ofList u), rfl, by simp [words, components, spelled]⟩
  | artifact producerType producerRefId logicalName sha256 =>
    match vs, length with
    | [t, r, n, d], _ =>
      exact ⟨artifact (.ofList t) (.ofList r) (.ofList n) (.ofList d), rfl,
        by simp [words, components, spelled]⟩
  | verification artifactId =>
    obtain ⟨v, rfl⟩ := List.length_eq_one_iff.mp length
    exact ⟨verification (.ofList v), rfl, by simp [words, components, spelled]⟩

/-- Two creations have the same dedupe key exactly if they regroup. -/
theorem dedupeKey_eq_iff : c.dedupeKey = c'.dedupeKey ↔ c.Regroups c' := by
  rw [← String.toList_inj, dedupeKey_toList, dedupeKey_toList, joined_eq_iff,
    Regroups.cons_iff c.kind_free c'.kind_free, String.toList_inj]
  rfl

/-- Creations of different kinds have different keys. -/
lemma dedupeKey_ne_of_kind (kinds : c.kind ≠ c'.kind) : c.dedupeKey ≠ c'.dedupeKey :=
  fun same => kinds (dedupeKey_eq_iff.mp same).1

/-- Some other creation has the key of a creation exactly if it has several components, one of them
    with a colon. -/
theorem shares_iff :
    (∃ c', c ≠ c' ∧ c.dedupeKey = c'.dedupeKey) ↔
      2 ≤ c.components.length ∧ ∃ component ∈ c.components, ':' ∈ component.toList := by
  have colon : (∃ component ∈ c.components, ':' ∈ component.toList) ↔ ∃ w ∈ c.words, ':' ∈ w := by
    simp [words]
  have length : c.components.length = c.words.length := (List.length_map _).symm
  rw [colon, length, ← exists_regrouped_iff]
  constructor
  · rintro ⟨c', other, same⟩
    obtain ⟨kinds, rg⟩ := dedupeKey_eq_iff.mp same
    refine ⟨c'.words, (length_words kinds).symm, ?_, rg⟩
    intro words
    exact other (ext_words kinds words.symm)
  · rintro ⟨vs, length, other, rg⟩
    obtain ⟨c', kinds, rfl⟩ := c.exists_words length
    refine ⟨c', ?_, dedupeKey_eq_iff.mpr ⟨kinds.symm, rg⟩⟩
    rintro rfl
    exact other rfl

end Creation

end ResearchController
