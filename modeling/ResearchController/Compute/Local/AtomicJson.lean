import ResearchController.Compute.Local.Submission
import ResearchController.Lib.Shelf

/-!
# Records as files

Port of `_atomic_json` and `_load_json` of `compute/local/provider.py` and of `atomic_json` of
`runner/__main__.py`, as programs over system calls. The two writers differ in one call: the runner
synchronizes the directory after the replacement, the provider does not.

The text of an object arrives in the file in some number of writes (`json.dump` into a buffered
handle), and a reader takes it out in some number of reads. The names of the temporary files are
those of the source, so that two processes can never share one (`temporaryJson_inj`). Left out are
the directories that are created on the way and the closing of the handles.
-/

namespace ResearchController
open Lib

/-! ## Paths -/

/-- `path.parent`, with the slash behind it. -/
def pathParent (path : String) : String :=
  String.ofList (path.toList.rdropWhile (· ≠ '/'))

/-- `path.name`. -/
def pathName (path : String) : String :=
  String.ofList (path.toList.rtakeWhile (· ≠ '/'))

/-- `f".{path.name}.{os.getpid()}.tmp"`. -/
def temporaryJsonName (pid : Nat) (path : String) : String :=
  "." ++ pathName path ++ "." ++ toString pid ++ ".tmp"

/-- `path.with_name` of it. -/
def temporaryJson (pid : Nat) (path : String) : String :=
  pathParent path ++ temporaryJsonName pid path

/-- What follows the last separator. -/
lemma rtakeWhile_separator {c : Char} {a b : List Char} (hb : c ∉ b) :
    (a ++ c :: b).rtakeWhile (· ≠ c) = b := by
  have only : ∀ x ∈ b.reverse, decide (x ≠ c) = true := by
    intro x mem
    rw [decide_eq_true_iff]
    rintro rfl
    exact hb (List.mem_reverse.mp mem)
  rw [List.rtakeWhile, List.reverse_append, List.reverse_cons, List.append_assoc,
    List.takeWhile_append_of_pos only]
  simp

lemma append_separator_inj {c : Char} {a b a' b' : List Char} (hb : c ∉ b) (hb' : c ∉ b')
    (same : a ++ c :: b = a' ++ c :: b') : a = a' ∧ b = b' := by
  have last : b = b' := by
    rw [← rtakeWhile_separator (a := a) hb, same, rtakeWhile_separator hb']
  subst last
  exact ⟨List.append_cancel_right same, rfl⟩

/-- A directory with another name in it. -/
lemma pathName_parent_append (path : String) {name : List Char} (plain : '/' ∉ name) :
    ((pathParent path).toList ++ name).rtakeWhile (· ≠ '/') = name := by
  have only : ∀ x ∈ name.reverse, decide (x ≠ '/') = true := by
    intro x mem
    rw [decide_eq_true_iff]
    rintro rfl
    exact plain (List.mem_reverse.mp mem)
  have none : (path.toList.reverse.dropWhile (· ≠ '/')).takeWhile (· ≠ '/') = [] :=
    List.takeWhile_eq_nil_iff.mpr (List.dropWhile_get_zero_not _ _)
  rw [pathParent, String.toList_ofList, List.rtakeWhile, List.rdropWhile, List.reverse_append,
    List.reverse_reverse, List.takeWhile_append_of_pos only, none, List.append_nil,
    List.reverse_reverse]

lemma pathParent_append_pathName (path : String) : pathParent path ++ pathName path = path := by
  rw [pathParent, pathName, ← String.ofList_append, List.rdropWhile_append_rtakeWhile,
    String.ofList_toList]

lemma digits_plain (pid : Nat) {c : Char} (other : c.isDigit = false) :
    c ∉ (toString pid).toList := by
  intro mem
  rw [Nat.toString_eq_repr, Nat.toList_repr] at mem
  have digit := Nat.isDigit_of_mem_toDigits (by decide) (by decide) mem
  rw [other] at digit
  cases digit

lemma pathName_plain (path : String) : '/' ∉ (pathName path).toList := by
  intro mem
  rw [pathName, String.toList_ofList] at mem
  have ne := List.mem_rtakeWhile_imp mem
  simp at ne

lemma temporaryJsonName_plain (pid : Nat) (path : String) :
    '/' ∉ (temporaryJsonName pid path).toList := by
  simp only [temporaryJsonName, String.toList_append, List.mem_append, not_or]
  exact ⟨⟨⟨⟨by decide, pathName_plain path⟩, by decide⟩, digits_plain pid (by decide)⟩, by decide⟩

/-- The name tells the process, and the name of the file that it is for. -/
lemma temporaryJsonName_inj {pid pid' : Nat} {path path' : String}
    (same : temporaryJsonName pid path = temporaryJsonName pid' path') :
    pid = pid' ∧ pathName path = pathName path' := by
  have chars := congrArg String.toList same
  simp only [temporaryJsonName, String.toList_append] at chars
  have inner := List.append_cancel_right chars
  have dot : ".".toList = ['.'] := by decide
  rw [dot, List.append_assoc, List.append_assoc, List.append_assoc, List.append_assoc,
    List.singleton_append, List.singleton_append, List.singleton_append, List.singleton_append,
    List.cons.injEq] at inner
  obtain ⟨name, digits⟩ := append_separator_inj (digits_plain pid (by decide))
    (digits_plain pid' (by decide)) inner.2
  exact ⟨Nat.repr_injective (String.toList_injective digits), String.toList_injective name⟩

/-- Two processes never share a temporary file, and neither do two records. -/
lemma temporaryJson_inj {pid pid' : Nat} {path path' : String}
    (same : temporaryJson pid path = temporaryJson pid' path') : pid = pid' ∧ path = path' := by
  have chars := congrArg String.toList same
  simp only [temporaryJson, String.toList_append] at chars
  have names := congrArg (List.rtakeWhile (· ≠ '/')) chars
  rw [pathName_parent_append path (temporaryJsonName_plain pid path),
    pathName_parent_append path' (temporaryJsonName_plain pid' path')] at names
  rw [names] at chars
  have parents := String.toList_injective (List.append_cancel_right chars)
  obtain ⟨pids, name⟩ := temporaryJsonName_inj (String.toList_injective names)
  refine ⟨pids, ?_⟩
  rw [← pathParent_append_pathName path, ← pathParent_append_pathName path', parents, name]

/-- A path of a JSON file. -/
def IsJsonPath (path : String) : Prop :=
  ".json".toList <:+ path.toList

lemma temporaryJson_ne {pid : Nat} {path path' : String} (json : IsJsonPath path') :
    temporaryJson pid path ≠ path' := by
  rintro rfl
  obtain ⟨front, whole⟩ := json
  simp only [temporaryJson, temporaryJsonName, String.toList_append] at whole
  have lasts := congrArg (List.take 4 ∘ List.reverse) whole
  simp at lasts

/-- The JSON files, and the temporary file of each process for each of them. -/
def jsonFiles : Scratch Nat String where
  temp := temporaryJson
  record := IsJsonPath
  temp_inj := temporaryJson_inj
  temp_ne := temporaryJson_ne

/-! ## The programs -/

/-- A program over the system calls on files of bytes. -/
abbrev FileCalls := FileProgram String String UInt8 PyErr

/-- `_atomic_json` of the provider. The object arrives in the file as `chunks`. -/
def LocalProvider.atomicJson (pid : Nat) (path : String) (chunks : List (List UInt8)) :
    FileCalls Unit :=
  writeBy (temporaryJson pid path) path chunks

/-- `atomic_json` of the runner. -/
def Runner.atomicJson (pid : Nat) (path : String) (chunks : List (List UInt8)) :
    FileCalls Unit := do
  LocalProvider.atomicJson pid path chunks
  let synced ← Program.call (FileEffect.fsyncDir (pathParent path))
  Program.check synced

/-- `_load_json`, with `json.load` as an argument. -/
def LocalProvider.loadJson (load : List UInt8 → Except PyErr Json) (path : String) :
    FileCalls JsonObject := do
  let text ← readAll path
  let value ← Program.check (load text)
  match value with
  | .dict object => return object
  | _ => Program.raise (.valueError s!"expected object in {path}")

end ResearchController
