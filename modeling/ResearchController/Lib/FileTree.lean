import ResearchController.Lib.Program

/-!
# Files that outlive the power

A file tree in the manner of POSIX: names are entries that lead to inodes, a file that has been
opened is read and written through its inode whatever becomes of its name, and a rename moves an
entry in one step. What a program writes is seen by all others at once, but it is not on the disk
yet. The content of an inode is safe only if nothing was written after the last `fsync` of it, and
the entries may be those of an earlier time, down to the last change of a directory that has been
synchronized: changes of directories reach the disk in the order in which they were made.
`FileTree.Fails` is what a power failure may leave.
-/

namespace ResearchController.Lib

variable {ν δ β ε : Type}

/-- A file tree over names `ν` in directories `δ`. `past` are the entries before each change of a
    directory that may not be on the disk yet, the last change first. -/
structure FileTree (ν δ β : Type) where
  entry : ν → Option Nat := fun _ => none
  inode : Nat → List β := fun _ => []
  synced : Nat → Bool := fun _ => true
  past : List (δ × (ν → Option Nat)) := []
  next : Nat := 0

namespace FileTree

/-- The content of a file. -/
def text (t : FileTree ν δ β) (path : ν) : Option (List β) :=
  (t.entry path).map t.inode

/-- The entries that a power failure may leave. -/
def versions (t : FileTree ν δ β) : List (ν → Option Nat) :=
  t.entry :: t.past.map Prod.snd

/-- The entries change. -/
def relink (t : FileTree ν δ β) (dir : δ) (entry : ν → Option Nat) : FileTree ν δ β :=
  { t with entry := entry, past := (dir, t.entry) :: t.past }

/-- The content of an inode changes. -/
def store (t : FileTree ν δ β) (fd : Nat) (text : List β) : FileTree ν δ β :=
  { t with inode := Function.update t.inode fd text, synced := Function.update t.synced fd false }

/-- A new file. -/
def create [DecidableEq ν] (t : FileTree ν δ β) (dir : δ) (path : ν) : FileTree ν δ β :=
  { t.relink dir (Function.update t.entry path (some t.next)) with next := t.next + 1 }

/-- A file gets the name of another one. -/
def rename [DecidableEq ν] (t : FileTree ν δ β) (dir : δ) (source target : ν) (fd : Nat) :
    FileTree ν δ β :=
  t.relink dir (Function.update (Function.update t.entry source none) target (some fd))

/-- What a power failure may leave of a file tree. -/
structure Fails (t t' : FileTree ν δ β) : Prop where
  entry : t'.entry ∈ t.versions
  inode : ∀ k, t.synced k = true → t'.inode k = t.inode k
  synced : ∀ k, t'.synced k = true
  past : t'.past = []
  next : t'.next = t.next

lemma mem_versions {t : FileTree ν δ β} {entry : ν → Option Nat} :
    entry ∈ t.versions ↔ entry = t.entry ∨ ∃ dir, (dir, entry) ∈ t.past := by
  simp [versions]

lemma entry_mem_versions (t : FileTree ν δ β) : t.entry ∈ t.versions :=
  List.mem_cons_self

lemma store_inode_self (t : FileTree ν δ β) (fd : Nat) (text : List β) :
    (t.store fd text).inode fd = text :=
  Function.update_self _ _ _

lemma store_inode_of_ne (t : FileTree ν δ β) {fd k : Nat} (ne : k ≠ fd) (text : List β) :
    (t.store fd text).inode k = t.inode k :=
  Function.update_of_ne ne _ _

lemma store_synced_of_ne (t : FileTree ν δ β) {fd k : Nat} (ne : k ≠ fd) (text : List β) :
    (t.store fd text).synced k = t.synced k :=
  Function.update_of_ne ne _ _

section Entries

variable [DecidableEq ν] {t : FileTree ν δ β} {dir : δ} {p : ν} {k : Nat}

lemma create_entry_of_ne {path : ν} (ne : p ≠ path) :
    (t.create dir path).entry p = t.entry p :=
  Function.update_of_ne ne _ _

lemma create_entry_self (t : FileTree ν δ β) (dir : δ) (path : ν) :
    (t.create dir path).entry path = some t.next :=
  Function.update_self _ _ _

/-- The entries after a file was created. -/
lemma create_inv {path : ν} (linked : (t.create dir path).entry p = some k) :
    p ≠ path ∧ t.entry p = some k ∨ p = path ∧ k = t.next := by
  rcases eq_or_ne p path with rfl | ne
  · rw [t.create_entry_self dir] at linked
    cases linked
    exact .inr ⟨rfl, rfl⟩
  · rw [create_entry_of_ne ne] at linked
    exact .inl ⟨ne, linked⟩

lemma rename_entry_target (source target : ν) (fd : Nat) :
    (t.rename dir source target fd).entry target = some fd :=
  Function.update_self _ _ _

lemma rename_entry_of_ne {source target : ν} (ne : p ≠ source) (ne' : p ≠ target) (fd : Nat) :
    (t.rename dir source target fd).entry p = t.entry p :=
  (Function.update_of_ne ne' _ _).trans (Function.update_of_ne ne _ _)

lemma rename_entry_source {source target : ν} (ne : source ≠ target) (fd : Nat) :
    (t.rename dir source target fd).entry source = none :=
  (Function.update_of_ne ne _ _).trans (Function.update_self _ _ _)

/-- The entries after a file was renamed. -/
lemma rename_inv {source target : ν} {fd : Nat}
    (linked : (t.rename dir source target fd).entry p = some k) :
    p = target ∧ k = fd ∨ p ≠ target ∧ p ≠ source ∧ t.entry p = some k := by
  rcases eq_or_ne p target with rfl | ne
  · rw [rename_entry_target] at linked
    cases linked
    exact .inl ⟨rfl, rfl⟩
  · rcases eq_or_ne p source with rfl | ne'
    · rw [rename_entry_source ne] at linked
      cases linked
    · rw [rename_entry_of_ne ne' ne] at linked
      exact .inr ⟨ne, ne', linked⟩

end Entries

end FileTree

/-- A system call. -/
inductive FileEffect (ν δ β : Type) where
  | pathExists (path : ν)
  | openWrite (path : ν)
  | openRead (path : ν)
  | size (fd : Nat)
  | read (fd offset : Nat)
  | write (fd : Nat) (chunk : List β)
  | fsync (fd : Nat)
  | replace (source target : ν)
  | fsyncDir (dir : δ)

/-- What a system call is answered with. -/
def FileEffect.Answer (ε : Type) : FileEffect ν δ β → Type
  | .pathExists _ => Bool
  | .openWrite _ => Except ε Nat
  | .openRead _ => Except ε Nat
  | .size _ => Except ε Nat
  | .read _ _ => Except ε (List β)
  | .write _ _ => Except ε Unit
  | .fsync _ => Except ε Unit
  | .replace _ _ => Except ε Unit
  | .fsyncDir _ => Except ε Unit

/-- What the surroundings contribute to a call: an error, and how much of a file one call reads or
    one that fails writes. -/
structure FileOutcome (ε : Type) where
  fault : Option ε := none
  count : Nat := 0

/-- A program over system calls. -/
abbrev FileProgram (ν δ β ε α : Type) := Program (FileEffect ν δ β) (FileEffect.Answer ε) ε α

section Handle

variable [DecidableEq ν] [DecidableEq δ] (dir : ν → δ) (notFound : ν → ε)

/-- A call that fails changes nothing, except that a write may have written something. -/
def FileTree.failing (t : FileTree ν δ β) (e : ε) (count : Nat) :
    (c : FileEffect ν δ β) → FileTree ν δ β × c.Answer ε
  | .pathExists path => (t, (t.entry path).isSome)
  | .openWrite _ => (t, .error e)
  | .openRead _ => (t, .error e)
  | .size _ => (t, .error e)
  | .read _ _ => (t, .error e)
  | .write fd chunk => (t.store fd (t.inode fd ++ chunk.take count), .error e)
  | .fsync _ => (t, .error e)
  | .replace _ _ => (t, .error e)
  | .fsyncDir _ => (t, .error e)

/-- What a call does that does not fail. -/
def FileTree.call (t : FileTree ν δ β) (count : Nat) :
    (c : FileEffect ν δ β) → FileTree ν δ β × c.Answer ε
  | .pathExists path => (t, (t.entry path).isSome)
  | .openWrite path =>
    match t.entry path with
    | some fd => (t.store fd [], .ok fd)
    | none =>
      ((t.create (dir path) path).store t.next [], .ok t.next)
  | .openRead path =>
    match t.entry path with
    | some fd => (t, .ok fd)
    | none => (t, .error (notFound path))
  | .size fd => (t, .ok (t.inode fd).length)
  | .read fd offset => (t, .ok (((t.inode fd).drop offset).take (count + 1)))
  | .write fd chunk => (t.store fd (t.inode fd ++ chunk), .ok ())
  | .fsync fd => ({ t with synced := Function.update t.synced fd true }, .ok ())
  | .replace source target =>
    match t.entry source with
    | some fd =>
      (t.rename (dir target) source target fd, .ok ())
    | none => (t, .error (notFound source))
  | .fsyncDir d => ({ t with past := t.past.takeWhile fun change => change.1 ≠ d }, .ok ())

/-- The machine of the system calls. -/
def fileMachine :
    Machine (FileTree ν δ β) (FileEffect ν δ β) (FileEffect.Answer ε) (FileOutcome ε) Empty where
  handle t c o :=
    match o.fault with
    | some e => t.failing e o.count c
    | none => t.call dir notFound o.count c
  drift _ w := nomatch w

end Handle

/-! ## The two programs -/

/-- Hand a text to a file, chunk by chunk. -/
def writeChunks (fd : Nat) : List (List β) → FileProgram ν δ β ε Unit
  | [] => return ()
  | chunk :: rest => do
    let written ← Program.call (FileEffect.write fd chunk)
    Program.check written
    writeChunks fd rest

/-- Write a text to a new file and make sure that it is on the disk. -/
def writeSynced (path : ν) (chunks : List (List β)) : FileProgram ν δ β ε Unit := do
  let opened ← Program.call (FileEffect.openWrite path)
  let fd ← Program.check opened
  writeChunks fd chunks
  let synced ← Program.call (FileEffect.fsync fd)
  Program.check synced

/-- Write a text to a temporary file and put it in the place of another one. -/
def writeBy (temporary path : ν) (chunks : List (List β)) : FileProgram ν δ β ε Unit := do
  writeSynced temporary chunks
  let replaced ← Program.call (FileEffect.replace temporary path)
  Program.check replaced

/-- Read on until the end of the file, at most as often as it has bytes. -/
def readRest (fd : Nat) : Nat → List β → FileProgram ν δ β ε (List β)
  | 0, text => return text
  | fuel + 1, text => do
    let got ← Program.call (FileEffect.read fd text.length)
    let chunk ← Program.check got
    if chunk.isEmpty then return text else readRest fd fuel (text ++ chunk)

/-- Open a file and read all of it. -/
def readAll (path : ν) : FileProgram ν δ β ε (List β) := do
  let opened ← Program.call (FileEffect.openRead path)
  let fd ← Program.check opened
  let sized ← Program.call (FileEffect.size fd)
  let size ← Program.check sized
  readRest fd (size + 1) []

end ResearchController.Lib
