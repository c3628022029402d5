import ResearchController.Compute.Local.Submission
import ResearchController.Lib.Firsts

/-!
# Collecting from the local provider

Port of `collect` of `compute/local/provider.py`. `Workdir` is what the file system says about the
working directory of a job; a pattern that it rejects makes `glob` raise. The two loops carry the
candidates and the resolved paths that have been seen.

`collect_ok` says without loops what is collected: the fixed files that exist, and of the files that
the patterns match the first one of each resolved path.
-/

namespace ResearchController
open Lib

/-- What the file system says about a working directory: the outputs in `prepared.json`, which paths
    exist and which are regular files, where a path resolves to, what a pattern matches in the order
    of `sorted`, and the digest and the size of a file. -/
structure Workdir where
  prepared : Except PyErr (List OutputSpec)
  present : String → Bool
  isFile : String → Bool
  resolve : String → String
  glob : String → Except PyErr (List String)
  digest : String → String
  size : String → Nat

/-- `path.name`. -/
def fileName (path : String) : String :=
  String.ofList (path.toList.reverse.takeWhile (· ≠ '/')).reverse

/-- The files that every run leaves behind: logical name, file name and kind. -/
def fixedFiles : List (String × String × String) :=
  [ ("run.out", "run.out", "LOG"),
    ("run.error", "run.error", "LOG"),
    ("exit.json", "exit.json", "RUN_EXIT"),
    ("manifest.json", "manifest.json", "RUN_MANIFEST") ]

/-- The candidate of a fixed file. -/
def fixedCandidate (workdir : String) (fixed : String × String × String) : ArtifactCandidate :=
  { logicalName := fixed.1, path := workdir ++ "/" ++ fixed.2.1, artifactKind := fixed.2.2,
    required := true }

/-- The name of a match: that of the output, made unique if the pattern matches more than once. -/
def OutputSpec.matchName (output : OutputSpec) (count index : Nat) (path : String) : String :=
  if count > 1 then
    output.logicalName ++ ":" ++ toString index ++ ":" ++ fileName path
  else
    output.logicalName

/-- The candidate of a match. -/
def OutputSpec.candidate (output : OutputSpec) (count index : Nat) (path : String) :
    ArtifactCandidate :=
  { logicalName := output.matchName count index path, path := path,
    artifactKind := output.artifactKind, required := output.required,
    evidenceCandidate := output.evidenceCandidate,
    metadata := [("source_glob", .str output.glob)] }

/-- The candidates and the resolved paths seen so far. -/
abbrev Collected := List ArtifactCandidate × List String

/-- An iteration over the fixed files. -/
def Workdir.collectFixed (files : Workdir) (workdir : String) (s : Collected)
    (fixed : String × String × String) : Collected :=
  let candidate := fixedCandidate workdir fixed
  if files.present candidate.path then
    (s.1 ++ [candidate], s.2 ++ [files.resolve candidate.path])
  else
    s

/-- An iteration over the matches of an output. -/
def Workdir.collectMatch (files : Workdir) (output : OutputSpec) (count : Nat) (s : Collected)
    (item : String × Nat) : Collected :=
  let (path, index) := item
  -- the index counts the skipped matches as well
  if files.isFile path = false ∨ files.resolve path ∈ s.2 then
    s
  else
    (s.1 ++ [output.candidate count index path], s.2 ++ [files.resolve path])

/-- An iteration over the outputs. -/
def Workdir.collectOutput (files : Workdir) (s : Collected) (output : OutputSpec) :
    Except PyErr Collected := do
  let found ← files.glob output.glob
  return found.zipIdx.foldl (files.collectMatch output found.length) s

/-- `LocalProvider.collect` of a job with this working directory. -/
def LocalProvider.collect (files : Workdir) (view : ComputeJobView) :
    Except PyErr (List ArtifactCandidate) := do
  let outputs ← files.prepared
  let s := fixedFiles.foldl (files.collectFixed view.remoteWorkdir) ([], [])
  let s ← outputs.foldlM files.collectOutput s
  return s.1

/-! ## What is collected -/

/-- The file behind a candidate. -/
def Workdir.target (files : Workdir) (candidate : ArtifactCandidate) : String :=
  files.resolve candidate.path

/-- The fixed files that exist. -/
def Workdir.fixed (files : Workdir) (workdir : String) : List ArtifactCandidate :=
  (fixedFiles.map (fixedCandidate workdir)).filter fun candidate => files.present candidate.path

/-- The files among the matches of an output. -/
def Workdir.matched (files : Workdir) (output : OutputSpec) (found : List String) :
    List ArtifactCandidate :=
  (found.zipIdx.filter fun (path, _) => files.isFile path).map fun (path, index) =>
    output.candidate found.length index path

/-- The files that the outputs match, in the order in which they are looked at. -/
def Workdir.offered (files : Workdir) (outputs : List OutputSpec) : List ArtifactCandidate :=
  outputs.flatMap fun output =>
    match files.glob output.glob with
    | .ok found => files.matched output found
    | .error _ => []

/-- The fixed files, and the first match of every file behind them. -/
def Workdir.collected (files : Workdir) (workdir : String) (outputs : List OutputSpec) :
    List ArtifactCandidate :=
  files.fixed workdir ++
    firsts files.target ((files.fixed workdir).map files.target) (files.offered outputs)

lemma Workdir.foldl_collectFixed (files : Workdir) (workdir : String) (s : Collected)
    (items : List (String × String × String)) :
    items.foldl (files.collectFixed workdir) s =
      let added := (items.map (fixedCandidate workdir)).filter fun candidate =>
        files.present candidate.path
      (s.1 ++ added, s.2 ++ added.map files.target) := by
  induction items generalizing s with
  | nil => simp
  | cons item items ih =>
    rw [List.foldl_cons, ih]
    unfold collectFixed
    cases present : files.present (fixedCandidate workdir item).path with
    | true => simp [present, target]
    | false => simp [present]

lemma Workdir.foldl_collectMatch (files : Workdir) (output : OutputSpec) (count : Nat)
    (s : Collected) (items : List (String × Nat)) :
    items.foldl (files.collectMatch output count) s =
      let added := firsts files.target s.2
        ((items.filter fun (path, _) => files.isFile path).map fun (path, index) =>
          output.candidate count index path)
      (s.1 ++ added, s.2 ++ added.map files.target) := by
  induction items generalizing s with
  | nil => simp [firsts]
  | cons item items ih =>
    obtain ⟨path, index⟩ := item
    rw [List.foldl_cons, ih]
    unfold collectMatch
    have target : files.target (output.candidate count index path) = files.resolve path := rfl
    cases file : files.isFile path with
    | false => simp [file]
    | true =>
      by_cases seen : files.resolve path ∈ s.2
      · simp [file, seen, firsts, target]
      · simp [file, seen, firsts, target]

lemma Workdir.foldlM_collectOutput (files : Workdir) (s s' : Collected)
    (outputs : List OutputSpec) :
    outputs.foldlM files.collectOutput s = .ok s' ↔
      (∀ output ∈ outputs, ∃ found, files.glob output.glob = .ok found) ∧
        let added := firsts files.target s.2 (files.offered outputs)
        s' = (s.1 ++ added, s.2 ++ added.map files.target) := by
  induction outputs generalizing s with
  | nil =>
    simp only [List.foldlM_nil, offered, List.flatMap_nil, firsts, List.map_nil, List.append_nil]
    constructor
    · intro h
      cases h
      exact ⟨fun _ mem => (List.not_mem_nil mem).elim, rfl⟩
    · rintro ⟨_, rfl⟩
      rfl
  | cons output outputs ih =>
    rw [List.foldlM_cons]
    cases found : files.glob output.glob with
    | error e =>
      constructor
      · intro h
        obtain ⟨t, step, _⟩ := bind_ok.mp h
        unfold collectOutput at step
        rw [found] at step
        cases step
      · rintro ⟨matches', _⟩
        obtain ⟨_, ok⟩ := matches' output List.mem_cons_self
        cases found.symm.trans ok
    | ok paths =>
      have step : files.collectOutput s output =
          .ok (paths.zipIdx.foldl (files.collectMatch output paths.length) s) := by
        unfold collectOutput
        rw [found]
        rfl
      have offers : files.offered (output :: outputs) =
          files.matched output paths ++ files.offered outputs := by
        simp only [offered, List.flatMap_cons, found]
      rw [step, foldl_collectMatch, offers, firsts_append]
      show outputs.foldlM files.collectOutput _ = .ok s' ↔ _
      rw [ih]
      simp only [List.forall_mem_cons, found, Except.ok.injEq, exists_eq', true_and, matched,
        List.append_assoc, List.map_append]

/-- What `collect` returns, without its loops. -/
theorem LocalProvider.collect_ok {files : Workdir} {view : ComputeJobView}
    {candidates : List ArtifactCandidate} :
    LocalProvider.collect files view = .ok candidates ↔
      ∃ outputs, files.prepared = .ok outputs ∧
        (∀ output ∈ outputs, ∃ found, files.glob output.glob = .ok found) ∧
        candidates = files.collected view.remoteWorkdir outputs := by
  unfold collect
  rw [bind_ok]
  refine exists_congr fun outputs => and_congr_right fun _ => ?_
  rw [bind_ok]
  simp only [Workdir.foldl_collectFixed, Workdir.foldlM_collectOutput]
  constructor
  · rintro ⟨s, ⟨globs, rfl⟩, e⟩
    cases e
    exact ⟨globs, rfl⟩
  · rintro ⟨globs, rfl⟩
    exact ⟨_, ⟨globs, rfl⟩, rfl⟩

end ResearchController
