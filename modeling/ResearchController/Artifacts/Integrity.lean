import ResearchController.Artifacts.Blobs
import ResearchController.Lib.Ghost

/-!
# Content-addressed integrity

A file under the path of a digest has this digest, is never replaced by another content, and every
committed row has its blob (`StoreWorld.Sound`, `store_integrity`). Both hold at every moment of a
run: a source file may be written to while it is hashed and copied, and a crash or an exception may
strike anywhere. The reason is that only a complete copy whose digest has been checked gets the path
of a blob, and that no row is added before.

`Triple` is a Hoare triple for programs of the store, over the contract that keeps this invariant at
every effect. A ghost collects the blobs that have been there; the invariant says that they still
are.
-/

namespace ResearchController
open Lib

/-! ## Paths -/

/-- A list is cut at its last separator in one way only. -/
lemma cut_last {α : Type} {sep : α} {a a' d d' : List α} (e : a ++ sep :: d = a' ++ sep :: d')
    (free : sep ∉ d) (free' : sep ∉ d') : d = d' := by
  rcases List.append_eq_append_iff.mp e with ⟨t, _, e⟩ | ⟨t, _, e⟩
  · cases t with
    | nil => exact (List.cons.inj e).2
    | cons x t =>
      obtain ⟨rfl, rfl⟩ := List.cons.inj e
      exact (free (List.mem_append_right _ List.mem_cons_self)).elim
  · cases t with
    | nil => exact (List.cons.inj e).2.symm
    | cons x t =>
      obtain ⟨rfl, rfl⟩ := List.cons.inj e
      exact (free' (List.mem_append_right _ List.mem_cons_self)).elim

lemma IsHex.noSlash {digest : String} (hex : IsHex digest) : '/' ∉ digest.toList := by
  intro mem
  have digit := hex _ mem
  revert digit
  decide

variable {root projectId projectId' digest digest' path : String}

/-- The digest is what follows the last slash. -/
lemma blobPath_toList (root projectId digest : String) :
    ∃ directory, (blobPath root projectId digest).toList = directory ++ '/' :: digest.toList := by
  refine ⟨(root ++ "/" ++ projectId ++ "/artifacts/sha256/" ++
    String.ofList (digest.toList.take 2)).toList, ?_⟩
  unfold blobPath
  rw [String.toList_append, String.toList_append, List.append_assoc]
  rfl

/-- A path belongs to one digest. -/
lemma blobPath_injective (hex : IsHex digest) (hex' : IsHex digest')
    (e : blobPath root projectId digest = blobPath root projectId' digest') : digest = digest' := by
  obtain ⟨directory, shape⟩ := blobPath_toList root projectId digest
  obtain ⟨directory', shape'⟩ := blobPath_toList root projectId' digest'
  rw [e, shape'] at shape
  exact String.toList_injective (cut_last shape.symm hex.noSlash hex'.noSlash)

/-- A copy that is not complete does not have the path of a blob. -/
lemma blobPath_ne_temporaryPath {pid : Nat} (hex : IsHex digest) :
    blobPath root projectId digest ≠ temporaryPath root projectId' digest' pid := by
  intro e
  obtain ⟨directory, shape⟩ := blobPath_toList root projectId digest
  have last : (temporaryPath root projectId' digest' pid).toList.getLast? = some 'p' := by
    unfold temporaryPath
    rw [String.toList_append, List.getLast?_append]
    rfl
  rw [← e, shape, List.getLast?_append_of_ne_nil _ (List.cons_ne_nil _ _)] at last
  rcases List.mem_cons.mp (List.mem_of_getLast? last) with no | digit
  · revert no
    decide
  · have digit := hex _ digit
    revert digit
    decide

lemma blobPath_below (root projectId digest : String) :
    BelowArtifacts root (blobPath root projectId digest) := by
  refine ⟨projectId, "sha256/" ++ String.ofList (digest.toList.take 2) ++ "/" ++ digest, ?_⟩
  have directory : "/artifacts/sha256/" = "/artifacts/" ++ "sha256/" := rfl
  unfold blobPath
  rw [directory]
  simp only [String.append_assoc]

lemma temporaryPath_below (root projectId digest : String) (pid : Nat) :
    BelowArtifacts root (temporaryPath root projectId digest pid) := by
  refine ⟨projectId, "sha256/" ++ String.ofList (digest.toList.take 2) ++ "/." ++ digest ++ "." ++
    toString pid ++ ".tmp", ?_⟩
  have directory : "/artifacts/sha256/" = "/artifacts/" ++ "sha256/" := rfl
  unfold temporaryPath
  rw [directory]
  simp only [String.append_assoc]

/-! ## The invariant -/

/-- The path of some digest. -/
def IsBlob (root path : String) : Prop :=
  ∃ projectId digest, IsHex digest ∧ path = blobPath root projectId digest

/-- The blob of a row is there, with the digest and the size of the row. -/
structure Artifact.BackedBy (x : Artifact) (sha : Sha256) (root : String) (files : Files) :
    Prop where
  path : IsBlob root x.uri
  blob : ∃ content, files x.uri = some content ∧ sha.hexdigest content = x.sha256 ∧
    content.length = x.sizeBytes

/-- Every row has its blob. -/
def Db.Backed (db : Db) (sha : Sha256) (root : String) (files : Files) : Prop :=
  ∀ i x, db.artifacts.get i = some x → x.BackedBy sha root files

/-- Every file under the path of a digest has this digest, and every committed row has its blob. -/
structure StoreWorld.Sound (w : StoreWorld) (sha : Sha256) (root : String) : Prop where
  blobs : ∀ projectId digest content, IsHex digest →
    w.files (blobPath root projectId digest) = some content → sha.hexdigest content = digest
  rows : w.db.Backed sha root w.files

/-- No blob is replaced or removed. -/
def Files.KeepsBlobs (root : String) (files files' : Files) : Prop :=
  ∀ path content, IsBlob root path → files path = some content → files' path = some content

/-- Nothing below the `artifacts` directories differs. -/
def Files.Agree (root : String) (files files' : Files) : Prop :=
  ∀ path, BelowArtifacts root path → files' path = files path

variable {sha : Sha256} {files files' : Files} {db : Db} {w w' : StoreWorld}

lemma IsBlob.below (blob : IsBlob root path) : BelowArtifacts root path := by
  obtain ⟨projectId, digest, _, rfl⟩ := blob
  exact blobPath_below root projectId digest

/-- A file that is not a blob is written or removed. -/
lemma Files.keepsBlobs_update (other : ¬ IsBlob root path) (files : Files)
    (content : Option Bytes) : files.KeepsBlobs root (Function.update files path content) := by
  intro path' content' blob there
  have ne : path' ≠ path := by
    rintro rfl
    exact other blob
  rw [Function.update_of_ne ne]
  exact there

lemma temporaryPath_notBlob (root projectId digest : String) (pid : Nat) :
    ¬ IsBlob root (temporaryPath root projectId digest pid) := by
  rintro ⟨projectId', digest', hex, e⟩
  exact blobPath_ne_temporaryPath hex e.symm

lemma ForeignWrite.agree (f : ForeignWrite root) (files : Files) :
    files.Agree root (Function.update files f.path f.content) := by
  intro path below
  apply Function.update_of_ne
  rintro rfl
  exact f.outside below

lemma Files.Agree.keepsBlobs (same : files.Agree root files') : files.KeepsBlobs root files' := by
  intro path content blob there
  rw [same path blob.below]
  exact there

lemma Db.Backed.keeps (backed : db.Backed sha root files) (kept : files.KeepsBlobs root files') :
    db.Backed sha root files' := by
  intro i x hx
  obtain ⟨path, content, there, digest, length⟩ := backed i x hx
  exact ⟨path, content, kept _ _ path there, digest, length⟩

/-- The world after a file that is not a blob has been written or removed. -/
lemma StoreWorld.Sound.update (sd : w.Sound sha root) (other : ¬ IsBlob root path)
    (content : Option Bytes) :
    ({ w with files := Function.update w.files path content } : StoreWorld).Sound sha root := by
  refine ⟨?_, sd.rows.keeps (Files.keepsBlobs_update other w.files content)⟩
  intro projectId digest content' hex there
  have ne : blobPath root projectId digest ≠ path := by
    rintro rfl
    exact other ⟨projectId, digest, hex, rfl⟩
  simp only [Function.update_of_ne ne] at there
  exact sd.blobs projectId digest content' hex there

/-! ## Triples -/

/-- The blobs that have been there. -/
abbrev BlobGhost := String → Bytes → Prop

/-- The ghost notes what the files are after each step. -/
def blobGhost (root : String) :
    Ghost StoreWorld StoreEffect StoreAnswer (ForeignWrite root) BlobGhost where
  note g w e o := fun path content =>
    g path content ∨ ((storeMachine root).handle w e o).1.files path = some content
  noteDrift g w f := fun path content =>
    g path content ∨ Function.update w.files f.path f.content path = some content

/-- The store with the ghost. -/
abbrev watchedStore (root : String) := (storeMachine root).withGhost (blobGhost root)

/-- The invariant: the store is sound, and the blobs that have been there still are. -/
structure StoreInvariant (sha : Sha256) (root : String) (s : StoreWorld × BlobGhost) : Prop where
  sound : s.1.Sound sha root
  kept : ∀ path content, IsBlob root path → (s.2 path content ↔ s.1.files path = some content)

/-- The contract: the invariant holds at every effect. -/
def storeContract (sha : Sha256) (root : String) :
    Contract (StoreWorld × BlobGhost) StoreEffect (ForeignWrite root) PyErr (List String) where
  rest := StoreInvariant sha root

/-- From a world with `Q` the program keeps the invariant, and ends with `Q'` if it returns. -/
def Triple (sha : Sha256) (root : String) {α : Type} (Q : StoreWorld → Prop) (program : Storing α)
    (Q' : α → StoreWorld → Prop) : Prop :=
  ∀ s, StoreInvariant sha root s → Q s.1 →
    program.Safe (watchedStore root) (storeContract sha root)
      (fun r s' => StoreInvariant sha root s' ∧ ∀ a, r = .ok a → Q' a s'.1) s

/-- An assertion that the surroundings do not break. -/
def StoreStable (root : String) (Q : StoreWorld → Prop) : Prop :=
  ∀ w (f : ForeignWrite root), Q w →
    Q { w with files := Function.update w.files f.path f.content }

namespace Triple

variable {α β : Type} {Q Q0 : StoreWorld → Prop} {R : α → StoreWorld → Prop}
  {T : β → StoreWorld → Prop}

lemma ret {a : α} (holds : ∀ w, Q w → R a w) : Triple sha root Q (pure a) R := by
  intro s inv hq
  refine ⟨inv, ?_⟩
  intro a' e
  cases e
  exact holds s.1 hq

lemma raise {e : PyErr} : Triple sha root Q (Program.raise e : Storing α) R := by
  intro s inv _
  refine ⟨inv, ?_⟩
  intro a no
  cases no

lemma bind {program : Storing α} {f : α → Storing β} (first : Triple sha root Q program R)
    (rest : ∀ a, Triple sha root (R a) (f a) T) : Triple sha root Q (program >>= f) T := by
  intro s inv hq
  apply Program.Safe.bind (first s inv hq)
  · rintro a s' ⟨inv', holds⟩
    exact rest a s' inv' (holds a rfl)
  · rintro e s' ⟨inv', _⟩
    refine ⟨inv', ?_⟩
    intro a no
    cases no

lemma pre {program : Storing α} (weaker : ∀ w, Q0 w → Q w) (h : Triple sha root Q program R) :
    Triple sha root Q0 program R :=
  fun s inv hq => h s inv (weaker s.1 hq)

lemma post {R0 : α → StoreWorld → Prop} {program : Storing α}
    (weaker : ∀ a w, R0 a w → R a w) (h : Triple sha root Q program R0) :
    Triple sha root Q program R := by
  intro s inv hq
  refine (h s inv hq).mono ?_
  rintro r s' ⟨inv', holds⟩
  exact ⟨inv', fun a returned => weaker a s'.1 (holds a returned)⟩

lemma check {x : Except PyErr α} (holds : ∀ a w, x = .ok a → Q w → R a w) :
    Triple sha root Q (Program.check x) R := by
  cases x with
  | ok a => exact ret fun w hq => holds a w rfl hq
  | error e => exact raise

/-- The invariant is kept by what keeps the store sound and its blobs. -/
lemma invariant_next {s : StoreWorld × BlobGhost} (inv : StoreInvariant sha root s) {w : StoreWorld}
    (sound : w.Sound sha root) (kept : s.1.files.KeepsBlobs root w.files) :
    StoreInvariant sha root
      (w, fun path content => s.2 path content ∨ w.files path = some content) := by
  refine ⟨sound, ?_⟩
  intro path content blob
  constructor
  · rintro (old | new)
    · exact kept path content blob ((inv.kept path content blob).mp old)
    · exact new
  · exact Or.inr

/-- The surroundings keep the invariant and stable assertions. -/
lemma foreign {s : StoreWorld × BlobGhost} (inv : StoreInvariant sha root s)
    (f : ForeignWrite root) :
    StoreInvariant sha root
      ({ s.1 with files := Function.update s.1.files f.path f.content },
        (blobGhost root).noteDrift s.2 s.1 f) := by
  have kept := (f.agree s.1.files).keepsBlobs
  refine invariant_next inv ⟨?_, inv.sound.rows.keeps kept⟩ kept
  intro projectId digest content hex there
  have there := (f.agree s.1.files _ (blobPath_below root projectId digest)).symm.trans there
  exact inv.sound.blobs projectId digest content hex there

/-- An effect whose answer is looked at later. -/
lemma call {e : StoreEffect} {R : e.Answer → StoreWorld → Prop} (stable : StoreStable root Q)
    (act : ∀ w o, w.Sound sha root → Q w → (w.act o e).1.Sound sha root ∧
      w.files.KeepsBlobs root (w.act o e).1.files ∧ R (w.act o e).2 (w.act o e).1)
    (fault : ∀ w err, Q w → R (.error err) w) :
    Triple sha root Q (Program.call e) R := by
  intro s inv hq
  refine ⟨fun s => StoreInvariant sha root s ∧ Q s.1, ⟨inv, hq⟩, ?_, ?_⟩
  · rintro s f s' ⟨inv, hq⟩ _ moved
    cases moved
    exact ⟨foreign inv f, stable s.1 f hq⟩
  · rintro s ⟨inv, hq⟩
    refine ⟨inv, fun _ => inv, ?_⟩
    intro o
    have handled : ((storeMachine root).handle s.1 e o).1.Sound sha root ∧
        s.1.files.KeepsBlobs root ((storeMachine root).handle s.1 e o).1.files ∧
        R ((storeMachine root).handle s.1 e o).2 ((storeMachine root).handle s.1 e o).1 := by
      simp only [storeMachine]
      split
      · exact ⟨inv.sound, fun _ _ _ there => there, fault s.1 _ hq⟩
      · exact act s.1 o inv.sound hq
    obtain ⟨sound, kept, holds⟩ := handled
    refine ⟨invariant_next inv sound kept, ?_⟩
    intro a same
    cases same
    exact holds

/-- An effect whose exception goes on to the caller. -/
lemma perform {e : StoreEffect} {R : e.Value → StoreWorld → Prop} (stable : StoreStable root Q)
    (act : ∀ w o, w.Sound sha root → Q w → (w.act o e).1.Sound sha root ∧
      w.files.KeepsBlobs root (w.act o e).1.files ∧
      ∀ v, (w.act o e).2 = .ok v → R v (w.act o e).1) :
    Triple sha root Q (Storing.perform e) R := by
  refine bind (R := fun answer w => ∀ v, answer = .ok v → R v w) (call stable act ?_) ?_
  · intro w err _ v no
    cases no
  · intro answer
    exact check fun v w returned holds => holds v returned

/-- An effect that changes nothing. -/
lemma observe {e : StoreEffect} {R : e.Value → StoreWorld → Prop} (stable : StoreStable root Q)
    (same : ∀ (w : StoreWorld) o, (w.act o e).1 = w)
    (answer : ∀ (w : StoreWorld) o v, Q w → (w.act o e).2 = .ok v → R v w) :
    Triple sha root Q (Storing.perform e) R := by
  refine perform stable ?_
  intro w o sound hq
  rw [same]
  exact ⟨sound, fun _ _ _ there => there, fun v returned => answer w o v hq returned⟩

/-- An effect that writes or removes a file that is not a blob. -/
lemma write {e : StoreEffect} {path : String} (content : StoreWorld → Option Bytes)
    {R : e.Value → StoreWorld → Prop} (stable : StoreStable root Q) (other : ¬ IsBlob root path)
    (act : ∀ (w : StoreWorld) o, Q w → (∃ err, w.act o e = (w, .error err)) ∨
      (w.act o e).1 = { w with files := Function.update w.files path (content w) } ∧
        ∀ v, R v { w with files := Function.update w.files path (content w) }) :
    Triple sha root Q (Storing.perform e) R := by
  refine perform stable ?_
  intro w o sound hq
  rcases act w o hq with ⟨err, raised⟩ | ⟨next, holds⟩
  · rw [raised]
    refine ⟨sound, fun _ _ _ there => there, ?_⟩
    intro v no
    cases no
  · rw [next]
    exact ⟨sound.update other _, Files.keepsBlobs_update other w.files _, fun v _ => holds v⟩

/-- A fact about the world is taken out of an assertion. -/
lemma exists_ {ι : Type} {Q : ι → StoreWorld → Prop} {program : Storing α}
    (each : ∀ i, Triple sha root (Q i) program R) :
    Triple sha root (fun w => ∃ i, Q i w) program R := by
  rintro s inv ⟨i, hq⟩
  exact each i s inv hq

end Triple

/-! ## Files -/

/-- The rows of the session have their blobs, and the files satisfy `Q`. -/
def InSession (sha : Sha256) (root : String) (Q : Files → Prop) (w : StoreWorld) : Prop :=
  w.session.Backed sha root w.files ∧ Q w.files

/-- An assertion about files below the `artifacts` directories. -/
def FilesLocal (root : String) (Q : Files → Prop) : Prop :=
  ∀ files files' : Files, files.Agree root files' → Q files → Q files'

variable {Q : Files → Prop}

lemma InSession.stable (local_ : FilesLocal root Q) : StoreStable root (InSession sha root Q) := by
  rintro w f ⟨backed, hq⟩
  have same := f.agree w.files
  exact ⟨backed.keeps same.keepsBlobs, local_ _ _ same hq⟩

/-- The assertion after a file that is not a blob has been written or removed. -/
lemma InSession.update {Q' : Files → Prop} (h : InSession sha root Q w)
    (other : ¬ IsBlob root path) {content : Option Bytes}
    (holds : Q w.files → Q' (Function.update w.files path content)) :
    InSession sha root Q' { w with files := Function.update w.files path content } :=
  ⟨h.1.keeps (Files.keepsBlobs_update other w.files content), holds h.2⟩

/-- The loop of `sha256_file` under an invariant of what has been read. -/
lemma triple_sha256File {P : StoreWorld → Prop} {S F : Bytes → Prop} {limit : ℕ}
    (stable : StoreStable root P) (start : S [])
    (more : ∀ w content n, P w → S content →
      S (content ++ (((w.files path).getD []).drop content.length).take n))
    (done : ∀ w content n, P w → S content →
      (((w.files path).getD []).drop content.length).take (n + 1) = [] → F content) :
    Triple sha root P (sha256File sha limit path)
      (fun digest w => (∃ content, F content ∧ digest = sha.hexdigest content) ∧ P w) := by
  have loop : ∀ content, S content → Triple sha root P (sha256Loop sha path limit content)
      (fun digest w => (∃ content, F content ∧ digest = sha.hexdigest content) ∧ P w) := by
    induction limit with
    | zero => exact fun _ _ => Triple.raise
    | succ limit ih =>
      intro content hs
      refine Triple.bind (R := fun chunk w =>
        ((chunk = [] → F content) ∧ S (content ++ chunk)) ∧ P w)
        (Triple.observe stable (fun _ _ => rfl) ?_) ?_
      · intro w o v hp returned
        cases returned
        exact ⟨⟨done w content o.more hp hs, more w content (o.more + 1) hp hs⟩, hp⟩
      · intro chunk
        by_cases ended : chunk = []
        · rw [if_pos ended]
          exact Triple.ret fun w hw => ⟨⟨content, hw.1.1 ended, rfl⟩, hw.2⟩
        · rw [if_neg ended]
          rintro s inv ⟨⟨_, hs'⟩, hp⟩
          exact ih _ hs' s inv hp
  exact Triple.bind (Triple.observe (R := fun _ => P) stable (fun _ _ => rfl) fun _ _ _ hp _ => hp)
    fun _ => loop [] start

/-- Hashing a file that changes gives some digest. -/
lemma triple_sha256File_source {limit : ℕ} (local_ : FilesLocal root Q) :
    Triple sha root (InSession sha root Q) (sha256File sha limit path)
      (fun digest w => IsHex digest ∧ InSession sha root Q w) := by
  refine Triple.post ?_ (triple_sha256File (S := fun _ => True) (F := fun _ => True)
    (InSession.stable local_) trivial (fun _ _ _ _ _ => trivial) (fun _ _ _ _ _ _ => trivial))
  rintro digest w ⟨⟨content, _, rfl⟩, hq⟩
  exact ⟨sha.hex content, hq⟩

/-- Hashing a file of the store gives the digest of its content. -/
lemma triple_sha256File_stored {limit : ℕ} {content : Bytes} (local_ : FilesLocal root Q)
    (there : ∀ files, Q files → files path = some content) :
    Triple sha root (InSession sha root Q) (sha256File sha limit path)
      (fun digest w => digest = sha.hexdigest content ∧ InSession sha root Q w) := by
  have read : ∀ w, InSession sha root Q w → (w.files path).getD [] = content := by
    intro w h
    rw [there _ h.2]
    rfl
  refine Triple.post ?_ (triple_sha256File (S := (· <+: content)) (F := (· = content))
    (InSession.stable local_) List.nil_prefix ?_ ?_)
  · rintro digest w ⟨⟨content', rfl, e⟩, hq⟩
    exact ⟨e, hq⟩
  · rintro w start n hw ⟨rest, rfl⟩
    rw [read w hw, List.drop_left]
    exact (List.prefix_append_right_inj start).mpr (List.take_prefix n rest)
  · rintro w start n hw ⟨rest, rfl⟩ ended
    rw [read w hw, List.drop_left] at ended
    cases rest with
    | nil => exact (List.append_nil start).symm
    | cons b rest => cases ended

/-- A file below the `artifacts` directories has a content. -/
lemma filesLocal_content {content : Option Bytes} (below : BelowArtifacts root path) :
    FilesLocal root fun files => files path = content := by
  intro files files' same there
  rw [same path below]
  exact there

lemma filesLocal_true : FilesLocal root fun _ => True :=
  fun _ _ _ _ => trivial

section Blob

variable {pid limit : ℕ} {source : String}

/-- The blob of a digest is there. -/
def Stored (sha : Sha256) (root projectId digest : String) (files : Files) : Prop :=
  ∃ content, files (blobPath root projectId digest) = some content ∧
    sha.hexdigest content = digest

/-- While a file is copied: its blob is not there, but the copy is. -/
def Copying (root projectId digest : String) (pid : ℕ) (content : Bytes) (files : Files) : Prop :=
  files (blobPath root projectId digest) = none ∧
    files (temporaryPath root projectId digest pid) = some content

lemma filesLocal_stored : FilesLocal root (Stored sha root projectId digest) := by
  rintro files files' same ⟨content, there, e⟩
  exact ⟨content, (same _ (blobPath_below root projectId digest)).trans there, e⟩

lemma filesLocal_copying {content : Bytes} :
    FilesLocal root (Copying root projectId digest pid content) := by
  rintro files files' same ⟨absent, there⟩
  exact ⟨(same _ (blobPath_below root projectId digest)).trans absent,
    (same _ (temporaryPath_below root projectId digest pid)).trans there⟩

/-- Writing the copy of a blob that is not there. -/
lemma copying_update (hex : IsHex digest) (content : Bytes)
    (absent : files (blobPath root projectId digest) = none) :
    Copying root projectId digest pid content
      (Function.update files (temporaryPath root projectId digest pid) (some content)) := by
  refine ⟨?_, Function.update_self _ _ _⟩
  rw [Function.update_of_ne (blobPath_ne_temporaryPath hex)]
  exact absent

/-- The loop of `copyfileobj`. -/
lemma triple_copyLoop (hex : IsHex digest) {offset : ℕ} {content : Bytes} :
    Triple sha root (InSession sha root (Copying root projectId digest pid content))
      (copyLoop source (temporaryPath root projectId digest pid) limit offset)
      (fun _ w => ∃ content, InSession sha root (Copying root projectId digest pid content) w) := by
  induction limit generalizing offset content with
  | zero => exact Triple.raise
  | succ limit ih =>
    have stable : StoreStable root
        (InSession sha root (Copying root projectId digest pid content)) :=
      InSession.stable filesLocal_copying
    refine Triple.bind (Triple.observe stable (fun _ _ => rfl) fun _ _ _ h _ => h) ?_
    intro chunk
    by_cases ended : chunk = []
    · rw [if_pos ended]
      exact Triple.ret fun w h => ⟨content, h⟩
    · rw [if_neg ended]
      refine Triple.bind (R := fun _ =>
        InSession sha root (Copying root projectId digest pid (content ++ chunk)))
        (Triple.write
          (fun w => some ((w.files (temporaryPath root projectId digest pid)).getD [] ++ chunk))
          stable (temporaryPath_notBlob root projectId digest pid) ?_) fun _ => ih
      intro w o h
      refine Or.inr ⟨rfl, ?_⟩
      intro _
      refine h.update (temporaryPath_notBlob root projectId digest pid) ?_
      rintro ⟨absent, there⟩
      rw [there]
      exact copying_update hex _ absent

/-- Moving a copy to a path that is free keeps the other blobs. -/
lemma keepsBlobs_replace {content : Bytes}
    (copying : Copying root projectId digest pid content files) :
    files.KeepsBlobs root (Function.update
      (Function.update files (temporaryPath root projectId digest pid) none)
      (blobPath root projectId digest) (some content)) := by
  intro path content' blob there
  have other : path ≠ blobPath root projectId digest := by
    rintro rfl
    rw [copying.1] at there
    cases there
  rw [Function.update_of_ne other]
  exact Files.keepsBlobs_update (temporaryPath_notBlob root projectId digest pid) files none
    path content' blob there

/-- `os.replace` of a copy whose digest has been checked. -/
lemma triple_replace (hex : IsHex digest) {content : Bytes} (e : sha.hexdigest content = digest) :
    Triple sha root (InSession sha root (Copying root projectId digest pid content))
      (Storing.replace (temporaryPath root projectId digest pid) (blobPath root projectId digest))
      (fun answer => InSession sha root fun files =>
        answer = .ok () → Stored sha root projectId digest files) := by
  refine Triple.call (InSession.stable filesLocal_copying) ?_ ?_
  · rintro w o sound ⟨backed, copying⟩
    have kept := keepsBlobs_replace copying
    simp only [StoreWorld.act, copying.2]
    refine ⟨⟨?_, sound.rows.keeps kept⟩, kept, backed.keeps kept, fun _ => ?_⟩
    · intro projectId' digest' content' hex' there
      by_cases same : blobPath root projectId' digest' = blobPath root projectId digest
      · simp only [same, Function.update_self, Option.some.injEq] at there
        rw [← there, e]
        exact blobPath_injective hex hex' same.symm
      · simp only [Function.update_of_ne same,
          Function.update_of_ne (blobPath_ne_temporaryPath hex')] at there
        exact sound.blobs projectId' digest' content' hex' there
    · exact ⟨content, Function.update_self _ _ _, e⟩
  · rintro w err ⟨backed, _⟩
    refine ⟨backed, ?_⟩
    intro no
    cases no

/-- A content that is not stored yet. -/
lemma triple_storeBlob (hex : IsHex digest) :
    Triple sha root
      (InSession sha root fun files => files (blobPath root projectId digest) = none)
      (storeBlob sha limit source (temporaryPath root projectId digest pid)
        (blobPath root projectId digest) digest)
      (fun _ => InSession sha root (Stored sha root projectId digest)) := by
  have notBlob := temporaryPath_notBlob root projectId digest pid
  have absent : StoreStable root
      (InSession sha root fun files => files (blobPath root projectId digest) = none) :=
    InSession.stable (filesLocal_content (blobPath_below root projectId digest))
  refine Triple.bind (Triple.observe absent (fun _ _ => rfl) fun _ _ _ h _ => h) fun _ => ?_
  refine Triple.bind (R := fun _ => InSession sha root (Copying root projectId digest pid []))
    (Triple.write (fun _ => some []) absent notBlob ?_) fun _ => ?_
  · intro w o h
    simp only [StoreWorld.act]
    split
    · exact Or.inl ⟨_, rfl⟩
    · exact Or.inr ⟨rfl, fun _ => h.update notBlob (copying_update hex [])⟩
  refine Triple.bind (triple_copyLoop hex) fun _ => Triple.exists_ fun content => ?_
  have copying : StoreStable root
      (InSession sha root (Copying root projectId digest pid content)) :=
    InSession.stable filesLocal_copying
  refine Triple.bind (Triple.observe copying (fun _ _ => rfl) fun _ _ _ h _ => h) fun _ => ?_
  refine Triple.bind (triple_sha256File_stored filesLocal_copying fun _ h => h.2) fun copied => ?_
  by_cases differs : copied ≠ digest
  · rw [if_pos differs]
    refine Triple.bind (R := fun _ _ => True) (Triple.pre (fun _ h => h.2)
      (Triple.write (fun _ => none) copying notBlob ?_)) fun _ => Triple.raise
    exact fun w o h => Or.inr ⟨rfl, fun _ => trivial⟩
  · rw [if_neg differs]
    rintro s inv ⟨e, h⟩
    have checked : sha.hexdigest content = digest := e.symm.trans (not_not.mp differs)
    refine Triple.bind (triple_replace hex checked) (fun replaced => ?_) s inv h
    -- the copy is gone afterwards, which does not touch the blob
    have stored : FilesLocal root fun files => replaced = .ok () → Stored sha root projectId digest
        files :=
      fun files files' same h ok => filesLocal_stored files files' same (h ok)
    refine Triple.bind (R := fun _ => InSession sha root fun files =>
      replaced = .ok () → Stored sha root projectId digest files)
      (Triple.write (fun _ => none) (InSession.stable stored) notBlob ?_) fun _ => ?_
    · intro w o h
      refine Or.inr ⟨rfl, fun _ => h.update notBlob ?_⟩
      intro holds ok
      obtain ⟨content, there, e⟩ := holds ok
      refine ⟨content, ?_, e⟩
      rw [Function.update_of_ne (blobPath_ne_temporaryPath hex)]
      exact there
    refine Triple.bind (Triple.check (R := fun _ =>
      InSession sha root (Stored sha root projectId digest)) ?_) fun _ => ?_
    · exact fun _ w ok h => ⟨h.1, h.2 ok⟩
    · exact Triple.observe (InSession.stable filesLocal_stored) (fun _ _ => rfl) fun _ _ _ h _ => h

/-- A content that is stored already. -/
lemma triple_checkBlob :
    Triple sha root
      (InSession sha root fun files => (files (blobPath root projectId digest)).isSome = true)
      (checkBlob sha limit (blobPath root projectId digest) digest)
      (fun _ => InSession sha root (Stored sha root projectId digest)) := by
  refine Triple.pre (Q := fun w => ∃ content,
    InSession sha root (fun files => files (blobPath root projectId digest) = some content) w) ?_
    (Triple.exists_ fun content => ?_)
  · rintro w ⟨backed, present⟩
    obtain ⟨content, there⟩ := Option.isSome_iff_exists.mp present
    exact ⟨content, backed, there⟩
  refine Triple.bind (triple_sha256File_stored
    (filesLocal_content (blobPath_below root projectId digest)) fun _ h => h) fun found => ?_
  by_cases differs : found ≠ digest
  · rw [if_pos differs]
    exact Triple.raise
  · rw [if_neg differs]
    refine Triple.ret ?_
    rintro w ⟨e, backed, there⟩
    exact ⟨backed, content, there, e.symm.trans (not_not.mp differs)⟩

end Blob

/-- Afterwards the blob of the digest is there. -/
lemma triple_ensureBlob {c : IngestCall} (hex : IsHex digest) :
    Triple sha root (InSession sha root fun _ => True) (ensureBlob sha root c digest)
      (fun _ => InSession sha root (Stored sha root c.projectId digest)) := by
  refine Triple.bind (R := fun present => InSession sha root fun files =>
    (files (blobPath root c.projectId digest)).isSome = present)
    (Triple.observe (InSession.stable filesLocal_true) (fun _ _ => rfl) ?_) fun present => ?_
  · rintro w o v ⟨backed, _⟩ returned
    cases returned
    exact ⟨backed, rfl⟩
  · cases present with
    | true => exact triple_checkBlob
    | false =>
      refine Triple.pre ?_ (triple_storeBlob hex)
      rintro w ⟨backed, absent⟩
      exact ⟨backed, Option.not_isSome_iff_eq_none.mp (by rw [absent]; decide)⟩

/-! ## Sessions -/

/-- The row of a blob that is there. -/
lemma Db.addArtifact_backed {db' : Db} {a : IngestArgs} {version : ℕ} {artifactId : String}
    (backed : db.Backed sha root files) (h : db.addArtifact a version = .ok (artifactId, db'))
    (path : IsBlob root a.uri) (blob : ∃ content, files a.uri = some content ∧
      sha.hexdigest content = a.digest ∧ content.length = a.sizeBytes) :
    db'.Backed sha root files := by
  obtain ⟨_, _, p, _, rfl⟩ := Db.addArtifact_ok h
  intro i x hx
  simp only [Db.logged_rows] at hx
  rw [Dict.get_set] at hx
  split at hx
  · cases hx
    exact ⟨path, blob⟩
  · exact backed i x hx

/-- The row is added once the blob is there. -/
lemma triple_ingestNew {c : IngestCall} (hex : IsHex digest) :
    Triple sha root (InSession sha root fun _ => True) (ingestNew sha root c digest)
      (fun _ => InSession sha root fun _ => True) := by
  refine Triple.bind (triple_ensureBlob hex) fun _ => ?_
  have stored : StoreStable root (InSession sha root (Stored sha root c.projectId digest)) :=
    InSession.stable filesLocal_stored
  refine Triple.bind (Triple.observe stored (fun _ _ => rfl) fun _ _ _ h _ => h) fun current => ?_
  have sized : ∀ size : ℕ, FilesLocal root fun files => ∃ content,
      files (blobPath root c.projectId digest) = some content ∧ sha.hexdigest content = digest ∧
        content.length = size := by
    rintro size files files' same ⟨content, there, e⟩
    exact ⟨content, (same _ (blobPath_below root c.projectId digest)).trans there, e⟩
  refine Triple.bind (R := fun size : ℕ => InSession sha root fun files => ∃ content,
      files (blobPath root c.projectId digest) = some content ∧ sha.hexdigest content = digest ∧
        content.length = size)
    (Triple.observe stored (fun _ _ => rfl) ?_) fun size => ?_
  · rintro w o size ⟨backed, content, there, e⟩ returned
    simp only [StoreWorld.act, there] at returned
    cases returned
    exact ⟨backed, content, there, e, rfl⟩
  · refine Triple.perform (InSession.stable (sized size)) ?_
    rintro w o sound ⟨backed, blob⟩
    have path : IsBlob root (blobPath root c.projectId digest) := ⟨c.projectId, digest, hex, rfl⟩
    simp only [StoreWorld.act]
    split
    · rename_i artifactId db' added
      exact ⟨⟨sound.blobs, sound.rows⟩, fun _ _ _ there => there,
        fun _ _ => ⟨Db.addArtifact_backed backed added path blob, trivial⟩⟩
    · refine ⟨sound, fun _ _ _ there => there, ?_⟩
      intro v no
      cases no

/-- `ingest_file`. -/
lemma triple_ingestFile {c : IngestCall} :
    Triple sha root (InSession sha root fun _ => True) (ingestFile sha root c)
      (fun _ => InSession sha root fun _ => True) := by
  have idle : StoreStable root (InSession sha root fun _ => True) :=
    InSession.stable filesLocal_true
  refine Triple.bind (Triple.observe idle (fun _ _ => rfl) fun _ _ _ h _ => h) fun isFile => ?_
  cases isFile with
  | false => exact Triple.raise
  | true =>
    refine Triple.bind (triple_sha256File_source filesLocal_true) fun digest => ?_
    rintro s inv ⟨hex, h⟩
    refine Triple.bind (Triple.observe idle (fun _ _ => rfl) fun _ _ _ h _ => h)
      (fun existing => ?_) s inv h
    cases existing with
    | some artifactId => exact Triple.ret fun _ h => h
    | none => exact triple_ingestNew hex

lemma triple_ingestFiles {calls : List IngestCall} :
    Triple sha root (InSession sha root fun _ => True) (ingestFiles sha root calls)
      (fun _ => InSession sha root fun _ => True) := by
  induction calls with
  | nil => exact Triple.ret fun _ h => h
  | cons c calls ih =>
    exact Triple.bind triple_ingestFile fun _ => Triple.bind ih fun _ => Triple.ret fun _ h => h

/-- A session. -/
lemma triple_ingestSession {plan : IngestPlan} :
    Triple sha root (fun _ => True) (ingestSession sha root plan) (fun _ _ => True) := by
  refine Triple.bind (R := fun _ => InSession sha root fun _ => True)
    (Triple.perform (fun _ _ _ => trivial) ?_) fun _ => ?_
  · intro w o sound _
    exact ⟨⟨sound.blobs, sound.rows⟩, fun _ _ _ there => there, fun _ _ => ⟨sound.rows, trivial⟩⟩
  refine Triple.bind triple_ingestFiles fun artifacts => ?_
  refine Triple.bind (R := fun _ _ => True) ?_ fun _ => Triple.ret fun _ h => h
  have idle : StoreStable root (InSession sha root fun _ => True) :=
    InSession.stable filesLocal_true
  unfold endSession
  split
  · refine Triple.perform idle ?_
    intro w o sound h
    exact ⟨⟨sound.blobs, h.1⟩, fun _ _ _ there => there, fun _ _ => trivial⟩
  · refine Triple.perform idle ?_
    intro w o sound _
    exact ⟨⟨sound.blobs, sound.rows⟩, fun _ _ _ there => there, fun _ _ => trivial⟩

/-! ## Runs -/

lemma storeContract_fits : (storeContract sha root).Fits (watchedStore root) where
  always h := h
  stable := by
    rintro s f s' inv _ moved
    cases moved
    exact Triple.foreign inv f
  goodHandle _ _ _ := trivial
  goodDrift _ _ _ := trivial

/-- Every moment of a run satisfies the contract, for some ghost that remembers the blobs. -/
lemma store_secure {c c' : StoreConfig} {g : BlobGhost}
    {events : List (RunEvent IngestPlan StoreAnswer (ForeignWrite root))}
    (rn : (storeSystem sha root).run c events = some c')
    (secure : (storeContract sha root).Secure (watchedStore root) (c.withGhost g)) :
    ∃ g', (storeContract sha root).Secure (watchedStore root) (c'.withGhost g') ∧
      ∀ path content, g path content → g' path content := by
  let remembers (g' : BlobGhost) : Prop := ∀ path content, g path content → g' path content
  obtain ⟨g', rn', kept⟩ := Machine.run_ghost (G := remembers) (C := fun _ _ => True)
    (fun g' c ev kept _ => Ghost.after_keeps (h := blobGhost root) (G := remembers)
      (fun _ _ _ _ kept path content there => Or.inl (kept path content there))
      (fun _ _ _ kept path content there => Or.inl (kept path content there)) g' c ev kept)
    rn (System.Meets.all (fun _ _ => trivial) _ _) (fun _ _ there => there)
  refine ⟨g', ?_, kept⟩
  refine secure.run storeContract_fits ?_ rn' (System.Meets.all ?_ _ _)
  · intro plan s inv
    refine (triple_ingestSession s inv trivial).mono ?_
    exact fun _ _ ended => ⟨ended.1, trivial⟩
  · intro c ev
    cases ev with
    | crash => exact fun _ _ _ _ => trivial
    | drift f => exact fun _ _ _ _ => trivial
    | start plan => trivial
    | perform o => trivial

/-- The files, the committed rows and the sessions in any order of steps: from a workspace without
    artifacts, every file under the path of a digest has this digest, and every committed row has a
    blob under its path with its digest and its size. -/
theorem store_integrity {db : Db} {files : Files} {c c' : StoreConfig}
    {events events' : List (RunEvent IngestPlan StoreAnswer (ForeignWrite root))}
    (nothing : db.artifacts = Dict.empty)
    (fresh : ∀ path, BelowArtifacts root path → files path = none)
    (rn : (storeSystem sha root).run { world := ⟨files, db, db⟩ } events = some c)
    (later : (storeSystem sha root).run c events' = some c') :
    (∀ projectId digest content, IsHex digest →
        c.world.files (blobPath root projectId digest) = some content →
          sha.hexdigest content = digest ∧
            c'.world.files (blobPath root projectId digest) = some content) ∧
      ∀ i x, c.world.db.artifacts.get i = some x →
        (∃ projectId, x.uri = blobPath root projectId x.sha256) ∧
          ∃ content, c.world.files x.uri = some content ∧ sha.hexdigest content = x.sha256 ∧
            content.length = x.sizeBytes := by
  have start : StoreInvariant sha root (⟨files, db, db⟩, fun _ _ => False) := by
    have free : ∀ path content, IsBlob root path → files path ≠ some content := by
      intro path content blob there
      rw [fresh path blob.below] at there
      cases there
    refine ⟨⟨?_, ?_⟩, fun path content blob => ⟨False.elim, free path content blob⟩⟩
    · intro projectId digest content hex there
      exact (free _ content ⟨projectId, digest, hex, rfl⟩ there).elim
    · intro i x hx
      have hx : db.artifacts.get i = some x := hx
      rw [nothing] at hx
      cases hx
  obtain ⟨g, secure, _⟩ := store_secure (g := fun _ _ => False) rn
    (Contract.Secure.start storeContract_fits start)
  obtain ⟨g', secure', kept⟩ := store_secure later secure
  have now : StoreInvariant sha root (c.world, g) := secure.always
  have then_ : StoreInvariant sha root (c'.world, g') := secure'.always
  refine ⟨?_, ?_⟩
  · intro projectId digest content hex there
    have blob : IsBlob root (blobPath root projectId digest) := ⟨projectId, digest, hex, rfl⟩
    refine ⟨now.sound.blobs projectId digest content hex there, ?_⟩
    exact (then_.kept _ content blob).mp (kept _ _ ((now.kept _ content blob).mpr there))
  · intro i x hx
    obtain ⟨⟨projectId, digest, hex, uri⟩, content, there, e, length⟩ := now.sound.rows i x hx
    refine ⟨⟨projectId, ?_⟩, content, there, e, length⟩
    rw [uri] at there
    rw [uri, ← e, now.sound.blobs projectId digest content hex there]

/-! ## A source that changes -/

/-- A number with 64 hexadecimal digits. -/
def hexString (n : ℕ) : String :=
  String.ofList ((List.range 64).reverse.map fun i => hexDigits.getD (n / 16 ^ i % 16) '0')

lemma isHex_hexString (n : ℕ) : IsHex (hexString n) := by
  intro c mem
  rw [hexString, String.toList_ofList] at mem
  obtain ⟨i, _, rfl⟩ := List.mem_map.mp mem
  have bound : n / 16 ^ i % 16 < hexDigits.length := Nat.mod_lt _ (by decide)
  rw [List.getD_eq_getElem _ _ bound]
  exact List.getElem_mem bound

/-- The digests of `a`, of `b` and of the empty content. -/
def sampleSha : Sha256 where
  hexdigest content :=
    hexString (
      if content = [97] then 0xca978112ca1bbdcafac231b39a23dc4da786eff8147c4e72b9807785afee48bb
      else if content = [98] then 0x3e23e8160039594a33894f6564e1b1348bbd7a0088d42c4acb73eeaed59c009d
      else 0xe3b0c44298fc1c149afbf4c8996fb92427ae41e4649b934ca495991b7852b855)
  hex _ := isHex_hexString _

/-- The surroundings write to the source file. -/
def writeSource (content : Bytes) : ForeignWrite "/w" where
  path := "/src"
  content := some content
  outside := by
    rintro ⟨projectId, rest, e⟩
    have letters := congrArg (fun s => s.toList.take 2) e
    simp only [String.toList_append, List.append_assoc] at letters
    cases letters

/-- A session that ingests the source file. -/
def ingestSource (pid : ℕ) : IngestPlan :=
  { calls := [{ projectId := "p", source := "/src", logicalName := "result", kind := "TEST",
                producerType := "TEST", producerRefId := "run-1", pid := pid, limit := 5 }],
    commits := true }

/-- A session that performs `n` effects. -/
def ingesting (pid n : ℕ) : List (RunEvent IngestPlan StoreAnswer (ForeignWrite "/w")) :=
  .start (ingestSource pid) :: List.replicate n (.perform { uuid := "1" })

/-- The source changes behind the first hashing, so that the copy is refused; the second session
    crashes while it copies, and the third one succeeds. -/
def changingSource : List (RunEvent IngestPlan StoreAnswer (ForeignWrite "/w")) :=
  .drift (writeSource [97]) :: ingesting 1 7 ++ .drift (writeSource [98]) ::
    List.replicate 10 (.perform {}) ++ ingesting 1 11 ++ .crash :: ingesting 2 23

set_option maxRecDepth 4000 in
/-- The committed row has its blob. -/
theorem store_integrity_changing :
    ∃ c x, (storeSystem sampleSha "/w").run
        { world := ⟨fun _ => none, { projects := Dict.empty.set "p" { slug := "s" } },
                    { projects := Dict.empty.set "p" { slug := "s" } }⟩ } changingSource = some c ∧
      c.world.db.artifacts.get "1" = some x ∧
      ∃ content, c.world.files x.uri = some content ∧ sampleSha.hexdigest content = x.sha256 ∧
        content.length = x.sizeBytes := by
  have stored : ((storeSystem sampleSha "/w").run
      { world := ⟨fun _ => none, { projects := Dict.empty.set "p" { slug := "s" } },
                  { projects := Dict.empty.set "p" { slug := "s" } }⟩ } changingSource).map
      (fun c => (c.world.db.artifacts.get "1").isSome) = some true := by decide
  obtain ⟨c, rn, row⟩ := Option.map_eq_some_iff.mp stored
  obtain ⟨x, hx⟩ := Option.isSome_iff_exists.mp row
  have ended : (storeSystem sampleSha "/w").run c [] = some c := rfl
  exact ⟨c, x, rn, hx, ((store_integrity rfl (fun _ _ => rfl) rn ended).2 "1" x hx).2⟩

end ResearchController
