import ResearchController.Artifacts.Integrity
import ResearchController.Lib.Faults

/-!
# Retrying a failed ingest

A content is copied to a temporary file that is named after its digest and the process, opened
exclusively, and moved to the path of the blob by `os.replace`. The file is removed if the copy has
another digest and after `os.replace`, but not if one of the steps before it raises; the next
attempt of the same process then finds it and cannot open it. `retry_stores_iff` follows an error at
every effect of a session into the retry.
-/

namespace ResearchController
open Lib

/-- The two paths of a copy and the content that is copied. -/
structure CopySite where
  temporary : String
  destination : String
  content : Bytes
  apart : temporary ≠ destination

/-- What a call leaves as it was: only the two files of the site may differ, and a blob is complete
    and stays. -/
structure CopySite.Around (site : CopySite) (w0 w : StoreWorld) : Prop where
  db : w.db = w0.db
  others : ∀ path, path ≠ site.temporary → path ≠ site.destination →
    w.files path = w0.files path
  blob : w.files site.destination = none ∨ w.files site.destination = some site.content
  keeps : w.files site.destination = none → w0.files site.destination = none

/-- A temporary file is in the way of the blob. -/
def CopySite.Blocked (site : CopySite) (w : StoreWorld) : Prop :=
  w.files site.temporary ≠ none ∧ w.files site.destination = none

lemma CopySite.not_blocked {site : CopySite} {w : StoreWorld} {data : Bytes}
    (stored : w.files site.destination = some data) : ¬ site.Blocked w := by
  rintro ⟨_, noBlob⟩
  rw [stored] at noBlob
  cases noBlob

/-- A call in which an effect was struck has ended on the spot, or has removed the temporary file
    after `os.replace` raised. -/
structure CopySite.Broken (site : CopySite) (w0 : StoreWorld) (e : StoreEffect) (t w : StoreWorld) :
    Prop where
  around : site.Around w0 w
  last : w = t ∧ e ≠ .replace site.temporary site.destination ∨
    w.files site.temporary = none ∧ e = .replace site.temporary site.destination

/-- How a call ends: as `Good` says if no effect was struck, and broken otherwise. -/
def CopySite.Ends (site : CopySite) (w0 : StoreWorld) {α : Type}
    (Good : Except PyErr α → StoreWorld → Prop) :
    Option (StoreEffect × StoreWorld) → Except PyErr α → StoreWorld → Prop
  | none, r, w => Good r w
  | some (e, t), r, w => (∃ err, r = .error err) ∧ site.Broken w0 e t w

/-- The database takes a row that is added. -/
def StoreEffect.taken (w : StoreWorld) (uuid : String) : StoreEffect → Bool
  | .add a version => (w.session.addArtifact { a with id := uuid } version).isOk
  | _ => true

/-- Whether an effect is `os.replace`. -/
def StoreEffect.isReplace : StoreEffect → Bool
  | .replace _ _ => true
  | _ => false

/-- An answer without an error. -/
def StoreAnswer.Fine (w : StoreWorld) (e : StoreEffect) (o : StoreAnswer) : Prop :=
  o.fault.isNone = true ∧ e.taken w o.uuid = true

instance (w : StoreWorld) (e : StoreEffect) (o : StoreAnswer) : Decidable (o.Fine w e) :=
  inferInstanceAs (Decidable (_ ∧ _))

/-- The runs of a program of the store with at most one error end in a given way. -/
abbrev StoreWithstands (root : String) {α : Type}
    (Q : Option (StoreEffect × StoreWorld) → Except PyErr α → StoreWorld → Prop)
    (program : Storing α) (w : StoreWorld) : Prop :=
  (storeMachine root).Withstands StoreAnswer.Fine Q program w

/-! ## Rules -/

section

variable {root : String} {site : CopySite} {w0 w : StoreWorld} {α β : Type}
  {Good : Except PyErr α → StoreWorld → Prop}

/-- An answer without an error is that of the effect. -/
lemma StoreAnswer.Fine.handle {e : StoreEffect} {o : StoreAnswer} (fine : o.Fine w e) :
    (storeMachine root).handle w e o = w.act o e := by
  simp only [storeMachine, Option.isNone_iff_eq_none.mp fine.1]

/-- The row that an answer without an error adds. -/
lemma StoreAnswer.Fine.added {a : IngestArgs} {version : ℕ} {o : StoreAnswer}
    (fine : o.Fine w (.add a version)) :
    ∃ r, w.session.addArtifact { a with id := o.uuid } version = .ok r := by
  have taken : (w.session.addArtifact { a with id := o.uuid } version).isOk = true := fine.2
  cases added : w.session.addArtifact { a with id := o.uuid } version with
  | ok r => exact ⟨r, rfl⟩
  | error err =>
    rw [added] at taken
    cases taken

/-- An error leaves the world as it was. -/
lemma StoreAnswer.handle_of_not_fine (root : String) {e : StoreEffect} {o : StoreAnswer}
    (bad : ¬ o.Fine w e) : ∃ err, (storeMachine root).handle w e o = (w, .error err) := by
  cases fault : o.fault with
  | some err =>
    refine ⟨err, ?_⟩
    simp only [storeMachine, fault]
  | none =>
    have faultless : o.fault.isNone = true := Option.isNone_iff_eq_none.mpr fault
    have rejects : e.taken w o.uuid ≠ true := fun taken => bad ⟨faultless, taken⟩
    cases e with
    | add a version =>
      cases added : w.session.addArtifact { a with id := o.uuid } version with
      | ok r =>
        simp only [StoreEffect.taken, added] at rejects
        exact (rejects rfl).elim
      | error err =>
        refine ⟨err, ?_⟩
        simp only [storeMachine, fault, StoreWorld.act, added]
    | _ => exact (rejects rfl).elim

/-- An effect that ends the call if it is struck. -/
lemma CopySite.Around.perform (around : site.Around w0 w) {e : StoreEffect}
    {f : e.Value → Storing α} (other : e.isReplace = false)
    (answered : ∀ o, o.Fine w e →
      StoreWithstands root (site.Ends w0 Good) (Program.check (w.act o e).2 >>= f) (w.act o e).1) :
    StoreWithstands root (site.Ends w0 Good) (Storing.perform e >>= f) w := by
  show StoreWithstands root _ (Program.call e >>= fun r => Program.check r >>= f) w
  apply Machine.Withstands.call
  · intro o fine
    rw [fine.handle]
    exact answered o fine
  · intro o bad
    obtain ⟨err, handled⟩ := StoreAnswer.handle_of_not_fine root bad
    rw [handled]
    apply Machine.Withstands.raise
    intro _
    refine ⟨⟨err, rfl⟩, around, Or.inl ⟨rfl, ?_⟩⟩
    rintro rfl
    cases other

/-- An effect that returns a value. -/
lemma CopySite.Around.perform_ok (around : site.Around w0 w) {e : StoreEffect}
    {f : e.Value → Storing α} (other : e.isReplace = false)
    (answered : ∀ o, o.Fine w e → ∃ v w', w.act o e = (w', .ok v) ∧
      StoreWithstands root (site.Ends w0 Good) (f v) w') :
    StoreWithstands root (site.Ends w0 Good) (Storing.perform e >>= f) w := by
  apply around.perform other
  intro o fine
  obtain ⟨v, w', acted, rest⟩ := answered o fine
  rw [acted]
  exact rest

/-- A weaker conclusion. -/
lemma CopySite.Ends.weaken {Good' : Except PyErr α → StoreWorld → Prop} {p : Storing α}
    (weaker : ∀ r s, Good r s → Good' r s)
    (h : StoreWithstands root (site.Ends w0 Good) p w) :
    StoreWithstands root (site.Ends w0 Good') p w := by
  refine Machine.Withstands.mono ?_ h
  intro x r s ends
  cases x with
  | none => exact weaker r s ends
  | some x => exact ends

/-- Composition. -/
lemma CopySite.Ends.bind {Good' : Except PyErr β → StoreWorld → Prop} {p : Storing α}
    {f : α → Storing β} (h : StoreWithstands root (site.Ends w0 Good) p w)
    (returns : ∀ a t, Good (.ok a) t → StoreWithstands root (site.Ends w0 Good') (f a) t)
    (raises : ∀ err t, Good (.error err) t → Good' (.error err) t) :
    StoreWithstands root (site.Ends w0 Good') (p >>= f) w := by
  apply Machine.Withstands.bind h returns
  · rintro x a t ⟨⟨err, no⟩, _⟩
    cases no
  · intro x err t ends
    cases x with
    | none => exact raises err t ends
    | some x => exact ⟨⟨err, rfl⟩, ends.2⟩

end

/-! ## Reading and copying -/

section

variable {root : String} {site : CopySite} {w0 w : StoreWorld} {sha : Sha256} {path source : String}
  {limit : Nat}

/-- What a read returns of the rest of a file. -/
lemma read_act {done rest : Bytes} (there : w.files path = some (done ++ rest)) (o : StoreAnswer) :
    w.act o (.read path done.length) = (w, .ok (rest.take (o.more + 1))) := by
  simp only [StoreWorld.act, there, Option.getD_some, List.drop_left]

/-- A read returns nothing at the end of the file only; otherwise less remains. -/
lemma read_cases (rest : Bytes) (more : Nat) :
    rest = [] ∨ rest.take (more + 1) ≠ [] ∧ (rest.drop (more + 1)).length < rest.length := by
  cases rest with
  | nil => exact Or.inl rfl
  | cons b rest =>
    refine Or.inr ⟨List.cons_ne_nil _ _, ?_⟩
    rw [List.length_drop, List.length_cons]
    omega

/-- A file is read to its end and hashed. -/
lemma sha256Loop_ends (around : site.Around w0 w) {done rest : Bytes}
    (there : w.files path = some (done ++ rest)) (bound : rest.length < limit) :
    StoreWithstands root
      (site.Ends w0 fun r w' => w' = w ∧ r = .ok (sha.hexdigest (done ++ rest)))
      (sha256Loop sha path limit done) w := by
  induction limit generalizing done rest with
  | zero => cases bound
  | succ limit ih =>
    apply around.perform_ok rfl
    intro o _
    refine ⟨_, _, read_act there o, ?_⟩
    obtain rfl | ⟨some, shorter⟩ := read_cases rest o.more
    · rw [if_pos List.take_nil, List.append_nil]
      exact Machine.Withstands.ret ⟨rfl, rfl⟩
    · rw [if_neg some]
      have whole := List.take_append_drop (o.more + 1) rest
      have there' : w.files path =
          Option.some ((done ++ rest.take (o.more + 1)) ++ rest.drop (o.more + 1)) := by
        rw [List.append_assoc, whole]
        exact there
      have next := ih there' (by omega)
      rw [List.append_assoc, whole] at next
      exact next

lemma sha256File_ends (around : site.Around w0 w) {content : Bytes}
    (there : w.files path = some content) (bound : content.length < limit) :
    StoreWithstands root (site.Ends w0 fun r w' => w' = w ∧ r = .ok (sha.hexdigest content))
      (sha256File sha limit path) w := by
  have start : w.files path = some ([] ++ content) := there
  apply around.perform_ok rfl
  intro o _
  refine ⟨(), w, ?_, sha256Loop_ends around start bound⟩
  simp only [StoreWorld.act, there, Option.isSome_some]
  rfl

/-- The world with another temporary file. -/
def CopySite.holding (site : CopySite) (w : StoreWorld) (data : Option Bytes) : StoreWorld :=
  { w with files := Function.update w.files site.temporary data }

namespace CopySite

lemma holding_temporary (site : CopySite) (w : StoreWorld) (data : Option Bytes) :
    (site.holding w data).files site.temporary = data :=
  Function.update_self _ _ _

lemma holding_other (site : CopySite) (w : StoreWorld) (data : Option Bytes) {path : String}
    (ne : path ≠ site.temporary) : (site.holding w data).files path = w.files path :=
  Function.update_of_ne ne _ _

lemma holding_destination (site : CopySite) (w : StoreWorld) (data : Option Bytes) :
    (site.holding w data).files site.destination = w.files site.destination :=
  site.holding_other w data site.apart.symm

lemma holding_holding (site : CopySite) (w : StoreWorld) (data data' : Option Bytes) :
    site.holding (site.holding w data) data' = site.holding w data' := by
  simp only [holding, Function.update_idem]

lemma holding_self {site : CopySite} {w : StoreWorld} {data : Option Bytes}
    (there : w.files site.temporary = data) : site.holding w data = w := by
  simp only [holding, ← there, Function.update_eq_self]

/-- Writing to the temporary file changes nothing else. -/
lemma Around.holding (around : site.Around w0 w) (noBlob : w.files site.destination = none)
    (data : Option Bytes) : site.Around w0 (site.holding w data) := by
  have kept := (site.holding_destination w data).trans noBlob
  refine ⟨around.db, ?_, Or.inl kept, fun _ => around.keeps noBlob⟩
  intro path ne ne'
  rw [← around.others path ne ne']
  exact site.holding_other w data ne

end CopySite

/-- The rest of a file is copied behind what was copied before. -/
lemma copyLoop_ends (around : site.Around w0 w) (noBlob : w.files site.destination = none)
    (other : source ≠ site.temporary) {done rest : Bytes}
    (there : w.files source = some (done ++ rest)) (copied : w.files site.temporary = some done)
    (bound : rest.length < limit) :
    StoreWithstands root
      (site.Ends w0 fun r w' => r = .ok () ∧ w' = site.holding w (some (done ++ rest)))
      (copyLoop source site.temporary limit done.length) w := by
  induction limit generalizing w done rest with
  | zero => cases bound
  | succ limit ih =>
    apply around.perform_ok rfl
    intro o _
    refine ⟨_, _, read_act there o, ?_⟩
    obtain rfl | ⟨some, shorter⟩ := read_cases rest o.more
    · rw [if_pos List.take_nil, List.append_nil, CopySite.holding_self copied]
      exact Machine.Withstands.ret ⟨rfl, rfl⟩
    · rw [if_neg some]
      have whole := List.take_append_drop (o.more + 1) rest
      apply around.perform_ok rfl
      intro o' _
      let chunk := rest.take (o.more + 1)
      let w1 := site.holding w (Option.some (done ++ chunk))
      refine ⟨(), w1, by simp only [StoreWorld.act, copied, Option.getD_some]; rfl, ?_⟩
      have there' : w1.files source = Option.some ((done ++ chunk) ++ rest.drop (o.more + 1)) := by
        rw [List.append_assoc, whole, ← there]
        exact site.holding_other w _ other
      have copied' : w1.files site.temporary = Option.some (done ++ chunk) :=
        site.holding_temporary w _
      have noBlob' : w1.files site.destination = none :=
        (site.holding_destination w _).trans noBlob
      have next := ih (around.holding noBlob _) noBlob' there' copied' (by omega)
      rw [List.append_assoc, whole, List.length_append, CopySite.holding_holding] at next
      exact next

/-- The blob is there. -/
structure CopySite.Complete (site : CopySite) (w0 w : StoreWorld) : Prop where
  around : site.Around w0 w
  stored : w.files site.destination = some site.content

/-- The world after `os.replace`. -/
def CopySite.moved (site : CopySite) (w : StoreWorld) : StoreWorld :=
  { w with
    files := Function.update (Function.update w.files site.temporary none) site.destination
      (some site.content) }

lemma CopySite.moved_temporary (site : CopySite) (w : StoreWorld) :
    (site.moved w).files site.temporary = none :=
  (Function.update_of_ne site.apart _ _).trans (Function.update_self _ _ _)

lemma CopySite.moved_destination (site : CopySite) (w : StoreWorld) :
    (site.moved w).files site.destination = some site.content :=
  Function.update_self _ _ _

lemma CopySite.Around.moved (around : site.Around w0 w) : site.Around w0 (site.moved w) := by
  have stored := site.moved_destination w
  refine ⟨around.db, ?_, Or.inr stored, ?_⟩
  · intro path ne ne'
    rw [← around.others path ne ne']
    exact (Function.update_of_ne ne' _ _).trans (Function.update_of_ne ne _ _)
  · intro noBlob
    rw [stored] at noBlob
    cases noBlob

/-- Behind `os.replace` there is no temporary file to remove. -/
lemma finish_ends (around : site.Around w0 w) (free : w.files site.temporary = none)
    (stored : w.files site.destination = some site.content) :
    StoreWithstands root
      (site.Ends w0 fun r w' => r = .ok () ∧ w'.session = w.session ∧ site.Complete w0 w')
      (do
        Storing.unlink site.temporary
        Storing.chmod site.destination) w := by
  apply around.perform_ok rfl
  intro o _
  have still : w.act o (.unlink site.temporary) = (w, .ok ()) := by
    show (site.holding w none, _) = _
    rw [CopySite.holding_self free]
  refine ⟨(), w, still, ?_⟩
  rw [← Program.bind_pure (Storing.chmod site.destination)]
  apply around.perform_ok rfl
  intro o' _
  exact ⟨(), w, rfl, Machine.Withstands.ret ⟨rfl, rfl, around, stored⟩⟩

/-- The copy is moved to the path of the blob. -/
lemma replace_ends (around : site.Around w0 w) (noBlob : w.files site.destination = none)
    (copied : w.files site.temporary = some site.content) :
    StoreWithstands root
      (site.Ends w0 fun r w' => r = .ok () ∧ w'.session = w.session ∧ site.Complete w0 w')
      (do
        let replaced ← Storing.replace site.temporary site.destination
        Storing.unlink site.temporary
        Program.check replaced
        Storing.chmod site.destination) w := by
  apply Machine.Withstands.call
  · intro o fine
    have acted : w.act o (.replace site.temporary site.destination) = (site.moved w, .ok ()) := by
      simp only [StoreWorld.act, copied]
      rfl
    rw [fine.handle, acted]
    exact finish_ends around.moved (site.moved_temporary w) (site.moved_destination w)
  · intro o bad
    obtain ⟨err, handled⟩ := StoreAnswer.handle_of_not_fine root bad
    rw [handled]
    -- the `finally` removes the copy, and nothing else may go wrong any more
    apply Machine.Withstands.call
    · intro o' fine
      rw [fine.handle]
      apply Machine.Withstands.raise
      intro _
      exact ⟨⟨err, rfl⟩, around.holding noBlob none, Or.inr ⟨site.holding_temporary w none, rfl⟩⟩
    · intro o' _ struck r s' _ _ no
      cases no

/-- A content that is not stored yet is copied and moved to the path of its blob. -/
lemma storeBlob_ends (around : site.Around w0 w) (noBlob : w.files site.destination = none)
    (free : w.files site.temporary = none) (other : source ≠ site.temporary)
    (there : w.files source = some site.content) (bound : site.content.length < limit) :
    StoreWithstands root
      (site.Ends w0 fun r w' => r = .ok () ∧ w'.session = w.session ∧ site.Complete w0 w')
      (storeBlob sha limit source site.temporary site.destination (sha.hexdigest site.content))
      w := by
  apply around.perform_ok rfl
  intro o _
  refine ⟨(), w, by simp only [StoreWorld.act, there, Option.isSome_some]; rfl, ?_⟩
  apply around.perform_ok rfl
  intro o' _
  let opened := site.holding w (some [])
  have opens : w.act o' (.openNew site.temporary) = (opened, .ok ()) := by
    simp only [StoreWorld.act, free]
    rfl
  refine ⟨(), opened, opens, ?_⟩
  have there1 : opened.files source = some ([] ++ site.content) :=
    (site.holding_other w _ other).trans there
  have noBlob1 : opened.files site.destination = none :=
    (site.holding_destination w _).trans noBlob
  apply CopySite.Ends.bind
    (copyLoop_ends (around.holding noBlob (some [])) noBlob1 other there1
      (site.holding_temporary w _) bound)
  · rintro _ _ ⟨_, rfl⟩
    -- from here on the temporary file holds the whole content
    rw [CopySite.holding_holding, List.nil_append]
    have around2 := around.holding noBlob (some site.content)
    have copied := site.holding_temporary w (some site.content)
    have noBlob2 := (site.holding_destination w (some site.content)).trans noBlob
    apply around2.perform_ok rfl
    intro o'' _
    refine ⟨(), _, rfl, ?_⟩
    apply CopySite.Ends.bind (sha256File_ends around2 copied bound)
    · rintro _ _ ⟨rfl, e⟩
      cases e
      rw [if_neg (not_not.mpr rfl)]
      exact replace_ends around2 noBlob2 copied
    · rintro err t ⟨_, no⟩
      cases no
  · rintro err t ⟨no, _⟩
    cases no

/-- A temporary file that is there cannot be opened again. -/
lemma storeBlob_blocked (around : site.Around w0 w) (taken : w.files site.temporary ≠ none)
    (there : (w.files source).isSome) (digest : String) :
    StoreWithstands root (site.Ends w0 fun r _ => ∃ err, r = .error err)
      (storeBlob sha limit source site.temporary site.destination digest) w := by
  apply around.perform_ok rfl
  intro o _
  refine ⟨(), w, by simp only [StoreWorld.act, there]; rfl, ?_⟩
  apply around.perform rfl
  intro o' _
  have present : (w.files site.temporary).isSome := Option.isSome_iff_ne_none.mpr taken
  simp only [StoreWorld.act, present]
  exact Machine.Withstands.raise ⟨_, rfl⟩

/-- A blob is hashed again. -/
lemma checkBlob_ends (around : site.Around w0 w)
    (stored : w.files site.destination = some site.content) (bound : site.content.length < limit) :
    StoreWithstands root (site.Ends w0 fun r w' => w' = w ∧ r = .ok ())
      (checkBlob sha limit site.destination (sha.hexdigest site.content)) w := by
  apply CopySite.Ends.bind (sha256File_ends around stored bound)
  · rintro _ _ ⟨rfl, e⟩
    cases e
    rw [if_neg (not_not.mpr rfl)]
    exact Machine.Withstands.ret ⟨rfl, rfl⟩
  · rintro err t ⟨_, no⟩
    cases no

end

/-! ## A call -/

/-- The site of a call that finds a content in its source. -/
def IngestCall.site (c : IngestCall) (sha : Sha256) (root : String) (content : Bytes) :
    CopySite where
  temporary := temporaryPath root c.projectId (sha.hexdigest content) c.pid
  destination := blobPath root c.projectId (sha.hexdigest content)
  content := content
  apart := (blobPath_ne_temporaryPath (sha.hex content)).symm

/-- The source of a call is a file outside of the store, which the call reads to its end, and a row
    that the call finds has its blob. -/
structure IngestCall.Ready (c : IngestCall) (sha : Sha256) (root : String) (content : Bytes)
    (w : StoreWorld) : Prop where
  outside : ¬ BelowArtifacts root c.source
  there : w.files c.source = some content
  bound : content.length < c.limit
  backed : ∀ i x, w.db.existingArtifact (c.args root (sha.hexdigest content) 0) = some (i, x) →
    x.uri = (c.site sha root content).destination ∧
      w.files (c.site sha root content).destination = some content

/-- The database has the artifact of a call, with its blob. -/
structure IngestCall.Stored (c : IngestCall) (sha : Sha256) (root : String) (content : Bytes)
    (db : Db) (files : Files) (id : String) : Prop where
  row : ∃ x, db.artifacts.get id = some x ∧
    x.key = (c.args root (sha.hexdigest content) 0).key ∧
    x.uri = (c.site sha root content).destination
  blob : files (c.site sha root content).destination = some content

/-- An error if the temporary file is in the way, and as `Done` says otherwise. -/
def CopySite.Decided (site : CopySite) (w : StoreWorld) {α : Type}
    (Done : Except PyErr α → StoreWorld → Prop) (r : Except PyErr α) (w' : StoreWorld) : Prop :=
  ¬ site.Blocked w ∧ Done r w' ∨ site.Blocked w ∧ ∃ err, r = .error err

section

variable {root : String} {sha : Sha256} {content : Bytes} {c : IngestCall} {w0 w : StoreWorld}

/-- Composition with a rest that is not blocked. -/
lemma CopySite.Decided.bind {site : CopySite} {α β : Type}
    {Done : Except PyErr α → StoreWorld → Prop} {Done' : Except PyErr β → StoreWorld → Prop}
    {v : StoreWorld} {p : Storing α} {f : α → Storing β}
    (h : StoreWithstands root (site.Ends w0 (site.Decided v Done)) p w)
    (returns : ∀ a t, Done (.ok a) t → StoreWithstands root (site.Ends w0 Done') (f a) t)
    (raises : ∀ err t, ¬ Done (.error err) t) :
    StoreWithstands root (site.Ends w0 (site.Decided v Done')) (p >>= f) w := by
  apply CopySite.Ends.bind h
  · rintro a t (⟨free, done⟩ | ⟨_, err, no⟩)
    · refine CopySite.Ends.weaken ?_ (returns a t done)
      exact fun r s ends => Or.inl ⟨free, ends⟩
    · cases no
  · rintro err t (⟨_, done⟩ | blocked)
    · exact (raises err t done).elim
    · exact Or.inr ⟨blocked.1, err, rfl⟩

/-- The blob of a call is there afterwards. -/
lemma ensureBlob_ends (around : (c.site sha root content).Around w0 w)
    (outside : ¬ BelowArtifacts root c.source) (there : w.files c.source = some content)
    (bound : content.length < c.limit) :
    StoreWithstands root
      ((c.site sha root content).Ends w0 ((c.site sha root content).Decided w fun r w' =>
        r = .ok () ∧ w'.session = w.session ∧ (c.site sha root content).Complete w0 w'))
      (ensureBlob sha root c (sha.hexdigest content)) w := by
  set site := c.site sha root content
  have other : c.source ≠ site.temporary := by
    intro same
    exact outside (same ▸ temporaryPath_below root c.projectId (sha.hexdigest content) c.pid)
  apply around.perform_ok rfl
  intro o _
  refine ⟨_, w, rfl, ?_⟩
  obtain noBlob | stored := around.blob
  · have absent : (w.files (blobPath root c.projectId (sha.hexdigest content))).isSome = false := by
      rw [Option.isSome_eq_false_iff, Option.isNone_iff_eq_none]
      exact noBlob
    rw [absent]
    by_cases free : w.files site.temporary = none
    · refine CopySite.Ends.weaken ?_ (storeBlob_ends around noBlob free other there bound)
      exact fun r s done => Or.inl ⟨fun blocked => blocked.1 free, done⟩
    · have readable : (w.files c.source).isSome := Option.isSome_iff_exists.mpr ⟨content, there⟩
      refine CopySite.Ends.weaken ?_
        (storeBlob_blocked around free readable (sha.hexdigest content))
      exact fun r s raised => Or.inr ⟨⟨free, noBlob⟩, raised⟩
  · have present : (w.files (blobPath root c.projectId (sha.hexdigest content))).isSome :=
      Option.isSome_iff_exists.mpr ⟨content, stored⟩
    rw [present]
    refine CopySite.Ends.weaken ?_ (checkBlob_ends around stored bound)
    rintro r s ⟨rfl, rfl⟩
    exact Or.inl ⟨CopySite.not_blocked stored, rfl, rfl, around, stored⟩

/-- The artifact of a call is in the session. -/
def IngestCall.Ingested (c : IngestCall) (sha : Sha256) (root : String) (content : Bytes)
    (w0 : StoreWorld) (r : Except PyErr String) (w' : StoreWorld) : Prop :=
  ∃ id, r = .ok id ∧ c.Stored sha root content w'.session w'.files id ∧
    (c.site sha root content).Around w0 w'

/-- A call adds a row once its blob is there. -/
lemma ingestNew_ends (around : (c.site sha root content).Around w0 w)
    (outside : ¬ BelowArtifacts root c.source) (there : w.files c.source = some content)
    (bound : content.length < c.limit) :
    StoreWithstands root
      ((c.site sha root content).Ends w0
        ((c.site sha root content).Decided w (c.Ingested sha root content w0)))
      (ingestNew sha root c (sha.hexdigest content)) w := by
  apply CopySite.Decided.bind (ensureBlob_ends around outside there bound)
  · rintro _ w' ⟨_, _, complete⟩
    have around' := complete.around
    apply around'.perform_ok rfl
    intro o _
    refine ⟨_, w', rfl, ?_⟩
    apply around'.perform_ok rfl
    intro o' _
    have sized : w'.files (blobPath root c.projectId (sha.hexdigest content)) = some content :=
      complete.stored
    refine ⟨content.length, w', by simp only [StoreWorld.act, sized], ?_⟩
    generalize w'.session.currentVersion c.projectId c.logicalName + 1 = version
    rw [← Program.bind_pure (Storing.add _ _)]
    apply around'.perform_ok rfl
    intro o'' fine
    obtain ⟨⟨id, db⟩, added⟩ := fine.added
    refine ⟨id, { w' with session := db }, ?_, Machine.Withstands.ret ⟨id, rfl, ?_, ?_⟩⟩
    · simp only [StoreWorld.act, added]
    · exact ⟨⟨_, Db.addArtifact_get added, rfl, rfl⟩, complete.stored⟩
    · exact ⟨around'.db, around'.others, around'.blob, around'.keeps⟩
  · rintro err t ⟨no, _⟩
    cases no

/-- A call ends with its artifact. -/
lemma ingestFile_ends (around : (c.site sha root content).Around w0 w)
    (ready : c.Ready sha root content w) (opened : w.session = w.db) :
    StoreWithstands root
      ((c.site sha root content).Ends w0
        ((c.site sha root content).Decided w (c.Ingested sha root content w0)))
      (ingestFile sha root c) w := by
  apply around.perform_ok rfl
  intro o _
  have isFile : (w.files c.source).isSome = true :=
    Option.isSome_iff_exists.mpr ⟨content, ready.there⟩
  refine ⟨_, w, rfl, ?_⟩
  rw [isFile, if_pos rfl]
  apply CopySite.Ends.bind (sha256File_ends around ready.there ready.bound)
  · rintro _ w ⟨rfl, e⟩
    cases e
    apply around.perform_ok rfl
    intro o' _
    refine ⟨_, _, rfl, ?_⟩
    rw [opened]
    cases found : w.db.existingArtifact (c.args root (sha.hexdigest content) 0) with
    | none => exact ingestNew_ends around ready.outside ready.there ready.bound
    | some item =>
      obtain ⟨id, x⟩ := item
      obtain ⟨uri, stored⟩ := ready.backed id x found
      obtain ⟨row, key⟩ := Db.existingArtifact_some found
      have free := CopySite.not_blocked stored
      refine Machine.Withstands.ret (Or.inl ⟨free, id, rfl, ⟨⟨x, ?_, key, uri⟩, stored⟩, around⟩)
      rw [opened]
      exact row
  · rintro err t ⟨_, no⟩
    cases no

/-- A session with one call ends with its artifact in the database. -/
lemma ingestSession_ends (around : (c.site sha root content).Around w0 w)
    (ready : c.Ready sha root content w) :
    StoreWithstands root
      ((c.site sha root content).Ends w0 ((c.site sha root content).Decided w fun r w' =>
        ∃ id, r = .ok [id] ∧ c.Stored sha root content w'.db w'.files id))
      (ingestSession sha root { calls := [c], commits := true }) w := by
  apply around.perform_ok rfl
  intro o _
  let opened : StoreWorld := { w with session := w.db }
  have around1 : (c.site sha root content).Around w0 opened :=
    ⟨around.db, around.others, around.blob, around.keeps⟩
  have ready1 : c.Ready sha root content opened :=
    ⟨ready.outside, ready.there, ready.bound, ready.backed⟩
  refine ⟨(), opened, rfl, ?_⟩
  have ingested : StoreWithstands root
      ((c.site sha root content).Ends w0 ((c.site sha root content).Decided w fun r w' =>
        ∃ id, r = .ok [id] ∧ c.Stored sha root content w'.session w'.files id ∧
          (c.site sha root content).Around w0 w'))
      (ingestFiles sha root [c]) opened := by
    apply CopySite.Decided.bind (ingestFile_ends around1 ready1 rfl)
    · rintro id w' ⟨_, e, stored, around'⟩
      cases e
      exact Machine.Withstands.ret ⟨id, rfl, stored, around'⟩
    · rintro err t ⟨_, no, _⟩
      cases no
  apply CopySite.Decided.bind ingested
  · rintro _ w' ⟨id, e, stored, around'⟩
    cases e
    apply around'.perform_ok rfl
    intro o' _
    exact ⟨(), { w' with db := w'.session }, rfl, Machine.Withstands.ret ⟨id, rfl, stored⟩⟩
  · rintro err t ⟨_, no, _⟩
    cases no

/-- A call that is made again finds its source, and its row if there is one. -/
lemma IngestCall.Ready.again (ready : c.Ready sha root content w0)
    (around : (c.site sha root content).Around w0 w) : c.Ready sha root content w := by
  have below : BelowArtifacts root (c.site sha root content).temporary :=
    temporaryPath_below _ _ _ _
  have below' : BelowArtifacts root (c.site sha root content).destination := blobPath_below _ _ _
  refine ⟨ready.outside, ?_, ready.bound, ?_⟩
  · rw [← ready.there]
    apply around.others
    · intro same
      exact ready.outside (same ▸ below)
    · intro same
      exact ready.outside (same ▸ below')
  · intro i x found
    rw [around.db] at found
    obtain ⟨uri, stored⟩ := ready.backed i x found
    refine ⟨uri, ?_⟩
    obtain noBlob | stored' := around.blob
    · rw [around.keeps noBlob] at stored
      cases stored
    · exact stored'

/-- A session ingests a content, an effect of it is struck by an error, and a second session of the
    same process ingests the content into the same project without an error. The first session
    fails and leaves the database as it was. The second one succeeds, with its artifact in the
    database and its blob in the store, if and only if no temporary file was in the way of the blob
    at the error, or `os.replace` raised it. -/
theorem retry_stores_iff {c' : IngestCall} {t w1 w2 : StoreWorld} {e : StoreEffect}
    {r r' : Except PyErr (List String)} (ready : c.Ready sha root content w)
    (ready' : c'.Ready sha root content w) (project : c'.projectId = c.projectId)
    (process : c'.pid = c.pid)
    (blob : w.files (c.site sha root content).destination = none ∨
      w.files (c.site sha root content).destination = some content)
    (failed : (storeMachine root).Struck StoreAnswer.Fine
      (ingestSession sha root { calls := [c], commits := true }) w (some (e, t)) r w1)
    (retry : (storeMachine root).Struck StoreAnswer.Fine
      (ingestSession sha root { calls := [c'], commits := true }) w1 none r' w2) :
    (∃ err, r = .error err) ∧ w1.db = w.db ∧
      ((∃ id, r' = .ok [id] ∧ c'.Stored sha root content w2.db w2.files id) ↔
        ¬ ((c.site sha root content).Blocked t ∧
          e ≠ .replace (c.site sha root content).temporary
            (c.site sha root content).destination)) := by
  have site : c'.site sha root content = c.site sha root content := by
    unfold IngestCall.site
    simp only [project, process]
  have start : (c.site sha root content).Around w w :=
    ⟨rfl, fun _ _ _ => rfl, blob, id⟩
  obtain ⟨error, broken⟩ := ingestSession_ends start ready _ _ _ failed
  have around : (c'.site sha root content).Around w w1 := site ▸ broken.around
  have ended := ingestSession_ends around (ready'.again around) _ _ _ retry
  have blocked : (c.site sha root content).Blocked w1 ↔ (c.site sha root content).Blocked t ∧
      e ≠ .replace (c.site sha root content).temporary
        (c.site sha root content).destination := by
    obtain ⟨rfl, ne⟩ | ⟨free, e⟩ := broken.last
    · exact (and_iff_left ne).symm
    · exact iff_of_false (fun blocked => blocked.1 free) (fun both => both.2 e)
  refine ⟨error, broken.around.db, ?_⟩
  rw [← blocked, ← site]
  constructor
  · rintro ⟨id, e, _⟩ taken
    obtain ⟨free, _⟩ | ⟨_, err, no⟩ := ended
    · exact free taken
    · rw [e] at no
      cases no
  · intro free
    obtain ⟨_, done⟩ | ⟨taken, _⟩ := ended
    · exact done
    · exact (free taken).elim

end

/-! ## A disk that is full -/

/-- A workspace with a project and a source file. -/
def sourceWorld : StoreWorld where
  files path := if path = "/src" then some [97] else none
  db := { projects := Dict.empty.set "p" { slug := "s" } }
  session := { projects := Dict.empty.set "p" { slug := "s" } }

/-- Ingest the source file. -/
def sourceCall : IngestCall :=
  { projectId := "p", source := "/src", logicalName := "result", kind := "TEST",
    producerType := "TEST", producerRefId := "run-1", pid := 1, limit := 5 }

lemma sourceCall_ready : sourceCall.Ready sampleSha "/w" [97] sourceWorld := by
  refine ⟨(writeSource []).outside, by decide, by decide, ?_⟩
  intro i x found
  cases found

/-- The effect behind the first `n` is struck. -/
def failing : ℕ → List StoreAnswer
  | 0 => [{ fault := some (.ioError "No space left on device") }, {}]
  | n + 1 => {} :: failing n

/-- A session that is struck behind `n` effects, and a second one without an error. -/
def retried (n : ℕ) :
    Option ((Option (StoreEffect × StoreWorld) × Except PyErr (List String) × StoreWorld) ×
      Option (StoreEffect × StoreWorld) × Except PyErr (List String) × StoreWorld) :=
  let session := ingestSession sampleSha "/w" { calls := [sourceCall], commits := true }
  ((storeMachine "/w").strike StoreAnswer.Fine session sourceWorld
    (failing n)).bind fun first =>
      ((storeMachine "/w").strike StoreAnswer.Fine session first.2.2
        (List.replicate 23 { uuid := "1" })).map fun second => (first, second)

lemma retried_runs (n : ℕ) (ok : Bool)
    (h : (retried n).map (fun x => (x.1.1.isSome, x.2.1.isSome, x.2.2.1.isOk)) =
      some (true, false, ok)) :
    ∃ e t r w1 r' w2,
      (storeMachine "/w").Struck StoreAnswer.Fine
        (ingestSession sampleSha "/w" { calls := [sourceCall], commits := true }) sourceWorld
        (some (e, t)) r w1 ∧
      (storeMachine "/w").Struck StoreAnswer.Fine
        (ingestSession sampleSha "/w" { calls := [sourceCall], commits := true }) w1 none r' w2 ∧
      r'.isOk = ok := by
  obtain ⟨⟨⟨struck, r, w1⟩, struck', r', w2⟩, runs, e⟩ := Option.map_eq_some_iff.mp h
  obtain ⟨first, ran, runs⟩ := Option.bind_eq_some_iff.mp runs
  obtain ⟨second, ran', both⟩ := Option.map_eq_some_iff.mp runs
  cases both
  simp only [Prod.mk.injEq] at e
  obtain ⟨failed, faultless, rfl⟩ := e
  obtain ⟨⟨e, t⟩, rfl⟩ := Option.isSome_iff_exists.mp failed
  have none' : struck' = none := by
    rw [Option.isSome_eq_false_iff, Option.isNone_iff_eq_none] at faultless
    exact faultless
  subst none'
  exact ⟨e, t, r, w1, r', w2, .of_strike ran, .of_strike ran', rfl⟩

set_option maxRecDepth 4000 in
/-- An error of `os.fsync` leaves the temporary file, and the next attempt is refused. -/
theorem retry_refused :
    sourceCall.Ready sampleSha "/w" [97] sourceWorld ∧ ∃ e t r w1 r' w2,
      (storeMachine "/w").Struck StoreAnswer.Fine
        (ingestSession sampleSha "/w" { calls := [sourceCall], commits := true }) sourceWorld
        (some (e, t)) r w1 ∧
      (storeMachine "/w").Struck StoreAnswer.Fine
        (ingestSession sampleSha "/w" { calls := [sourceCall], commits := true }) w1 none r' w2 ∧
      ∀ artifacts, r' ≠ .ok artifacts := by
  obtain ⟨e, t, r, w1, r', w2, failed, retry, refused⟩ := retried_runs 12 false (by decide)
  refine ⟨sourceCall_ready, e, t, r, w1, r', w2, failed, retry, ?_⟩
  rintro artifacts rfl
  cases refused

set_option maxRecDepth 4000 in
/-- After an error of `os.replace` the next attempt succeeds. -/
theorem retry_stores_iff_replace :
    ∃ (e : StoreEffect) (t w1 w2 : StoreWorld) (r r' : Except PyErr (List String)),
      (storeMachine "/w").Struck StoreAnswer.Fine
        (ingestSession sampleSha "/w" { calls := [sourceCall], commits := true }) sourceWorld
        (some (e, t)) r w1 ∧
      (storeMachine "/w").Struck StoreAnswer.Fine
        (ingestSession sampleSha "/w" { calls := [sourceCall], commits := true }) w1 none r' w2 ∧
      r'.isOk = true ∧
      ((∃ err, r = .error err) ∧ w1.db = sourceWorld.db ∧
        ((∃ id, r' = .ok [id] ∧ sourceCall.Stored sampleSha "/w" [97] w2.db w2.files id) ↔
          ¬ ((sourceCall.site sampleSha "/w" [97]).Blocked t ∧
            e ≠ .replace (sourceCall.site sampleSha "/w" [97]).temporary
              (sourceCall.site sampleSha "/w" [97]).destination))) := by
  obtain ⟨e, t, r, w1, r', w2, failed, retry, ok⟩ := retried_runs 16 true (by decide)
  exact ⟨e, t, w1, w2, r, r', failed, retry, ok,
    retry_stores_iff sourceCall_ready sourceCall_ready rfl rfl (Or.inl (by decide)) failed retry⟩

end ResearchController
