import ResearchController.Lib.Embed
import ResearchController.Lib.Implement
import ResearchController.Lib.Scratch

/-!
# Records that are replaced as a whole

Above a file tree on which processes replace records by way of temporary files (`FileTree.Sound`)
there is a shelf on which a record is read and replaced in one step. `shelf` is the layer between a
file tree, next to any other world, and an upper world that is related to the texts of the records.
`shelf_save`, `shelf_load`, `shelf_exists` and `shelf_other` are the bodies from which the effects
above are made.
-/

namespace ResearchController.Lib

variable {ι ν δ β ε σ E O W : Type} {R : E → Type}

variable {ρ X OX WX : Type} {RX : X → Type} [DecidableEq ν] [DecidableEq δ]

/-- A machine next to another one. -/
def Machine.beside {σ' E' O' W' : Type} {R' : E' → Type} (m : Machine σ E R O W)
    (k : Machine σ' E' R' O' W') :
    Machine (σ × σ') (E ⊕ E') (Sum.elim R R') (O × O') (W ⊕ W') where
  handle s e o :=
    match e with
    | .inl e => (((m.handle s.1 e o.1).1, s.2), (m.handle s.1 e o.1).2)
    | .inr e => ((s.1, (k.handle s.2 e o.2).1), (k.handle s.2 e o.2).2)
  drift s w :=
    match w with
    | .inl w => (m.drift s.1 w).map fun t => (t, s.2)
    | .inr w => (k.drift s.2 w).map fun t => (s.1, t)

/-- A program over system calls among other effects. -/
def FileProgram.lift {X : Type} {RX : X → Type} {α : Type} (p : FileProgram ν δ β ε α) :
    Program (FileEffect ν δ β ⊕ X) (Sum.elim (FileEffect.Answer ε) RX) ε α :=
  p.embed Sum.inl fun _ r => r

omit [DecidableEq ν] [DecidableEq δ] in
lemma FileProgram.lift_bind {α α' : Type} (p : FileProgram ν δ β ε α')
    (f : α' → FileProgram ν δ β ε α) :
    (FileProgram.lift (p >>= f) : Program (FileEffect ν δ β ⊕ X)
      (Sum.elim (FileEffect.Answer ε) RX) ε α) = p.lift >>= fun a => (f a).lift :=
  Program.embed_bind p f

/-- A file tree, and a world next to it, stand for an upper world that is related to the texts of
    the records. -/
def shelf (N : Scratch ι ν) (valid : ν → List β → Prop)
    (related : (ν → Option (List β)) → ρ → σ → Prop) : Layer ι (FileTree ν δ β × ρ) σ where
  sound a := a.1.Sound N valid
  stands a w := ∃ s, (∀ p, N.record p → s p = a.1.text p) ∧ related s a.2 w
  rely i a b := a.1.Relies N i b.1

/-- The machine of the system calls next to another one. -/
abbrev fileMachineBeside (dir : ν → δ) (notFound : ν → ε) (k : Machine ρ X RX OX WX) :
    Machine (FileTree ν δ β × ρ) (FileEffect ν δ β ⊕ X) (Sum.elim (FileEffect.Answer ε) RX)
      (FileOutcome ε × OX) (Empty ⊕ WX) :=
  (fileMachine dir notFound).beside k

section Bodies

variable {N : Scratch ι ν} {valid : ν → List β → Prop}
  {related : (ν → Option (List β)) → ρ → σ → Prop} {dir : ν → δ} {notFound : ν → ε}
  {k : Machine ρ X RX OX WX} {m : Machine σ E R O W} {i : ι} {path : ν} {α : Type}

omit [DecidableEq ν] [DecidableEq δ] in
lemma shelf_private (related : (ν → Option (List β)) → ρ → σ → Prop) {t t' : FileTree ν δ β} (x : ρ)
    (own : t.Private N valid i t') :
    (shelf N valid related).Guards i (t, x) (t', x) ∧
      (shelf N valid related).Unseen (t, x) (t', x) := by
  refine ⟨⟨own.sound, fun j ne => own.relies j ne⟩, ?_⟩
  rintro w ⟨s, same, rel⟩
  exact ⟨s, fun p record => (same p record).trans (own.text p record).symm, rel⟩

/-- A system call that changes no record. -/
lemma shelf_quiet {Q : α → FileTree ν δ β × ρ → Prop} {c : FileEffect ν δ β}
    {f : c.Answer ε → FileProgram ν δ β ε α} (P : FileTree ν δ β → Prop)
    (stable : ∀ t t', P t → t.Relies N i t' → P t')
    (step : ∀ t x o, P t → t.Sound N valid →
      t.Private N valid i ((fileMachine dir notFound).handle t c o).1 ∧
      (shelf N valid related).Quiet (fileMachineBeside dir notFound k) i Q
        (f ((fileMachine dir notFound).handle t c o).2).lift
        (((fileMachine dir notFound).handle t c o).1, x))
    {t : FileTree ν δ β} {x : ρ} (ht : P t) :
    (shelf N valid related).Quiet (fileMachineBeside dir notFound k) i Q
      (FileProgram.lift (Program.call c >>= f)) (t, x) := by
  refine Layer.Quiet.call (e := Sum.inl c) (fun a => P a.1) ht (fun a b => stable a.1 b.1) ?_
  rintro ⟨t, x⟩ ht sound o
  obtain ⟨own, continues⟩ := step t x o.1 ht sound
  obtain ⟨guards, unseen⟩ := shelf_private related x own
  exact ⟨guards, unseen, continues⟩

/-- A value is taken; an exception ends the body. -/
lemma shelf_check {Q : α → FileTree ν δ β × ρ → Prop} {α' : Type} {r : Except ε α'}
    {f : α' → FileProgram ν δ β ε α} {a : FileTree ν δ β × ρ}
    (returns : ∀ v, r = .ok v →
      (shelf N valid related).Quiet (fileMachineBeside dir notFound k) i Q (f v).lift a) :
    (shelf N valid related).Quiet (fileMachineBeside dir notFound k) i Q
      (FileProgram.lift (Program.check r >>= f)) a := by
  cases r with
  | ok v => exact returns v rfl
  | error e => trivial

/-- One part of a body after another. -/
lemma shelf_bind {α' : Type} {Q : α' → FileTree ν δ β × ρ → Prop}
    {Q' : α → FileTree ν δ β × ρ → Prop} {p : FileProgram ν δ β ε α'}
    {f : α' → FileProgram ν δ β ε α} {a : FileTree ν δ β × ρ}
    (first : (shelf N valid related).Quiet (fileMachineBeside dir notFound k) i Q
      (FileProgram.lift p) a)
    (rest : ∀ v a, Q v a → (shelf N valid related).Quiet (fileMachineBeside dir notFound k) i Q'
      (FileProgram.lift (f v)) a) :
    (shelf N valid related).Quiet (fileMachineBeside dir notFound k) i Q'
      (FileProgram.lift (p >>= f)) a := by
  rw [FileProgram.lift_bind]
  exact first.bind rest

/-- The step that takes effect comes in the second part of a body. -/
lemma shelf_performs_bind {α' : Type} {Q : α' → FileTree ν δ β × ρ → Prop} {e : E}
    {p : FileProgram ν δ β ε α'} {f : α' → FileProgram ν δ β ε α} {r : α → R e}
    {a : FileTree ν δ β × ρ}
    (first : (shelf N valid related).Quiet (fileMachineBeside dir notFound k) i Q
      (FileProgram.lift p) a)
    (rest : ∀ v a, Q v a → (shelf N valid related).Performs (fileMachineBeside dir notFound k) m i e
      (FileProgram.lift (f v) >>= fun b => Program.ret (r b)) a) :
    (shelf N valid related).Performs (fileMachineBeside dir notFound k) m i e
      (FileProgram.lift (p >>= f) >>= fun b => Program.ret (r b)) a := by
  rw [FileProgram.lift_bind, Program.bind_assoc]
  exact Layer.Performs.bind first rest

/-- The chunks are handed to the temporary file one after the other. -/
lemma quiet_writeChunks {fd : Nat} (chunks : List (List β)) (begun : List β)
    {t : FileTree ν δ β} {x : ρ} (mine : t.entry (N.temp i path) = some fd)
    (written : t.inode fd = begun) :
    (shelf N valid related).Quiet (fileMachineBeside dir notFound k) i
      (fun _ a => a.1.entry (N.temp i path) = some fd ∧
        a.1.inode fd = begun ++ chunks.flatten)
      (FileProgram.lift (writeChunks fd chunks)) (t, x) := by
  induction chunks generalizing begun t x with
  | nil => exact ⟨mine, by rw [written, List.flatten_nil, List.append_nil]⟩
  | cons chunk rest ih =>
    rw [writeChunks]
    apply shelf_quiet (fun t => t.entry (N.temp i path) = some fd ∧ t.inode fd = begun) ?_ ?_
      ⟨mine, written⟩
    · rintro t t' ⟨mine, written⟩ relies
      exact ⟨(relies.temp path).trans mine, ((relies.own path fd mine).1).trans written⟩
    · rintro t x ⟨fault, count⟩ ⟨mine, written⟩ sound
      cases fault with
      | some e => exact ⟨sound.stores mine _, trivial⟩
      | none =>
        refine ⟨sound.stores mine _, ?_⟩
        have continues := ih (begun ++ chunk) (t := t.store fd (t.inode fd ++ chunk)) (x := x) mine
          (by rw [FileTree.store_inode_self, written])
        rw [List.append_assoc] at continues
        exact continues

/-- The temporary file holds the whole text, on the disk. -/
def FileTree.Written (N : Scratch ι ν) (i : ι) (path : ν) (text : List β)
    (t : FileTree ν δ β) : Prop :=
  ∃ fd, t.entry (N.temp i path) = some fd ∧ t.inode fd = text ∧ t.synced fd = true

omit [DecidableEq ν] [DecidableEq δ] in
lemma FileTree.Written.relied {text : List β} {t t' : FileTree ν δ β} (h : t.Written N i path text)
    (r : t.Relies N i t') : t'.Written N i path text := by
  obtain ⟨fd, mine, whole, synced⟩ := h
  obtain ⟨inode, same⟩ := r.own path fd mine
  exact ⟨fd, (r.temp path).trans mine, inode.trans whole, same.trans synced⟩

lemma quiet_writeSynced (chunks : List (List β)) {t : FileTree ν δ β} {x : ρ} :
    (shelf N valid related).Quiet (fileMachineBeside dir notFound k) i
      (fun _ a => a.1.Written N i path chunks.flatten)
      (FileProgram.lift (writeSynced (N.temp i path) chunks)) (t, x) := by
  rw [writeSynced]
  apply shelf_quiet (fun _ => True) (fun _ _ _ _ => trivial) ?_ trivial
  rintro t x ⟨fault, count⟩ - sound
  have filled : ∀ t x fd, t.entry (N.temp i path) = some fd → t.inode fd = [] →
      (shelf N valid related).Quiet (fileMachineBeside dir notFound k) i
        (fun _ a => a.1.Written N i path chunks.flatten)
        (FileProgram.lift (writeChunks fd chunks >>= fun _ =>
          Program.call (FileEffect.fsync fd) >>= fun synced => Program.check synced)) (t, x) := by
    intro t x fd mine empty
    apply shelf_bind (quiet_writeChunks chunks [] mine empty)
    rintro - ⟨t, x⟩ written
    refine shelf_quiet (fun t => t.entry (N.temp i path) = some fd ∧ t.inode fd = chunks.flatten)
      ?_ ?_ written
    · rintro t t' ⟨mine, written⟩ relies
      exact ⟨(relies.temp path).trans mine, ((relies.own path fd mine).1).trans written⟩
    · rintro t x ⟨fault, count⟩ ⟨mine, written⟩ sound
      cases fault with
      | some e => exact ⟨sound.still, trivial⟩
      | none => exact ⟨sound.syncs mine, fd, mine, written, Function.update_self _ _ _⟩
  cases fault with
  | some e => exact ⟨sound.still, trivial⟩
  | none =>
    -- a file that is left over from a process with the same number is used again
    cases left : t.entry (N.temp i path) with
    | some fd =>
      have opened : (fileMachine dir notFound).handle t (.openWrite (N.temp i path)) ⟨none, count⟩ =
          (t.store fd [], .ok fd) := by
        simp only [fileMachine, FileTree.call, left]
      rw [opened]
      exact ⟨sound.stores left [], filled _ x fd left (t.store_inode_self fd [])⟩
    | none =>
      have opened : (fileMachine dir notFound).handle t (.openWrite (N.temp i path)) ⟨none, count⟩ =
          ((t.create (dir (N.temp i path)) (N.temp i path)).store t.next [], .ok t.next) := by
        simp only [fileMachine, FileTree.call, left]
      rw [opened]
      exact ⟨sound.creates _ [],
        filled _ x t.next (t.create_entry_self (dir (N.temp i path)) (N.temp i path))
          (FileTree.store_inode_self _ _ _)⟩

/-- **Replacing a record.** The effect takes place when the temporary file gets the name of the
    record. -/
theorem shelf_save {e : E} {r : R e} {chunks : List (List β)} (record : N.record path)
    (good : valid path chunks.flatten)
    (saves : ∃ o, ∀ s x w, related s x w →
      related (Function.update s path (some chunks.flatten)) x (m.handle w e o).1 ∧
        (m.handle w e o).2 = r) {a : FileTree ν δ β × ρ} :
    (shelf N valid related).Performs (fileMachineBeside dir notFound k) m i e
      (FileProgram.lift (writeBy (N.temp i path) path chunks) >>= fun _ => Program.ret r) a := by
  obtain ⟨t, x⟩ := a
  have replaces : ∀ t x, t.Written N i path chunks.flatten →
      (shelf N valid related).Performs (fileMachineBeside dir notFound k) m i e
        (FileProgram.lift (Program.call (FileEffect.replace (N.temp i path) path) >>=
          fun replaced => Program.check replaced) >>= fun _ => Program.ret r) (t, x) := by
    intro t x written
    refine Layer.Performs.call (f := Sum.inl (FileEffect.replace (N.temp i path) path))
      (fun a => a.1.Written N i path chunks.flatten) written (fun a b => FileTree.Written.relied) ?_
    rintro ⟨t, x⟩ written sound ⟨⟨fault, count⟩, o⟩
    cases fault with
    | some err =>
      obtain ⟨guards, unseen⟩ := shelf_private related x (FileTree.Sound.still (i := i) sound)
      exact ⟨guards, .inl ⟨unseen, trivial⟩⟩
    | none =>
      obtain ⟨fd, (mine : t.entry (N.temp i path) = some fd), whole, synced⟩ := written
      have replaced : (fileMachineBeside dir notFound k).handle (t, x)
          (Sum.inl (FileEffect.replace (N.temp i path) path)) (⟨none, count⟩, o) =
          ((t.rename (dir path) (N.temp i path) path fd, x), .ok ()) := by
        simp only [Machine.beside, fileMachine, FileTree.call, mine]
      rw [replaced]
      refine ⟨⟨?_, fun j ne => FileTree.rename_relies (dir path) record ne⟩, .inr ⟨r, ?_, rfl⟩⟩
      · exact FileTree.Sound.rename sound (dir path) mine record synced (whole ▸ good)
      · obtain ⟨o', saves⟩ := saves
        refine ⟨o', ?_⟩
        rintro w ⟨s, same, rel⟩
        obtain ⟨rel, answered⟩ := saves s x w rel
        refine ⟨⟨_, fun p record' => ?_, rel⟩, answered⟩
        rw [FileTree.rename_text (dir path) record', Function.update_apply, whole]
        split
        · rfl
        · exact same p record'
  rw [writeBy]
  apply shelf_performs_bind (r := fun _ => r) (quiet_writeSynced chunks)
  rintro - ⟨t, x⟩ written
  exact replaces t x written

/-- A file that nobody can write any more is read in full. -/
lemma quiet_readRest {fd : Nat} {text : List β} (fuel : Nat) (got : List β) (part : got <+: text)
    (enough : text.length < fuel + got.length) {t : FileTree ν δ β} {x : ρ}
    (settled : t.Settled N fd) (whole : t.inode fd = text) :
    (shelf N valid related).Quiet (fileMachineBeside dir notFound k) i (fun all _ => all = text)
      (FileProgram.lift (readRest fd fuel got)) (t, x) := by
  induction fuel generalizing got t x with
  | zero =>
    rw [Nat.zero_add] at enough
    exact absurd part.length_le (Nat.not_le.mpr enough)
  | succ fuel ih =>
    rw [readRest]
    apply shelf_quiet (fun t => t.Settled N fd ∧ t.inode fd = text) ?_ ?_ ⟨settled, whole⟩
    · rintro t t' ⟨settled, whole⟩ relies
      obtain ⟨settled, inode⟩ := relies.settled fd settled
      exact ⟨settled, inode.trans whole⟩
    · rintro t x ⟨fault, count⟩ ⟨settled, whole⟩ sound
      cases fault with
      | some e => exact ⟨sound.still, trivial⟩
      | none =>
        refine ⟨sound.still, ?_⟩
        have read : ((fileMachine dir notFound).handle t (.read fd got.length) ⟨none, count⟩).2 =
            .ok ((text.drop got.length).take (count + 1)) := by
          rw [← whole]
          rfl
        rw [read]
        apply shelf_check
        rintro chunk ⟨⟩
        obtain ⟨left, rfl⟩ := part
        rw [List.drop_left]
        cases left with
        | nil => exact (List.append_nil got).symm
        | cons b left =>
          refine ih (got ++ (b :: left).take (count + 1)) ?_ ?_ settled whole
          · exact (List.prefix_append_right_inj got).mpr (List.take_prefix _ _)
          · simp only [List.length_append, List.length_cons, List.take_succ_cons] at enough ⊢
            omega

/-- **Reading a record.** The effect takes place when the file is opened. -/
theorem shelf_load {e : E}
    {after : List β → Program (FileEffect ν δ β ⊕ X) (Sum.elim (FileEffect.Answer ε) RX) ε (R e)}
    (record : N.record path)
    (loads : ∀ text, valid path text → ∃ r o, after text = .ret r ∧
      ∀ s x w, related s x w → s path = some text →
        related s x (m.handle w e o).1 ∧ (m.handle w e o).2 = r) {a : FileTree ν δ β × ρ} :
    (shelf N valid related).Performs (fileMachineBeside dir notFound k) m i e
      (FileProgram.lift (readAll path) >>= after) a := by
  refine Layer.Performs.call (f := Sum.inl (FileEffect.openRead path)) (fun _ => True) trivial
    (fun _ _ _ _ => trivial) ?_
  rintro ⟨t, x⟩ - sound ⟨⟨fault, count⟩, o⟩
  have own : t.Private N valid i t := FileTree.Sound.still sound
  obtain ⟨guards, unseen⟩ := shelf_private related x own
  cases fault with
  | some err => exact ⟨guards, .inl ⟨unseen, trivial⟩⟩
  | none =>
    cases linked : t.entry path with
    | none =>
      have missing : (fileMachineBeside dir notFound k).handle (t, x)
          (Sum.inl (FileEffect.openRead path)) (⟨none, count⟩, o) =
          ((t, x), .error (notFound path)) := by
        simp only [Machine.beside, fileMachine, FileTree.call, linked]
      rw [missing]
      exact ⟨guards, .inl ⟨unseen, trivial⟩⟩
    | some fd =>
      obtain ⟨settled, _, good⟩ := sound.records _ t.entry_mem_versions path fd record linked
      have opened : (fileMachineBeside dir notFound k).handle (t, x)
          (Sum.inl (FileEffect.openRead path)) (⟨none, count⟩, o) = ((t, x), .ok fd) := by
        simp only [Machine.beside, fileMachine, FileTree.call, linked]
      rw [opened]
      obtain ⟨r, o', returns, loads⟩ := loads _ good
      refine ⟨guards, .inr ⟨r, ⟨o', ?_⟩, ?_⟩⟩
      · rintro w ⟨s, same, rel⟩
        have found : s path = some (t.inode fd) := by
          rw [same path record]
          exact congrArg (Option.map t.inode) linked
        obtain ⟨rel, answered⟩ := loads s x w rel found
        exact ⟨⟨s, same, rel⟩, answered⟩
      · have whole : (shelf N valid related).Quiet (fileMachineBeside dir notFound k) i
            (fun all _ => all = t.inode fd)
            (FileProgram.lift (Program.call (FileEffect.size fd) >>= fun sized =>
              Program.check sized >>= fun size => readRest fd (size + 1) [])) (t, x) := by
          apply shelf_quiet (fun t' => t'.Settled N fd ∧ t'.inode fd = t.inode fd) ?_ ?_
            ⟨settled, rfl⟩
          · rintro t₁ t₂ ⟨settled, same⟩ relies
            obtain ⟨settled, inode⟩ := relies.settled fd settled
            exact ⟨settled, inode.trans same⟩
          · rintro t' x ⟨fault, count⟩ ⟨settled, same⟩ sound
            cases fault with
            | some e => exact ⟨sound.still, trivial⟩
            | none =>
              refine ⟨sound.still, ?_⟩
              apply shelf_check
              rintro size ⟨⟩
              apply quiet_readRest _ [] (List.nil_prefix) _ settled same
              rw [same, List.length_nil]
              exact Nat.lt_succ_self _
        apply whole.bind
        rintro all - rfl
        rw [returns]
        rfl

/-- Looking for a record. -/
lemma shelf_exists {e : E} {g : Bool → R e} (record : N.record path)
    (looks : ∀ present, ∃ o, ∀ s x w, related s x w → (s path).isSome = present →
      related s x (m.handle w e o).1 ∧ (m.handle w e o).2 = g present)
    {a : FileTree ν δ β × ρ} :
    (shelf N valid related).Performs (fileMachineBeside dir notFound k) m i e
      (FileProgram.lift (Program.call (FileEffect.pathExists path)) >>= fun present =>
        Program.ret (g present)) a := by
  refine Layer.Performs.call (f := Sum.inl (FileEffect.pathExists path)) (fun _ => True) trivial
    (fun _ _ _ _ => trivial) ?_
  rintro ⟨t, x⟩ - sound ⟨⟨fault, count⟩, o⟩
  have answered : (fileMachineBeside dir notFound k).handle (t, x)
      (Sum.inl (FileEffect.pathExists path)) (⟨fault, count⟩, o) =
      ((t, x), (t.entry path).isSome) := by
    cases fault <;> rfl
  rw [answered]
  have own : t.Private N valid i t := FileTree.Sound.still sound
  refine ⟨(shelf_private related x own).1, .inr ⟨g (t.entry path).isSome, ?_, rfl⟩⟩
  obtain ⟨o', looks⟩ := looks (t.entry path).isSome
  refine ⟨o', ?_⟩
  rintro w ⟨s, same, rel⟩
  have present : (s path).isSome = (t.entry path).isSome := by
    rw [same path record, FileTree.text, Option.isSome_map]
  obtain ⟨rel, answered⟩ := looks s x w rel present
  exact ⟨⟨s, same, rel⟩, answered⟩

/-- An effect of the machine next to the files. -/
lemma shelf_other {e : E} {y : X} {g : RX y → R e}
    (acts : ∀ x o, ∃ o', ∀ s w, related s x w →
      related s (k.handle x y o).1 (m.handle w e o').1 ∧
        (m.handle w e o').2 = g (k.handle x y o).2) {a : FileTree ν δ β × ρ} :
    (shelf N valid related).Performs (fileMachineBeside dir notFound k) m i e
      (.perform (Sum.inr y) fun r => .ret (g r) :
        Program (FileEffect ν δ β ⊕ X) (Sum.elim (FileEffect.Answer ε) RX) ε (R e)) a := by
  refine Layer.Performs.call (f := Sum.inr y) (fun _ => True) trivial (fun _ _ _ _ => trivial) ?_
  rintro ⟨t, x⟩ - sound ⟨o, o'⟩
  refine ⟨⟨sound, fun j _ => .refl t⟩, .inr ⟨g (k.handle x y o').2, ?_, rfl⟩⟩
  obtain ⟨o'', acts⟩ := acts x o'
  refine ⟨o'', ?_⟩
  rintro w ⟨s, same, rel⟩
  obtain ⟨rel, answered⟩ := acts s w rel
  exact ⟨⟨s, same, rel⟩, answered⟩

/-- The bodies fit if each of them performs its effect and the steps of the surroundings next to the
    files are steps of the surroundings above. -/
lemma shelf_fits {K : E → Prop}
    {body : ι → ∀ e, Program (FileEffect ν δ β ⊕ X) (Sum.elim (FileEffect.Answer ε) RX) ε (R e)}
    (drifts : ∀ x w x', k.drift x w = some x' → ∃ w', ∀ s u, related s x u →
      ∃ u', m.drift u w' = some u' ∧ related s x' u')
    (performs : ∀ i e a, K e →
      (shelf N valid related).Performs (fileMachineBeside dir notFound k) m i e (body i e) a) :
    (shelf N valid related).Fits (fileMachineBeside dir notFound k) m K body := by
  refine ⟨fun _ _ => .refl _, ?_, fun i e a inside _ => performs i e a inside⟩
  rintro ⟨t, x⟩ w t' sound moved
  cases w with
  | inl w => nomatch w
  | inr w =>
    obtain ⟨x', next, rfl⟩ := Option.map_eq_some_iff.mp moved
    refine ⟨sound, fun _ => .refl t, .inr ?_⟩
    obtain ⟨w', drifts⟩ := drifts x w x' next
    refine ⟨w', ?_⟩
    rintro u ⟨s, same, rel⟩
    obtain ⟨u', moved, rel⟩ := drifts s u rel
    exact ⟨u', moved, s, same, rel⟩

end Bodies

end ResearchController.Lib
