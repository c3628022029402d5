import ResearchController.Lib.Loop
import ResearchController.Lib.System
import ResearchController.Services.EventLog

/-!
# Concurrent sessions and the numbering of events

`EventLog.append` increments the counter of a project in memory. With several sessions the row in
memory may be stale: a session reads a project once, keeps the row in its identity map, and when it
commits writes the absolute counters it has computed. What protects the numbering is the unique
constraint on `(project_id, seq)`: the first number of a stale session is taken already.

A session is its identity map, each row with what was loaded and what it has become, and the events
it has added. `commit` writes the rows that changed and inserts the events, as a whole or not at
all. A session that has committed keeps its rows (`expire_on_commit=False`) and may go on; a
rollback expires them.
-/

namespace ResearchController
open Lib

/-- A project row in the identity map of a session. -/
structure LoadedProject where
  persistent : Bool
  base : Project
  current : Project

/-- The state of a session, as far as the event log is concerned. -/
structure Session where
  loaded : Dict String LoadedProject := Dict.empty
  pending : List Event := []

/-- `session.get(Project, project_id)`. -/
def Session.get (s : Session) (db : Db) (projectId : String) : Session :=
  match s.loaded.get projectId, db.projects.get projectId with
  | none, some p =>
    { s with loaded := s.loaded.set projectId { persistent := true, base := p, current := p } }
  | _, _ => s

/-- `session.add(Project(…))`. -/
def Session.addProject (s : Session) (projectId slug : String) (lifecycle : ProjectLifecycle) :
    Session :=
  match s.loaded.get projectId with
  | none =>
    let p : Project := { slug := slug, lifecycle := lifecycle }
    { s with loaded := s.loaded.set projectId { persistent := false, base := p, current := p } }
  | some _ => s

/-- `EventLog.append` in a session that has the project in its identity map. -/
def Session.appendLoaded (s : Session) (projectId : String) (d : EventDraft) : Session :=
  match s.loaded.get projectId with
  | none => s
  | some l =>
    { loaded := s.loaded.set projectId { l with current := l.current.bump },
      pending := s.pending ++ [d.at projectId l.current.bump.eventSeq] }

/-- `EventLog.append` in a session. A `LookupError` leaves the session as it is. -/
def Session.append (s : Session) (db : Db) (projectId : String) (d : EventDraft) : Session :=
  (s.get db projectId).appendLoaded projectId d

/-- Write one row of the identity map: an insertion, an update of the changed counters, or
    nothing. -/
def Db.writeProject (db : Db) (item : String × LoadedProject) : Except PyErr Db :=
  let (projectId, l) := item
  match l.persistent, db.projects.get projectId with
  | false, none =>
    if db.projects.any fun _ p => p.slug == l.current.slug then
      .error (.integrityError "projects.slug")
    else
      .ok { db with projects := db.projects.set projectId l.current }
  | false, some _ => .error (.integrityError "projects.id")
  | true, none => .error (.staleDataError s!"Project {projectId}")
  | true, some p =>
    if l.current = l.base then
      .ok db
    else
      .ok { db with
        projects := db.projects.set projectId
          { p with eventSeq := l.current.eventSeq, lockVersion := l.current.lockVersion } }

/-- `session.commit()`. -/
def Db.commitSession (db : Db) (s : Session) : Except PyErr Db := do
  let db ← s.loaded.items.foldlM Db.writeProject db
  s.pending.foldlM Db.insertEvent db

/-- A session after its commit: the rows it wrote are what it has loaded. -/
def Session.committed (s : Session) : Session :=
  { loaded := s.loaded.mapValues fun l =>
      { persistent := true, base := l.current, current := l.current } }

/-- The database and the sessions that are open on it. -/
structure Sessions where
  db : Db
  opened : Dict ℕ Session

/-- What a session does. -/
inductive SessionEvent where
  | begin (sid : ℕ)
  | get (sid : ℕ) (projectId : String)
  | addProject (sid : ℕ) (projectId slug : String) (lifecycle : ProjectLifecycle)
  | append (sid : ℕ) (projectId : String) (d : EventDraft)
  | commit (sid : ℕ)
  | rollback (sid : ℕ)

/-- The session of an event that is not `begin`. -/
def Sessions.onSession (w : Sessions) (sid : ℕ) (f : Session → Sessions) : Option Sessions :=
  (w.opened.get sid).map f

/-- The interleaving of the sessions. -/
def sessionInterleaving : System Sessions SessionEvent where
  step w
    | .begin sid =>
      if (w.opened.get sid).isSome then none
      else some { w with opened := w.opened.set sid {} }
    | .get sid projectId =>
      w.onSession sid fun s => { w with opened := w.opened.set sid (s.get w.db projectId) }
    | .addProject sid projectId slug lifecycle =>
      w.onSession sid fun s =>
        { w with opened := w.opened.set sid (s.addProject projectId slug lifecycle) }
    | .append sid projectId d =>
      w.onSession sid fun s => { w with opened := w.opened.set sid (s.append w.db projectId d) }
    | .commit sid =>
      w.onSession sid fun s =>
        match w.db.commitSession s with
        | .ok db => { db := db, opened := w.opened.set sid s.committed }
        | .error _ => { w with opened := w.opened.set sid {} }
    | .rollback sid =>
      w.onSession sid fun _ => { w with opened := w.opened.set sid {} }

/-! ## Numbers -/

/-- The numbers of a project's events, in the order of the log. -/
def seqsOf (events : List Event) (projectId : String) : List ℕ :=
  (events.filter (·.projectId == projectId)).map (·.seq)

@[simp] lemma seqsOf_append (events events' : List Event) (projectId : String) :
    seqsOf (events ++ events') projectId = seqsOf events projectId ++ seqsOf events' projectId := by
  simp only [seqsOf, List.filter_append, List.map_append]

lemma seqsOf_singleton (d : EventDraft) (projectId k : String) (n : ℕ) :
    seqsOf [d.at projectId n] k = if projectId = k then [n] else [] := by
  by_cases e : projectId = k
  · simp [seqsOf, EventDraft.at, e]
  · simp [seqsOf, EventDraft.at, e]

/-- A project after some appends. -/
def Project.bumped (p : Project) (n : ℕ) : Project :=
  { p with eventSeq := p.eventSeq + n, lockVersion := p.lockVersion + n }

lemma Project.bump_bumped (p : Project) (n : ℕ) : (p.bumped n).bump = p.bumped (n + 1) := rfl

lemma Project.bumped_eq_self {p : Project} {n : ℕ} : p.bumped n = p ↔ n = 0 := by
  constructor
  · intro e
    have seq := congrArg Project.eventSeq e
    simp only [bumped] at seq
    omega
  · rintro rfl
    rfl

/-- The committed events of every project are numbered from 1 to its counter, in order. -/
structure Db.Numbered (db : Db) : Prop where
  counters : ∀ {k p}, db.projects.get k = some p → p.lockVersion = p.eventSeq
  numbers : ∀ {k p}, db.projects.get k = some p → seqsOf db.events k = List.range' 1 p.eventSeq
  known : ∀ {e}, e ∈ db.events → ∃ p, db.projects.get e.projectId = some p

lemma Db.Numbered.empty : Db.empty.Numbered := by
  refine ⟨?_, ?_, ?_⟩
  · intro k p hp
    cases hp
  · intro k p hp
    cases hp
  · intro e mem
    cases mem

/-- A project without a row has no numbers. -/
lemma Db.Numbered.absent {db : Db} (nb : db.Numbered) {k : String}
    (absent : db.projects.get k = none) : seqsOf db.events k = [] := by
  rw [seqsOf, List.map_eq_nil_iff, List.filter_eq_nil_iff]
  intro e mem same
  obtain ⟨p, hp⟩ := nb.known mem
  rw [beq_iff_eq.mp same, absent] at hp
  cases hp

/-- A session counts on from the row it has loaded, which may be behind the database but not
    ahead. -/
structure Session.Counts (s : Session) (db : Db) : Prop where
  current : ∀ {k l}, s.loaded.get k = some l → l.current = l.base.bumped (seqsOf s.pending k).length
  numbers : ∀ {k l}, s.loaded.get k = some l →
    seqsOf s.pending k = List.range' (l.base.eventSeq + 1) (seqsOf s.pending k).length
  counters : ∀ {k l}, s.loaded.get k = some l → l.base.lockVersion = l.base.eventSeq
  stored : ∀ {k l}, s.loaded.get k = some l → l.persistent = true →
    ∃ p, db.projects.get k = some p ∧ l.base.eventSeq ≤ p.eventSeq
  added : ∀ {k l}, s.loaded.get k = some l → l.persistent = false → l.base.eventSeq = 0
  known : ∀ {e}, e ∈ s.pending → ∃ l, s.loaded.get e.projectId = some l

/-- The part of `Session.Counts` that is about one loaded row, whose pending events carry the
    numbers `seqs`. -/
structure LoadedProject.CountsOn (l : LoadedProject) (db : Db) (k : String) (seqs : List ℕ) :
    Prop where
  current : l.current = l.base.bumped seqs.length
  numbers : seqs = List.range' (l.base.eventSeq + 1) seqs.length
  counter : l.base.lockVersion = l.base.eventSeq
  stored : l.persistent = true → ∃ p, db.projects.get k = some p ∧ l.base.eventSeq ≤ p.eventSeq
  added : l.persistent = false → l.base.eventSeq = 0

/-! ## Reading and appending -/

section Counts

variable {s : Session} {db : Db}

lemma Session.Counts.row (ct : s.Counts db) {k : String} {l : LoadedProject}
    (hl : s.loaded.get k = some l) : l.CountsOn db k (seqsOf s.pending k) :=
  ⟨ct.current hl, ct.numbers hl, ct.counters hl, ct.stored hl, ct.added hl⟩

lemma Session.Counts.of_rows
    (rows : ∀ {k l}, s.loaded.get k = some l → l.CountsOn db k (seqsOf s.pending k))
    (known : ∀ {e}, e ∈ s.pending → ∃ l, s.loaded.get e.projectId = some l) : s.Counts db :=
  ⟨fun hl => (rows hl).current, fun hl => (rows hl).numbers, fun hl => (rows hl).counter,
    fun hl => (rows hl).stored, fun hl => (rows hl).added, known⟩

lemma Session.counts_empty (db : Db) : ({} : Session).Counts db := by
  apply Session.Counts.of_rows
  · intro k l hl
    cases hl
  · intro e mem
    cases mem

/-- A row that enters the identity map has no pending events. -/
lemma Session.Counts.no_pending (ct : s.Counts db) {k : String} (absent : s.loaded.get k = none) :
    seqsOf s.pending k = [] := by
  rw [seqsOf, List.map_eq_nil_iff, List.filter_eq_nil_iff]
  intro e mem same
  obtain ⟨l, hl⟩ := ct.known mem
  rw [beq_iff_eq.mp same, absent] at hl
  cases hl

/-- A session may load a row that counts. -/
lemma Session.Counts.load (ct : s.Counts db) {k : String} (absent : s.loaded.get k = none)
    {persistent : Bool} {p : Project} (counter : p.lockVersion = p.eventSeq)
    (stored : persistent = true → db.projects.get k = some p)
    (added : persistent = false → p.eventSeq = 0) :
    ({ s with loaded := s.loaded.set k ⟨persistent, p, p⟩ } : Session).Counts db := by
  apply Session.Counts.of_rows
  · intro i l hl
    rw [Dict.get_set] at hl
    split at hl
    · rename_i e
      cases hl
      rw [e, ct.no_pending absent]
      exact ⟨rfl, rfl, counter, fun pers => ⟨p, stored pers, Nat.le_refl _⟩, added⟩
    · exact ct.row hl
  · intro e mem
    obtain ⟨l, hl⟩ := ct.known mem
    have ne : e.projectId ≠ k := by
      intro same
      rw [same, absent] at hl
      cases hl
    exact ⟨l, by rw [Dict.get_set_ne _ _ ne]; exact hl⟩

lemma Session.Counts.get (ct : s.Counts db) (nb : db.Numbered) (k : String) :
    (s.get db k).Counts db := by
  unfold Session.get
  split
  · rename_i p absent hp
    refine ct.load absent (nb.counters hp) (fun _ => hp) ?_
    intro pers
    cases pers
  · exact ct

lemma Session.Counts.addProject (ct : s.Counts db) (k slug : String)
    (lifecycle : ProjectLifecycle) : (s.addProject k slug lifecycle).Counts db := by
  unfold Session.addProject
  split
  · rename_i absent
    refine ct.load absent rfl ?_ (fun _ => rfl)
    intro pers
    cases pers
  · exact ct

/-- Appending extends the numbers of one project by the next one. -/
lemma Session.Counts.appendLoaded (ct : s.Counts db) (k : String) (d : EventDraft) :
    (s.appendLoaded k d).Counts db := by
  unfold Session.appendLoaded
  split
  · exact ct
  · rename_i l hl
    have next : l.current.bump.eventSeq = l.base.eventSeq + 1 + (seqsOf s.pending k).length := by
      rw [ct.current hl, Project.bump_bumped]
      simp only [Project.bumped]
      omega
    have own : seqsOf (s.pending ++ [d.at k l.current.bump.eventSeq]) k =
        seqsOf s.pending k ++ [l.current.bump.eventSeq] := by
      rw [seqsOf_append, seqsOf_singleton, if_pos rfl]
    have other : ∀ {i}, i ≠ k →
        seqsOf (s.pending ++ [d.at k l.current.bump.eventSeq]) i = seqsOf s.pending i := by
      intro i ne
      rw [seqsOf_append, seqsOf_singleton, if_neg (Ne.symm ne), List.append_nil]
    apply Session.Counts.of_rows
    · intro i l' hl'
      rw [Dict.get_set] at hl'
      split at hl'
      · rename_i e
        cases hl'
        rw [e, own]
        have row := ct.row hl
        refine ⟨?_, ?_, row.counter, row.stored, row.added⟩
        · rw [List.length_append, List.length_singleton]
          show l.current.bump = _
          rw [ct.current hl, Project.bump_bumped]
        · rw [List.length_append, List.length_singleton, List.range'_concat, ← ct.numbers hl, next,
            Nat.one_mul]
      · rename_i ne
        rw [other ne]
        exact ct.row hl'
    · intro e mem
      rcases List.mem_append.mp mem with old | new
      · obtain ⟨l', hl'⟩ := ct.known old
        rw [Dict.get_set]
        split
        · exact ⟨_, rfl⟩
        · exact ⟨l', hl'⟩
      · rw [List.mem_singleton] at new
        rw [new]
        exact ⟨_, Dict.get_set_self _ _ _⟩

lemma Session.Counts.append (ct : s.Counts db) (nb : db.Numbered) (k : String) (d : EventDraft) :
    (s.append db k d).Counts db :=
  (ct.get nb k).appendLoaded k d

/-- A session keeps counting when the counters of the database grow. -/
lemma Session.Counts.grow (ct : s.Counts db) {db' : Db}
    (grows : ∀ {k p}, db.projects.get k = some p →
      ∃ p', db'.projects.get k = some p' ∧ p.eventSeq ≤ p'.eventSeq) : s.Counts db' := by
  refine ⟨ct.current, ct.numbers, ct.counters, ?_, ct.added, ct.known⟩
  intro k l hl pers
  obtain ⟨p, hp, le⟩ := ct.stored hl pers
  obtain ⟨p', hp', le'⟩ := grows hp
  exact ⟨p', hp', le.trans le'⟩

end Counts

/-! ## Committing -/

/-- Inserting events appends them and finds none of their numbers taken. -/
lemma Db.insertEvents_ok {pending : List Event} {db db' : Db}
    (h : pending.foldlM Db.insertEvent db = .ok db') :
    db' = { db with events := db.events ++ pending } ∧
      ∀ e ∈ pending, ∀ e' ∈ db.events, ¬ (e'.projectId = e.projectId ∧ e'.seq = e.seq) := by
  induction pending generalizing db with
  | nil =>
    cases h
    simp
  | cons e pending ih =>
    obtain ⟨db1, ins, h⟩ := foldlM_cons_ok.mp h
    unfold insertEvent at ins
    split at ins
    · cases ins
    · rename_i free
      split at ins
      · cases ins
      · cases ins
        obtain ⟨rfl, others⟩ := ih h
        refine ⟨by simp, ?_⟩
        intro e1 mem e' mem' same
        rcases List.mem_cons.mp mem with rfl | mem
        · apply free
          exact List.any_eq_true.mpr ⟨e', mem', by simp [Event.sameSeq, same]⟩
        · exact others e1 mem e' (List.mem_append.mpr (Or.inl mem')) same

/-- What writing a row of the identity map does to the row of the database. -/
def LoadedProject.Written (l : LoadedProject) (before after : Option Project) : Prop :=
  (l.persistent = false ∧ before = none ∧ after = some l.current) ∨
    (l.persistent = true ∧ ∃ p, before = some p ∧
      after = some (if l.current = l.base then p else
        { p with eventSeq := l.current.eventSeq, lockVersion := l.current.lockVersion }))

lemma Db.writeProject_ok {db db' : Db} {k : String} {l : LoadedProject}
    (h : db.writeProject (k, l) = .ok db') :
    db'.events = db.events ∧ l.Written (db.projects.get k) (db'.projects.get k) ∧
      ∀ i, i ≠ k → db'.projects.get i = db.projects.get i := by
  unfold writeProject at h
  simp only at h
  split at h
  · rename_i added absent
    split at h
    · cases h
    · cases h
      exact ⟨rfl, Or.inl ⟨added, absent, Dict.get_set_self _ _ _⟩,
        fun i ne => Dict.get_set_ne _ _ ne⟩
  · cases h
  · cases h
  · rename_i p pers hp
    split at h
    · rename_i same
      cases h
      exact ⟨rfl, Or.inr ⟨pers, p, hp, by rw [if_pos same]; exact hp⟩, fun _ _ => rfl⟩
    · rename_i differs
      cases h
      exact ⟨rfl, Or.inr ⟨pers, p, hp, by rw [if_neg differs]; exact Dict.get_set_self _ _ _⟩,
        fun i ne => Dict.get_set_ne _ _ ne⟩

/-- Writing the identity map writes each of its rows and no other. -/
lemma Db.writeProjects_ok {items : List (String × LoadedProject)}
    (nd : (items.map Prod.fst).Nodup) {db db' : Db}
    (h : items.foldlM Db.writeProject db = .ok db') :
    db'.events = db.events ∧
      (∀ k l, (k, l) ∈ items → l.Written (db.projects.get k) (db'.projects.get k)) ∧
      ∀ k, k ∉ items.map Prod.fst → db'.projects.get k = db.projects.get k := by
  induction items generalizing db with
  | nil =>
    cases h
    refine ⟨rfl, ?_, fun _ _ => rfl⟩
    intro k l mem
    cases mem
  | cons item items ih =>
    obtain ⟨k0, l0⟩ := item
    rw [List.map_cons, List.nodup_cons] at nd
    obtain ⟨notin, nd⟩ := nd
    obtain ⟨db1, wr, h⟩ := foldlM_cons_ok.mp h
    obtain ⟨events, first, frame⟩ := writeProject_ok wr
    obtain ⟨events', rest, frame'⟩ := ih nd h
    refine ⟨events'.trans events, ?_, ?_⟩
    · intro k l mem
      rcases List.mem_cons.mp mem with e | later
      · cases e
        rw [frame' k0 notin]
        exact first
      · have ne : k ≠ k0 := by
          intro e
          exact notin (e ▸ List.mem_map.mpr ⟨(k, l), later, rfl⟩)
        rw [← frame k ne]
        exact rest k l later
    · intro k out
      rw [List.map_cons, List.mem_cons, not_or] at out
      rw [frame' k out.2, frame k out.1]

/-- The first number of a session that has something to commit follows the last committed one. -/
lemma Session.Counts.not_stale {s : Session} {db : Db} (ct : s.Counts db) (nb : db.Numbered)
    (free : ∀ e ∈ s.pending, ∀ e' ∈ db.events, ¬ (e'.projectId = e.projectId ∧ e'.seq = e.seq))
    {k : String} {l : LoadedProject} (hl : s.loaded.get k = some l) {p : Project}
    (hp : db.projects.get k = some p) (le : l.base.eventSeq ≤ p.eventSeq)
    (some_pending : (seqsOf s.pending k).length ≠ 0) : l.base.eventSeq = p.eventSeq := by
  by_contra ne
  have mem : l.base.eventSeq + 1 ∈ seqsOf s.pending k := by
    rw [ct.numbers hl, List.mem_range'_1]
    omega
  have mem' : l.base.eventSeq + 1 ∈ seqsOf db.events k := by
    rw [nb.numbers hp, List.mem_range'_1]
    omega
  obtain ⟨e, he, seq⟩ := List.mem_map.mp mem
  obtain ⟨e', he', seq'⟩ := List.mem_map.mp mem'
  obtain ⟨inPending, project⟩ := List.mem_filter.mp he
  obtain ⟨inEvents, project'⟩ := List.mem_filter.mp he'
  apply free e inPending e' inEvents
  exact ⟨(beq_iff_eq.mp project').trans (beq_iff_eq.mp project).symm, seq'.trans seq.symm⟩

/-- The row of a loaded project after a commit: its counter is the number of its events, now those
    of the session included. -/
lemma Session.Counts.written {s : Session} {db : Db} (ct : s.Counts db) (nb : db.Numbered)
    (free : ∀ e ∈ s.pending, ∀ e' ∈ db.events, ¬ (e'.projectId = e.projectId ∧ e'.seq = e.seq))
    {k : String} {l : LoadedProject} (hl : s.loaded.get k = some l) {after : Option Project}
    (wr : l.Written (db.projects.get k) after) :
    ∃ p', after = some p' ∧ p'.lockVersion = p'.eventSeq ∧ l.current.eventSeq ≤ p'.eventSeq ∧
      (∀ p, db.projects.get k = some p → p.eventSeq ≤ p'.eventSeq) ∧
      seqsOf db.events k ++ seqsOf s.pending k = List.range' 1 p'.eventSeq := by
  have seq : l.current.eventSeq = l.base.eventSeq + (seqsOf s.pending k).length := by
    rw [ct.current hl]
    rfl
  have lock : l.current.lockVersion = l.current.eventSeq := by
    rw [ct.current hl]
    simp only [Project.bumped, ct.counters hl]
  rcases wr with ⟨added, absent, rfl⟩ | ⟨pers, p, hp, rfl⟩
  · refine ⟨l.current, rfl, lock, Nat.le_refl _, ?_, ?_⟩
    · intro p hp
      rw [absent] at hp
      cases hp
    · rw [nb.absent absent, List.nil_append, ct.numbers hl, seq, ct.added hl added, Nat.zero_add,
        Nat.zero_add]
  · obtain ⟨p', hp', le⟩ := ct.stored hl pers
    rw [hp] at hp'
    cases hp'
    by_cases none_pending : (seqsOf s.pending k).length = 0
    · have same : l.current = l.base := by
        rw [ct.current hl]
        exact Project.bumped_eq_self.mpr none_pending
      rw [if_pos same]
      refine ⟨p, rfl, nb.counters hp, by rw [same]; exact le, ?_, ?_⟩
      · intro q hq
        rw [hp] at hq
        cases hq
        exact Nat.le_refl _
      · rw [List.length_eq_zero_iff.mp none_pending, List.append_nil]
        exact nb.numbers hp
    · have base := ct.not_stale nb free hl hp le none_pending
      have differs : l.current ≠ l.base := by
        intro same
        rw [ct.current hl, Project.bumped_eq_self] at same
        exact none_pending same
      rw [if_neg differs]
      refine ⟨_, rfl, lock, Nat.le_refl _, ?_, ?_⟩
      · intro q hq
        rw [hp] at hq
        cases hq
        simp only [seq]
        omega
      · have tail := ct.numbers hl
        rw [base] at tail
        rw [nb.numbers hp, tail, Nat.add_comm p.eventSeq 1, List.range'_append_1]
        simp only [seq, base]

/-- A committed session has nothing pending and counts on from what it has written. -/
lemma Session.Counts.committed {s : Session} {db db' : Db} (ct : s.Counts db)
    (written : ∀ {k l}, s.loaded.get k = some l →
      ∃ p', db'.projects.get k = some p' ∧ l.current.eventSeq ≤ p'.eventSeq) :
    s.committed.Counts db' := by
  have shape : ∀ {k l}, s.committed.loaded.get k = some l →
      ∃ l0, s.loaded.get k = some l0 ∧ l = ⟨true, l0.current, l0.current⟩ := by
    intro k l hl
    simp only [Session.committed, Dict.get_mapValues, Option.map_eq_some_iff] at hl
    obtain ⟨l0, hl0, e⟩ := hl
    exact ⟨l0, hl0, e.symm⟩
  apply Session.Counts.of_rows
  · intro k l hl
    obtain ⟨l0, hl0, rfl⟩ := shape hl
    have counter : l0.current.lockVersion = l0.current.eventSeq := by
      rw [ct.current hl0]
      simp only [Project.bumped, ct.counters hl0]
    refine ⟨rfl, rfl, counter, fun _ => written hl0, ?_⟩
    intro pers
    cases pers
  · intro e mem
    cases mem

/-- A commit that succeeds keeps the numbering, lets the counters grow, and leaves a session that
    counts on from what it has written. -/
lemma Session.Counts.commit {s : Session} {db db' : Db} (ct : s.Counts db) (nb : db.Numbered)
    (h : db.commitSession s = .ok db') :
    db'.Numbered ∧ s.committed.Counts db' ∧
      ∀ {k p}, db.projects.get k = some p →
        ∃ p', db'.projects.get k = some p' ∧ p.eventSeq ≤ p'.eventSeq := by
  obtain ⟨db1, wrs, ins⟩ := bind_ok.mp h
  obtain ⟨events, written, frame⟩ := Db.writeProjects_ok s.loaded.nodup wrs
  obtain ⟨rfl, free⟩ := Db.insertEvents_ok ins
  rw [events] at free
  have loaded : ∀ {k l}, s.loaded.get k = some l →
      ∃ p', db1.projects.get k = some p' ∧ p'.lockVersion = p'.eventSeq ∧
        l.current.eventSeq ≤ p'.eventSeq ∧
        (∀ p, db.projects.get k = some p → p.eventSeq ≤ p'.eventSeq) ∧
        seqsOf db.events k ++ seqsOf s.pending k = List.range' 1 p'.eventSeq :=
    fun {k l} hl => ct.written nb free hl (written k l (s.loaded.mem_items.mpr hl))
  have other : ∀ {k}, s.loaded.get k = none →
      db1.projects.get k = db.projects.get k ∧ seqsOf s.pending k = [] := by
    intro k absent
    refine ⟨frame k ?_, ct.no_pending absent⟩
    rw [Dict.mem_keys]
    rintro ⟨l, hl⟩
    rw [absent] at hl
    cases hl
  have grows : ∀ {k p}, db.projects.get k = some p →
      ∃ p', db1.projects.get k = some p' ∧ p.eventSeq ≤ p'.eventSeq := by
    intro k p hp
    cases hl : s.loaded.get k with
    | none => exact ⟨p, by rw [(other hl).1]; exact hp, Nat.le_refl _⟩
    | some l =>
      obtain ⟨p', hp', _, _, le, _⟩ := loaded hl
      exact ⟨p', hp', le p hp⟩
  refine ⟨⟨?_, ?_, ?_⟩, ?_, grows⟩
  · intro k p hp
    cases hl : s.loaded.get k with
    | none => exact nb.counters ((other hl).1 ▸ hp)
    | some l =>
      obtain ⟨p', hp', lock, _⟩ := loaded hl
      cases hp.symm.trans hp'
      exact lock
  · intro k p hp
    rw [seqsOf_append, events]
    cases hl : s.loaded.get k with
    | none =>
      rw [(other hl).2, List.append_nil]
      exact nb.numbers ((other hl).1 ▸ hp)
    | some l =>
      obtain ⟨p', hp', _, _, _, numbers⟩ := loaded hl
      cases hp.symm.trans hp'
      exact numbers
  · intro e mem
    rcases List.mem_append.mp mem with old | new
    · rw [events] at old
      obtain ⟨p, hp⟩ := nb.known old
      obtain ⟨p', hp', _⟩ := grows hp
      exact ⟨p', hp'⟩
    · obtain ⟨l, hl⟩ := ct.known new
      obtain ⟨p', hp', _⟩ := loaded hl
      exact ⟨p', hp'⟩
  · apply ct.committed
    intro k l hl
    obtain ⟨p', hp', _, le, _⟩ := loaded hl
    exact ⟨p', hp', le⟩

/-! ## Runs -/

/-- The invariant of the interleavings. -/
structure Sessions.Counted (w : Sessions) : Prop where
  db : w.db.Numbered
  sessions : ∀ {sid s}, w.opened.get sid = some s → s.Counts w.db

lemma Sessions.Counted.empty : Sessions.Counted ⟨Db.empty, Dict.empty⟩ := by
  refine ⟨.empty, ?_⟩
  intro sid s hs
  cases hs

lemma Sessions.Counted.setSession {w : Sessions} (cw : w.Counted) {sid : ℕ} {s : Session}
    (ct : s.Counts w.db) : ({ w with opened := w.opened.set sid s } : Sessions).Counted := by
  refine ⟨cw.db, ?_⟩
  intro i s' hs'
  rw [Dict.get_set] at hs'
  split at hs'
  · cases hs'
    exact ct
  · exact cw.sessions hs'

lemma Sessions.Counted.step {w w' : Sessions} (cw : w.Counted) {e : SessionEvent}
    (st : sessionInterleaving.step w e = some w') : w'.Counted := by
  have onSession : ∀ {sid f}, w.onSession sid f = some w' →
      ∃ s, w.opened.get sid = some s ∧ f s = w' := by
    intro sid f h
    simpa only [onSession, Option.map_eq_some_iff] using h
  cases e with
  | begin sid =>
    simp only [sessionInterleaving] at st
    split at st
    · cases st
    · cases st
      exact cw.setSession (Session.counts_empty _)
  | get sid projectId =>
    obtain ⟨s, hs, rfl⟩ := onSession st
    exact cw.setSession ((cw.sessions hs).get cw.db projectId)
  | addProject sid projectId slug lifecycle =>
    obtain ⟨s, hs, rfl⟩ := onSession st
    exact cw.setSession ((cw.sessions hs).addProject projectId slug lifecycle)
  | append sid projectId d =>
    obtain ⟨s, hs, rfl⟩ := onSession st
    exact cw.setSession ((cw.sessions hs).append cw.db projectId d)
  | commit sid =>
    obtain ⟨s, hs, rfl⟩ := onSession st
    split
    · rename_i db ok
      obtain ⟨nb, ct, grows⟩ := (cw.sessions hs).commit cw.db ok
      refine Sessions.Counted.setSession (w := ⟨db, w.opened⟩) ⟨nb, ?_⟩ ct
      intro i s' hs'
      exact (cw.sessions hs').grow grows
    · exact cw.setSession (Session.counts_empty _)
  | rollback sid =>
    obtain ⟨s, hs, rfl⟩ := onSession st
    exact cw.setSession (Session.counts_empty _)

/-- Any interleaving of any number of sessions leaves the events of every project numbered 1, 2, …
    up to its counter, in the order of the log, and the lock version equal to the counter. -/
theorem sessions_gap_free {events : List SessionEvent} {w : Sessions}
    (rn : sessionInterleaving.run ⟨Db.empty, Dict.empty⟩ events = some w) {projectId : String}
    {p : Project}
    (hp : w.db.projects.get projectId = some p) :
    seqsOf w.db.events projectId = List.range' 1 p.eventSeq ∧ p.lockVersion = p.eventSeq := by
  have cw := System.run_invariant (fun _ _ _ cw st => cw.step st) rn Sessions.Counted.empty
  exact ⟨cw.db.numbers hp, cw.db.counters hp⟩

/-- Two sessions read a project with one event; both append, the second commit fails, and the
    session appends again after its rollback. -/
def racingSessions : List SessionEvent :=
  let draft : EventDraft := { eventType := "E", entityType := "TASK", entityId := "t" }
  [ .begin 0, .addProject 0 "p" "slug" .active, .append 0 "p" draft, .commit 0,
    .begin 1, .begin 2, .get 1 "p", .get 2 "p",
    .append 1 "p" draft, .append 1 "p" draft, .append 2 "p" draft,
    .commit 1, .commit 2, .append 2 "p" draft, .commit 2 ]

/-- The race ends with four events, numbered without a gap. -/
theorem sessions_gap_free_race :
    ∃ w p, sessionInterleaving.run ⟨Db.empty, Dict.empty⟩ racingSessions = some w ∧
      w.db.projects.get "p" = some p ∧ p.eventSeq = 4 ∧
      seqsOf w.db.events "p" = List.range' 1 p.eventSeq := by
  obtain ⟨w, rn⟩ := Option.isSome_iff_exists.mp
    (show (sessionInterleaving.run ⟨Db.empty, Dict.empty⟩ racingSessions).isSome = true by decide)
  have four : (sessionInterleaving.run ⟨Db.empty, Dict.empty⟩ racingSessions).map (fun w =>
      (w.db.projects.get "p").map (·.eventSeq)) = some (some 4) := by decide
  rw [rn, Option.map_some, Option.some.injEq, Option.map_eq_some_iff] at four
  obtain ⟨p, hp, seq⟩ := four
  exact ⟨w, p, rn, hp, seq, (sessions_gap_free rn hp).1⟩

end ResearchController
