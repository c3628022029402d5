import ResearchController.Artifacts.Store
import ResearchController.Db.Sessions

/-!
# Concurrent ingests

`ingest_file` looks for an artifact of its producer and computes the next version of a logical name
by queries. With several sessions both may be answered from an earlier committed state; what a
session has added itself is always seen. What protects the versions and the deduplication are the
two unique constraints of `artifacts`, which are checked when the session commits, as a whole.

A session that was too late for one version cannot commit any more. One that was not counts on from
the committed versions (`IngestSession.Follows`).
-/

namespace ResearchController
open Lib

/-- Rows of `artifacts` with their primary keys. -/
abbrev ArtifactRows := List (String × Artifact)

/-- The query for an artifact that the producer has stored before. -/
def existingAmong (rows : ArtifactRows) (a : IngestArgs) : Option (String × Artifact) :=
  rows.find? fun item => decide (item.2.key = a.key)

/-- The versions of a logical name, in the order of insertion. -/
def versionsAmong (rows : ArtifactRows) (projectId logicalName : String) : List ℕ :=
  (rows.filter fun item =>
    item.2.projectId == projectId && item.2.logicalName == logicalName).map (·.2.version)

/-- `SELECT max(version)`. -/
def currentVersionAmong (rows : ArtifactRows) (projectId logicalName : String) : ℕ :=
  (versionsAmong rows projectId logicalName).foldl max 0

/-- A session that ingests: what it does to the event log and the rows it has added. -/
structure IngestSession where
  log : Session := {}
  added : ArtifactRows := []

/-- The rows that a query of the session sees in a committed state. -/
def IngestSession.rows (s : IngestSession) (seen : Db) : ArtifactRows :=
  seen.artifacts.items ++ s.added

/-- The committed states that answer the queries of one ingest. -/
structure IngestReads where
  existing : Db
  version : Db
  project : Db

/-- The database half of `ArtifactStore.ingest_file` in a session. -/
def IngestSession.ingest (s : IngestSession) (r : IngestReads) (a : IngestArgs) :
    Except PyErr (String × IngestSession) :=
  match existingAmong (s.rows r.existing) a with
  | some (existing, _) => .ok (existing, s)
  | none =>
    let version := currentVersionAmong (s.rows r.version) a.projectId a.logicalName + 1
    let log := s.log.get r.project a.projectId
    if (log.loaded.get a.projectId).isNone then
      .error (.lookupError s!"project not found: {a.projectId}")
    else
      .ok (a.id,
        { log := (log.appendLoaded a.projectId (a.created version)).appendLoaded a.projectId
            a.verified,
          added := s.added ++ [(a.id, a.row version)] })

/-- Insert a row into `artifacts`. -/
def Db.insertArtifact (db : Db) (item : String × Artifact) : Except PyErr Db :=
  let (id, x) := item
  if (db.artifacts.get id).isSome then
    .error (.integrityError "artifacts.id")
  else if db.artifacts.any fun _ y =>
      y.projectId == x.projectId && y.logicalName == x.logicalName && y.version == x.version then
    .error (.integrityError "artifacts.project_id, artifacts.logical_name, artifacts.version")
  else if db.artifacts.any fun _ y => decide (y.key = x.key) then
    .error (.integrityError ("artifacts.project_id, artifacts.producer_type, " ++
      "artifacts.producer_ref_id, artifacts.logical_name, artifacts.sha256"))
  else if x.taskId.any fun taskId => (db.tasks.get taskId).isNone then
    .error (.integrityError "artifacts.task_id")
  else
    .ok { db with artifacts := db.artifacts.set id x }

/-- `session.commit()`. -/
def Db.commitIngests (db : Db) (s : IngestSession) : Except PyErr Db := do
  let db ← s.added.foldlM Db.insertArtifact db
  db.commitSession s.log

/-- The database with its earlier committed states and the sessions that are open on it. -/
structure IngestSessions where
  db : Db
  past : List Db := []
  opened : Dict ℕ IngestSession := Dict.empty

/-- What a session does. An ingest names the committed states that answer its queries. -/
inductive IngestEvent where
  | begin (sid : ℕ)
  | ingest (sid : ℕ) (a : IngestArgs) (existing version project : ℕ)
  | commit (sid : ℕ)
  | rollback (sid : ℕ)

/-- The committed states so far, the last one first. -/
def IngestSessions.states (w : IngestSessions) : List Db := w.db :: w.past

/-- The session of an event that is not `begin`. -/
def IngestSessions.onSession (w : IngestSessions) (sid : ℕ)
    (f : IngestSession → Option IngestSessions) : Option IngestSessions :=
  (w.opened.get sid).bind f

/-- The session after an event. -/
def IngestSessions.setSession (w : IngestSessions) (sid : ℕ) (s : IngestSession) : IngestSessions :=
  { w with opened := w.opened.set sid s }

/-- The interleaving of the sessions. An exception ends in a rollback. -/
def ingestInterleaving : System IngestSessions IngestEvent where
  step w
    | .begin sid => if (w.opened.get sid).isSome then none else some (w.setSession sid {})
    | .ingest sid a existing version project =>
      w.onSession sid fun s =>
        match w.states[existing]?, w.states[version]?, w.states[project]? with
        | some e, some v, some p =>
          match s.ingest ⟨e, v, p⟩ a with
          | .ok (_, s') => some (w.setSession sid s')
          | .error _ => some (w.setSession sid {})
        | _, _, _ => none
    | .commit sid =>
      w.onSession sid fun s =>
        match w.db.commitIngests s with
        | .ok db =>
          some { db := db, past := w.states,
                 opened := w.opened.set sid { log := s.log.committed } }
        | .error _ => some (w.setSession sid {})
    | .rollback sid => w.onSession sid fun _ => some (w.setSession sid {})

/-! ## Versions -/

@[simp] lemma versionsAmong_append (rows rows' : ArtifactRows) (projectId logicalName : String) :
    versionsAmong (rows ++ rows') projectId logicalName =
      versionsAmong rows projectId logicalName ++ versionsAmong rows' projectId logicalName := by
  simp only [versionsAmong, List.filter_append, List.map_append]

lemma mem_versionsAmong {rows : ArtifactRows} {projectId logicalName : String} {v : ℕ} :
    v ∈ versionsAmong rows projectId logicalName ↔
      ∃ item ∈ rows, item.2.projectId = projectId ∧ item.2.logicalName = logicalName ∧
        item.2.version = v := by
  simp only [versionsAmong, List.mem_map, List.mem_filter, Bool.and_eq_true, beq_iff_eq, and_assoc]

/-- The versions of a single row. -/
lemma versionsAmong_singleton (id : String) (x : Artifact) (projectId logicalName : String) :
    versionsAmong [(id, x)] projectId logicalName =
      if x.projectId = projectId ∧ x.logicalName = logicalName then [x.version] else [] := by
  by_cases same : x.projectId = projectId ∧ x.logicalName = logicalName
  · simp [versionsAmong, same]
  · have off : (x.projectId == projectId && x.logicalName == logicalName) = false := by
      simpa [not_and] using same
    simp [versionsAmong, off, same]

/-- The maximum that a loop computes. -/
lemma foldl_max_le {versions : List ℕ} {start bound : ℕ} :
    versions.foldl max start ≤ bound ↔ start ≤ bound ∧ ∀ v ∈ versions, v ≤ bound := by
  induction versions generalizing start with
  | nil => simp
  | cons v versions ih =>
    rw [List.foldl_cons, ih, Nat.max_le, List.forall_mem_cons, and_assoc]

lemma currentVersionAmong_le {rows : ArtifactRows} {projectId logicalName : String} {bound : ℕ} :
    currentVersionAmong rows projectId logicalName ≤ bound ↔
      ∀ v ∈ versionsAmong rows projectId logicalName, v ≤ bound := by
  rw [currentVersionAmong, foldl_max_le]
  exact and_iff_right (Nat.zero_le _)

lemma le_currentVersionAmong {rows : ArtifactRows} {projectId logicalName : String} {v : ℕ}
    (mem : v ∈ versionsAmong rows projectId logicalName) :
    v ≤ currentVersionAmong rows projectId logicalName :=
  currentVersionAmong_le.mp (Nat.le_refl _) v mem

/-- The rows of every name carry the versions 1, 2, … in the order of insertion, and every key is
    there once. -/
structure ArtifactRows.Dense (rows : ArtifactRows) : Prop where
  versions : ∀ projectId logicalName, versionsAmong rows projectId logicalName =
    List.range' 1 (versionsAmong rows projectId logicalName).length
  keys : (rows.map fun item => item.2.key).Nodup

lemma ArtifactRows.Dense.nil : ArtifactRows.Dense [] :=
  ⟨fun _ _ => rfl, List.nodup_nil⟩

/-- The committed versions are at most as many as there are. -/
lemma ArtifactRows.Dense.mem_versions {rows : ArtifactRows} (ds : rows.Dense)
    {projectId logicalName : String} {v : ℕ} :
    v ∈ versionsAmong rows projectId logicalName ↔
      1 ≤ v ∧ v ≤ (versionsAmong rows projectId logicalName).length := by
  rw [ds.versions projectId logicalName, List.mem_range'_1, List.length_range']
  omega

/-- An earlier state has no larger version. -/
lemma ArtifactRows.Dense.le_of_prefix {rows seen : ArtifactRows} (ds : rows.Dense)
    (earlier : seen <+: rows) {projectId logicalName : String} {v : ℕ}
    (mem : v ∈ versionsAmong seen projectId logicalName) :
    v ≤ (versionsAmong rows projectId logicalName).length := by
  obtain ⟨later, rfl⟩ := earlier
  refine (ds.mem_versions.mp ?_).2
  rw [versionsAmong_append]
  exact List.mem_append_left _ mem

/-! ## Sessions -/

/-- A session counts on from the committed versions, or has been too late for one of them. -/
def IngestSession.Follows (s : IngestSession) (committed : ArtifactRows) : Prop :=
  ∀ projectId logicalName,
    let n := (versionsAmong committed projectId logicalName).length
    let pending := versionsAmong s.added projectId logicalName
    (∃ v ∈ pending, 1 ≤ v ∧ v ≤ n) ∨ pending = List.range' (n + 1) pending.length

lemma IngestSession.follows_empty {s : IngestSession} (nothing : s.added = [])
    (committed : ArtifactRows) : s.Follows committed := by
  intro projectId logicalName
  right
  rw [nothing]
  rfl

variable {s s' : IngestSession}

/-- Commits of other sessions. -/
lemma IngestSession.Follows.grow {committed committed' : ArtifactRows}
    (fl : s.Follows committed) (grows : committed <+: committed') : s.Follows committed' := by
  intro projectId logicalName
  obtain ⟨later, rfl⟩ := grows
  simp only [versionsAmong_append, List.length_append]
  rcases fl projectId logicalName with ⟨v, mem, pos, le⟩ | follows
  · exact Or.inl ⟨v, mem, pos, by omega⟩
  · cases new : versionsAmong later projectId logicalName with
    | nil => exact Or.inr follows
    | cons w ws =>
      -- another session has taken the next version
      cases pending : versionsAmong s.added projectId logicalName with
      | nil => exact Or.inr rfl
      | cons v vs =>
        rw [pending, List.length_cons, List.range'_succ] at follows
        obtain ⟨rfl, _⟩ := List.cons.inj follows
        refine Or.inl ⟨_, List.mem_cons_self, ?_, ?_⟩
        · omega
        · rw [List.length_cons]
          omega

/-- What an ingest adds to a session. -/
lemma IngestSession.ingest_ok {r : IngestReads} {a : IngestArgs} {id : String}
    (h : s.ingest r a = .ok (id, s')) :
    ((∃ x, existingAmong (s.rows r.existing) a = some (id, x)) ∧ s' = s) ∨
      existingAmong (s.rows r.existing) a = none ∧ id = a.id ∧
        s'.added = s.added ++ [(a.id,
          a.row (currentVersionAmong (s.rows r.version) a.projectId a.logicalName + 1))] := by
  unfold ingest at h
  split at h
  · rename_i existing x found
    cases h
    exact Or.inl ⟨⟨x, found⟩, rfl⟩
  · rename_i missing
    simp only at h
    split at h
    · cases h
    · cases h
      exact Or.inr ⟨missing, rfl, rfl⟩

/-- The version after the largest one that a session sees: the next one, or one that is taken. -/
lemma IngestSession.next_version {committed seen : ArtifactRows} (ds : committed.Dense)
    (earlier : seen <+: committed) {projectId logicalName : String} {n : ℕ}
    (length : (versionsAmong committed projectId logicalName).length = n)
    (follows : versionsAmong s.added projectId logicalName =
      List.range' (n + 1) (versionsAmong s.added projectId logicalName).length) :
    let version := currentVersionAmong (seen ++ s.added) projectId logicalName + 1
    (1 ≤ version ∧ version ≤ n) ∨
      version = n + 1 + (versionsAmong s.added projectId logicalName).length := by
  intro version
  have mem : ∀ {v}, v ∈ versionsAmong s.added projectId logicalName ↔
      n + 1 ≤ v ∧ v ≤ n + (versionsAmong s.added projectId logicalName).length := by
    intro v
    rw [follows, List.mem_range'_1, List.length_range']
    omega
  generalize (versionsAmong s.added projectId logicalName).length = added at mem
  have upper : currentVersionAmong (seen ++ s.added) projectId logicalName ≤ n + added := by
    rw [currentVersionAmong_le, versionsAmong_append]
    intro v memV
    rcases List.mem_append.mp memV with old | own
    · have le := ds.le_of_prefix earlier old
      omega
    · exact (mem.mp own).2
  by_cases fresh : added = 0
  · omega
  · have lower : n + added ≤ currentVersionAmong (seen ++ s.added) projectId logicalName := by
      apply le_currentVersionAmong
      rw [versionsAmong_append]
      exact List.mem_append_right _ (mem.mpr ⟨by omega, Nat.le_refl _⟩)
    omega

/-- An ingest whose query for the version is answered from an earlier state. -/
lemma IngestSession.Follows.ingest {committed : ArtifactRows} (ds : committed.Dense)
    (fl : s.Follows committed) {r : IngestReads} (earlier : r.version.artifacts.items <+: committed)
    {a : IngestArgs} {id : String} (h : s.ingest r a = .ok (id, s')) : s'.Follows committed := by
  obtain ⟨_, rfl⟩ | ⟨_, _, added⟩ := ingest_ok h
  · exact fl
  · intro projectId logicalName
    simp only [added, versionsAmong_append, versionsAmong_singleton]
    split
    · rename_i same
      have project : a.projectId = projectId := same.1
      have name : a.logicalName = logicalName := same.2
      subst project name
      rcases fl a.projectId a.logicalName with ⟨v, mem, taken⟩ | follows
      · exact Or.inl ⟨v, List.mem_append_left _ mem, taken⟩
      · rcases next_version ds earlier rfl follows with taken | next
        · exact Or.inl ⟨_, List.mem_append_right _ (List.mem_singleton_self _), taken⟩
        · right
          rw [List.length_append, List.length_singleton, List.range'_concat, ← follows,
            Nat.one_mul]
          exact congrArg (_ ++ [·]) next
    · rw [List.append_nil]
      exact fl projectId logicalName

/-! ## Committing -/

/-- An insertion that succeeds has met no constraint. -/
lemma Db.insertArtifact_cases {db db' : Db} {id : String} {x : Artifact}
    (h : db.insertArtifact (id, x) = .ok db') :
    db.artifacts.get id = none ∧
      (db.artifacts.any fun _ y => y.projectId == x.projectId && y.logicalName == x.logicalName &&
        y.version == x.version) = false ∧
      (db.artifacts.any fun _ y => decide (y.key = x.key)) = false ∧
      (x.taskId.any fun taskId => (db.tasks.get taskId).isNone) = false ∧
      db' = { db with artifacts := db.artifacts.set id x } := by
  simp only [insertArtifact] at h
  split at h
  · cases h
  · rename_i absent
    split at h
    · cases h
    · rename_i version
      split at h
      · cases h
      · rename_i key
        split at h
        · cases h
        · rename_i known
          cases h
          exact ⟨Option.not_isSome_iff_eq_none.mp absent, Bool.eq_false_of_not_eq_true version,
            Bool.eq_false_of_not_eq_true key, Bool.eq_false_of_not_eq_true known, rfl⟩

/-- Inserting a row appends it, and finds neither its version nor its key taken. -/
lemma Db.insertArtifact_ok {db db' : Db} {item : String × Artifact}
    (h : db.insertArtifact item = .ok db') :
    db'.artifacts.items = db.artifacts.items ++ [item] ∧
      item.2.version ∉ versionsAmong db.artifacts.items item.2.projectId item.2.logicalName ∧
      item.2.key ∉ db.artifacts.items.map fun item => item.2.key := by
  obtain ⟨id, x⟩ := item
  obtain ⟨absent, version, key, _, rfl⟩ := insertArtifact_cases h
  refine ⟨Dict.items_set_of_none absent x, ?_, ?_⟩
  · intro taken
    obtain ⟨⟨i, y⟩, mem, same⟩ := mem_versionsAmong.mp taken
    have columns : y.projectId = x.projectId ∧ y.logicalName = x.logicalName ∧
      y.version = x.version := same
    apply Bool.eq_false_iff.mp version
    refine Dict.any_iff.mpr ⟨i, y, (Dict.mem_items _).mp mem, ?_⟩
    simp only [columns, beq_self_eq_true, Bool.and_self]
  · intro taken
    obtain ⟨⟨i, y⟩, mem, same⟩ := List.mem_map.mp taken
    apply Bool.eq_false_iff.mp key
    exact Dict.any_iff.mpr ⟨i, y, (Dict.mem_items _).mp mem, decide_eq_true same⟩

/-- Inserting the rows of a session appends them; no committed version and no key is taken. -/
lemma Db.insertArtifacts_ok {added : ArtifactRows} {db db' : Db}
    (h : added.foldlM Db.insertArtifact db = .ok db')
    (keys : (db.artifacts.items.map fun item => item.2.key).Nodup) :
    db'.artifacts.items = db.artifacts.items ++ added ∧
      (∀ item ∈ added, item.2.version ∉
        versionsAmong db.artifacts.items item.2.projectId item.2.logicalName) ∧
      (db'.artifacts.items.map fun item => item.2.key).Nodup := by
  induction added generalizing db with
  | nil =>
    cases h
    refine ⟨(List.append_nil _).symm, ?_, keys⟩
    intro item mem
    cases mem
  | cons item added ih =>
    obtain ⟨db1, ins, h⟩ := foldlM_cons_ok.mp h
    obtain ⟨items, version, key⟩ := insertArtifact_ok ins
    have keys1 : (db1.artifacts.items.map fun item => item.2.key).Nodup := by
      rw [items, List.map_append, List.nodup_append_comm]
      exact List.nodup_cons.mpr ⟨key, keys⟩
    obtain ⟨items', versions, keys'⟩ := ih h keys1
    refine ⟨?_, ?_, keys'⟩
    · rw [items', items, List.append_assoc, List.singleton_append]
    · intro item' mem
      rcases List.mem_cons.mp mem with rfl | later
      · exact version
      · intro taken
        apply versions item' later
        rw [items, versionsAmong_append]
        exact List.mem_append_left _ taken

/-- Writing back the identity map and the events leaves the artifacts alone. -/
lemma Db.commitSession_artifacts {db db' : Db} {log : Session}
    (h : db.commitSession log = .ok db') : db'.artifacts = db.artifacts := by
  obtain ⟨db1, wrs, ins⟩ := bind_ok.mp h
  rw [(insertEvents_ok ins).1]
  show db1.artifacts = db.artifacts
  refine foldlM_invariant (P := fun t : Db => t.artifacts = db.artifacts) ?_ wrs rfl
  rintro t ⟨projectId, l⟩ t' _ same wr
  rw [← same]
  unfold writeProject at wr
  simp only at wr
  split at wr
  · split at wr
    · cases wr
    · cases wr
      rfl
  · cases wr
  · cases wr
  · split at wr
    · cases wr
      rfl
    · cases wr
      rfl

/-- A commit that succeeds appends the rows of the session. -/
lemma Db.commitIngests_ok {db db' : Db} (h : db.commitIngests s = .ok db')
    (keys : (db.artifacts.items.map fun item => item.2.key).Nodup) :
    db'.artifacts.items = db.artifacts.items ++ s.added ∧
      (∀ item ∈ s.added, item.2.version ∉
        versionsAmong db.artifacts.items item.2.projectId item.2.logicalName) ∧
      (db'.artifacts.items.map fun item => item.2.key).Nodup := by
  obtain ⟨db1, ins, log⟩ := bind_ok.mp h
  rw [commitSession_artifacts log]
  exact insertArtifacts_ok ins keys

/-- A commit that succeeds keeps the versions dense and the keys distinct. -/
lemma IngestSession.Follows.commit {db db' : Db} (ds : ArtifactRows.Dense db.artifacts.items)
    (fl : s.Follows db.artifacts.items) (h : db.commitIngests s = .ok db') :
    ArtifactRows.Dense db'.artifacts.items ∧ db.artifacts.items <+: db'.artifacts.items := by
  obtain ⟨items, free, keys⟩ := Db.commitIngests_ok h ds.keys
  refine ⟨⟨?_, keys⟩, ⟨s.added, items.symm⟩⟩
  intro projectId logicalName
  rw [items, versionsAmong_append, List.length_append, ← List.range'_append_1,
    ← ds.versions projectId logicalName, Nat.add_comm 1]
  rcases fl projectId logicalName with ⟨v, pending, taken⟩ | follows
  · obtain ⟨item, mem, rfl, rfl, rfl⟩ := mem_versionsAmong.mp pending
    exact (free item mem (ds.mem_versions.mpr taken)).elim
  · exact congrArg _ follows

/-! ## Runs -/

/-- The invariant of the interleavings. -/
structure IngestSessions.Kept (w : IngestSessions) : Prop where
  dense : ArtifactRows.Dense w.db.artifacts.items
  past : ∀ seen ∈ w.states, seen.artifacts.items <+: w.db.artifacts.items
  sessions : ∀ {sid s}, w.opened.get sid = some s → s.Follows w.db.artifacts.items

lemma IngestSessions.Kept.setSession {w : IngestSessions} (kw : w.Kept) {sid : ℕ}
    (fl : s.Follows w.db.artifacts.items) : (w.setSession sid s).Kept := by
  refine ⟨kw.dense, kw.past, ?_⟩
  intro i s' hs'
  rw [IngestSessions.setSession, Dict.get_set] at hs'
  split at hs'
  · cases hs'
    exact fl
  · exact kw.sessions hs'

lemma IngestSessions.Kept.step {w w' : IngestSessions} (kw : w.Kept) {e : IngestEvent}
    (st : ingestInterleaving.step w e = some w') : w'.Kept := by
  have onSession : ∀ {sid f}, w.onSession sid f = some w' →
      ∃ s, w.opened.get sid = some s ∧ f s = some w' :=
    fun h => Option.bind_eq_some_iff.mp h
  cases e with
  | begin sid =>
    simp only [ingestInterleaving] at st
    split at st
    · cases st
    · cases st
      exact kw.setSession (IngestSession.follows_empty rfl _)
  | ingest sid a existing version project =>
    obtain ⟨s, hs, st⟩ := onSession st
    split at st
    · rename_i e v p _ hv _
      split at st
      · rename_i id s' ok
        cases st
        exact kw.setSession
          ((kw.sessions hs).ingest kw.dense (kw.past v (List.mem_of_getElem? hv)) ok)
      · cases st
        exact kw.setSession (IngestSession.follows_empty rfl _)
    · cases st
  | commit sid =>
    obtain ⟨s, hs, st⟩ := onSession st
    split at st
    · rename_i db ok
      cases st
      obtain ⟨dense, grows⟩ := (kw.sessions hs).commit kw.dense ok
      refine ⟨dense, ?_, ?_⟩
      · intro seen mem
        rcases List.mem_cons.mp mem with rfl | earlier
        · exact List.prefix_rfl
        · exact (kw.past seen earlier).trans grows
      · intro i s' hs'
        rw [Dict.get_set] at hs'
        split at hs'
        · cases hs'
          exact IngestSession.follows_empty rfl _
        · exact (kw.sessions hs').grow grows
    · cases st
      exact kw.setSession (IngestSession.follows_empty rfl _)
  | rollback sid =>
    obtain ⟨s, hs, st⟩ := onSession st
    cases st
    exact kw.setSession (IngestSession.follows_empty rfl _)

lemma IngestSessions.Kept.start {db : Db} (nothing : db.artifacts = Dict.empty) :
    IngestSessions.Kept { db := db } := by
  refine ⟨by rw [nothing]; exact .nil, ?_, ?_⟩
  · intro seen mem
    rw [List.mem_singleton.mp mem]
  · intro sid s hs
    cases hs

/-- The key of a row identifies it. -/
lemma ArtifactRows.Dense.unique {db : Db} (ds : ArtifactRows.Dense db.artifacts.items)
    {i i' : String} {x x' : Artifact} (hx : db.artifacts.get i = some x)
    (hx' : db.artifacts.get i' = some x') (same : x.key = x'.key) : i = i' := by
  have equal := List.inj_on_of_nodup_map ds.keys ((Dict.mem_items _).mpr hx)
    ((Dict.mem_items _).mpr hx') same
  exact congrArg Prod.fst equal

/-- A query that sees a committed artifact with the key finds it. -/
lemma ArtifactRows.Dense.existing {db seen : Db} (ds : ArtifactRows.Dense db.artifacts.items)
    (earlier : seen.artifacts.items <+: db.artifacts.items) {i : String} {x : Artifact}
    (hx : seen.artifacts.get i = some x) {a : IngestArgs} (same : x.key = a.key)
    (s : IngestSession) : existingAmong (s.rows seen) a = some (i, x) := by
  have item : (i, x) ∈ seen.artifacts.items := (Dict.mem_items _).mpr hx
  unfold existingAmong IngestSession.rows
  rw [List.find?_append]
  cases found : seen.artifacts.items.find? fun item => decide (item.2.key = a.key) with
  | none => exact (List.find?_eq_none.mp found _ item (decide_eq_true same)).elim
  | some item' =>
    have key := of_decide_eq_true
      (List.find?_some (p := fun item : String × Artifact => decide (item.2.key = a.key)) found)
    have equal := List.inj_on_of_nodup_map ds.keys
      (earlier.subset (List.mem_of_find?_eq_some found)) (earlier.subset item)
      (key.trans same.symm)
    rw [equal]
    rfl

/-- In every interleaving of sessions that ingest, commit and roll back, the committed artifacts of
    each logical name carry the versions 1, 2, … up to their number, and a producer has one artifact
    for each name and content. An ingest whose query is answered from a state with such an artifact
    returns it and leaves the session as it is; it is still there. A session that has added a second
    one, because its query was answered from an earlier state, cannot commit. -/
theorem ingest_sessions_dense {db : Db} {events : List IngestEvent} {w : IngestSessions}
    (nothing : db.artifacts = Dict.empty)
    (rn : ingestInterleaving.run { db := db } events = some w) :
    (∀ projectId logicalName, versionsAmong w.db.artifacts.items projectId logicalName =
        List.range' 1 (versionsAmong w.db.artifacts.items projectId logicalName).length) ∧
      (∀ i i' x x', w.db.artifacts.get i = some x → w.db.artifacts.get i' = some x' →
        x.key = x'.key → i = i') ∧
      (∀ sid s, w.opened.get sid = some s → ∀ r : IngestReads, r.existing ∈ w.states →
        ∀ a i x, r.existing.artifacts.get i = some x → x.key = a.key →
          s.ingest r a = .ok (i, s) ∧ w.db.artifacts.get i = some x) ∧
      ∀ sid s, w.opened.get sid = some s → ∀ item ∈ s.added,
        ∀ i x, w.db.artifacts.get i = some x → x.key = item.2.key →
          ∀ db', w.db.commitIngests s ≠ .ok db' := by
  have kw : w.Kept :=
    System.run_invariant (fun _ _ _ kw st => kw.step st) rn (.start nothing)
  refine ⟨kw.dense.versions, fun i i' x x' hx hx' => kw.dense.unique hx hx', ?_, ?_⟩
  · intro sid s _ r seen a i x hx same
    have earlier := kw.past _ seen
    refine ⟨?_, (Dict.mem_items _).mp (earlier.subset ((Dict.mem_items _).mpr hx))⟩
    unfold IngestSession.ingest
    rw [kw.dense.existing earlier hx same s]
  · intro sid s _ item mem i x hx same db' commit
    obtain ⟨items, _, keys⟩ := Db.commitIngests_ok commit kw.dense.keys
    rw [items, List.map_append] at keys
    refine List.disjoint_of_nodup_append keys ?_ (List.mem_map_of_mem mem)
    rw [← same]
    exact List.mem_map_of_mem (f := fun item : String × Artifact => item.2.key)
      ((Dict.mem_items _).mpr hx)

/-! ## A session on its own -/

lemma existingAmong_items (db : Db) (a : IngestArgs) :
    existingAmong db.artifacts.items a = db.existingArtifact a := by
  unfold existingAmong Db.existingArtifact Dict.find?
  congr 1
  funext item
  simp only [Artifact.key, IngestArgs.key, ArtifactKey.mk.injEq, Bool.decide_and, Bool.and_assoc,
    beq_eq_decide]

lemma currentVersionAmong_items (db : Db) (projectId logicalName : String) :
    currentVersionAmong db.artifacts.items projectId logicalName =
      db.currentVersion projectId logicalName := rfl

/-- A new session that appends two events. -/
lemma Session.append_twice {db : Db} {projectId : String} {p : Project}
    (hp : db.projects.get projectId = some p) (d d' : EventDraft) :
    ((({} : Session).get db projectId).appendLoaded projectId d).appendLoaded projectId d' =
      { loaded := Dict.empty.set projectId ⟨true, p, p.bump.bump⟩,
        pending := [d.at projectId (p.eventSeq + 1), d'.at projectId (p.eventSeq + 1 + 1)] } := by
  have loaded : ({} : Session).get db projectId =
      { loaded := Dict.empty.set projectId ⟨true, p, p⟩ } := by
    unfold Session.get
    rw [hp]
    rfl
  rw [loaded]
  unfold appendLoaded
  simp only [Dict.get_set_self, Dict.set_set, List.nil_append, List.singleton_append, Project.bump]

/-- An insertion into `events` leaves the projects alone. -/
lemma Db.insertEvent_projects (db : Db) (projects : Dict String Project) (e : Event) :
    ({ db with projects := projects } : Db).insertEvent e =
      (db.insertEvent e).map fun db' => { db' with projects := projects } := by
  unfold insertEvent
  split
  · rfl
  · split <;> rfl

/-- Its commit appends them one after the other. -/
lemma Db.commitSession_twice {db : Db} {projectId : String} {p : Project}
    (hp : db.projects.get projectId = some p) (d d' : EventDraft) :
    db.commitSession
        { loaded := Dict.empty.set projectId ⟨true, p, p.bump.bump⟩,
          pending := [d.at projectId (p.eventSeq + 1), d'.at projectId (p.eventSeq + 1 + 1)] } =
      (db.append projectId d).bind fun db => db.append projectId d' := by
  have written : [(projectId, (⟨true, p, p.bump.bump⟩ : LoadedProject))].foldlM Db.writeProject db =
      .ok { db with projects := db.projects.set projectId p.bump.bump } := by
    have differs : p.bump.bump ≠ p := by
      intro same
      have seq := congrArg Project.eventSeq same
      simp only [Project.bump] at seq
      omega
    rw [List.foldlM_cons, writeProject]
    simp only [hp, if_neg differs]
    rfl
  have first : db.append projectId d =
      (db.insertEvent (d.at projectId (p.eventSeq + 1))).map fun db' =>
        { db' with projects := db.projects.set projectId p.bump } := by
    rw [append, hp]
    exact insertEvent_projects db _ _
  rw [first]
  show ([(projectId, _)].foldlM Db.writeProject db >>=
    fun db => [_, _].foldlM Db.insertEvent db) = _
  rw [written]
  show (Db.insertEvent _ _ >>= fun db => [_].foldlM Db.insertEvent db) = _
  rw [insertEvent_projects]
  cases db.insertEvent (d.at projectId (p.eventSeq + 1)) with
  | error e => rfl
  | ok db1 =>
    show ([_].foldlM Db.insertEvent _) = Db.append _ projectId d'
    rw [append]
    simp only [Dict.get_set_self, Dict.set_set]
    exact bind_pure _

/-- A new session whose queries are answered from the current state does what `ingestRow` does. -/
theorem IngestSession.ingest_alone {db db' : Db} {a : IngestArgs} {id : String}
    (h : ({} : IngestSession).ingest ⟨db, db, db⟩ a = .ok (id, s))
    (commit : db.commitIngests s = .ok db') : db.ingestRow a = .ok (id, db') := by
  have rows : ({} : IngestSession).rows db = db.artifacts.items := List.append_nil _
  unfold ingest at h
  rw [rows, existingAmong_items, currentVersionAmong_items] at h
  unfold Db.ingestRow
  cases found : db.existingArtifact a with
  | some item =>
    simp only [found] at h
    cases h
    cases commit
    rfl
  | none =>
    simp only [found] at h
    cases hp : db.projects.get a.projectId with
    | none =>
      have unloaded : ({} : Session).get db a.projectId = {} := by
        unfold Session.get
        rw [hp]
        rfl
      rw [unloaded] at h
      cases h
    | some p =>
      rw [Session.append_twice hp] at h
      split at h
      · cases h
      · cases h
        obtain ⟨db1, ins, log⟩ := bind_ok.mp commit
        obtain ⟨db2, ins, e⟩ := foldlM_cons_ok.mp ins
        cases e
        obtain ⟨absent, free, _, known, rfl⟩ := Db.insertArtifact_cases ins
        set version := db.currentVersion a.projectId a.logicalName + 1
        have free : (db.artifacts.any fun _ y => y.projectId == a.projectId &&
          y.logicalName == a.logicalName && y.version == version) = false := free
        have known : (a.taskId.any fun id => (db.tasks.get id).isNone) = false := known
        have stored : ({ db with
          artifacts := db.artifacts.set a.id (a.row version) } : Db).projects.get a.projectId =
            some p := hp
        obtain ⟨db1, first, second⟩ :=
          bind_ok.mp ((Db.commitSession_twice stored _ _).symm.trans log)
        show db.addArtifact a version = .ok (a.id, db')
        rw [Db.addArtifact, if_neg (by rw [absent]; decide), if_neg (Bool.eq_false_iff.mp free),
          if_neg (Bool.eq_false_iff.mp known)]
        exact bind_ok.mpr ⟨db1, first, bind_ok.mpr ⟨db', second, rfl⟩⟩

/-- A database with a project. -/
def projectDb : Db := { projects := Dict.empty.set "p" { slug := "slug" } }

/-- Ingest a content as `result` of a producer. -/
def resultOf (id producer digest : String) : IngestArgs :=
  { id := id, projectId := "p", taskId := none, logicalName := "result", kind := "TEST",
    producerType := "TEST", producerRefId := producer, evidenceEligible := false, metadata := [],
    digest := digest, uri := digest, sizeBytes := 1 }

/-- Two sessions that have seen no version of the name; the second commit fails. A third session
    ingests two contents and one of the first session again, and a fourth one has missed its
    commit. -/
def racingIngests : List IngestEvent :=
  [ .begin 0, .begin 1, .ingest 0 (resultOf "a" "one" "0") 0 0 0,
    .ingest 1 (resultOf "b" "two" "1") 0 0 0, .commit 0, .commit 1,
    .begin 2, .begin 3, .ingest 3 (resultOf "e" "two" "2") 0 0 0,
    .ingest 2 (resultOf "b" "two" "1") 0 0 0, .ingest 2 (resultOf "c" "two" "2") 0 0 0,
    .commit 2, .ingest 2 (resultOf "d" "one" "0") 1 2 0, .commit 3, .rollback 1 ]

/-- The race ends with three versions. -/
theorem ingest_sessions_dense_race :
    ∃ w, ingestInterleaving.run { db := projectDb } racingIngests = some w ∧
      versionsAmong w.db.artifacts.items "p" "result" = List.range' 1 3 := by
  have length : (ingestInterleaving.run { db := projectDb } racingIngests).map (fun w =>
      (versionsAmong w.db.artifacts.items "p" "result").length) = some 3 := by decide
  obtain ⟨w, rn, three⟩ := Option.map_eq_some_iff.mp length
  refine ⟨w, rn, ?_⟩
  rw [(ingest_sessions_dense rfl rn).1 "p" "result", three]

end ResearchController
