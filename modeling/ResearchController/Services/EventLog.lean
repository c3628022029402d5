import ResearchController.Db.Models

/-!
# Event log

Port of `services/event_log.py`. `Project.bump` is the counter update that `EventLog.append`
performs on the loaded project row and `EventDraft.at` the event it builds; the sequential services
(`Db.append`) and the concurrent sessions of `Db/Sessions.lean` share both. An insertion checks the
two unique constraints of the `events` table.

`Db.Sound` is what makes an append without a dedupe key always succeed: the row's project exists and
no event of the project carries a number above its counter.
-/

namespace ResearchController
open Lib

/-- What a caller of `EventLog.append` says about the event. -/
structure EventDraft where
  eventType : String
  entityType : String
  entityId : String
  dedupeKey : Option String := none
  oldState : Option String := none
  newState : Option String := none
  payload : JsonObject := []

/-- The event row of a draft. -/
def EventDraft.at (d : EventDraft) (projectId : String) (seq : Nat) : Event :=
  { projectId := projectId, seq := seq, eventType := d.eventType, entityType := d.entityType,
    entityId := d.entityId, dedupeKey := d.dedupeKey, oldState := d.oldState,
    newState := d.newState, payload := d.payload }

/-- `project.event_seq += 1; project.lock_version += 1`. -/
def Project.bump (p : Project) : Project :=
  { p with eventSeq := p.eventSeq + 1, lockVersion := p.lockVersion + 1 }

/-- Two events violate `UniqueConstraint("project_id", "seq")`. -/
def Event.sameSeq (e e' : Event) : Bool :=
  e.projectId == e'.projectId && e.seq == e'.seq

/-- Two events violate `UniqueConstraint("project_id", "dedupe_key")`, where nulls are distinct. -/
def Event.sameDedupe (e e' : Event) : Bool :=
  e.projectId == e'.projectId && e.dedupeKey == e'.dedupeKey && e.dedupeKey.isSome

/-- Insert a row into `events`. -/
def Db.insertEvent (db : Db) (e : Event) : Except PyErr Db :=
  if db.events.any (·.sameSeq e) then
    .error (.integrityError "events.project_id, events.seq")
  else if db.events.any (·.sameDedupe e) then
    .error (.integrityError "events.project_id, events.dedupe_key")
  else
    .ok { db with events := db.events ++ [e] }

/-- `EventLog.append`. -/
def Db.append (db : Db) (projectId : String) (d : EventDraft) : Except PyErr Db :=
  match db.projects.get projectId with
  | none => .error (.lookupError s!"project not found: {projectId}")
  | some p =>
    { db with projects := db.projects.set projectId p.bump }.insertEvent
      (d.at projectId p.bump.eventSeq)

/-- The database after an event has been logged: counters bumped, event appended. -/
def Db.logged (db : Db) (projectId : String) (d : EventDraft) : Db :=
  match db.projects.get projectId with
  | none => db
  | some p =>
    { db with
      projects := db.projects.set projectId p.bump,
      events := db.events ++ [d.at projectId (p.eventSeq + 1)] }

@[simp] lemma Db.logged_rows (db : Db) (projectId : String) (d : EventDraft) :
    (db.logged projectId d).toRows = db.toRows := by
  unfold logged
  split <;> rfl

/-- The log after an event of an existing project. -/
lemma Db.logged_events {db : Db} {projectId : String} {p : Project}
    (hp : db.projects.get projectId = some p) (d : EventDraft) :
    (db.logged projectId d).events = db.events ++ [d.at projectId (p.eventSeq + 1)] := by
  simp only [logged, hp]

/-- The projects after an event of an existing project. -/
lemma Db.logged_projects {db : Db} {projectId : String} {p : Project}
    (hp : db.projects.get projectId = some p) (d : EventDraft) :
    (db.logged projectId d).projects = db.projects.set projectId p.bump := by
  simp only [logged, hp]

/-- Logging keeps every project. -/
lemma Db.logged_get_project {db : Db} {projectId k : String} {q : Project} (d : EventDraft)
    (hq : db.projects.get k = some q) : ∃ q', (db.logged projectId d).projects.get k = some q' := by
  cases hp : db.projects.get projectId with
  | none => exact ⟨q, by simp only [logged, hp]; exact hq⟩
  | some p =>
    rw [logged_projects hp, Dict.get_set]
    split
    · exact ⟨p.bump, rfl⟩
    · exact ⟨q, hq⟩

/-- What a successful append says: the project exists, neither unique constraint is hit, and the
    result is the logged database. -/
lemma Db.append_ok {db db' : Db} {projectId : String} {d : EventDraft}
    (h : db.append projectId d = .ok db') :
    ∃ p, db.projects.get projectId = some p ∧
      (∀ e ∈ db.events, ¬ (e.projectId = projectId ∧ e.seq = p.eventSeq + 1)) ∧
      (∀ e ∈ db.events, e.projectId = projectId → d.dedupeKey.isSome → e.dedupeKey ≠ d.dedupeKey) ∧
      db' = db.logged projectId d := by
  unfold append at h
  split at h
  · cases h
  · rename_i p hp
    unfold insertEvent at h
    split at h
    · cases h
    · rename_i seqFree
      split at h
      · cases h
      · rename_i keyFree
        cases h
        refine ⟨p, hp, ?_, ?_, by simp only [logged, hp]; rfl⟩
        · intro e mem same
          obtain ⟨eqP, eqS⟩ := same
          apply seqFree
          rw [List.any_eq_true]
          exact ⟨e, mem, by simp [Event.sameSeq, EventDraft.at, Project.bump, eqP, eqS]⟩
        · intro e mem eqP isSome eqK
          apply keyFree
          rw [List.any_eq_true]
          exact ⟨e, mem, by simp [Event.sameDedupe, EventDraft.at, eqP, eqK, isSome]⟩

/-- References point to rows and event numbers stay below the counters. -/
structure Db.Sound (db : Db) : Prop where
  taskProject : ∀ {id t}, db.tasks.get id = some t → ∃ p, db.projects.get t.projectId = some p
  jobProject : ∀ {id j}, db.jobs.get id = some j → ∃ p, db.projects.get j.projectId = some p
  jobTask : ∀ {id j}, db.jobs.get id = some j → ∃ t, db.tasks.get j.taskId = some t
  seqBound : ∀ {e}, e ∈ db.events → ∃ p, db.projects.get e.projectId = some p ∧ e.seq ≤ p.eventSeq

/-- An append without a clash of dedupe keys succeeds. -/
lemma Db.Sound.append_of_fresh {db : Db} (sd : db.Sound) {projectId : String} {p : Project}
    (hp : db.projects.get projectId = some p) {d : EventDraft}
    (keyFree : ∀ e ∈ db.events, e.projectId = projectId → d.dedupeKey.isSome →
      e.dedupeKey ≠ d.dedupeKey) :
    db.append projectId d = .ok (db.logged projectId d) := by
  have noSeq : db.events.any (·.sameSeq (d.at projectId p.bump.eventSeq)) = false := by
    rw [List.any_eq_false]
    intro e mem
    simp only [Event.sameSeq, EventDraft.at, Project.bump, Bool.and_eq_true, beq_iff_eq, not_and]
    intro eqP eqS
    obtain ⟨q, hq, le⟩ := sd.seqBound mem
    rw [eqP, hp] at hq
    cases hq
    omega
  have noKey : db.events.any (·.sameDedupe (d.at projectId p.bump.eventSeq)) = false := by
    rw [List.any_eq_false]
    intro e mem
    simp only [Event.sameDedupe, EventDraft.at, Bool.and_eq_true, beq_iff_eq, not_and]
    intro both isSome
    obtain ⟨eqP, eqK⟩ := both
    exact keyFree e mem eqP (eqK ▸ isSome) eqK
  simp only [append, hp, insertEvent, noSeq, noKey, logged]
  rfl

/-- An append succeeds exactly when no event of the project has its dedupe key. -/
lemma Db.Sound.append_total_iff {db : Db} (sd : db.Sound) {projectId : String} {p : Project}
    (hp : db.projects.get projectId = some p) {d : EventDraft} :
    (∃ db', db.append projectId d = .ok db') ↔
      ∀ e ∈ db.events, e.projectId = projectId → d.dedupeKey.isSome →
        e.dedupeKey ≠ d.dedupeKey := by
  constructor
  · rintro ⟨db', h⟩
    obtain ⟨_, _, _, keyFree, _⟩ := append_ok h
    exact keyFree
  · intro keyFree
    exact ⟨_, sd.append_of_fresh hp keyFree⟩

/-- Appending an event without a dedupe key to an existing project never fails. -/
lemma Db.Sound.append_total {db : Db} (sd : db.Sound) {projectId : String} {p : Project}
    (hp : db.projects.get projectId = some p) {d : EventDraft} (noKey : d.dedupeKey = none) :
    db.append projectId d = .ok (db.logged projectId d) := by
  apply sd.append_of_fresh hp
  intro e _ _ isSome
  rw [noKey] at isSome
  cases isSome

/-- Soundness survives logging. -/
lemma Db.Sound.logged {db : Db} (sd : db.Sound) (projectId : String) (d : EventDraft) :
    (db.logged projectId d).Sound := by
  refine ⟨?_, ?_, ?_, ?_⟩
  · intro id t ht
    rw [logged_rows] at ht
    obtain ⟨q, hq⟩ := sd.taskProject ht
    exact logged_get_project d hq
  · intro id j hj
    rw [logged_rows] at hj
    obtain ⟨q, hq⟩ := sd.jobProject hj
    exact logged_get_project d hq
  · intro id j hj
    rw [logged_rows] at hj ⊢
    exact sd.jobTask hj
  · intro e mem
    cases hp : db.projects.get projectId with
    | none =>
      simp only [Db.logged, hp] at mem ⊢
      exact sd.seqBound mem
    | some p =>
      rw [logged_events hp] at mem
      rw [logged_projects hp]
      rcases List.mem_append.mp mem with old | new
      · obtain ⟨q, hq, le⟩ := sd.seqBound old
        by_cases eqP : e.projectId = projectId
        · rw [eqP, hp] at hq
          cases hq
          refine ⟨p.bump, by rw [eqP, Dict.get_set_self], ?_⟩
          simp only [Project.bump]
          omega
        · exact ⟨q, by rw [Dict.get_set_ne _ _ eqP]; exact hq, le⟩
      · rw [List.mem_singleton] at new
        subst new
        exact ⟨p.bump, Dict.get_set_self _ _ _, Nat.le_refl _⟩

/-- Soundness survives an update of a task row that stays in its project. -/
lemma Db.Sound.setTask {db : Db} (sd : db.Sound) {id : String} {t t' : Task}
    (ht : db.tasks.get id = some t) (eqP : t'.projectId = t.projectId) :
    ({ db with tasks := db.tasks.set id t' } : Db).Sound := by
  refine ⟨?_, sd.jobProject, ?_, sd.seqBound⟩
  · intro k s hs
    rw [Dict.get_set] at hs
    split at hs
    · cases hs
      rw [eqP]
      exact sd.taskProject ht
    · exact sd.taskProject hs
  · intro k j hj
    obtain ⟨s, hs⟩ := sd.jobTask hj
    rw [Dict.get_set]
    split
    · exact ⟨t', rfl⟩
    · exact ⟨s, hs⟩

lemma Db.Sound.modifyTask {db : Db} (sd : db.Sound) (id : String) {f : Task → Task}
    (eqP : ∀ t, (f t).projectId = t.projectId) : (db.modifyTask id f).Sound := by
  unfold Db.modifyTask
  split
  · rename_i t ht
    exact sd.setTask ht (eqP t)
  · exact sd

/-- Soundness survives an update of a job row that keeps its owner. -/
lemma Db.Sound.setJob {db : Db} (sd : db.Sound) {id : String} {j j' : ComputeJob}
    (hj : db.jobs.get id = some j) (eqP : j'.projectId = j.projectId) (eqT : j'.taskId = j.taskId) :
    ({ db with jobs := db.jobs.set id j' } : Db).Sound := by
  refine ⟨sd.taskProject, ?_, ?_, sd.seqBound⟩
  · intro k i hi
    rw [Dict.get_set] at hi
    split at hi
    · cases hi
      rw [eqP]
      exact sd.jobProject hj
    · exact sd.jobProject hi
  · intro k i hi
    rw [Dict.get_set] at hi
    split at hi
    · cases hi
      rw [eqT]
      exact sd.jobTask hj
    · exact sd.jobTask hi

end ResearchController
