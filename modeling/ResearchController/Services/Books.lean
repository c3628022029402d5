import ResearchController.Artifacts.Store
import ResearchController.Lib.Ledger
import ResearchController.Services.Reconciler
import ResearchController.Services.Replay

/-!
# The books of tasks and jobs

The rows of a table together with the entries of the audit log about each of them, as a `Lib.Book`.
An entry is the type of an event and the state it leads to. Every service writes one row and the
entries about it in the book of its entity, and nothing in the other one.
-/

namespace ResearchController
open Lib

/-- What the log of an entity tells about one change: the event type and the new state. -/
abbrev Entry := String × Option String

/-- The entry of an event. -/
def Event.entry (e : Event) : Entry :=
  (e.eventType, e.newState)

/-- The entry of a draft. -/
def EventDraft.entry (d : EventDraft) : Entry :=
  (d.eventType, d.newState)

/-- The tasks and what is logged about them. -/
def Db.taskBook (db : Db) : Book String Task Entry where
  rows := db.tasks
  log id := (db.entityEvents "TASK" id).map Event.entry

/-- The jobs and what is logged about them. -/
def Db.jobBook (db : Db) : Book String ComputeJob Entry where
  rows := db.jobs
  log id := (db.entityEvents "COMPUTE_JOB" id).map Event.entry

/-- The entries of an entity after an event. -/
lemma Db.entries_logged (db : Db) {k : String} {p : Project} (hp : db.projects.get k = some p)
    (d : EventDraft) (entityType id : String) :
    ((db.logged k d).entityEvents entityType id).map Event.entry =
      (db.entityEvents entityType id).map Event.entry ++
        if d.entityType = entityType ∧ d.entityId = id then [d.entry] else [] := by
  rw [entityEvents_logged hp, List.map_append]
  congr 1
  split <;> rfl

section Books

variable {db db' : Db}

/-- An event about something else leaves the entries of an entity alone. -/
lemma Db.entries_other {db1 : Db} {k : String} {d : EventDraft} (events : db1.events = db.events)
    {entityType : String} (other : d.entityType ≠ entityType) (id : String) :
    ((db1.logged k d).entityEvents entityType id).map Event.entry =
      (db.entityEvents entityType id).map Event.entry := by
  have same : (db1.entityEvents entityType id) = db.entityEvents entityType id := by
    rw [entityEvents, events]
    rfl
  cases hp : db1.projects.get k with
  | none => rw [show db1.logged k d = db1 by simp only [logged, hp], same]
  | some p => rw [entries_logged db1 hp, if_neg fun both => other both.1, List.append_nil, same]

lemma Db.taskBook_other {db1 : Db} {k : String} {d : EventDraft} (tasks : db1.tasks = db.tasks)
    (events : db1.events = db.events) (entityType : String) (about : d.entityType = entityType)
    (other : entityType ≠ "TASK") : (db1.logged k d).taskBook = db.taskBook := by
  ext1
  · exact (congrArg Rows.tasks (logged_rows _ _ _)).trans tasks
  · exact funext fun id => entries_other events (about.symm ▸ other) id

lemma Db.jobBook_other {db1 : Db} {k : String} {d : EventDraft} (jobs : db1.jobs = db.jobs)
    (events : db1.events = db.events) (entityType : String) (about : d.entityType = entityType)
    (other : entityType ≠ "COMPUTE_JOB") : (db1.logged k d).jobBook = db.jobBook := by
  ext1
  · exact (congrArg Rows.jobs (logged_rows _ _ _)).trans jobs
  · exact funext fun id => entries_other events (about.symm ▸ other) id

/-- A task row stored together with an event about it. -/
lemma Db.taskBook_write {db1 : Db} {k : String} {p : Project} {d : EventDraft} {t : Task}
    (tasks : db1.tasks = db.tasks.set d.entityId t) (events : db1.events = db.events)
    (hp : db1.projects.get k = some p) (about : d.entityType = "TASK") :
    (db1.logged k d).taskBook = db.taskBook.write d.entityId t [d.entry] := by
  ext1
  · exact (congrArg Rows.tasks (logged_rows _ _ _)).trans tasks
  · funext id
    refine (entries_logged db1 hp d "TASK" id).trans ?_
    simp only [entityEvents, events, about, true_and, Book.write, eq_comm (a := id)]
    split
    · rfl
    · rw [List.append_nil]
      rfl

/-- A job row stored together with an event about it. -/
lemma Db.jobBook_write {db1 : Db} {k : String} {p : Project} {d : EventDraft} {j : ComputeJob}
    (jobs : db1.jobs = db.jobs.set d.entityId j) (events : db1.events = db.events)
    (hp : db1.projects.get k = some p) (about : d.entityType = "COMPUTE_JOB") :
    (db1.logged k d).jobBook = db.jobBook.write d.entityId j [d.entry] := by
  ext1
  · exact (congrArg Rows.jobs (logged_rows _ _ _)).trans jobs
  · funext id
    refine (entries_logged db1 hp d "COMPUTE_JOB" id).trans ?_
    simp only [entityEvents, events, about, true_and, Book.write, eq_comm (a := id)]
    split
    · rfl
    · rw [List.append_nil]
      rfl

/-- Assigned columns are written without an entry. -/
lemma Db.modifyTask_book {id : String} {t : Task} (ht : db.tasks.get id = some t)
    (f : Task → Task) : (db.modifyTask id f).taskBook = db.taskBook.write id (f t) [] := by
  rw [modifyTask_of_get ht]
  ext1
  · rfl
  · funext k
    simp only [Book.write, List.append_nil, ite_self]
    rfl

lemma Db.modifyJob_book {id : String} {j : ComputeJob} (hj : db.jobs.get id = some j)
    (f : ComputeJob → ComputeJob) :
    (db.modifyJob id f).jobBook = db.jobBook.write id (f j) [] := by
  rw [modifyJob_of_get hj]
  ext1
  · rfl
  · funext k
    simp only [Book.write, List.append_nil, ite_self]
    rfl

lemma Db.modifyJob_taskBook (id : String) (f : ComputeJob → ComputeJob) :
    (db.modifyJob id f).taskBook = db.taskBook := by
  unfold modifyJob
  split <;> rfl

lemma Db.modifyTask_jobBook (id : String) (f : Task → Task) :
    (db.modifyTask id f).jobBook = db.jobBook := by
  unfold modifyTask
  split <;> rfl

/-! ## Services -/

/-- The type that `transition_task` logs. -/
def taskEventType (eventType : Option String) (toStatus : TaskStatus) : Option String :=
  eventType.filter (· != "") <|> taskEventTypes toStatus

/-- `transition_task` writes the moved row and one entry. -/
lemma Db.transitionTask_book {id : String} {toStatus : TaskStatus}
    {expectedStatus : Option TaskStatus} {eventType : Option String} {payload : JsonObject}
    {now : Datetime} (ty : String) (named : taskEventType eventType toStatus = some ty)
    (h : db.transitionTask id toStatus expectedStatus eventType payload now = .ok db') :
    ∃ t, db.tasks.get id = some t ∧ (∀ s, expectedStatus = some s → t.status = s) ∧
      db'.taskBook = db.taskBook.write id (t.moved toStatus now) [(ty, some toStatus.value)] ∧
      db'.jobBook = db.jobBook := by
  obtain ⟨t, _, _, ht, expected, _⟩ := transitionTask_ok h
  refine ⟨t, ht, expected, ?_⟩
  simp only [transitionTask, ht] at h
  split at h
  · cases h
  · split at h
    · cases h
    · split at h
      · cases h
      · rename_i found
        cases named.symm.trans found
        obtain ⟨p, hp, _, _, rfl⟩ := append_ok h
        constructor
        · exact taskBook_write rfl rfl hp rfl
        · exact jobBook_other rfl rfl "TASK" rfl (by decide)

/-- The entries of a transition of a task into a state, under the default event type. -/
def TaskStatus.entries (s : TaskStatus) : List Entry :=
  [((taskEventTypes s).getD "", some s.value)]

/-- The entries of a transition of a job into a state. -/
def ComputeExecutionStatus.entries (s : ComputeExecutionStatus) : List Entry :=
  [((computeEventTypes s).getD "", some s.value)]

/-- The entries of a step of a job, if it is a step. -/
def ComputeJob.stepEntries (j : ComputeJob) (toStatus : ComputeExecutionStatus) : List Entry :=
  if toStatus = j.executionStatus then [] else toStatus.entries

/-- The entry of a changed observation status. -/
def ComputeJob.seenEntries (j : ComputeJob) (status : ObservationStatus) : List Entry :=
  if j.observationStatus = status then [] else [(observationEventType status, some status.value)]

/-- `transition_compute_job` writes the row and an entry if it changes the status. -/
lemma Db.transitionComputeJob_book {id : String} {j : ComputeJob} (hj : db.jobs.get id = some j)
    {toStatus : ComputeExecutionStatus} {expectedStatus : Option ComputeExecutionStatus}
    {payload : JsonObject} {now : Datetime}
    (h : db.transitionComputeJob id toStatus expectedStatus payload now = .ok db') :
    db'.jobBook = db.jobBook.write id (j.stepped toStatus now) (j.stepEntries toStatus) ∧
      db'.taskBook = db.taskBook := by
  obtain ⟨j', hj', _, ⟨same, rfl⟩ | ⟨p, ty, legal, named, hp, rfl⟩⟩ := transitionComputeJob_ok h
  · cases hj.symm.trans hj'
    simp only [ComputeJob.stepped, ComputeJob.stepEntries, same, if_true]
    exact ⟨(Book.write_same hj).symm, trivial⟩
  · cases hj.symm.trans hj'
    have differs : toStatus ≠ j.executionStatus := by
      intro e
      rw [e] at legal
      revert legal
      cases j.executionStatus <;> decide
    simp only [ComputeJob.stepped, ComputeJob.stepEntries, ComputeExecutionStatus.entries,
      differs, if_false, named, Option.getD_some]
    constructor
    · exact jobBook_write rfl rfl hp rfl
    · exact taskBook_other rfl rfl "COMPUTE_JOB" rfl (by decide)

/-- `update_observation_status` writes the row and an entry if it changes the status. -/
lemma Db.updateObservationStatus_book {id : String} {j : ComputeJob}
    (hj : db.jobs.get id = some j) {status : ObservationStatus} {payload : JsonObject}
    (h : db.updateObservationStatus id status payload = .ok db') :
    db'.jobBook = db.jobBook.write id (j.seen status) (j.seenEntries status) ∧
      db'.taskBook = db.taskBook := by
  obtain ⟨j', hj', ⟨same, rfl⟩ | ⟨p, differs, hp, rfl⟩⟩ := updateObservationStatus_ok h
  · cases hj.symm.trans hj'
    simp only [ComputeJob.seen, ComputeJob.seenEntries, same, if_true]
    exact ⟨(Book.write_same hj).symm, trivial⟩
  · cases hj.symm.trans hj'
    simp only [ComputeJob.seen, ComputeJob.seenEntries, differs, if_false]
    constructor
    · exact jobBook_write rfl rfl hp rfl
    · exact taskBook_other rfl rfl "COMPUTE_JOB" rfl (by decide)

/-- A new project is in neither book. -/
lemma Db.createProject_books {id slug new : String} {lifecycle : ProjectLifecycle}
    (h : db.createProject id slug lifecycle = .ok (new, db')) :
    db'.taskBook = db.taskBook ∧ db'.jobBook = db.jobBook := by
  obtain ⟨_, _, rfl⟩ := createProject_ok h
  exact ⟨taskBook_other rfl rfl "PROJECT" rfl (by decide),
    jobBook_other rfl rfl "PROJECT" rfl (by decide)⟩

/-- An artifact is in neither book. -/
lemma Db.ingestRow_books {a : IngestArgs} {id : String} (h : db.ingestRow a = .ok (id, db')) :
    db'.taskBook = db.taskBook ∧ db'.jobBook = db.jobBook := by
  obtain ⟨rfl, _⟩ | ⟨_, _, _, p, _, rfl⟩ := ingestRow_cases h
  · exact ⟨rfl, rfl⟩
  · constructor
    · rw [taskBook_other rfl rfl "ARTIFACT" rfl (by decide)]
      exact taskBook_other rfl rfl "ARTIFACT" rfl (by decide)
    · rw [jobBook_other rfl rfl "ARTIFACT" rfl (by decide)]
      exact jobBook_other rfl rfl "ARTIFACT" rfl (by decide)

end Books

end ResearchController
