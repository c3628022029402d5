import ResearchController.Db.Sessions
import ResearchController.Lib.Walk
import ResearchController.Services.ProjectState

/-!
# The audit log replays to the stored state

Every write of `services/transitions.py` and `services/project_state.py` puts a row and an event
about it into the same transaction. `Task.ReplayedBy` and `ComputeJob.ReplayedBy` say what the
events of one entity then tell: the states in the log are a walk along the transition tables from
the state of a new row to the stored one, and the counters of the row count the events. The two
state machines of a job share one entity type and are told apart by the type of the event.

`Db.Audited` collects this for all rows, with the facts about the log that make it inductive: an
event about a task or job belongs to a row and to the row's project. `log` is about one event and
the rows that are written with it; `logTask` and `logJob` are the only two ways in which the log of
an entity grows.
-/

namespace ResearchController
open Lib

/-- The events about one entity, in the order of the log. -/
def Db.entityEvents (db : Db) (entityType id : String) : List Event :=
  db.events.filter fun e => e.entityType == entityType && e.entityId == id

/-- The states an event records. -/
def Event.states (e : Event) : Option String × Option String :=
  (e.oldState, e.newState)

/-- The event types of `update_observation_status`. -/
def observationEventTypes : List String :=
  ["COMPUTE_OBSERVABILITY_RESTORED", "COMPUTE_OBSERVABILITY_LOST", "COMPUTE_OBSERVATION_CHANGED"]

/-- Whether an event of a job is about its observation. -/
def Event.isObservation (e : Event) : Bool :=
  observationEventTypes.contains e.eventType

/-- The log of a task tells its status, its lock version and its attempts. -/
def Task.ReplayedBy (t : Task) (log : List Event) : Prop :=
  ∃ walk, Walk (fun s s' => s' ∈ taskTransitions s) .pending walk t.status ∧
    log.map Event.states = (none, some TaskStatus.pending.value) ::
      walk.map (fun (s, s') => (some s.value, some s'.value)) ∧
    t.lockVersion + 1 = log.length ∧
    t.attemptCount = log.countP fun e => e.newState == some TaskStatus.running.value

/-- The log of a job tells its execution status, its observation status and its lock version. -/
def ComputeJob.ReplayedBy (j : ComputeJob) (log : List Event) : Prop :=
  ∃ execution observation,
    Walk (fun s s' => s' ∈ computeTransitions s) .created execution j.executionStatus ∧
    Walk (· ≠ ·) .fresh observation j.observationStatus ∧
    (log.filter (!·.isObservation)).map Event.states =
      (none, some ComputeExecutionStatus.created.value) ::
        execution.map (fun (s, s') => (some s.value, some s'.value)) ∧
    (log.filter (·.isObservation)).map Event.states =
      observation.map (fun (s, s') => (some s.value, some s'.value)) ∧
    j.lockVersion + 1 = log.length

/-- A call of one of the services. -/
inductive AuditCall where
  | createProject (id slug : String) (lifecycle : ProjectLifecycle)
  | createTask (a : TaskArgs)
  | createComputeJob (a : JobArgs)
  | transitionTask (id : String) (toStatus : TaskStatus) (expectedStatus : Option TaskStatus)
      (eventType : Option String) (payload : JsonObject) (now : Datetime)
  | transitionComputeJob (id : String) (toStatus : ComputeExecutionStatus)
      (expectedStatus : Option ComputeExecutionStatus) (payload : JsonObject) (now : Datetime)
  | updateObservationStatus (id : String) (status : ObservationStatus) (payload : JsonObject)

/-- The effect of a call inside a transaction. -/
def Db.call (db : Db) : AuditCall → Except PyErr Db
  | .createProject id slug lifecycle => do
    let (_, db) ← db.createProject id slug lifecycle
    return db
  | .createTask a => do
    let (_, db) ← db.createTask a
    return db
  | .createComputeJob a => do
    let (_, db) ← db.createComputeJob a
    return db
  | .transitionTask id toStatus expectedStatus eventType payload now =>
    db.transitionTask id toStatus expectedStatus eventType payload now
  | .transitionComputeJob id toStatus expectedStatus payload now =>
    db.transitionComputeJob id toStatus expectedStatus payload now
  | .updateObservationStatus id status payload => db.updateObservationStatus id status payload

/-- A transaction: its calls, and whether it is committed at its end. -/
structure Transaction where
  calls : List AuditCall
  commits : Bool

/-- The committed database after a transaction: a call that raises rolls all of them back. -/
def Db.transact (db : Db) (tx : Transaction) : Db :=
  match tx.calls.foldlM Db.call db with
  | .ok db' => if tx.commits then db' else db
  | .error _ => db

/-- The system of all transactions of audited calls. -/
def auditedTransactions : System Db Transaction where
  step db tx := some (db.transact tx)

/-- Every row is told by its log. -/
structure Db.Audited (db : Db) : Prop where
  numbered : db.Numbered
  task : ∀ {id t}, db.tasks.get id = some t → t.ReplayedBy (db.entityEvents "TASK" id)
  job : ∀ {id j}, db.jobs.get id = some j → j.ReplayedBy (db.entityEvents "COMPUTE_JOB" id)
  taskRow : ∀ {e}, e ∈ db.events → e.entityType = "TASK" →
    ∃ t, db.tasks.get e.entityId = some t ∧ e.projectId = t.projectId
  jobRow : ∀ {e}, e ∈ db.events → e.entityType = "COMPUTE_JOB" →
    ∃ j, db.jobs.get e.entityId = some j ∧ e.projectId = j.projectId

lemma Db.Audited.empty : Db.empty.Audited := by
  refine ⟨.empty, ?_, ?_, ?_, ?_⟩
  · intro id t ht
    cases ht
  · intro id j hj
    cases hj
  · intro e mem
    cases mem
  · intro e mem
    cases mem

/-! ## The log grows -/

/-- Logging an event keeps the numbering. -/
lemma Db.Numbered.logged {db : Db} (nb : db.Numbered) (projectId : String) (d : EventDraft) :
    (db.logged projectId d).Numbered := by
  cases hp : db.projects.get projectId with
  | none =>
    have same : db.logged projectId d = db := by simp only [Db.logged, hp]
    rw [same]
    exact nb
  | some p =>
    refine ⟨?_, ?_, ?_⟩
    · intro k q hq
      rw [logged_projects hp, Dict.get_set] at hq
      split at hq
      · cases hq
        simp only [Project.bump, nb.counters hp]
      · exact nb.counters hq
    · intro k q hq
      rw [logged_events hp, seqsOf_append, seqsOf_singleton]
      rw [logged_projects hp, Dict.get_set] at hq
      split at hq
      · rename_i e
        cases hq
        rw [if_pos e.symm, e, nb.numbers hp]
        simp only [Project.bump]
        rw [List.range'_1_concat, Nat.add_comm 1]
      · rename_i ne
        rw [if_neg (Ne.symm ne), List.append_nil]
        exact nb.numbers hq
    · intro e mem
      rw [logged_events hp] at mem
      rw [logged_projects hp, Dict.get_set]
      split
      · exact ⟨_, rfl⟩
      · rename_i ne
        rcases List.mem_append.mp mem with old | new
        · exact nb.known old
        · rw [List.mem_singleton] at new
          rw [new] at ne
          exact (ne rfl).elim

/-- The log of an entity after an event. -/
lemma Db.entityEvents_logged {db : Db} {projectId : String} {p : Project}
    (hp : db.projects.get projectId = some p) (d : EventDraft) (entityType id : String) :
    (db.logged projectId d).entityEvents entityType id = db.entityEvents entityType id ++
      if d.entityType = entityType ∧ d.entityId = id then
        [d.at projectId (p.eventSeq + 1)]
      else [] := by
  unfold entityEvents
  rw [logged_events hp, List.filter_append]
  congr 1
  by_cases same : d.entityType = entityType ∧ d.entityId = id
  · rw [if_pos same]
    simp [EventDraft.at, same]
  · rw [if_neg same, List.filter_eq_nil_iff]
    intro e mem
    rw [List.mem_singleton] at mem
    rw [mem, Bool.and_eq_true, beq_iff_eq, beq_iff_eq]
    exact same

/-- An entity without a row has no log. -/
lemma Db.entityEvents_nil {db : Db} {entityType id : String}
    (none_about : ∀ e ∈ db.events, e.entityType = entityType → e.entityId ≠ id) :
    db.entityEvents entityType id = [] := by
  rw [entityEvents, List.filter_eq_nil_iff]
  intro e mem both
  rw [Bool.and_eq_true, beq_iff_eq, beq_iff_eq] at both
  exact none_about e mem both.1 both.2

section Audited

variable {db : Db}

lemma Db.Audited.noTask (au : db.Audited) {id : String} (absent : db.tasks.get id = none) :
    db.entityEvents "TASK" id = [] := by
  apply entityEvents_nil
  intro e mem ofTask same
  obtain ⟨t, ht, _⟩ := au.taskRow mem ofTask
  rw [same, absent] at ht
  cases ht

lemma Db.Audited.noJob (au : db.Audited) {id : String} (absent : db.jobs.get id = none) :
    db.entityEvents "COMPUTE_JOB" id = [] := by
  apply entityEvents_nil
  intro e mem ofJob same
  obtain ⟨j, hj, _⟩ := au.jobRow mem ofJob
  rw [same, absent] at hj
  cases hj

/-- An event may be logged together with a change of the rows that it is about. -/
lemma Db.Audited.log (au : db.Audited) {db1 : Db} (numbered : db1.Numbered)
    (events : db1.events = db.events) {k : String} {p : Project}
    (hp : db1.projects.get k = some p) {d : EventDraft}
    (task : ∀ {id t}, db1.tasks.get id = some t → t.ReplayedBy (db.entityEvents "TASK" id ++
      if d.entityType = "TASK" ∧ d.entityId = id then [d.at k (p.eventSeq + 1)] else []))
    (job : ∀ {id j}, db1.jobs.get id = some j → j.ReplayedBy (db.entityEvents "COMPUTE_JOB" id ++
      if d.entityType = "COMPUTE_JOB" ∧ d.entityId = id then [d.at k (p.eventSeq + 1)] else []))
    (taskKept : ∀ {id t}, db.tasks.get id = some t →
      ∃ t', db1.tasks.get id = some t' ∧ t.projectId = t'.projectId)
    (jobKept : ∀ {id j}, db.jobs.get id = some j →
      ∃ j', db1.jobs.get id = some j' ∧ j.projectId = j'.projectId)
    (taskRow : d.entityType = "TASK" → ∃ t, db1.tasks.get d.entityId = some t ∧ k = t.projectId)
    (jobRow : d.entityType = "COMPUTE_JOB" →
      ∃ j, db1.jobs.get d.entityId = some j ∧ k = j.projectId) :
    (db1.logged k d).Audited := by
  have log : ∀ ty id, (db1.logged k d).entityEvents ty id = db.entityEvents ty id ++
      if d.entityType = ty ∧ d.entityId = id then [d.at k (p.eventSeq + 1)] else [] := by
    intro ty id
    rw [entityEvents_logged hp, entityEvents, events]
    rfl
  have grown : ∀ e ∈ (db1.logged k d).events, e ∈ db.events ∨ e = d.at k (p.eventSeq + 1) := by
    intro e mem
    rw [logged_events hp, events] at mem
    rcases List.mem_append.mp mem with old | new
    · exact Or.inl old
    · exact Or.inr (List.mem_singleton.mp new)
  refine ⟨numbered.logged _ _, ?_, ?_, ?_, ?_⟩
  · intro id t ht
    rw [logged_rows] at ht
    rw [log]
    exact task ht
  · intro id j hj
    rw [logged_rows] at hj
    rw [log]
    exact job hj
  · intro e mem isTask
    rw [logged_rows]
    rcases grown e mem with old | rfl
    · obtain ⟨t, ht, eqP⟩ := au.taskRow old isTask
      obtain ⟨t', ht', kept⟩ := taskKept ht
      exact ⟨t', ht', eqP.trans kept⟩
    · exact taskRow isTask
  · intro e mem isJob
    rw [logged_rows]
    rcases grown e mem with old | rfl
    · obtain ⟨j, hj, eqP⟩ := au.jobRow old isJob
      obtain ⟨j', hj', kept⟩ := jobKept hj
      exact ⟨j', hj', eqP.trans kept⟩
    · exact jobRow isJob

lemma Db.Numbered.of_same {db1 : Db} (nb : db.Numbered) (projects : db1.projects = db.projects)
    (events : db1.events = db.events) : db1.Numbered := by
  refine ⟨?_, ?_, ?_⟩
  · rw [projects]
    exact nb.counters
  · rw [projects, events]
    exact nb.numbers
  · rw [projects, events]
    exact nb.known

/-- A task row may be written together with one event that replays to it. -/
lemma Db.Audited.logTask (au : db.Audited) {db1 : Db} (id : String) (t' : Task) {p : Project}
    {d : EventDraft} (tasks : db1.tasks = db.tasks.set id t') (jobs : db1.jobs = db.jobs)
    (projects : db1.projects = db.projects) (events : db1.events = db.events)
    (hp : db.projects.get t'.projectId = some p)
    (ofTask : d.entityType = "TASK") (about : d.entityId = id)
    (sameProject : ∀ t, db.tasks.get id = some t → t.projectId = t'.projectId)
    (replays : ∀ e : Event, e.states = (d.oldState, d.newState) →
      t'.ReplayedBy (db.entityEvents "TASK" id ++ [e])) :
    (db1.logged t'.projectId d).Audited := by
  have noJob : d.entityType ≠ "COMPUTE_JOB" := by
    rw [ofTask]
    decide
  refine au.log (au.numbered.of_same projects events) events (projects ▸ hp) ?_ ?_ ?_ ?_ ?_ ?_
  · intro k t ht
    rw [tasks, Dict.get_set] at ht
    split at ht
    · rename_i e
      cases ht
      rw [if_pos ⟨ofTask, about.trans e.symm⟩, e]
      exact replays _ rfl
    · rename_i ne
      rw [if_neg (fun both => ne (both.2.symm.trans about)), List.append_nil]
      exact au.task ht
  · intro k j hj
    rw [jobs] at hj
    rw [if_neg (fun both => noJob both.1), List.append_nil]
    exact au.job hj
  · intro k t ht
    rw [tasks, Dict.get_set]
    split
    · rename_i e
      rw [e] at ht
      exact ⟨t', rfl, sameProject t ht⟩
    · exact ⟨t, ht, rfl⟩
  · intro k j hj
    rw [jobs]
    exact ⟨j, hj, rfl⟩
  · intro _
    rw [tasks, about]
    exact ⟨t', Dict.get_set_self _ _ _, rfl⟩
  · exact fun isJob => (noJob isJob).elim

/-- A job row may be written together with one event that replays to it. -/
lemma Db.Audited.logJob (au : db.Audited) (id : String) (j' : ComputeJob) {p : Project}
    {d : EventDraft} (hp : db.projects.get j'.projectId = some p)
    (ofJob : d.entityType = "COMPUTE_JOB") (about : d.entityId = id)
    (sameProject : ∀ j, db.jobs.get id = some j → j.projectId = j'.projectId)
    (replays : ∀ e : Event, e.states = (d.oldState, d.newState) → e.eventType = d.eventType →
      j'.ReplayedBy (db.entityEvents "COMPUTE_JOB" id ++ [e])) :
    (({ db with jobs := db.jobs.set id j' } : Db).logged j'.projectId d).Audited := by
  have noTask : d.entityType ≠ "TASK" := by
    rw [ofJob]
    decide
  have numbered : ({ db with jobs := db.jobs.set id j' } : Db).Numbered :=
    au.numbered.of_same rfl rfl
  refine au.log numbered rfl hp ?_ ?_ ?_ ?_ ?_ ?_
  · intro k t ht
    rw [if_neg (fun both => noTask both.1), List.append_nil]
    exact au.task ht
  · intro k j hj
    rw [Dict.get_set] at hj
    split at hj
    · rename_i e
      cases hj
      rw [if_pos ⟨ofJob, about.trans e.symm⟩, e]
      exact replays _ rfl rfl
    · rename_i ne
      rw [if_neg (fun both => ne (both.2.symm.trans about)), List.append_nil]
      exact au.job hj
  · intro k t ht
    exact ⟨t, ht, rfl⟩
  · intro k j hj
    rw [Dict.get_set]
    split
    · rename_i e
      rw [e] at hj
      exact ⟨j', rfl, sameProject j hj⟩
    · exact ⟨j, hj, rfl⟩
  · exact fun isTask => (noTask isTask).elim
  · intro _
    rw [about]
    exact ⟨j', Dict.get_set_self _ _ _, rfl⟩

end Audited

/-! ## One step of a log -/

/-- A transition of a task extends its walk. -/
lemma Task.ReplayedBy.move {t : Task} {log : List Event} (rp : t.ReplayedBy log) {s : TaskStatus}
    (legal : s ∈ taskTransitions t.status) (now : Datetime) {e : Event}
    (states : e.states = (some t.status.value, some s.value)) :
    (t.moved s now).ReplayedBy (log ++ [e]) := by
  obtain ⟨walk, wk, recorded, count, attempts⟩ := rp
  refine ⟨walk ++ [(t.status, s)], ?_, ?_, ?_, ?_⟩
  · rw [moved_status]
    exact wk.snoc legal
  · rw [List.map_append, recorded, List.map_append, List.cons_append]
    simp only [List.map_cons, List.map_nil, states]
  · rw [moved_lockVersion, List.length_append, List.length_singleton, ← count]
  · have entered : e.newState = some s.value := congrArg Prod.snd states
    rw [moved_attemptCount, List.countP_append, attempts, List.countP_singleton, entered]
    simp only [beq_iff_eq, Option.some.injEq, TaskStatus.value_injective.eq_iff]

/-- The events of `transition_compute_job` are not about the observation. -/
lemma computeEventTypes_execution {s : ComputeExecutionStatus} {ty : String}
    (hty : computeEventTypes s = some ty) : observationEventTypes.contains ty = false := by
  cases s <;> cases hty <;> decide

/-- The events of `update_observation_status` are. -/
lemma observationEventType_observation (status : ObservationStatus) :
    observationEventTypes.contains (observationEventType status) = true := by
  cases status <;> decide

/-- A transition of a job extends its execution walk. -/
lemma ComputeJob.ReplayedBy.move {j : ComputeJob} {log : List Event} (rp : j.ReplayedBy log)
    {s : ComputeExecutionStatus} (legal : s ∈ computeTransitions j.executionStatus) (now : Datetime)
    {e : Event} (states : e.states = (some j.executionStatus.value, some s.value))
    (execution : e.isObservation = false) : (j.moved s now).ReplayedBy (log ++ [e]) := by
  obtain ⟨walk, observation, wk, obs, recorded, observed, count⟩ := rp
  refine ⟨walk ++ [(j.executionStatus, s)], observation, ?_, ?_, ?_, ?_, ?_⟩
  · rw [moved_executionStatus]
    exact wk.snoc legal
  · rw [moved_observationStatus]
    exact obs
  · rw [List.filter_append, List.map_append, recorded, List.map_append, List.cons_append]
    simp only [List.filter_cons, execution, Bool.not_false, if_true, List.filter_nil,
      List.map_cons, List.map_nil, states]
  · rw [List.filter_append, List.map_append, observed]
    simp only [List.filter_cons, execution, Bool.false_eq_true, if_false, List.filter_nil,
      List.map_nil, List.append_nil]
  · rw [moved_lockVersion, List.length_append, List.length_singleton, ← count]

/-- A changed observation status extends the observation walk. -/
lemma ComputeJob.ReplayedBy.observe {j : ComputeJob} {log : List Event} (rp : j.ReplayedBy log)
    {status : ObservationStatus} (differs : j.observationStatus ≠ status) {e : Event}
    (states : e.states = (some j.observationStatus.value, some status.value))
    (observation : e.isObservation = true) : (j.observed status).ReplayedBy (log ++ [e]) := by
  obtain ⟨execution, walk, ex, wk, recorded, observed, count⟩ := rp
  refine ⟨execution, walk ++ [(j.observationStatus, status)], ex, wk.snoc differs, ?_, ?_, ?_⟩
  · rw [List.filter_append, List.map_append, recorded]
    simp only [List.filter_cons, observation, Bool.not_true, Bool.false_eq_true, if_false,
      List.filter_nil, List.map_nil, List.append_nil]
  · rw [List.filter_append, List.map_append, observed, List.map_append]
    simp only [List.filter_cons, observation, if_true, List.filter_nil, List.map_cons,
      List.map_nil, states]
  · rw [List.length_append, List.length_singleton, ← count]
    rfl

/-! ## One call -/

section Calls

variable {db db' : Db}

lemma Db.Audited.createProject (au : db.Audited) {id slug new : String}
    {lifecycle : ProjectLifecycle} (h : db.createProject id slug lifecycle = .ok (new, db')) :
    db'.Audited := by
  obtain ⟨_, absent, rfl⟩ := createProject_ok h
  generalize e1 : ({ db with
    projects := db.projects.set id { slug := slug, lifecycle := lifecycle } } : Db) = db1
  have rows : db1.toRows = db.toRows := by rw [← e1]
  have events : db1.events = db.events := by rw [← e1]
  have hp : db1.projects.get id = some { slug := slug, lifecycle := lifecycle } := by
    rw [← e1]
    exact Dict.get_set_self _ _ _
  have other : ∀ {k}, k ≠ id → db1.projects.get k = db.projects.get k := by
    intro k ne
    rw [← e1]
    exact Dict.get_set_ne _ _ ne
  have numbered : db1.Numbered := by
    refine ⟨?_, ?_, ?_⟩
    · intro k p hp'
      by_cases e : k = id
      · rw [e, hp] at hp'
        cases hp'
        rfl
      · exact au.numbered.counters (other e ▸ hp')
    · intro k p hp'
      rw [events]
      by_cases e : k = id
      · rw [e, hp] at hp'
        cases hp'
        rw [e, au.numbered.absent absent]
        rfl
      · exact au.numbered.numbers (other e ▸ hp')
    · intro e mem
      rw [events] at mem
      obtain ⟨p, hp'⟩ := au.numbered.known mem
      have ne : e.projectId ≠ id := by
        intro same
        rw [same, absent] at hp'
        cases hp'
      exact ⟨p, (other ne).trans hp'⟩
  -- the new event is about a project, so no log of a task or a job grows
  have noTask : "PROJECT" ≠ "TASK" := by decide
  have noJob : "PROJECT" ≠ "COMPUTE_JOB" := by decide
  refine au.log numbered events hp ?_ ?_ ?_ ?_ ?_ ?_
  · intro k t ht
    rw [rows] at ht
    rw [if_neg (fun both => noTask both.1), List.append_nil]
    exact au.task ht
  · intro k j hj
    rw [rows] at hj
    rw [if_neg (fun both => noJob both.1), List.append_nil]
    exact au.job hj
  · intro k t ht
    rw [rows]
    exact ⟨t, ht, rfl⟩
  · intro k j hj
    rw [rows]
    exact ⟨j, hj, rfl⟩
  · exact fun isTask => (noTask isTask).elim
  · exact fun isJob => (noJob isJob).elim

lemma Db.Audited.createTask (au : db.Audited) {a : TaskArgs} {id : String}
    (h : db.createTask a = .ok (id, db')) : db'.Audited := by
  obtain ⟨rfl, _⟩ | ⟨p, _, absent, hp, _, rfl⟩ := createTask_ok h
  · exact au
  · refine au.logTask a.id a.row rfl rfl rfl rfl hp rfl rfl ?_ ?_
    · intro t ht
      rw [absent] at ht
      cases ht
    · intro e states
      rw [au.noTask absent]
      refine ⟨[], .nil _, ?_, rfl, ?_⟩
      · simp only [List.nil_append, List.map_cons, List.map_nil, states]
      · have entered : e.newState = some TaskStatus.pending.value := congrArg Prod.snd states
        rw [List.nil_append, List.countP_singleton, entered]
        rfl

lemma Db.Audited.createComputeJob (au : db.Audited) {a : JobArgs} {id : String}
    (h : db.createComputeJob a = .ok (id, db')) : db'.Audited := by
  obtain ⟨rfl, _⟩ | ⟨task, p, _, ht, absent, _, _, hp, rfl⟩ := createComputeJob_ok h
  · exact au
  · refine au.logJob a.id (a.row task) hp rfl rfl ?_ ?_
    · intro j hj
      rw [absent] at hj
      cases hj
    · intro e states eventType
      have execution : e.isObservation = false := by
        rw [Event.isObservation, eventType]
        rfl
      rw [au.noJob absent]
      refine ⟨[], [], .nil _, .nil _, ?_, ?_, rfl⟩
      · simp only [List.nil_append, List.filter_cons, execution, Bool.not_false, if_true,
          List.filter_nil, List.map_cons, List.map_nil, states]
      · simp only [List.nil_append, List.filter_cons, execution, Bool.false_eq_true, if_false,
          List.filter_nil, List.map_nil]

lemma Db.Audited.transitionTask (au : db.Audited) {id : String} {toStatus : TaskStatus}
    {expectedStatus : Option TaskStatus} {eventType : Option String} {payload : JsonObject}
    {now : Datetime}
    (h : db.transitionTask id toStatus expectedStatus eventType payload now = .ok db') :
    db'.Audited := by
  obtain ⟨t, p, ty, ht, _, legal, hp, rfl⟩ := transitionTask_ok h
  rw [← t.moved_projectId toStatus now] at hp ⊢
  refine au.logTask id (t.moved toStatus now) rfl rfl rfl rfl hp rfl rfl ?_ ?_
  · intro t' ht'
    rw [ht] at ht'
    cases ht'
    exact (t.moved_projectId toStatus now).symm
  · exact fun e states => (au.task ht).move legal now states

lemma Db.Audited.transitionComputeJob (au : db.Audited) {id : String}
    {toStatus : ComputeExecutionStatus} {expectedStatus : Option ComputeExecutionStatus}
    {payload : JsonObject} {now : Datetime}
    (h : db.transitionComputeJob id toStatus expectedStatus payload now = .ok db') :
    db'.Audited := by
  obtain ⟨j, hj, _, ⟨_, rfl⟩ | ⟨p, ty, legal, hty, hp, rfl⟩⟩ := transitionComputeJob_ok h
  · exact au
  · rw [← j.moved_projectId toStatus now] at hp ⊢
    refine au.logJob id (j.moved toStatus now) hp rfl rfl ?_ ?_
    · intro j' hj'
      rw [hj] at hj'
      cases hj'
      exact (j.moved_projectId toStatus now).symm
    · intro e states eventType
      apply (au.job hj).move legal now states
      rw [Event.isObservation, eventType]
      exact computeEventTypes_execution hty

lemma Db.Audited.updateObservationStatus (au : db.Audited) {id : String}
    {status : ObservationStatus} {payload : JsonObject}
    (h : db.updateObservationStatus id status payload = .ok db') : db'.Audited := by
  obtain ⟨j, hj, ⟨_, rfl⟩ | ⟨p, differs, hp, rfl⟩⟩ := updateObservationStatus_ok h
  · exact au
  · refine au.logJob id (j.observed status) hp rfl rfl ?_ ?_
    · intro j' hj'
      rw [hj] at hj'
      cases hj'
      rfl
    · intro e states eventType
      apply (au.job hj).observe differs states
      rw [Event.isObservation, eventType]
      exact observationEventType_observation status

/-- Every call keeps the log a replay of the rows. -/
lemma Db.Audited.call (au : db.Audited) {c : AuditCall} (h : db.call c = .ok db') :
    db'.Audited := by
  cases c with
  | createProject id slug lifecycle =>
    obtain ⟨⟨new, db1⟩, ok, e⟩ := bind_ok.mp h
    cases e
    exact au.createProject ok
  | createTask a =>
    obtain ⟨⟨id, db1⟩, ok, e⟩ := bind_ok.mp h
    cases e
    exact au.createTask ok
  | createComputeJob a =>
    obtain ⟨⟨id, db1⟩, ok, e⟩ := bind_ok.mp h
    cases e
    exact au.createComputeJob ok
  | transitionTask id toStatus expectedStatus eventType payload now => exact au.transitionTask h
  | transitionComputeJob id toStatus expectedStatus payload now => exact au.transitionComputeJob h
  | updateObservationStatus id status payload => exact au.updateObservationStatus h

/-- Every transaction keeps the log a replay of the rows. -/
lemma Db.Audited.transact (au : db.Audited) (tx : Transaction) : (db.transact tx).Audited := by
  unfold Db.transact
  split
  · rename_i db1 ok
    split
    · exact foldlM_invariant (fun _ _ _ _ au' h => au'.call h) ok au
    · exact au
  · exact au

end Calls

/-! ## Runs -/

/-- The events about an entity whose events belong to one project are ordered by their numbers. -/
lemma Db.Numbered.entityEvents_sorted {db : Db} (nb : db.Numbered) {entityType id k : String}
    (owned : ∀ e ∈ db.events, e.entityType = entityType → e.entityId = id → e.projectId = k) :
    (db.entityEvents entityType id).Pairwise (·.seq < ·.seq) := by
  have sorted : (db.events.filter (·.projectId == k)).Pairwise (·.seq < ·.seq) := by
    rw [← List.pairwise_map (f := Event.seq) (R := (· < ·))]
    show (seqsOf db.events k).Pairwise (· < ·)
    cases hp : db.projects.get k with
    | none =>
      rw [nb.absent hp]
      exact List.Pairwise.nil
    | some p =>
      rw [nb.numbers hp]
      exact List.pairwise_lt_range'
  have sub : (db.entityEvents entityType id).Sublist (db.events.filter (·.projectId == k)) := by
    have inside : db.entityEvents entityType id =
        (db.entityEvents entityType id).filter (·.projectId == k) := by
      symm
      rw [List.filter_eq_self]
      intro e mem
      obtain ⟨mem, both⟩ := List.mem_filter.mp mem
      rw [Bool.and_eq_true, beq_iff_eq, beq_iff_eq] at both
      exact beq_iff_eq.mpr (owned e mem both.1 both.2)
    rw [inside, Db.entityEvents, List.filter_filter]
    apply List.monotone_filter_right
    intro e both
    exact (Bool.and_eq_true_iff.mp both).1
  exact sorted.sublist sub

/-- After any transactions the events of every task and of every job, in the order of their numbers,
    replay to the stored row. -/
theorem audit_log_replays {transactions : List Transaction} {db : Db}
    (rn : auditedTransactions.run Db.empty transactions = some db) :
    (∀ id t, db.tasks.get id = some t →
        (db.entityEvents "TASK" id).Pairwise (·.seq < ·.seq) ∧
          t.ReplayedBy (db.entityEvents "TASK" id)) ∧
      ∀ id j, db.jobs.get id = some j →
        (db.entityEvents "COMPUTE_JOB" id).Pairwise (·.seq < ·.seq) ∧
          j.ReplayedBy (db.entityEvents "COMPUTE_JOB" id) := by
  have au : db.Audited := by
    refine System.run_invariant (P := Db.Audited) ?_ rn .empty
    intro db tx db' au st
    cases st
    exact au.transact tx
  constructor
  · intro id t ht
    refine ⟨au.numbered.entityEvents_sorted (k := t.projectId) ?_, au.task ht⟩
    intro e mem ofTask about
    obtain ⟨t', ht', eqP⟩ := au.taskRow mem ofTask
    rw [about, ht] at ht'
    cases ht'
    exact eqP
  · intro id j hj
    refine ⟨au.numbered.entityEvents_sorted (k := j.projectId) ?_, au.job hj⟩
    intro e mem ofJob about
    obtain ⟨j', hj', eqP⟩ := au.jobRow mem ofJob
    rw [about, hj] at hj'
    cases hj'
    exact eqP

/-- A task is created, readied and started with a job, which is submitted and lost out of sight.
    Then a transaction raises after a legal step. -/
def auditedTask : List Transaction :=
  [ ⟨[ .createProject "p" "slug" .active,
       .createTask { id := "t", projectId := "p", executor := .compute, idempotencyKey := "k",
                     specJson := .null },
       .transitionTask "t" .ready (some .pending) none [] 1 ], true⟩,
    ⟨[ .createComputeJob
         { id := "j", taskId := "t", providerId := "local", resourceClass := "cpu",
           submissionKey := "s", remoteWorkdir := "/w",
           specJson := { projectId := "p", taskId := "t", submissionKey := "s", execution := {},
                         resources := {}, outputs := [] } },
       .transitionTask "t" .running none none [] 2 ], true⟩,
    ⟨[ .transitionComputeJob "j" .submitted (some .created) [] 3,
       .updateObservationStatus "j" .unreachable [] ], true⟩,
    ⟨[.transitionTask "t" .failed none none [] 4, .transitionTask "t" .succeeded none none [] 5],
      true⟩ ]

/-- The log of that task has three events and replays to the running row, and so does the log of its
    job to the two states of the job. -/
theorem audit_log_replays_task :
    ∃ db t j, auditedTransactions.run Db.empty auditedTask = some db ∧ db.tasks.get "t" = some t ∧
      t.status = .running ∧ (db.entityEvents "TASK" "t").length = 3 ∧
      t.ReplayedBy (db.entityEvents "TASK" "t") ∧
      db.jobs.get "j" = some j ∧ j.executionStatus = .submitted ∧
      j.observationStatus = .unreachable ∧ (db.entityEvents "COMPUTE_JOB" "j").length = 3 ∧
      j.ReplayedBy (db.entityEvents "COMPUTE_JOB" "j") := by
  obtain ⟨db, rn⟩ := Option.isSome_iff_exists.mp
    (show (auditedTransactions.run Db.empty auditedTask).isSome = true by decide)
  have facts : (auditedTransactions.run Db.empty auditedTask).map (fun db =>
      ((db.tasks.get "t").map (·.status), (db.entityEvents "TASK" "t").length,
        (db.jobs.get "j").map (fun j => (j.executionStatus, j.observationStatus)),
        (db.entityEvents "COMPUTE_JOB" "j").length)) =
      some (some .running, 3, some (.submitted, .unreachable), 3) := by decide
  simp only [rn, Option.map_some, Option.some.injEq, Prod.mk.injEq] at facts
  obtain ⟨task, three, job, three'⟩ := facts
  obtain ⟨t, ht, running⟩ := Option.map_eq_some_iff.mp task
  obtain ⟨j, hj, states⟩ := Option.map_eq_some_iff.mp job
  obtain ⟨submitted, unreachable⟩ := Prod.mk.inj states
  obtain ⟨tasks, jobs⟩ := audit_log_replays rn
  exact ⟨db, t, j, rn, ht, running, three, (tasks "t" t ht).2, hj, submitted, unreachable, three',
    (jobs "j" j hj).2⟩

end ResearchController
