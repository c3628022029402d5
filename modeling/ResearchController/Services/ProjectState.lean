import ResearchController.Lib.Loop
import ResearchController.Services.Transitions

/-!
# Project state

Port of `services/project_state.py`. A creation takes the identifier of the new row as an argument:
the source draws it at random or receives it from the caller, and an identifier that is already a
primary key makes the flush fail. `create_task` and `create_compute_job` return the row that is
already there when the idempotency key, or the pair of provider and submission key, is taken; that
row need not belong to the caller's task.
-/

namespace ResearchController
open Lib

/-- The arguments of `create_task` that the modelled code reads. The identifier is that of the new
    row, given as `task_id` or drawn by `new_id`; the empty one stands for no call. -/
structure TaskArgs where
  id : String
  projectId : String
  executor : TaskExecutor
  action : String := ""
  idempotencyKey : String
  specJson : Json
  acceptancePolicyJson : JsonObject := []
  dependencyIds : List String := []
  priority : Int := 0
  maxAttempts : Int := 1
  createdAt : Datetime := 0

/-- The row that `create_task` inserts. -/
def TaskArgs.row (a : TaskArgs) : Task :=
  { projectId := a.projectId, executor := a.executor, priority := a.priority,
    specJson := a.specJson, acceptancePolicyJson := a.acceptancePolicyJson,
    maxAttempts := a.maxAttempts, idempotencyKey := a.idempotencyKey, createdAt := a.createdAt }

/-- The arguments of `create_compute_job`. -/
structure JobArgs where
  id : String
  taskId : String
  providerId : String
  resourceClass : String
  submissionKey : String
  remoteWorkdir : String
  specJson : ComputeTaskSpec

/-- The row that `create_compute_job` inserts for a task. -/
def JobArgs.row (a : JobArgs) (task : Task) : ComputeJob :=
  { projectId := task.projectId, taskId := a.taskId, providerId := a.providerId,
    resourceClass := a.resourceClass, submissionKey := a.submissionKey,
    attemptNo := task.attemptCount + 1, remoteWorkdir := a.remoteWorkdir, specJson := a.specJson }

/-- `ProjectStateService.create_project`. -/
def Db.createProject (db : Db) (id slug : String) (lifecycle : ProjectLifecycle) :
    Except PyErr (String × Db) :=
  if (db.projects.get id).isSome then
    .error (.integrityError "projects.id")
  else if db.projects.any fun _ p => p.slug == slug then
    .error (.integrityError "projects.slug")
  else do
    let db := { db with projects := db.projects.set id { slug := slug, lifecycle := lifecycle } }
    let db ← db.append id
      { eventType := "PROJECT_CREATED", entityType := "PROJECT", entityId := id,
        dedupeKey := some s!"project-created:{id}", newState := some lifecycle.value }
    return (id, db)

/-- The dependency loop of `create_task`. -/
def Db.addDependencies (db : Db) (taskId projectId : String) : List String → Except PyErr Db
  | [] => .ok db
  | dependencyId :: rest =>
    match db.tasks.get dependencyId with
    | none => .error (.valueError s!"invalid dependency for {taskId}: {dependencyId}")
    | some dependency =>
      if dependency.projectId ≠ projectId then
        .error (.valueError s!"invalid dependency for {taskId}: {dependencyId}")
      else if { taskId := taskId, dependsOnTaskId := dependencyId } ∈ db.dependencies then
        .error (.integrityError
          "task_dependencies.task_id, task_dependencies.depends_on_task_id")
      else
        Db.addDependencies
          { db with
            dependencies :=
              db.dependencies ++ [{ taskId := taskId, dependsOnTaskId := dependencyId }] }
          taskId projectId rest

/-- `ProjectStateService.create_task`. -/
def Db.createTask (db : Db) (a : TaskArgs) : Except PyErr (String × Db) :=
  match db.tasks.find? fun _ t =>
    t.projectId == a.projectId && t.idempotencyKey == a.idempotencyKey with
  | some (existing, _) => .ok (existing, db)
  | none =>
    if (db.tasks.get a.id).isSome then
      .error (.integrityError "tasks.id")
    else if (db.projects.get a.projectId).isNone then
      .error (.integrityError "tasks.project_id")
    else do
      -- the row is flushed first, so a task may be listed among its own dependencies
      let db := { db with tasks := db.tasks.set a.id a.row }
      let db ← db.addDependencies a.id a.projectId a.dependencyIds
      let db ← db.append a.projectId
        { eventType := "TASK_CREATED", entityType := "TASK", entityId := a.id,
          dedupeKey := some s!"task-created:{a.id}", newState := some TaskStatus.pending.value,
          payload := [("action", .str a.action), ("idempotency_key", .str a.idempotencyKey)] }
      return (a.id, db)

/-- The dedupe key of the event of a new compute job. -/
def computeCreatedKey (providerId submissionKey : String) : String :=
  "compute-created:" ++ providerId ++ ":" ++ submissionKey

/-- `ProjectStateService.create_compute_job`. -/
def Db.createComputeJob (db : Db) (a : JobArgs) : Except PyErr (String × Db) :=
  match db.jobs.find? fun _ j =>
    j.providerId == a.providerId && j.submissionKey == a.submissionKey with
  -- the job that is there may belong to another task
  | some (existing, _) => .ok (existing, db)
  | none =>
    match db.tasks.get a.taskId with
    | none => .error (.staleDataError s!"Task {a.taskId}")
    | some task =>
      if (db.jobs.get a.id).isSome then
        .error (.integrityError "compute_jobs.id")
      else if db.jobs.any fun _ j =>
          j.taskId == a.taskId && j.attemptNo == task.attemptCount + 1 then
        .error (.integrityError "compute_jobs.task_id, compute_jobs.attempt_no")
      else do
        let db := { db with jobs := db.jobs.set a.id (a.row task) }
        let db ← db.append task.projectId
          { eventType := "COMPUTE_JOB_CREATED", entityType := "COMPUTE_JOB", entityId := a.id,
            dedupeKey := some (computeCreatedKey a.providerId a.submissionKey),
            newState := some ComputeExecutionStatus.created.value }
        return (a.id, db)

/-! ## Inversion -/

/-- Inversion for `create_project`. -/
lemma Db.createProject_ok {db db' : Db} {id slug new : String} {lifecycle : ProjectLifecycle}
    (h : db.createProject id slug lifecycle = .ok (new, db')) :
    new = id ∧ db.projects.get id = none ∧
      db' = ({ db with
        projects := db.projects.set id { slug := slug, lifecycle := lifecycle } } : Db).logged id
        { eventType := "PROJECT_CREATED", entityType := "PROJECT", entityId := id,
          dedupeKey := some s!"project-created:{id}", newState := some lifecycle.value } := by
  unfold createProject at h
  split at h
  · cases h
  · rename_i absent
    split at h
    · cases h
    · obtain ⟨db1, ap, e⟩ := bind_ok.mp h
      obtain ⟨p, _, _, _, rfl⟩ := append_ok ap
      cases e
      exact ⟨rfl, Option.not_isSome_iff_eq_none.mp absent, rfl⟩

/-- The dependency loop only adds edges from the new task to tasks of its project. -/
lemma Db.addDependencies_ok {db db' : Db} {taskId projectId : String} {ids : List String}
    (h : db.addDependencies taskId projectId ids = .ok db') :
    (∀ d ∈ ids, ∃ t, db.tasks.get d = some t ∧ t.projectId = projectId) ∧
      db' = { db with
        dependencies := db.dependencies ++
          ids.map fun d => { taskId := taskId, dependsOnTaskId := d } } := by
  induction ids generalizing db with
  | nil => cases h; simp
  | cons d ids ih =>
    unfold addDependencies at h
    split at h
    · cases h
    · rename_i t ht
      split at h
      · cases h
      · rename_i sameProject
        split at h
        · cases h
        · obtain ⟨valid, rfl⟩ := ih h
          refine ⟨?_, by simp⟩
          intro d' mem
          rcases List.mem_cons.mp mem with rfl | mem
          · exact ⟨t, ht, not_not.mp sameProject⟩
          · exact valid d' mem

/-- Inversion for `create_task`: the task with the idempotency key, or a new pending row. -/
lemma Db.createTask_ok {db db' : Db} {a : TaskArgs} {id : String}
    (h : db.createTask a = .ok (id, db')) :
    db' = db ∧ (∃ t, db.tasks.get id = some t) ∨
      ∃ p, id = a.id ∧ db.tasks.get a.id = none ∧ db.projects.get a.projectId = some p ∧
        (∀ d ∈ a.dependencyIds, ∃ t,
          (db.tasks.set a.id a.row).get d = some t ∧ t.projectId = a.projectId) ∧
        db' = ({ db with
          tasks := db.tasks.set a.id a.row,
          dependencies := db.dependencies ++ a.dependencyIds.map fun d =>
            { taskId := a.id, dependsOnTaskId := d } } : Db).logged a.projectId
          { eventType := "TASK_CREATED", entityType := "TASK", entityId := a.id,
            dedupeKey := some s!"task-created:{a.id}",
            newState := some TaskStatus.pending.value,
            payload := [("action", .str a.action),
              ("idempotency_key", .str a.idempotencyKey)] } := by
  unfold createTask at h
  split at h
  · rename_i existing t found
    cases h
    exact Or.inl ⟨rfl, t, (Dict.find?_some found).1⟩
  · split at h
    · cases h
    · rename_i absent
      split at h
      · cases h
      · rename_i hasProject
        obtain ⟨db1, ad, h⟩ := bind_ok.mp h
        obtain ⟨db2, ap, e⟩ := bind_ok.mp h
        obtain ⟨valid, rfl⟩ := addDependencies_ok ad
        obtain ⟨p, hp, _, _, rfl⟩ := append_ok ap
        cases e
        exact Or.inr ⟨p, rfl, Option.not_isSome_iff_eq_none.mp absent, hp, valid, rfl⟩

/-- Inversion for `create_compute_job`: the job of the pair of provider and submission key, or a new
    row for the next attempt of the task. -/
lemma Db.createComputeJob_ok {db db' : Db} {a : JobArgs} {id : String}
    (h : db.createComputeJob a = .ok (id, db')) :
    (db' = db ∧ ∃ j, db.jobs.get id = some j ∧
      j.providerId = a.providerId ∧ j.submissionKey = a.submissionKey) ∨
      ∃ task p, id = a.id ∧ db.tasks.get a.taskId = some task ∧ db.jobs.get a.id = none ∧
        (∀ {k j}, db.jobs.get k = some j →
          ¬ (j.providerId = a.providerId ∧ j.submissionKey = a.submissionKey)) ∧
        (∀ {k j}, db.jobs.get k = some j →
          ¬ (j.taskId = a.taskId ∧ j.attemptNo = task.attemptCount + 1)) ∧
        db.projects.get task.projectId = some p ∧
        db' = ({ db with jobs := db.jobs.set a.id (a.row task) } : Db).logged task.projectId
          { eventType := "COMPUTE_JOB_CREATED", entityType := "COMPUTE_JOB", entityId := a.id,
            dedupeKey := some (computeCreatedKey a.providerId a.submissionKey),
            newState := some ComputeExecutionStatus.created.value } := by
  unfold createComputeJob at h
  split at h
  · rename_i existing j found
    cases h
    obtain ⟨hj, same⟩ := Dict.find?_some found
    simp only [Bool.and_eq_true, beq_iff_eq] at same
    exact Or.inl ⟨rfl, j, hj, same⟩
  · rename_i notFound
    split at h
    · cases h
    · rename_i task ht
      split at h
      · cases h
      · rename_i absent
        split at h
        · cases h
        · rename_i noAttempt
          obtain ⟨db1, ap, e⟩ := bind_ok.mp h
          obtain ⟨p, hp, _, _, rfl⟩ := append_ok ap
          cases e
          refine Or.inr ⟨task, p, rfl, ht, Option.not_isSome_iff_eq_none.mp absent, ?_, ?_, hp, rfl⟩
          · intro k j hj both
            have differs := Dict.find?_none notFound hj
            simp [both] at differs
          · intro k j hj both
            apply noAttempt
            exact Dict.any_iff.mpr ⟨k, j, hj, by simp [both]⟩

/-! ## Soundness is kept -/

/-- Soundness survives the row of a new project. -/
lemma Db.Sound.addProject {db : Db} (sd : db.Sound) {id : String}
    (absent : db.projects.get id = none) (p : Project) :
    ({ db with projects := db.projects.set id p } : Db).Sound := by
  have keeps : ∀ {k q}, db.projects.get k = some q → (db.projects.set id p).get k = some q := by
    intro k q hq
    have ne : k ≠ id := by
      intro e
      rw [e, absent] at hq
      cases hq
    rw [Dict.get_set_ne _ _ ne]
    exact hq
  refine ⟨?_, ?_, sd.jobTask, ?_⟩
  · intro k t ht
    obtain ⟨q, hq⟩ := sd.taskProject ht
    exact ⟨q, keeps hq⟩
  · intro k j hj
    obtain ⟨q, hq⟩ := sd.jobProject hj
    exact ⟨q, keeps hq⟩
  · intro e mem
    obtain ⟨q, hq, le⟩ := sd.seqBound mem
    exact ⟨q, keeps hq, le⟩

lemma Db.Sound.createProject {db db' : Db} (sd : db.Sound) {id slug new : String}
    {lifecycle : ProjectLifecycle} (h : db.createProject id slug lifecycle = .ok (new, db')) :
    db'.Sound := by
  obtain ⟨_, absent, rfl⟩ := createProject_ok h
  exact (sd.addProject absent _).logged _ _

/-- Soundness survives the row of a new task with its dependencies. -/
lemma Db.Sound.addTask {db : Db} (sd : db.Sound) {a : TaskArgs} {p : Project}
    (hp : db.projects.get a.projectId = some p) (dependencies : List TaskDependency) :
    ({ db with tasks := db.tasks.set a.id a.row, dependencies := dependencies } : Db).Sound := by
  refine ⟨?_, sd.jobProject, ?_, sd.seqBound⟩
  · intro k t ht
    rw [Dict.get_set] at ht
    split at ht
    · cases ht
      exact ⟨p, hp⟩
    · exact sd.taskProject ht
  · intro k j hj
    obtain ⟨t, ht⟩ := sd.jobTask hj
    rw [Dict.get_set]
    split
    · exact ⟨a.row, rfl⟩
    · exact ⟨t, ht⟩

lemma Db.Sound.createTask {db db' : Db} (sd : db.Sound) {a : TaskArgs} {id : String}
    (h : db.createTask a = .ok (id, db')) : db'.Sound := by
  obtain ⟨rfl, _⟩ | ⟨p, _, _, hp, _, rfl⟩ := createTask_ok h
  · exact sd
  · exact (sd.addTask hp _).logged _ _

/-- Soundness survives the row of a new job. -/
lemma Db.Sound.addJob {db : Db} (sd : db.Sound) {a : JobArgs} {task : Task}
    (ht : db.tasks.get a.taskId = some task) :
    ({ db with jobs := db.jobs.set a.id (a.row task) } : Db).Sound := by
  refine ⟨sd.taskProject, ?_, ?_, sd.seqBound⟩
  · intro k j hj
    rw [Dict.get_set] at hj
    split at hj
    · cases hj
      exact sd.taskProject ht
    · exact sd.jobProject hj
  · intro k j hj
    rw [Dict.get_set] at hj
    split at hj
    · cases hj
      exact ⟨task, ht⟩
    · exact sd.jobTask hj

lemma Db.Sound.createComputeJob {db db' : Db} (sd : db.Sound) {a : JobArgs} {id : String}
    (h : db.createComputeJob a = .ok (id, db')) : db'.Sound := by
  obtain ⟨rfl, _⟩ | ⟨task, p, _, ht, _, _, _, _, rfl⟩ := createComputeJob_ok h
  · exact sd
  · exact (sd.addJob ht).logged _ _

end ResearchController
