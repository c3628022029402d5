import ResearchController.Artifacts.Sessions
import ResearchController.Isolation.Dispatch
import ResearchController.Lifecycle.ArtifactLog
import ResearchController.Lifecycle.Safety
import ResearchController.Services.DedupeKeys

/-!
# Announced rows

Whoever creates a project, a task, a job or an artifact announces the row in the log, under a dedupe
key that is unique in the project. The row itself is guarded by constraints of its own table
(`Db.Allows`), so the key is meant to add nothing. In every reachable database the keys that are
taken are those of the rows that are there (`Db.Announced`), and therefore a creation that its table
allows goes through exactly if no row of the project regroups to the new one
(`dedupe_keys_distinct_iff`). Jobs of two providers, one named after the other, show both ways.

The runs are those of the controller, with calls in between that create rows for any arguments; a
transaction that makes several of these calls commits what they commit one after the other. The
transaction of the dispatcher and the one that ingests an artifact make such a call on the database
they find.
-/

namespace ResearchController
open Lib

/-- A call that creates a row. -/
inductive CreateCall where
  | project (id slug : String) (lifecycle : ProjectLifecycle)
  | task (a : TaskArgs)
  | computeJob (a : JobArgs)
  | artifact (a : IngestArgs)

/-- What the events of a call announce. -/
def CreateCall.announces : CreateCall → List Creation
  | project id _ _ => [.project id]
  | task a => [.task a.id]
  | computeJob a => [.computeJob a.providerId a.submissionKey]
  | artifact a =>
    [.artifact a.producerType a.producerRefId a.logicalName a.digest, .verification a.id]

/-- The effect of a call inside a transaction. -/
def Db.create (db : Db) : CreateCall → Except PyErr (String × Db)
  | .project id slug lifecycle => db.createProject id slug lifecycle
  | .task a => db.createTask a
  | .computeJob a => db.createComputeJob a
  | .artifact a => db.ingestRow a

/-- A transaction of the controller, or one that makes a call. -/
inductive ServiceStep where
  | act (e : Action)
  | create (call : CreateCall)

/-- The system of these transactions. -/
def services (modelValidate : Json → Except PyErr ComputeTaskSpec) : System Db ServiceStep where
  step db
    | .act e => (controller modelValidate).step db e
    | .create call => some (db.commit (db.create call))

/-- The row that a creation is about is in the table, and belongs to a project. -/
def Db.Created (db : Db) (projectId : String) : Creation → Prop
  | .project id => id = projectId ∧ (db.projects.get id).isSome = true
  | .task id => (db.tasks.get id).map (·.projectId) = some projectId
  | .computeJob providerId submissionKey => ∃ id,
    (db.jobs.get id).map (fun j => (j.projectId, j.providerId, j.submissionKey)) =
      some (projectId, providerId, submissionKey)
  | .artifact producerType producerRefId logicalName sha256 => ∃ id,
    (db.artifacts.get id).map Artifact.key =
      some ⟨projectId, producerType, producerRefId, logicalName, sha256⟩
  | .verification artifactId => (db.artifacts.get artifactId).map (·.projectId) = some projectId

/-- An event of the project carries the dedupe key. -/
def Db.KeyTaken (db : Db) (projectId key : String) : Prop :=
  ∃ e ∈ db.events, e.projectId = projectId ∧ e.dedupeKey = some key

/-- The keys that are taken are those of the rows that are there. -/
def Db.Announced (db : Db) : Prop :=
  ∀ projectId key, db.KeyTaken projectId key ↔
    ∃ c, db.Created projectId c ∧ c.dedupeKey = key

/-- The constraints of the tables let a call create its row, in a project. -/
def Db.Allows (db : Db) (projectId : String) : CreateCall → Prop
  | .project id slug _ =>
    id = projectId ∧ db.projects.get id = none ∧
      ∀ k p, db.projects.get k = some p → p.slug ≠ slug
  | .task a =>
    a.projectId = projectId ∧ db.tasks.get a.id = none ∧
      (∀ k t, db.tasks.get k = some t →
        ¬ (t.projectId = a.projectId ∧ t.idempotencyKey = a.idempotencyKey)) ∧
      (db.projects.get a.projectId).isSome = true ∧
      ∃ db', ({ db with tasks := db.tasks.set a.id a.row } : Db).addDependencies a.id a.projectId
        a.dependencyIds = .ok db'
  | .computeJob a =>
    db.jobs.get a.id = none ∧
      (∀ k j, db.jobs.get k = some j →
        ¬ (j.providerId = a.providerId ∧ j.submissionKey = a.submissionKey)) ∧
      ∃ task, db.tasks.get a.taskId = some task ∧ task.projectId = projectId ∧
        ∀ k j, db.jobs.get k = some j →
          ¬ (j.taskId = a.taskId ∧ j.attemptNo = task.attemptCount + 1)
  | .artifact a =>
    a.projectId = projectId ∧ db.artifacts.get a.id = none ∧
      (∀ k x, db.artifacts.get k = some x → x.key ≠ a.key) ∧
      (db.projects.get a.projectId).isSome = true ∧
      ∀ taskId ∈ a.taskId, (db.tasks.get taskId).isSome = true

/-! ## Taken keys -/

variable {db db' : Db}

lemma Db.keyTaken_logged {k : String} {p : Project} (hp : db.projects.get k = some p)
    {d : EventDraft} {projectId key : String} :
    (db.logged k d).KeyTaken projectId key ↔
      db.KeyTaken projectId key ∨ projectId = k ∧ d.dedupeKey = some key := by
  unfold KeyTaken
  rw [logged_events hp]
  constructor
  · rintro ⟨e, mem, project, carries⟩
    rcases List.mem_append.mp mem with old | new
    · exact Or.inl ⟨e, old, project, carries⟩
    · rw [List.mem_singleton.mp new] at project carries
      exact Or.inr ⟨project.symm, carries⟩
  · rintro (⟨e, mem, project, carries⟩ | ⟨project, carries⟩)
    · exact ⟨e, List.mem_append_left _ mem, project, carries⟩
    · exact ⟨_, List.mem_append_right _ List.mem_cons_self, project.symm, carries⟩

/-- An event with a dedupe key is appended exactly if the key is not taken. -/
lemma Db.Sound.append_keyed_iff (sd : db.Sound) {projectId : String} {p : Project}
    (hp : db.projects.get projectId = some p) {d : EventDraft} {key : String}
    (carries : d.dedupeKey = some key) :
    (∃ db', db.append projectId d = .ok db') ↔ ¬ db.KeyTaken projectId key := by
  rw [sd.append_total_iff hp, carries]
  constructor
  · rintro free ⟨e, mem, project, taken⟩
    exact free e mem project rfl taken
  · intro free e mem project _ taken
    exact free ⟨e, mem, project, taken⟩

lemma Db.logged_hasProject (db : Db) (k id : String) (d : EventDraft) :
    ((db.logged k d).projects.get id).isSome = (db.projects.get id).isSome := by
  cases hp : db.projects.get k with
  | none => simp only [logged, hp]
  | some p =>
    rw [logged_projects hp, Dict.get_set]
    split
    · rename_i same
      rw [same, hp]
      rfl
    · rfl

lemma Db.created_logged (k : String) (d : EventDraft) {projectId : String} {c : Creation} :
    (db.logged k d).Created projectId c ↔ db.Created projectId c := by
  cases c with
  | project id => rw [Created, Created, logged_hasProject]
  | _ => simp only [Created, logged_rows]

/-- The step from one database to another announces new rows of a project, and these only. -/
structure Db.Announces (projectId : String) (new : List Creation) (db db' : Db) : Prop where
  rows : ∀ k c, db'.Created k c ↔ db.Created k c ∨ k = projectId ∧ c ∈ new
  keys : ∀ k key, db'.KeyTaken k key ↔
    db.KeyTaken k key ∨ k = projectId ∧ ∃ c ∈ new, c.dedupeKey = key

lemma Db.Announced.step (an : db.Announced) {projectId : String} {new : List Creation}
    (announces : Db.Announces projectId new db db') : db'.Announced := by
  intro k key
  rw [announces.keys, an k key]
  constructor
  · rintro (⟨c, created, carries⟩ | ⟨rfl, c, mem, carries⟩)
    · exact ⟨c, (announces.rows k c).mpr (Or.inl created), carries⟩
    · exact ⟨c, (announces.rows k c).mpr (Or.inr ⟨rfl, mem⟩), carries⟩
  · rintro ⟨c, created, carries⟩
    rcases (announces.rows k c).mp created with old | ⟨rfl, mem⟩
    · exact Or.inl ⟨c, old, carries⟩
    · exact Or.inr ⟨rfl, c, mem, carries⟩

/-- A row may be inserted together with the event that announces it. -/
lemma Db.Announces.logged {db1 : Db} {projectId : String} {p : Project}
    (hp : db1.projects.get projectId = some p) (events : db1.events = db.events) {new : Creation}
    (rows : ∀ k c, db1.Created k c ↔ db.Created k c ∨ k = projectId ∧ c = new) {d : EventDraft}
    (carries : d.dedupeKey = some new.dedupeKey) :
    Db.Announces projectId [new] db (db1.logged projectId d) := by
  constructor
  · intro k c
    rw [created_logged, rows, List.mem_singleton]
  · intro k key
    have same : db1.KeyTaken k key ↔ db.KeyTaken k key := by rw [KeyTaken, KeyTaken, events]
    rw [keyTaken_logged hp, same, carries, Option.some.injEq]
    simp only [List.mem_singleton, exists_eq_left]

/-! ## Creations -/

lemma Db.createProject_announces {id slug new : String} {lifecycle : ProjectLifecycle}
    (h : db.createProject id slug lifecycle = .ok (new, db')) :
    Db.Announces id [.project id] db db' := by
  obtain ⟨_, absent, rfl⟩ := createProject_ok h
  apply Announces.logged
  case hp => exact Dict.get_set_self _ _ _
  case events => rfl
  case carries => rfl
  intro k c
  cases c with
  | project id' =>
    simp only [Created, Dict.get_set, Creation.project.injEq]
    by_cases same : id' = id
    · subst same
      simp only [if_true, Option.isSome_some, and_true, absent, Option.isSome_none,
        Bool.false_eq_true, and_false, false_or]
      exact eq_comm
    · simp only [same, if_false, and_false, or_false]
  | _ => simp only [Created, reduceCtorEq, and_false, or_false]

lemma Db.createTask_announces {a : TaskArgs} {id : String}
    (h : db.createTask a = .ok (id, db')) :
    db' = db ∨ Db.Announces a.projectId [.task a.id] db db' := by
  obtain ⟨rfl, _⟩ | ⟨p, _, absent, hp, _, rfl⟩ := createTask_ok h
  · exact Or.inl rfl
  · right
    apply Announces.logged
    case hp => exact hp
    case events => rfl
    case carries => rfl
    intro k c
    cases c with
    | task id' =>
      simp only [Created, Dict.get_set, Creation.task.injEq]
      by_cases same : id' = a.id
      · subst same
        simp only [if_true, absent, Option.map_some, Option.map_none, TaskArgs.row,
          Option.some.injEq, reduceCtorEq, and_true, false_or]
        exact eq_comm
      · simp only [same, if_false, and_false, or_false]
    | _ => simp only [Created, reduceCtorEq, and_false, or_false]

lemma Db.createComputeJob_announces {a : JobArgs} {id : String}
    (h : db.createComputeJob a = .ok (id, db')) :
    db' = db ∨ ∃ projectId,
      Db.Announces projectId [.computeJob a.providerId a.submissionKey] db db' := by
  obtain ⟨rfl, _⟩ | ⟨task, p, _, _, absent, _, _, hp, rfl⟩ := createComputeJob_ok h
  · exact Or.inl rfl
  · refine Or.inr ⟨task.projectId, ?_⟩
    apply Announces.logged
    case hp => exact hp
    case events => rfl
    case carries => rfl
    intro k c
    cases c with
    | computeJob providerId submissionKey =>
      rw [Created, Created, Dict.exists_get_set_iff absent]
      simp only [JobArgs.row, Prod.mk.injEq, Creation.computeJob.injEq, eq_comm]
    | _ => simp only [Created, reduceCtorEq, and_false, or_false]

/-- An ingest announces its row twice: as created and as verified. -/
lemma Db.ingestRow_announces {a : IngestArgs} {id : String} (h : db.ingestRow a = .ok (id, db')) :
    db' = db ∨ Db.Announces a.projectId (CreateCall.artifact a).announces db db' := by
  obtain ⟨rfl, _⟩ | ⟨_, _, absent, p, hp, rfl⟩ := ingestRow_cases h
  · exact Or.inl rfl
  · right
    generalize db.currentVersion a.projectId a.logicalName + 1 = version
    constructor
    · intro k c
      rw [created_logged, created_logged, CreateCall.announces]
      cases c with
      | artifact producerType producerRefId logicalName sha256 =>
        rw [Created, Created, Dict.exists_get_set_iff absent]
        simp only [IngestArgs.row, Artifact.key, ArtifactKey.mk.injEq, List.mem_cons,
          Creation.artifact.injEq, reduceCtorEq, List.not_mem_nil, or_false, eq_comm]
      | verification artifactId =>
        simp only [Created, Dict.get_set, List.mem_cons, reduceCtorEq, Creation.verification.injEq,
          List.not_mem_nil, or_false, false_or]
        by_cases same : artifactId = a.id
        · subst same
          simp only [if_true, absent, Option.map_some, Option.map_none, IngestArgs.row,
            Option.some.injEq, reduceCtorEq, and_true, false_or]
          exact eq_comm
        · simp only [same, if_false, and_false, or_false]
      | _ =>
        simp only [Created, List.mem_cons, reduceCtorEq, List.not_mem_nil, or_false, and_false]
    · intro k key
      have first : ({ db with artifacts := db.artifacts.set a.id (a.row version) } :
          Db).projects.get a.projectId = some p := hp
      have second := (Dict.get_set_self db.projects a.projectId p.bump)
      rw [← logged_projects first (a.created version)] at second
      rw [keyTaken_logged second, keyTaken_logged first, or_assoc, ← and_or_left]
      refine or_congr Iff.rfl (and_congr_right fun _ => ?_)
      simp only [IngestArgs.created, IngestArgs.verified, Option.some.injEq, CreateCall.announces,
        List.mem_cons, List.not_mem_nil, or_false, exists_eq_or_imp, exists_eq_left]
      rfl

/-- What a call commits: nothing new, or rows of one project with their announcements. -/
lemma Db.create_announces {call : CreateCall} {id : String}
    (h : db.create call = .ok (id, db')) :
    db' = db ∨ ∃ projectId, Db.Announces projectId call.announces db db' := by
  cases call with
  | project id slug lifecycle => exact Or.inr ⟨id, createProject_announces h⟩
  | task a => exact (createTask_announces h).imp_right fun announces => ⟨_, announces⟩
  | computeJob a => exact createComputeJob_announces h
  | artifact a => exact (ingestRow_announces h).imp_right fun announces => ⟨_, announces⟩

lemma Db.Announced.create (an : db.Announced) (call : CreateCall) {id : String}
    (h : db.create call = .ok (id, db')) : db'.Announced := by
  obtain rfl | ⟨projectId, announces⟩ := create_announces h
  · exact an
  · exact an.step announces

/-! ## The other transactions -/

lemma Db.Write.created (wr : db.Write db') {projectId : String} {c : Creation} :
    db'.Created projectId c ↔ db.Created projectId c := by
  cases wr with
  | @task id t t' ht project =>
    cases c with
    | task id' =>
      rw [Created, Created, Dict.get_map_of_items (Dict.mapValues_set ht project) id']
    | _ => exact Iff.rfl
  | @job id j j' hj fixed =>
    cases c with
    | computeJob providerId submissionKey =>
      have same : (j'.projectId, j'.providerId, j'.submissionKey) =
          (j.projectId, j.providerId, j.submissionKey) :=
        congrArg (fun owner : JobOwner =>
          (owner.projectId, owner.providerId, owner.submissionKey)) fixed
      have rows := Dict.get_map_of_items (Dict.mapValues_set hj
        (f := fun j => (j.projectId, j.providerId, j.submissionKey)) same)
      simp only [Created, rows]
    | _ => exact Iff.rfl
  | evidence id outputs =>
    have keys := Dict.get_map_of_items (db.markEvidence_keepsArtifacts id outputs).rows
    cases c with
    | artifact producerType producerRefId logicalName sha256 => simp only [Created, keys]
    | verification artifactId =>
      have projects := congrArg (Option.map ArtifactKey.projectId) (keys artifactId)
      rw [Option.map_map, Option.map_map] at projects
      rw [Created, Created]
      exact Eq.congr_left projects
    | _ => exact Iff.rfl
  | event _ _ _ => exact created_logged _ _

lemma Db.Write.keyTaken (wr : db.Write db') {projectId key : String} :
    db'.KeyTaken projectId key ↔ db.KeyTaken projectId key := by
  cases wr with
  | event hp noKey _ =>
    rw [keyTaken_logged hp, noKey]
    simp only [reduceCtorEq, and_false, or_false]
  | _ => exact Iff.rfl

lemma Db.Announced.write (an : db.Announced) (wr : db.Write db') : db'.Announced := by
  intro projectId key
  rw [wr.keyTaken, an projectId key]
  simp only [wr.created]

lemma Db.Announced.writes (an : db.Announced) (ws : db.Writes db') : db'.Announced :=
  moves_invariant (fun _ _ an wr => an.write wr) ws an

/-- Every transaction of the controller announces what it creates. -/
lemma Db.Announced.act (an : db.Announced) (modelValidate : Json → Except PyErr ComputeTaskSpec)
    (e : Action) : (db.act modelValidate e).Announced := by
  cases creates : e.creates with
  | false => exact an.writes (db.act_writes modelValidate creates)
  | true =>
    have committed : ∀ {α : Type} {r : Except PyErr (α × Db)},
        (∀ a db', r = .ok (a, db') → db'.Announced) → (db.commit r).Announced :=
      Db.commit_keeps an
    cases e with
    | createProject id slug lifecycle =>
      exact committed fun _ _ h => an.create (.project id slug lifecycle) h
    | createTask a => exact committed fun _ _ h => an.create (.task a) h
    | dispatch a owner leaseExpiresAt now =>
      refine committed fun _ db' h => ?_
      obtain rfl | ⟨jobId, db1, cj, ws⟩ := dispatchCommit_writes h
      · exact an
      · exact (an.create (.computeJob a) cj).writes ws
    | ingested jobId candidate id digest uri sizeBytes =>
      simp only [Db.act]
      split
      · exact an
      · exact committed fun _ _ h => an.create (.artifact _) h
    | _ => cases creates

lemma Db.Announced.empty : Db.empty.Announced := by
  intro projectId key
  constructor
  · rintro ⟨e, mem, _⟩
    cases mem
  · rintro ⟨c, created, _⟩
    cases c with
    | project id => cases created.2
    | task id => cases created
    | computeJob providerId submissionKey =>
      obtain ⟨id, e⟩ := created
      cases e
    | artifact producerType producerRefId logicalName sha256 =>
      obtain ⟨id, e⟩ := created
      cases e
    | verification artifactId => cases created

lemma Db.Sound.create (sd : db.Sound) (call : CreateCall) {id : String}
    (h : db.create call = .ok (id, db')) : db'.Sound := by
  cases call with
  | project id slug lifecycle => exact sd.createProject h
  | task a => exact sd.createTask h
  | computeJob a => exact sd.createComputeJob h
  | artifact a => exact sd.ingestRow h

/-- A reachable database is sound, and the keys that are taken in it are those of its rows. -/
theorem services_announced {modelValidate : Json → Except PyErr ComputeTaskSpec}
    {steps : List ServiceStep} (rn : (services modelValidate).run Db.empty steps = some db) :
    db.Sound ∧ db.Announced := by
  refine System.run_invariant (P := fun db => db.Sound ∧ db.Announced) ?_ rn ⟨.empty, .empty⟩
  rintro db step db' ⟨sd, an⟩ st
  cases step with
  | act e =>
    obtain ⟨_, rfl⟩ := controller_step st
    exact ⟨sd.act modelValidate e, an.act modelValidate e⟩
  | create call =>
    cases st
    exact ⟨Db.commit_keeps sd fun _ _ h => sd.create call h,
      Db.commit_keeps an fun _ _ h => an.create call h⟩

/-! ## Creations that the tables allow -/

lemma Db.Sound.createProject_total_iff (sd : db.Sound) {id slug : String}
    (lifecycle : ProjectLifecycle) (absent : db.projects.get id = none)
    (unused : ∀ k p, db.projects.get k = some p → p.slug ≠ slug) :
    (∃ new, db.createProject id slug lifecycle = .ok new) ↔
      ¬ db.KeyTaken id (Creation.project id).dedupeKey := by
  have slugFree : ¬ db.projects.any (fun _ p => p.slug == slug) = true := by
    rw [Dict.any_iff]
    rintro ⟨k, p, hp, same⟩
    exact unused k p hp (beq_iff_eq.mp same)
  unfold Db.createProject
  rw [absent, if_neg (by decide), if_neg slugFree, bind_pure_total_iff]
  exact (sd.addProject absent _).append_keyed_iff (Dict.get_set_self _ _ _) rfl

lemma Db.Sound.createTask_total_iff (sd : db.Sound) {a : TaskArgs} {p : Project}
    (absent : db.tasks.get a.id = none)
    (unused : ∀ k t, db.tasks.get k = some t →
      ¬ (t.projectId = a.projectId ∧ t.idempotencyKey = a.idempotencyKey))
    (hp : db.projects.get a.projectId = some p) {db1 : Db}
    (added : ({ db with tasks := db.tasks.set a.id a.row } : Db).addDependencies a.id a.projectId
      a.dependencyIds = .ok db1) :
    (∃ new, db.createTask a = .ok new) ↔
      ¬ db.KeyTaken a.projectId (Creation.task a.id).dedupeKey := by
  have missing : (db.tasks.find? fun _ t =>
      t.projectId == a.projectId && t.idempotencyKey == a.idempotencyKey) = none := by
    by_contra found
    obtain ⟨⟨k, t⟩, found⟩ := Option.ne_none_iff_exists'.mp found
    obtain ⟨ht, same⟩ := Dict.find?_some found
    rw [Bool.and_eq_true, beq_iff_eq, beq_iff_eq] at same
    exact unused k t ht same
  obtain ⟨_, rfl⟩ := addDependencies_ok added
  unfold Db.createTask
  rw [missing, absent, hp]
  simp only [Option.isSome_none, Option.isNone_some, Bool.false_eq_true, if_false]
  rw [added]
  refine bind_pure_total_iff.trans ?_
  exact (sd.addTask hp _).append_keyed_iff hp rfl

lemma Db.Sound.createComputeJob_keyed_iff (sd : db.Sound) {a : JobArgs} {task : Task}
    (ht : db.tasks.get a.taskId = some task) (absent : db.jobs.get a.id = none)
    (unused : ∀ k j, db.jobs.get k = some j →
      ¬ (j.providerId = a.providerId ∧ j.submissionKey = a.submissionKey))
    (attempt : ∀ k j, db.jobs.get k = some j →
      ¬ (j.taskId = a.taskId ∧ j.attemptNo = task.attemptCount + 1)) :
    (∃ new, db.createComputeJob a = .ok new) ↔
      ¬ db.KeyTaken task.projectId
        (Creation.computeJob a.providerId a.submissionKey).dedupeKey := by
  have fresh : ¬ db.taken.reuses a = true := by
    rw [Taken.reuses_iff]
    rintro ⟨k, j, hj, same⟩
    exact unused k j hj same
  have idFree : ¬ (db.jobs.get a.id).isSome = true := by
    rw [absent]
    exact Bool.false_ne_true
  have attemptFree : ¬ db.jobs.any
      (fun _ j => j.taskId == a.taskId && j.attemptNo == task.attemptCount + 1) = true := by
    rw [Dict.any_iff]
    rintro ⟨k, j, hj, same⟩
    rw [Bool.and_eq_true, beq_iff_eq, beq_iff_eq] at same
    exact attempt k j hj same
  -- of the constraints that can refuse the job only the one of the events is left
  rw [sd.createComputeJob_total_iff ht, or_iff_right fresh, Taken.refuses_false_iff,
    and_iff_right idFree, and_iff_right attemptFree]
  rfl

/-- Two events with different dedupe keys are appended exactly if neither key is taken. -/
lemma Db.Sound.append_both_iff (sd : db.Sound) {projectId : String} {p : Project}
    (hp : db.projects.get projectId = some p) (d d' : EventDraft) {key key' : String}
    (carries : d.dedupeKey = some key) (carries' : d'.dedupeKey = some key') (differ : key ≠ key')
    (id : String) :
    (∃ new, (do
      let db1 ← db.append projectId d
      let db2 ← db1.append projectId d'
      return (id, db2)) = .ok new) ↔
      ¬ db.KeyTaken projectId key ∧ ¬ db.KeyTaken projectId key' := by
  have first := sd.append_keyed_iff hp carries
  have bumped : (db.logged projectId d).projects.get projectId = some p.bump := by
    rw [logged_projects hp, Dict.get_set_self]
  have second := (sd.logged projectId d).append_keyed_iff bumped carries'
  have same : (db.logged projectId d).KeyTaken projectId key' ↔ db.KeyTaken projectId key' := by
    rw [keyTaken_logged hp, carries, Option.some.injEq]
    exact or_iff_left fun both => differ both.2
  rw [← first, ← same, ← second]
  constructor
  · rintro ⟨new, h⟩
    obtain ⟨db1, ap1, h⟩ := bind_ok.mp h
    obtain ⟨db2, ap2, _⟩ := bind_ok.mp h
    obtain ⟨_, _, _, _, rfl⟩ := append_ok ap1
    exact ⟨⟨_, ap1⟩, db2, ap2⟩
  · rintro ⟨⟨db1, ap1⟩, db2, ap2⟩
    obtain ⟨_, _, _, _, rfl⟩ := append_ok ap1
    exact bind_total ap1 (bind_total ap2 ⟨_, rfl⟩)

lemma Db.Sound.ingestRow_total_iff (sd : db.Sound) {a : IngestArgs} {p : Project}
    (absent : db.artifacts.get a.id = none)
    (unused : ∀ k x, db.artifacts.get k = some x → x.key ≠ a.key)
    (hp : db.projects.get a.projectId = some p)
    (ofTask : ∀ taskId ∈ a.taskId, (db.tasks.get taskId).isSome = true) :
    (∃ new, db.ingestRow a = .ok new) ↔
      ∀ c ∈ (CreateCall.artifact a).announces, ¬ db.KeyTaken a.projectId c.dedupeKey := by
  have missing : db.existingArtifact a = none := by
    by_contra found
    obtain ⟨⟨k, x⟩, found⟩ := Option.ne_none_iff_exists'.mp found
    obtain ⟨hx, same⟩ := existingArtifact_some found
    exact unused k x hx same
  -- the version is one above all versions of the name
  have versionFree : ¬ db.artifacts.any (fun _ x => x.projectId == a.projectId &&
      x.logicalName == a.logicalName &&
        x.version == db.currentVersion a.projectId a.logicalName + 1) = true := by
    rw [Dict.any_iff]
    rintro ⟨k, x, hx, same⟩
    simp only [Bool.and_eq_true, beq_iff_eq] at same
    obtain ⟨⟨project, name⟩, version⟩ := same
    have mem := mem_versionsAmong.mpr ⟨(k, x), (Dict.mem_items _).mpr hx, project, name, rfl⟩
    have le := le_currentVersionAmong mem
    rw [currentVersionAmong_items, version] at le
    exact Nat.not_succ_le_self _ le
  have known : ¬ a.taskId.any (fun id => (db.tasks.get id).isNone) = true := by
    cases task : a.taskId with
    | none => exact Bool.false_ne_true
    | some taskId =>
      have there := ofTask taskId task
      rw [Option.any_some, Option.isNone_iff_eq_none]
      intro none
      rw [none] at there
      cases there
  rw [Db.ingestRow, missing]
  unfold Db.addArtifact
  simp only [absent, Option.isSome_none, Bool.false_eq_true, if_false, versionFree, known]
  generalize db.currentVersion a.projectId a.logicalName + 1 = version
  have sd1 : ({ db with artifacts := db.artifacts.set a.id (a.row version) } : Db).Sound :=
    ⟨sd.taskProject, sd.jobProject, sd.jobTask, sd.seqBound⟩
  have kinds : "artifact-created" ≠ "artifact-verified" := by decide
  have differ : (Creation.artifact a.producerType a.producerRefId a.logicalName
      a.digest).dedupeKey ≠ (Creation.verification a.id).dedupeKey :=
    Creation.dedupeKey_ne_of_kind kinds
  refine (sd1.append_both_iff hp (a.created version) a.verified rfl rfl differ a.id).trans ?_
  rw [CreateCall.announces, List.forall_mem_cons, List.forall_mem_singleton]
  rfl

section Allowed

variable {projectId : String} {call : CreateCall}

/-- A call that the tables allow announces nothing that is there. -/
lemma Db.Allows.fresh (allowed : db.Allows projectId call) :
    ∀ c ∈ call.announces, ¬ db.Created projectId c := by
  cases call with
  | project id slug lifecycle =>
    obtain ⟨rfl, absent, _⟩ := allowed
    rw [CreateCall.announces, List.forall_mem_singleton, Created, absent]
    exact fun both => absurd both.2 Bool.false_ne_true
  | task a =>
    obtain ⟨_, absent, _⟩ := allowed
    rw [CreateCall.announces, List.forall_mem_singleton, Created, absent]
    exact Option.some_ne_none _ ∘ Eq.symm
  | computeJob a =>
    obtain ⟨_, unused, _⟩ := allowed
    rw [CreateCall.announces, List.forall_mem_singleton]
    rintro ⟨id, e⟩
    obtain ⟨j, hj, same⟩ := Option.map_eq_some_iff.mp e
    exact unused id j hj (Prod.mk.inj (Prod.mk.inj same).2)
  | artifact a =>
    obtain ⟨rfl, absent, unused, _⟩ := allowed
    rw [CreateCall.announces, List.forall_mem_cons, List.forall_mem_singleton, Created, Created,
      absent]
    constructor
    · rintro ⟨id, e⟩
      obtain ⟨x, hx, same⟩ := Option.map_eq_some_iff.mp e
      exact unused id x hx same
    · exact Option.some_ne_none _ ∘ Eq.symm

/-- A call that the tables allow goes through exactly if no key of its events is taken. -/
lemma Db.Sound.create_total_iff (sd : db.Sound) (allowed : db.Allows projectId call) :
    (∃ new, db.create call = .ok new) ↔
      ∀ c ∈ call.announces, ¬ db.KeyTaken projectId c.dedupeKey := by
  cases call with
  | project id slug lifecycle =>
    obtain ⟨rfl, absent, unused⟩ := allowed
    rw [CreateCall.announces, List.forall_mem_singleton]
    exact sd.createProject_total_iff lifecycle absent unused
  | task a =>
    obtain ⟨rfl, absent, unused, known, db1, added⟩ := allowed
    obtain ⟨p, hp⟩ := Option.isSome_iff_exists.mp known
    rw [CreateCall.announces, List.forall_mem_singleton]
    exact sd.createTask_total_iff absent unused hp added
  | computeJob a =>
    obtain ⟨absent, unused, task, ht, rfl, attempt⟩ := allowed
    rw [CreateCall.announces, List.forall_mem_singleton]
    exact sd.createComputeJob_keyed_iff ht absent unused attempt
  | artifact a =>
    obtain ⟨rfl, absent, unused, known, ofTask⟩ := allowed
    obtain ⟨p, hp⟩ := Option.isSome_iff_exists.mp known
    exact sd.ingestRow_total_iff absent unused hp ofTask

/-- A call that the tables allow goes through exactly if no row of the project regroups to one that
    it announces. -/
lemma Db.Announced.create_total_iff (an : db.Announced) (sd : db.Sound)
    (allowed : db.Allows projectId call) :
    (∃ new, db.create call = .ok new) ↔
      ∀ c ∈ call.announces, ∀ c', c ≠ c' → db.Created projectId c' → ¬ c.Regroups c' := by
  rw [sd.create_total_iff allowed]
  refine forall₂_congr fun c mem => ?_
  rw [an projectId c.dedupeKey]
  constructor
  · intro free c' _ created rg
    exact free ⟨c', created, (Creation.dedupeKey_eq_iff.mpr rg).symm⟩
  · rintro apart ⟨c', created, same⟩
    have other : c ≠ c' := by
      rintro rfl
      exact allowed.fresh c mem created
    exact apart c' other created (Creation.dedupeKey_eq_iff.mp same.symm)

end Allowed

/-- Two creations have different dedupe keys exactly if they do not regroup; one creation has a key
    of its own exactly if it has a single component or no colon in any; and in every reachable
    database a creation that its tables allow goes through exactly if no other row of the project
    regroups to it. -/
theorem dedupe_keys_distinct_iff {modelValidate : Json → Except PyErr ComputeTaskSpec}
    {steps : List ServiceStep} (rn : (services modelValidate).run Db.empty steps = some db) :
    (∀ c c' : Creation, c ≠ c' → (c.dedupeKey ≠ c'.dedupeKey ↔ ¬ c.Regroups c')) ∧
      (∀ c : Creation, (∀ c', c ≠ c' → c.dedupeKey ≠ c'.dedupeKey) ↔
        (2 ≤ c.components.length → ∀ component ∈ c.components, ':' ∉ component.toList)) ∧
      ∀ {projectId : String} {call : CreateCall}, db.Allows projectId call →
        ((∃ new, db.create call = .ok new) ↔
          ∀ c ∈ call.announces, ∀ c', c ≠ c' → db.Created projectId c' → ¬ c.Regroups c') := by
  refine ⟨?_, ?_, ?_⟩
  · intro c c' _
    exact not_congr Creation.dedupeKey_eq_iff
  · intro c
    have shares := not_congr (Creation.shares_iff (c := c))
    simpa only [not_exists, not_and] using shares
  · intro projectId call allowed
    obtain ⟨sd, an⟩ := services_announced rn
    exact an.create_total_iff sd allowed

/-! ## Jobs of two providers -/

/-- The shared job under a provider and a submission key. -/
def keyedJob (id taskId providerId submissionKey : String) : JobArgs :=
  { sharedJob id taskId with
    providerId := providerId, submissionKey := submissionKey,
    specJson := { sharedSpec with taskId := taskId, submissionKey := submissionKey } }

/-- The first of two tasks is dispatched. -/
def keyedDispatch : List ServiceStep :=
  [ .act (.createProject "p" "slug" .active),
    .act (.createTask (sharedTask "t1")), .act (.createTask (sharedTask "t2")),
    .act (.reconcile 0 0 ["t1", "t2"]),
    .act (.dispatch (keyedJob "j1" "t1" "local" "gpu:run") "c" 60 0) ]

/-- The tables then allow a job of the second task for any other provider or submission key. -/
lemma keyedDispatch_allows :
    ∃ db, (services fun _ => .ok sharedSpec).run Db.empty keyedDispatch = some db ∧
      ∀ providerId submissionKey, ¬ ("local" = providerId ∧ "gpu:run" = submissionKey) →
        db.Allows "p" (.computeJob (keyedJob "j2" "t2" providerId submissionKey)) := by
  obtain ⟨db, rn⟩ := Option.isSome_iff_exists.mp
    (show ((services fun _ => .ok sharedSpec).run Db.empty keyedDispatch).isSome = true by decide)
  have rows : ((services fun _ => .ok sharedSpec).run Db.empty keyedDispatch).map (fun db =>
      (db.jobs.items.map fun kj => (kj.1, kj.2.taskId, kj.2.providerId, kj.2.submissionKey),
        (db.tasks.get "t2").map (·.projectId))) =
      some ([("j1", "t1", "local", "gpu:run")], some "p") := by decide
  rw [rn, Option.map_some, Option.some.injEq, Prod.mk.injEq, Option.map_eq_some_iff] at rows
  obtain ⟨jobs, task, ht, project⟩ := rows
  have only : ∀ {k j}, db.jobs.get k = some j →
      k = "j1" ∧ j.taskId = "t1" ∧ j.providerId = "local" ∧ j.submissionKey = "gpu:run" := by
    intro k j hj
    have mem := List.mem_map_of_mem (f := fun kj : String × ComputeJob =>
      (kj.1, kj.2.taskId, kj.2.providerId, kj.2.submissionKey)) ((Dict.mem_items _).mpr hj)
    rw [jobs, List.mem_singleton] at mem
    simpa only [Prod.mk.injEq] using mem
  refine ⟨db, rn, ?_⟩
  intro providerId submissionKey other
  refine ⟨?_, ?_, task, ht, project, ?_⟩
  · by_contra taken
    obtain ⟨j, hj⟩ := Option.ne_none_iff_exists'.mp taken
    exact absurd (show "j2" = "j1" from (only hj).1) (by decide)
  · rintro k j hj ⟨provider, key⟩
    obtain ⟨_, _, isLocal, isRun⟩ := only hj
    exact other ⟨isLocal.symm.trans provider, isRun.symm.trans key⟩
  · rintro k j hj ⟨owner, _⟩
    exact absurd (show "t1" = "t2" from (only hj).2.1.symm.trans owner) (by decide)

/-- Keys without a colon in the provider and in the submission key are free. -/
theorem dedupe_keys_distinct_iff_keyed :
    ∃ db, (services fun _ => .ok sharedSpec).run Db.empty keyedDispatch = some db ∧
      ∃ new, db.create (.computeJob (keyedJob "j2" "t2" "local" "run")) = .ok new := by
  obtain ⟨db, rn, allows⟩ := keyedDispatch_allows
  refine ⟨db, rn, ?_⟩
  obtain ⟨pairs, single, creations⟩ := dedupe_keys_distinct_iff rn
  refine (creations (allows "local" "run" (by decide))).mpr ?_
  intro c mem c' other _
  refine (pairs c c' other).mp ((single c).mpr ?_ c' other)
  rw [List.mem_singleton.mp mem]
  intro _
  decide

/-- Two ingests share a key, and so do two jobs, of which the second one is refused. -/
theorem dedupe_keys_collide :
    (¬ ∀ c c' : Creation, c ≠ c' → c.dedupeKey ≠ c'.dedupeKey) ∧
      ∃ db, (services fun _ => .ok sharedSpec).run Db.empty keyedDispatch = some db ∧
        db.Allows "p" (.computeJob (keyedJob "j2" "t2" "local:gpu" "run")) ∧
        db.create (.computeJob (keyedJob "j2" "t2" "local:gpu" "run")) =
          .error (.integrityError "events.project_id, events.dedupe_key") := by
  constructor
  · intro distinct
    exact distinct (.artifact "COMPUTE_JOB" "j" "metrics:1" "d")
      (.artifact "COMPUTE_JOB" "j:metrics" "1" "d") (by decide) (by decide)
  · obtain ⟨db, rn, allows⟩ := keyedDispatch_allows
    refine ⟨db, rn, allows "local:gpu" "run" (by decide), ?_⟩
    have refused : ((services fun _ => .ok sharedSpec).run Db.empty keyedDispatch).map (fun db =>
        (db.create (.computeJob (keyedJob "j2" "t2" "local:gpu" "run"))).map Prod.fst) =
        some (.error (.integrityError "events.project_id, events.dedupe_key")) := by decide
    rw [rn, Option.map_some, Option.some.injEq] at refused
    cases e : db.create (.computeJob (keyedJob "j2" "t2" "local:gpu" "run")) with
    | error err =>
      rw [e] at refused
      cases refused
      rfl
    | ok new =>
      rw [e] at refused
      cases refused

end ResearchController
