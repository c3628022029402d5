import ResearchController.Artifacts.Store
import ResearchController.Lib.System
import ResearchController.Services.Dispatcher
import ResearchController.Services.Reconciler
import ResearchController.Services.TaskReadiness
import ResearchController.Services.Validators

/-!
# Controller

Port of `controller.py`. `verify_completed_work` is a loop inside one transaction, like the services
of `Services/TaskReadiness`. `controller` is the system of all transactions the controller commits:
an `Action` is one of them with the data it receives from outside (clock readings, identifiers,
provider answers, file contents), and a transaction that raises leaves the database as it was.

A crash may strike between any two transactions, so a run is any list of actions: nothing ties the
`SUBMITTED` commit to a dispatch before it, or a finalising transaction to an ingest. What a
transaction reads from an earlier query is guarded by the part of the query that cannot change any
more.
-/

namespace ResearchController
open Lib

/-- The query of `verify_completed_work`. -/
def Db.verifyingTasks (db : Db) : List String :=
  db.tasks.keysWhere fun _ t => t.status == .verifying && t.executor == .compute

/-- The columns that `verify_completed_work` assigns before the transition. -/
def Task.summarised (t : Task) (result : ValidationResult) : Task :=
  { t with
    validationPassed := some result.passed,
    validationReasons := result.reasons,
    errorSummary :=
      if result.passed then t.errorSummary else some ("; ".intercalate result.reasons) }

/-- The transition of `verify_completed_work`. -/
def Db.settle (db : Db) (changedAt : Datetime) (id : String) (result : ValidationResult) :
    Except PyErr Db :=
  if result.passed then
    db.transitionTask id .succeeded (some .verifying) none [] changedAt
  else
    db.transitionTask id .failed (some .verifying) none
      [("validation_reasons", .list (result.reasons.map .str))] changedAt

/-- One iteration of `verify_completed_work`. -/
def TaskValidator.verifyOne (v : TaskValidator) (changedAt : Datetime) (s : List String × Db)
    (id : String) : Except PyErr (List String × Db) :=
  match s.2.tasks.get id with
  | none => .error (.staleDataError s!"Task {id}")
  | some t => do
    let (result, db) ← v.validateComputeTask s.2 id t
    let db ← (db.modifyTask id (·.summarised result)).settle changedAt id result
    return (s.1 ++ [id], db)

/-- `ResearchController.verify_completed_work` over the tasks its query returned. -/
def TaskValidator.verifyCompletedWork (v : TaskValidator) (db : Db) (changedAt : Datetime)
    (taskIds : List String) : Except PyErr (List String × Db) :=
  taskIds.foldlM (v.verifyOne changedAt) ([], db)

/-- What `_reconcile_collecting` passes to `ingest_file` for a candidate of a job. -/
def ComputeJobView.ingestArgs (view : ComputeJobView) (candidate : ArtifactCandidate)
    (id digest uri : String) (sizeBytes : Nat) : IngestArgs :=
  { id := id, projectId := view.projectId, taskId := some view.taskId,
    logicalName := candidate.logicalName, kind := candidate.artifactKind,
    producerType := "COMPUTE_JOB", producerRefId := view.id, evidenceEligible := false,
    metadata := candidate.metadata.set "evidence_candidate" (.bool candidate.evidenceCandidate),
    digest := digest, uri := uri, sizeBytes := sizeBytes }

/-- A transaction of the controller with the data it receives from outside. -/
inductive Action where
  | createProject (id slug : String) (lifecycle : ProjectLifecycle)
  | createTask (a : TaskArgs)
  | reconcile (current changedAt : Datetime) (candidates : List String)
  | recoverExpiredLeases (current changedAt : Datetime) (candidates : List String)
  | dispatch (a : JobArgs) (owner : String) (leaseExpiresAt now : Datetime)
  | submitted (jobId externalId : String) (now : Datetime)
  | observed (obs : JobObservation) (pollInterval : Int) (now : Datetime)
  | pollRaised (jobId errorType : String) (pollInterval : Int) (now : Datetime)
  | ingested (jobId : String) (candidate : ArtifactCandidate) (id digest uri : String)
      (sizeBytes : Nat)
  | finalised (jobId : String) (now : Datetime)
  | verified (readFile : String → FileContent) (loads : String → Except PyErr Json)
      (frames : Nat) (changedAt : Datetime) (candidates : List String)

/-- Whether an action's data fits the queries it stands for. -/
def Db.enabled (db : Db) : Action → Prop
  | .reconcile current _ candidates => candidates.Perm (db.readinessCandidates current)
  | .recoverExpiredLeases current _ candidates => candidates.Perm (db.expiredCandidates current)
  | .dispatch a _ _ _ => ∀ t ∈ db.tasks.get a.taskId, t.executor = .compute
  | .ingested jobId _ _ _ _ _ => (db.jobs.get jobId).isSome
  | .verified _ _ _ _ candidates => candidates.Perm db.verifyingTasks
  | _ => True

instance (db : Db) : (e : Action) → Decidable (db.enabled e)
  | .createProject _ _ _ => inferInstanceAs (Decidable True)
  | .createTask _ => inferInstanceAs (Decidable True)
  | .reconcile _ _ _ => inferInstanceAs (Decidable (List.Perm _ _))
  | .recoverExpiredLeases _ _ _ => inferInstanceAs (Decidable (List.Perm _ _))
  | .dispatch a _ _ _ =>
    inferInstanceAs (Decidable (∀ t ∈ db.tasks.get a.taskId, t.executor = .compute))
  | .submitted _ _ _ => inferInstanceAs (Decidable True)
  | .observed _ _ _ => inferInstanceAs (Decidable True)
  | .pollRaised _ _ _ _ => inferInstanceAs (Decidable True)
  | .ingested jobId _ _ _ _ _ => inferInstanceAs (Decidable ((db.jobs.get jobId).isSome = true))
  | .finalised _ _ => inferInstanceAs (Decidable True)
  | .verified _ _ _ _ _ => inferInstanceAs (Decidable (List.Perm _ _))

/-- The committed result of a transaction without a return value. -/
def Db.commitUnit (db : Db) (r : Except PyErr Db) : Db :=
  db.commit (r.map fun db' => ((), db'))

/-- The database after an action. -/
def Db.act (db : Db) (modelValidate : Json → Except PyErr ComputeTaskSpec) : Action → Db
  | .createProject id slug lifecycle => db.commit (db.createProject id slug lifecycle)
  | .createTask a => db.commit (db.createTask a)
  | .reconcile _ changedAt candidates => db.commit (db.reconcile changedAt candidates)
  | .recoverExpiredLeases _ changedAt candidates =>
    db.commit (db.recoverExpiredLeases changedAt candidates)
  | .dispatch a owner leaseExpiresAt now => db.commit (db.dispatchCommit a owner leaseExpiresAt now)
  | .submitted jobId externalId now => db.commit (db.reconcileCreatedCommit jobId externalId now)
  | .observed obs pollInterval now => db.commitUnit (db.recordObservation obs pollInterval now)
  | .pollRaised jobId errorType pollInterval now =>
    db.commitUnit (db.pollErrorCommit jobId errorType pollInterval now)
  | .ingested jobId candidate id digest uri sizeBytes =>
    match db.jobs.get jobId with
    | none => db
    | some job =>
      db.commit (db.ingestRow ((job.view jobId).ingestArgs candidate id digest uri sizeBytes))
  | .finalised jobId now => db.commit (db.collectingCommit jobId now)
  | .verified readFile loads frames changedAt candidates =>
    let v : TaskValidator := ⟨modelValidate, readFile, loads, frames⟩
    db.commit (v.verifyCompletedWork db changedAt candidates)

/-- The system of the controller's transactions. -/
def controller (modelValidate : Json → Except PyErr ComputeTaskSpec) : System Db Action where
  step db e := if db.enabled e then some (db.act modelValidate e) else none

/-! ## Inversion -/

/-- The committed database is the one before the transaction or the transaction's result. -/
lemma Db.commit_cases {α : Type} (db : Db) (r : Except PyErr (α × Db)) :
    db.commit r = db ∨ ∃ a, r = .ok (a, db.commit r) := by
  cases r with
  | error e => exact Or.inl rfl
  | ok p => exact Or.inr ⟨p.1, rfl⟩

/-- What holds before a transaction and of what it returns holds of what is committed. -/
lemma Db.commit_keeps {α : Type} {db : Db} {P : Db → Prop} (before : P db)
    {r : Except PyErr (α × Db)} (returns : ∀ a db', r = .ok (a, db') → P db') :
    P (db.commit r) := by
  obtain same | ⟨a, ok⟩ := db.commit_cases r
  · rw [same]
    exact before
  · exact returns a _ ok

lemma Db.commitUnit_keeps {db : Db} {P : Db → Prop} (before : P db) {r : Except PyErr Db}
    (returns : ∀ db', r = .ok db' → P db') : P (db.commitUnit r) := by
  apply commit_keeps before
  intro _ db' h
  cases r with
  | error e => cases h
  | ok db1 =>
    cases h
    exact returns db' rfl

/-- Inversion for an iteration of `verify_completed_work`: the verdict of the validator on the
    task's data, the evidence marked when it is empty, and the task settled. -/
lemma TaskValidator.validateComputeTask_ok {v : TaskValidator} {db db' : Db} {id : String}
    {t : Task}
    {result : ValidationResult} (h : v.validateComputeTask db id t = .ok (result, db')) :
    ∃ spec, v.modelValidate t.specJson = .ok spec ∧
      (result.passed = false ∧ db' = db ∨
        result.passed = true ∧ db' = db.markEvidence id spec.outputs ∧
          ∃ k job, db.latestJob id = some (k, job) ∧
            v.reasons spec t.acceptancePolicyJson job (db.artifactsOf id) = .ok []) := by
  obtain ⟨spec, valid, h⟩ := bind_ok.mp h
  refine ⟨spec, valid, ?_⟩
  split at h
  · cases h
    exact Or.inl ⟨rfl, rfl⟩
  · rename_i k job latest
    obtain ⟨reasons, rs, h⟩ := bind_ok.mp h
    split at h
    · rename_i empty
      cases h
      have nil := List.isEmpty_iff.mp empty
      subst nil
      exact Or.inr ⟨rfl, rfl, k, job, latest, rs⟩
    · cases h
      exact Or.inl ⟨rfl, rfl⟩

lemma Db.settle_ok {db db' : Db} {changedAt : Datetime} {id : String} {result : ValidationResult}
    (h : db.settle changedAt id result = .ok db') :
    ∃ t, db.tasks.get id = some t ∧ t.status = .verifying ∧
      db'.toRows = { db.toRows with
        tasks := db.tasks.set id
          (t.moved (if result.passed then .succeeded else .failed) changedAt) } := by
  unfold settle at h
  split at h
  · rename_i passed
    obtain ⟨t, p, ty, ht, expected, _, _, rfl⟩ := transitionTask_ok h
    exact ⟨t, ht, expected _ rfl, by simp [passed]⟩
  · rename_i refused
    obtain ⟨t, p, ty, ht, expected, _, _, rfl⟩ := transitionTask_ok h
    exact ⟨t, ht, expected _ rfl, by simp [refused]⟩

/-- Inversion for an iteration of `verify_completed_work`. -/
lemma TaskValidator.verifyOne_ok {v : TaskValidator} {changedAt : Datetime}
    {s s' : List String × Db}
    {id : String} (h : v.verifyOne changedAt s id = .ok s') :
    ∃ t result db1, s.2.tasks.get id = some t ∧ t.status = .verifying ∧
      v.validateComputeTask s.2 id t = .ok (result, db1) ∧
      s'.1 = s.1 ++ [id] ∧
      s'.2.toRows = { db1.toRows with
        tasks := s.2.tasks.set id
          ((t.summarised result).moved (if result.passed then .succeeded else .failed)
            changedAt) } := by
  unfold verifyOne at h
  split at h
  · cases h
  · rename_i t ht
    obtain ⟨⟨result, db1⟩, vc, h⟩ := bind_ok.mp h
    obtain ⟨db2, st, e⟩ := bind_ok.mp h
    cases e
    have same : db1.tasks = s.2.tasks := by
      obtain ⟨spec, _, ⟨_, rfl⟩ | ⟨_, rfl, _⟩⟩ := validateComputeTask_ok vc <;> rfl
    have ht1 : db1.tasks.get id = some t := by rw [same]; exact ht
    rw [Db.modifyTask_of_get ht1] at st
    obtain ⟨t', ht', verifying, rows⟩ := Db.settle_ok st
    rw [Dict.get_set_self] at ht'
    cases ht'
    refine ⟨t, result, db1, ht, verifying, vc, rfl, ?_⟩
    simp only [rows, Dict.set_set, same]

/-! ## Soundness is kept -/

lemma Db.Sound.markEvidence {db : Db} (sd : db.Sound) (id : String) (outputs : List OutputSpec) :
    (db.markEvidence id outputs).Sound :=
  ⟨sd.taskProject, sd.jobProject, sd.jobTask, sd.seqBound⟩

lemma Db.Sound.verifyOne {v : TaskValidator} {changedAt : Datetime} {s s' : List String × Db}
    {id : String} (sd : s.2.Sound) (h : v.verifyOne changedAt s id = .ok s') : s'.2.Sound := by
  unfold TaskValidator.verifyOne at h
  split at h
  · cases h
  · obtain ⟨⟨result, db1⟩, vc, h⟩ := bind_ok.mp h
    obtain ⟨db2, st, e⟩ := bind_ok.mp h
    cases e
    have sd1 : db1.Sound := by
      obtain ⟨spec, _, ⟨_, rfl⟩ | ⟨_, rfl, _⟩⟩ := TaskValidator.validateComputeTask_ok vc
      · exact sd
      · exact sd.markEvidence id spec.outputs
    have sd2 := sd1.modifyTask id (f := (·.summarised result)) (fun _ => rfl)
    unfold Db.settle at st
    split at st <;> exact sd2.transitionTask st

/-- Every action keeps the database sound. -/
lemma Db.Sound.act {db : Db} (sd : db.Sound) (modelValidate : Json → Except PyErr ComputeTaskSpec)
    (e : Action) : (db.act modelValidate e).Sound := by
  have committed : ∀ {α : Type} {r : Except PyErr (α × Db)},
      (∀ a db', r = .ok (a, db') → db'.Sound) → (db.commit r).Sound :=
    Db.commit_keeps sd
  have committedUnit : ∀ {r : Except PyErr Db},
      (∀ db', r = .ok db' → db'.Sound) → (db.commitUnit r).Sound :=
    Db.commitUnit_keeps sd
  cases e with
  | createProject id slug lifecycle => exact committed fun _ _ h => sd.createProject h
  | createTask a => exact committed fun _ _ h => sd.createTask h
  | reconcile current changedAt candidates =>
    refine committed fun ids db' h => ?_
    exact foldlM_invariant (P := fun s : List String × Db => s.2.Sound)
      (fun s id s' _ hs st => hs.reconcileOne st) h sd
  | recoverExpiredLeases current changedAt candidates =>
    refine committed fun ids db' h => ?_
    exact foldlM_invariant (P := fun s : List String × Db => s.2.Sound)
      (fun s id s' _ hs st => hs.recoverOne st) h sd
  | dispatch a owner leaseExpiresAt now => exact committed fun _ _ h => sd.dispatchCommit h
  | submitted jobId externalId now => exact committed fun _ _ h => sd.reconcileCreatedCommit h
  | observed obs pollInterval now => exact committedUnit fun _ h => sd.recordObservation h
  | pollRaised jobId errorType pollInterval now =>
    exact committedUnit fun _ h => sd.pollErrorCommit h
  | ingested jobId candidate id digest uri sizeBytes =>
    simp only [Db.act]
    split
    · exact sd
    · exact committed fun _ _ h => sd.ingestRow h
  | finalised jobId now => exact committed fun _ _ h => sd.collectingCommit h
  | verified readFile loads frames changedAt candidates =>
    refine committed fun ids db' h => ?_
    exact foldlM_invariant (P := fun s : List String × Db => s.2.Sound)
      (fun s id s' _ hs st => hs.verifyOne st) h sd

lemma Db.Sound.empty : Db.empty.Sound := by
  refine ⟨?_, ?_, ?_, ?_⟩
  · intro id t ht
    cases ht
  · intro id j hj
    cases hj
  · intro id j hj
    cases hj
  · intro e mem
    cases mem

/-- What an enabled action does. -/
lemma controller_step {modelValidate : Json → Except PyErr ComputeTaskSpec} {db db' : Db}
    {e : Action} (st : (controller modelValidate).step db e = some db') :
    db.enabled e ∧ db' = db.act modelValidate e := by
  simp only [controller] at st
  split at st
  · rename_i enabled
    cases st
    exact ⟨enabled, rfl⟩
  · cases st

/-- Every reachable database is sound. -/
theorem controller_sound {modelValidate : Json → Except PyErr ComputeTaskSpec} {db : Db}
    {actions : List Action} (rn : (controller modelValidate).run Db.empty actions = some db) :
    db.Sound := by
  refine System.run_invariant (P := Db.Sound) ?_ rn Db.Sound.empty
  intro db e db' sd st
  obtain ⟨_, rfl⟩ := controller_step st
  exact sd.act modelValidate e

end ResearchController
