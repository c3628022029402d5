import ResearchController.Lifecycle.Identity

/-!
# What a transaction writes

Apart from the four creations (of a project, a task, a job and an artifact) the transactions of the
controller only assign columns of rows that are there, mark evidence and log events without a dedupe
key. `Db.Write` is one such write and `Db.Writes` any number of them; `Db.act_writes` says that
every other transaction is a sequence of writes, and `Db.dispatchCommit_writes` that the dispatcher
makes one behind the creation of its job. What every write keeps is thereby kept by all of them.
-/

namespace ResearchController
open Lib

/-- A write of a transaction that creates nothing. -/
inductive Db.Write : Db → Db → Prop where
  | task {db : Db} {id : String} {t t' : Task} :
    db.tasks.get id = some t →
    t'.projectId = t.projectId →
    Write db { db with tasks := db.tasks.set id t' }
  | job {db : Db} {id : String} {j j' : ComputeJob} :
    db.jobs.get id = some j →
    j'.fixed = j.fixed →
    Write db { db with jobs := db.jobs.set id j' }
  | evidence {db : Db} (id : String) (outputs : List OutputSpec) :
    Write db (db.markEvidence id outputs)
  | event {db : Db} {projectId : String} {p : Project} {d : EventDraft} :
    db.projects.get projectId = some p →
    d.dedupeKey = none →
    d.entityType ≠ "ARTIFACT" →
    Write db (db.logged projectId d)

/-- Any number of writes. -/
def Db.Writes : Db → Db → Prop :=
  Relation.ReflTransGen Db.Write

namespace Db.Writes

variable {db db' db'' : Db}

lemma refl (db : Db) : db.Writes db := Relation.ReflTransGen.refl

/-- One more write. -/
lemma snoc (ws : db.Writes db') (wr : db'.Write db'') : db.Writes db'' :=
  Relation.ReflTransGen.tail ws wr

/-- An event about something else than an artifact. -/
lemma logged (ws : db.Writes db') {projectId : String} {p : Project}
    (hp : db'.projects.get projectId = some p) {d : EventDraft} (noKey : d.dedupeKey = none)
    (entityType : String) (about : d.entityType = entityType) (other : entityType ≠ "ARTIFACT") :
    db.Writes (db'.logged projectId d) :=
  ws.snoc (.event hp noKey (about.symm ▸ other))

lemma modifyTask (ws : db.Writes db') (id : String) {f : Task → Task}
    (project : ∀ t, (f t).projectId = t.projectId) : db.Writes (db'.modifyTask id f) := by
  unfold Db.modifyTask
  split
  · rename_i t ht
    exact ws.snoc (.task ht (project t))
  · exact ws

lemma modifyJob (ws : db.Writes db') (id : String) {f : ComputeJob → ComputeJob}
    (fixed : ∀ j, (f j).fixed = j.fixed) : db.Writes (db'.modifyJob id f) := by
  unfold Db.modifyJob
  split
  · rename_i j hj
    exact ws.snoc (.job hj (fixed j))
  · exact ws

lemma transitionTask (ws : db.Writes db') {id : String} {toStatus : TaskStatus}
    {expectedStatus : Option TaskStatus} {eventType : Option String} {payload : JsonObject}
    {now : Datetime}
    (h : db'.transitionTask id toStatus expectedStatus eventType payload now = .ok db'') :
    db.Writes db'' := by
  obtain ⟨t, p, ty, ht, _, _, hp, rfl⟩ := transitionTask_ok h
  exact (ws.snoc (.task ht (t.moved_projectId toStatus now))).logged hp rfl "TASK" rfl (by decide)

lemma transitionComputeJob (ws : db.Writes db') {id : String}
    {toStatus : ComputeExecutionStatus} {expectedStatus : Option ComputeExecutionStatus}
    {payload : JsonObject} {now : Datetime}
    (h : db'.transitionComputeJob id toStatus expectedStatus payload now = .ok db'') :
    db.Writes db'' := by
  obtain ⟨j, hj, _, ⟨_, rfl⟩ | ⟨p, ty, _, _, hp, rfl⟩⟩ := transitionComputeJob_ok h
  · exact ws
  · have fixed := congrArg Prod.fst (j.moved_identity toStatus now)
    exact (ws.snoc (.job hj fixed)).logged hp rfl "COMPUTE_JOB" rfl (by decide)

lemma updateObservationStatus (ws : db.Writes db') {id : String} {status : ObservationStatus}
    {payload : JsonObject} (h : db'.updateObservationStatus id status payload = .ok db'') :
    db.Writes db'' := by
  obtain ⟨j, hj, ⟨_, rfl⟩ | ⟨p, _, hp, rfl⟩⟩ := updateObservationStatus_ok h
  · exact ws
  · have fixed : (j.observed status).fixed = j.fixed := rfl
    exact (ws.snoc (.job hj fixed)).logged hp rfl "COMPUTE_JOB" rfl (by decide)

end Db.Writes

/-! ## Transactions -/

variable {db db' : Db}

lemma Db.reconcileOne_writes {changedAt : Datetime} {s s' : List String × Db} {id : String}
    (ws : db.Writes s.2) (h : Db.reconcileOne changedAt s id = .ok s') : db.Writes s'.2 := by
  obtain rfl | ⟨t, _, _, _, tr, _⟩ := reconcileOne_ok h
  · exact ws
  · exact ws.transitionTask tr

lemma Db.recoverOne_writes {changedAt : Datetime} {s s' : List String × Db} {id : String}
    (ws : db.Writes s.2) (h : Db.recoverOne changedAt s id = .ok s') : db.Writes s'.2 := by
  unfold recoverOne at h
  split at h
  · cases h
  · have ws1 := ws.modifyTask id (f := Task.unleased) fun _ => rfl
    simp only at h
    split at h
    · obtain ⟨db1, rt, e⟩ := bind_ok.mp h
      cases e
      obtain ⟨db2, tr, rt⟩ := bind_ok.mp rt
      have ws2 := ws1.transitionTask tr
      split at rt
      · exact ws2.transitionTask rt
      · cases rt
        exact ws2
    · cases h
      exact ws1

/-- The transaction of the dispatcher creates a job, or finds one, and writes. -/
lemma Db.dispatchCommit_writes {a : JobArgs} {owner : String} {leaseExpiresAt now : Datetime}
    {jobIds : List String} (h : db.dispatchCommit a owner leaseExpiresAt now = .ok (jobIds, db')) :
    db' = db ∨ ∃ jobId db1, db.createComputeJob a = .ok (jobId, db1) ∧ db1.Writes db' := by
  unfold dispatchCommit at h
  split at h
  · cases h
    exact Or.inl rfl
  · split at h
    · cases h
      exact Or.inl rfl
    · obtain ⟨⟨jobId, db1⟩, cj, h⟩ := bind_ok.mp h
      obtain ⟨db2, tr, e⟩ := bind_ok.mp h
      cases e
      have ws := (Writes.refl db1).modifyTask a.taskId (f := (·.leased owner leaseExpiresAt))
        fun _ => rfl
      exact Or.inr ⟨jobId, db1, cj, ws.transitionTask tr⟩

lemma Db.reconcileCreatedCommit_writes {id externalId : String} {now : Datetime}
    {jobIds : List String} (h : db.reconcileCreatedCommit id externalId now = .ok (jobIds, db')) :
    db.Writes db' := by
  unfold reconcileCreatedCommit at h
  split at h
  · cases h
    exact .refl _
  · split at h
    · cases h
      exact .refl _
    · obtain ⟨db1, tr, e⟩ := bind_ok.mp h
      cases e
      have ws := (Writes.refl db).modifyJob id (f := (·.identified externalId)) fun _ => rfl
      exact ws.transitionComputeJob tr

lemma Db.pollErrorCommit_writes {id errorType : String} {pollInterval : Int} {now : Datetime}
    (h : db.pollErrorCommit id errorType pollInterval now = .ok db') : db.Writes db' := by
  unfold pollErrorCommit at h
  split at h
  · cases h
    exact .refl _
  · obtain ⟨_, _, h⟩ := bind_ok.mp h
    obtain ⟨db1, up, e⟩ := bind_ok.mp h
    cases e
    exact ((Writes.refl db).updateObservationStatus up).modifyJob id fun _ => rfl

lemma Db.fastCompletion_writes {db1 db2 : Db} (ws : db.Writes db1) {id : String}
    {status : ComputeExecutionStatus} {now : Datetime}
    (h : db1.fastCompletion id status now = .ok db2) : db.Writes db2 := by
  unfold fastCompletion at h
  split at h
  · exact ws.transitionComputeJob h
  · cases h
    exact ws

lemma Db.recordObservation_writes {obs : JobObservation} {pollInterval : Int} {now : Datetime}
    (h : db.recordObservation obs pollInterval now = .ok db') : db.Writes db' := by
  unfold recordObservation at h
  split at h
  · cases h
    exact .refl _
  · split at h
    · cases h
      exact .refl _
    · obtain ⟨_, _, h⟩ := bind_ok.mp h
      obtain ⟨db1, up, h⟩ := bind_ok.mp h
      have ws1 := ((Writes.refl db).updateObservationStatus up).modifyJob obs.computeJobId
        (f := (·.polled obs pollInterval)) fun _ => rfl
      split at h
      · cases h
        exact ws1
      · split at h
        · split at h
          · exact ws1.transitionComputeJob h
          · cases h
            exact ws1
        · split at h
          · obtain ⟨db3, tr, h⟩ := bind_ok.mp h
            have ws3 := (fastCompletion_writes ws1 tr).modifyJob obs.computeJobId
              (f := (·.decided obs)) fun _ => rfl
            exact ws3.transitionComputeJob h
          · cases h
            exact ws1

lemma Db.collectingCommit_writes {id : String} {now : Datetime} {jobIds : List String}
    (h : db.collectingCommit id now = .ok (jobIds, db')) : db.Writes db' := by
  unfold collectingCommit at h
  split at h
  · cases h
    exact .refl _
  · split at h
    · cases h
      exact .refl _
    · obtain ⟨terminal, _, h⟩ := bind_ok.mp h
      obtain ⟨db1, tr, h⟩ := bind_ok.mp h
      have ws1 := (Writes.refl db).transitionComputeJob tr
      split at h
      · split at h
        · obtain ⟨db2, tr2, e⟩ := bind_ok.mp h
          cases e
          exact ws1.transitionTask tr2
        · cases h
          exact ws1
      · cases h
        exact ws1

lemma TaskValidator.verifyOne_writes {v : TaskValidator} {changedAt : Datetime}
    {s s' : List String × Db} {id : String} (ws : db.Writes s.2)
    (h : v.verifyOne changedAt s id = .ok s') : db.Writes s'.2 := by
  unfold verifyOne at h
  split at h
  · cases h
  · obtain ⟨⟨result, db1⟩, vc, h⟩ := bind_ok.mp h
    obtain ⟨db2, st, e⟩ := bind_ok.mp h
    cases e
    have ws1 : db.Writes db1 := by
      obtain ⟨spec, _, ⟨_, rfl⟩ | ⟨_, rfl, _⟩⟩ := validateComputeTask_ok vc
      · exact ws
      · exact ws.snoc (.evidence id spec.outputs)
    have ws2 := ws1.modifyTask id (f := (·.summarised result)) fun _ => rfl
    unfold Db.settle at st
    split at st <;> exact ws2.transitionTask st

/-- Whether an action creates a project, a task, a job or an artifact. -/
def Action.creates : Action → Bool
  | .createProject _ _ _ => true
  | .createTask _ => true
  | .dispatch _ _ _ _ => true
  | .ingested _ _ _ _ _ _ => true
  | _ => false

/-- Every transaction that creates nothing is a sequence of writes. -/
theorem Db.act_writes (db : Db) (modelValidate : Json → Except PyErr ComputeTaskSpec) {e : Action}
    (creates : e.creates = false) : db.Writes (db.act modelValidate e) := by
  have committed : ∀ {α : Type} {r : Except PyErr (α × Db)},
      (∀ a db', r = .ok (a, db') → db.Writes db') → db.Writes (db.commit r) :=
    Db.commit_keeps (.refl db)
  have committedUnit : ∀ {r : Except PyErr Db},
      (∀ db', r = .ok db' → db.Writes db') → db.Writes (db.commitUnit r) :=
    Db.commitUnit_keeps (.refl db)
  cases e with
  | reconcile current changedAt candidates =>
    refine committed fun ids db' h => ?_
    exact foldlM_invariant (P := fun s : List String × Db => db.Writes s.2)
      (fun s id s' _ hs st => reconcileOne_writes hs st) h (.refl db)
  | recoverExpiredLeases current changedAt candidates =>
    refine committed fun ids db' h => ?_
    exact foldlM_invariant (P := fun s : List String × Db => db.Writes s.2)
      (fun s id s' _ hs st => recoverOne_writes hs st) h (.refl db)
  | submitted jobId externalId now =>
    exact committed fun _ _ h => reconcileCreatedCommit_writes h
  | observed obs pollInterval now => exact committedUnit fun _ h => recordObservation_writes h
  | pollRaised jobId errorType pollInterval now =>
    exact committedUnit fun _ h => pollErrorCommit_writes h
  | finalised jobId now => exact committed fun _ _ h => collectingCommit_writes h
  | verified readFile loads frames changedAt candidates =>
    refine committed fun ids db' h => ?_
    exact foldlM_invariant (P := fun s : List String × Db => db.Writes s.2)
      (fun s id s' _ hs st => TaskValidator.verifyOne_writes hs st) h (.refl db)
  | _ => cases creates

end ResearchController
