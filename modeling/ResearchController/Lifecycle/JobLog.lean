import ResearchController.Lifecycle.TaskLog

/-!
# The life of a job, row by row

The counterpart of `Lifecycle/TaskLog` for the rows of compute jobs: `ComputeJob.Step` says which
columns a service writes together and what it logs, every transaction of the controller is a course
of such steps, and invariants of one step hold of all jobs of every reachable database.

* `job_log`: what the log of a job says about its execution is the word that belongs to its status.
* `job_columns`: which columns a job of each status has filled in.
-/

namespace ResearchController
open Lib

variable {valid : Json → Except PyErr ComputeTaskSpec}

/-- The columns that `reconcile_due` assigns when a poll raises. -/
def ComputeJob.pollFailed (j : ComputeJob) (now : Datetime) (pollInterval : Int) : ComputeJob :=
  { j with lastPollAt := some now, nextPollAt := some (now + pollInterval) }

/-- What a service does to the row of a job, and what it logs. -/
inductive ComputeJob.Step : ComputeJob → List Entry → ComputeJob → Prop where
  | submitted {j : ComputeJob} {externalId : String} {now : Datetime}
      (created : j.executionStatus = .created) :
    Step j ComputeExecutionStatus.submitted.entries ((j.identified externalId).moved .submitted now)
  | seen (j : ComputeJob) (status : ObservationStatus) :
    Step j (j.seenEntries status) (j.seen status)
  | polled (j : ComputeJob) (obs : JobObservation) (pollInterval : Int) :
    Step j [] (j.polled obs pollInterval)
  | pollFailed (j : ComputeJob) (now : Datetime) (pollInterval : Int) :
    Step j [] (j.pollFailed now pollInterval)
  | running {j : ComputeJob} {now : Datetime}
      (early : j.executionStatus = .submitted ∨ j.executionStatus = .pending)
      (confirmed : j.lastConfirmedAt.isSome = true) :
    Step j ComputeExecutionStatus.running.entries (j.moved .running now)
  | collecting {j : ComputeJob} {obs : JobObservation} {now : Datetime}
      (running : j.executionStatus = .running) (terminal : obs.executionStatus.isTerminal = true) :
    Step j ComputeExecutionStatus.collecting.entries ((j.decided obs).moved .collecting now)
  | finalised {j : ComputeJob} {terminal : ComputeExecutionStatus} {now : Datetime}
      (collecting : j.executionStatus = .collecting)
      (outcome : observedTerminal j.providerMetadataJson = .ok terminal) :
    Step j (j.stepEntries terminal) (j.stepped terminal now)

/-- A job begins with the row of `create_compute_job` and one entry. -/
def ComputeJob.First (j : ComputeJob) (l : List Entry) : Prop :=
  (∃ a : JobArgs, ∃ task, j = a.row task) ∧
    l = [("COMPUTE_JOB_CREATED", some ComputeExecutionStatus.created.value)]

/-- The book of jobs grows by steps. -/
def Db.JobsGrow (db db' : Db) : Prop :=
  db.jobBook.Grows ComputeJob.First ComputeJob.Step db'.jobBook

section Transactions

variable {db db' : Db}

lemma Db.JobsGrow.same (same : db'.jobBook = db.jobBook) : db.JobsGrow db' := by
  unfold JobsGrow
  rw [same]
  exact .refl _

lemma Db.JobsGrow.trans {db'' : Db} (gr : db.JobsGrow db') (gr' : db'.JobsGrow db'') :
    db.JobsGrow db'' :=
  Book.Grows.trans gr gr'

lemma Db.JobsGrow.write {id : String} {j j' : ComputeJob} {l : List Entry}
    (hj : db.jobs.get id = some j) (st : ComputeJob.Step j l j')
    (e : db'.jobBook = db.jobBook.write id j' l) : db.JobsGrow db' := by
  unfold JobsGrow
  rw [e]
  exact .write hj st

lemma Db.createComputeJob_grows {a : JobArgs} {id : String}
    (h : db.createComputeJob a = .ok (id, db')) : db.JobsGrow db' := by
  obtain ⟨rfl, _⟩ | ⟨task, p, _, _, fresh, _, _, hp, rfl⟩ := createComputeJob_ok h
  · exact .same rfl
  · have entered : db.jobBook.Grows ComputeJob.First ComputeJob.Step _ :=
      .enter (l := [("COMPUTE_JOB_CREATED", some ComputeExecutionStatus.created.value)]) fresh
        ⟨⟨a, task, rfl⟩, rfl⟩
    unfold JobsGrow
    convert entered using 1
    exact jobBook_write rfl rfl hp rfl

lemma Db.dispatchCommit_jobsGrow {a : JobArgs} {owner : String} {leaseExpiresAt now : Datetime}
    {jobIds : List String} (h : db.dispatchCommit a owner leaseExpiresAt now = .ok (jobIds, db')) :
    db.JobsGrow db' := by
  unfold dispatchCommit at h
  split at h
  · cases h
    exact .same rfl
  · split at h
    · cases h
      exact .same rfl
    · obtain ⟨⟨jobId, db1⟩, cj, h⟩ := bind_ok.mp h
      obtain ⟨db2, tr, e⟩ := bind_ok.mp h
      cases e
      obtain ⟨_, _, _, _, jobs⟩ := transitionTask_book "TASK_STARTED" rfl tr
      exact (createComputeJob_grows cj).trans (.same (jobs.trans (modifyTask_jobBook _ _)))

lemma Db.reconcileCreatedCommit_grows {id externalId : String} {now : Datetime}
    {jobIds : List String} (h : db.reconcileCreatedCommit id externalId now = .ok (jobIds, db')) :
    db.JobsGrow db' := by
  unfold reconcileCreatedCommit at h
  split at h
  · cases h
    exact .same rfl
  · rename_i job hj
    split at h
    · cases h
      exact .same rfl
    · rename_i created
      have created := not_not.mp created
      obtain ⟨db1, tr, e⟩ := bind_ok.mp h
      cases e
      have hj1 := (SetsJob.modifyJob hj (·.identified externalId)).get
      have written := (transitionComputeJob_book hj1 tr).1
      have differs : ComputeExecutionStatus.submitted ≠
          (job.identified externalId).executionStatus := by
        change _ ≠ job.executionStatus
        rw [created]
        decide
      rw [modifyJob_book hj, Book.write_write, List.nil_append, ComputeJob.stepped,
        ComputeJob.stepEntries, if_neg differs, if_neg differs] at written
      exact .write hj (.submitted created) written

lemma Db.pollErrorCommit_grows {id errorType : String} {pollInterval : Int} {now : Datetime}
    (h : db.pollErrorCommit id errorType pollInterval now = .ok db') : db.JobsGrow db' := by
  unfold pollErrorCommit at h
  split at h
  · cases h
    exact .same rfl
  · rename_i job hj
    obtain ⟨_, _, h⟩ := bind_ok.mp h
    obtain ⟨db1, up, e⟩ := bind_ok.mp h
    cases e
    have seen : db.JobsGrow db1 :=
      .write hj (.seen job .pollError) (updateObservationStatus_book hj up).1
    have hj1 := (updateObservationStatus_sets hj up).get
    exact seen.trans (.write hj1 (.pollFailed _ now pollInterval) (modifyJob_book hj1 _))

/-- The columns of a pollable job before the execution of an observation is looked at. -/
lemma ComputeJob.polled_confirmed (j : ComputeJob) {obs : JobObservation}
    (fresh : obs.observationStatus = .fresh) (pollInterval : Int) :
    (j.polled obs pollInterval).lastConfirmedAt.isSome = true := by
  simp only [polled, fresh, if_true, Option.isSome_some]

lemma Db.recordObservation_grows {obs : JobObservation} {pollInterval : Int} {now : Datetime}
    (h : db.recordObservation obs pollInterval now = .ok db') : db.JobsGrow db' := by
  unfold recordObservation at h
  split at h
  · cases h
    exact .same rfl
  · rename_i job hj
    split at h
    · cases h
      exact .same rfl
    · rename_i pollable
      have pollable := Bool.of_not_eq_false pollable
      obtain ⟨_, _, h⟩ := bind_ok.mp h
      obtain ⟨db1, up, h⟩ := bind_ok.mp h
      have hj1 := (updateObservationStatus_sets hj up).get
      have hj2 := (SetsJob.modifyJob hj1 (·.polled obs pollInterval)).get
      have grown1 : db.JobsGrow db1 :=
        .write hj (.seen job _) (updateObservationStatus_book hj up).1
      have grown2 : db.JobsGrow (db1.modifyJob obs.computeJobId (·.polled obs pollInterval)) :=
        grown1.trans (.write hj1 (.polled _ obs pollInterval) (modifyJob_book hj1 _))
      have status : ((job.seen obs.observationStatus).polled obs pollInterval).executionStatus =
          job.executionStatus := job.seen_executionStatus obs.observationStatus
      split at h
      · cases h
        exact grown2
      · rename_i fresh
        have confirmed := (job.seen obs.observationStatus).polled_confirmed (not_not.mp fresh)
          pollInterval
        -- a job that has not been seen running yet
        have starts : ∀ {payload : JsonObject} {db3 : Db},
            job.executionStatus ≠ .running →
            (db1.modifyJob obs.computeJobId (·.polled obs pollInterval)).transitionComputeJob
              obs.computeJobId .running none payload now = .ok db3 → db.JobsGrow db3 := by
          intro payload db3 notYet tr
          have written := (transitionComputeJob_book hj2 tr).1
          have early : job.executionStatus = .submitted ∨ job.executionStatus = .pending := by
            revert pollable notYet
            cases job.executionStatus <;> decide
          rw [ComputeJob.stepped, ComputeJob.stepEntries, status, if_neg notYet.symm,
            if_neg notYet.symm] at written
          exact grown2.trans (.write hj2 (.running (status.symm ▸ early) confirmed) written)
        split at h
        · split at h
          · rename_i notYet
            exact starts notYet h
          · cases h
            exact grown2
        · split at h
          · rename_i terminal
            obtain ⟨db3, tr, h⟩ := bind_ok.mp h
            have hj3 := (fastCompletion_sets hj2 tr).get
            have hj4 := (SetsJob.modifyJob hj3 (·.decided obs)).get
            have grown3 : db.JobsGrow db3 := by
              unfold fastCompletion at tr
              split at tr
              · rename_i early
                refine starts ?_ tr
                rcases early with e | e <;> rw [e] <;> decide
              · cases tr
                exact grown2
            have runs := ComputeJob.started_running (status.symm ▸ pollable) now
            rw [status] at runs
            have written := (transitionComputeJob_book hj4 h).1
            have differs : ComputeExecutionStatus.collecting ≠
                ((((job.seen obs.observationStatus).polled obs pollInterval).started
                  job.executionStatus now).decided obs).executionStatus := by
              change _ ≠ ComputeJob.executionStatus (ComputeJob.started _ _ _)
              rw [runs]
              decide
            rw [modifyJob_book hj3, Book.write_write, List.nil_append, ComputeJob.stepped,
              ComputeJob.stepEntries, if_neg differs, if_neg differs] at written
            exact grown3.trans (.write hj3 (.collecting runs terminal) written)
          · cases h
            exact grown2

lemma Db.collectingCommit_jobsGrow {id : String} {now : Datetime} {jobIds : List String}
    (h : db.collectingCommit id now = .ok (jobIds, db')) : db.JobsGrow db' := by
  unfold collectingCommit at h
  split at h
  · cases h
    exact .same rfl
  · rename_i job hj
    split at h
    · cases h
      exact .same rfl
    · rename_i collecting
      have collecting := not_not.mp collecting
      obtain ⟨terminal, outcome, h⟩ := bind_ok.mp h
      obtain ⟨db1, tr, h⟩ := bind_ok.mp h
      have grown : db.JobsGrow db1 :=
        .write hj (.finalised collecting outcome) (transitionComputeJob_book hj tr).1
      split at h
      · split at h
        · obtain ⟨db2, tr2, e⟩ := bind_ok.mp h
          cases e
          obtain ⟨_, _, _, _, jobs⟩ := transitionTask_book "TASK_VERIFYING" rfl tr2
          exact grown.trans (.same jobs)
        · cases h
          exact grown
      · cases h
        exact grown

/-- Every action lets the book of jobs grow by steps of its rows. -/
theorem Db.act_jobsGrow (db : Db) (e : Action) : db.JobsGrow (db.act valid e) := by
  have unchanged : db.JobsGrow db := .same rfl
  have committed : ∀ {α : Type} {r : Except PyErr (α × Db)},
      (∀ a db', r = .ok (a, db') → db.JobsGrow db') → db.JobsGrow (db.commit r) :=
    Db.commit_keeps unchanged
  have committedUnit : ∀ {r : Except PyErr Db},
      (∀ db', r = .ok db' → db.JobsGrow db') → db.JobsGrow (db.commitUnit r) :=
    Db.commitUnit_keeps unchanged
  have visits : ∀ {f : List String × Db → String → Except PyErr (List String × Db)}
      {ids : List String} {s : List String × Db},
      (∀ {s id s'}, f s id = .ok s' → s'.2.jobBook = s.2.jobBook) →
      ids.foldlM f ([], db) = .ok s → db.JobsGrow s.2 := by
    intro f ids s one h
    have same := foldlM_invariant (P := fun s : List String × Db => s.2.jobBook = db.jobBook)
      (fun s id s' _ kept st => (one st).trans kept) h rfl
    exact .same same
  cases e with
  | createProject id slug lifecycle =>
    exact committed fun _ _ h => .same (createProject_books h).2
  | createTask a => exact committed fun _ _ h => .same (createTask_grows h).2
  | reconcile current changedAt candidates =>
    exact committed fun ids db' h => visits (fun st => (reconcileOne_grows st).2) h
  | recoverExpiredLeases current changedAt candidates =>
    exact committed fun ids db' h => visits (fun st => (recoverOne_grows st).2) h
  | dispatch a owner leaseExpiresAt now => exact committed fun _ _ h => dispatchCommit_jobsGrow h
  | submitted jobId externalId now =>
    exact committed fun _ _ h => reconcileCreatedCommit_grows h
  | observed obs pollInterval now => exact committedUnit fun _ h => recordObservation_grows h
  | pollRaised jobId errorType pollInterval now =>
    exact committedUnit fun _ h => pollErrorCommit_grows h
  | ingested jobId candidate id digest uri sizeBytes =>
    simp only [Db.act]
    split
    · exact unchanged
    · exact committed fun _ _ h => .same (ingestRow_books h).2
  | finalised jobId now => exact committed fun _ _ h => collectingCommit_jobsGrow h
  | verified readFile loads frames changedAt candidates =>
    exact committed fun ids db' h =>
      visits (fun st => (TaskValidator.verifyOne_grows st).2) h

end Transactions

/-- The induction rule for the rows of jobs and their logs. -/
theorem job_rows {I : ComputeJob → List Entry → Prop} (first : ∀ {j l}, j.First l → I j l)
    (step : ∀ {j l j' l'}, I j l → j.Step l' j' → I j' (l ++ l')) {db : Db}
    {actions : List Action} (rn : (controller valid).run Db.empty actions = some db) :
    Book.Keeps I db.jobBook := by
  refine System.run_invariant (P := fun db : Db => Book.Keeps I db.jobBook) ?_ rn ?_
  · intro db e db' kp st
    obtain ⟨_, rfl⟩ := controller_step st
    exact Book.Grows.keeps first step (db.act_jobsGrow e) kp
  · refine ⟨?_, fun _ => rfl⟩
    intro id j hj
    cases hj

/-! ## The columns of a job -/

/-- The states of a job that has been seen running, or is known to have run. -/
def ComputeExecutionStatus.started : ComputeExecutionStatus → Bool
  | .created | .submitted | .pending => false
  | _ => true

/-- What the columns of a job say about each other. -/
structure ComputeJob.Coherent (j : ComputeJob) : Prop where
  inUse : j.executionStatus ≠ .pending
  external : j.externalJobId.isSome = decide (j.executionStatus ≠ .created)
  submitted : j.submittedAt.isSome = decide (j.executionStatus ≠ .created)
  started : j.startedAt.isSome = j.executionStatus.started
  confirmed : j.executionStatus.started = true → j.lastConfirmedAt.isSome = true
  finished : j.finishedAt.isSome = j.executionStatus.isTerminal
  open_ : (j.executionStatus = .created ∨ j.executionStatus.isPollable = true) →
    j.exitCode = none ∧ j.failureClass = .none ∧ j.providerMetadataJson = []
  outcome : j.executionStatus = .collecting ∨ j.executionStatus.isTerminal = true →
    ∃ s, observedTerminal j.providerMetadataJson = .ok s ∧ s.isTerminal = true ∧
      (j.executionStatus.isTerminal = true → j.executionStatus = s)

lemma JobArgs.row_coherent (a : JobArgs) (task : Task) : (a.row task).Coherent := by
  constructor <;> simp [JobArgs.row, ComputeExecutionStatus.started,
    ComputeExecutionStatus.isTerminal]

section Moved

variable (j : ComputeJob) (s : ComputeExecutionStatus) (now : Datetime)

@[simp] lemma ComputeJob.moved_externalJobId : (j.moved s now).externalJobId = j.externalJobId := by
  unfold moved; split <;> split <;> split <;> rfl

@[simp] lemma ComputeJob.moved_lastConfirmedAt :
    (j.moved s now).lastConfirmedAt = j.lastConfirmedAt := by
  unfold moved; split <;> split <;> split <;> rfl

@[simp] lemma ComputeJob.moved_submittedAt : (j.moved s now).submittedAt =
    if s = .submitted then j.submittedAt <|> some now else j.submittedAt := by
  unfold moved; split <;> split <;> split <;> rfl

@[simp] lemma ComputeJob.moved_startedAt : (j.moved s now).startedAt =
    if s = .running then j.startedAt <|> some now else j.startedAt := by
  unfold moved; split <;> split <;> split <;> rfl

@[simp] lemma ComputeJob.moved_finishedAt : (j.moved s now).finishedAt =
    if s.isTerminal = true then some now else j.finishedAt := by
  unfold moved; split <;> split <;> split <;> rfl

end Moved

/-- A step keeps the columns in agreement. -/
lemma ComputeJob.Coherent.step {j j' : ComputeJob} {l : List Entry} (ch : j.Coherent)
    (st : j.Step l j') : j'.Coherent := by
  have ⟨inUse, external, submitted, started, confirmed, finished, open_, outcome⟩ := ch
  cases st with
  | submitted created =>
    obtain ⟨noExit, noClass, noMetadata⟩ := open_ (Or.inl created)
    refine ⟨?_, ?_, ?_, ?_, ?_, ?_, fun _ => ?_, ?_⟩
    · simp
    · simp [ComputeJob.identified]
    · simp
    · simp [ComputeJob.identified, started, created, ComputeExecutionStatus.started]
    · simp [ComputeExecutionStatus.started]
    · simp [ComputeJob.identified, finished, created, ComputeExecutionStatus.isTerminal]
    · simp [ComputeJob.identified, noExit, noClass, noMetadata]
    · simp [ComputeExecutionStatus.isTerminal]
  | seen status =>
    unfold ComputeJob.seen
    split
    · exact ch
    · exact ⟨inUse, external, submitted, started, confirmed, finished, open_, outcome⟩
  | polled obs pollInterval =>
    refine ⟨inUse, external, submitted, started, ?_, finished, open_, outcome⟩
    intro runs
    simp only [ComputeJob.polled]
    split
    · rfl
    · exact confirmed runs
  | pollFailed now pollInterval =>
    exact ⟨inUse, external, submitted, started, confirmed, finished, open_, outcome⟩
  | running early seen =>
    have polled : j.executionStatus.isPollable = true := by
      rcases early with e | e <;> rw [e] <;> rfl
    have created : j.executionStatus ≠ .created := by
      rcases early with e | e <;> rw [e] <;> decide
    have blank := open_ (Or.inr polled)
    obtain ⟨noExit, noClass, noMetadata⟩ := blank
    refine ⟨?_, ?_, ?_, ?_, ?_, ?_, fun _ => ?_, ?_⟩
    · simp
    · simp [external, created]
    · simp [submitted, created]
    · simp [ComputeExecutionStatus.started]
    · simp [seen]
    · rw [ComputeJob.moved_finishedAt, ComputeJob.moved_executionStatus, if_neg (by decide),
        finished, ComputeExecutionStatus.not_terminal_of_pollable polled]
      rfl
    · simp [noExit, noClass, noMetadata]
    · simp [ComputeExecutionStatus.isTerminal]
  | @collecting obs now running terminal =>
    have created : j.executionStatus ≠ .created := by
      rw [running]
      decide
    refine ⟨?_, ?_, ?_, ?_, ?_, ?_, ?_, fun _ => ⟨obs.executionStatus, ?_, terminal, ?_⟩⟩
    · simp
    · simp [ComputeJob.decided, external, created]
    · simp [ComputeJob.decided, submitted, created]
    · simp [ComputeJob.decided, started, running, ComputeExecutionStatus.started]
    · exact fun _ => by simpa [ComputeJob.decided] using confirmed (by rw [running]; rfl)
    · simp [ComputeJob.decided, finished, running, ComputeExecutionStatus.isTerminal]
    · simp [ComputeExecutionStatus.isPollable]
    · rw [ComputeJob.moved_providerMetadataJson]
      exact observedTerminal_decided j obs
    · simp [ComputeExecutionStatus.isTerminal]
  | @finalised terminal now collecting holds =>
    obtain ⟨s, held, ends, _⟩ := outcome (Or.inl collecting)
    cases held.symm.trans holds
    have differs : terminal ≠ j.executionStatus := by
      intro e
      rw [e, collecting] at ends
      cases ends
    have created : j.executionStatus ≠ .created := by
      rw [collecting]
      decide
    have runs : j.executionStatus.started = true := by
      rw [collecting]
      rfl
    -- the five terminal states are neither the first ones nor polled
    have last : terminal ≠ .pending ∧ terminal ≠ .created ∧ terminal ≠ .submitted ∧
        terminal ≠ .running ∧
        terminal.started = true ∧ terminal.isPollable = false := by
      revert ends
      cases terminal <;> decide
    rw [ComputeJob.stepped, if_neg differs]
    refine ⟨?_, ?_, ?_, ?_, ?_, ?_, ?_, fun _ => ⟨terminal, ?_, ends, ?_⟩⟩
    · simp [last]
    · simp [last, external, created]
    · simp [last, submitted, created]
    · simp [last, started, runs]
    · simp [confirmed runs]
    · simp [ends]
    · simp [last]
    · rw [ComputeJob.moved_providerMetadataJson]
      exact holds
    · simp

/-- In every reachable database the columns of a job agree with its status: it has an external
    identifier from `SUBMITTED` on and a start from `RUNNING` on, where some observation of it has
    been confirmed, an outcome only from `COLLECTING` on, and it ends with the outcome it was
    observed to have. No job is ever `PENDING`. -/
theorem job_columns {db : Db} {actions : List Action}
    (rn : (controller valid).run Db.empty actions = some db) {id : String} {j : ComputeJob}
    (hj : db.jobs.get id = some j) :
    j.executionStatus ≠ .pending ∧
      j.externalJobId.isSome = decide (j.executionStatus ≠ .created) ∧
      j.submittedAt.isSome = decide (j.executionStatus ≠ .created) ∧
      j.startedAt.isSome = j.executionStatus.started ∧
      (j.executionStatus.started = true → j.lastConfirmedAt.isSome = true) ∧
      j.finishedAt.isSome = j.executionStatus.isTerminal ∧
      (j.executionStatus = .created ∨ j.executionStatus.isPollable = true →
        j.exitCode = none ∧ j.failureClass = .none ∧ j.providerMetadataJson = []) ∧
      (j.executionStatus = .collecting ∨ j.executionStatus.isTerminal = true →
        ∃ s, observedTerminal j.providerMetadataJson = .ok s ∧ s.isTerminal = true ∧
          (j.executionStatus.isTerminal = true → j.executionStatus = s)) := by
  have first : ∀ {j : ComputeJob} {l : List Entry}, j.First l → j.Coherent := by
    rintro j l ⟨⟨a, task, rfl⟩, _⟩
    exact a.row_coherent task
  have ch := (job_rows (I := fun j _ => j.Coherent) first (fun ch st => ch.step st) rn).row hj
  exact ⟨ch.inUse, ch.external, ch.submitted, ch.started, ch.confirmed, ch.finished, ch.open_,
    ch.outcome⟩

/-- The job of the refused task ends as it was observed to. -/
theorem job_columns_refused :
    ∃ db j, (controller fun _ => .ok sharedSpec).run Db.empty refusedTask = some db ∧
      db.jobs.get "j1" = some j ∧ j.executionStatus = .failed ∧ j.finishedAt.isSome = true ∧
      observedTerminal j.providerMetadataJson = .ok .failed := by
  obtain ⟨db, rn⟩ := Option.isSome_iff_exists.mp
    (show ((controller fun _ => .ok sharedSpec).run Db.empty refusedTask).isSome = true by decide)
  have ended : ((controller fun _ => .ok sharedSpec).run Db.empty refusedTask).map (fun db =>
      (db.jobs.get "j1").map (·.executionStatus)) = some (some .failed) := by decide
  rw [rn, Option.map_some, Option.some.injEq, Option.map_eq_some_iff] at ended
  obtain ⟨j, hj, failed⟩ := ended
  obtain ⟨_, _, _, _, _, finished, _, outcome⟩ := job_columns rn hj
  rw [failed] at finished outcome
  obtain ⟨s, held, _, same⟩ := outcome (Or.inr rfl)
  exact ⟨db, j, rn, hj, failed, finished, by rw [same rfl]; exact held⟩

/-! ## The log of a job -/

/-- Whether an entry is about the observation of a job. -/
def Entry.isObservation (e : Entry) : Bool :=
  observationEventTypes.contains e.1

/-- The execution part of the log that belongs to a job, read off its status. -/
def ComputeJob.history (j : ComputeJob) : List Entry :=
  let created := ("COMPUTE_JOB_CREATED", some ComputeExecutionStatus.created.value)
  let submitted := created :: ComputeExecutionStatus.submitted.entries
  let running := submitted ++ ComputeExecutionStatus.running.entries
  let collecting := running ++ ComputeExecutionStatus.collecting.entries
  match j.executionStatus with
  | .created => [created]
  | .submitted => submitted
  | .pending => []
  | .running => running
  | .collecting => collecting
  | terminal => collecting ++ terminal.entries

/-- A row and the execution part of its log belong together. -/
structure ComputeJob.Recorded (j : ComputeJob) (l : List Entry) : Prop where
  log : (l.filter fun e => !Entry.isObservation e) = j.history
  version : j.lockVersion + 1 = l.length
  coherent : j.Coherent

/-- A transition is not about the observation. -/
lemma ComputeExecutionStatus.entries_execution (s : ComputeExecutionStatus) :
    (s.entries.filter fun e => !Entry.isObservation e) = s.entries := by
  cases s <;> decide

/-- A changed observation status is about nothing else. -/
lemma ComputeJob.seenEntries_observation (j : ComputeJob) (status : ObservationStatus) :
    ((j.seenEntries status).filter fun e => !Entry.isObservation e) = [] := by
  unfold seenEntries
  split
  · rfl
  · have observed : Entry.isObservation (observationEventType status, some status.value) = true :=
      observationEventType_observation status
    rw [List.filter_cons_of_neg (by rw [observed]; decide), List.filter_nil]

lemma ComputeJob.Recorded.first {j : ComputeJob} {l : List Entry} (begins : j.First l) :
    j.Recorded l := by
  obtain ⟨⟨a, task, rfl⟩, rfl⟩ := begins
  refine ⟨?_, rfl, a.row_coherent task⟩
  have execution : ([("COMPUTE_JOB_CREATED", some ComputeExecutionStatus.created.value)] :
      List Entry).filter (fun e => !Entry.isObservation e) =
        [("COMPUTE_JOB_CREATED", some ComputeExecutionStatus.created.value)] := by decide
  exact execution

/-- A step keeps a row and its log together. -/
lemma ComputeJob.Recorded.step {j j' : ComputeJob} {l l' : List Entry} (rc : j.Recorded l)
    (st : j.Step l' j') : j'.Recorded (l ++ l') := by
  have ch := rc.coherent.step st
  have version := rc.version
  -- the log of a transition into a state that is new to the job
  have moves : ∀ {j1 : ComputeJob} {s : ComputeExecutionStatus} {now : Datetime},
      j1.lockVersion = j.lockVersion → (j1.moved s now).history = j.history ++ s.entries →
      (j1.moved s now).Coherent → (j1.moved s now).Recorded (l ++ s.entries) := by
    intro j1 s now same word coherent
    refine ⟨?_, ?_, coherent⟩
    · rw [List.filter_append, rc.log, s.entries_execution, word]
    · rw [ComputeJob.moved_lockVersion, same, List.length_append, ← version]
      rfl
  cases st with
  | submitted created =>
    refine moves rfl ?_ ch
    simp [ComputeJob.history, created]
  | seen status =>
    refine ⟨?_, ?_, ch⟩
    · rw [List.filter_append, rc.log, j.seenEntries_observation, List.append_nil]
      simp only [ComputeJob.history, ComputeJob.seen_executionStatus]
    · rw [List.length_append, ← version]
      unfold ComputeJob.seen ComputeJob.seenEntries
      split <;> rfl
  | polled obs pollInterval =>
    rw [List.append_nil]
    exact ⟨rc.log, version, ch⟩
  | pollFailed now pollInterval =>
    rw [List.append_nil]
    exact ⟨rc.log, version, ch⟩
  | running early seen =>
    refine moves rfl ?_ ch
    rcases early with e | e
    · simp [ComputeJob.history, e]
    · exact (rc.coherent.inUse e).elim
  | collecting running terminal =>
    refine moves rfl ?_ ch
    simp [ComputeJob.history, running]
  | @finalised terminal now collecting holds =>
    obtain ⟨s, held, ends, _⟩ := rc.coherent.outcome (Or.inl collecting)
    cases held.symm.trans holds
    have differs : terminal ≠ j.executionStatus := by
      intro e
      rw [e, collecting] at ends
      cases ends
    rw [ComputeJob.stepped, if_neg differs] at ch ⊢
    rw [ComputeJob.stepEntries, if_neg differs]
    refine moves rfl ?_ ch
    revert ends
    cases terminal <;> simp [ComputeJob.history, collecting, ComputeExecutionStatus.isTerminal]

/-- What the log of a job says about its execution is the word that belongs to its status, and the
    rest of the log makes up its lock version. -/
theorem job_log {db : Db} {actions : List Action}
    (rn : (controller valid).run Db.empty actions = some db) {id : String} {j : ComputeJob}
    (hj : db.jobs.get id = some j) :
    (((db.entityEvents "COMPUTE_JOB" id).map Event.entry).filter
        fun e => !Entry.isObservation e) = j.history ∧
      j.lockVersion + 1 = (db.entityEvents "COMPUTE_JOB" id).length ∧
      j.executionStatus ≠ .pending := by
  have rc := (job_rows ComputeJob.Recorded.first ComputeJob.Recorded.step rn).row hj
  have version := rc.version
  simp only [Db.jobBook, List.length_map] at version
  exact ⟨rc.log, version, rc.coherent.inUse⟩

/-- The log of the job of the refused task: it was never seen running before it had ended. -/
theorem job_log_refused :
    ∃ db j, (controller fun _ => .ok sharedSpec).run Db.empty refusedTask = some db ∧
      db.jobs.get "j1" = some j ∧
      (((db.entityEvents "COMPUTE_JOB" "j1").map Event.entry).filter
          fun e => !Entry.isObservation e) =
        [("COMPUTE_JOB_CREATED", some "CREATED"), ("COMPUTE_JOB_SUBMITTED", some "SUBMITTED"),
          ("COMPUTE_JOB_STARTED", some "RUNNING"), ("COMPUTE_JOB_COLLECTING", some "COLLECTING"),
          ("COMPUTE_JOB_FAILED", some "FAILED")] := by
  obtain ⟨db, rn⟩ := Option.isSome_iff_exists.mp
    (show ((controller fun _ => .ok sharedSpec).run Db.empty refusedTask).isSome = true by decide)
  have ended : ((controller fun _ => .ok sharedSpec).run Db.empty refusedTask).map (fun db =>
      (db.jobs.get "j1").map (·.history)) = some (some
        [("COMPUTE_JOB_CREATED", some "CREATED"), ("COMPUTE_JOB_SUBMITTED", some "SUBMITTED"),
          ("COMPUTE_JOB_STARTED", some "RUNNING"), ("COMPUTE_JOB_COLLECTING", some "COLLECTING"),
          ("COMPUTE_JOB_FAILED", some "FAILED")]) := by decide
  rw [rn, Option.map_some, Option.some.injEq, Option.map_eq_some_iff] at ended
  obtain ⟨j, hj, word⟩ := ended
  exact ⟨db, j, rn, hj, (job_log rn hj).1.trans word⟩

end ResearchController
