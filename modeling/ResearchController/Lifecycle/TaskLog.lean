import ResearchController.Lifecycle.Attempts
import ResearchController.Services.Books

/-!
# The life of a task, row by row

What the controller may do to the row of a task, as a labelled step relation: `Task.Step t l t'`
says which columns change together and which entries are logged with them. Every transaction lets
the book of tasks grow by such steps, so what one step keeps of a row and its log holds of all rows
of every database that the controller can reach.

* `task_log`: the log of a task is a word that its status, its attempts and its verdict determine.
* `task_columns`: what the columns of one row say about each other.
-/

namespace ResearchController
open Lib

variable {valid : Json → Except PyErr ComputeTaskSpec}

/-- The entries of an expired lease: the failure, and the retry if attempts are left. -/
def Task.expiryEntries (t : Task) : List Entry :=
  ("TASK_LEASE_EXPIRED", some TaskStatus.failed.value) ::
    if (t.attemptCount : Int) < t.maxAttempts then [("TASK_RETRIED", some TaskStatus.ready.value)]
    else []

/-- What a transaction of the controller does to the row of a task, and what it logs. -/
inductive Task.Step : Task → List Entry → Task → Prop where
  | readied {t : Task} {now : Datetime} (pending : t.status = .pending) :
    Step t TaskStatus.ready.entries (t.moved .ready now)
  | unleased (t : Task) : Step t [] t.unleased
  | expired {t : Task} {now : Datetime} (running : t.status = .running) :
    Step t t.expiryEntries (t.expired now)
  | started {t : Task} {owner : String} {expiresAt now : Datetime} (ready : t.status = .ready) :
    Step t TaskStatus.running.entries ((t.leased owner expiresAt).moved .running now)
  | ended {t : Task} {now : Datetime} (running : t.status = .running) :
    Step t TaskStatus.verifying.entries (t.moved .verifying now)
  | settled {t : Task} {result : ValidationResult} {now : Datetime}
      (verifying : t.status = .verifying) (exact : result.passed = true ↔ result.reasons = []) :
    Step t (if result.passed then TaskStatus.succeeded else TaskStatus.failed).entries
      ((t.summarised result).moved (if result.passed then .succeeded else .failed) now)

/-- A task begins with the row of `create_task` and one entry. -/
def Task.First (t : Task) (l : List Entry) : Prop :=
  (∃ a : TaskArgs, t = a.row) ∧ l = [("TASK_CREATED", some TaskStatus.pending.value)]

/-- The book of tasks grows by steps. -/
def Db.TasksGrow (db db' : Db) : Prop :=
  db.taskBook.Grows Task.First Task.Step db'.taskBook

section Transactions

variable {db db' : Db}

lemma Db.TasksGrow.same (same : db'.taskBook = db.taskBook) : db.TasksGrow db' := by
  unfold TasksGrow
  rw [same]
  exact .refl _

lemma Db.TasksGrow.trans {db'' : Db} (gr : db.TasksGrow db') (gr' : db'.TasksGrow db'') :
    db.TasksGrow db'' :=
  Book.Grows.trans gr gr'

lemma Db.TasksGrow.write {id : String} {t t' : Task} {l : List Entry}
    (ht : db.tasks.get id = some t) (st : Task.Step t l t')
    (e : db'.taskBook = db.taskBook.write id t' l) : db.TasksGrow db' := by
  unfold TasksGrow
  rw [e]
  exact .write ht st

/-- Assigned columns and a transition are one write. -/
lemma Db.transitionTask_modified {id : String} {t : Task} (ht : db.tasks.get id = some t)
    {f : Task → Task} {toStatus : TaskStatus} {expectedStatus : Option TaskStatus}
    {eventType : Option String} {payload : JsonObject} {now : Datetime} (ty : String)
    (named : taskEventType eventType toStatus = some ty)
    (h : (db.modifyTask id f).transitionTask id toStatus expectedStatus eventType payload now =
      .ok db') :
    db'.taskBook = db.taskBook.write id ((f t).moved toStatus now) [(ty, some toStatus.value)] ∧
      db'.jobBook = db.jobBook := by
  obtain ⟨t1, ht1, _, tasks, jobs⟩ := transitionTask_book ty named h
  rw [modifyTask_of_get ht, Dict.get_set_self] at ht1
  cases ht1
  rw [tasks, jobs, modifyTask_book ht, modifyTask_jobBook, Book.write_write, List.nil_append]
  exact ⟨rfl, rfl⟩

lemma Db.createTask_grows {a : TaskArgs} {id : String} (h : db.createTask a = .ok (id, db')) :
    db.TasksGrow db' ∧ db'.jobBook = db.jobBook := by
  obtain ⟨rfl, _⟩ | ⟨p, _, fresh, hp, _, rfl⟩ := createTask_ok h
  · exact ⟨.same rfl, rfl⟩
  · refine ⟨?_, jobBook_other rfl rfl "TASK" rfl (by decide)⟩
    have entered : db.taskBook.Grows Task.First Task.Step _ :=
      .enter (l := [("TASK_CREATED", some TaskStatus.pending.value)]) fresh ⟨⟨a, rfl⟩, rfl⟩
    unfold TasksGrow
    convert entered using 1
    exact taskBook_write rfl rfl hp rfl

lemma Db.reconcileOne_grows {changedAt : Datetime} {s s' : List String × Db} {id : String}
    (h : Db.reconcileOne changedAt s id = .ok s') :
    s.2.TasksGrow s'.2 ∧ s'.2.jobBook = s.2.jobBook := by
  obtain rfl | ⟨t, ht, pending, _, tr, _⟩ := reconcileOne_ok h
  · exact ⟨.same rfl, rfl⟩
  · obtain ⟨t', ht', _, tasks, jobs⟩ := transitionTask_book "TASK_READY" rfl tr
    cases ht.symm.trans ht'
    exact ⟨.write ht (.readied pending) tasks, jobs⟩

lemma Db.recoverOne_grows {changedAt : Datetime} {s s' : List String × Db} {id : String}
    (h : Db.recoverOne changedAt s id = .ok s') :
    s.2.TasksGrow s'.2 ∧ s'.2.jobBook = s.2.jobBook := by
  unfold recoverOne at h
  split at h
  · cases h
  · rename_i t ht
    simp only at h
    split at h
    · rename_i stranded
      obtain ⟨db1, rt, e⟩ := bind_ok.mp h
      cases e
      obtain ⟨db2, tr, rt⟩ := bind_ok.mp rt
      obtain ⟨tasks2, jobs2⟩ := transitionTask_modified ht "TASK_LEASE_EXPIRED" rfl tr
      have stepped := @Task.Step.expired t changedAt stranded.1
      unfold Task.expired Task.expiryEntries at stepped
      split at rt
      · rename_i attempts
        obtain ⟨t3, ht3, _, tasks3, jobs3⟩ := transitionTask_book "TASK_RETRIED" rfl rt
        have ht2 : db2.taskBook.rows.get id = some (t.unleased.moved .failed changedAt) := by
          rw [tasks2]
          exact Dict.get_set_self _ _ _
        cases ht2.symm.trans ht3
        rw [if_pos attempts, if_pos attempts] at stepped
        refine ⟨.write ht stepped ?_, jobs3.trans jobs2⟩
        rw [tasks3, tasks2, Book.write_write]
        rfl
      · rename_i exhausted
        cases rt
        rw [if_neg exhausted, if_neg exhausted] at stepped
        exact ⟨.write ht stepped tasks2, jobs2⟩
    · cases h
      exact ⟨.write ht (.unleased t) (modifyTask_book ht _), modifyTask_jobBook _ _⟩

lemma Db.createComputeJob_taskBook {a : JobArgs} {id : String}
    (h : db.createComputeJob a = .ok (id, db')) : db'.taskBook = db.taskBook := by
  obtain ⟨rfl, _⟩ | ⟨task, p, _, _, _, _, _, hp, rfl⟩ := createComputeJob_ok h
  · rfl
  · exact taskBook_other rfl rfl "COMPUTE_JOB" rfl (by decide)

lemma Db.dispatchCommit_grows {a : JobArgs} {owner : String} {leaseExpiresAt now : Datetime}
    {jobIds : List String} (h : db.dispatchCommit a owner leaseExpiresAt now = .ok (jobIds, db')) :
    db.TasksGrow db' := by
  unfold dispatchCommit at h
  split at h
  · cases h
    exact .same rfl
  · rename_i task ht
    split at h
    · cases h
      exact .same rfl
    · rename_i ready
      obtain ⟨⟨jobId, db1⟩, cj, h⟩ := bind_ok.mp h
      obtain ⟨db2, tr, e⟩ := bind_ok.mp h
      cases e
      have same := createComputeJob_taskBook cj
      have ht1 : db1.tasks.get a.taskId = some task := by
        rw [show db1.tasks = db.tasks from congrArg Book.rows same]
        exact ht
      have written := (transitionTask_modified ht1 "TASK_STARTED" rfl tr).1
      rw [same] at written
      exact .write ht (.started (not_not.mp ready)) written

lemma Db.collectingCommit_grows {id : String} {now : Datetime} {jobIds : List String}
    (h : db.collectingCommit id now = .ok (jobIds, db')) : db.TasksGrow db' := by
  unfold collectingCommit at h
  split at h
  · cases h
    exact .same rfl
  · rename_i job hj
    split at h
    · cases h
      exact .same rfl
    · obtain ⟨terminal, _, h⟩ := bind_ok.mp h
      obtain ⟨db1, tr, h⟩ := bind_ok.mp h
      have same := (transitionComputeJob_book hj tr).2
      split at h
      · rename_i task ht
        split at h
        · rename_i running
          obtain ⟨db2, tr2, e⟩ := bind_ok.mp h
          cases e
          obtain ⟨t2, ht2, _, tasks, _⟩ := transitionTask_book "TASK_VERIFYING" rfl tr2
          cases ht.symm.trans ht2
          have ht0 : db.taskBook.rows.get job.taskId = some task := by
            rw [← same]
            exact ht
          rw [same] at tasks
          exact .write ht0 (.ended running) tasks
        · cases h
          exact .same same
      · cases h
        exact .same same

/-- The verdict of the validator and its reasons say the same. -/
lemma TaskValidator.validateComputeTask_exact {v : TaskValidator} {id : String} {t : Task}
    {result : ValidationResult} (h : v.validateComputeTask db id t = .ok (result, db')) :
    result.passed = true ↔ result.reasons = [] := by
  obtain ⟨spec, _, h⟩ := bind_ok.mp h
  split at h
  · cases h
    exact ⟨Bool.noConfusion, fun e => absurd e (List.cons_ne_nil _ _)⟩
  · obtain ⟨reasons, _, h⟩ := bind_ok.mp h
    split at h
    · cases h
      exact ⟨fun _ => rfl, fun _ => rfl⟩
    · rename_i found
      cases h
      exact ⟨Bool.noConfusion, fun e => absurd (List.isEmpty_iff.mpr e) found⟩

lemma TaskValidator.verifyOne_grows {v : TaskValidator} {changedAt : Datetime}
    {s s' : List String × Db} {id : String} (h : v.verifyOne changedAt s id = .ok s') :
    s.2.TasksGrow s'.2 ∧ s'.2.jobBook = s.2.jobBook := by
  unfold verifyOne at h
  split at h
  · cases h
  · rename_i t ht
    obtain ⟨⟨result, db1⟩, vc, h⟩ := bind_ok.mp h
    obtain ⟨db2, st, e⟩ := bind_ok.mp h
    cases e
    have exact_ := validateComputeTask_exact vc
    have same : db1.taskBook = s.2.taskBook ∧ db1.jobBook = s.2.jobBook := by
      obtain ⟨spec, _, ⟨_, rfl⟩ | ⟨_, rfl, _⟩⟩ := validateComputeTask_ok vc <;> exact ⟨rfl, rfl⟩
    have ht1 : db1.tasks.get id = some t := by
      rw [show db1.tasks = s.2.tasks from congrArg Book.rows same.1]
      exact ht
    have verifying : t.status = .verifying := by
      rw [Db.modifyTask_of_get ht1] at st
      obtain ⟨t', ht', verifying, _⟩ := Db.settle_ok st
      rw [Dict.get_set_self] at ht'
      cases ht'
      exact verifying
    have stepped := @Task.Step.settled t result changedAt verifying exact_
    unfold Db.settle at st
    split at st
    · rename_i passed
      obtain ⟨tasks, jobs⟩ :=
        Db.transitionTask_modified ht1 "TASK_SUCCEEDED" rfl st
      rw [if_pos passed] at stepped
      rw [same.1] at tasks
      exact ⟨.write ht stepped tasks, jobs.trans same.2⟩
    · rename_i refused
      obtain ⟨tasks, jobs⟩ := Db.transitionTask_modified ht1 "TASK_FAILED" rfl st
      rw [if_neg refused] at stepped
      rw [same.1] at tasks
      exact ⟨.write ht stepped tasks, jobs.trans same.2⟩

lemma Db.reconcileCreatedCommit_taskBook {id externalId : String} {now : Datetime}
    {jobIds : List String} (h : db.reconcileCreatedCommit id externalId now = .ok (jobIds, db')) :
    db'.taskBook = db.taskBook := by
  unfold reconcileCreatedCommit at h
  split at h
  · cases h
    rfl
  · rename_i job hj
    split at h
    · cases h
      rfl
    · obtain ⟨db1, tr, e⟩ := bind_ok.mp h
      cases e
      have hj1 := (SetsJob.modifyJob hj (·.identified externalId)).get
      exact (transitionComputeJob_book hj1 tr).2.trans (modifyJob_taskBook _ _)

lemma Db.pollErrorCommit_taskBook {id errorType : String} {pollInterval : Int} {now : Datetime}
    (h : db.pollErrorCommit id errorType pollInterval now = .ok db') :
    db'.taskBook = db.taskBook := by
  unfold pollErrorCommit at h
  split at h
  · cases h
    rfl
  · rename_i job hj
    obtain ⟨_, _, h⟩ := bind_ok.mp h
    obtain ⟨db1, up, e⟩ := bind_ok.mp h
    cases e
    exact (modifyJob_taskBook _ _).trans (updateObservationStatus_book hj up).2

lemma Db.recordObservation_taskBook {obs : JobObservation} {pollInterval : Int} {now : Datetime}
    (h : db.recordObservation obs pollInterval now = .ok db') : db'.taskBook = db.taskBook := by
  unfold recordObservation at h
  split at h
  · cases h
    rfl
  · rename_i job hj
    split at h
    · cases h
      rfl
    · obtain ⟨_, _, h⟩ := bind_ok.mp h
      obtain ⟨db1, up, h⟩ := bind_ok.mp h
      have st1 := updateObservationStatus_sets hj up
      have st2 := SetsJob.modifyJob st1.get (·.polled obs pollInterval)
      have same : (db1.modifyJob obs.computeJobId (·.polled obs pollInterval)).taskBook =
          db.taskBook :=
        (modifyJob_taskBook _ _).trans (updateObservationStatus_book hj up).2
      split at h
      · cases h
        exact same
      · split at h
        · split at h
          · exact (transitionComputeJob_book st2.get h).2.trans same
          · cases h
            exact same
        · split at h
          · obtain ⟨db3, tr, h⟩ := bind_ok.mp h
            have same3 : db3.taskBook = db.taskBook := by
              unfold fastCompletion at tr
              split at tr
              · exact (transitionComputeJob_book st2.get tr).2.trans same
              · cases tr
                exact same
            have st4 := SetsJob.modifyJob (fastCompletion_sets st2.get tr).get (·.decided obs)
            exact (transitionComputeJob_book st4.get h).2.trans
              ((modifyJob_taskBook _ _).trans same3)
          · cases h
            exact same

/-- Every action lets the book of tasks grow by steps of its rows. -/
theorem Db.act_tasksGrow (db : Db) (e : Action) : db.TasksGrow (db.act valid e) := by
  have unchanged : db.TasksGrow db := .same rfl
  have committed : ∀ {α : Type} {r : Except PyErr (α × Db)},
      (∀ a db', r = .ok (a, db') → db.TasksGrow db') → db.TasksGrow (db.commit r) :=
    Db.commit_keeps unchanged
  have committedUnit : ∀ {r : Except PyErr Db},
      (∀ db', r = .ok db' → db.TasksGrow db') → db.TasksGrow (db.commitUnit r) :=
    Db.commitUnit_keeps unchanged
  have visits : ∀ {f : List String × Db → String → Except PyErr (List String × Db)}
      {ids : List String} {s : List String × Db},
      (∀ {s id s'}, f s id = .ok s' → s.2.TasksGrow s'.2) →
      ids.foldlM f ([], db) = .ok s → db.TasksGrow s.2 := by
    intro f ids s one h
    exact foldlM_invariant (P := fun s : List String × Db => db.TasksGrow s.2)
      (fun s id s' _ grown st => grown.trans (one st)) h unchanged
  cases e with
  | createProject id slug lifecycle =>
    exact committed fun _ _ h => .same (createProject_books h).1
  | createTask a => exact committed fun _ _ h => (createTask_grows h).1
  | reconcile current changedAt candidates =>
    exact committed fun ids db' h => visits (fun st => (reconcileOne_grows st).1) h
  | recoverExpiredLeases current changedAt candidates =>
    exact committed fun ids db' h => visits (fun st => (recoverOne_grows st).1) h
  | dispatch a owner leaseExpiresAt now => exact committed fun _ _ h => dispatchCommit_grows h
  | submitted jobId externalId now =>
    exact committed fun _ _ h => .same (reconcileCreatedCommit_taskBook h)
  | observed obs pollInterval now =>
    exact committedUnit fun _ h => .same (recordObservation_taskBook h)
  | pollRaised jobId errorType pollInterval now =>
    exact committedUnit fun _ h => .same (pollErrorCommit_taskBook h)
  | ingested jobId candidate id digest uri sizeBytes =>
    simp only [Db.act]
    split
    · exact unchanged
    · exact committed fun _ _ h => .same (ingestRow_books h).1
  | finalised jobId now => exact committed fun _ _ h => collectingCommit_grows h
  | verified readFile loads frames changedAt candidates =>
    exact committed fun ids db' h =>
      visits (fun st => (TaskValidator.verifyOne_grows st).1) h

end Transactions

/-- The induction rule for the rows of tasks and their logs: what holds of a new task and is kept by
    every step holds of every task of every reachable database. -/
theorem task_rows {I : Task → List Entry → Prop} (first : ∀ {t l}, t.First l → I t l)
    (step : ∀ {t l t' l'}, I t l → t.Step l' t' → I t' (l ++ l')) {db : Db}
    {actions : List Action} (rn : (controller valid).run Db.empty actions = some db) :
    Book.Keeps I db.taskBook := by
  refine System.run_invariant (P := fun db : Db => Book.Keeps I db.taskBook) ?_ rn ?_
  · intro db e db' kp st
    obtain ⟨_, rfl⟩ := controller_step st
    exact Book.Grows.keeps first step (db.act_tasksGrow e) kp
  · refine ⟨?_, fun _ => rfl⟩
    intro id t ht
    cases ht

/-! ## The log of a task -/

/-- The log of attempts that were lost with an expired lease and retried. -/
def lostAttempts (n : Nat) : List Entry :=
  (List.replicate n (TaskStatus.running.entries ++
    [("TASK_LEASE_EXPIRED", some TaskStatus.failed.value),
      ("TASK_RETRIED", some TaskStatus.ready.value)])).flatten

lemma lostAttempts_succ (n : Nat) :
    lostAttempts (n + 1) = lostAttempts n ++ (TaskStatus.running.entries ++
      [("TASK_LEASE_EXPIRED", some TaskStatus.failed.value),
        ("TASK_RETRIED", some TaskStatus.ready.value)]) := by
  unfold lostAttempts
  rw [List.replicate_succ', List.flatten_append]
  simp only [List.flatten_cons, List.flatten_nil, List.append_nil]

/-- The log of a task up to its attempt with the given number. -/
def historyTo (attempt : Nat) : List Entry :=
  ("TASK_CREATED", some TaskStatus.pending.value) ::
    (TaskStatus.ready.entries ++ lostAttempts (attempt - 1) ++ TaskStatus.running.entries)

/-- The log that belongs to a row, read off its status, its attempts and its verdict. -/
def Task.history (t : Task) : List Entry :=
  match t.status with
  | .pending => [("TASK_CREATED", some TaskStatus.pending.value)]
  | .ready =>
    ("TASK_CREATED", some TaskStatus.pending.value) ::
      (TaskStatus.ready.entries ++ lostAttempts t.attemptCount)
  | .running => historyTo t.attemptCount
  | .verifying => historyTo t.attemptCount ++ TaskStatus.verifying.entries
  | .succeeded =>
    historyTo t.attemptCount ++ TaskStatus.verifying.entries ++ TaskStatus.succeeded.entries
  | .failed =>
    if t.validationPassed = none then
      -- the last attempt was lost as well, and the budget is spent
      historyTo t.attemptCount ++ [("TASK_LEASE_EXPIRED", some TaskStatus.failed.value)]
    else
      historyTo t.attemptCount ++ TaskStatus.verifying.entries ++ TaskStatus.failed.entries
  | _ => []

/-- The states that the controller leads tasks through. -/
def TaskStatus.inUse : TaskStatus → Bool
  | .blocked | .cancelled | .skipped => false
  | _ => true

/-- The states of a task that has been started. -/
def TaskStatus.attempted : TaskStatus → Bool
  | .running | .verifying | .succeeded | .failed => true
  | _ => false

/-- A row and its log belong together. -/
structure Task.Recorded (t : Task) (l : List Entry) : Prop where
  log : l = t.history
  version : t.lockVersion + 1 = l.length
  inUse : t.status.inUse = true
  waiting : t.status = .pending → t.attemptCount = 0
  attempted : t.status.attempted = true → 0 < t.attemptCount
  open_ : t.validationPassed ≠ none → t.status = .succeeded ∨ t.status = .failed

lemma Task.Recorded.first {t : Task} {l : List Entry} (begins : t.First l) : t.Recorded l := by
  obtain ⟨⟨a, rfl⟩, rfl⟩ := begins
  exact ⟨rfl, rfl, rfl, fun _ => rfl, Bool.noConfusion, fun decided => (decided rfl).elim⟩

/-- A step keeps a row and its log together. -/
lemma Task.Recorded.step {t t' : Task} {l l' : List Entry} (rc : t.Recorded l)
    (st : t.Step l' t') : t'.Recorded (l ++ l') := by
  have log := rc.log
  have version := rc.version
  have undecided : t.status ≠ .succeeded → t.status ≠ .failed → t.validationPassed = none := by
    intro ns nf
    by_contra decided
    exact (rc.open_ decided).elim ns nf
  cases st with
  | readied pending =>
    have none_ := undecided (by rw [pending]; decide) (by rw [pending]; decide)
    have zero := rc.waiting pending
    refine ⟨?_, ?_, rfl, ?_, ?_, ?_⟩
    · simp [log, Task.history, Task.moved, pending, zero, lostAttempts]
    · simp [← version, TaskStatus.entries]
    · simp [Task.moved]
    · simp [Task.moved, TaskStatus.attempted]
    · simp [Task.moved, none_]
  | unleased =>
    rw [List.append_nil]
    exact ⟨log, version, rc.inUse, rc.waiting, rc.attempted, rc.open_⟩
  | expired running =>
    have none_ := undecided (by rw [running]; decide) (by rw [running]; decide)
    have some_ := rc.attempted (by rw [running]; rfl)
    obtain ⟨n, count⟩ := Nat.exists_eq_add_one_of_ne_zero some_.ne'
    unfold Task.expired Task.expiryEntries
    split
    · refine ⟨?_, ?_, rfl, ?_, ?_, ?_⟩
      · simp [log, Task.history, historyTo, Task.moved, Task.unleased, running, count,
          lostAttempts_succ]
      · simp [← version, Task.unleased]
      · simp [Task.moved]
      · simp [Task.moved, TaskStatus.attempted]
      · simp [Task.moved, Task.unleased, none_]
    · refine ⟨?_, ?_, rfl, ?_, ?_, ?_⟩
      · simp [log, Task.history, historyTo, Task.moved, Task.unleased, running, none_]
      · simp [← version, Task.unleased]
      · simp [Task.moved]
      · simp [Task.moved, Task.unleased, some_]
      · simp [Task.moved]
  | started ready =>
    have none_ := undecided (by rw [ready]; decide) (by rw [ready]; decide)
    refine ⟨?_, ?_, rfl, ?_, ?_, ?_⟩
    · simp [log, Task.history, historyTo, Task.moved, Task.leased, ready]
    · simp [← version, TaskStatus.entries, Task.leased]
    · simp [Task.moved]
    · simp [Task.moved]
    · simp [Task.moved, Task.leased, none_]
  | ended running =>
    have none_ := undecided (by rw [running]; decide) (by rw [running]; decide)
    have some_ := rc.attempted (by rw [running]; rfl)
    refine ⟨?_, ?_, rfl, ?_, ?_, ?_⟩
    · simp [log, Task.history, Task.moved, running]
    · simp [← version, TaskStatus.entries]
    · simp [Task.moved]
    · simp [Task.moved, some_]
    · simp [Task.moved, none_]
  | @settled result now verifying exact_ =>
    have some_ := rc.attempted (by rw [verifying]; rfl)
    cases passed : result.passed with
    | true =>
      refine ⟨?_, ?_, rfl, ?_, ?_, ?_⟩
      · simp [log, Task.history, Task.moved, Task.summarised, verifying]
      · simp [← version, TaskStatus.entries, Task.summarised]
      · simp [Task.moved]
      · simp [Task.moved, Task.summarised, some_]
      · simp [Task.moved]
    | false =>
      refine ⟨?_, ?_, rfl, ?_, ?_, ?_⟩
      · simp [log, Task.history, Task.moved, Task.summarised, verifying]
      · simp [← version, TaskStatus.entries, Task.summarised]
      · simp [Task.moved]
      · simp [Task.moved, Task.summarised, some_]
      · simp [Task.moved]

/-- Every reachable task is within its budget. -/
lemma controller_inBudget {db : Db} {actions : List Action}
    (rn : (controller valid).run Db.empty actions = some db) {id : String} {t : Task}
    (ht : db.tasks.get id = some t) : t.InBudget := by
  refine moves_invariant (P := fun r : Rows => ∀ id t, r.tasks.get id = some t → t.InBudget)
    (fun r r' each mv => mv.inBudget each) (controller_refines rn) ?_ id t ht
  intro id t ht
  cases ht

lemma lostAttempts_length (n : Nat) : (lostAttempts n).length = 3 * n := by
  induction n with
  | zero => rfl
  | succ n ih =>
    rw [lostAttempts_succ, List.length_append, ih]
    rfl

lemma historyTo_length {attempt : Nat} (started : 0 < attempt) :
    (historyTo attempt).length = 3 * attempt := by
  simp only [historyTo, List.length_cons, List.length_append, lostAttempts_length,
    TaskStatus.entries, List.length_nil]
  omega

/-- Two entries at the start and at most three an attempt. -/
lemma Task.Recorded.length_le {t : Task} {l : List Entry} (rc : t.Recorded l) (ib : t.InBudget) :
    (l.length : Int) ≤ 3 * t.budget + 2 := by
  have least : 1 ≤ t.budget := le_max_left 1 t.maxAttempts
  have spent := ib.spent
  have word : ∀ {s : TaskStatus}, t.status = s → s.attempted = true →
      (historyTo t.attemptCount).length = 3 * t.attemptCount := by
    intro s e started
    exact historyTo_length (rc.attempted (e ▸ started))
  rw [rc.log]
  unfold Task.history
  split
  · simp only [List.length_singleton]
    omega
  · simp only [List.length_cons, List.length_append, lostAttempts_length, TaskStatus.entries,
      List.length_nil]
    omega
  · rename_i running
    rw [word running rfl]
    omega
  · rename_i verifying
    rw [List.length_append, word verifying rfl]
    simp only [TaskStatus.entries, List.length_singleton]
    omega
  · rename_i succeeded
    rw [List.length_append, List.length_append, word succeeded rfl]
    simp only [TaskStatus.entries, List.length_singleton]
    omega
  · rename_i failed
    split
    · rw [List.length_append, word failed rfl]
      simp only [List.length_singleton]
      omega
    · rw [List.length_append, List.length_append, word failed rfl]
      simp only [TaskStatus.entries, List.length_singleton]
      omega
  · simp only [List.length_nil]
    omega

/-- The audit log of a task is the word that its status, attempts and verdict determine, as long as
    its lock version says, and no longer than the budget of its attempts allows. -/
theorem task_log {db : Db} {actions : List Action}
    (rn : (controller valid).run Db.empty actions = some db) {id : String} {t : Task}
    (ht : db.tasks.get id = some t) :
    (db.entityEvents "TASK" id).map Event.entry = t.history ∧
      t.lockVersion + 1 = (db.entityEvents "TASK" id).length ∧
      ((db.entityEvents "TASK" id).length : Int) ≤ 3 * max 1 t.maxAttempts + 2 ∧
      t.status.inUse = true := by
  have rc := (task_rows Task.Recorded.first Task.Recorded.step rn).row ht
  have version := rc.version
  have short := rc.length_le (controller_inBudget rn ht)
  simp only [Db.taskBook, List.length_map] at version short
  exact ⟨rc.log, version, short, rc.inUse⟩

/-- The log of a task whose first attempt was lost and whose second one runs. -/
theorem task_log_retried :
    ∃ db t, (controller fun _ => .ok sharedSpec).run Db.empty retriedTask = some db ∧
      db.tasks.get "t" = some t ∧ t.attemptCount = 2 ∧
      (db.entityEvents "TASK" "t").map Event.entry =
        [("TASK_CREATED", some "PENDING"), ("TASK_READY", some "READY"),
          ("TASK_STARTED", some "RUNNING"), ("TASK_LEASE_EXPIRED", some "FAILED"),
          ("TASK_RETRIED", some "READY"), ("TASK_STARTED", some "RUNNING")] := by
  obtain ⟨db, rn⟩ := Option.isSome_iff_exists.mp
    (show ((controller fun _ => .ok sharedSpec).run Db.empty retriedTask).isSome = true by decide)
  have twice : ((controller fun _ => .ok sharedSpec).run Db.empty retriedTask).map (fun db =>
      (db.tasks.get "t").map fun t => (t.attemptCount, t.history)) = some (some (2,
        [("TASK_CREATED", some "PENDING"), ("TASK_READY", some "READY"),
          ("TASK_STARTED", some "RUNNING"), ("TASK_LEASE_EXPIRED", some "FAILED"),
          ("TASK_RETRIED", some "READY"), ("TASK_STARTED", some "RUNNING")])) := by decide
  rw [rn, Option.map_some, Option.some.injEq, Option.map_eq_some_iff] at twice
  obtain ⟨t, ht, e⟩ := twice
  rw [Prod.mk.injEq] at e
  exact ⟨db, t, rn, ht, e.1, (task_log rn ht).1.trans e.2⟩

/-! ## The columns of a task -/

/-- What the columns of a task say about each other. -/
structure Task.Coherent (t : Task) : Prop where
  passed : t.validationPassed = some true ↔ t.status = .succeeded
  refused : t.validationPassed = some false → t.status = .failed
  reasons : t.validationPassed = some false ↔ t.validationReasons ≠ []
  summary : t.errorSummary =
    if t.validationPassed = some false then some ("; ".intercalate t.validationReasons) else none
  lease : t.leaseOwner.isSome = t.leaseExpiresAt.isSome
  held : t.leaseOwner.isSome = true → t.status = .running ∨ t.status = .verifying
  started : t.startedAt.isSome = decide (0 < t.attemptCount)
  finished : t.status = .succeeded ∨ t.status = .failed → t.finishedAt.isSome = true

lemma TaskArgs.row_coherent (a : TaskArgs) : a.row.Coherent := by
  constructor <;> simp [TaskArgs.row]

/-- A step keeps the columns in agreement. -/
lemma Task.Coherent.step {t t' : Task} {l : List Entry} (ch : t.Coherent) (st : t.Step l t') :
    t'.Coherent := by
  obtain ⟨passed, refused, reasons, summary, lease, held, started, finished⟩ := ch
  have undecided : t.status ≠ .succeeded → t.status ≠ .failed → t.validationPassed = none := by
    intro ns nf
    rcases h : t.validationPassed with _ | _ | _
    · rfl
    · exact (nf (refused h)).elim
    · exact (ns (passed.mp h)).elim
  cases st with
  | readied pending =>
    have none_ := undecided (by rw [pending]; decide) (by rw [pending]; decide)
    have free : t.leaseOwner = none := by
      rw [← Option.not_isSome_iff_eq_none]
      intro h
      rcases held h with e | e <;> simp [pending] at e
    constructor <;> simp_all [Task.moved]
  | unleased =>
    exact ⟨passed, refused, reasons, summary, rfl, Bool.noConfusion, started, finished⟩
  | expired running =>
    have none_ := undecided (by rw [running]; decide) (by rw [running]; decide)
    unfold Task.expired
    split <;> constructor <;> simp_all [Task.moved, Task.unleased]
  | started ready =>
    have none_ := undecided (by rw [ready]; decide) (by rw [ready]; decide)
    constructor <;> simp_all [Task.moved, Task.leased]
  | ended running =>
    have none_ := undecided (by rw [running]; decide) (by rw [running]; decide)
    constructor <;> simp_all [Task.moved]
  | @settled result now verifying exact_ =>
    have none_ := undecided (by rw [verifying]; decide) (by rw [verifying]; decide)
    cases verdict : result.passed with
    | true => constructor <;> simp_all [Task.moved, Task.summarised]
    | false => constructor <;> simp_all [Task.moved, Task.summarised]

/-- In every reachable database the columns of a task agree: the verdict with the status, the
    reasons and the summary, the two columns of the lease with each other and with a running or
    verified task, and the times with the attempts. -/
theorem task_columns {db : Db} {actions : List Action}
    (rn : (controller valid).run Db.empty actions = some db) {id : String} {t : Task}
    (ht : db.tasks.get id = some t) :
    (t.validationPassed = some true ↔ t.status = .succeeded) ∧
      (t.validationPassed = some false → t.status = .failed) ∧
      (t.validationPassed = some false ↔ t.validationReasons ≠ []) ∧
      (t.errorSummary = if t.validationPassed = some false then
          some ("; ".intercalate t.validationReasons) else none) ∧
      t.leaseOwner.isSome = t.leaseExpiresAt.isSome ∧
      (t.leaseOwner.isSome = true → t.status = .running ∨ t.status = .verifying) ∧
      t.startedAt.isSome = decide (0 < t.attemptCount) ∧
      (t.status = .succeeded ∨ t.status = .failed → t.finishedAt.isSome = true) := by
  have first : ∀ {t : Task} {l : List Entry}, t.First l → t.Coherent := by
    rintro t l ⟨⟨a, rfl⟩, _⟩
    exact a.row_coherent
  have ch := (task_rows (I := fun t _ => t.Coherent) first (fun ch st => ch.step st) rn).row ht
  exact ⟨ch.passed, ch.refused, ch.reasons, ch.summary, ch.lease, ch.held, ch.started,
    ch.finished⟩

/-- A job of the shared dispatch fails and leaves no outputs. -/
def refusedTask : List Action :=
  sharedDispatch ++
  [ .submitted "j1" "x" 1,
    .observed { computeJobId := "j1", observedAt := 2, observationStatus := .fresh,
                executionStatus := .failed, exitCode := some 1 } 1 2,
    .finalised "j1" 3,
    .verified (fun _ => .bytes []) (fun _ => .error (.jsonDecodeError "")) 0 4 ["t1"] ]

/-- Its task is refused, with reasons, and gives up its lease. -/
theorem task_columns_refused :
    ∃ db t, (controller fun _ => .ok sharedSpec).run Db.empty refusedTask = some db ∧
      db.tasks.get "t1" = some t ∧ t.validationPassed = some false ∧ t.status = .failed ∧
      t.validationReasons ≠ [] ∧ t.finishedAt.isSome = true ∧ t.leaseOwner.isSome = false := by
  obtain ⟨db, rn⟩ := Option.isSome_iff_exists.mp
    (show ((controller fun _ => .ok sharedSpec).run Db.empty refusedTask).isSome = true by decide)
  have verdict : ((controller fun _ => .ok sharedSpec).run Db.empty refusedTask).map (fun db =>
      (db.tasks.get "t1").map (·.validationPassed)) = some (some (some false)) := by decide
  rw [rn, Option.map_some, Option.some.injEq, Option.map_eq_some_iff] at verdict
  obtain ⟨t, ht, refused⟩ := verdict
  obtain ⟨_, failed, reasons, _, _, held, _, finished⟩ := task_columns rn ht
  refine ⟨db, t, rn, ht, refused, failed refused, reasons.mp refused,
    finished (Or.inr (failed refused)), ?_⟩
  rw [← Bool.not_eq_true]
  intro leased
  rcases held leased with e | e <;> simp [failed refused] at e

end ResearchController
