import ResearchController.Lib.Totals
import ResearchController.Lifecycle.JobLog

/-!
# How often the lifecycle can change

Transactions may come in any order and controllers may crash between any two of them, so a run can
be arbitrarily long: polls, expired leases and refused dispatches repeat for ever. What they cannot
do is go round in circles. The log of a task is a word of at most two entries and three for each
attempt, the execution part of the log of a job has at most five entries, and there are no more jobs
than attempts. As every change of a status is logged, `changes_bounded` bounds the changes of all
statuses in every run by the budgets of the tasks alone.
-/

namespace ResearchController
open Lib

variable {valid : Json → Except PyErr ComputeTaskSpec}

/-- Whether a task or a job is new or has another status than before. -/
def Db.changed (db db' : Db) : Bool :=
  (db'.tasks.any fun id t => decide ((db.tasks.get id).map Task.status ≠ some t.status)) ||
    db'.jobs.any fun id j =>
      decide ((db.jobs.get id).map ComputeJob.executionStatus ≠ some j.executionStatus)

/-- The length of all logs, without the entries about observations. -/
def Db.logLength (db : Db) : ℕ :=
  (db.tasks.total fun t => t.history.length) + db.jobs.total fun j => j.history.length

/-! ## The log tells the status -/

/-- The log of a task ends with its status. -/
lemma Task.history_last {t : Task} (inUse : t.status.inUse = true) :
    t.history.getLast?.map Prod.snd = some (some t.status.value) := by
  have retries : ∀ n, (("TASK_CREATED", some TaskStatus.pending.value) ::
      (TaskStatus.ready.entries ++ lostAttempts n)).getLast?.map Prod.snd =
        some (some TaskStatus.ready.value) := by
    intro n
    cases n with
    | zero => rfl
    | succ n =>
      rw [lostAttempts_succ, ← List.append_assoc, ← List.append_assoc, ← List.cons_append,
        List.getLast?_append]
      rfl
  unfold history
  split
  · rename_i s
    rw [s]
    rfl
  · rename_i s
    rw [s]
    exact retries _
  · rename_i s
    rw [s]
    simp [historyTo, TaskStatus.entries, List.getLast?_append, List.getLast?_cons]
  · rename_i s
    rw [s]
    simp [TaskStatus.entries, List.getLast?_append]
  · rename_i s
    rw [s]
    simp [TaskStatus.entries, List.getLast?_append]
  · rename_i s
    rw [s]
    split <;> simp [TaskStatus.entries, List.getLast?_append]
  · rename_i p r v ru su fa
    revert inUse p r v ru su fa
    cases t.status <;> simp [TaskStatus.inUse]

/-- The execution part of the log of a job ends with its status. -/
lemma ComputeJob.history_last {j : ComputeJob} (inUse : j.executionStatus ≠ .pending) :
    j.history.getLast?.map Prod.snd = some (some j.executionStatus.value) := by
  revert inUse
  unfold history
  cases j.executionStatus <;> decide

lemma ComputeJob.history_length_le (j : ComputeJob) : j.history.length ≤ 5 := by
  unfold history
  cases j.executionStatus <;> decide

/-- A row that belongs to a longer log has another status only if the log is longer indeed. -/
lemma Task.Recorded.longer {t t' : Task} {l l' : List Entry} (rc : t.Recorded l)
    (rc' : t'.Recorded (l ++ l')) :
    t.history.length ≤ t'.history.length ∧
      (t.status ≠ t'.status → t.history.length < t'.history.length) := by
  have grown : t'.history = t.history ++ l' := by rw [← rc'.log, ← rc.log]
  constructor
  · rw [grown, List.length_append]
    exact Nat.le_add_right _ _
  · intro differs
    rw [grown, List.length_append]
    apply Nat.lt_add_of_pos_right
    rw [List.length_pos_iff]
    rintro rfl
    rw [List.append_nil] at grown
    have last := Task.history_last rc.inUse
    rw [← grown, Task.history_last rc'.inUse] at last
    exact differs (TaskStatus.value_injective (Option.some.inj (Option.some.inj last))).symm

lemma ComputeJob.Recorded.longer {j j' : ComputeJob} {l l' : List Entry} (rc : j.Recorded l)
    (rc' : j'.Recorded (l ++ l')) :
    j.history.length ≤ j'.history.length ∧
      (j.executionStatus ≠ j'.executionStatus → j.history.length < j'.history.length) := by
  have grown : j'.history = j.history ++ l'.filter fun e => !Entry.isObservation e := by
    rw [← rc'.log, ← rc.log, List.filter_append]
  constructor
  · rw [grown, List.length_append]
    exact Nat.le_add_right _ _
  · intro differs
    rw [grown, List.length_append]
    apply Nat.lt_add_of_pos_right
    rw [List.length_pos_iff]
    intro e
    rw [e, List.append_nil] at grown
    have last := ComputeJob.history_last rc.coherent.inUse
    rw [← grown, ComputeJob.history_last rc'.coherent.inUse] at last
    have same := congrArg ComputeExecutionStatus.ofValue?
      (Option.some.inj (Option.some.inj last))
    rw [ComputeExecutionStatus.ofValue?_value, ComputeExecutionStatus.ofValue?_value] at same
    exact differs (Option.some.inj same).symm

/-- Every row belongs to its log. -/
structure Db.Recorded (db : Db) : Prop where
  tasks : Book.Keeps Task.Recorded db.taskBook
  jobs : Book.Keeps ComputeJob.Recorded db.jobBook

lemma Db.Recorded.empty : Db.empty.Recorded := by
  refine ⟨⟨?_, fun _ => rfl⟩, ⟨?_, fun _ => rfl⟩⟩
  · intro id t ht
    cases ht
  · intro id j hj
    cases hj

lemma Db.Recorded.act {db : Db} (rc : db.Recorded) (e : Action) : (db.act valid e).Recorded :=
  ⟨Book.Grows.keeps Task.Recorded.first Task.Recorded.step (db.act_tasksGrow e) rc.tasks,
    Book.Grows.keeps ComputeJob.Recorded.first ComputeJob.Recorded.step (db.act_jobsGrow e)
      rc.jobs⟩

/-- A log has an entry. -/
lemma Task.Recorded.length_pos {t : Task} {l : List Entry} (rc : t.Recorded l) :
    0 < t.history.length := by
  rw [← rc.log, ← rc.version]
  exact Nat.succ_pos _

lemma ComputeJob.Recorded.length_pos {j : ComputeJob} {l : List Entry} (rc : j.Recorded l) :
    0 < j.history.length := by
  have inUse := rc.coherent.inUse
  revert inUse
  unfold ComputeJob.history
  cases j.executionStatus <;> decide

/-- An action that changes a status makes a log longer. -/
lemma Db.Recorded.act_logLength {db : Db} (rc : db.Recorded) (e : Action) :
    db.logLength + (db.changed (db.act valid e)).toNat ≤ (db.act valid e).logLength := by
  have rc' : (db.act valid e).Recorded := rc.act e
  obtain ⟨tasks, newTask⟩ := Book.Grows.total (db.act_tasksGrow e) rc.tasks rc'.tasks
    Task.Recorded.length_pos Task.Recorded.longer
  obtain ⟨jobs, newJob⟩ := Book.Grows.total (db.act_jobsGrow e) rc.jobs rc'.jobs
    ComputeJob.Recorded.length_pos ComputeJob.Recorded.longer
  unfold logLength
  cases changed : db.changed (db.act valid e) with
  | false =>
    exact (Nat.add_zero _).le.trans (Nat.add_le_add tasks jobs)
  | true =>
    simp only [Db.changed, Bool.or_eq_true, Dict.any_iff, decide_eq_true_eq] at changed
    rcases changed with ⟨id, t', ht', differs⟩ | ⟨id, j', hj', differs⟩
    · exact Nat.succ_le_of_lt (Nat.add_lt_add_of_lt_of_le (newTask ht' differs) jobs)
    · exact Nat.succ_le_of_lt (Nat.add_lt_add_of_le_of_lt tasks (newJob hj' differs))

/-! ## Jobs are attempts -/

/-- Every job is an attempt that its task has counted. -/
structure Counted (tasks : Dict String Task) (jobs : Dict String ComputeJob) : Prop where
  attempt : ∀ {k j}, jobs.get k = some j →
    ∃ t, tasks.get j.taskId = some t ∧ 0 < j.attemptNo ∧ j.attemptNo ≤ t.attemptCount

section Counted

variable {tasks : Dict String Task} {jobs : Dict String ComputeJob}

/-- A task row may be replaced by one that has counted as many attempts. -/
lemma Counted.setTask (ct : Counted tasks jobs) {id : String} {t : Task}
    (counted : ∀ t0, tasks.get id = some t0 → t0.attemptCount ≤ t.attemptCount) :
    Counted (tasks.set id t) jobs := by
  constructor
  intro k j hj
  obtain ⟨t0, ht0, pos, le⟩ := ct.attempt hj
  by_cases own : j.taskId = id
  · subst own
    exact ⟨t, Dict.get_set_self _ _ _, pos, le.trans (counted t0 ht0)⟩
  · exact ⟨t0, by rw [Dict.get_set_ne _ _ own]; exact ht0, pos, le⟩

/-- A row of a stored task may be replaced by one that has counted as many attempts. -/
lemma Counted.setStored (ct : Counted tasks jobs) {id : String} {t t' : Task}
    (ht : tasks.get id = some t) (counted : t.attemptCount ≤ t'.attemptCount) :
    Counted (tasks.set id t') jobs := by
  refine ct.setTask fun t0 ht0 => ?_
  cases ht.symm.trans ht0
  exact counted

/-- A job row may be replaced by one of the same attempt. -/
lemma Counted.setJob (ct : Counted tasks jobs) {k : String} {j j' : ComputeJob}
    (hj : jobs.get k = some j) (task : j'.taskId = j.taskId) (no : j'.attemptNo = j.attemptNo) :
    Counted tasks (jobs.set k j') := by
  constructor
  intro i x hx
  rw [Dict.get_set] at hx
  split at hx
  · cases hx
    rw [task, no]
    exact ct.attempt hj
  · exact ct.attempt hx

lemma Task.le_moved_attemptCount (t : Task) (s : TaskStatus) (now : Datetime) :
    t.attemptCount ≤ (t.moved s now).attemptCount := by
  rw [moved_attemptCount]
  exact Nat.le_add_right _ _

/-- Every move keeps the jobs among the attempts. -/
theorem Move.counted {r r' : Rows} (mv : Move valid r r') (ct : Counted r.tasks r.jobs) :
    Counted r'.tasks r'.jobs := by
  cases mv with
  | created fresh _ => exact ct.setTask fun t0 ht0 => by cases fresh.symm.trans ht0
  | @readied id t now stored _ _ => exact ct.setStored stored (t.le_moved_attemptCount _ _)
  | @unleased id t stored _ => exact ct.setStored stored (le_refl t.attemptCount)
  | @expired id t now stored _ _ =>
    refine ct.setStored stored ?_
    have failed := t.unleased.le_moved_attemptCount .failed now
    unfold Task.expired
    split
    · exact failed.trans (Task.le_moved_attemptCount _ _ _)
    · exact failed
  | @joined id owner t expiresAt now stored _ =>
    exact ct.setStored stored ((t.leased owner expiresAt).le_moved_attemptCount _ _)
  | @dispatched a owner t expiresAt now stored _ _ _ =>
    constructor
    intro k j hj
    rw [Dict.get_set] at hj
    split at hj
    · cases hj
      refine ⟨_, Dict.get_set_self _ _ _, Nat.succ_pos _, ?_⟩
      rw [Task.moved_attemptCount, if_pos rfl]
      exact le_refl _
    · have kept := ct.setStored stored ((t.leased owner expiresAt).le_moved_attemptCount .running
        now)
      exact kept.attempt hj
  | advanced stored adv => exact ct.setJob stored adv.taskId adv.attemptNo
  | @finalised k j t terminal now stored _ _ owner _ =>
    have same := j.sameWork_stepped terminal now
    exact (ct.setStored owner (t.le_moved_attemptCount _ _)).setJob stored same.taskId
      same.attemptNo
  | @orphaned k j terminal now stored _ _ _ =>
    have same := j.sameWork_stepped terminal now
    exact ct.setJob stored same.taskId same.attemptNo
  | ingested _ _ => exact ct
  | @passed id k t spec job result now stored _ _ _ =>
    exact ct.setStored stored ((t.summarised result).le_moved_attemptCount _ _)
  | @refused id t result now stored _ =>
    exact ct.setStored stored ((t.summarised result).le_moved_attemptCount _ _)

end Counted

/-- There are no more jobs than attempts. -/
lemma controller_jobs_le {db : Db} {actions : List Action}
    (rn : (controller valid).run Db.empty actions = some db) :
    db.jobs.items.length ≤ db.tasks.total fun t => t.attemptCount := by
  have ct : Counted db.tasks db.jobs := by
    refine moves_invariant (P := fun r : Rows => Counted r.tasks r.jobs)
      (fun r r' ct mv => mv.counted ct) (controller_refines rn) ⟨?_⟩
    intro k j hj
    cases hj
  obtain ⟨_, tr⟩ := controller_invariants rn
  have owned : ∀ {k j}, db.jobs.get k = some j →
      ∃ t, db.tasks.get j.taskId = some t ∧ j.attemptNo - 1 < t.attemptCount := by
    intro k j hj
    obtain ⟨t, ht, pos, le⟩ := ct.attempt hj
    exact ⟨t, ht, by omega⟩
  refine Dict.length_le_total owned fun {k k' j j'} hj hj' owner slot => ?_
  obtain ⟨_, _, pos, _⟩ := ct.attempt hj
  obtain ⟨_, _, pos', _⟩ := ct.attempt hj'
  exact tr.attempts hj hj' owner (by omega)

/-- In every run, whatever the order of the transactions, the statuses of all tasks and jobs change
    at most eight times for each attempt that the tasks may have, and twice more for each task. -/
theorem changes_bounded {db : Db} {actions : List Action}
    (rn : (controller valid).run Db.empty actions = some db) :
    (controller valid).changes Db.changed Db.empty actions ≤
      db.tasks.total fun t => 8 * (max 1 t.maxAttempts).toNat + 2 := by
  have step : ∀ s e s', s.Recorded → (controller valid).step s e = some s' →
      s'.Recorded ∧ s.logLength + (Db.changed s s').toNat ≤ s'.logLength := by
    intro s e s' rc st
    obtain ⟨_, rfl⟩ := controller_step st
    exact ⟨rc.act e, rc.act_logLength e⟩
  have logged := System.changes_le step rn Db.Recorded.empty
  have recorded : db.Recorded := System.run_invariant (fun s e s' rc st => (step s e s' rc st).1) rn
    Db.Recorded.empty
  have budget : ∀ {id t}, db.tasks.get id = some t →
      t.attemptCount ≤ (max 1 t.maxAttempts).toNat ∧
        t.history.length ≤ 3 * (max 1 t.maxAttempts).toNat + 2 := by
    intro id t ht
    have ib := controller_inBudget rn ht
    have rc := recorded.tasks.row ht
    have spent := ib.spent
    have short := rc.length_le ib
    rw [rc.log] at short
    unfold Task.budget at spent short
    omega
  calc (controller valid).changes Db.changed Db.empty actions
      ≤ db.logLength := by
        rwa [show Db.empty.logLength = 0 from rfl, Nat.zero_add] at logged
    _ ≤ (db.tasks.total fun t => 3 * (max 1 t.maxAttempts).toNat + 2) +
          db.jobs.total fun _ => 5 := by
        apply Nat.add_le_add
        · exact Dict.total_mono fun ht => (budget ht).2
        · exact Dict.total_mono fun _ => ComputeJob.history_length_le _
    _ ≤ (db.tasks.total fun t => 3 * (max 1 t.maxAttempts).toNat + 2) +
          db.tasks.total fun t => 5 * (max 1 t.maxAttempts).toNat := by
        apply Nat.add_le_add_left
        have jobs : (db.jobs.total fun _ => 5) = 5 * db.jobs.items.length := by
          simp only [Dict.total, List.map_const', List.sum_replicate, smul_eq_mul]
          exact Nat.mul_comm _ _
        rw [jobs, Dict.total_mul]
        apply Nat.mul_le_mul_left
        exact (controller_jobs_le rn).trans (Dict.total_mono fun ht => (budget ht).1)
    _ = db.tasks.total fun t => 8 * (max 1 t.maxAttempts).toNat + 2 := by
        rw [← Dict.total_add]
        congr 1
        funext t
        omega

/-- The run with a retried task changes something seven times; its two tasks may have three attempts
    together. -/
theorem changes_bounded_retried :
    ∃ db, (controller fun _ => .ok sharedSpec).run Db.empty retriedTask = some db ∧
      (controller fun _ => .ok sharedSpec).changes Db.changed Db.empty retriedTask = 7 ∧
      (db.tasks.total fun t => 8 * (max 1 t.maxAttempts).toNat + 2) = 28 ∧
      (controller fun _ => .ok sharedSpec).changes Db.changed Db.empty retriedTask ≤ 28 := by
  obtain ⟨db, rn⟩ := Option.isSome_iff_exists.mp
    (show ((controller fun _ => .ok sharedSpec).run Db.empty retriedTask).isSome = true by decide)
  have bound : ((controller fun _ => .ok sharedSpec).run Db.empty retriedTask).map (fun db =>
      db.tasks.total fun t => 8 * (max 1 t.maxAttempts).toNat + 2) = some 28 := by decide
  rw [rn, Option.map_some, Option.some.injEq] at bound
  have bounded := changes_bounded rn
  rw [bound] at bounded
  exact ⟨db, rn, by decide, bound, bounded⟩

end ResearchController
