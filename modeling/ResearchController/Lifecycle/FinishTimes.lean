import ResearchController.Lifecycle.Attempts

/-!
# Start and finish times

`transition_task` sets `started_at` with the first attempt and `finished_at` with each of the four
finishing states. Both columns agree with the rest of the row in every state of a run, with one
exception: the retry of `recover_expired_leases` takes a task from `FAILED` back to `READY`, and
nothing clears the time at which it had failed. `finish_times_iff` says that there is no other one.
-/

namespace ResearchController
open Lib

variable {valid : Json → Except PyErr ComputeTaskSpec}

/-- The four finishing states. -/
def TaskStatus.Finished (s : TaskStatus) : Prop :=
  s = .succeeded ∨ s = .failed ∨ s = .cancelled ∨ s = .skipped

instance : DecidablePred TaskStatus.Finished := fun _ => inferInstanceAs (Decidable (_ ∨ _))

/-- The two times of a task agree with its status and its attempts. -/
structure Task.Timed (t : Task) : Prop where
  finished : t.finishedAt ≠ none ↔ t.status.Finished
  started : t.startedAt ≠ none ↔ 0 < t.attemptCount

/-- The times of all tasks agree. -/
def Db.Timed (db : Db) : Prop :=
  ∀ id t, db.tasks.get id = some t → t.Timed

/-- No lease recovery retries a task: the running tasks without external work whose leases have
    expired have used up their attempts. -/
def Db.RetriesNone (db : Db) : Action → Prop
  | .recoverExpiredLeases current _ candidates =>
    candidates.Perm (db.expiredCandidates current) →
      ∀ id ∈ candidates, ∀ t, db.tasks.get id = some t → t.status = .running →
        db.hasExternalWork id = false → t.maxAttempts ≤ t.attemptCount
  | _ => True

/-! ## One row -/

lemma Task.moved_finishedAt (t : Task) (toStatus : TaskStatus) (now : Datetime) :
    (t.moved toStatus now).finishedAt =
      if toStatus.Finished then some now else t.finishedAt := by
  by_cases finishes : toStatus.Finished
  · rw [if_pos finishes]
    unfold TaskStatus.Finished at finishes
    simp only [moved, finishes, if_true]
  · rw [if_neg finishes]
    unfold TaskStatus.Finished at finishes
    simp only [moved, finishes, if_false]
    split <;> rfl

lemma Task.moved_startedAt (t : Task) (toStatus : TaskStatus) (now : Datetime) :
    (t.moved toStatus now).startedAt =
      if toStatus = .running then t.startedAt <|> some now else t.startedAt := by
  by_cases starts : toStatus = .running
  · simp [moved, starts]
  · simp only [moved, starts, if_false]
    split <;> rfl

/-- A move out of an unfinished state keeps the times right. -/
lemma Task.Timed.move {t : Task} (tm : t.Timed) (toStatus : TaskStatus) (now : Datetime)
    (unfinished : ¬ t.status.Finished) : (t.moved toStatus now).Timed := by
  have never : t.finishedAt = none := not_not.mp (mt tm.finished.mp unfinished)
  constructor
  · rw [moved_finishedAt, moved_status, never]
    by_cases finishes : toStatus.Finished
    · simp [finishes]
    · simp [finishes]
  · rw [moved_startedAt, moved_attemptCount]
    by_cases starts : toStatus = .running
    · cases t.startedAt with
      | none => simp [starts]
      | some s => simp [starts]
    · simp only [starts, if_false, Nat.add_zero]
      exact tm.started

/-- Columns that the times do not look at. -/
lemma Task.Timed.ofSame {t t' : Task} (tm : t.Timed) (status : t'.status = t.status)
    (count : t'.attemptCount = t.attemptCount) (finishedAt : t'.finishedAt = t.finishedAt)
    (startedAt : t'.startedAt = t.startedAt) : t'.Timed := by
  constructor
  · rw [finishedAt, status]
    exact tm.finished
  · rw [startedAt, count]
    exact tm.started

/-- A task whose lease has expired keeps its times right exactly if it is not retried. -/
lemma Task.Timed.expired_iff {t : Task} (tm : t.Timed) (running : t.status = .running)
    (now : Datetime) : (t.expired now).Timed ↔ t.maxAttempts ≤ t.attemptCount := by
  have same : t.unleased.Timed := tm.ofSame rfl rfl rfl rfl
  have failed : (t.unleased.moved .failed now).Timed := by
    apply same.move
    show ¬ t.status.Finished
    rw [running]
    decide
  unfold expired
  split
  · rename_i attempts
    refine iff_of_false (fun retried => ?_) (not_le.mpr attempts)
    -- the retried task still carries the time at which it failed
    have finished : ((t.unleased.moved .failed now).moved .ready now).status.Finished := by
      apply retried.finished.mp
      rw [moved_finishedAt, moved_finishedAt, if_neg (by decide), if_pos (by decide)]
      exact Option.some_ne_none now
    rw [moved_status] at finished
    revert finished
    decide
  · rename_i exhausted
    exact iff_of_true failed (not_lt.mp exhausted)

/-! ## Lease recovery -/

/-- Failing a running task and retrying it are legal. -/
lemma Db.Sound.retryOrFail_total {db : Db} (sd : db.Sound) {id : String} {t : Task}
    (ht : db.tasks.get id = some t.unleased) (running : t.status = .running)
    (changedAt : Datetime) : ∃ db', db.retryOrFail changedAt id t = .ok db' := by
  have running : t.unleased.status = .running := running
  have fails : TaskStatus.failed ∈ taskTransitions t.unleased.status := by
    rw [running]
    decide
  obtain ⟨db1, tr1⟩ := sd.transitionTask_total ht fails (expected_some running)
    (some "TASK_LEASE_EXPIRED") [("recovery", .str "retry_without_external_work")] changedAt
  refine bind_total tr1 ?_
  split
  · obtain ⟨t0, _, _, ht0, _, _, _, e⟩ := transitionTask_ok tr1
    have failed : (t0.moved .failed changedAt).status = .failed := t0.moved_status .failed changedAt
    have retries : TaskStatus.ready ∈ taskTransitions (t0.moved .failed changedAt).status := by
      rw [failed]
      decide
    have stored : db1.tasks.get id = some (t0.moved .failed changedAt) := by
      rw [e, logged_rows]
      exact Dict.get_set_self _ _ _
    exact (sd.transitionTask tr1).transitionTask_total stored retries (expected_some failed)
      (some "TASK_RETRIED") [] changedAt
  · exact ⟨db1, rfl⟩

/-- On a sound database no iteration of `recover_expired_leases` raises. -/
lemma Db.Sound.recoverOne_total {s : List String × Db} (sd : s.2.Sound) {id : String} {t : Task}
    (ht : s.2.tasks.get id = some t) (changedAt : Datetime) :
    ∃ s', Db.recoverOne changedAt s id = .ok s' := by
  simp only [Db.recoverOne, ht, modifyTask_of_get ht]
  split
  · rename_i stranded
    have sd1 : ({ s.2 with tasks := s.2.tasks.set id t.unleased } : Db).Sound := sd.setTask ht rfl
    obtain ⟨db2, rf⟩ := sd1.retryOrFail_total (Dict.get_set_self _ _ _) stranded.1 changedAt
    exact ⟨_, bind_ok.mpr ⟨db2, rf, rfl⟩⟩
  · exact ⟨_, rfl⟩

/-- The part of the database that an iteration of `recover_expired_leases` reads. -/
def SameLease (id : String) (s s' : List String × Db) : Prop :=
  s'.2.tasks.get id = s.2.tasks.get id ∧ s'.2.jobs = s.2.jobs

lemma recoverOne_isolated (changedAt : Datetime) :
    Isolated (Db.recoverOne changedAt) (fun s => s.2.Sound) SameLease where
  refl := fun _ _ => ⟨rfl, rfl⟩
  symm := fun same => ⟨same.1.symm, same.2.symm⟩
  trans := fun same same' => ⟨same'.1.trans same.1, same'.2.trans same.2⟩
  keeps := fun sd st => sd.recoverOne st
  frame := by
    intro s a s' b _ st ne
    obtain ⟨t, _, ⟨_, e⟩ | ⟨_, _, rows⟩⟩ := Db.recoverOne_ok st
    · rw [SameLease, e]
      exact ⟨Dict.get_set_ne _ _ ne, rfl⟩
    · rw [SameLease, rows]
      exact ⟨Dict.get_set_ne _ _ ne, rfl⟩
  own := by
    intro s u a _ sd same returns
    obtain ⟨s', st⟩ := returns
    obtain ⟨t, ht, _⟩ := Db.recoverOne_ok st
    exact sd.recoverOne_total (same.1.trans ht) changedAt

/-- The row of a task after its lease has been recovered. -/
def Db.recovered (db : Db) (changedAt : Datetime) (id : String) (t : Task) : Task :=
  if t.status = .running ∧ db.hasExternalWork id = false then t.expired changedAt else t.unleased

/-- What `recover_expired_leases` does to the tasks: each candidate is recovered in the row it had
    before, and no other task changes. -/
lemma Db.Sound.recoverExpiredLeases_tasks {db db' : Db} (sd : db.Sound) {changedAt : Datetime}
    {candidates ids : List String} (distinct : candidates.Nodup)
    (h : db.recoverExpiredLeases changedAt candidates = .ok (ids, db')) (id : String) :
    (id ∉ candidates → db'.tasks.get id = db.tasks.get id) ∧
      (id ∈ candidates → ∃ t, db.tasks.get id = some t ∧
        db'.tasks.get id = some (db.recovered changedAt id t)) := by
  have iso := recoverOne_isolated changedAt
  constructor
  · intro absent
    exact (iso.loop_frame sd h absent).1
  · intro mem
    obtain ⟨s, s', _, before, st, after⟩ := iso.loop_result distinct sd h mem
    have work : s.2.hasExternalWork id = db.hasExternalWork id := by
      simp only [Db.hasExternalWork, before.2]
    obtain ⟨t, ht, ⟨kept, e⟩ | ⟨running, idle, rows⟩⟩ := Db.recoverOne_ok st
    · refine ⟨t, before.1.symm.trans ht, after.1.trans ?_⟩
      rw [e, Db.recovered, if_neg (by rw [← work]; exact kept)]
      exact Dict.get_set_self _ _ _
    · refine ⟨t, before.1.symm.trans ht, after.1.trans ?_⟩
      rw [rows, Db.recovered, if_pos ⟨running, by rw [← work]; exact idle⟩]
      exact Dict.get_set_self _ _ _

lemma Db.Sound.recoverExpiredLeases_total {db : Db} (sd : db.Sound) (changedAt : Datetime)
    {candidates : List String} (distinct : candidates.Nodup)
    (stored : ∀ id ∈ candidates, ∃ t, db.tasks.get id = some t) :
    ∃ ids db', db.recoverExpiredLeases changedAt candidates = .ok (ids, db') := by
  have each : ∀ id ∈ candidates, ∃ s', Db.recoverOne changedAt ([], db) id = .ok s' := by
    intro id mem
    obtain ⟨t, ht⟩ := stored id mem
    exact sd.recoverOne_total (s := ([], db)) ht changedAt
  obtain ⟨⟨ids, db'⟩, h⟩ :=
    ((recoverOne_isolated changedAt).loop_total_iff distinct (s := ([], db)) sd).mpr each
  exact ⟨ids, db', h⟩

/-! ## All tasks -/

lemma Db.Timed.ofTasks {db db' : Db} (tm : db.Timed) (tasks : db'.tasks = db.tasks) :
    db'.Timed := by
  intro id t ht
  rw [tasks] at ht
  exact tm id t ht

/-- Replacing one row by another with the right times. -/
lemma Db.Timed.setTask {db db' : Db} (tm : db.Timed) {id : String} {t : Task}
    (tasks : db'.tasks = db.tasks.set id t) (timed : t.Timed) : db'.Timed := by
  intro k s hs
  rw [tasks, Dict.get_set] at hs
  split at hs
  · cases hs
    exact timed
  · exact tm k s hs

lemma Db.Timed.reconcileOne {changedAt : Datetime} {s s' : List String × Db} {id : String}
    (tm : s.2.Timed) (h : Db.reconcileOne changedAt s id = .ok s') : s'.2.Timed := by
  obtain rfl | ⟨t, ht, pending, _, _, rows⟩ := Db.reconcileOne_ok h
  · exact tm
  · exact tm.setTask (by rw [rows]) ((tm id t ht).move .ready changedAt (by rw [pending]; decide))

lemma Db.Timed.dispatchCommit {db db' : Db} {a : JobArgs} {owner : String}
    {leaseExpiresAt now : Datetime} {jobIds : List String} (tm : db.Timed)
    (h : db.dispatchCommit a owner leaseExpiresAt now = .ok (jobIds, db')) : db'.Timed := by
  obtain ⟨rfl, _⟩ | ⟨t, jobs, ht, ready, rows, _⟩ := dispatchCommit_ok h
  · exact tm
  · have leased : (t.leased owner leaseExpiresAt).Timed := (tm _ t ht).ofSame rfl rfl rfl rfl
    have unfinished : ¬ (t.leased owner leaseExpiresAt).status.Finished := by
      show ¬ t.status.Finished
      rw [ready]
      decide
    exact tm.setTask (by rw [rows]) (leased.move .running now unfinished)

lemma Db.Timed.collectingCommit {db db' : Db} {id : String} {now : Datetime}
    {jobIds : List String} (tm : db.Timed) (h : db.collectingCommit id now = .ok (jobIds, db')) :
    db'.Timed := by
  obtain ⟨rfl, _⟩ | ⟨job, terminal, _, _, _, _, _, _, _, ⟨t, ht, running, e⟩ | ⟨e, _⟩⟩ :=
    collectingCommit_ok h
  · exact tm
  · exact tm.setTask e ((tm _ t ht).move .verifying now (by rw [running]; decide))
  · exact tm.ofTasks e

lemma Db.Timed.verifyOne {v : TaskValidator} {changedAt : Datetime} {s s' : List String × Db}
    {id : String} (tm : s.2.Timed) (h : v.verifyOne changedAt s id = .ok s') : s'.2.Timed := by
  obtain ⟨t, result, db1, ht, verifying, _, _, rows⟩ := TaskValidator.verifyOne_ok h
  have summarised : (t.summarised result).Timed := (tm id t ht).ofSame rfl rfl rfl rfl
  have unfinished : ¬ (t.summarised result).status.Finished := by
    show ¬ t.status.Finished
    rw [verifying]
    decide
  exact tm.setTask (by rw [rows]) (summarised.move _ changedAt unfinished)

/-- A lease recovery keeps the times right exactly if it retries no task. -/
lemma Db.Timed.recover_iff {db : Db} (tm : db.Timed) (sd : db.Sound) {current : Datetime}
    (changedAt : Datetime) {candidates : List String}
    (order : candidates.Perm (db.expiredCandidates current)) :
    (db.commit (db.recoverExpiredLeases changedAt candidates)).Timed ↔
      db.RetriesNone (.recoverExpiredLeases current changedAt candidates) := by
  have distinct : candidates.Nodup := order.nodup_iff.mpr (Dict.nodup_keysWhere _ _)
  have stored : ∀ id ∈ candidates, ∃ t, db.tasks.get id = some t := by
    intro id mem
    obtain ⟨t, ht, _⟩ := Dict.mem_keysWhere.mp (order.mem_iff.mp mem)
    exact ⟨t, ht⟩
  obtain ⟨ids, db', h⟩ := sd.recoverExpiredLeases_total changedAt distinct stored
  have effect := fun id => sd.recoverExpiredLeases_tasks distinct h id
  rw [h]
  show db'.Timed ↔ _
  -- an expired task fails first, and one with an attempt left is then made ready again with the
  -- finish time of that failure still on it
  constructor
  · intro tm' _ id mem t ht running idle
    obtain ⟨t', ht', recovered⟩ := (effect id).2 mem
    rw [ht] at ht'
    cases ht'
    rw [Db.recovered, if_pos ⟨running, idle⟩] at recovered
    exact ((tm id t ht).expired_iff running changedAt).mp (tm' id _ recovered)
  · intro none id t' ht'
    by_cases mem : id ∈ candidates
    · obtain ⟨t, ht, recovered⟩ := (effect id).2 mem
      rw [recovered] at ht'
      cases ht'
      unfold Db.recovered
      split
      · rename_i stranded
        obtain ⟨running, idle⟩ := stranded
        exact ((tm id t ht).expired_iff running changedAt).mpr (none order id mem t ht running idle)
      · exact (tm id t ht).ofSame rfl rfl rfl rfl
    · rw [(effect id).1 mem] at ht'
      exact tm id t' ht'

/-- A transaction keeps the times right exactly if it retries no task. -/
lemma Db.Timed.act_iff {db : Db} (tm : db.Timed) (sd : db.Sound) {e : Action}
    (enabled : db.enabled e) : (db.act valid e).Timed ↔ db.RetriesNone e := by
  have committed : ∀ {α : Type} {r : Except PyErr (α × Db)},
      (∀ a db', r = .ok (a, db') → db'.Timed) → ((db.commit r).Timed ↔ True) :=
    fun returns => iff_of_true (Db.commit_keeps tm returns) trivial
  have committedUnit : ∀ {r : Except PyErr Db},
      (∀ db', r = .ok db' → db'.Timed) → ((db.commitUnit r).Timed ↔ True) :=
    fun returns => iff_of_true (Db.commitUnit_keeps tm returns) trivial
  cases e with
  | createProject id slug lifecycle =>
    refine committed fun _ db' h => ?_
    obtain ⟨_, _, e⟩ := createProject_ok h
    exact tm.ofTasks (by rw [e, logged_rows])
  | createTask a =>
    refine committed fun _ db' h => ?_
    obtain ⟨rfl, _⟩ | ⟨_, _, _, _, _, e⟩ := createTask_ok h
    · exact tm
    · have new : a.row.Timed := by
        constructor
        · refine iff_of_false (fun set => set rfl) ?_
          show ¬ TaskStatus.pending.Finished
          decide
        · exact iff_of_false (fun set => set rfl) (Nat.lt_irrefl 0)
      exact tm.setTask (by rw [e, logged_rows]) new
  | reconcile current changedAt candidates =>
    refine committed fun ids db' h => ?_
    exact foldlM_invariant (P := fun s : List String × Db => s.2.Timed)
      (fun s id s' _ hs st => hs.reconcileOne st) h tm
  | recoverExpiredLeases current changedAt candidates => exact tm.recover_iff sd changedAt enabled
  | dispatch a owner leaseExpiresAt now => exact committed fun _ _ h => tm.dispatchCommit h
  | submitted jobId externalId now =>
    refine committed fun _ db' h => ?_
    obtain rfl | ⟨job, _, _, st⟩ := reconcileCreatedCommit_ok h
    · exact tm
    · exact tm.ofTasks (by rw [st])
  | observed obs pollInterval now =>
    refine committedUnit fun db' h => ?_
    cases hj : db.jobs.get obs.computeJobId with
    | none =>
      simp only [recordObservation, hj] at h
      cases h
      exact tm
    | some job =>
      have st := recordObservation_sets hj h
      exact tm.ofTasks (by rw [st])
  | pollRaised jobId errorType pollInterval now =>
    refine committedUnit fun db' h => ?_
    cases hj : db.jobs.get jobId with
    | none =>
      simp only [pollErrorCommit, hj] at h
      cases h
      exact tm
    | some job =>
      have st := pollErrorCommit_sets hj h
      exact tm.ofTasks (by rw [st])
  | ingested jobId candidate id digest uri sizeBytes =>
    simp only [Db.act]
    split
    · exact iff_of_true tm trivial
    · refine committed fun _ db' h => ?_
      obtain ⟨rfl, _⟩ | ⟨_, _, rows⟩ := ingestRow_ok h
      · exact tm
      · exact tm.ofTasks (by rw [rows])
  | finalised jobId now => exact committed fun _ _ h => tm.collectingCommit h
  | verified readFile loads frames changedAt candidates =>
    refine committed fun ids db' h => ?_
    exact foldlM_invariant (P := fun s : List String × Db => s.2.Timed)
      (fun s id s' _ hs st => hs.verifyOne st) h tm

/-- In a run of the controller the times of all tasks are right in every state that is reached,
    exactly when no lease recovery of the run retries a task. -/
theorem finish_times_iff (actions : List Action) :
    (∀ before after db, actions = before ++ after →
        (controller valid).run Db.empty before = some db →
        ∀ id t, db.tasks.get id = some t →
          (t.finishedAt ≠ none ↔ t.status = .succeeded ∨ t.status = .failed ∨
            t.status = .cancelled ∨ t.status = .skipped) ∧
          (t.startedAt ≠ none ↔ 0 < t.attemptCount)) ↔
      (controller valid).Meets Db.RetriesNone Db.empty actions := by
  have timed : ∀ db : Db, db.Timed ↔ ∀ id t, db.tasks.get id = some t →
      (t.finishedAt ≠ none ↔ t.status = .succeeded ∨ t.status = .failed ∨
        t.status = .cancelled ∨ t.status = .skipped) ∧
      (t.startedAt ≠ none ↔ 0 < t.attemptCount) := fun db =>
    ⟨fun tm id t ht => ⟨(tm id t ht).finished, (tm id t ht).started⟩,
      fun each id t ht => ⟨(each id t ht).1, (each id t ht).2⟩⟩
  simp only [← timed]
  rw [← System.throughout_iff]
  -- soundness is kept by every transaction, and makes each recovery return
  refine System.throughout_iff_meets (I := Db.Sound) ?_ ?_ ?_ Db.Sound.empty ?_
  · intro db e db' sd st
    obtain ⟨_, rfl⟩ := controller_step st
    exact sd.act valid e
  · intro db e db' sd tm st
    obtain ⟨enabled, rfl⟩ := controller_step st
    exact tm.act_iff sd enabled
  · intro db e disabled
    cases e with
    | recoverExpiredLeases current changedAt candidates =>
      intro order
      simp only [controller] at disabled
      split at disabled
      · cases disabled
      · rename_i notEnabled
        exact (notEnabled order).elim
    | _ => trivial
  · intro id t ht
    cases ht

/-- A retried task is ready again and still has the time at which it failed. -/
theorem finish_times_wrong :
    ¬ ∀ (actions : List Action) (db : Db),
        (controller fun _ => .ok sharedSpec).run Db.empty actions = some db →
        ∀ id t, db.tasks.get id = some t →
          (t.finishedAt ≠ none ↔ t.status = .succeeded ∨ t.status = .failed ∨
            t.status = .cancelled ∨ t.status = .skipped) ∧
          (t.startedAt ≠ none ↔ 0 < t.attemptCount) := by
  intro right
  let actions : List Action := retriedTask.take 7
  obtain ⟨db, rn⟩ := Option.isSome_iff_exists.mp
    (show ((controller fun _ => .ok sharedSpec).run Db.empty actions).isSome = true by decide)
  have retried : ((controller fun _ => .ok sharedSpec).run Db.empty actions).map (fun db =>
      (db.tasks.get "t").map fun t => (t.status, t.finishedAt)) =
      some (some (.ready, some 60)) := by decide
  rw [rn, Option.map_some, Option.some.injEq, Option.map_eq_some_iff] at retried
  obtain ⟨t, ht, columns⟩ := retried
  rw [Prod.mk.injEq] at columns
  obtain ⟨ready, failedAt⟩ := columns
  have finished := (right actions db rn "t" t ht).1.mp
    (by rw [failedAt]; exact Option.some_ne_none 60)
  rw [ready] at finished
  revert finished
  decide

end ResearchController
