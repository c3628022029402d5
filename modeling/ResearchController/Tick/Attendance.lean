import ResearchController.Isolation.Verification
import ResearchController.Lib.Leads
import ResearchController.Lifecycle.Changes
import ResearchController.Lifecycle.Dependencies
import ResearchController.Lifecycle.Writes
import ResearchController.Services.ReadinessExact
import ResearchController.Tick.Refinement

/-!
# What a tick has seen to when it returns

A tick that returns has attended to everything that was waiting when it began: every job that was
created has been submitted, every job that was collecting has ended, every task that could start has
become ready, every task in verification has its verdict and every ready task has been started
(`tick_attends`). Each of these things is either still waiting when the tick gets to it or has been
done by an earlier part of the tick, and none is ever undone: not by the rest of the tick, and not
by any process that is started later.
-/

namespace ResearchController
open Lib

variable {valid : Json → Except PyErr ComputeTaskSpec} {db db' : Db}

/-- An assertion that the actions of the controller keep. -/
abbrev Steady (valid : Json → Except PyErr ComputeTaskSpec) (F : Db → Prop) : Prop :=
  Keeps (Db.Reaches valid) F

/-! ## Nothing that is done is undone -/

/-- How far a job has come. -/
def ComputeExecutionStatus.rank : ComputeExecutionStatus → ℕ
  | .created => 0
  | .submitted => 1
  | .pending => 2
  | .running => 3
  | .collecting => 4
  | _ => 5

lemma ComputeExecutionStatus.rank_terminal {s : ComputeExecutionStatus} :
    5 ≤ s.rank ↔ s.isTerminal = true := by
  cases s <;> decide

/-- No step leads a job back. -/
lemma ComputeJob.Step.rank_le {j j' : ComputeJob} {l : List Entry} (st : ComputeJob.Step j l j')
    (ch : j.Coherent) : j.executionStatus.rank ≤ j'.executionStatus.rank := by
  cases st with
  | submitted created =>
    rw [created]
    exact Nat.zero_le _
  | seen status => rw [ComputeJob.seen_executionStatus]
  | polled _ _ => exact le_refl _
  | pollFailed _ _ => exact le_refl _
  | running early _ =>
    rw [ComputeJob.moved_executionStatus]
    rcases early with e | e <;> rw [e] <;> decide
  | collecting running _ =>
    rw [ComputeJob.moved_executionStatus, running]
    decide
  | finalised collecting outcome =>
    obtain ⟨s, held, ends, _⟩ := ch.outcome (Or.inl collecting)
    cases held.symm.trans outcome
    rw [ComputeJob.stepped_executionStatus, collecting]
    exact le_trans (by decide) (ComputeExecutionStatus.rank_terminal.mpr ends)

/-- A job that has come so far, or further. -/
def JobPast (k : String) (n : ℕ) (db : Db) : Prop :=
  db.HasJob k fun j => j.Coherent ∧ n ≤ j.executionStatus.rank

lemma JobPast.reached {k : String} {n : ℕ} (past : JobPast k n db)
    (reaches : db.Reaches valid db') : JobPast k n db' := by
  refine Db.HasJob.reached past ?_ reaches
  rintro j l j' ⟨ch, le⟩ st
  exact ⟨ch.step st, le_trans le (st.rank_le ch)⟩

lemma JobPast.steady (k : String) (n : ℕ) : Steady valid (JobPast k n) :=
  fun _ _ past reaches => past.reached reaches

section Tasks

variable {t t' : Task} {l : List Entry}

lemma Task.expired_status_cases (t : Task) (now : Datetime) :
    (t.expired now).status = .ready ∨ (t.expired now).status = .failed := by
  unfold Task.expired
  split
  · exact Or.inl (Task.moved_status _ _ _)
  · exact Or.inr (Task.moved_status _ _ _)

/-- No step leads back to `PENDING`. -/
lemma Task.Step.not_pending (st : Task.Step t l t') (before : t.status ≠ .pending) :
    t'.status ≠ .pending := by
  cases st with
  | readied pending => exact (before pending).elim
  | unleased => exact before
  | expired _ => rcases t.expired_status_cases _ with e | e <;> rw [e] <;> decide
  | started _ => simp
  | ended _ => simp
  | settled _ _ =>
    rw [Task.moved_status]
    split <;> decide

/-- A task that has its verdict. -/
def Task.Settled (t : Task) : Prop := t.status = .succeeded ∨ t.status = .failed

/-- No step takes a verdict back. -/
lemma Task.Step.settled_status (st : Task.Step t l t') (before : t.Settled) :
    t'.status = t.status := by
  cases st with
  | readied pending => rcases before with e | e <;> rw [e] at pending <;> cases pending
  | unleased => rfl
  | expired running => rcases before with e | e <;> rw [e] at running <;> cases running
  | started ready => rcases before with e | e <;> rw [e] at ready <;> cases ready
  | ended running => rcases before with e | e <;> rw [e] at running <;> cases running
  | settled verifying _ => rcases before with e | e <;> rw [e] at verifying <;> cases verifying

lemma Task.Step.settled_of (st : Task.Step t l t') (before : t.Settled) : t'.Settled := by
  unfold Task.Settled
  rw [st.settled_status before]
  exact before

/-- A task in verification leaves it with a verdict only. -/
lemma Task.Step.verifying_of (st : Task.Step t l t') (before : t.status = .verifying ∨ t.Settled) :
    t'.status = .verifying ∨ t'.Settled := by
  rcases before with verifying | settled
  · cases st with
    | readied pending =>
      rw [verifying] at pending
      cases pending
    | unleased => exact Or.inl verifying
    | expired running =>
      rw [verifying] at running
      cases running
    | started ready =>
      rw [verifying] at ready
      cases ready
    | ended running =>
      rw [verifying] at running
      cases running
    | settled _ _ =>
      right
      unfold Task.Settled
      rw [Task.moved_status]
      split
      · exact Or.inl rfl
      · exact Or.inr rfl
  · exact Or.inr (st.settled_of settled)

/-- No step takes an attempt back. -/
lemma Task.Step.attempts_le (st : Task.Step t l t') : t.attemptCount ≤ t'.attemptCount := by
  cases st with
  | readied _ => exact t.le_moved_attemptCount _ _
  | unleased => exact le_refl _
  | expired _ =>
    unfold Task.expired
    split
    · exact le_trans (t.unleased.le_moved_attemptCount .failed _) (Task.le_moved_attemptCount _ _ _)
    · exact t.unleased.le_moved_attemptCount .failed _
  | started _ => exact (t.leased _ _).le_moved_attemptCount .running _
  | ended _ => exact t.le_moved_attemptCount _ _
  | settled _ _ => exact (t.summarised _).le_moved_attemptCount _ _

/-- A ready task is only left to run another attempt. -/
lemma Task.Step.ready_of {n : ℕ} (st : Task.Step t l t')
    (before : (t.status = .ready ∧ t.attemptCount = n) ∨ n < t.attemptCount) :
    (t'.status = .ready ∧ t'.attemptCount = n) ∨ n < t'.attemptCount := by
  rcases before with ⟨ready, count⟩ | more
  · cases st with
    | readied pending =>
      rw [ready] at pending
      cases pending
    | unleased => exact Or.inl ⟨ready, count⟩
    | expired running =>
      rw [ready] at running
      cases running
    | started _ =>
      right
      rw [Task.moved_attemptCount, if_pos rfl]
      exact Nat.lt_succ_of_le (le_of_eq count.symm)
    | ended running =>
      rw [ready] at running
      cases running
    | settled verifying _ =>
      rw [ready] at verifying
      cases verifying
  · exact Or.inr (lt_of_lt_of_le more st.attempts_le)

end Tasks

/-! ## What a waiting task waits for -/

/-- Nothing keeps a task from starting: there is no time to wait for, and every task that it depends
    on has succeeded. -/
structure Startable (id : String) (db : Db) : Prop where
  anytime : db.HasTask id fun t => t.notBefore = none
  dependencies : ∀ d ∈ db.dependencies, d.taskId = id →
    db.HasTask d.dependsOnTaskId fun t => t.status = .succeeded

/-- The dependencies of a task that is there are fixed. -/
lemma Db.Reaches.dependencies {id : String} (reaches : db.Reaches valid db')
    (there : db.HasTask id fun _ => True) {d : TaskDependency} (mem : d ∈ db'.dependencies)
    (own : d.taskId = id) : d ∈ db.dependencies := by
  obtain ⟨actions, rn⟩ := reaches
  obtain ⟨t, ht, _⟩ := there
  have kept := moves_invariant (P := fun r : Rows => (∃ t, r.tasks.get id = some t) ∧
    ∀ d ∈ r.dependencies, d.taskId = id → d ∈ db.dependencies) ?_ (controller_refines rn)
    ⟨⟨t, ht⟩, fun d mem _ => mem⟩
  · exact kept.2 d mem own
  · rintro r r' ⟨⟨t, ht⟩, same⟩ mv
    refine ⟨?_, ?_⟩
    · have stays : ∀ k s, ∃ u, (r.tasks.set k s).get id = some u := by
        intro k s
        rw [Dict.get_set]
        split
        · exact ⟨s, rfl⟩
        · exact ⟨t, ht⟩
      cases mv <;> first | exact ⟨t, ht⟩ | exact stays _ _
    · cases mv with
      | created fresh _ =>
        intro d mem own
        rcases List.mem_append.mp mem with mem | added
        · exact same d mem own
        · -- a new task is another one
          obtain ⟨_, _, rfl⟩ := List.mem_map.mp added
          cases own
          rw [fresh] at ht
          cases ht
      | _ => exact same

lemma Startable.reached {id : String} (free : Startable id db) (reaches : db.Reaches valid db') :
    Startable id db' := by
  refine ⟨free.anytime.reached ?_ reaches, fun d mem own => ?_⟩
  · intro t l t' none st
    exact (congrArg (fun fixed => fixed.2.2) st.fixed).trans none
  · obtain ⟨t, ht, _⟩ := free.anytime
    have before := reaches.dependencies ⟨t, ht, trivial⟩ mem own
    refine (free.dependencies d before own).reached ?_ reaches
    intro t l t' succeeded st
    exact (st.settled_status (Or.inl succeeded)).trans succeeded

/-- A project that is worked on. -/
def ActiveProject (projectId : String) (db : Db) : Prop :=
  ∃ p, db.projects.get projectId = some p ∧ p.lifecycle = .active

lemma ActiveProject.logged {projectId k : String} (active : ActiveProject projectId db)
    (d : EventDraft) : ActiveProject projectId (db.logged k d) := by
  obtain ⟨p, hp, lifecycle⟩ := active
  cases hq : db.projects.get k with
  | none =>
    simp only [ActiveProject, Db.logged, hq]
    exact ⟨p, hp, lifecycle⟩
  | some q =>
    unfold ActiveProject
    rw [Db.logged_projects hq, Dict.get_set]
    split
    · rename_i own
      rw [← own, hp] at hq
      cases hq
      exact ⟨p.bump, rfl, lifecycle⟩
    · exact ⟨p, hp, lifecycle⟩

lemma ActiveProject.write {projectId : String} (active : ActiveProject projectId db)
    (wr : db.Write db') : ActiveProject projectId db' := by
  cases wr with
  | task _ _ => exact active
  | job _ _ => exact active
  | evidence _ _ => exact active
  | event _ _ _ => exact active.logged _

/-- No transaction suspends a project. -/
lemma ActiveProject.act {projectId : String} (active : ActiveProject projectId db) (e : Action) :
    ActiveProject projectId (db.act valid e) := by
  have writes : ∀ {db' db'' : Db}, db'.Writes db'' → ActiveProject projectId db' →
      ActiveProject projectId db'' :=
    fun ws active => moves_invariant (fun _ _ active wr => active.write wr) ws active
  cases creates : e.creates with
  | false => exact writes (db.act_writes valid creates) active
  | true =>
    have committed : ∀ {α : Type} {r : Except PyErr (α × Db)},
        (∀ a db', r = .ok (a, db') → ActiveProject projectId db') →
          ActiveProject projectId (db.commit r) :=
      Db.commit_keeps active
    cases e with
    | createProject id slug lifecycle =>
      refine committed fun _ db' h => ?_
      obtain ⟨_, fresh, rfl⟩ := Db.createProject_ok h
      apply ActiveProject.logged
      obtain ⟨p, hp, lifecycle⟩ := active
      have ne : projectId ≠ id := by
        rintro rfl
        rw [fresh] at hp
        cases hp
      exact ⟨p, by rw [Dict.get_set_ne _ _ ne]; exact hp, lifecycle⟩
    | createTask a =>
      refine committed fun _ db' h => ?_
      obtain ⟨rfl, _⟩ | ⟨p, _, _, _, _, rfl⟩ := Db.createTask_ok h
      · exact active
      · apply ActiveProject.logged
        exact active
    | dispatch a owner leaseExpiresAt now =>
      refine committed fun _ db' h => ?_
      obtain rfl | ⟨jobId, db1, cj, ws⟩ := Db.dispatchCommit_writes h
      · exact active
      · refine writes ws ?_
        obtain ⟨rfl, _⟩ | ⟨task, p, _, _, _, _, _, _, rfl⟩ := Db.createComputeJob_ok cj
        · exact active
        · apply ActiveProject.logged
          exact active
    | ingested jobId candidate id digest uri sizeBytes =>
      simp only [Db.act]
      split
      · exact active
      · refine committed fun _ db' h => ?_
        obtain ⟨rfl, _⟩ | ⟨_, _, _, p, _, rfl⟩ := Db.ingestRow_cases h
        · exact active
        · apply ActiveProject.logged
          apply ActiveProject.logged
          exact active
    | _ => cases creates

lemma ActiveProject.reached {projectId : String} (active : ActiveProject projectId db)
    (reaches : db.Reaches valid db') : ActiveProject projectId db' :=
  reaches.keeps (P := ActiveProject projectId) (fun _ e active => active.act e) active

/-- What a transaction has committed if it returns. -/
lemma Db.finish_ok {α : Type} {x : Except PyErr (α × Db)} {a : α}
    (returns : (db.finish x).2 = .ok a) : x = .ok (a, (db.finish x).1) := by
  cases x with
  | error e => cases returns
  | ok p =>
    cases returns
    rfl

/-! ## Collecting -/

/-- Leading from one assertion to another in the reconciler. -/
abbrev Reconciling.Leads {α : Type} (valid : Json → Except PyErr ComputeTaskSpec)
    (r : ReconcilerSetup) (F G : Db → Prop) (p : Reconciling α) : Prop :=
  Program.Leads (collectingMachine r) (Db.Reaches valid) F G p

/-- The views of a query in some order are those of the query. -/
lemma mem_arranged_ids {views : List ComputeJobView} {order : List String} {k : String} :
    (∃ view ∈ arranged views order, view.id = k) ↔ ∃ view ∈ views, view.id = k := by
  constructor
  · rintro ⟨view, mem, own⟩
    exact ⟨view, mem_arranged mem, own⟩
  · rintro ⟨view, mem, own⟩
    unfold arranged
    split
    · rename_i perm
      have listed : k ∈ order :=
        perm.mem_iff.mpr (List.mem_map.mpr ⟨view, mem, own⟩)
      have found : (views.find? (·.id == k)).isSome = true :=
        List.find?_isSome.mpr ⟨view, mem, beq_iff_eq.mpr own⟩
      obtain ⟨first, hfirst⟩ := Option.isSome_iff_exists.mp found
      refine ⟨first, List.mem_filterMap.mpr ⟨k, listed, hfirst⟩, ?_⟩
      simpa using List.find?_some hfirst
    · exact ⟨view, mem, own⟩

/-- All jobs of the views are known, and one of them has come so far. -/
def Collecting (views : List ComputeJobView) (k : String) (n : ℕ) (db : Db) : Prop :=
  (∀ view ∈ views, Known view db) ∧ JobPast k n db

lemma Collecting.steady (views : List ComputeJobView) (k : String) (n : ℕ) :
    Steady valid (Collecting views k n) := by
  rintro db db' ⟨known, past⟩ reaches
  exact ⟨fun view mem => (known view mem).reached reaches, past.reached reaches⟩

/-- A job that was collecting has ended once its transaction has committed. -/
lemma Db.collectingCommit_ends {k : String} {now : Datetime} {jobIds : List String}
    (past : JobPast k 4 db) (h : db.collectingCommit k now = .ok (jobIds, db')) :
    JobPast k 5 db' := by
  obtain ⟨j, hj, ch, far⟩ := past
  obtain ⟨rfl, ended⟩ | ⟨job, terminal, hj', collecting, outcome, _, _, _, jobs, _⟩ :=
    collectingCommit_ok h
  · have open_ := ended j hj
    refine ⟨j, hj, ch, ?_⟩
    revert far open_
    cases j.executionStatus <;> decide
  · cases hj.symm.trans hj'
    have st : ComputeJob.Step j _ (j.stepped terminal now) := .finalised collecting outcome
    obtain ⟨s, held, ends, _⟩ := ch.outcome (Or.inl collecting)
    cases held.symm.trans outcome
    refine ⟨_, by rw [jobs]; exact Dict.get_set_self _ _ _, ch.step st, ?_⟩
    rw [ComputeJob.stepped_executionStatus]
    exact ComputeExecutionStatus.rank_terminal.mpr ends

section Reconciler

variable (r : ReconcilerSetup) {k : String} {views : List ComputeJobView}

/-- A part of the reconciler that finalises no job keeps what is known of them. -/
lemma Reconciling.Leads.within {α : Type} {n : ℕ} {p : Reconciling α}
    (inside : p.Within (·.OfViews views)) :
    Reconciling.Leads valid r (Collecting views k n) (Collecting views k n) p :=
  Program.Leads.within (Collecting.steady views k n)
    (fun _ own _ o collecting => r.handle_reaches own o collecting.1) inside

/-- The iteration of a job ends it. -/
lemma collectOne_leads {view : ComputeJobView} (mem : view ∈ views) :
    Reconciling.Leads valid r (Collecting views view.id 4) (Collecting views view.id 5)
      (collectOne r view) := by
  apply Program.Leads.check
  intro _ _
  have collect : Reconciling.Leads valid r (Collecting views view.id 4)
      (Collecting views view.id 4) (Reconciling.collect view) :=
    Reconciling.Leads.within r ⟨trivial, fun _ => trivial⟩
  apply collect.bind
  intro collected
  apply Program.Leads.check
  intro candidates _
  apply (Reconciling.Leads.within r (ingestEach_within mem candidates)).bind
  intro _
  refine Program.Leads.call (Collecting.steady views view.id 4) ?_ ?_
  · exact fun db o collecting => r.handle_reaches (e := .finalise view.id) trivial o collecting.1
  · intro db o collecting
    apply Program.Leads.committed
    intro ids commits
    have reaches : db.Reaches valid _ :=
      r.handle_reaches (e := .finalise view.id) trivial o collecting.1
    refine ⟨fun view mem => (collecting.1 view mem).reached reaches, ?_⟩
    exact Db.collectingCommit_ends collecting.2 (Db.finish_ok commits)

/-- The loop ends every job that it goes through. -/
lemma collectEach_leads {rest : List ComputeJobView} (part : ∀ view ∈ rest, view ∈ views)
    (own : ∃ view ∈ rest, view.id = k) :
    Reconciling.Leads valid r (Collecting views k 4) (Collecting views k 5)
      (collectEach r rest) := by
  induction rest with
  | nil =>
    obtain ⟨view, mem, _⟩ := own
    cases mem
  | cons view rest ih =>
    have mem := part view List.mem_cons_self
    have others : ∀ view ∈ rest, view ∈ views := fun view mem =>
      part view (List.mem_cons_of_mem _ mem)
    by_cases e : view.id = k
    · subst e
      apply (collectOne_leads r mem).bind
      intro first
      apply (Reconciling.Leads.within r (collectEach_within r others)).bind
      exact fun _ => Program.Leads.ret _ _
    · apply (Reconciling.Leads.within r (collectOne_within r mem)).bind
      intro first
      have later : ∃ view ∈ rest, view.id = k := by
        obtain ⟨other, mem, own⟩ := own
        rcases List.mem_cons.mp mem with rfl | mem
        · exact (e own).elim
        · exact ⟨other, mem, own⟩
      apply (ih others later).bind
      exact fun _ => Program.Leads.ret _ _

/-- The query returns every job that is collecting. -/
lemma reconcileCollecting_leads :
    Reconciling.Leads valid r (JobPast k 4) (JobPast k 5) (reconcileCollecting r) := by
  refine Program.Leads.call (JobPast.steady k 4) (fun db o _ => .refl db) fun db o past => ?_
  have known := collectingJobs_known db o.order
  obtain ⟨j, hj, ch, far⟩ := past
  by_cases collecting : j.executionStatus = .collecting
  · have queried : ∃ view ∈ arranged db.collectingJobs o.order, view.id = k :=
      mem_arranged_ids.mpr ⟨_, Db.mem_collectingJobs.mpr ⟨k, j, hj, collecting, rfl⟩, rfl⟩
    have leads : Reconciling.Leads valid r (Collecting _ k 4) (Collecting _ k 5) _ :=
      collectEach_leads r (fun _ mem => mem) queried
    refine (leads db ⟨known, j, hj, ch, far⟩).mono fun _ _ ends a returns => ?_
    exact (ends a returns).2
  · have ended : 5 ≤ j.executionStatus.rank := by
      revert far collecting
      cases j.executionStatus <;> decide
    have keeps : Reconciling.Leads valid r (Collecting _ k 5) (Collecting _ k 5)
        (collectEach r (arranged db.collectingJobs o.order)) :=
      Reconciling.Leads.within r (collectEach_within r fun _ mem => mem)
    refine (keeps db ⟨known, j, hj, ch, ended⟩).mono fun _ _ ends a returns => ?_
    exact (ends a returns).2

/-- A job that is collecting when `reconcile_due` is called has ended when it returns. -/
lemma reconcileDue_leads :
    Reconciling.Leads valid r (JobPast k 4) (JobPast k 5) (reconcileDue r) := by
  apply (reconcileCollecting_leads r).bind
  intro _
  have ended : Steady valid (JobPast k 5) := JobPast.steady k 5
  have polls := Program.Leads.keeps ended fun db _ => polling_upholds r db
  have second := Program.Leads.keeps ended fun db _ => reconcileCollecting_upholds r db
  exact polls.bind fun observed => second.bind fun _ => Program.Leads.ret _ _

end Reconciler

/-! ## Submitting -/

/-- What the actions keep of the database they keep of the world. -/
lemma Steady.world {F : Db → Prop} (steady : Steady valid F) :
    Keeps (LocalWorld.Reaches valid) fun w => F w.db :=
  fun w w' holds reaches => steady w.db w'.db holds reaches

/-- Leading from one assertion to another in the submission protocol. -/
abbrev Submission.Leads {α : Type} (valid : Json → Except PyErr ComputeTaskSpec) (F G : Db → Prop)
    (p : Submission α) : Prop :=
  Program.Leads (localMachine valid) (LocalWorld.Reaches valid) (fun w => F w.db)
    (fun w => G w.db) p

/-- A part of the protocol that commits nothing of interest. -/
lemma Submission.Leads.silent {α : Type} {F : Db → Prop} (steady : Steady valid F)
    (p : Submission α) : Submission.Leads valid F F p := by
  refine Program.Leads.within (K := fun _ => True) steady.world ?_ ?_
  · exact fun e _ w o _ => w.handle_reaches e o
  · induction p with
    | ret a => trivial
    | raise e => trivial
    | perform e next ih => exact ⟨trivial, ih⟩

/-- A job has been submitted once its transaction has committed. -/
lemma Db.reconcileCreatedCommit_submits {k externalId : String} {now : Datetime}
    {jobIds : List String} (past : JobPast k 0 db)
    (h : db.reconcileCreatedCommit k externalId now = .ok (jobIds, db')) : JobPast k 1 db' := by
  obtain ⟨j, hj, ch, _⟩ := past
  simp only [Db.reconcileCreatedCommit, hj] at h
  split at h
  · rename_i submitted
    cases h
    refine ⟨j, hj, ch, ?_⟩
    revert submitted
    cases j.executionStatus <;> decide
  · rename_i created
    have created := not_not.mp created
    obtain ⟨db1, tr, e⟩ := bind_ok.mp h
    cases e
    have hj1 := (SetsJob.modifyJob hj (·.identified externalId)).get
    refine ⟨_, (transitionComputeJob_sets hj1 tr).get, ?_, ?_⟩
    · have differs : ComputeExecutionStatus.submitted ≠
          (j.identified externalId).executionStatus := by
        show _ ≠ j.executionStatus
        rw [created]
        decide
      rw [ComputeJob.stepped, if_neg differs]
      exact ch.step (.submitted created)
    · rw [ComputeJob.stepped_executionStatus]
      exact le_refl _

section Submission

variable (p : LocalProvider) {k : String}

lemma commitSubmitted_leads (externalId : String) :
    Submission.Leads valid (JobPast k 0) (JobPast k 1)
      (Submission.commitSubmitted k externalId >>= fun committed => Program.check committed) := by
  refine Program.Leads.call (JobPast.steady k 0).world
    (fun w o _ => w.handle_reaches (.commitSubmitted k externalId) o) fun w o past => ?_
  apply Program.Leads.committed
  intro ids commits
  simp only [localMachine, LocalWorld.handle] at commits ⊢
  cases eq : w.db.reconcileCreatedCommit k externalId o.now with
  | error e =>
    rw [eq] at commits
    cases commits
  | ok r =>
    rw [eq] at commits
    exact Db.reconcileCreatedCommit_submits past eq

/-- The iteration of a job submits it. -/
lemma LocalProvider.reconcileOne_leads (view : ComputeJobView) (spec : ComputeTaskSpec) :
    Submission.Leads valid (JobPast view.id 0) (JobPast view.id 1) (p.reconcileOne view spec) := by
  have silent : ∀ {α : Type} (q : Submission α),
      Submission.Leads valid (JobPast view.id 0) (JobPast view.id 0) q :=
    Submission.Leads.silent (JobPast.steady view.id 0)
  unfold LocalProvider.reconcileOne
  split
  · exact Program.Leads.raise _ _ _
  · apply (silent _).bind
    intro known
    cases known with
    | some externalId => exact commitSubmitted_leads externalId
    | none =>
      refine (silent _).bind fun prepared => (silent _).bind fun externalId => ?_
      exact commitSubmitted_leads externalId

/-- The loop submits every job that it goes through. -/
lemma LocalProvider.reconcileEach_leads {records : List (ComputeJobView × ComputeTaskSpec)}
    (own : ∃ record ∈ records, record.1.id = k) :
    Submission.Leads valid (JobPast k 0) (JobPast k 1) (p.reconcileEach records) := by
  have silent : ∀ {n : ℕ} {α : Type} (q : Submission α),
      Submission.Leads valid (JobPast k n) (JobPast k n) q :=
    Submission.Leads.silent (JobPast.steady k _)
  induction records with
  | nil =>
    obtain ⟨record, mem, _⟩ := own
    cases mem
  | cons record rest ih =>
    obtain ⟨view, spec⟩ := record
    by_cases e : view.id = k
    · subst e
      apply (p.reconcileOne_leads view spec).bind
      exact fun first => silent _
    · apply (silent _).bind
      intro first
      have later : ∃ record ∈ rest, record.1.id = k := by
        obtain ⟨other, mem, own⟩ := own
        rcases List.mem_cons.mp mem with rfl | mem
        · exact (e own).elim
        · exact ⟨other, mem, own⟩
      exact (ih later).bind fun _ => Program.Leads.ret _ _

/-- A job that is created when `reconcile_created` is called has been submitted when it returns. -/
lemma LocalProvider.reconcileCreated_leads :
    Submission.Leads valid (JobPast k 0) (JobPast k 1) p.reconcileCreated := by
  refine Program.Leads.call (JobPast.steady k 0).world
    (fun w o _ => .refl w.db) fun w o past => ?_
  obtain ⟨j, hj, ch, le⟩ := past
  by_cases created : j.executionStatus = .created
  · refine p.reconcileEach_leads ⟨(j.view k, j.specJson), ?_, rfl⟩ w ⟨j, hj, ch, le⟩
    refine List.mem_map.mpr ⟨(k, j), List.mem_filter.mpr ⟨(Dict.mem_items _).mpr hj, ?_⟩, rfl⟩
    exact beq_iff_eq.mpr created
  · refine Submission.Leads.silent (JobPast.steady k 1) _ w ⟨j, hj, ch, ?_⟩
    revert created
    cases j.executionStatus <;> decide

end Submission

/-! ## A tick, assertion by assertion -/

/-- Leading from one assertion to another in a tick. -/
abbrev Ticking.Leads {α : Type} (valid : Json → Except PyErr ComputeTaskSpec) (F G : Db → Prop)
    (p : Ticking α) : Prop :=
  Program.Leads (tickMachine valid) (LocalWorld.Reaches valid) (fun w => F w.db)
    (fun w => G w.db) p

namespace Ticking.Leads

variable {α : Type} {F G : Db → Prop}

/-- A part of a tick that upholds the guarantee keeps what the actions keep. -/
lemma keeps (steady : Steady valid F) {p : Ticking α}
    (upholds : ∀ w, Ticking.Upholds valid p w) : Ticking.Leads valid F F p :=
  Program.Leads.keeps steady.world fun w _ => upholds w

/-- A transaction of a tick. -/
lemma transaction {β : Type} (steady : Steady valid F) {e : TickEffect} (own : e.OfTasks [])
    {f : e.Answer → Ticking β} {H : Db → Prop}
    (rest : ∀ (w : LocalWorld) (o : TickAnswer), F w.db → Program.Upholds (tickMachine valid)
      (LocalWorld.Reaches valid) (LocalWorld.Reaches valid) (fun r t => ∀ a, r = .ok a → H t.db)
      (f (w.handleTick valid e o).2) (w.handleTick valid e o).1) :
    Ticking.Leads valid F H (Program.call e >>= f) :=
  Program.Leads.call steady.world (fun w o _ => w.transaction_reaches e own o) rest

lemma reconciling {r : ReconcilerSetup} {p : Reconciling α}
    (leads : Reconciling.Leads valid r F G p) :
    Ticking.Leads valid F G (Ticking.reconciling r p) :=
  Program.Leads.embed (m := collectingMachine r) LocalWorld.db TickAnswer.reconcile
    (fun _ _ _ => rfl) (fun _ _ _ => rfl) (fun _ _ => Iff.rfl) leads

lemma submitting {p : Submission α} (leads : Submission.Leads valid F G p) :
    Ticking.Leads valid F G (Ticking.submitting p) :=
  Program.Leads.embed (m := localMachine valid) id TickAnswer.submission
    (fun _ _ _ => rfl) (fun _ _ _ => rfl) (fun _ _ => Iff.rfl) leads

end Ticking.Leads

/-- The six parts of a tick, each between its own assertions. -/
lemma ControllerProcess.tick_leads (c : ControllerProcess) (r : ReconcilerSetup)
    {F₀ F₁ F₂ F₃ F₄ F₅ F₆ : Db → Prop}
    (due : Reconciling.Leads valid r F₀ F₁ (reconcileDue r))
    (recovery : Ticking.Leads valid F₁ F₂
      (Ticking.recoverExpiredLeases >>= fun recovery => Program.check recovery))
    (created : Submission.Leads valid F₂ F₃ c.provider.reconcileCreated)
    (readiness : Ticking.Leads valid F₃ F₄
      (Ticking.readiness >>= fun readying => Program.check readying))
    (verification : Ticking.Leads valid F₄ F₅
      (Ticking.verifyCompletedWork >>= fun verification => Program.check verification))
    (dispatch : Ticking.Leads valid F₅ F₆ (c.dispatchReady valid)) :
    Ticking.Leads valid F₀ F₆ (c.tick valid r) := by
  apply (Ticking.Leads.reconciling due).bind
  intro observed
  apply recovery.bind
  intro recovered
  apply (Ticking.Leads.submitting created).bind
  intro reconciled
  apply readiness.bind
  intro readied
  apply verification.bind
  intro verified
  apply dispatch.bind
  exact fun dispatched => Program.Leads.ret _ _

/-! ## Becoming ready -/

lemma Startable.steady (id : String) : Steady valid (Startable id) :=
  fun _ _ free reaches => free.reached reaches

/-- A task that has left `PENDING`. -/
def Readied (id : String) (db : Db) : Prop :=
  db.HasTask id fun t => t.status ≠ .pending

lemma Readied.steady (id : String) : Steady valid (Readied id) :=
  fun _ _ readied reaches => readied.reached (fun before st => st.not_pending before) reaches

/-- The readiness service leaves no task that can start. -/
lemma readiness_leads (id : String) :
    Ticking.Leads valid (Startable id) (Readied id)
      (Ticking.readiness >>= fun readying => Program.check readying) := by
  apply Ticking.Leads.transaction (e := .readiness) (Startable.steady id) trivial
  intro w o free
  apply Program.Leads.committed
  intro readied commits
  have order := orderedAs_perm (w.db.readinessCandidates o.current) o.order
  obtain ⟨_, exact⟩ := w.db.reconcile_exact o.current o.changedAt _ order
  obtain ⟨chosen, _, rd, _⟩ := exact _ _ (Db.finish_ok commits)
  obtain ⟨t, ht, anytime⟩ := free.anytime
  by_cases pending : t.status = .pending
  · have mayStart : w.db.MayStart o.current id := by
      refine ⟨t, ht, pending, fun notBefore due => ?_, ?_⟩
      · rw [anytime] at due
        cases due
      · intro d mem own s hs
        obtain ⟨s', hs', succeeded⟩ := free.dependencies d mem own
        cases hs.symm.trans hs'
        exact succeeded
    obtain ⟨t', _, _, moved⟩ := rd.moved id ((chosen id).mpr mayStart)
    refine ⟨_, moved, ?_⟩
    show (t'.moved .ready o.changedAt).status ≠ .pending
    rw [Task.moved_status]
    decide
  · have before : Readied id w.db := ⟨t, ht, pending⟩
    exact Readied.steady id _ _ before (LocalWorld.transaction_reaches w .readiness trivial o)

/-! ## Verification -/

/-- A compute task that is in verification or has its verdict. -/
structure Verifying (id : String) (db : Db) : Prop where
  sound : db.Sound
  task : db.HasTask id fun t => t.executor = .compute ∧ (t.status = .verifying ∨ t.Settled)

/-- A task that has its verdict. -/
def Verified (id : String) (db : Db) : Prop :=
  db.HasTask id Task.Settled

lemma Verifying.steady (id : String) : Steady valid (Verifying id) := by
  rintro db db' ⟨sound, task⟩ reaches
  refine ⟨Db.Reaches.keeps (P := Db.Sound) reaches (fun _ e sd => sd.act valid e) sound, ?_⟩
  refine task.reached ?_ reaches
  rintro t l t' ⟨compute, before⟩ st
  exact ⟨(congrArg (fun fixed => fixed.2.1) st.fixed).trans compute, st.verifying_of before⟩

lemma Verified.steady (id : String) : Steady valid (Verified id) :=
  fun _ _ verified reaches => verified.reached (fun before st => st.settled_of before) reaches

/-- `verify_completed_work` leaves no task without a verdict. -/
lemma verification_leads (id : String) :
    Ticking.Leads valid (Verifying id) (Verified id)
      (Ticking.verifyCompletedWork >>= fun verification => Program.check verification) := by
  apply Ticking.Leads.transaction (e := .verifyCompletedWork) (Verifying.steady id) trivial
  intro w o before
  apply Program.Leads.committed
  intro verified commits
  have order := orderedAs_perm w.db.verifyingTasks o.order
  obtain ⟨t, ht, compute, verifying | settled⟩ := before.task
  · have queried : id ∈ orderedAs w.db.verifyingTasks o.order := by
      refine order.mem_iff.mpr (Dict.mem_keysWhere.mpr ⟨t, ht, ?_⟩)
      rw [verifying, compute]
      rfl
    have ok := Db.finish_ok commits
    obtain ⟨s, db', done, settles⟩ := TaskValidator.settlesEach_of_total before.sound order ok
    cases done.symm.trans ok
    obtain ⟨_, t', _, ht', ends, _⟩ := settles id queried
    exact ⟨t', ht', ends⟩
  · have before : Verified id w.db := ⟨t, ht, settled⟩
    exact Verified.steady id _ _ before
      (LocalWorld.transaction_reaches w .verifyCompletedWork trivial o)

/-! ## Dispatch -/

/-- A compute task that is ready for another attempt than its first `n`, or has begun it. -/
def Waiting (id : String) (n : ℕ) (db : Db) : Prop :=
  db.HasTask id fun t => (t.status = .ready ∧ t.attemptCount = n) ∨ n < t.attemptCount

/-- A task that has begun more than `n` attempts. -/
def Started (id : String) (n : ℕ) (db : Db) : Prop :=
  db.HasTask id fun t => n < t.attemptCount

lemma Waiting.steady (id : String) (n : ℕ) : Steady valid (Waiting id n) :=
  fun _ _ waits reaches => Db.HasTask.reached waits (fun before st => st.ready_of before) reaches

lemma Started.steady (id : String) (n : ℕ) : Steady valid (Started id n) :=
  fun _ _ started reaches =>
    Db.HasTask.reached started (fun more st => lt_of_lt_of_le more st.attempts_le) reaches

/-- A waiting task has started once its transaction has committed. -/
lemma Db.dispatchCommit_starts {a : JobArgs} {owner : String} {leaseExpiresAt now : Datetime}
    {jobIds : List String} {n : ℕ} (waits : Waiting a.taskId n db)
    (h : db.dispatchCommit a owner leaseExpiresAt now = .ok (jobIds, db')) :
    Started a.taskId n db' := by
  obtain ⟨t, ht, before⟩ := waits
  obtain ⟨rfl, left⟩ | ⟨task, jobs, ht', ready, rows, _⟩ := dispatchCommit_ok h
  · rcases before with ⟨ready, _⟩ | more
    · exact (left t ht ready).elim
    · exact ⟨t, ht, more⟩
  · cases ht.symm.trans ht'
    have tasks := congrArg Rows.tasks rows
    refine ⟨_, by rw [tasks]; exact Dict.get_set_self _ _ _, ?_⟩
    show n < ((t.leased owner leaseExpiresAt).moved .running now).attemptCount
    rw [Task.moved_attemptCount, if_pos rfl]
    have count : n ≤ t.attemptCount := by
      rcases before with ⟨_, count⟩ | more
      · exact le_of_eq count.symm
      · exact le_of_lt more
    exact Nat.lt_succ_of_le count

/-- The tasks of the loop are compute tasks, and one of them satisfies an assertion. -/
def Dispatching (ids : List String) (F : Db → Prop) (db : Db) : Prop :=
  (∀ id ∈ ids, Computes id db) ∧ F db

lemma Dispatching.steady (ids : List String) {F : Db → Prop} (steady : Steady valid F) :
    Steady valid (Dispatching ids F) := by
  rintro db db' ⟨computes, holds⟩ reaches
  exact ⟨fun id mem => (computes id mem).reached reaches, steady db db' holds reaches⟩

section Dispatcher

variable (c : ControllerProcess) {ids : List String} {id : String} {n : ℕ}

/-- A part of the dispatcher that starts nothing of interest. -/
lemma Ticking.Leads.dispatching {α : Type} {F : Db → Prop} (steady : Steady valid F)
    {p : Ticking α} (own : p.Within (·.OfTasks ids)) :
    Ticking.Leads valid (Dispatching ids F) (Dispatching ids F) p :=
  Program.Leads.within (Dispatching.steady ids steady).world
    (fun _ own _ o dispatching => LocalWorld.handleTick_reaches own o dispatching.1) own

/-- The iteration of a task starts it. -/
lemma ControllerProcess.dispatchOne_leads (mem : id ∈ ids) :
    Ticking.Leads valid (Dispatching ids (Waiting id n)) (Dispatching ids (Started id n))
      (dispatchOne valid c id) := by
  have waits : Steady valid (Waiting id n) := Waiting.steady id n
  refine Program.Leads.call (Dispatching.steady ids waits).world (fun w o _ => .refl w.db) ?_
  intro w o dispatching
  have answered : ((tickMachine valid).handle w (.readySpec id) o).2 = w.db.readySpec id := rfl
  rw [answered]
  obtain ⟨computes, t, ht, before⟩ := dispatching
  cases found : w.db.readySpec id with
  | none =>
    -- the task has begun another attempt already
    have left : t.status ≠ .ready := by
      intro ready
      simp [Db.readySpec, ht, ready] at found
    have more : n < t.attemptCount := by
      rcases before with ⟨ready, _⟩ | more
      · exact (left ready).elim
      · exact more
    exact fun _ _ => ⟨computes, t, ht, more⟩
  | some specJson =>
    have silent : ∀ {α : Type} {p : Ticking α}, p.Within (·.OfTasks ids) → Ticking.Leads valid
        (Dispatching ids (Waiting id n)) (Dispatching ids (Waiting id n)) p :=
      fun own => Ticking.Leads.dispatching waits own
    suffices rest : Ticking.Leads valid (Dispatching ids (Waiting id n))
        (Dispatching ids (Started id n)) _ from rest w ⟨computes, t, ht, before⟩
    apply Program.Leads.check
    intro spec _
    apply (silent (routeFrom_within spec _)).bind
    intro resourceClass
    apply (silent (Ticking.submitting_within _)).bind
    intro prepared
    have own : (TickEffect.dispatch (jobArgs id resourceClass spec prepared) c.controllerId
        c.leaseSeconds).OfTasks ids := mem
    refine Program.Leads.call (Dispatching.steady ids waits).world ?_ ?_
    · exact fun w o dispatching => LocalWorld.handleTick_reaches own o dispatching.1
    · intro w o dispatching
      apply Program.Leads.committed
      intro jobIds commits
      have reaches : w.Reaches valid _ := LocalWorld.handleTick_reaches own o dispatching.1
      refine ⟨fun id mem => (dispatching.1 id mem).reached reaches, ?_⟩
      exact Db.dispatchCommit_starts dispatching.2 (Db.finish_ok commits)

/-- The loop starts every task that it goes through. -/
lemma ControllerProcess.dispatchEach_leads {rest : List String} (part : ∀ i ∈ rest, i ∈ ids)
    (own : id ∈ rest) :
    Ticking.Leads valid (Dispatching ids (Waiting id n)) (Dispatching ids (Started id n))
      (dispatchEach valid c rest) := by
  have waits : Steady valid (Waiting id n) := Waiting.steady id n
  have started : Steady valid (Started id n) := Started.steady id n
  induction rest with
  | nil => cases own
  | cons i rest ih =>
    have others : ∀ i ∈ rest, i ∈ ids := fun i mem => part i (List.mem_cons_of_mem _ mem)
    have mem := part i List.mem_cons_self
    by_cases e : i = id
    · subst e
      apply (c.dispatchOne_leads mem).bind
      intro first
      apply (Ticking.Leads.dispatching started (c.dispatchEach_within others)).bind
      exact fun _ => Program.Leads.ret _ _
    · apply (Ticking.Leads.dispatching waits (c.dispatchOne_within mem)).bind
      intro first
      have later : id ∈ rest := by
        rcases List.mem_cons.mp own with rfl | mem
        · exact (e rfl).elim
        · exact mem
      exact (ih others later).bind fun _ => Program.Leads.ret _ _

/-- A compute task of an active project that waits for another attempt, or has begun it. -/
structure Dispatchable (projectId id : String) (n : ℕ) (db : Db) : Prop where
  active : ActiveProject projectId db
  fixed : db.HasTask id fun t => t.projectId = projectId ∧ t.executor = .compute
  waits : Waiting id n db

lemma Dispatchable.steady (projectId id : String) (n : ℕ) :
    Steady valid (Dispatchable projectId id n) := by
  rintro db db' ⟨active, fixed, waits⟩ reaches
  refine ⟨active.reached reaches, fixed.reached ?_ reaches,
    Waiting.steady id n _ _ waits reaches⟩
  rintro t l t' ⟨project, compute⟩ st
  exact ⟨(congrArg (fun fixed => fixed.1) st.fixed).trans project,
    (congrArg (fun fixed => fixed.2.1) st.fixed).trans compute⟩

/-- `dispatch_ready` starts every task that waits. -/
lemma ControllerProcess.dispatchReady_leads (projectId : String) :
    Ticking.Leads valid (Dispatchable projectId id n) (Started id n) (c.dispatchReady valid) := by
  refine Program.Leads.call (Dispatchable.steady projectId id n).world (fun w o _ => .refl w.db) ?_
  intro w o dispatchable
  have computes : ∀ i ∈ w.db.readyTasks, Computes i w.db := by
    intro i mem
    obtain ⟨t, ht, _, compute⟩ := Db.mem_readyTasks mem
    exact ⟨t, ht, compute⟩
  obtain ⟨t, ht, ⟨ready, count⟩ | more⟩ := dispatchable.waits
  · have queried : id ∈ w.db.readyTasks := by
      obtain ⟨p, hp, lifecycle⟩ := dispatchable.active
      obtain ⟨t', ht', rfl, compute⟩ := dispatchable.fixed
      cases ht.symm.trans ht'
      refine Db.mem_readyTasks_of ht ready compute ?_
      rw [hp, Option.any_some, lifecycle]
      rfl
    have leads : Ticking.Leads valid (Dispatching _ (Waiting id n))
        (Dispatching _ (Started id n)) _ :=
      c.dispatchEach_leads (fun _ mem => mem) queried
    refine (leads w ⟨computes, t, ht, Or.inl ⟨ready, count⟩⟩).mono fun _ _ ends a returns => ?_
    exact (ends a returns).2
  · have started : Steady valid (Started id n) := Started.steady id n
    have keeps : Ticking.Leads valid (Dispatching _ (Started id n)) (Dispatching _ (Started id n))
        (dispatchEach valid c w.db.readyTasks) :=
      Ticking.Leads.dispatching started (c.dispatchEach_within fun _ mem => mem)
    refine (keeps w ⟨computes, t, ht, more⟩).mono fun _ _ ends a returns => ?_
    exact (ends a returns).2

end Dispatcher

/-! ## All that waits -/

/-- Whatever waited in the first database has been attended to in the second one. -/
structure Attended (db db' : Db) : Prop where
  submitted : ∀ {k j}, db.jobs.get k = some j → j.executionStatus = .created →
    ∃ j', db'.jobs.get k = some j' ∧ j'.executionStatus ≠ .created
  collected : ∀ {k j}, db.jobs.get k = some j → j.executionStatus = .collecting →
    ∃ j', db'.jobs.get k = some j' ∧ j'.executionStatus.isTerminal = true
  readied : ∀ {id t}, db.tasks.get id = some t → t.status = .pending →
    (∀ d ∈ db.dependencies, d.taskId = id →
      ∃ t', db.tasks.get d.dependsOnTaskId = some t' ∧ t'.status = .succeeded) →
    ∃ t', db'.tasks.get id = some t' ∧ t'.status ≠ .pending
  verified : ∀ {id t}, db.tasks.get id = some t → t.status = .verifying → t.executor = .compute →
    ∃ t', db'.tasks.get id = some t' ∧ (t'.status = .succeeded ∨ t'.status = .failed)
  started : ∀ {id t}, db.tasks.get id = some t → t.status = .ready → t.executor = .compute →
    (∃ p, db.projects.get t.projectId = some p ∧ p.lifecycle = .active) →
    ∃ t', db'.tasks.get id = some t' ∧ t.attemptCount < t'.attemptCount

section Tick

variable (c : ControllerProcess) (r : ReconcilerSetup) {F : Db → Prop}

lemma reconcileDue_keeps (steady : Steady valid F) :
    Reconciling.Leads valid r F F (reconcileDue r) :=
  Program.Leads.keeps steady fun db _ => reconcileDue_upholds r db

/-- A transaction that has no business with an assertion. -/
lemma Ticking.Leads.transaction_keeps {α : Type} (steady : Steady valid F) {e : TickEffect}
    (own : e.OfTasks []) (read : e.Answer → Except PyErr α) :
    Ticking.Leads valid F F (Program.call e >>= fun answer => Program.check (read answer)) :=
  Ticking.Leads.keeps steady fun w =>
    Ticking.Upholds.silent (Program.Within.call own fun _ => Program.Within.check _ _) w

lemma ControllerProcess.dispatchReady_keeps (steady : Steady valid F) :
    Ticking.Leads valid F F (c.dispatchReady valid) :=
  Ticking.Leads.keeps steady fun w => c.dispatchReady_upholds w

lemma recovery_keeps (steady : Steady valid F) :
    Ticking.Leads valid F F
      (Ticking.recoverExpiredLeases >>= fun recovery => Program.check recovery) :=
  Ticking.Leads.transaction_keeps steady (e := .recoverExpiredLeases) trivial
    fun recovery => recovery

lemma readiness_keeps (steady : Steady valid F) :
    Ticking.Leads valid F F (Ticking.readiness >>= fun readying => Program.check readying) :=
  Ticking.Leads.transaction_keeps steady (e := .readiness) trivial fun readying => readying

lemma verification_keeps (steady : Steady valid F) :
    Ticking.Leads valid F F
      (Ticking.verifyCompletedWork >>= fun verification => Program.check verification) :=
  Ticking.Leads.transaction_keeps steady (e := .verifyCompletedWork) trivial
    fun verification => verification

lemma ControllerProcess.tick_submits (k : String) :
    Ticking.Leads valid (JobPast k 0) (JobPast k 1) (c.tick valid r) := by
  have before : Steady valid (JobPast k 0) := JobPast.steady k 0
  have after : Steady valid (JobPast k 1) := JobPast.steady k 1
  exact c.tick_leads r (reconcileDue_keeps r before) (recovery_keeps before)
    c.provider.reconcileCreated_leads (readiness_keeps after) (verification_keeps after)
    (c.dispatchReady_keeps after)

lemma ControllerProcess.tick_collects (k : String) :
    Ticking.Leads valid (JobPast k 4) (JobPast k 5) (c.tick valid r) := by
  have after : Steady valid (JobPast k 5) := JobPast.steady k 5
  exact c.tick_leads r (reconcileDue_leads r) (recovery_keeps after)
    (Submission.Leads.silent after _) (readiness_keeps after) (verification_keeps after)
    (c.dispatchReady_keeps after)

lemma ControllerProcess.tick_readies (id : String) :
    Ticking.Leads valid (Startable id) (Readied id) (c.tick valid r) := by
  have before : Steady valid (Startable id) := Startable.steady id
  have after : Steady valid (Readied id) := Readied.steady id
  exact c.tick_leads r (reconcileDue_keeps r before) (recovery_keeps before)
    (Submission.Leads.silent before _) (readiness_leads id) (verification_keeps after)
    (c.dispatchReady_keeps after)

lemma ControllerProcess.tick_verifies (id : String) :
    Ticking.Leads valid (Verifying id) (Verified id) (c.tick valid r) := by
  have before : Steady valid (Verifying id) := Verifying.steady id
  have after : Steady valid (Verified id) := Verified.steady id
  exact c.tick_leads r (reconcileDue_keeps r before) (recovery_keeps before)
    (Submission.Leads.silent before _) (readiness_keeps before) (verification_leads id)
    (c.dispatchReady_keeps after)

lemma ControllerProcess.tick_starts (projectId id : String) (n : ℕ) :
    Ticking.Leads valid (Dispatchable projectId id n) (Started id n) (c.tick valid r) := by
  have before : Steady valid (Dispatchable projectId id n) := Dispatchable.steady projectId id n
  exact c.tick_leads r (reconcileDue_keeps r before) (recovery_keeps before)
    (Submission.Leads.silent before _) (readiness_keeps before) (verification_keeps before)
    (c.dispatchReady_leads projectId)

end Tick

/-- Where a command leads it has led for good when it returns. -/
lemma command_reaches {w : LocalWorld} {before events later : List TickEvent}
    {p p₁ p₂ p₃ : TickState} {c : ControllerProcess} {command : Command}
    (rn : (tickSystem valid).run { world := w } before = some p)
    (st : (tickSystem valid).step p ((), .start (c, command)) = some p₁)
    (rn₁ : (tickSystem valid).run p₁ events = some p₂)
    (once : ∀ started, ((), .start started) ∉ events) {result : Option TickResult}
    (returned : p₂.ended () = some (.ok result))
    (rn₂ : (tickSystem valid).run p₂ later = some p₃) {F G : Db → Prop} (steady : Steady valid G)
    (leads : Ticking.Leads valid F G (c.main valid command)) (holds : F p.world.db) :
    G p₃.world.db := by
  have ends := Machine.pool_ends (ticks_fit w)
    (Q := fun result w => ∀ a, result = .ok a → G w.db)
    (fun _ w w' ends reaches a returns => steady w.db w'.db (ends a returns) reaches) rn st
    (fun _ => leads p.world holds) rn₁ once returned
  have all : (tickSystem valid).run { world := w } (before ++ ((), .start (c, command)) :: events) =
      some p₂ :=
    System.run_append.mpr ⟨p, rn, System.run_cons.mpr ⟨p₁, st, rn₁⟩⟩
  have moved := ((Machine.pool_secure (ticks_fit w) all).run (ticks_fit w) rn₂).2
  exact steady _ _ (ends result rfl) moved

/-- A tick that returns has attended to everything that was waiting when it began, and no later
    process undoes it. -/
theorem tick_attends {w : LocalWorld} (empty : w.db = Db.empty)
    {before events later : List TickEvent} {p p₁ p₂ p₃ : TickState} {c : ControllerProcess}
    {r : ReconcilerSetup} (rn : (tickSystem valid).run { world := w } before = some p)
    (st : (tickSystem valid).step p ((), .start (c, .once r)) = some p₁)
    (rn₁ : (tickSystem valid).run p₁ events = some p₂)
    (once : ∀ started, ((), .start started) ∉ events) {result : Option TickResult}
    (returned : p₂.ended () = some (.ok result))
    (rn₂ : (tickSystem valid).run p₂ later = some p₃) : Attended p.world.db p₃.world.db := by
  have reached : ∀ {F G : Db → Prop}, Steady valid G →
      Ticking.Leads valid F G (c.tick valid r) → F p.world.db → G p₃.world.db :=
    fun steady leads holds => command_reaches rn st rn₁ once returned rn₂ steady
      (leads.bind fun _ => Program.Leads.ret _ _) holds
  have reaches : Db.Reaches valid w.db p.world.db := Machine.pool_rely (ticks_fit w) rn
  rw [empty] at reaches
  obtain ⟨actions, run⟩ := reaches
  have coherent : ∀ {k j}, p.world.db.jobs.get k = some j → j.Coherent := fun hj =>
    (job_rows (I := fun j _ => j.Coherent) (by rintro j l ⟨⟨a, t, rfl⟩, _⟩; exact a.row_coherent t)
      (fun ch st => ch.step st) run).row hj
  have anytime : ∀ {id t}, p.world.db.tasks.get id = some t → t.notBefore = none := fun ht =>
    (task_rows (I := fun t _ => t.notBefore = none) (by rintro t l ⟨⟨a, rfl⟩, _⟩; rfl)
      (fun none st => (congrArg (fun fixed => fixed.2.2) st.fixed).trans none) run).row ht
  constructor
  · intro k j hj created
    obtain ⟨j', hj', _, le⟩ := reached (JobPast.steady k 1) (c.tick_submits r k)
      ⟨j, hj, coherent hj, Nat.zero_le _⟩
    refine ⟨j', hj', ?_⟩
    rintro e
    rw [e] at le
    cases le
  · intro k j hj collecting
    obtain ⟨j', hj', _, le⟩ := reached (JobPast.steady k 5) (c.tick_collects r k)
      ⟨j, hj, coherent hj, by rw [collecting]; exact le_refl _⟩
    exact ⟨j', hj', ComputeExecutionStatus.rank_terminal.mp le⟩
  · intro id t ht _ dependencies
    exact reached (Readied.steady id) (c.tick_readies r id) ⟨⟨t, ht, anytime ht⟩, dependencies⟩
  · intro id t ht verifying compute
    exact reached (Verified.steady id) (c.tick_verifies r id)
      ⟨controller_sound run, t, ht, compute, Or.inl verifying⟩
  · intro id t ht ready compute active
    exact reached (Started.steady id t.attemptCount)
      (c.tick_starts r t.projectId id t.attemptCount)
      ⟨active, ⟨t, ht, rfl, compute⟩, t, ht, Or.inl ⟨ready, rfl⟩⟩

/-- The tick of the process goes from start to end, and a second task is created meanwhile. -/
def tickedTurns : List TickEvent :=
  List.replicate 7 ((), .perform (tickedAnswer "j2")) ++
  ((), .drift (.createTask { id := "t2", projectId := "p", executor := .compute,
                             idempotencyKey := "t2", specJson := .null })) ::
    List.replicate 8 ((), .perform (tickedAnswer "j2"))

/-- After the crash of one process another one starts the task, and no third process undoes it. -/
theorem tick_attends_crashed :
    ∃ p p₁ p₂ p₃, tickedSystem.run { world := { db := Db.empty } }
        (tickedStart ++ [((), .start (tickedProcess "a", .once tickedSetup)),
          ((), .perform (tickedAnswer "j1")), ((), .crash)]) = some p ∧
      tickedSystem.step p ((), .start (tickedProcess "b", .once tickedSetup)) = some p₁ ∧
      tickedSystem.run p₁ tickedTurns = some p₂ ∧
      tickedSystem.run p₂ [((), .start (tickedProcess "c", .once tickedSetup)),
        ((), .perform (tickedAnswer "j3"))] = some p₃ ∧
      (p.world.db.tasks.get "t").any (·.status == .pending) = true ∧
      (p₃.world.db.tasks.get "t").any (·.leaseOwner == some "b") = true ∧
      Attended p.world.db p₃.world.db := by
  have all : ((tickedSystem.run { world := { db := Db.empty } }
        (tickedStart ++ [((), .start (tickedProcess "a", .once tickedSetup)),
          ((), .perform (tickedAnswer "j1")), ((), .crash)])).bind fun p =>
      (tickedSystem.step p ((), .start (tickedProcess "b", .once tickedSetup))).bind fun p₁ =>
        (tickedSystem.run p₁ tickedTurns).bind fun p₂ =>
          (tickedSystem.run p₂ [((), .start (tickedProcess "c", .once tickedSetup)),
            ((), .perform (tickedAnswer "j3"))]).map fun p₃ =>
            ((p.world.db.tasks.get "t").any (·.status == .pending),
              (p₃.world.db.tasks.get "t").any (·.leaseOwner == some "b"),
              (p₂.ended ()).any (·.isOk))) = some (true, true, true) := by
    decide
  obtain ⟨p, rn, all⟩ := Option.bind_eq_some_iff.mp all
  obtain ⟨p₁, st, all⟩ := Option.bind_eq_some_iff.mp all
  obtain ⟨p₂, rn₁, all⟩ := Option.bind_eq_some_iff.mp all
  obtain ⟨p₃, rn₂, all⟩ := Option.map_eq_some_iff.mp all
  simp only [Prod.mk.injEq] at all
  obtain ⟨pending, leased, ended⟩ := all
  have once : ∀ started, (((), .start started) : TickEvent) ∉ tickedTurns := by
    intro started mem
    simp [tickedTurns] at mem
  cases returned : p₂.ended () with
  | none =>
    rw [returned] at ended
    cases ended
  | some result =>
    cases result with
    | error e =>
      rw [returned] at ended
      cases ended
    | ok result =>
      exact ⟨p, p₁, p₂, p₃, rn, st, rn₁, rn₂, pending, leased,
        tick_attends rfl rn st rn₁ once returned rn₂⟩

end ResearchController
