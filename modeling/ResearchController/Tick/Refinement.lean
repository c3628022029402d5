import ResearchController.Lifecycle.JobLog
import ResearchController.Tick.Program

/-!
# Ticking processes refine the controller

The system `controller` takes the transactions of the controller in any order, each with its data
from nowhere. Here is why that is enough: whatever a process does that ticks on a database, crashes
in the middle of a tick and is started again, every database that it leaves behind is one that
`controller` reaches (`ticks_refine`). So every invariant of `controller` holds of them.

The argument is by rely and guarantee, and `Db.Reaches` is both: each effect of a tick is at most one
action of the controller, and the command line may take actions in between. Two actions are only
enabled because of what an earlier query of the same tick has returned: a candidate is ingested for
a job that was collecting, and a task is dispatched that was a compute task. No action can take that
away (`Known`, `Computes`).
-/

namespace ResearchController
open Lib

variable {valid : Json → Except PyErr ComputeTaskSpec} {db db' : Db}

/-- Some actions of the controller lead from one database to the other. -/
def Db.Reaches (valid : Json → Except PyErr ComputeTaskSpec) (db db' : Db) : Prop :=
  ∃ actions, (controller valid).run db actions = some db'

namespace Db.Reaches

lemma refl (db : Db) : db.Reaches valid db := ⟨[], rfl⟩

lemma trans {db'' : Db} (first : db.Reaches valid db') (second : db'.Reaches valid db'') :
    db.Reaches valid db'' := by
  obtain ⟨actions, rn⟩ := first
  obtain ⟨actions', rn'⟩ := second
  exact ⟨actions ++ actions', System.run_append.mpr ⟨db', rn, rn'⟩⟩

/-- One enabled action. -/
lemma act {e : Action} (enabled : db.enabled e) : db.Reaches valid (db.act valid e) := by
  refine ⟨[e], System.run_cons.mpr ⟨_, ?_, rfl⟩⟩
  simp only [controller, enabled, if_true]

/-- What every action keeps. -/
lemma keeps {P : Db → Prop} (reaches : db.Reaches valid db')
    (act : ∀ db e, P db → P (db.act valid e)) (before : P db) : P db' := by
  obtain ⟨actions, rn⟩ := reaches
  refine System.run_invariant (P := P) ?_ rn before
  intro db e db' hs st
  obtain ⟨_, rfl⟩ := controller_step st
  exact act db e hs

end Db.Reaches

/-- What a transaction leaves behind is what its action leaves behind. -/
lemma Db.finish_commit {α : Type} (db : Db) (r : Except PyErr (α × Db)) :
    (db.finish r).1 = db.commit r := by
  cases r with
  | error e => rfl
  | ok p => rfl

/-- A transaction that is an enabled action. -/
lemma Db.Reaches.committed {α : Type} {x : Except PyErr (α × Db)} (a : Action)
    (enabled : db.enabled a) (acts : db.act valid a = db.commit x) :
    db.Reaches valid (db.finish x).1 := by
  rw [Db.finish_commit, ← acts]
  exact .act enabled

/-! ## What a tick may rely on -/

/-- A job that is there has a property. -/
def Db.HasJob (db : Db) (k : String) (P : ComputeJob → Prop) : Prop :=
  ∃ j, db.jobs.get k = some j ∧ P j

/-- A task that is there has a property. -/
def Db.HasTask (db : Db) (id : String) (P : Task → Prop) : Prop :=
  ∃ t, db.tasks.get id = some t ∧ P t

/-- What every step of a job keeps stays true of the job. -/
lemma Db.HasJob.reached {k : String} {P : ComputeJob → Prop} (has : db.HasJob k P)
    (step : ∀ {j l j'}, P j → ComputeJob.Step j l j' → P j') (reaches : db.Reaches valid db') :
    db'.HasJob k P := by
  refine reaches.keeps (P := fun db => db.HasJob k P) ?_ has
  rintro db e ⟨j, hj, holds⟩
  have grows : db.JobsGrow (db.act valid e) := db.act_jobsGrow e
  obtain ⟨j', l, hj', cs, _⟩ := grows.kept hj
  exact ⟨j', hj', cs.keepsRow step holds⟩

/-- What every step of a task keeps stays true of the task. -/
lemma Db.HasTask.reached {id : String} {P : Task → Prop} (has : db.HasTask id P)
    (step : ∀ {t l t'}, P t → Task.Step t l t' → P t') (reaches : db.Reaches valid db') :
    db'.HasTask id P := by
  refine reaches.keeps (P := fun db => db.HasTask id P) ?_ has
  rintro db e ⟨t, ht, holds⟩
  have grows : db.TasksGrow (db.act valid e) := db.act_tasksGrow e
  obtain ⟨t', l, ht', cs, _⟩ := grows.kept ht
  exact ⟨t', ht', cs.keepsRow step holds⟩

lemma ComputeJob.Step.fixed {j j' : ComputeJob} {l : List Entry} (st : ComputeJob.Step j l j') :
    j'.fixed = j.fixed := by
  cases st with
  | submitted _ => exact congrArg Prod.fst (ComputeJob.moved_identity _ _ _)
  | seen status => exact congrArg Prod.fst (j.seen_identity status)
  | polled _ _ => rfl
  | pollFailed _ _ => rfl
  | running _ _ => exact congrArg Prod.fst (ComputeJob.moved_identity _ _ _)
  | collecting _ _ => exact congrArg Prod.fst (ComputeJob.moved_identity _ _ _)
  | finalised _ _ => exact congrArg Prod.fst (ComputeJob.stepped_identity _ _ _)

/-- The columns of a task that neither a step nor the dispatcher assigns. -/
def Task.fixed (t : Task) : String × TaskExecutor × Option Datetime :=
  (t.projectId, t.executor, t.notBefore)

@[simp] lemma Task.moved_fixed (t : Task) (s : TaskStatus) (now : Datetime) :
    (t.moved s now).fixed = t.fixed := by
  unfold Task.moved
  split <;> split <;> rfl

lemma Task.Step.fixed {t t' : Task} {l : List Entry} (st : Task.Step t l t') :
    t'.fixed = t.fixed := by
  cases st with
  | readied _ => exact Task.moved_fixed _ _ _
  | unleased => rfl
  | expired _ =>
    unfold Task.expired
    split
    · rw [Task.moved_fixed, Task.moved_fixed]
      rfl
    · rw [Task.moved_fixed]
      rfl
  | started _ => exact Task.moved_fixed _ _ _
  | ended _ => exact Task.moved_fixed _ _ _
  | settled _ _ => exact Task.moved_fixed _ _ _

/-- The job that a view was taken of is there, and it is the job of the same task and project. -/
def Known (view : ComputeJobView) (db : Db) : Prop :=
  db.HasJob view.id fun job => job.projectId = view.projectId ∧ job.taskId = view.taskId

/-- A compute task is there. -/
def Computes (id : String) (db : Db) : Prop :=
  db.HasTask id fun t => t.executor = .compute

lemma Known.reached {view : ComputeJobView} (kn : Known view db)
    (reaches : db.Reaches valid db') : Known view db' := by
  refine Db.HasJob.reached kn ?_ reaches
  rintro j l j' ⟨project, task⟩ st
  have same := st.fixed
  exact ⟨(congrArg JobOwner.projectId same).trans project,
    (congrArg JobOwner.taskId same).trans task⟩

lemma Computes.reached {id : String} (cm : Computes id db) (reaches : db.Reaches valid db') :
    Computes id db' := by
  refine Db.HasTask.reached cm ?_ reaches
  intro t l t' compute st
  exact (congrArg (fun fixed => fixed.2.1) st.fixed).trans compute

/-! ## The reconciler -/

/-- Whether an effect of the reconciler ingests for none but the given views. -/
def ReconcileEffect.OfViews (views : List ComputeJobView) : ReconcileEffect → Prop
  | .ingest view _ => view ∈ views
  | _ => True

/-- Every effect of the reconciler is at most one action. -/
lemma ReconcilerSetup.handle_reaches (r : ReconcilerSetup) {views : List ComputeJobView}
    {e : ReconcileEffect} (own : e.OfViews views) (o : ReconcileAnswer)
    (known : ∀ view ∈ views, Known view db) : db.Reaches valid (r.handle db e o).1 := by
  cases e with
  | collectingJobs => exact .refl db
  | collect view => exact .refl db
  | ingest view candidate =>
    simp only [handle, ReconcilerSetup.ingest]
    split
    · obtain ⟨job, hj, project, task⟩ := known view own
      let a := r.ingestArgs view candidate o.uuid
      refine .committed (.ingested view.id candidate o.uuid a.digest a.uri a.sizeBytes) ?_ ?_
      · simp only [Db.enabled, hj]
        rfl
      · -- the arguments read nothing of the view but what is known of it
        simp only [Db.act, hj, ComputeJobView.ingestArgs, ComputeJob.view, project, task]
        rfl
    · exact .refl db
  | finalise jobId => exact .committed (.finalised jobId o.now) trivial rfl
  | now => exact .refl db
  | dueJobs now => exact .refl db
  | poll view => exact .refl db
  | pollRaised jobId error now =>
    exact .committed (.pollRaised jobId error.typeName r.pollInterval now) trivial rfl
  | record observation =>
    exact .committed (.observed observation r.pollInterval o.now) trivial rfl

/-- Upholding `Db.Reaches` among others that uphold it too. -/
abbrev Reconciling.Upholds {α : Type} (valid : Json → Except PyErr ComputeTaskSpec)
    (r : ReconcilerSetup) (p : Reconciling α) (db : Db) : Prop :=
  Program.Upholds (collectingMachine r) (Db.Reaches valid) (Db.Reaches valid)
    (fun _ _ => True) p db

section Reconciler

variable (r : ReconcilerSetup)

lemma ingestEach_within {views : List ComputeJobView} {view : ComputeJobView} (mem : view ∈ views)
    (candidates : List ArtifactCandidate) :
    (ingestEach view candidates).Within (·.OfViews views) := by
  induction candidates with
  | nil => trivial
  | cons candidate rest ih =>
    refine ⟨mem, fun ingested => ?_⟩
    exact (Program.Within.check _ _).bind fun _ => ih

lemma collectOne_within {views : List ComputeJobView} {view : ComputeJobView}
    (mem : view ∈ views) : (collectOne r view).Within (·.OfViews views) := by
  apply (Program.Within.check _ _).bind
  refine fun _ => ⟨trivial, fun collected => ?_⟩
  apply (Program.Within.check _ _).bind
  intro candidates
  apply (ingestEach_within mem candidates).bind
  exact fun _ => ⟨trivial, fun finalised => Program.Within.check _ _⟩

lemma collectEach_within {views rest : List ComputeJobView} (part : ∀ view ∈ rest, view ∈ views) :
    (collectEach r rest).Within (·.OfViews views) := by
  induction rest with
  | nil => trivial
  | cons view rest ih =>
    apply (collectOne_within r (part view List.mem_cons_self)).bind
    intro first
    apply (ih fun view mem => part view (List.mem_cons_of_mem _ mem)).bind
    exact fun _ => trivial

lemma pollEach_within (now : Datetime) (views : List ComputeJobView) :
    (pollEach r now views).Within (·.OfViews []) := by
  induction views with
  | nil => trivial
  | cons view rest ih =>
    have one : (pollOne r now view).Within (·.OfViews []) := by
      apply (Program.Within.check _ _).bind
      refine fun _ => ⟨trivial, fun answer => ?_⟩
      cases answer with
      | error e => exact ⟨trivial, fun _ => (Program.Within.check _ _).bind fun _ => trivial⟩
      | ok observation =>
        exact ⟨trivial, fun _ => (Program.Within.check _ _).bind fun _ => trivial⟩
    apply one.bind
    intro first
    exact ih.bind fun _ => trivial

/-- The query of `_reconcile_collecting` returns jobs that are there. -/
lemma collectingJobs_known (db : Db) (order : List String) :
    ∀ view ∈ arranged db.collectingJobs order, Known view db := by
  intro view mem
  obtain ⟨id, job, hj, _, rfl⟩ := Db.mem_collectingJobs.mp (mem_arranged mem)
  exact ⟨job, hj, rfl, rfl⟩

lemma reconcileCollecting_upholds (db : Db) :
    Reconciling.Upholds valid r (reconcileCollecting r) db := by
  apply Program.Upholds.call (fun _ => True) trivial (fun _ _ _ _ => trivial)
  · exact fun db o _ => .refl db
  · intro db o _
    have known := collectingJobs_known db o.order
    have upholds := Program.Upholds.within (m := collectingMachine r)
      (F := fun db => ∀ view ∈ arranged _ o.order, Known view db)
      (fun _ _ known reaches view mem => (known view mem).reached reaches) id
      (fun _ own _ o known => (r.handle_reaches own o known : Db.Reaches valid _ _))
      (collectEach_within r fun _ mem => mem) known
    exact upholds.mono fun _ _ _ => trivial

/-- Nothing has to be known for polling. -/
lemma polling_upholds (db : Db) :
    Reconciling.Upholds valid r
      (Reconciling.now >>= fun now => Reconciling.dueJobs now >>= fun views => pollEach r now views)
      db := by
  have inside : (Reconciling.now >>= fun now => Reconciling.dueJobs now >>= fun views =>
      pollEach r now views).Within (·.OfViews []) :=
    ⟨trivial, fun now => ⟨trivial, fun views => pollEach_within r now views⟩⟩
  exact Program.Upholds.within (F := fun _ => True) (fun _ _ _ _ => trivial) id
    (fun _ own _ o _ => r.handle_reaches own o fun _ mem => (List.not_mem_nil mem).elim) inside
    trivial

lemma reconcileDue_upholds (db : Db) : Reconciling.Upholds valid r (reconcileDue r) db := by
  apply (reconcileCollecting_upholds r db).bind _ fun _ _ _ => trivial
  intro _ db _
  have second : ∀ (observed : List String) (db : Db), Reconciling.Upholds valid r
      (reconcileCollecting r >>= fun _ => return observed) db := by
    intro observed db
    exact (reconcileCollecting_upholds r db).bind (fun _ _ _ => trivial) fun _ _ _ => trivial
  exact (polling_upholds r db).bind (fun observed db _ => second observed db) fun _ _ _ => trivial

end Reconciler

/-! ## A tick -/

/-- Some actions of the controller lead from the one database to the other. -/
def LocalWorld.Reaches (valid : Json → Except PyErr ComputeTaskSpec) (w w' : LocalWorld) : Prop :=
  w.db.Reaches valid w'.db

/-- Whether an effect of a tick is none of the reconciler and dispatches none but the given
    tasks. -/
def TickEffect.OfTasks (ids : List String) : TickEffect → Prop
  | .reconcile _ _ => False
  | .dispatch a _ _ => a.taskId ∈ ids
  | _ => True

/-- Every effect of the submission protocol is at most one action. -/
lemma LocalWorld.handle_reaches (w : LocalWorld) (e : SubmissionEffect) (o : Surroundings) :
    w.Reaches valid (w.handle e o).1 := by
  cases e with
  | commitSubmitted jobId externalId =>
    have done : w.db.Reaches valid
        (w.db.finish (w.db.reconcileCreatedCommit jobId externalId o.now)).1 :=
      .committed (.submitted jobId externalId o.now) trivial rfl
    simp only [Reaches, handle]
    cases eq : w.db.reconcileCreatedCommit jobId externalId o.now with
    | error e => exact .refl _
    | ok r =>
      rw [eq] at done
      exact done
  | loadRecord path =>
    simp only [Reaches, handle]
    cases w.submissions.get path with
    | none => exact .refl _
    | some record => exact .refl _
  | createdJobs => exact .refl _
  | recordExists path => exact .refl _
  | writeRecord path record => exact .refl _
  | newExternalId => exact .refl _
  | discoverResources => exact .refl _
  | writePrepared prepared => exact .refl _
  | launch prepared => exact .refl _

/-- Every other effect of a tick is at most one action. -/
lemma LocalWorld.handleTick_reaches {w : LocalWorld} {ids : List String} {e : TickEffect}
    (own : e.OfTasks ids) (o : TickAnswer) (computes : ∀ id ∈ ids, Computes id w.db) :
    w.Reaches valid (w.handleTick valid e o).1 := by
  cases e with
  | reconcile r e => exact own.elim
  | recoverExpiredLeases =>
    exact Db.Reaches.committed (.recoverExpiredLeases o.current o.changedAt _)
      (orderedAs_perm _ o.order) rfl
  | submission e => exact w.handle_reaches e o.submission
  | readiness =>
    exact Db.Reaches.committed (.reconcile o.current o.changedAt _) (orderedAs_perm _ o.order) rfl
  | verifyCompletedWork =>
    exact Db.Reaches.committed (.verified o.readFile o.loads o.frames o.changedAt _)
      (orderedAs_perm _ o.order) rfl
  | readyTasks => exact .refl _
  | readySpec taskId => exact .refl _
  | probe => exact .refl _
  | remaining => exact .refl _
  | dispatch a owner leaseSeconds =>
    obtain ⟨t, ht, compute⟩ := computes a.taskId own
    refine Db.Reaches.committed (.dispatch { a with id := o.uuid } owner
      (o.current + leaseSeconds * 1000000) o.changedAt) ?_ rfl
    intro t' ht'
    cases ht.symm.trans ht'
    exact compute

/-- An effect that dispatches nothing. -/
lemma LocalWorld.transaction_reaches (w : LocalWorld) (e : TickEffect) (own : e.OfTasks [])
    (o : TickAnswer) : w.Reaches valid (w.handleTick valid e o).1 :=
  handleTick_reaches own o fun _ mem => (List.not_mem_nil mem).elim

/-- Upholding `LocalWorld.Reaches` among others that uphold it too. -/
abbrev Ticking.Upholds {α : Type} (valid : Json → Except PyErr ComputeTaskSpec) (p : Ticking α)
    (w : LocalWorld) : Prop :=
  Program.Upholds (tickMachine valid) (LocalWorld.Reaches valid) (LocalWorld.Reaches valid)
    (fun _ _ => True) p w

namespace Ticking.Upholds

variable {α β : Type}

lemma bind {p : Ticking α} {f : α → Ticking β} {w : LocalWorld} (h : Ticking.Upholds valid p w)
    (rest : ∀ a w, Ticking.Upholds valid (f a) w) : Ticking.Upholds valid (p >>= f) w :=
  Program.Upholds.bind h (fun a w _ => rest a w) fun _ _ _ => trivial

lemma check {x : Except PyErr α} {f : α → Ticking β} {w : LocalWorld}
    (rest : ∀ a, Ticking.Upholds valid (f a) w) :
    Ticking.Upholds valid (Program.check x >>= f) w :=
  Program.Upholds.check (fun a _ => rest a) fun _ _ => trivial

/-- A program all of whose effects belong to tasks that were compute tasks at some time. -/
lemma ofTasks {p : Ticking α} {w : LocalWorld} {ids : List String} (own : p.Within (·.OfTasks ids))
    (computes : ∀ id ∈ ids, Computes id w.db) : Ticking.Upholds valid p w := by
  have upholds := Program.Upholds.within (m := tickMachine valid)
    (F := fun w : LocalWorld => ∀ id ∈ ids, Computes id w.db)
    (fun _ _ computes reaches id mem => (computes id mem).reached reaches) id
    (fun _ own _ o computes => LocalWorld.handleTick_reaches own o computes) own computes
  exact upholds.mono fun _ _ _ => trivial

lemma silent {p : Ticking α} (own : p.Within (·.OfTasks [])) (w : LocalWorld) :
    Ticking.Upholds valid p w :=
  ofTasks own fun _ mem => (List.not_mem_nil mem).elim

lemma call {e : TickEffect} (own : e.OfTasks []) {f : e.Answer → Ticking α} (w : LocalWorld)
    (rest : ∀ a w, Ticking.Upholds valid (f a) w) :
    Ticking.Upholds valid (Program.call e >>= f) w :=
  (silent (p := Program.call e) ⟨own, fun _ => trivial⟩ w).bind rest

lemma reconciling {r : ReconcilerSetup} {p : Reconciling α} {w : LocalWorld}
    (h : Reconciling.Upholds valid r p w.db) :
    Ticking.Upholds valid (Ticking.reconciling r p) w :=
  Program.Upholds.embed (m := collectingMachine r) LocalWorld.db TickAnswer.reconcile
    (fun _ _ _ => rfl) (fun _ _ _ => rfl) (fun _ _ reaches => reaches)
    (fun _ _ _ reaches => reaches) h

end Ticking.Upholds

/-! ## The dispatcher -/

section Dispatcher

variable {ids : List String}

lemma Ticking.submitting_within {α : Type} (p : Submission α) :
    (Ticking.submitting p).Within (·.OfTasks ids) :=
  Program.Within.embed (fun _ => trivial) p

lemma ControllerProcess.routeFrom_within (spec : ComputeTaskSpec) (allowed : List String) :
    (routeFrom spec allowed).Within (·.OfTasks ids) := by
  induction allowed with
  | nil => trivial
  | cons providerId rest ih =>
    unfold routeFrom
    split
    · trivial
    · apply Program.Within.call trivial
      intro canSubmit
      split
      · apply (Ticking.submitting_within _).bind
        intro snapshot
        split
        · split
          · trivial
          · exact ih
        · exact ih
      · exact ih

lemma ControllerProcess.dispatchOne_within (c : ControllerProcess) {id : String}
    (mem : id ∈ ids) : (dispatchOne valid c id).Within (·.OfTasks ids) := by
  refine ⟨trivial, fun found => ?_⟩
  cases found with
  | none => trivial
  | some specJson =>
    apply (Program.Within.check _ _).bind
    intro spec
    apply (routeFrom_within spec _).bind
    intro resourceClass
    apply (Ticking.submitting_within _).bind
    exact fun prepared => ⟨mem, fun _ => Program.Within.check _ _⟩

lemma ControllerProcess.dispatchEach_within (c : ControllerProcess) {rest : List String}
    (part : ∀ id ∈ rest, id ∈ ids) :
    (dispatchEach valid c rest).Within (·.OfTasks ids) := by
  induction rest with
  | nil => trivial
  | cons id rest ih =>
    apply (c.dispatchOne_within (part id List.mem_cons_self)).bind
    intro first
    apply (ih fun id mem => part id (List.mem_cons_of_mem _ mem)).bind
    exact fun _ => trivial

lemma Db.mem_readyTasks {id : String} (mem : id ∈ db.readyTasks) :
    ∃ t, db.tasks.get id = some t ∧ t.status = .ready ∧ t.executor = .compute := by
  obtain ⟨⟨id, t⟩, sorted, rfl⟩ := List.mem_map.mp mem
  obtain ⟨item, selected⟩ := List.mem_filter.mp ((List.mem_insertionSort _).mp sorted)
  simp only [Bool.and_eq_true, beq_iff_eq] at selected
  exact ⟨t, (Dict.mem_items _).mp item, selected.1.1, selected.1.2⟩

lemma Db.mem_readyTasks_of {id : String} {t : Task} (ht : db.tasks.get id = some t)
    (ready : t.status = .ready) (compute : t.executor = .compute)
    (active : (db.projects.get t.projectId).any (·.lifecycle == .active) = true) :
    id ∈ db.readyTasks := by
  refine List.mem_map.mpr ⟨(id, t), (List.mem_insertionSort _).mpr ?_, rfl⟩
  refine List.mem_filter.mpr ⟨(Dict.mem_items _).mpr ht, ?_⟩
  simp only [ready, compute, active, beq_self_eq_true, Bool.and_self]

/-- The tasks that the query of `dispatch_ready` has returned stay compute tasks. -/
lemma ControllerProcess.dispatchReady_upholds (c : ControllerProcess) (w : LocalWorld) :
    Ticking.Upholds valid (c.dispatchReady valid) w := by
  apply Program.Upholds.call (fun _ => True) trivial (fun _ _ _ _ => trivial)
  · exact fun w o _ => .refl w.db
  · intro w o _
    apply Ticking.Upholds.ofTasks (c.dispatchEach_within fun _ mem => mem)
    intro id mem
    obtain ⟨t, ht, _, compute⟩ := Db.mem_readyTasks mem
    exact ⟨t, ht, compute⟩

end Dispatcher

/-- The command line takes an action of its own, and other files are no concern of the database. -/
lemma LocalWorld.outside_reaches (w : LocalWorld) (x : Outside) : w.Reaches valid (w.outside x) := by
  cases x with
  | files other => exact .refl w.db
  | createProject id slug lifecycle =>
    simp only [Reaches, outside, Db.finish_commit]
    exact .act (e := .createProject id slug lifecycle) trivial
  | createTask a =>
    simp only [Reaches, outside, Db.finish_commit]
    exact .act (e := .createTask a) trivial

/-- A tick upholds `LocalWorld.Reaches`. -/
lemma ControllerProcess.tick_upholds (c : ControllerProcess) (r : ReconcilerSetup)
    (w : LocalWorld) : Ticking.Upholds valid (c.tick valid r) w := by
  apply (Ticking.Upholds.reconciling (reconcileDue_upholds r w.db)).bind
  intro observed w
  apply Ticking.Upholds.call (e := .recoverExpiredLeases) trivial
  refine fun recovery w => .check fun recovered => ?_
  apply (Ticking.Upholds.silent (Ticking.submitting_within _) w).bind
  intro reconciled w
  apply Ticking.Upholds.call (e := .readiness) trivial
  refine fun readying w => .check fun readied => ?_
  apply Ticking.Upholds.call (e := .verifyCompletedWork) trivial
  refine fun verification w => .check fun verified => ?_
  apply (c.dispatchReady_upholds w).bind
  exact fun _ _ => trivial

lemma ControllerProcess.runUntilIdle_upholds (c : ControllerProcess)
    (rounds : List ReconcilerSetup) (w : LocalWorld) :
    Ticking.Upholds valid (c.runUntilIdle valid rounds) w := by
  induction rounds generalizing w with
  | nil => trivial
  | cons r rounds ih =>
    apply (c.tick_upholds r w).bind
    intro _ w
    apply Ticking.Upholds.call (e := .remaining) trivial
    intro remaining w
    cases remaining with
    | none => trivial
    | some id => exact ih w

lemma ControllerProcess.main_upholds (c : ControllerProcess) (command : Command) (w : LocalWorld) :
    Ticking.Upholds valid (c.main valid command) w := by
  cases command with
  | once r => exact (c.tick_upholds r w).bind fun _ _ => trivial
  | untilIdle rounds => exact (c.runUntilIdle_upholds rounds w).bind fun _ _ => trivial

/-- A process may rely on `LocalWorld.Reaches`, which it upholds itself. -/
lemma ticks_fit (w : LocalWorld) :
    (tickMachine valid).Fits (LocalWorld.Reaches valid) (LocalWorld.Reaches valid)
      (fun (_ : Unit) (started : ControllerProcess × Command) => started.1.main valid started.2)
      w where
  refl w := .refl w.db
  trans first second := first.trans second
  guar_rely := id
  drift_rely := by
    intro w x w' moved
    cases moved
    exact w.outside_reaches x
  upholds _ started w _ := started.1.main_upholds started.2 w

/-- Whatever a controller process does, wherever it crashes, and whichever process is started after
    it: the database is one that `controller` reaches. -/
theorem ticks_refine {w : LocalWorld} {events : List TickEvent} {p : TickState}
    (rn : (tickSystem valid).run { world := w } events = some p) :
    ∃ actions, (controller valid).run w.db actions = some p.world.db :=
  Machine.pool_rely (ticks_fit w) rn

/-- A spec that the local provider can prepare. -/
def tickedSpec : ComputeTaskSpec :=
  { projectId := "p", taskId := "t", submissionKey := "s", execution := { command := ["run"] },
    resources := {}, outputs := [] }

def tickedProcess (controllerId : String) : ControllerProcess :=
  { provider := { root := "/w", digest := id }, controllerId := controllerId }

/-- No job leaves a file behind, and every poll raises. -/
def tickedSetup : ReconcilerSetup :=
  { registered := fun _ => true, collect := fun _ => .ok [],
    poll := fun _ => .error (.runtimeError "no poll"), workspaceRoot := "/w",
    files := fun _ => { prepared := .ok [], present := fun _ => false, isFile := fun _ => false,
                        resolve := id, glob := fun _ => .ok [], digest := id, size := fun _ => 0 },
    pollInterval := 1 }

/-- What the surroundings answer: there is a free processor. -/
def tickedAnswer (uuid : String) : TickAnswer :=
  { submission := { offers := [{ resourceClass := "cpu", operational := true,
                                 schedulable := true }] },
    order := ["t"], uuid := uuid }

/-- The system in which every spec is that one. -/
abbrev tickedSystem : System TickState TickEvent := tickSystem fun _ => .ok tickedSpec

/-- A project with one task. -/
def tickedStart : List TickEvent :=
  [ ((), .drift (.createProject "p" "slug" .active)),
    ((), .drift (.createTask { id := "t", projectId := "p", executor := .compute,
                               idempotencyKey := "t", specJson := .null })) ]

/-- A process that has prepared the job of the task crashes before it dispatches it, and another one
    ticks from start to end. -/
def crashedTick : List TickEvent :=
  ((), .start (tickedProcess "a", .once tickedSetup)) ::
    List.replicate 14 ((), .perform (tickedAnswer "j1")) ++
  ((), .crash) :: ((), .start (tickedProcess "b", .once tickedSetup)) ::
    List.replicate 15 ((), .perform (tickedAnswer "j2"))

theorem ticks_refine_crashed :
    ∃ p, tickedSystem.run { world := { db := Db.empty } } (tickedStart ++ crashedTick) = some p ∧
      p.world.db.jobs.keysWhere (fun _ j => j.executionStatus == .created) = ["j2"] ∧
      ∃ actions, (controller fun _ => .ok tickedSpec).run Db.empty actions = some p.world.db := by
  have jobs : (tickedSystem.run { world := { db := Db.empty } } (tickedStart ++ crashedTick)).map
      (fun p => p.world.db.jobs.keysWhere fun _ j => j.executionStatus == .created) =
      some ["j2"] := by
    decide
  obtain ⟨p, rn, created⟩ := Option.map_eq_some_iff.mp jobs
  exact ⟨p, rn, created, ticks_refine rn⟩

end ResearchController
