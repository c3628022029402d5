import ResearchController.Artifacts.Produced
import ResearchController.Lib.Worklist

/-!
# The turns of `reconcile_due`

A call of `reconcile_due` gives every job its turns: the `COLLECTING` jobs are collected, the due
jobs are polled, and those of them that have ended meanwhile are collected too. `schedule` is the
list of all turns in the order of the call, as it would be if no turn ended the call. It depends on
the database before the call and on the answers of the providers only.

`CallAnswers` are the rest of what the call is answered: the time, the order of the query results,
the random identifiers and the readings of the clock.
-/

namespace ResearchController
open Lib

/-- What a call of `reconcile_due` is answered, apart from the providers. -/
structure CallAnswers where
  now : Datetime
  order : List String → List String
  uuid : Db → ReconcileEffect → String
  clock : Db → ReconcileEffect → Datetime

/-- The answer to an effect. -/
def CallAnswers.answer (s : CallAnswers) (db : Db) : ReconcileEffect → ReconcileAnswer
  | .collectingJobs => { order := s.order (db.collectingJobs.map (·.id)) }
  | .now => { now := s.now }
  | .dueJobs now => { order := s.order ((db.dueJobs now).map (·.id)) }
  | e => { uuid := s.uuid db e, now := s.clock db e }

/-- The result of a call of `reconcile_due` and the database it leaves. -/
def ReconcilerSetup.callDue (r : ReconcilerSetup) (s : CallAnswers) (db : Db) :
    Except PyErr (List String) × Db :=
  (collectingMachine r).eval s.answer (reconcileDue r) db

/-- The artifact store takes in a candidate. -/
def ReconcilerSetup.stores (r : ReconcilerSetup) (s : CallAnswers) (db : Db) :
    ReconcileEffect → Bool
  | .ingest view candidate =>
    (r.ingest db view candidate (s.uuid db (.ingest view candidate))).isOk
  | _ => true

/-- The artifact store takes in every candidate that the call comes to. -/
def ReconcilerSetup.storesAll (r : ReconcilerSetup) (s : CallAnswers) (db : Db) : Bool :=
  (collectingMachine r).evalAll s.answer (r.stores s) (reconcileDue r) db

/-! ## Provider calls -/

/-- `self.registry.get(view.provider_id).poll(view)`, if the columns of the job can hold the
    answer. -/
def ReconcilerSetup.observation (r : ReconcilerSetup) (view : ComputeJobView) :
    Except PyErr JobObservation := do
  r.getProvider view.providerId
  let obs ← r.poll view
  obs.storable r.pollInterval
  return obs

/-- What keeps an iteration of the loop of `reconcile_due` from its end. An exception of `poll` is
    caught and stored with the time of the next poll. -/
def ReconcilerSetup.pollTurn (r : ReconcilerSetup) (now : Datetime) (view : ComputeJobView) :
    Except PyErr Unit := do
  r.getProvider view.providerId
  match r.poll view with
  | .error _ =>
    let _ ← now.plus r.pollInterval
  | .ok obs => obs.storable r.pollInterval

/-- `self.registry.get(view.provider_id).collect(view)`. -/
def ReconcilerSetup.found (r : ReconcilerSetup) (view : ComputeJobView) :
    Except PyErr (List ArtifactCandidate) := do
  r.getProvider view.providerId
  r.collect view

/-- The query of `reconcile_due`. -/
def ComputeJob.due (job : ComputeJob) (now : Datetime) : Bool :=
  job.executionStatus.isPollable && job.nextPollAt.all (· ≤ now)

/-- The row of a due job after its poll, up to the readings of the clock. -/
def ReconcilerSetup.afterPoll (r : ReconcilerSetup) (id : String) (job : ComputeJob) :
    ComputeJob :=
  match r.observation (job.view id) with
  | .ok obs => job.recorded obs r.pollInterval obs.observedAt
  | .error _ => job.seen .pollError

/-- Whether a due job is collected once it has been polled. -/
def ReconcilerSetup.ends (r : ReconcilerSetup) (now : Datetime) (id : String) (job : ComputeJob) :
    Bool :=
  job.due now && (r.afterPoll id job).executionStatus == .collecting

/-- What the provider is shown when it collects the job in this call. -/
def ReconcilerSetup.collected (r : ReconcilerSetup) (now : Datetime) (id : String)
    (job : ComputeJob) : Option ComputeJobView :=
  if job.executionStatus = .collecting then
    some (job.view id)
  else if r.ends now id job then
    some ((r.afterPoll id job).view id)
  else
    none

/-- One of the provider calls for a job raises, or answers what the columns cannot hold. -/
def ReconcilerSetup.failing (r : ReconcilerSetup) (now : Datetime) (id : String)
    (job : ComputeJob) : Bool :=
  job.due now && !(r.observation (job.view id)).isOk ||
    (r.collected now id job).any fun view => !(r.found view).isOk

/-- The database without the failing jobs. -/
def ReconcilerSetup.withoutFailing (r : ReconcilerSetup) (now : Datetime) (db : Db) : Db :=
  { db with jobs := db.jobs.filter fun id job => !r.failing now id job }

/-- What a call decides about a job: its status and exit code, what its artifacts say, and the
    status of its task. -/
def Db.outcome (db : Db) (id : String) :
    Option (ComputeExecutionStatus × Option Int × List (String × String × String × JsonObject) ×
      Option TaskStatus) :=
  (db.jobs.get id).map fun job =>
    (job.executionStatus, job.exitCode, db.descriptions (job.view id),
      (db.tasks.get job.taskId).map (·.status))

/-- The call decides about every job that is not failing as if the failing jobs were not there. -/
def ReconcilerSetup.Isolates (r : ReconcilerSetup) (s s' : CallAnswers) (db : Db) : Prop :=
  ∀ id job, db.jobs.get id = some job → r.failing s.now id job = false →
    (r.callDue s db).2.outcome id =
      (r.callDue s' (r.withoutFailing s.now db)).2.outcome id

/-! ## Turns -/

/-- A turn of a job. -/
inductive Turn where
  | collect (view : ComputeJobView)
  | poll (view : ComputeJobView)

/-- The job whose turn it is. -/
def Turn.view : Turn → ComputeJobView
  | .collect view => view
  | .poll view => view

/-- The turn ends the call. Only a poll that raises is caught. -/
def ReconcilerSetup.fails (r : ReconcilerSetup) (now : Datetime) : Turn → Bool
  | .collect view => !(r.found view).isOk
  | .poll view => !(r.pollTurn now view).isOk

/-- An observation gives a job in this status another status. -/
def JobObservation.moves (obs : JobObservation) (status : ComputeExecutionStatus) : Bool :=
  obs.decides ||
    obs.observationStatus == .fresh && obs.executionStatus == .running && status != .running

/-- The turn gives the job another status. -/
def ReconcilerSetup.moves (r : ReconcilerSetup) : Turn → Bool
  | .collect _ => true
  | .poll view =>
    match r.observation view with
    | .ok obs => obs.moves view.executionStatus
    | .error _ => false

/-- The rows of a query in the order in which they are answered. -/
def CallAnswers.arrange (s : CallAnswers) (views : List ComputeJobView) : List ComputeJobView :=
  arranged views (s.order (views.map (·.id)))

/-- The jobs of the second pass. -/
def ReconcilerSetup.endedJobs (r : ReconcilerSetup) (now : Datetime) (db : Db) :
    List ComputeJobView :=
  (db.jobs.items.filter fun (id, job) => r.ends now id job).map fun (id, job) =>
    (r.afterPoll id job).view id

/-- The turns of a call, in its order. -/
def ReconcilerSetup.schedule (r : ReconcilerSetup) (s : CallAnswers) (db : Db) : List Turn :=
  (s.arrange db.collectingJobs).map .collect ++ (s.arrange (db.dueJobs s.now)).map .poll ++
    (s.arrange (r.endedJobs s.now db)).map .collect

/-- The turn gives a job that is not failing another status. -/
def ReconcilerSetup.advances (r : ReconcilerSetup) (now : Datetime) (db : Db) (t : Turn) : Bool :=
  r.moves t && (db.jobs.get t.view.id).any fun job => !r.failing now t.view.id job

/-- No turn that ends the call comes before a turn that gives a job that is not failing another
    status. -/
def ReconcilerSetup.unobstructed (r : ReconcilerSetup) (s : CallAnswers) (db : Db) : Prop :=
  (r.schedule s db).Pairwise fun t t' =>
    r.fails s.now t = true → r.advances s.now db t' = false

instance (r : ReconcilerSetup) (s : CallAnswers) (db : Db) : Decidable (r.unobstructed s db) :=
  inferInstanceAs (Decidable (List.Pairwise _ _))

/-! ## Query results -/

/-- A query result has every job once, whatever its order. -/
lemma arranged_perm {views : List ComputeJobView} (distinct : (views.map (·.id)).Nodup)
    (order : List String) : (arranged views order).Perm views := by
  have sound : arranged views order ⊆ views := fun _ mem => mem_arranged mem
  unfold arranged at sound ⊢
  split
  · rename_i perm
    rw [if_pos perm] at sound
    have images : (order.filterMap fun id => views.find? (·.id == id)).map (·.id) = order := by
      have present : ∀ id ∈ order, ∃ view ∈ views, view.id = id := fun id mem =>
        List.mem_map.mp (perm.subset mem)
      clear perm sound
      induction order with
      | nil => rfl
      | cons id order ih =>
        obtain ⟨view, mem, same⟩ := present id List.mem_cons_self
        cases search : views.find? (·.id == id) with
        | none =>
          have differs := List.find?_eq_none.mp search view mem
          rw [same, beq_self_eq_true] at differs
          exact (differs rfl).elim
        | some found =>
          simp only [List.filterMap_cons, search, List.map_cons]
          have named := List.find?_some search
          rw [eq_of_beq named, ih fun id' mem' => present id' (List.mem_cons_of_mem id mem')]
    have nodup : (order.filterMap fun id => views.find? (·.id == id)).Nodup := by
      apply List.Nodup.of_map (·.id)
      rw [images]
      exact perm.nodup_iff.mpr distinct
    refine (nodup.subperm sound).perm_of_length_le ?_
    have length := congrArg List.length images
    rw [List.length_map] at length
    rw [length, perm.length_eq, List.length_map]
  · exact .refl views

section Selected

variable {jobs : Dict String ComputeJob} {p : String → ComputeJob → Bool}
  {f : String → ComputeJob → ComputeJobView}

/-- A selection of rows has every job once. -/
lemma nodup_selected (own : ∀ id job, (f id job).id = id) :
    (((jobs.items.filter fun item => p item.1 item.2).map fun item => f item.1 item.2).map
      (·.id)).Nodup := by
  have same : (ComputeJobView.id ∘ fun item : String × ComputeJob => f item.1 item.2) =
      Prod.fst := by
    funext item
    exact own item.1 item.2
  rw [List.map_map, same]
  exact (List.filter_sublist.map Prod.fst).nodup jobs.nodup

/-- The jobs of an ordered selection. -/
lemma CallAnswers.mem_selected (s : CallAnswers) (own : ∀ id job, (f id job).id = id)
    {view : ComputeJobView} :
    view ∈ s.arrange
        ((jobs.items.filter fun item => p item.1 item.2).map fun item => f item.1 item.2) ↔
      ∃ id job, jobs.get id = some job ∧ p id job = true ∧ view = f id job := by
  rw [arrange, (arranged_perm (nodup_selected own) _).mem_iff, List.mem_map]
  constructor
  · rintro ⟨⟨id, job⟩, mem, rfl⟩
    obtain ⟨item, chosen⟩ := List.mem_filter.mp mem
    exact ⟨id, job, (Dict.mem_items _).mp item, chosen, rfl⟩
  · rintro ⟨id, job, hj, chosen, rfl⟩
    exact ⟨(id, job), List.mem_filter.mpr ⟨(Dict.mem_items _).mpr hj, chosen⟩, rfl⟩

/-- An ordered selection has every job once. -/
lemma CallAnswers.nodup_arrange (s : CallAnswers) (own : ∀ id job, (f id job).id = id) :
    ((s.arrange
      ((jobs.items.filter fun item => p item.1 item.2).map fun item => f item.1 item.2)).map
        (·.id)).Nodup :=
  ((arranged_perm (nodup_selected own) _).map _).nodup_iff.mpr (nodup_selected own)

end Selected

/-! ## The schedule -/

section Schedule

variable {r : ReconcilerSetup} {s : CallAnswers} {db : Db} {view : ComputeJobView}

/-- The jobs of the first pass. -/
lemma mem_collecting :
    view ∈ s.arrange db.collectingJobs ↔
      ∃ id job, db.jobs.get id = some job ∧ job.executionStatus = .collecting ∧
        view = job.view id := by
  rw [show view ∈ s.arrange db.collectingJobs ↔ _ from
    s.mem_selected (p := fun _ job => job.executionStatus == .collecting)
      (f := fun id job => job.view id) fun _ _ => rfl]
  simp only [beq_iff_eq]

/-- The jobs that are polled. -/
lemma mem_due :
    view ∈ s.arrange (db.dueJobs s.now) ↔
      ∃ id job, db.jobs.get id = some job ∧ job.due s.now = true ∧ view = job.view id :=
  s.mem_selected (p := fun _ job => job.due s.now) (f := fun id job => job.view id) fun _ _ => rfl

/-- The jobs of the second pass. -/
lemma mem_ended :
    view ∈ s.arrange (r.endedJobs s.now db) ↔
      ∃ id job, db.jobs.get id = some job ∧ r.ends s.now id job = true ∧
        view = (r.afterPoll id job).view id :=
  s.mem_selected (p := r.ends s.now) (f := fun id job => (r.afterPoll id job).view id)
    fun _ _ => rfl

lemma nodup_collecting (s : CallAnswers) (db : Db) :
    ((s.arrange db.collectingJobs).map (·.id)).Nodup :=
  s.nodup_arrange (p := fun _ job => job.executionStatus == .collecting)
    (f := fun id job => job.view id) fun _ _ => rfl

lemma nodup_due (s : CallAnswers) (db : Db) : ((s.arrange (db.dueJobs s.now)).map (·.id)).Nodup :=
  s.nodup_arrange (p := fun _ job => job.due s.now) (f := fun id job => job.view id) fun _ _ => rfl

lemma nodup_ended (r : ReconcilerSetup) (s : CallAnswers) (db : Db) :
    ((s.arrange (r.endedJobs s.now db)).map (·.id)).Nodup :=
  s.nodup_arrange (p := r.ends s.now) (f := fun id job => (r.afterPoll id job).view id)
    fun _ _ => rfl

lemma ComputeJob.not_due {job : ComputeJob} (collecting : job.executionStatus = .collecting)
    (now : Datetime) : job.due now = false := by
  rw [due, collecting]
  rfl

/-- What the provider is shown of a job that is collected. -/
lemma ReconcilerSetup.collected_eq_some {now : Datetime} {id : String} {job : ComputeJob} :
    r.collected now id job = some view ↔
      job.executionStatus = .collecting ∧ view = job.view id ∨
        r.ends now id job = true ∧ view = (r.afterPoll id job).view id := by
  unfold collected
  split
  · rename_i collecting
    have notEnds : r.ends now id job = false := by
      rw [ends, job.not_due collecting]
      rfl
    simp [collecting, notEnds, eq_comm]
  · rename_i other
    split
    · rename_i ends
      simp [other, ends, eq_comm]
    · rename_i notEnds
      simp [other, notEnds]

/-- The jobs that are collected, each with what the provider is shown. -/
lemma mem_schedule_collect :
    Turn.collect view ∈ r.schedule s db ↔
      ∃ id job, db.jobs.get id = some job ∧ r.collected s.now id job = some view := by
  simp only [ReconcilerSetup.schedule, List.mem_append, List.mem_map, Turn.collect.injEq,
    exists_eq_right, reduceCtorEq, and_false, exists_false, or_false, mem_collecting, mem_ended,
    ReconcilerSetup.collected_eq_some, and_or_left, exists_or]

lemma mem_schedule_poll :
    Turn.poll view ∈ r.schedule s db ↔
      ∃ id job, db.jobs.get id = some job ∧ job.due s.now = true ∧ view = job.view id := by
  simp only [ReconcilerSetup.schedule, List.mem_append, List.mem_map, Turn.poll.injEq,
    exists_eq_right, reduceCtorEq, and_false, exists_false, or_false, false_or, mem_due]

/-- A call gives no job the same turn twice. -/
lemma nodup_schedule (r : ReconcilerSetup) (s : CallAnswers) (db : Db) :
    (r.schedule s db).Nodup := by
  have first := List.Nodup.of_map _ (nodup_collecting s db)
  have due := List.Nodup.of_map _ (nodup_due s db)
  have second := List.Nodup.of_map _ (nodup_ended r s db)
  have collects : Function.Injective Turn.collect := fun _ _ e => Turn.collect.inj e
  have polls : Function.Injective Turn.poll := fun _ _ e => Turn.poll.inj e
  refine List.nodup_append'.mpr ⟨List.nodup_append'.mpr ⟨first.map collects, due.map polls, ?_⟩,
    second.map collects, ?_⟩
  · intro t mem mem'
    obtain ⟨_, _, rfl⟩ := List.mem_map.mp mem
    obtain ⟨_, _, e⟩ := List.mem_map.mp mem'
    cases e
  · intro t mem mem'
    obtain ⟨view, ended, rfl⟩ := List.mem_map.mp mem'
    obtain ⟨id, job, hj, ends, shown⟩ := mem_ended.mp ended
    rcases List.mem_append.mp mem with mem | mem
    · obtain ⟨_, collecting, e⟩ := List.mem_map.mp mem
      cases e
      obtain ⟨id', job', hj', open_, shown'⟩ := mem_collecting.mp collecting
      -- the same identifier would be collecting and due
      have same : id = id' := congrArg ComputeJobView.id (shown.symm.trans shown')
      subst same
      cases hj.symm.trans hj'
      rw [ReconcilerSetup.ends, job.not_due open_] at ends
      cases ends
    · obtain ⟨_, _, e⟩ := List.mem_map.mp mem
      cases e

end Schedule

end ResearchController
