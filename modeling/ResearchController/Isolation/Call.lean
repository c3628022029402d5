import ResearchController.Isolation.Turns
import ResearchController.Lifecycle.Identity
import ResearchController.Lifecycle.Refinement

/-!
# A call of `reconcile_due`, turn by turn

`Call.At` says what the database looks like after some turns: how far each job has got
(`progress`), and with it its row up to the readings of the clock, what its artifacts say, and the
status of its task. One turn is a step lemma for each kind of turn (`At.polled`, `At.collected`);
the loops are inductions over them. `ends_reconcileDue` is the result: a call does its turns up to
the first one that fails.
-/

namespace ResearchController
open Lib

/-! ## Rows up to the clock -/

/-- Two rows look the same to a provider and have the same exit code; only the readings of the clock
    and the lock versions may differ. -/
structure ComputeJob.Alike (j j' : ComputeJob) : Prop where
  view : ∀ id, j.view id = j'.view id
  exitCode : j.exitCode = j'.exitCode

namespace ComputeJob.Alike

variable {j j' : ComputeJob}

lemma refl (j : ComputeJob) : j.Alike j := ⟨fun _ => rfl, rfl⟩

lemma executionStatus (h : j.Alike j') : j.executionStatus = j'.executionStatus :=
  congrArg ComputeJobView.executionStatus (h.view "")

lemma observationStatus (h : j.Alike j') : j.observationStatus = j'.observationStatus :=
  congrArg ComputeJobView.observationStatus (h.view "")

lemma metadata (h : j.Alike j') : j.providerMetadataJson = j'.providerMetadataJson :=
  congrArg ComputeJobView.providerMetadata (h.view "")

lemma taskId (h : j.Alike j') : j.taskId = j'.taskId :=
  congrArg ComputeJobView.taskId (h.view "")

lemma trans {j'' : ComputeJob} (h : j.Alike j') (h' : j'.Alike j'') : j.Alike j'' :=
  ⟨fun id => (h.view id).trans (h'.view id), h.exitCode.trans h'.exitCode⟩

/-- A transition shows its status and nothing else. -/
lemma moved_view (j : ComputeJob) (status : ComputeExecutionStatus) (now : Datetime) (id : String) :
    (j.moved status now).view id = { j.view id with executionStatus := status } := by
  unfold ComputeJob.moved
  split <;> split <;> split <;> rfl

lemma stepped (h : j.Alike j') (status : ComputeExecutionStatus) (now now' : Datetime) :
    (j.stepped status now).Alike (j'.stepped status now') := by
  unfold ComputeJob.stepped
  rw [h.executionStatus]
  split
  · exact h
  · refine ⟨fun id => ?_, ?_⟩
    · rw [moved_view, moved_view, h.view id]
    · rw [ComputeJob.moved_exitCode, ComputeJob.moved_exitCode, h.exitCode]

lemma started (h : j.Alike j') (status : ComputeExecutionStatus) (now now' : Datetime) :
    (j.started status now).Alike (j'.started status now') := by
  unfold ComputeJob.started
  split
  · exact h.stepped .running now now'
  · exact h

lemma decided (h : j.Alike j') (obs : JobObservation) : (j.decided obs).Alike (j'.decided obs) := by
  have metadata : (j.decided obs).providerMetadataJson = (j'.decided obs).providerMetadataJson := by
    unfold ComputeJob.decided
    rw [h.metadata]
  have updated : ∀ (j : ComputeJob) id, (j.decided obs).view id =
      { j.view id with providerMetadata := (j.decided obs).providerMetadataJson } := fun _ _ => rfl
  refine ⟨fun id => ?_, rfl⟩
  rw [updated, updated, h.view id, metadata]

/-- What an observation does to a row does not depend on the clock. -/
lemma recorded (j : ComputeJob) (obs : JobObservation) (pollInterval : Int)
    (now now' : Datetime) :
    (j.recorded obs pollInterval now).Alike (j.recorded obs pollInterval now') := by
  unfold ComputeJob.recorded
  have seen := refl ((j.seen obs.observationStatus).polled obs pollInterval)
  split
  · exact refl j
  · simp only
    split
    · exact seen
    · split
      · split
        · exact seen.stepped .running now now'
        · exact seen
      · split
        · exact ((seen.started j.executionStatus now now').decided obs).stepped .collecting now now'
        · exact seen

end ComputeJob.Alike

namespace ReconcilerSetup

variable {r : ReconcilerSetup} {now : Datetime} {id : String} {job : ComputeJob}

/-- What the poll of a job does to it: it decides the outcome, or the job goes on. -/
lemma afterPoll_cases (r : ReconcilerSetup) (id : String)
    (pollable : job.executionStatus.isPollable = true) :
    ((r.afterPoll id job).executionStatus = .collecting ∧
        r.moves (.poll (job.view id)) = true ∧ ∃ outcome,
          observedTerminal (r.afterPoll id job).providerMetadataJson = .ok outcome ∧
            outcome.isTerminal = true) ∨
      (r.afterPoll id job).executionStatus.isPollable = true ∧
        (r.afterPoll id job).exitCode = job.exitCode ∧
        (r.moves (.poll (job.view id)) = true ↔
          (r.afterPoll id job).executionStatus ≠ job.executionStatus) := by
  have shown : (job.view id).executionStatus = job.executionStatus := rfl
  simp only [afterPoll, moves, shown]
  cases r.observation (job.view id) with
  | error e =>
    right
    simp [pollable, (job.sameWork_seen .pollError).exitCode]
  | ok obs =>
    simp only [JobObservation.moves]
    cases decides : obs.decides with
    | true =>
      left
      obtain ⟨_, _, collecting, _, _, outcome⟩ :=
        ComputeJob.recorded_decided pollable decides r.pollInterval obs.observedAt
      exact ⟨collecting, Bool.true_or _, _, outcome, (Bool.and_eq_true_iff.mp decides).2⟩
    | false =>
      right
      obtain ⟨same, status⟩ :=
        ComputeJob.recorded_undecided pollable decides r.pollInterval obs.observedAt
      rw [status]
      by_cases runs : obs.observationStatus = .fresh ∧ obs.executionStatus = .running
      · rw [if_pos runs]
        refine ⟨rfl, same.exitCode, ?_⟩
        rw [runs.1, runs.2]
        cases job.executionStatus <;> decide
      · rw [if_neg runs]
        refine ⟨pollable, same.exitCode, ?_⟩
        have still :
            (obs.observationStatus == .fresh && obs.executionStatus == .running) = false := by
          rw [Bool.eq_false_iff, ne_eq, Bool.and_eq_true_iff, beq_iff_eq, beq_iff_eq]
          exact runs
        simp [still]

lemma afterPoll_identity (r : ReconcilerSetup) (id : String) (job : ComputeJob) :
    (r.afterPoll id job).identity = job.identity := by
  unfold afterPoll
  split
  · exact job.recorded_identity _ _ _
  · exact job.seen_identity .pollError

/-- How far a call has got with a job. -/
inductive Progress where
  | untouched
  | polled
  | collected
  deriving DecidableEq

/-- The row that a job is collected with. -/
def ripe (r : ReconcilerSetup) (id : String) (job : ComputeJob) : ComputeJob :=
  if job.executionStatus = .collecting then job else r.afterPoll id job

/-- The row of a job, up to the clock. -/
def rowAt (r : ReconcilerSetup) (id : String) (job : ComputeJob) : Progress → ComputeJob
  | .untouched => job
  | .polled => r.afterPoll id job
  | .collected =>
    match observedTerminal (r.ripe id job).providerMetadataJson with
    | .ok outcome => (r.ripe id job).stepped outcome 0
    | .error _ => r.ripe id job

/-- What the artifacts of a job say. -/
def artifactsAt (r : ReconcilerSetup) (db : Db) (id : String) (job : ComputeJob) :
    Progress → List (String × String × String × JsonObject)
  | .collected =>
    let view := (r.ripe id job).view id
    match r.collect view with
    | .ok candidates =>
      db.descriptions view ++
        (firsts (r.files view.remoteWorkdir).content (db.contents view) candidates).map
          (r.described view)
    | .error _ => db.descriptions view
  | _ => db.descriptions (job.view id)

lemma ripe_identity (r : ReconcilerSetup) (id : String) (job : ComputeJob) :
    (r.ripe id job).identity = job.identity := by
  unfold ripe
  split
  · rfl
  · exact r.afterPoll_identity id job

lemma rowAt_identity (r : ReconcilerSetup) (id : String) (job : ComputeJob) (p : Progress) :
    (r.rowAt id job p).identity = job.identity := by
  cases p with
  | untouched => rfl
  | polled => exact r.afterPoll_identity id job
  | collected =>
    unfold rowAt
    simp only
    split
    · rw [ComputeJob.stepped_identity, ripe_identity]
    · exact r.ripe_identity id job

end ReconcilerSetup

/-- The artifacts of a job do not depend on what changes in its row. -/
lemma Db.produced_view {db : Db} {j j' : ComputeJob} (same : j.identity = j'.identity)
    (id : String) : db.produced (j.view id) = db.produced (j'.view id) := by
  have projectId : j.projectId = j'.projectId := congrArg (·.1.projectId) same
  simp only [produced, Artifact.producedBy, ComputeJob.view, projectId]

lemma Db.descriptions_view {db : Db} {j j' : ComputeJob} (same : j.identity = j'.identity)
    (id : String) : db.descriptions (j.view id) = db.descriptions (j'.view id) := by
  unfold descriptions
  rw [produced_view same]

/-! ## What a call has done -/

open ReconcilerSetup (Progress)

/-- The turn collects a job. -/
def Turn.collects (id : String) : Turn → Bool
  | .collect view => view.id == id
  | .poll _ => false

/-- The turn polls a job. -/
def Turn.polls (id : String) : Turn → Bool
  | .collect _ => false
  | .poll view => view.id == id

/-- The turn collects a job of a task. -/
def Turn.settles (taskId : String) : Turn → Bool
  | .collect view => view.taskId == taskId
  | .poll _ => false

/-- How far the turns have got with a job. -/
def progress (turns : List Turn) (id : String) : Progress :=
  if turns.any (Turn.collects id) then .collected
  else if turns.any (Turn.polls id) then .polled
  else .untouched

/-- A call of `reconcile_due` on a database between two actions of the controller. A poll answers
    about the job that it is asked about. -/
structure Call where
  setup : ReconcilerSetup
  answers : CallAnswers
  start : Db
  sound : start.Sound
  held : ∀ {id job}, start.jobs.get id = some job → job.executionStatus = .collecting →
    ∃ outcome, observedTerminal job.providerMetadataJson = .ok outcome ∧ outcome.isTerminal = true
  own : ∀ {view obs}, setup.poll view = .ok obs → obs.computeJobId = view.id

/-- What the database looks like after some turns. -/
structure Call.At (k : Call) (turns : List Turn) (db : Db) : Prop where
  sound : db.Sound
  keys : db.jobs.items.map Prod.fst = k.start.jobs.items.map Prod.fst
  untouched : ∀ {id job}, k.start.jobs.get id = some job → progress turns id = .untouched →
    db.jobs.get id = some job
  row : ∀ {id job}, k.start.jobs.get id = some job → ∃ job', db.jobs.get id = some job' ∧
    job'.Alike (k.setup.rowAt id job (progress turns id))
  artifacts : ∀ {id job}, k.start.jobs.get id = some job →
    db.descriptions (job.view id) = k.setup.artifactsAt k.start id job (progress turns id)
  tasks : ∀ taskId, (db.tasks.get taskId).map (·.status) =
    (k.start.tasks.get taskId).map fun t =>
      if turns.any (Turn.settles taskId) then t.status.settled else t.status

lemma progress_eq_collected {turns : List Turn} {id : String} :
    progress turns id = .collected ↔ ∃ view, Turn.collect view ∈ turns ∧ view.id = id := by
  have collects : turns.any (Turn.collects id) = true ↔
      ∃ view, Turn.collect view ∈ turns ∧ view.id = id := by
    rw [List.any_eq_true]
    constructor
    · rintro ⟨t, mem, own⟩
      cases t with
      | collect view => exact ⟨view, mem, eq_of_beq own⟩
      | poll view => cases own
    · rintro ⟨view, mem, own⟩
      exact ⟨_, mem, beq_iff_eq.mpr own⟩
  rw [← collects, progress]
  cases turns.any (Turn.collects id) <;> cases turns.any (Turn.polls id) <;> simp

lemma progress_eq_untouched {turns : List Turn} {id : String} :
    progress turns id = .untouched ↔ ∀ t ∈ turns, t.view.id ≠ id := by
  have touches : (turns.any (Turn.collects id) = true ∨ turns.any (Turn.polls id) = true) ↔
      ∃ t ∈ turns, t.view.id = id := by
    rw [List.any_eq_true, List.any_eq_true, ← exists_or]
    refine exists_congr fun t => ?_
    cases t <;> simp [Turn.collects, Turn.polls, Turn.view]
  have none : (∀ t ∈ turns, t.view.id ≠ id) ↔ ¬ ∃ t ∈ turns, t.view.id = id := by
    simp only [not_exists, not_and, ne_eq]
  rw [none, ← touches, progress]
  cases turns.any (Turn.collects id) <;> cases turns.any (Turn.polls id) <;> simp

/-- Polls advance the jobs that are untouched. -/
lemma progress_append_polls (turns : List Turn) (views : List ComputeJobView) (id : String) :
    progress (turns ++ views.map .poll) id =
      if progress turns id = .untouched ∧ views.any (·.id == id) then .polled
      else progress turns id := by
  have noCollects : (views.map Turn.poll).any (Turn.collects id) = false := by
    rw [List.any_map]
    exact List.any_eq_false.mpr fun _ _ => Bool.false_ne_true
  have polls : (views.map Turn.poll).any (Turn.polls id) = views.any (·.id == id) := by
    rw [List.any_map]
    rfl
  unfold progress
  rw [List.any_append, List.any_append, noCollects, polls]
  cases turns.any (Turn.collects id) <;> cases turns.any (Turn.polls id) <;>
    cases views.any (·.id == id) <;> simp

/-! ## One more turn -/

lemma progress_collect (turns : List Turn) (view : ComputeJobView) :
    progress (turns ++ [.collect view]) view.id = .collected := by
  simp [progress, Turn.collects]

lemma progress_poll {turns : List Turn} {view : ComputeJobView}
    (untouched : progress turns view.id = .untouched) :
    progress (turns ++ [.poll view]) view.id = .polled := by
  unfold progress at untouched ⊢
  split at untouched
  · cases untouched
  · rename_i notCollected
    simp [Turn.collects, Turn.polls, notCollected]

lemma progress_other {turns : List Turn} {t : Turn} {id : String} (other : t.view.id ≠ id) :
    progress (turns ++ [t]) id = progress turns id := by
  have ne : (t.view.id == id) = false := beq_eq_false_iff_ne.mpr other
  unfold progress
  cases t with
  | collect view =>
    have ne : (view.id == id) = false := ne
    simp [Turn.collects, Turn.polls, ne]
  | poll view =>
    have ne : (view.id == id) = false := ne
    simp [Turn.collects, Turn.polls, ne]

lemma TaskStatus.settled_settled (status : TaskStatus) :
    status.settled.settled = status.settled := by
  cases status <;> rfl

namespace Call

variable {k : Call} {turns : List Turn} {db db' : Db} {id : String} {job : ComputeJob}

/-- A turn changes its job, the artifacts of its job and the task of its job only. -/
lemma At.turn (h : k.At turns db) {t : Turn} (hj : k.start.jobs.get t.view.id = some job)
    {j' : ComputeJob} (sound : db'.Sound) (jobs : db'.jobs = db.jobs.set t.view.id j')
    (touched : progress (turns ++ [t]) t.view.id ≠ .untouched)
    (like : j'.Alike (k.setup.rowAt t.view.id job (progress (turns ++ [t]) t.view.id)))
    (artifacts : db'.descriptions (job.view t.view.id) =
      k.setup.artifactsAt k.start t.view.id job (progress (turns ++ [t]) t.view.id))
    (others : ∀ view : ComputeJobView, t.view.id ≠ view.id →
      db'.descriptions view = db.descriptions view)
    (tasks : ∀ taskId, (db'.tasks.get taskId).map (·.status) =
      (db.tasks.get taskId).map fun task =>
        if t.settles taskId then task.status.settled else task.status) :
    k.At (turns ++ [t]) db' := by
  have get : ∀ {id'}, t.view.id ≠ id' → db'.jobs.get id' = db.jobs.get id' := by
    intro id' other
    rw [jobs, Dict.get_set_ne _ _ other.symm]
  refine ⟨sound, ?_, ?_, ?_, ?_, ?_⟩
  · obtain ⟨j, hj', _⟩ := h.row hj
    rw [jobs, Dict.keys_set hj', h.keys]
  · intro id' job' hj' untouched
    by_cases own : t.view.id = id'
    · subst own
      exact (touched untouched).elim
    · rw [progress_other own] at untouched
      rw [get own]
      exact h.untouched hj' untouched
  · intro id' job' hj'
    by_cases own : t.view.id = id'
    · subst own
      cases hj.symm.trans hj'
      exact ⟨j', by rw [jobs, Dict.get_set_self], like⟩
    · rw [progress_other own, get own]
      exact h.row hj'
  · intro id' job' hj'
    by_cases own : t.view.id = id'
    · subst own
      cases hj.symm.trans hj'
      exact artifacts
    · rw [progress_other own, others _ own]
      exact h.artifacts hj'
  · intro taskId
    have before := congrArg (Option.map fun status : TaskStatus =>
      if t.settles taskId then status.settled else status) (h.tasks taskId)
    rw [Option.map_map, Option.map_map] at before
    rw [tasks taskId]
    refine before.trans (congrArg (fun f => (k.start.tasks.get taskId).map f) ?_)
    funext task
    rw [List.any_append, List.any_cons, List.any_nil, Bool.or_false]
    cases turns.any (Turn.settles taskId) <;> cases t.settles taskId <;>
      simp [TaskStatus.settled_settled]

/-- The turn ends the call. -/
abbrev fails (k : Call) (t : Turn) : Bool := k.setup.fails k.answers.now t

/-- What one turn comes to. -/
structure Took {α : Type} (k : Call) (turns : List Turn) (t : Turn) (result : Except PyErr α)
    (db : Db) : Prop where
  fails : k.fails t = true → result.isOk = false ∧ k.At turns db
  succeeds : k.fails t = false → result.isOk = true ∧ k.At (turns ++ [t]) db

lemma Took.ofFails {α : Type} {t : Turn} (failed : k.fails t = true) (h : k.At turns db)
    (e : PyErr) : k.Took turns t (.error e : Except PyErr α) db := by
  refine ⟨fun _ => ⟨rfl, h⟩, ?_⟩
  intro succeeded
  rw [failed] at succeeded
  cases succeeded

lemma Took.ofSucceeds {α : Type} {t : Turn} (succeeded : k.fails t = false)
    (h : k.At (turns ++ [t]) db) (a : α) : k.Took turns t (.ok a) db := by
  refine ⟨?_, fun _ => ⟨rfl, h⟩⟩
  intro failed
  rw [succeeded] at failed
  cases failed

/-- A program of the call that ends as `Q` says, if the candidates it comes to are taken in. -/
abbrev Ends {α : Type} (k : Call) (Q : Except PyErr α → Db → Prop) (program : Reconciling α)
    (db : Db) : Prop :=
  (collectingMachine k.setup).Ends k.answers.answer (k.setup.stores k.answers) Q program db

/-! ## A poll -/

/-- A job is polled for the first time. -/
lemma At.polled (h : k.At turns db) (hj : k.start.jobs.get id = some job)
    (untouched : progress turns id = .untouched) {j' : ComputeJob}
    (st : Db.SetsJob id j' db db') (sound : db'.Sound)
    (like : j'.Alike (k.setup.afterPoll id job)) : k.At (turns ++ [.poll (job.view id)]) db' := by
  unfold Db.SetsJob at st
  have polled : progress (turns ++ [.poll (job.view id)]) (job.view id).id = .polled :=
    progress_poll untouched
  have kept : ∀ view, db'.descriptions view = db.descriptions view := by
    intro view
    unfold Db.descriptions Db.produced
    rw [st]
  have jobs : db'.jobs = db.jobs.set id j' := by rw [st]
  refine h.turn (t := .poll (job.view id)) hj sound jobs ?_ ?_ ?_ (fun view _ => kept view) ?_
  · rw [show progress _ (Turn.poll (job.view id)).view.id = _ from polled]
    decide
  · rw [show progress _ (Turn.poll (job.view id)).view.id = _ from polled]
    exact like
  · rw [show progress _ (Turn.poll (job.view id)).view.id = _ from polled, kept]
    have before := h.artifacts hj
    rw [untouched] at before
    exact before
  · intro taskId
    rw [st]
    rfl

/-- A poll that ends the call leaves the database as it was. -/
lemma polls_fails {e : PyErr} (raises : k.setup.pollTurn k.answers.now (job.view id) = .error e) :
    k.fails (.poll (job.view id)) = true := by
  rw [fails, ReconcilerSetup.fails, raises]
  rfl

lemma polls_succeeds (returns : k.setup.pollTurn k.answers.now (job.view id) = .ok ()) :
    k.fails (.poll (job.view id)) = false := by
  rw [fails, ReconcilerSetup.fails, returns]
  rfl

/-- An iteration whose poll raises. -/
lemma ends_pollRaised (h : k.At turns db) (hj : k.start.jobs.get id = some job)
    (untouched : progress turns id = .untouched)
    (registered : k.setup.getProvider (job.view id).providerId = .ok ()) {e : PyErr}
    (poll : k.setup.poll (job.view id) = .error e) :
    k.Ends (k.Took turns (.poll (job.view id)))
      (do
        let recorded ← Reconciling.pollRaised (job.view id).id e k.answers.now
        Program.check recorded
        return ([] : List String)) db := by
  have stored := h.untouched hj untouched
  have answered : k.setup.observation (job.view id) = .error e := by
    rw [ReconcilerSetup.observation, registered, poll]
    rfl
  have turn : k.setup.pollTurn k.answers.now (job.view id) =
      (k.answers.now.plus k.setup.pollInterval).map fun _ => () := by
    rw [ReconcilerSetup.pollTurn, registered, poll]
    rfl
  apply Machine.Ends.call
  intro _
  simp only [collectingMachine, ReconcilerSetup.handle]
  cases time : k.answers.now.plus k.setup.pollInterval with
  | error late =>
    rw [time] at turn
    have refused : db.pollErrorCommit (job.view id).id e.typeName k.setup.pollInterval
        k.answers.now = .error late := Db.pollErrorCommit_refused stored e.typeName time
    rw [refused]
    refine Machine.Ends.check ?_ ?_
    · intro _ recorded
      have recorded : (.error late : Except PyErr Unit) = .ok _ := recorded
      cases recorded
    · intro raised _
      exact Took.ofFails (polls_fails turn) h raised
  | ok next =>
    rw [time] at turn
    obtain ⟨db', ok⟩ := h.sound.pollErrorCommit_total stored e.typeName time
    have commit : db.pollErrorCommit (job.view id).id e.typeName k.setup.pollInterval
        k.answers.now = .ok db' := ok
    rw [commit]
    have like : ComputeJob.Alike { job.seen .pollError with
        lastPollAt := some k.answers.now,
        nextPollAt := some (k.answers.now + k.setup.pollInterval) }
        (k.setup.afterPoll id job) := by
      unfold ReconcilerSetup.afterPoll
      rw [answered]
      exact ⟨fun _ => rfl, rfl⟩
    have polled := h.polled hj untouched (Db.pollErrorCommit_sets stored ok)
      (h.sound.pollErrorCommit ok) like
    exact Machine.Ends.ret (Took.ofSucceeds (polls_succeeds turn) polled [])

/-- An iteration whose poll answers. -/
lemma ends_pollAnswered (h : k.At turns db) (hj : k.start.jobs.get id = some job)
    (pollable : job.executionStatus.isPollable = true)
    (untouched : progress turns id = .untouched)
    (registered : k.setup.getProvider (job.view id).providerId = .ok ()) {obs : JobObservation}
    (poll : k.setup.poll (job.view id) = .ok obs) :
    k.Ends (k.Took turns (.poll (job.view id)))
      (do
        let recorded ← Reconciling.record obs
        Program.check recorded
        return [(job.view id).id]) db := by
  have stored := h.untouched hj untouched
  have named : obs.computeJobId = id := k.own poll
  have stored' : db.jobs.get obs.computeJobId = some job := by rw [named]; exact stored
  have turn : k.setup.pollTurn k.answers.now (job.view id) =
      obs.storable k.setup.pollInterval := by
    rw [ReconcilerSetup.pollTurn, registered, poll]
    rfl
  apply Machine.Ends.call
  intro _
  simp only [collectingMachine, ReconcilerSetup.handle]
  generalize (k.answers.answer db (ReconcileEffect.record obs)).now = clock
  cases storable : obs.storable k.setup.pollInterval with
  | error e =>
    rw [storable] at turn
    rw [Db.recordObservation_refused stored' pollable storable clock]
    refine Machine.Ends.check ?_ ?_
    · intro _ recorded
      have recorded : (.error e : Except PyErr Unit) = .ok _ := recorded
      cases recorded
    · intro raised _
      exact Took.ofFails (polls_fails turn) h raised
  | ok =>
    rw [storable] at turn
    obtain ⟨db', ok⟩ := h.sound.recordObservation_total stored' storable clock
    rw [ok]
    have sets := Db.recordObservation_sets stored' ok
    rw [named] at sets
    have answered : k.setup.observation (job.view id) = .ok obs := by
      rw [ReconcilerSetup.observation, registered, poll]
      exact bind_ok.mpr ⟨(), rfl, bind_ok.mpr ⟨obs, rfl, bind_ok.mpr ⟨(), storable, rfl⟩⟩⟩
    have like : (job.recorded obs k.setup.pollInterval clock).Alike
        (k.setup.afterPoll id job) := by
      unfold ReconcilerSetup.afterPoll
      rw [answered]
      exact ComputeJob.Alike.recorded job obs _ _ _
    have polled := h.polled hj untouched sets (h.sound.recordObservation ok) like
    exact Machine.Ends.ret (Took.ofSucceeds (polls_succeeds turn) polled [id])

/-- One iteration of the loop of `reconcile_due`. -/
lemma ends_pollOne (h : k.At turns db) (hj : k.start.jobs.get id = some job)
    (pollable : job.executionStatus.isPollable = true)
    (untouched : progress turns id = .untouched) :
    k.Ends (k.Took turns (.poll (job.view id)))
      (pollOne k.setup k.answers.now (job.view id)) db := by
  refine Machine.Ends.check ?_ ?_
  · intro _ registered
    apply Machine.Ends.call
    intro _
    simp only [collectingMachine, ReconcilerSetup.handle]
    cases poll : k.setup.poll (job.view id) with
    | error e => exact ends_pollRaised h hj untouched registered poll
    | ok obs => exact ends_pollAnswered h hj pollable untouched registered poll
  · intro e unknown
    refine Took.ofFails (polls_fails (e := e) ?_) h e
    rw [ReconcilerSetup.pollTurn, unknown]
    rfl

/-! ## A collection -/

/-- The candidates of a job are ingested one after the other. -/
lemma ends_ingestEach (view : ComputeJobView) (candidates : List ArtifactCandidate) (db : Db) :
    k.Ends (fun result db' => result = .ok () ∧ IngestsEach k.setup view db candidates db')
      (ingestEach view candidates) db := by
  induction candidates generalizing db with
  | nil => exact Machine.Ends.ret ⟨rfl, .nil⟩
  | cons candidate rest ih =>
    apply Machine.Ends.call
    intro stores
    simp only [collectingMachine, ReconcilerSetup.handle]
    have same : (k.answers.answer db (.ingest view candidate)).uuid =
      k.answers.uuid db (.ingest view candidate) := rfl
    rw [same]
    cases ingest : k.setup.ingest db view candidate
        (k.answers.uuid db (.ingest view candidate)) with
    | error e =>
      rw [ReconcilerSetup.stores, ingest] at stores
      cases stores
    | ok stored =>
      obtain ⟨artifactId, db1⟩ := stored
      refine (ih db1).mono ?_
      rintro result db' ⟨returns, ingested⟩
      exact ⟨returns, .cons ingest ingested⟩

/-- A job that is to be collected after some turns. -/
structure Ready (k : Call) (turns : List Turn) (id : String) (job : ComputeJob) : Prop where
  stored : k.start.jobs.get id = some job
  waits : progress turns id ≠ .collected
  row : k.setup.rowAt id job (progress turns id) = k.setup.ripe id job
  collecting : (k.setup.ripe id job).executionStatus = .collecting
  held : ∃ outcome, observedTerminal (k.setup.ripe id job).providerMetadataJson = .ok outcome ∧
    outcome.isTerminal = true

/-- What the provider is shown. -/
abbrev shown (k : Call) (id : String) (job : ComputeJob) : ComputeJobView :=
  (k.setup.ripe id job).view id

/-- The artifacts of a job that waits for its collection. -/
lemma At.before (h : k.At turns db) (ready : k.Ready turns id job) :
    db.descriptions (k.shown id job) = k.start.descriptions (k.shown id job) := by
  have same := (k.setup.ripe_identity id job).symm
  rw [← Db.descriptions_view same, ← Db.descriptions_view same, h.artifacts ready.stored]
  cases p : progress turns id with
  | untouched => rfl
  | polled => rfl
  | collected => exact (ready.waits p).elim

/-- The candidates of a job are taken in and the job is finalised. -/
lemma At.collected (h : k.At turns db) (ready : k.Ready turns id job)
    {candidates : List ArtifactCandidate}
    (found : k.setup.collect (k.shown id job) = .ok candidates) {db1 : Db}
    (ingested : IngestsEach k.setup (k.shown id job) db candidates db1) {now : Datetime}
    {jobIds : List String} (commit : db1.collectingCommit id now = .ok (jobIds, db')) :
    k.At (turns ++ [.collect (k.shown id job)]) db' := by
  obtain ⟨jobs1, tasks1, sound1⟩ := ingested.keeps
  obtain ⟨j, hj, like⟩ := h.row ready.stored
  rw [ready.row] at like
  have hj1 : db1.jobs.get id = some j := by rw [jobs1]; exact hj
  have collecting : j.executionStatus = .collecting := like.executionStatus.trans ready.collecting
  have settles := Db.collectingCommit_settles hj1 collecting commit
  have collected := progress_collect turns (k.shown id job)
  obtain ⟨_, closed⟩ | ⟨j', terminal, hj', _, outcome, _, artifacts, _, jobs, _⟩ :=
    Db.collectingCommit_ok commit
  · exact (closed j hj1 collecting).elim
  cases hj1.symm.trans hj'
  have kept : ∀ view, db'.descriptions view = db1.descriptions view := by
    intro view
    unfold Db.descriptions Db.produced
    rw [artifacts]
  have jobs' : db'.jobs = db.jobs.set id (j.stepped terminal now) := by rw [jobs, jobs1]
  refine h.turn (t := .collect (k.shown id job)) ready.stored
    ((sound1 h.sound).collectingCommit commit) jobs' ?_ ?_ ?_ ?_ ?_
  · rw [show progress _ (Turn.collect (k.shown id job)).view.id = _ from collected]
    decide
  · rw [show progress _ (Turn.collect (k.shown id job)).view.id = _ from collected]
    show (j.stepped terminal now).Alike (k.setup.rowAt id job .collected)
    unfold ReconcilerSetup.rowAt
    rw [← like.metadata, outcome]
    exact like.stepped terminal now 0
  · rw [show progress _ (Turn.collect (k.shown id job)).view.id = _ from collected]
    have contents : db.contents (k.shown id job) = k.start.contents (k.shown id job) := by
      rw [Db.contents_eq, Db.contents_eq, h.before ready]
    have same := (k.setup.ripe_identity id job).symm
    show db'.descriptions (job.view id) = k.setup.artifactsAt k.start id job .collected
    unfold ReconcilerSetup.artifactsAt
    simp only [found]
    rw [Db.descriptions_view same, kept, ingested.descriptions, h.before ready, contents]
  · intro view other
    rw [kept]
    exact ingested.descriptions_other other
  · intro taskId
    have owner : (k.shown id job).taskId = j.taskId := like.taskId.symm
    rw [settles taskId, tasks1]
    simp only [Turn.settles, owner, beq_iff_eq]

/-- One iteration of `_reconcile_collecting`. -/
lemma ends_collectOne (h : k.At turns db) (ready : k.Ready turns id job) :
    k.Ends (k.Took turns (.collect (k.shown id job))) (collectOne k.setup (k.shown id job)) db := by
  have answered : ∀ {x}, k.setup.found (k.shown id job) = x →
      k.fails (.collect (k.shown id job)) = !x.isOk := by
    rintro x rfl
    rfl
  refine Machine.Ends.check ?_ ?_
  · intro _ registered
    have found : k.setup.found (k.shown id job) = k.setup.collect (k.shown id job) := by
      rw [ReconcilerSetup.found, registered]
      rfl
    apply Machine.Ends.call
    intro _
    refine Machine.Ends.check ?_ ?_
    · intro candidates collects
      have collects : k.setup.collect (k.shown id job) = .ok candidates := collects
      have goesOn := answered (found.trans collects)
      refine Machine.Ends.bind (ends_ingestEach _ candidates db) ?_ ?_
      · rintro _ db1 ⟨_, ingested⟩
        apply Machine.Ends.call
        intro _
        obtain ⟨jobs1, _, sound1⟩ := ingested.keeps
        obtain ⟨j, hj, like⟩ := h.row ready.stored
        rw [ready.row] at like
        have hj1 : db1.jobs.get id = some j := by rw [jobs1]; exact hj
        simp only [collectingMachine, ReconcilerSetup.handle]
        generalize (k.answers.answer db1 (.finalise (k.shown id job).id)).now = clock
        obtain ⟨⟨jobIds, db'⟩, ok⟩ := (sound1 h.sound).collectingCommit_total hj1 clock fun _ => by
          rw [like.metadata]
          exact ready.held
        have commit : db1.collectingCommit (k.shown id job).id clock = .ok (jobIds, db') := ok
        rw [commit]
        exact Machine.Ends.ret (Took.ofSucceeds goesOn (h.collected ready collects ingested ok) _)
      · rintro e db1 ⟨no, _⟩
        cases no
    · intro e raises
      exact Took.ofFails (answered (found.trans raises)) h e
  · intro e unknown
    have found : k.setup.found (k.shown id job) = .error e := by
      rw [ReconcilerSetup.found, unknown]
      rfl
    exact Took.ofFails (answered found) h e

/-! ## The loops -/

/-- What a list of turns comes to. -/
structure Went {α : Type} (k : Call) (before turns : List Turn) (result : Except PyErr α)
    (db : Db) : Prop where
  reached : k.At (before ++ done k.fails turns) db
  ended : (result.isOk = true ∧ ∀ t ∈ turns, k.fails t = false) ∨
    (result.isOk = false ∧ ∃ t ∈ turns, k.fails t = true)

/-- No turns. -/
lemma Went.nil {α : Type} (h : k.At turns db) (a : α) : k.Went turns [] (.ok a) db := by
  refine ⟨?_, Or.inl ⟨rfl, ?_⟩⟩
  · rw [done, List.takeWhile_nil, List.append_nil]
    exact h
  · intro t mem
    cases mem

/-- A first turn that ends the call. -/
lemma Went.stop {α : Type} {t : Turn} (failed : k.fails t = true) (h : k.At turns db)
    (rest : List Turn) (e : PyErr) : k.Went turns (t :: rest) (.error e : Except PyErr α) db := by
  refine ⟨?_, Or.inr ⟨rfl, t, List.mem_cons_self, failed⟩⟩
  rw [done_cons_of_fails failed, List.append_nil]
  exact h

/-- A first turn and the others. -/
lemma Went.cons {α β : Type} {t : Turn} (succeeded : k.fails t = false) {rest : List Turn}
    {result : Except PyErr α} {result' : Except PyErr β}
    (h : k.Went (turns ++ [t]) rest result db) (same : result'.isOk = result.isOk) :
    k.Went turns (t :: rest) result' db := by
  refine ⟨?_, ?_⟩
  · have reached := h.reached
    rw [List.append_assoc, List.singleton_append] at reached
    rw [done_cons succeeded]
    exact reached
  · rw [same]
    rcases h.ended with ⟨ok, succeed⟩ | ⟨raised, t', mem, failed⟩
    · exact Or.inl ⟨ok, List.forall_mem_cons.mpr ⟨succeeded, succeed⟩⟩
    · exact Or.inr ⟨raised, t', List.mem_cons_of_mem t mem, failed⟩

/-- An iteration of a loop and the iterations behind it. -/
lemma ends_cons {one others : Reconciling (List String)} {t : Turn} {rest : List Turn}
    (first : k.Ends (k.Took turns t) one db)
    (next : ∀ db', k.At (turns ++ [t]) db' → k.Ends (k.Went (turns ++ [t]) rest) others db') :
    k.Ends (k.Went turns (t :: rest))
      (do let ids ← one; let more ← others; return ids ++ more) db := by
  refine Machine.Ends.bind first ?_ ?_
  · intro ids db1 took
    cases succeeded : k.fails t with
    | true => cases (took.fails succeeded).1
    | false =>
      refine Machine.Ends.bind (next db1 (took.succeeds succeeded).2) ?_ ?_
      · intro more db2 went
        exact Machine.Ends.ret (Went.cons succeeded went rfl)
      · intro e db2 went
        exact Went.cons succeeded went rfl
  · intro e db1 took
    cases failed : k.fails t with
    | true => exact Went.stop failed (took.fails failed).2 rest e
    | false => cases (took.succeeds failed).1

/-- A turn of another job. -/
lemma Ready.later (ready : k.Ready turns id job) {t : Turn} (other : t.view.id ≠ id) :
    k.Ready (turns ++ [t]) id job := by
  have same : progress (turns ++ [t]) id = progress turns id := progress_other other
  exact ⟨ready.stored, by rw [same]; exact ready.waits, by rw [same]; exact ready.row,
    ready.collecting, ready.held⟩

/-- The loop of `_reconcile_collecting`. -/
lemma ends_collectEach {views : List ComputeJobView} (distinct : (views.map (·.id)).Nodup)
    (ready : ∀ view ∈ views, ∃ id job, k.Ready turns id job ∧ view = k.shown id job)
    (h : k.At turns db) :
    k.Ends (k.Went turns (views.map .collect)) (collectEach k.setup views) db := by
  induction views generalizing turns db with
  | nil => exact Machine.Ends.ret (Went.nil h [])
  | cons view views ih =>
    obtain ⟨new, others⟩ := List.nodup_cons.mp distinct
    obtain ⟨id, job, first, rfl⟩ := ready view List.mem_cons_self
    refine ends_cons (ends_collectOne h first) ?_
    intro db1 h1
    refine ih others ?_ h1
    intro view' mem
    obtain ⟨id', job', later, rfl⟩ := ready view' (List.mem_cons_of_mem _ mem)
    refine ⟨id', job', later.later ?_, rfl⟩
    intro same
    have same : id = id' := same
    exact new (List.mem_map.mpr ⟨_, mem, same.symm⟩)

/-- The loop of `reconcile_due`. -/
lemma ends_pollEach {views : List ComputeJobView}
    (distinct : (views.map (·.id)).Nodup)
    (ready : ∀ view ∈ views, ∃ id job, k.start.jobs.get id = some job ∧
      job.executionStatus.isPollable = true ∧ progress turns id = .untouched ∧ view = job.view id)
    (h : k.At turns db) :
    k.Ends (k.Went turns (views.map .poll)) (pollEach k.setup k.answers.now views) db := by
  induction views generalizing turns db with
  | nil => exact Machine.Ends.ret (Went.nil h [])
  | cons view views ih =>
    obtain ⟨new, others⟩ := List.nodup_cons.mp distinct
    obtain ⟨id, job, hj, pollable, untouched, rfl⟩ := ready view List.mem_cons_self
    refine ends_cons (ends_pollOne h hj pollable untouched) ?_
    intro db1 h1
    refine ih others ?_ h1
    intro view' mem
    obtain ⟨id', job', hj', pollable', untouched', rfl⟩ := ready view' (List.mem_cons_of_mem _ mem)
    refine ⟨id', job', hj', pollable', ?_, rfl⟩
    rw [progress_other ?_]
    · exact untouched'
    · intro same
      have same : id = id' := same
      exact new (List.mem_map.mpr ⟨_, mem, same.symm⟩)

/-! ## The three passes -/

/-- The jobs of the first pass. -/
abbrev firstPass (k : Call) : List Turn :=
  (k.answers.arrange k.start.collectingJobs).map .collect

/-- The polls. -/
abbrev polls (k : Call) : List Turn :=
  (k.answers.arrange (k.start.dueJobs k.answers.now)).map .poll

/-- The jobs of the second pass. -/
abbrev secondPass (k : Call) : List Turn :=
  (k.answers.arrange (k.setup.endedJobs k.answers.now k.start)).map .collect

/-- The turns of the call. -/
abbrev schedule (k : Call) : List Turn := k.setup.schedule k.answers k.start

lemma due_other {now : Datetime} (due : job.due now = true) :
    job.executionStatus ≠ .collecting := by
  intro collecting
  rw [job.not_due collecting] at due
  cases due

/-- What is known about a job that is collected. -/
lemma collected_ripe (hj : k.start.jobs.get id = some job) {view : ComputeJobView}
    (shown : k.setup.collected k.answers.now id job = some view) :
    view = k.shown id job ∧ (k.setup.ripe id job).executionStatus = .collecting ∧
      ∃ outcome, observedTerminal (k.setup.ripe id job).providerMetadataJson = .ok outcome ∧
        outcome.isTerminal = true := by
  obtain ⟨collecting, rfl⟩ | ⟨ends, rfl⟩ := ReconcilerSetup.collected_eq_some.mp shown
  · have ripe : k.setup.ripe id job = job := by rw [ReconcilerSetup.ripe, if_pos collecting]
    rw [Call.shown, ripe]
    exact ⟨rfl, collecting, k.held hj collecting⟩
  · obtain ⟨due, ended⟩ := Bool.and_eq_true_iff.mp ends
    have ripe : k.setup.ripe id job = k.setup.afterPoll id job := by
      rw [ReconcilerSetup.ripe, if_neg (due_other due)]
    rw [Call.shown, ripe]
    obtain ⟨collecting, _, held⟩ | ⟨pollable, _⟩ :=
      k.setup.afterPoll_cases id (Bool.and_eq_true_iff.mp due).1
    · exact ⟨rfl, collecting, held⟩
    · rw [eq_of_beq ended] at pollable
      cases pollable

/-- A job that has been collected has ended. -/
lemma rowAt_collected
    (held : ∃ outcome, observedTerminal (k.setup.ripe id job).providerMetadataJson = .ok outcome ∧
      outcome.isTerminal = true) :
    (k.setup.rowAt id job .collected).executionStatus.isTerminal = true := by
  obtain ⟨outcome, ok, terminal⟩ := held
  unfold ReconcilerSetup.rowAt
  rw [ok, ComputeJob.stepped_executionStatus]
  exact terminal

/-- After the first pass. -/
lemma progress_firstPass (hj : k.start.jobs.get id = some job) :
    progress k.firstPass id =
      if job.executionStatus = .collecting then .collected else .untouched := by
  split
  · rename_i collecting
    rw [progress_eq_collected]
    exact ⟨job.view id, List.mem_map_of_mem (mem_collecting.mpr ⟨id, job, hj, collecting, rfl⟩),
      rfl⟩
  · rename_i other
    rw [progress_eq_untouched]
    intro t mem same
    obtain ⟨view, chosen, rfl⟩ := List.mem_map.mp mem
    obtain ⟨id', job', hj', collecting, rfl⟩ := mem_collecting.mp chosen
    have same : id' = id := same
    subst same
    cases hj.symm.trans hj'
    exact other collecting

/-- After the polls. -/
lemma progress_polls (hj : k.start.jobs.get id = some job) :
    progress (k.firstPass ++ k.polls) id =
      if job.executionStatus = .collecting then .collected
      else if job.due k.answers.now then .polled
      else .untouched := by
  have polled : (k.answers.arrange (k.start.dueJobs k.answers.now)).any (·.id == id) =
      job.due k.answers.now := by
    rw [Bool.eq_iff_iff, List.any_eq_true]
    constructor
    · rintro ⟨view, mem, own⟩
      obtain ⟨id', job', hj', due, rfl⟩ := mem_due.mp mem
      have same : id' = id := eq_of_beq own
      subst same
      cases hj.symm.trans hj'
      exact due
    · intro due
      exact ⟨job.view id, mem_due.mpr ⟨id, job, hj, due, rfl⟩, beq_self_eq_true id⟩
  rw [progress_append_polls, progress_firstPass hj, polled]
  by_cases collecting : job.executionStatus = .collecting
  · simp [collecting]
  · simp [collecting]

/-- The first pass leaves the due jobs as they were. -/
lemma At.dueJobs (h : k.At k.firstPass db) :
    db.dueJobs k.answers.now = k.start.dueJobs k.answers.now := by
  refine Dict.select_congr (p := fun _ job => job.due k.answers.now)
    (f := fun id job => job.view id) (q := fun _ job => job.due k.answers.now)
    (g := fun id job => job.view id) h.keys.symm ?_
  intro id job' job hj' hj
  by_cases collecting : job.executionStatus = .collecting
  · obtain ⟨j, stored, like⟩ := h.row hj
    cases stored.symm.trans hj'
    rw [progress_firstPass hj, if_pos collecting] at like
    obtain ⟨_, _, held⟩ := collected_ripe hj
      (ReconcilerSetup.collected_eq_some.mpr (Or.inl ⟨collecting, rfl⟩))
    have ended := rowAt_collected held
    rw [← like.executionStatus] at ended
    have notDue : job'.due k.answers.now = false := by
      unfold ComputeJob.due
      generalize job'.executionStatus = status at ended
      revert ended
      cases status <;> simp [ComputeExecutionStatus.isTerminal, ComputeExecutionStatus.isPollable]
    simp [notDue, job.not_due collecting]
  · have untouched := h.untouched hj (by rw [progress_firstPass hj, if_neg collecting])
    cases untouched.symm.trans hj'
    exact ⟨rfl, fun _ => rfl⟩

/-- After the polls the jobs that have ended are to be collected. -/
lemma At.collectingJobs (h : k.At (k.firstPass ++ k.polls) db) :
    db.collectingJobs = k.setup.endedJobs k.answers.now k.start := by
  refine Dict.select_congr (p := fun _ job => job.executionStatus == .collecting)
    (f := fun id job => job.view id) (q := k.setup.ends k.answers.now)
    (g := fun id job => (k.setup.afterPoll id job).view id) h.keys.symm ?_
  intro id job' job hj' hj
  obtain ⟨j, stored, like⟩ := h.row hj
  cases stored.symm.trans hj'
  rw [progress_polls hj] at like
  by_cases collecting : job.executionStatus = .collecting
  · rw [if_pos collecting] at like
    obtain ⟨_, _, held⟩ := collected_ripe hj
      (ReconcilerSetup.collected_eq_some.mpr (Or.inl ⟨collecting, rfl⟩))
    have ended := rowAt_collected held
    rw [← like.executionStatus] at ended
    have notCollecting : (job'.executionStatus == .collecting) = false := by
      generalize job'.executionStatus = status at ended
      revert ended
      cases status <;> decide
    have notEnds : k.setup.ends k.answers.now id job = false := by
      rw [ReconcilerSetup.ends, job.not_due collecting]
      rfl
    simp [notCollecting, notEnds]
  · rw [if_neg collecting] at like
    cases due : job.due k.answers.now with
    | true =>
      rw [due, if_pos rfl] at like
      refine ⟨?_, fun _ => like.view id⟩
      rw [ReconcilerSetup.ends, due, Bool.true_and, like.executionStatus]
      rfl
    | false =>
      rw [due, if_neg Bool.false_ne_true] at like
      have notEnds : k.setup.ends k.answers.now id job = false := by
        rw [ReconcilerSetup.ends, due]
        rfl
      have same : job'.executionStatus = job.executionStatus := like.executionStatus
      simp [notEnds, same, collecting]

/-- Before the first turn. -/
lemma At.nil (k : Call) : k.At [] k.start := by
  refine ⟨k.sound, rfl, fun hj _ => hj, fun {id job} hj => ⟨job, hj, .refl job⟩, fun _ => rfl, ?_⟩
  intro taskId
  rfl

/-- The first pass. -/
lemma ends_firstPass (k : Call) :
    k.Ends (k.Went [] k.firstPass) (reconcileCollecting k.setup) k.start := by
  apply Machine.Ends.call
  intro _
  refine ends_collectEach (nodup_collecting k.answers k.start) ?_ (At.nil k)
  intro view mem
  obtain ⟨id, job, hj, collecting, rfl⟩ := mem_collecting.mp mem
  obtain ⟨shown, ripe, held⟩ := collected_ripe hj
    (ReconcilerSetup.collected_eq_some.mpr (Or.inl ⟨collecting, rfl⟩))
  refine ⟨id, job, ⟨hj, ?_, ?_, ripe, held⟩, shown⟩
  · simp [progress]
  · rw [ReconcilerSetup.ripe, if_pos collecting]
    rfl

/-- The polls. -/
lemma ends_polls (h : k.At k.firstPass db) :
    k.Ends (k.Went k.firstPass k.polls)
      (pollEach k.setup k.answers.now (k.answers.arrange (db.dueJobs k.answers.now))) db := by
  rw [h.dueJobs]
  refine ends_pollEach (nodup_due k.answers k.start) ?_ h
  intro view mem
  obtain ⟨id, job, hj, due, rfl⟩ := mem_due.mp mem
  exact ⟨id, job, hj, (Bool.and_eq_true_iff.mp due).1,
    by rw [progress_firstPass hj, if_neg (due_other due)], rfl⟩

/-- The second pass. -/
lemma ends_secondPass (h : k.At (k.firstPass ++ k.polls) db) :
    k.Ends (k.Went (k.firstPass ++ k.polls) k.secondPass) (reconcileCollecting k.setup) db := by
  apply Machine.Ends.call
  intro _
  show k.Ends _ (collectEach k.setup (k.answers.arrange db.collectingJobs)) db
  rw [h.collectingJobs]
  refine ends_collectEach (nodup_ended k.setup k.answers k.start) ?_ h
  intro view mem
  obtain ⟨id, job, hj, ends, rfl⟩ := mem_ended.mp mem
  have due := (Bool.and_eq_true_iff.mp ends).1
  have reached : progress (k.firstPass ++ k.polls) id = .polled := by
    rw [progress_polls hj, if_neg (due_other due), due, if_pos rfl]
  obtain ⟨shown, ripe, held⟩ := collected_ripe hj
    (ReconcilerSetup.collected_eq_some.mpr (Or.inr ⟨ends, rfl⟩))
  refine ⟨id, job, ⟨hj, ?_, ?_, ripe, held⟩, shown⟩
  · rw [reached]
    decide
  · rw [reached, ReconcilerSetup.ripe, if_neg (due_other due)]
    rfl

/-- A call of `reconcile_due` does its turns up to the first one that fails. -/
theorem ends_reconcileDue (k : Call) :
    k.Ends (fun _ db => k.At (done k.fails k.schedule) db) (reconcileDue k.setup)
      k.start := by
  have whole : k.schedule = k.firstPass ++ k.polls ++ k.secondPass := rfl
  rw [whole]
  refine Machine.Ends.bind k.ends_firstPass ?_ ?_
  · intro _ db1 went1
    obtain ⟨_, succeed1⟩ | ⟨raised, _⟩ := went1.ended
    · have at1 := went1.reached
      rw [List.nil_append, done_eq_self succeed1] at at1
      apply Machine.Ends.call
      intro _
      apply Machine.Ends.call
      intro _
      refine Machine.Ends.bind (ends_polls at1) ?_ ?_
      · intro observed db2 went2
        obtain ⟨_, succeed2⟩ | ⟨raised, _⟩ := went2.ended
        · have at2 := went2.reached
          rw [done_eq_self succeed2] at at2
          have succeed : ∀ t ∈ k.firstPass ++ k.polls, k.fails t = false := by
            intro t mem
            rcases List.mem_append.mp mem with mem | mem
            · exact succeed1 t mem
            · exact succeed2 t mem
          rw [done_append succeed]
          refine Machine.Ends.bind (ends_secondPass at2) ?_ ?_
          · intro _ db3 went3
            exact Machine.Ends.ret went3.reached
          · intro _ db3 went3
            exact went3.reached
        · cases raised
      · intro e db2 went2
        obtain ⟨ok, _⟩ | ⟨_, t, mem, failed⟩ := went2.ended
        · cases ok
        · rw [done_append_of_fails ⟨t, List.mem_append_right _ mem, failed⟩, done_append succeed1]
          exact went2.reached
    · cases raised
  · intro e db1 went1
    obtain ⟨ok, _⟩ | ⟨_, failed⟩ := went1.ended
    · cases ok
    · have reached := went1.reached
      rw [List.nil_append] at reached
      rw [List.append_assoc, done_append_of_fails failed]
      exact reached

end Call

end ResearchController
