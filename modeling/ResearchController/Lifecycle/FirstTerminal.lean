import ResearchController.Lifecycle.Safety

/-!
# The first fresh terminal observation decides

A job that has been submitted receives observations, polls that raise, and finalising transactions,
in any number and order. `JobState.step` says what each of them is for, on the four facts about a
job that an outcome is made of. On this machine two things are easy to see: an input that is not
fresh changes nothing, and from the first deciding observation on no observation changes anything
(`JobState.Closed`). So all of them can be erased.

`Db.JobAt.feed` connects the machine to the transactions of `Services/Reconciler`: on a sound
database each of them acts on the state of its job as the machine says, unless the columns of the
job cannot hold what it assigns (`JobInput.storable`); then it raises, is rolled back and counts for
nothing. In the intermediate state the outcome is a string in a JSON column; `ComputeJob.state`
reads it back.
-/

namespace ResearchController
open Lib

/-- What happens to a job after its submission. -/
inductive JobInput where
  | observed (obs : JobObservation) (pollInterval : Int) (now : Datetime)
  | pollRaised (errorType : String) (pollInterval : Int) (now : Datetime)
  | finalised (now : Datetime)

/-- The transaction of an input of a job. -/
def Db.feed (db : Db) (id : String) : JobInput → Except PyErr Db
  | .observed obs pollInterval now =>
    db.recordObservation { obs with computeJobId := id } pollInterval now
  | .pollRaised errorType pollInterval now => db.pollErrorCommit id errorType pollInterval now
  | .finalised now => do
    let (_, db) ← db.collectingCommit id now
    return db

/-- The database after a sequence of inputs. A transaction that raises is rolled back. -/
def Db.feedAll (db : Db) (id : String) (inputs : List JobInput) : Db :=
  inputs.foldl (fun db input => db.commitUnit (db.feed id input)) db

/-- Whether the columns of a job can hold what an input assigns. -/
def JobInput.storable : JobInput → Bool
  | .observed obs pollInterval _ => (obs.storable pollInterval).isOk
  | .pollRaised _ pollInterval now => (now.plus pollInterval).isOk
  | .finalised _ => true

/-- Whether an input is an observation that decides. -/
def JobInput.deciding : JobInput → Option JobObservation
  | .observed obs _ _ => if obs.decides then some obs else none
  | .pollRaised _ _ _ => none
  | .finalised _ => none

/-- The first fresh terminal observation. -/
def firstDeciding (inputs : List JobInput) : Option JobObservation :=
  inputs.findSome? JobInput.deciding

/-- Whether an input is a finalising transaction. -/
def JobInput.isFinalised : JobInput → Bool
  | .finalised _ => true
  | _ => false

/-- Whether an input is a fresh observation or a finalising transaction. -/
def JobInput.isFresh : JobInput → Bool
  | .observed obs _ _ => obs.observationStatus == .fresh
  | .pollRaised _ _ _ => false
  | .finalised _ => true

/-- Delete the polls that raised, the observations that are not fresh, and every observation after
    the first fresh terminal one. -/
def erase : List JobInput → List JobInput
  | [] => []
  | input :: rest =>
    if input.deciding.isSome then input :: rest.filter JobInput.isFinalised
    else if input.isFresh then input :: erase rest
    else erase rest

/-! ## The abstract job -/

/-- The state of a job as far as its outcome is concerned; `held` is the outcome of a job that
    collects. -/
@[ext] structure JobState where
  status : ComputeExecutionStatus
  exitCode : Option Int
  failureClass : FailureClass
  held : Option ComputeExecutionStatus

/-- The effect of an observation: a fresh one moves a pollable job, a terminal one fixes the
    outcome. -/
def JobState.observe (s : JobState) (obs : JobObservation) : JobState :=
  if s.status.isPollable && obs.observationStatus == .fresh then
    if obs.executionStatus = .running then { s with status := .running }
    else if obs.executionStatus.isTerminal then
      ⟨.collecting, obs.exitCode, obs.failureClass, some obs.executionStatus⟩
    else s
  else s

/-- The effect of a finalising transaction: the held outcome becomes the status. -/
def JobState.finalise (s : JobState) : JobState :=
  match s.held with
  | some outcome => { s with status := outcome, held := none }
  | none => s

/-- The effect of an input. -/
def JobState.step (s : JobState) : JobInput → JobState
  | .observed obs _ _ => s.observe obs
  | .pollRaised _ _ _ => s
  | .finalised _ => s.finalise

/-- The outcome of the job is fixed: it is held or it is the status. -/
def JobState.Closed (s : JobState) : Prop :=
  (s.status = .collecting ∧ ∃ outcome, s.held = some outcome ∧ outcome.isTerminal = true) ∨
    (s.status.isTerminal = true ∧ s.held = none)

/-- The job is still being polled. -/
def JobState.Open (s : JobState) : Prop :=
  s.status.isPollable = true ∧ s.held = none

/-- The outcome that a closed job has or will have is the one of an observation. -/
def JobState.DecidedBy (s : JobState) (obs : JobObservation) : Prop :=
  s.exitCode = obs.exitCode ∧ s.failureClass = obs.failureClass ∧
    (s.held = some obs.executionStatus ∨ s.held = none ∧ s.status = obs.executionStatus)

lemma JobState.Closed.not_pollable {s : JobState} (cl : s.Closed) :
    s.status.isPollable = false := by
  rcases cl with ⟨collecting, _⟩ | ⟨terminal, _⟩
  · rw [collecting]
    rfl
  · revert terminal
    cases s.status <;> decide

/-- A closed job ignores observations. -/
lemma JobState.Closed.observe {s : JobState} (cl : s.Closed) (obs : JobObservation) :
    s.observe obs = s := by
  unfold JobState.observe
  rw [cl.not_pollable, Bool.false_and, if_neg Bool.false_ne_true]

/-- A closed job stays closed, and keeps who decided it. -/
lemma JobState.Closed.step {s : JobState} (cl : s.Closed) (input : JobInput) :
    (s.step input).Closed ∧ ∀ obs, s.DecidedBy obs → (s.step input).DecidedBy obs := by
  cases input with
  | observed obs pollInterval now =>
    simp only [JobState.step, cl.observe]
    exact ⟨cl, fun _ h => h⟩
  | pollRaised errorType pollInterval now => exact ⟨cl, fun _ h => h⟩
  | finalised now =>
    simp only [JobState.step, finalise]
    rcases cl with ⟨_, outcome, held, terminal⟩ | ⟨terminal, none⟩
    · rw [held]
      refine ⟨Or.inr ⟨terminal, rfl⟩, ?_⟩
      rintro obs ⟨exitCode, failureClass, same | ⟨absent, _⟩⟩
      · rw [held, Option.some.injEq] at same
        exact ⟨exitCode, failureClass, Or.inr ⟨rfl, same⟩⟩
      · rw [held] at absent
        cases absent
    · rw [none]
      exact ⟨Or.inr ⟨terminal, none⟩, fun _ h => h⟩

/-- After the outcome is fixed only finalising transactions matter. -/
lemma JobState.Closed.foldl_filter {s : JobState} (cl : s.Closed) (inputs : List JobInput) :
    (inputs.filter JobInput.isFinalised).foldl JobState.step s = inputs.foldl JobState.step s := by
  induction inputs generalizing s with
  | nil => rfl
  | cons input inputs ih =>
    cases input with
    | observed obs pollInterval now =>
      rw [List.foldl_cons, JobState.step, cl.observe]
      exact ih cl
    | pollRaised errorType pollInterval now => exact ih cl
    | finalised now => exact ih (cl.step (.finalised now)).1

/-- A closed job stays decided by whoever decided it. -/
lemma JobState.Closed.foldl_decided {s : JobState} (cl : s.Closed) {obs : JobObservation}
    (dec : s.DecidedBy obs) (inputs : List JobInput) :
    (inputs.foldl JobState.step s).Closed ∧ (inputs.foldl JobState.step s).DecidedBy obs := by
  induction inputs generalizing s with
  | nil => exact ⟨cl, dec⟩
  | cons input inputs ih =>
    obtain ⟨cl', keeps⟩ := cl.step input
    exact ih cl' (keeps obs dec)

/-- A deciding observation closes an open job. -/
lemma JobState.Open.decide {s : JobState} (op : s.Open) {input : JobInput} {obs : JobObservation}
    (deciding : input.deciding = some obs) :
    (s.step input).Closed ∧ (s.step input).DecidedBy obs := by
  cases input with
  | observed obs' pollInterval now =>
    simp only [JobInput.deciding] at deciding
    split at deciding
    · rename_i decides
      cases deciding
      obtain ⟨fresh, terminal⟩ := Bool.and_eq_true_iff.mp decides
      have notRunning : obs.executionStatus ≠ .running := by
        intro e
        rw [e] at terminal
        cases terminal
      have e : s.step (.observed obs pollInterval now) =
          ⟨.collecting, obs.exitCode, obs.failureClass, some obs.executionStatus⟩ := by
        simp only [JobState.step, JobState.observe, op.1, fresh, Bool.and_self, if_true, notRunning,
          if_false, terminal]
      rw [e]
      exact ⟨Or.inl ⟨rfl, obs.executionStatus, rfl, terminal⟩, rfl, rfl, Or.inl rfl⟩
    · cases deciding
  | pollRaised errorType pollInterval now => cases deciding
  | finalised now => cases deciding

/-- An open job stays open until an observation decides, and ignores what is not fresh. -/
lemma JobState.Open.step {s : JobState} (op : s.Open) {input : JobInput}
    (undecided : input.deciding = none) :
    (s.step input).Open ∧ (input.isFresh = false → s.step input = s) := by
  cases input with
  | observed obs pollInterval now =>
    have undecided : obs.decides = false := by
      simp only [JobInput.deciding] at undecided
      split at undecided
      · cases undecided
      · rename_i other
        exact Bool.eq_false_iff.mpr other
    simp only [JobState.step, JobState.observe, JobInput.isFresh, op.1, Bool.true_and]
    cases fresh : obs.observationStatus == ObservationStatus.fresh with
    | false => exact ⟨op, fun _ => rfl⟩
    | true =>
      have other : obs.executionStatus.isTerminal = false := by
        rw [JobObservation.decides, fresh, Bool.true_and] at undecided
        exact undecided
      constructor
      · rw [if_pos rfl, other]
        split
        · exact ⟨rfl, op.2⟩
        · exact op
      · intro stale
        cases stale
  | pollRaised errorType pollInterval now => exact ⟨op, fun _ => rfl⟩
  | finalised now =>
    constructor
    · simp only [JobState.step, JobState.finalise, op.2]
      exact op
    · intro stale
      cases stale

/-- Erasing changes nothing about the state an open job ends in. -/
lemma JobState.Open.foldl_erase {s : JobState} (op : s.Open) (inputs : List JobInput) :
    (erase inputs).foldl JobState.step s = inputs.foldl JobState.step s := by
  induction inputs generalizing s with
  | nil => rfl
  | cons input inputs ih =>
    unfold erase
    cases deciding : input.deciding with
    | some obs =>
      rw [Option.isSome_some, if_pos rfl, List.foldl_cons, List.foldl_cons]
      exact (op.decide deciding).1.foldl_filter inputs
    | none =>
      obtain ⟨op', ignores⟩ := op.step deciding
      rw [Option.isSome_none, if_neg Bool.false_ne_true]
      split
      · rw [List.foldl_cons, List.foldl_cons]
        exact ih op'
      · rename_i stale
        rw [List.foldl_cons, ignores (Bool.eq_false_iff.mpr stale)]
        exact ih op

/-- An open job ends closed by the first deciding observation, or open if there is none. -/
lemma JobState.Open.foldl_decided {s : JobState} (op : s.Open) (inputs : List JobInput) :
    match firstDeciding inputs with
    | some obs =>
      (inputs.foldl JobState.step s).Closed ∧ (inputs.foldl JobState.step s).DecidedBy obs
    | none => (inputs.foldl JobState.step s).Open := by
  induction inputs generalizing s with
  | nil => exact op
  | cons input inputs ih =>
    simp only [firstDeciding, List.findSome?_cons, List.foldl_cons]
    cases deciding : input.deciding with
    | some obs =>
      obtain ⟨cl, dec⟩ := op.decide deciding
      exact cl.foldl_decided dec inputs
    | none => exact ih (op.step deciding).1

/-! ## The transactions refine the abstract job -/

/-- The state of a job row. The held outcome is read as the finalising transaction reads it. -/
def ComputeJob.state (j : ComputeJob) : JobState :=
  { status := j.executionStatus, exitCode := j.exitCode, failureClass := j.failureClass,
    held :=
      if j.executionStatus = .collecting then (observedTerminal j.providerMetadataJson).toOption
      else none }

/-- A row with the work of another one and a state that is not collecting. -/
lemma ComputeJob.SameWork.state {j j' : ComputeJob} (same : j.SameWork j')
    (status : j'.executionStatus = j.executionStatus) : j'.state = j.state := by
  simp only [ComputeJob.state, status, same.exitCode, same.failureClass, same.metadata]

/-- Recording an observation acts on the state of the job. -/
lemma ComputeJob.recorded_state (j : ComputeJob) (obs : JobObservation) (pollInterval : Int)
    (now : Datetime) : (j.recorded obs pollInterval now).state = j.state.observe obs := by
  cases pollable : j.executionStatus.isPollable with
  | false =>
    rw [recorded_closed pollable, JobState.observe]
    simp only [ComputeJob.state, pollable, Bool.false_and, if_neg Bool.false_ne_true]
  | true =>
    have notCollecting : j.executionStatus ≠ .collecting := by
      intro e
      rw [e] at pollable
      cases pollable
    cases decides : obs.decides with
    | true =>
      obtain ⟨_, _, collecting, exitCode, failureClass, outcome⟩ :=
        recorded_decided pollable decides pollInterval now
      obtain ⟨fresh, terminal⟩ := Bool.and_eq_true_iff.mp decides
      have notRunning : obs.executionStatus ≠ .running := by
        intro e
        rw [e] at terminal
        cases terminal
      simp only [ComputeJob.state, JobState.observe, collecting, exitCode, failureClass, outcome,
        pollable, fresh, terminal, notRunning, Bool.and_self, if_true, if_false, Except.toOption]
    | false =>
      obtain ⟨same, status⟩ := recorded_undecided pollable decides pollInterval now
      by_cases runs : obs.observationStatus = .fresh ∧ obs.executionStatus = .running
      · rw [if_pos runs] at status
        simp only [ComputeJob.state, JobState.observe, status, same.exitCode, same.failureClass,
          pollable, runs.1, runs.2, notCollecting]
        rfl
      · rw [if_neg runs] at status
        have ignores : j.state.observe obs = j.state := by
          unfold JobState.observe
          split
          · rename_i fresh
            have fresh := beq_iff_eq.mp (Bool.and_eq_true_iff.mp fresh).2
            rw [if_neg fun running => runs ⟨fresh, running⟩]
            rw [JobObservation.decides, fresh] at decides
            rw [if_neg (by rw [← Bool.not_eq_true] at decides; exact decides)]
          · rfl
        rw [ignores]
        exact same.state status

/-- The invariant of the runs: the database is sound, the job is there and has a given state. -/
structure Db.JobAt (db : Db) (id : String) (s : JobState) : Prop where
  sound : db.Sound
  job : ∃ j, db.jobs.get id = some j ∧ j.state = s

/-- An observation that cannot be stored does not fail on a transition. -/
lemma JobObservation.storable_error {obs : JobObservation} {pollInterval : Int} {e : PyErr}
    (refused : obs.storable pollInterval = .error e) (msg : String) :
    e ≠ .invalidTransition msg := by
  rintro rfl
  simp only [JobObservation.storable, Datetime.plus, bindInteger] at refused
  split at refused
  · split at refused
    · cases refused
    · split at refused
      · split at refused
        · cases refused
        · split at refused <;> cases refused
      · cases refused
  · cases refused

/-- On a sound database an input that can be stored succeeds and acts on the state of its job. -/
lemma Db.JobAt.feed_storable {db : Db} {id : String} {s : JobState} (at_ : db.JobAt id s)
    (phase : s.Open ∨ s.Closed) {input : JobInput} (storable : input.storable = true) :
    ∃ db', db.feed id input = .ok db' ∧ db'.JobAt id (s.step input) := by
  obtain ⟨sd, j, hj, rfl⟩ := at_
  cases input with
  | observed obs pollInterval now =>
    have stored : db.jobs.get ({ obs with computeJobId := id } : JobObservation).computeJobId =
      some j := hj
    have fits : ({ obs with computeJobId := id } : JobObservation).storable pollInterval =
        .ok () := by
      change (obs.storable pollInterval).isOk = true at storable
      change obs.storable pollInterval = .ok ()
      cases h : obs.storable pollInterval with
      | ok => rfl
      | error e =>
        rw [h] at storable
        cases storable
    obtain ⟨db', ok⟩ := sd.recordObservation_total stored fits now
    refine ⟨db', ok, sd.recordObservation ok, _, (recordObservation_sets hj ok).get, ?_⟩
    exact j.recorded_state _ pollInterval now
  | pollRaised errorType pollInterval now =>
    have time : ∃ next, now.plus pollInterval = .ok next := by
      change (now.plus pollInterval).isOk = true at storable
      cases h : now.plus pollInterval with
      | ok next => exact ⟨next, rfl⟩
      | error e =>
        rw [h] at storable
        cases storable
    obtain ⟨next, time⟩ := time
    obtain ⟨db', ok⟩ := sd.pollErrorCommit_total hj errorType time
    refine ⟨db', ok, sd.pollErrorCommit ok, _, (pollErrorCommit_sets hj ok).get, ?_⟩
    have same := j.sameWork_seen .pollError
    exact ComputeJob.SameWork.state ⟨same.taskId, same.attemptNo, same.exitCode, same.failureClass,
      same.metadata⟩ (j.seen_executionStatus .pollError)
  | finalised now =>
    -- a collecting job is closed, so its column holds a terminal outcome
    have held : j.executionStatus = .collecting →
        ∃ outcome, observedTerminal j.providerMetadataJson = .ok outcome ∧
          outcome.isTerminal = true := by
      intro collecting
      rcases phase with ⟨pollable, _⟩ | ⟨_, outcome, held, terminal⟩ | ⟨terminal, _⟩
      · change j.executionStatus.isPollable = true at pollable
        rw [collecting] at pollable
        cases pollable
      · simp only [ComputeJob.state, collecting, if_true] at held
        cases ot : observedTerminal j.providerMetadataJson with
        | ok outcome' =>
          rw [ot] at held
          cases held
          exact ⟨outcome, rfl, terminal⟩
        | error e =>
          rw [ot] at held
          cases held
      · change j.executionStatus.isTerminal = true at terminal
        rw [collecting] at terminal
        cases terminal
    obtain ⟨⟨ids, db'⟩, ok⟩ := sd.collectingCommit_total hj now held
    refine ⟨db', bind_ok.mpr ⟨_, ok, rfl⟩, sd.collectingCommit ok, ?_⟩
    obtain ⟨rfl, idle⟩ | ⟨job, terminal, hj', collecting, outcome, _, _, _, jobs, _⟩ :=
      collectingCommit_ok ok
    · refine ⟨j, hj, ?_⟩
      simp only [JobState.step, JobState.finalise, ComputeJob.state, if_neg (idle j hj)]
    · rw [hj] at hj'
      cases hj'
      refine ⟨j.stepped terminal now, by rw [jobs]; exact Dict.get_set_self _ _ _, ?_⟩
      obtain ⟨s, outcome', isTerminal⟩ := held collecting
      rw [outcome] at outcome'
      cases outcome'
      have same := j.sameWork_stepped terminal now
      have notCollecting : terminal ≠ .collecting := by
        intro e
        rw [e] at isTerminal
        cases isTerminal
      simp only [JobState.step, JobState.finalise, ComputeJob.state, collecting, outcome,
        ComputeJob.stepped_executionStatus, same.exitCode, same.failureClass, notCollecting,
        if_true,
        if_false, Except.toOption]

/-- An input that cannot be stored changes nothing, and does not fail on a transition. -/
lemma Db.JobAt.feed_refused {db : Db} {id : String} {s : JobState} (at_ : db.JobAt id s)
    {input : JobInput} (refused : input.storable = false) :
    db.feed id input = .ok db ∨
      ∃ e, db.feed id input = .error e ∧ ∀ msg, e ≠ .invalidTransition msg := by
  obtain ⟨sd, j, hj, rfl⟩ := at_
  cases input with
  | observed obs pollInterval now =>
    have stored : db.jobs.get ({ obs with computeJobId := id } : JobObservation).computeJobId =
      some j := hj
    cases pollable : j.executionStatus.isPollable with
    | false =>
      left
      simp only [Db.feed, recordObservation, hj, pollable, if_true]
    | true =>
      right
      change (obs.storable pollInterval).isOk = false at refused
      cases h : obs.storable pollInterval with
      | ok =>
        rw [h] at refused
        cases refused
      | error e =>
        exact ⟨e, recordObservation_refused stored pollable h now, obs.storable_error h⟩
  | pollRaised errorType pollInterval now =>
    right
    change (now.plus pollInterval).isOk = false at refused
    simp only [Db.feed, pollErrorCommit, hj]
    unfold Datetime.plus at refused ⊢
    split at refused
    · cases refused
    · rename_i late
      rw [if_neg late]
      refine ⟨_, rfl, ?_⟩
      intro msg h
      cases h
  | finalised now => cases refused

/-- The state of a job after an input. -/
def JobState.fed (s : JobState) (input : JobInput) : JobState :=
  if input.storable then s.step input else s

/-- What an input commits. -/
lemma Db.JobAt.feed {db : Db} {id : String} {s : JobState} (at_ : db.JobAt id s)
    (phase : s.Open ∨ s.Closed) (input : JobInput) :
    (db.commitUnit (db.feed id input)).JobAt id (s.fed input) := by
  unfold JobState.fed
  split
  · rename_i storable
    obtain ⟨db', ok, at'⟩ := at_.feed_storable phase storable
    rw [ok]
    exact at'
  · rename_i refused
    obtain same | ⟨e, raised, _⟩ := at_.feed_refused (Bool.eq_false_iff.mpr refused)
    · rw [same]
      exact at_
    · rw [raised]
      exact at_

lemma JobState.step_phase {s : JobState} (phase : s.Open ∨ s.Closed) (input : JobInput) :
    (s.step input).Open ∨ (s.step input).Closed := by
  rcases phase with op | cl
  · cases deciding : input.deciding with
    | some obs => exact Or.inr (op.decide deciding).1
    | none => exact Or.inl (op.step deciding).1
  · exact Or.inr (cl.step input).1

/-- Every sequence of inputs acts on the state of the job as the machine says, on the inputs that
    can be stored. -/
theorem Db.JobAt.feedAll {db : Db} {id : String} {s : JobState} (at_ : db.JobAt id s)
    (phase : s.Open ∨ s.Closed) (inputs : List JobInput) :
    let s' := (inputs.filter JobInput.storable).foldl JobState.step s
    (db.feedAll id inputs).JobAt id s' ∧ (s'.Open ∨ s'.Closed) := by
  induction inputs generalizing db s with
  | nil => exact ⟨at_, phase⟩
  | cons input inputs ih =>
    have at1 := at_.feed phase input
    cases storable : input.storable with
    | true =>
      rw [JobState.fed, if_pos storable] at at1
      rw [List.filter_cons_of_pos storable]
      exact ih at1 (JobState.step_phase phase input)
    | false =>
      rw [JobState.fed, if_neg (Bool.eq_false_iff.mp storable)] at at1
      rw [List.filter_cons_of_neg (Bool.eq_false_iff.mp storable)]
      exact ih at1 phase

/-- Erasing only deletes. -/
lemma erase_sublist (inputs : List JobInput) : (erase inputs).Sublist inputs := by
  induction inputs with
  | nil => exact List.Sublist.refl []
  | cons input inputs ih =>
    unfold erase
    split
    · exact (List.filter_sublist).cons_cons input
    · split
      · exact ih.cons_cons input
      · exact ih.cons input

/-- For a submitted job of a sound database and every sequence of inputs: no input raises
    `InvalidTransition`, nor any other exception if the columns can hold what it assigns; status,
    exit code and failure class are those of the erased sequence of the inputs that can be stored;
    and a terminal job has those of the first fresh terminal observation among them. -/
theorem first_fresh_terminal_decides {db : Db} (sd : db.Sound) {id : String} {job : ComputeJob}
    (hj : db.jobs.get id = some job) (submitted : job.executionStatus = .submitted)
    (inputs : List JobInput) :
    (∀ before input after e, inputs = before ++ input :: after →
      (db.feedAll id before).feed id input = .error e →
        input.storable = false ∧ ∀ msg, e ≠ .invalidTransition msg) ∧
    ∃ job1 job2,
      (db.feedAll id inputs).jobs.get id = some job1 ∧
      (db.feedAll id (erase (inputs.filter JobInput.storable))).jobs.get id = some job2 ∧
      job1.executionStatus = job2.executionStatus ∧ job1.exitCode = job2.exitCode ∧
      job1.failureClass = job2.failureClass ∧
      (job1.executionStatus.isTerminal = true →
        ∃ obs, firstDeciding (inputs.filter JobInput.storable) = some obs ∧
          job1.executionStatus = obs.executionStatus ∧ job1.exitCode = obs.exitCode ∧
          job1.failureClass = obs.failureClass) := by
  have op : job.state.Open := by
    simp only [JobState.Open, ComputeJob.state, submitted]
    exact ⟨rfl, rfl⟩
  have start : db.JobAt id job.state := ⟨sd, job, hj, rfl⟩
  constructor
  · intro before input after e _ raised
    obtain ⟨at_, phase⟩ := start.feedAll (Or.inl op) before
    cases storable : input.storable with
    | true =>
      obtain ⟨_, ok, _⟩ := at_.feed_storable phase storable
      rw [ok] at raised
      cases raised
    | false =>
      obtain same | ⟨e', raised', other⟩ := at_.feed_refused storable
      · rw [same] at raised
        cases raised
      · cases raised.symm.trans raised'
        exact ⟨rfl, other⟩
  let kept := inputs.filter JobInput.storable
  obtain ⟨⟨_, job1, hj1, state1⟩, _⟩ := start.feedAll (Or.inl op) inputs
  obtain ⟨⟨_, job2, hj2, state2⟩, _⟩ := start.feedAll (Or.inl op) (erase kept)
  have all : (erase kept).filter JobInput.storable = erase kept :=
    List.filter_eq_self.mpr fun input mem =>
      (List.mem_filter.mp ((erase_sublist kept).mem mem)).2
  have same : job1.state = job2.state := by rw [state1, state2, all, op.foldl_erase]
  refine ⟨job1, job2, hj1, hj2, congrArg JobState.status same, congrArg JobState.exitCode same,
    congrArg JobState.failureClass same, ?_⟩
  intro terminal
  have decided := op.foldl_decided kept
  cases first : firstDeciding kept with
  | none =>
    -- an open job is not terminal
    rw [first, ← state1] at decided
    have pollable : job1.executionStatus.isPollable = true := decided.1
    rw [ComputeExecutionStatus.not_terminal_of_pollable pollable] at terminal
    cases terminal
  | some obs =>
    rw [first, ← state1] at decided
    obtain ⟨cl, exitCode, failureClass, held⟩ := decided
    refine ⟨obs, rfl, ?_, exitCode, failureClass⟩
    rcases cl with ⟨collecting, _⟩ | ⟨_, none⟩
    · change job1.executionStatus = .collecting at collecting
      rw [collecting] at terminal
      cases terminal
    · rcases held with held | ⟨_, status⟩
      · rw [none] at held
        cases held
      · exact status

/-! ## A job that is reported with an exit code of more than 64 bits -/

/-- The actions after which the job of the shared dispatch is submitted. -/
def submittedShared : List Action :=
  sharedDispatch ++ [.submitted "j1" "x" 1]

/-- The job loses contact, fails to be polled, is reported as a success with an exit code that the
    column cannot hold, ends with exit code 3 and is later reported as a success again. -/
def reports : List JobInput :=
  [ .observed { computeJobId := "j1", observedAt := 2, observationStatus := .unreachable,
                executionStatus := .succeeded, exitCode := some 0 } 1 2,
    .pollRaised "TimeoutError" 1 3,
    .observed { computeJobId := "j1", observedAt := 4, observationStatus := .fresh,
                executionStatus := .succeeded, exitCode := some (2 ^ 63) } 1 4,
    .observed { computeJobId := "j1", observedAt := 5, observationStatus := .fresh,
                executionStatus := .failed, exitCode := some 3 } 1 5,
    .observed { computeJobId := "j1", observedAt := 6, observationStatus := .fresh,
                executionStatus := .succeeded, exitCode := some 0 } 1 6,
    .finalised 7 ]

/-- The submitted job, and the status and the exit code that the reports leave it with. -/
lemma submittedShared_run :
    ∃ db job, (controller fun _ => .ok sharedSpec).run Db.empty submittedShared = some db ∧
      db.jobs.get "j1" = some job ∧ job.executionStatus = .submitted ∧
      ∀ job1, (db.feedAll "j1" reports).jobs.get "j1" = some job1 →
        job1.executionStatus = .failed := by
  have last : ((controller fun _ => .ok sharedSpec).run Db.empty submittedShared).map (fun db =>
      ((db.jobs.get "j1").map (·.executionStatus),
        ((db.feedAll "j1" reports).jobs.get "j1").map (·.executionStatus))) =
          some (some .submitted, some .failed) := by decide
  obtain ⟨db, rn, e⟩ := Option.map_eq_some_iff.mp last
  obtain ⟨before, after⟩ := Prod.mk.inj e
  obtain ⟨job, hj, submitted⟩ := Option.map_eq_some_iff.mp before
  refine ⟨db, job, rn, hj, submitted, ?_⟩
  intro job1 hj1
  rw [hj1, Option.map_some, Option.some.injEq] at after
  exact after

/-- The exit code that was recorded is that of the first observation that can be stored. -/
theorem first_fresh_terminal_decides_shared :
    ∃ db job1, (controller fun _ => .ok sharedSpec).run Db.empty submittedShared = some db ∧
      (db.feedAll "j1" reports).jobs.get "j1" = some job1 ∧
      job1.executionStatus = .failed ∧ job1.exitCode = some 3 := by
  obtain ⟨db, job, rn, hj, submitted, ends⟩ := submittedShared_run
  obtain ⟨_, job1, _, hj1, _, _, _, _, outcome⟩ :=
    first_fresh_terminal_decides (controller_sound rn) hj submitted reports
  have failed := ends job1 hj1
  obtain ⟨obs, first, _, exitCode, _⟩ := outcome (by rw [failed]; rfl)
  cases first
  exact ⟨db, job1, rn, hj1, failed, exitCode⟩

/-- The first fresh terminal observation does not decide if the column cannot hold its exit code. -/
theorem first_fresh_terminal_refused :
    ¬ ∀ {db : Db} {id : String} {job : ComputeJob}, db.Sound → db.jobs.get id = some job →
        job.executionStatus = .submitted → ∀ inputs,
          ∃ job1 job2, (db.feedAll id inputs).jobs.get id = some job1 ∧
            (db.feedAll id (erase inputs)).jobs.get id = some job2 ∧
            job1.executionStatus = job2.executionStatus ∧ job1.exitCode = job2.exitCode ∧
            job1.failureClass = job2.failureClass ∧
            (job1.executionStatus.isTerminal = true →
              ∃ obs, firstDeciding inputs = some obs ∧
                job1.executionStatus = obs.executionStatus ∧ job1.exitCode = obs.exitCode ∧
                job1.failureClass = obs.failureClass) := by
  intro decides
  obtain ⟨db, job, rn, hj, submitted, ends⟩ := submittedShared_run
  obtain ⟨job1, _, hj1, _, _, _, _, outcome⟩ :=
    decides (controller_sound rn) hj submitted reports
  have failed := ends job1 hj1
  obtain ⟨obs, first, status, _⟩ := outcome (by rw [failed]; rfl)
  cases first
  rw [failed] at status
  cases status

end ResearchController
