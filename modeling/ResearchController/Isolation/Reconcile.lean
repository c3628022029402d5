import ResearchController.Isolation.Call

/-!
# Isolation of reconciliation

Only the poll of a job is guarded. An exception of `collect`, of the registry or of the transaction
that records an answer ends the call, and the jobs whose turns come later wait.
`reconcile_isolates_iff` is the exact condition under which the call nevertheless decides about the
jobs that are not failing as if the failing ones were not there: no turn that ends the call comes
before a turn that gives one of them another status.
-/

namespace ResearchController
open Lib

variable {r : ReconcilerSetup} {s s' : CallAnswers} {db : Db}

/-! ## Jobs that are not failing -/

lemma ReconcilerSetup.collected_id {now : Datetime} {id : String} {job : ComputeJob}
    {view : ComputeJobView} (shown : r.collected now id job = some view) : view.id = id := by
  obtain ⟨_, rfl⟩ | ⟨_, rfl⟩ := collected_eq_some.mp shown
  · rfl
  · rfl

/-- A poll with an answer that can be stored does not end the call. -/
lemma ReconcilerSetup.pollTurn_of_observation {now : Datetime} {view : ComputeJobView}
    {obs : JobObservation} (observed : r.observation view = .ok obs) :
    r.pollTurn now view = .ok () := by
  obtain ⟨_, registered, h⟩ := bind_ok.mp observed
  obtain ⟨answer, polled, h⟩ := bind_ok.mp h
  obtain ⟨_, storable, _⟩ := bind_ok.mp h
  refine bind_ok.mpr ⟨(), registered, ?_⟩
  rw [polled]
  exact storable

/-- No turn of a job that is not failing ends the call. -/
lemma ReconcilerSetup.fails_of_good {now : Datetime} {id : String} {job : ComputeJob}
    (good : r.failing now id job = false) :
    (∀ view, r.collected now id job = some view → r.fails now (.collect view) = false) ∧
      (job.due now = true → r.fails now (.poll (job.view id)) = false) := by
  obtain ⟨polls, collects⟩ := Bool.or_eq_false_iff.mp good
  constructor
  · intro view shown
    rw [shown] at collects
    exact collects
  · intro due
    rw [due, Bool.true_and] at polls
    cases observed : r.observation (job.view id) with
    | ok obs =>
      rw [fails, pollTurn_of_observation observed]
      rfl
    | error e =>
      rw [observed] at polls
      cases polls

/-- A job that has been collected in the call is not failing. -/
lemma ReconcilerSetup.good_of_collected {now : Datetime} {id : String} {job : ComputeJob}
    {view : ComputeJobView} (shown : r.collected now id job = some view)
    (succeeds : r.fails now (.collect view) = false) : r.failing now id job = false := by
  have collects : (r.collected now id job).any (fun view => !(r.found view).isOk) = false := by
    rw [shown]
    exact succeeds
  rw [failing, collects, Bool.or_false]
  obtain ⟨collecting, _⟩ | ⟨ends, _⟩ := collected_eq_some.mp shown
  · rw [job.not_due collecting]
    rfl
  · obtain ⟨due, ended⟩ := Bool.and_eq_true_iff.mp ends
    have pollable := (Bool.and_eq_true_iff.mp due).1
    cases answer : r.observation (job.view id) with
    | ok obs => rw [Except.isOk, Except.toBool, Bool.not_true, Bool.and_false]
    | error e =>
      rw [afterPoll, answer] at ended
      have status : job.executionStatus = .collecting := by
        rw [← job.seen_executionStatus .pollError]
        exact eq_of_beq ended
      rw [status] at pollable
      cases pollable

/-- The turn belongs to a job that is not failing. -/
def ReconcilerSetup.good (r : ReconcilerSetup) (now : Datetime) (db : Db) (t : Turn) : Prop :=
  ∃ job, db.jobs.get t.view.id = some job ∧ r.failing now t.view.id job = false

lemma ReconcilerSetup.advances_iff {now : Datetime} {t : Turn} :
    r.advances now db t = true ↔ r.moves t = true ∧ r.good now db t := by
  simp only [advances, good, Bool.and_eq_true, Option.any_eq_true, Bool.not_eq_true']

lemma withoutFailing_get {now : Datetime} {id : String} {job : ComputeJob} :
    (r.withoutFailing now db).jobs.get id = some job ↔
      db.jobs.get id = some job ∧ r.failing now id job = false := by
  rw [ReconcilerSetup.withoutFailing, Dict.get_filter, Bool.not_eq_true']

/-- Without the failing jobs the call has the turns of the others. -/
lemma mem_schedule_withoutFailing (sameNow : s'.now = s.now) {t : Turn} :
    t ∈ r.schedule s' (r.withoutFailing s.now db) ↔ t ∈ r.schedule s db ∧ r.good s.now db t := by
  cases t with
  | collect view =>
    rw [mem_schedule_collect, mem_schedule_collect, sameNow]
    simp only [withoutFailing_get]
    constructor
    · rintro ⟨id, job, ⟨hj, good⟩, shown⟩
      have own := ReconcilerSetup.collected_id shown
      subst own
      exact ⟨⟨_, job, hj, shown⟩, job, hj, good⟩
    · rintro ⟨⟨id, job, hj, shown⟩, job', hj', good⟩
      have own := ReconcilerSetup.collected_id shown
      subst own
      cases hj.symm.trans hj'
      exact ⟨_, job, ⟨hj, good⟩, shown⟩
  | poll view =>
    rw [mem_schedule_poll, mem_schedule_poll, sameNow]
    simp only [withoutFailing_get]
    constructor
    · rintro ⟨id, job, ⟨hj, good⟩, due, rfl⟩
      exact ⟨⟨id, job, hj, due, rfl⟩, job, hj, good⟩
    · rintro ⟨⟨id, job, hj, due, rfl⟩, job', hj', good⟩
      cases hj.symm.trans hj'
      exact ⟨id, job, ⟨hj, good⟩, due, rfl⟩

/-- A turn of a job that is not failing does not end the call. -/
lemma ReconcilerSetup.succeeds_of_good {t : Turn} (mem : t ∈ r.schedule s db)
    (good : r.good s.now db t) : r.fails s.now t = false := by
  obtain ⟨job, hj, good⟩ := good
  cases t with
  | collect view =>
    obtain ⟨id, job', hj', shown⟩ := mem_schedule_collect.mp mem
    have own := collected_id shown
    subst own
    cases hj.symm.trans hj'
    exact (fails_of_good good).1 view shown
  | poll view =>
    obtain ⟨id, job', hj', due, rfl⟩ := mem_schedule_poll.mp mem
    cases hj.symm.trans hj'
    exact (fails_of_good good).2 due

lemma Db.Sound.withoutFailing (sd : db.Sound) (r : ReconcilerSetup) (now : Datetime) :
    (r.withoutFailing now db).Sound :=
  ⟨sd.taskProject, fun hj => sd.jobProject (withoutFailing_get.mp hj).1,
    fun hj => sd.jobTask (withoutFailing_get.mp hj).1, sd.seqBound⟩

/-! ## The outcome of a job -/

namespace Call

variable {k : Call} {turns : List Turn} {id : String} {job : ComputeJob}

/-- What has been decided about a job after some turns. -/
lemma At.outcome (h : k.At turns db) (hj : k.start.jobs.get id = some job) :
    db.outcome id = some
      ((k.setup.rowAt id job (progress turns id)).executionStatus,
        (k.setup.rowAt id job (progress turns id)).exitCode,
        k.setup.artifactsAt k.start id job (progress turns id),
        (k.start.tasks.get job.taskId).map fun t =>
          if turns.any (Turn.settles job.taskId) then t.status.settled else t.status) := by
  obtain ⟨j, stored, like⟩ := h.row hj
  have identity : (k.setup.rowAt id job (progress turns id)).identity = job.identity :=
    k.setup.rowAt_identity id job _
  have owner : j.taskId = job.taskId :=
    like.taskId.trans (congrArg (·.1.taskId) identity)
  have artifacts : db.descriptions (j.view id) = db.descriptions (job.view id) := by
    rw [like.view id, Db.descriptions_view identity]
  rw [Db.outcome, stored, Option.map_some, like.executionStatus, like.exitCode, artifacts, owner,
    h.artifacts hj, h.tasks job.taskId]

/-- A job whose turns have polled it has such a turn. -/
lemma mem_of_polled (polled : progress turns id = .polled) :
    ∃ view, Turn.poll view ∈ turns ∧ view.id = id := by
  have touched : ¬ ∀ t ∈ turns, t.view.id ≠ id := by
    rw [← progress_eq_untouched, polled]
    decide
  have noCollect : ¬ ∃ view, Turn.collect view ∈ turns ∧ view.id = id := by
    rw [← progress_eq_collected, polled]
    decide
  push Not at touched
  obtain ⟨t, mem, own⟩ := touched
  cases t with
  | collect view => exact (noCollect ⟨view, mem, own⟩).elim
  | poll view => exact ⟨view, mem, own⟩

/-- The turns of the job in a schedule. -/
lemma mem_schedule_own (hj : k.start.jobs.get id = some job) {t : Turn} (mem : t ∈ k.schedule)
    (own : t.view.id = id) :
    (∃ view, t = .collect view ∧ k.setup.collected k.answers.now id job = some view) ∨
      t = .poll (job.view id) ∧ job.due k.answers.now = true := by
  cases t with
  | collect view =>
    obtain ⟨id', job', hj', shown⟩ := mem_schedule_collect.mp mem
    have same := (ReconcilerSetup.collected_id shown).symm.trans own
    subst same
    cases hj.symm.trans hj'
    exact Or.inl ⟨view, rfl, shown⟩
  | poll view =>
    obtain ⟨id', job', hj', due, rfl⟩ := mem_schedule_poll.mp mem
    have same : id' = id := own
    subst same
    cases hj.symm.trans hj'
    exact Or.inr ⟨rfl, due⟩

/-- A job that has been collected although it was due comes after all polls. -/
lemma polls_done (hj : k.start.jobs.get id = some job) (due : job.due k.answers.now = true)
    (collected : progress (done k.fails k.schedule) id = .collected) :
    ∀ t ∈ k.polls, t ∈ done k.fails k.schedule := by
  obtain ⟨view, mem, own⟩ := progress_eq_collected.mp collected
  have whole : k.schedule = k.firstPass ++ k.polls ++ k.secondPass := rfl
  rw [whole] at mem ⊢
  by_cases succeed : ∀ t ∈ k.firstPass ++ k.polls, k.fails t = false
  · intro t polled
    rw [done_append succeed]
    exact List.mem_append_left _ (List.mem_append_right _ polled)
  · exfalso
    push Not at succeed
    obtain ⟨t, before, failed⟩ := succeed
    rw [done_append_of_fails ⟨t, before, by simpa using failed⟩] at mem
    rcases List.mem_append.mp (mem_of_done mem).1 with first | polled
    · have early : progress k.firstPass id = .collected :=
        progress_eq_collected.mpr ⟨view, first, own⟩
      rw [progress_firstPass hj, if_neg (due_other due)] at early
      cases early
    · obtain ⟨_, _, e⟩ := List.mem_map.mp polled
      cases e

end Call

/-! ## Two calls -/

/-- Without the failing jobs. -/
def Call.withoutFailing (k : Call) (s' : CallAnswers) : Call where
  setup := k.setup
  answers := s'
  start := k.setup.withoutFailing k.answers.now k.start
  sound := k.sound.withoutFailing k.setup k.answers.now
  held hj := k.held (withoutFailing_get.mp hj).1
  own := k.own

namespace Call

variable {k : Call} {id : String} {job : ComputeJob}

/-- No turn of the call without the failing jobs ends it. -/
lemma done_withoutFailing (sameNow : s'.now = k.answers.now) :
    done (k.withoutFailing s').fails (k.withoutFailing s').schedule =
      (k.withoutFailing s').schedule := by
  apply done_eq_self
  intro t mem
  obtain ⟨mem, good⟩ := (mem_schedule_withoutFailing sameNow).mp mem
  show k.setup.fails s'.now t = false
  rw [sameNow]
  exact k.setup.succeeds_of_good mem good

/-- All turns that advance jobs are done: the two calls have settled the same tasks. -/
lemma settles_eq (sameNow : s'.now = k.answers.now)
    (covered : ∀ t ∈ k.schedule, k.setup.advances k.answers.now k.start t = true →
      t ∈ done k.fails k.schedule) (taskId : String) :
    (done k.fails k.schedule).any (Turn.settles taskId) =
      (k.withoutFailing s').schedule.any (Turn.settles taskId) := by
  rw [Bool.eq_iff_iff, List.any_eq_true, List.any_eq_true]
  constructor
  · rintro ⟨t, mem, settles⟩
    obtain ⟨scheduled, succeeds⟩ := mem_of_done mem
    refine ⟨t, (mem_schedule_withoutFailing sameNow).mpr ⟨scheduled, ?_⟩, settles⟩
    cases t with
    | collect view =>
      obtain ⟨id, job, hj, shown⟩ := mem_schedule_collect.mp scheduled
      have own := ReconcilerSetup.collected_id shown
      subst own
      exact ⟨job, hj, k.setup.good_of_collected shown succeeds⟩
    | poll view => cases settles
  · rintro ⟨t, mem, settles⟩
    obtain ⟨scheduled, good⟩ := (mem_schedule_withoutFailing sameNow).mp mem
    refine ⟨t, covered t scheduled (ReconcilerSetup.advances_iff.mpr ⟨?_, good⟩), settles⟩
    cases t with
    | collect view => rfl
    | poll view => cases settles

/-- How far the call without the failing jobs has got with a job that is not failing. -/
lemma progress_withoutFailing (sameNow : s'.now = k.answers.now)
    (hj : k.start.jobs.get id = some job)
    (good : k.setup.failing k.answers.now id job = false) :
    progress (k.withoutFailing s').schedule id =
      if (k.setup.collected k.answers.now id job).isSome then .collected
      else if job.due k.answers.now then .polled
      else .untouched := by
  have own : ∀ {t}, t ∈ k.schedule → t.view.id = id → t ∈ (k.withoutFailing s').schedule := by
    rintro t mem rfl
    exact (mem_schedule_withoutFailing sameNow).mpr ⟨mem, job, hj, good⟩
  cases shown : k.setup.collected k.answers.now id job with
  | some view =>
    rw [Option.isSome_some, if_pos rfl, progress_eq_collected]
    have named := ReconcilerSetup.collected_id shown
    exact ⟨view, own (mem_schedule_collect.mpr ⟨id, job, hj, shown⟩) named, named⟩
  | none =>
    rw [Option.isSome_none, if_neg Bool.false_ne_true]
    have notCollected : progress (k.withoutFailing s').schedule id ≠ .collected := by
      rw [ne_eq, progress_eq_collected]
      rintro ⟨view, mem, named⟩
      obtain ⟨mem, _⟩ := (mem_schedule_withoutFailing sameNow).mp mem
      obtain ⟨view', e, shown'⟩ | ⟨e, _⟩ := mem_schedule_own hj mem named
      · rw [shown] at shown'
        cases shown'
      · cases e
    cases due : job.due k.answers.now with
    | true =>
      have touched : progress (k.withoutFailing s').schedule id ≠ .untouched := by
        rw [ne_eq, progress_eq_untouched]
        intro none
        exact none _ (own (mem_schedule_poll.mpr ⟨id, job, hj, due, rfl⟩) rfl) rfl
      rw [if_pos rfl]
      cases p : progress (k.withoutFailing s').schedule id with
      | untouched => exact (touched p).elim
      | polled => rfl
      | collected => exact (notCollected p).elim
    | false =>
      rw [if_neg Bool.false_ne_true, progress_eq_untouched]
      intro t mem named
      obtain ⟨mem, _⟩ := (mem_schedule_withoutFailing sameNow).mp mem
      obtain ⟨view, _, shown'⟩ | ⟨_, due'⟩ := mem_schedule_own hj mem named
      · rw [shown] at shown'
        cases shown'
      · rw [due] at due'
        cases due'

/-- If all turns that advance jobs are done, nothing is missing for a job that is not failing. -/
lemma outcome_of_covered (sameNow : s'.now = k.answers.now)
    (covered : ∀ t ∈ k.schedule, k.setup.advances k.answers.now k.start t = true →
      t ∈ done k.fails k.schedule)
    {db db' : Db} (h : k.At (done k.fails k.schedule) db)
    (h' : (k.withoutFailing s').At (k.withoutFailing s').schedule db')
    (hj : k.start.jobs.get id = some job)
    (good : k.setup.failing k.answers.now id job = false) : db.outcome id = db'.outcome id := by
  have advanced : ∀ {t}, t ∈ k.schedule → t.view.id = id → k.setup.moves t = true →
      t ∈ done k.fails k.schedule := by
    rintro t mem rfl moves
    exact covered t mem (ReconcilerSetup.advances_iff.mpr ⟨moves, job, hj, good⟩)
  have there : (k.withoutFailing s').start.jobs.get id = some job :=
    withoutFailing_get.mpr ⟨hj, good⟩
  rw [h.outcome hj, h'.outcome there, settles_eq sameNow covered]
  -- the two calls may differ in a poll that gives the job no other status
  suffices same : ∀ p p', p = progress (done k.fails k.schedule) id →
      p' = progress (k.withoutFailing s').schedule id →
      (k.setup.rowAt id job p).executionStatus = (k.setup.rowAt id job p').executionStatus ∧
        (k.setup.rowAt id job p).exitCode = (k.setup.rowAt id job p').exitCode ∧
        k.setup.artifactsAt k.start id job p = k.setup.artifactsAt k.start id job p' by
    obtain ⟨status, exitCode, artifacts⟩ := same _ _ rfl rfl
    rw [status, exitCode, artifacts]
    rfl
  intro p p' reached reached'
  rw [progress_withoutFailing sameNow hj good] at reached'
  cases shown : k.setup.collected k.answers.now id job with
  | some view =>
    rw [shown, Option.isSome_some, if_pos rfl] at reached'
    have named := ReconcilerSetup.collected_id shown
    have mem := advanced (t := .collect view)
      (mem_schedule_collect.mpr ⟨id, job, hj, shown⟩) named rfl
    rw [progress_eq_collected.mpr ⟨view, mem, named⟩] at reached
    rw [reached, reached']
    exact ⟨rfl, rfl, rfl⟩
  | none =>
    rw [shown, Option.isSome_none, if_neg Bool.false_ne_true] at reached'
    have notCollected : p ≠ .collected := by
      rw [reached, ne_eq, progress_eq_collected]
      rintro ⟨view, mem, named⟩
      obtain ⟨view', _, shown'⟩ | ⟨e, _⟩ := mem_schedule_own hj (mem_of_done mem).1 named
      · rw [shown] at shown'
        cases shown'
      · cases e
    cases due : job.due k.answers.now with
    | true =>
      rw [due, if_pos rfl] at reached'
      have pollable := (Bool.and_eq_true_iff.mp due).1
      obtain ⟨collecting, _⟩ | ⟨_, exitCode, moves⟩ := k.setup.afterPoll_cases id pollable
      · rw [ReconcilerSetup.collected, if_neg (due_other due), ReconcilerSetup.ends, due,
          collecting] at shown
        cases shown
      · rw [reached']
        cases p with
        | untouched =>
          have still : (k.setup.afterPoll id job).executionStatus = job.executionStatus := by
            by_contra differs
            have mem := advanced (t := .poll (job.view id))
              (mem_schedule_poll.mpr ⟨id, job, hj, due, rfl⟩) rfl (moves.mpr differs)
            exact progress_eq_untouched.mp reached.symm _ mem rfl
          exact ⟨still.symm, exitCode.symm, rfl⟩
        | polled => exact ⟨rfl, rfl, rfl⟩
        | collected => exact (notCollected rfl).elim
    | false =>
      rw [due, if_neg Bool.false_ne_true] at reached'
      cases p with
      | untouched =>
        rw [reached']
        exact ⟨rfl, rfl, rfl⟩
      | polled =>
        obtain ⟨view, mem, named⟩ := mem_of_polled reached.symm
        obtain ⟨_, e, _⟩ | ⟨_, due'⟩ := mem_schedule_own hj (mem_of_done mem).1 named
        · cases e
        · rw [due] at due'
          cases due'
      | collected => exact (notCollected rfl).elim

lemma status_of_outcome {turns : List Turn} {db : Db} (h : k.At turns db)
    (hj : k.start.jobs.get id = some job) :
    (db.outcome id).map (·.1) =
      some (k.setup.rowAt id job (progress turns id)).executionStatus := by
  rw [h.outcome hj]
  rfl

/-- A job that has not been collected has not ended. -/
lemma covered_collect (hj : k.start.jobs.get id = some job) {view : ComputeJobView}
    (shown : k.setup.collected k.answers.now id job = some view)
    (status : (k.setup.rowAt id job (progress (done k.fails k.schedule) id)).executionStatus =
      (k.setup.rowAt id job .collected).executionStatus) :
    .collect view ∈ done k.fails k.schedule := by
  obtain ⟨_, ripe, held⟩ := collected_ripe hj shown
  have ended := rowAt_collected held
  rw [← status] at ended
  cases p : progress (done k.fails k.schedule) id with
  | untouched =>
    rw [p] at ended
    have ended : job.executionStatus.isTerminal = true := ended
    obtain ⟨collecting, _⟩ | ⟨ends, _⟩ := ReconcilerSetup.collected_eq_some.mp shown
    · rw [collecting] at ended
      cases ended
    · have pollable := (Bool.and_eq_true_iff.mp (Bool.and_eq_true_iff.mp ends).1).1
      rw [ComputeExecutionStatus.not_terminal_of_pollable pollable] at ended
      cases ended
  | polled =>
    rw [p] at ended
    have ended : (k.setup.afterPoll id job).executionStatus.isTerminal = true := ended
    obtain ⟨_, polled, own⟩ := mem_of_polled p
    obtain ⟨_, e, _⟩ | ⟨_, due⟩ := mem_schedule_own hj (mem_of_done polled).1 own
    · cases e
    · rw [ReconcilerSetup.ripe, if_neg (due_other due)] at ripe
      rw [ripe] at ended
      cases ended
  | collected =>
    obtain ⟨view', mem, own⟩ := progress_eq_collected.mp p
    obtain ⟨_, e, shown'⟩ | ⟨e, _⟩ := mem_schedule_own hj (mem_of_done mem).1 own
    · cases e
      cases shown.symm.trans shown'
      exact mem
    · cases e

/-- A job that has not been polled is not touched. -/
lemma untouched_of_not_polled (hj : k.start.jobs.get id = some job)
    (due : job.due k.answers.now = true)
    (missing : .poll (job.view id) ∉ done k.fails k.schedule) :
    progress (done k.fails k.schedule) id = .untouched := by
  cases p : progress (done k.fails k.schedule) id with
  | untouched => rfl
  | polled =>
    obtain ⟨_, polled, own⟩ := mem_of_polled p
    obtain ⟨_, e, _⟩ | ⟨e, _⟩ := mem_schedule_own hj (mem_of_done polled).1 own
    · cases e
    · rw [e] at polled
      exact (missing polled).elim
  | collected =>
    have poll := List.mem_map_of_mem (f := Turn.poll) (mem_due.mpr ⟨id, job, hj, due, rfl⟩)
    exact (missing (polls_done hj due p _ poll)).elim

/-- A job whose poll would give it another status and that has been decided about has been
    polled. -/
lemma covered_poll (hj : k.start.jobs.get id = some job) (due : job.due k.answers.now = true)
    (moves : k.setup.moves (.poll (job.view id)) = true)
    (status : (k.setup.rowAt id job (progress (done k.fails k.schedule) id)).executionStatus =
      (k.setup.rowAt id job
        (if (k.setup.collected k.answers.now id job).isSome then .collected
          else .polled)).executionStatus) :
    .poll (job.view id) ∈ done k.fails k.schedule := by
  by_contra missing
  have pollable := (Bool.and_eq_true_iff.mp due).1
  rw [untouched_of_not_polled hj due missing] at status
  have status : job.executionStatus = _ := status
  split at status
  · rename_i isSome
    obtain ⟨view, shown⟩ := Option.isSome_iff_exists.mp isSome
    obtain ⟨_, _, held⟩ := collected_ripe hj shown
    have ended := rowAt_collected held
    rw [← status, ComputeExecutionStatus.not_terminal_of_pollable pollable] at ended
    cases ended
  · have status : job.executionStatus = (k.setup.afterPoll id job).executionStatus := status
    obtain ⟨collecting, _⟩ | ⟨_, _, differs⟩ := k.setup.afterPoll_cases id pollable
    · exact due_other due (status.trans collecting)
    · exact differs.mp moves status.symm

/-- If the two calls decide alike about the job of a turn that advances it, the turn is done. -/
lemma covered_of_outcome (sameNow : s'.now = k.answers.now) {db db' : Db}
    (h : k.At (done k.fails k.schedule) db)
    (h' : (k.withoutFailing s').At (k.withoutFailing s').schedule db') {t : Turn}
    (mem : t ∈ k.schedule) (moves : k.setup.moves t = true)
    (hj : k.start.jobs.get t.view.id = some job)
    (good : k.setup.failing k.answers.now t.view.id job = false)
    (same : db.outcome t.view.id = db'.outcome t.view.id) :
    t ∈ done k.fails k.schedule := by
  have there : (k.withoutFailing s').start.jobs.get t.view.id = some job :=
    withoutFailing_get.mpr ⟨hj, good⟩
  have statuses := congrArg (Option.map (·.1)) same
  rw [status_of_outcome h hj, status_of_outcome h' there, Option.some.injEq,
    progress_withoutFailing sameNow hj good] at statuses
  obtain ⟨view, e, shown⟩ | ⟨e, due⟩ := mem_schedule_own hj mem rfl
  · rw [shown, Option.isSome_some, if_pos rfl] at statuses
    have mem := covered_collect hj shown statuses
    rw [e]
    exact mem
  · rw [due, if_pos rfl] at statuses
    rw [e] at moves
    have mem := covered_poll hj due moves statuses
    rw [e]
    exact mem

end Call

/-! ## The condition -/

/-- For every database between two actions of the controller, every choice of provider calls that
    raise and every order of the query results: a call decides about the jobs that are not failing
    as if the failing ones were not there exactly if no turn that ends the call comes before a turn
    that gives one of them another status. -/
theorem reconcile_isolates_iff {modelValidate : Json → Except PyErr ComputeTaskSpec}
    {actions : List Action} {db : Db} {r : ReconcilerSetup} {s s' : CallAnswers}
    (reachable : (controller modelValidate).run Db.empty actions = some db)
    (own : ∀ {view obs}, r.poll view = .ok obs → obs.computeJobId = view.id)
    (sameNow : s'.now = s.now) (stores : r.storesAll s db = true)
    (stores' : r.storesAll s' (r.withoutFailing s.now db) = true) :
    r.Isolates s s' db ↔ r.unobstructed s db := by
  let k : Call :=
    { setup := r, answers := s, start := db, sound := controller_sound reachable,
      held := (controller_invariants reachable).1.outcome, own := own }
  have h : k.At (done k.fails k.schedule) (r.callDue s db).2 := k.ends_reconcileDue stores
  have h' : (k.withoutFailing s').At (k.withoutFailing s').schedule
      (r.callDue s' (r.withoutFailing s.now db)).2 := by
    have reached := (k.withoutFailing s').ends_reconcileDue stores'
    rwa [show done (k.withoutFailing s').fails _ = _ from k.done_withoutFailing sameNow]
      at reached
  have succeeds : ∀ t ∈ r.schedule s db, r.advances s.now db t = true → r.fails s.now t = false :=
    fun t mem advances => r.succeeds_of_good mem (ReconcilerSetup.advances_iff.mp advances).2
  have covered_iff := done_covers_iff (nodup_schedule r s db) _ succeeds
  have condition : r.unobstructed s db ↔
      ∀ t ∈ r.schedule s db, r.advances s.now db t = true →
        t ∈ done (r.fails s.now) (r.schedule s db) := by
    rw [covered_iff, ReconcilerSetup.unobstructed]
    simp only [Bool.not_eq_true]
  rw [condition]
  constructor
  · intro isolates t mem advances
    obtain ⟨moves, job, hj, good⟩ := ReconcilerSetup.advances_iff.mp advances
    exact Call.covered_of_outcome (k := k) sameNow h h' mem moves hj good
      (isolates t.view.id job hj good)
  · intro covered id job hj good
    exact Call.outcome_of_covered (k := k) sameNow covered h h' hj good

/-! ## A pattern that the file system rejects -/

/-- A task is dispatched, and its job runs to its end. -/
def endedRun (id : String) : List Action :=
  [ .createTask { id := id, projectId := "p", executor := .compute, idempotencyKey := id,
                  specJson := .null },
    .reconcile 0 0 [id],
    .dispatch { id := id, taskId := id, providerId := "local", resourceClass := "local_cpu",
                submissionKey := id, remoteWorkdir := id,
                specJson := { projectId := "p", taskId := id, submissionKey := id,
                              execution := { command := ["train"] }, resources := {} } } "c" 60 0,
    .submitted id "x" 1,
    .observed { computeJobId := id, observedAt := 2, observationStatus := .fresh,
                executionStatus := .succeeded, exitCode := some 0 } 10 2 ]

/-- Two jobs in `COLLECTING`. -/
def twoEnded : Option Db :=
  (controller fun _ => .error (.valueError "")).run Db.empty
    (.createProject "p" "slug" .active :: (endedRun "a" ++ endedRun "b"))

/-- A working directory with one file. An absolute pattern is rejected. -/
def outputFiles (pattern : String) : Workdir :=
  { prepared := .ok [{ logicalName := "model", glob := pattern, artifactKind := "FILE" }],
    present := fun _ => false, isFile := fun _ => true, resolve := id,
    glob := fun pattern =>
      if pattern = "/model" then
        .error (.notImplementedError "Non-relative patterns are unsupported")
      else
        .ok ["model"],
    digest := fun _ => "0", size := fun _ => 1 }

/-- The output of the job in `a` has an absolute pattern. -/
def absoluteSetup : ReconcilerSetup :=
  { registered := fun _ => true,
    collect := fun view =>
      LocalProvider.collect (outputFiles (if view.id = "a" then "/model" else "*")) view,
    poll := fun view => .ok { computeJobId := view.id, observedAt := 3, observationStatus := .fresh,
                              executionStatus := .succeeded },
    workspaceRoot := "", files := fun _ => outputFiles "*", pollInterval := 1 }

/-- The answers to a call, with the query results in the given order. -/
def answersIn (order : List String → List String) : CallAnswers :=
  { now := 5, order := order, uuid := fun _ _ => "x", clock := fun _ _ => 5 }

/-- If the job with the rejected pattern comes first, the other one is not collected. -/
theorem reconcile_isolation_fails :
    ∃ db, twoEnded = some db ∧ absoluteSetup.storesAll (answersIn id) db = true ∧
      ¬ absoluteSetup.Isolates (answersIn id) (answersIn id) db := by
  have columns : twoEnded.map (fun db => (
      (db.jobs.get "b").map (fun job => absoluteSetup.failing 5 "b" job),
      absoluteSetup.storesAll (answersIn id) db,
      ((absoluteSetup.callDue (answersIn id) db).2.outcome "b").map (·.1),
      ((absoluteSetup.callDue (answersIn id)
        (absoluteSetup.withoutFailing 5 db)).2.outcome "b").map (·.1))) =
      some (some false, true, some .collecting, some .succeeded) := by decide
  obtain ⟨db, run, columns⟩ := Option.map_eq_some_iff.mp columns
  obtain ⟨failing, columns⟩ := Prod.mk.inj columns
  obtain ⟨stores, columns⟩ := Prod.mk.inj columns
  obtain ⟨here, there⟩ := Prod.mk.inj columns
  obtain ⟨job, hj, good⟩ := Option.map_eq_some_iff.mp failing
  refine ⟨db, run, stores, ?_⟩
  intro isolates
  have same := congrArg (Option.map (·.1)) (isolates "b" job hj good)
  rw [here] at same
  cases same.trans there

/-- If it comes last, the call decides about the other one. -/
theorem reconcile_isolates_iff_last :
    ∃ db, twoEnded = some db ∧
      absoluteSetup.Isolates (answersIn List.reverse) (answersIn id) db := by
  have columns : twoEnded.map (fun db => (
      absoluteSetup.storesAll (answersIn List.reverse) db,
      absoluteSetup.storesAll (answersIn id) (absoluteSetup.withoutFailing 5 db),
      decide (absoluteSetup.unobstructed (answersIn List.reverse) db))) =
      some (true, true, true) := by decide
  obtain ⟨db, run, columns⟩ := Option.map_eq_some_iff.mp columns
  obtain ⟨stores, columns⟩ := Prod.mk.inj columns
  obtain ⟨stores', condition⟩ := Prod.mk.inj columns
  have own : ∀ {view obs}, absoluteSetup.poll view = .ok obs → obs.computeJobId = view.id := by
    intro view obs polled
    cases polled
    rfl
  have sameNow : (answersIn id).now = (answersIn List.reverse).now := rfl
  exact ⟨db, run, (reconcile_isolates_iff run own sameNow stores stores').mpr
    (of_decide_eq_true condition)⟩

end ResearchController
