import ResearchController.Runner.Refinement

/-!
# What a poll tells about the runner

A poll that takes its reads between the events of a real runner's life (`Runner.watched`), and what
its observation says about the command (`poll_tells_runner`). The poll loads the whole exit record,
of which it only uses the exit code; so it does not tell that record from the one of the abstract
runner (`poll_blind`), and everything that is known about polls of the abstract runner holds here.
-/

namespace ResearchController
open Lib

namespace Runner

/-- What a read of a poll finds. -/
def read (pid : Int) (submission : SubmissionRecord) (c : RunnerProcess) :
    (e : PollEffect) → PollSurroundings → e.Answer
  | .loadExit, _ =>
    match c.world.exit with
    | some data => .ok data
    | none => .error (.fileNotFoundError "exit.json")
  | e, o => (view pid submission c).read e o

/-- The machine of a poll next to a runner that lives on. -/
def watched (pid : Int) (submission : SubmissionRecord) :
    Machine RunnerProcess PollEffect PollEffect.Answer PollSurroundings
      (LifeEvent RunnerSurroundings CommandStep) where
  handle c e o := (c, read pid submission c e o)
  drift := streamingMachine.process.step

end Runner

/-- Answers that a poll does not tell apart: exit records with the same exit code. -/
def PollEffect.Alike : (e : PollEffect) → e.Answer → e.Answer → Prop
  | .loadExit, r, r' => r = r' ∨ ∃ data data', r = .ok data ∧ r' = .ok data' ∧
      exitCodeOf data = exitCodeOf data'
  | _, r, r' => r = r'

/-! ## The poll only uses the exit code -/

lemma readDelta_blind (f : LogFile) (offset : Int) :
    (readDelta f offset).Blind PollEffect.Alike := by
  refine Program.Blind.plain (fun r r' same => same) fun present => ?_
  cases present with
  | false => trivial
  | true =>
    refine Program.Blind.plain (fun r r' same => same) fun sized => ?_
    refine (Program.Blind.check sized).bind fun size => ?_
    refine Program.Blind.plain (fun r r' same => same) fun read => ?_
    exact (Program.Blind.check read).bind fun data => trivial

lemma pollLogs_blind (loads : String → Except PyErr Json) (job : ComputeJobView) :
    (pollLogs loads job).Blind PollEffect.Alike := by
  refine Program.Blind.plain (fun r r' same => same) fun observed => ?_
  refine (Program.Blind.check _).bind fun stdoutOffset => ?_
  refine (Program.Blind.check _).bind fun stderrOffset => ?_
  refine (readDelta_blind .out stdoutOffset).bind fun stdout => ?_
  refine (readDelta_blind .err stderrOffset).bind fun stderr => ?_
  exact (Program.Blind.check _).bind fun progress => trivial

lemma isAlive_blind (pid : Int) : (isAlive pid).Blind PollEffect.Alike := by
  rw [isAlive]
  split
  · exact Program.Blind.plain (fun r r' same => same) fun answer => trivial
  · trivial

lemma pollProcess_blind : pollProcess.Blind PollEffect.Alike := by
  refine Program.Blind.plain (fun r r' same => same) fun present => ?_
  cases present with
  | false => exact (isAlive_blind 0).bind fun alive => trivial
  | true =>
    refine Program.Blind.plain (fun r r' same => same) fun loaded => ?_
    refine (Program.Blind.check loaded).bind fun record => ?_
    exact (isAlive_blind _).bind fun alive => trivial

lemma pollExecution_blind : pollExecution.Blind PollEffect.Alike := by
  refine Program.Blind.plain (fun r r' same => same) fun exited => ?_
  cases exited with
  | false => exact pollProcess_blind
  | true =>
    refine Program.Blind.call (fun loaded => ?_) ?_
    · refine (Program.Blind.check loaded).bind fun exitData => ?_
      exact (Program.Blind.check _).bind fun exitCode => trivial
    · rintro r r' (rfl | ⟨data, data', rfl, rfl, same⟩)
      · rfl
      · exact congrArg (fun code : Except PyErr Int =>
          (Program.check code >>= fun exitCode => pure (exitVerdict exitCode) : Polling _)) same

lemma poll_blind (loads : String → Except PyErr Json) (job : ComputeJobView) :
    (poll loads job).Blind PollEffect.Alike := by
  refine (pollLogs_blind loads job).bind fun logs => ?_
  exact pollExecution_blind.bind fun verdict => trivial

/-! ## A poll next to the runner -/

section Watched

variable {command : List String} {pid : Int} {submission : SubmissionRecord}

/-- The exit record is one that the runner has written. -/
lemma RunnerWorld.Told.exitCode {w : RunnerWorld} (h : w.Told command pid) {data : JsonObject}
    (written : w.exit = some data) : ∃ exitCode, exitCodeOf data = .ok exitCode ∧
      (w.returned = some exitCode ∨ exitCode = 127 ∧ w.Reported) := by
  obtain ⟨_, exitCode, finishedAt, rfl, meaning⟩ := h.exit data written
  exact ⟨exitCode, rfl, meaning⟩

/-- What the poll finds is like what it finds in the view. -/
lemma Runner.read_alike {c : RunnerProcess} (h : Lives command pid c) (e : PollEffect)
    (o : PollSurroundings) :
    e.Alike (read pid submission c e o) ((view pid submission c).read e o) := by
  cases e with
  | loadExit =>
    cases written : c.world.exit with
    | none =>
      have seen : (view pid submission c).exit = none := by
        rw [view, RunnerWorld.view, written, Option.bind_none]
      refine .inl ?_
      simp only [read, RunWorld.read, written, seen]
      rfl
    | some data =>
      obtain ⟨exitCode, code, _⟩ := h.told.exitCode written
      have seen : (view pid submission c).exit = some exitCode := by
        rw [view, RunnerWorld.view, written, Option.bind_some, code]
        rfl
      refine .inr ⟨data, runnerExit exitCode, ?_, RunWorld.read_loadExit seen o, ?_⟩
      · simp only [read, written]
        rfl
      · rw [code, exitCodeOf_runnerExit]
  | now => rfl
  | logExists f => rfl
  | logSize f => rfl
  | readLog f start => rfl
  | exitExists => rfl
  | recordExists => rfl
  | loadRecord => rfl
  | signal pid => rfl

/-- The life of the runner, as the machine of a poll. -/
lemma Runner.watched_views (command : List String) (pid : Int) (submission : SubmissionRecord) :
    (watched pid submission).Views pollMachine (view pid submission) (Lives command pid)
      PollEffect.Alike := by
  refine ⟨fun {c ev c'} lives st => ?_, fun {c} e o lives => ?_⟩
  · have rn : streamingMachine.process.run c [ev] = some c' := System.run_cons.mpr ⟨c', st, rfl⟩
    exact lives.run submission rn
  · exact ⟨lives, o, rfl, read_alike lives e o⟩

/-- A poll next to the runner is a poll of its view. -/
lemma Runner.poll_viewed {loads : String → Except PyErr Json} {job : ComputeJobView}
    {c c' : RunnerProcess} {trace : List (PollEffect × RunnerProcess)} {obs : JobObservation}
    (lives : Lives command pid c)
    (call : (watched pid submission).Interleaved (poll loads job) c trace (.ok obs) c') :
    Lives command pid c' ∧ pollMachine.Interleaved (poll loads job) (view pid submission c)
      (trace.map fun x => (x.1, view pid submission x.2)) (.ok obs) (view pid submission c') :=
  call.viewed (watched_views command pid submission) (poll_blind loads job) lives

/-- What an exit code on record means. -/
lemma Runner.Lives.exit {c : RunnerProcess} (lives : Lives command pid c) {exitCode : Int}
    (seen : (view pid submission c).exit = some exitCode) :
    c.world.started = some command ∧ c.world.returned = some exitCode ∨
      exitCode = 127 ∧ c.world.Reported := by
  cases written : c.world.exit with
  | none =>
    rw [view, RunnerWorld.view, written, Option.bind_none] at seen
    cases seen
  | some data =>
    obtain ⟨exitCode', code, meaning⟩ := lives.told.exitCode written
    rw [view, RunnerWorld.view, written, Option.bind_some, code] at seen
    cases seen
    rcases meaning with returned | failed
    · exact .inl ⟨lives.told.returned (returned ▸ rfl), returned⟩
    · exact .inr failed

/-- An exit code that the runner has ended with is on record. -/
lemma Runner.Lives.ended {c : RunnerProcess} (lives : Lives command pid c) {exitCode : Int}
    (ended : c.ended = some (.ok exitCode)) : (view pid submission c).exit = some exitCode := by
  obtain ⟨data, written, code⟩ := lives.holds.result ended exitCode rfl
  rw [view, RunnerWorld.view, written, Option.bind_some, code]
  rfl

/-- A poll whose reads fall between the events in the life of the first runner of a work directory,
    whose command writes through its streams only. An exit code is what the command of the job has
    returned, or 127 with the failure in `run.error`, and success means that it has returned 0. A
    runner that is reported missing is gone, and it had ended with an exit code only if it came to
    its end between the two reads that decide. A runner that had ended before the poll is reported
    with its exit code. -/
theorem poll_tells_runner (positive : 0 < pid) (onRecord : submission.pid = some pid)
    {prepared : PreparedJob} {program : Running Int}
    (entry : Runner.main pid (Runner.argumentsOf prepared) = .ok program) {w : RunnerWorld}
    (fresh : w.Fresh) {before : List (LifeEvent RunnerSurroundings CommandStep)}
    {c c' : RunnerProcess} (rn : streamingMachine.process.run (.spawn w program) before = some c)
    {loads : String → Except PyErr Json} {job : ComputeJobView}
    {trace : List (PollEffect × RunnerProcess)} {obs : JobObservation}
    (call : (Runner.watched pid submission).Interleaved (poll loads job) c trace (.ok obs) c') :
    (∀ exitCode, obs.exitCode = some exitCode →
      c'.world.started = some prepared.command ∧ c'.world.returned = some exitCode ∨
        exitCode = 127 ∧ c'.world.Reported) ∧
    (obs.executionStatus = .succeeded →
      c'.world.started = some prepared.command ∧ c'.world.returned = some 0) ∧
    (obs.rawSchedulerState = some "PROCESS_MISSING_WITHOUT_EXIT_RECORD" →
      c'.present = false ∧ ∀ exitCode, c'.ended = some (.ok exitCode) →
        Straddled (trace.map fun x => (x.1, Runner.view pid submission x.2))) ∧
    ∀ exitCode, c.ended = some (.ok exitCode) → obs.exitCode = some exitCode := by
  rw [Runner.main_argumentsOf entry] at rn
  obtain ⟨lives, _⟩ := (Runner.lives_spawn fresh).run submission rn
  obtain ⟨lives', viewed⟩ := Runner.poll_viewed lives call
  have launched : (Runner.view pid submission c).Launched := ⟨⟨submission, rfl, onRecord⟩, positive⟩
  obtain ⟨logs, verdict, first, decisive, rfl, decision, split, _⟩ := poll_decision launched viewed
  have met := viewed.met fun _ _ _ => rfl
  rw [split] at met ⊢
  cases decision with
  | @exited w1 w2 exitCode exited later =>
    have seen := later.exit exitCode exited
    refine ⟨?_, ?_, ?_, ?_⟩
    · intro exitCode' same
      cases same
      exact lives'.exit seen
    · intro succeeded
      have zero : exitCode = 0 := by
        by_contra failed
        have status : (exitVerdict exitCode).status = .succeeded := succeeded
        simp only [exitVerdict, failed, if_false] at status
        cases status
      rw [zero] at seen
      rcases lives'.exit seen with returned | ⟨other, _⟩
      · exact returned
      · cases other
    · intro missing
      have exitedState : "EXITED" = "PROCESS_MISSING_WITHOUT_EXIT_RECORD" :=
        Option.some.inj missing
      exact absurd exitedState (by decide)
    · intro exitCode' ended
      have early := pollMachine_later (met (.exitExists, w1)
        (List.mem_append_right _ List.mem_cons_self))
      have recorded := early.exit exitCode' (lives.ended ended)
      exact exited.symm.trans recorded
  | @process w1 w2 w3 w4 pid' unwritten later =>
    refine ⟨?_, ?_, ?_, ?_⟩
    · intro exitCode same
      cases present : w4.present <;> rw [present] at same <;> cases same
    · intro succeeded
      cases present : w4.present <;> rw [present] at succeeded <;> cases succeeded
    · intro missing
      have gone : w4.present = false := by
        by_contra there
        rw [Bool.not_eq_false] at there
        rw [there] at missing
        have aliveState : "PROCESS_ALIVE" = "PROCESS_MISSING_WITHOUT_EXIT_RECORD" :=
          Option.some.inj missing
        exact absurd aliveState (by decide)
      obtain ⟨gone', same⟩ := later.gone gone
      refine ⟨gone', fun exitCode ended => ?_⟩
      have written : w4.exit = some exitCode := same.symm.trans (lives'.ended ended)
      refine ⟨w1, w4, pid', List.mem_append_right _ List.mem_cons_self,
        List.mem_append_right _ (by simp), unwritten, ?_, gone⟩
      rw [written]
      exact Option.some_ne_none _
    · intro exitCode ended
      have early := pollMachine_later (met (.exitExists, w1)
        (List.mem_append_right _ List.mem_cons_self))
      have recorded := early.exit exitCode (lives.ended ended)
      rw [unwritten] at recorded
      cases recorded

end Watched

/-- What a first poll learns from the logs of the runner. -/
def finishedLogs : PollLogs :=
  { observed := 0, cursor := logCursor "/w" 1 0, progress := [] }

/-- The job that was prepared for it. -/
def trainJob : PreparedJob :=
  { providerId := "local", submissionKey := "s", resourceClass := "local_cpu", workdir := "/w",
    command := ["train"], env := [], outputs := [] }

/-- A poll that starts after the runner has ended, and finds what it has left. -/
theorem poll_tells_runner_finished :
    ∃ c, streamingMachine.process.run (.spawn {} (Runner.run 1 ["train"])) finishedLife = some c ∧
      ∃ trace obs, (Runner.watched 1 launchedRecord).Interleaved (poll noTelemetry runningView) c
        trace (.ok obs) c ∧
      obs.executionStatus = .succeeded ∧ obs.exitCode = some 0 ∧
      c.world.started = some ["train"] ∧ c.world.returned = some 0 := by
  have call : ∃ trace, (Runner.watched 1 launchedRecord).Interleaved
      (poll noTelemetry runningView) finishedRunner trace
      (.ok (observation runningView finishedLogs (exitVerdict 0))) finishedRunner :=
    ⟨_, .perform (o := {}) .refl (.perform (o := {}) .refl (.perform (o := {}) .refl
      (.perform (o := {}) .refl (.perform (o := {}) .refl (.perform (o := {}) .refl
        (.perform (o := {}) .refl (.perform (o := {}) .refl (.perform (o := {}) .refl .ret))))))))⟩
  obtain ⟨trace, call⟩ := call
  have entry : Runner.main 1 (Runner.argumentsOf trainJob) = .ok (Runner.run 1 ["train"]) := rfl
  have life : streamingMachine.process.run (.spawn {} (Runner.run 1 ["train"])) finishedLife =
      some finishedRunner := rfl
  obtain ⟨_, succeeded, _, ended⟩ :=
    poll_tells_runner (by decide) rfl entry ⟨rfl, rfl, rfl⟩ life call
  obtain ⟨started, returned⟩ := succeeded rfl
  exact ⟨_, life, trace, _, call, rfl, ended 0 rfl, started, returned⟩

end ResearchController
