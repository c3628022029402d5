import ResearchController.Compute.Local.Poll

/-!
# A poll and the exit record of the runner

`poll` looks for `exit.json` first and for the process later. A runner that writes its exit record
and disappears between the two looks like one that died without a record, and the first terminal
observation of a job is final. `poll_agrees_iff` says that this is the only way in which a poll can
disagree with the exit record (`Straddled`), for every interleaving of the runner's steps with the
reads of the call.
-/

namespace ResearchController
open Lib

/-- The job was submitted: its record names the process of the runner. -/
structure RunWorld.Launched (w : RunWorld) : Prop where
  record : ∃ record, w.submission = some record ∧ record.pid = some w.pid
  positive : 0 < w.pid

/-- A terminal observation carries the exit code of the exit record and the status that belongs to
    it, and a missing process is reported only of a runner that died without a record. -/
def RunWorld.AgreesWith (w : RunWorld) (obs : JobObservation) : Prop :=
  obs.executionStatus.isTerminal = true →
    (∀ c, w.exit = some c → obs.exitCode = some c ∧
      obs.executionStatus = if c = 0 then .succeeded else .failed) ∧
    (obs.rawSchedulerState = some "PROCESS_MISSING_WITHOUT_EXIT_RECORD" →
      w.present = false ∧ w.exit = none)

/-- The runner has written its exit record and disappeared between the two reads of the poll that
    decide: `exit.json` was not there yet, and the process was not there any more. -/
def Straddled (trace : List (PollEffect × RunWorld)) : Prop :=
  ∃ w1 w2 pid, (.exitExists, w1) ∈ trace ∧ (.signal pid, w2) ∈ trace ∧
    w1.exit = none ∧ w2.exit ≠ none ∧ w2.present = false

/-! ## What the runner cannot undo -/

/-- What is known of a later world of the same job. -/
structure RunWorld.Later (w w' : RunWorld) : Prop where
  submission : w'.submission = w.submission
  pid : w'.pid = w.pid
  exit : ∀ c, w.exit = some c → w'.exit = some c
  gone : w.present = false → w'.present = false ∧ w'.exit = w.exit

lemma RunWorld.Later.refl (w : RunWorld) : w.Later w :=
  ⟨rfl, rfl, fun _ h => h, fun h => ⟨h, rfl⟩⟩

lemma RunWorld.runnerStep_later {w w' : RunWorld} {e : RunnerStep} (st : w.runnerStep e = some w') :
    w.Later w' := by
  cases e with
  | append f data =>
    cases f with
    | out =>
      cases st
      exact ⟨rfl, rfl, fun _ h => h, fun h => ⟨h, rfl⟩⟩
    | err =>
      cases st
      exact ⟨rfl, rfl, fun _ h => h, fun h => ⟨h, rfl⟩⟩
  | finish c =>
    simp only [runnerStep] at st
    split at st
    · rename_i running
      cases st
      refine ⟨rfl, rfl, ?_, ?_⟩
      · intro c' exited
        rw [running.2] at exited
        cases exited
      · intro gone
        rw [running.1] at gone
        cases gone
    · cases st
  | disappear =>
    simp only [runnerStep] at st
    split at st
    · rename_i present
      cases st
      refine ⟨rfl, rfl, fun _ h => h, ?_⟩
      intro gone
      rw [present] at gone
      cases gone
    · cases st

lemma pollMachine_later {w w' : RunWorld} (drifts : pollMachine.Drifts w w') : w.Later w' := by
  induction drifts with
  | refl => exact .refl w
  | tail _ st ih =>
    obtain ⟨e, st⟩ := st
    have step := RunWorld.runnerStep_later st
    refine ⟨step.submission.trans ih.submission, step.pid.trans ih.pid,
      fun c h => step.exit c (ih.exit c h), ?_⟩
    intro gone
    obtain ⟨gone, same⟩ := ih.gone gone
    obtain ⟨gone', same'⟩ := step.gone gone
    exact ⟨gone', same'.trans same⟩

lemma RunWorld.Launched.later {w w' : RunWorld} (launched : w.Launched) (later : w.Later w') :
    w'.Launched := by
  obtain ⟨record, stored, pid⟩ := launched.record
  refine ⟨⟨record, later.submission.trans stored, ?_⟩, ?_⟩
  · rw [later.pid]
    exact pid
  · rw [later.pid]
    exact launched.positive

/-! ## The two reads that decide -/

/-- Whether an effect is one of the two reads that decide. -/
def PollEffect.decides : PollEffect → Bool
  | .exitExists => true
  | .signal _ => true
  | _ => false

lemma readDelta_within (f : LogFile) (offset : Int) :
    (readDelta f offset).Within fun e => e.decides = false := by
  refine ⟨rfl, ?_⟩
  intro present
  cases present with
  | false => trivial
  | true =>
    refine ⟨rfl, fun sized => ?_⟩
    apply (Program.Within.check _ _).bind
    intro size
    refine ⟨rfl, fun read => ?_⟩
    apply (Program.Within.check _ _).bind
    exact fun data => trivial

lemma pollLogs_within (loads : String → Except PyErr Json) (job : ComputeJobView) :
    (pollLogs loads job).Within fun e => e.decides = false := by
  refine ⟨rfl, fun observed => ?_⟩
  apply (Program.Within.check _ _).bind
  intro stdoutOffset
  apply (Program.Within.check _ _).bind
  intro stderrOffset
  apply (readDelta_within .out stdoutOffset).bind
  intro stdout
  apply (readDelta_within .err stderrOffset).bind
  intro stderr
  apply (Program.Within.check _ _).bind
  exact fun progress => trivial

/-- What the decision of a poll is based on. -/
inductive Decision (w' : RunWorld) : List (PollEffect × RunWorld) → PollVerdict → Prop where
  | exited {w1 w2 c} :
    w1.exit = some c →
    w1.Later w' →
    Decision w' [(.exitExists, w1), (.loadExit, w2)] (exitVerdict c)
  | process {w1 w2 w3 w4 pid} :
    w1.exit = none →
    w4.Later w' →
    Decision w' [(.exitExists, w1), (.recordExists, w2), (.loadRecord, w3), (.signal pid, w4)]
      (livenessVerdict w4.present)

/-- The exit record is read back as the code that the runner wrote. -/
lemma exitCodeOf_runnerExit (c : Int) : exitCodeOf (runnerExit c) = .ok c := by
  rfl

/-- The process is looked up under the pid of the record. -/
lemma pollProcess_decision {w w' : RunWorld} {trace : List (PollEffect × RunWorld)}
    {verdict : PollVerdict} (launched : w.Launched)
    (call : pollMachine.Interleaved pollProcess w trace (.ok verdict) w') :
    ∃ w2 w3 w4 pid, w4.Later w' ∧ verdict = livenessVerdict w4.present ∧
      trace = [(.recordExists, w2), (.loadRecord, w3), (.signal pid, w4)] := by
  obtain ⟨w2, o2, trace2, drifts2, call2, rfl⟩ := call.call_inv
  obtain ⟨record, stored, pid⟩ := launched.record
  have later2 := pollMachine_later drifts2
  have found : (pollMachine.handle w2 .recordExists o2).2 = true :=
    congrArg Option.isSome (later2.submission.trans stored)
  rw [found, if_pos rfl] at call2
  obtain ⟨w3, o3, trace3, drifts3, call3, rfl⟩ := call2.call_inv
  have later3 := pollMachine_later drifts3
  have loaded : (pollMachine.handle w3 .loadRecord o3).2 = .ok record :=
    RunWorld.read_loadRecord (later3.submission.trans (later2.submission.trans stored)) o3
  rw [loaded] at call3
  obtain ⟨record', e, call4⟩ := call3.check_inv
  cases e
  rw [pid, Option.getD_some, isAlive, if_pos launched.positive] at call4
  obtain ⟨alive, w5, first, rest, signalled, finished, rfl⟩ := call4.bind_inv
  obtain ⟨rfl, e, ended⟩ := finished.ret_inv
  cases e
  obtain ⟨w4, o4, trace4, drifts4, answered, rfl⟩ := signalled.call_inv
  obtain ⟨rfl, e, same⟩ := answered.ret_inv
  cases e
  have ended : w' = w4 := ended.trans same
  have later4 := pollMachine_later drifts4
  have samePid : w.pid = w4.pid :=
    (later4.pid.trans (later3.pid.trans later2.pid)).symm
  refine ⟨w2, w3, w4, w.pid, ended ▸ .refl w4, ?_, rfl⟩
  have alive : SignalResult.alive (pollMachine.handle w4 (.signal w.pid) o4).2 = w4.present := by
    rw [samePid]
    exact w4.read_signal o4
  rw [alive]

/-- Every call of the deciding part of a poll decides in one of the two ways. -/
lemma pollExecution_decision {w w' : RunWorld} {trace : List (PollEffect × RunWorld)}
    {verdict : PollVerdict} (launched : w.Launched)
    (call : pollMachine.Interleaved pollExecution w trace (.ok verdict) w') :
    Decision w' trace verdict := by
  obtain ⟨w1, o1, trace1, drifts1, call1, rfl⟩ := call.call_inv
  have later1 := pollMachine_later drifts1
  cases exit1 : w1.exit with
  | some c =>
    have found : (pollMachine.handle w1 .exitExists o1).2 = true :=
      congrArg Option.isSome exit1
    rw [found, if_pos rfl] at call1
    obtain ⟨w2, o2, trace2, drifts2, call2, rfl⟩ := call1.call_inv
    have later2 := pollMachine_later drifts2
    have loaded : (pollMachine.handle w2 .loadExit o2).2 = .ok (runnerExit c) :=
      RunWorld.read_loadExit (later2.exit c exit1) o2
    rw [loaded] at call2
    obtain ⟨exitData, e, call3⟩ := call2.check_inv
    cases e
    obtain ⟨code, e, call4⟩ := call3.check_inv
    rw [exitCodeOf_runnerExit] at e
    cases e
    obtain ⟨rfl, e, rfl⟩ := call4.ret_inv
    cases e
    exact .exited exit1 later2
  | none =>
    have missing : (pollMachine.handle w1 .exitExists o1).2 = false :=
      congrArg Option.isSome exit1
    rw [missing, if_neg Bool.false_ne_true] at call1
    obtain ⟨w2, w3, w4, pid, later, rfl, rfl⟩ :=
      pollProcess_decision (launched.later later1) call1
    exact .process exit1 later

/-- A call decides on the worlds that its two deciding reads meet. -/
lemma poll_decision {loads : String → Except PyErr Json} {job : ComputeJobView} {w w' : RunWorld}
    {trace : List (PollEffect × RunWorld)} {obs : JobObservation} (launched : w.Launched)
    (call : pollMachine.Interleaved (poll loads job) w trace (.ok obs) w') :
    ∃ logs verdict first decisive, obs = observation job logs verdict ∧
      Decision w' decisive verdict ∧ trace = first ++ decisive ∧
      ∀ x ∈ first, x.1.decides = false := by
  obtain ⟨logs, w1, first, rest, logged, executed, rfl⟩ := call.bind_inv
  obtain ⟨verdict, w2, decisive, last, decided, finished, rfl⟩ := executed.bind_inv
  obtain ⟨rfl, e, ended⟩ := finished.ret_inv
  cases e
  have later := pollMachine_later (logged.drifts fun _ _ _ => rfl)
  refine ⟨logs, verdict, first, decisive, rfl, ?_, by rw [List.append_nil], ?_⟩
  · rw [ended]
    exact pollExecution_decision (launched.later later) decided
  · exact logged.within (pollLogs_within loads job)

/-! ## Agreement -/

/-- A deciding read is not among the reads of the logs. -/
lemma mem_decisive {first decisive : List (PollEffect × RunWorld)} {e : PollEffect} {w : RunWorld}
    (none : ∀ x ∈ first, x.1.decides = false) (decides : e.decides = true)
    (mem : (e, w) ∈ first ++ decisive) : (e, w) ∈ decisive := by
  rcases List.mem_append.mp mem with early | late
  · have other := none (e, w) early
    rw [decides] at other
    cases other
  · exact late

/-- A call of `poll` agrees with the exit record from then on, whatever the runner does, exactly
    when the runner has not written the record and disappeared between the two reads that decide. -/
theorem poll_agrees_iff {loads : String → Except PyErr Json} {job : ComputeJobView}
    {w w' : RunWorld} {trace : List (PollEffect × RunWorld)} {obs : JobObservation}
    (launched : w.Launched)
    (call : pollMachine.Interleaved (poll loads job) w trace (.ok obs) w') :
    (∀ w'', pollMachine.Drifts w' w'' → w''.AgreesWith obs) ↔ ¬ Straddled trace := by
  obtain ⟨logs, verdict, first, decisive, rfl, decision, rfl, none⟩ := poll_decision launched call
  cases decision with
  | @exited w1 w2 c exited later =>
    constructor
    · rintro _ ⟨_, _, pid, _, signalled, _⟩
      have mem := mem_decisive none rfl signalled
      simp at mem
    · intro _ w'' drifts _
      have exited' := (pollMachine_later drifts).exit c (later.exit c exited)
      refine ⟨?_, ?_⟩
      · intro c' exitedAs
        rw [exited'] at exitedAs
        cases exitedAs
        exact ⟨rfl, rfl⟩
      · intro missing
        have exitedState : "EXITED" = "PROCESS_MISSING_WITHOUT_EXIT_RECORD" :=
          Option.some.inj missing
        exact absurd exitedState (by decide)
  | @process w1 w2 w3 w4 pid unwritten later =>
    cases present : w4.present with
    | true =>
      constructor
      · rintro _ ⟨_, w4', pid', _, signalled, _, _, gone⟩
        have mem := mem_decisive none rfl signalled
        simp only [List.mem_cons, Prod.mk.injEq, reduceCtorEq, false_and, List.not_mem_nil,
          or_false, false_or] at mem
        rw [mem.2, present] at gone
        cases gone
      · intro _ w'' _ terminal
        cases terminal
    | false =>
      obtain ⟨gone, same⟩ := later.gone present
      constructor
      · rintro agrees ⟨_, w4', pid', _, signalled, _, written, _⟩
        have mem := mem_decisive none rfl signalled
        simp only [List.mem_cons, Prod.mk.injEq, reduceCtorEq, false_and, List.not_mem_nil,
          or_false, false_or] at mem
        rw [mem.2] at written
        obtain ⟨c, exited⟩ := Option.ne_none_iff_exists'.mp written
        obtain ⟨code, _⟩ := (agrees w' .refl rfl).1 c (same.trans exited)
        cases code
      · intro straddled w'' drifts _
        have unwritten4 : w4.exit = Option.none := by
          by_contra written
          exact straddled ⟨w1, w4, pid, List.mem_append_right _ List.mem_cons_self,
            List.mem_append_right _ (by simp), unwritten, written, present⟩
        obtain ⟨gone', same'⟩ := (pollMachine_later drifts).gone gone
        have never : w''.exit = Option.none := same'.trans (same.trans unwritten4)
        refine ⟨?_, fun _ => ⟨gone', never⟩⟩
        intro c exited
        rw [never] at exited
        cases exited

/-! ## A runner that succeeds between the two reads -/

/-- A submitted job whose command is running. -/
def runningJob : RunWorld :=
  { submission := some { submissionKey := "s", externalJobId := "local-1", workdir := "/w",
                         status := .launched, pid := some 1 },
    pid := 1 }

lemma runningJob_launched : runningJob.Launched :=
  ⟨⟨_, rfl, rfl⟩, by decide⟩

/-- The command of the job has succeeded. -/
def succeededJob : RunWorld := { runningJob with exit := some 0 }

/-- The command of the job has succeeded and its runner is gone. -/
def goneJob : RunWorld := { succeededJob with present := false }

def runningView : ComputeJobView :=
  { id := "j", projectId := "p", taskId := "t", providerId := "local", resourceClass := "local_cpu",
    submissionKey := "s", externalJobId := some "local-1", remoteWorkdir := "/w",
    executionStatus := .running, observationStatus := .fresh }

/-- No line is JSON. -/
def noTelemetry : String → Except PyErr Json := fun _ => .error (.jsonDecodeError "")

/-- What a poll of the job learns from the clock and the logs. -/
def runningLogs : PollLogs :=
  { observed := 0, cursor := logCursor "/w" 0 0, progress := [] }

/-- The reads of a poll between which the runner finishes and disappears. -/
def straddledReads : List (PollEffect × RunWorld) :=
  [ (.now, runningJob), (.logExists .out, runningJob), (.logExists .err, runningJob),
    (.exitExists, runningJob), (.recordExists, goneJob), (.loadRecord, goneJob),
    (.signal 1, goneJob) ]

/-- The poll misses the exit record and then the process, and reports that a successful runner
    died. -/
theorem poll_misreports :
    ¬ ∀ (loads : String → Except PyErr Json) (job : ComputeJobView) (w w' : RunWorld)
        (trace : List (PollEffect × RunWorld)) (obs : JobObservation), w.Launched →
        pollMachine.Interleaved (poll loads job) w trace (.ok obs) w' →
        ∀ w'', pollMachine.Drifts w' w'' → w''.AgreesWith obs := by
  intro agrees
  have finishes : pollMachine.Drifts runningJob goneJob :=
    (Relation.ReflTransGen.single ⟨.finish 0, rfl⟩).tail
      (show ∃ e, pollMachine.drift succeededJob e = some goneJob from ⟨.disappear, rfl⟩)
  have call : pollMachine.Interleaved (poll noTelemetry runningView) runningJob straddledReads
      (.ok (observation runningView runningLogs (livenessVerdict false))) goneJob :=
    .perform (o := {}) .refl (.perform (o := {}) .refl (.perform (o := {}) .refl
      (.perform (o := {}) .refl (.perform (o := {}) finishes (.perform (o := {}) .refl
        (.perform (o := {}) .refl .ret))))))
  obtain ⟨code, _⟩ := (agrees _ _ _ _ _ _ runningJob_launched call goneJob .refl rfl).1 0 rfl
  cases code

/-- The reads of a poll that finds the exit record. -/
def exitedReads : List (PollEffect × RunWorld) :=
  [ (.now, succeededJob), (.logExists .out, succeededJob), (.logExists .err, succeededJob),
    (.exitExists, succeededJob), (.loadExit, succeededJob) ]

/-- A poll that finds the exit record agrees with it, whatever the runner does afterwards. -/
theorem poll_agrees_iff_succeeded :
    ¬ Straddled exitedReads ∧ ∀ w, pollMachine.Drifts succeededJob w →
      w.AgreesWith (observation runningView runningLogs (exitVerdict 0)) := by
  have call : pollMachine.Interleaved (poll noTelemetry runningView) succeededJob exitedReads
      (.ok (observation runningView runningLogs (exitVerdict 0))) succeededJob :=
    .perform (o := {}) .refl (.perform (o := {}) .refl (.perform (o := {}) .refl
      (.perform (o := {}) .refl (.perform (o := {}) .refl .ret))))
  have launched : succeededJob.Launched := ⟨⟨_, rfl, rfl⟩, by decide⟩
  have neither : ¬ Straddled exitedReads := by
    intro straddled
    obtain ⟨_, _, pid, _, signalled, _⟩ := straddled
    simp [exitedReads] at signalled
  exact ⟨neither, (poll_agrees_iff launched call).mpr neither⟩

end ResearchController
