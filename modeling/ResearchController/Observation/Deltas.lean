import ResearchController.Recovery.PollAgreement

/-!
# Log deltas

`_read_delta` asks for the size of a log, reads from the old offset to the end of the file, and
returns the size as the next offset. The command may write between the two steps: what it writes
then is read, but not counted, and the next poll reads it again. `deltas_exact_iff` says that this
is the only way in which a sequence of polls can deliver a log other than byte by byte (`Quiet`),
wherever the runner's appends fall.
-/

namespace ResearchController
open Lib

/-- The bytes of a log file. -/
def RunWorld.text (w : RunWorld) (f : LogFile) : List UInt8 :=
  (w.log f).getD []

/-- The raw bytes that an effect reads from a log file. -/
def rangeRead (f : LogFile) : PollEffect × RunWorld → List UInt8
  | (.readLog f' start, w) => if f' = f then (w.text f).drop start else []
  | _ => []

/-- The raw bytes that a poll reads from a log file. -/
def rangesRead (f : LogFile) (trace : List (PollEffect × RunWorld)) : List UInt8 :=
  trace.flatMap (rangeRead f)

/-- Nothing is appended to a log file between the two reads that a poll makes of it. -/
def Quiet (f : LogFile) (trace : List (PollEffect × RunWorld)) : Prop :=
  ∀ w1 w2 start, (.logSize f, w1) ∈ trace → (.readLog f start, w2) ∈ trace → w1.log f = w2.log f

/-- A sequence of polls among the steps of the runner, each on the cursor that the one before it
    returned, with the reads of each. -/
inductive Polls (loads : String → Except PyErr Json) (cursor : JsonObject) (w : RunWorld) :
    List (List (PollEffect × RunWorld)) → JsonObject → RunWorld → Prop where
  | start :
    Polls loads cursor w [] cursor w
  | poll {traces trace job obs w1 w2} :
    Polls loads cursor w traces job.logCursor w1 →
    pollMachine.Interleaved (poll loads job) w1 trace (.ok obs) w2 →
    Polls loads cursor w (traces ++ [trace]) obs.logCursor w2

/-! ## Logs only grow -/

/-- What was in a log file stays at its beginning. -/
lemma RunWorld.runnerStep_prefix {w w' : RunWorld} {e : RunnerStep} (st : w.runnerStep e = some w')
    (f : LogFile) : w.text f <+: w'.text f := by
  cases e with
  | append f' data =>
    cases f' with
    | out =>
      cases st
      cases f with
      | out => exact List.prefix_append _ _
      | err => exact List.prefix_refl _
    | err =>
      cases st
      cases f with
      | out => exact List.prefix_refl _
      | err => exact List.prefix_append _ _
  | finish c =>
    simp only [runnerStep] at st
    split at st
    · cases st
      cases f <;> exact List.prefix_refl _
    · cases st
  | disappear =>
    simp only [runnerStep] at st
    split at st
    · cases st
      cases f <;> exact List.prefix_refl _
    · cases st

lemma pollMachine_grows {w w' : RunWorld} (drifts : pollMachine.Drifts w w') (f : LogFile) :
    w.text f <+: w'.text f := by
  induction drifts with
  | refl => exact List.prefix_refl _
  | tail _ st ih =>
    obtain ⟨e, st⟩ := st
    exact ih.trans (RunWorld.runnerStep_prefix st f)

/-! ## The reads of one delta -/

/-- How a call of `_read_delta` went: the file was not there, or its size was taken and its rest was
    read later. -/
inductive DeltaReads (f : LogFile) (offset : Int) (w : RunWorld) :
    List (PollEffect × RunWorld) → Int → RunWorld → Prop where
  | absent {w1} :
    pollMachine.Drifts w w1 →
    w1.log f = none →
    DeltaReads f offset w [(.logExists f, w1)] offset w1
  | read {w1 w2 w3 data2 data3} :
    pollMachine.Drifts w w2 →
    pollMachine.Drifts w2 w3 →
    w2.log f = some data2 →
    w3.log f = some data3 →
    DeltaReads f offset w
      [(.logExists f, w1), (.logSize f, w2),
       (.readLog f (min (max offset 0) data2.length).toNat, w3)] data2.length w3

/-- Every call of `_read_delta` went in one of the two ways, and returns what it read. -/
lemma readDelta_inv {f : LogFile} {offset : Int} {w w' : RunWorld}
    {trace : List (PollEffect × RunWorld)} {text : String} {next : Int}
    (call : pollMachine.Interleaved (readDelta f offset) w trace (.ok (text, next)) w') :
    DeltaReads f offset w trace next w' ∧ text = decodeReplace (rangesRead f trace) := by
  obtain ⟨w1, o1, trace1, drifts1, call1, rfl⟩ := call.call_inv
  -- the three calls of the source can each meet a log of their own
  cases log1 : w1.log f with
  | none =>
    have missing : (pollMachine.handle w1 (.logExists f) o1).2 = false :=
      congrArg Option.isSome log1
    rw [missing, if_neg Bool.false_ne_true] at call1
    obtain ⟨rfl, e, rfl⟩ := call1.ret_inv
    cases e
    exact ⟨.absent drifts1 log1, rfl⟩
  | some data1 =>
    have found : (pollMachine.handle w1 (.logExists f) o1).2 = true :=
      congrArg Option.isSome log1
    rw [found, if_pos rfl] at call1
    obtain ⟨w2, o2, trace2, drifts2, call2, rfl⟩ := call1.call_inv
    obtain ⟨size, sized, call3⟩ := call2.check_inv
    obtain ⟨w3, o3, trace3, drifts3, call4, rfl⟩ := call3.call_inv
    obtain ⟨data, read, call5⟩ := call4.check_inv
    obtain ⟨rfl, e, rfl⟩ := call5.ret_inv
    cases e
    cases log2 : w2.log f with
    | none =>
      simp only [pollMachine, RunWorld.read, log2] at sized
      cases sized
    | some data2 =>
      simp only [pollMachine, RunWorld.read, log2] at sized
      cases sized
      cases log3 : w'.log f with
      | none =>
        simp only [pollMachine, RunWorld.read, log3] at read
        cases read
      | some data3 =>
        simp only [pollMachine, RunWorld.read, log3] at read
        cases read
        refine ⟨.read (drifts1.trans drifts2) drifts3 log2 log3, ?_⟩
        simp only [rangesRead, List.flatMap_cons, rangeRead, if_true, List.nil_append,
          List.flatMap_nil, List.append_nil, RunWorld.text, log3, Option.getD_some]

/-- What a delta from within a log delivers: the bytes from the old offset to the end that its read
    met, which is the next offset exactly if nothing was appended in between. -/
lemma DeltaReads.delivers {f : LogFile} {offset : Nat} {w w' : RunWorld}
    {trace : List (PollEffect × RunWorld)} {next : Int} (dr : DeltaReads f offset w trace next w')
    (within : offset ≤ (w.text f).length) :
    ∃ counted read : Nat, next = counted ∧ (w.text f).length ≤ counted ∧ counted ≤ read ∧
      read ≤ (w'.text f).length ∧ rangesRead f trace = ((w'.text f).take read).drop offset ∧
      (Quiet f trace ↔ read = counted) := by
  cases dr with
  | absent drifts missing =>
    have none : w'.text f = [] := by rw [RunWorld.text, missing, Option.getD_none]
    have empty : (w.text f).length = 0 := by
      have grown := (pollMachine_grows drifts f).length_le
      rw [none] at grown
      exact Nat.le_zero.mp grown
    refine ⟨offset, offset, rfl, ?_, le_refl _, ?_, ?_, ?_⟩
    · rw [empty]
      exact Nat.zero_le _
    · rw [empty] at within
      exact within.trans (Nat.zero_le _)
    · rw [none, List.take_nil, List.drop_nil]
      rfl
    · refine ⟨fun _ => rfl, fun _ _ _ _ mem => ?_⟩
      simp at mem
  | @read w1 w2 _ data2 data3 drifts2 drifts3 log2 log3 =>
    have text2 : w2.text f = data2 := by rw [RunWorld.text, log2, Option.getD_some]
    have text3 : w'.text f = data3 := by rw [RunWorld.text, log3, Option.getD_some]
    have grown := pollMachine_grows drifts3 f
    have before := (pollMachine_grows drifts2 f).length_le
    rw [text2, text3] at grown
    rw [text2] at before
    -- the source clamps the old offset to the size, which does nothing within the log
    have start : (min (max (offset : Int) 0) data2.length).toNat = offset := by omega
    refine ⟨data2.length, data3.length, rfl, before, grown.length_le, ?_, ?_, ?_⟩
    · rw [text3]
    · rw [text3, List.take_length, start]
      simp only [rangesRead, List.flatMap_cons, rangeRead, if_true, List.nil_append,
        List.flatMap_nil, List.append_nil, text3]
    · constructor
      · intro quiet
        have same := quiet w2 w' _ (by simp) (List.mem_cons_of_mem _ (List.mem_cons_of_mem _
          List.mem_cons_self))
        rw [log2, log3] at same
        rw [Option.some.inj same]
      -- the size and the read of this delta are the only ones of the trace
      · intro same w4 w5 start' sized read
        have e2 : w4 = w2 := by simpa using sized
        have e3 : w5 = w' := by
          simp only [List.mem_cons, Prod.mk.injEq, reduceCtorEq, false_and, List.not_mem_nil,
            or_false, false_or] at read
          exact read.2
        rw [e2, e3, log2, log3, grown.eq_of_length same.symm]

/-! ## The reads of a poll -/

/-- Whether an effect asks for the size of a log file or reads it. -/
def PollEffect.touches (f : LogFile) : PollEffect → Bool
  | .logSize f' => f' == f
  | .readLog f' _ => f' == f
  | _ => false

/-- What a poll delivers from a log file depends only on the effects that touch it. -/
lemma rangesRead_append {f : LogFile} {before trace after : List (PollEffect × RunWorld)}
    (first : ∀ x ∈ before, x.1.touches f = false) (last : ∀ x ∈ after, x.1.touches f = false) :
    rangesRead f (before ++ trace ++ after) = rangesRead f trace := by
  have nothing : ∀ {others : List (PollEffect × RunWorld)},
      (∀ x ∈ others, x.1.touches f = false) → rangesRead f others = [] := by
    intro others untouched
    apply List.flatMap_eq_nil_iff.mpr
    rintro ⟨e, w⟩ mem
    have other := untouched _ mem
    cases e with
    | readLog f' start =>
      simp only [PollEffect.touches, beq_eq_false_iff_ne] at other
      exact if_neg other
    | _ => rfl
  have before' := nothing first
  have after' := nothing last
  simp only [rangesRead, List.flatMap_append] at before' after' ⊢
  rw [before', after', List.nil_append, List.append_nil]

lemma quiet_append {f : LogFile} {before trace after : List (PollEffect × RunWorld)}
    (first : ∀ x ∈ before, x.1.touches f = false) (last : ∀ x ∈ after, x.1.touches f = false) :
    Quiet f (before ++ trace ++ after) ↔ Quiet f trace := by
  have inside : ∀ {e w}, PollEffect.touches f e = true →
      ((e, w) ∈ before ++ trace ++ after ↔ (e, w) ∈ trace) := by
    intro e w touches
    rw [List.mem_append, List.mem_append]
    constructor
    · rintro ((mem | mem) | mem)
      · have other := first _ mem
        rw [touches] at other
        cases other
      · exact mem
      · have other := last _ mem
        rw [touches] at other
        cases other
    · exact fun mem => Or.inl (Or.inr mem)
  have touched : ∀ start, PollEffect.touches f (.readLog f start) = true :=
    fun _ => beq_self_eq_true f
  have sized : PollEffect.touches f (.logSize f) = true := beq_self_eq_true f
  simp only [Quiet, inside (touched _), inside sized]

lemma isAlive_untouched (f : LogFile) (pid : Int) :
    (isAlive pid).Within fun e => e.touches f = false := by
  unfold isAlive
  split
  · exact ⟨rfl, fun answer => trivial⟩
  · trivial

lemma pollExecution_untouched (f : LogFile) :
    pollExecution.Within fun e => e.touches f = false := by
  refine ⟨rfl, fun exited => ?_⟩
  cases exited with
  | true =>
    refine ⟨rfl, fun loaded => ?_⟩
    apply (Program.Within.check _ _).bind
    intro exitData
    apply (Program.Within.check _ _).bind
    exact fun exitCode => trivial
  | false =>
    refine ⟨rfl, fun present => ?_⟩
    cases present with
    | true =>
      refine ⟨rfl, fun loaded => ?_⟩
      apply (Program.Within.check _ _).bind
      intro record
      apply (isAlive_untouched f _).bind
      exact fun alive => trivial
    | false => trivial

/-- The offset of a returned cursor. -/
lemma cursorOffset_logCursor (workdir : String) (stdoutNext stderrNext : Int) (f : LogFile) :
    cursorOffset (logCursor workdir stdoutNext stderrNext) f =
      .ok (match f with | .out => stdoutNext | .err => stderrNext) := by
  cases f <;> rfl

/-- A poll reads the two deltas from the offsets of its cursor and returns their ends. -/
lemma poll_inv {loads : String → Except PyErr Json} {job : ComputeJobView} {w w' : RunWorld}
    {trace : List (PollEffect × RunWorld)} {obs : JobObservation}
    (call : pollMachine.Interleaved (poll loads job) w trace (.ok obs) w') :
    ∃ w1 w2 w3 o1 o2 n1 n2 out err rest, pollMachine.Drifts w w1 ∧
      cursorOffset job.logCursor .out = .ok o1 ∧ cursorOffset job.logCursor .err = .ok o2 ∧
      DeltaReads .out o1 w1 out n1 w2 ∧ DeltaReads .err o2 w2 err n2 w3 ∧
      pollMachine.Drifts w3 w' ∧ trace = (.now, w1) :: out ++ err ++ rest ∧
      (∀ f, ∀ x ∈ rest, x.1.touches f = false) ∧
      obs.computeJobId = job.id ∧ obs.logCursor = logCursor job.remoteWorkdir n1 n2 ∧
      telemetry loads [decodeReplace (rangesRead .out out), decodeReplace (rangesRead .err err)] =
        .ok obs.progress := by
  obtain ⟨logs, w3, first, rest, logged, executed, rfl⟩ := call.bind_inv
  obtain ⟨w1, o, trace1, drifts1, call1, rfl⟩ := logged.call_inv
  obtain ⟨o1, offset1, call2⟩ := call1.check_inv
  obtain ⟨o2, offset2, call3⟩ := call2.check_inv
  obtain ⟨stdout, w2, out, trace2, first, call4, rfl⟩ := call3.bind_inv
  obtain ⟨stderr, w4, err, trace3, second, call5, rfl⟩ := call4.bind_inv
  obtain ⟨progress, telemetered, call6⟩ := call5.check_inv
  obtain ⟨rfl, e, rfl⟩ := call6.ret_inv
  cases e
  obtain ⟨reads1, text1⟩ := readDelta_inv first
  obtain ⟨reads2, text2⟩ := readDelta_inv second
  -- what follows the two deltas decides the status and leaves the logs alone
  obtain ⟨verdict, w5, rest1, rest2, decided, finished, rfl⟩ := executed.bind_inv
  obtain ⟨rfl, e, rfl⟩ := finished.ret_inv
  cases e
  refine ⟨w1, w2, w3, o1, o2, stdout.2, stderr.2, out, err, rest1, drifts1, offset1, offset2,
    reads1, reads2, decided.drifts fun _ _ _ => rfl, by simp, ?_, rfl, rfl, ?_⟩
  · intro f
    exact decided.within (pollExecution_untouched f)
  · rw [← text1, ← text2]
    exact telemetered

/-! ## Reads that raise -/

/-- A log file stays. -/
lemma RunWorld.runnerStep_isSome {w w' : RunWorld} {e : RunnerStep}
    (st : w.runnerStep e = some w') {f : LogFile} (present : (w.log f).isSome = true) :
    (w'.log f).isSome = true := by
  cases e with
  | append f' data =>
    cases f' with
    | out =>
      cases st
      cases f with
      | out => rfl
      | err => exact present
    | err =>
      cases st
      cases f with
      | out => exact present
      | err => rfl
  | finish c =>
    simp only [runnerStep] at st
    split at st
    · cases st
      cases f <;> exact present
    · cases st
  | disappear =>
    simp only [runnerStep] at st
    split at st
    · cases st
      cases f <;> exact present
    · cases st

lemma pollMachine_isSome {w w' : RunWorld} (drifts : pollMachine.Drifts w w') {f : LogFile}
    (present : (w.log f).isSome = true) : ∃ data, w'.log f = some data := by
  apply Option.isSome_iff_exists.mp
  induction drifts with
  | refl => exact present
  | tail _ st ih =>
    obtain ⟨e, st⟩ := st
    exact RunWorld.runnerStep_isSome st ih

/-- `_read_delta` does not raise. -/
lemma readDelta_returns {f : LogFile} {offset : Int} {w w' : RunWorld}
    {trace : List (PollEffect × RunWorld)} {e : PyErr} :
    ¬ pollMachine.Interleaved (readDelta f offset) w trace (.error e) w' := by
  intro call
  obtain ⟨w1, o1, trace1, _, call1, rfl⟩ := call.call_inv
  cases found : (w1.log f).isSome with
  | false =>
    have missing : (pollMachine.handle w1 (.logExists f) o1).2 = false := found
    rw [missing, if_neg Bool.false_ne_true] at call1
    obtain ⟨_, e, _⟩ := call1.ret_inv
    cases e
  | true =>
    have present : (pollMachine.handle w1 (.logExists f) o1).2 = true := found
    rw [present, if_pos rfl] at call1
    obtain ⟨w2, o2, trace2, drifts2, call2, rfl⟩ := call1.call_inv
    obtain ⟨data2, log2⟩ := pollMachine_isSome drifts2 found
    obtain raised | ⟨size, _, call3⟩ := call2.check_raises
    · simp only [pollMachine, RunWorld.read, log2] at raised
      cases raised
    · obtain ⟨w3, o3, trace3, drifts3, call4, rfl⟩ := call3.call_inv
      obtain ⟨data3, log3⟩ := pollMachine_isSome drifts3 (Option.isSome_iff_exists.mpr ⟨_, log2⟩)
      obtain raised | ⟨data, _, call5⟩ := call4.check_raises
      · simp only [pollMachine, RunWorld.read, log3] at raised
        cases raised
      · obtain ⟨_, e, _⟩ := call5.ret_inv
        cases e

lemma isAlive_returns {pid : Int} {w w' : RunWorld} {trace : List (PollEffect × RunWorld)}
    {e : PyErr} : ¬ pollMachine.Interleaved (isAlive pid) w trace (.error e) w' := by
  intro call
  unfold isAlive at call
  split at call
  · obtain ⟨_, _, _, _, call1, _⟩ := call.call_inv
    obtain ⟨_, e, _⟩ := call1.ret_inv
    cases e
  · obtain ⟨_, e, _⟩ := call.ret_inv
    cases e

lemma pollProcess_returns {w w' : RunWorld} {trace : List (PollEffect × RunWorld)} {e : PyErr} :
    ¬ pollMachine.Interleaved pollProcess w trace (.error e) w' := by
  intro call
  obtain ⟨w1, o1, trace1, _, call1, _⟩ := call.call_inv
  have ended : ∀ {pid w w' trace},
      ¬ pollMachine.Interleaved (do let alive ← isAlive pid; return livenessVerdict alive) w trace
        (.error e) w' := by
    intro pid w w' trace call
    obtain raised | ⟨_, _, _, _, _, returned, _⟩ := call.bind_raises
    · exact isAlive_returns raised
    · obtain ⟨_, e, _⟩ := returned.ret_inv
      cases e
  cases found : w1.submission with
  | none =>
    have missing : (pollMachine.handle w1 .recordExists o1).2 = false :=
      congrArg Option.isSome found
    rw [missing, if_neg Bool.false_ne_true] at call1
    exact ended call1
  | some record =>
    have present : (pollMachine.handle w1 .recordExists o1).2 = true :=
      congrArg Option.isSome found
    rw [present, if_pos rfl] at call1
    obtain ⟨w2, o2, trace2, drifts2, call2, _⟩ := call1.call_inv
    have loaded : (pollMachine.handle w2 .loadRecord o2).2 = .ok record :=
      RunWorld.read_loadRecord ((pollMachine_later drifts2).submission.trans found) o2
    rw [loaded] at call2
    obtain raised | ⟨_, _, call3⟩ := call2.check_raises
    · cases raised
    · exact ended call3

/-- The part of `poll` that decides on the execution does not raise. -/
lemma pollExecution_returns {w w' : RunWorld} {trace : List (PollEffect × RunWorld)} {e : PyErr} :
    ¬ pollMachine.Interleaved pollExecution w trace (.error e) w' := by
  intro call
  obtain ⟨w1, o1, trace1, _, call1, _⟩ := call.call_inv
  cases exit1 : w1.exit with
  | none =>
    have missing : (pollMachine.handle w1 .exitExists o1).2 = false :=
      congrArg Option.isSome exit1
    rw [missing, if_neg Bool.false_ne_true] at call1
    exact pollProcess_returns call1
  | some c =>
    have found : (pollMachine.handle w1 .exitExists o1).2 = true :=
      congrArg Option.isSome exit1
    rw [found, if_pos rfl] at call1
    obtain ⟨w2, o2, trace2, drifts2, call2, _⟩ := call1.call_inv
    have loaded : (pollMachine.handle w2 .loadExit o2).2 = .ok (runnerExit c) :=
      RunWorld.read_loadExit ((pollMachine_later drifts2).exit c exit1) o2
    rw [loaded] at call2
    obtain raised | ⟨exitData, e, call3⟩ := call2.check_raises
    · cases raised
    · cases e
      obtain raised | ⟨code, _, call4⟩ := call3.check_raises
      · rw [exitCodeOf_runnerExit] at raised
        cases raised
      · obtain ⟨_, e, _⟩ := call4.ret_inv
        cases e

/-- A poll whose cursor can be read raises on the lines of its deltas, and on nothing else. -/
lemma poll_raises {loads : String → Except PyErr Json} {job : ComputeJobView} {w w' : RunWorld}
    {trace : List (PollEffect × RunWorld)} {e : PyErr} {o1 o2 : Int}
    (call : pollMachine.Interleaved (poll loads job) w trace (.error e) w')
    (start1 : cursorOffset job.logCursor .out = .ok o1)
    (start2 : cursorOffset job.logCursor .err = .ok o2) :
    ∃ w1 w2 n1 n2 out err, pollMachine.Drifts w w1 ∧
      DeltaReads .out o1 w1 out n1 w2 ∧ DeltaReads .err o2 w2 err n2 w' ∧
      telemetry loads [decodeReplace (rangesRead .out out), decodeReplace (rangesRead .err err)] =
        .error e := by
  obtain raised | ⟨_, _, _, _, _, decided, _⟩ := call.bind_raises
  · obtain ⟨w1, _, _, drifts1, call1, _⟩ := raised.call_inv
    rw [start1, start2] at call1
    obtain raised | ⟨_, same1, call2⟩ := call1.check_raises
    · cases raised
    cases same1
    obtain raised | ⟨_, same2, call3⟩ := call2.check_raises
    · cases raised
    cases same2
    obtain raised | ⟨stdout, w2, out, _, first, call4, _⟩ := call3.bind_raises
    · exact (readDelta_returns raised).elim
    obtain raised | ⟨stderr, w3, err, _, second, call5, _⟩ := call4.bind_raises
    · exact (readDelta_returns raised).elim
    obtain ⟨reads1, text1⟩ := readDelta_inv first
    obtain ⟨reads2, text2⟩ := readDelta_inv second
    obtain raised | ⟨_, _, returned⟩ := call5.check_raises
    · rw [raised] at call5
      cases call5
      rw [text1, text2] at raised
      exact ⟨w1, w2, stdout.2, stderr.2, out, err, drifts1, reads1, reads2, raised⟩
    · obtain ⟨_, e, _⟩ := returned.ret_inv
      cases e
  · obtain raised | ⟨_, _, _, _, _, returned, _⟩ := decided.bind_raises
    · exact (pollExecution_returns raised).elim
    · obtain ⟨_, e, _⟩ := returned.ret_inv
      cases e

/-- A delta among other reads delivers the same of every later state of the log. -/
lemma DeltaReads.delivers_among {f : LogFile} {offset : Nat} {w0 w w' w1 : RunWorld}
    {before trace after : List (PollEffect × RunWorld)} {next : Int}
    (dr : DeltaReads f offset w trace next w') (since : pollMachine.Drifts w0 w)
    (later : pollMachine.Drifts w' w1) (within : offset ≤ (w0.text f).length)
    (first : ∀ x ∈ before, x.1.touches f = false) (last : ∀ x ∈ after, x.1.touches f = false) :
    ∃ counted read : Nat, next = counted ∧ (w0.text f).length ≤ counted ∧ counted ≤ read ∧
      read ≤ (w1.text f).length ∧
      rangesRead f (before ++ trace ++ after) = ((w1.text f).take read).drop offset ∧
      (Quiet f (before ++ trace ++ after) ↔ read = counted) := by
  have before' := (pollMachine_grows since f).length_le
  obtain ⟨counted, read, e, above, more, inside, delivered, quiet⟩ :=
    dr.delivers (within.trans before')
  obtain ⟨appended, grown⟩ := pollMachine_grows later f
  refine ⟨counted, read, e, before'.trans above, more, ?_, ?_, ?_⟩
  · exact inside.trans (pollMachine_grows later f).length_le
  · rw [rangesRead_append first last, delivered, ← grown, List.take_append_of_le_length inside]
  · exact (quiet_append first last).trans quiet

/-- The reads of one log file do not touch the other. -/
lemma DeltaReads.untouched {f other : LogFile} (ne : other ≠ f) {offset next : Int}
    {w w' : RunWorld} {trace : List (PollEffect × RunWorld)}
    (dr : DeltaReads other offset w trace next w') : ∀ x ∈ trace, x.1.touches f = false := by
  have different : (other == f) = false := beq_eq_false_iff_ne.mpr ne
  cases dr with
  | absent => simp [PollEffect.touches]
  | read => simp [PollEffect.touches, different]

/-- The runner has only drifted during the reads of a delta. -/
lemma DeltaReads.drifts {f : LogFile} {offset next : Int} {w w' : RunWorld}
    {trace : List (PollEffect × RunWorld)} (dr : DeltaReads f offset w trace next w') :
    pollMachine.Drifts w w' := by
  cases dr with
  | absent drifts => exact drifts
  | read first second => exact first.trans second

/-- The reads of a poll around those of a log do not touch it. -/
lemma DeltaReads.around {o1 o2 n1 n2 : Int} {w1 w2 w3 : RunWorld}
    {out err rest : List (PollEffect × RunWorld)} (reads1 : DeltaReads .out o1 w1 out n1 w2)
    (reads2 : DeltaReads .err o2 w2 err n2 w3)
    (untouched : ∀ f, ∀ x ∈ rest, x.1.touches f = false) :
    (∀ x ∈ [(PollEffect.now, w1)], x.1.touches .out = false) ∧
      (∀ x ∈ err ++ rest, x.1.touches .out = false) ∧
      ∀ x ∈ (PollEffect.now, w1) :: out, x.1.touches .err = false := by
  refine ⟨by simp [PollEffect.touches], ?_, ?_⟩
  · intro x mem
    rcases List.mem_append.mp mem with mem | mem
    · exact reads2.untouched (by decide) x mem
    · exact untouched .out x mem
  · intro x mem
    rcases List.mem_cons.mp mem with rfl | mem
    · rfl
    · exact reads1.untouched (by decide) x mem

/-- What a poll from within a log delivers of it, and where the next poll starts. -/
lemma poll_delivers {loads : String → Except PyErr Json} {job : ComputeJobView} {w w' : RunWorld}
    {trace : List (PollEffect × RunWorld)} {obs : JobObservation} (f : LogFile)
    (call : pollMachine.Interleaved (poll loads job) w trace (.ok obs) w') {offset : Nat}
    (start : cursorOffset job.logCursor f = .ok offset) (within : offset ≤ (w.text f).length) :
    ∃ counted read : Nat, cursorOffset obs.logCursor f = .ok counted ∧
      (w.text f).length ≤ counted ∧ counted ≤ read ∧ read ≤ (w'.text f).length ∧
      rangesRead f trace = ((w'.text f).take read).drop offset ∧
      (Quiet f trace ↔ read = counted) := by
  obtain ⟨w1, w2, w3, o1, o2, n1, n2, out, err, rest, drifts1, start1, start2, reads1, reads2,
    drifts3, rfl, untouched, _, cursor, _⟩ := poll_inv call
  obtain ⟨before, after, before'⟩ := reads1.around reads2 untouched
  rw [cursor, cursorOffset_logCursor]
  cases f with
  | out =>
    cases start.symm.trans start1
    obtain ⟨counted, read, rfl, delivered⟩ :=
      reads1.delivers_among drifts1 (reads2.drifts.trans drifts3) within before after
    rw [← List.append_assoc] at delivered
    exact ⟨counted, read, rfl, delivered⟩
  | err =>
    cases start.symm.trans start2
    obtain ⟨counted, read, rfl, delivered⟩ :=
      reads2.delivers_among (drifts1.trans reads1.drifts) drifts3 within before' (untouched .err)
    exact ⟨counted, read, rfl, delivered⟩

/-- The progress that a poll reports is the telemetry of the bytes it read. -/
lemma poll_progress {loads : String → Except PyErr Json} {job : ComputeJobView} {w w' : RunWorld}
    {trace : List (PollEffect × RunWorld)} {obs : JobObservation}
    (call : pollMachine.Interleaved (poll loads job) w trace (.ok obs) w') :
    obs.computeJobId = job.id ∧ telemetry loads
      [decodeReplace (rangesRead .out trace), decodeReplace (rangesRead .err trace)] =
        .ok obs.progress := by
  obtain ⟨w1, w2, w3, o1, o2, n1, n2, out, err, rest, _, _, _, reads1, reads2, _, rfl, untouched,
    id, _, progress⟩ := poll_inv call
  obtain ⟨before, after, before'⟩ := reads1.around reads2 untouched
  have ofErr : rangesRead .err ((.now, w1) :: out ++ err ++ rest) = rangesRead .err err :=
    rangesRead_append before' (untouched .err)
  have ofOut : rangesRead .out ((.now, w1) :: out ++ err ++ rest) = rangesRead .out out := by
    rw [List.append_assoc]
    exact rangesRead_append before after
  refine ⟨id, ?_⟩
  rw [ofErr, ofOut, progress]

/-! ## The deltas of a sequence of polls -/

/-- What a sequence of polls that ends at an offset has delivered of a log. -/
structure Delivered (f : LogFile) (w : RunWorld) (traces : List (List (PollEffect × RunWorld)))
    (offset : Nat) : Prop where
  inside : offset ≤ (w.text f).length
  covers : offset ≤ (traces.flatMap (rangesRead f)).length
  bytes : (∀ trace ∈ traces, Quiet f trace) →
    traces.flatMap (rangesRead f) = (w.text f).take offset
  quiet : (traces.flatMap (rangesRead f)).length = offset → ∀ trace ∈ traces, Quiet f trace

/-- One more poll. -/
lemma Delivered.poll {f : LogFile} {w w' : RunWorld}
    {traces : List (List (PollEffect × RunWorld))} {trace : List (PollEffect × RunWorld)}
    {offset counted read : Nat} (dl : Delivered f w traces offset)
    (grown : w.text f <+: w'.text f) (above : offset ≤ counted) (more : counted ≤ read)
    (inside : read ≤ (w'.text f).length)
    (delivered : rangesRead f trace = ((w'.text f).take read).drop offset)
    (quiet : Quiet f trace ↔ read = counted) : Delivered f w' (traces ++ [trace]) counted := by
  have all : (traces ++ [trace]).flatMap (rangesRead f) =
      traces.flatMap (rangesRead f) ++ ((w'.text f).take read).drop offset := by
    rw [List.flatMap_append, List.flatMap_singleton, delivered]
  have size : ((traces ++ [trace]).flatMap (rangesRead f)).length =
      (traces.flatMap (rangesRead f)).length + (read - offset) := by
    rw [all, List.length_append, List.length_drop, List.length_take, min_eq_left inside]
  have covers := dl.covers
  constructor
  · exact more.trans inside
  · omega
  · intro quiets
    -- what was delivered before is still where it was, since a log only grows
    have before : (w.text f).take offset = ((w'.text f).take read).take offset := by
      obtain ⟨appended, e⟩ := grown
      rw [List.take_take, min_eq_left (above.trans more), ← e,
        List.take_append_of_le_length dl.inside]
    have old := dl.bytes fun trace' mem => quiets trace' (List.mem_append_left _ mem)
    have same := quiet.mp (quiets trace (List.mem_append_right _ List.mem_cons_self))
    rw [all, old, before, List.take_append_drop, same]
  · intro total
    rw [size] at total
    -- no poll delivers less than its range, so nothing was delivered twice by any of them
    have old : (traces.flatMap (rangesRead f)).length = offset := by omega
    have same : read = counted := by omega
    intro trace' mem
    rcases List.mem_append.mp mem with mem | mem
    · exact dl.quiet old trace' mem
    · rw [List.mem_singleton.mp mem]
      exact quiet.mpr same

/-- What any sequence of polls has delivered. -/
lemma Polls.delivered {loads : String → Except PyErr Json} (f : LogFile) {w w' : RunWorld}
    {traces : List (List (PollEffect × RunWorld))} {cursor : JsonObject}
    (polls : Polls loads [] w traces cursor w') :
    ∃ offset : Nat, cursorOffset cursor f = .ok offset ∧ Delivered f w' traces offset := by
  induction polls with
  | start => exact ⟨0, rfl, Nat.zero_le _, Nat.zero_le _, fun _ => rfl, fun _ _ mem => by cases mem⟩
  | poll _ call ih =>
    obtain ⟨offset, start, dl⟩ := ih
    obtain ⟨counted, read, next, above, more, inside, delivered, quiet⟩ :=
      poll_delivers f call start dl.inside
    have grown := pollMachine_grows (call.drifts fun _ _ _ => rfl) f
    exact ⟨counted, next, dl.poll grown (dl.inside.trans above) more inside delivered quiet⟩

/-- A sequence of polls delivers a log byte by byte up to its last offset, exactly if nothing is
    appended to the log between the two reads that one of them makes of it. -/
theorem deltas_exact_iff {loads : String → Except PyErr Json} {f : LogFile} {w w' : RunWorld}
    {traces : List (List (PollEffect × RunWorld))} {cursor : JsonObject}
    (polls : Polls loads [] w traces cursor w') :
    (∃ offset : Nat, cursorOffset cursor f = .ok offset ∧
      traces.flatMap (rangesRead f) = (w'.text f).take offset) ↔
      ∀ trace ∈ traces, Quiet f trace := by
  obtain ⟨offset, next, dl⟩ := polls.delivered f
  constructor
  · rintro ⟨offset', next', delivered⟩
    have same : offset = offset' := by
      have e := Except.ok.inj (next.symm.trans next')
      exact_mod_cast e
    -- a byte delivered twice would make the text delivered longer than the offset
    apply dl.quiet
    rw [delivered, ← same, List.length_take, min_eq_left dl.inside]
  · intro quiets
    exact ⟨offset, next, dl.bytes quiets⟩

/-! ## A byte that is delivered twice -/

/-- The command has written a first byte. -/
def wroteOne : RunWorld := { runningJob with out := some [0x61] }

/-- The command has written a second byte. -/
def wroteTwo : RunWorld := { runningJob with out := some [0x61, 0x62] }

/-- The reads of a poll that follow those of the first log. -/
def remainingReads (w : RunWorld) : List (PollEffect × RunWorld) :=
  [ (.logExists .err, w), (.exitExists, w), (.recordExists, w), (.loadRecord, w), (.signal 1, w) ]

/-- The second byte is written after the size of the log was taken and before the log was read. -/
def firstReads : List (PollEffect × RunWorld) :=
  [ (.now, wroteOne), (.logExists .out, wroteOne), (.logSize .out, wroteOne),
    (.readLog .out 0, wroteTwo) ] ++ remainingReads wroteTwo

def secondReads : List (PollEffect × RunWorld) :=
  [ (.now, wroteTwo), (.logExists .out, wroteTwo), (.logSize .out, wroteTwo),
    (.readLog .out 1, wroteTwo) ] ++ remainingReads wroteTwo

/-- The observation of a poll that has read some bytes up to an offset. -/
def readObservation (job : ComputeJobView) (next : Int) : JobObservation :=
  observation job
    { observed := 0, cursor := logCursor "/w" next 0, progress := [] } (livenessVerdict true)

/-- The view of the job at the second poll. -/
def secondView : ComputeJobView :=
  { runningView with logCursor := logCursor "/w" 1 0 }

lemma wroteTwo_polls :
    Polls noTelemetry [] wroteOne [firstReads, secondReads] (logCursor "/w" 2 0)
      wroteTwo := by
  have writes : pollMachine.Drifts wroteOne wroteTwo := .single ⟨.append .out [0x62], rfl⟩
  have first : pollMachine.Interleaved (poll noTelemetry runningView) wroteOne firstReads
      (.ok (readObservation runningView 1)) wroteTwo :=
    .perform (o := {}) .refl (.perform (o := {}) .refl (.perform (o := {}) .refl
      (.perform (o := {}) writes (.perform (o := {}) .refl (.perform (o := {}) .refl
        (.perform (o := {}) .refl (.perform (o := {}) .refl (.perform (o := {}) .refl .ret))))))))
  have second : pollMachine.Interleaved (poll noTelemetry secondView) wroteTwo secondReads
      (.ok (readObservation secondView 2)) wroteTwo :=
    .perform (o := {}) .refl (.perform (o := {}) .refl (.perform (o := {}) .refl
      (.perform (o := {}) .refl (.perform (o := {}) .refl (.perform (o := {}) .refl
        (.perform (o := {}) .refl (.perform (o := {}) .refl (.perform (o := {}) .refl .ret))))))))
  exact .poll (.poll .start first) second

/-- The deltas of these polls are exact only if they were quiet. -/
theorem deltas_exact_iff_two :
    (∃ offset : Nat, cursorOffset (logCursor "/w" 2 0) .out = .ok offset ∧
      [firstReads, secondReads].flatMap (rangesRead .out) = (wroteTwo.text .out).take offset) ↔
      ∀ trace ∈ [firstReads, secondReads], Quiet .out trace :=
  deltas_exact_iff wroteTwo_polls

/-- The second byte is delivered by both polls. -/
theorem deltas_not_exact :
    ¬ ∀ {loads : String → Except PyErr Json} {f : LogFile} {w w' : RunWorld}
        {traces : List (List (PollEffect × RunWorld))} {cursor : JsonObject},
        Polls loads [] w traces cursor w' →
        ∃ offset : Nat, cursorOffset cursor f = .ok offset ∧
          traces.flatMap (rangesRead f) = (w'.text f).take offset := by
  intro delivers
  obtain ⟨offset, next, delivered⟩ := delivers (f := .out) wroteTwo_polls
  have size := congrArg List.length delivered
  have three : ([firstReads, secondReads].flatMap (rangesRead .out)).length = 3 := by decide
  have two : (wroteTwo.text .out).length = 2 := rfl
  rw [three, List.length_take, two] at size
  omega

end ResearchController
