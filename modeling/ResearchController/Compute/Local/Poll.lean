import ResearchController.Compute.Local.Logs
import ResearchController.Compute.Local.Submission

/-!
# Polling a local job

Port of `_read_delta` and `poll` of `compute/local/provider.py`, as a program over its single reads,
and of what `runner/__main__.py` does to the files that `poll` looks at. `RunWorld` is the world of
one job: its two log files, its exit record, its submission record and its runner process. The
runner appends to the logs, puts `exit.json` in place when the command has ended, and disappears; it
may also die without a record. Every step of it can fall between any two reads of a poll.

An exit record is stored as its exit code. `runnerExit` is the JSON object that the runner writes
for it.
-/

namespace ResearchController
open Lib

/-- The two log files of a job. -/
inductive LogFile where
  | out
  | err
  deriving DecidableEq, Repr

/-- The name of a log file in the work directory. -/
def LogFile.name : LogFile → String
  | .out => "run.out"
  | .err => "run.error"

/-- The key of a log file in the cursor. -/
def LogFile.key : LogFile → String
  | .out => "stdout"
  | .err => "stderr"

/-- The answer to signal 0. -/
inductive SignalResult where
  | delivered
  | noSuchProcess
  | notPermitted
  deriving DecidableEq, Repr

/-- What `poll` makes of the answer: only `ProcessLookupError` means that the process is gone. -/
def SignalResult.alive : SignalResult → Bool
  | .delivered => true
  | .noSuchProcess => false
  | .notPermitted => true

/-- A read of `poll`. -/
inductive PollEffect where
  | now
  | logExists (f : LogFile)
  | logSize (f : LogFile)
  | readLog (f : LogFile) (start : Nat)
  | exitExists
  | loadExit
  | recordExists
  | loadRecord
  | signal (pid : Int)

/-- What a read is answered with. -/
def PollEffect.Answer : PollEffect → Type
  | .now => Datetime
  | .logExists _ => Bool
  | .logSize _ => Except PyErr Nat
  | .readLog _ _ => Except PyErr (List UInt8)
  | .exitExists => Bool
  | .loadExit => Except PyErr JsonObject
  | .recordExists => Bool
  | .loadRecord => Except PyErr SubmissionRecord
  | .signal _ => SignalResult

/-- A program over the reads of `poll`. -/
abbrev Polling := Program PollEffect PollEffect.Answer PyErr

namespace Polling

abbrev now : Polling Datetime := Program.call PollEffect.now

abbrev logExists (f : LogFile) : Polling Bool := Program.call (PollEffect.logExists f)

abbrev logSize (f : LogFile) : Polling (Except PyErr Nat) := Program.call (PollEffect.logSize f)

abbrev readLog (f : LogFile) (start : Nat) : Polling (Except PyErr (List UInt8)) :=
  Program.call (PollEffect.readLog f start)

abbrev exitExists : Polling Bool := Program.call PollEffect.exitExists

abbrev loadExit : Polling (Except PyErr JsonObject) := Program.call PollEffect.loadExit

abbrev recordExists : Polling Bool := Program.call PollEffect.recordExists

abbrev loadRecord : Polling (Except PyErr SubmissionRecord) := Program.call PollEffect.loadRecord

abbrev signal (pid : Int) : Polling SignalResult := Program.call (PollEffect.signal pid)

end Polling

/-- `int(value)` on a JSON value; of texts it reads decimal numerals. -/
def pyInt : Json → Except PyErr Int
  | .int i => .ok i
  | .bool b => .ok (if b then 1 else 0)
  | .float (.finite q) => .ok (q.num.tdiv q.den)
  | .float .nan => .error (.valueError "cannot convert float NaN to integer")
  | .float .posInf => .error (.overflowError "cannot convert float infinity to integer")
  | .float .negInf => .error (.overflowError "cannot convert float infinity to integer")
  | .str s =>
    match s.toInt? with
    | some i => .ok i
    | none => .error (.valueError "invalid literal for int() with base 10")
  | .surrogates _ => .error (.valueError "invalid literal for int() with base 10")
  | .null =>
    .error (.typeError "int() argument must be a string, a bytes-like object or a real number")
  | .list _ =>
    .error (.typeError "int() argument must be a string, a bytes-like object or a real number")
  | .dict _ =>
    .error (.typeError "int() argument must be a string, a bytes-like object or a real number")

/-- `int(job.log_cursor.get(key, {}).get("offset", 0))`. -/
def cursorOffset (cursor : JsonObject) (f : LogFile) : Except PyErr Int :=
  match cursor.get f.key with
  | none => .ok 0
  | some (.dict entry) =>
    match JsonObject.get entry "offset" with
    | none => .ok 0
    | some offset => pyInt offset
  | some _ => .error (.attributeError "object has no attribute 'get'")

/-- The cursor that `poll` returns. -/
def logCursor (workdir : String) (stdoutNext stderrNext : Int) : JsonObject :=
  [("stdout", .dict
      [("path", .str (workdir ++ "/" ++ LogFile.out.name)), ("offset", .int stdoutNext)]),
   ("stderr", .dict
      [("path", .str (workdir ++ "/" ++ LogFile.err.name)), ("offset", .int stderrNext)])]

/-- `LocalProvider._read_delta`. -/
def readDelta (f : LogFile) (offset : Int) : Polling (String × Int) := do
  let present ← Polling.logExists f
  if present then
    let sized ← Polling.logSize f
    let size ← Program.check sized
    let start := min (max offset 0) size
    let read ← Polling.readLog f start.toNat
    let data ← Program.check read
    return (decodeReplace data, (size : Int))
  else
    return ("", offset)

/-- What `poll` concludes about the execution. -/
structure PollVerdict where
  status : ComputeExecutionStatus
  failure : FailureClass
  rawState : String
  exitCode : Option Int := none

/-- The conclusion from an exit code. -/
def exitVerdict (exitCode : Int) : PollVerdict :=
  { status := if exitCode = 0 then .succeeded else .failed,
    failure := if exitCode = 0 then .none else .code,
    rawState := "EXITED",
    exitCode := some exitCode }

/-- The conclusion from the liveness of the process. -/
def livenessVerdict (alive : Bool) : PollVerdict :=
  if alive then
    { status := .running, failure := .none, rawState := "PROCESS_ALIVE" }
  else
    { status := .failed, failure := .infrastructure,
      rawState := "PROCESS_MISSING_WITHOUT_EXIT_RECORD" }

/-- `int(exit_data["exit_code"])`. -/
def exitCodeOf (exitData : JsonObject) : Except PyErr Int :=
  match exitData.get "exit_code" with
  | some code => pyInt code
  | none => .error (.keyError "exit_code")

/-- `os.kill(pid, 0)`, for a pid that a process can have. -/
def isAlive (pid : Int) : Polling Bool :=
  if 0 < pid then do
    let answer ← Polling.signal pid
    return answer.alive
  else
    return false

/-- The part of `poll` that looks for the submission record and the process. -/
def pollProcess : Polling PollVerdict := do
  let present ← Polling.recordExists
  if present then
    let loaded ← Polling.loadRecord
    let record ← Program.check loaded
    let alive ← isAlive (record.pid.getD 0)
    return livenessVerdict alive
  else
    let alive ← isAlive 0
    return livenessVerdict alive

/-- The part of `poll` that decides on the execution. -/
def pollExecution : Polling PollVerdict := do
  let exited ← Polling.exitExists
  if exited then
    let loaded ← Polling.loadExit
    let exitData ← Program.check loaded
    let exitCode ← Program.check (exitCodeOf exitData)
    return exitVerdict exitCode
  else
    pollProcess

/-- What `poll` learns from the clock and the logs. -/
structure PollLogs where
  observed : Datetime
  cursor : JsonObject
  progress : JsonObject

/-- The part of `poll` that reads the logs. -/
def pollLogs (loads : String → Except PyErr Json) (job : ComputeJobView) : Polling PollLogs := do
  let observed ← Polling.now
  let stdoutOffset ← Program.check (cursorOffset job.logCursor .out)
  let stderrOffset ← Program.check (cursorOffset job.logCursor .err)
  let stdout ← readDelta .out stdoutOffset
  let stderr ← readDelta .err stderrOffset
  let progress ← Program.check (telemetry loads [stdout.1, stderr.1])
  return { observed := observed,
           cursor := logCursor job.remoteWorkdir stdout.2 stderr.2,
           progress := progress }

/-- The observation that `poll` returns. -/
def observation (job : ComputeJobView) (logs : PollLogs) (verdict : PollVerdict) : JobObservation :=
  { computeJobId := job.id, externalJobId := job.externalJobId, observedAt := logs.observed,
    observationStatus := .fresh, executionStatus := verdict.status,
    rawSchedulerState := some verdict.rawState, exitCode := verdict.exitCode,
    failureClass := verdict.failure, retryable := verdict.failure == .infrastructure,
    progress := logs.progress, logCursor := logs.cursor }

/-- `LocalProvider.poll`. -/
def poll (loads : String → Except PyErr Json) (job : ComputeJobView) : Polling JobObservation := do
  let logs ← pollLogs loads job
  let verdict ← pollExecution
  return observation job logs verdict

/-- The world of one job. -/
structure RunWorld where
  out : Option (List UInt8) := none
  err : Option (List UInt8) := none
  exit : Option Int := none
  submission : Option SubmissionRecord := none
  pid : Int
  present : Bool := true

/-- The content of a log file. -/
def RunWorld.log (w : RunWorld) : LogFile → Option (List UInt8)
  | .out => w.out
  | .err => w.err

/-- The JSON object of `exit.json`. -/
def runnerExit (exitCode : Int) : JsonObject :=
  [("schema_version", .str "runner-exit/v0.1"), ("exit_code", .int exitCode),
   ("signal", if exitCode < 0 then .int (-exitCode) else .null)]

/-- What the surroundings of a poll answer: the time, and whether they refuse the signal. -/
structure PollSurroundings where
  now : Datetime := 0
  denied : Bool := false

/-- What a read finds. -/
def RunWorld.read (w : RunWorld) : (e : PollEffect) → PollSurroundings → e.Answer
  | .now, o => o.now
  | .logExists f, _ => (w.log f).isSome
  | .logSize f, _ =>
    match w.log f with
    | some data => .ok data.length
    | none => .error (.fileNotFoundError f.name)
  | .readLog f start, _ =>
    match w.log f with
    | some data => .ok (data.drop start)
    | none => .error (.fileNotFoundError f.name)
  | .exitExists, _ => w.exit.isSome
  | .loadExit, _ =>
    match w.exit with
    | some exitCode => .ok (runnerExit exitCode)
    | none => .error (.fileNotFoundError "exit.json")
  | .recordExists, _ => w.submission.isSome
  | .loadRecord, _ =>
    match w.submission with
    | some record => .ok record
    | none => .error (.fileNotFoundError "submission record")
  | .signal pid, o =>
    if pid = w.pid ∧ w.present = true then
      if o.denied then .notPermitted else .delivered
    else
      .noSuchProcess

lemma RunWorld.read_loadExit {w : RunWorld} {c : Int} (exited : w.exit = some c)
    (o : PollSurroundings) : w.read .loadExit o = .ok (runnerExit c) := by
  simp only [read, exited]
  rfl

lemma RunWorld.read_loadRecord {w : RunWorld} {record : SubmissionRecord}
    (stored : w.submission = some record) (o : PollSurroundings) :
    w.read .loadRecord o = .ok record := by
  simp only [read, stored]
  rfl

/-- Signal 0 reaches the runner, with or without permission, as long as it is there. -/
lemma RunWorld.read_signal (w : RunWorld) (o : PollSurroundings) :
    SignalResult.alive (w.read (.signal w.pid) o) = w.present := by
  simp only [read, true_and]
  cases w.present with
  | false => rfl
  | true => cases o.denied <;> rfl

/-- A step of the runner and its command. -/
inductive RunnerStep where
  | append (f : LogFile) (data : List UInt8)
  | finish (exitCode : Int)
  | disappear

/-- What a step of the runner does. The exit record is written once, by a runner that is there. -/
def RunWorld.runnerStep (w : RunWorld) : RunnerStep → Option RunWorld
  | .append .out data => some { w with out := some (w.out.getD [] ++ data) }
  | .append .err data => some { w with err := some (w.err.getD [] ++ data) }
  | .finish exitCode =>
    if w.present = true ∧ w.exit = none then some { w with exit := some exitCode } else none
  | .disappear => if w.present = true then some { w with present := false } else none

/-- The machine of a poll: reads change nothing, the runner drifts. -/
def pollMachine : Machine RunWorld PollEffect PollEffect.Answer PollSurroundings RunnerStep where
  handle w e o := (w, w.read e o)
  drift := RunWorld.runnerStep

end ResearchController
