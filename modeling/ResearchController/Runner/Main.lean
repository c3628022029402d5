import ResearchController.Compute.Local.Poll
import ResearchController.Lib.Process
import ResearchController.Services.ReconcileDue

/-!
# The runner

Port of `runner/__main__.py`, the process that `submit` starts: a program over the files of the work
directory, the clock and the command that it starts. `RunnerWorld` is what such a process leaves
behind, with the two facts about the command that no file holds: that it was started, and what it
returned.

Every call can fail, and `subprocess.run` is two of them: starting the command and waiting for it.
A failing `atomic_json` may have replaced its file already (the synchronization of the directory
comes last), and a failing `write` may have written a part of the text.

The command runs in the work directory. Once started, it and its children append to the logs through
the two streams that they have from the runner, at any time, also after the runner is gone, and they
can overwrite the logs and the records by their names (`CommandStep`). A command that does not is
one of `streamingMachine`.

A record is stored as its JSON object; `Compute.Local.AtomicJson` has the program that puts its text
in place.
-/

namespace ResearchController
open Lib

/-- `str(exc)`. -/
def PyErr.text : PyErr → String
  | .invalidTransition msg => msg
  | .lookupError msg => msg
  | .valueError msg => msg
  | .validationError msg => msg
  | .runtimeError msg => msg
  | .typeError msg => msg
  | .keyError msg => msg
  | .attributeError msg => msg
  | .overflowError msg => msg
  | .fileNotFoundError msg => msg
  | .ioError msg => msg
  | .permissionError msg => msg
  | .unicodeDecodeError msg => msg
  | .unicodeEncodeError msg => msg
  | .jsonDecodeError msg => msg
  | .recursionError msg => msg
  | .notImplementedError msg => msg
  | .staleDataError msg => msg
  | .integrityError constraint => constraint
  | .statementError msg => msg

/-- The records of the runner. -/
inductive RunFile where
  | manifest
  | runnerPid
  | exit
  deriving DecidableEq, Repr

/-- The name of a record in the work directory. -/
def RunFile.name : RunFile → String
  | .manifest => "manifest.json"
  | .runnerPid => "runner_pid.json"
  | .exit => "exit.json"

/-- An effect of the runner. -/
inductive RunnerEffect where
  | makeWorkdir
  | utcIso
  | atomicJson (f : RunFile) (data : JsonObject)
  | openLog (f : LogFile)
  | start (command : List String)
  | wait
  | closeLog (f : LogFile)
  | write (f : LogFile) (text : String)

/-- What an effect is answered with. -/
def RunnerEffect.Answer : RunnerEffect → Type
  | .makeWorkdir => Except PyErr Unit
  | .utcIso => String
  | .atomicJson _ _ => Except PyErr Unit
  | .openLog _ => Except PyErr Unit
  | .start _ => Except PyErr Unit
  | .wait => Except PyErr Int
  | .closeLog _ => Except PyErr Unit
  | .write _ _ => Except PyErr Unit

/-- A program over the effects of the runner. -/
abbrev Running := Program RunnerEffect RunnerEffect.Answer PyErr

namespace Running

abbrev makeWorkdir : Running (Except PyErr Unit) := Program.call RunnerEffect.makeWorkdir

abbrev utcIso : Running String := Program.call RunnerEffect.utcIso

abbrev atomicJson (f : RunFile) (data : JsonObject) : Running (Except PyErr Unit) :=
  Program.call (RunnerEffect.atomicJson f data)

abbrev openLog (f : LogFile) : Running (Except PyErr Unit) := Program.call (RunnerEffect.openLog f)

abbrev start (command : List String) : Running (Except PyErr Unit) :=
  Program.call (RunnerEffect.start command)

abbrev wait : Running (Except PyErr Int) := Program.call RunnerEffect.wait

abbrev closeLog (f : LogFile) : Running (Except PyErr Unit) :=
  Program.call (RunnerEffect.closeLog f)

abbrev write (f : LogFile) (text : String) : Running (Except PyErr Unit) :=
  Program.call (RunnerEffect.write f text)

end Running

namespace Runner

/-- The object of `manifest.json`. -/
def manifest (command : List String) (startedAt : String) : JsonObject :=
  [("schema_version", .str "runner-manifest/v0.1"), ("command", .list (command.map Json.str)),
   ("started_at", .str startedAt)]

/-- The object of `runner_pid.json`. -/
def pidRecord (pid : Int) (startedAt : String) : JsonObject :=
  [("pid", .int pid), ("started_at", .str startedAt)]

/-- The object of `exit.json`. -/
def exitRecord (exitCode : Int) (finishedAt : String) (signalNumber : Option Int) : JsonObject :=
  [("schema_version", .str "runner-exit/v0.1"), ("exit_code", .int exitCode),
   ("finished_at", .str finishedAt), ("signal", (signalNumber.map Json.int).getD .null)]

/-- What the runner writes to `run.error` of an exception. -/
def failureText (e : PyErr) : String :=
  "research-runner failed to start command: " ++ e.typeName ++ ": " ++ e.text ++ "\n"

/-- The number of the signal that has ended a command. -/
def signalNumber (returncode : Int) : Option Int :=
  if returncode < 0 then some (-returncode) else none

/-- `subprocess.run`. -/
def subprocessRun (command : List String) : Running (Except PyErr Int) := do
  let started ← Running.start command
  match started with
  | .ok _ => Running.wait
  | .error e => return .error e

/-- The end of a `with` block: an exception of the closing takes the place of what the block has
    come to. -/
def closing {α : Type} (f : LogFile) (outcome : Except PyErr α) : Running (Except PyErr α) := do
  let closed ← Running.closeLog f
  match closed with
  | .ok _ => return outcome
  | .error e => return .error e

/-- The inner block: the return code of the command or an exception, and the signal number. -/
def execute (command : List String) : Running (Except PyErr Int × Option Int) := do
  let completed ← subprocessRun command
  match completed with
  | .ok returncode => return (.ok returncode, signalNumber returncode)
  | .error e => return (.error e, none)

/-- What is tried: with both logs open, run the command. -/
def attempt (command : List String) : Running (Except PyErr Int × Option Int) := do
  let stdout ← Running.openLog .out
  match stdout with
  | .error e => return (.error e, none)
  | .ok _ =>
    let stderr ← Running.openLog .err
    match stderr with
    | .error e =>
      let outcome ← closing .out (.error e)
      return (outcome, none)
    | .ok _ =>
      let (completed, signal) ← execute command
      let outcome ← closing .err completed
      let outcome ← closing .out outcome
      return (outcome, signal)

/-- The handler: report the exception in `run.error`. -/
def reportFailure (e : PyErr) : Running Int := do
  let stderr ← Running.openLog .err
  Program.check stderr
  let written ← Running.write .err (failureText e)
  let closed ← closing .err written
  Program.check closed
  return 127

/-- The exit code of what was tried. -/
def settle (outcome : Except PyErr Int) : Running Int :=
  match outcome with
  | .ok returncode => return returncode
  | .error e => reportFailure e

/-- `run`. -/
def run (pid : Int) (command : List String) : Running Int := do
  let made ← Running.makeWorkdir
  Program.check made
  let startedAt ← Running.utcIso
  let saved ← Running.atomicJson .manifest (manifest command startedAt)
  Program.check saved
  let startedAt ← Running.utcIso
  let saved ← Running.atomicJson .runnerPid (pidRecord pid startedAt)
  Program.check saved
  let (outcome, signal) ← attempt command
  let exitCode ← settle outcome
  let finishedAt ← Running.utcIso
  let saved ← Running.atomicJson .exit (exitRecord exitCode finishedAt signal)
  Program.check saved
  return exitCode

/-- The command in the arguments that `argparse` leaves over: one leading `--` is dropped. -/
def commandOf : List String → List String
  | "--" :: command => command
  | command => command

/-- `main`, as far as it runs; of an empty command it raises `SystemExit` with a text. -/
def main (pid : Int) (rest : List String) : Except String (Running Int) :=
  if (commandOf rest).isEmpty then .error "research-runner requires a command after --"
  else .ok (run pid (commandOf rest))

/-- The arguments after `--workdir` that `submit` passes to the runner. -/
def argumentsOf (prepared : PreparedJob) : List String :=
  "--" :: prepared.command

/-- The runner runs the command as the provider has put it there, also if the command starts with
    `--` itself. -/
lemma main_argumentsOf {pid : Int} {prepared : PreparedJob} {program : Running Int}
    (entry : main pid (argumentsOf prepared) = .ok program) :
    program = run pid prepared.command := by
  have command : commandOf (argumentsOf prepared) = prepared.command := rfl
  rw [main, command] at entry
  split at entry
  · cases entry
  · cases entry
    rfl

end Runner

/-- What the runner and its command leave behind. -/
structure RunnerWorld where
  out : Option (List UInt8) := none
  err : Option (List UInt8) := none
  manifest : Option JsonObject := none
  runnerPid : Option JsonObject := none
  exit : Option JsonObject := none
  started : Option (List String) := none
  returned : Option Int := none

namespace RunnerWorld

/-- The content of a log. -/
def log (w : RunnerWorld) : LogFile → Option (List UInt8)
  | .out => w.out
  | .err => w.err

/-- Append to a log; nothing appended still creates the file. -/
def append (w : RunnerWorld) (data : List UInt8) : LogFile → RunnerWorld
  | .out => { w with out := some (w.out.getD [] ++ data) }
  | .err => { w with err := some (w.err.getD [] ++ data) }

/-- Put a record in place. -/
def put (w : RunnerWorld) (data : JsonObject) : RunFile → RunnerWorld
  | .manifest => { w with manifest := some data }
  | .runnerPid => { w with runnerPid := some data }
  | .exit => { w with exit := some data }

end RunnerWorld

/-- What the surroundings of the runner answer: the time, whether the call fails, whether a failing
    `atomic_json` has replaced the file, how much a failing `write` has written, and the return code
    of the command. -/
structure RunnerSurroundings where
  now : String := ""
  failure : Option PyErr := none
  replaced : Bool := false
  written : Nat := 0
  returncode : Int := 0

/-- The answer of a call that may fail. -/
def RunnerSurroundings.answer (o : RunnerSurroundings) {α : Type} (a : α) : Except PyErr α :=
  match o.failure with
  | none => .ok a
  | some e => .error e

/-- What an effect does. -/
def RunnerWorld.handle (w : RunnerWorld) :
    (e : RunnerEffect) → RunnerSurroundings → RunnerWorld × e.Answer
  | .makeWorkdir, o => (w, o.answer ())
  | .utcIso, o => (w, o.now)
  | .atomicJson f data, o =>
    (if o.failure.isNone = true ∨ o.replaced = true then w.put data f else w, o.answer ())
  | .openLog f, o => (if o.failure.isNone = true then w.append [] f else w, o.answer ())
  | .start command, o =>
    (if o.failure.isNone = true then { w with started := some command } else w, o.answer ())
  | .wait, o =>
    (if o.failure.isNone = true then { w with returned := some o.returncode } else w,
      o.answer o.returncode)
  | .closeLog _, o => (w, o.answer ())
  | .write f text, o =>
    let data := text.toUTF8.toList
    (w.append (if o.failure.isNone = true then data else data.take o.written) f, o.answer ())

/-- What the command and its children do to the files of the runner: they append to a log through a
    stream, overwrite a log in place, or write a record anew or remove it. -/
inductive CommandStep where
  | stream (f : LogFile) (data : List UInt8)
  | overwriteLog (f : LogFile) (data : List UInt8)
  | overwriteRecord (f : RunFile) (data : Option JsonObject)

/-- Whether the files are left alone but for the streams. -/
def CommandStep.streams : CommandStep → Bool
  | .stream _ _ => true
  | _ => false

/-- What such a step does. -/
def RunnerWorld.commandStep (w : RunnerWorld) : CommandStep → RunnerWorld
  | .stream f data => w.append data f
  | .overwriteLog .out data => { w with out := some data }
  | .overwriteLog .err data => { w with err := some data }
  | .overwriteRecord .manifest data => { w with manifest := data }
  | .overwriteRecord .runnerPid data => { w with runnerPid := data }
  | .overwriteRecord .exit data => { w with exit := data }

/-- The machine of the runner. -/
def runnerMachine :
    Machine RunnerWorld RunnerEffect RunnerEffect.Answer RunnerSurroundings CommandStep where
  handle := RunnerWorld.handle
  drift w c := if w.started.isSome = true then some (w.commandStep c) else none

/-- The machine of the runner of a command that writes to its files through the streams only. -/
def streamingMachine :
    Machine RunnerWorld RunnerEffect RunnerEffect.Answer RunnerSurroundings CommandStep :=
  runnerMachine.restrict CommandStep.streams

end ResearchController
