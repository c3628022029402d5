import ResearchController.Recovery.PollAgreement
import ResearchController.Runner.Main

/-!
# The runner as a poll sees it

The runner of `Compute.Local.Poll` is an abstract one: it appends to the logs, puts one exit record
in place while it is there, and disappears. `runner_refines` says that `runner/__main__.py` is such
a runner, at every moment of its life, whichever of its calls fail and wherever it is killed, and
that its records tell the truth about its command (`RunnerWorld.Told`). It is the first runner of
its work directory (`RunnerWorld.Fresh`), and its command leaves the files of the job alone but for
its two streams.

`poll_tells_runner` puts a poll next to such a process, each read between any two events of its
life, and says what an observation means: which command has run and what it returned.
-/

namespace ResearchController
open Lib

/-! ## What a poll can see of it -/

/-- The world of the job, with the exit record reduced to its exit code. -/
def RunnerWorld.view (w : RunnerWorld) (pid : Int) (submission : SubmissionRecord)
    (present : Bool) : RunWorld where
  out := w.out
  err := w.err
  exit := w.exit.bind fun data => (exitCodeOf data).toOption
  submission := some submission
  pid := pid
  present := present

/-- A log that something may have been appended to. -/
def LogGrown (a b : Option (List UInt8)) : Prop :=
  b = a ∨ ∃ more, b = some (a.getD [] ++ more)

namespace LogGrown

variable {a b c : Option (List UInt8)}

lemma refl (a : Option (List UInt8)) : LogGrown a a := .inl rfl

lemma isSome (h : LogGrown a b) (there : a.isSome = true) : b.isSome = true := by
  rcases h with rfl | ⟨more, rfl⟩
  · exact there
  · rfl

/-- What was there is still there. -/
lemma still_contains {text : List UInt8} (h : LogGrown a b) (written : text <:+: a.getD []) :
    text <:+: b.getD [] := by
  rcases h with rfl | ⟨more, rfl⟩
  · exact written
  · exact written.trans (List.prefix_append _ _).isInfix

end LogGrown

/-- The command may have written to the logs, and nothing else has changed. -/
structure RunnerWorld.Appended (s t : RunnerWorld) : Prop where
  log : ∀ f, LogGrown (s.log f) (t.log f)
  manifest : t.manifest = s.manifest
  runnerPid : t.runnerPid = s.runnerPid
  exit : t.exit = s.exit
  started : t.started = s.started
  returned : t.returned = s.returned

lemma RunnerWorld.append_grown (w : RunnerWorld) (data : List UInt8) (f f' : LogFile) :
    LogGrown (w.log f') ((w.append data f).log f') := by
  cases f with
  | out =>
    cases f' with
    | out => exact .inr ⟨data, rfl⟩
    | err => exact .refl _
  | err =>
    cases f' with
    | out => exact .refl _
    | err => exact .inr ⟨data, rfl⟩

lemma RunnerWorld.append_appended (w : RunnerWorld) (data : List UInt8) (f : LogFile) :
    w.Appended (w.append data f) := by
  cases f with
  | out => exact ⟨w.append_grown data .out, rfl, rfl, rfl, rfl, rfl⟩
  | err => exact ⟨w.append_grown data .err, rfl, rfl, rfl, rfl, rfl⟩

lemma RunnerWorld.Appended.refl (w : RunnerWorld) : w.Appended w :=
  ⟨fun _ => .refl _, rfl, rfl, rfl, rfl, rfl⟩

lemma streamingMachine_appended {s t : RunnerWorld} {c : CommandStep}
    (moved : streamingMachine.drift s c = some t) : s.Appended t := by
  obtain ⟨streams, moved⟩ := Machine.restrict_drift.mp moved
  cases c with
  | stream f data =>
    simp only [runnerMachine] at moved
    split at moved
    · cases moved
      exact s.append_appended data f
    · cases moved
  | overwriteLog f data => cases streams
  | overwriteRecord f data => cases streams

/-! ## What the records say -/

/-- The manifest names the command, and the process is on record. -/
def RunnerWorld.Recorded (command : List String) (pid : Int) (w : RunnerWorld) : Prop :=
  (∃ startedAt, w.manifest = some (Runner.manifest command startedAt)) ∧
    ∃ startedAt, w.runnerPid = some (Runner.pidRecord pid startedAt)

/-- The text of a failure stands in `run.error`. -/
def RunnerWorld.Reported (w : RunnerWorld) : Prop :=
  ∃ e, (Runner.failureText e).toUTF8.toList <:+: w.err.getD []

/-- The records tell the truth. No other command is started than the one in the manifest, and only
    with both logs there. The exit record has the return code of the command, or 127 with the
    failure in `run.error`, and the signal that has ended the command if one has. -/
structure RunnerWorld.Told (command : List String) (pid : Int) (w : RunnerWorld) : Prop where
  started : ∀ c, w.started = some c → c = command ∧ w.Recorded command pid ∧
    ∀ f, (w.log f).isSome = true
  returned : w.returned.isSome = true → w.started = some command
  exit : ∀ data, w.exit = some data → w.Recorded command pid ∧ ∃ exitCode finishedAt,
    data = Runner.exitRecord exitCode finishedAt (w.returned.bind Runner.signalNumber) ∧
      (w.returned = some exitCode ∨ exitCode = 127 ∧ w.Reported)

/-- There is no exit record, and nothing has been started here before. -/
structure RunnerWorld.Fresh (w : RunnerWorld) : Prop where
  exit : w.exit = none
  started : w.started = none
  returned : w.returned = none

/-- The runner writes: the logs grow, the exit record is written once, and what was true of the
    records stays true. -/
structure RunnerWorld.Advances (command : List String) (pid : Int) (s t : RunnerWorld) : Prop where
  log : ∀ f, LogGrown (s.log f) (t.log f)
  exit : t.exit = s.exit ∨ s.exit = none
  told : s.Told command pid → t.Told command pid

section Told

variable {command : List String} {pid : Int} {s t : RunnerWorld}

lemma RunnerWorld.Fresh.told (h : s.Fresh) : s.Told command pid := by
  refine ⟨fun c started => ?_, fun returned => ?_, fun data written => ?_⟩
  · rw [h.started] at started
    cases started
  · rw [h.returned] at returned
    cases returned
  · rw [h.exit] at written
    cases written

lemma RunnerWorld.Recorded.appended (h : s.Recorded command pid) (moved : s.Appended t) :
    t.Recorded command pid := by
  rw [Recorded, moved.manifest, moved.runnerPid]
  exact h

lemma RunnerWorld.Told.appended (h : s.Told command pid) (moved : s.Appended t) :
    t.Told command pid := by
  refine ⟨fun c started => ?_, fun returned => ?_, fun data written => ?_⟩
  · rw [moved.started] at started
    obtain ⟨same, recorded, open_⟩ := h.started c started
    exact ⟨same, recorded.appended moved, fun f => (moved.log f).isSome (open_ f)⟩
  · rw [moved.returned] at returned
    rw [moved.started]
    exact h.returned returned
  · rw [moved.exit] at written
    obtain ⟨recorded, exitCode, finishedAt, same, meaning⟩ := h.exit data written
    rw [moved.returned]
    refine ⟨recorded.appended moved, exitCode, finishedAt, same, meaning.imp_right ?_⟩
    rintro ⟨code, e, text⟩
    exact ⟨code, e, (moved.log .err).still_contains text⟩

lemma RunnerWorld.Appended.advances (moved : s.Appended t) : s.Advances command pid t :=
  ⟨moved.log, .inl moved.exit, fun h => h.appended moved⟩

lemma RunnerWorld.Advances.refl (s : RunnerWorld) : s.Advances command pid s :=
  (RunnerWorld.Appended.refl s).advances

end Told

/-! ## What each call does -/

lemma streamingMachine_handle : streamingMachine.handle = RunnerWorld.handle := rfl

namespace Runner

lemma handle_makeWorkdir (w : RunnerWorld) (o : RunnerSurroundings) :
    streamingMachine.handle w .makeWorkdir o = (w, .ok ()) ∨
      ∃ e, streamingMachine.handle w .makeWorkdir o = (w, .error e) := by
  simp only [streamingMachine_handle, RunnerWorld.handle, RunnerSurroundings.answer]
  cases o.failure with
  | none => exact .inl rfl
  | some e => exact .inr ⟨e, rfl⟩

lemma handle_openLog (w : RunnerWorld) (f : LogFile) (o : RunnerSurroundings) :
    streamingMachine.handle w (.openLog f) o = (w.append [] f, .ok ()) ∨
      ∃ e, streamingMachine.handle w (.openLog f) o = (w, .error e) := by
  simp only [streamingMachine_handle, RunnerWorld.handle, RunnerSurroundings.answer]
  cases o.failure with
  | none => exact .inl rfl
  | some e => exact .inr ⟨e, rfl⟩

lemma handle_start (w : RunnerWorld) (command : List String) (o : RunnerSurroundings) :
    streamingMachine.handle w (.start command) o = ({ w with started := some command }, .ok ()) ∨
      ∃ e, streamingMachine.handle w (.start command) o = (w, .error e) := by
  simp only [streamingMachine_handle, RunnerWorld.handle, RunnerSurroundings.answer]
  cases o.failure with
  | none => exact .inl rfl
  | some e => exact .inr ⟨e, rfl⟩

lemma handle_wait (w : RunnerWorld) (o : RunnerSurroundings) :
    (∃ returncode, streamingMachine.handle w .wait o =
        ({ w with returned := some returncode }, .ok returncode)) ∨
      ∃ e, streamingMachine.handle w .wait o = (w, .error e) := by
  simp only [streamingMachine_handle, RunnerWorld.handle, RunnerSurroundings.answer]
  cases o.failure with
  | none => exact .inl ⟨o.returncode, rfl⟩
  | some e => exact .inr ⟨e, rfl⟩

lemma handle_closeLog (w : RunnerWorld) (f : LogFile) (o : RunnerSurroundings) :
    streamingMachine.handle w (.closeLog f) o = (w, .ok ()) ∨
      ∃ e, streamingMachine.handle w (.closeLog f) o = (w, .error e) := by
  simp only [streamingMachine_handle, RunnerWorld.handle, RunnerSurroundings.answer]
  cases o.failure with
  | none => exact .inl rfl
  | some e => exact .inr ⟨e, rfl⟩

lemma handle_write (w : RunnerWorld) (f : LogFile) (text : String) (o : RunnerSurroundings) :
    streamingMachine.handle w (.write f text) o = (w.append text.toUTF8.toList f, .ok ()) ∨
      ∃ part e, streamingMachine.handle w (.write f text) o = (w.append part f, .error e) := by
  simp only [streamingMachine_handle, RunnerWorld.handle, RunnerSurroundings.answer]
  cases o.failure with
  | none => exact .inl rfl
  | some e => exact .inr ⟨_, e, rfl⟩

lemma handle_atomicJson (w : RunnerWorld) (f : RunFile) (data : JsonObject)
    (o : RunnerSurroundings) :
    streamingMachine.handle w (.atomicJson f data) o = (w.put data f, .ok ()) ∨
      ∃ w' e, streamingMachine.handle w (.atomicJson f data) o = (w', .error e) ∧
        (w' = w ∨ w' = w.put data f) := by
  simp only [streamingMachine_handle, RunnerWorld.handle, RunnerSurroundings.answer]
  cases o.failure with
  | none => exact .inl rfl
  | some e =>
    cases o.replaced with
    | true => exact .inr ⟨_, e, rfl, .inr rfl⟩
    | false => exact .inr ⟨_, e, rfl, .inl rfl⟩

end Runner

/-! ## One part of the runner after the other -/

/-- Between the first records and the exit record. -/
structure RunnerWorld.Underway (command : List String) (pid : Int) (returned : Option Int)
    (w : RunnerWorld) : Prop where
  exit : w.exit = none
  recorded : w.Recorded command pid
  returned : w.returned = returned
  told : w.Told command pid

/-- What an attempt has come to: its outcome is the return code of the command, if it has one, and
    its signal the one that has ended the command. -/
def RunnerWorld.Attempted (command : List String) (pid : Int)
    (attempted : Except PyErr Int × Option Int) (w : RunnerWorld) : Prop :=
  w.Underway command pid w.returned ∧ attempted.2 = w.returned.bind Runner.signalNumber ∧
    ∀ returncode, attempted.1 = .ok returncode → w.returned = some returncode

/-- What the exit record is going to say. -/
def RunnerWorld.Settled (command : List String) (pid : Int) (exitCode : Int)
    (signal : Option Int) (w : RunnerWorld) : Prop :=
  w.Underway command pid w.returned ∧ signal = w.returned.bind Runner.signalNumber ∧
    (w.returned = some exitCode ∨ exitCode = 127 ∧ w.Reported)

/-- A part of the runner that keeps the guarantee and ends as `Q` says. -/
abbrev Runner.Keeps (command : List String) (pid : Int) {α : Type}
    (Q : Except PyErr α → RunnerWorld → Prop) (p : Running α) (w : RunnerWorld) : Prop :=
  p.Upholds streamingMachine RunnerWorld.Appended (RunnerWorld.Advances command pid) Q w

section Parts

variable {command : List String} {pid : Int} {returned : Option Int} {s t : RunnerWorld}

lemma RunnerWorld.Underway.appended (h : s.Underway command pid returned) (moved : s.Appended t) :
    t.Underway command pid returned :=
  ⟨moved.exit.trans h.exit, h.recorded.appended moved, moved.returned.trans h.returned,
    h.told.appended moved⟩

/-- To start the command is a step that the guarantee allows, with both logs there. -/
lemma RunnerWorld.Underway.start (h : s.Underway command pid returned)
    (logs : ∀ f, (s.log f).isSome = true) :
    RunnerWorld.Underway command pid returned { s with started := some command } := by
  refine ⟨h.exit, h.recorded, h.returned, fun c started => ?_, fun _ => rfl, h.told.exit⟩
  cases started
  exact ⟨rfl, h.recorded, logs⟩

lemma RunnerWorld.Underway.wait (h : s.Underway command pid returned)
    (started : s.started = some command) (returncode : Int) :
    RunnerWorld.Underway command pid (some returncode)
      { s with returned := some returncode } := by
  refine ⟨h.exit, h.recorded, rfl, h.told.started, fun _ => started, fun data written => ?_⟩
  have written : s.exit = some data := written
  rw [h.exit] at written
  cases written

/-- Whatever the runner does to an unfinished job, the exit record is not touched. -/
lemma RunnerWorld.Underway.advances (h : t.Underway command pid returned)
    (log : ∀ f, LogGrown (s.log f) (t.log f)) (exit : s.exit = none) :
    s.Advances command pid t :=
  ⟨log, .inr exit, fun _ => h.told⟩

namespace Runner

/-- A part that never raises, and what comes after it. -/
lemma keeps_bind {α β : Type} {P : α → RunnerWorld → Prop} {Q : Except PyErr β → RunnerWorld → Prop}
    {p : Running α} {f : α → Running β}
    (h : Keeps command pid (fun r w => ∃ a, r = .ok a ∧ P a w) p s)
    (next : ∀ a w, P a w → Keeps command pid Q (f a) w) : Keeps command pid Q (p >>= f) s := by
  refine h.bind ?_ ?_
  · rintro a w ⟨_, e, ha⟩
    cases e
    exact next a w ha
  · rintro x w ⟨_, e, _⟩
    cases e

/-- Closing a log changes nothing, but its exception takes the place of the outcome. -/
lemma keeps_closing {α : Type} {f : LogFile} {outcome : Except PyErr α} {P : RunnerWorld → Prop}
    (hs : P s) (stable : ∀ t t', P t → t.Appended t' → P t') :
    Keeps command pid (fun r w => ∃ outcome', r = .ok outcome' ∧ P w ∧
      (outcome' = outcome ∨ ∃ e, outcome' = .error e)) (closing f outcome) s := by
  refine Program.Upholds.call P hs stable ?_ ?_
  · intro t o ht
    rcases handle_closeLog t f o with e | ⟨_, e⟩
    · rw [e]
      exact .refl t
    · rw [e]
      exact .refl t
  · intro t o ht
    rcases handle_closeLog t f o with e | ⟨x, e⟩
    · rw [e]
      exact ⟨outcome, rfl, ht, .inl rfl⟩
    · rw [e]
      exact ⟨.error x, rfl, ht, .inr ⟨x, rfl⟩⟩

lemma attempted_appended {attempted : Except PyErr Int × Option Int}
    (h : s.Attempted command pid attempted) (moved : s.Appended t) :
    t.Attempted command pid attempted := by
  rw [RunnerWorld.Attempted, moved.returned]
  exact ⟨h.1.appended moved, h.2⟩

/-- The attempt is over, and a log is closed. -/
lemma keeps_closing_attempted {f : LogFile} {outcome : Except PyErr Int} {signal : Option Int}
    (h : s.Attempted command pid (outcome, signal)) :
    Keeps command pid (fun r w => ∃ outcome', r = .ok outcome' ∧
      w.Attempted command pid (outcome', signal)) (closing f outcome) s := by
  refine (keeps_closing h fun t t' ht moved => attempted_appended ht moved).mono ?_
  rintro r w ⟨outcome', rfl, ⟨underway, number, code⟩, rfl | ⟨e, rfl⟩⟩
  · exact ⟨outcome', rfl, underway, number, code⟩
  · exact ⟨.error e, rfl, underway, number, nofun⟩

/-- The command is started with both logs there, and its return code is the one that is waited
    for. -/
lemma keeps_subprocessRun (h : s.Underway command pid none)
    (logs : ∀ f, (s.log f).isSome = true) :
    Keeps command pid (fun r w => ∃ completed, r = .ok completed ∧
      w.Underway command pid completed.toOption) (subprocessRun command) s := by
  refine Program.Upholds.call
    (fun w => w.Underway command pid none ∧ ∀ f, (w.log f).isSome = true) ⟨h, logs⟩ ?_ ?_ ?_
  · rintro t t' ⟨ht, there⟩ moved
    exact ⟨ht.appended moved, fun f => (moved.log f).isSome (there f)⟩
  · rintro t o ⟨ht, there⟩
    rcases handle_start t command o with e | ⟨_, e⟩
    · rw [e]
      exact (ht.start there).advances (fun _ => .refl _) ht.exit
    · rw [e]
      exact .refl t
  · rintro t o ⟨ht, there⟩
    rcases handle_start t command o with e | ⟨x, e⟩
    · rw [e]
      refine Program.Upholds.call
        (fun w => w.Underway command pid none ∧ w.started = some command)
        ⟨ht.start there, rfl⟩ ?_ ?_ ?_
      · rintro u u' ⟨hu, started⟩ moved
        exact ⟨hu.appended moved, moved.started.trans started⟩
      · rintro u o' ⟨hu, started⟩
        rcases handle_wait u o' with ⟨returncode, e⟩ | ⟨_, e⟩
        · rw [e]
          exact (hu.wait started returncode).advances (fun _ => .refl _) hu.exit
        · rw [e]
          exact .refl u
      · rintro u o' ⟨hu, started⟩
        rcases handle_wait u o' with ⟨returncode, e⟩ | ⟨x, e⟩
        · rw [e]
          exact ⟨.ok returncode, rfl, hu.wait started returncode⟩
        · rw [e]
          exact ⟨.error x, rfl, hu⟩
    · rw [e]
      exact ⟨.error x, rfl, ht⟩

/-- The job has not been started, and the attempt is given up. -/
lemma attempted_error (h : s.Underway command pid none) (e : PyErr) :
    s.Attempted command pid (.error e, none) := by
  refine ⟨?_, ?_, nofun⟩
  · rw [h.returned]
    exact h
  · rw [h.returned]
    rfl

lemma keeps_execute (h : s.Underway command pid none) (logs : ∀ f, (s.log f).isSome = true) :
    Keeps command pid (fun r w => ∃ attempted, r = .ok attempted ∧
      w.Attempted command pid attempted) (execute command) s := by
  refine keeps_bind (keeps_subprocessRun h logs) ?_
  rintro completed w underway
  cases completed with
  | ok returncode =>
    have code : w.returned = some returncode := underway.returned
    refine ⟨_, rfl, ?_, ?_, ?_⟩
    · rw [code]
      exact underway
    · rw [code]
      rfl
    · intro returncode' same
      cases same
      exact code
  | error x => exact ⟨_, rfl, attempted_error underway x⟩

lemma keeps_attempt (h : s.Underway command pid none) :
    Keeps command pid (fun r w => ∃ attempted, r = .ok attempted ∧
      w.Attempted command pid attempted) (attempt command) s := by
  refine Program.Upholds.call (RunnerWorld.Underway command pid none) h
    (fun t t' ht moved => ht.appended moved) ?_ ?_
  · intro t o ht
    rcases handle_openLog t .out o with e | ⟨_, e⟩
    · rw [e]
      exact (t.append_appended [] .out).advances
    · rw [e]
      exact .refl t
  · intro t o ht
    rcases handle_openLog t .out o with e | ⟨x, e⟩
    · rw [e]
      refine Program.Upholds.call
        (fun w => w.Underway command pid none ∧ (w.log .out).isSome = true)
        ⟨ht.appended (t.append_appended [] .out), rfl⟩ ?_ ?_ ?_
      · rintro u u' ⟨hu, there⟩ moved
        exact ⟨hu.appended moved, (moved.log .out).isSome there⟩
      · rintro u o' ⟨hu, there⟩
        rcases handle_openLog u .err o' with e | ⟨_, e⟩
        · rw [e]
          exact (u.append_appended [] .err).advances
        · rw [e]
          exact .refl u
      · rintro u o' ⟨hu, there⟩
        rcases handle_openLog u .err o' with e | ⟨x, e⟩
        · rw [e]
          have logs : ∀ f, ((u.append [] .err).log f).isSome = true := by
            intro f
            cases f with
            | out => exact there
            | err => rfl
          refine keeps_bind (keeps_execute (hu.appended (u.append_appended [] .err)) logs) ?_
          rintro ⟨completed, signal⟩ w attempted
          refine keeps_bind (keeps_closing_attempted attempted) ?_
          intro outcome w' attempted
          refine keeps_bind (keeps_closing_attempted attempted) ?_
          exact fun outcome w'' attempted => ⟨_, rfl, attempted⟩
        · rw [e]
          refine keeps_bind (keeps_closing_attempted (attempted_error hu x)) ?_
          exact fun outcome w attempted => ⟨_, rfl, attempted⟩
    · rw [e]
      exact ⟨_, rfl, attempted_error ht x⟩

lemma settled_appended {exitCode : Int} {signal : Option Int}
    (h : s.Settled command pid exitCode signal) (moved : s.Appended t) :
    t.Settled command pid exitCode signal := by
  obtain ⟨underway, number, meaning⟩ := h
  rw [RunnerWorld.Settled, moved.returned]
  refine ⟨underway.appended moved, number, meaning.imp_right ?_⟩
  rintro ⟨code, e, text⟩
  exact ⟨code, e, (moved.log .err).still_contains text⟩

/-- The exit code is 127 only after the failure stands in `run.error`. -/
lemma keeps_reportFailure {e : PyErr} {signal : Option Int}
    (h : s.Attempted command pid (.error e, signal)) :
    Keeps command pid (fun r w => ∀ exitCode, r = .ok exitCode →
      w.Settled command pid exitCode signal) (reportFailure e) s := by
  refine Program.Upholds.call (RunnerWorld.Attempted command pid (.error e, signal)) h
    (fun t t' ht moved => attempted_appended ht moved) ?_ ?_
  · intro t o ht
    rcases handle_openLog t .err o with answer | ⟨_, answer⟩
    · rw [answer]
      exact (t.append_appended [] .err).advances
    · rw [answer]
      exact .refl t
  · intro t o ht
    rcases handle_openLog t .err o with answer | ⟨x, answer⟩
    · rw [answer]
      refine Program.Upholds.call (RunnerWorld.Attempted command pid (.error e, signal))
        (attempted_appended ht (t.append_appended [] .err))
        (fun u u' hu moved => attempted_appended hu moved) ?_ ?_
      · intro u o' hu
        rcases handle_write u .err (failureText e) o' with answer | ⟨part, _, answer⟩
        · rw [answer]
          exact (u.append_appended _ .err).advances
        · rw [answer]
          exact (u.append_appended part .err).advances
      · intro u o' hu
        obtain ⟨written, data, answer, reported⟩ : ∃ written data,
            streamingMachine.handle u (.write .err (failureText e)) o' =
              (u.append data .err, written) ∧
            ((written : Except PyErr Unit) = .ok () → (u.append data .err).Reported) := by
          rcases handle_write u .err (failureText e) o' with answer | ⟨part, x, answer⟩
          · refine ⟨_, _, answer, fun _ => ⟨e, ?_⟩⟩
            exact (List.suffix_append _ _).isInfix
          · exact ⟨_, part, answer, nofun⟩
        rw [answer]
        have after := attempted_appended hu (u.append_appended data .err)
        refine keeps_bind (keeps_closing (P := fun w =>
          w.Attempted command pid (.error e, signal) ∧
            ((written : Except PyErr Unit) = .ok () → w.Reported)) ⟨after, reported⟩ ?_) ?_
        · rintro v v' ⟨hv, said⟩ moved
          refine ⟨attempted_appended hv moved, fun ok => ?_⟩
          obtain ⟨x, text⟩ := said ok
          exact ⟨x, (moved.log .err).still_contains text⟩
        · rintro closed w ⟨⟨⟨underway, number, _⟩, said⟩, same⟩
          refine Program.Upholds.check ?_ ?_
          · intro done ok exitCode code
            cases code
            refine ⟨underway, number, .inr ⟨rfl, said ?_⟩⟩
            rcases same with same | ⟨x, same⟩
            · exact same.symm.trans ok
            · rw [same] at ok
              cases ok
          · rintro x _ exitCode code
            cases code
    · rw [answer]
      intro exitCode code
      cases code

lemma keeps_settle {outcome : Except PyErr Int} {signal : Option Int}
    (h : s.Attempted command pid (outcome, signal)) :
    Keeps command pid (fun r w => ∀ exitCode, r = .ok exitCode →
      w.Settled command pid exitCode signal) (settle outcome) s := by
  cases outcome with
  | ok returncode =>
    intro exitCode code
    cases code
    exact ⟨h.1, h.2.1, .inl (h.2.2 returncode rfl)⟩
  | error e => exact keeps_reportFailure h

/-- A record with a time stamp is put in place where the guarantee allows it. -/
lemma keeps_record {α : Type} {f : RunFile} {data : String → JsonObject} {P : RunnerWorld → Prop}
    {Q : Except PyErr α → RunnerWorld → Prop} {next : Running α} (h : P s)
    (stable : ∀ t t', P t → t.Appended t' → P t')
    (allowed : ∀ t time, P t → t.Advances command pid (t.put (data time) f))
    (continues : ∀ t time, P t → Keeps command pid Q next (t.put (data time) f))
    (raises : ∀ x t, Q (.error x) t) :
    Keeps command pid Q (do
      let time ← Running.utcIso
      let saved ← Running.atomicJson f (data time)
      Program.check saved
      next) s := by
  have saves : ∀ (time : String) t, P t → Keeps command pid Q (do
      let saved ← Running.atomicJson f (data time)
      Program.check saved
      next) t := by
    intro time t ht
    refine Program.Upholds.call P ht stable ?_ ?_
    · intro u o hu
      rcases handle_atomicJson u f (data time) o with answer | ⟨w, x, answer, rfl | rfl⟩
      · rw [answer]
        exact allowed u time hu
      · rw [answer]
        exact .refl w
      · rw [answer]
        exact allowed u time hu
    · intro u o hu
      rcases handle_atomicJson u f (data time) o with answer | ⟨w, x, answer, _⟩
      · rw [answer]
        exact continues u time hu
      · rw [answer]
        exact raises x w
  refine Program.Upholds.call P h stable (fun t _ _ => .refl t) ?_
  exact fun t o ht => saves _ t ht

/-- The records of the start say nothing yet about a command. -/
lemma fresh_put {f : RunFile} {data : JsonObject} (h : s.Fresh) (early : f ≠ .exit) :
    (s.put data f).Fresh := by
  cases f with
  | manifest => exact ⟨h.exit, h.started, h.returned⟩
  | runnerPid => exact ⟨h.exit, h.started, h.returned⟩
  | exit => exact absurd rfl early

lemma log_put (w : RunnerWorld) (data : JsonObject) (f : RunFile) (f' : LogFile) :
    (w.put data f).log f' = w.log f' := by
  cases f <;> cases f' <;> rfl

lemma fresh_advances {f : RunFile} {data : JsonObject} (h : s.Fresh) (early : f ≠ .exit) :
    s.Advances command pid (s.put data f) := by
  refine ⟨fun f' => ?_, .inr h.exit, fun _ => (fresh_put h early).told⟩
  rw [log_put]
  exact .refl _

lemma fresh_appended (h : s.Fresh) (moved : s.Appended t) : t.Fresh :=
  ⟨moved.exit.trans h.exit, moved.started.trans h.started, moved.returned.trans h.returned⟩

/-- The exit record is truthful when it is put in place. -/
lemma settled_put {exitCode : Int} {signal : Option Int} (finishedAt : String)
    (h : s.Settled command pid exitCode signal) :
    (s.put (exitRecord exitCode finishedAt signal) .exit).Told command pid := by
  obtain ⟨underway, number, meaning⟩ := h
  refine ⟨underway.told.started, underway.told.returned, fun data written => ?_⟩
  cases written
  refine ⟨underway.recorded, exitCode, finishedAt, ?_, meaning⟩
  rw [number]
  rfl

/-- The whole runner. -/
lemma keeps_run (h : s.Fresh) :
    Keeps command pid (fun r w => ∀ code, r = .ok code →
      ∃ data, w.exit = some data ∧ exitCodeOf data = .ok code) (run pid command) s := by
  refine Program.Upholds.call RunnerWorld.Fresh h (fun t t' => fresh_appended) ?_ ?_
  · intro t o ht
    rcases handle_makeWorkdir t o with answer | ⟨_, answer⟩
    · rw [answer]
      exact .refl t
    · rw [answer]
      exact .refl t
  intro t o ht
  refine Program.Upholds.check (fun _ _ => ?_) (fun x _ => nofun)
  refine keeps_record ht (fun t t' => fresh_appended) (fun t _ ht => fresh_advances ht nofun) ?_
    (fun x _ => nofun)
  intro t startedAt ht
  refine keeps_record (P := fun w => w.Fresh ∧ ∃ startedAt, w.manifest =
      some (manifest command startedAt)) ⟨fresh_put ht nofun, startedAt, rfl⟩ ?_
    (fun t _ ht => fresh_advances ht.1 nofun) ?_ (fun x _ => nofun)
  · rintro t t' ⟨fresh, startedAt, same⟩ moved
    exact ⟨fresh_appended fresh moved, startedAt, moved.manifest.trans same⟩
  rintro t startedAt ⟨fresh, recorded⟩
  have begun : (t.put (pidRecord pid startedAt) .runnerPid).Fresh := fresh_put fresh nofun
  have underway : (t.put (pidRecord pid startedAt) .runnerPid).Underway command pid none :=
    ⟨begun.exit, ⟨recorded, startedAt, rfl⟩, begun.returned, begun.told⟩
  refine keeps_bind (keeps_attempt underway) ?_
  rintro ⟨outcome, signal⟩ t attempted
  refine (keeps_settle attempted).bind ?_ (fun x _ _ => nofun)
  intro exitCode t settled
  refine keeps_record (settled exitCode rfl) (fun t t' => settled_appended) ?_ ?_ (fun x _ => nofun)
  · intro t finishedAt ht
    refine ⟨fun f => ?_, .inr ht.1.exit, fun _ => settled_put finishedAt ht⟩
    rw [log_put]
    exact .refl _
  · intro t finishedAt _ code same
    cases same
    exact ⟨_, rfl, rfl⟩

end Runner

end Parts

/-! ## The runner of a poll -/

/-- A process that runs the runner. -/
abbrev RunnerProcess := Process RunnerWorld RunnerEffect RunnerEffect.Answer PyErr Int

/-- The job of such a process. -/
def Runner.view (pid : Int) (submission : SubmissionRecord) (c : RunnerProcess) : RunWorld :=
  c.world.view pid submission c.present

lemma LogGrown.drifts_out {w : RunWorld} {out : Option (List UInt8)} (h : LogGrown w.out out) :
    pollMachine.Drifts w { w with out := out } := by
  rcases h with rfl | ⟨more, rfl⟩
  · exact .refl
  · exact .single ⟨.append .out more, rfl⟩

lemma LogGrown.drifts_err {w : RunWorld} {err : Option (List UInt8)} (h : LogGrown w.err err) :
    pollMachine.Drifts w { w with err := err } := by
  rcases h with rfl | ⟨more, rfl⟩
  · exact .refl
  · exact .single ⟨.append .err more, rfl⟩

/-- An exit record that is seen to appear. -/
lemma RunWorld.drifts_finish {w : RunWorld} (present : w.present = true) (unwritten : w.exit = none)
    (exit : Option Int) : pollMachine.Drifts w { w with exit := exit } := by
  cases exit with
  | none =>
    rw [← unwritten]
    exact .refl
  | some exitCode =>
    refine .single ⟨.finish exitCode, ?_⟩
    simp only [pollMachine, runnerStep, present, unwritten, and_self, if_true]

section Seen

variable {command : List String} {pid : Int} {submission : SubmissionRecord}

/-- The logs are seen to grow. -/
lemma RunnerWorld.view_grown {s t : RunnerWorld} (log : ∀ f, LogGrown (s.log f) (t.log f))
    (exit : t.exit = s.exit) (present : Bool) :
    pollMachine.Drifts (s.view pid submission present) (t.view pid submission present) := by
  have out : pollMachine.Drifts (s.view pid submission present)
      { s.view pid submission present with out := t.out } :=
    LogGrown.drifts_out (log .out)
  have err : pollMachine.Drifts { s.view pid submission present with out := t.out }
      { s.view pid submission present with out := t.out, err := t.err } :=
    LogGrown.drifts_err (w := { s.view pid submission present with out := t.out }) (log .err)
  have both := out.trans err
  simp only [view, ← exit] at both ⊢
  exact both

/-- A step of the runner is seen as steps of the runner of a poll, as long as it is there. -/
lemma RunnerWorld.Advances.drifts {s t : RunnerWorld} (h : s.Advances command pid t) :
    pollMachine.Drifts (s.view pid submission true) (t.view pid submission true) := by
  rcases h.exit with same | unwritten
  · exact RunnerWorld.view_grown h.log same true
  · have grown : pollMachine.Drifts (s.view pid submission true)
        ({ t with exit := none }.view pid submission true) :=
      RunnerWorld.view_grown (t := { t with exit := none }) h.log unwritten.symm true
    exact grown.trans (RunWorld.drifts_finish rfl rfl _)

/-- Every event in the life of the process. -/
lemma Runner.moves_drifts {c c' : RunnerProcess}
    (moved : c.Moves RunnerWorld.Appended (RunnerWorld.Advances command pid) c') :
    pollMachine.Drifts (view pid submission c) (view pid submission c') := by
  obtain ⟨world, rest, ended, shown⟩ := c
  obtain ⟨world', rest', ended', shown'⟩ := c'
  cases moved with
  | own present present' guards =>
    cases present
    cases present'
    exact guards.drifts
  | other same appended =>
    cases same
    exact RunnerWorld.view_grown appended.log appended.exit shown
  | killed same still =>
    cases same
    cases still
    exact .refl
  | reaped present gone still =>
    cases present
    cases gone
    cases still
    exact .single ⟨.disappear, rfl⟩

/-- Nothing in the life of the process makes the records lie. -/
lemma Runner.moves_told {c c' : RunnerProcess}
    (moved : c.Moves RunnerWorld.Appended (RunnerWorld.Advances command pid) c')
    (h : c.world.Told command pid) : c'.world.Told command pid := by
  cases moved with
  | own _ _ guards => exact guards.told h
  | other _ appended => exact h.appended appended
  | killed _ still =>
    rw [still]
    exact h
  | reaped _ _ still =>
    rw [still]
    exact h

/-- What is known of a process at every moment of its life. -/
structure Runner.Lives (command : List String) (pid : Int) (c : RunnerProcess) : Prop where
  told : c.world.Told command pid
  holds : c.Holds streamingMachine RunnerWorld.Appended (RunnerWorld.Advances command pid)
    fun r w => ∀ code, r = .ok code → ∃ data, w.exit = some data ∧ exitCodeOf data = .ok code

lemma Runner.lives_spawn {w : RunnerWorld} (fresh : w.Fresh) :
    Lives command pid (.spawn w (run pid command)) :=
  ⟨fresh.told, .spawn (keeps_run fresh)⟩

/-- From any moment of its life to any later one. -/
lemma Runner.Lives.run (submission : SubmissionRecord) {c c' : RunnerProcess}
    (h : Lives command pid c) {events : List (LifeEvent RunnerSurroundings CommandStep)}
    (rn : streamingMachine.process.run c events = some c') :
    Lives command pid c' ∧ pollMachine.Drifts (view pid submission c) (view pid submission c') := by
  obtain ⟨holds, moves⟩ := Machine.process_run streamingMachine_appended
    (fun r s t written moved => by
      rw [moved.exit]
      exact written) rn h.holds
  refine ⟨⟨?_, holds⟩, ?_⟩
  · clear rn holds
    induction moves with
    | refl => exact h.told
    | tail _ moved ih => exact moves_told moved ih
  · clear rn holds
    induction moves with
    | refl => exact .refl
    | tail _ moved ih => exact ih.trans (moves_drifts moved)

/-- The first runner of a work directory is the runner of a poll if its command writes through its
    streams only: between any two moments of its life, whichever of its calls fail and wherever it
    is killed, its job goes on by steps of that runner. Its records tell the truth at every moment,
    and when it has ended with an exit code, that code is on record. -/
theorem runner_refines (submission : SubmissionRecord) {w : RunnerWorld} (fresh : w.Fresh)
    {c c' : RunnerProcess}
    {before events : List (LifeEvent RunnerSurroundings CommandStep)}
    (rn : streamingMachine.process.run (.spawn w (Runner.run pid command)) before = some c)
    (rn' : streamingMachine.process.run c events = some c') :
    pollMachine.Drifts (Runner.view pid submission c) (Runner.view pid submission c') ∧
      c'.world.Told command pid ∧
      ∀ exitCode, c'.ended = some (.ok exitCode) →
        (Runner.view pid submission c').exit = some exitCode := by
  obtain ⟨lives, _⟩ := (Runner.lives_spawn fresh).run submission rn
  obtain ⟨⟨told, holds⟩, drifts⟩ := lives.run submission rn'
  refine ⟨drifts, told, fun exitCode ended => ?_⟩
  obtain ⟨data, written, code⟩ := holds.result ended exitCode rfl
  rw [Runner.view, RunnerWorld.view, written, Option.bind_some, code]
  rfl

end Seen

/-- The record of a job whose runner is process 1. -/
def launchedRecord : SubmissionRecord :=
  { submissionKey := "s", externalJobId := "local-1", workdir := "/w", status := .launched,
    pid := some 1 }

/-- The life of a runner whose command writes one byte and returns 0. -/
def finishedLife : List (LifeEvent RunnerSurroundings CommandStep) :=
  List.replicate 8 (.perform {}) ++ [.drift (.stream .out [0x2E])] ++ List.replicate 5 (.perform {})

/-- The process at its end. -/
def finishedRunner : RunnerProcess where
  world :=
    { out := some [0x2E], err := some [], manifest := some (Runner.manifest ["train"] ""),
      runnerPid := some (Runner.pidRecord 1 ""), exit := some (Runner.exitRecord 0 "" none),
      started := some ["train"], returned := some 0 }
  rest := none
  ended := some (.ok 0)

/-- Its job has gone on from the start to the exit record, which says 0. -/
theorem runner_refines_finished :
    ∃ c, streamingMachine.process.run (.spawn {} (Runner.run 1 ["train"])) finishedLife = some c ∧
      pollMachine.Drifts (RunnerWorld.view {} 1 launchedRecord true)
        (Runner.view 1 launchedRecord c) ∧
      c.world.Told ["train"] 1 ∧ c.ended = some (.ok 0) ∧
      (Runner.view 1 launchedRecord c).exit = some 0 := by
  have start : streamingMachine.process.run (.spawn {} (Runner.run 1 ["train"])) [] =
      some (.spawn {} (Runner.run 1 ["train"])) := rfl
  have life : streamingMachine.process.run (.spawn {} (Runner.run 1 ["train"])) finishedLife =
      some finishedRunner := rfl
  obtain ⟨drifts, told, ended⟩ := runner_refines launchedRecord ⟨rfl, rfl, rfl⟩ start life
  exact ⟨_, life, drifts, told, rfl, ended 0 rfl⟩

end ResearchController
