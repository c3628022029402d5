import ResearchController.Acceptance.ExitCodes
import ResearchController.Observation.Deltas
import ResearchController.Observation.Lines

/-!
# Progress and the schedule of polls

`_telemetry` merges the telemetry lines of the bytes that a poll has read, key by key;
`_record_observation` replaces the summary of the job by the result, unless it is empty. So the
summary is that of the last poll that saw any telemetry at all. A line that a poll boundary cuts is
seen as two fragments, and a line that `json.loads` rejects with anything but a `JSONDecodeError`
makes the whole poll raise: its bytes are read again by the next one.

`progress_schedule_free_iff` says for which logs and schedules the summary nevertheless is that of a
single poll of the complete log. The last poll that saw telemetry must have seen every key that the
log carries, and what it did not see of the log, or saw in fragments, must not matter
(`Slice.Keeps`).
-/

namespace ResearchController
open Lib

/-! ## Telemetry, line by line -/

/-- Whether `_telemetry` gets past a line. -/
def readable (loads : String → Except PyErr Json) (line : String) : Bool :=
  match loads line with
  | .error (.jsonDecodeError _) => true
  | .error _ => false
  | .ok _ => true

/-- The telemetry of a line: the JSON object it holds, if that has one of the keys. -/
def telemetryOf (loads : String → Except PyErr Json) (line : String) : Option JsonObject :=
  match loads line with
  | .ok (.dict value) =>
    if telemetryKeys.any fun key => (JsonObject.get value key).isSome then some value else none
  | _ => none

/-- The value that a line gives to a key; of two items with one key the later counts. -/
def carried (loads : String → Except PyErr Json) (key : String) (line : String) : Option Json :=
  (telemetryOf loads line).bind fun value => JsonObject.get value.reverse key

/-- The value that the last of some lines to carry a key gives to it. -/
def lastCarried (loads : String → Except PyErr Json) (key : String) : List String → Option Json
  | [] => none
  | line :: rest => (lastCarried loads key rest).or (carried loads key line)

/-- Some of the lines gives a value to a key. -/
def Carries (loads : String → Except PyErr Json) (key : String) (lines : List String) : Prop :=
  ∃ line ∈ lines, carried loads key line ≠ none

/-- The latest telemetry after one more line. -/
def telemetryStep (loads : String → Except PyErr Json) (latest : JsonObject) (line : String) :
    JsonObject :=
  match telemetryOf loads line with
  | some value => latest.update value
  | none => latest

/-- Some of the lines are telemetry. -/
def HasTelemetry (loads : String → Except PyErr Json) (lines : List String) : Prop :=
  ∃ line ∈ lines, telemetryOf loads line ≠ none

lemma JsonObject.get_update (latest value : JsonObject) (key : String) :
    (latest.update value).get key = (JsonObject.get value.reverse key).or (latest.get key) := by
  induction value generalizing latest with
  | nil => rfl
  | cons item rest ih =>
    have step : latest.update (item :: rest) = (latest.set item.1 item.2).update rest := rfl
    have last : JsonObject.get (rest.reverse ++ [item]) key =
        (JsonObject.get rest.reverse key).or (if item.1 = key then some item.2 else none) :=
      Dict.getItems_append rest.reverse [item] key
    rw [step, ih, JsonObject.get_set, List.reverse_cons, last, Option.or_assoc]
    congr 1
    by_cases same : key = item.1
    · rw [if_pos same, if_pos same.symm]
      rfl
    · rw [if_neg same, if_neg (Ne.symm same)]
      rfl

/-- An update with some item leaves something. -/
lemma JsonObject.update_isEmpty (latest value : JsonObject) :
    (latest.update value).isEmpty = (latest.isEmpty && value.isEmpty) := by
  induction value generalizing latest with
  | nil => exact (Bool.and_true _).symm
  | cons item rest ih =>
    have step : latest.update (item :: rest) = (latest.set item.1 item.2).update rest := rfl
    have stored : (latest.set item.1 item.2).isEmpty = false := by
      rw [JsonObject.set]
      cases latest with
      | nil => rfl
      | cons head others =>
        rw [Dict.setItems]
        split <;> rfl
    rw [step, ih, stored, List.isEmpty_cons, Bool.and_false, Bool.false_and]

section

variable {loads : String → Except PyErr Json}

/-- The effect of a line that `_telemetry` gets past. -/
lemma telemetryLine_readable {line : String} (fine : readable loads line = true)
    (latest : JsonObject) :
    telemetryLine loads latest line = .ok (telemetryStep loads latest line) := by
  cases parsed : loads line with
  | error e =>
    simp only [telemetryLine, telemetryStep, telemetryOf, parsed]
    cases e with
    | jsonDecodeError msg => rfl
    | _ =>
      rw [readable, parsed] at fine
      cases fine
  | ok value =>
    cases value with
    | dict value =>
      simp only [telemetryLine, telemetryStep, telemetryOf, parsed]
      cases telemetryKeys.any fun key => (JsonObject.get value key).isSome <;> rfl
    | _ => simp only [telemetryLine, telemetryStep, telemetryOf, parsed]

/-- A line that it does not get past. -/
lemma telemetryLine_unreadable {line : String} (bad : readable loads line = false)
    (latest : JsonObject) : ∃ e, telemetryLine loads latest line = .error e := by
  cases parsed : loads line with
  | error e =>
    simp only [telemetryLine, parsed]
    cases e with
    | jsonDecodeError msg =>
      rw [readable, parsed] at bad
      cases bad
    | _ => exact ⟨_, rfl⟩
  | ok value =>
    rw [readable, parsed] at bad
    cases bad

lemma telemetryLines_readable {lines : List String}
    (fine : ∀ line ∈ lines, readable loads line = true) (latest : JsonObject) :
    lines.foldlM (telemetryLine loads) latest = .ok (lines.foldl (telemetryStep loads) latest) := by
  induction lines generalizing latest with
  | nil => rfl
  | cons line rest ih =>
    obtain ⟨first, others⟩ := List.forall_mem_cons.mp fine
    exact foldlM_cons_ok.mpr ⟨_, telemetryLine_readable first latest, ih others _⟩

lemma telemetryLines_unreadable {lines : List String}
    (bad : ¬ ∀ line ∈ lines, readable loads line = true) (latest : JsonObject) :
    ∃ e, lines.foldlM (telemetryLine loads) latest = .error e := by
  induction lines generalizing latest with
  | nil =>
    exfalso
    apply bad
    intro line mem
    cases mem
  | cons line rest ih =>
    rw [List.foldlM_cons]
    cases first : readable loads line with
    | false =>
      obtain ⟨e, raised⟩ := telemetryLine_unreadable first latest
      exact ⟨e, by rw [raised]; rfl⟩
    | true =>
      rw [telemetryLine_readable first]
      apply ih
      intro others
      exact bad (List.forall_mem_cons.mpr ⟨first, others⟩)

/-- A telemetry line has an item. -/
lemma telemetryOf_nonempty {line : String} {value : JsonObject}
    (h : telemetryOf loads line = some value) : value.isEmpty = false := by
  unfold telemetryOf at h
  split at h
  · split at h
    · rename_i present
      cases h
      obtain ⟨key, _, found⟩ := List.any_eq_true.mp present
      cases value with
      | nil => cases found
      | cons _ _ => rfl
    · cases h
  · cases h

/-- What the lines of a chunk leave under a key. -/
lemma get_telemetryLines (key : String) (lines : List String) (latest : JsonObject) :
    (lines.foldl (telemetryStep loads) latest).get key =
      (lastCarried loads key lines).or (latest.get key) := by
  induction lines generalizing latest with
  | nil => rfl
  | cons line rest ih =>
    have one : (telemetryStep loads latest line).get key =
        (carried loads key line).or (latest.get key) := by
      rw [telemetryStep, carried]
      cases telemetryOf loads line with
      | none => rfl
      | some value => exact JsonObject.get_update latest value key
    rw [List.foldl_cons, ih, one, lastCarried, Option.or_assoc]

/-- The lines of a chunk leave something exactly if one of them is telemetry. -/
lemma telemetryLines_isEmpty (lines : List String) (latest : JsonObject) :
    (lines.foldl (telemetryStep loads) latest).isEmpty = true ↔
      latest.isEmpty = true ∧ ¬ HasTelemetry loads lines := by
  induction lines generalizing latest with
  | nil =>
    refine ⟨fun h => ⟨h, ?_⟩, fun h => h.1⟩
    rintro ⟨_, mem, _⟩
    cases mem
  | cons line rest ih =>
    rw [List.foldl_cons, ih, telemetryStep, HasTelemetry, HasTelemetry,
      List.exists_mem_cons_iff]
    cases found : telemetryOf loads line with
    | none => simp
    | some value =>
      simp [JsonObject.update_isEmpty, telemetryOf_nonempty found]

lemma lastCarried_append (key : String) (xs ys : List String) :
    lastCarried loads key (xs ++ ys) =
      (lastCarried loads key ys).or (lastCarried loads key xs) := by
  induction xs with
  | nil => exact Option.or_none.symm
  | cons line rest ih => rw [List.cons_append, lastCarried, ih, lastCarried, Option.or_assoc]

/-- A key has a last value exactly if some line carries it. -/
lemma lastCarried_eq_none_iff {key : String} {lines : List String} :
    lastCarried loads key lines = none ↔ ¬ Carries loads key lines := by
  induction lines with
  | nil =>
    refine ⟨fun _ => ?_, fun _ => rfl⟩
    rintro ⟨_, mem, _⟩
    cases mem
  | cons line rest ih =>
    rw [lastCarried, Option.or_eq_none_iff, ih, Carries, Carries, List.exists_mem_cons_iff, not_or,
      not_not, and_comm]

end

/-- The poll that reads these bytes gets past all of their lines. -/
def Readable (loads : String → Except PyErr Json) (data : List UInt8) : Prop :=
  ∀ line ∈ pieces data, readable loads line = true

instance (loads : String → Except PyErr Json) (data : List UInt8) :
    Decidable (Readable loads data) :=
  inferInstanceAs (Decidable (∀ line ∈ pieces data, readable loads line = true))

/-- The telemetry of the bytes that a poll has read from the log. -/
def chunkTelemetry (loads : String → Except PyErr Json) (chunk : List UInt8) : JsonObject :=
  (pieces chunk).foldl (telemetryStep loads) []

lemma telemetry_eq (loads : String → Except PyErr Json) (chunk : List UInt8) :
    telemetry loads [decodeReplace chunk, decodeReplace []] =
      (pieces chunk).foldlM (telemetryLine loads) [] := by
  have other : ∀ latest, telemetryChunk loads latest (decodeReplace []) = .ok latest :=
    fun _ => rfl
  rw [telemetry, List.foldlM_cons]
  simp only [List.foldlM_cons, List.foldlM_nil, other]
  exact bind_pure _

lemma telemetry_readable {loads : String → Except PyErr Json} {chunk : List UInt8}
    (fine : Readable loads chunk) :
    telemetry loads [decodeReplace chunk, decodeReplace []] = .ok (chunkTelemetry loads chunk) := by
  rw [telemetry_eq]
  exact telemetryLines_readable fine []

lemma telemetry_unreadable {loads : String → Except PyErr Json} {chunk : List UInt8}
    (bad : ¬ Readable loads chunk) :
    ∃ e, telemetry loads [decodeReplace chunk, decodeReplace []] = .error e := by
  rw [telemetry_eq]
  exact telemetryLines_unreadable bad []

/-! ## The summary of a job -/

/-- The log columns of a row. -/
structure ComputeJob.SameLogs (j j' : ComputeJob) : Prop where
  cursor : j'.logCursorJson = j.logCursorJson
  summary : j'.runtimeSummaryJson = j.runtimeSummaryJson

lemma ComputeJob.SameLogs.trans {j j' j'' : ComputeJob} (same : j.SameLogs j')
    (same' : j'.SameLogs j'') : j.SameLogs j'' :=
  ⟨same'.cursor.trans same.cursor, same'.summary.trans same.summary⟩

lemma ComputeJob.sameLogs_stepped (j : ComputeJob) (s : ComputeExecutionStatus) (now : Datetime) :
    j.SameLogs (j.stepped s now) := by
  unfold stepped
  split
  · exact ⟨rfl, rfl⟩
  · unfold moved
    cases s <;> exact ⟨rfl, rfl⟩

lemma ComputeJob.sameLogs_started (j : ComputeJob) (s : ComputeExecutionStatus) (now : Datetime) :
    j.SameLogs (j.started s now) := by
  unfold started
  split
  · exact j.sameLogs_stepped .running now
  · exact ⟨rfl, rfl⟩

lemma ComputeJob.sameLogs_seen (j : ComputeJob) (status : ObservationStatus) :
    j.SameLogs (j.seen status) := by
  unfold seen
  split <;> exact ⟨rfl, rfl⟩

/-- What a recorded observation leaves in the log columns. -/
lemma ComputeJob.recorded_logs {j : ComputeJob} (pollable : j.executionStatus.isPollable = true)
    (obs : JobObservation) (pollInterval : Int) (now : Datetime) :
    (j.recorded obs pollInterval now).logCursorJson = obs.logCursor ∧
      (j.recorded obs pollInterval now).runtimeSummaryJson =
        if obs.progress.isEmpty then j.runtimeSummaryJson else obs.progress := by
  have same : ((j.seen obs.observationStatus).polled obs pollInterval).SameLogs
      (j.recorded obs pollInterval now) := by
    unfold recorded
    rw [if_neg (by rw [pollable]; decide)]
    simp only
    split
    · exact ⟨rfl, rfl⟩
    · split
      · split
        · exact sameLogs_stepped _ _ _
        · exact ⟨rfl, rfl⟩
      · split
        · have decided : ∀ j : ComputeJob, j.SameLogs (j.decided obs) := fun _ => ⟨rfl, rfl⟩
          exact ((sameLogs_started _ _ _).trans (decided _)).trans (sameLogs_stepped _ _ _)
        · exact ⟨rfl, rfl⟩
  refine ⟨same.cursor, ?_⟩
  rw [same.summary, ← (j.sameLogs_seen obs.observationStatus).summary]
  rfl

/-- A job is polled while its log grows: each poll meets a number of bytes of the log, with nothing
    appended during the poll and nothing in the other log. Its observation is recorded, or the
    exception that it raises. -/
inductive Db.PolledAt (loads : String → Except PyErr Json) (k : String) (log : List UInt8) :
    Db → List Nat → Db → Prop where
  | done {db} :
    PolledAt loads k log db [] db
  | poll {db db1 db2 job w w' trace obs pollInterval now n ns} :
    db.jobs.get k = some job →
    job.executionStatus = .running →
    pollMachine.Interleaved (poll loads (job.view k)) w trace (.ok obs) w' →
    w.text .out = log.take n → w'.text .out = log.take n →
    w'.text .err = [] →
    db.recordObservation obs pollInterval now = .ok db1 →
    PolledAt loads k log db1 ns db2 →
    PolledAt loads k log db (n :: ns) db2
  | raised {db db1 db2 job w w' trace e pollInterval now n ns} :
    db.jobs.get k = some job →
    job.executionStatus = .running →
    pollMachine.Interleaved (poll loads (job.view k)) w trace (.error e) w' →
    w.text .out = log.take n → w'.text .out = log.take n →
    w'.text .err = [] →
    db.pollErrorCommit k e.typeName pollInterval now = .ok db1 →
    PolledAt loads k log db1 ns db2 →
    PolledAt loads k log db (n :: ns) db2

/-- The slices of a log that polls at some cuts see, from a start on. A poll that raises does not
    see its slice, and the next one starts where it did. -/
def seen (loads : String → Except PyErr Json) (log : List UInt8) : Nat → List Nat → List Slice
  | _, [] => []
  | start, n :: ns =>
    if Readable loads ((Slice.mk start n).bytes log) then
      Slice.mk start n :: seen loads log n ns
    else
      seen loads log start ns

/-- The summary of a job after a slice. -/
def summarised (loads : String → Except PyErr Json) (log : List UInt8) (summary : JsonObject)
    (s : Slice) : JsonObject :=
  if (chunkTelemetry loads (s.bytes log)).isEmpty then summary
  else chunkTelemetry loads (s.bytes log)

/-- The bytes that a poll has read of a log that does not grow during it. -/
lemma rangesRead_still {f : LogFile} {offset : Nat} {w w1 w2 w' : RunWorld} {next : Int}
    {reads : List (PollEffect × RunWorld)} (drifts : pollMachine.Drifts w w1)
    (dr : DeltaReads f offset w1 reads next w2) (later : pollMachine.Drifts w2 w')
    {text : List UInt8} (within : offset ≤ text.length) (before : w.text f = text)
    (after : w'.text f = text) : rangesRead f reads = text.drop offset := by
  have none : ∀ x ∈ ([] : List (PollEffect × RunWorld)), x.1.touches f = false := by
    intro x mem
    cases mem
  obtain ⟨counted, read, _, above, more, inside, delivered, _⟩ :=
    dr.delivers_among drifts later (by rw [before]; exact within) none none
  rw [before] at above
  rw [after] at inside
  rw [List.nil_append, List.append_nil, after] at delivered
  rw [delivered, List.take_of_length_le (above.trans more)]

/-- A poll that raises has met a line that it does not get past. -/
lemma poll_raises_still {loads : String → Except PyErr Json} {job : ComputeJobView}
    {w w' : RunWorld} {trace : List (PollEffect × RunWorld)} {e : PyErr} {start : Nat}
    (call : pollMachine.Interleaved (poll loads job) w trace (.error e) w')
    (out : cursorOffset job.logCursor .out = .ok start)
    (err : cursorOffset job.logCursor .err = .ok 0) {text : List UInt8}
    (within : start ≤ text.length) (before : w.text .out = text) (after : w'.text .out = text)
    (nothing : w'.text .err = []) : ¬ Readable loads (text.drop start) := by
  intro fine
  obtain ⟨w1, w2, n1, n2, outReads, errReads, drifts1, reads1, reads2, raised⟩ :=
    poll_raises call out err
  have range := rangesRead_still drifts1 reads1 reads2.drifts within before after
  have none : rangesRead .err errReads = [] := by
    have early : w2.text .err = [] := by
      have grown := pollMachine_grows reads2.drifts .err
      rw [nothing] at grown
      exact List.prefix_nil.mp grown
    exact rangesRead_still .refl reads2 .refl (show 0 ≤ _ from Nat.zero_le _) early nothing
  rw [range, none, telemetry_readable fine] at raised
  cases raised

/-- A job that was polled at the cuts of its log has the summary of the slices that were seen. -/
lemma Db.PolledAt.summary {loads : String → Except PyErr Json} {k : String} {log : List UInt8}
    {db db' : Db} {ns : List Nat} (polled : PolledAt loads k log db ns db') {start : Nat}
    (sorted : (start :: ns).Pairwise (· ≤ ·)) (inside : ∀ n ∈ ns, n ≤ log.length) {job : ComputeJob}
    (hj : db.jobs.get k = some job) (out : cursorOffset job.logCursorJson .out = .ok start)
    (err : cursorOffset job.logCursorJson .err = .ok 0) :
    ∃ job', db'.jobs.get k = some job' ∧
      job'.runtimeSummaryJson = (seen loads log start ns).foldl (summarised loads log)
        job.runtimeSummaryJson := by
  induction polled generalizing start job with
  | done => exact ⟨job, hj, rfl⟩
  | @poll db db1 db2 row w w' trace obs pollInterval now n ns hj' running call met still none
      recorded _ ih =>
    cases hj.symm.trans hj'
    obtain ⟨id, progress⟩ := poll_progress call
    have le : n ≤ log.length := inside n List.mem_cons_self
    obtain ⟨later, sorted⟩ := List.pairwise_cons.mp sorted
    have first : start ≤ n := later n List.mem_cons_self
    have size : (log.take n).length = n := by rw [List.length_take, min_eq_left le]
    -- nothing was appended, so the end of the delta is the cut
    obtain ⟨counted, read, next, above, more, most, delivered, _⟩ :=
      poll_delivers .out call out (by rw [met, size]; exact first)
    rw [met, size] at above
    rw [still, size] at most
    have counts : counted = n := by omega
    have reads : read = n := by omega
    have range : rangesRead .out trace = (Slice.mk start n).bytes log := by
      rw [delivered, still, reads, List.take_take, min_self]
      rfl
    obtain ⟨counted', read', next', _, more', most', delivered', _⟩ :=
      poll_delivers .err call err (Nat.zero_le _)
    rw [none] at most' delivered'
    have zero : counted' = 0 := Nat.le_zero.mp (more'.trans most')
    have noErr : rangesRead .err trace = [] := by rw [delivered', List.take_nil, List.drop_nil]
    rw [range, noErr] at progress
    have fine : Readable loads ((Slice.mk start n).bytes log) := by
      by_contra bad
      obtain ⟨e, raised⟩ := telemetry_unreadable bad
      rw [raised] at progress
      cases progress
    have summary := Except.ok.inj ((telemetry_readable fine).symm.trans progress)
    have pollable : row.executionStatus.isPollable = true := by
      rw [running]
      rfl
    obtain ⟨cursor', summary'⟩ := row.recorded_logs pollable obs pollInterval now
    have hj1 : db1.jobs.get k = some (row.recorded obs pollInterval now) := by
      have id : obs.computeJobId = k := id
      have st := Db.recordObservation_sets (by rw [id]; exact hj) recorded
      rw [← id]
      exact st.get
    obtain ⟨job', hj2, final⟩ := ih sorted (fun m mem => inside m (List.mem_cons_of_mem _ mem)) hj1
      (by rw [cursor', next, counts]) (by rw [cursor', next', zero]; rfl)
    refine ⟨job', hj2, ?_⟩
    rw [final, summary', ← summary, seen, if_pos fine]
    rfl
  | @raised db db1 db2 row w w' trace e pollInterval now n ns hj' running call met still none
      recorded _ ih =>
    cases hj.symm.trans hj'
    have le : n ≤ log.length := inside n List.mem_cons_self
    obtain ⟨later, sorted⟩ := List.pairwise_cons.mp sorted
    have first : start ≤ n := later n List.mem_cons_self
    have bad : ¬ Readable loads ((Slice.mk start n).bytes log) := by
      refine poll_raises_still call out err ?_ met still none
      rw [List.length_take, min_eq_left le]
      exact first
    -- the exception is recorded, and the cursor and the summary stay
    have sets := Db.pollErrorCommit_sets hj recorded
    have same := row.sameLogs_seen .pollError
    obtain ⟨job', hj2, final⟩ := ih
      (List.pairwise_cons.mpr ⟨fun m mem => first.trans ((List.pairwise_cons.mp sorted).1 m mem),
        (List.pairwise_cons.mp sorted).2⟩)
      (fun m mem => inside m (List.mem_cons_of_mem _ mem)) sets.get
      ((congrArg (cursorOffset · .out) same.cursor).trans out)
      ((congrArg (cursorOffset · .err) same.cursor).trans err)
    refine ⟨job', hj2, ?_⟩
    rw [final, seen, if_neg bad]
    exact congrArg (fun summary => List.foldl (summarised loads log) summary _) same.summary

/-! ## The slice that decides -/

section

variable {loads : String → Except PyErr Json} {log : List UInt8}

lemma get_chunkTelemetry (key : String) (chunk : List UInt8) :
    (chunkTelemetry loads chunk).get key = lastCarried loads key (pieces chunk) := by
  rw [chunkTelemetry, get_telemetryLines]
  exact Option.or_none

lemma chunkTelemetry_isEmpty {chunk : List UInt8} :
    (chunkTelemetry loads chunk).isEmpty = true ↔ ¬ HasTelemetry loads (pieces chunk) := by
  rw [chunkTelemetry, telemetryLines_isEmpty]
  exact and_iff_right rfl

/-- A chunk is without telemetry exactly if it gives a value to no key. -/
lemma not_hasTelemetry_iff {chunk : List UInt8} :
    ¬ HasTelemetry loads (pieces chunk) ↔ ∀ key, lastCarried loads key (pieces chunk) = none := by
  rw [← chunkTelemetry_isEmpty]
  simp only [← get_chunkTelemetry]
  cases chunkTelemetry loads chunk with
  | nil => exact ⟨fun _ _ => rfl, fun _ => rfl⟩
  | cons item rest =>
    constructor
    · intro empty
      cases empty
    · intro nothing
      have absent := nothing item.1
      rw [JsonObject.get, Dict.getItems, if_pos rfl] at absent
      cases absent

/-- Slices without telemetry leave the summary as it is. -/
lemma summary_unchanged {slices : List Slice} (summary : JsonObject)
    (none : ∀ s ∈ slices, ¬ HasTelemetry loads (pieces (s.bytes log))) :
    slices.foldl (summarised loads log) summary = summary := by
  induction slices with
  | nil => rfl
  | cons s rest ih =>
    have empty := chunkTelemetry_isEmpty.mpr (none s List.mem_cons_self)
    rw [List.foldl_cons, summarised, if_pos empty]
    exact ih fun t mem => none t (List.mem_cons_of_mem _ mem)

/-- The last slice with telemetry replaces whatever the earlier ones have left. -/
lemma summary_replaced (earlier : List Slice) {later : List Slice} {s : Slice}
    (summary : JsonObject) (some : HasTelemetry loads (pieces (s.bytes log)))
    (none : ∀ t ∈ later, ¬ HasTelemetry loads (pieces (t.bytes log))) :
    (earlier ++ s :: later).foldl (summarised loads log) summary =
      chunkTelemetry loads (s.bytes log) := by
  have nonempty : ¬ (chunkTelemetry loads (s.bytes log)).isEmpty = true :=
    fun empty => chunkTelemetry_isEmpty.mp empty some
  rw [List.foldl_append, List.foldl_cons, summarised, if_neg nonempty, summary_unchanged _ none]

/-- Either no slice has telemetry or one of them is the last that has. -/
lemma exists_last_telemetry (loads : String → Except PyErr Json) (log : List UInt8)
    (slices : List Slice) :
    (∀ s ∈ slices, ¬ HasTelemetry loads (pieces (s.bytes log))) ∨
      ∃ earlier s later, slices = earlier ++ s :: later ∧
        HasTelemetry loads (pieces (s.bytes log)) ∧
        ∀ t ∈ later, ¬ HasTelemetry loads (pieces (t.bytes log)) := by
  -- by the last slice that has telemetry: the slices after the first are searched first
  induction slices with
  | nil =>
    left
    intro _ mem
    cases mem
  | cons first rest ih =>
    obtain none | ⟨earlier, s, later, rfl, some, none⟩ := ih
    · by_cases has : HasTelemetry loads (pieces (first.bytes log))
      · exact Or.inr ⟨[], first, rest, rfl, has, none⟩
      · exact Or.inl (List.forall_mem_cons.mpr ⟨has, none⟩)
    · exact Or.inr ⟨first :: earlier, s, later, rfl, some, none⟩

/-- What is seen lies between its ends. -/
lemma seen_ordered {start : Nat} {ns : List Nat} (sorted : (start :: ns).Pairwise (· ≤ ·)) :
    ∀ s ∈ seen loads log start ns, s.start ≤ s.stop := by
  induction ns generalizing start with
  | nil =>
    intro s mem
    cases mem
  | cons n ns ih =>
    obtain ⟨first, rest⟩ := List.pairwise_cons.mp sorted
    unfold seen
    split
    · intro s mem
      rcases List.mem_cons.mp mem with rfl | mem
      · exact first n List.mem_cons_self
      · exact ih rest s mem
    · exact ih (List.pairwise_cons.mpr ⟨fun m mem => first m (List.mem_cons_of_mem n mem),
        (List.pairwise_cons.mp rest).2⟩)

end

/-! ## What a slice keeps of a log -/

/-- The key is carried by a fragment of a line that the slice does not have as a whole, or by a line
    of the log that ends behind the slice. -/
def Slice.Torn (loads : String → Except PyErr Json) (log : List UInt8) (s : Slice)
    (key : String) : Prop :=
  Carries loads key (pieces (s.tornEnd log)) ∨ Carries loads key (pieces (s.tornStart log)) ∨
    Carries loads key (pieces (s.behind log))

/-- The slice has all keys of the log, and nothing torn or behind it makes a difference. -/
structure Slice.Keeps (loads : String → Except PyErr Json) (log : List UInt8) (s : Slice) :
    Prop where
  keys : ∀ key, Carries loads key (pieces log) → Carries loads key (pieces (s.bytes log))
  torn : ∀ key, s.Torn loads log key →
    lastCarried loads key (pieces (s.bytes log)) = lastCarried loads key (pieces log)

/-- A slice gives every key the value that the log gives it exactly if it keeps the log: the keys of
    its whole lines need no comparison. -/
lemma Slice.keeps_iff {loads : String → Except PyErr Json} {log : List UInt8} {s : Slice}
    (ordered : s.start ≤ s.stop) :
    s.Keeps loads log ↔
      ∀ key, lastCarried loads key (pieces (s.bytes log)) = lastCarried loads key (pieces log) := by
  constructor
  · rintro ⟨keys, torn⟩ key
    by_cases isTorn : s.Torn loads log key
    · exact torn key isTorn
    simp only [Slice.Torn, not_or, ← lastCarried_eq_none_iff] at isTorn
    obtain ⟨noEnd, noStart, noBehind⟩ := isTorn
    -- only the whole lines and the lines in front of them may carry the key
    have here : lastCarried loads key (pieces (s.bytes log)) =
        lastCarried loads key (pieces (s.whole log)) := by
      rw [pieces_bytes, lastCarried_append, lastCarried_append, noEnd, noStart, Option.none_or,
        Option.or_none]
    rw [here]
    cases carried : lastCarried loads key (pieces (s.whole log)) with
    | none =>
      have missing := mt (keys key) (lastCarried_eq_none_iff.mp (here.trans carried))
      exact (lastCarried_eq_none_iff.mpr missing).symm
    | some value =>
      obtain empty | all := pieces_log log s ordered
      · rw [empty] at carried
        cases carried
      · rw [all, lastCarried_append, lastCarried_append, noBehind, Option.none_or, carried]
        rfl
  · intro same
    refine ⟨fun key carries => ?_, fun key _ => same key⟩
    by_contra missing
    have none := lastCarried_eq_none_iff.mpr missing
    rw [same] at none
    exact lastCarried_eq_none_iff.mp none carries

/-- The slices keep the progress of a log: the last of them with telemetry keeps the log, or there
    is no telemetry, neither in a slice nor in the log. A poll of the complete log finds none if it
    raises. -/
def ProgressKept (loads : String → Except PyErr Json) (log : List UInt8) (slices : List Slice) :
    Prop :=
  (∀ s ∈ slices, ¬ HasTelemetry loads (pieces (s.bytes log))) ∧
      (Readable loads log → ¬ HasTelemetry loads (pieces log)) ∨
  Readable loads log ∧ ∃ earlier s later, slices = earlier ++ s :: later ∧
    HasTelemetry loads (pieces (s.bytes log)) ∧
    (∀ t ∈ later, ¬ HasTelemetry loads (pieces (t.bytes log))) ∧ s.Keeps loads log

/-- What a single poll of the complete log leaves under a key. -/
lemma get_complete {loads : String → Except PyErr Json} {log : List UInt8} (key : String) :
    ((seen loads log 0 [log.length]).foldl (summarised loads log) []).get key =
      if Readable loads log then lastCarried loads key (pieces log) else none := by
  have whole : (Slice.mk 0 log.length).bytes log = log := by
    rw [Slice.bytes, List.take_length, List.drop_zero]
  rw [seen, whole, seen, seen]
  split
  · rw [List.foldl_cons, List.foldl_nil, summarised, whole]
    split
    · rename_i empty
      exact (not_hasTelemetry_iff.mp (chunkTelemetry_isEmpty.mp empty) key).symm
    · exact get_chunkTelemetry key log
  · rfl

/-- The summary of the slices is that of the complete log exactly if they keep its progress. -/
lemma progressKept_iff {loads : String → Except PyErr Json} {log : List UInt8}
    {slices : List Slice} (ordered : ∀ s ∈ slices, s.start ≤ s.stop) :
    (∀ key, (slices.foldl (summarised loads log) []).get key =
      if Readable loads log then lastCarried loads key (pieces log) else none) ↔
      ProgressKept loads log slices := by
  constructor
  · intro same
    obtain none | ⟨earlier, s, later, rfl, some, none⟩ := exists_last_telemetry loads log slices
    · refine Or.inl ⟨none, fun fine => not_hasTelemetry_iff.mpr fun key => ?_⟩
      have nothing := same key
      rw [summary_unchanged [] none, if_pos fine] at nothing
      exact nothing.symm
    · rw [summary_replaced earlier [] some none] at same
      simp only [get_chunkTelemetry] at same
      have fine : Readable loads log := by
        by_contra bad
        simp only [if_neg bad] at same
        exact not_hasTelemetry_iff.mpr same some
      simp only [if_pos fine] at same
      exact Or.inr ⟨fine, earlier, s, later, rfl, some, none,
        (Slice.keeps_iff (ordered s (by simp))).mpr same⟩
  · rintro (⟨none, nothing⟩ | ⟨fine, earlier, s, later, rfl, some, none, keeps⟩) key
    · rw [summary_unchanged [] none]
      split
      · rename_i fine
        exact (not_hasTelemetry_iff.mp (nothing fine) key).symm
      · rfl
    · rw [summary_replaced earlier [] some none, get_chunkTelemetry, if_pos fine]
      exact (Slice.keeps_iff (ordered s (by simp))).mp keeps key

/-- A job that is polled at some cuts of its log and at its end has the same summary as after a
    single poll of the complete log, exactly if the slices that the polls saw keep the progress of
    the log. -/
theorem progress_schedule_free_iff {loads : String → Except PyErr Json} {k : String}
    {log : List UInt8} {ns : List Nat} {db db1 db2 : Db} {job job1 job2 : ComputeJob}
    (hj : db.jobs.get k = some job) (out : cursorOffset job.logCursorJson .out = .ok 0)
    (err : cursorOffset job.logCursorJson .err = .ok 0) (unread : job.runtimeSummaryJson = [])
    (sorted : (ns ++ [log.length]).Pairwise (· ≤ ·))
    (polled : Db.PolledAt loads k log db (ns ++ [log.length]) db1)
    (once : Db.PolledAt loads k log db [log.length] db2)
    (hj1 : db1.jobs.get k = some job1) (hj2 : db2.jobs.get k = some job2) :
    (∀ key, job1.runtimeSummaryJson.get key = job2.runtimeSummaryJson.get key) ↔
      ProgressKept loads log (seen loads log 0 (ns ++ [log.length])) := by
  have below : ∀ n ∈ ns ++ [log.length], n ≤ log.length := by
    intro n mem
    obtain ⟨_, _, le⟩ := List.pairwise_append.mp sorted
    rcases List.mem_append.mp mem with mem | mem
    · exact le n mem log.length List.mem_cons_self
    · exact (List.mem_singleton.mp mem).le
  have sorted0 : (0 :: (ns ++ [log.length])).Pairwise (· ≤ ·) :=
    List.pairwise_cons.mpr ⟨fun n _ => Nat.zero_le n, sorted⟩
  obtain ⟨_, found1, summary1⟩ := polled.summary sorted0 below hj out err
  obtain ⟨_, found2, summary2⟩ := once.summary
    (List.pairwise_cons.mpr ⟨fun n _ => Nat.zero_le n, List.pairwise_singleton _ _⟩)
    (fun n mem => (List.mem_singleton.mp mem).le) hj out err
  cases hj1.symm.trans found1
  cases hj2.symm.trans found2
  rw [summary1, summary2, unread]
  simp only [get_complete]
  exact progressKept_iff (seen_ordered sorted0)

/-! ## A key that a later line omits -/

/-- The reads of a log that is there, from an offset within it. -/
lemma readDelta_reads {w : RunWorld} {f : LogFile} {data : List UInt8}
    (stored : w.log f = some data) {start : Nat} (within : start ≤ data.length) :
    pollMachine.Interleaved (readDelta f start) w
      [(.logExists f, w), (.logSize f, w), (.readLog f start, w)]
      (.ok (decodeReplace (data.drop start), (data.length : Int))) w := by
  have clamped : (min (max (start : Int) 0) (data.length : Int)).toNat = start := by omega
  have present : pollMachine.handle w (.logExists f) {} = (w, true) := by
    simp only [pollMachine, RunWorld.read, stored]
    rfl
  have sized : pollMachine.handle w (.logSize f) {} = (w, .ok data.length) := by
    simp only [pollMachine, RunWorld.read, stored]
  have read : pollMachine.handle w (.readLog f start) {} = (w, .ok (data.drop start)) := by
    simp only [pollMachine, RunWorld.read, stored]
  refine .perform (o := {}) .refl ?_
  rw [present]
  refine .perform (o := {}) .refl ?_
  rw [sized]
  refine .check rfl ?_
  simp only [clamped]
  refine .perform (o := {}) .refl ?_
  rw [read]
  exact .ret

lemma readDelta_missing {w : RunWorld} {f : LogFile} (missing : w.log f = none) (offset : Int) :
    pollMachine.Interleaved (readDelta f offset) w [(.logExists f, w)] (.ok ("", offset)) w := by
  have absent : pollMachine.handle w (.logExists f) {} = (w, false) := by
    simp only [pollMachine, RunWorld.read, missing]
    rfl
  refine .perform (o := {}) .refl ?_
  rw [absent]
  exact .ret

/-- A running job whose log has grown to a number of bytes. -/
def grownTo (log : List UInt8) (n : Nat) : RunWorld :=
  { runningJob with out := some (log.take n) }

/-- What a poll of this job from an offset returns. -/
def grownObservation (loads : String → Except PyErr Json) (log : List UInt8) (n start : Nat)
    (view : ComputeJobView) : JobObservation :=
  observation view
    { observed := 0, cursor := logCursor view.remoteWorkdir (log.take n).length 0,
      progress := chunkTelemetry loads ((Slice.mk start n).bytes log) }
    (livenessVerdict true)

/-- What the poll of a job that goes on reads of it. -/
lemma grownTo_executes (log : List UInt8) (n : Nat) :
    pollMachine.Interleaved pollExecution (grownTo log n)
      [(.exitExists, grownTo log n), (.recordExists, grownTo log n), (.loadRecord, grownTo log n),
        (.signal 1, grownTo log n)]
      (.ok (livenessVerdict true)) (grownTo log n) :=
  .perform (o := {}) .refl (.perform (o := {}) .refl (.perform (o := {}) .refl
    (.perform (o := {}) .refl .ret)))

lemma grownTo_polled {loads : String → Except PyErr Json} (log : List UInt8) {n start : Nat}
    (within : start ≤ (log.take n).length)
    (fine : Readable loads ((Slice.mk start n).bytes log)) {view : ComputeJobView}
    (out : cursorOffset view.logCursor .out = .ok start)
    (err : cursorOffset view.logCursor .err = .ok 0) :
    ∃ trace, pollMachine.Interleaved (poll loads view) (grownTo log n) trace
      (.ok (grownObservation loads log n start view)) (grownTo log n) := by
  have read := readDelta_reads (w := grownTo log n) (f := .out) rfl within
  have other := readDelta_missing (w := grownTo log n) (f := .err) rfl 0
  have logs : ∃ trace, pollMachine.Interleaved (pollLogs loads view) (grownTo log n) trace
      (.ok { observed := 0, cursor := logCursor view.remoteWorkdir (log.take n).length 0,
             progress := chunkTelemetry loads ((Slice.mk start n).bytes log) })
      (grownTo log n) := by
    exact ⟨_, .perform (o := {}) .refl (.check out (.check err
      (read.bind (other.bind (.check (telemetry_readable fine) .ret)))))⟩
  obtain ⟨trace, logs⟩ := logs
  exact ⟨_, logs.bind ((grownTo_executes log n).bind .ret)⟩

/-- A running job whose lines do not make a poll raise can be polled at any cuts of its log. -/
lemma exists_polledAt {loads : String → Except PyErr Json}
    (tame : ∀ line, readable loads line = true) {k : String} (log : List UInt8)
    {ns : List Nat} {start : Nat} (sorted : (start :: ns).Pairwise (· ≤ ·))
    (inside : ∀ n ∈ ns, n ≤ log.length) {db : Db} (sd : db.Sound) {job : ComputeJob}
    (hj : db.jobs.get k = some job) (running : job.executionStatus = .running)
    (out : cursorOffset job.logCursorJson .out = .ok start)
    (err : cursorOffset job.logCursorJson .err = .ok 0) :
    ∃ db' job', Db.PolledAt loads k log db ns db' ∧ db'.jobs.get k = some job' := by
  induction ns generalizing db job start with
  | nil => exact ⟨db, job, .done, hj⟩
  | cons n ns ih =>
    obtain ⟨later, sorted⟩ := List.pairwise_cons.mp sorted
    have size : (log.take n).length = n := by
      rw [List.length_take, min_eq_left (inside n List.mem_cons_self)]
    -- the file is as long as the cut for the whole poll
    let obs := grownObservation loads log n start (job.view k)
    obtain ⟨trace, call⟩ : ∃ trace, pollMachine.Interleaved (poll loads (job.view k))
        (grownTo log n) trace (.ok obs) (grownTo log n) :=
      grownTo_polled log (by rw [size]; exact later n List.mem_cons_self) (fun line _ => tame line)
        out err
    have hj' : db.jobs.get obs.computeJobId = some job := hj
    have storable : obs.storable 1 = .ok () := rfl
    obtain ⟨db1, recorded⟩ := sd.recordObservation_total hj' storable 0
    -- a poll that decides nothing keeps the job running, so that it can be polled again
    have pollable : job.executionStatus.isPollable = true := by
      rw [running]
      rfl
    have undecided : obs.decides = false := rfl
    obtain ⟨cursor, _⟩ := job.recorded_logs pollable obs 1 0
    obtain ⟨_, status⟩ := ComputeJob.recorded_undecided pollable undecided 1 0
    have hj1 : db1.jobs.get k = some (job.recorded obs 1 0) :=
      (Db.recordObservation_sets hj' recorded).get
    have still : (job.recorded obs 1 0).executionStatus = .running := by
      rw [status]
      exact if_pos ⟨rfl, rfl⟩
    have out1 : cursorOffset (job.recorded obs 1 0).logCursorJson .out = .ok (n : Nat) := by
      rw [cursor, ← size]
      rfl
    have err1 : cursorOffset (job.recorded obs 1 0).logCursorJson .err = .ok 0 := by
      rw [cursor]
      rfl
    obtain ⟨db', job', polled, found⟩ := ih sorted
      (fun m mem => inside m (List.mem_cons_of_mem n mem)) (sd.recordObservation recorded) hj1
      still out1 err1
    exact ⟨db', job', .poll hj running call rfl rfl rfl recorded polled, found⟩

/-- A log of two telemetry lines, the first with the step and the second with the loss. -/
def stepAndLoss : List UInt8 :=
  [0x7b, 0x22, 0x73, 0x74, 0x65, 0x70, 0x22, 0x3a, 0x31, 0x7d, 0x0a] ++
  [0x7b, 0x22, 0x6c, 0x6f, 0x73, 0x73, 0x22, 0x3a, 0x32, 0x7d, 0x0a]

/-- The JSON values of the two lines. -/
def loadsLine (line : String) : Except PyErr Json :=
  if line = "\x7b\"step\":1\x7d" then .ok (.dict [("step", .int 1)])
  else if line = "\x7b\"loss\":2\x7d" then .ok (.dict [("loss", .int 2)])
  else .error (.jsonDecodeError "Expecting value")

lemma loadsLine_readable (line : String) : readable loadsLine line = true := by
  unfold readable loadsLine
  split_ifs <;> rfl

/-- The job is polled between the lines and at the end, or only at the end. -/
lemma stepAndLoss_polled :
    ∃ db1 job1 db2 job2, Db.PolledAt loadsLine "j" stepAndLoss tolerantDb
        ([11] ++ [stepAndLoss.length]) db1 ∧
      db1.jobs.get "j" = some job1 ∧ Db.PolledAt loadsLine "j" stepAndLoss tolerantDb
        [stepAndLoss.length] db2 ∧
      db2.jobs.get "j" = some job2 := by
  have sd := tolerantDb_tolerant.sound
  have hj := tolerantDb_tolerant.latest.stored
  have start : cursorOffset tolerantJob.logCursorJson .out = .ok (0 : Nat) := rfl
  have sorted : (0 :: ([11] ++ [stepAndLoss.length])).Pairwise (· ≤ ·) := by decide
  have inside : ∀ n ∈ [11] ++ [stepAndLoss.length], n ≤ stepAndLoss.length := by decide
  obtain ⟨db1, job1, polled, hj1⟩ := exists_polledAt loadsLine_readable stepAndLoss sorted inside
    sd hj rfl start rfl
  have sorted : [0, stepAndLoss.length].Pairwise (· ≤ ·) := by decide
  have inside : ∀ n ∈ [stepAndLoss.length], n ≤ stepAndLoss.length := by decide
  obtain ⟨db2, job2, once, hj2⟩ := exists_polledAt loadsLine_readable stepAndLoss sorted inside
    sd hj rfl start rfl
  exact ⟨db1, job1, db2, job2, polled, hj1, once, hj2⟩

/-- For this log and schedule the summaries are the same only if the slices keep the progress. -/
theorem progress_schedule_free_iff_two :
    ∃ db1 job1 db2 job2, Db.PolledAt loadsLine "j" stepAndLoss tolerantDb
        ([11] ++ [stepAndLoss.length]) db1 ∧
      db1.jobs.get "j" = some job1 ∧ Db.PolledAt loadsLine "j" stepAndLoss tolerantDb
        [stepAndLoss.length] db2 ∧
      db2.jobs.get "j" = some job2 ∧
      ((∀ key, job1.runtimeSummaryJson.get key = job2.runtimeSummaryJson.get key) ↔
        ProgressKept loadsLine stepAndLoss 
          (seen loadsLine stepAndLoss 0 ([11] ++ [stepAndLoss.length]))) := by
  obtain ⟨db1, job1, db2, job2, polled, hj1, once, hj2⟩ := stepAndLoss_polled
  have hj := tolerantDb_tolerant.latest.stored
  have sorted : ([11] ++ [stepAndLoss.length]).Pairwise (· ≤ ·) := by decide
  exact ⟨db1, job1, db2, job2, polled, hj1, once, hj2,
    progress_schedule_free_iff hj rfl rfl rfl sorted polled once hj1 hj2⟩

/-- The step is lost when the loss is polled by itself. -/
theorem progress_schedule_dependent :
    ¬ ∀ {loads : String → Except PyErr Json} {k : String} {log : List UInt8} {ns : List Nat}
        {db db1 db2 : Db} {job job1 job2 : ComputeJob}, db.jobs.get k = some job →
        cursorOffset job.logCursorJson .out = .ok 0 → cursorOffset job.logCursorJson .err = .ok 0 →
        job.runtimeSummaryJson = [] → (ns ++ [log.length]).Pairwise (· ≤ ·) →
        Db.PolledAt loads k log db (ns ++ [log.length]) db1 →
        Db.PolledAt loads k log db [log.length] db2 →
        db1.jobs.get k = some job1 → db2.jobs.get k = some job2 →
        ∀ key, job1.runtimeSummaryJson.get key = job2.runtimeSummaryJson.get key := by
  intro free
  obtain ⟨db1, job1, db2, job2, polled, hj1, once, hj2⟩ := stepAndLoss_polled
  have hj := tolerantDb_tolerant.latest.stored
  have sorted : ([11] ++ [stepAndLoss.length]).Pairwise (· ≤ ·) := by decide
  have same := free hj rfl rfl rfl sorted polled once hj1 hj2 "step"
  obtain ⟨_, found1, summary1⟩ := polled.summary (by decide) (by decide) hj rfl rfl
  obtain ⟨_, found2, summary2⟩ := once.summary (by decide) (by decide) hj rfl rfl
  cases hj1.symm.trans found1
  cases hj2.symm.trans found2
  have fine : ∀ data, Readable loadsLine data := fun _ line _ => loadsLine_readable line
  have size : stepAndLoss.length = 22 := rfl
  have twice : seen loadsLine stepAndLoss 0 ([11] ++ [stepAndLoss.length]) =
      [⟨0, 11⟩, ⟨11, 22⟩] := by
    simp only [List.cons_append, List.nil_append, size, seen, fine, if_true]
  have alone : seen loadsLine stepAndLoss 0 [stepAndLoss.length] = [⟨0, 22⟩] := by
    simp only [size, seen, fine, if_true]
  have second : pieces ((Slice.mk 11 22).bytes stepAndLoss) = ["\x7b\"loss\":2\x7d"] := by
    rw [pieces_eq]
    rfl
  have both : pieces ((Slice.mk 0 22).bytes stepAndLoss) =
      ["\x7b\"step\":1\x7d", "\x7b\"loss\":2\x7d"] := by
    rw [pieces_eq]
    rfl
  have loss : telemetryOf loadsLine "\x7b\"loss\":2\x7d" ≠ none :=
    Option.isSome_iff_ne_none.mp (by decide)
  rw [twice] at summary1
  rw [alone] at summary2
  have lost : job1.runtimeSummaryJson =
      chunkTelemetry loadsLine ((Slice.mk 11 22).bytes stepAndLoss) :=
    summary1.trans (summary_replaced [⟨0, 11⟩] _
      ⟨_, by rw [second]; exact List.mem_cons_self, loss⟩ (fun _ mem => by cases mem))
  have kept : job2.runtimeSummaryJson =
      chunkTelemetry loadsLine ((Slice.mk 0 22).bytes stepAndLoss) :=
    summary2.trans (summary_replaced [] _
      ⟨_, by rw [both]; exact List.mem_cons_of_mem _ List.mem_cons_self, loss⟩
      (fun _ mem => by cases mem))
  rw [lost, kept, get_chunkTelemetry, get_chunkTelemetry, second, both] at same
  have wrong := congrArg Option.isSome same
  revert wrong
  decide

end ResearchController
