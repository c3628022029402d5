import ResearchController.Compute.Local.AtomicJson
import ResearchController.Recovery.SubmissionAgreement

/-!
# The submission protocol on files

The programs of the submission protocol read and replace a record in one step. Here every such step
is a body of system calls: `_load_json` opens the file and reads it piece by piece, `_atomic_json`
writes a temporary file piece by piece, synchronizes it and renames it. Any number of processes with
different process ids run among each other and may crash between any two calls; any call may fail.

`submissions_on_files` says that nothing of this can be seen: every run on files is a run of the
protocol on records. `records_survive` adds power failures: whatever they leave is a whole record.
-/

namespace ResearchController
open Lib

/-! ## Texts -/

/-- The JSON object of a submission record, by its sorted keys. -/
def SubmissionRecord.toJson (record : SubmissionRecord) : JsonObject :=
  [("external_job_id", .str record.externalJobId)] ++
    (match record.pid with
      | some pid => [("pid", .int pid)]
      | none => []) ++
    [("status", .str (match record.status with
        | .reserved => "RESERVED"
        | .launched => "LAUNCHED")),
     ("submission_key", .str record.submissionKey), ("workdir", .str record.workdir)]

/-- The status of a submission record. -/
def SubmissionStatus.ofJson : Json → Option SubmissionStatus
  | .str text =>
    if text = "RESERVED" then some .reserved
    else if text = "LAUNCHED" then some .launched
    else none
  | _ => none

/-- A text of a JSON object. -/
def JsonObject.text (object : JsonObject) (key : String) : Option String :=
  match object.get key with
  | some (.str text) => some text
  | _ => none

/-- The process id of a JSON object, if it has one. -/
def JsonObject.pid (object : JsonObject) : Option Int :=
  match object.get "pid" with
  | some (.int pid) => some pid
  | _ => none

/-- The submission record of a JSON object. -/
def SubmissionRecord.ofJson (object : JsonObject) : Except PyErr SubmissionRecord :=
  match object.text "submission_key", object.text "external_job_id", object.text "workdir",
      (object.get "status").bind SubmissionStatus.ofJson with
  | some submissionKey, some externalJobId, some workdir, some status =>
    .ok { submissionKey := submissionKey, externalJobId := externalJobId, workdir := workdir,
          status := status, pid := object.pid }
  | _, _, _, _ => .error (.keyError "submission record")

lemma SubmissionRecord.ofJson_toJson (record : SubmissionRecord) :
    SubmissionRecord.ofJson record.toJson = .ok record := by
  obtain ⟨submissionKey, externalJobId, workdir, status, pid⟩ := record
  cases pid <;> cases status <;> rfl

/-- How objects become files: the pieces in which `json.dump` and the buffer of the handle write an
    object, and `json.load`. A record is read back as it was written. -/
structure JsonText where
  chunks : JsonObject → List (List UInt8)
  prepared : PreparedJob → List (List UInt8)
  load : List UInt8 → Except PyErr Json
  load_chunks : ∀ record : SubmissionRecord,
    load (chunks record.toJson).flatten = .ok (.dict record.toJson)

/-- The record in a text. -/
def JsonText.record (J : JsonText) (text : List UInt8) : Option SubmissionRecord :=
  match J.load text with
  | .ok (.dict object) => (SubmissionRecord.ofJson object).toOption
  | _ => none

lemma JsonText.record_chunks (J : JsonText) (record : SubmissionRecord) :
    J.record (J.chunks record.toJson).flatten = some record := by
  rw [JsonText.record, J.load_chunks]
  simp only [SubmissionRecord.ofJson_toJson]
  rfl

lemma JsonText.record_inv {J : JsonText} {text : List UInt8} {record : SubmissionRecord}
    (decoded : J.record text = some record) :
    ∃ object, J.load text = .ok (.dict object) ∧
      SubmissionRecord.ofJson object = .ok record := by
  rw [JsonText.record] at decoded
  split at decoded
  · rename_i object loaded
    refine ⟨object, loaded, ?_⟩
    cases found : SubmissionRecord.ofJson object with
    | ok record' =>
      rw [found] at decoded
      cases decoded
      rfl
    | error e =>
      rw [found] at decoded
      cases decoded
  · cases decoded

/-! ## Paths -/

namespace LocalProvider

variable (p : LocalProvider)

/-- `workdir / "prepared.json"`. -/
def preparedPath (workdir : String) : String :=
  workdir ++ "/prepared.json"

lemma isJsonPath_submissionPath (key : String) : IsJsonPath (p.submissionPath key) := by
  rw [IsJsonPath, submissionPath, String.toList_append]
  exact List.suffix_append _ _

lemma isJsonPath_preparedPath (workdir : String) : IsJsonPath (preparedPath workdir) := by
  rw [IsJsonPath, preparedPath, String.toList_append]
  exact (by decide : ".json".toList <:+ "/prepared.json".toList).trans (List.suffix_append _ _)

lemma preparedPath_inj {workdir workdir' : String}
    (same : preparedPath workdir = preparedPath workdir') : workdir = workdir' := by
  have chars := congrArg String.toList same
  rw [preparedPath, preparedPath, String.toList_append, String.toList_append] at chars
  exact String.toList_injective (List.append_cancel_right chars)

/-- The records of submissions and those of prepared jobs are in different directories. -/
lemma preparedPath_ne (spec : ComputeTaskSpec) (key : String) :
    preparedPath (p.workdir spec) ≠ p.submissionPath key := by
  intro same
  have chars := congrArg String.toList same
  simp only [preparedPath, workdir, submissionPath, String.toList_append,
    List.append_assoc] at chars
  have rest := List.append_cancel_left chars
  have second := congrArg (fun l => l[1]?) rest
  simp at second

end LocalProvider

/-! ## The programs on files -/

/-- An effect of the submission protocol that is not on files. -/
inductive OutsideEffect where
  | createdJobs
  | newExternalId
  | discoverResources
  | launch (prepared : PreparedJob)
  | commitSubmitted (jobId externalId : String)

/-- What it is answered with. -/
def OutsideEffect.Answer : OutsideEffect → Type
  | .createdJobs => List (ComputeJobView × ComputeTaskSpec)
  | .newExternalId => String
  | .discoverResources => ResourceSnapshot
  | .launch _ => Int
  | .commitSubmitted _ _ => Except PyErr (List String)

/-- What there is besides the files: the database, and the runners that have been started. -/
structure ProviderWorld where
  db : Db
  runners : List PreparedJob := []

/-- What such an effect does. -/
def ProviderWorld.handle (w : ProviderWorld) :
    (e : OutsideEffect) → Surroundings → ProviderWorld × e.Answer
  | .createdJobs, _ => (w, w.db.createdJobs)
  | .newExternalId, o => (w, "local-" ++ o.uuid)
  | .discoverResources, o => (w, { providerId := LocalProvider.providerId, offers := o.offers })
  | .launch prepared, o => ({ w with runners := w.runners ++ [prepared] }, o.pid)
  | .commitSubmitted jobId externalId, o =>
    match w.db.reconcileCreatedCommit jobId externalId o.now with
    | .ok (jobIds, db) => ({ w with db := db }, .ok jobIds)
    | .error e => (w, .error e)

/-- The machine next to the files; the other transactions of the controller come in between. -/
def outsideMachine (modelValidate : Json → Except PyErr ComputeTaskSpec) :
    Machine ProviderWorld OutsideEffect OutsideEffect.Answer Surroundings Action where
  handle := ProviderWorld.handle
  drift w e :=
    if e.isSubmitted then none
    else ((controller modelValidate).step w.db e).map fun db => { w with db := db }

/-- The system calls next to it. -/
abbrev diskMachine (modelValidate : Json → Except PyErr ComputeTaskSpec) :
    Machine (FileTree String String UInt8 × ProviderWorld)
      (FileEffect String String UInt8 ⊕ OutsideEffect)
      (Sum.elim (FileEffect.Answer PyErr) OutsideEffect.Answer)
      (FileOutcome PyErr × Surroundings) (Empty ⊕ Action) :=
  fileMachineBeside pathParent PyErr.fileNotFoundError (outsideMachine modelValidate)

/-- A program over system calls and the other effects of the protocol. -/
abbrev OnDisk := Program (FileEffect String String UInt8 ⊕ OutsideEffect)
  (Sum.elim (FileEffect.Answer PyErr) OutsideEffect.Answer) PyErr

/-- An effect that is not on files. -/
def OnDisk.outside (e : OutsideEffect) : OnDisk e.Answer :=
  .perform (Sum.inr e) fun r => .ret r

/-- An effect of the protocol, as the process `pid` performs it. -/
def SubmissionEffect.onDisk (J : JsonText) (pid : Nat) : (e : SubmissionEffect) → OnDisk e.Answer
  | .createdJobs => OnDisk.outside .createdJobs
  | .recordExists path =>
    FileProgram.lift (Program.call (FileEffect.pathExists path)) >>= fun present => .ret present
  | .loadRecord path =>
    FileProgram.lift (LocalProvider.loadJson J.load path) >>= fun object =>
      .ret (SubmissionRecord.ofJson object)
  | .writeRecord path record =>
    FileProgram.lift (LocalProvider.atomicJson pid path (J.chunks record.toJson)) >>= fun _ =>
      .ret ()
  | .newExternalId => OnDisk.outside .newExternalId
  | .discoverResources => OnDisk.outside .discoverResources
  | .writePrepared prepared =>
    FileProgram.lift (LocalProvider.atomicJson pid (LocalProvider.preparedPath prepared.workdir)
      (J.prepared prepared)) >>= fun _ => .ret ()
  | .launch prepared => OnDisk.outside (.launch prepared)
  | .commitSubmitted jobId externalId => OnDisk.outside (.commitSubmitted jobId externalId)

/-- An event of a run on files. -/
abbrev DiskEvent :=
  Nat × RunEvent SubmissionCall (FileOutcome PyErr × Surroundings) (Empty ⊕ Action)

/-- A moment of such a run. -/
abbrev DiskPool := Pool Nat (FileTree String String UInt8 × ProviderWorld)
  (FileEffect String String UInt8 ⊕ OutsideEffect)
  (Sum.elim (FileEffect.Answer PyErr) OutsideEffect.Answer) PyErr SubmissionReturn

/-- The runs of processes that call the provider and the reconciler, on files. -/
def diskSystem (modelValidate : Json → Except PyErr ComputeTaskSpec) (J : JsonText)
    (p : LocalProvider) :=
  (diskMachine modelValidate).pool fun (pid : Nat) (call : SubmissionCall) =>
    (p.call call).implement (SubmissionEffect.onDisk J pid)

/-- The same runs on records. -/
def recordSystem (modelValidate : Json → Except PyErr ComputeTaskSpec) (p : LocalProvider) :=
  (localMachine modelValidate).pool fun (_ : Nat) (call : SubmissionCall) => p.call call

/-! ## The effects that occur -/

/-- The files that the protocol names: a record is written under its own key, and a prepared job in
    the directory of its task. -/
def LocalProvider.Names (p : LocalProvider) : SubmissionEffect → Prop
  | .recordExists path => ∃ key, path = p.submissionPath key
  | .loadRecord path => ∃ key, path = p.submissionPath key
  | .writeRecord path record => path = p.submissionPath record.submissionKey
  | .writePrepared prepared => ∃ spec, prepared.workdir = p.workdir spec
  | _ => True

namespace LocalProvider

variable (p : LocalProvider)

lemma launch_names {path : String} {record : SubmissionRecord} (prepared : PreparedJob)
    (own : path = p.submissionPath record.submissionKey) :
    (LocalProvider.launch path record prepared).Within p.Names := by
  refine .call trivial fun pid => ?_
  have named : p.Names (.writeRecord path
    { record with status := .launched, pid := some pid }) := own
  exact .call named fun _ => trivial

lemma submit_names (prepared : PreparedJob) : (p.submit prepared).Within p.Names := by
  refine .call ⟨_, rfl⟩ fun present => ?_
  cases present with
  | false =>
    refine .call trivial fun externalJobId => ?_
    have named : p.Names (.writeRecord (p.submissionPath prepared.submissionKey)
      (reservation prepared externalJobId)) := rfl
    exact .call named fun _ => launch_names p prepared rfl
  | true =>
    refine .call ⟨_, rfl⟩ fun loaded => ?_
    refine (Program.Within.check _ _).bind fun record => ?_
    split
    · trivial
    · rename_i same
      rw [ne_eq, not_not] at same
      split
      · trivial
      · exact launch_names p prepared (by rw [same])

lemma reconcileSubmission_names (key : String) : (p.reconcileSubmission key).Within p.Names := by
  refine .call ⟨_, rfl⟩ fun present => ?_
  cases present with
  | false => trivial
  | true =>
    refine .call ⟨_, rfl⟩ fun loaded => ?_
    refine (Program.Within.check _ _).bind fun record => ?_
    split
    · trivial
    · split <;> trivial

lemma prepare_names (spec : ComputeTaskSpec) (resourceClass : String) :
    (p.prepare spec resourceClass).Within p.Names := by
  rw [prepare]
  split
  · trivial
  · refine .call trivial fun snapshot => ?_
    exact .call ⟨spec, rfl⟩ fun _ => trivial

lemma reconcileOne_names (view : ComputeJobView) (spec : ComputeTaskSpec) :
    (p.reconcileOne view spec).Within p.Names := by
  rw [reconcileOne]
  split
  · trivial
  · refine (p.reconcileSubmission_names _).bind fun known => ?_
    cases known with
    | some externalId => exact .call trivial fun committed => .check _ _
    | none =>
      refine (p.prepare_names spec _).bind fun prepared => ?_
      refine (p.submit_names prepared).bind fun externalId => ?_
      exact .call trivial fun committed => .check _ _

lemma reconcileEach_names (records : List (ComputeJobView × ComputeTaskSpec)) :
    (p.reconcileEach records).Within p.Names := by
  induction records with
  | nil => trivial
  | cons record rest ih =>
    refine (p.reconcileOne_names _ _).bind fun first => ?_
    exact ih.bind fun others => trivial

lemma call_names (call : SubmissionCall) : (p.call call).Within p.Names := by
  cases call with
  | reconcileCreated =>
    refine Program.Within.bind ?_ fun _ => trivial
    exact .call trivial fun records => p.reconcileEach_names records
  | submit prepared => exact (p.submit_names prepared).bind fun _ => trivial
  | reconcileSubmission key => exact (p.reconcileSubmission_names key).bind fun _ => trivial

end LocalProvider

/-! ## What the files stand for -/

/-- A text that belongs to its path: the whole record of a submission with a key of that name, or
    the whole text of a job that was prepared in that directory. -/
structure LocalProvider.Belongs (p : LocalProvider) (J : JsonText) (path : String)
    (text : List UInt8) : Prop where
  submission : ∀ key, path = p.submissionPath key →
    ∃ record, J.record text = some record ∧ path = p.submissionPath record.submissionKey
  prepared : ∀ spec, path = preparedPath (p.workdir spec) →
    ∃ prepared : PreparedJob, prepared.workdir = p.workdir spec ∧
      text = (J.prepared prepared).flatten

/-- The texts of the records, with the database and the runners, stand for a world of records. -/
structure LocalProvider.Shelved (p : LocalProvider) (J : JsonText)
    (s : String → Option (List UInt8)) (x : ProviderWorld) (w : LocalWorld) : Prop where
  db : w.db = x.db
  runners : w.runners = x.runners
  submissions : ∀ key, (s (p.submissionPath key)).map J.record =
    (w.submissions.get (p.submissionPath key)).map some
  prepared : ∀ spec, s (preparedPath (p.workdir spec)) =
    (w.preparedJobs.get (p.workdir spec)).map fun prepared => (J.prepared prepared).flatten

/-- The layer of the protocol on files. -/
def LocalProvider.layer (p : LocalProvider) (J : JsonText) :
    Layer Nat (FileTree String String UInt8 × ProviderWorld) LocalWorld :=
  shelf jsonFiles (p.Belongs J) (p.Shelved J)

namespace LocalProvider.Shelved

variable {p : LocalProvider} {J : JsonText} {s : String → Option (List UInt8)} {x : ProviderWorld}
  {w : LocalWorld}

lemma writeRecord (h : p.Shelved J s x w) (record : SubmissionRecord) :
    p.Shelved J (Function.update s (p.submissionPath record.submissionKey)
        (some (J.chunks record.toJson).flatten)) x
      { w with submissions :=
          w.submissions.set (p.submissionPath record.submissionKey) record } := by
  refine ⟨h.db, h.runners, fun key => ?_, fun spec => ?_⟩
  · rw [Dict.get_set, Function.update_apply]
    split
    · exact congrArg some (J.record_chunks record)
    · exact h.submissions key
  · rw [Function.update_of_ne (p.preparedPath_ne spec _)]
    exact h.prepared spec

lemma writePrepared (h : p.Shelved J s x w) {prepared : PreparedJob} {spec : ComputeTaskSpec}
    (own : prepared.workdir = p.workdir spec) :
    p.Shelved J (Function.update s (preparedPath prepared.workdir)
        (some (J.prepared prepared).flatten)) x
      { w with preparedJobs := w.preparedJobs.set prepared.workdir prepared } := by
  refine ⟨h.db, h.runners, fun key => ?_, fun spec' => ?_⟩
  · rw [own, Function.update_of_ne (p.preparedPath_ne spec key).symm]
    exact h.submissions key
  · rw [Dict.get_set, Function.update_apply]
    split
    · rename_i same
      rw [if_pos (preparedPath_inj same)]
      rfl
    · rename_i other
      rw [if_neg fun same => other (congrArg preparedPath same)]
      exact h.prepared spec'

end LocalProvider.Shelved

section Performs

variable {modelValidate : Json → Except PyErr ComputeTaskSpec} {p : LocalProvider} {J : JsonText}

/-- An effect that is not on files does the same above. -/
lemma outside_performs {pid : Nat} {e : SubmissionEffect} {y : OutsideEffect}
    (g : y.Answer → e.Answer)
    (acts : ∀ x o s w, p.Shelved J s x w →
      p.Shelved J s (ProviderWorld.handle x y o).1 (LocalWorld.handle w e o).1 ∧
        (LocalWorld.handle w e o).2 = g (ProviderWorld.handle x y o).2)
    {a : FileTree String String UInt8 × ProviderWorld} :
    (p.layer J).Performs (diskMachine modelValidate) (localMachine modelValidate) pid e
      (.perform (Sum.inr y) fun r => .ret (g r) : OnDisk e.Answer) a :=
  shelf_other (k := outsideMachine modelValidate) fun x o => ⟨o, acts x o⟩

/-- The body of every effect that the protocol names performs it. -/
lemma onDisk_performs (pid : Nat) (e : SubmissionEffect)
    (a : FileTree String String UInt8 × ProviderWorld) (named : p.Names e) :
    (p.layer J).Performs (diskMachine modelValidate) (localMachine modelValidate) pid e
      (e.onDisk J pid) a := by
  cases e with
  | recordExists path =>
    obtain ⟨key, rfl⟩ := named
    refine shelf_exists (p.isJsonPath_submissionPath key) fun present => ⟨{}, ?_⟩
    intro s x w rel found
    refine ⟨rel, ?_⟩
    have same := congrArg Option.isSome (rel.submissions key)
    rw [Option.isSome_map, Option.isSome_map] at same
    exact same.symm.trans found
  | loadRecord path =>
    obtain ⟨key, rfl⟩ := named
    simp only [SubmissionEffect.onDisk, LocalProvider.loadJson, FileProgram.lift_bind,
      Program.bind_assoc]
    refine shelf_load (p.isJsonPath_submissionPath key) ?_
    intro text belongs
    obtain ⟨record, decoded, _⟩ := belongs.submission key rfl
    obtain ⟨object, loaded, found⟩ := JsonText.record_inv decoded
    refine ⟨.ok record, {}, ?_, ?_⟩
    · rw [loaded, ← found]
      rfl
    · intro s x w rel present
      have same := rel.submissions key
      rw [present, Option.map_some, decoded] at same
      obtain ⟨record', stored, e⟩ := Option.map_eq_some_iff.mp same.symm
      cases e
      simp only [localMachine, LocalWorld.handle, stored]
      exact ⟨rel, rfl⟩
  | writeRecord path record =>
    obtain rfl : path = _ := named
    refine shelf_save (p.isJsonPath_submissionPath _) ?_ ⟨{}, fun s x w rel => ⟨?_, rfl⟩⟩
    · refine ⟨fun key same => ⟨record, J.record_chunks record, rfl⟩, fun spec same => ?_⟩
      exact absurd same.symm (p.preparedPath_ne spec _)
    · exact rel.writeRecord record
  | writePrepared prepared =>
    obtain ⟨spec, own⟩ := named
    refine shelf_save (LocalProvider.isJsonPath_preparedPath _) ?_ ⟨{}, fun s x w rel => ⟨?_, rfl⟩⟩
    · refine ⟨fun key same => ?_, fun spec' same => ?_⟩
      · rw [own] at same
        exact absurd same (p.preparedPath_ne spec key)
      · exact ⟨prepared, LocalProvider.preparedPath_inj same, rfl⟩
    · exact rel.writePrepared own
  | createdJobs =>
    refine outside_performs (e := .createdJobs) (y := .createdJobs) (fun r => r) ?_
    exact fun x o s w rel => ⟨rel, congrArg Db.createdJobs rel.db⟩
  | newExternalId =>
    refine outside_performs (e := .newExternalId) (y := .newExternalId) (fun r => r) ?_
    exact fun x o s w rel => ⟨rel, rfl⟩
  | discoverResources =>
    refine outside_performs (e := .discoverResources) (y := .discoverResources) (fun r => r) ?_
    exact fun x o s w rel => ⟨rel, rfl⟩
  | launch prepared =>
    refine outside_performs (e := .launch prepared) (y := .launch prepared) (fun r => r) ?_
    intro x o s w rel
    refine ⟨⟨rel.db, ?_, rel.submissions, rel.prepared⟩, rfl⟩
    exact congrArg (· ++ [prepared]) rel.runners
  | commitSubmitted jobId externalId =>
    refine outside_performs (e := .commitSubmitted jobId externalId)
      (y := .commitSubmitted jobId externalId) (fun r => r) ?_
    intro x o s w rel
    simp only [LocalWorld.handle, ProviderWorld.handle, rel.db]
    cases x.db.reconcileCreatedCommit jobId externalId o.now with
    | ok result => exact ⟨⟨rfl, rel.runners, rel.submissions, rel.prepared⟩, rfl⟩
    | error e => exact ⟨rel, rfl⟩

/-- The files carry the protocol. -/
lemma layer_fits : (p.layer J).Fits (diskMachine modelValidate) (localMachine modelValidate) p.Names
    (SubmissionEffect.onDisk J) := by
  refine shelf_fits (fun x w x' moved => ⟨w, fun s u rel => ?_⟩) onDisk_performs
  simp only [outsideMachine, localMachine] at moved ⊢
  split at moved
  · cases moved
  · rename_i other
    obtain ⟨db, stepped, rfl⟩ := Option.map_eq_some_iff.mp moved
    refine ⟨{ u with db := db }, ?_, rfl, rel.runners, rel.submissions, rel.prepared⟩
    rw [if_neg other, rel.db, stepped]
    rfl

end Performs

/-! ## Whole runs -/

/-- What the texts stand for depends on those of the records only. -/
lemma LocalProvider.Shelved.congr {p : LocalProvider} {J : JsonText}
    {s s' : String → Option (List UInt8)} {x : ProviderWorld} {w : LocalWorld}
    (h : p.Shelved J s x w) (same : ∀ path, IsJsonPath path → s path = s' path) :
    p.Shelved J s' x w := by
  refine ⟨h.db, h.runners, fun key => ?_, fun spec => ?_⟩
  · rw [← same _ (p.isJsonPath_submissionPath key)]
    exact h.submissions key
  · rw [← same _ (isJsonPath_preparedPath _)]
    exact h.prepared spec

/-- A database and a file tree without files. -/
def emptyDisk (db : Db) : FileTree String String UInt8 × ProviderWorld :=
  ({}, { db := db })

lemma emptyDisk_sound (p : LocalProvider) (J : JsonText) (db : Db) :
    (p.layer J).sound (emptyDisk db) := by
  have none : ∀ v ∈ (emptyDisk db).1.versions, ∀ path, v path = none := by
    intro v mem path
    rw [List.mem_singleton.mp mem]
    rfl
  refine ⟨?_, ?_, ?_⟩
  · intro v mem path k linked
    rw [none v mem path] at linked
    cases linked
  · intro v mem path path' k linked
    rw [none v mem path] at linked
    cases linked
  · intro v mem path k _ linked
    rw [none v mem path] at linked
    cases linked

lemma emptyDisk_stands (p : LocalProvider) (J : JsonText) (db : Db) :
    (p.layer J).stands (emptyDisk db) { db := db } :=
  ⟨fun _ => none, fun _ _ => rfl, rfl, rfl, fun _ => rfl, fun _ => rfl⟩

/-- **The submission protocol on files.** Every run of any number of processes on files, with
    crashes between any two system calls and failures of any of them, is a run of the same calls on
    records that are read and replaced in one step: the database and the runners are the same, every
    file holds the record of that run in full, and every call that has returned has returned the
    same. -/
theorem submissions_on_files {modelValidate : Json → Except PyErr ComputeTaskSpec} {J : JsonText}
    {p : LocalProvider} {db : Db} {events : List DiskEvent} {c : DiskPool}
    (rn : (diskSystem modelValidate J p).run { world := emptyDisk db } events = some c) :
    ∃ events' d, (recordSystem modelValidate p).run { world := { db := db } } events' = some d ∧
      startedCalls events' = startedCalls events ∧
      p.Shelved J c.world.1.text c.world.2 d.world ∧
      ∀ pid r, c.ended pid = some (.ok r) → d.ended pid = some (.ok r) := by
  obtain ⟨events', d, rn', calls, sim⟩ := Machine.pool_implements (layer_fits (J := J))
    (fun _ call => p.call_names call) (emptyDisk_sound p J db) (emptyDisk_stands p J db) rn
  obtain ⟨s, same, rel⟩ := sim.stands
  exact ⟨events', d, rn', calls, rel.congr same, fun pid r result => sim.returned result⟩

/-- The worlds of histories with power failures: processes run on what the last one has left. -/
inductive Weathered (modelValidate : Json → Except PyErr ComputeTaskSpec) (J : JsonText)
    (p : LocalProvider) : FileTree String String UInt8 × ProviderWorld → Prop where
  | start (db : Db) :
    Weathered modelValidate J p (emptyDisk db)
  | run {a events c} :
    Weathered modelValidate J p a →
    (diskSystem modelValidate J p).run { world := a } events = some c →
    Weathered modelValidate J p c.world
  | fail {t x t'} :
    Weathered modelValidate J p (t, x) →
    t.Fails t' →
    Weathered modelValidate J p (t', x)

instance (e : SubmissionEffect) : Nonempty e.Answer := by
  cases e with
  | createdJobs => exact ⟨([] : List (ComputeJobView × ComputeTaskSpec))⟩
  | recordExists path => exact ⟨false⟩
  | loadRecord path => exact ⟨Except.error (.keyError "")⟩
  | writeRecord path record => exact ⟨()⟩
  | newExternalId => exact ⟨""⟩
  | discoverResources => exact ⟨{ providerId := "", offers := [] }⟩
  | writePrepared prepared => exact ⟨()⟩
  | launch prepared => exact ⟨(0 : Int)⟩
  | commitSubmitted jobId externalId => exact ⟨Except.error (.keyError "")⟩

lemma Weathered.sound {modelValidate : Json → Except PyErr ComputeTaskSpec} {J : JsonText}
    {p : LocalProvider} {a : FileTree String String UInt8 × ProviderWorld}
    (h : Weathered modelValidate J p a) : (p.layer J).sound a := by
  induction h with
  | start db => exact emptyDisk_sound p J db
  | run _ rn ih =>
    exact Machine.pool_sound (layer_fits (J := J)) (fun _ call => p.call_names call) ih rn
  | fail _ failure ih => exact FileTree.Sound.fails ih failure

/-- **Records survive.** At any moment of any history of runs, crashes, failing calls and power
    failures, every JSON file holds a whole text that belongs to its name, and a power failure
    leaves all of them as they were at one moment since the last change of a directory that is on
    the disk. -/
theorem records_survive {modelValidate : Json → Except PyErr ComputeTaskSpec} {J : JsonText}
    {p : LocalProvider} {t : FileTree String String UInt8} {x : ProviderWorld}
    (weathered : Weathered modelValidate J p (t, x)) :
    (∀ path text, IsJsonPath path → t.text path = some text → p.Belongs J path text) ∧
    ∀ t', t.Fails t' →
      ∃ v ∈ t.versions, ∀ path, IsJsonPath path → t'.text path = (v path).map t.inode := by
  have sound : t.Sound jsonFiles (p.Belongs J) := weathered.sound
  refine ⟨fun path text named found => ?_, fun t' failure => ⟨_, failure.entry, ?_⟩⟩
  · obtain ⟨k, linked, rfl⟩ := Option.map_eq_some_iff.mp found
    exact (sound.records _ t.entry_mem_versions path k named linked).2.2
  · exact fun path named => sound.fails_text failure named

/-! ## A reader that is overtaken -/

/-- A character as bytes. -/
def plainChar (c : Char) : List UInt8 :=
  [1, .ofNat (c.toNat / 65536), .ofNat (c.toNat / 256), .ofNat c.toNat]

/-- A text with its end. -/
def plainString (text : String) : List UInt8 :=
  text.toList.flatMap plainChar ++ [0]

/-- A text at the front of some bytes, and the bytes behind it. -/
def plainText : List UInt8 → Option (List Char × List UInt8)
  | 0 :: rest => some ([], rest)
  | 1 :: a :: b :: c :: rest =>
    (plainText rest).map fun found =>
      (Char.ofNat (a.toNat * 65536 + b.toNat * 256 + c.toNat) :: found.1, found.2)
  | _ => none

lemma plainText_plainString (text : String) (rest : List UInt8) :
    plainText (plainString text ++ rest) = some (text.toList, rest) := by
  rw [plainString]
  induction text.toList with
  | nil => rfl
  | cons c chars ih =>
    have bound : c.toNat < 1114112 := by
      have valid : c.toNat < 0xd800 ∨ 0xdfff < c.toNat ∧ c.toNat < 0x110000 := c.valid
      omega
    have digits : (c.toNat / 65536) % 256 * 65536 + (c.toNat / 256) % 256 * 256 + c.toNat % 256 =
        c.toNat := by
      omega
    simp only [List.flatMap_cons, plainChar, List.cons_append, List.nil_append, plainText, ih,
      Option.map_some, UInt8.toNat_ofNat', digits, Char.ofNat_toNat]

/-- A process id as bytes. -/
def plainPid : Option Int → List UInt8
  | none => [0]
  | some (.ofNat n) => 1 :: List.replicate n 0
  | some (.negSucc n) => 2 :: List.replicate n 0

/-- The process id of some bytes. -/
def plainPidOf : List UInt8 → Option Int
  | 1 :: rest => some (.ofNat rest.length)
  | 2 :: rest => some (.negSucc rest.length)
  | _ => none

lemma plainPidOf_plainPid (pid : Option Int) : plainPidOf (plainPid pid) = pid := by
  match pid with
  | none => rfl
  | some (.ofNat n) => simp only [plainPid, plainPidOf, List.length_replicate]
  | some (.negSucc n) => simp only [plainPid, plainPidOf, List.length_replicate]

/-- A record in five pieces. -/
def plainChunks (object : JsonObject) : List (List UInt8) :=
  match SubmissionRecord.ofJson object with
  | .ok record =>
    [plainString record.submissionKey, plainString record.externalJobId,
      plainString record.workdir, [if record.status = .launched then 1 else 0],
      plainPid record.pid]
  | .error _ => []

/-- The record of some bytes. -/
def plainLoad (text : List UInt8) : Except PyErr Json :=
  match plainText text with
  | some (submissionKey, text) =>
    match plainText text with
    | some (externalJobId, text) =>
      match plainText text with
      | some (workdir, status :: pid) =>
        .ok (.dict (SubmissionRecord.toJson
          { submissionKey := String.ofList submissionKey,
            externalJobId := String.ofList externalJobId, workdir := String.ofList workdir,
            status := if status = 1 then .launched else .reserved, pid := plainPidOf pid }))
      | _ => .error (.valueError "json")
    | none => .error (.valueError "json")
  | none => .error (.valueError "json")

/-- FileTree of such texts. -/
def plainJson : JsonText where
  chunks := plainChunks
  prepared _ := []
  load := plainLoad
  load_chunks := by
    intro record
    obtain ⟨submissionKey, externalJobId, workdir, status, pid⟩ := record
    simp only [plainChunks, SubmissionRecord.ofJson_toJson, List.flatten_cons, List.flatten_nil,
      plainLoad, plainText_plainString, List.cons_append, List.nil_append, List.append_nil,
      plainPidOf_plainPid, String.ofList_toList]
    cases status <;> rfl

/-- A job of the plain provider. -/
def plainJob : PreparedJob :=
  { providerId := LocalProvider.providerId, submissionKey := "s", resourceClass := "local_cpu",
    workdir := "w", command := ["true"] }

/-- A process takes some steps. -/
def calls (pid n : Nat) : List DiskEvent :=
  List.replicate n (pid, .perform ({ count := 40 }, {}))

/-- One process submits a job. Another one opens the `RESERVED` record and reads it when the
    `LAUNCHED` record is already in its place. -/
def overtaken : List DiskEvent :=
  [(1, .start (.submit plainJob))] ++ calls 1 11 ++ [(2, .start (.reconcileSubmission "s"))] ++
    calls 2 2 ++ calls 1 8 ++ calls 2 3

/-- The answer of a call. -/
def answered : Option (Except PyErr SubmissionReturn) → Option (String × Option String)
  | some (.ok (.found key known)) => some (key, known)
  | some (.ok (.submitted key externalId)) => some (key, some externalId)
  | _ => none

/-- The status of a record in a version of the entries. -/
def plainStatus (t : FileTree String String UInt8) (v : String → Option Nat) :
    Option SubmissionStatus :=
  ((v "/submissions/s.json").map t.inode).bind fun text => (plainJson.record text).map (·.status)

/-- The statuses of the record, the last one first. -/
def plainStatuses (t : FileTree String String UInt8) : List (Option SubmissionStatus) :=
  t.versions.map (plainStatus t)

lemma overtaken_run :
    ((diskSystem (fun _ => .ok trainingSpec) plainJson plainProvider).run
      { world := emptyDisk Db.empty } overtaken).map
        (fun c => (answered (c.ended 1), answered (c.ended 2), plainStatuses c.world.1)) =
      some (some ("s", some "local-"), some ("s", none),
        [some .launched, some .reserved, some .reserved, none, none]) := by
  decide +kernel

lemma answered_inv {ended : Option (Except PyErr SubmissionReturn)} {answer}
    (h : answered ended = some answer) : ∃ r, ended = some (.ok r) := by
  rw [answered.eq_def] at h
  split at h
  · exact ⟨_, rfl⟩
  · exact ⟨_, rfl⟩
  · cases h

/-- The reader has taken the old record, as if it had read it before the new one was written. -/
theorem submissions_on_files_overtaken :
    ∃ c, (diskSystem (fun _ => .ok trainingSpec) plainJson plainProvider).run
        { world := emptyDisk Db.empty } overtaken = some c ∧
      ∃ events' d, (recordSystem (fun _ => .ok trainingSpec) plainProvider).run
        { world := { db := Db.empty } } events' = some d ∧
      startedCalls events' = startedCalls overtaken ∧
      plainProvider.Shelved plainJson c.world.1.text c.world.2 d.world ∧
      d.ended 1 = c.ended 1 ∧ answered (d.ended 1) = some ("s", some "local-") ∧
      d.ended 2 = c.ended 2 ∧ answered (d.ended 2) = some ("s", none) := by
  obtain ⟨c, rn, seen⟩ := Option.map_eq_some_iff.mp overtaken_run
  obtain ⟨first, second, _⟩ := Prod.mk.inj seen |>.imp_right Prod.mk.inj
  obtain ⟨events', d, rn', calls, shelved, returned⟩ := submissions_on_files rn
  obtain ⟨r, ended⟩ := answered_inv first
  obtain ⟨r', ended'⟩ := answered_inv second
  have same : d.ended 1 = c.ended 1 := (returned 1 r ended).trans ended.symm
  have same' : d.ended 2 = c.ended 2 := (returned 2 r' ended').trans ended'.symm
  refine ⟨c, rn, events', d, rn', calls, shelved, same, ?_, same', ?_⟩
  · rw [same]
    exact first
  · rw [same']
    exact second

/-- A power failure that takes the last change of the directory back leaves the `RESERVED` record,
    in full. -/
theorem records_survive_taken_back :
    ∃ t t' x, Weathered (fun _ => .ok trainingSpec) plainJson plainProvider (t, x) ∧ t.Fails t' ∧
      plainStatus t t.entry = some .launched ∧ plainStatus t' t'.entry = some .reserved ∧
      ∀ path text, IsJsonPath path → t'.text path = some text →
        plainProvider.Belongs plainJson path text := by
  obtain ⟨c, rn, seen⟩ := Option.map_eq_some_iff.mp overtaken_run
  obtain ⟨_, _, statuses⟩ := Prod.mk.inj seen |>.imp_right Prod.mk.inj
  have weathered : Weathered (fun _ => .ok trainingSpec) plainJson plainProvider c.world :=
    .run (.start Db.empty) rn
  obtain ⟨⟨⟨entry, inode, synced, past, next⟩, x⟩, running, ended⟩ := c
  obtain ⟨last, before⟩ := List.cons.inj statuses
  cases past with
  | nil => cases before
  | cons change past =>
    obtain ⟨back, _⟩ := List.cons.inj before
    let t' : FileTree String String UInt8 := { entry := change.2, inode := inode, next := next }
    have failure : FileTree.Fails ⟨entry, inode, synced, change :: past, next⟩ t' :=
      ⟨List.mem_cons_of_mem _ List.mem_cons_self, fun _ _ => rfl, fun _ => rfl, rfl, rfl⟩
    exact ⟨_, t', x, weathered, failure, last, back, (records_survive (weathered.fail failure)).1⟩

end ResearchController
