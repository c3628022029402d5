import ResearchController.Compute.Local.Submission

/-!
# At most one launch for a submission key

`submit` starts the runner before it records that the runner was started. A crash between the two
leaves a `RESERVED` record behind a running process; the next start finds no launched submission and
starts a second runner. `launched_twice` is such a run.

Everywhere else a crash is harmless: `launched_at_most_once` is about all runs whose crashes avoid
that window. The invariant between calls is that every started runner has a `LAUNCHED` record under
its key (`LocalProvider.Recorded`), so a key whose record is absent or `RESERVED` has no runner yet.
-/

namespace ResearchController
open Lib

/-- The number of runners that have been started for a submission key. -/
def LocalWorld.launches (w : LocalWorld) (submissionKey : String) : Nat :=
  (w.runners.map (·.submissionKey)).count submissionKey

/-- Whether an effect is the write of a `LAUNCHED` record. -/
def SubmissionEffect.recordsLaunch : SubmissionEffect → Bool
  | .writeRecord _ record => record.status == .launched
  | _ => false

/-- An event is no crash between the start of a runner and the write of its `LAUNCHED` record. -/
def OutsideWindow
    (c : Config LocalWorld SubmissionEffect SubmissionEffect.Answer PyErr (List String)) :
    RunEvent Unit Surroundings Action → Prop
  | .crash => ∀ program ∈ c.running, ∀ e ∈ program.pending, e.recordsLaunch = false
  | _ => True

instance (c : Config LocalWorld SubmissionEffect SubmissionEffect.Answer PyErr (List String)) :
    (ev : RunEvent Unit Surroundings Action) → Decidable (OutsideWindow c ev)
  | .crash => inferInstanceAs
    (Decidable (∀ program ∈ c.running, ∀ e ∈ program.pending, e.recordsLaunch = false))
  | .start _ => isTrue trivial
  | .perform _ => isTrue trivial
  | .drift _ => isTrue trivial

/-! ## The invariant between calls -/

/-- No key has two runners. -/
def LocalWorld.Once (w : LocalWorld) : Prop :=
  (w.runners.map (·.submissionKey)).Nodup

/-- Every runner has a `LAUNCHED` record under its key, and no key has two runners. -/
structure LocalProvider.Recorded (p : LocalProvider) (w : LocalWorld) : Prop where
  record : ∀ job ∈ w.runners, ∃ record,
    w.submissions.get (p.submissionPath job.submissionKey) = some record ∧
      record.submissionKey = job.submissionKey ∧ record.status = .launched
  once : w.Once

/-- Two worlds agree on the submission records and the runners. -/
structure SameFiles (w w' : LocalWorld) : Prop where
  submissions : w'.submissions = w.submissions
  runners : w'.runners = w.runners

lemma SameFiles.recorded {p : LocalProvider} {w w' : LocalWorld} (same : SameFiles w w')
    (h : p.Recorded w) : p.Recorded w' := by
  constructor
  · rw [same.runners, same.submissions]
    exact h.record
  · unfold LocalWorld.Once
    rw [same.runners]
    exact h.once

/-- The contract of the submission protocol. -/
def LocalProvider.onceContract (p : LocalProvider) :
    Contract LocalWorld SubmissionEffect Action PyErr (List String) where
  rest := p.Recorded
  always := LocalWorld.Once
  crashes e := e.recordsLaunch = false

variable {modelValidate : Json → Except PyErr ComputeTaskSpec} {p : LocalProvider}

/-- The controller's other transactions touch neither records nor runners. -/
lemma localMachine_drift {w w' : LocalWorld} {e : Action}
    (moved : (localMachine modelValidate).drift w e = some w') : SameFiles w w' := by
  simp only [localMachine] at moved
  split at moved
  · cases moved
  · obtain ⟨db, _, rfl⟩ := Option.map_eq_some_iff.mp moved
    exact ⟨rfl, rfl⟩

lemma LocalProvider.onceContract_fits : p.onceContract.Fits (localMachine modelValidate) where
  always h := h.once
  stable h _ moved := (localMachine_drift moved).recorded h
  goodHandle _ _ _ := trivial
  goodDrift _ _ _ := trivial

namespace LocalProvider

/-- A program of the protocol that ends with its invariant. -/
abbrev Guarded {α : Type} (p : LocalProvider) (modelValidate : Json → Except PyErr ComputeTaskSpec)
    (Q : Except PyErr α → LocalWorld → Prop) (program : Submission α) (w : LocalWorld) : Prop :=
  program.Safe (localMachine modelValidate) p.onceContract Q w

/-- One effect: the files are as they were when the program got there. -/
lemma guarded_call {α : Type} {Q : Except PyErr α → LocalWorld → Prop} {e : SubmissionEffect}
    {f : e.Answer → Submission α} {w : LocalWorld} (once : w.Once)
    (rest : e.recordsLaunch = false → p.Recorded w)
    (continues : ∀ w' o, SameFiles w w' → p.Guarded modelValidate Q (f (w'.handle e o).2)
      (w'.handle e o).1) :
    p.Guarded modelValidate Q (Program.call e >>= f) w := by
  apply Program.Safe.call (SameFiles w) ⟨rfl, rfl⟩
  · intro s w' s' same _ moved
    have kept := localMachine_drift moved
    exact ⟨kept.submissions.trans same.submissions, kept.runners.trans same.runners⟩
  · intro t same
    show t.Once
    unfold LocalWorld.Once
    rw [same.runners]
    exact once
  · intro exposed t same
    exact same.recorded (rest exposed)
  · exact fun t o same => continues t o same

/-- The existence check of a record. -/
lemma guarded_exists {α : Type} {Q : Except PyErr α → LocalWorld → Prop} {path : String}
    {f : Bool → Submission α} {w : LocalWorld} (h : p.Recorded w)
    (present : ∀ record w', SameFiles w w' → w'.submissions.get path = some record →
      p.Guarded modelValidate Q (f true) w')
    (missing : ∀ w', SameFiles w w' → w'.submissions.get path = none →
      p.Guarded modelValidate Q (f false) w') :
    p.Guarded modelValidate Q (Submission.recordExists path >>= f) w := by
  apply guarded_call h.once (fun _ => h)
  intro w' o same
  show p.Guarded modelValidate Q (f (w'.submissions.get path).isSome) w'
  cases stored : w'.submissions.get path with
  | some record => exact present record w' same stored
  | none => exact missing w' same stored

/-- The read of a record that is there. -/
lemma guarded_load {α : Type} {Q : Except PyErr α → LocalWorld → Prop} {path : String}
    {f : SubmissionRecord → Submission α} {record : SubmissionRecord} {w : LocalWorld}
    (h : p.Recorded w) (stored : w.submissions.get path = some record)
    (continues : ∀ w', SameFiles w w' → p.Guarded modelValidate Q (f record) w') :
    p.Guarded modelValidate Q
      (Submission.loadRecord path >>= fun loaded => Program.check loaded >>= f) w := by
  apply guarded_call h.once (fun _ => h)
  intro w' o same
  have stored' : w'.submissions.get path = some record := by
    rw [same.submissions]
    exact stored
  simp only [LocalWorld.handle, stored']
  exact continues w' same

/-- The end of `submit`, from a record that is reserved for the key: the window without crashes. -/
lemma guarded_launch {prepared : PreparedJob} {record : SubmissionRecord} {w : LocalWorld}
    (h : p.Recorded w)
    (stored : w.submissions.get (p.submissionPath prepared.submissionKey) = some record)
    (key : record.submissionKey = prepared.submissionKey) (reserved : record.status ≠ .launched) :
    p.Guarded modelValidate (fun _ w' => p.Recorded w')
      (launch (p.submissionPath prepared.submissionKey) record prepared) w := by
  -- a runner on this path would have its `LAUNCHED` record there
  have elsewhere : ∀ job ∈ w.runners,
      p.submissionPath job.submissionKey ≠ p.submissionPath prepared.submissionKey := by
    intro job mem samePath
    obtain ⟨record', stored', _, launched⟩ := h.record job mem
    rw [samePath, stored] at stored'
    cases stored'
    exact reserved launched
  have fresh : prepared.submissionKey ∉ w.runners.map (·.submissionKey) := by
    intro mem
    obtain ⟨job, memJob, sameKey⟩ := List.mem_map.mp mem
    exact elsewhere job memJob (by rw [sameKey])
  apply guarded_call h.once (fun _ => h)
  intro w1 o1 same1
  have runners1 : (w1.handle (.launch prepared) o1).1.runners = w.runners ++ [prepared] := by
    rw [← same1.runners]
    rfl
  have once1 : (w1.handle (.launch prepared) o1).1.Once := by
    unfold LocalWorld.Once
    rw [runners1, List.map_append, List.nodup_append_comm]
    exact List.nodup_cons.mpr ⟨fresh, h.once⟩
  refine guarded_call once1 (fun exposed => ?_) ?_
  · cases (show true = false from exposed)
  intro w2 o2 same2
  constructor
  · intro job mem
    simp only [LocalWorld.handle] at mem ⊢
    rw [same2.runners, runners1] at mem
    rw [same2.submissions]
    rcases List.mem_append.mp mem with old | new
    · obtain ⟨record', stored', key', launched⟩ := h.record job old
      refine ⟨record', ?_, key', launched⟩
      rw [Dict.get_set_ne _ _ (elsewhere job old)]
      exact same1.submissions ▸ stored'
    · rw [List.mem_singleton.mp new]
      exact ⟨_, Dict.get_set_self _ _ _, key, rfl⟩
  · unfold LocalWorld.Once
    rw [show (w2.handle _ o2).1.runners = w2.runners from rfl, same2.runners]
    exact once1

/-- `submit` keeps the invariant. -/
lemma guarded_submit {prepared : PreparedJob} {w : LocalWorld} (h : p.Recorded w) :
    p.Guarded modelValidate (fun _ w' => p.Recorded w') (p.submit prepared) w := by
  apply guarded_exists h
  · intro record w1 same1 stored
    have h1 := same1.recorded h
    rw [if_pos rfl]
    apply guarded_load h1 stored
    intro w2 same2
    have h2 := same2.recorded h1
    split
    · exact h2
    · rename_i key
      split
      · exact h2
      · rename_i reserved
        have stored2 : w2.submissions.get (p.submissionPath prepared.submissionKey) =
            some record := by
          rw [same2.submissions]
          exact stored
        exact guarded_launch h2 stored2 (not_not.mp key) reserved
  · intro w1 same1 missing
    have h1 := same1.recorded h
    rw [if_neg Bool.false_ne_true]
    apply guarded_call h1.once (fun _ => h1)
    intro w2 o2 same2
    have h2 := same2.recorded h1
    apply guarded_call h2.once (fun _ => h2)
    intro w3 o3 same3
    have h3 := same3.recorded h2
    have absent : w3.submissions.get (p.submissionPath prepared.submissionKey) = none := by
      rw [same3.submissions]
      exact (congrArg (Dict.get · _) same2.submissions).trans missing
    apply guarded_launch
    · constructor
      · intro job mem
        obtain ⟨record, stored, found⟩ := h3.record job mem
        have other : p.submissionPath job.submissionKey ≠
            p.submissionPath prepared.submissionKey := by
          intro samePath
          rw [samePath, absent] at stored
          cases stored
        exact ⟨record, (Dict.get_set_ne _ _ other).trans stored, found⟩
      · exact h3.once
    · exact Dict.get_set_self _ _ _
    · rfl
    · exact fun launched => SubmissionStatus.noConfusion launched

/-- `prepare` keeps the invariant. -/
lemma guarded_prepare {spec : ComputeTaskSpec} {resourceClass : String} {w : LocalWorld}
    (h : p.Recorded w) :
    p.Guarded modelValidate (fun _ w' => p.Recorded w') (p.prepare spec resourceClass) w := by
  unfold prepare
  split
  · exact h
  · apply guarded_call h.once (fun _ => h)
    intro w1 o1 same1
    have h1 := same1.recorded h
    apply guarded_call h1.once (fun _ => h1)
    intro w2 o2 same2
    have h2 := same2.recorded h1
    exact ⟨h2.record, h2.once⟩

/-- `reconcile_submission` keeps the invariant. -/
lemma guarded_reconcileSubmission {submissionKey : String} {w : LocalWorld} (h : p.Recorded w) :
    p.Guarded modelValidate (fun _ w' => p.Recorded w')
      (p.reconcileSubmission submissionKey) w := by
  apply guarded_exists h
  · intro record w1 same1 stored
    have h1 := same1.recorded h
    rw [if_pos rfl]
    apply guarded_load h1 stored
    intro w2 same2
    have h2 := same2.recorded h1
    split
    · exact h2
    · split <;> exact h2
  · intro w1 same1 _
    rw [if_neg Bool.false_ne_true]
    exact same1.recorded h

/-- The transaction keeps the invariant: it touches the database only. -/
lemma guarded_commit {jobId externalId : String} {w : LocalWorld} (h : p.Recorded w) :
    p.Guarded modelValidate (fun _ w' => p.Recorded w')
      (Submission.commitSubmitted jobId externalId >>= Program.check) w := by
  apply guarded_call h.once (fun _ => h)
  intro w1 o1 same1
  have h1 := same1.recorded h
  simp only [LocalWorld.handle]
  split
  · exact ⟨h1.record, h1.once⟩
  · exact h1

/-- An iteration of `reconcile_created` keeps the invariant. -/
lemma guarded_reconcileOne {view : ComputeJobView} {spec : ComputeTaskSpec} {w : LocalWorld}
    (h : p.Recorded w) :
    p.Guarded modelValidate (fun _ w' => p.Recorded w') (p.reconcileOne view spec) w := by
  unfold reconcileOne
  split
  · exact h
  · apply (guarded_reconcileSubmission h).bind ?_ (fun _ _ h' => h')
    intro known w1 h1
    cases known with
    | some externalId => exact guarded_commit h1
    | none =>
      apply (guarded_prepare h1).bind ?_ (fun _ _ h' => h')
      intro prepared w2 h2
      apply (guarded_submit h2).bind ?_ (fun _ _ h' => h')
      intro externalId w3 h3
      exact guarded_commit h3

/-- `reconcile_created` keeps the invariant, whatever jobs its query returns. -/
lemma guarded_reconcileEach {records : List (ComputeJobView × ComputeTaskSpec)} {w : LocalWorld}
    (h : p.Recorded w) :
    p.Guarded modelValidate (fun _ w' => p.Recorded w') (p.reconcileEach records) w := by
  induction records generalizing w with
  | nil => exact h
  | cons item rest ih =>
    obtain ⟨view, spec⟩ := item
    apply (guarded_reconcileOne h).bind ?_ (fun _ _ h' => h')
    intro first w1 h1
    apply (ih h1).bind ?_ (fun _ _ h' => h')
    intro others w2 h2
    exact h2

lemma guarded_reconcileCreated {w : LocalWorld} (h : p.Recorded w) :
    p.Guarded modelValidate (fun _ w' => p.Recorded w') p.reconcileCreated w := by
  apply guarded_call h.once (fun _ => h)
  intro w1 o1 same1
  exact guarded_reconcileEach (same1.recorded h)

end LocalProvider

/-! ## The runs -/

/-- In every run whose crashes avoid the window between the start of a runner and the write of its
    `LAUNCHED` record, no submission key has more than one runner. -/
theorem launched_at_most_once {modelValidate : Json → Except PyErr ComputeTaskSpec}
    {p : LocalProvider} {db : Db} {events : List (RunEvent Unit Surroundings Action)}
    {c : Config LocalWorld SubmissionEffect SubmissionEffect.Answer PyErr (List String)}
    (rn : (submissionSystem modelValidate p).run { world := { db := db } } events = some c)
    (outside :
      (submissionSystem modelValidate p).Meets OutsideWindow { world := { db := db } } events)
    (submissionKey : String) : c.world.launches submissionKey ≤ 1 := by
  have start : p.Recorded { db := db } := by
    refine ⟨?_, List.nodup_nil⟩
    intro job mem
    cases mem
  have permitted : ((localMachine modelValidate).system fun _ => p.reconcileCreated).Meets
      p.onceContract.permits { world := { db := db } } events := by
    apply System.Meets.mono ?_ outside
    intro c ev window
    cases ev with
    | crash => exact window
    | drift w => exact fun _ _ _ _ => trivial
    | start a => trivial
    | perform o => trivial
  have secure := Machine.run_secure LocalProvider.onceContract_fits
    (fun _ w h => (LocalProvider.guarded_reconcileCreated h).mono fun _ _ h' => ⟨h', trivial⟩)
    rn permitted start
  exact List.nodup_iff_count_le_one.mp secure.always submissionKey

/-! ## A submission that is interrupted -/

/-- The spec of the submitted job. -/
def trainingSpec : ComputeTaskSpec :=
  { projectId := "p", taskId := "t", submissionKey := "s", execution := { command := ["train"] },
    resources := {} }

/-- A task is dispatched; its job is `CREATED`. -/
def dispatchedJob : List (RunEvent Unit Surroundings Action) :=
  [ .drift (.createProject "p" "slug" .active),
    .drift (.createTask { id := "t", projectId := "p", executor := .compute,
                          idempotencyKey := "t", specJson := .null }),
    .drift (.reconcile 0 0 ["t"]),
    .drift (.dispatch { id := "j", taskId := "t", providerId := "local",
                        resourceClass := "local_cpu", submissionKey := "s",
                        remoteWorkdir := "/w", specJson := trainingSpec } "c" 60 0) ]

/-- A call of `reconcile_created` that performs `n` effects. -/
def reconciling (n : Nat) : List (RunEvent Unit Surroundings Action) :=
  .start () :: List.replicate n (.perform {})

/-- A provider whose digest is the key itself. -/
def plainProvider : LocalProvider := { root := "", digest := id }

/-- A crash right after the start of the runner lets the next start of the controller launch
    again. -/
theorem launched_twice :
    ¬ ∀ (events : List (RunEvent Unit Surroundings Action))
        (c : Config LocalWorld SubmissionEffect SubmissionEffect.Answer PyErr (List String)),
        (submissionSystem (fun _ => .ok trainingSpec) plainProvider).run
          { world := { db := Db.empty } } events = some c →
        ∀ submissionKey, c.world.launches submissionKey ≤ 1 := by
  intro once
  have twice : ((submissionSystem (fun _ => .ok trainingSpec) plainProvider).run
      { world := { db := Db.empty } }
      (dispatchedJob ++ reconciling 8 ++ [.crash] ++ reconciling 8)).map
        (·.world.launches "s") = some 2 := by decide
  obtain ⟨c, rn, launches⟩ := Option.map_eq_some_iff.mp twice
  have atMost := once _ c rn "s"
  omega

/-- A crash between the reservation and the start of the runner is harmless: the next start launches
    the runner once and commits the submission. -/
theorem launched_at_most_once_reserved :
    ∃ c, (submissionSystem (fun _ => .ok trainingSpec) plainProvider).run
        { world := { db := Db.empty } }
        (dispatchedJob ++ reconciling 7 ++ [.crash] ++ reconciling 10) = some c ∧
      c.world.launches "s" ≤ 1 ∧
      (c.world.db.jobs.get "j").map (·.executionStatus) = some .submitted := by
  have last : ((submissionSystem (fun _ => .ok trainingSpec) plainProvider).run
      { world := { db := Db.empty } }
      (dispatchedJob ++ reconciling 7 ++ [.crash] ++ reconciling 10)).map
        (fun c => (c.world.db.jobs.get "j").map (·.executionStatus)) = some (some .submitted) := by
    decide
  obtain ⟨c, rn, submitted⟩ := Option.map_eq_some_iff.mp last
  exact ⟨c, rn, launched_at_most_once rn (by decide) "s", submitted⟩

end ResearchController
