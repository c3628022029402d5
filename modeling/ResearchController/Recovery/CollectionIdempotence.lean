import ResearchController.Artifacts.Produced
import ResearchController.Lib.Program
import ResearchController.Lifecycle.ArtifactLog

/-!
# Collection may be repeated

`_reconcile_collecting` ingests the candidates of a job one transaction after the other and
finalises the job in the last one. A crash leaves the rows of some first part of the candidates
behind, and the next call begins with the first candidate again. `collection_idempotent` compares
two runs, with any crashes and restarts, that both have finalised the job: they end with the same
artifacts of the job, the same status of the job and the same status of its task.

A `Collection` is what is fixed meanwhile. Between any two transactions the job is open and the
rows of a first part of its candidates are stored, or it is done (`Collection.At`).
-/

namespace ResearchController
open Lib

/-- A moment of such a run. -/
abbrev CollectingConfig :=
  Config Db ReconcileEffect ReconcileEffect.Answer PyErr (List String)

/-- The runs of `_reconcile_collecting` with crashes and restarts; nothing else happens. -/
def collectingSystem (r : ReconcilerSetup) :
    System CollectingConfig (RunEvent Unit ReconcileAnswer Empty) :=
  (collectingMachine r).system fun _ => reconcileCollecting r

/-- A job in `COLLECTING`, the database at that moment, and what the reconciler works with. -/
structure Collection where
  setup : ReconcilerSetup
  start : Db
  jobId : String
  job : ComputeJob
  stored : start.jobs.get jobId = some job
  collecting : job.executionStatus = .collecting

namespace Collection

variable (k : Collection)

/-- The job as the provider sees it. -/
abbrev view : ComputeJobView := k.job.view k.jobId

/-- The files of the job. -/
abbrev files : Workdir := k.setup.files k.view.remoteWorkdir

/-- The candidates that the provider finds. -/
def candidates : List ArtifactCandidate :=
  match k.setup.collect k.view with
  | .ok candidates => candidates
  | .error _ => []

/-- The rows of the candidates `done` have been added. -/
def Ingested (db : Db) (done : List ArtifactCandidate) : Prop :=
  ∃ added, db.produced k.view = k.start.produced k.view ++ added ∧
    List.Forall₂ (k.setup.StoredAs k.view)
      (firsts k.files.content (k.start.contents k.view) done) added

/-- The status that the task is going to have once the job is finalised. -/
def TaskKept (db : Db) : Prop :=
  (db.tasks.get k.job.taskId).map (·.status.settled) =
    (k.start.tasks.get k.job.taskId).map (·.status.settled)

/-- The job is not finalised, and at least the candidates up to `before` have been ingested. -/
def Open (before : List ArtifactCandidate) (db : Db) : Prop :=
  db.jobs.get k.jobId = some k.job ∧
    ∃ done, before <+: done ∧ done <+: k.candidates ∧ k.Ingested db done

/-- The job has been finalised. -/
structure Done (db : Db) : Prop where
  job : ∃ j, db.jobs.get k.jobId = some j ∧ j.executionStatus ≠ .collecting ∧
    observedTerminal k.job.providerMetadataJson = .ok j.executionStatus
  ingested : k.Ingested db k.candidates
  task : ∀ t, db.tasks.get k.job.taskId = some t → t.status ≠ .running

/-- What holds when the candidates up to `before` have been gone through. -/
structure At (before : List ArtifactCandidate) (db : Db) : Prop where
  registered : db.Registered
  task : k.TaskKept db
  progress : k.Open before db ∨ k.Done db

end Collection

namespace Collection

variable {k : Collection} {db db' : Db} {before : List ArtifactCandidate}

/-! ## Candidates -/

/-- The contents of the job after some of the candidates have been ingested. -/
lemma Ingested.contents {done : List ArtifactCandidate} (h : k.Ingested db done) :
    db.contents k.view = k.start.contents k.view ++
      (firsts k.files.content (k.start.contents k.view) done).map k.files.content := by
  obtain ⟨added, produced, stored⟩ := h
  unfold Db.contents
  rw [produced, List.map_append, ReconcilerSetup.contents_of_stored stored]
  rfl

/-- What the artifacts say does not depend on the way that led to them. -/
lemma Ingested.descriptions {done : List ArtifactCandidate} (h : k.Ingested db done)
    (h' : k.Ingested db' done) : db.descriptions k.view = db'.descriptions k.view := by
  obtain ⟨added, produced, stored⟩ := h
  obtain ⟨added', produced', stored'⟩ := h'
  unfold Db.descriptions
  rw [produced, produced', List.map_append, List.map_append,
    ReconcilerSetup.descriptions_of_stored stored, ReconcilerSetup.descriptions_of_stored stored']

/-- A candidate that has been ingested is there. -/
lemma Ingested.mem {done : List ArtifactCandidate} (h : k.Ingested db done)
    {candidate : ArtifactCandidate} (mem : candidate ∈ done) :
    k.files.content candidate ∈ db.contents k.view := by
  rw [h.contents]
  by_cases old : k.files.content candidate ∈ k.start.contents k.view
  · exact List.mem_append_left _ old
  · obtain ⟨first, kept, same⟩ := exists_mem_firsts mem old
    rw [← same]
    exact List.mem_append_right _ (List.mem_map_of_mem kept)

/-- The next candidate is ingested. -/
lemma Ingested.next {done : List ArtifactCandidate} (h : k.Ingested db done)
    {candidate : ArtifactCandidate} {id artifactId : String}
    (ingest : k.setup.ingest db k.view candidate id = .ok (artifactId, db')) :
    k.Ingested db' (done ++ [candidate]) := by
  have contents := h.contents
  obtain ⟨added, produced, stored⟩ := h
  have one : firsts k.files.content (k.start.contents k.view) (done ++ [candidate]) =
      firsts k.files.content (k.start.contents k.view) done ++
        if k.files.content candidate ∈ db.contents k.view then [] else [candidate] := by
    rw [firsts_append, ← contents, firsts, firsts]
    split <;> rfl
  unfold Ingested
  rw [one]
  obtain ⟨known, rfl⟩ | ⟨unknown, x, version, p, row, absent, _, rfl⟩ :=
    ReconcilerSetup.ingest_ok ingest
  · rw [if_pos known, List.append_nil]
    exact ⟨added, produced, stored⟩
  · rw [if_neg unknown]
    refine ⟨added ++ [(id, x)], ?_, List.rel_append stored (.cons row .nil)⟩
    rw [Db.produced_own (ReconcilerSetup.ingest_items absent) row.producedBy, produced,
      List.append_assoc]

/-- An ingest for another job. -/
lemma Ingested.other {done : List ArtifactCandidate} (h : k.Ingested db done)
    {view : ComputeJobView} (other : view.id ≠ k.jobId) {candidate : ArtifactCandidate}
    {id artifactId : String}
    (ingest : k.setup.ingest db view candidate id = .ok (artifactId, db')) :
    k.Ingested db' done := by
  obtain ⟨_, rfl⟩ | ⟨_, x, version, p, row, absent, _, rfl⟩ := ReconcilerSetup.ingest_ok ingest
  · exact h
  · obtain ⟨added, produced, stored⟩ := h
    refine ⟨added, ?_, stored⟩
    rw [Db.produced_other (ReconcilerSetup.ingest_items absent) (row.other other), produced]

/-! ## Transactions -/

lemma At.mono {before' : List ArtifactCandidate} (h : k.At before db)
    (shorter : before' <+: before) : k.At before' db := by
  refine ⟨h.registered, h.task, h.progress.imp_left ?_⟩
  rintro ⟨hj, done, longer, part, ingested⟩
  exact ⟨hj, done, shorter.trans longer, part, ingested⟩

/-- An ingest changes artifacts only. -/
lemma ingest_rows {view : ComputeJobView} {candidate : ArtifactCandidate} {id artifactId : String}
    (ingest : k.setup.ingest db view candidate id = .ok (artifactId, db')) :
    db'.jobs = db.jobs ∧ db'.tasks = db.tasks ∧ (db.Registered → db'.Registered) := by
  have registered : db.Registered → db'.Registered := by
    intro rg
    unfold ReconcilerSetup.ingest at ingest
    split at ingest
    · exact rg.ingestRow ingest
    · cases ingest
  obtain ⟨jobs, tasks⟩ := ReconcilerSetup.ingest_keeps ingest
  exact ⟨jobs, tasks, registered⟩

/-- An ingest that leaves the candidates of the job as they are. -/
lemma At.ingest (h : k.At before db) {after : List ArtifactCandidate} {view : ComputeJobView}
    {candidate : ArtifactCandidate} {id artifactId : String}
    (ingest : k.setup.ingest db view candidate id = .ok (artifactId, db'))
    (open_ : k.Open before db → ∃ done, after <+: done ∧ done <+: k.candidates ∧
      k.Ingested db' done)
    (done : k.Done db → k.Ingested db' k.candidates) : k.At after db' := by
  obtain ⟨jobs, tasks, registered⟩ := ingest_rows ingest
  refine ⟨registered h.registered, ?_, ?_⟩
  · unfold TaskKept
    rw [tasks]
    exact h.task
  · rcases h.progress with opened | finished
    · exact Or.inl ⟨by rw [jobs]; exact opened.1, open_ opened⟩
    · refine Or.inr ⟨?_, done finished, ?_⟩
      · rw [jobs]
        exact finished.job
      · rw [tasks]
        exact finished.task

lemma At.ingestOther (h : k.At before db) {view : ComputeJobView} (other : view.id ≠ k.jobId)
    {candidate : ArtifactCandidate} {id artifactId : String}
    (ingest : k.setup.ingest db view candidate id = .ok (artifactId, db')) : k.At before db' := by
  apply h.ingest ingest
  · rintro ⟨_, done, longer, part, ingested⟩
    exact ⟨done, longer, part, ingested.other other ingest⟩
  · exact fun finished => finished.ingested.other other ingest

/-- The next candidate of the job. -/
lemma At.ingestOwn (h : k.At before db) {candidate : ArtifactCandidate}
    {rest : List ArtifactCandidate} (split : k.candidates = before ++ candidate :: rest)
    {id artifactId : String}
    (ingest : k.setup.ingest db k.view candidate id = .ok (artifactId, db')) :
    k.At (before ++ [candidate]) db' := by
  -- a candidate that has been ingested before changes nothing
  have again : ∀ {done}, candidate ∈ done → k.Ingested db done → k.Ingested db' done := by
    intro done mem ingested
    obtain ⟨_, rfl⟩ | ⟨unknown, _⟩ := ReconcilerSetup.ingest_ok ingest
    · exact ingested
    · exact (unknown (ingested.mem mem)).elim
  apply h.ingest ingest
  · rintro ⟨_, done, ⟨more, rfl⟩, part, ingested⟩
    cases more with
    | nil =>
      rw [List.append_nil] at ingested
      refine ⟨before ++ [candidate], List.prefix_rfl, ⟨rest, ?_⟩, ingested.next ingest⟩
      rw [split, List.append_assoc, List.singleton_append]
    | cons next more =>
      have same : next = candidate := by
        obtain ⟨tail, e⟩ := part
        rw [split, List.append_assoc] at e
        exact (List.cons.inj (List.append_cancel_left e)).1
      subst same
      refine ⟨before ++ next :: more, ⟨more, by rw [List.append_assoc]; rfl⟩, part, ?_⟩
      exact again (List.mem_append_right _ List.mem_cons_self) ingested
  · intro finished
    apply again ?_ finished.ingested
    rw [split]
    exact List.mem_append_right _ List.mem_cons_self

/-- What a finalising transaction does to the statuses of tasks. -/
lemma collectingCommit_tasks {id : String} {now : Datetime} {jobIds : List String}
    (h : db.collectingCommit id now = .ok (jobIds, db')) (taskId : String) :
    (db'.tasks.get taskId).map (·.status.settled) = (db.tasks.get taskId).map (·.status.settled) ∧
      ((∀ t, db.tasks.get taskId = some t → t.status ≠ .running) →
        ∀ t, db'.tasks.get taskId = some t → t.status ≠ .running) := by
  obtain ⟨rfl, _⟩ | ⟨job, terminal, _, _, _, _, _, _, _, ⟨task, ht, running, tasks⟩ | ⟨tasks, _⟩⟩ :=
    Db.collectingCommit_ok h
  · exact ⟨rfl, fun idle => idle⟩
  · rw [tasks, Dict.get_set]
    split
    · rename_i here
      rw [here, ht, Option.map_some, Option.map_some, Task.moved_status, running]
      refine ⟨rfl, fun idle => (idle task rfl running).elim⟩
    · exact ⟨rfl, fun idle => idle⟩
  · rw [tasks]
    exact ⟨rfl, fun idle => idle⟩

/-- A finalising transaction keeps the rows of artifacts. -/
lemma collectingCommit_produced {id : String} {now : Datetime} {jobIds : List String}
    (h : db.collectingCommit id now = .ok (jobIds, db')) (done : List ArtifactCandidate)
    (ingested : k.Ingested db done) : k.Ingested db' done := by
  have same : db'.artifacts = db.artifacts := by
    obtain ⟨rfl, _⟩ | ⟨_, _, _, _, _, _, artifacts, _⟩ := Db.collectingCommit_ok h
    · rfl
    · exact artifacts
  unfold Ingested Db.produced
  rw [same]
  exact ingested

lemma At.finaliseOther (h : k.At before db) {id : String} (other : id ≠ k.jobId) {now : Datetime}
    {jobIds : List String} (commit : db.collectingCommit id now = .ok (jobIds, db')) :
    k.At before db' := by
  obtain ⟨task, idle⟩ := collectingCommit_tasks commit k.job.taskId
  have jobs : db'.jobs.get k.jobId = db.jobs.get k.jobId := by
    obtain ⟨rfl, _⟩ | ⟨_, _, _, _, _, _, _, _, jobs, _⟩ := Db.collectingCommit_ok commit
    · rfl
    · rw [jobs]
      exact Dict.get_set_ne _ _ other.symm
  have registered := h.registered.keeps (Db.collectingCommit_writes commit).keepsArtifacts
  refine ⟨registered, task.trans h.task, ?_⟩
  rcases h.progress with ⟨hj, done, longer, part, ingested⟩ | finished
  · exact Or.inl ⟨jobs.trans hj, done, longer, part,
      collectingCommit_produced commit done ingested⟩
  · refine Or.inr ⟨?_, collectingCommit_produced commit _ finished.ingested, idle finished.task⟩
    rw [jobs]
    exact finished.job

/-- The job is finalised after its last candidate. -/
lemma At.finaliseOwn (h : k.At k.candidates db) {now : Datetime} {jobIds : List String}
    (commit : db.collectingCommit k.jobId now = .ok (jobIds, db')) : k.At k.candidates db' := by
  obtain ⟨task, idle⟩ := collectingCommit_tasks commit k.job.taskId
  have registered := h.registered.keeps (Db.collectingCommit_writes commit).keepsArtifacts
  refine ⟨registered, task.trans h.task, ?_⟩
  have produced := collectingCommit_produced (k := k) commit
  rcases h.progress with ⟨hj, done, longer, part, ingested⟩ | finished
  · obtain ⟨_, notCollecting⟩ | ⟨job, terminal, hj', _, outcome, _, _, _, jobs, tasks⟩ :=
      Db.collectingCommit_ok commit
    · exact (notCollecting k.job hj k.collecting).elim
    · rw [hj] at hj'
      cases hj'
      have row : db'.jobs.get k.jobId = some (k.job.stepped terminal now) := by
        rw [jobs]
        exact Dict.get_set_self _ _ _
      by_cases same : terminal = .collecting
      · -- an outcome that is no end leaves the job where it is
        left
        rw [same, ComputeJob.stepped, if_pos k.collecting.symm] at row
        exact ⟨row, done, longer, part, produced done ingested⟩
      · right
        have whole : done = k.candidates := part.eq_of_length_le longer.length_le
        rw [whole] at ingested
        refine ⟨⟨_, row, ?_, ?_⟩, produced _ ingested, ?_⟩
        · rw [ComputeJob.stepped_executionStatus]
          exact same
        · rw [ComputeJob.stepped_executionStatus]
          exact outcome
        · intro t ht running
          rcases tasks with ⟨task, ht', _, tasks⟩ | ⟨tasks, other⟩
          · rw [tasks, Dict.get_set_self] at ht
            cases ht
            rw [Task.moved_status] at running
            cases running
          · rw [tasks] at ht
            exact other t ht running
  · have jobs : db' = db := by
      obtain ⟨same, _⟩ | ⟨job, _, hj', collecting, _⟩ := Db.collectingCommit_ok commit
      · exact same
      · obtain ⟨j, hj, closed, _⟩ := finished.job
        rw [hj] at hj'
        cases hj'
        exact (closed collecting).elim
    rw [jobs]
    exact Or.inr finished

/-! ## The program -/

/-- The contract: nothing is lost at any point where a crash may strike. -/
def contract (k : Collection) : Contract Db ReconcileEffect Empty PyErr (List String) where
  rest := k.At []

/-- A program of the reconciler that starts with the candidates up to `before` gone through and ends
    with `Q` if it returns. -/
abbrev Keeps {α : Type} (k : Collection) (Q : Db → Prop) (program : Reconciling α) (db : Db) :
    Prop :=
  program.Safe (collectingMachine k.setup) k.contract
    (fun r db' => k.At [] db' ∧ (r.isOk = true → Q db')) db

lemma keeps_bind {α β : Type} {Q Q' : Db → Prop} {program : Reconciling α}
    {f : α → Reconciling β} (h : k.Keeps Q program db)
    (returns : ∀ a db', Q db' → k.At [] db' → k.Keeps Q' (f a) db') :
    k.Keeps Q' (program >>= f) db := by
  apply Program.Safe.bind h
  · rintro a db' ⟨rest, holds⟩
    exact returns a db' (holds rfl) rest
  · rintro e db' ⟨rest, _⟩
    refine ⟨rest, ?_⟩
    intro no
    cases no

/-- A result of the provider is looked at. -/
lemma keeps_check {α β : Type} {Q : Db → Prop} {x : Except PyErr α} {f : α → Reconciling β}
    (h : k.At [] db) (returns : ∀ a, x = .ok a → k.Keeps Q (f a) db) :
    k.Keeps Q (Program.check x >>= f) db := by
  cases x with
  | ok a => exact returns a rfl
  | error e =>
    refine ⟨h, ?_⟩
    intro no
    cases no

/-- An effect is performed. -/
lemma keeps_call {α : Type} {Q : Db → Prop} {e : ReconcileEffect} {f : e.Answer → Reconciling α}
    (h : k.At [] db)
    (continues : ∀ o, k.Keeps Q (f (k.setup.handle db e o).2) (k.setup.handle db e o).1) :
    k.Keeps Q (Program.call e >>= f) db :=
  Program.Safe.call_still (fun _ _ => rfl) h (fun _ => h) continues

/-- A transaction that is rolled back when it raises. -/
lemma keeps_commit {α β : Type} {Q : Db → Prop} {x : Except PyErr (α × Db)}
    {f : α → Reconciling β} (h : k.At [] db)
    (returns : ∀ a db', x = .ok (a, db') → k.Keeps Q (f a) db') :
    k.Keeps Q (Program.check (db.finish x).2 >>= f) (db.finish x).1 := by
  cases x with
  | ok done => exact returns done.1 done.2 rfl
  | error e =>
    refine keeps_check h ?_
    intro a no
    cases no

lemma keeps_ret {α : Type} {Q : Db → Prop} {a : α} (h : k.At [] db) (holds : Q db) :
    k.Keeps Q (pure a) db :=
  ⟨h, fun _ => holds⟩

/-- The candidates of the job are ingested one after the other. -/
lemma keeps_ingestOwn {rest : List ArtifactCandidate} (split : k.candidates = before ++ rest)
    (h : k.At before db) : k.Keeps (k.At k.candidates) (ingestEach k.view rest) db := by
  induction rest generalizing before db with
  | nil =>
    rw [List.append_nil] at split
    refine keeps_ret (h.mono List.nil_prefix) ?_
    rw [split]
    exact h
  | cons candidate rest ih =>
    have start := h.mono List.nil_prefix
    refine keeps_call start fun o => keeps_commit start ?_
    intro id db' ingest
    refine ih ?_ (h.ingestOwn split ingest)
    rw [split, List.append_assoc, List.singleton_append]

/-- The candidates of another job. -/
lemma keeps_ingestOther {view : ComputeJobView} (other : view.id ≠ k.jobId)
    {candidates : List ArtifactCandidate} (h : k.At [] db) :
    k.Keeps (k.At []) (ingestEach view candidates) db := by
  induction candidates generalizing db with
  | nil => exact keeps_ret h h
  | cons candidate rest ih =>
    refine keeps_call h fun o => keeps_commit h ?_
    intro id db' ingest
    exact ih (h.ingestOther other ingest)

/-- A program that ends with the transaction of a job. -/
lemma keeps_finalise {id : String} (h : k.At [] db)
    (commits : ∀ {now jobIds db'}, db.collectingCommit id now = .ok (jobIds, db') → k.At [] db') :
    k.Keeps (k.At []) (do Program.check (← Reconciling.finalise id)) db := by
  refine keeps_call h ?_
  intro o
  cases commit : db.collectingCommit id o.now with
  | error e =>
    simp only [ReconcilerSetup.handle, commit]
    exact ⟨h, fun _ => h⟩
  | ok done =>
    simp only [ReconcilerSetup.handle, commit]
    exact ⟨commits commit, fun _ => commits commit⟩

/-- One iteration of `_reconcile_collecting`. -/
lemma keeps_collectOne {view : ComputeJobView} (own : view.id = k.jobId → view = k.view)
    (h : k.At [] db) : k.Keeps (k.At []) (collectOne k.setup view) db := by
  refine keeps_check h fun _ _ => keeps_call h fun _ => keeps_check h ?_
  intro candidates collected
  by_cases same : view.id = k.jobId
  · have e := own same
    subst e
    have split : k.candidates = [] ++ candidates := by
      have found : k.setup.collect k.view = .ok candidates := collected
      unfold Collection.candidates
      rw [found]
      rfl
    refine keeps_bind (keeps_ingestOwn split h) ?_
    intro _ db' at_ rest
    exact keeps_finalise rest fun commit => (at_.finaliseOwn commit).mono List.nil_prefix
  · refine keeps_bind (keeps_ingestOther same h) ?_
    intro _ db' at_ rest
    exact keeps_finalise rest fun commit => at_.finaliseOther same commit

/-- The loop of `_reconcile_collecting`. -/
lemma keeps_collectEach {views : List ComputeJobView}
    (own : ∀ view ∈ views, view.id = k.jobId → view = k.view) (h : k.At [] db) :
    k.Keeps (k.At []) (collectEach k.setup views) db := by
  induction views generalizing db with
  | nil => exact keeps_ret h h
  | cons view views ih =>
    refine keeps_bind (keeps_collectOne (own view List.mem_cons_self) h) ?_
    intro _ db1 at1 _
    refine keeps_bind (ih (fun view' mem => own view' (List.mem_cons_of_mem _ mem)) at1) ?_
    intro _ db2 at2 _
    exact keeps_ret at2 at2

/-- `_reconcile_collecting`. -/
lemma keeps_reconcileCollecting (h : k.At [] db) :
    k.Keeps (k.At []) (reconcileCollecting k.setup) db := by
  refine keeps_call h ?_
  intro o
  refine keeps_collectEach ?_ h
  intro view mem same
  obtain ⟨id, job, hj, collecting, rfl⟩ := Db.mem_collectingJobs.mp (mem_arranged mem)
  cases same
  rcases h.progress with ⟨row, _⟩ | finished
  · rw [row] at hj
    cases hj
    rfl
  · obtain ⟨j, row, closed, _⟩ := finished.job
    rw [row] at hj
    cases hj
    exact (closed collecting).elim

/-! ## Runs -/

lemma contract_fits (k : Collection) : k.contract.Fits (collectingMachine k.setup) where
  always h := h
  stable _ _ moved := by cases moved
  goodHandle _ _ _ := trivial
  goodDrift _ _ _ := trivial

/-- Wherever a crash strikes, the job is open or done. -/
lemma at_of_run (registered : k.start.Registered)
    {events : List (RunEvent Unit ReconcileAnswer Empty)} {c : CollectingConfig}
    (rn : (collectingSystem k.setup).run { world := k.start } events = some c) :
    k.At [] c.world := by
  have start : k.At [] k.start := by
    refine ⟨registered, rfl, Or.inl ⟨k.stored, [], List.prefix_rfl, List.nil_prefix, [], ?_, .nil⟩⟩
    rw [List.append_nil]
  have permitted : (collectingSystem k.setup).Meets k.contract.permits { world := k.start }
      events := by
    refine System.Meets.all ?_ _ _
    intro c ev
    cases ev with
    | crash => exact fun _ _ _ _ => trivial
    | drift w => cases w
    | start a => trivial
    | perform o => trivial
  have secure := Machine.run_secure k.contract_fits
    (fun _ db h => (keeps_reconcileCollecting h).mono fun _ _ ended => ⟨ended.1, trivial⟩)
    rn permitted start
  exact secure.always

end Collection

/-! ## Two runs -/

/-- A producer has every name and content once. -/
lemma Db.Registered.nodup_contents {db : Db} (rg : db.Registered) (view : ComputeJobView) :
    (db.contents view).Nodup := by
  have items : (db.produced view).Nodup :=
    (List.Nodup.of_map Prod.fst db.artifacts.nodup).filter _
  refine items.map_on ?_
  rintro ⟨i, x⟩ mem ⟨i', x'⟩ mem' same
  obtain ⟨item, own⟩ := List.mem_filter.mp mem
  obtain ⟨item', own'⟩ := List.mem_filter.mp mem'
  have hx := (Dict.mem_items _).mp item
  have hx' := (Dict.mem_items _).mp item'
  have key : x.key = x'.key := by
    simp only [Artifact.producedBy, Bool.and_eq_true, beq_iff_eq] at own own'
    simp only [Artifact.content, Prod.mk.injEq] at same
    simp only [Artifact.key, own, own', same]
  cases rg.unique hx hx' key
  cases hx.symm.trans hx'
  rfl

/-- Collecting a job may crash and be restarted at any point. Two runs that both have finalised the
    job have stored the same artifacts for it and given it and its task the same status. Each name
    and content is there once, with one event for its creation and one for its verification. -/
theorem collection_idempotent {modelValidate : Json → Except PyErr ComputeTaskSpec}
    {actions : List Action} {db : Db} {r : ReconcilerSetup} {jobId : String} {job : ComputeJob}
    {events events' : List (RunEvent Unit ReconcileAnswer Empty)} {c c' : CollectingConfig}
    (reachable : (controller modelValidate).run Db.empty actions = some db)
    (stored : db.jobs.get jobId = some job) (collecting : job.executionStatus = .collecting)
    (rn : (collectingSystem r).run { world := db } events = some c)
    (rn' : (collectingSystem r).run { world := db } events' = some c')
    (finalised : ∀ j, c.world.jobs.get jobId = some j → j.executionStatus ≠ .collecting)
    (finalised' : ∀ j, c'.world.jobs.get jobId = some j → j.executionStatus ≠ .collecting) :
    c.world.descriptions (job.view jobId) = c'.world.descriptions (job.view jobId) ∧
      (c.world.jobs.get jobId).map (·.executionStatus) =
        (c'.world.jobs.get jobId).map (·.executionStatus) ∧
      (c.world.tasks.get job.taskId).map (·.status) =
        (c'.world.tasks.get job.taskId).map (·.status) ∧
      (c.world.contents (job.view jobId)).Nodup ∧
      ∀ item ∈ c.world.produced (job.view jobId),
        (c.world.entityEvents "ARTIFACT" item.1).map (·.eventType) =
          ["ARTIFACT_CREATED", "ARTIFACT_VERIFIED"] := by
  let k : Collection :=
    { setup := r, start := db, jobId := jobId, job := job, stored := stored,
      collecting := collecting }
  have rg := controller_registered reachable
  have done : ∀ {events c}, (collectingSystem r).run { world := db } events = some c →
      (∀ j, c.world.jobs.get jobId = some j → j.executionStatus ≠ .collecting) →
      c.world.Registered ∧ k.TaskKept c.world ∧ k.Done c.world := by
    intro events c rn finalised
    have at_ := Collection.at_of_run (k := k) rg rn
    refine ⟨at_.registered, at_.task, ?_⟩
    rcases at_.progress with ⟨row, _⟩ | finished
    · exact (finalised job row collecting).elim
    · exact finished
  obtain ⟨registered, kept, end1⟩ := done rn finalised
  obtain ⟨_, kept', end2⟩ := done rn' finalised'
  refine ⟨end1.ingested.descriptions end2.ingested, ?_, ?_, registered.nodup_contents _, ?_⟩
  · obtain ⟨j, hj, _, outcome⟩ := end1.job
    obtain ⟨j', hj', _, outcome'⟩ := end2.job
    rw [outcome] at outcome'
    have hj : c.world.jobs.get jobId = some j := hj
    have hj' : c'.world.jobs.get jobId = some j' := hj'
    rw [hj, hj', Option.map_some, Option.map_some, Except.ok.inj outcome']
  · -- a task that is not running keeps the status that it is going to have
    have settled : ∀ {db'}, k.Done db' → (db'.tasks.get job.taskId).map (·.status) =
        (db'.tasks.get job.taskId).map (·.status.settled) := by
      intro db' finished
      cases ht : db'.tasks.get job.taskId with
      | none => rfl
      | some t =>
        have idle := finished.task t ht
        rw [Option.map_some, Option.map_some, Option.some.injEq]
        generalize t.status = status at idle
        cases status <;> first | rfl | exact (idle rfl).elim
    rw [settled end1, settled end2]
    exact kept.trans kept'.symm
  · rintro ⟨i, x⟩ mem
    exact registered.events ((Dict.mem_items _).mp (List.mem_filter.mp mem).1)

/-! ## A collection that is interrupted -/

/-- A task is dispatched, and its job runs to its end. -/
def endedJob : List Action :=
  [ .createProject "p" "slug" .active,
    .createTask { id := "t", projectId := "p", executor := .compute, idempotencyKey := "t",
                  specJson := .null },
    .reconcile 0 0 ["t"],
    .dispatch { id := "j", taskId := "t", providerId := "local", resourceClass := "local_cpu",
                submissionKey := "s", remoteWorkdir := "/w",
                specJson := { projectId := "p", taskId := "t", submissionKey := "s",
                              execution := { command := ["train"] }, resources := {} } } "c" 60 0,
    .submitted "j" "x" 1,
    .observed { computeJobId := "j", observedAt := 2, observationStatus := .fresh,
                executionStatus := .succeeded, exitCode := some 0 } 10 2 ]

/-- A working directory with a name and content that occurs twice. -/
def repeatedFiles : Workdir :=
  { prepared := .ok [{ logicalName := "run.out", glob := "*", artifactKind := "FILE" }],
    present := fun _ => true, isFile := fun _ => true, resolve := id,
    glob := fun _ => .ok ["/w/a"], digest := fun _ => "0", size := fun _ => 1 }

/-- The reconciler over this working directory. -/
def repeatedSetup : ReconcilerSetup :=
  { registered := fun _ => true, collect := LocalProvider.collect repeatedFiles,
    poll := fun _ => .error (.ioError ""), workspaceRoot := "", files := fun _ => repeatedFiles,
    pollInterval := 1 }

/-- A call of `_reconcile_collecting` that performs an effect for each of the identifiers. -/
def collecting (ids : List String) : List (RunEvent Unit ReconcileAnswer Empty) :=
  .start () :: ids.map fun id => .perform { uuid := id }

/-- The job is collected in one go, and after a crash behind its second artifact. -/
def collectTwice : Option (Db × CollectingConfig × CollectingConfig) := do
  let db ← (controller fun _ => .error (.valueError "")).run Db.empty endedJob
  let c ← (collectingSystem repeatedSetup).run { world := db }
    (collecting ["", "", "1", "2", "3", "4", "5", ""])
  let c' ← (collectingSystem repeatedSetup).run { world := db }
    (collecting ["", "", "6", "7"] ++ [.crash] ++ collecting ["", "", "1", "2", "3", "4", "5", ""])
  return (db, c, c')

/-- Both runs have stored the same four artifacts. -/
theorem collection_idempotent_restarted :
    ∃ db job c c', collectTwice = some (db, c, c') ∧ db.jobs.get "j" = some job ∧
      (c.world.descriptions (job.view "j")).length = 4 ∧
      c.world.descriptions (job.view "j") = c'.world.descriptions (job.view "j") := by
  have columns : collectTwice.map (fun s => (
      (s.1.jobs.get "j").map fun job =>
        (job.executionStatus, (s.2.1.world.descriptions (job.view "j")).length),
      (s.2.1.world.jobs.get "j").map (·.executionStatus),
      (s.2.2.world.jobs.get "j").map (·.executionStatus))) =
      some (some (.collecting, 4), some .succeeded, some .succeeded) := by decide
  obtain ⟨⟨db, c, c'⟩, runs, columns⟩ := Option.map_eq_some_iff.mp columns
  obtain ⟨before, columns⟩ := Prod.mk.inj columns
  obtain ⟨ended, ended'⟩ := Prod.mk.inj columns
  obtain ⟨job, hj, columns⟩ := Option.map_eq_some_iff.mp before
  obtain ⟨collecting, four⟩ := Prod.mk.inj columns
  have parts := runs
  unfold collectTwice at parts
  obtain ⟨db0, reachable, rest⟩ := Option.bind_eq_some_iff.mp parts
  obtain ⟨c0, rn, rest⟩ := Option.bind_eq_some_iff.mp rest
  obtain ⟨c0', rn', e⟩ := Option.bind_eq_some_iff.mp rest
  cases e
  have finalised : ∀ {db' : Db}, (db'.jobs.get "j").map (·.executionStatus) = some .succeeded →
      ∀ j, db'.jobs.get "j" = some j → j.executionStatus ≠ .collecting := by
    intro db' status j hj'
    rw [hj', Option.map_some, Option.some.injEq] at status
    rw [status]
    decide
  exact ⟨db, job, c, c', runs, hj, four,
    (collection_idempotent reachable hj collecting rn rn' (finalised ended) (finalised ended')).1⟩

end ResearchController
