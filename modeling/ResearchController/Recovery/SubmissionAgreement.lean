import ResearchController.Lib.Ghost
import ResearchController.Lifecycle.Identity
import ResearchController.Recovery.AtMostOnce

/-!
# Agreement of the database and the provider on submissions

`reconcile_created` may be interrupted anywhere and is started again, and `submit` and
`reconcile_submission` may be called on their own. `submissions_agree` is about all such runs: a key
has one identifier, an identifier belongs to one key, and a job that knows its identifier has a
`LAUNCHED` record of exactly that identifier with a runner behind it. The digest in the path of a
record may collide; the submission then raises and leaves the record of the other key alone.

The invariant between any two effects is `LocalProvider.Agreed`. It speaks of the past by a ghost:
the `Ledger` notes every pair of a key and an identifier that has been written to a record or has
been returned to `reconcile_created`.
-/

namespace ResearchController
open Lib

/-! ## The calls -/

/-- A call of the reconciler or directly of the provider. -/
inductive SubmissionCall where
  | reconcileCreated
  | submit (prepared : PreparedJob)
  | reconcileSubmission (submissionKey : String)

/-- What a call returns, with the key that it was about. -/
inductive SubmissionReturn where
  | reconciled (jobIds : List String)
  | submitted (submissionKey externalId : String)
  | found (submissionKey : String) (externalId : Option String)

/-- The program of a call. -/
def LocalProvider.call (p : LocalProvider) : SubmissionCall → Submission SubmissionReturn
  | .reconcileCreated => do
    let jobIds ← p.reconcileCreated
    return .reconciled jobIds
  | .submit prepared => do
    let externalId ← p.submit prepared
    return .submitted prepared.submissionKey externalId
  | .reconcileSubmission submissionKey => do
    let known ← p.reconcileSubmission submissionKey
    return .found submissionKey known

/-- A moment of a run of calls. -/
abbrev SubmissionConfig :=
  Config LocalWorld SubmissionEffect SubmissionEffect.Answer PyErr SubmissionReturn

/-- The runs of `reconcile_created`, `submit` and `reconcile_submission` with crashes and
    restarts. -/
def agreementSystem (modelValidate : Json → Except PyErr ComputeTaskSpec) (p : LocalProvider) :
    System SubmissionConfig (RunEvent SubmissionCall Surroundings Action) :=
  (localMachine modelValidate).system p.call

/-- The identifier that a finished call has returned for a key. -/
def SubmissionReturn.answer : SubmissionReturn → Option (String × String)
  | .reconciled _ => none
  | .submitted submissionKey externalId => some (submissionKey, externalId)
  | .found submissionKey externalId => externalId.map fun id => (submissionKey, id)

/-- `submit` or `reconcile_submission` has returned an identifier for a key: to the surroundings, or
    to `reconcile_created`, which is about to commit it for a job with this key. -/
def Returned (submissionKey externalId : String) (c : SubmissionConfig) : Prop :=
  (∃ value, Except.ok value ∈ c.results ∧ value.answer = some (submissionKey, externalId)) ∨
    ∃ program ∈ c.running, ∃ jobId job,
      program.pending = some (.commitSubmitted jobId externalId) ∧
        c.world.db.jobs.get jobId = some job ∧ job.submissionKey = submissionKey

/-- An identifier is on record under a key. -/
def Reserved (submissionKey externalId : String) (c : SubmissionConfig) : Prop :=
  ∃ path record, c.world.submissions.get path = some record ∧
    record.submissionKey = submissionKey ∧ record.externalJobId = externalId

/-- The record of a key is `LAUNCHED` with an identifier. -/
def LocalProvider.Launched (p : LocalProvider) (w : LocalWorld)
    (submissionKey externalId : String) : Prop :=
  ∃ record, w.submissions.get (p.submissionPath submissionKey) = some record ∧
    record.submissionKey = submissionKey ∧ record.status = .launched ∧
    record.externalJobId = externalId

/-- The record on the path of a key belongs to another key. -/
def LocalProvider.Collides (p : LocalProvider) (w : LocalWorld) (submissionKey : String) : Prop :=
  ∃ record, w.submissions.get (p.submissionPath submissionKey) = some record ∧
    record.submissionKey ≠ submissionKey

/-! ## What is expected of the surroundings -/

/-- A drawn identifier is on record already. -/
def LocalWorld.carries (w : LocalWorld) (o : Surroundings) : Bool :=
  w.submissions.any fun _ record => record.externalJobId == "local-" ++ o.uuid

/-- A job is dispatched under the submission key of its spec. -/
def Action.keyFromSpec : Action → Bool
  | .dispatch a _ _ _ => a.specJson.submissionKey == a.submissionKey
  | _ => true

/-- Whether an effect draws a random identifier. -/
def SubmissionEffect.drawsId : SubmissionEffect → Bool
  | .newExternalId => true
  | _ => false

/-- `uuid4` draws no identifier twice, and jobs come from the dispatcher. -/
def Trustworthy (c : SubmissionConfig) : RunEvent SubmissionCall Surroundings Action → Prop
  | .perform o => ∀ program ∈ c.running, ∀ e ∈ program.pending,
      e.drawsId = true → c.world.carries o = false
  | .drift e => e.keyFromSpec = true
  | _ => True

instance (c : SubmissionConfig) :
    (ev : RunEvent SubmissionCall Surroundings Action) → Decidable (Trustworthy c ev)
  | .perform o => inferInstanceAs (Decidable (∀ program ∈ c.running, ∀ e ∈ program.pending,
      e.drawsId = true → c.world.carries o = false))
  | .drift e => inferInstanceAs (Decidable (e.keyFromSpec = true))
  | .start _ => isTrue trivial
  | .crash => isTrue trivial

/-- The dispatcher takes the submission key from the spec. -/
lemma ComputeDispatcher.plan_keyFromSpec {c : ComputeDispatcher} {id : String} {specJson : Json}
    {a : JobArgs} (h : c.plan id specJson = .ok a) (owner : String)
    (leaseExpiresAt now : Datetime) :
    (Action.dispatch a owner leaseExpiresAt now).keyFromSpec = true := by
  obtain ⟨spec, _, h⟩ := bind_ok.mp h
  obtain ⟨route, _, h⟩ := bind_ok.mp h
  obtain ⟨provider, _, h⟩ := bind_ok.mp h
  obtain ⟨prepared, _, e⟩ := bind_ok.mp h
  cases e
  exact beq_self_eq_true spec.submissionKey

/-! ## Jobs under the other transactions -/

/-- A job that is there stays under its identity, and a job that was not there has no identifier yet
    and is submitted under the key of its spec. -/
structure Db.GrowsJobs (db db' : Db) : Prop where
  kept : ∀ {id j}, db.jobs.get id = some j →
    ∃ j', db'.jobs.get id = some j' ∧ j'.identity = j.identity
  new : ∀ {id j'}, db'.jobs.get id = some j' →
    (∃ j, db.jobs.get id = some j ∧ j'.identity = j.identity) ∨
      j'.externalJobId = none ∧ j'.specJson.submissionKey = j'.submissionKey

lemma Db.GrowsJobs.ofJobs {db db' : Db} (same : db'.jobs = db.jobs) : db.GrowsJobs db' := by
  constructor
  · intro id j hj
    exact ⟨j, by rw [same]; exact hj, rfl⟩
  · intro id j' hj'
    rw [same] at hj'
    exact Or.inl ⟨j', hj', rfl⟩

lemma Db.KeepsIdentity.growsJobs {db db' : Db} (same : db.KeepsIdentity db') :
    db.GrowsJobs db' := by
  constructor
  · intro id j hj
    have e := Dict.get_map_of_items same.jobs id
    rw [hj] at e
    exact Option.map_eq_some_iff.mp e
  · intro id j' hj'
    exact Or.inl (same.job hj')

/-- The transactions that come in between leave the jobs that are there alone. -/
lemma Db.act_growsJobs (db : Db) (modelValidate : Json → Except PyErr ComputeTaskSpec)
    {e : Action} (other : e.isSubmitted = false) (key : e.keyFromSpec = true) :
    db.GrowsJobs (db.act modelValidate e) := by
  cases keeps : e.keepsIdentity with
  | true => exact (db.act_keepsIdentity modelValidate keeps).growsJobs
  | false =>
    cases e with
    | submitted jobId externalId now => cases other
    | createTask a =>
      apply Db.commit_keeps (P := fun db' : Db => db.GrowsJobs db') (.ofJobs rfl)
      intro id db' h
      obtain ⟨rfl, _⟩ | ⟨_, _, _, _, _, rfl⟩ := createTask_ok h
      · exact .ofJobs rfl
      · exact .ofJobs (by rw [logged_rows])
    | dispatch a owner leaseExpiresAt now =>
      apply Db.commit_keeps (P := fun db' : Db => db.GrowsJobs db') (.ofJobs rfl)
      intro ids db' h
      obtain ⟨rfl, _⟩ | ⟨task, jobs, _, _, rows, ⟨same, _⟩ | ⟨added, absent, _⟩⟩ :=
        dispatchCommit_ok h
      · exact .ofJobs rfl
      · exact .ofJobs (by rw [rows, same])
      · have jobs' : db'.jobs = db.jobs.set a.id (a.row task) := by rw [rows, added]
        constructor
        · intro id j hj
          have other : id ≠ a.id := by
            intro e
            rw [e, absent] at hj
            cases hj
          exact ⟨j, by rw [jobs', Dict.get_set_ne _ _ other]; exact hj, rfl⟩
        · intro id j' hj'
          rw [jobs', Dict.get_set] at hj'
          split at hj'
          · cases hj'
            exact Or.inr ⟨rfl, beq_iff_eq.mp key⟩
          · exact Or.inl ⟨j', hj', rfl⟩
    | _ => cases keeps

/-! ## The ledger -/

/-- What has been said about identifiers so far, and whether the surroundings have drawn an
    identifier twice or have dispatched a job under a foreign key. -/
structure Ledger where
  issued : List (String × String) := []
  broken : Bool := false

/-- What the ledger notes of an effect. -/
def Ledger.note (g : Ledger) (w : LocalWorld) : SubmissionEffect → Surroundings → Ledger
  | .writeRecord _ record, _ =>
    { g with issued := g.issued ++ [(record.submissionKey, record.externalJobId)] }
  | .newExternalId, o => { g with broken := g.broken || w.carries o }
  | .commitSubmitted jobId externalId, _ =>
    match w.db.jobs.get jobId with
    | some job => { g with issued := g.issued ++ [(job.submissionKey, externalId)] }
    | none => g
  | _, _ => g

/-- What the ledger notes of another transaction. -/
def Ledger.noteDrift (g : Ledger) (_ : LocalWorld) (e : Action) : Ledger :=
  { g with broken := g.broken || !e.keyFromSpec }

/-- The ledger as a ghost. -/
def ledgerGhost : Ghost LocalWorld SubmissionEffect Surroundings Action Ledger where
  note := Ledger.note
  noteDrift := Ledger.noteDrift

/-- The world with its ledger. -/
abbrev agreementMachine (modelValidate : Json → Except PyErr ComputeTaskSpec) :
    Machine (LocalWorld × Ledger) SubmissionEffect SubmissionEffect.Answer Surroundings Action :=
  (localMachine modelValidate).withGhost ledgerGhost

lemma Ledger.note_broken {g : Ledger} (w : LocalWorld) (e : SubmissionEffect) (o : Surroundings)
    (broken : g.broken = true) : (g.note w e o).broken = true := by
  cases e with
  | newExternalId => exact Bool.or_eq_true_iff.mpr (Or.inl broken)
  | commitSubmitted jobId externalId =>
    simp only [note]
    split <;> exact broken
  | _ => exact broken

lemma Ledger.note_issued {g : Ledger} (w : LocalWorld) (e : SubmissionEffect) (o : Surroundings)
    {pair : String × String} (mem : pair ∈ g.issued) : pair ∈ (g.note w e o).issued := by
  cases e with
  | writeRecord path record => exact List.mem_append_left _ mem
  | commitSubmitted jobId externalId =>
    simp only [note]
    split
    · exact List.mem_append_left _ mem
    · exact mem
  | _ => exact mem

lemma Ledger.noteDrift_broken {g : Ledger} (w : LocalWorld) (e : Action)
    (broken : g.broken = true) : (g.noteDrift w e).broken = true :=
  Bool.or_eq_true_iff.mpr (Or.inl broken)

/-! ## The invariant -/

/-- The database, the records, the runners and the ledger agree. -/
structure LocalProvider.Agreed (p : LocalProvider) (w : LocalWorld) (g : Ledger) : Prop where
  located : ∀ {path record}, w.submissions.get path = some record →
    path = p.submissionPath record.submissionKey
  distinct : ∀ {path path' record record'}, w.submissions.get path = some record →
    w.submissions.get path' = some record' → record.externalJobId = record'.externalJobId →
    path = path'
  behind : ∀ {path record}, w.submissions.get path = some record → record.status = .launched →
    ∃ job ∈ w.runners, job.submissionKey = record.submissionKey
  jobs : ∀ {id job externalId}, w.db.jobs.get id = some job →
    job.externalJobId = some externalId → p.Launched w job.submissionKey externalId
  keys : ∀ {id job}, w.db.jobs.get id = some job → job.specJson.submissionKey = job.submissionKey
  issued : ∀ {submissionKey externalId}, (submissionKey, externalId) ∈ g.issued →
    ∃ record, w.submissions.get (p.submissionPath submissionKey) = some record ∧
      record.submissionKey = submissionKey ∧ record.externalJobId = externalId
  noted : ∀ {path record}, w.submissions.get path = some record →
    (record.submissionKey, record.externalJobId) ∈ g.issued

namespace LocalProvider.Agreed

variable {p : LocalProvider} {w w' : LocalWorld} {g g' : Ledger}

lemma start (db : Db) (none : ∀ id, db.jobs.get id = none) : p.Agreed { db := db } {} := by
  refine ⟨?_, ?_, ?_, ?_, ?_, ?_, ?_⟩
  · intro path record stored
    cases stored
  · intro path path' record record' stored
    cases stored
  · intro path record stored
    cases stored
  · intro id job externalId hj
    rw [none id] at hj
    cases hj
  · intro id job hj
    rw [none id] at hj
    cases hj
  · intro submissionKey externalId mem
    cases mem
  · intro path record stored
    cases stored

/-- Other transactions, and a runner more. -/
lemma later (h : p.Agreed w g) (grows : w.db.GrowsJobs w'.db)
    (submissions : w'.submissions = w.submissions) (runners : ∀ job ∈ w.runners, job ∈ w'.runners)
    (issued : g'.issued = g.issued) : p.Agreed w' g' := by
  refine ⟨?_, ?_, ?_, ?_, ?_, ?_, ?_⟩
  · rw [submissions]
    exact h.located
  · rw [submissions]
    exact h.distinct
  · intro path record stored launched
    rw [submissions] at stored
    obtain ⟨job, mem, key⟩ := h.behind stored launched
    exact ⟨job, runners job mem, key⟩
  · intro id job externalId hj identified
    obtain ⟨old, stored, same⟩ | ⟨unidentified, _⟩ := grows.new hj
    · simp only [ComputeJob.identity, ComputeJob.fixed, Prod.mk.injEq, JobOwner.mk.injEq] at same
      obtain ⟨⟨_, _, _, key, _⟩, external⟩ := same
      obtain ⟨record, found⟩ := h.jobs stored (external.symm.trans identified)
      exact ⟨record, by rw [submissions, key]; exact found⟩
    · rw [unidentified] at identified
      cases identified
  · intro id job hj
    obtain ⟨old, stored, same⟩ | ⟨_, key⟩ := grows.new hj
    · simp only [ComputeJob.identity, ComputeJob.fixed, Prod.mk.injEq, JobOwner.mk.injEq] at same
      obtain ⟨⟨_, _, _, key, _, _, spec⟩, _⟩ := same
      rw [spec, key]
      exact h.keys stored
    · exact key
  · rw [issued, submissions]
    exact h.issued
  · rw [issued, submissions]
    exact h.noted

/-- The write of a record: of a new identifier to a free path, or over the record of the same key
    and identifier. -/
lemma writeRecord (h : p.Agreed w g) (record : SubmissionRecord)
    (fresh : ∀ {path' record'}, w.submissions.get path' = some record' →
      record'.externalJobId = record.externalJobId →
      path' = p.submissionPath record.submissionKey)
    (above : ∀ {old}, w.submissions.get (p.submissionPath record.submissionKey) = some old →
      old.submissionKey = record.submissionKey ∧ old.externalJobId = record.externalJobId ∧
        (old.status = .launched → record.status = .launched))
    (behind : record.status = .launched →
      ∃ job ∈ w.runners, job.submissionKey = record.submissionKey) (o : Surroundings) :
    let path := p.submissionPath record.submissionKey
    p.Agreed (w.handle (.writeRecord path record) o).1 (g.note w (.writeRecord path record) o) := by
  intro path
  have get : ∀ path', (w.submissions.set path record).get path' =
      if path' = path then some record else w.submissions.get path' :=
    fun path' => Dict.get_set _ _ _ _
  refine ⟨?_, ?_, ?_, ?_, h.keys, ?_, ?_⟩ <;>
    simp only [LocalWorld.handle, Ledger.note, get, Launched]
  · intro path' record' stored
    split at stored
    · rename_i here
      cases stored
      exact here
    · exact h.located stored
  · intro path1 path2 record1 record2 stored1 stored2 same
    split at stored1 <;> split at stored2
    · rename_i here1 here2
      exact here1.trans here2.symm
    · rename_i here1 _
      cases stored1
      exact here1.trans (fresh stored2 same.symm).symm
    · rename_i _ here2
      cases stored2
      exact (fresh stored1 same).trans here2.symm
    · exact h.distinct stored1 stored2 same
  · intro path' record' stored launched
    split at stored
    · cases stored
      exact behind launched
    · exact h.behind stored launched
  · intro id job externalId hj identified
    obtain ⟨old, stored, key, launched, external⟩ := h.jobs hj identified
    split
    · rename_i here
      rw [here] at stored
      obtain ⟨sameKey, sameId, stays⟩ := above stored
      exact ⟨record, rfl, sameKey.symm.trans key, stays launched, sameId.symm.trans external⟩
    · exact ⟨old, stored, key, launched, external⟩
  · intro submissionKey externalId mem
    rcases List.mem_append.mp mem with before | new
    · obtain ⟨old, stored, key, external⟩ := h.issued before
      split
      · rename_i here
        rw [here] at stored
        obtain ⟨sameKey, sameId, _⟩ := above stored
        exact ⟨record, rfl, sameKey.symm.trans key, sameId.symm.trans external⟩
      · exact ⟨old, stored, key, external⟩
    · obtain ⟨rfl, rfl⟩ := Prod.mk.inj (List.mem_singleton.mp new)
      exact ⟨record, if_pos rfl, rfl, rfl⟩
  · intro path' record' stored
    split at stored
    · cases stored
      exact List.mem_append_right _ (List.mem_singleton_self _)
    · exact List.mem_append_left _ (h.noted stored)

end LocalProvider.Agreed

/-! ## The commit of an identifier -/

/-- The jobs that are there stay, with the columns that are fixed when a job is created. -/
def Db.KeepsJobs (db db' : Db) : Prop :=
  ∀ id j, db.jobs.get id = some j → ∃ j', db'.jobs.get id = some j' ∧ j'.fixed = j.fixed

lemma Db.KeepsJobs.refl (db : Db) : db.KeepsJobs db :=
  fun _ j hj => ⟨j, hj, rfl⟩

lemma Db.KeepsJobs.trans {db db' db'' : Db} (first : db.KeepsJobs db')
    (second : db'.KeepsJobs db'') : db.KeepsJobs db'' := by
  intro id j hj
  obtain ⟨j', hj', same⟩ := first id j hj
  obtain ⟨j'', hj'', same'⟩ := second id j' hj'
  exact ⟨j'', hj'', same'.trans same⟩

lemma Db.GrowsJobs.keepsJobs {db db' : Db} (grows : db.GrowsJobs db') : db.KeepsJobs db' := by
  intro id j hj
  obtain ⟨j', hj', same⟩ := grows.kept hj
  exact ⟨j', hj', congrArg Prod.fst same⟩

/-- What the transaction of `reconcile_created` does to the jobs. -/
lemma Db.reconcileCreatedCommit_jobs {db db' : Db} {jobId externalId : String} {now : Datetime}
    {jobIds : List String}
    (h : db.reconcileCreatedCommit jobId externalId now = .ok (jobIds, db')) :
    db.KeepsJobs db' ∧ ∀ {id j'}, db'.jobs.get id = some j' →
      ∃ j, db.jobs.get id = some j ∧ j'.fixed = j.fixed ∧
        (j'.externalJobId = j.externalJobId ∨ id = jobId ∧ j'.externalJobId = some externalId) := by
  obtain rfl | ⟨job, hj, _, st⟩ := reconcileCreatedCommit_ok h
  · exact ⟨.refl _, fun hj' => ⟨_, hj', rfl, Or.inl rfl⟩⟩
  · have same : ((job.identified externalId).moved .submitted now).identity =
        (job.fixed, some externalId) := (job.identified externalId).moved_identity .submitted now
    obtain ⟨fixed, identified⟩ := Prod.mk.inj same
    have get : ∀ id, db'.jobs.get id = if id = jobId then
        some ((job.identified externalId).moved .submitted now) else db.jobs.get id := by
      intro id
      unfold SetsJob at st
      rw [st]
      exact Dict.get_set _ _ _ _
    constructor
    · intro id j stored
      rw [get id]
      split
      · rename_i here
        rw [here, hj] at stored
        cases stored
        exact ⟨_, rfl, fixed⟩
      · exact ⟨j, stored, rfl⟩
    · intro id j' stored
      rw [get id] at stored
      split at stored
      · rename_i here
        cases stored
        exact ⟨job, by rw [here]; exact hj, fixed, Or.inr ⟨here, identified⟩⟩
      · exact ⟨j', stored, rfl, Or.inl rfl⟩

/-- No effect removes a job. -/
lemma LocalWorld.handle_keepsJobs (w : LocalWorld) (e : SubmissionEffect) (o : Surroundings) :
    w.db.KeepsJobs (w.handle e o).1.db := by
  cases e with
  | commitSubmitted jobId externalId =>
    simp only [handle]
    split
    · rename_i commit
      exact (Db.reconcileCreatedCommit_jobs commit).1
    · exact .refl _
  | loadRecord path =>
    simp only [handle]
    split <;> exact .refl _
  | _ => exact .refl _

/-- The commit of the identifier that is on record for the job. -/
lemma LocalProvider.Agreed.commit {p : LocalProvider} {w : LocalWorld} {g : Ledger}
    (h : p.Agreed w g) {jobId externalId : String} {job : ComputeJob}
    (hj : w.db.jobs.get jobId = some job)
    (launched : p.Launched w job.submissionKey externalId) (o : Surroundings) :
    p.Agreed (w.handle (.commitSubmitted jobId externalId) o).1
      (g.note w (.commitSubmitted jobId externalId) o) := by
  obtain ⟨record, stored, key, status, external⟩ := launched
  have issued : ∀ {submissionKey' externalId'},
      (submissionKey', externalId') ∈ g.issued ++ [(job.submissionKey, externalId)] →
      ∃ record, w.submissions.get (p.submissionPath submissionKey') = some record ∧
        record.submissionKey = submissionKey' ∧ record.externalJobId = externalId' := by
    intro submissionKey' externalId' mem
    rcases List.mem_append.mp mem with before | new
    · exact h.issued before
    · obtain ⟨rfl, rfl⟩ := Prod.mk.inj (List.mem_singleton.mp new)
      exact ⟨record, stored, key, external⟩
  have note : g.note w (.commitSubmitted jobId externalId) o =
      { g with issued := g.issued ++ [(job.submissionKey, externalId)] } := by
    simp only [Ledger.note, hj]
  rw [note]
  have noted : ∀ {path record}, w.submissions.get path = some record →
      (record.submissionKey, record.externalJobId) ∈
        g.issued ++ [(job.submissionKey, externalId)] :=
    fun found => List.mem_append_left _ (h.noted found)
  simp only [LocalWorld.handle]
  split
  · rename_i commit
    obtain ⟨_, back⟩ := Db.reconcileCreatedCommit_jobs commit
    refine ⟨h.located, h.distinct, h.behind, ?_, ?_, issued, noted⟩
    · intro id job' externalId' hj' identified
      obtain ⟨old, found, same, unchanged | ⟨here, new⟩⟩ := back hj'
      · have known := h.jobs found (unchanged.symm.trans identified)
        have sameKey : job'.submissionKey = old.submissionKey :=
          congrArg JobOwner.submissionKey same
        rw [sameKey]
        exact known
      · rw [here, hj] at found
        cases found
        have sameKey : job'.submissionKey = job.submissionKey :=
          congrArg JobOwner.submissionKey same
        rw [new] at identified
        cases identified
        rw [sameKey]
        exact ⟨record, stored, key, status, external⟩
    · intro id job' hj'
      obtain ⟨old, found, same, _⟩ := back hj'
      have sameSpec : job'.specJson = old.specJson := congrArg JobOwner.specJson same
      have sameKey : job'.submissionKey = old.submissionKey :=
        congrArg JobOwner.submissionKey same
      rw [sameSpec, sameKey]
      exact h.keys found
  · exact ⟨h.located, h.distinct, h.behind, h.jobs, h.keys, issued, noted⟩

/-! ## The programs -/

/-- The contract: the invariant holds between any two effects, wherever a crash falls, and what a
    call has returned is in the ledger. -/
def LocalProvider.agreementContract (p : LocalProvider) :
    Contract (LocalWorld × Ledger) SubmissionEffect Action PyErr SubmissionReturn where
  rest s := s.2.broken = true ∨ p.Agreed s.1 s.2
  good r s := s.2.broken = true ∨
    ∀ value, r = .ok value → ∀ pair ∈ value.answer, pair ∈ s.2.issued

variable {modelValidate : Json → Except PyErr ComputeTaskSpec} {p : LocalProvider}

/-- What another transaction does to the world and its ledger. -/
lemma agreementMachine_drift {s s' : LocalWorld × Ledger} {e : Action}
    (moved : (agreementMachine modelValidate).drift s e = some s') :
    SameFiles s.1 s'.1 ∧ s'.2 = s.2.noteDrift s.1 e ∧
      (e.keyFromSpec = true → s.1.db.GrowsJobs s'.1.db) := by
  obtain ⟨w, drift, rfl⟩ := Option.map_eq_some_iff.mp moved
  refine ⟨localMachine_drift drift, rfl, ?_⟩
  intro key
  simp only [localMachine] at drift
  split at drift
  · cases drift
  · rename_i other
    obtain ⟨db, st, rfl⟩ := Option.map_eq_some_iff.mp drift
    obtain ⟨_, rfl⟩ := controller_step st
    exact s.1.db.act_growsJobs modelValidate (Bool.eq_false_iff.mpr other) key

/-- Other transactions keep the invariant. -/
lemma LocalProvider.Agreed.drift {s s' : LocalWorld × Ledger} {e : Action}
    (h : p.Agreed s.1 s.2) (moved : (agreementMachine modelValidate).drift s e = some s') :
    s'.2.broken = true ∨ p.Agreed s'.1 s'.2 ∧ s.1.db.KeepsJobs s'.1.db := by
  obtain ⟨same, noted, grows⟩ := agreementMachine_drift moved
  cases key : e.keyFromSpec with
  | false =>
    left
    rw [noted]
    simp [Ledger.noteDrift, key]
  | true =>
    right
    refine ⟨h.later (grows key) same.submissions ?_ ?_, (grows key).keepsJobs⟩
    · intro job mem
      rw [same.runners]
      exact mem
    · rw [noted]
      rfl

lemma LocalProvider.agreementContract_fits :
    p.agreementContract.Fits (agreementMachine modelValidate) where
  always h := h
  stable := by
    intro s e s' h _ moved
    obtain ⟨_, noted, _⟩ := agreementMachine_drift moved
    rcases h with broken | agreed
    · left
      rw [noted]
      exact Ledger.noteDrift_broken s.1 e broken
    · exact (agreed.drift moved).imp_right And.left
  goodHandle := by
    intro r s e o good
    rcases good with broken | good
    · exact Or.inl (Ledger.note_broken s.1 e o broken)
    · exact Or.inr fun value ok pair mem => Ledger.note_issued s.1 e o (good value ok pair mem)
  goodDrift := by
    intro r s e s' good _ moved
    obtain ⟨_, noted, _⟩ := agreementMachine_drift moved
    rw [show p.agreementContract.good r s' = (s'.2.broken = true ∨
      ∀ value, r = .ok value → ∀ pair ∈ value.answer, pair ∈ s'.2.issued) from rfl, noted]
    exact Or.imp_left (Ledger.noteDrift_broken s.1 e) good

/-- Once a promise of the surroundings is broken, nothing is claimed any more. -/
lemma safe_of_broken {α : Type} {Q : Except PyErr α → LocalWorld × Ledger → Prop}
    (lost : ∀ r s, s.2.broken = true → Q r s) {program : Submission α} {s : LocalWorld × Ledger}
    (broken : s.2.broken = true) :
    program.Safe (agreementMachine modelValidate) p.agreementContract Q s := by
  induction program generalizing s with
  | ret a => exact lost _ s broken
  | raise e => exact lost _ s broken
  | perform e next ih =>
    refine ⟨fun t => t.2.broken = true, broken, ?_, ?_⟩
    · intro t e t' hb _ moved
      obtain ⟨_, noted, _⟩ := agreementMachine_drift moved
      rw [noted]
      exact Ledger.noteDrift_broken t.1 e hb
    · intro t hb
      exact ⟨Or.inl hb, fun _ => Or.inl hb, fun o => ih _ (Ledger.note_broken t.1 e o hb)⟩

namespace LocalProvider

/-- A program that keeps the invariant and the jobs, and ends with `Q` if it returns. -/
abbrev Agreeing {α : Type} (p : LocalProvider)
    (modelValidate : Json → Except PyErr ComputeTaskSpec)
    (Q : α → LocalWorld × Ledger → Prop) (program : Submission α) (s : LocalWorld × Ledger) :
    Prop :=
  program.Safe (agreementMachine modelValidate) p.agreementContract
    (fun r t => t.2.broken = true ∨
      p.Agreed t.1 t.2 ∧ s.1.db.KeepsJobs t.1.db ∧ ∀ a, r = .ok a → Q a t) s

variable {α β : Type} {Q : α → LocalWorld × Ledger → Prop} {s : LocalWorld × Ledger}

/-- A program that has ended. -/
lemma agreeing_ret {a : α} (h : p.Agreed s.1 s.2) (holds : Q a s) :
    p.Agreeing modelValidate Q (.ret a) s :=
  Or.inr ⟨h, .refl _, fun _ e => Except.ok.inj e ▸ holds⟩

lemma agreeing_raise {e : PyErr} (h : p.Agreed s.1 s.2) :
    p.Agreeing modelValidate Q (.raise e) s := by
  refine Or.inr ⟨h, .refl _, ?_⟩
  intro a returned
  cases returned

/-- The rest of a program, seen from an earlier world. -/
lemma agreeing_from {program : Submission α} {t : LocalWorld × Ledger}
    (kept : s.1.db.KeepsJobs t.1.db) (h : p.Agreeing modelValidate Q program t) :
    program.Safe (agreementMachine modelValidate) p.agreementContract
      (fun r u => u.2.broken = true ∨
        p.Agreed u.1 u.2 ∧ s.1.db.KeepsJobs u.1.db ∧ ∀ a, r = .ok a → Q a u) t := by
  apply Program.Safe.mono ?_ h
  intro r u post
  refine post.imp_right ?_
  rintro ⟨agreed, later, holds⟩
  exact ⟨agreed, kept.trans later, holds⟩

/-- One program after another. -/
lemma agreeing_bind {Q' : β → LocalWorld × Ledger → Prop} {program : Submission α}
    {f : α → Submission β} (h : p.Agreeing modelValidate Q program s)
    (returns : ∀ a t, p.Agreed t.1 t.2 → s.1.db.KeepsJobs t.1.db → Q a t →
      p.Agreeing modelValidate Q' (f a) t) :
    p.Agreeing modelValidate Q' (program >>= f) s := by
  apply Program.Safe.bind h
  · intro a t post
    rcases post with broken | ⟨agreed, kept, holds⟩
    · exact safe_of_broken (fun _ _ => Or.inl) broken
    · exact agreeing_from kept (returns a t agreed kept (holds a rfl))
  · intro e t post
    refine post.imp_right ?_
    rintro ⟨agreed, kept, _⟩
    refine ⟨agreed, kept, ?_⟩
    intro b returned
    cases returned

/-- One effect: the files are as they were when the program got there, and the jobs are kept. -/
lemma agreeing_call {e : SubmissionEffect} {f : e.Answer → Submission α} (h : p.Agreed s.1 s.2)
    (continues : ∀ w g o, SameFiles s.1 w → s.1.db.KeepsJobs w.db → p.Agreed w g →
      (g.note w e o).broken = false →
      p.Agreeing modelValidate Q (f (w.handle e o).2) ((w.handle e o).1, g.note w e o)) :
    p.Agreeing modelValidate Q (Program.call e >>= f) s := by
  apply Program.Safe.call fun t : LocalWorld × Ledger => t.2.broken = true ∨
    SameFiles s.1 t.1 ∧ s.1.db.KeepsJobs t.1.db ∧ p.Agreed t.1 t.2
  · exact Or.inr ⟨⟨rfl, rfl⟩, .refl _, h⟩
  · intro t e t' holds _ moved
    obtain ⟨files, noted, _⟩ := agreementMachine_drift moved
    rcases holds with broken | ⟨same, kept, agreed⟩
    · left
      rw [noted]
      exact Ledger.noteDrift_broken t.1 e broken
    · refine (agreed.drift moved).imp_right ?_
      rintro ⟨agreed', kept'⟩
      exact ⟨⟨files.submissions.trans same.submissions, files.runners.trans same.runners⟩,
        kept.trans kept', agreed'⟩
  · exact fun t holds => holds.imp_right fun kept => kept.2.2
  · exact fun _ t holds => holds.imp_right fun kept => kept.2.2
  · rintro ⟨w, g⟩ o holds
    rcases holds with broken | ⟨same, kept, agreed⟩
    · exact safe_of_broken (fun _ _ => Or.inl) (Ledger.note_broken w e o broken)
    · cases after : (g.note w e o).broken with
      | true => exact safe_of_broken (fun _ _ => Or.inl) after
      | false =>
        exact agreeing_from (kept.trans (w.handle_keepsJobs e o))
          (continues w g o same kept agreed after)

/-- The existence check of a record. -/
lemma agreeing_exists {path : String} {f : Bool → Submission α} (h : p.Agreed s.1 s.2)
    (present : ∀ record w g, SameFiles s.1 w → s.1.db.KeepsJobs w.db → p.Agreed w g →
      w.submissions.get path = some record → p.Agreeing modelValidate Q (f true) (w, g))
    (missing : ∀ w g, SameFiles s.1 w → s.1.db.KeepsJobs w.db → p.Agreed w g →
      w.submissions.get path = none → p.Agreeing modelValidate Q (f false) (w, g)) :
    p.Agreeing modelValidate Q (Submission.recordExists path >>= f) s := by
  apply agreeing_call h
  intro w g o same kept agreed _
  show p.Agreeing modelValidate Q (f (w.submissions.get path).isSome) (w, g)
  cases stored : w.submissions.get path with
  | some record => exact present record w g same kept agreed stored
  | none => exact missing w g same kept agreed stored

/-- The read of a record that is there. -/
lemma agreeing_load {path : String} {f : SubmissionRecord → Submission α}
    {record : SubmissionRecord} (h : p.Agreed s.1 s.2)
    (stored : s.1.submissions.get path = some record)
    (continues : ∀ w g, SameFiles s.1 w → s.1.db.KeepsJobs w.db → p.Agreed w g →
      p.Agreeing modelValidate Q (f record) (w, g)) :
    p.Agreeing modelValidate Q
      (Submission.loadRecord path >>= fun loaded => Program.check loaded >>= f) s := by
  apply agreeing_call h
  intro w g o same kept agreed _
  have stored' : w.submissions.get path = some record := by
    rw [same.submissions]
    exact stored
  simp only [LocalWorld.handle, stored']
  exact continues w g same kept agreed

/-- The end of `submit`, from a record of the key. -/
lemma agreeing_launch {prepared : PreparedJob} {record : SubmissionRecord}
    (h : p.Agreed s.1 s.2)
    (stored : s.1.submissions.get (p.submissionPath prepared.submissionKey) = some record)
    (key : record.submissionKey = prepared.submissionKey) :
    p.Agreeing modelValidate (fun id t => p.Launched t.1 prepared.submissionKey id)
      (launch (p.submissionPath prepared.submissionKey) record prepared) s := by
  apply agreeing_call h
  intro w1 g1 o1 same1 _ h1 _
  have launched : p.Agreed (w1.handle (.launch prepared) o1).1 (g1.note w1 (.launch prepared) o1) :=
    h1.later (.ofJobs rfl) rfl (fun _ mem => List.mem_append_left _ mem) rfl
  apply agreeing_call launched
  intro w2 g2 o2 same2 _ h2 _
  have stored2 : w2.submissions.get (p.submissionPath prepared.submissionKey) = some record := by
    rw [same2.submissions]
    exact (congrArg (Dict.get · _) same1.submissions).trans stored
  have runner : prepared ∈ w2.runners := by
    rw [same2.runners]
    exact List.mem_append_right _ (List.mem_singleton_self _)
  rw [← key] at stored2 ⊢
  apply agreeing_ret
  · refine h2.writeRecord { record with status := .launched, pid := some _ } ?_ ?_ ?_ o2
    · intro path' record' found same
      exact h2.distinct found stored2 same
    · intro old found
      rw [stored2] at found
      cases found
      exact ⟨rfl, rfl, fun _ => rfl⟩
    · exact fun _ => ⟨prepared, runner, key.symm⟩
  · exact ⟨_, Dict.get_set_self _ _ _, rfl, rfl, rfl⟩

/-- `submit` returns the identifier that is on record for the key. -/
lemma agreeing_submit {prepared : PreparedJob} (h : p.Agreed s.1 s.2) :
    p.Agreeing modelValidate (fun id t => p.Launched t.1 prepared.submissionKey id)
      (p.submit prepared) s := by
  apply agreeing_exists h
  · intro record w1 g1 same1 _ h1 stored
    rw [if_pos rfl]
    apply agreeing_load h1 stored
    intro w2 g2 same2 _ h2
    have stored2 : w2.submissions.get (p.submissionPath prepared.submissionKey) = some record := by
      rw [same2.submissions]
      exact stored
    split
    · exact agreeing_raise h2
    · rename_i key
      split
      · rename_i launched
        exact agreeing_ret h2 ⟨record, stored2, not_not.mp key, launched, rfl⟩
      · exact agreeing_launch h2 stored2 (not_not.mp key)
  · intro w1 g1 same1 _ h1 missing
    rw [if_neg Bool.false_ne_true]
    apply agreeing_call h1
    intro w2 g2 o2 same2 _ h2 drawn
    have absent : w2.submissions.get (p.submissionPath prepared.submissionKey) = none := by
      rw [same2.submissions]
      exact missing
    -- the drawn identifier is on no record
    have fresh : w2.carries o2 = false := (Bool.or_eq_false_iff.mp drawn).2
    have h2' : p.Agreed (w2.handle .newExternalId o2).1 (g2.note w2 .newExternalId o2) :=
      h2.later (.ofJobs rfl) rfl (fun _ mem => mem) rfl
    apply agreeing_call h2'
    intro w3 g3 o3 same3 _ h3 _
    apply agreeing_launch
    · refine h3.writeRecord (reservation prepared ("local-" ++ o2.uuid)) ?_ ?_ ?_ o3
      · intro path' record' found same
        have carried : w2.carries o2 = true := by
          refine Dict.any_iff.mpr ⟨path', record', ?_, beq_iff_eq.mpr same⟩
          rw [same3.submissions] at found
          exact found
        rw [fresh] at carried
        cases carried
      · intro old found
        rw [same3.submissions] at found
        cases (found.symm.trans absent)
      · exact fun launched => SubmissionStatus.noConfusion launched
    · exact Dict.get_set_self _ _ _
    · rfl

/-- `reconcile_submission` finds the identifier that is on record for the key. -/
lemma agreeing_reconcileSubmission {submissionKey : String} (h : p.Agreed s.1 s.2) :
    p.Agreeing modelValidate (fun known t => ∀ id ∈ known, p.Launched t.1 submissionKey id)
      (p.reconcileSubmission submissionKey) s := by
  apply agreeing_exists h
  · intro record w1 g1 same1 _ h1 stored
    rw [if_pos rfl]
    apply agreeing_load h1 stored
    intro w2 g2 same2 _ h2
    split
    · exact agreeing_raise h2
    · rename_i key
      split
      · refine agreeing_ret h2 ?_
        intro id mem
        cases mem
      · rename_i launched
        refine agreeing_ret h2 ?_
        intro id mem
        cases mem
        exact ⟨record, by rw [same2.submissions]; exact stored, not_not.mp key,
          not_not.mp launched, rfl⟩
  · intro w1 g1 _ _ h1 _
    rw [if_neg Bool.false_ne_true]
    refine agreeing_ret h1 ?_
    intro id mem
    cases mem

/-- `prepare` hands the key of the spec on. -/
lemma agreeing_prepare {spec : ComputeTaskSpec} {resourceClass : String}
    (h : p.Agreed s.1 s.2) :
    p.Agreeing modelValidate (fun prepared _ => prepared.submissionKey = spec.submissionKey)
      (p.prepare spec resourceClass) s := by
  unfold prepare
  split
  · exact agreeing_raise h
  · apply agreeing_call h
    intro w1 g1 o1 _ _ h1 _
    apply agreeing_call h1
    intro w2 g2 o2 _ _ h2 _
    refine agreeing_ret ?_ rfl
    exact h2.later (.ofJobs rfl) rfl (fun _ mem => mem) rfl

/-- The commit of the identifier that is on record for the key of the job. -/
lemma agreeing_commit {jobId externalId : String} {job : ComputeJob} (h : p.Agreed s.1 s.2)
    (hj : s.1.db.jobs.get jobId = some job)
    (launched : p.Launched s.1 job.submissionKey externalId) :
    p.Agreeing modelValidate (fun _ _ => True)
      (Submission.commitSubmitted jobId externalId >>= Program.check) s := by
  apply agreeing_call h
  intro w g o same kept agreed _
  obtain ⟨job', hj', fixed⟩ := kept jobId job hj
  have key : job'.submissionKey = job.submissionKey := congrArg JobOwner.submissionKey fixed
  have launched' : p.Launched w job'.submissionKey externalId := by
    rw [key, Launched, same.submissions]
    exact launched
  have after := agreed.commit hj' launched' o
  cases committed : (w.handle (.commitSubmitted jobId externalId) o).2 with
  | ok jobIds =>
    exact agreeing_ret after trivial
  | error e => exact agreeing_raise after

/-- The items of the query of `reconcile_created` belong to jobs, with their keys. -/
def Known (w : LocalWorld) (records : List (ComputeJobView × ComputeTaskSpec)) : Prop :=
  ∀ item ∈ records, ∃ job, w.db.jobs.get item.1.id = some job ∧
    job.submissionKey = item.1.submissionKey ∧ item.2.submissionKey = item.1.submissionKey

lemma Known.later {w w' : LocalWorld} {records : List (ComputeJobView × ComputeTaskSpec)}
    (known : Known w records) (kept : w.db.KeepsJobs w'.db) : Known w' records := by
  intro item mem
  obtain ⟨job, hj, key, specKey⟩ := known item mem
  obtain ⟨job', hj', fixed⟩ := kept item.1.id job hj
  exact ⟨job', hj', (congrArg JobOwner.submissionKey fixed).trans key, specKey⟩

/-- An iteration of `reconcile_created` keeps the invariant. -/
lemma agreeing_reconcileOne {view : ComputeJobView} {spec : ComputeTaskSpec}
    (h : p.Agreed s.1 s.2) (known : Known s.1 [(view, spec)]) :
    p.Agreeing modelValidate (fun _ _ => True) (p.reconcileOne view spec) s := by
  have hj : ∀ {t : LocalWorld}, s.1.db.KeepsJobs t.db → ∃ job, t.db.jobs.get view.id = some job ∧
      job.submissionKey = view.submissionKey := by
    intro t kept
    obtain ⟨job, hj, key, _⟩ := known.later kept _ (List.mem_singleton_self _)
    exact ⟨job, hj, key⟩
  obtain ⟨_, _, _, specKey⟩ := known _ (List.mem_singleton_self _)
  unfold reconcileOne
  split
  · exact agreeing_raise h
  · apply agreeing_bind (agreeing_reconcileSubmission h)
    intro found t1 h1 kept1 launched
    cases found with
    | some externalId =>
      obtain ⟨job, hj, key⟩ := hj kept1
      exact agreeing_commit h1 hj (key.symm ▸ launched externalId rfl)
    | none =>
      apply agreeing_bind (agreeing_prepare h1)
      intro prepared t2 h2 kept2 preparedKey
      apply agreeing_bind (agreeing_submit h2)
      intro externalId t3 h3 kept3 launched
      obtain ⟨job, hj, key⟩ := hj ((kept1.trans kept2).trans kept3)
      apply agreeing_commit h3 hj
      rw [key, ← specKey, ← preparedKey]
      exact launched

/-- `reconcile_created` keeps the invariant over the jobs of its query. -/
lemma agreeing_reconcileEach {records : List (ComputeJobView × ComputeTaskSpec)}
    (h : p.Agreed s.1 s.2) (known : Known s.1 records) :
    p.Agreeing modelValidate (fun _ _ => True) (p.reconcileEach records) s := by
  induction records generalizing s with
  | nil => exact agreeing_ret h trivial
  | cons item rest ih =>
    obtain ⟨view, spec⟩ := item
    have first : Known s.1 [(view, spec)] := by
      intro item mem
      rw [List.mem_singleton.mp mem]
      exact known _ (List.mem_cons_self ..)
    have others : Known s.1 rest := fun item mem => known item (List.mem_cons_of_mem _ mem)
    apply agreeing_bind (agreeing_reconcileOne h first)
    intro one t1 h1 kept1 _
    apply agreeing_bind (ih h1 (others.later kept1))
    intro more t2 h2 _ _
    exact agreeing_ret h2 trivial

lemma agreeing_reconcileCreated (h : p.Agreed s.1 s.2) :
    p.Agreeing modelValidate (fun _ _ => True) p.reconcileCreated s := by
  apply agreeing_call h
  intro w g o _ _ agreed _
  apply agreeing_reconcileEach agreed
  intro item mem
  obtain ⟨⟨id, job⟩, found, rfl⟩ := List.mem_map.mp mem
  have hj := (Dict.mem_items _).mp (List.mem_filter.mp found).1
  exact ⟨job, hj, rfl, agreed.keys hj⟩

/-- What every call keeps and returns. -/
lemma agreeing_call_returns (call : SubmissionCall) (h : p.Agreed s.1 s.2) :
    p.Agreeing modelValidate (fun value t => ∀ pair ∈ value.answer, pair ∈ t.2.issued)
      (p.call call) s := by
  have issued : ∀ {t : LocalWorld × Ledger} {submissionKey externalId}, p.Agreed t.1 t.2 →
      p.Launched t.1 submissionKey externalId → (submissionKey, externalId) ∈ t.2.issued := by
    rintro t _ _ agreed ⟨record, stored, rfl, _, rfl⟩
    exact agreed.noted stored
  cases call with
  | reconcileCreated =>
    apply agreeing_bind (agreeing_reconcileCreated h)
    intro jobIds t agreed _ _
    refine agreeing_ret agreed ?_
    intro pair mem
    cases mem
  | submit prepared =>
    apply agreeing_bind (agreeing_submit h)
    intro externalId t agreed _ launched
    refine agreeing_ret agreed ?_
    intro pair mem
    cases mem
    exact issued agreed launched
  | reconcileSubmission submissionKey =>
    apply agreeing_bind (agreeing_reconcileSubmission h)
    intro known t agreed _ launched
    refine agreeing_ret agreed ?_
    intro pair mem
    obtain ⟨externalId, found, rfl⟩ := Option.map_eq_some_iff.mp mem
    exact issued agreed (launched externalId found)

end LocalProvider

/-! ## The runs -/

lemma agreementContract_safe (call : SubmissionCall) (s : LocalWorld × Ledger)
    (h : p.agreementContract.rest s) :
    (p.call call).Safe (agreementMachine modelValidate) p.agreementContract
      (fun r s => p.agreementContract.rest s ∧ p.agreementContract.good r s) s := by
  rcases h with broken | agreed
  · exact safe_of_broken (fun _ _ lost => ⟨Or.inl lost, Or.inl lost⟩) broken
  · apply Program.Safe.mono ?_ (LocalProvider.agreeing_call_returns call agreed)
    intro r t post
    rcases post with broken | ⟨agreed, _, returned⟩
    · exact ⟨Or.inl broken, Or.inl broken⟩
    · exact ⟨Or.inr agreed, Or.inr returned⟩

/-- The start: nothing is stored yet. -/
def noSubmissions : SubmissionConfig := { world := { db := Db.empty } }

/-- What is known in a moment of a run, with the ledger of its past. -/
structure Agreement (modelValidate : Json → Except PyErr ComputeTaskSpec) (p : LocalProvider)
    (events : List (RunEvent SubmissionCall Surroundings Action)) (c : SubmissionConfig)
    (g : Ledger) : Prop where
  run : ((agreementMachine modelValidate).system p.call).run (noSubmissions.withGhost {}) events =
    some (c.withGhost g)
  trusted : g.broken = false
  secure : p.agreementContract.Secure (agreementMachine modelValidate) (c.withGhost g)

variable {events : List (RunEvent SubmissionCall Surroundings Action)} {c : SubmissionConfig}
  {g : Ledger}

/-- A run with trustworthy surroundings has a ledger. -/
lemma agreement_of_run (rn : (agreementSystem modelValidate p).run noSubmissions events = some c)
    (trusted : (agreementSystem modelValidate p).Meets Trustworthy noSubmissions events) :
    ∃ g, Agreement modelValidate p events c g := by
  have keeps : ∀ g c ev, g.broken = false → Trustworthy c ev →
      (ledgerGhost.after g c ev).broken = false := by
    intro g c ev kept trusted
    cases ev with
    | start call => exact kept
    | crash => exact kept
    | drift e =>
      refine Bool.or_eq_false_iff.mpr ⟨kept, ?_⟩
      rw [show e.keyFromSpec = true from trusted]
      rfl
    | perform o =>
      simp only [Ghost.after]
      split
      · rename_i e next running
        cases e with
        | newExternalId =>
          exact Bool.or_eq_false_iff.mpr ⟨kept, trusted _ running _ rfl rfl⟩
        | commitSubmitted jobId externalId =>
          show (Ledger.note g c.world (.commitSubmitted jobId externalId) o).broken = false
          simp only [Ledger.note]
          split <;> exact kept
        | _ => exact kept
      · exact kept
  obtain ⟨g, rn', kept⟩ := Machine.run_ghost keeps rn trusted (g := {}) rfl
  refine ⟨g, rn', kept, ?_⟩
  apply Machine.run_secure LocalProvider.agreementContract_fits agreementContract_safe rn'
  · apply System.Meets.all
    intro c ev
    cases ev with
    | start call => trivial
    | perform o => trivial
    | crash => exact fun _ _ _ _ => trivial
    | drift e => exact fun _ _ _ _ => trivial
  · exact Or.inr (.start Db.empty fun _ => rfl)

namespace Agreement

lemma agreed (h : Agreement modelValidate p events c g) : p.Agreed c.world g := by
  rcases h.secure.always with broken | agreed
  · cases h.trusted.symm.trans broken
  · exact agreed

/-- What is in the ledger at a moment is in it at the end. -/
lemma issued_of_moment {P : SubmissionConfig → Prop} {pair : String × String}
    (shows : ∀ {before d g}, Agreement modelValidate p before d g → P d → pair ∈ g.issued)
    (trusted : (agreementSystem modelValidate p).Meets Trustworthy noSubmissions events)
    (h : Agreement modelValidate p events c g)
    (moment : (agreementSystem modelValidate p).Sometime P noSubmissions events) :
    pair ∈ g.issued := by
  obtain ⟨before, after, d, rfl, rn, hd⟩ := moment
  obtain ⟨gd, hg⟩ := agreement_of_run rn (trusted.append rn).1
  obtain ⟨t, first, second⟩ := System.run_append.mp h.run
  rw [hg.run] at first
  cases first
  refine Machine.run_world (P := fun s : LocalWorld × Ledger => pair ∈ s.2.issued) ?_ ?_ second
    (shows hg hd)
  · exact fun s e o mem => Ledger.note_issued s.1 e o mem
  · intro s e s' mem moved
    obtain ⟨_, noted, _⟩ := agreementMachine_drift moved
    rw [noted]
    exact mem

lemma issued_of_reserved {submissionKey externalId : String}
    (h : Agreement modelValidate p events c g) (reserved : Reserved submissionKey externalId c) :
    (submissionKey, externalId) ∈ g.issued := by
  obtain ⟨path, record, stored, rfl, rfl⟩ := reserved
  exact h.agreed.noted stored

lemma issued_of_returned {submissionKey externalId : String}
    (h : Agreement modelValidate p events c g) (returned : Returned submissionKey externalId c) :
    (submissionKey, externalId) ∈ g.issued := by
  obtain ⟨value, mem, answer⟩ | ⟨program, running, jobId, job, pending, hj, rfl⟩ := returned
  · rcases h.secure.results _ mem with broken | good
    · cases h.trusted.symm.trans broken
    · exact good value rfl _ answer
  · -- the invariant holds after the commit as well, and the commit changes no record
    have note : g.note c.world (.commitSubmitted jobId externalId) {} =
        { g with issued := g.issued ++ [(job.submissionKey, externalId)] } := by
      simp only [Ledger.note, hj]
    have after := h.secure.always_next LocalProvider.agreementContract_fits running pending
      ({} : Surroundings)
    rcases after with broken | agreed
    · have broken : (g.note c.world (.commitSubmitted jobId externalId) {}).broken = true := broken
      rw [note] at broken
      cases h.trusted.symm.trans broken
    · have agreed : p.Agreed (c.world.handle (.commitSubmitted jobId externalId) {}).1
        (g.note c.world (.commitSubmitted jobId externalId) {}) := agreed
      rw [note] at agreed
      obtain ⟨record, stored, key, external⟩ :=
        agreed.issued (List.mem_append_right _ (List.mem_singleton_self _))
      have files : (c.world.handle (.commitSubmitted jobId externalId) {}).1.submissions =
          c.world.submissions := by
        simp only [LocalWorld.handle]
        split <;> rfl
      rw [files] at stored
      rw [← key, ← external]
      exact h.agreed.noted stored

end Agreement

/-! ## Collisions -/

/-- Between two effects of a call only the database changes. -/
lemma localMachine_drifts {w w' : LocalWorld} (drifts : (localMachine modelValidate).Drifts w w') :
    SameFiles w w' := by
  induction drifts with
  | refl => exact ⟨rfl, rfl⟩
  | tail _ moved ih =>
    obtain ⟨e, moved⟩ := moved
    have same := localMachine_drift moved
    exact ⟨same.submissions.trans ih.submissions, same.runners.trans ih.runners⟩

/-- A program that checks the record of a key goes no further when the record belongs to another
    key. -/
lemma collision_raises {α : Type} {submissionKey : String} {w w' : LocalWorld}
    {trace : List (SubmissionEffect × LocalWorld)} {r : Except PyErr α}
    (found : SubmissionRecord → Submission α) {missing : Submission α}
    (collides : p.Collides w submissionKey)
    (h : (localMachine modelValidate).Interleaved (do
        let present ← Submission.recordExists (p.submissionPath submissionKey)
        if present then
          let loaded ← Submission.loadRecord (p.submissionPath submissionKey)
          let record ← Program.check loaded
          if record.submissionKey ≠ submissionKey then
            Program.raise (.runtimeError "submission hash collision")
          else
            found record
        else
          missing) w trace r w') :
    r = .error (.runtimeError "submission hash collision") ∧ SameFiles w w' := by
  obtain ⟨record, stored, other⟩ := collides
  obtain ⟨t1, o1, rest1, drifts1, h, _⟩ := Machine.Interleaved.call_inv h
  have same1 := localMachine_drifts drifts1
  have stored1 : t1.submissions.get (p.submissionPath submissionKey) = some record := by
    rw [same1.submissions]
    exact stored
  simp only [localMachine, LocalWorld.handle, stored1, Option.isSome_some, if_true] at h
  obtain ⟨t2, o2, rest2, drifts2, h, _⟩ := Machine.Interleaved.call_inv h
  have same2 := localMachine_drifts drifts2
  have stored2 : t2.submissions.get (p.submissionPath submissionKey) = some record := by
    rw [same2.submissions]
    exact stored1
  simp only [LocalWorld.handle, stored2] at h
  have stops : (localMachine modelValidate).Interleaved
      (if record.submissionKey ≠ submissionKey then
        .raise (.runtimeError "submission hash collision")
      else
        found record) t2 rest2 r w' := h
  rw [if_pos other] at stops
  cases stops
  exact ⟨rfl, same2.submissions.trans same1.submissions, same2.runners.trans same1.runners⟩

/-! ## Agreement -/

/-- In every run whose identifiers are drawn only once and whose jobs come from the dispatcher,
    wherever crashes fall: a key has been answered with one identifier only, an identifier that has
    been on record under a key is answered for this key only and stays on its record, a collision of
    the digest raises and changes neither records nor runners, and a job with an identifier has a
    `LAUNCHED` record of exactly this identifier and a runner under its key. -/
theorem submissions_agree {modelValidate : Json → Except PyErr ComputeTaskSpec} {p : LocalProvider}
    {events : List (RunEvent SubmissionCall Surroundings Action)} {c : SubmissionConfig}
    (rn : (agreementSystem modelValidate p).run noSubmissions events = some c)
    (trusted : (agreementSystem modelValidate p).Meets Trustworthy noSubmissions events) :
    let sometime (P : SubmissionConfig → Prop) :=
      (agreementSystem modelValidate p).Sometime P noSubmissions events
    (∀ submissionKey id id', sometime (Returned submissionKey id) →
      sometime (Returned submissionKey id') → id = id') ∧
    (∀ submissionKey submissionKey' id, sometime (Reserved submissionKey id) →
      sometime (Returned submissionKey' id) → submissionKey = submissionKey') ∧
    (∀ submissionKey id, sometime (Reserved submissionKey id) →
      ∃ record, c.world.submissions.get (p.submissionPath submissionKey) = some record ∧
        record.submissionKey = submissionKey ∧ record.externalJobId = id) ∧
    (∀ prepared, p.Collides c.world prepared.submissionKey → ∀ trace r w',
      (localMachine modelValidate).Interleaved (p.submit prepared) c.world trace r w' →
      r = .error (.runtimeError "submission hash collision") ∧ SameFiles c.world w') ∧
    (∀ submissionKey, p.Collides c.world submissionKey → ∀ trace r w',
      (localMachine modelValidate).Interleaved (p.reconcileSubmission submissionKey) c.world
        trace r w' →
      r = .error (.runtimeError "submission hash collision") ∧ SameFiles c.world w') ∧
    ∀ jobId job externalId, c.world.db.jobs.get jobId = some job →
      job.externalJobId = some externalId →
      p.Launched c.world job.submissionKey externalId ∧
        1 ≤ c.world.launches job.submissionKey := by
  intro sometime
  obtain ⟨g, h⟩ := agreement_of_run rn trusted
  have returned : ∀ {submissionKey id}, sometime (Returned submissionKey id) →
      (submissionKey, id) ∈ g.issued :=
    h.issued_of_moment (fun hd => hd.issued_of_returned) trusted
  have reserved : ∀ {submissionKey id}, sometime (Reserved submissionKey id) →
      (submissionKey, id) ∈ g.issued :=
    h.issued_of_moment (fun hd => hd.issued_of_reserved) trusted
  refine ⟨?_, ?_, ?_, ?_, ?_, ?_⟩
  · intro submissionKey id id' first second
    obtain ⟨record, stored, _, rfl⟩ := h.agreed.issued (returned first)
    obtain ⟨record', stored', _, rfl⟩ := h.agreed.issued (returned second)
    rw [stored] at stored'
    cases stored'
    rfl
  · intro submissionKey submissionKey' id first second
    obtain ⟨record, stored, rfl, same⟩ := h.agreed.issued (reserved first)
    obtain ⟨record', stored', rfl, same'⟩ := h.agreed.issued (returned second)
    have here := h.agreed.distinct stored stored' (same.trans same'.symm)
    rw [here, stored'] at stored
    cases stored
    rfl
  · intro submissionKey id first
    exact h.agreed.issued (reserved first)
  · intro prepared collides trace r w' called
    exact collision_raises _ collides called
  · intro submissionKey collides trace r w' called
    exact collision_raises (fun record =>
      if record.status ≠ .launched then return none else return some record.externalJobId)
      collides called
  · intro jobId job externalId hj identified
    have launched := h.agreed.jobs hj identified
    obtain ⟨record, stored, key, status, _⟩ := id launched
    obtain ⟨runner, mem, sameKey⟩ := h.agreed.behind stored status
    refine ⟨launched, List.count_pos_iff.mpr ?_⟩
    exact List.mem_map.mpr ⟨runner, mem, sameKey.trans key⟩

/-- The start of `reconcile_created`, among other calls. -/
def startsReconcile : RunEvent Unit Surroundings Action →
    RunEvent SubmissionCall Surroundings Action
  | .start _ => .start .reconcileCreated
  | .perform o => .perform o
  | .crash => .crash
  | .drift e => .drift e

/-- A job is dispatched, and the call that submits it is interrupted between the start of the runner
    and the write of the `LAUNCHED` record. -/
def relaunched : List (RunEvent SubmissionCall Surroundings Action) :=
  List.map startsReconcile (dispatchedJob ++ reconciling 8 ++ [.crash] ++ reconciling 10)

/-- A crash between the start of a runner and the write of its `LAUNCHED` record: the next start
    launches again, but commits the identifier that was reserved. -/
theorem submissions_agree_relaunched :
    ∃ c, (agreementSystem (fun _ => .ok trainingSpec) plainProvider).run noSubmissions relaunched =
        some c ∧
      (∃ job, c.world.db.jobs.get "j" = some job ∧ job.externalJobId = some "local-") ∧
      plainProvider.Launched c.world "s" "local-" := by
  have last : ((agreementSystem (fun _ => .ok trainingSpec) plainProvider).run noSubmissions
      relaunched).map (fun c => (c.world.db.jobs.get "j").map fun job =>
        (job.submissionKey, job.externalJobId)) = some (some ("s", some "local-")) := by
    decide
  obtain ⟨c, rn, job⟩ := Option.map_eq_some_iff.mp last
  obtain ⟨job, hj, columns⟩ := Option.map_eq_some_iff.mp job
  obtain ⟨key, identified⟩ := Prod.mk.inj columns
  obtain ⟨_, _, _, _, _, jobs⟩ := submissions_agree rn (by decide)
  have launched := (jobs "j" job "local-" hj identified).1
  rw [key] at launched
  exact ⟨c, rn, ⟨job, hj, identified⟩, launched⟩

end ResearchController
