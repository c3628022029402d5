import ResearchController.Lifecycle.Trust

/-!
# The controller refines the lifecycle

Every transaction of the controller is a sequence of moves of `Lifecycle/Model` on the tables: a
transaction that raises is no move, a transaction about one task or job is one move, and the
services that visit a list of tasks make at most one move for each. So both invariants of the
lifecycle hold of every database the controller can reach, whatever the order of its transactions
and wherever it crashes between two of them.
-/

namespace ResearchController
open Lib

variable {valid : Json → Except PyErr ComputeTaskSpec}

/-- Sequences of moves between the tables of two databases. -/
abbrev Moves (valid : Json → Except PyErr ComputeTaskSpec) (db db' : Db) : Prop :=
  Relation.ReflTransGen (Move valid) db.toRows db'.toRows

lemma Moves.one {db db' : Db} {r : Rows} (e : db'.toRows = r) (mv : Move valid db.toRows r) :
    Moves valid db db' := by
  unfold Moves
  rw [e]
  exact .single mv

/-! ## Creation, readiness and leases -/

lemma Db.createProject_moves {db db' : Db} {id slug new : String} {lifecycle : ProjectLifecycle}
    (h : db.createProject id slug lifecycle = .ok (new, db')) : Moves valid db db' := by
  obtain ⟨_, _, e⟩ := createProject_ok h
  rw [e, Moves, logged_rows]

lemma Db.createTask_moves {db db' : Db} {a : TaskArgs} {id : String}
    (h : db.createTask a = .ok (id, db')) : Moves valid db db' := by
  obtain ⟨rfl, _⟩ | ⟨p, _, fresh, _, dependencies, e⟩ := createTask_ok h
  · exact .refl
  · refine Moves.one (by rw [e, logged_rows]) (Move.created fresh ?_)
    intro d mem
    obtain ⟨t, ht, _⟩ := dependencies d mem
    exact ⟨t, ht⟩

lemma Db.reconcileOne_moves {changedAt : Datetime} {s s' : List String × Db} {id : String}
    (h : Db.reconcileOne changedAt s id = .ok s') : Moves valid s.2 s'.2 := by
  obtain rfl | ⟨t, ht, pending, succeeded, _, rows⟩ := reconcileOne_ok h
  · exact .refl
  · refine Moves.one rows (Move.readied ht pending ?_)
    intro d mem owner t' ht'
    exact dependencyStates_all succeeded mem owner ht'

lemma Db.recoverOne_moves {changedAt : Datetime} {s s' : List String × Db} {id : String}
    (h : Db.recoverOne changedAt s id = .ok s') : Moves valid s.2 s'.2 := by
  obtain ⟨t, ht, ⟨kept, e⟩ | ⟨running, idle, rows⟩⟩ := recoverOne_ok h
  · refine Moves.one (by rw [e]) (Move.unleased ht ?_)
    intro running
    have work : s.2.hasExternalWork id = true := by
      rw [← Bool.not_eq_false]
      exact fun idle => kept ⟨running, idle⟩
    exact hasExternalWork_iff.mp work
  · refine Moves.one rows (Move.expired ht running ?_)
    intro work
    rw [hasExternalWork_iff.mpr work] at idle
    cases idle

/-! ## Dispatch and compute jobs -/

lemma Db.dispatchCommit_moves {db db' : Db} {a : JobArgs} {owner : String}
    {leaseExpiresAt now : Datetime} {jobIds : List String}
    (h : db.dispatchCommit a owner leaseExpiresAt now = .ok (jobIds, db')) :
    Moves valid db db' := by
  obtain ⟨rfl, _⟩ | ⟨t, jobs, ht, ready, rows, ⟨rfl, _⟩ | ⟨rfl, fresh, _, attempt⟩⟩ :=
    dispatchCommit_ok h
  · exact .refl
  · exact Moves.one rows (Move.joined ht ready)
  · exact Moves.one rows (Move.dispatched ht ready fresh attempt)

/-- One replaced job row that goes on is one move. -/
lemma Db.SetsJob.moves {id : String} {j j' : ComputeJob} {db db' : Db}
    (st : Db.SetsJob id j' db db')
    (hj : db.jobs.get id = some j) (adv : j.Advances j') : Moves valid db db' :=
  Moves.one st (Move.advanced hj adv)

lemma Db.reconcileCreatedCommit_moves {db db' : Db} {id externalId : String} {now : Datetime}
    {jobIds : List String} (h : db.reconcileCreatedCommit id externalId now = .ok (jobIds, db')) :
    Moves valid db db' := by
  obtain rfl | ⟨job, hj, created, st⟩ := reconcileCreatedCommit_ok h
  · exact .refl
  · have same := (job.identified externalId).sameWork_moved .submitted now
    refine st.moves hj ⟨same.taskId, same.attemptNo, Or.inr ⟨?_, ?_, ?_⟩⟩
    · rw [created]
      rfl
    · rw [ComputeJob.moved_executionStatus]
      rfl
    · rw [ComputeJob.moved_executionStatus]
      intro collecting
      cases collecting

/-- A recorded observation lets the job go on. -/
lemma ComputeJob.advances_recorded (j : ComputeJob) (obs : JobObservation) (pollInterval : Int)
    (now : Datetime) : j.Advances (j.recorded obs pollInterval now) := by
  cases pollable : j.executionStatus.isPollable with
  | false =>
    rw [recorded_closed pollable]
    exact ⟨rfl, rfl, Or.inl ⟨rfl, rfl, rfl⟩⟩
  | true =>
    have nonterminal : j.executionStatus.isNonterminal = true := by
      revert pollable
      cases j.executionStatus <;> decide
    cases decides : obs.decides with
    | false =>
      obtain ⟨same, status⟩ := recorded_undecided pollable decides pollInterval now
      split at status
      · refine ⟨same.taskId, same.attemptNo, Or.inr ⟨nonterminal, by rw [status]; rfl, ?_⟩⟩
        rw [status]
        intro collecting
        cases collecting
      · exact ⟨same.taskId, same.attemptNo, Or.inl ⟨status, same.exitCode, same.metadata⟩⟩
    | true =>
      obtain ⟨eqT, eqA, collecting, _, _, outcome⟩ :=
        recorded_decided pollable decides pollInterval now
      refine ⟨eqT, eqA, Or.inr ⟨nonterminal, by rw [collecting]; rfl, fun _ => ?_⟩⟩
      exact ⟨obs.executionStatus, outcome, (Bool.and_eq_true_iff.mp decides).2⟩

lemma Db.recordObservation_moves {db db' : Db} {obs : JobObservation} {pollInterval : Int}
    {now : Datetime} (h : db.recordObservation obs pollInterval now = .ok db') :
    Moves valid db db' := by
  cases hj : db.jobs.get obs.computeJobId with
  | none =>
    simp only [recordObservation, hj] at h
    cases h
    exact .refl
  | some job =>
    exact (recordObservation_sets hj h).moves hj (job.advances_recorded obs pollInterval now)

lemma Db.pollErrorCommit_moves {db db' : Db} {id errorType : String} {pollInterval : Int}
    {now : Datetime} (h : db.pollErrorCommit id errorType pollInterval now = .ok db') :
    Moves valid db db' := by
  cases hj : db.jobs.get id with
  | none =>
    simp only [pollErrorCommit, hj] at h
    cases h
    exact .refl
  | some job =>
    have same := job.sameWork_seen .pollError
    refine (pollErrorCommit_sets hj h).moves hj ⟨same.taskId, same.attemptNo, Or.inl ?_⟩
    exact ⟨job.seen_executionStatus .pollError, same.exitCode, same.metadata⟩

lemma Db.collectingCommit_moves {db db' : Db} {id : String} {now : Datetime} {jobIds : List String}
    (h : db.collectingCommit id now = .ok (jobIds, db')) : Moves valid db db' := by
  obtain ⟨rfl, _⟩ | ⟨job, terminal, hj, collecting, outcome, _, sameA, sameD, jobs, tasks⟩ :=
    collectingCommit_ok h
  · exact .refl
  · obtain ⟨⟨tasks', jobs', artifacts', dependencies'⟩, projects', events'⟩ := db'
    simp only at sameA sameD jobs tasks
    subst sameA sameD jobs
    rcases tasks with ⟨task, ht, running, rfl⟩ | ⟨rfl, idle⟩
    · exact Moves.one rfl (Move.finalised hj collecting outcome ht running)
    · exact Moves.one rfl (Move.orphaned hj collecting outcome idle)

/-! ## Artifacts and verification -/

lemma Db.ingestRow_moves {db db' : Db} {a : IngestArgs} {id : String}
    (plain : a.evidenceEligible = false) (h : db.ingestRow a = .ok (id, db')) :
    Moves valid db db' := by
  obtain ⟨rfl, _⟩ | ⟨_, fresh, rows⟩ := ingestRow_ok h
  · exact .refl
  · exact Moves.one rows (Move.ingested fresh plain)

/-- A task that the validator passes is accepted. -/
lemma TaskValidator.accepted {v : TaskValidator} {db : Db} {id k : String} {policy : JsonObject}
    {spec : ComputeTaskSpec} {job : ComputeJob} (latest : db.latestJob id = some (k, job))
    (h : v.reasons spec policy job (db.artifactsOf id) = .ok []) :
    Accepted db.jobs db.artifacts id policy spec k job := by
  obtain ⟨stored, owner, highest⟩ := Db.latestJob_some latest
  obtain ⟨noJob, noNames, _⟩ := reasons_nil h
  obtain ⟨succeeded, exitCode⟩ := jobReasons_nil noJob
  refine ⟨stored, owner, highest, succeeded, exitCode, ?_⟩
  intro name required
  obtain ⟨x, mem, verified, named⟩ := requiredReason_none (noNames name required)
  obtain ⟨i, hx, owner'⟩ := Db.mem_artifactsOf.mp mem
  exact ⟨i, x, hx, owner', verified, named⟩

lemma TaskValidator.verifyOne_moves {v : TaskValidator} {changedAt : Datetime}
    {s s' : List String × Db} {id : String} (h : v.verifyOne changedAt s id = .ok s') :
    Moves v.modelValidate s.2 s'.2 := by
  obtain ⟨t, result, db1, ht, verifying, vc, _, rows⟩ := verifyOne_ok h
  obtain ⟨spec, parsed, ⟨refused, rfl⟩ | ⟨passed, rfl, k, job, latest, rs⟩⟩ :=
    validateComputeTask_ok vc
  · rw [refused] at rows
    exact Moves.one rows (Move.refused ht verifying)
  · rw [passed] at rows
    exact Moves.one rows (Move.passed ht verifying parsed (accepted latest rs))

/-! ## Whole runs -/

/-- Every action of the controller is a sequence of moves. -/
theorem Db.act_moves (db : Db) (e : Action) : Moves valid db (db.act valid e) := by
  have committed : ∀ {α : Type} {r : Except PyErr (α × Db)},
      (∀ a db', r = .ok (a, db') → Moves valid db db') → Moves valid db (db.commit r) :=
    Db.commit_keeps .refl
  have committedUnit : ∀ {r : Except PyErr Db},
      (∀ db', r = .ok db' → Moves valid db db') → Moves valid db (db.commitUnit r) :=
    Db.commitUnit_keeps .refl
  cases e with
  | createProject id slug lifecycle => exact committed fun _ _ h => createProject_moves h
  | createTask a => exact committed fun _ _ h => createTask_moves h
  | reconcile current changedAt candidates =>
    refine committed fun ids db' h => ?_
    exact foldlM_moves (fun s : List String × Db => s.2.toRows)
      (fun s id s' _ st => reconcileOne_moves st) h
  | recoverExpiredLeases current changedAt candidates =>
    refine committed fun ids db' h => ?_
    exact foldlM_moves (fun s : List String × Db => s.2.toRows)
      (fun s id s' _ st => recoverOne_moves st) h
  | dispatch a owner leaseExpiresAt now => exact committed fun _ _ h => dispatchCommit_moves h
  | submitted jobId externalId now =>
    exact committed fun _ _ h => reconcileCreatedCommit_moves h
  | observed obs pollInterval now => exact committedUnit fun _ h => recordObservation_moves h
  | pollRaised jobId errorType pollInterval now =>
    exact committedUnit fun _ h => pollErrorCommit_moves h
  | ingested jobId candidate id digest uri sizeBytes =>
    simp only [Db.act]
    split
    · exact .refl
    · exact committed fun _ _ h => ingestRow_moves rfl h
  | finalised jobId now => exact committed fun _ _ h => collectingCommit_moves h
  | verified readFile loads frames changedAt candidates =>
    refine committed fun ids db' h => ?_
    exact foldlM_moves (fun s : List String × Db => s.2.toRows)
      (fun s id s' _ st => TaskValidator.verifyOne_moves st) h

/-- Every run of the controller is a sequence of moves on the tables. -/
theorem controller_refines {db db' : Db} {actions : List Action}
    (rn : (controller valid).run db actions = some db') : Moves valid db db' := by
  refine System.run_refines (fun db : Db => db.toRows) (P := fun _ => True) ?_ rn trivial
  intro db e db' _ st
  obtain ⟨_, rfl⟩ := controller_step st
  exact ⟨trivial, db.act_moves e⟩

/-- The invariants of the lifecycle hold of every reachable database. -/
theorem controller_invariants {db : Db} {actions : List Action}
    (rn : (controller valid).run Db.empty actions = some db) :
    Coupled db.tasks db.jobs ∧ Trusted valid db.toRows := by
  refine moves_invariant (P := fun r : Rows => Coupled r.tasks r.jobs ∧ Trusted valid r) ?_
    (controller_refines rn) ⟨.empty, .empty⟩
  rintro r r' ⟨cp, tr⟩ mv
  exact ⟨mv.coupled cp, mv.trusted cp tr⟩

end ResearchController
