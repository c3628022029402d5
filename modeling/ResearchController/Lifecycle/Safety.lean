import ResearchController.Lifecycle.Refinement

/-!
# Safety of the controller's runs

The two headline results about every database that the controller reaches from the empty one:

* `controller_coupled`: external work belongs to a running task, at most one job of a task is under
  way, and a running task can always be reached, by its job or by lease recovery;
* `controller_trust_chain`: evidence belongs to succeeded tasks, and a succeeded task has a last
  attempt that succeeded and a verified artifact for each required name.

Both hold for tasks of every executor, although only compute tasks are ever dispatched. The
witnesses run two tasks with one submission key: the second dispatch reuses the job of the first.
-/

namespace ResearchController
open Lib

variable {valid : Json → Except PyErr ComputeTaskSpec}

/-- Jobs, running tasks and leases agree in every reachable database. -/
theorem controller_coupled {db : Db} {actions : List Action}
    (rn : (controller valid).run Db.empty actions = some db) :
    (∀ k j, db.jobs.get k = some j → j.executionStatus.isNonterminal = true →
        ∃ t, db.tasks.get j.taskId = some t ∧ t.status = .running) ∧
      (∀ k k' j j', db.jobs.get k = some j → db.jobs.get k' = some j' →
        j.executionStatus.isNonterminal = true → j'.executionStatus.isNonterminal = true →
        j.taskId = j'.taskId → k = k') ∧
      ∀ id t, db.tasks.get id = some t → t.status = .running →
        (∃ k j, db.jobs.get k = some j ∧ j.taskId = id ∧
          j.executionStatus.isNonterminal = true) ∨ t.leaseExpiresAt ≠ none := by
  obtain ⟨cp, _⟩ := controller_invariants rn
  exact ⟨fun _ _ => cp.working, fun _ _ _ _ => cp.single, fun _ _ => cp.attended⟩

/-- The spec of the two tasks of the witnesses. -/
def sharedSpec : ComputeTaskSpec :=
  { projectId := "p", taskId := "t1", submissionKey := "s", execution := {}, resources := {},
    outputs := [{ logicalName := "model", glob := "*", artifactKind := "MODEL",
                  evidenceCandidate := true }] }

def sharedTask (id : String) : TaskArgs :=
  { id := id, projectId := "p", executor := .compute, idempotencyKey := id, specJson := .null }

def sharedJob (id taskId : String) : JobArgs :=
  { id := id, taskId := taskId, providerId := "local", resourceClass := "cpu",
    submissionKey := "s", remoteWorkdir := "/w", specJson := sharedSpec }

/-- Two tasks with one submission key are dispatched. -/
def sharedDispatch : List Action :=
  [ .createProject "p" "slug" .active,
    .createTask (sharedTask "t1"), .createTask (sharedTask "t2"),
    .reconcile 0 0 ["t1", "t2"],
    .dispatch (sharedJob "j1" "t1") "c" 60 0,
    .dispatch (sharedJob "j2" "t2") "c" 60 0 ]

def collectedAs (name : String) : Action :=
  .ingested "j1" { logicalName := name, path := name, artifactKind := "FILE" } name name name 0

/-- The job of the first of them succeeds, is collected and verified. -/
def sharedSuccess : List Action :=
  sharedDispatch ++
  [ .submitted "j1" "x" 1,
    .observed { computeJobId := "j1", observedAt := 2, observationStatus := .fresh,
                executionStatus := .succeeded, exitCode := some 0 } 1 2,
    collectedAs "run.out", collectedAs "run.error", collectedAs "exit.json",
    collectedAs "model:1",
    .finalised "j1" 3,
    .verified (fun _ => .bytes []) (fun _ => .error (.jsonDecodeError "")) 0 4 ["t1"] ]

/-- In the shared dispatch the first task runs with the only open job of its own, and the second one
    without a job, under its lease. -/
theorem controller_coupled_shared :
    ∃ db j, (controller fun _ => .ok sharedSpec).run Db.empty sharedDispatch = some db ∧
      db.jobs.get "j1" = some j ∧ j.taskId = "t1" ∧ j.executionStatus.isNonterminal = true ∧
      (∃ t, db.tasks.get "t1" = some t ∧ t.status = .running) ∧
      (∀ k j', db.jobs.get k = some j' → j'.executionStatus.isNonterminal = true →
        j'.taskId = "t1" → k = "j1") ∧
      (db.tasks.get "t2").map (·.status) = some .running ∧ db.jobs.get "j2" = none ∧
      ∀ t, db.tasks.get "t2" = some t → t.status = .running → t.leaseExpiresAt ≠ none := by
  obtain ⟨db, rn⟩ := Option.isSome_iff_exists.mp
    (show ((controller fun _ => .ok sharedSpec).run Db.empty sharedDispatch).isSome = true by
      decide)
  have one : ((controller fun _ => .ok sharedSpec).run Db.empty sharedDispatch).map (fun db =>
      ((db.jobs.get "j1").map (fun j => (j.taskId, j.executionStatus)),
        (db.tasks.get "t2").map (·.status), (db.jobs.get "j2").isNone,
        db.jobs.any fun _ j => j.taskId == "t2")) =
      some (some ("t1", .created), some .running, true, false) := by decide
  simp only [rn, Option.map_some, Option.some.injEq, Prod.mk.injEq] at one
  obtain ⟨created, runs, noJob, noWork⟩ := one
  obtain ⟨j, hj, columns⟩ := Option.map_eq_some_iff.mp created
  obtain ⟨owner, status⟩ := Prod.mk.inj columns
  obtain ⟨working, single, attended⟩ := controller_coupled rn
  have live : j.executionStatus.isNonterminal = true := by
    rw [status]
    rfl
  refine ⟨db, j, rn, hj, owner, live, ?_, ?_, runs, Option.isNone_iff_eq_none.mp noJob, ?_⟩
  · rw [← owner]
    exact working "j1" j hj live
  · intro k j' hj' live' owner'
    exact single k "j1" j' j hj' hj live' live (owner'.trans owner.symm)
  · intro t ht running
    rcases attended "t2" t ht running with ⟨k, j, hj, owner, _⟩ | lease
    · rw [Dict.any_iff.mpr ⟨k, j, hj, beq_iff_eq.mpr owner⟩] at noWork
      cases noWork
    · exact lease

/-- Evidence and success are backed by verified results in every reachable database. -/
theorem controller_trust_chain {db : Db} {actions : List Action}
    (rn : (controller valid).run Db.empty actions = some db) :
    (∀ i x, db.artifacts.get i = some x → x.evidenceEligible = true →
        ∃ id t, x.taskId = some id ∧ db.tasks.get id = some t ∧ t.status = .succeeded) ∧
      ∀ id t, db.tasks.get id = some t → t.status = .succeeded →
        ∃ spec k job, valid t.specJson = .ok spec ∧
          db.jobs.get k = some job ∧ job.taskId = id ∧
          (∀ k' j', db.jobs.get k' = some j' → j'.taskId = id → k' ≠ k →
            j'.attemptNo < job.attemptNo) ∧
          job.executionStatus = .succeeded ∧
          (spec.success.requireZeroExitCode = true → job.exitCode = some 0) ∧
          ∀ name, RequiredName t.acceptancePolicyJson spec.outputs name →
            ∃ i x, db.artifacts.get i = some x ∧ x.taskId = some id ∧
              x.integrityStatus = .verified ∧ nameMatches name x.logicalName = true := by
  obtain ⟨_, tr⟩ := controller_invariants rn
  refine ⟨fun _ _ => tr.evidence, ?_⟩
  intro id t ht succeeded
  obtain ⟨spec, k, job, parsed, acc⟩ := tr.verdict ht succeeded
  refine ⟨spec, k, job, parsed, acc.stored, acc.owner, ?_, acc.succeeded, acc.exitCode,
    fun _ => acc.required⟩
  intro k' j' hj' owner ne
  have differs : j'.attemptNo ≠ job.attemptNo := by
    intro same
    exact ne (tr.attempts hj' acc.stored (owner.trans acc.owner.symm) same)
  exact lt_of_le_of_ne (acc.highest hj' owner) differs

/-- In the shared success a verified artifact backs the required name `run.out` of the first
    task. -/
theorem controller_trust_chain_shared :
    ∃ db, (controller fun _ => .ok sharedSpec).run Db.empty sharedSuccess = some db ∧
      ∃ t, db.tasks.get "t1" = some t ∧ t.status = .succeeded ∧
        ∃ i x, db.artifacts.get i = some x ∧ x.taskId = some "t1" ∧
          x.integrityStatus = .verified ∧ nameMatches "run.out" x.logicalName = true := by
  obtain ⟨db, rn⟩ := Option.isSome_iff_exists.mp
    (show ((controller fun _ => .ok sharedSpec).run Db.empty sharedSuccess).isSome = true by decide)
  have done : ((controller fun _ => .ok sharedSpec).run Db.empty sharedSuccess).map (fun db =>
      (db.tasks.get "t1").map (·.status)) = some (some .succeeded) := by decide
  rw [rn, Option.map_some, Option.some.injEq, Option.map_eq_some_iff] at done
  obtain ⟨t, ht, succeeded⟩ := done
  refine ⟨db, rn, t, ht, succeeded, ?_⟩
  obtain ⟨_, verdict⟩ := controller_trust_chain rn
  obtain ⟨spec, k, job, _, _, _, _, _, _, required⟩ := verdict "t1" t ht succeeded
  exact required "run.out" (Or.inr (Or.inr (by decide)))

end ResearchController
