import ResearchController.Controller

/-!
# The lifecycle of tasks, jobs and artifacts

What the controller is for, as a relation between the tables before and after one row-level move: a
task waits, is dispatched under a lease, hands over to a compute job, and is verified once the job
has ended. `Move` says which moves exist and under which condition on the tables. It knows no
transactions, events or queries.

Two invariants of all sequences of moves are proved here:

* `Coupled`: a task and its jobs agree about who is working. The three clauses about jobs and leases
  need each other, and the fourth one (the outcome that a collecting job holds as a string is
  terminal) keeps a job from being finalised into a nonterminal state.
* `Trusted`: a succeeded task stays accepted, and only succeeded tasks own evidence.

Both are stated about the tables they read, so that a move of another table keeps them by itself.
-/

namespace ResearchController
open Lib

/-- Some job of the task is not terminal. -/
def HasWork (jobs : Dict String ComputeJob) (id : String) : Prop :=
  ∃ k j, jobs.get k = some j ∧ j.taskId = id ∧ j.executionStatus.isNonterminal = true

/-- The row of a job that goes on: its owner and attempt stay, and its outcome stays too unless work
    is under way before and after. A job that begins to collect holds a terminal outcome. -/
structure ComputeJob.Advances (j j' : ComputeJob) : Prop where
  taskId : j'.taskId = j.taskId
  attemptNo : j'.attemptNo = j.attemptNo
  outcome :
    (j'.executionStatus = j.executionStatus ∧ j'.exitCode = j.exitCode ∧
        j'.providerMetadataJson = j.providerMetadataJson) ∨
      (j.executionStatus.isNonterminal = true ∧ j'.executionStatus.isNonterminal = true ∧
        (j'.executionStatus = .collecting →
          ∃ s, observedTerminal j'.providerMetadataJson = .ok s ∧ s.isTerminal = true))

/-- What a task needs in order to succeed: a job of the highest attempt that succeeded, and a
    verified artifact for every required name. -/
structure Accepted (jobs : Dict String ComputeJob) (artifacts : Dict String Artifact) (id : String)
    (policy : JsonObject) (spec : ComputeTaskSpec) (k : String) (job : ComputeJob) : Prop where
  stored : jobs.get k = some job
  owner : job.taskId = id
  highest : ∀ {k' j'}, jobs.get k' = some j' → j'.taskId = id → j'.attemptNo ≤ job.attemptNo
  succeeded : job.executionStatus = .succeeded
  exitCode : spec.success.requireZeroExitCode = true → job.exitCode = some 0
  required : ∀ {name}, RequiredName policy spec.outputs name →
    ∃ i x, artifacts.get i = some x ∧ x.taskId = some id ∧ x.integrityStatus = .verified ∧
      nameMatches name x.logicalName = true

/-- One row-level move of the lifecycle. -/
inductive Move (valid : Json → Except PyErr ComputeTaskSpec) : Rows → Rows → Prop where
  | created {r : Rows} {a : TaskArgs} (fresh : r.tasks.get a.id = none)
      (dependencies : ∀ d ∈ a.dependencyIds, ∃ t, (r.tasks.set a.id a.row).get d = some t) :
      Move valid r { r with
        tasks := r.tasks.set a.id a.row,
        dependencies := r.dependencies ++ a.dependencyIds.map fun d =>
          { taskId := a.id, dependsOnTaskId := d } }
  | readied {r : Rows} {id : String} {t : Task} {now : Datetime} (stored : r.tasks.get id = some t)
      (pending : t.status = .pending)
      (dependencies : ∀ d ∈ r.dependencies, d.taskId = id → ∀ t',
        r.tasks.get d.dependsOnTaskId = some t' → t'.status = .succeeded) :
      Move valid r { r with tasks := r.tasks.set id (t.moved .ready now) }
  | unleased {r : Rows} {id : String} {t : Task} (stored : r.tasks.get id = some t)
      (kept : t.status = .running → HasWork r.jobs id) :
      Move valid r { r with tasks := r.tasks.set id t.unleased }
  | expired {r : Rows} {id : String} {t : Task} {now : Datetime} (stored : r.tasks.get id = some t)
      (running : t.status = .running) (idle : ¬ HasWork r.jobs id) :
      Move valid r { r with tasks := r.tasks.set id (t.expired now) }
  | joined {r : Rows} {id owner : String} {t : Task} {expiresAt now : Datetime}
      (stored : r.tasks.get id = some t) (ready : t.status = .ready) :
      Move valid r { r with
        tasks := r.tasks.set id ((t.leased owner expiresAt).moved .running now) }
  | dispatched {r : Rows} {a : JobArgs} {owner : String} {t : Task} {expiresAt now : Datetime}
      (stored : r.tasks.get a.taskId = some t) (ready : t.status = .ready)
      (fresh : r.jobs.get a.id = none)
      (attempt : ∀ {k j}, r.jobs.get k = some j →
        ¬ (j.taskId = a.taskId ∧ j.attemptNo = t.attemptCount + 1)) :
      Move valid r { r with
        jobs := r.jobs.set a.id (a.row t),
        tasks := r.tasks.set a.taskId ((t.leased owner expiresAt).moved .running now) }
  | advanced {r : Rows} {k : String} {j j' : ComputeJob} (stored : r.jobs.get k = some j)
      (advances : j.Advances j') :
      Move valid r { r with jobs := r.jobs.set k j' }
  | finalised {r : Rows} {k : String} {j : ComputeJob} {t : Task}
      {terminal : ComputeExecutionStatus} {now : Datetime} (stored : r.jobs.get k = some j)
      (collecting : j.executionStatus = .collecting)
      (outcome : observedTerminal j.providerMetadataJson = .ok terminal)
      (owner : r.tasks.get j.taskId = some t) (running : t.status = .running) :
      Move valid r { r with
        jobs := r.jobs.set k (j.stepped terminal now),
        tasks := r.tasks.set j.taskId (t.moved .verifying now) }
  | orphaned {r : Rows} {k : String} {j : ComputeJob} {terminal : ComputeExecutionStatus}
      {now : Datetime} (stored : r.jobs.get k = some j)
      (collecting : j.executionStatus = .collecting)
      (outcome : observedTerminal j.providerMetadataJson = .ok terminal)
      (idle : ∀ t, r.tasks.get j.taskId = some t → t.status ≠ .running) :
      Move valid r { r with jobs := r.jobs.set k (j.stepped terminal now) }
  | ingested {r : Rows} {i : String} {x : Artifact} (fresh : r.artifacts.get i = none)
      (plain : x.evidenceEligible = false) :
      Move valid r { r with artifacts := r.artifacts.set i x }
  | passed {r : Rows} {id k : String} {t : Task} {spec : ComputeTaskSpec} {job : ComputeJob}
      {result : ValidationResult} {now : Datetime} (stored : r.tasks.get id = some t)
      (verifying : t.status = .verifying) (parsed : valid t.specJson = .ok spec)
      (accepted : Accepted r.jobs r.artifacts id t.acceptancePolicyJson spec k job) :
      Move valid r { r with
        tasks := r.tasks.set id ((t.summarised result).moved .succeeded now),
        artifacts := r.artifacts.mapValues (·.marked id spec.outputs) }
  | refused {r : Rows} {id : String} {t : Task} {result : ValidationResult} {now : Datetime}
      (stored : r.tasks.get id = some t) (verifying : t.status = .verifying) :
      Move valid r { r with tasks := r.tasks.set id ((t.summarised result).moved .failed now) }

/-! ## Tasks and jobs agree -/

/-- A task and its jobs agree about who is working. -/
structure Coupled (tasks : Dict String Task) (jobs : Dict String ComputeJob) : Prop where
  working : ∀ {k j}, jobs.get k = some j → j.executionStatus.isNonterminal = true →
    ∃ t, tasks.get j.taskId = some t ∧ t.status = .running
  single : ∀ {k k' j j'}, jobs.get k = some j → jobs.get k' = some j' →
    j.executionStatus.isNonterminal = true → j'.executionStatus.isNonterminal = true →
    j.taskId = j'.taskId → k = k'
  attended : ∀ {id t}, tasks.get id = some t → t.status = .running →
    HasWork jobs id ∨ t.leaseExpiresAt ≠ none
  outcome : ∀ {k j}, jobs.get k = some j → j.executionStatus = .collecting →
    ∃ s, observedTerminal j.providerMetadataJson = .ok s ∧ s.isTerminal = true

section Coupled

variable {tasks : Dict String Task} {jobs : Dict String ComputeJob}

lemma Coupled.empty : Coupled Dict.empty Dict.empty := by
  refine ⟨?_, ?_, ?_, ?_⟩
  · intro k j hj
    cases hj
  · intro k k' j j' hj
    cases hj
  · intro id t ht
    cases ht
  · intro k j hj
    cases hj

/-- A task that does not run has no work. -/
lemma Coupled.no_work (cp : Coupled tasks jobs) {id : String} {t : Task}
    (ht : tasks.get id = some t) (idle : t.status ≠ .running) : ¬ HasWork jobs id := by
  rintro ⟨k, j, hj, rfl, nonterminal⟩
  obtain ⟨t', ht', running⟩ := cp.working hj nonterminal
  rw [ht] at ht'
  cases ht'
  exact idle running

/-- A task that does not exist has no work. -/
lemma Coupled.no_work_absent (cp : Coupled tasks jobs) {id : String}
    (absent : tasks.get id = none) :
    ¬ HasWork jobs id := by
  rintro ⟨k, j, hj, rfl, nonterminal⟩
  obtain ⟨t, ht, _⟩ := cp.working hj nonterminal
  rw [absent] at ht
  cases ht

/-- A task row without work may be replaced by any row that does not run or holds a lease. -/
lemma Coupled.setIdle (cp : Coupled tasks jobs) {id : String} {t' : Task}
    (idle : ¬ HasWork jobs id) (lease : t'.status = .running → t'.leaseExpiresAt ≠ none) :
    Coupled (tasks.set id t') jobs := by
  refine ⟨?_, cp.single, ?_, cp.outcome⟩
  · intro k j hj nonterminal
    have ne : j.taskId ≠ id := fun e => idle ⟨k, j, hj, e, nonterminal⟩
    rw [Dict.get_set_ne _ _ ne]
    exact cp.working hj nonterminal
  · intro i t ht running
    rw [Dict.get_set] at ht
    split at ht
    · cases ht
      exact Or.inr (lease running)
    · exact cp.attended ht running

/-- A replaced row of a task that keeps running keeps the agreement if there is work. -/
lemma Coupled.setWorking (cp : Coupled tasks jobs) {id : String} {t t' : Task}
    (ht : tasks.get id = some t) (same : t'.status = t.status)
    (work : t.status = .running → HasWork jobs id) : Coupled (tasks.set id t') jobs := by
  by_cases running : t.status = .running
  · refine ⟨?_, cp.single, ?_, cp.outcome⟩
    · intro k j hj nonterminal
      by_cases e : j.taskId = id
      · rw [e, Dict.get_set_self]
        exact ⟨t', rfl, same.trans running⟩
      · rw [Dict.get_set_ne _ _ e]
        exact cp.working hj nonterminal
    · intro i s hs running'
      rw [Dict.get_set] at hs
      split at hs
      · rename_i e
        subst e
        exact Or.inl (work running)
      · exact cp.attended hs running'
  · refine cp.setIdle (cp.no_work ht running) fun running' => ?_
    exact (running (same.symm.trans running')).elim

/-- A job that goes on keeps the agreement. -/
lemma Coupled.advance (cp : Coupled tasks jobs) {k : String} {j j' : ComputeJob}
    (hj : jobs.get k = some j) (adv : j.Advances j') : Coupled tasks (jobs.set k j') := by
  have same : j'.executionStatus.isNonterminal = j.executionStatus.isNonterminal := by
    rcases adv.outcome with ⟨e, _⟩ | ⟨before, after, _⟩
    · rw [e]
    · rw [before, after]
  -- every job of the new table has a job of the old one under its key, equally far and of the same
  -- task
  have back : ∀ {i x}, (jobs.set k j').get i = some x →
      ∃ y, jobs.get i = some y ∧ x.taskId = y.taskId ∧
        x.executionStatus.isNonterminal = y.executionStatus.isNonterminal := by
    intro i x hx
    rw [Dict.get_set] at hx
    split at hx
    · rename_i e
      cases hx
      exact ⟨j, e ▸ hj, adv.taskId, same⟩
    · exact ⟨x, hx, rfl, rfl⟩
  refine ⟨?_, ?_, ?_, ?_⟩
  · intro i x hx nonterminal
    obtain ⟨y, hy, eqT, eqN⟩ := back hx
    rw [eqT]
    exact cp.working hy (eqN ▸ nonterminal)
  · intro i i' x x' hx hx' nonterminal nonterminal' eqT
    obtain ⟨y, hy, eqY, eqN⟩ := back hx
    obtain ⟨y', hy', eqY', eqN'⟩ := back hx'
    exact cp.single hy hy' (eqN ▸ nonterminal) (eqN' ▸ nonterminal') (eqY ▸ eqY' ▸ eqT)
  · intro id t ht running
    rcases cp.attended ht running with ⟨i, x, hx, eqT, nonterminal⟩ | lease
    · left
      by_cases e : i = k
      · subst e
        rw [hj] at hx
        cases hx
        exact ⟨i, j', Dict.get_set_self _ _ _, adv.taskId.trans eqT, same.trans nonterminal⟩
      · exact ⟨i, x, by rw [Dict.get_set_ne _ _ e]; exact hx, eqT, nonterminal⟩
    · exact Or.inr lease
  · intro i x hx collecting
    rw [Dict.get_set] at hx
    split at hx
    · cases hx
      rcases adv.outcome with ⟨e, _, eqM⟩ | ⟨_, _, holds⟩
      · rw [eqM]
        exact cp.outcome hj (e ▸ collecting)
      · exact holds collecting
    · exact cp.outcome hx collecting

/-- A new job of a task that is set running keeps the agreement if the task had no work. -/
lemma Coupled.dispatch (cp : Coupled tasks jobs) {k : String} {j : ComputeJob} {t' : Task}
    (fresh : jobs.get k = none) (created : j.executionStatus = .created)
    (idle : ¬ HasWork jobs j.taskId) (running : t'.status = .running) :
    Coupled (tasks.set j.taskId t') (jobs.set k j) := by
  refine ⟨?_, ?_, ?_, ?_⟩
  · intro i x hx nonterminal
    rw [Dict.get_set] at hx
    split at hx
    · cases hx
      exact ⟨t', Dict.get_set_self _ _ _, running⟩
    · have ne : x.taskId ≠ j.taskId := fun e => idle ⟨i, x, hx, e, nonterminal⟩
      rw [Dict.get_set_ne _ _ ne]
      exact cp.working hx nonterminal
  · intro i i' x x' hx hx' nonterminal nonterminal' eqT
    rw [Dict.get_set] at hx hx'
    split at hx <;> split at hx'
    · rename_i e e'
      exact e.trans e'.symm
    · cases hx
      exact (idle ⟨i', x', hx', eqT.symm, nonterminal'⟩).elim
    · cases hx'
      exact (idle ⟨i, x, hx, eqT, nonterminal⟩).elim
    · exact cp.single hx hx' nonterminal nonterminal' eqT
  · intro id t ht running'
    rw [Dict.get_set] at ht
    split at ht
    · rename_i e
      subst e
      exact Or.inl ⟨k, j, Dict.get_set_self _ _ _, rfl, by rw [created]; rfl⟩
    · rcases cp.attended ht running' with ⟨i, x, hx, eqT, nonterminal⟩ | lease
      · have ne : i ≠ k := by
          rintro rfl
          rw [fresh] at hx
          cases hx
        exact Or.inl ⟨i, x, by rw [Dict.get_set_ne _ _ ne]; exact hx, eqT, nonterminal⟩
      · exact Or.inr lease
  · intro i x hx collecting
    rw [Dict.get_set] at hx
    split at hx
    · cases hx
      rw [created] at collecting
      cases collecting
    · exact cp.outcome hx collecting

/-- A job that ends together with the running state of its task keeps the agreement. -/
lemma Coupled.finish (cp : Coupled tasks jobs) {k : String} {j j' : ComputeJob} {t' : Task}
    (hj : jobs.get k = some j) (before : j.executionStatus.isNonterminal = true)
    (after : j'.executionStatus.isNonterminal = false) (idle : t'.status ≠ .running) :
    Coupled (tasks.set j.taskId t') (jobs.set k j') := by
  -- the job that ends was the only work of its task
  have others : ∀ {i x}, (jobs.set k j').get i = some x → x.executionStatus.isNonterminal = true →
      jobs.get i = some x ∧ x.taskId ≠ j.taskId := by
    intro i x hx nonterminal
    rw [Dict.get_set] at hx
    split at hx
    · cases hx
      rw [after] at nonterminal
      cases nonterminal
    · rename_i ne
      exact ⟨hx, fun e => ne (cp.single hx hj nonterminal before e)⟩
  refine ⟨?_, ?_, ?_, ?_⟩
  · intro i x hx nonterminal
    obtain ⟨hx, ne⟩ := others hx nonterminal
    rw [Dict.get_set_ne _ _ ne]
    exact cp.working hx nonterminal
  · intro i i' x x' hx hx' nonterminal nonterminal' e
    exact cp.single (others hx nonterminal).1 (others hx' nonterminal').1 nonterminal nonterminal' e
  · intro id t ht running
    rw [Dict.get_set] at ht
    split at ht
    · cases ht
      exact (idle running).elim
    · rename_i ne
      rcases cp.attended ht running with ⟨i, x, hx, e, nonterminal⟩ | lease
      · have ne' : i ≠ k := by
          rintro rfl
          rw [hj] at hx
          cases hx
          exact ne e.symm
        exact Or.inl ⟨i, x, by rw [Dict.get_set_ne _ _ ne']; exact hx, e, nonterminal⟩
      · exact Or.inr lease
  · intro i x hx collecting
    have nonterminal : x.executionStatus.isNonterminal = true := by rw [collecting]; rfl
    exact cp.outcome (others hx nonterminal).1 collecting

end Coupled

lemma Task.expired_status (t : Task) (now : Datetime) : (t.expired now).status ≠ .running := by
  unfold expired
  split
  · rw [moved_status]
    decide
  · rw [moved_status]
    decide

/-- A terminal outcome is another state than collecting, and not a nonterminal one. -/
lemma ComputeJob.stepped_terminal {j : ComputeJob} {s : ComputeExecutionStatus} {now : Datetime}
    (terminal : s.isTerminal = true) : (j.stepped s now).executionStatus.isNonterminal = false := by
  rw [stepped_executionStatus, ComputeExecutionStatus.isNonterminal_eq, terminal]
  rfl

/-- The agreement of tasks and jobs is kept by every move. -/
theorem Move.coupled {valid : Json → Except PyErr ComputeTaskSpec} {r r' : Rows}
    (mv : Move valid r r') (cp : Coupled r.tasks r.jobs) : Coupled r'.tasks r'.jobs := by
  cases mv with
  | created fresh _ =>
    apply cp.setIdle (cp.no_work_absent fresh)
    intro running
    cases running
  | readied stored pending _ =>
    apply cp.setIdle (cp.no_work stored (by rw [pending]; decide))
    rw [Task.moved_status]
    intro running
    cases running
  | unleased stored kept => exact cp.setWorking stored rfl kept
  | expired stored running idle =>
    exact cp.setIdle idle fun running' => (Task.expired_status _ _ running').elim
  | joined stored ready =>
    refine cp.setIdle (cp.no_work stored (by rw [ready]; decide)) fun _ => ?_
    rw [Task.moved_lease (by decide)]
    exact Option.some_ne_none _
  | dispatched stored ready fresh attempt =>
    exact cp.dispatch (j := JobArgs.row _ _) fresh rfl
      (cp.no_work stored (by rw [ready]; decide)) (Task.moved_status _ _ _)
  | advanced stored advances => exact cp.advance stored advances
  | finalised stored collecting outcome owner running =>
    obtain ⟨s, holds, terminal⟩ := cp.outcome stored collecting
    rw [outcome] at holds
    cases holds
    apply cp.finish stored (by rw [collecting]; rfl) (ComputeJob.stepped_terminal terminal)
    rw [Task.moved_status]
    decide
  | orphaned stored collecting outcome idle =>
    -- the owner of a collecting job runs, so this move never happens
    obtain ⟨t, ht, running⟩ := cp.working stored (by rw [collecting]; rfl)
    exact (idle t ht running).elim
  | ingested _ _ => exact cp
  | passed stored verifying _ _ =>
    apply cp.setIdle (cp.no_work stored (by rw [verifying]; decide))
    rw [Task.moved_status]
    intro running
    cases running
  | refused stored verifying =>
    apply cp.setIdle (cp.no_work stored (by rw [verifying]; decide))
    rw [Task.moved_status]
    intro running
    cases running

end ResearchController
