import ResearchController.Lifecycle.Model

/-!
# Results that may be trusted

`Trusted` is the second invariant of the lifecycle. The verdict on a task is computed once, when the
task succeeds; what the verdict was about must not change afterwards. A succeeded task is never
moved again, its jobs have all ended (`Coupled`) and keep their outcome, no further attempt begins,
and artifacts are only added or marked.
-/

namespace ResearchController
open Lib

/-- A succeeded task stays accepted, and evidence belongs to succeeded tasks. -/
structure Trusted (valid : Json → Except PyErr ComputeTaskSpec) (r : Rows) : Prop where
  attempts : ∀ {k k' j j'}, r.jobs.get k = some j → r.jobs.get k' = some j' →
    j.taskId = j'.taskId → j.attemptNo = j'.attemptNo → k = k'
  evidence : ∀ {i x}, r.artifacts.get i = some x → x.evidenceEligible = true →
    ∃ id t, x.taskId = some id ∧ r.tasks.get id = some t ∧ t.status = .succeeded
  verdict : ∀ {id t}, r.tasks.get id = some t → t.status = .succeeded →
    ∃ spec k job, valid t.specJson = .ok spec ∧
      Accepted r.jobs r.artifacts id t.acceptancePolicyJson spec k job

/-! ## Artifacts -/

@[simp] lemma Artifact.marked_taskId (x : Artifact) (id : String) (outputs : List OutputSpec) :
    (x.marked id outputs).taskId = x.taskId := by
  unfold marked; split <;> rfl

@[simp] lemma Artifact.marked_integrityStatus (x : Artifact) (id : String)
    (outputs : List OutputSpec) : (x.marked id outputs).integrityStatus = x.integrityStatus := by
  unfold marked; split <;> rfl

@[simp] lemma Artifact.marked_logicalName (x : Artifact) (id : String) (outputs : List OutputSpec) :
    (x.marked id outputs).logicalName = x.logicalName := by
  unfold marked; split <;> rfl

/-- Marking makes evidence of artifacts of the marked task only. -/
lemma Artifact.marked_evidence {x : Artifact} {id : String} {outputs : List OutputSpec}
    (h : (x.marked id outputs).evidenceEligible = true) :
    x.evidenceEligible = true ∨ x.taskId = some id := by
  unfold marked at h
  split at h
  · rename_i both
    rw [Bool.and_eq_true, beq_iff_eq] at both
    exact Or.inr both.1
  · exact Or.inl h

section Accepted

variable {jobs : Dict String ComputeJob} {artifacts : Dict String Artifact} {id i : String}
  {policy : JsonObject} {spec : ComputeTaskSpec} {job : ComputeJob}

/-- A new artifact keeps a task accepted. -/
lemma Accepted.ingest (acc : Accepted jobs artifacts id policy spec i job) {k : String}
    {x : Artifact}
    (fresh : artifacts.get k = none) : Accepted jobs (artifacts.set k x) id policy spec i job := by
  refine ⟨acc.stored, acc.owner, acc.highest, acc.succeeded, acc.exitCode, ?_⟩
  intro name required
  obtain ⟨l, y, hy, owner, verified, named⟩ := acc.required required
  have ne : l ≠ k := by
    rintro rfl
    rw [fresh] at hy
    cases hy
  exact ⟨l, y, by rw [Dict.get_set_ne _ _ ne]; exact hy, owner, verified, named⟩

/-- Marking artifacts keeps a task accepted. -/
lemma Accepted.mark (acc : Accepted jobs artifacts id policy spec i job) (id' : String)
    (outputs : List OutputSpec) :
    Accepted jobs (artifacts.mapValues (·.marked id' outputs)) id policy spec i job := by
  refine ⟨acc.stored, acc.owner, acc.highest, acc.succeeded, acc.exitCode, ?_⟩
  intro name required
  obtain ⟨l, y, hy, owner, verified, named⟩ := acc.required required
  refine ⟨l, y.marked id' outputs, by rw [Dict.get_mapValues, hy]; rfl, ?_, ?_, ?_⟩
  · rw [Artifact.marked_taskId]
    exact owner
  · rw [Artifact.marked_integrityStatus]
    exact verified
  · rw [Artifact.marked_logicalName]
    exact named

/-- A replaced job row keeps a task accepted if the task's own jobs keep attempt and outcome and
    none is added. -/
lemma Accepted.setJob (acc : Accepted jobs artifacts id policy spec i job) {k : String}
    {j' : ComputeJob}
    (was : ∀ j, jobs.get k = some j → j.taskId = id → j'.taskId = id ∧ j'.attemptNo = j.attemptNo ∧
      j'.executionStatus = j.executionStatus ∧ j'.exitCode = j.exitCode)
    (own : j'.taskId = id → ∃ j, jobs.get k = some j ∧ j.taskId = id) :
    ∃ job', Accepted (jobs.set k j') artifacts id policy spec i job' := by
  have bound : ∀ {l x}, (jobs.set k j').get l = some x → x.taskId = id →
      x.attemptNo ≤ job.attemptNo := by
    intro l x hx eqT
    rw [Dict.get_set] at hx
    split at hx
    · cases hx
      obtain ⟨j, hj, eqJ⟩ := own eqT
      obtain ⟨_, eqA, _⟩ := was j hj eqJ
      rw [eqA]
      exact acc.highest hj eqJ
    · exact acc.highest hx eqT
  by_cases e : i = k
  · subst e
    obtain ⟨eqT, eqA, eqS, eqC⟩ := was job acc.stored acc.owner
    refine ⟨j', Dict.get_set_self _ _ _, eqT, ?_, eqS.trans acc.succeeded, ?_, acc.required⟩
    · intro l x hx owner
      rw [eqA]
      exact bound hx owner
    · intro zero
      exact eqC.trans (acc.exitCode zero)
  · refine ⟨job, ?_, acc.owner, bound, acc.succeeded, acc.exitCode, acc.required⟩
    rw [Dict.get_set_ne _ _ e]
    exact acc.stored

end Accepted

section Trusted

variable {valid : Json → Except PyErr ComputeTaskSpec} {r : Rows}

lemma Trusted.empty : Trusted valid {} := by
  refine ⟨?_, ?_, ?_⟩
  · intro k k' j j' hj
    cases hj
  · intro i x hx
    cases hx
  · intro id t ht
    cases ht

/-- A replaced task row keeps the trust if it neither leaves nor enters the succeeded state. -/
lemma Trusted.setTask (tr : Trusted valid r) {id : String} {t' : Task}
    (leaves : ∀ t, r.tasks.get id = some t → t.status = .succeeded → t'.status = .succeeded)
    (enters : t'.status = .succeeded → ∃ t, r.tasks.get id = some t ∧ t.status = .succeeded ∧
      t'.specJson = t.specJson ∧ t'.acceptancePolicyJson = t.acceptancePolicyJson) :
    Trusted valid { r with tasks := r.tasks.set id t' } := by
  refine ⟨tr.attempts, ?_, ?_⟩
  · intro i x hx eligible
    obtain ⟨k, t, owner, ht, succeeded⟩ := tr.evidence hx eligible
    by_cases e : k = id
    · subst e
      exact ⟨k, t', owner, Dict.get_set_self _ _ _, leaves t ht succeeded⟩
    · exact ⟨k, t, owner, by rw [Dict.get_set_ne _ _ e]; exact ht, succeeded⟩
  · intro k s hs succeeded
    rw [Dict.get_set] at hs
    split at hs
    · rename_i e
      cases hs
      obtain ⟨t, ht, was, eqS, eqP⟩ := enters succeeded
      rw [eqS, eqP, e]
      exact tr.verdict ht was
    · exact tr.verdict hs succeeded

/-- A task row that has not succeeded may be replaced by one that has not either. -/
lemma Trusted.setOpen (tr : Trusted valid r) {id : String} {t t' : Task}
    (ht : r.tasks.get id = some t) (before : t.status ≠ .succeeded)
    (after : t'.status ≠ .succeeded) :
    Trusted valid { r with tasks := r.tasks.set id t' } := by
  refine tr.setTask ?_ fun succeeded => (after succeeded).elim
  intro s hs succeeded
  rw [ht] at hs
  cases hs
  exact (before succeeded).elim

/-- A replaced job row keeps the trust if it clashes with no other attempt and, for a succeeded
    task, neither adds a job nor changes an outcome. -/
lemma Trusted.setJob (tr : Trusted valid r) {k : String} {j' : ComputeJob}
    (unique : ∀ {i x}, r.jobs.get i = some x → x.taskId = j'.taskId → x.attemptNo = j'.attemptNo →
      i = k)
    (was : ∀ j t, r.jobs.get k = some j → r.tasks.get j.taskId = some t → t.status = .succeeded →
      j'.taskId = j.taskId ∧ j'.attemptNo = j.attemptNo ∧
        j'.executionStatus = j.executionStatus ∧ j'.exitCode = j.exitCode)
    (own : ∀ t, r.tasks.get j'.taskId = some t → t.status = .succeeded →
      ∃ j, r.jobs.get k = some j ∧ j.taskId = j'.taskId) :
    Trusted valid { r with jobs := r.jobs.set k j' } := by
  refine ⟨?_, tr.evidence, ?_⟩
  · intro i i' x x' hx hx' eqT eqA
    rw [Dict.get_set] at hx hx'
    split at hx <;> split at hx'
    · rename_i e e'
      exact e.trans e'.symm
    · rename_i e _
      cases hx
      exact e.trans (unique hx' eqT.symm eqA.symm).symm
    · rename_i _ e'
      cases hx'
      exact (unique hx eqT eqA).trans e'.symm
    · exact tr.attempts hx hx' eqT eqA
  · intro id t ht succeeded
    obtain ⟨spec, i, job, parsed, acc⟩ := tr.verdict ht succeeded
    have was' : ∀ j, r.jobs.get k = some j → j.taskId = id → j'.taskId = id ∧
        j'.attemptNo = j.attemptNo ∧ j'.executionStatus = j.executionStatus ∧
          j'.exitCode = j.exitCode := by
      intro j hj e
      subst e
      exact was j t hj ht succeeded
    have own' : j'.taskId = id → ∃ j, r.jobs.get k = some j ∧ j.taskId = id := by
      intro e
      subst e
      exact own t ht succeeded
    obtain ⟨job', acc'⟩ := acc.setJob was' own'
    exact ⟨spec, i, job', parsed, acc'⟩

/-- The job of a task that has not succeeded may be replaced freely within its attempt. -/
lemma Trusted.setWork (tr : Trusted valid r) {k : String} {j j' : ComputeJob} {t : Task}
    (hj : r.jobs.get k = some j) (eqT : j'.taskId = j.taskId) (eqA : j'.attemptNo = j.attemptNo)
    (ht : r.tasks.get j.taskId = some t) (unfinished : t.status ≠ .succeeded) :
    Trusted valid { r with jobs := r.jobs.set k j' } := by
  apply tr.setJob
  · intro i x hx owner attempt
    exact tr.attempts hx hj (owner.trans eqT) (attempt.trans eqA)
  · intro x s hx hs succeeded
    rw [hj] at hx
    cases hx
    rw [ht] at hs
    cases hs
    exact (unfinished succeeded).elim
  · intro s hs succeeded
    rw [eqT, ht] at hs
    cases hs
    exact (unfinished succeeded).elim

/-- A job that goes on keeps the trust. -/
lemma Trusted.advance (tr : Trusted valid r) (cp : Coupled r.tasks r.jobs) {k : String}
    {j j' : ComputeJob} (hj : r.jobs.get k = some j) (adv : j.Advances j') :
    Trusted valid { r with jobs := r.jobs.set k j' } := by
  rcases adv.outcome with ⟨eqS, eqC, _⟩ | ⟨nonterminal, _⟩
  · apply tr.setJob
    · intro i x hx owner attempt
      exact tr.attempts hx hj (owner.trans adv.taskId) (attempt.trans adv.attemptNo)
    · intro x s hx _ _
      rw [hj] at hx
      cases hx
      exact ⟨adv.taskId, adv.attemptNo, eqS, eqC⟩
    · intro _ _ _
      exact ⟨j, hj, adv.taskId.symm⟩
  · -- the owner of a job that has not ended runs
    obtain ⟨t, ht, running⟩ := cp.working hj nonterminal
    exact tr.setWork hj adv.taskId adv.attemptNo ht (by rw [running]; decide)

/-- A task that succeeds on a verdict keeps the trust, together with the marked evidence. -/
lemma Trusted.pass (tr : Trusted valid r) {id k : String} {t' : Task} {spec : ComputeTaskSpec}
    {job : ComputeJob} (succeeded : t'.status = .succeeded) (parsed : valid t'.specJson = .ok spec)
    (acc : Accepted r.jobs r.artifacts id t'.acceptancePolicyJson spec k job) :
    Trusted valid { r with
      tasks := r.tasks.set id t',
      artifacts := r.artifacts.mapValues (·.marked id spec.outputs) } := by
  refine ⟨tr.attempts, ?_, ?_⟩
  · intro i x hx eligible
    rw [Dict.get_mapValues, Option.map_eq_some_iff] at hx
    obtain ⟨y, hy, rfl⟩ := hx
    rw [Artifact.marked_taskId]
    rcases Artifact.marked_evidence eligible with before | owner
    · obtain ⟨l, s, owner, hs, was⟩ := tr.evidence hy before
      by_cases e : l = id
      · subst e
        exact ⟨l, t', owner, Dict.get_set_self _ _ _, succeeded⟩
      · exact ⟨l, s, owner, by rw [Dict.get_set_ne _ _ e]; exact hs, was⟩
    · exact ⟨id, t', owner, Dict.get_set_self _ _ _, succeeded⟩
  · intro l s hs was
    rw [Dict.get_set] at hs
    split at hs
    · rename_i e
      cases hs
      rw [e]
      exact ⟨spec, k, job, parsed, acc.mark id spec.outputs⟩
    · obtain ⟨spec', i, job', parsed', acc'⟩ := tr.verdict hs was
      exact ⟨spec', i, job', parsed', acc'.mark id spec.outputs⟩

end Trusted

lemma Task.expired_open (t : Task) (now : Datetime) : (t.expired now).status ≠ .succeeded := by
  unfold expired
  split
  · rw [moved_status]
    decide
  · rw [moved_status]
    decide

/-- The trust is kept by every move of coupled tables. -/
theorem Move.trusted {valid : Json → Except PyErr ComputeTaskSpec} {r r' : Rows}
    (mv : Move valid r r') (cp : Coupled r.tasks r.jobs) (tr : Trusted valid r) :
    Trusted valid r' := by
  cases mv with
  | @created a fresh _ =>
    have tr' : Trusted valid { r with tasks := r.tasks.set a.id a.row } := by
      apply tr.setTask
      · intro t ht
        rw [fresh] at ht
        cases ht
      · intro succeeded
        cases succeeded
    exact ⟨tr'.attempts, tr'.evidence, tr'.verdict⟩
  | readied stored pending _ =>
    exact tr.setOpen stored (by rw [pending]; decide) (by rw [Task.moved_status]; decide)
  | @unleased id t stored _ =>
    refine tr.setTask ?_ fun succeeded => ⟨t, stored, succeeded, rfl, rfl⟩
    intro s hs succeeded
    rw [stored] at hs
    cases hs
    exact succeeded
  | expired stored running _ =>
    exact tr.setOpen stored (by rw [running]; decide) (Task.expired_open _ _)
  | joined stored ready =>
    exact tr.setOpen stored (by rw [ready]; decide) (by rw [Task.moved_status]; decide)
  | @dispatched a owner t expiresAt now stored ready fresh attempt =>
    have tr' : Trusted valid { r with
        tasks := r.tasks.set a.taskId ((t.leased owner expiresAt).moved .running now) } :=
      tr.setOpen stored (by rw [ready]; decide) (by rw [Task.moved_status]; decide)
    apply tr'.setJob
    · intro i x hx owner attempt'
      exact (attempt hx ⟨owner, attempt'⟩).elim
    · intro x s hx
      rw [fresh] at hx
      cases hx
    · intro s hs succeeded
      -- the dispatched task runs
      have hs' : (r.tasks.set a.taskId _).get a.taskId = some s := hs
      rw [Dict.get_set_self] at hs'
      cases hs'
      rw [Task.moved_status] at succeeded
      cases succeeded
  | advanced stored advances => exact tr.advance cp stored advances
  | @finalised k j t terminal now stored collecting _ owner running =>
    have same := j.sameWork_stepped terminal now
    have tr' : Trusted valid { r with jobs := r.jobs.set k (j.stepped terminal now) } :=
      tr.setWork stored same.taskId same.attemptNo owner (by rw [running]; decide)
    exact tr'.setOpen owner (by rw [running]; decide) (by rw [Task.moved_status]; decide)
  | orphaned stored collecting _ idle =>
    obtain ⟨t, ht, running⟩ := cp.working stored (by rw [collecting]; rfl)
    exact (idle t ht running).elim
  | ingested fresh plain =>
    refine ⟨tr.attempts, ?_, ?_⟩
    · intro i x hx eligible
      rw [Dict.get_set] at hx
      split at hx
      · cases hx
        rw [plain] at eligible
        cases eligible
      · exact tr.evidence hx eligible
    · intro id t ht succeeded
      obtain ⟨spec, k, job, parsed, acc⟩ := tr.verdict ht succeeded
      exact ⟨spec, k, job, parsed, acc.ingest fresh⟩
  | @passed id k t spec job result now stored verifying parsed acc =>
    have parsed' : valid (t.moved .succeeded now).specJson = .ok spec := by
      rw [Task.moved_specJson]
      exact parsed
    have acc' : Accepted r.jobs r.artifacts id
        (t.moved .succeeded now).acceptancePolicyJson spec k job := by
      rw [Task.moved_acceptancePolicyJson]
      exact acc
    exact tr.pass (Task.moved_status _ _ _) parsed' acc'
  | refused stored verifying =>
    exact tr.setOpen stored (by rw [verifying]; decide) (by rw [Task.moved_status]; decide)

end ResearchController
