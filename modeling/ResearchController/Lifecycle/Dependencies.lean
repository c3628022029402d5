import ResearchController.Lib.Acyclic
import ResearchController.Lifecycle.Identity
import ResearchController.Lifecycle.Safety

/-!
# Dependencies

The edges of the dependency graph are written when their task is created and never change. Two
results rest on it.

* `dependencies_succeeded`: a task is checked once, when it leaves `PENDING`, and from then on all
  the tasks it depends on are `SUCCEEDED`, because no transaction of the controller moves a
  succeeded task.
* `dependencies_acyclic_iff`: a new task has edges to older tasks of its project only, so the graph
  stays acyclic, except that `create_task` flushes the new row before it looks its dependencies up:
  a task that is listed among its own dependencies finds itself.
-/

namespace ResearchController
open Lib

variable {valid : Json → Except PyErr ComputeTaskSpec}

/-! ## The order of the work -/

/-- A task that has left `PENDING` on the way the controller takes. -/
def TaskStatus.started : TaskStatus → Bool
  | .ready | .running | .verifying | .succeeded | .failed => true
  | _ => false

/-- Edges join tasks that are there, and a started task depends on succeeded tasks only. -/
structure Ordered (r : Rows) : Prop where
  source : ∀ {d}, d ∈ r.dependencies → ∃ t, r.tasks.get d.taskId = some t
  target : ∀ {d}, d ∈ r.dependencies → ∃ t, r.tasks.get d.dependsOnTaskId = some t
  succeeded : ∀ {d t t'}, d ∈ r.dependencies → r.tasks.get d.taskId = some t →
    t.status.started = true → r.tasks.get d.dependsOnTaskId = some t' → t'.status = .succeeded

lemma Ordered.empty : Ordered {} := by
  refine ⟨?_, ?_, ?_⟩
  · intro d mem
    cases mem
  · intro d mem
    cases mem
  · intro d t t' mem
    cases mem

section Ordered

variable {r : Rows}

/-- A task that is moved on keeps the order, if it was not succeeded before and has started with all
    its dependencies succeeded. -/
lemma Ordered.setTask (od : Ordered r) {id : String} {t t' : Task}
    (stored : r.tasks.get id = some t)
    (absorbing : t.status = .succeeded → t'.status = .succeeded)
    (starts : t'.status.started = true → t.status.started = true ∨
      ∀ d ∈ r.dependencies, d.taskId = id → ∀ s,
        r.tasks.get d.dependsOnTaskId = some s → s.status = .succeeded)
    {jobs : Dict String ComputeJob} {artifacts : Dict String Artifact} :
    Ordered { r with tasks := r.tasks.set id t', jobs := jobs, artifacts := artifacts } := by
  have there : ∀ {k s}, r.tasks.get k = some s → ∃ s', (r.tasks.set id t').get k = some s' := by
    intro k s hs
    rw [Dict.get_set]
    split
    · exact ⟨t', rfl⟩
    · exact ⟨s, hs⟩
  refine ⟨?_, ?_, ?_⟩
  · intro d mem
    obtain ⟨s, hs⟩ := od.source mem
    exact there hs
  · intro d mem
    obtain ⟨s, hs⟩ := od.target mem
    exact there hs
  · intro d s s' mem hs started hs'
    -- the task that is depended on was succeeded before
    have before : ∀ u, r.tasks.get d.dependsOnTaskId = some u → u.status = .succeeded := by
      intro u hu
      rw [Dict.get_set] at hs
      split at hs
      · rename_i own
        cases hs
        rcases starts started with already | checked
        · exact od.succeeded mem (own ▸ stored) already hu
        · exact checked d mem own u hu
      · exact od.succeeded mem hs started hu
    rw [Dict.get_set] at hs'
    split at hs'
    · rename_i own
      cases hs'
      exact absorbing (before t (own ▸ stored))
    · exact before s' hs'

/-- A task that has started and has not succeeded may take any further step. -/
lemma Ordered.step (od : Ordered r) {id : String} {t t' : Task}
    (stored : r.tasks.get id = some t) (started : t.status.started = true)
    (unfinished : t.status ≠ .succeeded)
    {jobs : Dict String ComputeJob} {artifacts : Dict String Artifact} :
    Ordered { r with tasks := r.tasks.set id t', jobs := jobs, artifacts := artifacts } :=
  od.setTask stored (fun done => (unfinished done).elim) (fun _ => Or.inl started)

/-- The order of the work is kept by every move. -/
theorem Move.ordered {r' : Rows} (mv : Move valid r r') (od : Ordered r) : Ordered r' := by
  cases mv with
  | @created a fresh dependencies =>
    have old : ∀ {k s}, r.tasks.get k = some s → k ≠ a.id := by
      intro k s hs e
      rw [e, fresh] at hs
      cases hs
    refine ⟨?_, ?_, ?_⟩
    · intro d mem
      rcases List.mem_append.mp mem with before | new
      · obtain ⟨s, hs⟩ := od.source before
        exact ⟨s, by rw [Dict.get_set_ne _ _ (old hs)]; exact hs⟩
      · obtain ⟨k, _, rfl⟩ := List.mem_map.mp new
        exact ⟨a.row, Dict.get_set_self _ _ _⟩
    · intro d mem
      rcases List.mem_append.mp mem with before | new
      · obtain ⟨s, hs⟩ := od.target before
        exact ⟨s, by rw [Dict.get_set_ne _ _ (old hs)]; exact hs⟩
      · obtain ⟨k, listed, rfl⟩ := List.mem_map.mp new
        exact dependencies k listed
    · intro d t t' mem ht started ht'
      rcases List.mem_append.mp mem with before | new
      · obtain ⟨s, hs⟩ := od.source before
        obtain ⟨s', hs'⟩ := od.target before
        rw [Dict.get_set_ne _ _ (old hs)] at ht
        rw [Dict.get_set_ne _ _ (old hs')] at ht'
        exact od.succeeded before ht started ht'
      · -- the new task is pending
        obtain ⟨k, _, rfl⟩ := List.mem_map.mp new
        rw [Dict.get_set_self] at ht
        cases ht
        cases started
  | readied stored pending dependencies =>
    refine od.setTask stored ?_ (fun _ => Or.inr dependencies)
    rw [pending]
    intro done
    cases done
  | unleased stored kept =>
    refine od.setTask stored ?_ ?_
    · exact fun done => done
    · exact fun started => Or.inl started
  | expired stored running idle =>
    exact od.step stored (by rw [running]; rfl) (by rw [running]; decide)
  | joined stored ready => exact od.step stored (by rw [ready]; rfl) (by rw [ready]; decide)
  | dispatched stored ready fresh attempt =>
    exact od.step stored (by rw [ready]; rfl) (by rw [ready]; decide)
  | advanced stored advances => exact ⟨od.source, od.target, od.succeeded⟩
  | finalised stored collecting outcome owner running =>
    exact od.step owner (by rw [running]; rfl) (by rw [running]; decide)
  | orphaned stored collecting outcome idle => exact ⟨od.source, od.target, od.succeeded⟩
  | ingested fresh plain => exact ⟨od.source, od.target, od.succeeded⟩
  | passed stored verifying parsed accepted =>
    exact od.step stored (by rw [verifying]; rfl) (by rw [verifying]; decide)
  | refused stored verifying =>
    exact od.step stored (by rw [verifying]; rfl) (by rw [verifying]; decide)

/-- No move leaves `SUCCEEDED`. -/
lemma Move.absorbing {r' : Rows} (mv : Move valid r r') {id : String}
    (done : ∃ t, r.tasks.get id = some t ∧ t.status = .succeeded) :
    ∃ t, r'.tasks.get id = some t ∧ t.status = .succeeded := by
  obtain ⟨t, ht, succeeded⟩ := done
  have kept : ∀ {k s s'}, r.tasks.get k = some s →
      (s.status = .succeeded → s'.status = .succeeded) →
      ∃ u, (r.tasks.set k s').get id = some u ∧ u.status = .succeeded := by
    intro k s s' hs stays
    rw [Dict.get_set]
    split
    · rename_i own
      rw [← own, ht] at hs
      cases hs
      exact ⟨s', rfl, stays succeeded⟩
    · exact ⟨t, ht, succeeded⟩
  have other : ∀ {k s s'}, r.tasks.get k = some s → s.status ≠ .succeeded →
      ∃ u, (r.tasks.set k s').get id = some u ∧ u.status = .succeeded :=
    fun hs unfinished => kept hs fun done => (unfinished done).elim
  cases mv with
  | @created a fresh _ =>
    have ne : id ≠ a.id := by
      rintro rfl
      rw [fresh] at ht
      cases ht
    exact ⟨t, by rw [Dict.get_set_ne _ _ ne]; exact ht, succeeded⟩
  | readied stored pending _ => exact other stored (by rw [pending]; decide)
  | unleased stored kept' => exact kept stored fun done => done
  | expired stored running idle => exact other stored (by rw [running]; decide)
  | joined stored ready => exact other stored (by rw [ready]; decide)
  | dispatched stored ready _ _ => exact other stored (by rw [ready]; decide)
  | advanced _ _ => exact ⟨t, ht, succeeded⟩
  | finalised _ _ _ owner running => exact other owner (by rw [running]; decide)
  | orphaned _ _ _ _ => exact ⟨t, ht, succeeded⟩
  | ingested _ _ => exact ⟨t, ht, succeeded⟩
  | passed stored verifying _ _ => exact other stored (by rw [verifying]; decide)
  | refused stored verifying => exact other stored (by rw [verifying]; decide)

end Ordered

/-- Every task that has left `PENDING` depends on succeeded tasks only, in the state that is reached
    and in every later one. -/
theorem dependencies_succeeded {db db' : Db} {actions later : List Action}
    (rn : (controller valid).run Db.empty actions = some db)
    (rn' : (controller valid).run db later = some db')
    {d : TaskDependency} (mem : d ∈ db.dependencies) {t : Task}
    (ht : db.tasks.get d.taskId = some t)
    (started : t.status = .ready ∨ t.status = .running ∨ t.status = .verifying ∨
      t.status = .succeeded ∨ t.status = .failed) :
    (∃ t', db.tasks.get d.dependsOnTaskId = some t' ∧ t'.status = .succeeded) ∧
      ∃ t', db'.tasks.get d.dependsOnTaskId = some t' ∧ t'.status = .succeeded := by
  have od : Ordered db.toRows :=
    moves_invariant (fun r r' od mv => mv.ordered od) (controller_refines rn) Ordered.empty
  have left : t.status.started = true := by
    rcases started with e | e | e | e | e <;> rw [e] <;> rfl
  obtain ⟨t', ht'⟩ := od.target mem
  have now : ∃ t', db.tasks.get d.dependsOnTaskId = some t' ∧ t'.status = .succeeded :=
    ⟨t', ht', od.succeeded mem ht left ht'⟩
  refine ⟨now, ?_⟩
  exact moves_invariant
    (P := fun r : Rows => ∃ t', r.tasks.get d.dependsOnTaskId = some t' ∧ t'.status = .succeeded)
    (fun r r' done mv => mv.absorbing done) (controller_refines rn') now

/-- A task that depends on the first task of the shared success. -/
def dependentTask : List Action :=
  [ .createTask { sharedTask "t3" with dependencyIds := ["t1"] }, .reconcile 5 5 ["t3"] ]

/-- The dependent task becomes ready, and its dependency stays succeeded while the lease of the
    second task expires. -/
theorem dependencies_succeeded_shared :
    ∃ db db', (controller fun _ => .ok sharedSpec).run Db.empty (sharedSuccess ++ dependentTask) =
        some db ∧
      (controller fun _ => .ok sharedSpec).run db [.recoverExpiredLeases 60 60 ["t2"]] = some db' ∧
      (db.tasks.get "t3").map (·.status) = some .ready ∧
      ∃ t', db'.tasks.get "t1" = some t' ∧ t'.status = .succeeded := by
  obtain ⟨db, rn⟩ := Option.isSome_iff_exists.mp
    (show ((controller fun _ => .ok sharedSpec).run Db.empty
      (sharedSuccess ++ dependentTask)).isSome = true by decide)
  have facts : ((controller fun _ => .ok sharedSpec).run Db.empty
      (sharedSuccess ++ dependentTask)).map (fun db =>
        ((db.tasks.get "t3").map (·.status), db.dependencies,
          ((controller fun _ => .ok sharedSpec).run db
            [.recoverExpiredLeases 60 60 ["t2"]]).isSome)) =
      some (some .ready, [{ taskId := "t3", dependsOnTaskId := "t1" }], true) := by decide
  rw [rn, Option.map_some, Option.some.injEq, Prod.mk.injEq, Prod.mk.injEq] at facts
  obtain ⟨ready, edges, goesOn⟩ := facts
  obtain ⟨db', rn'⟩ := Option.isSome_iff_exists.mp goesOn
  obtain ⟨t, ht, status⟩ := Option.map_eq_some_iff.mp ready
  have edge : { taskId := "t3", dependsOnTaskId := "t1" } ∈ db.dependencies := by
    rw [edges]
    exact List.mem_singleton_self _
  exact ⟨db, db', rn, rn', ready, (dependencies_succeeded rn rn' edge ht (Or.inl status)).2⟩

/-! ## The shape of the graph -/

/-- The relation stored in `task_dependencies`. -/
def Db.DependsOn (db : Db) (id dependencyId : String) : Prop :=
  { taskId := id, dependsOnTaskId := dependencyId } ∈ db.dependencies

/-- The graph has no cycle, and every edge joins two tasks of one project. -/
structure Db.DependenciesAcyclic (db : Db) : Prop where
  acyclic : Acyclic db.DependsOn
  project : ∀ {d}, d ∈ db.dependencies → ∃ t t', db.tasks.get d.taskId = some t ∧
    db.tasks.get d.dependsOnTaskId = some t' ∧ t.projectId = t'.projectId

/-- Why `create_task` returns a task that is there or raises: the idempotency key or the identifier
    is taken, the project is missing, a dependency is listed twice, another dependency is no task of
    the project, or the event of the creation has been logged. -/
def Db.RefusesTask (db : Db) (a : TaskArgs) : Prop :=
  (∃ k t, db.tasks.get k = some t ∧ t.projectId = a.projectId ∧
      t.idempotencyKey = a.idempotencyKey) ∨
    (∃ t, db.tasks.get a.id = some t) ∨ db.projects.get a.projectId = none ∨
    ¬ a.dependencyIds.Nodup ∨
    (∃ d ∈ a.dependencyIds, d ≠ a.id ∧
      ∀ t, db.tasks.get d = some t → t.projectId ≠ a.projectId) ∨
    ∃ e ∈ db.events, e.projectId = a.projectId ∧ e.dedupeKey = some s!"task-created:{a.id}"

/-- A creation that lists its own identifier among the dependencies is refused. -/
def Db.NoSelfDependency (db : Db) : Action → Prop
  | .createTask a => a.id ∈ a.dependencyIds → db.RefusesTask a
  | _ => True

/-- The dependency loop returns only if no edge is written twice. -/
lemma Db.addDependencies_nodup {db db' : Db} {taskId projectId : String} {ids : List String}
    (h : db.addDependencies taskId projectId ids = .ok db') :
    ids.Nodup ∧ ∀ d ∈ ids, ¬ db.DependsOn taskId d := by
  induction ids generalizing db with
  | nil => exact ⟨List.nodup_nil, fun d mem => absurd mem List.not_mem_nil⟩
  | cons d ids ih =>
    unfold addDependencies at h
    split at h
    · cases h
    · split at h
      · cases h
      · split at h
        · cases h
        · rename_i free
          obtain ⟨nodup, others⟩ := ih h
          have notListed : d ∉ ids := fun mem =>
            others d mem (List.mem_append.mpr (Or.inr (List.mem_singleton_self _)))
          refine ⟨List.nodup_cons.mpr ⟨notListed, nodup⟩, ?_⟩
          intro d' mem
          rcases List.mem_cons.mp mem with rfl | mem
          · exact free
          · exact fun old => others d' mem (List.mem_append.mpr (Or.inl old))

/-- The dependency loop returns for distinct tasks of the project without edges so far. -/
lemma Db.addDependencies_total {db : Db} {taskId projectId : String} {ids : List String}
    (nodup : ids.Nodup) (valid : ∀ d ∈ ids, ∃ t, db.tasks.get d = some t ∧ t.projectId = projectId)
    (free : ∀ d ∈ ids, ¬ db.DependsOn taskId d) :
    ∃ db', db.addDependencies taskId projectId ids = .ok db' := by
  induction ids generalizing db with
  | nil => exact ⟨db, rfl⟩
  | cons d ids ih =>
    obtain ⟨notListed, nodup⟩ := List.nodup_cons.mp nodup
    obtain ⟨t, ht, project⟩ := valid d List.mem_cons_self
    have fresh : ¬ { taskId := taskId, dependsOnTaskId := d } ∈ db.dependencies :=
      free d List.mem_cons_self
    simp only [addDependencies, ht, project, ne_eq, not_true, if_false, fresh]
    apply ih nodup
    · exact fun d' mem => valid d' (List.mem_cons_of_mem d mem)
    · intro d' mem edge
      rcases List.mem_append.mp edge with old | new
      · exact free d' (List.mem_cons_of_mem d mem) old
      · rw [List.mem_singleton, TaskDependency.mk.injEq] at new
        exact notListed (new.2 ▸ mem)

/-- A refused creation changes nothing. -/
lemma Db.createTask_refused {db db' : Db} {a : TaskArgs} {id : String} (refused : db.RefusesTask a)
    (h : db.createTask a = .ok (id, db')) : db' = db := by
  unfold createTask at h
  split at h
  · cases h
    rfl
  · rename_i noKey
    split at h
    · cases h
    · rename_i idFree
      split at h
      · cases h
      · rename_i hasProject
        obtain ⟨db1, ad, h⟩ := bind_ok.mp h
        obtain ⟨db2, ap, _⟩ := bind_ok.mp h
        obtain ⟨nodup, _⟩ := addDependencies_nodup ad
        obtain ⟨listed, rfl⟩ := addDependencies_ok ad
        obtain ⟨p, _, _, logFree, _⟩ := append_ok ap
        exfalso
        rcases refused with ⟨k, t, ht, same⟩ | ⟨t, ht⟩ | missing | twice | ⟨d, mem, ne, foreign⟩ |
          ⟨e, mem, project, logged⟩
        · have differs := Dict.find?_none noKey ht
          simp [same] at differs
        · exact idFree (by rw [ht]; rfl)
        · exact hasProject (by rw [missing]; rfl)
        · exact twice nodup
        · obtain ⟨t, ht, project⟩ := listed d mem
          rw [Dict.get_set_ne _ _ ne] at ht
          exact foreign t ht project
        · exact logFree e mem project rfl logged

/-- A creation that is not refused adds the task with its edges. -/
lemma Db.DependenciesAcyclic.createTask_total {db : Db} (ac : db.DependenciesAcyclic)
    (sd : db.Sound) {a : TaskArgs} (accepted : ¬ db.RefusesTask a) :
    ∃ r, db.createTask a = .ok r := by
  simp only [RefusesTask, not_or] at accepted
  obtain ⟨noKey, idFree, hasProject, once, known, logFree⟩ := accepted
  obtain ⟨p, hp⟩ := Option.ne_none_iff_exists'.mp hasProject
  have absent : db.tasks.get a.id = none := by
    rw [Option.eq_none_iff_forall_ne_some]
    exact fun t ht => idFree ⟨t, ht⟩
  have unused : (db.tasks.find? fun _ t =>
      t.projectId == a.projectId && t.idempotencyKey == a.idempotencyKey) = none := by
    rw [Option.eq_none_iff_forall_ne_some]
    rintro ⟨k, t⟩ found
    obtain ⟨ht, same⟩ := Dict.find?_some found
    rw [Bool.and_eq_true, beq_iff_eq, beq_iff_eq] at same
    exact noKey ⟨k, t, ht, same⟩
  have listed : ∀ d ∈ a.dependencyIds, ∃ t,
      (db.tasks.set a.id a.row).get d = some t ∧ t.projectId = a.projectId := by
    intro d mem
    by_cases own : d = a.id
    · exact ⟨a.row, by rw [own, Dict.get_set_self], rfl⟩
    · rw [Dict.get_set_ne _ _ own]
      by_contra foreign
      exact known ⟨d, mem, own, fun t ht project => foreign ⟨t, ht, project⟩⟩
  have noEdge : ∀ d ∈ a.dependencyIds, ¬ db.DependsOn a.id d := by
    intro d _ edge
    obtain ⟨t, _, ht, _⟩ := ac.project edge
    rw [absent] at ht
    cases ht
  have added : ∃ db1, ({ db with tasks := db.tasks.set a.id a.row } : Db).addDependencies a.id
      a.projectId a.dependencyIds = .ok db1 :=
    addDependencies_total (not_not.mp once) listed noEdge
  obtain ⟨db1, ad⟩ := added
  have e1 := (addDependencies_ok ad).2
  have sd1 : db1.Sound := by
    rw [e1]
    exact sd.addTask hp _
  have hp1 : db1.projects.get a.projectId = some p := by
    rw [e1]
    exact hp
  have logs : ∀ e ∈ db1.events, e.projectId = a.projectId →
      e.dedupeKey ≠ some s!"task-created:{a.id}" := by
    rw [e1]
    exact fun e mem project logged => logFree ⟨e, mem, project, logged⟩
  simp only [Db.createTask, unused, absent, hp, Option.isSome_none, Option.isNone_some,
    Bool.false_eq_true, if_false]
  apply bind_total ad
  exact bind_total (sd1.append_of_fresh hp1 fun e mem project _ => logs e mem project) ⟨_, rfl⟩

/-- The graph after the creation of a task is acyclic exactly when the task is not among its own
    dependencies. -/
lemma Db.DependenciesAcyclic.added_iff {db : Db} (ac : db.DependenciesAcyclic) {a : TaskArgs}
    (absent : db.tasks.get a.id = none)
    (listed : ∀ d ∈ a.dependencyIds, ∃ t,
      (db.tasks.set a.id a.row).get d = some t ∧ t.projectId = a.projectId) {db' : Db}
    (rows : db'.toRows = { db.toRows with
      tasks := db.tasks.set a.id a.row,
      dependencies := db.dependencies ++ a.dependencyIds.map fun d =>
        { taskId := a.id, dependsOnTaskId := d } }) :
    db'.DependenciesAcyclic ↔ a.id ∉ a.dependencyIds := by
  have old : ∀ {k t}, db.tasks.get k = some t → k ≠ a.id := by
    intro k t ht e
    rw [e, absent] at ht
    cases ht
  have edges : ∀ x y, db'.DependsOn x y ↔
      Extended db.DependsOn a.id (· ∈ a.dependencyIds) x y := by
    intro x y
    have deps : db'.dependencies = db.dependencies ++ a.dependencyIds.map fun d =>
        { taskId := a.id, dependsOnTaskId := d } := by rw [rows]
    unfold DependsOn Extended
    rw [deps, List.mem_append, List.mem_map]
    apply or_congr Iff.rfl
    constructor
    · rintro ⟨d, mem, e⟩
      cases e
      exact ⟨rfl, mem⟩
    · rintro ⟨rfl, mem⟩
      exact ⟨y, mem, rfl⟩
  have unreached : ∀ x, ¬ db.DependsOn x a.id := by
    intro x edge
    obtain ⟨_, t', _, ht', _⟩ := ac.project edge
    exact old ht' rfl
  have shape : Acyclic (Extended db.DependsOn a.id (· ∈ a.dependencyIds)) ↔
      a.id ∉ a.dependencyIds := Acyclic.extended_iff ac.acyclic unreached
  constructor
  · exact fun ac' => shape.mp ((Acyclic.congr edges).mp ac'.acyclic)
  · intro other
    refine ⟨(Acyclic.congr edges).mpr (shape.mpr other), ?_⟩
    intro d mem
    rw [rows] at mem ⊢
    rcases List.mem_append.mp mem with before | new
    · obtain ⟨t, t', ht, ht', same⟩ := ac.project before
      refine ⟨t, t', ?_, ?_, same⟩
      · exact (Dict.get_set_ne _ _ (old ht)).trans ht
      · exact (Dict.get_set_ne _ _ (old ht')).trans ht'
    · obtain ⟨k, listedHere, rfl⟩ := List.mem_map.mp new
      obtain ⟨t', ht', project⟩ := listed k listedHere
      exact ⟨a.row, t', Dict.get_set_self _ _ _, ht', project.symm⟩

/-- `create_task` keeps the graph acyclic exactly when it is not asked to make a task depend on
    itself, or refuses. -/
lemma Db.DependenciesAcyclic.createTask_iff {db : Db} (ac : db.DependenciesAcyclic)
    (sd : db.Sound) (a : TaskArgs) :
    (db.act valid (.createTask a)).DependenciesAcyclic ↔ db.NoSelfDependency (.createTask a) := by
  by_cases refused : db.RefusesTask a
  · refine iff_of_true ?_ (fun _ => refused)
    refine Db.commit_keeps ac fun id db' h => ?_
    rw [createTask_refused refused h]
    exact ac
  · obtain ⟨⟨id, db'⟩, h⟩ := ac.createTask_total sd refused
    have after : db.act valid (.createTask a) = db' := by
      simp only [Db.act, h, Db.commit]
    have condition : db.NoSelfDependency (.createTask a) ↔ a.id ∉ a.dependencyIds :=
      ⟨fun c self => refused (c self), fun other self => (other self).elim⟩
    rw [after, condition]
    obtain ⟨rfl, t, ht⟩ | ⟨p, _, absent, _, listed, e⟩ := createTask_ok h
    · -- the task that is returned has the key of the new one
      exfalso
      unfold Db.createTask at h
      split at h
      · rename_i existing s found
        obtain ⟨hs, same⟩ := Dict.find?_some found
        rw [Bool.and_eq_true, beq_iff_eq, beq_iff_eq] at same
        exact refused (Or.inl ⟨existing, s, hs, same⟩)
      · split at h
        · cases h
        · split at h
          · cases h
          · rename_i idFree _
            obtain ⟨db1, ad, h⟩ := bind_ok.mp h
            obtain ⟨db2, ap, e⟩ := bind_ok.mp h
            cases e
            exact idFree (by rw [ht]; rfl)
    · exact ac.added_iff absent listed (by rw [e, logged_rows])

/-- The graph of tasks that stay in their projects. -/
lemma Db.DependenciesAcyclic.ofTasks {db db' : Db} (ac : db.DependenciesAcyclic)
    (dependencies : db'.dependencies = db.dependencies)
    (there : ∀ {k t}, db.tasks.get k = some t →
      ∃ t', db'.tasks.get k = some t' ∧ t'.projectId = t.projectId) :
    db'.DependenciesAcyclic := by
  refine ⟨(Acyclic.congr fun x y => ?_).mpr ac.acyclic, ?_⟩
  · unfold DependsOn
    rw [dependencies]
  · intro d mem
    rw [dependencies] at mem
    obtain ⟨t, t', ht, ht', same⟩ := ac.project mem
    obtain ⟨s, hs, eqS⟩ := there ht
    obtain ⟨s', hs', eqS'⟩ := there ht'
    exact ⟨s, s', hs, hs', eqS.trans (same.trans eqS'.symm)⟩

/-- Tasks under the same identities and the same edges have the same graph. -/
lemma Db.DependenciesAcyclic.ofFixed {db db' : Db} (ac : db.DependenciesAcyclic)
    (dependencies : db'.dependencies = db.dependencies)
    (tasks : db'.tasks.items.map (Prod.map id Task.identity) =
      db.tasks.items.map (Prod.map id Task.identity)) : db'.DependenciesAcyclic := by
  refine ac.ofTasks dependencies ?_
  intro k t ht
  have e := Dict.get_map_of_items tasks k
  rw [ht] at e
  obtain ⟨t', ht', same⟩ := Option.map_eq_some_iff.mp e
  exact ⟨t', ht', congrArg TaskIdentity.projectId same⟩

/-- A dispatch keeps the graph. -/
lemma Db.DependenciesAcyclic.dispatched {db db' : Db} (ac : db.DependenciesAcyclic) {a : JobArgs}
    {owner : String} {leaseExpiresAt now : Datetime} {jobIds : List String}
    (h : db.dispatchCommit a owner leaseExpiresAt now = .ok (jobIds, db')) :
    db'.DependenciesAcyclic := by
  obtain ⟨rfl, _⟩ | ⟨t, jobs, ht, _, rows, _⟩ := dispatchCommit_ok h
  · exact ac
  · have there : ∀ {k s}, db.tasks.get k = some s →
        ∃ s', db'.tasks.get k = some s' ∧ s'.projectId = s.projectId := by
      intro k s hs
      rw [rows, Dict.get_set]
      split
      · rename_i own
        rw [own, ht] at hs
        cases hs
        exact ⟨_, rfl, Task.moved_projectId _ _ _⟩
      · exact ⟨s, hs, rfl⟩
    exact ac.ofTasks (by rw [rows]) there

/-- In a run of the controller the dependency graph is acyclic, with edges inside projects only, in
    every state that is reached, exactly when every creation that lists its own identifier among the
    dependencies is refused. -/
theorem dependencies_acyclic_iff (actions : List Action) :
    (∀ before after db, actions = before ++ after →
        (controller valid).run Db.empty before = some db → db.DependenciesAcyclic) ↔
      (controller valid).Meets Db.NoSelfDependency Db.empty actions := by
  rw [← System.throughout_iff]
  refine System.throughout_iff_meets (I := Db.Sound) ?_ ?_ ?_ Db.Sound.empty ?_
  · intro db e db' sd st
    obtain ⟨_, rfl⟩ := controller_step st
    exact sd.act valid e
  · intro db e db' sd ac st
    obtain ⟨enabled, rfl⟩ := controller_step st
    cases adds : e.addsRow with
    | false =>
      obtain ⟨dependencies, tasks, _⟩ := db.act_keepsFixed valid adds
      refine iff_of_true (ac.ofFixed dependencies tasks) ?_
      cases e with
      | createTask a => cases adds
      | _ => trivial
    | true =>
      cases e with
      | createTask a => exact ac.createTask_iff sd a
      | dispatch a owner leaseExpiresAt now =>
        refine iff_of_true (Db.commit_keeps ac fun _ db' h => ?_) trivial
        exact ac.dispatched h
      | _ => cases adds
  · intro db e disabled
    cases e with
    | createTask a =>
      simp only [controller, Db.enabled] at disabled
      cases disabled
    | _ => trivial
  · refine ⟨?_, ?_⟩
    · intro id cycle
      obtain ⟨_, _, edge⟩ := Relation.TransGen.tail'_iff.mp cycle
      cases edge
    · intro d mem
      cases mem

/-- A task that is created with its own identifier among its dependencies waits for itself. -/
theorem dependencies_not_acyclic :
    ¬ ∀ (actions : List Action) (db : Db),
        (controller fun _ => .ok sharedSpec).run Db.empty actions = some db →
        db.DependenciesAcyclic := by
  intro acyclic
  let actions : List Action := [ .createProject "p" "slug" .active,
    .createTask { sharedTask "t" with dependencyIds := ["t"] } ]
  have loop : ((controller fun _ => .ok sharedSpec).run Db.empty actions).map (·.dependencies) =
      some [{ taskId := "t", dependsOnTaskId := "t" }] := by decide
  obtain ⟨db, rn, edges⟩ := Option.map_eq_some_iff.mp loop
  apply (acyclic actions db rn).acyclic "t"
  apply Relation.TransGen.single
  unfold Db.DependsOn
  rw [edges]
  exact List.mem_singleton_self _

end ResearchController
