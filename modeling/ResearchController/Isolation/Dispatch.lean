import ResearchController.Controller

/-!
# Isolation of dispatch

Nothing in the loop of `dispatch_ready` catches an exception, so the first task whose validation,
routing or preparation raises ends the call, and every task behind it in the order of the query
waits. The query sorts by priority, so the next call meets the same task first.

`unobstructed` is the exact condition under which the call nevertheless dispatches every task that
can be dispatched. It walks through the tasks in the order of the query with the unique values that
are taken (`Taken`): the job of a task may also be refused by a unique constraint of the database.
-/

namespace ResearchController
open Lib

/-! ## Unique values -/

/-- The values that the unique constraints of jobs and events protect. -/
structure Taken where
  jobIds : List String
  attempts : List (String × Nat)
  submissions : List (String × String)
  dedupeKeys : List (String × String)

/-- The unique values of the database. -/
def Db.taken (db : Db) : Taken :=
  { jobIds := db.jobs.items.map Prod.fst,
    attempts := db.jobs.items.map fun (_, j) => (j.taskId, j.attemptNo),
    submissions := db.jobs.items.map fun (_, j) => (j.providerId, j.submissionKey),
    dedupeKeys := db.events.filterMap fun e => e.dedupeKey.map fun key => (e.projectId, key) }

/-- Whether the submission has a job already, which is then used again. -/
def Taken.reuses (k : Taken) (a : JobArgs) : Bool :=
  k.submissions.contains (a.providerId, a.submissionKey)

/-- Whether a unique constraint refuses a new job of a task: its identifier, its attempt or the
    dedupe key of the event that announces it. -/
def Taken.refuses (k : Taken) (t : Task) (a : JobArgs) : Bool :=
  k.jobIds.contains a.id || k.attempts.contains (a.taskId, t.attemptCount + 1) ||
    k.dedupeKeys.contains (t.projectId, computeCreatedKey a.providerId a.submissionKey)

/-- The unique values after the dispatch of a task. -/
def Taken.add (k : Taken) (t : Task) (a : JobArgs) : Taken :=
  if k.reuses a then
    k
  else
    { jobIds := k.jobIds ++ [a.id],
      attempts := k.attempts ++ [(a.taskId, t.attemptCount + 1)],
      submissions := k.submissions ++ [(a.providerId, a.submissionKey)],
      dedupeKeys :=
        k.dedupeKeys ++ [(t.projectId, computeCreatedKey a.providerId a.submissionKey)] }

/-- A task of the query with the outcome of validation, routing and preparation. -/
abbrev Planned := Task × Except PyErr JobArgs

/-- The tasks of the query with the outcomes of their planning. -/
def ComputeDispatcher.planned (c : ComputeDispatcher) (db : Db) (taskIds : List String) :
    List Planned :=
  taskIds.filterMap fun id => (db.tasks.get id).map fun t => (t, c.plan id t.specJson)

/-- No task that can be planned comes after one that cannot, and no unique constraint refuses the
    job of one that can. -/
def unobstructed : Taken → List Planned → Bool
  | _, [] => true
  | _, (_, .error _) :: rest => rest.all fun item => !item.2.isOk
  | k, (t, .ok a) :: rest =>
    (k.reuses a || !k.refuses t a) && unobstructed (k.add t a) rest

/-! ## The transaction of one task -/

lemma Taken.reuses_iff {db : Db} {a : JobArgs} :
    db.taken.reuses a = true ↔
      ∃ k j, db.jobs.get k = some j ∧ j.providerId = a.providerId ∧
        j.submissionKey = a.submissionKey := by
  simp only [reuses, Db.taken, List.contains_iff_mem, List.mem_map, Prod.mk.injEq]
  constructor
  · rintro ⟨⟨k, j⟩, mem, same⟩
    exact ⟨k, j, (Dict.mem_items _).mp mem, same⟩
  · rintro ⟨k, j, hj, same⟩
    exact ⟨(k, j), (Dict.mem_items _).mpr hj, same⟩

lemma Db.mem_taken_jobIds {db : Db} {id : String} :
    id ∈ db.taken.jobIds ↔ (db.jobs.get id).isSome = true := by
  rw [Option.isSome_iff_exists]
  exact Dict.mem_keys _

lemma Db.mem_taken_attempts {db : Db} {taskId : String} {n : Nat} :
    (taskId, n) ∈ db.taken.attempts ↔
      db.jobs.any (fun _ j => j.taskId == taskId && j.attemptNo == n) = true := by
  simp only [Dict.any_iff, Db.taken, List.mem_map, Prod.mk.injEq, Bool.and_eq_true, beq_iff_eq]
  constructor
  · rintro ⟨⟨k, j⟩, mem, same⟩
    exact ⟨k, j, (Dict.mem_items _).mp mem, same⟩
  · rintro ⟨k, j, hj, same⟩
    exact ⟨(k, j), (Dict.mem_items _).mpr hj, same⟩

lemma Db.mem_taken_dedupeKeys {db : Db} {projectId key : String} :
    (projectId, key) ∈ db.taken.dedupeKeys ↔
      ∃ e ∈ db.events, e.projectId = projectId ∧ e.dedupeKey = some key := by
  simp only [taken, List.mem_filterMap, Option.map_eq_some_iff, Prod.mk.injEq]
  constructor
  · rintro ⟨e, mem, _, hkey, eqP, rfl⟩
    exact ⟨e, mem, eqP, hkey⟩
  · rintro ⟨e, mem, eqP, hkey⟩
    exact ⟨e, mem, key, hkey, eqP, rfl⟩

/-- A job is not refused if its identifier, its attempt and the key of its event are all free. -/
lemma Taken.refuses_false_iff {db : Db} {t : Task} {a : JobArgs} :
    db.taken.refuses t a = false ↔
      ¬ (db.jobs.get a.id).isSome = true ∧
        ¬ db.jobs.any (fun _ j => j.taskId == a.taskId && j.attemptNo == t.attemptCount + 1) =
          true ∧
        ¬ ∃ e ∈ db.events, e.projectId = t.projectId ∧
          e.dedupeKey = some (computeCreatedKey a.providerId a.submissionKey) := by
  rw [refuses, Bool.or_eq_false_iff, Bool.or_eq_false_iff, and_assoc]
  simp only [Bool.eq_false_iff, ne_eq, List.contains_iff_mem, Db.mem_taken_jobIds,
    Db.mem_taken_attempts, Db.mem_taken_dedupeKeys]

/-- The transaction creates or finds a job exactly when no unique constraint refuses it. -/
lemma Db.Sound.createComputeJob_total_iff {db : Db} (sd : db.Sound) {a : JobArgs} {t : Task}
    (ht : db.tasks.get a.taskId = some t) :
    (∃ r, db.createComputeJob a = .ok r) ↔
      db.taken.reuses a = true ∨ db.taken.refuses t a = false := by
  obtain ⟨p, hp⟩ := sd.taskProject ht
  unfold Db.createComputeJob
  split
  · rename_i existing j found
    obtain ⟨hj, same⟩ := Dict.find?_some found
    rw [Bool.and_eq_true, beq_iff_eq, beq_iff_eq] at same
    exact ⟨fun _ => Or.inl (Taken.reuses_iff.mpr ⟨existing, j, hj, same⟩), fun _ => ⟨_, rfl⟩⟩
  · rename_i notFound
    have fresh : ¬ db.taken.reuses a = true := by
      rw [Taken.reuses_iff]
      rintro ⟨k, j, hj, same⟩
      have differs := Dict.find?_none notFound hj
      simp [same] at differs
    rw [or_iff_right fresh, Taken.refuses_false_iff]
    simp only [ht]
    split
    · rename_i idTaken
      constructor
      · rintro ⟨_, h⟩
        cases h
      · rintro ⟨idFree, _⟩
        exact absurd idTaken idFree
    · rename_i idFree
      split
      · rename_i attemptTaken
        constructor
        · rintro ⟨_, h⟩
          cases h
        · rintro ⟨_, attemptFree, _⟩
          exact absurd attemptTaken attemptFree
      · rename_i attemptFree
        have logs := (sd.addJob ht).append_total_iff (d :=
          { eventType := "COMPUTE_JOB_CREATED", entityType := "COMPUTE_JOB", entityId := a.id,
            dedupeKey := some (computeCreatedKey a.providerId a.submissionKey),
            newState := some ComputeExecutionStatus.created.value }) hp
        rw [and_iff_right idFree, and_iff_right attemptFree]
        refine bind_pure_total_iff.trans (logs.trans ?_)
        constructor
        · rintro keyFree ⟨e, mem, eqP, eqK⟩
          exact keyFree e mem eqP rfl eqK
        · intro keyFree e mem eqP _ eqK
          exact keyFree ⟨e, mem, eqP, eqK⟩

/-- The unique values after an event has been logged. -/
lemma Db.taken_logged {db : Db} {projectId : String} {p : Project}
    (hp : db.projects.get projectId = some p) (d : EventDraft) :
    (db.logged projectId d).taken =
      { db.taken with
        dedupeKeys :=
          db.taken.dedupeKeys ++ (d.dedupeKey.map fun key => (projectId, key)).toList } := by
  have jobs : (db.logged projectId d).jobs = db.jobs :=
    congrArg Rows.jobs (db.logged_rows projectId d)
  simp only [taken, jobs, logged_events hp, List.filterMap_append]
  cases key : d.dedupeKey with
  | none => simp [EventDraft.at, key]
  | some k => simp [EventDraft.at, key]

lemma Db.createComputeJob_taken {db db' : Db} {a : JobArgs} {t : Task} {id : String}
    (ht : db.tasks.get a.taskId = some t) (h : db.createComputeJob a = .ok (id, db')) :
    db'.taken = db.taken.add t a := by
  obtain ⟨rfl, j, hj, same⟩ | ⟨task, p, _, ht', absent, noKey, _, hp, rfl⟩ := createComputeJob_ok h
  · rw [Taken.add, if_pos (Taken.reuses_iff.mpr ⟨id, j, hj, same⟩)]
  · rw [ht] at ht'
    cases ht'
    have fresh : ¬ db.taken.reuses a = true := by
      rw [Taken.reuses_iff]
      rintro ⟨k, j, hj, same⟩
      exact noKey hj same
    have hp' : ({ db with jobs := db.jobs.set a.id (a.row t) } : Db).projects.get t.projectId =
        some p := hp
    rw [Taken.add, if_neg fresh, taken_logged hp']
    simp only [taken, Dict.items_set_of_none absent, List.map_append, List.map_cons, List.map_nil,
      JobArgs.row]
    rfl

/-- Transitions and leases of tasks take no unique value. -/
lemma Db.transitionTask_taken {db db' : Db} {id : String} {toStatus : TaskStatus}
    {expectedStatus : Option TaskStatus} {eventType : Option String} {payload : JsonObject}
    {now : Datetime}
    (h : db.transitionTask id toStatus expectedStatus eventType payload now = .ok db') :
    db'.taken = db.taken := by
  obtain ⟨t, p, ty, _, _, _, hp, rfl⟩ := transitionTask_ok h
  have hp' : ({ db with tasks := db.tasks.set id (t.moved toStatus now) } : Db).projects.get
      t.projectId = some p := hp
  rw [taken_logged hp']
  exact congrArg (fun keys => { db.taken with dedupeKeys := keys }) (List.append_nil _)

lemma Db.modifyTask_taken (db : Db) (id : String) (f : Task → Task) :
    (db.modifyTask id f).taken = db.taken := by
  unfold modifyTask
  split <;> rfl

/-- The transaction of a ready task. -/
lemma Db.dispatchCommit_eq {db : Db} {a : JobArgs} {t : Task}
    (ht : db.tasks.get a.taskId = some t) (ready : t.status = .ready) (owner : String)
    (leaseExpiresAt now : Datetime) :
    db.dispatchCommit a owner leaseExpiresAt now = (do
      let created ← db.createComputeJob a
      let db' ← (created.2.modifyTask a.taskId (·.leased owner leaseExpiresAt)).transitionTask
        a.taskId .running (some .ready) none [] now
      return ([created.1], db')) := by
  unfold dispatchCommit
  rw [ht]
  exact if_neg (not_not.mpr ready)

/-- The transaction of a ready task commits exactly when no unique constraint refuses its job. -/
lemma Db.Sound.dispatchCommit_total_iff {db : Db} (sd : db.Sound) {a : JobArgs} {t : Task}
    (ht : db.tasks.get a.taskId = some t) (ready : t.status = .ready) (owner : String)
    (leaseExpiresAt now : Datetime) :
    (∃ r, db.dispatchCommit a owner leaseExpiresAt now = .ok r) ↔
      db.taken.reuses a = true ∨ db.taken.refuses t a = false := by
  rw [← sd.createComputeJob_total_iff ht]
  rw [dispatchCommit_eq ht ready]
  constructor
  · rintro ⟨r, h⟩
    obtain ⟨created, cj, _⟩ := bind_ok.mp h
    exact ⟨created, cj⟩
  · rintro ⟨⟨jobId, db1⟩, cj⟩
    have ht1 : db1.tasks.get a.taskId = some t := by
      obtain ⟨rfl, _⟩ | ⟨_, _, _, _, _, _, _, _, rfl⟩ := createComputeJob_ok cj
      · exact ht
      · rw [logged_rows]
        exact ht
    have sd1 := sd.createComputeJob cj
    have sd2 := sd1.modifyTask a.taskId (f := (·.leased owner leaseExpiresAt)) (fun _ => rfl)
    have ht2 : (db1.modifyTask a.taskId (·.leased owner leaseExpiresAt)).tasks.get a.taskId =
        some (t.leased owner leaseExpiresAt) := by
      rw [modifyTask_of_get ht1, Dict.get_set_self]
    have legal : TaskStatus.running ∈ taskTransitions (t.leased owner leaseExpiresAt).status := by
      rw [show (t.leased owner leaseExpiresAt).status = .ready from ready]
      decide
    obtain ⟨db3, tr⟩ := sd2.transitionTask_total ht2 legal (expected_some ready) none [] now
    apply bind_total cj
    exact bind_total tr ⟨_, rfl⟩

/-- What the transaction of a ready task leaves behind. -/
lemma Db.dispatchCommit_ready {db db' : Db} {a : JobArgs} {t : Task}
    (ht : db.tasks.get a.taskId = some t) (ready : t.status = .ready) {owner : String}
    {leaseExpiresAt now : Datetime} {jobIds : List String}
    (h : db.dispatchCommit a owner leaseExpiresAt now = .ok (jobIds, db')) :
    db'.taken = db.taken.add t a ∧
      db'.tasks = db.tasks.set a.taskId ((t.leased owner leaseExpiresAt).moved .running now) := by
  constructor
  · rw [dispatchCommit_eq ht ready] at h
    obtain ⟨⟨jobId, db1⟩, cj, h⟩ := bind_ok.mp h
    obtain ⟨db2, tr, e⟩ := bind_ok.mp h
    cases e
    rw [transitionTask_taken tr, modifyTask_taken]
    exact createComputeJob_taken ht cj
  · obtain ⟨_, notReady⟩ | ⟨t', jobs, ht', _, rows, _⟩ := dispatchCommit_ok h
    · exact (notReady t ht ready).elim
    · rw [ht] at ht'
      cases ht'
      exact congrArg Rows.tasks rows

/-! ## One iteration -/

lemma ComputeDispatcher.plan_taskId {c : ComputeDispatcher} {id : String} {specJson : Json}
    {a : JobArgs} (h : c.plan id specJson = .ok a) : a.taskId = id := by
  obtain ⟨spec, _, h⟩ := bind_ok.mp h
  obtain ⟨route, _, h⟩ := bind_ok.mp h
  obtain ⟨provider, _, h⟩ := bind_ok.mp h
  obtain ⟨prepared, _, e⟩ := bind_ok.mp h
  cases e
  rfl

/-- The iteration of a ready task. -/
lemma ComputeDispatcher.dispatchOne_eq (c : ComputeDispatcher) {s : List String × Db} {id : String}
    {t : Task} (ht : s.2.tasks.get id = some t) (ready : t.status = .ready) :
    c.dispatchOne s id = (do
      let a ← c.plan id t.specJson
      let r ← s.2.dispatchCommit a c.controllerId (c.clock id + c.leaseSeconds * 1000000)
        (c.clock id)
      return (s.1 ++ r.1, r.2)) := by
  unfold dispatchOne
  rw [ht]
  exact if_neg (not_not.mpr ready)

lemma ComputeDispatcher.dispatchOne_error {c : ComputeDispatcher} {s : List String × Db}
    {id : String} {t : Task} (ht : s.2.tasks.get id = some t) (ready : t.status = .ready)
    {e : PyErr} (raises : c.plan id t.specJson = .error e) : c.dispatchOne s id = .error e := by
  rw [c.dispatchOne_eq ht ready, raises]
  rfl

lemma ComputeDispatcher.dispatchOne_total_iff {c : ComputeDispatcher} {s : List String × Db}
    (sd : s.2.Sound) {id : String} {t : Task} (ht : s.2.tasks.get id = some t)
    (ready : t.status = .ready) {a : JobArgs} (planned : c.plan id t.specJson = .ok a) :
    (∃ s', c.dispatchOne s id = .ok s') ↔
      s.2.taken.reuses a = true ∨ s.2.taken.refuses t a = false := by
  have ht' : s.2.tasks.get a.taskId = some t := by
    rw [plan_taskId planned]
    exact ht
  rw [c.dispatchOne_eq ht ready, ← sd.dispatchCommit_total_iff ht' ready c.controllerId
    (c.clock id + c.leaseSeconds * 1000000) (c.clock id)]
  constructor
  · rintro ⟨s', h⟩
    obtain ⟨a', planned', h⟩ := bind_ok.mp h
    rw [planned] at planned'
    cases planned'
    obtain ⟨r, commit, _⟩ := bind_ok.mp h
    exact ⟨r, commit⟩
  · rintro ⟨r, commit⟩
    apply bind_total planned
    exact bind_total commit ⟨_, rfl⟩

/-- A task is running. -/
def Db.runs (db : Db) (id : String) : Prop :=
  ∃ t, db.tasks.get id = some t ∧ t.status = .running

/-- What the iteration of a ready task leaves behind. -/
structure DispatchedOne (s s' : List String × Db) (id : String) (t : Task)
    (a : JobArgs) : Prop where
  sound : s'.2.Sound
  taken : s'.2.taken = s.2.taken.add t a
  running : s'.2.runs id
  others : ∀ {other}, other ≠ id → s'.2.tasks.get other = s.2.tasks.get other

lemma ComputeDispatcher.dispatchOne_ok {c : ComputeDispatcher} {s s' : List String × Db}
    (sd : s.2.Sound) {id : String} {t : Task} (ht : s.2.tasks.get id = some t)
    (ready : t.status = .ready) (h : c.dispatchOne s id = .ok s') :
    ∃ a, c.plan id t.specJson = .ok a ∧ DispatchedOne s s' id t a := by
  rw [c.dispatchOne_eq ht ready] at h
  obtain ⟨a, planned, h⟩ := bind_ok.mp h
  obtain ⟨⟨jobIds, db⟩, commit, e⟩ := bind_ok.mp h
  cases e
  have owner := plan_taskId planned
  obtain ⟨taken, tasks⟩ := Db.dispatchCommit_ready (owner.symm ▸ ht) ready commit
  rw [owner] at tasks
  refine ⟨a, planned, sd.dispatchCommit commit, taken, ?_, ?_⟩
  · exact ⟨_, by rw [tasks]; exact Dict.get_set_self _ _ _, Task.moved_status _ _ _⟩
  · intro other ne
    rw [tasks, Dict.get_set_ne _ _ ne]

/-- An iteration keeps the database sound and leaves the rows of the other tasks alone. -/
lemma ComputeDispatcher.dispatchOne_frame {c : ComputeDispatcher} {s s' : List String × Db}
    (sd : s.2.Sound) {id other : String} (h : c.dispatchOne s id = .ok s') (ne : other ≠ id) :
    s'.2.Sound ∧ s'.2.tasks.get other = s.2.tasks.get other := by
  cases ht : s.2.tasks.get id with
  | none =>
    simp only [dispatchOne, ht] at h
    cases h
    exact ⟨sd, rfl⟩
  | some t =>
    by_cases ready : t.status = .ready
    · obtain ⟨a, _, done⟩ := dispatchOne_ok sd ht ready h
      exact ⟨done.sound, done.others ne⟩
    · simp only [dispatchOne, ht, ne_eq, ready, not_false_eq_true, if_true] at h
      cases h
      exact ⟨sd, rfl⟩

/-! ## The loop -/

/-- The tasks of the query are ready. -/
def Db.AllReady (db : Db) (taskIds : List String) : Prop :=
  ∀ id ∈ taskIds, ∃ t, db.tasks.get id = some t ∧ t.status = .ready

/-- The promise of `dispatch_ready`: every task of its query that can be planned runs after the
    call. -/
def ComputeDispatcher.DispatchesEach (c : ComputeDispatcher) (s : List String × Db)
    (taskIds : List String) : Prop :=
  ∀ id ∈ taskIds, ∀ t a, s.2.tasks.get id = some t → c.plan id t.specJson = .ok a →
    (commitEach c.dispatchOne s taskIds).1.2.runs id

lemma ComputeDispatcher.planned_cons (c : ComputeDispatcher) {db : Db} {id : String} {t : Task}
    (ht : db.tasks.get id = some t) (rest : List String) :
    c.planned db (id :: rest) = (t, c.plan id t.specJson) :: c.planned db rest := by
  simp only [planned, List.filterMap_cons, ht, Option.map_some]

/-- Planning reads the rows of the tasks only. -/
lemma ComputeDispatcher.planned_congr (c : ComputeDispatcher) {db db' : Db} {taskIds : List String}
    (same : ∀ id ∈ taskIds, db'.tasks.get id = db.tasks.get id) :
    c.planned db' taskIds = c.planned db taskIds := by
  apply List.filterMap_congr
  intro id mem
  rw [same id mem]

lemma ComputeDispatcher.mem_planned {c : ComputeDispatcher} {db : Db} {taskIds : List String}
    {t : Task} {r : Except PyErr JobArgs} :
    (t, r) ∈ c.planned db taskIds ↔
      ∃ id ∈ taskIds, db.tasks.get id = some t ∧ r = c.plan id t.specJson := by
  simp only [planned, List.mem_filterMap, Option.map_eq_some_iff, Prod.mk.injEq]
  constructor
  · rintro ⟨id, mem, _, ht, rfl, rfl⟩
    exact ⟨id, mem, ht, rfl⟩
  · rintro ⟨id, mem, ht, rfl⟩
    exact ⟨id, mem, t, ht, rfl, rfl⟩

/-- The loop leaves a task alone that is not in its list. -/
lemma ComputeDispatcher.loop_frame (c : ComputeDispatcher) {s : List String × Db} (sd : s.2.Sound)
    {taskIds : List String} {id : String} (absent : id ∉ taskIds) :
    (commitEach c.dispatchOne s taskIds).1.2.tasks.get id = s.2.tasks.get id := by
  have both : (commitEach c.dispatchOne s taskIds).1.2.Sound ∧
      (commitEach c.dispatchOne s taskIds).1.2.tasks.get id = s.2.tasks.get id := by
    apply commitEach_invariant (P := fun u : List String × Db =>
      u.2.Sound ∧ u.2.tasks.get id = s.2.tasks.get id)
    · rintro u other u' mem ⟨sound, same⟩ h
      obtain ⟨sound', same'⟩ := dispatchOne_frame sound h (ne_of_mem_of_not_mem mem absent).symm
      exact ⟨sound', same'.trans same⟩
    · exact ⟨sd, rfl⟩
  exact both.2

section Loop

variable {c : ComputeDispatcher} {s s' : List String × Db} {id : String} {rest : List String}
  {t : Task} {a : JobArgs} {e : PyErr}

/-- A loop that ends at its first task keeps the promise only if no later task can be planned. -/
lemma ComputeDispatcher.dispatchesEach_blocked_iff (later : s.2.AllReady rest)
    (ht : s.2.tasks.get id = some t) (planned : c.plan id t.specJson = .error e)
    (stops : commitEach c.dispatchOne s (id :: rest) = (s, some e)) :
    c.DispatchesEach s (id :: rest) ↔
      ∀ item ∈ c.planned s.2 rest, (!item.2.isOk) = true := by
  constructor
  · intro each item mem
    rw [Bool.not_eq_true']
    by_contra isOk
    obtain ⟨a, good⟩ : ∃ a, item.2 = .ok a := by
      cases e' : item.2 with
      | error e => exact (isOk (by rw [e']; rfl)).elim
      | ok a => exact ⟨a, rfl⟩
    obtain ⟨other, memRest, ht', e'⟩ := mem_planned.mp mem
    obtain ⟨t', ht'', running⟩ :=
      each other (List.mem_cons_of_mem id memRest) item.1 a ht' (e'.symm.trans good)
    -- the task is still as it was before the loop
    rw [stops, ht'] at ht''
    cases ht''
    obtain ⟨t'', hs, still⟩ := later other memRest
    rw [ht'] at hs
    cases hs
    rw [still] at running
    cases running
  · intro none other mem t' a ht' good
    rcases List.mem_cons.mp mem with rfl | memRest
    · rw [ht] at ht'
      cases ht'
      rw [planned] at good
      cases good
    · have bad := none _ (mem_planned.mpr ⟨other, memRest, ht', rfl⟩)
      rw [good] at bad
      cases bad

/-- A loop that ends at a task that can be planned breaks the promise for this task. -/
lemma ComputeDispatcher.not_dispatchesEach_of_refused (ht : s.2.tasks.get id = some t)
    (isReady : t.status = .ready) (planned : c.plan id t.specJson = .ok a)
    (stops : commitEach c.dispatchOne s (id :: rest) = (s, some e)) :
    ¬ c.DispatchesEach s (id :: rest) := by
  intro each
  obtain ⟨t', ht', running⟩ := each id List.mem_cons_self t a ht planned
  rw [stops, ht] at ht'
  cases ht'
  rw [isReady] at running
  cases running

/-- After an iteration that dispatched its task, the promise is about the rest of the loop. -/
lemma ComputeDispatcher.dispatchesEach_cons_iff (h : c.dispatchOne s id = .ok s')
    (done : DispatchedOne s s' id t a) (notin : id ∉ rest) :
    c.DispatchesEach s (id :: rest) ↔ c.DispatchesEach s' rest := by
  have goesOn : commitEach c.dispatchOne s (id :: rest) = commitEach c.dispatchOne s' rest :=
    commitEach_cons_ok rest h
  have same : ∀ other ∈ rest, s'.2.tasks.get other = s.2.tasks.get other :=
    fun other mem => done.others (ne_of_mem_of_not_mem mem notin)
  constructor
  · intro each other mem t' b ht' good
    rw [← goesOn]
    exact each other (List.mem_cons_of_mem id mem) t' b (same other mem ▸ ht') good
  · intro each other mem t' b ht' good
    rw [goesOn]
    rcases List.mem_cons.mp mem with rfl | memRest
    · obtain ⟨t'', ht'', running⟩ := done.running
      exact ⟨t'', (c.loop_frame done.sound notin).trans ht'', running⟩
    · exact each other memRest t' b ((same other memRest).trans ht') good

end Loop

/-- The promise of the rest of the loop is kept exactly when the rest is unobstructed. -/
lemma ComputeDispatcher.dispatchesEach_iff {c : ComputeDispatcher} {s : List String × Db}
    (sd : s.2.Sound) {taskIds : List String} (nd : taskIds.Nodup) (ready : s.2.AllReady taskIds) :
    c.DispatchesEach s taskIds ↔ unobstructed s.2.taken (c.planned s.2 taskIds) = true := by
  induction taskIds generalizing s with
  | nil =>
    refine ⟨fun _ => rfl, ?_⟩
    intro _ id mem
    cases mem
  | cons id rest ih =>
    obtain ⟨t, ht, isReady⟩ := ready id List.mem_cons_self
    obtain ⟨notin, nd⟩ := List.nodup_cons.mp nd
    have later : s.2.AllReady rest := fun other mem => ready other (List.mem_cons_of_mem id mem)
    rw [c.planned_cons ht]
    cases planned : c.plan id t.specJson with
    | error e =>
      have stops : commitEach c.dispatchOne s (id :: rest) = (s, some e) :=
        commitEach_cons_error rest (dispatchOne_error ht isReady planned)
      rw [unobstructed, List.all_eq_true]
      exact dispatchesEach_blocked_iff later ht planned stops
    | ok a =>
      have total := c.dispatchOne_total_iff sd ht isReady planned
      rw [unobstructed, Bool.and_eq_true, Bool.or_eq_true, Bool.not_eq_true', ← total]
      cases h : c.dispatchOne s id with
      | error e =>
        have broken : ¬ c.DispatchesEach s (id :: rest) :=
          not_dispatchesEach_of_refused ht isReady planned (commitEach_cons_error rest h)
        constructor
        · exact fun each => (broken each).elim
        · rintro ⟨⟨s', ok⟩, _⟩
          cases ok
      | ok s' =>
        obtain ⟨a', planned', done⟩ := dispatchOne_ok sd ht isReady h
        rw [planned] at planned'
        cases planned'
        have same : ∀ other ∈ rest, s'.2.tasks.get other = s.2.tasks.get other :=
          fun other mem => done.others (ne_of_mem_of_not_mem mem notin)
        have later' : s'.2.AllReady rest := by
          intro other mem
          rw [same other mem]
          exact later other mem
        have tail := ih done.sound nd later'
        rw [done.taken, c.planned_congr same] at tail
        rw [dispatchesEach_cons_iff h done notin, tail]
        exact ⟨fun unobstructed => ⟨⟨s', rfl⟩, unobstructed⟩, fun both => both.2⟩

/-- The query returns ready tasks, each once. -/
lemma Db.readyTasks_ready {db : Db} {taskIds : List String} (query : taskIds.Perm db.readyTasks) :
    taskIds.Nodup ∧ db.AllReady taskIds := by
  have sorted := (List.perm_insertionSort (fun x y : String × Task => x.2.dispatchBefore y.2)
    (db.tasks.items.filter fun x => x.2.status == .ready && x.2.executor == .compute &&
      (db.projects.get x.2.projectId).any (·.lifecycle == .active))).map Prod.fst
  have perm := query.trans sorted
  constructor
  · exact perm.nodup_iff.mpr ((List.filter_sublist.map Prod.fst).nodup db.tasks.nodup)
  · intro id mem
    obtain ⟨⟨id', t⟩, memItem, rfl⟩ := List.mem_map.mp (perm.mem_iff.mp mem)
    obtain ⟨stored, selected⟩ := List.mem_filter.mp memItem
    simp only [Bool.and_eq_true, beq_iff_eq] at selected
    exact ⟨t, (Dict.mem_items _).mp stored, selected.1.1⟩

/-- A call of `dispatch_ready` moves every task that can be planned to running exactly when no such
    task stands behind one that cannot be planned and no unique constraint refuses its job. -/
theorem dispatch_isolates_iff (c : ComputeDispatcher) {db : Db} (sd : db.Sound)
    {taskIds : List String} (query : taskIds.Perm db.readyTasks) :
    (∀ id ∈ taskIds, ∀ t a, db.tasks.get id = some t → c.plan id t.specJson = .ok a →
        (c.dispatchReady db taskIds).1.2.runs id) ↔
      unobstructed db.taken (c.planned db taskIds) = true := by
  obtain ⟨nd, ready⟩ := Db.readyTasks_ready query
  exact c.dispatchesEach_iff (show (([], db) : List String × Db).2.Sound from sd) nd ready

/-! ## A task for the machine at hand behind a task for a provider that is missing -/

/-- A dispatcher with the provider `local`; the spec of a task names the provider it asks for. -/
def localDispatcher : ComputeDispatcher :=
  { modelValidate := fun specJson => match specJson with
      | .str provider => .ok { projectId := "p", taskId := "t", submissionKey := provider,
                               execution := {}, resources := {},
                               routing := { allowedProviders := [provider] } }
      | _ => .error (.validationError "ComputeTaskSpec"),
    registryAt := fun _ => ⟨Dict.empty.set "local"
      { probe := .ok { providerId := "local", canSubmit := true },
        discoverResources := .ok
          { providerId := "local",
            offers :=
              [{ resourceClass := "local/cpu", operational := true, schedulable := true }] },
        canRun := fun _ _ => .ok true,
        prepare := fun spec resourceClass => .ok
          { providerId := "local", submissionKey := spec.submissionKey,
            resourceClass := resourceClass, workdir := "/w", command := [] } }⟩,
    newJobId := fun taskId => taskId,
    clock := fun _ => 0,
    controllerId := "c",
    leaseSeconds := 60 }

/-- Two tasks become ready, one for the provider `slurm` and one for `local`. -/
def twoProviders (slurmPriority localPriority : Int) : List Action :=
  [ .createProject "p" "slug" .active,
    .createTask { id := "far", projectId := "p", executor := .compute, idempotencyKey := "far",
                  specJson := .str "slurm", priority := slurmPriority },
    .createTask { id := "near", projectId := "p", executor := .compute, idempotencyKey := "near",
                  specJson := .str "local", priority := localPriority },
    .reconcile 0 0 ["far", "near"] ]

/-- The task that the local machine could run waits behind the one for the missing provider. -/
theorem dispatch_not_isolated :
    ∃ db, (controller localDispatcher.modelValidate).run Db.empty (twoProviders 1 0) = some db ∧
      db.readyTasks = ["far", "near"] ∧
      ∃ t a, db.tasks.get "near" = some t ∧ localDispatcher.plan "near" t.specJson = .ok a ∧
        ¬ (localDispatcher.dispatchReady db ["far", "near"]).1.2.runs "near" := by
  have last : ((controller localDispatcher.modelValidate).run Db.empty (twoProviders 1 0)).map
      (fun db => (db.readyTasks,
        (db.tasks.get "near").map fun t => (localDispatcher.plan "near" t.specJson).isOk,
        ((localDispatcher.dispatchReady db ["far", "near"]).1.2.tasks.get "near").map (·.status))) =
          some (["far", "near"], some true, some .ready) := by decide
  obtain ⟨db, rn, e⟩ := Option.map_eq_some_iff.mp last
  obtain ⟨query, e⟩ := Prod.mk.inj e
  obtain ⟨plans, waits⟩ := Prod.mk.inj e
  obtain ⟨t, ht, isOk⟩ := Option.map_eq_some_iff.mp plans
  refine ⟨db, rn, query, t, ?_⟩
  cases planned : localDispatcher.plan "near" t.specJson with
  | error e =>
    rw [planned] at isOk
    cases isOk
  | ok a =>
    refine ⟨a, ht, rfl, ?_⟩
    rintro ⟨t', ht', running⟩
    rw [ht', Option.map_some, running] at waits
    cases waits

/-- With the priorities the other way the task runs, and the missing provider only stops what comes
    after it. -/
theorem dispatch_isolates_iff_near :
    ∃ db, (controller localDispatcher.modelValidate).run Db.empty (twoProviders 0 1) = some db ∧
      db.readyTasks = ["near", "far"] ∧
      (localDispatcher.dispatchReady db ["near", "far"]).1.2.runs "near" := by
  have last : ((controller localDispatcher.modelValidate).run Db.empty (twoProviders 0 1)).map
      (fun db => (db.readyTasks,
        (db.tasks.get "near").map fun t => (localDispatcher.plan "near" t.specJson).isOk,
        unobstructed db.taken (localDispatcher.planned db ["near", "far"]))) =
          some (["near", "far"], some true, true) := by decide
  obtain ⟨db, rn, e⟩ := Option.map_eq_some_iff.mp last
  obtain ⟨query, e⟩ := Prod.mk.inj e
  obtain ⟨plans, clear⟩ := Prod.mk.inj e
  obtain ⟨t, ht, isOk⟩ := Option.map_eq_some_iff.mp plans
  refine ⟨db, rn, query, ?_⟩
  cases planned : localDispatcher.plan "near" t.specJson with
  | error e =>
    rw [planned] at isOk
    cases isOk
  | ok a =>
    have each := (dispatch_isolates_iff localDispatcher (controller_sound rn)
      (query ▸ List.Perm.refl _)).mpr clear
    exact each "near" List.mem_cons_self t a ht planned

end ResearchController
