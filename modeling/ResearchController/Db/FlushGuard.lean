import ResearchController.Lib.Walk
import ResearchController.Services.Replay

/-!
# The flush guard

Port of `enforce_audited_state_changes` in `db/session.py`. A flush window begins with the database
as it is stored; the session works on it, and what has been added to the log since is pending.
Before the flush the guard looks at every row whose status differs from the stored one and wants
some pending event about that row with the same new state.

Inside a window a caller may mix `transition_task` with direct assignments to `task.status`. The
guard does not see where a direct assignment was made, so it accepts windows whose pending events
are no chain from the stored status to the written one. `flush_guard_chain_iff` says exactly which
windows it guards: those it rejects, and those in which every direct assignment is undone before the
next audited transition and before the flush.
-/

namespace ResearchController
open Lib

/-- The events that were added since the window began. -/
def Db.pendingEvents (stored work : Db) : List Event :=
  work.events.drop stored.events.length

/-- Some pending event about an entity has a given new state. -/
def auditedBy (pending : List Event) (entityType id newState : String) : Bool :=
  pending.any fun e => e.entityType == entityType && e.entityId == id && e.newState == some newState

/-- `enforce_audited_state_changes`. A row that is not stored yet is new to the session, not
    dirty. -/
def enforceAuditedStateChanges (stored work : Db) : Except PyErr Unit :=
  let pending := stored.pendingEvents work
  if work.tasks.any fun id t => (stored.tasks.get id).any fun t0 =>
      t.status != t0.status && !auditedBy pending "TASK" id t.status.value then
    .error (.valueError "TASK.status must be changed through TransitionService")
  else if work.jobs.any fun id j => (stored.jobs.get id).any fun j0 =>
      j.executionStatus != j0.executionStatus &&
        !auditedBy pending "COMPUTE_JOB" id j.executionStatus.value then
    .error (.valueError "COMPUTE_JOB.execution_status must be changed through TransitionService")
  else
    .ok ()

/-- What a caller does to the status of a task. -/
inductive StatusOp where
  | transition (toStatus : TaskStatus) (expectedStatus : Option TaskStatus)
      (eventType : Option String) (payload : JsonObject) (now : Datetime)
  | assign (status : TaskStatus)

/-- The effect of an operation in a window. A call that raises leaves the session as it was. -/
def Db.statusOp (db : Db) (id : String) : StatusOp → Db
  | .transition toStatus expectedStatus eventType payload now =>
    match db.transitionTask id toStatus expectedStatus eventType payload now with
    | .ok db' => db'
    | .error _ => db
  | .assign status => db.modifyTask id ({ · with status := status })

/-- The session at the end of a window of operations on one task. -/
def Db.window (db : Db) (id : String) (ops : List StatusOp) : Db :=
  ops.foldl (fun db op => db.statusOp id op) db

/-- The status that a call of `transition_task` moves a task to, if it does not raise. -/
def StatusOp.moves? (status : TaskStatus) : StatusOp → Option TaskStatus
  | .transition toStatus expectedStatus _ _ _ =>
    if expectedStatus.all (· == status) && (taskTransitions status).contains toStatus then
      some toStatus
    else none
  | .assign _ => none

/-- The status after an operation. -/
def StatusOp.after (status : TaskStatus) : StatusOp → TaskStatus
  | .assign status' => status'
  | op => (op.moves? status).getD status

/-- The status after a window. -/
def finalStatus (status : TaskStatus) (ops : List StatusOp) : TaskStatus :=
  ops.foldl StatusOp.after status

/-- The audited transitions of a window: the calls that do not raise. -/
def auditedSteps (status : TaskStatus) : List StatusOp → List (TaskStatus × TaskStatus)
  | [] => []
  | op :: ops =>
    match op.moves? status with
    | some status' => (status, status') :: auditedSteps status' ops
    | none => auditedSteps (op.after status) ops

/-- Direct assignments are neutral: every audited transition of the window, and its end, find the
    status that the audited transition before (or the database) has left. -/
def neutral (audited status : TaskStatus) : List StatusOp → Bool
  | [] => audited == status
  | op :: ops =>
    match op.moves? status with
    | some status' => audited == status && neutral status' status' ops
    | none => neutral audited (op.after status) ops

/-- The events are a chain of legal steps from one status to another. -/
def LegalChain (stored written : TaskStatus) (events : List Event) : Prop :=
  ∃ walk, Walk (fun s s' => s' ∈ taskTransitions s) stored walk written ∧
    events.map Event.states = walk.map fun (s, s') => (some s.value, some s'.value)

/-! ## What a window does -/

/-- The session in a window on one task: its status, and the audited transitions so far. -/
structure InWindow (stored work : Db) (id : String) (status : TaskStatus)
    (steps : List (TaskStatus × TaskStatus)) : Prop where
  sound : work.Sound
  task : ∃ t, work.tasks.get id = some t ∧ t.status = status
  others : ∀ {k}, k ≠ id → work.tasks.get k = stored.tasks.get k
  jobs : work.jobs = stored.jobs
  log : ∃ pending, work.events = stored.events ++ pending ∧
    (∀ e ∈ pending, e.entityType = "TASK" ∧ e.entityId = id) ∧
    pending.map Event.states = steps.map fun (s, s') => (some s.value, some s'.value)

/-- A window begins with the stored task. -/
lemma InWindow.start {db : Db} (sd : db.Sound) {id : String} {t : Task}
    (ht : db.tasks.get id = some t) : InWindow db db id t.status [] := by
  refine ⟨sd, ⟨t, ht, rfl⟩, fun _ => rfl, rfl, [], (List.append_nil _).symm, ?_, rfl⟩
  intro e mem
  cases mem

/-- A call of `transition_task` returns exactly when it moves the status. -/
lemma StatusOp.moves?_iff {status toStatus s : TaskStatus} {expectedStatus : Option TaskStatus}
    {eventType : Option String} {payload : JsonObject} {now : Datetime} :
    (StatusOp.transition toStatus expectedStatus eventType payload now).moves? status = some s ↔
      s = toStatus ∧ (∀ e, expectedStatus = some e → status = e) ∧
        toStatus ∈ taskTransitions status := by
  have expected : expectedStatus.all (· == status) = true ↔
      ∀ e, expectedStatus = some e → status = e := by
    cases expectedStatus with
    | none =>
      refine ⟨?_, fun _ => rfl⟩
      intro _ e absent
      cases absent
    | some e0 =>
      rw [Option.all_some, beq_iff_eq]
      constructor
      · intro same e h
        cases h
        exact same.symm
      · exact fun h => (h e0 rfl).symm
  simp only [moves?]
  split
  · rename_i both
    obtain ⟨exp, legal⟩ := Bool.and_eq_true_iff.mp both
    rw [Option.some.injEq]
    constructor
    · intro e
      exact ⟨e.symm, expected.mp exp, List.contains_iff_mem.mp legal⟩
    · exact fun h => h.1.symm
  · rename_i refused
    constructor
    · intro moves
      cases moves
    · rintro ⟨_, exp, legal⟩
      have both := Bool.and_eq_true_iff.mpr ⟨expected.mpr exp, List.contains_iff_mem.mpr legal⟩
      exact (refused both).elim

/-- A transition that does not raise extends the audited steps of a window. -/
lemma InWindow.moved {stored work work' : Db} {id : String} {status s : TaskStatus}
    {steps : List (TaskStatus × TaskStatus)} {expectedStatus : Option TaskStatus}
    {eventType : Option String} {payload : JsonObject} {now : Datetime}
    (win : InWindow stored work id status steps)
    (tr : work.transitionTask id s expectedStatus eventType payload now = .ok work') :
    InWindow stored work' id s (steps ++ [(status, s)]) := by
  have sound := win.sound.transitionTask tr
  obtain ⟨t, ht, rfl⟩ := win.task
  obtain ⟨t', p, ty, ht', _, _, hp, rfl⟩ := Db.transitionTask_ok tr
  rw [ht] at ht'
  cases ht'
  refine ⟨sound, ?_, ?_, ?_, ?_⟩
  · rw [Db.logged_rows]
    exact ⟨_, Dict.get_set_self _ _ _, Task.moved_status _ _ _⟩
  · intro k ne
    rw [Db.logged_rows, Dict.get_set_ne _ _ ne]
    exact win.others ne
  · rw [Db.logged_rows]
    exact win.jobs
  · obtain ⟨pending, events, about, states⟩ := win.log
    refine ⟨pending ++ [EventDraft.at
      { eventType := ty, entityType := "TASK", entityId := id,
        oldState := some t.status.value, newState := some s.value, payload := payload }
      t.projectId (p.eventSeq + 1)], ?_, ?_, ?_⟩
    · have hp' : ({ work with tasks := work.tasks.set id (t.moved s now) } : Db).projects.get
          t.projectId = some p := hp
      rw [Db.logged_events hp', ← List.append_assoc, ← events]
    · intro e mem
      rcases List.mem_append.mp mem with old | new
      · exact about e old
      · rw [List.mem_singleton] at new
        rw [new]
        exact ⟨rfl, rfl⟩
    · rw [List.map_append, List.map_append, states]
      rfl

/-- One operation of a window. -/
lemma InWindow.step {stored work : Db} {id : String} {status : TaskStatus}
    {steps : List (TaskStatus × TaskStatus)} (win : InWindow stored work id status steps)
    (op : StatusOp) :
    InWindow stored (work.statusOp id op) id (op.after status)
      (steps ++ (op.moves? status).toList.map fun s => (status, s)) := by
  obtain ⟨t, ht, rfl⟩ := win.task
  cases op with
  | assign s =>
    simp only [Db.statusOp, StatusOp.moves?, Option.toList_none, List.map_nil, List.append_nil,
      Db.modifyTask_of_get ht]
    refine ⟨win.sound.setTask ht rfl, ⟨_, Dict.get_set_self _ _ _, rfl⟩, ?_, win.jobs, win.log⟩
    intro k ne
    rw [Dict.get_set_ne _ _ ne]
    exact win.others ne
  | transition toStatus expectedStatus eventType payload now =>
    simp only [Db.statusOp, StatusOp.after]
    cases moves : (StatusOp.transition toStatus expectedStatus eventType payload now).moves?
        t.status with
    | none =>
      -- the call raises, so the session stays as it was
      cases tr : work.transitionTask id toStatus expectedStatus eventType payload now with
      | error e =>
        simp only [Option.toList_none, List.map_nil, List.append_nil, Option.getD_none]
        exact ⟨win.sound, ⟨t, ht, rfl⟩, win.others, win.jobs, win.log⟩
      | ok work' =>
        obtain ⟨t', _, _, ht', expected, legal, _⟩ := Db.transitionTask_ok tr
        rw [ht] at ht'
        cases ht'
        rw [StatusOp.moves?_iff.mpr ⟨rfl, expected, legal⟩] at moves
        cases moves
    | some s =>
      obtain ⟨rfl, expected, legal⟩ := StatusOp.moves?_iff.mp moves
      obtain ⟨work', tr⟩ :=
        win.sound.transitionTask_total ht legal expected eventType payload now
      simp only [tr, Option.toList_some, List.map_cons, List.map_nil, Option.getD_some]
      exact win.moved tr

/-- All operations of a window. -/
lemma InWindow.run {stored work : Db} {id : String} {status : TaskStatus}
    {steps : List (TaskStatus × TaskStatus)} (win : InWindow stored work id status steps)
    (ops : List StatusOp) :
    InWindow stored (work.window id ops) id (finalStatus status ops)
      (steps ++ auditedSteps status ops) := by
  induction ops generalizing work status steps with
  | nil =>
    rw [auditedSteps, List.append_nil]
    exact win
  | cons op ops ih =>
    have first := win.step op
    have rest := ih first
    have e : steps ++ auditedSteps status (op :: ops) =
        steps ++ ((op.moves? status).toList.map fun s => (status, s)) ++
          auditedSteps (op.after status) ops := by
      rw [auditedSteps, List.append_assoc]
      cases moves : op.moves? status with
      | none => rfl
      | some s =>
        have after : op.after status = s := by
          cases op with
          | assign s' => cases moves
          | transition => simp only [StatusOp.after, moves, Option.getD_some]
        rw [after]
        rfl
    rw [e]
    exact rest

/-- The audited transitions of a window are a walk to its final status exactly when its direct
    assignments are neutral. -/
lemma auditedSteps_walk (audited status : TaskStatus) (ops : List StatusOp) :
    Walk (fun s s' => s' ∈ taskTransitions s) audited (auditedSteps status ops)
      (finalStatus status ops) ↔ neutral audited status ops = true := by
  induction ops generalizing audited status with
  | nil => simp [auditedSteps, finalStatus, neutral]
  | cons op ops ih =>
    cases moves : op.moves? status with
    | none =>
      simp only [auditedSteps, neutral, moves, finalStatus, List.foldl_cons]
      exact ih audited (op.after status)
    | some s =>
      cases op with
      | assign s' => cases moves
      | transition toStatus expectedStatus eventType payload now =>
        obtain ⟨rfl, _, legal⟩ := StatusOp.moves?_iff.mp moves
        simp only [auditedSteps, neutral, moves, finalStatus, List.foldl_cons, StatusOp.after,
          Option.getD_some, Walk.cons_iff, Bool.and_eq_true, beq_iff_eq]
        constructor
        · rintro ⟨same, _, wk⟩
          exact ⟨same, (ih s s).mp wk⟩
        · rintro ⟨same, rest⟩
          exact ⟨same, legal, (ih s s).mpr rest⟩

/-! ## What the guard sees -/

/-- The states of a window's events determine its steps. -/
lemma states_injective {walk walk' : List (TaskStatus × TaskStatus)}
    (e : (walk.map fun (s, s') => (some s.value, some s'.value)) =
      walk'.map fun (s, s') => (some s.value, some s'.value)) : walk = walk' := by
  refine List.map_injective_iff.mpr ?_ e
  rintro ⟨a, a'⟩ ⟨b, b'⟩ same
  simp only [Prod.mk.injEq, Option.some.injEq] at same
  rw [TaskStatus.value_injective same.1, TaskStatus.value_injective same.2]

/-- The pending events of a window. -/
lemma InWindow.pending {stored work : Db} {id : String} {status : TaskStatus}
    {steps : List (TaskStatus × TaskStatus)} (win : InWindow stored work id status steps) :
    (stored.pendingEvents work).filter (fun e => e.entityType == "TASK" && e.entityId == id) =
        stored.pendingEvents work ∧
      (stored.pendingEvents work).map Event.states =
        steps.map fun (s, s') => (some s.value, some s'.value) := by
  obtain ⟨pending, events, about, states⟩ := win.log
  have same : stored.pendingEvents work = pending := by
    rw [Db.pendingEvents, events, List.drop_left]
  rw [same]
  refine ⟨List.filter_eq_self.mpr ?_, states⟩
  intro e mem
  rw [Bool.and_eq_true, beq_iff_eq, beq_iff_eq]
  exact about e mem

/-- The status that is written counts as audited when it is the target of an audited transition. -/
lemma InWindow.audited_iff {stored work : Db} {id : String} {status : TaskStatus}
    {steps : List (TaskStatus × TaskStatus)} (win : InWindow stored work id status steps) :
    auditedBy (stored.pendingEvents work) "TASK" id status.value = true ↔
      status ∈ steps.map Prod.snd := by
  obtain ⟨about, states⟩ := win.pending
  have newStates : (stored.pendingEvents work).map (·.newState) =
      (steps.map Prod.snd).map fun s => some s.value := by
    have second := congrArg (List.map Prod.snd) states
    simpa only [List.map_map, Function.comp_def, Event.states] using second
  rw [auditedBy, List.any_eq_true]
  constructor
  · rintro ⟨e, mem, same⟩
    rw [Bool.and_eq_true, beq_iff_eq] at same
    have inStates : e.newState ∈ (steps.map Prod.snd).map fun s => some s.value := by
      rw [← newStates]
      exact List.mem_map.mpr ⟨e, mem, rfl⟩
    obtain ⟨s, hs, eqS⟩ := List.mem_map.mp inStates
    rw [same.2, Option.some.injEq] at eqS
    rw [← TaskStatus.value_injective eqS]
    exact hs
  · intro mem
    have inStates : some status.value ∈ (stored.pendingEvents work).map (·.newState) := by
      rw [newStates]
      exact List.mem_map.mpr ⟨_, mem, rfl⟩
    obtain ⟨e, he, eqS⟩ := List.mem_map.mp inStates
    rw [← about] at he
    refine ⟨e, List.mem_of_mem_filter he, ?_⟩
    rw [(List.mem_filter.mp he).2, Bool.true_and]
    exact beq_iff_eq.mpr eqS

/-- Only the task of a window can be dirty. -/
lemma InWindow.dirty_iff {stored work : Db} {id : String} {t : Task} {status : TaskStatus}
    {steps : List (TaskStatus × TaskStatus)} (win : InWindow stored work id status steps)
    (ht : stored.tasks.get id = some t) :
    (work.tasks.any fun k t => (stored.tasks.get k).any fun t0 =>
      t.status != t0.status && !auditedBy (stored.pendingEvents work) "TASK" k t.status.value) =
        true ↔ ¬ (status = t.status ∨ status ∈ steps.map Prod.snd) := by
  rw [Dict.any_iff, not_or, ← win.audited_iff]
  obtain ⟨t', ht', rfl⟩ := win.task
  constructor
  · rintro ⟨k, x, hx, dirty⟩
    by_cases e : k = id
    · subst e
      rw [ht'] at hx
      cases hx
      rw [ht, Option.any_some, Bool.and_eq_true, bne_iff_ne, Bool.not_eq_true'] at dirty
      exact ⟨dirty.1, by rw [dirty.2]; exact Bool.false_ne_true⟩
    · rw [win.others e] at hx
      rw [hx, Option.any_some, bne_self_eq_false, Bool.false_and] at dirty
      cases dirty
  · rintro ⟨differs, unaudited⟩
    refine ⟨id, t', ht', ?_⟩
    rw [ht, Option.any_some, Bool.and_eq_true, bne_iff_ne, Bool.not_eq_true', Bool.eq_false_iff]
    exact ⟨differs, unaudited⟩

/-- The guard accepts a window exactly when the status is the stored one or the target of an audited
    transition. -/
lemma InWindow.accepted_iff {stored work : Db} {id : String} {t : Task} {status : TaskStatus}
    {steps : List (TaskStatus × TaskStatus)} (win : InWindow stored work id status steps)
    (ht : stored.tasks.get id = some t) :
    enforceAuditedStateChanges stored work = .ok () ↔
      (status = t.status ∨ status ∈ steps.map Prod.snd) := by
  have jobs : (work.jobs.any fun k j => (stored.jobs.get k).any fun j0 =>
      j.executionStatus != j0.executionStatus && !auditedBy (stored.pendingEvents work)
        "COMPUTE_JOB" k j.executionStatus.value) = false := by
    rw [Bool.eq_false_iff, ne_eq, Dict.any_iff]
    rintro ⟨k, j, hj, dirty⟩
    rw [win.jobs] at hj
    rw [hj, Option.any_some, bne_self_eq_false, Bool.false_and] at dirty
    cases dirty
  simp only [enforceAuditedStateChanges, jobs]
  split
  · rename_i dirty
    constructor
    · intro accepted
      cases accepted
    · exact fun clean => ((win.dirty_iff ht).mp dirty clean).elim
  · rename_i clean
    exact ⟨fun _ => not_not.mp (mt (win.dirty_iff ht).mpr clean), fun _ => rfl⟩

/-- In a window on a stored task: an accepted flush has a chain of legal audited steps from the
    stored status to the written one if and only if the direct assignments are neutral, or the guard
    rejects the window because its final status is neither the stored one nor the target of an
    audited transition. -/
theorem flush_guard_chain_iff {db : Db} (sd : db.Sound) {id : String} {t : Task}
    (ht : db.tasks.get id = some t) (ops : List StatusOp) :
    (enforceAuditedStateChanges db (db.window id ops) = .ok () →
        ∃ t', (db.window id ops).tasks.get id = some t' ∧
          LegalChain t.status t'.status ((db.pendingEvents (db.window id ops)).filter fun e =>
            e.entityType == "TASK" && e.entityId == id)) ↔
      (neutral t.status t.status ops = true ∨
        (finalStatus t.status ops ≠ t.status ∧
          finalStatus t.status ops ∉ (auditedSteps t.status ops).map Prod.snd)) := by
  have win := (InWindow.start sd ht).run ops
  rw [List.nil_append] at win
  obtain ⟨about, states⟩ := win.pending
  obtain ⟨t', ht', status⟩ := win.task
  rw [win.accepted_iff ht, about]
  have chain : (∃ t', (db.window id ops).tasks.get id = some t' ∧
      LegalChain t.status t'.status (db.pendingEvents (db.window id ops))) ↔
        neutral t.status t.status ops = true := by
    rw [← auditedSteps_walk]
    constructor
    · rintro ⟨t'', ht'', walk, wk, recorded⟩
      rw [ht'] at ht''
      cases ht''
      rw [states] at recorded
      rw [← status, states_injective recorded]
      exact wk
    · intro wk
      exact ⟨t', ht', _, status ▸ wk, states⟩
  rw [chain, ← not_or]
  constructor
  · intro guards
    by_cases accepted : finalStatus t.status ops = t.status ∨
        finalStatus t.status ops ∈ (auditedSteps t.status ops).map Prod.snd
    · exact Or.inl (guards accepted)
    · exact Or.inr accepted
  · rintro (clean | rejected) accepted
    · exact clean
    · exact (rejected accepted).elim

/-- A stored project with one pending task. -/
def storedTask : Db :=
  { projects := Dict.empty.set "p" { slug := "slug" },
    tasks := Dict.empty.set "t"
      (TaskArgs.row { id := "t", projectId := "p", executor := .compute, idempotencyKey := "k",
                      specJson := .null }) }

lemma storedTask_sound : storedTask.Sound := by
  refine ⟨?_, ?_, ?_, ?_⟩
  · intro id t ht
    rw [storedTask, Dict.get_set] at ht
    split at ht
    · cases ht
      exact ⟨_, Dict.get_set_self _ _ _⟩
    · cases ht
  · intro id j hj
    cases hj
  · intro id j hj
    cases hj
  · intro e mem
    cases mem

/-- A direct assignment in front of an audited transition that starts from it. -/
def forgedFailure : List StatusOp :=
  [.assign .failed, .transition .ready none none [] 0]

/-- The guard accepts the forged failure, although the only pending event starts at a status that
    the task never had in the database. -/
theorem flush_guard_accepts_mix :
    ¬ ∀ (db : Db), db.Sound → ∀ (id : String) (t : Task), db.tasks.get id = some t →
      ∀ ops : List StatusOp, enforceAuditedStateChanges db (db.window id ops) = .ok () →
        ∃ t', (db.window id ops).tasks.get id = some t' ∧
          LegalChain t.status t'.status ((db.pendingEvents (db.window id ops)).filter fun e =>
            e.entityType == "TASK" && e.entityId == id) := by
  intro guards
  obtain ⟨t', ht', walk, wk, recorded⟩ :=
    guards storedTask storedTask_sound "t" _ (Dict.get_set_self _ _ _) forgedFailure rfl
  have states : ((storedTask.pendingEvents (storedTask.window "t" forgedFailure)).filter fun e =>
      e.entityType == "TASK" && e.entityId == "t").map Event.states =
        [(TaskStatus.failed, TaskStatus.ready)].map fun (s, s') => (some s.value, some s'.value) :=
    rfl
  rw [states] at recorded
  rw [← states_injective recorded, Walk.cons_iff] at wk
  cases wk.1

/-- A window that only makes an audited transition passes the guard as a chain. -/
theorem flush_guard_chain_iff_ready :
    enforceAuditedStateChanges storedTask
        (storedTask.window "t" [.transition .ready (some .pending) none [] 0]) = .ok () ∧
      ∃ t', (storedTask.window "t" [.transition .ready (some .pending) none [] 0]).tasks.get "t" =
          some t' ∧
        LegalChain .pending t'.status ((storedTask.pendingEvents
          (storedTask.window "t" [.transition .ready (some .pending) none [] 0])).filter fun e =>
            e.entityType == "TASK" && e.entityId == "t") := by
  refine ⟨rfl, ?_⟩
  exact (flush_guard_chain_iff storedTask_sound (Dict.get_set_self _ _ _)
    [.transition .ready (some .pending) none [] 0]).mpr (Or.inl rfl) rfl

end ResearchController
