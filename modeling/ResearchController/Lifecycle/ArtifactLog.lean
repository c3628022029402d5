import ResearchController.Lifecycle.Writes
import ResearchController.Services.Replay

/-!
# Artifacts and their events

Every reachable database has one `ARTIFACT_CREATED` and one `ARTIFACT_VERIFIED` event for each of
its artifacts, and no other events about artifacts; a producer has one artifact for each name and
content (`Db.Registered`). Only an ingest adds artifacts or events about them
(`Db.act_keepsArtifacts`).
-/

namespace ResearchController
open Lib

/-- Two databases hold the same artifacts, up to their marks, and the same events about them. -/
structure Db.KeepsArtifacts (db db' : Db) : Prop where
  rows : db'.artifacts.items.map (Prod.map id Artifact.key) =
    db.artifacts.items.map (Prod.map id Artifact.key)
  events : ∀ id, db'.entityEvents "ARTIFACT" id = db.entityEvents "ARTIFACT" id

namespace Db.KeepsArtifacts

variable {db db' db'' : Db}

lemma refl (db : Db) : db.KeepsArtifacts db := ⟨rfl, fun _ => rfl⟩

lemma trans (same : db.KeepsArtifacts db') (same' : db'.KeepsArtifacts db'') :
    db.KeepsArtifacts db'' :=
  ⟨same'.rows.trans same.rows, fun id => (same'.events id).trans (same.events id)⟩

/-- An event about something else. -/
lemma logged (same : db.KeepsArtifacts db') {projectId : String} {d : EventDraft}
    (entityType : String) (about : d.entityType = entityType) (other : entityType ≠ "ARTIFACT") :
    db.KeepsArtifacts (db'.logged projectId d) := by
  refine same.trans ⟨by rw [logged_rows], ?_⟩
  intro id
  cases hp : db'.projects.get projectId with
  | none => simp only [Db.logged, hp]
  | some p =>
    rw [entityEvents_logged hp, if_neg fun both => other (about.symm.trans both.1), List.append_nil]

end Db.KeepsArtifacts

variable {db db' : Db}

lemma Db.markEvidence_keepsArtifacts (db : Db) (id : String) (outputs : List OutputSpec) :
    db.KeepsArtifacts (db.markEvidence id outputs) := by
  refine ⟨?_, fun _ => rfl⟩
  show (db.artifacts.items.map _).map _ = _
  rw [List.map_map]
  refine List.map_congr_left fun item _ => ?_
  have key : (item.2.marked id outputs).key = item.2.key := by
    unfold Artifact.marked
    split <;> rfl
  exact Prod.ext rfl key

/-- A write marks artifacts at most. -/
lemma Db.Write.keepsArtifacts (wr : db.Write db') : db.KeepsArtifacts db' := by
  cases wr with
  | task _ _ => exact ⟨rfl, fun _ => rfl⟩
  | job _ _ => exact ⟨rfl, fun _ => rfl⟩
  | evidence id outputs => exact db.markEvidence_keepsArtifacts id outputs
  | @event projectId p d hp noKey other =>
    exact (KeepsArtifacts.refl db).logged d.entityType rfl other

lemma Db.Writes.keepsArtifacts (ws : db.Writes db') : db.KeepsArtifacts db' :=
  moves_invariant (fun _ _ same wr => same.trans wr.keepsArtifacts) ws (.refl db)

/-! ## Transactions -/

lemma Db.dispatchCommit_keepsArtifacts {a : JobArgs} {owner : String}
    {leaseExpiresAt now : Datetime} {jobIds : List String}
    (h : db.dispatchCommit a owner leaseExpiresAt now = .ok (jobIds, db')) :
    db.KeepsArtifacts db' := by
  obtain rfl | ⟨jobId, db1, cj, ws⟩ := dispatchCommit_writes h
  · exact .refl _
  · refine KeepsArtifacts.trans ?_ ws.keepsArtifacts
    obtain ⟨rfl, _⟩ | ⟨task, p, _, _, _, _, _, _, rfl⟩ := createComputeJob_ok cj
    · exact .refl _
    · have added : db.KeepsArtifacts { db with jobs := db.jobs.set a.id (a.row task) } :=
        ⟨rfl, fun _ => rfl⟩
      exact added.logged "COMPUTE_JOB" rfl (by decide)

/-- Whether an action ingests an artifact. -/
def Action.ingests : Action → Bool
  | .ingested _ _ _ _ _ _ => true
  | _ => false

/-- Every transaction but the ingest keeps the artifacts and their events. -/
theorem Db.act_keepsArtifacts (db : Db) (modelValidate : Json → Except PyErr ComputeTaskSpec)
    {e : Action} (other : e.ingests = false) : db.KeepsArtifacts (db.act modelValidate e) := by
  cases creates : e.creates with
  | false => exact (db.act_writes modelValidate creates).keepsArtifacts
  | true =>
    have committed : ∀ {α : Type} {r : Except PyErr (α × Db)},
        (∀ a db', r = .ok (a, db') → db.KeepsArtifacts db') → db.KeepsArtifacts (db.commit r) :=
      Db.commit_keeps (.refl db)
    cases e with
    | createProject id slug lifecycle =>
      refine committed fun _ db' h => ?_
      obtain ⟨_, _, rfl⟩ := createProject_ok h
      have added : db.KeepsArtifacts
          { db with projects := db.projects.set id { slug := slug, lifecycle := lifecycle } } :=
        ⟨rfl, fun _ => rfl⟩
      exact added.logged "PROJECT" rfl (by decide)
    | createTask a =>
      refine committed fun _ db' h => ?_
      obtain ⟨rfl, _⟩ | ⟨p, _, _, _, _, rfl⟩ := createTask_ok h
      · exact .refl _
      · have added : db.KeepsArtifacts
            { db with
              tasks := db.tasks.set a.id a.row,
              dependencies := db.dependencies ++ a.dependencyIds.map fun d =>
                { taskId := a.id, dependsOnTaskId := d } } := ⟨rfl, fun _ => rfl⟩
        exact added.logged "TASK" rfl (by decide)
    | dispatch a owner leaseExpiresAt now =>
      exact committed fun _ _ h => dispatchCommit_keepsArtifacts h
    | ingested jobId candidate id digest uri sizeBytes => cases other
    | _ => cases creates

/-! ## Registered artifacts -/

/-- Every artifact has its two events, nothing else has events about artifacts, and no two artifacts
    are the same to their producer. -/
structure Db.Registered (db : Db) : Prop where
  events : ∀ {i x}, db.artifacts.get i = some x →
    (db.entityEvents "ARTIFACT" i).map (·.eventType) = ["ARTIFACT_CREATED", "ARTIFACT_VERIFIED"]
  silent : ∀ {i}, db.artifacts.get i = none → db.entityEvents "ARTIFACT" i = []
  unique : ∀ {i i' x x'}, db.artifacts.get i = some x → db.artifacts.get i' = some x' →
    x.key = x'.key → i = i'

lemma Db.Registered.empty : Db.empty.Registered := by
  refine ⟨?_, fun _ => rfl, ?_⟩
  · intro i x hx
    cases hx
  · intro i i' x x' hx
    cases hx

lemma Db.Registered.keeps (rg : db.Registered) (same : db.KeepsArtifacts db') :
    db'.Registered := by
  have back : ∀ i, (db'.artifacts.get i).map Artifact.key = (db.artifacts.get i).map Artifact.key :=
    fun i => Dict.get_map_of_items same.rows i
  have old : ∀ {i x'}, db'.artifacts.get i = some x' →
      ∃ x, db.artifacts.get i = some x ∧ x.key = x'.key := by
    intro i x' hx'
    have e := back i
    rw [hx'] at e
    exact Option.map_eq_some_iff.mp e.symm
  refine ⟨?_, ?_, ?_⟩
  · intro i x' hx'
    obtain ⟨x, hx, _⟩ := old hx'
    rw [same.events]
    exact rg.events hx
  · intro i absent
    rw [same.events]
    apply rg.silent
    have e := back i
    rw [absent] at e
    exact Option.map_eq_none_iff.mp e.symm
  · intro i i' x x' hx hx' key
    obtain ⟨y, hy, ky⟩ := old hx
    obtain ⟨y', hy', ky'⟩ := old hx'
    exact rg.unique hy hy' ((ky.trans key).trans ky'.symm)

/-- `ingest_file` looks for the key of its row. -/
lemma Db.existingArtifact_none {a : IngestArgs} (missing : db.existingArtifact a = none)
    {i : String} {x : Artifact} (hx : db.artifacts.get i = some x) : x.key ≠ a.key := by
  intro same
  have differs := Dict.find?_none missing hx
  simp only [Artifact.key, IngestArgs.key, ArtifactKey.mk.injEq] at same
  obtain ⟨project, type, ref, name, digest⟩ := same
  simp [project, type, ref, name, digest] at differs

lemma Db.Registered.ingestRow (rg : db.Registered) {a : IngestArgs} {id : String}
    (h : db.ingestRow a = .ok (id, db')) : db'.Registered := by
  obtain ⟨rfl, _⟩ | ⟨rfl, missing, absent, p, hp, rfl⟩ := ingestRow_cases h
  · exact rg
  · generalize db.currentVersion a.projectId a.logicalName + 1 = version
    have get : ∀ i, (((({ db with artifacts := db.artifacts.set a.id (a.row version) } : Db).logged
        a.projectId (a.created version)).logged a.projectId a.verified).artifacts).get i =
        if i = a.id then some (a.row version) else db.artifacts.get i := by
      intro i
      simp only [Db.logged_rows]
      exact Dict.get_set _ _ _ _
    have events : ∀ i, ((({ db with artifacts := db.artifacts.set a.id (a.row version) } :
        Db).logged a.projectId (a.created version)).logged a.projectId a.verified).entityEvents
          "ARTIFACT" i = db.entityEvents "ARTIFACT" i ++
            if i = a.id then
              [(a.created version).at a.projectId (p.eventSeq + 1),
                a.verified.at a.projectId (p.bump.eventSeq + 1)]
            else [] := by
      intro i
      have hp1 : ({ db with artifacts := db.artifacts.set a.id (a.row version) } : Db).projects.get
          a.projectId = some p := hp
      have hp2 : (({ db with artifacts := db.artifacts.set a.id (a.row version) } : Db).logged
          a.projectId (a.created version)).projects.get a.projectId = some p.bump := by
        rw [logged_projects hp1, Dict.get_set_self]
      rw [entityEvents_logged hp2, entityEvents_logged hp1, List.append_assoc]
      congr 1
      by_cases here : i = a.id
      · rw [if_pos here, if_pos ⟨rfl, here.symm⟩, if_pos ⟨rfl, here.symm⟩]
        rfl
      · rw [if_neg here, if_neg fun both => here both.2.symm, if_neg fun both => here both.2.symm]
        rfl
    refine ⟨?_, ?_, ?_⟩
    · intro i x hx
      rw [get] at hx
      rw [events]
      split at hx
      · rename_i here
        rw [if_pos here, here, rg.silent absent]
        rfl
      · rename_i elsewhere
        rw [if_neg elsewhere, List.append_nil]
        exact rg.events hx
    · intro i none
      rw [get] at none
      split at none
      · cases none
      · rename_i elsewhere
        rw [events, if_neg elsewhere, List.append_nil]
        exact rg.silent none
    · intro i i' x x' hx hx' key
      rw [get] at hx hx'
      split at hx <;> split at hx'
      · rename_i here here'
        exact here.trans here'.symm
      · cases hx
        exact (existingArtifact_none missing hx' key.symm).elim
      · cases hx'
        exact (existingArtifact_none missing hx key).elim
      · exact rg.unique hx hx' key

/-- Every reachable database is registered. -/
theorem controller_registered {modelValidate : Json → Except PyErr ComputeTaskSpec} {db : Db}
    {actions : List Action} (rn : (controller modelValidate).run Db.empty actions = some db) :
    db.Registered := by
  refine System.run_invariant (P := Db.Registered) ?_ rn Db.Registered.empty
  intro db e db' rg st
  obtain ⟨_, rfl⟩ := controller_step st
  cases other : e.ingests with
  | false => exact rg.keeps (db.act_keepsArtifacts modelValidate other)
  | true =>
    cases e with
    | ingested jobId candidate id digest uri sizeBytes =>
      simp only [Db.act]
      split
      · exact rg
      · exact Db.commit_keeps rg fun _ _ h => rg.ingestRow h
    | _ => cases other

end ResearchController
