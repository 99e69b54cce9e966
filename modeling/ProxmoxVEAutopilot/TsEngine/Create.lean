import ProxmoxVEAutopilot.TsEngine.Tree

/-!
# Creating a run from a compiled version

`create_run_from_version` without content resolution: one run row, one plan row per
flattened step, one event.
-/

namespace ProxmoxVEAutopilot.TsEngine

open Foundation
set_option autoImplicit false

/-- The calls of `_new_id`, numbered in the order they are made. -/
structure IdSource where
  next : Nat → Uuid
  fresh : Function.Injective next

def countingIds : IdSource := ⟨fun n => n, fun _ _ h => h⟩

structure SequenceVersion where
  id : Uuid
  sequenceId : Uuid
  compiledTreeJson : List Node

inductive CreateError where
  | versionNotFound (sequenceVersionId : Uuid)
  | condition (e : ConditionError)

/-- The inserted plan row; the run id is the first fresh id, the row of ordinal `k`
takes the id after it. -/
def planRow (ids : IdSource) (vars target : Json) (f : FlatStep) : Except ConditionError PlanStep :=
  (evaluateCondition f.conditionJson vars target).map fun r =>
    { id := ids.next (f.ordinal + 1)
      plan := f
      conditionResult := r
      state := if f.enabled && r.matched then .pending else .skipped }

theorem planRow_of_condition {ids : IdSource} {vars target : Json} {f : FlatStep}
    {c : ConditionResult} (h : evaluateCondition f.conditionJson vars target = .ok c) :
    planRow ids vars target f = .ok
      { id := ids.next (f.ordinal + 1), plan := f, conditionResult := c,
        state := if f.enabled && c.matched then .pending else .skipped } := by
  simp only [planRow, h, Except.map]

theorem planRow_ok {ids : IdSource} {vars target : Json} {f : FlatStep} {r : PlanStep}
    (h : planRow ids vars target f = .ok r) :
    ∃ c, evaluateCondition f.conditionJson vars target = .ok c ∧
      r = { id := ids.next (f.ordinal + 1), plan := f, conditionResult := c,
            state := if f.enabled && c.matched then .pending else .skipped } := by
  unfold planRow at h
  cases hc : evaluateCondition f.conditionJson vars target with
  | error e => rw [hc] at h; cases h
  | ok c =>
    rw [hc] at h
    exact ⟨c, rfl, (Except.ok.inj h).symm⟩

theorem mapM_planRow_map {γ : Type} {ids : IdSource} {vars target : Json} {fs : List FlatStep}
    {rows : List PlanStep} (h : fs.mapM (planRow ids vars target) = .ok rows)
    {g : PlanStep → γ} {k : FlatStep → γ}
    (hg : ∀ f c, g { id := ids.next (f.ordinal + 1), plan := f, conditionResult := c,
                     state := if f.enabled && c.matched then .pending else .skipped } = k f) :
    rows.map g = fs.map k := by
  refine map_eq_of_forall₂ (mapM_ok_forall₂ h) ?_
  intro f r hrow
  obtain ⟨c, _, rfl⟩ := planRow_ok hrow
  exact hg f c

theorem mapM_planRow_plan {ids : IdSource} {vars target : Json} {fs : List FlatStep}
    {rows : List PlanStep} (h : fs.mapM (planRow ids vars target) = .ok rows) :
    rows.map PlanStep.plan = fs := by
  have hmap := mapM_planRow_map h (g := PlanStep.plan) (k := id) fun _ _ => rfl
  rwa [List.map_id] at hmap

/-- The inserted rows satisfy the unique constraints of the table. -/
def planTable (ids : IdSource) (vars target : Json) (tree : List Node) (rows : List PlanStep)
    (h : (flattenSteps tree).mapM (planRow ids vars target) = .ok rows) : PlanTable where
  rows := rows
  ordinals := by
    have hplan := flattenSteps_ordered tree
    rw [← mapM_planRow_plan h, List.pairwise_map] at hplan
    exact hplan
  ids := by
    rw [mapM_planRow_map h (g := fun r => r.id) (k := fun f => ids.next (f.ordinal + 1))
      fun _ _ => rfl]
    rw [List.Nodup, List.pairwise_map]
    refine (flattenSteps_ordered tree).imp ?_
    intro a b hab heq
    have := ids.fresh heq
    omega

/-- `create_run_from_version` with `resolve_content` off; `version?` is the selected row. -/
def createRunFromVersion (ids : IdSource) (sequenceVersionId : Uuid)
    (version? : Option SequenceVersion) (deploymentTarget runVariables : Json)
    (createdBy : Option String) (now : Time) : Except CreateError RunDb :=
  match version? with
  | none => .error (.versionNotFound sequenceVersionId)
  | some version =>
    let target := orEmpty deploymentTarget
    let vars := orEmpty runVariables
    match h : (flattenSteps version.compiledTreeJson).mapM (planRow ids vars target) with
    | .error e => .error (.condition e)
    | .ok rows => .ok
      { run :=
          { id := ids.next 0
            sequenceId := version.sequenceId
            sequenceVersionId := sequenceVersionId
            vmid := target.get? "vmid"
            vmUuid := target.get? "vm_uuid"
            computerName := target.get? "computer_name"
            serialNumber := target.get? "serial_number"
            deploymentTarget := target
            runVariables := vars
            startedAt := now
            createdBy := createdBy }
        steps := planTable ids vars target version.compiledTreeJson rows h
        events := [{ eventType := .runCreated, createdAt := now }] }

/-- What every operation of the engine starts from. -/
structure Initial (db : RunDb) : Prop where
  queued : db.run.state = .queued
  phase : db.run.phase = none
  cursor : db.run.cursorStepId = none
  notFinished : db.run.finishedAt = none
  progress : ∀ r ∈ db.steps.rows, ∃ s, (s = .pending ∨ s = .skipped) ∧
    r.toStepProgress = { state := s }

/-- A run that `create_run_from_version` made. -/
def Created (db : RunDb) : Prop :=
  ∃ ids versionId version target vars createdBy now,
    createRunFromVersion ids versionId (some version) target vars createdBy now = .ok db

theorem createRunFromVersion_rows {ids : IdSource} {versionId : Uuid} {version : SequenceVersion}
    {target vars : Json} {createdBy : Option String} {now : Time} {db : RunDb}
    (h : createRunFromVersion ids versionId (some version) target vars createdBy now = .ok db) :
    (flattenSteps version.compiledTreeJson).mapM (planRow ids (orEmpty vars) (orEmpty target)) =
        .ok db.steps.rows ∧
      db.run.state = .queued ∧ db.run.phase = none ∧ db.run.cursorStepId = none ∧
      db.run.finishedAt = none := by
  unfold createRunFromVersion at h
  dsimp only at h
  split at h
  · cases h
  · rename_i rows hrows
    cases h
    exact ⟨hrows, rfl, rfl, rfl, rfl⟩

theorem createRunFromVersion_row {ids : IdSource} {versionId : Uuid} {version : SequenceVersion}
    {target vars : Json} {createdBy : Option String} {now : Time} {db : RunDb}
    (h : createRunFromVersion ids versionId (some version) target vars createdBy now = .ok db)
    {r : PlanStep} (hr : r ∈ db.steps.rows) :
    ∃ f ∈ flattenSteps version.compiledTreeJson,
      planRow ids (orEmpty vars) (orEmpty target) f = .ok r :=
  exists_left_of_forall₂ (mapM_ok_forall₂ (createRunFromVersion_rows h).1) hr

theorem Created.initial {db : RunDb} (h : Created db) : Initial db := by
  obtain ⟨ids, versionId, version, target, vars, createdBy, now, h⟩ := h
  obtain ⟨_, hqueued, hphase, hcursor, hfinished⟩ := createRunFromVersion_rows h
  refine ⟨hqueued, hphase, hcursor, hfinished, ?_⟩
  intro r hr
  obtain ⟨f, _, hrow⟩ := createRunFromVersion_row h hr
  obtain ⟨c, _, rfl⟩ := planRow_ok hrow
  refine ⟨_, ?_, rfl⟩
  split
  · exact .inl rfl
  · exact .inr rfl

def runOf (nodes : List Node) : Except CreateError RunDb :=
  createRunFromVersion countingIds 0 (some ⟨0, 0, compiledTree nodes⟩) (.obj []) (.obj []) none 0

def createdFrom (nodes : List Node) (ok : (runOf nodes).toOption.isSome = true) : RunDb :=
  (runOf nodes).toOption.get ok

theorem ok_toOption_get {ε α : Type} (x : Except ε α) (ok : x.toOption.isSome = true) :
    x = .ok (x.toOption.get ok) := by
  cases x with
  | error e => simp [Except.toOption] at ok
  | ok a => rfl

theorem created_createdFrom (nodes : List Node) (ok : (runOf nodes).toOption.isSome = true) :
    Created (createdFrom nodes ok) :=
  ⟨countingIds, 0, ⟨0, 0, compiledTree nodes⟩, .obj [], .obj [], none, 0,
    ok_toOption_get (runOf nodes) ok⟩

end ProxmoxVEAutopilot.TsEngine
