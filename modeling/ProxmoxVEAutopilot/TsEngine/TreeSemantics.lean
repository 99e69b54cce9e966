import ProxmoxVEAutopilot.TsEngine.Create

/-!
# What the authoring tree asks of a plan

A disabled or unmatched group switches off everything below it. The plan looks at
each step alone, so it agrees with the tree exactly when no step that is switched on
sits below a group that is switched off.
-/

namespace ProxmoxVEAutopilot.TsEngine

open Foundation
set_option autoImplicit false

def SwitchedOn (vars target : Json) (n : Node) : Prop :=
  n.enabled = true ∧ Matches n.conditionJson vars target

/-- The step and all groups above it are switched on. -/
def Runnable (vars target : Json) (gs : List Node) (n : Node) : Prop :=
  SwitchedOn vars target n ∧ ∀ g ∈ gs, SwitchedOn vars target g

/-- Every plan row of a tree step starts pending when the tree runs the step, and
skipped otherwise. -/
def HonoursTree (nodes : List Node) (vars target : Json) (db : RunDb) : Prop :=
  ∀ gs n kind, Below nodes none gs n → n.nodeType = .step kind →
    ∀ r ∈ db.steps.rows, r.plan.sourceNodeId = n.id →
      (r.state = .pending ↔ Runnable vars target gs n) ∧
      (¬ Runnable vars target gs n → r.state = .skipped)

/-- The plan rows are the steps that groups lead to. -/
def CoversTree (nodes : List Node) (db : RunDb) : Prop :=
  (∀ gs n kind, Below nodes none gs n → n.nodeType = .step kind →
    ∃ r ∈ db.steps.rows, r.plan.sourceNodeId = n.id) ∧
  ∀ r ∈ db.steps.rows, ∃ gs n kind, Below nodes none gs n ∧ n.nodeType = .step kind ∧
    r.plan.sourceNodeId = n.id

theorem orEmpty_orEmpty (v : Json) : orEmpty (orEmpty v) = orEmpty v := by
  unfold orEmpty
  split
  · rfl
  · rfl

theorem evaluateCondition_orEmpty (c vars target : Json) :
    evaluateCondition c (orEmpty vars) (orEmpty target) = evaluateCondition c vars target := by
  simp only [evaluateCondition, orEmpty_orEmpty]

section Compiled
variable {ids : IdSource} {nodes : List Node} {versionId sequenceId id : Uuid} {target vars : Json}
  {createdBy : Option String} {now : Time} {db : RunDb}

theorem planRow_state {f : FlatStep} {r : PlanStep}
    (h : planRow ids (orEmpty vars) (orEmpty target) f = .ok r) :
    r.plan = f ∧
      (f.enabled = true ∧ Matches f.conditionJson vars target → r.state = .pending) ∧
      (¬ (f.enabled = true ∧ Matches f.conditionJson vars target) → r.state = .skipped) := by
  obtain ⟨c, hc, rfl⟩ := planRow_ok h
  rw [evaluateCondition_orEmpty] at hc
  have hmatch : Matches f.conditionJson vars target ↔ c.matched = true := by
    constructor
    · rintro ⟨c', hc', hm⟩
      rw [hc] at hc'
      cases hc'
      exact hm
    · exact fun hm => ⟨c, hc, hm⟩
  refine ⟨rfl, ?_, ?_⟩ <;> intro hon <;> rw [hmatch] at hon <;> simp [hon]

theorem unique_compiledTree_ids (unique : (nodes.map Node.id).Nodup) :
    ((compiledTree nodes).map Node.id).Nodup := by
  have hperm : (compiledTree nodes).Perm nodes := List.perm_insertionSort ..
  exact (hperm.map Node.id).nodup_iff.mpr unique

theorem createRunFromVersion_ok (ids : IdSource) (versionId id sequenceId : Uuid)
    (target vars : Json) (createdBy : Option String) (now : Time)
    (wellFormed : ∀ n ∈ nodes, WellFormed n.conditionJson) :
    ∃ db, createRunFromVersion ids versionId (some ⟨id, sequenceId, compiledTree nodes⟩)
      target vars createdBy now = .ok db := by
  have hrows : ∃ rows, (flattenSteps (compiledTree nodes)).mapM
      (planRow ids (orEmpty vars) (orEmpty target)) = .ok rows := by
    refine mapM_ok fun f hf => ?_
    obtain ⟨gs, n, kind, hb, _, _, _, _, rfl⟩ := flattenSteps_sound hf
    obtain ⟨c, hc⟩ := evaluateCondition_ok (wellFormed n (mem_compiledTree.mp hb.mem))
      (orEmpty vars) (orEmpty target)
    exact ⟨_, planRow_of_condition hc⟩
  obtain ⟨rows, hrows⟩ := hrows
  unfold createRunFromVersion
  dsimp only
  split
  · rename_i e he
    rw [hrows] at he
    cases he
  · exact ⟨_, rfl⟩

section Created
variable (created : createRunFromVersion ids versionId
  (some ⟨id, sequenceId, compiledTree nodes⟩) target vars createdBy now = .ok db)
include created

theorem created_row {r : PlanStep} (hr : r ∈ db.steps.rows) :
    ∃ gs n kind, Below nodes none gs n ∧ n.nodeType = .step kind ∧ r.plan.sourceNodeId = n.id ∧
      (SwitchedOn vars target n → r.state = .pending) ∧
      (¬ SwitchedOn vars target n → r.state = .skipped) := by
  obtain ⟨f, hf, hrow⟩ := createRunFromVersion_row created hr
  obtain ⟨gs, n, kind, hb, hk, _, _, _, rfl⟩ := flattenSteps_sound hf
  obtain ⟨hplan, hon, hoff⟩ := planRow_state hrow
  exact ⟨gs, n, kind, below_compiledTree.mp hb, hk, by rw [hplan]; rfl, hon, hoff⟩

variable (unique : (nodes.map Node.id).Nodup)
include unique

theorem created_row_of_step {gs : List Node} {n : Node} {kind : String}
    (hb : Below nodes none gs n) (hk : n.nodeType = .step kind) :
    ∃ r ∈ db.steps.rows, r.plan.sourceNodeId = n.id := by
  obtain ⟨f, hf, _, _, _, rfl⟩ := flattenSteps_complete (unique_compiledTree_ids unique)
    (below_compiledTree.mpr hb) hk
  obtain ⟨r, hr, hrow⟩ := exists_right_of_forall₂
    (mapM_ok_forall₂ (createRunFromVersion_rows created).1) hf
  exact ⟨r, hr, by rw [(planRow_state hrow).1]; rfl⟩

theorem created_row_state {gs : List Node} {n : Node} (hb : Below nodes none gs n)
    {r : PlanStep} (hr : r ∈ db.steps.rows) (hid : r.plan.sourceNodeId = n.id) :
    (SwitchedOn vars target n → r.state = .pending) ∧
      (¬ SwitchedOn vars target n → r.state = .skipped) := by
  obtain ⟨_, m, _, hm, _, hmid, hstate⟩ := created_row created hr
  rwa [eq_of_node_id unique hb.mem hm.mem (hid.symm.trans hmid)]

theorem created_coversTree : CoversTree nodes db := by
  refine ⟨fun gs n kind hb hk => created_row_of_step created unique hb hk, ?_⟩
  intro r hr
  obtain ⟨gs, n, kind, hb, hk, hid, _⟩ := created_row created hr
  exact ⟨gs, n, kind, hb, hk, hid⟩

theorem honoursTree_iff :
    HonoursTree nodes vars target db ↔ ∀ gs n kind, Below nodes none gs n →
      n.nodeType = .step kind → SwitchedOn vars target n → ∀ g ∈ gs, SwitchedOn vars target g := by
  constructor
  · intro h gs n kind hb hk hon
    obtain ⟨r, hr, hid⟩ := created_row_of_step created unique hb hk
    have hpending := (created_row_state created unique hb hr hid).1 hon
    exact ((h gs n kind hb hk r hr hid).1.mp hpending).2
  · intro h gs n kind hb hk r hr hid
    obtain ⟨hon, hoff⟩ := created_row_state created unique hb hr hid
    by_cases hn : SwitchedOn vars target n
    · have hrun : Runnable vars target gs n := ⟨hn, h gs n kind hb hk hn⟩
      exact ⟨iff_of_true (hon hn) hrun, fun hnot => absurd hrun hnot⟩
    · have hskip := hoff hn
      refine ⟨iff_of_false ?_ fun hrun => hn hrun.1, fun _ => hskip⟩
      rw [hskip]
      simp

end Created

/-- Creation succeeds on every tree with well-formed conditions, and the plan honours
the tree exactly when every step that is switched on has only groups above it that
are switched on. -/
theorem createRunFromVersion_honours_tree_iff (ids : IdSource) (nodes : List Node)
    (versionId id sequenceId : Uuid) (target vars : Json) (createdBy : Option String) (now : Time)
    (unique : (nodes.map Node.id).Nodup) (wellFormed : ∀ n ∈ nodes, WellFormed n.conditionJson) :
    ∃ db, createRunFromVersion ids versionId (some ⟨id, sequenceId, compiledTree nodes⟩)
        target vars createdBy now = .ok db ∧
      CoversTree nodes db ∧
      (HonoursTree nodes vars target db ↔ ∀ gs n kind, Below nodes none gs n →
        n.nodeType = .step kind → SwitchedOn vars target n → ∀ g ∈ gs, SwitchedOn vars target g) := by
  obtain ⟨db, hdb⟩ := createRunFromVersion_ok ids versionId id sequenceId target vars createdBy now
    wellFormed
  exact ⟨db, hdb, created_coversTree hdb unique, honoursTree_iff hdb unique⟩

end Compiled

def disabledGroup : Node :=
  { id := 1, parentId := none, position := 0, nodeType := .group, name := "Apply", enabled := false }

def enabledStep : Node :=
  { id := 2, parentId := some 1, position := 0, nodeType := .step "apply_wim", name := "Apply OS" }

theorem disabledGroup_wellFormed : ∀ n ∈ [disabledGroup, enabledStep], WellFormed n.conditionJson := by
  simp only [List.mem_cons, List.not_mem_nil, or_false, forall_eq_or_imp, forall_eq]
  exact ⟨.empty rfl, .empty rfl⟩

theorem createRunFromVersion_disabledGroup :
    ∃ db, createRunFromVersion countingIds 0 (some ⟨0, 0, compiledTree [disabledGroup, enabledStep]⟩)
        (.obj []) (.obj []) none 0 = .ok db ∧
      CoversTree [disabledGroup, enabledStep] db ∧
      (HonoursTree [disabledGroup, enabledStep] (.obj []) (.obj []) db ↔
        ∀ gs n kind, Below [disabledGroup, enabledStep] none gs n → n.nodeType = .step kind →
          SwitchedOn (.obj []) (.obj []) n → ∀ g ∈ gs, SwitchedOn (.obj []) (.obj []) g) :=
  createRunFromVersion_honours_tree_iff countingIds [disabledGroup, enabledStep] 0 0 0
    (.obj []) (.obj []) none 0 (by decide) disabledGroup_wellFormed

/-- An enabled step below a disabled group is planned pending. -/
theorem disabledGroup_step_pending :
    ∃ db, createRunFromVersion countingIds 0 (some ⟨0, 0, compiledTree [disabledGroup, enabledStep]⟩)
        (.obj []) (.obj []) none 0 = .ok db ∧
      ¬ HonoursTree [disabledGroup, enabledStep] (.obj []) (.obj []) db := by
  obtain ⟨db, hdb⟩ := createRunFromVersion_ok countingIds 0 0 0 (.obj []) (.obj []) none 0
    disabledGroup_wellFormed
  refine ⟨db, hdb, fun h => ?_⟩
  have hbelow : Below [disabledGroup, enabledStep] none [disabledGroup] enabledStep :=
    .group (g := disabledGroup) (by simp) rfl (.child (n := enabledStep) (by simp))
  have hon := (honoursTree_iff hdb (by decide)).mp h _ _ _ hbelow rfl
    ⟨rfl, ⟨true, "empty"⟩, rfl, rfl⟩ disabledGroup (by simp)
  exact absurd hon.1 (by decide)

end ProxmoxVEAutopilot.TsEngine
