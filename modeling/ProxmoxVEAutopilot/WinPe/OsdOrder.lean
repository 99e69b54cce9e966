import ProxmoxVEAutopilot.Foundation.Lists
import ProxmoxVEAutopilot.WinPe.Numbering
import ProxmoxVEAutopilot.WinPe.Terminal

/-!
# Order of a run's steps

The WinPE steps of a run come first, behind them a prefix of the default OSD actions.
No WinPE step is inserted once the run has left WinPE, and no OSD step before.
-/

namespace ProxmoxVEAutopilot.WinPe

open Foundation
set_option autoImplicit false

variable {db db' : WinpeDb} {runId : Nat}

/-- The primary keys of both tables; a step's key came from the sequence. -/
structure PrimaryKeys (db : WinpeDb) : Prop where
  runs : (db.runs.map ProvisioningRun.id).Nodup
  steps : (db.steps.map RunStep.id).Nodup
  drawn : ∀ s ∈ db.steps, s.id ≤ db.drawn

/-- The columns of a step that only its insertion and a reordering write. -/
def column (s : RunStep) : Nat × Nat × Int × Phase × Action := (s.id, s.runId, s.orderIndex, s.phase, s.action)

def content (s : RunStep) : Phase × Action := (s.phase, s.action)

/-- The WinPE actions, then the first `k` default OSD actions. -/
def Laid (winpe : List Action) (k : Nat) (steps : List RunStep) : Prop :=
  steps.map content = winpe.map (.winpe, ·) ++ (defaultOsdActions.take k).map (.osd, ·)

def Early (state : Option RunState) : Prop := state = some .queued ∨ state = some .awaitingWinpe

structure OsdOrdered (runId : Nat) (db : WinpeDb) : Prop where
  keys : PrimaryKeys db
  numbered : Numbered (stepsOf db runId)
  laid : ∃ winpe k, Laid winpe k (stepsOf db runId) ∧ (Early (stateOf db runId) → k = 0) ∧
    (stateOf db runId = some .done → defaultOsdActions.length ≤ k)

section Frame

/-- Neither inserted nor reordered. -/
structure Frame (db db' : WinpeDb) : Prop where
  runs : db'.runs.map ProvisioningRun.id = db.runs.map ProvisioningRun.id
  steps : db'.steps.map column = db.steps.map column
  drawn : db'.drawn = db.drawn

theorem Frame.map_steps {β : Type} (h : Frame db db') (g : Nat × Nat × Int × Phase × Action → β) :
    db'.steps.map (g ∘ column) = db.steps.map (g ∘ column) := by
  rw [← List.map_map, ← List.map_map, h.steps]

theorem Frame.stepsOf (h : Frame db db') (runId : Nat) :
    (WinPe.stepsOf db' runId).map column = (WinPe.stepsOf db runId).map column := by
  have hfilter := congrArg (List.filter fun c => c.2.1 = runId) h.steps
  rw [List.filter_map, List.filter_map] at hfilter
  exact hfilter

theorem Frame.map_stepsOf {β : Type} (h : Frame db db') (g : Nat × Nat × Int × Phase × Action → β) :
    (WinPe.stepsOf db' runId).map (g ∘ column) = (WinPe.stepsOf db runId).map (g ∘ column) := by
  rw [← List.map_map, ← List.map_map, h.stepsOf]

theorem Frame.keys (h : Frame db db') (hkeys : PrimaryKeys db) : PrimaryKeys db' where
  runs := by
    rw [h.runs]
    exact hkeys.runs
  steps := by
    rw [show db'.steps.map RunStep.id = db.steps.map RunStep.id from h.map_steps fun c => c.1]
    exact hkeys.steps
  drawn := by
    intro s hs
    have hid : s.id ∈ db.steps.map RunStep.id := by
      rw [← show db'.steps.map RunStep.id = db.steps.map RunStep.id from h.map_steps fun c => c.1]
      exact List.mem_map_of_mem hs
    obtain ⟨old, hold, heq⟩ := List.mem_map.mp hid
    rw [h.drawn, ← heq]
    exact hkeys.drawn old hold

/-- A state that is early, or `done`, was so before. -/
def StateStep (a b : Option RunState) : Prop := (Early b → Early a) ∧ (b = some .done → a = some .done)

theorem StateStep.refl (a : Option RunState) : StateStep a a := ⟨id, id⟩

theorem OsdOrdered.frame (h : OsdOrdered runId db) (hframe : Frame db db')
    (hstate : StateStep (stateOf db runId) (stateOf db' runId)) : OsdOrdered runId db' := by
  have hcontent : (stepsOf db' runId).map content = (stepsOf db runId).map content :=
    hframe.map_stepsOf fun c => c.2.2.2
  have horder : (stepsOf db' runId).map RunStep.orderIndex = (stepsOf db runId).map RunStep.orderIndex :=
    hframe.map_stepsOf fun c => c.2.2.1
  have hlength : (stepsOf db' runId).length = (stepsOf db runId).length := by
    simpa using congrArg List.length hcontent
  obtain ⟨winpe, k, hlaid, hearly, hdone⟩ := h.laid
  refine ⟨hframe.keys h.keys, ?_, winpe, k, ?_, ?_, ?_⟩
  · unfold Numbered
    rw [horder, hlength]
    exact h.numbered
  · exact hcontent.trans hlaid
  · exact fun hs => hearly (hstate.1 hs)
  · exact fun hs => hdone (hstate.2 hs)

theorem frame_updateRunStepState (stepId : Nat) {update : RunStep → RunStep}
    (hupdate : ∀ s, column (update s) = column s) : Frame db (updateRunStepState db stepId update) := by
  refine ⟨rfl, ?_, rfl⟩
  simp only [updateRunStepState, Table.modify, List.map_map]
  apply List.map_congr_left
  intro s _
  simp only [Function.comp_apply]
  split
  · exact hupdate s
  · rfl

theorem frame_updateProvisioningRunState (j : Nat) (state : RunState) (lastError : Option String)
    (now : Time) : Frame db (updateProvisioningRunState db j state lastError now) :=
  ⟨Table.map_key_modify fun _ => rfl, rfl, rfl⟩

theorem stateStep_update {j : Nat} {state : RunState} (hearly : ¬ Early (some state))
    (hdone : state ≠ .done) (lastError : Option String) (now : Time) :
    StateStep (stateOf db runId) (stateOf (updateProvisioningRunState db j state lastError now) runId) := by
  rw [stateOf_update]
  cases hstate : stateOf db runId with
  | none => exact StateStep.refl none
  | some s =>
    by_cases hj : runId = j
    · simp only [Option.map_some, hj, if_true]
      exact ⟨fun h => absurd h hearly, fun h => absurd (Option.some.inj h) hdone⟩
    · simp only [Option.map_some, hj, if_false]
      exact StateStep.refl (some s)

end Frame

section Append

theorem PrimaryKeys.insertStep (h : PrimaryKeys db) (j : Nat) (phase : Phase) (n : Int) (action : Action) :
    PrimaryKeys (WinPe.insertStep db (newStep db j phase n action)) where
  runs := h.runs
  steps := by
    refine nodup_map_snoc h.steps fun s hs => ?_
    have hle := h.drawn s hs
    simp only [newStep]
    omega
  drawn := by
    intro s hs
    rcases List.mem_append.mp hs with hs | hs
    · exact Nat.le_succ_of_le (h.drawn s hs)
    · rw [List.mem_singleton.mp hs]
      exact Nat.le_refl _

theorem PrimaryKeys.appendRunSteps (j : Nat) (phase : Phase) (actions : List Action) (db : WinpeDb)
    (h : PrimaryKeys db) : PrimaryKeys (appendRunSteps j phase actions db).1 := by
  induction actions generalizing db with
  | nil => exact h
  | cons action rest ih => exact ih _ (h.insertStep j phase _ action)

theorem Laid.split {winpe : List Action} {k : Nat} {steps : List RunStep} (h : Laid winpe k steps) :
    ∃ a b, steps = a ++ b ∧ a.map content = winpe.map (.winpe, ·) ∧
      b.map content = (defaultOsdActions.take k).map (.osd, ·) := by
  obtain ⟨a, b, rfl, ha, hb⟩ := List.map_eq_append_iff.mp h
  exact ⟨a, b, rfl, ha, hb⟩

theorem phase_of_content {phase : Phase} {steps : List RunStep} {actions : List Action}
    (h : steps.map content = actions.map (phase, ·)) : ∀ s ∈ steps, s.phase = phase := by
  intro s hs
  have hmem : content s ∈ actions.map (phase, ·) := h ▸ List.mem_map_of_mem hs
  obtain ⟨a, _, ha⟩ := List.mem_map.mp hmem
  exact (Prod.mk.inj ha).1.symm

theorem action_of_content {phase : Phase} {steps : List RunStep} {actions : List Action}
    (h : steps.map content = actions.map (phase, ·)) : steps.map RunStep.action = actions := by
  have hsnd := congrArg (List.map Prod.snd) h
  simpa [Function.comp_def, content] using hsnd

theorem filter_phase {phase other : Phase} {steps : List RunStep} (h : ∀ s ∈ steps, s.phase = other) :
    (steps.filter fun s => s.phase = phase) = if other = phase then steps else [] := by
  split
  · rename_i hphase
    rw [List.filter_eq_self]
    intro s hs
    simp [h s hs, hphase]
  · rename_i hphase
    rw [List.filter_eq_nil_iff]
    intro s hs
    simp [h s hs, hphase]

theorem Laid.osd_part {winpe : List Action} {k : Nat} (h : Laid winpe k (stepsOf db runId))
    (hnumbered : Numbered (stepsOf db runId)) :
    ∃ a, stepsOf db runId = a ++ osdSteps db runId ∧ (∀ s ∈ a, s.phase = .winpe) ∧
      (osdSteps db runId).map content = (defaultOsdActions.take k).map (.osd, ·) := by
  obtain ⟨a, b, hsplit, ha, hb⟩ := h.split
  have hosd : osdSteps db runId = b := by
    unfold osdSteps
    rw [hnumbered.listRunSteps, hsplit, List.filter_append, filter_phase (phase_of_content ha),
      filter_phase (phase_of_content hb)]
    simp
  rw [hosd]
  exact ⟨a, hsplit, phase_of_content ha, hb⟩

theorem Laid.append {winpe : List Action} {k : Nat} {steps new : List RunStep} (h : Laid winpe k steps)
    (n : Nat) (hnew : new.map content = ((defaultOsdActions.drop k).take n).map (.osd, ·)) :
    Laid winpe (k + n) (steps ++ new) := by
  unfold Laid at *
  rw [List.map_append, h, hnew, List.append_assoc, ← List.map_append, List.take_add]

end Append

section Reorder

theorem nodup_defaultOsdOrder : defaultOsdOrder.Nodup := by decide

theorem kindRank_take {k i : Nat} {steps : List RunStep}
    (h : steps.map RunStep.action = defaultOsdActions.take k) (hi : i < steps.length) :
    kindRank defaultOsdOrder steps[i].action.kind = i := by
  have hkind : steps.map (fun s => s.action.kind) = defaultOsdOrder.take k := by
    have hmap := congrArg (List.map Action.kind) h
    rw [List.map_map, List.map_take] at hmap
    exact hmap
  have hlength : i < (defaultOsdOrder.take k).length := by
    rw [← hkind, List.length_map]
    exact hi
  have heq : steps[i].action.kind = (defaultOsdOrder.take k)[i] := by
    simp only [← hkind, List.getElem_map]
  rw [heq, List.getElem_take]
  exact nodup_defaultOsdOrder.idxOf_getElem i (by
    rw [List.length_take] at hlength
    omega)

theorem reorder_osd {winpe : List Action} {k : Nat} (hkeys : PrimaryKeys db)
    (hnumbered : Numbered (stepsOf db runId)) (hlaid : Laid winpe k (stepsOf db runId)) :
    reorderRunPhaseSteps db runId .osd defaultOsdOrder = db := by
  obtain ⟨a, hsplit, _, hosd⟩ := hlaid.osd_part hnumbered
  have hactions := action_of_content hosd
  have hnumber : ∀ (i : Nat) (hi : i < (osdSteps db runId).length),
      ((osdSteps db runId)[i]).orderIndex = (a.length : Int) + i := by
    intro i hi
    rw [hsplit] at hnumbered
    have hindex := hnumbered.getElem (i := a.length + i) (by simpa using hi)
    simpa using hindex
  unfold reorderRunPhaseSteps
  rw [show ((listRunSteps db runId).filter fun s => s.phase = .osd) = osdSteps db runId from rfl]
  have hsorted : (osdSteps db runId).insertionSort (reorderLe defaultOsdOrder) = osdSteps db runId := by
    refine List.Pairwise.insertionSort_eq ?_
    rw [List.pairwise_iff_getElem]
    intro i j hi hj hij
    refine .inl ?_
    rw [kindRank_take hactions hi, kindRank_take hactions hj]
    exact hij
  simp only [hsorted]
  cases hmin : ((osdSteps db runId).map RunStep.orderIndex).min? with
  | none => rfl
  | some base =>
    have hbase : base = a.length := by
      obtain ⟨hmem, hleast⟩ := List.min?_eq_some_iff.mp hmin
      obtain ⟨s, hs, rfl⟩ := List.mem_map.mp hmem
      obtain ⟨i, hi, rfl⟩ := List.mem_iff_getElem.mp hs
      have hfirst := hleast _ (List.mem_map_of_mem (List.getElem_mem (by omega : 0 < _)))
      rw [hnumber i hi, hnumber 0 (by omega)] at hfirst
      rw [hnumber i hi]
      omega
    have hsteps : ∀ s ∈ osdSteps db runId, s ∈ db.steps := by
      intro s hs
      have hmem : s ∈ stepsOf db runId := hsplit ▸ List.mem_append_right a hs
      exact (mem_stepsOf.mp hmem).1
    dsimp only
    rw [renumber_twice hkeys.steps hsteps]
    intro p hp
    obtain ⟨hi, heq⟩ := List.getElem?_eq_some_iff.mp (List.mem_zipIdx_iff_getElem?.mp hp)
    rw [← heq, hnumber p.2 hi, hbase]

theorem reorder_spec (hkeys : PrimaryKeys db) (j : Nat) (phase : Phase) (kinds : List String) :
    ∃ f, (reorderRunPhaseSteps db j phase kinds).steps = db.steps.map f ∧
      (∀ s, ∃ n, f s = { s with orderIndex := n }) ∧ ∀ s ∈ db.steps, s.runId ≠ j → f s = s := by
  unfold reorderRunPhaseSteps
  dsimp only
  split
  · exact ⟨id, by simp, fun s => ⟨s.orderIndex, rfl⟩, fun _ _ _ => rfl⟩
  · rename_i base _
    let rows := ((listRunSteps db j).filter fun s => s.phase = phase).insertionSort (reorderLe kinds)
    refine ⟨_, by rw [renumber_eq_map, renumber_eq_map, List.map_map], ?_, ?_⟩
    · intro s
      obtain ⟨n, hn⟩ := touch_eq (fun i => -((i : Int) + 1)) rows.zipIdx s
      obtain ⟨m, hm⟩ := touch_eq (fun i => base + (i : Int)) rows.zipIdx { s with orderIndex := n }
      refine ⟨m, ?_⟩
      simp only [Function.comp_apply]
      rw [hn, hm]
    · intro s hs hj
      have hother : ∀ p ∈ rows.zipIdx, s.id ≠ p.1.id := by
        intro p hp hid
        have hrow : p.1 ∈ stepsOf db j := by
          have hmem := (List.mem_insertionSort _).mp (List.fst_mem_of_mem_zipIdx hp)
          exact (List.mem_insertionSort _).mp (List.mem_filter.mp hmem).1
        obtain ⟨hstep, hrun⟩ := mem_stepsOf.mp hrow
        rw [List.inj_on_of_nodup_map hkeys.steps hs hstep hid] at hj
        exact hj hrun
      simp only [Function.comp_apply]
      rw [touch_none hother, touch_none hother]

theorem drawn_reorder (j : Nat) (phase : Phase) (kinds : List String) :
    (reorderRunPhaseSteps db j phase kinds).drawn = db.drawn := by
  unfold reorderRunPhaseSteps
  dsimp only
  split
  · rfl
  · rfl

theorem PrimaryKeys.reorder (h : PrimaryKeys db) (j : Nat) (phase : Phase) (kinds : List String) :
    PrimaryKeys (reorderRunPhaseSteps db j phase kinds) := by
  obtain ⟨f, hsteps, hf, _⟩ := reorder_spec h j phase kinds
  have hid : ∀ s, (f s).id = s.id := by
    intro s
    obtain ⟨n, hn⟩ := hf s
    rw [hn]
  refine ⟨?_, ?_, ?_⟩
  · rw [runs_reorder]
    exact h.runs
  · rw [hsteps, List.map_map, show RunStep.id ∘ f = RunStep.id from funext hid]
    exact h.steps
  · intro s hs
    rw [hsteps] at hs
    obtain ⟨old, hold, rfl⟩ := List.mem_map.mp hs
    rw [drawn_reorder, hid]
    exact h.drawn old hold

theorem stepsOf_reorder_of_ne (h : PrimaryKeys db) {j : Nat} (hj : runId ≠ j) (phase : Phase)
    (kinds : List String) : stepsOf (reorderRunPhaseSteps db j phase kinds) runId = stepsOf db runId := by
  obtain ⟨f, hsteps, hf, hsame⟩ := reorder_spec h j phase kinds
  have hrun : (fun s : RunStep => decide (s.runId = runId)) ∘ f = fun s => decide (s.runId = runId) := by
    funext s
    obtain ⟨n, hn⟩ := hf s
    simp only [Function.comp_apply, hn]
  unfold stepsOf
  rw [hsteps, List.filter_map, hrun]
  conv_rhs => rw [← List.map_id (db.steps.filter _)]
  apply List.map_congr_left
  intro s hs
  obtain ⟨hmem, hown⟩ := List.mem_filter.mp hs
  exact hsame s hmem fun h' => hj ((of_decide_eq_true hown).symm.trans h')

end Reorder

section Registers

theorem cut_eq_take (stop : Option Nat) (actions : List Action) :
    cut stop actions = actions.take (stop.getD actions.length) := by
  cases stop with
  | none => exact List.take_length.symm
  | some n => rfl

/-- What a registration of the run itself leaves: the steps there were, in their rows, and
behind them OSD steps; all of these, when it does not end early. -/
structure Extended (runId : Nat) (winpe : List Action) (db db' : WinpeDb) (all : Prop) : Prop where
  keys : PrimaryKeys db'
  numbered : Numbered (stepsOf db' runId)
  appended : ∃ new, stepsOf db' runId = stepsOf db runId ++ new ∧ ∀ s ∈ new, s.phase = .osd
  laid : ∃ k, Laid winpe k (stepsOf db' runId) ∧ (all → defaultOsdActions.length ≤ k)

theorem extended_append {winpe : List Action} {k : Nat} (hkeys : PrimaryKeys db)
    (hnumbered : Numbered (stepsOf db runId)) (hlaid : Laid winpe k (stepsOf db runId)) (stop : Option Nat) :
    Extended runId winpe db (appendRunSteps runId .osd (cut stop (defaultOsdActions.drop k)) db).1
      (stop = none) := by
  obtain ⟨new, hnew, hcontent⟩ :=
    stepsOf_appendRunSteps runId .osd (cut stop (defaultOsdActions.drop k)) db
  refine ⟨hkeys.appendRunSteps _ _ _ _, hnumbered.appendRunSteps _ _, ⟨new, hnew, phase_of_content hcontent⟩,
    k + stop.getD (defaultOsdActions.drop k).length, ?_, ?_⟩
  · rw [hnew]
    refine hlaid.append _ ?_
    rw [← cut_eq_take]
    exact hcontent
  · rintro rfl
    simp only [Option.getD_none, List.length_drop]
    omega

theorem Extended.reorder {winpe : List Action} {all : Prop} (h : Extended runId winpe db db' all) :
    reorderRunPhaseSteps db' runId .osd defaultOsdOrder = db' := by
  obtain ⟨k, hlaid, _⟩ := h.laid
  exact reorder_osd h.keys h.numbered hlaid

theorem take_eq_nil {k : Nat} (h : defaultOsdActions.take k = []) : k = 0 := by
  rcases List.take_eq_nil_iff.mp h with hk | hnil
  · exact hk
  · cases hnil

theorem extended_ensure {winpe : List Action} {k : Nat} (hkeys : PrimaryKeys db)
    (hnumbered : Numbered (stepsOf db runId)) (hlaid : Laid winpe k (stepsOf db runId)) (stop : Option Nat) :
    Extended runId winpe db (ensureOsdActions db stop runId).1 (stop = none) := by
  obtain ⟨_, _, _, hosd⟩ := hlaid.osd_part hnumbered
  have hactions := action_of_content hosd
  have happended := extended_append hkeys hnumbered hlaid stop
  unfold ensureOsdActions
  dsimp only
  split
  · rename_i hempty
    have hnone : k = 0 := by
      rw [List.isEmpty_iff.mp hempty] at hactions
      exact take_eq_nil hactions.symm
    subst hnone
    exact happended
  · have hmissing : (defaultOsdActions.filter fun a =>
        !((osdSteps db runId).map fun s => s.action.kind).contains a.kind) = defaultOsdActions.drop k := by
      have hkinds : ((osdSteps db runId).map fun s => s.action.kind) =
          (defaultOsdActions.take k).map Action.kind := by
        rw [← hactions, List.map_map]
        rfl
      rw [hkinds]
      exact filter_notMem_take nodup_defaultOsdOrder k
    rw [hmissing]
    split
    · exact happended
    · rw [happended.reorder]
      exact happended

theorem stateOf_of_mem (hkeys : PrimaryKeys db) {run : ProvisioningRun} (hrun : run ∈ db.runs) :
    stateOf db run.id = some run.state := by
  unfold stateOf getProvisioningRun
  rw [Table.find?_key hkeys.runs hrun]
  rfl

theorem OsdOrdered.register (h : OsdOrdered runId db) (sequences : Nat → Sequence) (stop : Option Nat)
    (vmUuid : String) : OsdOrdered runId (postRegister db sequences stop vmUuid).1 := by
  unfold postRegister
  cases hfind : findRunByUuidState db vmUuid .awaitingWinpe with
  | none => exact h
  | some run =>
    have hmem := (List.mem_insertionSort _).mp (List.mem_of_mem_head? hfind)
    obtain ⟨hrun, hcond⟩ := List.mem_filter.mp hmem
    have hawaiting : run.state = .awaitingWinpe := by
      rw [Bool.and_eq_true, beq_iff_eq, beq_iff_eq] at hcond
      exact hcond.2
    cases hempty : (listRunSteps db run.id).isEmpty with
    | false => simpa [hempty] using h
    | true =>
      simp only [hempty, if_true]
      let actions := cut stop (compileWinpe (sequences run.sequenceId))
      have hstate : stateOf (appendRunSteps run.id .winpe actions db).1 runId = stateOf db runId :=
        stateOf_congr (runs_appendRunSteps _ _ _ _)
      have hkeys : PrimaryKeys (appendRunSteps run.id .winpe actions db).1 := h.keys.appendRunSteps _ _ _ _
      by_cases hown : runId = run.id
      · subst hown
        have hnil : stepsOf db run.id = [] := by
          have hlist := List.isEmpty_iff.mp hempty
          rwa [h.numbered.listRunSteps] at hlist
        obtain ⟨new, hnew, hcontent⟩ := stepsOf_appendRunSteps run.id .winpe actions db
        refine ⟨hkeys, h.numbered.appendRunSteps _ _, actions, 0, ?_, fun _ => rfl, ?_⟩
        · show Laid actions 0 (stepsOf (appendRunSteps run.id .winpe actions db).1 run.id)
          rw [hnew, hnil]
          refine hcontent.trans ?_
          simp
        · intro hdone
          have hstays : stateOf (appendRunSteps run.id .winpe actions db).1 run.id = some .done := hdone
          rw [hstate, stateOf_of_mem h.keys hrun, hawaiting] at hstays
          cases hstays
      · have hsteps : stepsOf (appendRunSteps run.id .winpe actions db).1 runId = stepsOf db runId :=
          stepsOf_appendRunSteps_of_ne hown _ _
        refine ⟨hkeys, ?_, ?_⟩
        · show Numbered (stepsOf (appendRunSteps run.id .winpe actions db).1 runId)
          rw [hsteps]
          exact h.numbered
        · show ∃ winpe k, Laid winpe k (stepsOf (appendRunSteps run.id .winpe actions db).1 runId) ∧ _
          rw [hsteps]
          obtain ⟨winpe, k, hlaid, hearly, hdone⟩ := h.laid
          refine ⟨winpe, k, hlaid, ?_, ?_⟩
          · exact fun hs => hearly (hstate ▸ hs)
          · exact fun hs => hdone (hstate ▸ hs)

theorem ensure_of_ne {j : Nat} (hkeys : PrimaryKeys db) (hj : runId ≠ j) (stop : Option Nat) :
    PrimaryKeys (ensureOsdActions db stop j).1 ∧ stepsOf (ensureOsdActions db stop j).1 runId = stepsOf db runId := by
  unfold ensureOsdActions
  dsimp only
  split
  · exact ⟨hkeys.appendRunSteps _ _ _ _, stepsOf_appendRunSteps_of_ne hj _ _⟩
  · split
    · exact ⟨hkeys.appendRunSteps _ _ _ _, stepsOf_appendRunSteps_of_ne hj _ _⟩
    · have happended := hkeys.appendRunSteps j .osd (cut stop (defaultOsdActions.filter fun a =>
        !((osdSteps db j).map fun s => s.action.kind).contains a.kind)) db
      refine ⟨happended.reorder _ _ _, ?_⟩
      rw [stepsOf_reorder_of_ne happended hj, stepsOf_appendRunSteps_of_ne hj]

theorem OsdOrdered.ensure (h : OsdOrdered runId db) (j : Nat) (stop : Option Nat)
    (hlate : runId = j → ¬ Early (stateOf db runId)) :
    OsdOrdered runId (ensureOsdActions db stop j).1 := by
  have hstate : stateOf (ensureOsdActions db stop j).1 runId = stateOf db runId :=
    stateOf_congr (runs_ensureOsdActions stop j)
  obtain ⟨winpe, k, hlaid, hearly, hdone⟩ := h.laid
  by_cases hown : runId = j
  · subst hown
    have hext := extended_ensure h.keys h.numbered hlaid stop
    obtain ⟨k', hlaid', _⟩ := hext.laid
    refine ⟨hext.keys, hext.numbered, winpe, k', hlaid', ?_, ?_⟩
    · exact fun hs => absurd (hstate ▸ hs) (hlate rfl)
    · intro hs
      -- all six were there, so the new ones make the same prefix
      have hall := hdone (hstate ▸ hs)
      obtain ⟨new, hnew, _⟩ := hext.appended
      have hlength := congrArg List.length (hnew ▸ hlaid')
      have hbefore := congrArg List.length hlaid
      simp only [List.length_append, List.length_map, List.length_take] at hlength hbefore
      omega
  · obtain ⟨hkeys, hsteps⟩ := ensure_of_ne h.keys hown stop
    refine ⟨hkeys, ?_, ?_⟩
    · rw [hsteps]
      exact h.numbered
    · rw [hsteps, hstate]
      exact ⟨winpe, k, hlaid, hearly, hdone⟩

theorem OsdOrdered.osdRegister (h : OsdOrdered runId db) (stop : Option Nat) (tokenRun : Nat) (now : Time) :
    OsdOrdered runId (postOsdRegister db stop tokenRun now).1 := by
  unfold postOsdRegister
  cases hrun : getProvisioningRun db tokenRun with
  | none => exact h
  | some run =>
    have hstate : stateOf db tokenRun = some run.state := by
      unfold stateOf
      rw [hrun]
      rfl
    dsimp only
    split
    · refine OsdOrdered.ensure ?_ tokenRun stop ?_
      · exact h.frame (frame_updateProvisioningRunState _ _ _ _)
          (stateStep_update (by simp [Early]) (by simp) _ _)
      · rintro rfl
        rw [stateOf_update, hstate]
        simp [Early]
    · rename_i hclient
      refine h.ensure tokenRun stop ?_
      rintro rfl
      rw [hstate, hclient]
      simp [Early]
    · exact h
    · exact h

end Registers

section Calls

/-- What `post_osd_complete` has checked when it ends a run. -/
structure OsdDone (db : WinpeDb) (runId : Nat) : Prop where
  required : ∀ kind ∈ requiredOsdCompletionKinds, ∃ s ∈ osdSteps db runId, s.action.kind = kind
  ok : ∀ s ∈ osdSteps db runId, s.state = .ok

theorem osdComplete_cases {tokenRun : Nat} {now : Time} (h : postOsdComplete db tokenRun now = .ok db') :
    db' = db ∨ OsdDone db tokenRun ∧ db' = updateProvisioningRunState db tokenRun .done none now := by
  unfold postOsdComplete at h
  cases hrun : getProvisioningRun db tokenRun with
  | none =>
    rw [hrun] at h
    cases h
  | some run =>
    rw [hrun] at h
    dsimp only at h
    split_ifs at h with hterm hclient hnone hincomplete hmissing hhandoff
    · exact .inl (Except.ok.inj h).symm
    · refine .inr ⟨⟨?_, ?_⟩, (Except.ok.inj h).symm⟩
      · intro kind hkind
        simp only [Bool.not_eq_true', Bool.not_eq_false, List.isEmpty_iff, List.filter_eq_nil_iff] at hmissing
        have hfound := hmissing kind hkind
        simp only [List.contains_eq_mem, decide_eq_true_eq, List.mem_map] at hfound
        exact hfound
      · intro s hs
        simp only [Bool.not_eq_true', Bool.not_eq_false, List.isEmpty_iff, List.filter_eq_nil_iff] at hincomplete
        simpa using hincomplete s hs

theorem OsdOrdered.osdComplete (h : OsdOrdered runId db) (tokenRun : Nat) (now : Time) :
    OsdOrdered runId (answered db (postOsdComplete db tokenRun now)) := by
  cases hres : postOsdComplete db tokenRun now with
  | error => exact h
  | ok db' =>
    rcases osdComplete_cases hres with rfl | ⟨hdone, rfl⟩
    · exact h
    have hframe : Frame db (updateProvisioningRunState db tokenRun .done none now) :=
      frame_updateProvisioningRunState _ _ _ _
    by_cases hown : runId = tokenRun
    · subst hown
      obtain ⟨winpe, k, hlaid, hearly, _⟩ := h.laid
      have hall : defaultOsdActions.length ≤ k := by
        by_contra hk
        obtain ⟨s, hs, hkind⟩ := hdone.required "handoff_to_oobe" (by decide)
        obtain ⟨_, _, _, hosd⟩ := hlaid.osd_part h.numbered
        have hmem : s.action ∈ defaultOsdActions.take k := by
          rw [← action_of_content hosd]
          exact List.mem_map_of_mem hs
        have hfive : k ≤ 5 := Nat.le_of_lt_succ (by simpa [defaultOsdActions] using hk)
        have hfirst : s.action.kind ∈ (defaultOsdActions.take 5).map Action.kind :=
          List.mem_map_of_mem (List.take_subset_take_left _ hfive hmem)
        rw [hkind] at hfirst
        revert hfirst
        decide
      have hcontent : (stepsOf (updateProvisioningRunState db runId .done none now) runId) = stepsOf db runId := rfl
      refine ⟨hframe.keys h.keys, hcontent ▸ h.numbered, winpe, k, hcontent ▸ hlaid, ?_, fun _ => hall⟩
      intro hs
      rw [answered, stateOf_update] at hs
      cases hstate : stateOf db runId with
      | none => simp [hstate, Early] at hs
      | some s => simp [hstate, Early] at hs
    · refine h.frame hframe ?_
      rw [answered, stateOf_update_of_ne hown]
      exact StateStep.refl _

theorem OsdOrdered.recordResult (h : OsdOrdered runId db) (label : String) (step : RunStep)
    (body : StepResultBody) (now : Time) :
    OsdOrdered runId (answered db (recordResult db label step body now)) := by
  have hstep : ∀ update : RunStep → RunStep, (∀ s, column (update s) = column s) →
      OsdOrdered runId (updateRunStepState db step.id update) := by
    intro update hupdate
    refine h.frame (frame_updateRunStepState _ hupdate) ?_
    rw [stateOf_updateRunStepState]
    exact StateStep.refl _
  unfold WinPe.recordResult
  split_ifs
  · exact hstep _ fun _ => rfl
  · exact hstep _ fun _ => rfl
  · refine (hstep (fun s => s.finish .error (some (body.error.getD "")) now) fun _ => rfl).frame
      (frame_updateProvisioningRunState _ _ _ _) ?_
    exact stateStep_update (by simp [Early]) (by simp) _ _
  · exact h

theorem OsdOrdered.identity (h : OsdOrdered runId db) (allowed : Bool) (j : Nat) (vmid : Int)
    (vmUuid : String) : OsdOrdered runId (answered db (postIdentity db allowed j vmid vmUuid)) := by
  have hkeep : ∀ r : ProvisioningRun, (if r.state = .queued then
      { r with vmid := some vmid, vmUuid := some (normalizeUuid vmUuid), state := .awaitingWinpe }
      else r).id = r.id := by
    intro r
    split
    · rfl
    · rfl
  have hset : OsdOrdered runId (setProvisioningRunIdentity db j vmid vmUuid) := by
    refine h.frame ⟨Table.map_key_modify hkeep, rfl, rfl⟩ ?_
    unfold setProvisioningRunIdentity
    rw [stateOf_modify db.steps db.drawn j hkeep]
    unfold stateOf
    cases getProvisioningRun db runId with
    | none => exact StateStep.refl none
    | some r =>
      simp only [Option.map_some]
      split
      · split
        · rename_i hqueued
          rw [hqueued]
          exact ⟨fun _ => .inl rfl, by simp⟩
        · exact StateStep.refl _
      · exact StateStep.refl _
  unfold postIdentity
  split
  · exact h
  · split
    · exact h
    · dsimp only [answered]
      split
      · exact hset
      · exact h

theorem OsdOrdered.winpeDone (h : OsdOrdered runId db) (tokenRun : Nat) (detached : Bool) (now : Time) :
    OsdOrdered runId (answered db (postDone db tokenRun detached now)) := by
  unfold postDone
  split
  · exact h
  · split_ifs
    · exact h
    · exact h
    · exact h
    · exact h.frame (frame_updateProvisioningRunState _ _ _ _)
        (stateStep_update (by simp [Early]) (by simp) _ _)

theorem OsdOrdered.runFail (h : OsdOrdered runId db) (j : Nat) (reason : String) (now : Time) :
    OsdOrdered runId (answered db (postRunFail db j reason now)) := by
  unfold postRunFail postRunOutcome
  split
  · exact h
  · dsimp only [answered]
    split
    · exact h
    · exact h.frame (frame_updateProvisioningRunState _ _ _ _)
        (stateStep_update (by simp [Early]) (by simp) _ _)

theorem OsdOrdered.runComplete {j : Nat} (h : OsdOrdered runId db) (hj : runId ≠ j) (now : Time) :
    OsdOrdered runId (answered db (postRunComplete db j now)) := by
  unfold postRunComplete postRunOutcome
  split
  · exact h
  · dsimp only [answered]
    split
    · exact h
    · refine h.frame (frame_updateProvisioningRunState _ _ _ _) ?_
      rw [stateOf_update_of_ne hj]
      exact StateStep.refl _

theorem OsdOrdered.sweep (h : OsdOrdered runId db) (ttlSeconds : Nat) (cutoff now : Time) :
    OsdOrdered runId (sweepStaleRuns db ttlSeconds cutoff now) := by
  refine h.frame ⟨?_, ?_, rfl⟩ ?_
  · simp only [sweepStaleRuns, List.map_map]
    apply List.map_congr_left
    intro r _
    simp only [Function.comp_apply]
    split
    · rfl
    · rfl
  · simp only [sweepStaleRuns, List.map_map]
    apply List.map_congr_left
    intro s _
    simp only [Function.comp_apply]
    split
    · rfl
    · rfl
  · unfold sweepStaleRuns stateOf getProvisioningRun
    rw [Table.find?_map_key]
    · cases db.runs.find? fun r => r.id = runId with
      | none => exact StateStep.refl none
      | some r =>
        simp only [Option.map_some]
        split
        · exact ⟨by simp [Early], by simp⟩
        · exact StateStep.refl _
    · intro r
      split
      · rfl
      · rfl

/-- `post_run_complete` ends a run without a look at its steps. -/
def NotForced (runId : Nat) (_ : WinpeDb) (c : Call × Time) : Prop := c.1 ≠ .runComplete runId

theorem OsdOrdered.exec {sequences : Nat → Sequence} {c : Call × Time} (h : OsdOrdered runId db)
    (hstep : Guarded (NotForced runId) (exec sequences) db c db') : OsdOrdered runId db' := by
  obtain ⟨hforced, rfl⟩ := hstep
  obtain ⟨c, now⟩ := c
  cases c with
  | identity allowed j vmid vmUuid => exact h.identity allowed j vmid vmUuid
  | register stop vmUuid => exact h.register sequences stop vmUuid
  | winpeDone tokenRun detached => exact h.winpeDone tokenRun detached now
  | osdRegister stop tokenRun => exact h.osdRegister stop tokenRun now
  | osdComplete tokenRun => exact h.osdComplete tokenRun now
  | runFail j reason => exact h.runFail j reason now
  | runComplete j =>
    refine h.runComplete ?_ now
    rintro rfl
    exact hforced rfl
  | sweep ttlSeconds cutoff => exact h.sweep ttlSeconds cutoff now
  | stepResult tokenRun stepId body =>
    simp only [WinPe.exec, postStepResult]
    split
    · exact h
    · split
      · exact h
      · exact h.recordResult _ _ body now
  | osdStepResult tokenRun stepId body =>
    simp only [WinPe.exec, postOsdStepResult]
    split
    · exact h
    · split
      · exact h
      · split
        · exact h
        · exact h.recordResult _ _ body now

end Calls

section Order

theorem OsdOrdered.phases (h : OsdOrdered runId db) {w o : RunStep} (hw : w ∈ stepsOf db runId)
    (ho : o ∈ stepsOf db runId) (hwinpe : w.phase = .winpe) (hosd : o.phase = .osd) :
    w.orderIndex < o.orderIndex := by
  obtain ⟨winpe, k, hlaid, _⟩ := h.laid
  obtain ⟨a, b, hsplit, ha, hb⟩ := hlaid.split
  have hpairs := h.numbered.pairwise
  rw [hsplit, List.pairwise_append] at hpairs
  rw [hsplit, List.mem_append] at hw ho
  have hwa : w ∈ a := by
    refine hw.resolve_right fun hwb => ?_
    rw [phase_of_content hb w hwb] at hwinpe
    cases hwinpe
  have hob : o ∈ b := by
    refine ho.resolve_left fun hoa => ?_
    rw [phase_of_content ha o hoa] at hosd
    cases hosd
  exact hpairs.2.2 w hwa o hob

theorem kinds_of_all {winpe : List Action} {k : Nat} (hnumbered : Numbered (stepsOf db runId))
    (hlaid : Laid winpe k (stepsOf db runId)) (hall : defaultOsdActions.length ≤ k) :
    (osdSteps db runId).map (fun s => s.action.kind) = defaultOsdOrder := by
  obtain ⟨_, _, _, hosd⟩ := hlaid.osd_part hnumbered
  rw [List.take_of_length_le hall] at hosd
  rw [defaultOsdOrder, ← action_of_content hosd, List.map_map]
  rfl

theorem winpe_of_appended {new : List RunStep} (happend : stepsOf db' runId = stepsOf db runId ++ new)
    (hosd : ∀ s ∈ new, s.phase = .osd) :
    (stepsOf db' runId).filter (fun s => s.phase = .winpe) =
      (stepsOf db runId).filter fun s => s.phase = .winpe := by
  rw [happend, List.filter_append, filter_phase hosd]
  simp

theorem OsdOrdered.registered (h : OsdOrdered runId db) {stop : Option Nat} {now : Time}
    {actions : List HandedAction} (hok : (postOsdRegister db stop runId now).2 = .ok actions) :
    (osdSteps (postOsdRegister db stop runId now).1 runId).map (fun s => s.action.kind) = defaultOsdOrder ∧
      (stepsOf (postOsdRegister db stop runId now).1 runId).filter (fun s => s.phase = .winpe) =
        (stepsOf db runId).filter fun s => s.phase = .winpe := by
  obtain ⟨winpe, k, hlaid, _, hdone⟩ := h.laid
  have hensure : ∀ db₀ : WinpeDb, PrimaryKeys db₀ → stepsOf db₀ runId = stepsOf db runId →
      (ensureOsdActions db₀ stop runId).2 = .ok actions →
      (osdSteps (ensureOsdActions db₀ stop runId).1 runId).map (fun s => s.action.kind) = defaultOsdOrder ∧
        (stepsOf (ensureOsdActions db₀ stop runId).1 runId).filter (fun s => s.phase = .winpe) =
          (stepsOf db runId).filter fun s => s.phase = .winpe := by
    intro db₀ hkeys hsteps hanswer
    have hstop : stop = none := by
      cases stop with
      | none => rfl
      | some n =>
        unfold ensureOsdActions buildActions at hanswer
        dsimp only at hanswer
        split at hanswer
        · cases hanswer
        · cases hanswer
    have hext := extended_ensure hkeys (hsteps ▸ h.numbered) (hsteps ▸ hlaid) stop
    obtain ⟨k', hlaid', hall⟩ := hext.laid
    obtain ⟨new, hnew, hosd⟩ := hext.appended
    exact ⟨kinds_of_all hext.numbered hlaid' (hall hstop), winpe_of_appended (hsteps ▸ hnew) hosd⟩
  unfold postOsdRegister at hok ⊢
  cases hrun : getProvisioningRun db runId with
  | none =>
    rw [hrun] at hok
    cases hok
  | some run =>
    rw [hrun] at hok
    have hstate : stateOf db runId = some run.state := by
      unfold stateOf
      rw [hrun]
      rfl
    dsimp only at hok ⊢
    cases hcase : run.state with
    | awaitingWindowsSetup =>
      rw [hcase] at hok
      exact hensure _ ((frame_updateProvisioningRunState _ _ _ _).keys h.keys) rfl hok
    | awaitingOsdClient =>
      rw [hcase] at hok
      exact hensure db h.keys rfl hok
    | done => exact ⟨kinds_of_all h.numbered hlaid (hdone (hcase ▸ hstate)), rfl⟩
    | _ =>
      rw [hcase] at hok
      cases hok

/-- Along every sequence of calls for a run that began without steps. -/
theorem osd_steps_stay_in_order {sequences : Nat → Sequence} {calls : List (Call × Time)}
    (hkeys : PrimaryKeys db) (hearly : Early (stateOf db runId)) (hnone : stepsOf db runId = [])
    (hrun : Run (Guarded (NotForced runId) (exec sequences)) db calls db') :
    ((stepsOf db' runId).map RunStep.orderIndex).Nodup ∧
    (∀ w ∈ stepsOf db' runId, ∀ o ∈ stepsOf db' runId, w.phase = .winpe → o.phase = .osd →
      w.orderIndex < o.orderIndex) ∧
    (∀ stop now actions, (postOsdRegister db' stop runId now).2 = .ok actions →
      (osdSteps (postOsdRegister db' stop runId now).1 runId).map (fun s => s.action.kind) = defaultOsdOrder ∧
        (stepsOf (postOsdRegister db' stop runId now).1 runId).filter (fun s => s.phase = .winpe) =
          (stepsOf db' runId).filter fun s => s.phase = .winpe) ∧
    ∀ now db'', postOsdComplete db' runId now = .ok db'' → stateOf db' runId ≠ some .done →
      stateOf db'' runId = some .done → OsdDone db' runId := by
  have hordered : OsdOrdered runId db' := by
    refine hrun.invariant (P := OsdOrdered runId) (fun db c db' h hstep => h.exec hstep) ?_
    refine ⟨hkeys, by simp [Numbered, hnone], [], 0, by simp [Laid, hnone], fun _ => rfl, ?_⟩
    intro hdone
    rw [hdone] at hearly
    rcases hearly with h | h
    · cases h
    · cases h
  refine ⟨hordered.numbered.nodup, ?_, ?_, ?_⟩
  · exact fun w hw o ho hwinpe hosd => hordered.phases hw ho hwinpe hosd
  · exact fun stop now actions hok => hordered.registered hok
  · intro now db'' hok hnot hdone
    rcases osdComplete_cases hok with rfl | ⟨hgate, _⟩
    · exact absurd hdone hnot
    · exact hgate

def awaitingRun : WinpeDb where
  runs := [{ id := 1, sequenceId := 1, state := .awaitingWinpe, vmid := some 100, vmUuid := some "" }]

def resumedOsd : List (Call × Time) :=
  [(.register none "", 1), (.winpeDone 1 true, 2), (.osdRegister (some 2) 1, 3), (.osdRegister none 1, 4)]

theorem resumed_osd_steps_in_order :
    Early (stateOf awaitingRun 1) ∧
      ((stepsOf (resumedOsd.foldl (exec fun _ => {}) awaitingRun) 1).map RunStep.orderIndex).Nodup := by
  have hearly : Early (stateOf awaitingRun 1) := .inr rfl
  have hrun : Run (Guarded (NotForced 1) (exec fun _ => {})) awaitingRun resumedOsd
      (resumedOsd.foldl (exec fun _ => {}) awaitingRun) :=
    Run.of_replays (by simp [resumedOsd, Replays, NotForced])
  refine ⟨hearly, (osd_steps_stay_in_order ⟨?_, ?_, ?_⟩ hearly rfl hrun).1⟩
  · decide
  · exact List.nodup_nil
  · intro s hs
    cases hs

end Order

end ProxmoxVEAutopilot.WinPe
