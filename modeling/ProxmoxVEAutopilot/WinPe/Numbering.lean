import ProxmoxVEAutopilot.WinPe.Runs

/-!
# Numbers of run steps

`append_run_step` numbers the steps of a run from zero on, in the order of their rows.
Where the rows of a phase are numbered so, `reorder_run_phase_steps` puts every number
back where it was.
-/

namespace ProxmoxVEAutopilot.WinPe

open Foundation
set_option autoImplicit false

def Numbered (steps : List RunStep) : Prop :=
  steps.map RunStep.orderIndex = (List.range steps.length).map Int.ofNat

section Numbered
variable {steps l : List RunStep} {s : RunStep}

theorem numbered_append : Numbered (l ++ [s]) ↔ Numbered l ∧ s.orderIndex = l.length := by
  unfold Numbered
  rw [List.map_append, List.length_append, List.length_singleton, List.range_succ, List.map_append]
  constructor
  · intro h
    obtain ⟨hl, hs⟩ := List.append_inj h (by simp)
    exact ⟨hl, by simpa using hs⟩
  · intro ⟨hl, hs⟩
    rw [hl]
    simp [hs]

theorem Numbered.getElem {i : Nat} (h : Numbered l) (hi : i < l.length) : l[i].orderIndex = i := by
  have heq := congrArg (fun ys => ys[i]?) h
  simpa [hi] using heq

theorem Numbered.pairwise (h : Numbered l) : l.Pairwise fun a b => a.orderIndex < b.orderIndex := by
  rw [List.pairwise_iff_getElem]
  intro i j hi hj hij
  rw [h.getElem hi, h.getElem hj]
  omega

theorem Numbered.nodup (h : Numbered l) : (l.map RunStep.orderIndex).Nodup := by
  rw [h]
  exact List.nodup_range.map fun a b hab => Int.ofNat.inj hab

theorem Numbered.listRunSteps {db : WinpeDb} {runId : Nat} (h : Numbered (stepsOf db runId)) :
    listRunSteps db runId = stepsOf db runId := by
  refine List.Pairwise.insertionSort_eq ?_
  exact h.pairwise.imp fun hab => Int.le_of_lt hab

theorem Numbered.nextOrder {db : WinpeDb} {runId : Nat} (h : Numbered (stepsOf db runId)) :
    nextOrder db runId = (stepsOf db runId).length := by
  have hupper : ∀ s ∈ stepsOf db runId, s.orderIndex < WinPe.nextOrder db runId := fun s hs => lt_nextOrder hs
  cases hmax : ((stepsOf db runId).map RunStep.orderIndex).max? with
  | none =>
    have hnil : stepsOf db runId = [] := by simpa using List.max?_eq_none_iff.mp hmax
    simp [WinPe.nextOrder, hnil]
  | some m =>
    obtain ⟨hmem, hmax'⟩ := List.max?_eq_some_iff.mp hmax
    obtain ⟨s, hs, rfl⟩ := List.mem_map.mp hmem
    obtain ⟨i, hi, rfl⟩ := List.mem_iff_getElem.mp hs
    -- the largest number is that of the last row
    have hlast := hmax' _ (List.mem_map_of_mem (List.getElem_mem (by omega : (stepsOf db runId).length - 1 < _)))
    rw [h.getElem, h.getElem hi] at hlast
    simp only [WinPe.nextOrder, hmax, h.getElem hi, Option.map_some, Option.getD_some]
    omega

end Numbered

section Append
variable {db : WinpeDb} {runId j : Nat} {phase : Phase}

theorem stepsOf_insertStep (step : RunStep) : stepsOf (insertStep db step) runId =
    stepsOf db runId ++ if step.runId = runId then [step] else [] := by
  simp only [stepsOf, insertStep, List.filter_append]
  congr 1
  split
  · rename_i h
    simp [h]
  · rename_i h
    simp [h]

theorem Numbered.appendRunStep (h : Numbered (stepsOf db runId)) (action : Action) :
    Numbered (stepsOf (appendRunStep db runId phase action).1 runId) := by
  have happend : stepsOf (WinPe.appendRunStep db runId phase action).1 runId =
      stepsOf db runId ++ [newStep db runId phase (WinPe.nextOrder db runId) action] := by
    simp [WinPe.appendRunStep, stepsOf_insertStep, newStep]
  rw [happend, numbered_append]
  exact ⟨h, h.nextOrder⟩

theorem Numbered.appendRunSteps (actions : List Action) (db : WinpeDb) (h : Numbered (stepsOf db runId)) :
    Numbered (stepsOf (appendRunSteps runId phase actions db).1 runId) := by
  induction actions generalizing db with
  | nil => exact h
  | cons action rest ih => exact ih _ (h.appendRunStep action)

theorem appendRunSteps_spec (j : Nat) (phase : Phase) (actions : List Action) (db : WinpeDb) :
    ∃ new, (appendRunSteps j phase actions db).1.steps = db.steps ++ new ∧
      new.map (fun s => (s.runId, s.phase, s.action)) = actions.map (j, phase, ·) := by
  induction actions generalizing db with
  | nil => exact ⟨[], by simp [appendRunSteps], rfl⟩
  | cons action rest ih =>
    obtain ⟨new, hnew, hmap⟩ := ih (appendRunStep db j phase action).1
    refine ⟨newStep db j phase (nextOrder db j) action :: new, ?_, ?_⟩
    · simp only [appendRunSteps, hnew]
      simp [appendRunStep, insertStep]
    · simpa [newStep] using hmap

theorem stepsOf_appendRunSteps (j : Nat) (phase : Phase) (actions : List Action) (db : WinpeDb) :
    ∃ new, stepsOf (appendRunSteps j phase actions db).1 j = stepsOf db j ++ new ∧
      new.map (fun s => (s.phase, s.action)) = actions.map (phase, ·) := by
  obtain ⟨new, hsteps, hmap⟩ := appendRunSteps_spec j phase actions db
  have hown : new.filter (fun s => s.runId = j) = new := by
    rw [List.filter_eq_self]
    intro s hs
    have hmem := List.mem_map_of_mem (f := fun s : RunStep => (s.runId, s.phase, s.action)) hs
    rw [hmap] at hmem
    obtain ⟨a, _, ha⟩ := List.mem_map.mp hmem
    simp [← (Prod.mk.inj ha).1]
  refine ⟨new, by simp only [stepsOf, hsteps, List.filter_append, hown], ?_⟩
  have hsnd := congrArg (List.map Prod.snd) hmap
  simpa [Function.comp_def] using hsnd

theorem stepsOf_appendRunSteps_of_ne (hj : runId ≠ j) (actions : List Action) (db : WinpeDb) :
    stepsOf (appendRunSteps j phase actions db).1 runId = stepsOf db runId := by
  induction actions generalizing db with
  | nil => rfl
  | cons action rest ih =>
    refine (ih _).trans ?_
    simp [stepsOf_insertStep, newStep, Ne.symm hj]

end Append

section Renumber
variable {index : Nat → Int} {ps : List (RunStep × Nat)} {s : RunStep} {v : Int}

def touch (index : Nat → Int) (s : RunStep) (p : RunStep × Nat) : RunStep :=
  if s.id = p.1.id then { s with orderIndex := index p.2 } else s

theorem renumber_eq_map (index : Nat → Int) (sorted steps : List RunStep) :
    renumber index sorted steps = steps.map fun s => sorted.zipIdx.foldl (touch index) s := by
  unfold renumber
  induction sorted.zipIdx generalizing steps with
  | nil => simp
  | cons p ps ih =>
    rw [List.foldl_cons, ih, Table.modify, List.map_map]
    rfl

theorem touch_eq (index : Nat → Int) (ps : List (RunStep × Nat)) :
    ∀ s, ∃ n, ps.foldl (touch index) s = { s with orderIndex := n } := by
  induction ps with
  | nil => exact fun s => ⟨s.orderIndex, rfl⟩
  | cons p ps ih =>
    intro s
    obtain ⟨n, hn⟩ := ih (touch index s p)
    refine ⟨n, ?_⟩
    rw [List.foldl_cons, hn]
    unfold touch
    split
    · rfl
    · rfl

theorem touch_none (h : ∀ p ∈ ps, s.id ≠ p.1.id) : ps.foldl (touch index) s = s := by
  induction ps with
  | nil => rfl
  | cons p ps ih =>
    rw [List.foldl_cons, touch, if_neg (h p List.mem_cons_self)]
    exact ih fun q hq => h q (List.mem_cons_of_mem p hq)

theorem touch_some (h : ∃ p ∈ ps, s.id = p.1.id) (hv : ∀ p ∈ ps, s.id = p.1.id → index p.2 = v) :
    ps.foldl (touch index) s = { s with orderIndex := v } := by
  induction ps generalizing s with
  | nil => simp at h
  | cons p ps ih =>
    rw [List.foldl_cons]
    have hrest : ∀ q ∈ ps, s.id = q.1.id → index q.2 = v := fun q hq => hv q (List.mem_cons_of_mem p hq)
    by_cases hp : s.id = p.1.id
    · rw [touch, if_pos hp, hv p List.mem_cons_self hp]
      by_cases hlater : ∃ q ∈ ps, s.id = q.1.id
      · exact ih hlater hrest
      · refine touch_none fun q hq heq => ?_
        exact hlater ⟨q, hq, heq⟩
    · rw [touch, if_neg hp]
      refine ih ?_ hrest
      obtain ⟨q, hq, hid⟩ := h
      rcases List.mem_cons.mp hq with rfl | hq
      · exact absurd hid hp
      · exact ⟨q, hq, hid⟩

theorem renumber_twice {base : Int} {first : Nat → Int} {rows steps : List RunStep}
    (hids : (steps.map RunStep.id).Nodup) (hrows : ∀ s ∈ rows, s ∈ steps)
    (hnumbers : ∀ p ∈ rows.zipIdx, p.1.orderIndex = base + (p.2 : Nat)) :
    renumber (fun i => base + (i : Nat)) rows (renumber first rows steps) = steps := by
  rw [renumber_eq_map, renumber_eq_map, List.map_map]
  conv_rhs => rw [← List.map_id steps]
  apply List.map_congr_left
  intro s hs
  simp only [Function.comp_apply, id_eq]
  by_cases hnamed : ∃ p ∈ rows.zipIdx, s.id = p.1.id
  · obtain ⟨n, hn⟩ := touch_eq first rows.zipIdx s
    have hback : rows.zipIdx.foldl (touch fun i => base + (i : Nat)) { s with orderIndex := n } =
        { s with orderIndex := s.orderIndex } := by
      refine touch_some hnamed fun p hp hid => ?_
      have hrow : p.1 ∈ steps := hrows _ (List.fst_mem_of_mem_zipIdx hp)
      rw [← hnumbers p hp, List.inj_on_of_nodup_map hids hs hrow hid]
    rw [hn, hback]
  · have hother : ∀ p ∈ rows.zipIdx, s.id ≠ p.1.id := fun p hp hid => hnamed ⟨p, hp, hid⟩
    rw [touch_none hother, touch_none hother]

end Renumber

end ProxmoxVEAutopilot.WinPe
