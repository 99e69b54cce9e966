import ProxmoxVEAutopilot.Foundation.Runs
import ProxmoxVEAutopilot.WinPe.Runs

/-!
# Terminal states of legacy runs

Nine of the ten entry points read the run, or are filtered by the state they look for.
A reported error sets `failed` without a look at the run it fails.
-/

namespace ProxmoxVEAutopilot.WinPe

open Foundation
set_option autoImplicit false

variable {db : WinpeDb} {runId : Nat} {s : RunState}

def stateOf (db : WinpeDb) (runId : Nat) : Option RunState :=
  (getProvisioningRun db runId).map ProvisioningRun.state

def Terminal (state : Option RunState) : Prop := ∃ s ∈ state, s.terminal

instance (state : Option RunState) : Decidable (Terminal state) :=
  match state with
  | none => isFalse fun h => by obtain ⟨s, hs, _⟩ := h; cases hs
  | some s => decidable_of_iff (s.terminal = true) ⟨fun h => ⟨s, rfl, h⟩, fun ⟨_, hs, h⟩ => by cases hs; exact h⟩

/-- The call is a report of an error that is accepted for a step of the run. -/
def AcceptedError (db : WinpeDb) (runId : Nat) : Call → Prop
  | .stepResult tokenRun stepId body =>
    body.state = "error" ∧ tokenRun = runId ∧ ∃ step ∈ getRunStep db stepId, step.runId = runId
  | .osdStepResult tokenRun stepId body =>
    body.state = "error" ∧ tokenRun = runId ∧
      ∃ step ∈ getRunStep db stepId, step.runId = runId ∧ step.phase = .osd
  | _ => False

/-- No error is accepted for a step of the run while the run is `done`. -/
def NoLateError (runId : Nat) (db : WinpeDb) (c : Call × Time) : Prop :=
  stateOf db runId = some .done → ¬ AcceptedError db runId c.1

section Store

theorem stateOf_congr {db' : WinpeDb} (h : db'.runs = db.runs) : stateOf db' runId = stateOf db runId := by
  unfold stateOf getProvisioningRun
  rw [h]

theorem stateOf_modify (steps : List RunStep) (drawn j : Nat) {f : ProvisioningRun → ProvisioningRun}
    (hf : ∀ r, (f r).id = r.id) :
    stateOf ⟨Table.modify ProvisioningRun.id db.runs j f, steps, drawn⟩ runId =
      (getProvisioningRun db runId).map fun r => if runId = j then (f r).state else r.state := by
  unfold stateOf getProvisioningRun
  rw [Table.find?_modify hf, Option.map_map]
  congr 1
  funext r
  simp only [Function.comp_apply]
  split
  · rfl
  · rfl

theorem stateOf_update (j : Nat) (state : RunState) (lastError : Option String) (now : Time) :
    stateOf (updateProvisioningRunState db j state lastError now) runId =
      (stateOf db runId).map fun s => if runId = j then state else s := by
  refine (stateOf_modify db.steps db.drawn j ?_).trans ?_
  · exact fun _ => rfl
  · rw [stateOf, Option.map_map]
    rfl

theorem stateOf_update_of_ne {j : Nat} (hj : runId ≠ j) (state : RunState) (lastError : Option String)
    (now : Time) : stateOf (updateProvisioningRunState db j state lastError now) runId = stateOf db runId := by
  simp [stateOf_update, hj]

@[simp] theorem stateOf_updateRunStepState (stepId : Nat) (update : RunStep → RunStep) :
    stateOf (updateRunStepState db stepId update) runId = stateOf db runId := stateOf_congr rfl

@[simp] theorem runs_appendRunSteps (j : Nat) (phase : Phase) (actions : List Action) (db : WinpeDb) :
    (appendRunSteps j phase actions db).1.runs = db.runs := by
  induction actions generalizing db with
  | nil => rfl
  | cons action rest ih => exact ih _

@[simp] theorem runs_buildActions (stop : Option Nat) (j : Nat) (phase : Phase) (actions : List Action) :
    (buildActions db stop j phase actions).1.runs = db.runs := runs_appendRunSteps j phase _ db

@[simp] theorem runs_reorder (j : Nat) (phase : Phase) (kinds : List String) :
    (reorderRunPhaseSteps db j phase kinds).runs = db.runs := by
  unfold reorderRunPhaseSteps
  dsimp only
  split
  · rfl
  · rfl

@[simp] theorem runs_ensureOsdActions (stop : Option Nat) (j : Nat) :
    (ensureOsdActions db stop j).1.runs = db.runs := by
  unfold ensureOsdActions
  dsimp only
  split
  · exact runs_buildActions stop j .osd _
  · split
    · exact runs_appendRunSteps j .osd _ db
    · rw [runs_reorder, runs_appendRunSteps]

end Store

section Calls
variable (hs : stateOf db runId = some s) (hterm : s.terminal = true)
include hs

theorem stateOf_recordResult {label : String} {step : RunStep} {body : StepResultBody} {now : Time} :
    stateOf (answered db (recordResult db label step body now)) runId =
      some (if body.state = "error" ∧ step.runId = runId then .failed else s) := by
  unfold recordResult
  by_cases hrunning : body.state = "running"
  · simp [hrunning, answered, hs]
  by_cases hok : body.state = "ok"
  · simp [hok, answered, hs]
  by_cases herror : body.state = "error"
  · simp [herror, answered, stateOf_update, hs, eq_comm]
  · simp [hrunning, hok, herror, answered, hs]

theorem stateOf_register {sequences : Nat → Sequence} {stop : Option Nat} {vmUuid : String} :
    stateOf (postRegister db sequences stop vmUuid).1 runId = some s := by
  refine (stateOf_congr ?_).trans hs
  unfold postRegister
  split
  · rfl
  · dsimp only
    split
    · exact runs_buildActions stop _ .winpe _
    · rfl

include hterm

theorem stateOf_update_open {j : Nat} {run : ProvisioningRun} (hrun : getProvisioningRun db j = some run)
    (hopen : run.state.terminal = false) (state : RunState) (lastError : Option String) (now : Time) :
    stateOf (updateProvisioningRunState db j state lastError now) runId = some s := by
  rw [stateOf_update_of_ne, hs]
  rintro rfl
  rw [stateOf, hrun] at hs
  cases hs
  rw [hopen] at hterm
  cases hterm

theorem stateOf_identity {allowed : Bool} {j : Nat} {vmid : Int} {vmUuid : String} :
    stateOf (answered db (postIdentity db allowed j vmid vmUuid)) runId = some s := by
  unfold postIdentity
  cases allowed with
  | false => exact hs
  | true =>
    cases hj : getProvisioningRun db j with
    | none => exact hs
    | some run =>
      by_cases hqueued : run.state = .queued
      · simp only [Bool.not_true, Bool.false_eq_true, if_false, hqueued, if_true, answered]
        refine (stateOf_modify db.steps db.drawn j ?_).trans ?_
        · intro r
          split
          · rfl
          · rfl
        obtain ⟨r, hr, rfl⟩ := Option.map_eq_some_iff.mp hs
        rw [hr]
        have hne : r.state ≠ .queued := by
          intro h
          rw [h] at hterm
          cases hterm
        simp [hne]
      · simpa [hqueued, answered] using hs

theorem stateOf_done {tokenRun : Nat} {detached : Bool} {now : Time} :
    stateOf (answered db (postDone db tokenRun detached now)) runId = some s := by
  unfold postDone
  cases hrun : getProvisioningRun db tokenRun with
  | none => exact hs
  | some run =>
    have hid : run.id = tokenRun := by simpa using List.find?_some hrun
    dsimp only
    split
    · exact hs
    · split
      · exact hs
      · split
        · exact hs
        · rename_i hstate _
          rw [answered, hid]
          exact stateOf_update_open hs hterm hrun (by rw [not_not.mp hstate]; rfl) _ _ _

theorem stateOf_osdRegister {stop : Option Nat} {tokenRun : Nat} {now : Time} :
    stateOf (postOsdRegister db stop tokenRun now).1 runId = some s := by
  unfold postOsdRegister
  cases hrun : getProvisioningRun db tokenRun with
  | none => exact hs
  | some run =>
    dsimp only
    split
    · rename_i hstate
      rw [stateOf_congr (runs_ensureOsdActions stop tokenRun)]
      exact stateOf_update_open hs hterm hrun (by rw [hstate]; rfl) _ _ _
    · rw [stateOf_congr (runs_ensureOsdActions stop tokenRun), hs]
    · exact hs
    · exact hs

theorem stateOf_osdComplete {tokenRun : Nat} {now : Time} :
    stateOf (answered db (postOsdComplete db tokenRun now)) runId = some s := by
  unfold postOsdComplete
  cases hrun : getProvisioningRun db tokenRun with
  | none => exact hs
  | some run =>
    cases hopen : run.state.terminal with
    | true => simpa [hopen, answered] using hs
    | false =>
      dsimp only
      -- every branch but one refuses the request
      split_ifs
      all_goals first | exact hs | exact stateOf_update_open hs hterm hrun hopen _ _ _

theorem stateOf_outcome {j : Nat} {state : RunState} {lastError : Option String} {now : Time} :
    stateOf (answered db (postRunOutcome db j state lastError now)) runId = some s := by
  unfold postRunOutcome
  cases hrun : getProvisioningRun db j with
  | none => exact hs
  | some run =>
    cases hopen : run.state.terminal with
    | true => simpa [hopen, answered] using hs
    | false => simpa [hopen, answered] using stateOf_update_open hs hterm hrun hopen state lastError now

theorem stateOf_sweep {ttlSeconds : Nat} {cutoff now : Time} :
    stateOf (sweepStaleRuns db ttlSeconds cutoff now) runId = some s := by
  obtain ⟨r, hr, rfl⟩ := Option.map_eq_some_iff.mp hs
  have hkept : stale db cutoff r = false := by
    unfold stale
    cases hstate : r.state
    all_goals first | rfl | (rw [hstate] at hterm; cases hterm)
  unfold stateOf getProvisioningRun sweepStaleRuns
  rw [Table.find?_map_key]
  · rw [show db.runs.find? (fun r => r.id = runId) = some r from hr]
    simp [hkept]
  · intro r
    split
    · rfl
    · rfl

end Calls

theorem stateOf_exec (sequences : Nat → Sequence) (c : Call × Time) (hs : stateOf db runId = some s)
    (hterm : s.terminal = true) :
    (AcceptedError db runId c.1 ∧ stateOf (exec sequences db c) runId = some .failed) ∨
      (¬ AcceptedError db runId c.1 ∧ stateOf (exec sequences db c) runId = some s) := by
  obtain ⟨c, now⟩ := c
  cases c with
  | identity => exact .inr ⟨id, stateOf_identity hs hterm⟩
  | register => exact .inr ⟨id, stateOf_register hs⟩
  | winpeDone => exact .inr ⟨id, stateOf_done hs hterm⟩
  | osdRegister => exact .inr ⟨id, stateOf_osdRegister hs hterm⟩
  | osdComplete => exact .inr ⟨id, stateOf_osdComplete hs hterm⟩
  | runFail => exact .inr ⟨id, stateOf_outcome hs hterm⟩
  | runComplete => exact .inr ⟨id, stateOf_outcome hs hterm⟩
  | sweep => exact .inr ⟨id, stateOf_sweep hs hterm⟩
  | stepResult tokenRun stepId body =>
    simp only [exec, postStepResult, AcceptedError]
    cases hstep : getRunStep db stepId with
    | none => simpa [answered] using hs
    | some step =>
      by_cases htoken : step.runId = tokenRun
      · subst htoken
        by_cases herror : body.state = "error" ∧ step.runId = runId
        · simp [stateOf_recordResult hs, herror]
        · simp [stateOf_recordResult hs, herror]
      · simp only [htoken, if_true, answered, ne_eq, not_false_eq_true]
        refine .inr ⟨?_, hs⟩
        rintro ⟨-, rfl, _, hmem, heq⟩
        cases hmem
        exact htoken heq
  | osdStepResult tokenRun stepId body =>
    simp only [exec, postOsdStepResult, AcceptedError]
    cases hstep : getRunStep db stepId with
    | none => simpa [answered] using hs
    | some step =>
      by_cases htoken : step.runId = tokenRun
      · subst htoken
        by_cases hphase : step.phase = .osd
        · by_cases herror : body.state = "error" ∧ step.runId = runId
          · simp [stateOf_recordResult hs, herror, hphase]
          · simp [stateOf_recordResult hs, herror, hphase]
        · simp [hphase, answered, hs]
      · simp only [htoken, if_true, answered, ne_eq, not_false_eq_true]
        refine .inr ⟨?_, hs⟩
        rintro ⟨-, rfl, _, hmem, heq, -⟩
        cases hmem
        exact htoken heq

/-- A terminal state stays. -/
def KeepsOutcome (runId : Nat) (a b : WinpeDb) : Prop :=
  Terminal (stateOf a runId) → stateOf b runId = stateOf a runId

instance (runId : Nat) (a b : WinpeDb) : Decidable (KeepsOutcome runId a b) :=
  inferInstanceAs (Decidable (_ → _))

theorem keepsOutcome_exec_iff (sequences : Nat → Sequence) (db : WinpeDb) (c : Call × Time) :
    KeepsOutcome runId db (exec sequences db c) ↔ NoLateError runId db c := by
  unfold KeepsOutcome NoLateError
  constructor
  · intro hkeeps hdone hlate
    have hstays := hkeeps ⟨.done, hdone, rfl⟩
    rcases stateOf_exec sequences c hdone rfl with ⟨_, hfailed⟩ | ⟨hnot, _⟩
    · rw [hfailed, hdone] at hstays
      cases hstays
    · exact hnot hlate
  · rintro hlate ⟨s, hs, hterm⟩
    rcases stateOf_exec sequences c hs hterm with ⟨haccepted, hfailed⟩ | ⟨_, hkept⟩
    · rw [hfailed, hs]
      cases s with
      | done => exact absurd haccepted (hlate hs)
      | failed => rfl
      | _ => cases hterm
    · rw [hkept, hs]

/-- The terminal states of a run stay along exactly the sequences of calls in which no
error is reported for a step of the run while it is `done`. -/
theorem terminal_states_stay_iff (sequences : Nat → Sequence) (db : WinpeDb) (runId : Nat)
    (calls : List (Call × Time)) :
    Along (KeepsOutcome runId) (exec sequences) db calls ↔
      Replays (NoLateError runId) (exec sequences) db calls := by
  refine along_iff_replays (P := fun _ => True) (fun _ _ _ => rfl) ?_ ?_ (fun _ _ _ _ => trivial) trivial
  · intro a b c hab hbc hterm
    have hsame := hab hterm
    exact (hbc (hsame ▸ hterm)).trans hsame
  · exact fun db c _ => keepsOutcome_exec_iff sequences db c

/-- A run set `done` whose step then reports an error. -/
theorem late_error_fails_a_done_run :
    ¬ Along (KeepsOutcome 1) (exec fun _ => {})
      { runs := [{ id := 1, sequenceId := 1, state := .awaitingOsdClient }]
        steps := [{ id := 1, runId := 1, orderIndex := 0, phase := .osd, action := { kind := "handoff_to_oobe" } }] }
      [(.runComplete 1, 5), (.stepResult 1 1 { state := "error" }, 6)] := by
  intro h
  have hkept := h [(.runComplete 1, 5)] [(.stepResult 1 1 { state := "error" }, 6)] (List.prefix_refl _)
  revert hkept
  decide

end ProxmoxVEAutopilot.WinPe
