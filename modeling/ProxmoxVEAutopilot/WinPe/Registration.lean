import ProxmoxVEAutopilot.Foundation.Runs
import ProxmoxVEAutopilot.WinPe.Runs

/-!
# Registrations of one WinPE agent and another

`post_register` as its transactions: find the run, list its steps, and for each action a
`SELECT MAX(order_index) + 1` and an `INSERT` that `UNIQUE (run_id, order_index)` may
refuse. Calls interleave and may end after any of them, while agents report on steps.
-/

namespace ProxmoxVEAutopilot.WinPe

open Foundation
set_option autoImplicit false

/-- How far a call of `post_register` has come. -/
inductive Registration where
  | waiting (vmUuid : String)
  | found (run : ProvisioningRun)
  | building (run : ProvisioningRun) (action : Action) (rest : List Action) (out : List HandedAction)
  | inserting (run : ProvisioningRun) (next : Int) (action : Action) (rest : List Action)
      (out : List HandedAction)
  | returned (run : ProvisioningRun) (existing : List RunStep) (actions : List HandedAction)
  | raised (error : HttpError)

structure Registrations (τ : Type) where
  db : WinpeDb
  call : τ → Registration

inductive Move (τ : Type) where
  | proceed (t : τ)
  | crash (t : τ)
  | report (tokenRun stepId : Nat) (body : StepResultBody) (now : Time)

/-- The loop of `_build_actions_for_run`, which found no step. -/
def continueBuild (run : ProvisioningRun) (out : List HandedAction) : List Action → Registration
  | [] => .returned run [] out
  | action :: rest => .building run action rest out

def proceed (sequences : Nat → Sequence) (db : WinpeDb) : Registration → WinpeDb × Registration
  | .waiting vmUuid =>
    match findRunByUuidState db vmUuid .awaitingWinpe with
    | none => (db, .raised (noAwaitingRun db vmUuid))
    | some run => (db, .found run)
  | .found run =>
    let existing := listRunSteps db run.id
    if existing.isEmpty then (db, continueBuild run [] (compileWinpe (sequences run.sequenceId)))
    else (db, .returned run existing (unfinished existing))
  | .building run action rest out => (db, .inserting run (nextOrder db run.id) action rest out)
  | .inserting run next action rest out =>
    if (stepsOf db run.id).any fun s => s.orderIndex = next then
      ({ db with drawn := db.drawn + 1 }, .raised internalError)
    else
      let step := newStep db run.id .winpe next action
      (insertStep db step, continueBuild run (out ++ [step.handed]) rest)
  | ended => (db, ended)

def crashed : Registration → Registration
  | .returned run existing actions => .returned run existing actions
  | _ => .raised internalError

variable {τ : Type} [DecidableEq τ]

def move (sequences : Nat → Sequence) (w : Registrations τ) : Move τ → Registrations τ
  | .proceed t =>
    let (db, call) := proceed sequences w.db (w.call t)
    ⟨db, Function.update w.call t call⟩
  | .crash t => { w with call := Function.update w.call t (crashed (w.call t)) }
  | .report tokenRun stepId body now =>
    { w with db := answered w.db (postStepResult w.db tokenRun stepId body now) }

/-- In the order of the plan, one action for each compiled action whose step is not `ok`. -/
def HandsOutPlan (plan : List Action) (existing : List RunStep) (actions : List HandedAction) : Prop :=
  actions.map HandedAction.toAction =
    plan.filter fun a => !existing.any fun s => s.action.kind = a.kind && s.state = .ok

instance (plan : List Action) (existing : List RunStep) (actions : List HandedAction) :
    Decidable (HandsOutPlan plan existing actions) := inferInstanceAs (Decidable (_ = _))

/-- A call about to list the steps of its run finds none, or the whole plan. -/
def FindsNoneOrAll (sequences : Nat → Sequence) (db : WinpeDb) : Registration → Prop
  | .found run => listRunSteps db run.id = [] ∨
      (listRunSteps db run.id).map RunStep.action = compileWinpe (sequences run.sequenceId)
  | _ => True

def ReadsNoneOrAll (sequences : Nat → Sequence) (w : Registrations τ) : Move τ → Prop
  | .proceed t => FindsNoneOrAll sequences w.db (w.call t)
  | _ => True

instance (sequences : Nat → Sequence) (db : WinpeDb) :
    ∀ call, Decidable (FindsNoneOrAll sequences db call)
  | .found _ => inferInstanceAs (Decidable (_ ∨ _))
  | .waiting _ | .building .. | .inserting .. | .returned .. | .raised _ => isTrue trivial

instance (sequences : Nat → Sequence) (w : Registrations τ) :
    ∀ m, Decidable (ReadsNoneOrAll sequences w m)
  | .proceed t => inferInstanceAs (Decidable (FindsNoneOrAll sequences w.db (w.call t)))
  | .crash _ | .report .. => isTrue trivial

/-- The handed actions are stored as steps of the run. -/
def Stored (db : WinpeDb) (run : ProvisioningRun) (actions : List HandedAction) : Prop :=
  ∀ a ∈ actions, ∃ s ∈ db.steps, s.runId = run.id ∧ s.handed = a

/-- What a call has handed out, and has still to build, is the plan. -/
def OnPlan (sequences : Nat → Sequence) (db : WinpeDb) : Registration → Prop
  | .building run action rest out | .inserting run _ action rest out =>
    out.map HandedAction.toAction ++ action :: rest = compileWinpe (sequences run.sequenceId) ∧
      Stored db run out
  | .returned run existing actions =>
    HandsOutPlan (compileWinpe (sequences run.sequenceId)) existing actions ∧ Stored db run actions
  | _ => True

section Plan

theorem nodup_compileWinpe (sequence : Sequence) : ((compileWinpe sequence).map Action.kind).Nodup := by
  unfold compileWinpe
  split
  · decide
  · decide

theorem handsOutPlan_unfinished {plan : List Action} {existing : List RunStep}
    (hplan : existing.map RunStep.action = plan) (hkinds : (plan.map Action.kind).Nodup) :
    HandsOutPlan plan existing (unfinished existing) := by
  subst hplan
  unfold HandsOutPlan unfinished
  rw [List.map_map, List.filter_map]
  have hstep : HandedAction.toAction ∘ RunStep.handed = RunStep.action := rfl
  rw [hstep]
  congr 1
  apply List.filter_congr
  intro s hs
  rw [List.map_map] at hkinds
  -- the kind of a step tells it from the others
  have hown : (existing.any fun s' => s'.action.kind = s.action.kind && s'.state = .ok) =
      decide (s.state = .ok) := by
    rw [Bool.eq_iff_iff, List.any_eq_true, decide_eq_true_iff]
    constructor
    · rintro ⟨s', hs', hok⟩
      simp only [Bool.and_eq_true, decide_eq_true_eq] at hok
      rw [← List.inj_on_of_nodup_map hkinds hs' hs hok.1]
      exact hok.2
    · exact fun hok => ⟨s, hs, by simp [hok]⟩
  simp only [Function.comp_apply, hown]
  exact decide_not

end Plan

section Alone
variable {sequences : Nat → Sequence}

/-- What a call that has ended answers. -/
def Registration.result : Registration → Option (Except HttpError (List HandedAction))
  | .returned _ _ actions => some (.ok actions)
  | .raised error => some (.error error)
  | _ => none

/-- The next transaction of a call that nobody interrupts. -/
def alone (sequences : Nat → Sequence) (p : WinpeDb × Registration) : WinpeDb × Registration :=
  proceed sequences p.1 p.2

theorem alone_append (db : WinpeDb) (run : ProvisioningRun) (action : Action) (rest : List Action)
    (out : List HandedAction) :
    (alone sequences)^[2] (db, .building run action rest out) =
      ((appendRunStep db run.id .winpe action).1,
        continueBuild run (out ++ [(appendRunStep db run.id .winpe action).2.handed]) rest) := by
  have hfree : ((stepsOf db run.id).any fun s => s.orderIndex = nextOrder db run.id) = false := by
    rw [List.any_eq_false]
    intro s hs
    have hlt := lt_nextOrder hs
    simp only [decide_eq_true_eq]
    omega
  simp only [Function.iterate_succ, Function.iterate_zero, Function.comp_apply, id_eq, alone, proceed, hfree]
  rfl

theorem alone_build (run : ProvisioningRun) (actions : List Action) :
    ∀ (k : Nat) (db : WinpeDb) (out : List HandedAction), k ≤ actions.length →
      (alone sequences)^[2 * k] (db, continueBuild run out actions) =
        ((appendRunSteps run.id .winpe (actions.take k) db).1,
          continueBuild run (out ++ (appendRunSteps run.id .winpe (actions.take k) db).2) (actions.drop k)) := by
  induction actions with
  | nil =>
    intro k db out hk
    obtain rfl : k = 0 := by simpa using hk
    simp [appendRunSteps]
  | cons action rest ih =>
    intro k db out hk
    cases k with
    | zero => simp [appendRunSteps]
    | succ k =>
      rw [Nat.mul_succ, Function.iterate_add_apply]
      rw [show continueBuild run out (action :: rest) = .building run action rest out from rfl,
        alone_append, ih k _ _ (by simpa using hk)]
      simp [appendRunSteps]

/-- A call that nobody interrupts is `post_register`. -/
theorem alone_postRegister (db : WinpeDb) (vmUuid : String) :
    ∃ n, ((alone sequences)^[n] (db, .waiting vmUuid)).1 = (postRegister db sequences none vmUuid).1 ∧
      ((alone sequences)^[n] (db, .waiting vmUuid)).2.result = some (postRegister db sequences none vmUuid).2 := by
  unfold postRegister
  cases hfind : findRunByUuidState db vmUuid .awaitingWinpe with
  | none =>
    refine ⟨1, ?_⟩
    simp [alone, proceed, hfind, Registration.result]
  | some run =>
    cases hempty : (listRunSteps db run.id).isEmpty with
    | false =>
      refine ⟨2, ?_⟩
      simp [alone, proceed, hfind, hempty, Registration.result]
    | true =>
      let plan := compileWinpe (sequences run.sequenceId)
      refine ⟨2 * plan.length + 2, ?_⟩
      rw [Function.iterate_add_apply]
      have hstart : (alone sequences)^[2] (db, .waiting vmUuid) = (db, continueBuild run [] plan) := by
        simp [alone, proceed, hfind, hempty, plan]
      rw [hstart, alone_build run plan plan.length db [] (Nat.le_refl _)]
      simp [continueBuild, Registration.result, buildActions, cut, hempty, plan]

end Alone

section Moves
variable {sequences : Nat → Sequence} {db db' : WinpeDb} {w w' : Registrations τ}

/-- Every step keeps its row, its run and its action. -/
def Keeps (db db' : WinpeDb) : Prop :=
  ∀ s ∈ db.steps, ∃ s' ∈ db'.steps, s'.runId = s.runId ∧ s'.handed = s.handed

theorem Keeps.refl (db : WinpeDb) : Keeps db db := fun s hs => ⟨s, hs, rfl, rfl⟩

theorem keeps_insertStep (step : RunStep) : Keeps db (insertStep db step) :=
  fun s hs => ⟨s, List.mem_append_left _ hs, rfl, rfl⟩

theorem keeps_updateRunStepState (stepId : Nat) {update : RunStep → RunStep}
    (hupdate : ∀ s, (update s).runId = s.runId ∧ (update s).handed = s.handed) :
    Keeps db (updateRunStepState db stepId update) := by
  intro s hs
  by_cases hid : s.id = stepId
  · exact ⟨update s, Table.mem_modify.mpr (.inr ⟨s, hs, hid, rfl⟩), hupdate s⟩
  · exact ⟨s, Table.mem_modify.mpr (.inl ⟨hs, hid⟩), rfl, rfl⟩

theorem keeps_report (tokenRun stepId : Nat) (body : StepResultBody) (now : Time) :
    Keeps db (answered db (postStepResult db tokenRun stepId body now)) := by
  unfold postStepResult recordResult
  split
  · exact Keeps.refl db
  · split_ifs
    · exact Keeps.refl db
    · exact keeps_updateRunStepState _ fun s => ⟨rfl, rfl⟩
    · exact keeps_updateRunStepState _ fun s => ⟨rfl, rfl⟩
    · exact keeps_updateRunStepState _ fun s => ⟨rfl, rfl⟩
    · exact Keeps.refl db

theorem Stored.keeps {run : ProvisioningRun} {actions : List HandedAction} (h : Stored db run actions)
    (hkeeps : Keeps db db') : Stored db' run actions := by
  intro a ha
  obtain ⟨s, hs, hrun, hhanded⟩ := h a ha
  obtain ⟨s', hs', hrun', hhanded'⟩ := hkeeps s hs
  exact ⟨s', hs', hrun'.trans hrun, hhanded'.trans hhanded⟩

theorem OnPlan.keeps {call : Registration} (h : OnPlan sequences db call) (hkeeps : Keeps db db') :
    OnPlan sequences db' call := by
  cases call with
  | building => exact ⟨h.1, h.2.keeps hkeeps⟩
  | inserting => exact ⟨h.1, h.2.keeps hkeeps⟩
  | returned => exact ⟨h.1, h.2.keeps hkeeps⟩
  | _ => trivial

theorem onPlan_continueBuild {run : ProvisioningRun} {out : List HandedAction} {rest : List Action}
    (hplan : out.map HandedAction.toAction ++ rest = compileWinpe (sequences run.sequenceId))
    (hstored : Stored db run out) : OnPlan sequences db (continueBuild run out rest) := by
  cases rest with
  | nil =>
    refine ⟨?_, hstored⟩
    rw [List.append_nil] at hplan
    simp [HandsOutPlan, hplan]
  | cons action rest => exact ⟨hplan, hstored⟩

theorem stored_unfinished (run : ProvisioningRun) : Stored db run (unfinished (listRunSteps db run.id)) := by
  intro a ha
  obtain ⟨s, hs, rfl⟩ := List.mem_map.mp ha
  have hmem := (List.mem_insertionSort _).mp (List.mem_filter.mp hs).1
  exact ⟨s, (mem_stepsOf.mp hmem).1, (mem_stepsOf.mp hmem).2, rfl⟩

/-- One transaction of a call keeps the steps and its own progress on the plan. -/
theorem proceed_onPlan {call : Registration} (h : OnPlan sequences db call)
    (hreads : FindsNoneOrAll sequences db call) :
    Keeps db (proceed sequences db call).1 ∧
      OnPlan sequences (proceed sequences db call).1 (proceed sequences db call).2 := by
  cases call with
  | waiting vmUuid =>
    unfold proceed
    dsimp only
    split
    · exact ⟨Keeps.refl db, trivial⟩
    · exact ⟨Keeps.refl db, trivial⟩
  | found run =>
    rcases hreads with hnone | hall
    · simp only [proceed, hnone, List.isEmpty_nil, if_true]
      exact ⟨Keeps.refl db, onPlan_continueBuild rfl (by simp [Stored])⟩
    · have hsome : (listRunSteps db run.id).isEmpty = false := by
        rw [← List.isEmpty_map, hall]
        unfold compileWinpe
        split
        · rfl
        · rfl
      simp only [proceed, hsome, Bool.false_eq_true, if_false]
      exact ⟨Keeps.refl db, handsOutPlan_unfinished hall (nodup_compileWinpe _), stored_unfinished run⟩
  | building run action rest out => exact ⟨Keeps.refl db, h⟩
  | inserting run next action rest out =>
    unfold proceed
    dsimp only
    split
    · exact ⟨Keeps.refl db, trivial⟩
    · refine ⟨keeps_insertStep _, onPlan_continueBuild ?_ ?_⟩
      · rw [List.map_append, List.append_assoc]
        exact h.1
      intro a ha
      rcases List.mem_append.mp ha with ha | ha
      · exact h.2.keeps (keeps_insertStep _) a ha
      · rw [List.mem_singleton.mp ha]
        exact ⟨_, List.mem_append_right _ (List.mem_singleton_self _), rfl, rfl⟩
  | returned => exact ⟨Keeps.refl db, h⟩
  | raised => exact ⟨Keeps.refl db, trivial⟩

theorem onPlan_update {w : Registrations τ} (h : ∀ t, OnPlan sequences w.db (w.call t))
    (hkeeps : Keeps w.db db') {t : τ} {call : Registration} (hcall : OnPlan sequences db' call) (u : τ) :
    OnPlan sequences db' (Function.update w.call t call u) := by
  by_cases hu : u = t
  · subst hu
    simpa using hcall
  · simpa [Function.update_of_ne hu] using (h u).keeps hkeeps

theorem move_onPlan {m : Move τ} (h : ∀ t, OnPlan sequences w.db (w.call t))
    (hstep : Guarded (ReadsNoneOrAll sequences) (move sequences) w m w') :
    ∀ t, OnPlan sequences w'.db (w'.call t) := by
  obtain ⟨hreads, rfl⟩ := hstep
  cases m with
  | proceed t =>
    obtain ⟨hkeeps, hcall⟩ := proceed_onPlan (h t) hreads
    exact onPlan_update h hkeeps hcall
  | crash t =>
    refine onPlan_update h (Keeps.refl w.db) ?_
    have ht := h t
    cases hcall : w.call t with
    | returned => rwa [hcall] at ht
    | _ => trivial
  | report tokenRun stepId body now => exact fun t => (h t).keeps (keeps_report tokenRun stepId body now)

end Moves

/-- From calls that have not begun, every call that returns has handed out the whole plan,
as long as each call finds no step of its run or all of them. -/
theorem registration_hands_out_whole_plan {sequences : Nat → Sequence} {w w' : Registrations τ}
    {moves : List (Move τ)} (hstart : ∀ t, ∃ vmUuid, w.call t = .waiting vmUuid)
    (hrun : Run (Guarded (ReadsNoneOrAll sequences) (move sequences)) w moves w') {t : τ}
    {run : ProvisioningRun} {existing : List RunStep} {actions : List HandedAction}
    (hreturned : w'.call t = .returned run existing actions) :
    HandsOutPlan (compileWinpe (sequences run.sequenceId)) existing actions ∧
      Stored w'.db run actions := by
  have hplan : ∀ t, OnPlan sequences w'.db (w'.call t) := by
    refine hrun.invariant (P := fun w => ∀ t, OnPlan sequences w.db (w.call t)) ?_ ?_
    · exact fun w m w' h hstep => move_onPlan h hstep
    · intro t
      obtain ⟨vmUuid, ht⟩ := hstart t
      rw [ht]
      trivial
  have ht := hplan t
  rwa [hreturned] at ht

def twoCalls : Registrations Bool where
  db := { runs := [{ id := 1, sequenceId := 1, state := .awaitingWinpe, vmUuid := some "" }] }
  call _ := .waiting ""

def bothWhole : List (Move Bool) := List.replicate 16 (.proceed false) ++ List.replicate 2 (.proceed true)

def firstCrashes : List (Move Bool) := List.replicate 4 (.proceed false) ++ [.crash false] ++ List.replicate 2 (.proceed true)

theorem second_registration_hands_out_whole_plan :
    ∃ existing actions, HandsOutPlan (compileWinpe {}) existing actions ∧
      actions.map HandedAction.stepId = [1, 2, 3, 4, 5, 6, 7] := by
  have hrun : Run (Guarded (ReadsNoneOrAll fun _ => {}) (move fun _ => {})) twoCalls bothWhole
      (bothWhole.foldl (move fun _ => {}) twoCalls) := Run.of_replays (by decide)
  refine ⟨_, _, (registration_hands_out_whole_plan (t := true) (fun _ => ⟨"", rfl⟩) hrun rfl).1, ?_⟩
  decide

/-- The first call ends after one insert; the second finds that step and hands out no other. -/
theorem crashed_registration_hands_out_one_action :
    ∃ existing actions, (firstCrashes.foldl (move fun _ => {}) twoCalls).call true =
        .returned { id := 1, sequenceId := 1, state := .awaitingWinpe, vmUuid := some "" } existing actions ∧
      ¬ HandsOutPlan (compileWinpe {}) existing actions := by
  refine ⟨_, _, rfl, ?_⟩
  decide

end ProxmoxVEAutopilot.WinPe
