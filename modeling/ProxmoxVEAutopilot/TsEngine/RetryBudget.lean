import ProxmoxVEAutopilot.TsEngine.Moves

/-!
# The retry budget

`claim_next_step` counts attempts without looking at the budget and `complete_step`
looks at the budget without counting. The invariant that joins them is on pending
steps: one more attempt always fits.
-/

namespace ProxmoxVEAutopilot.TsEngine

open Foundation
set_option autoImplicit false

def WithinBudget (r : PlanStep) : Prop :=
  0 ≤ r.plan.retryCount →
    (r.attempt : Int) ≤ r.plan.retryCount + 1 ∧
    (r.state = .pending → (r.attempt : Int) ≤ r.plan.retryCount)

theorem RowMove.withinBudget {db : RunDb} {c : Call} {r : PlanStep} {p : StepProgress}
    (h : RowMove db c r p) (hr : WithinBudget r) : WithinBudget (r.withProgress p) := by
  intro hcount
  obtain ⟨hle, hpending⟩ := hr hcount
  cases h with
  | keep => exact ⟨hle, hpending⟩
  | claimed _ hclaim =>
    have hstate := (nextClaim_spec hclaim).2.2.1
    have := hpending hstate
    refine ⟨?_, fun h => by cases h⟩
    simp only [PlanStep.withProgress, claimedProgress]
    omega
  | completed _ _ ho =>
    refine ⟨hle, fun h => ?_⟩
    exact of_decide_eq_true (outcome_pending ho h).2
  | rebooted => exact ⟨hle, fun h => by cases h⟩
  | requeued => exact ⟨Int.le_trans hcount (Int.le_add_of_nonneg_right (by decide)), fun _ => hcount⟩
  | marked => exact ⟨hle, fun h => by cases h⟩

def AllWithinBudget (db : RunDb) : Prop := ∀ r ∈ db.steps.rows, WithinBudget r

theorem Initial.allWithinBudget {db : RunDb} (h : Initial db) : AllWithinBudget db := by
  intro r hr hcount
  obtain ⟨s, _, hp⟩ := h.progress r hr
  have hattempt : r.attempt = 0 := by rw [hp]
  rw [hattempt]
  exact ⟨by omega, fun _ => by simpa using hcount⟩

theorem exec_allWithinBudget {db : RunDb} (c : Call) (h : AllWithinBudget db) :
    AllWithinBudget (exec db c) := by
  intro r hr
  obtain ⟨q, hq, p, hmove, rfl⟩ := mem_exec_rows hr
  exact hmove.withinBudget (h q hq)

theorem foldl_exec_allWithinBudget {db : RunDb} (cs : List Call) (h : AllWithinBudget db) :
    AllWithinBudget (cs.foldl exec db) :=
  List.foldlRecOn cs exec h fun _ hdb c _ => exec_allWithinBudget c hdb

def handedOut (db : RunDb) (c : Call) : Option Uuid :=
  match c.op with
  | .claim q => (claimNextStep db q c.now).2.map fun r => r.id
  | _ => none

def handouts (id : Uuid) : RunDb → List Call → Nat
  | _, [] => 0
  | db, c :: cs => (if handedOut db c = some id then 1 else 0) + handouts id (exec db c) cs

/-- The call requeues the step: it names it and finds it failed. -/
def Requeues (id : Uuid) (db : RunDb) (c : Call) : Prop :=
  (∃ requestedBy message, c.op = .requeue id requestedBy message) ∧
    ∃ r ∈ db.steps.rows, r.id = id ∧ r.state = .failed

theorem handedOut_eq_some {db : RunDb} {c : Call} {id : Uuid} (h : handedOut db c = some id) :
    ∃ q r, c.op = .claim q ∧ nextClaim db q = some r ∧ r.id = id ∧
      exec db c = db.claimRow r q c.now := by
  unfold handedOut at h
  split at h
  · rename_i q hop
    cases hclaim : nextClaim db q with
    | none => simp [claimNextStep, hclaim] at h
    | some r =>
      refine ⟨q, r, hop, hclaim, ?_, ?_⟩
      · simpa [claimNextStep, hclaim] using h
      · simp [exec, hop, claimNextStep, hclaim]
  · cases h

theorem RowMove.attempt_le {db : RunDb} {c : Call} {r : PlanStep} {p : StepProgress}
    (h : RowMove db c r p) (hr : r ∈ db.steps.rows) (hno : ¬ Requeues r.id db c) :
    r.attempt ≤ p.attempt := by
  cases h with
  | keep => exact Nat.le_refl _
  | claimed => exact Nat.le_succ _
  | completed => exact Nat.le_refl _
  | rebooted => exact Nat.le_refl _
  | requeued hop hstate => exact absurd ⟨⟨_, _, hop⟩, r, hr, rfl, hstate⟩ hno
  | marked => exact Nat.le_refl _

theorem exec_attempt {db : RunDb} {c : Call} {r : PlanStep} (hr : r ∈ db.steps.rows)
    (hno : ¬ Requeues r.id db c) :
    ∃ p, r.withProgress p ∈ (exec db c).steps.rows ∧
      r.attempt + (if handedOut db c = some r.id then 1 else 0) ≤ p.attempt := by
  by_cases hout : handedOut db c = some r.id
  · obtain ⟨q, s, _, hclaim, hid, hexec⟩ := handedOut_eq_some hout
    have hs : s = r := db.steps.eq_of_id (nextClaim_mem hclaim) hr hid
    subst hs
    refine ⟨claimedProgress q c.now s.toStepProgress, ?_, ?_⟩
    · rw [hexec]
      exact PlanTable.mem_set.mpr ⟨s, hr, by rw [if_pos rfl]⟩
    · simp [hout, claimedProgress]
  · obtain ⟨p, hmove, hp⟩ := exists_exec_row c hr
    exact ⟨p, hp, by simpa [hout] using hmove.attempt_le hr hno⟩

theorem handouts_le_attempt {cs : List Call} :
    ∀ {db : RunDb} {r : PlanStep}, r ∈ db.steps.rows →
      Replays (fun db c => ¬ Requeues r.id db c) exec db cs →
      ∃ p, r.withProgress p ∈ (cs.foldl exec db).steps.rows ∧
        r.attempt + handouts r.id db cs ≤ p.attempt := by
  induction cs with
  | nil => exact fun {db r} hr _ => ⟨r.toStepProgress, hr, by simp [handouts]⟩
  | cons c cs ih =>
    intro db r hr hreplay
    obtain ⟨p, hp, hle⟩ := exec_attempt hr hreplay.1
    obtain ⟨p', hp', hle'⟩ := ih hp hreplay.2
    refine ⟨p', hp', ?_⟩
    simp only [PlanStep.withProgress_id, PlanStep.withProgress_toStepProgress] at hle'
    simp only [handouts]
    omega

/-- In every reachable state attempts stay within the budget, and from there on a step
is handed out at most `retry_count + 1` times before its next requeue. -/
theorem retry_budget {db₀ : RunDb} (hcreated : Created db₀) (before cs : List Call) :
    ∀ r ∈ (before.foldl exec db₀).steps.rows, 0 ≤ r.plan.retryCount →
      (r.attempt : Int) ≤ r.plan.retryCount + 1 ∧
      (r.state = .pending → (r.attempt : Int) ≤ r.plan.retryCount) ∧
      (Replays (fun db c => ¬ Requeues r.id db c) exec (before.foldl exec db₀) cs →
        (handouts r.id (before.foldl exec db₀) cs : Int) ≤ r.plan.retryCount + 1) := by
  intro r hr hcount
  have hbudget := foldl_exec_allWithinBudget before hcreated.initial.allWithinBudget
  refine ⟨(hbudget r hr hcount).1, (hbudget r hr hcount).2, fun hreplay => ?_⟩
  obtain ⟨p, hp, hle⟩ := handouts_le_attempt hr hreplay
  have hend := (foldl_exec_allWithinBudget cs hbudget _ hp hcount).1
  simp only [PlanStep.withProgress_plan, PlanStep.withProgress_toStepProgress] at hend
  omega

def retryNode : Node :=
  { id := 1, parentId := none, position := 0, nodeType := .step "install_package", name := "Install"
    phase := "full_os", retryCount := 1 }

def retryRun : RunDb := createdFrom [retryNode] rfl

def retryClaim : Call := { op := .claim { phase := "full_os", agentId := "agent" } }

def retryFailure : Call := { op := .complete 1 "agent" .failed none (.obj []) }

theorem retryRun_budget :
    ∃ r ∈ retryRun.steps.rows, (r.attempt : Int) ≤ r.plan.retryCount + 1 ∧
      (handouts r.id retryRun [retryClaim, retryFailure, retryClaim, retryFailure, retryClaim] : Int) ≤
        r.plan.retryCount + 1 := by
  have hmem : retryRun.steps.rows.head (by decide) ∈ retryRun.steps.rows := List.head_mem _
  obtain ⟨hle, _, hout⟩ := retry_budget (created_createdFrom [retryNode] rfl) []
    [retryClaim, retryFailure, retryClaim, retryFailure, retryClaim] _ hmem (by decide)
  exact ⟨_, hmem, hle, hout (by simp [Replays, Requeues, retryClaim, retryFailure])⟩

example :
    handouts 1 retryRun [retryClaim, retryFailure, retryClaim, retryFailure, retryClaim] = 2 := by
  decide

end ProxmoxVEAutopilot.TsEngine
