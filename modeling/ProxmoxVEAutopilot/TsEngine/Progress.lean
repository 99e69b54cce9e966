import ProxmoxVEAutopilot.TsEngine.Moves

/-!
# Progress of a quiet run

`complete_step` lets a run go on after a failed step with `continue_on_error`, but
`claim_next_step` takes any failed step as a barrier. A quiet run can go on exactly
when no failed step lies before the next pending one in a phase they share.
-/

namespace ProxmoxVEAutopilot.TsEngine

open Foundation
set_option autoImplicit false

/-- Results come from the agent that holds the running step; nothing marks steps done
from outside. -/
def byHolder (db : RunDb) (c : Call) : Bool :=
  match c.op with
  | .complete stepId agentId _ _ _ => db.steps.rows.any fun r =>
      r.id == stepId && r.state == .running && r.claimedBy == some agentId
  | .markDone _ _ _ _ => false
  | _ => true

/-- The run is open, nothing is in progress and only steps that may fail have failed. -/
structure Quiet (db : RunDb) : Prop where
  isOpen : db.run.state.isOpen = true
  idle : ∀ r ∈ db.steps.rows, r.state ≠ .running ∧ r.state ≠ .awaitingReboot
  tolerated : ∀ r ∈ db.steps.rows, r.state = .failed → r.plan.continueOnError = true

structure LowestPending (db : RunDb) (p : PlanStep) : Prop where
  mem : p ∈ db.steps.rows
  pending : p.state = .pending
  lowest : ∀ r ∈ db.steps.rows, r.state = .pending → p.plan.ordinal ≤ r.plan.ordinal

/-- In a quiet state the lowest pending step is handed out to whoever asks for it. -/
def NotWedged (db : RunDb) : Prop :=
  Quiet db → ∀ p, LowestPending db p → ∀ phase agentId allowRunning now,
    p.plan.phase = phase ∨ p.plan.phase = "any" →
      ∃ r, (claimNextStep db ⟨phase, agentId, [], allowRunning⟩ now).2 = some r ∧ r.id = p.id

def SharesPhase (a b : PlanStep) : Prop :=
  a.plan.phase = b.plan.phase ∨ a.plan.phase = "any" ∨ b.plan.phase = "any"

instance (a b : PlanStep) : Decidable (SharesPhase a b) := inferInstanceAs (Decidable (_ ∨ _))

/-- A failed step that let the run go on lies before the step. -/
def FailedAhead (db : RunDb) (p : PlanStep) : Prop :=
  ∃ f ∈ db.steps.rows, f.plan.ordinal < p.plan.ordinal ∧ f.state = .failed ∧
    f.plan.continueOnError = true ∧ SharesPhase f p

/-- No step fails for good in front of a pending one, and no step becomes pending again
behind a failed one. -/
def KeepsClear (db : RunDb) (c : Call) : Prop :=
  match c.op with
  | .complete stepId _ .failed _ _ => ∀ r ∈ db.steps.rows, r.id = stepId →
      (r.retriesRemaining = true → ¬ FailedAhead db r) ∧
      (r.retriesRemaining = false → r.plan.continueOnError = true → ∀ p ∈ db.steps.rows,
        r.plan.ordinal < p.plan.ordinal → p.state = .pending → ¬ SharesPhase r p)
  | .requeue stepId _ _ => ∀ r ∈ db.steps.rows, r.id = stepId → ¬ FailedAhead db r
  | _ => True

theorem inPhase_iff {phase : String} {r : PlanStep} :
    r.inPhase phase = true ↔ r.plan.phase = phase ∨ r.plan.phase = "any" := by
  simp [PlanStep.inPhase]

theorem supports_nil (r : PlanStep) : supports [] r = true := rfl

theorem Quiet.blocks_eq {db : RunDb} (hq : Quiet db) {p prev : PlanStep} (hp : LowestPending db p)
    (hprev : prev ∈ db.steps.rows) (hlt : prev.plan.ordinal < p.plan.ordinal) (q : ClaimRequest) :
    blocks q prev = true ↔ prev.inPhase q.phase = true ∧ prev.state = .failed := by
  obtain ⟨hrunning, hawaiting⟩ := hq.idle prev hprev
  have hpending : prev.state ≠ .pending := by
    intro h
    have := hp.lowest prev hprev h
    omega
  simp [blocks, hrunning, hawaiting, hpending]

theorem Quiet.claim_lowest {db : RunDb} (hq : Quiet db) {p : PlanStep} (hp : LowestPending db p)
    {q : ClaimRequest} (hphase : p.inPhase q.phase = true) (hkinds : q.supportedKinds = [])
    (hclear : ∀ prev ∈ db.steps.rows, prev.plan.ordinal < p.plan.ordinal →
      ¬ (prev.inPhase q.phase = true ∧ prev.state = .failed)) : nextClaim db q = some p := by
  have hclaim : claimable db.steps.rows q p = true := by
    simp only [claimable, hp.pending, hphase, hkinds, supports_nil, Bool.and_eq_true, beq_self_eq_true,
      Bool.not_eq_true', List.any_eq_false, and_self, true_and]
    rintro prev hprev ⟨hlt, hblocks⟩
    exact hclear prev hprev (of_decide_eq_true hlt)
      ((hq.blocks_eq hp hprev (of_decide_eq_true hlt) q).mp hblocks)
  obtain ⟨r, hr⟩ := exists_nextClaim hq.isOpen hp.mem hclaim
  obtain ⟨_, hmem, hpending, _⟩ := nextClaim_spec hr
  have hle := hp.lowest r hmem hpending
  have hge := nextClaim_le hr hp.mem hclaim
  rw [hr, db.steps.eq_of_ordinal hmem hp.mem (by omega)]

/-- When a quiet state lets its next step through. -/
theorem notWedged_iff (db : RunDb) :
    NotWedged db ↔ (Quiet db → ∀ p, LowestPending db p → ¬ FailedAhead db p) := by
  constructor
  · rintro h hq p hp ⟨f, hf, hlt, hfailed, _, hshare⟩
    -- ask with the phase in which the failed step is seen
    obtain ⟨phase, hpphase, hfphase⟩ : ∃ phase,
        (p.plan.phase = phase ∨ p.plan.phase = "any") ∧
        (f.plan.phase = phase ∨ f.plan.phase = "any") := by
      rcases hshare with heq | hany | hany
      · exact ⟨p.plan.phase, .inl rfl, .inl heq⟩
      · exact ⟨p.plan.phase, .inl rfl, .inr hany⟩
      · exact ⟨f.plan.phase, .inr hany, .inl rfl⟩
    obtain ⟨r, hr, hid⟩ := h hq p hp phase "" false 0 hpphase
    rw [claimNextStep_answer] at hr
    obtain ⟨s, hclaim, rfl⟩ := Option.map_eq_some_iff.mp hr
    have hs : s = p := db.steps.eq_of_id (nextClaim_mem hclaim) hp.mem hid
    subst hs
    have hnot := (nextClaim_spec hclaim).2.2.2.2.2 f hf hlt
    have hblocks := (hq.blocks_eq hp hf hlt ⟨phase, "", [], false⟩).mpr
      ⟨inPhase_iff.mpr hfphase, hfailed⟩
    rw [hblocks] at hnot
    cases hnot
  · intro h hq p hp phase agentId allowRunning now hphase
    have hclaim : nextClaim db ⟨phase, agentId, [], allowRunning⟩ = some p := by
      refine hq.claim_lowest hp (inPhase_iff.mpr hphase) rfl ?_
      rintro prev hprev hlt ⟨hin, hfailed⟩
      refine h hq p hp ⟨prev, hprev, hlt, hfailed, hq.tolerated prev hprev hfailed, ?_⟩
      rcases hphase with hp | hp <;> rcases inPhase_iff.mp hin with hf | hf
      · exact .inl (hf.trans hp.symm)
      · exact .inr (.inl hf)
      · exact .inr (.inr hp)
      · exact .inr (.inl hf)
    refine ⟨p.withProgress (claimedProgress ⟨phase, agentId, [], allowRunning⟩ now p.toStepProgress),
      ?_, rfl⟩
    rw [claimNextStep_answer, hclaim]
    rfl

/-- No pending step lies behind a failed one. -/
def Clear (db : RunDb) : Prop := ∀ p ∈ db.steps.rows, p.state = .pending → ¬ FailedAhead db p

theorem Initial.clear {db : RunDb} (h : Initial db) : Clear db := by
  rintro p _ _ ⟨f, hf, _, hfailed, _⟩
  obtain ⟨s, hs, hp⟩ := h.progress f hf
  have hstate : f.state = s := by rw [hp]
  rcases hs with rfl | rfl <;> simp [hstate] at hfailed

theorem exec_clear {db : RunDb} {c : Call} (hkeeps : KeepsClear db c) (h : Clear db) :
    Clear (exec db c) := by
  rintro p' hp' hpending ⟨f', hf', hlt, hfailed, hcoe, hshare⟩
  obtain ⟨p, hp, pp, hpmove, rfl⟩ := mem_exec_rows hp'
  obtain ⟨f, hf, pf, hfmove, rfl⟩ := mem_exec_rows hf'
  have hahead : f.state = .failed → FailedAhead db p := fun hs => ⟨f, hf, hlt, hs, hcoe, hshare⟩
  rcases hfmove.to_failed hfailed with ⟨_, hfs⟩ | ⟨hretry, agentId, message, data, hop⟩
  · rcases hpmove.to_pending hpending with ⟨_, hps⟩ | ⟨hpretry, _, _, _, hop⟩ | ⟨_, _, _, hop⟩
    · exact h p hp hps (hahead hfs)
    · simp only [KeepsClear, hop] at hkeeps
      exact (hkeeps p hp rfl).1 hpretry (hahead hfs)
    · simp only [KeepsClear, hop] at hkeeps
      exact hkeeps p hp rfl (hahead hfs)
  · simp only [KeepsClear, hop] at hkeeps
    rcases hpmove.to_pending hpending with ⟨_, hps⟩ | ⟨_, _, _, _, hop'⟩ | ⟨_, _, _, hop'⟩
    · exact (hkeeps f hf rfl).2 hretry hcoe p hp hlt hps hshare
    · rw [hop] at hop'
      have hid : f.id = p.id := by injection hop'
      rw [db.steps.eq_of_id hf hp hid] at hlt
      exact absurd hlt (Nat.lt_irrefl _)
    · rw [hop] at hop'
      cases hop'

theorem Clear.notWedged {db : RunDb} (h : Clear db) : NotWedged db :=
  (notWedged_iff db).mpr fun _ p hp => h p hp.mem hp.pending

/-- A reached state hands out its next step unless a failed one lies before it, and no
reached state is wedged as long as every call keeps pending steps clear of failed ones. -/
theorem run_not_wedged {db₀ : RunDb} (hcreated : Created db₀) :
    (∀ cs db, Run (Guarded (fun db c => byHolder db c = true) exec) db₀ cs db →
      (NotWedged db ↔ (Quiet db → ∀ p, LowestPending db p → ¬ FailedAhead db p))) ∧
    (∀ cs db, Run (Guarded (fun db c => byHolder db c = true ∧ KeepsClear db c) exec) db₀ cs db →
      NotWedged db) := by
  refine ⟨fun cs db _ => notWedged_iff db, fun cs db hrun => ?_⟩
  refine Clear.notWedged (hrun.invariant ?_ hcreated.initial.clear)
  rintro db c _ hclear ⟨⟨_, hkeeps⟩, rfl⟩
  exact exec_clear hkeeps hclear

def optionalStep : Node :=
  { id := 1, parentId := none, position := 0, nodeType := .step "install_package", name := "Optional"
    phase := "full_os", continueOnError := true }

def followingStep : Node :=
  { id := 2, parentId := none, position := 1, nodeType := .step "install_qga", name := "Following"
    phase := "full_os" }

def optionalRun : RunDb := createdFrom [optionalStep, followingStep] rfl

def claimFullOs : Call := { op := .claim { phase := "full_os", agentId := "agent" } }

def reportFirst (status : Status) : Call := { op := .complete 1 "agent" status none (.obj []) }

theorem optionalRun_success_not_wedged :
    Run (Guarded (fun db c => byHolder db c = true ∧ KeepsClear db c) exec) optionalRun
      [claimFullOs, reportFirst .success] ([claimFullOs, reportFirst .success].foldl exec optionalRun) ∧
    NotWedged ([claimFullOs, reportFirst .success].foldl exec optionalRun) := by
  have hrun : Run (Guarded (fun db c => byHolder db c = true ∧ KeepsClear db c) exec) optionalRun
      [claimFullOs, reportFirst .success]
      ([claimFullOs, reportFirst .success].foldl exec optionalRun) :=
    Run.of_replays ⟨⟨by decide, trivial⟩, ⟨by decide, trivial⟩, trivial⟩
  exact ⟨hrun, (run_not_wedged (created_createdFrom _ rfl)).2 _ _ hrun⟩

def stuckRun : RunDb := [claimFullOs, reportFirst .failed].foldl exec optionalRun

def stuckStep : PlanStep := stuckRun.steps.rows.getLast (by decide)

/-- The run is queued, yet its next step is never handed out. -/
theorem optionalRun_failure_wedged :
    ∃ db₀ cs db, Created db₀ ∧ Run (Guarded (fun db c => byHolder db c = true) exec) db₀ cs db ∧
      ¬ NotWedged db := by
  refine ⟨optionalRun, [claimFullOs, reportFirst .failed], stuckRun, created_createdFrom _ rfl,
    Run.of_replays ⟨by decide, by decide, trivial⟩, fun h => ?_⟩
  have hq : Quiet stuckRun := ⟨by decide, by decide, by decide⟩
  have hp : LowestPending stuckRun stuckStep := ⟨List.getLast_mem _, by decide, by decide⟩
  have hnone : (claimNextStep stuckRun ⟨"full_os", "agent", [], false⟩ 0).2 = none := rfl
  obtain ⟨r, hr, _⟩ := h hq stuckStep hp "full_os" "agent" false 0 (by decide)
  rw [hnone] at hr
  cases hr

end ProxmoxVEAutopilot.TsEngine
