import ProxmoxVEAutopilot.TsEngine.Endpoints
import ProxmoxVEAutopilot.TsEngine.Finality
import ProxmoxVEAutopilot.Foundation.Runs

/-!
# Passes of an agent's loop

An agent asks for a step, works on it, reports how that ended and registers again, which
ends an awaited reboot. Between two passes nothing of the run is in progress, and a pass
moves one row at most.
-/

namespace ProxmoxVEAutopilot.TsEngine

open Foundation
set_option autoImplicit false

/-- The endings of the work on a step that `complete_step` knows. -/
inductive Verdict where
  | success
  | skipped
  | rebootRequired
  | failed
deriving DecidableEq, Repr

def Verdict.text : Verdict → String
  | success => "success"
  | skipped => "skipped"
  | rebootRequired => "reboot_required"
  | failed => "failed"

def Verdict.status : Verdict → Status
  | success => .success
  | skipped => .skipped
  | rebootRequired => .rebootRequired
  | failed => .failed

@[simp] theorem Verdict.ofText_text (v : Verdict) : Status.ofText v.text = v.status := by
  cases v <;> decide

theorem Verdict.supported (v : Verdict) : v.status.supported = true := by
  cases v <;> rfl

structure Ending where
  verdict : Verdict
  message : Option String := none
  data : Json := .obj []

/-- How the work on a step ends, for each of its attempts. -/
abbrev World := Uuid → Nat → Ending

structure Agent where
  agentId : String
  phase : String
  capabilities : List String := []

/-- One pass of an agent's loop; its readings of the clock are one. -/
structure Poll where
  agent : Agent
  now : Time := 0

namespace Poll

def ask (p : Poll) : AgentNextBody where
  agentId := p.agent.agentId
  phase := p.agent.phase
  capabilities := p.agent.capabilities

def request (p : Poll) : ClaimRequest := p.ask.request false

def result (W : World) (p : Poll) (step : PlanStep) : AgentCall :=
  .result step.id
    { agentId := p.agent.agentId
      phase := p.agent.phase
      status := (W step.id step.attempt).verdict.text
      message := (W step.id step.attempt).message
      data := (W step.id step.attempt).data }

end Poll

/-- `ProcessOnceAsync`, from one registration to the next. -/
def turn (W : World) (db : RunDb) (p : Poll) : RunDb :=
  let answer := nextAction db p.ask p.now
  let reported := answer.2.foldl (fun db step => serve db (p.result W step) p.now) answer.1
  serve reported (.register p.agent.agentId) p.now

/-- What the loop makes of a step at its next attempt. -/
def PlanStep.endState (r : PlanStep) (v : Verdict) : StepState :=
  match v with
  | .success => .done
  | .skipped => .skipped
  | .rebootRequired => .done
  | .failed => if (r.attempt : Int) + 1 ≤ r.plan.retryCount then .pending else .failed

theorem PlanStep.endState_settled (r : PlanStep) (v : Verdict) :
    r.endState v ≠ .running ∧ r.endState v ≠ .awaitingReboot := by
  cases v with
  | failed =>
    dsimp only [endState]
    split <;> simp
  | _ => simp [endState]

/-- The state of the run behind it. -/
def endRunState (t : PlanTable) (r : PlanStep) (v : Verdict) : RunState :=
  match r.endState v with
  | .pending => .running r.plan.phase
  | .failed => if r.plan.continueOnError then nextRunState t r.id else .failed
  | _ => nextRunState t r.id

/-- The number of times a step was handed out. -/
def RunDb.claimCount (db : RunDb) : Nat := db.events.countP fun e => e.eventType = .stepClaimed

/-- Nothing is handed out and no reboot is awaited. -/
def Idle (db : RunDb) : Prop := ∀ r ∈ db.steps.rows, r.state ≠ .running ∧ r.state ≠ .awaitingReboot

section Tables
variable {t : PlanTable} {r : PlanStep} {id : Uuid} {f g : StepProgress → StepProgress}

theorem PlanTable.set_set : (t.set id f).set id g = t.set id (g ∘ f) := by
  unfold set
  rw [update_update]
  apply update_congr
  intro q _
  by_cases hid : q.id = id <;> simp [hid]

theorem PlanTable.set_const (hr : r ∈ t.rows) : t.set r.id f = t.set r.id fun _ => f r.toStepProgress := by
  apply update_congr
  intro q hq
  by_cases hid : q.id = r.id
  · rw [if_pos hid, if_pos hid, t.eq_of_id hq hr hid]
  · rw [if_neg hid, if_neg hid]

end Tables

section Turn
variable {db : RunDb} {p : Poll} {r : PlanStep} {W : World}

theorem serve_register_idle (h : Idle db) (agentId : String) (now : Time) :
    serve db (.register agentId) now = db := by
  rcases serve_register db agentId now with ⟨_, heq⟩ | ⟨r, hr, hawait, _⟩
  · exact heq
  · exact absurd hawait (h r hr).2

theorem nextAction_none (h : nextClaim db p.request = none) : nextAction db p.ask p.now = (db, []) := by
  have hclaim : claimNextStep db p.request p.now = (db, none) := by
    unfold claimNextStep
    rw [h]
  change claimBatch p.ask p.now 1 db [] = (db, [])
  have hask : p.ask.request (!([] : List PlanStep).isEmpty) = p.request := rfl
  rw [claimBatch, hask, hclaim]

def Poll.claimed (p : Poll) (r : PlanStep) : PlanStep :=
  r.withProgress (claimedProgress p.request p.now r.toStepProgress)

theorem nextAction_some (h : nextClaim db p.request = some r) :
    nextAction db p.ask p.now = (db.claimRow r p.request p.now, [p.claimed r]) := by
  have hclaim : claimNextStep db p.request p.now = (db.claimRow r p.request p.now, some (p.claimed r)) := by
    unfold claimNextStep
    rw [h]
    rfl
  change claimBatch p.ask p.now 1 db [] = _
  have hask : p.ask.request (!([] : List PlanStep).isEmpty) = p.request := rfl
  rw [claimBatch, hask, hclaim]
  rfl

theorem turn_none (hidle : Idle db) (h : nextClaim db p.request = none) : turn W db p = db := by
  unfold turn
  rw [nextAction_none h]
  exact serve_register_idle hidle _ _

/-- What a pass that got the row `r` leaves behind. -/
structure Moved (W : World) (db : RunDb) (r : PlanStep) (db' : RunDb) : Prop where
  steps : ∃ prog : StepProgress, db'.steps = db.steps.set r.id (fun _ => prog) ∧
    prog.state = r.endState (W r.id (r.attempt + 1)).verdict ∧ prog.attempt = r.attempt + 1
  run : db'.run.state = endRunState db.steps r (W r.id (r.attempt + 1)).verdict
  claimCount : db'.claimCount = db.claimCount + 1

/-- The rows between the report and the registration. -/
structure Reported (db : RunDb) (r : PlanStep) (o : Outcome) (db' : RunDb) : Prop where
  steps : ∃ prog : StepProgress, db'.steps = db.steps.set r.id (fun _ => prog) ∧
    prog.state = o.stepState ∧ prog.attempt = r.attempt + 1
  run : db'.run.state = o.runState
  cursor : db'.run.cursorStepId = some r.id
  claimCount : db'.claimCount = db.claimCount + 1

theorem Poll.claimed_mem (hr : r ∈ db.steps.rows) :
    p.claimed r ∈ (db.claimRow r p.request p.now).steps.rows :=
  PlanTable.mem_set.mpr ⟨r, hr, by rw [if_pos rfl]; rfl⟩

theorem serve_report (h : nextClaim db p.request = some r) :
    ∃ o, outcome (db.claimRow r p.request p.now).steps (p.claimed r)
        (W r.id (r.attempt + 1)).verdict.status p.now = .ok o ∧
      Reported db r o
        (serve (db.claimRow r p.request p.now) (p.result W (p.claimed r)) p.now) := by
  obtain ⟨_, hr, _, hphase, _, _⟩ := nextClaim_spec h
  have hmem := Poll.claimed_mem (p := p) hr
  obtain ⟨o, ho⟩ := outcome_supported (t := (db.claimRow r p.request p.now).steps)
    (r := p.claimed r) p.now (W r.id (r.attempt + 1)).verdict.supported
  have hlate : lateFailure (p.claimed r) (W r.id (r.attempt + 1)).verdict.status = false := by
    simp [lateFailure, Poll.claimed, claimedProgress]
  refine ⟨o, ho, ?_⟩
  have hserve : serve (db.claimRow r p.request p.now) (p.result W (p.claimed r)) p.now =
      (db.claimRow r p.request p.now).completeRow (p.claimed r) o p.agent.agentId
        (W r.id (r.attempt + 1)).verdict.status (W r.id (r.attempt + 1)).message
        (W r.id (r.attempt + 1)).data p.now := by
    rcases serve_result (db.claimRow r p.request p.now) r.id
      { agentId := p.agent.agentId, phase := p.agent.phase
        status := (W r.id (r.attempt + 1)).verdict.text
        message := (W r.id (r.attempt + 1)).message
        data := (W r.id (r.attempt + 1)).data } p.now with ⟨hnone, _⟩ | ⟨_, heq⟩
    · have hfalse := hnone (p.claimed r) hmem rfl
      rw [show (p.claimed r).inPhase p.agent.phase = true from hphase] at hfalse
      cases hfalse
    · refine heq.trans (exec_complete ?_ hmem hlate ho)
      simp only [resultCall, Verdict.ofText_text]
      rfl
  rw [hserve]
  refine ⟨⟨completedProgress o (W r.id (r.attempt + 1)).verdict.status
    (W r.id (r.attempt + 1)).message (claimedProgress p.request p.now r.toStepProgress),
    ?_, rfl, rfl⟩, rfl, rfl, ?_⟩
  · exact PlanTable.set_set.trans (PlanTable.set_const hr)
  · simp [RunDb.claimCount, RunDb.completeRow, RunDb.claimRow]

theorem outcome_claimed {t : PlanTable} {v : Verdict} {o : Outcome}
    (h : outcome t (p.claimed r) v.status p.now = .ok o) :
    (o.stepState = .awaitingReboot ∧ r.endState v = .done) ∨
    (o.stepState ≠ .awaitingReboot ∧ o.stepState = r.endState v ∧
      o.runState = match r.endState v with
        | .pending => .running r.plan.phase
        | .failed => if r.plan.continueOnError then nextRunState t r.id else .failed
        | _ => nextRunState t r.id) := by
  have hretry : (p.claimed r).retriesRemaining = decide ((r.attempt : Int) + 1 ≤ r.plan.retryCount) := rfl
  rcases outcome_cases h with ⟨hs, rfl⟩ | ⟨hs, _, rfl⟩ | ⟨hs, rfl⟩ | ⟨hs, hleft, rfl⟩ | ⟨hs, hleft, rfl⟩
  · cases v with
    | success => exact .inl ⟨rfl, rfl⟩
    | rebootRequired => exact .inl ⟨rfl, rfl⟩
    | skipped => simp [Verdict.status] at hs
    | failed => simp [Verdict.status] at hs
  · cases v <;> cases hs
    exact .inr ⟨by simp, rfl, rfl⟩
  · cases v <;> cases hs
    exact .inr ⟨by simp, rfl, rfl⟩
  · cases v <;> cases hs
    rw [hretry, decide_eq_true_eq] at hleft
    have hend : r.endState .failed = .pending := if_pos hleft
    exact .inr ⟨by simp, hend.symm, by rw [hend]; rfl⟩
  · cases v <;> cases hs
    rw [hretry, decide_eq_false_iff_not] at hleft
    have hend : r.endState .failed = .failed := if_neg hleft
    exact .inr ⟨by simp, hend.symm, by rw [hend]; rfl⟩

theorem turn_some (h : nextClaim db p.request = some r) :
    Moved W db r (turn W db p) := by
  obtain ⟨_, hr, _⟩ := nextClaim_spec h
  obtain ⟨o, ho, hrep⟩ := serve_report (W := W) h
  have hturn : turn W db p =
      serve (serve (db.claimRow r p.request p.now) (p.result W (p.claimed r)) p.now)
        (.register p.agent.agentId) p.now := by
    unfold turn
    rw [nextAction_some h]
    rfl
  rw [hturn]
  generalize serve (db.claimRow r p.request p.now) (p.result W (p.claimed r)) p.now = db₂ at hrep
  obtain ⟨⟨prog, hsteps, hstate, hattempt⟩, hrun, hcursor, hcount⟩ := hrep
  have hmem : r.withProgress prog ∈ db₂.steps.rows := by
    rw [hsteps]
    exact PlanTable.mem_set.mpr ⟨r, hr, by rw [if_pos rfl]⟩
  have hself : ∀ s ∈ db₂.steps.rows, db₂.run.cursorStepId = some s.id → s = r.withProgress prog := by
    intro s hs hid
    rw [hcursor, Option.some.injEq] at hid
    exact db₂.steps.eq_of_id hs hmem hid.symm
  have hnext : nextRunState (db.claimRow r p.request p.now).steps r.id = nextRunState db.steps r.id :=
    nextRunState_set _ _ _
  rcases outcome_claimed ho with ⟨hawait, hend⟩ | ⟨hawait, hend, hrunState⟩
  · rcases serve_register db₂ p.agent.agentId p.now with ⟨hnone, _⟩ | ⟨s, hs, _, hid, heq⟩
    · exact absurd hcursor (hnone (r.withProgress prog) hmem (hstate.trans hawait))
    · obtain rfl := hself s hs hid
      rw [heq]
      refine ⟨⟨{ prog with state := .done, finishedAt := some p.now }, ?_, hend.symm, hattempt⟩, ?_, ?_⟩
      · have hset : (db₂.rebootRow (r.withProgress prog) p.agent.agentId p.now).steps =
            db₂.steps.set r.id fun q => { q with state := .done, finishedAt := some p.now } := rfl
        rw [hset, hsteps, PlanTable.set_set]
        rfl
      · have hset : (db₂.rebootRow (r.withProgress prog) p.agent.agentId p.now).run.state =
            nextRunState (db₂.steps.set r.id fun q =>
              { q with state := .done, finishedAt := some p.now }) r.id := rfl
        rw [hset, hsteps, nextRunState_set, nextRunState_set, endRunState, hend]
      · rw [← hcount]
        simp [RunDb.claimCount, RunDb.rebootRow]
  · rcases serve_register db₂ p.agent.agentId p.now with ⟨_, heq⟩ | ⟨s, hs, hs', hid, _⟩
    · rw [heq]
      refine ⟨⟨prog, hsteps, hstate.trans hend, hattempt⟩, ?_, hcount⟩
      rw [hrun, hrunState, hnext]
      rfl
    · obtain rfl := hself s hs hid
      exact absurd (hstate.symm.trans hs') hawait

theorem turn_cases (W : World) (p : Poll) (hidle : Idle db) :
    (nextClaim db p.request = none ∧ turn W db p = db) ∨
    ∃ r, nextClaim db p.request = some r ∧ Moved W db r (turn W db p) := by
  cases h : nextClaim db p.request with
  | none => exact .inl ⟨rfl, turn_none hidle h⟩
  | some r => exact .inr ⟨r, rfl, turn_some h⟩

theorem turn_idle (W : World) (p : Poll) (hidle : Idle db) : Idle (turn W db p) := by
  rcases turn_cases W p hidle with ⟨_, heq⟩ | ⟨r, _, ⟨prog, hsteps, hstate, _⟩, _, _⟩
  · rwa [heq]
  · rw [Idle, hsteps]
    refine PlanTable.forall_mem_update.mpr fun q hq => ?_
    dsimp only [PlanStep.withProgress]
    split
    · rw [hstate]
      exact r.endState_settled _
    · exact hidle q hq

end Turn

end ProxmoxVEAutopilot.TsEngine

/-!
## The end of a run does not depend on who asks when

The work on a step, repeated while its retries last, decides by itself where the step
ends. A pass of an agent takes one attempt off the steps and changes none of these ends.
-/

namespace ProxmoxVEAutopilot.TsEngine

open Foundation
set_option autoImplicit false

def Verdict.leaves : Verdict → StepState
  | success => .done
  | skipped => .skipped
  | rebootRequired => .done
  | failed => .failed

/-- The state of a row and the number of its attempts. -/
abbrev Mark := StepState × Nat

/-- The attempts at one step, from one of them on. -/
def trial (verdict : Nat → Verdict) : Nat → Nat → Mark
  | attempt, 0 => ((verdict attempt).leaves, attempt)
  | attempt, retries + 1 =>
    if verdict attempt = .failed then trial verdict (attempt + 1) retries
    else ((verdict attempt).leaves, attempt)

namespace PlanStep

def mark (r : PlanStep) : Mark := (r.state, r.attempt)

/-- Failures after which the next attempt is made. -/
def retries (r : PlanStep) : Nat := (r.plan.retryCount - r.attempt).toNat

/-- Where the step ends when nothing keeps it from being tried. -/
def fate (W : World) (r : PlanStep) : Mark :=
  if r.state = .pending then trial (fun k => (W r.id k).verdict) (r.attempt + 1) r.retries
  else r.mark

/-- The attempts that are left. -/
def work (W : World) (r : PlanStep) : Nat := (r.fate W).2 - r.attempt

end PlanStep

namespace RunDb

def marks (db : RunDb) : List Mark := db.steps.rows.map PlanStep.mark

def fates (W : World) (db : RunDb) : List Mark := db.steps.rows.map (PlanStep.fate W)

def work (W : World) (db : RunDb) : Nat := (db.steps.rows.map (PlanStep.work W)).sum

end RunDb

theorem Verdict.leaves_ne_pending (v : Verdict) : v.leaves ≠ .pending := by
  cases v <;> simp [leaves]

theorem le_trial (verdict : Nat → Verdict) (retries : Nat) :
    ∀ attempt, attempt ≤ (trial verdict attempt retries).2 := by
  induction retries with
  | zero => exact fun attempt => Nat.le_refl _
  | succ retries ih =>
    intro attempt
    unfold trial
    split
    · exact Nat.le_of_succ_le (ih (attempt + 1))
    · exact Nat.le_refl _

section Attempt
variable {r : PlanStep} {W : World} {prog : StepProgress}

theorem PlanStep.fate_of_ne (h : r.state ≠ .pending) : r.fate W = r.mark := if_neg h

theorem PlanStep.lt_fate (h : r.state = .pending) : r.attempt < (r.fate W).2 := by
  unfold fate
  rw [if_pos h]
  exact le_trial _ _ _

theorem PlanStep.work_of_ne (h : r.state ≠ .pending) : r.work W = 0 := by
  unfold work
  rw [fate_of_ne h]
  exact Nat.sub_self _

theorem PlanStep.work_pos (h : r.state = .pending) : 0 < r.work W := Nat.sub_pos_of_lt (lt_fate h)

theorem PlanStep.endState_last {v : Verdict} (h : v = .failed → r.retries = 0) :
    r.endState v = v.leaves := by
  cases v with
  | failed =>
    have hretries : ¬ (r.attempt : Int) + 1 ≤ r.plan.retryCount := by
      have := h rfl
      unfold retries at this
      omega
    exact if_neg hretries
  | _ => rfl

theorem PlanStep.endState_retry {n : Nat} (h : r.retries = n + 1) : r.endState .failed = .pending := by
  have hretries : (r.attempt : Int) + 1 ≤ r.plan.retryCount := by
    unfold retries at h
    omega
  exact if_pos hretries

/-- An attempt does not change where the step ends. -/
theorem PlanStep.fate_attempt (hr : r.state = .pending)
    (hstate : prog.state = r.endState (W r.id (r.attempt + 1)).verdict)
    (hattempt : prog.attempt = r.attempt + 1) :
    (r.withProgress prog).fate W = r.fate W := by
  have hlast : ((W r.id (r.attempt + 1)).verdict = .failed → r.retries = 0) →
      trial (fun k => (W r.id k).verdict) (r.attempt + 1) r.retries =
        ((W r.id (r.attempt + 1)).verdict.leaves, r.attempt + 1) →
      (r.withProgress prog).fate W = r.fate W := by
    intro hlast htrial
    rw [endState_last hlast] at hstate
    have hne : (r.withProgress prog).state ≠ .pending :=
      fun h => Verdict.leaves_ne_pending _ (hstate.symm.trans h)
    rw [fate_of_ne hne, fate, if_pos hr, htrial]
    exact Prod.ext hstate hattempt
  cases hn : r.retries with
  | zero => exact hlast (fun _ => hn) (by rw [hn]; rfl)
  | succ n =>
    by_cases hv : (W r.id (r.attempt + 1)).verdict = .failed
    · rw [hv, endState_retry hn] at hstate
      have hleft : (r.withProgress prog).retries = n := by
        have : (r.withProgress prog).retries = (r.plan.retryCount - (prog.attempt : Int)).toNat := rfl
        rw [this, hattempt]
        unfold retries at hn
        omega
      have hnew : (r.withProgress prog).state = .pending := hstate
      rw [fate, if_pos hnew, fate, if_pos hr, hn, hleft, trial, if_pos hv]
      change trial _ (prog.attempt + 1) n = _
      rw [hattempt]
      rfl
    · refine hlast (fun h => absurd h hv) ?_
      rw [hn, trial, if_neg hv]

theorem PlanStep.work_attempt (hr : r.state = .pending)
    (hstate : prog.state = r.endState (W r.id (r.attempt + 1)).verdict)
    (hattempt : prog.attempt = r.attempt + 1) :
    (r.withProgress prog).work W + 1 = r.work W := by
  have hlt := lt_fate (W := W) hr
  have hwork : (r.withProgress prog).work W = (r.fate W).2 - (r.attempt + 1) := by
    rw [work, fate_attempt hr hstate hattempt, ← hattempt]
    rfl
  rw [hwork, work]
  omega

end Attempt

theorem PlanTable.set_rows_split {t : PlanTable} {r : PlanStep} {before after : List PlanStep}
    (h : t.rows = before ++ r :: after) (prog : StepProgress) :
    (t.set r.id fun _ => prog).rows = before ++ r.withProgress prog :: after := by
  have hids := t.ids
  rw [h, List.map_append, List.map_cons, List.nodup_append, List.nodup_cons] at hids
  obtain ⟨_, ⟨hafter, _⟩, hbefore⟩ := hids
  have hkeep : ∀ l : List PlanStep, r.id ∉ l.map (fun q => q.id) →
      l.map (fun q => q.withProgress (if q.id = r.id then prog else q.toStepProgress)) = l := by
    intro l hl
    refine (List.map_congr_left fun q hq => ?_).trans l.map_id
    rw [if_neg fun hid => hl (List.mem_map.mpr ⟨q, hq, hid⟩)]
    rfl
  change t.rows.map (fun q => q.withProgress (if q.id = r.id then prog else q.toStepProgress)) = _
  rw [h, List.map_append, List.map_cons, if_pos rfl, hkeep after hafter, hkeep before]
  exact fun hmem => hbefore _ hmem _ List.mem_cons_self rfl

section Turn
variable {db db' : RunDb} {p : Poll} {r : PlanStep} {W : World}

theorem Moved.split (h : Moved W db r db') (hr : r ∈ db.steps.rows) :
    ∃ before after prog, db.steps.rows = before ++ r :: after ∧
      db'.steps.rows = before ++ r.withProgress prog :: after ∧
      prog.state = r.endState (W r.id (r.attempt + 1)).verdict ∧ prog.attempt = r.attempt + 1 := by
  obtain ⟨before, after, hrows⟩ := List.append_of_mem hr
  obtain ⟨prog, hsteps, hstate, hattempt⟩ := h.steps
  exact ⟨before, after, prog, hrows, by rw [hsteps, PlanTable.set_rows_split hrows], hstate, hattempt⟩

theorem Moved.fates (h : Moved W db r db') (hr : r ∈ db.steps.rows) (hpending : r.state = .pending) :
    db'.fates W = db.fates W := by
  obtain ⟨before, after, prog, hrows, hrows', hstate, hattempt⟩ := h.split hr
  unfold RunDb.fates
  rw [hrows, hrows', List.map_append, List.map_append, List.map_cons, List.map_cons,
    PlanStep.fate_attempt hpending hstate hattempt]

theorem Moved.work (h : Moved W db r db') (hr : r ∈ db.steps.rows) (hpending : r.state = .pending) :
    db'.work W + 1 = db.work W := by
  obtain ⟨before, after, prog, hrows, hrows', hstate, hattempt⟩ := h.split hr
  have hwork := PlanStep.work_attempt hpending hstate hattempt
  simp only [RunDb.work, hrows, hrows', List.map_append, List.map_cons, List.sum_append, List.sum_cons]
  omega

/-- A pass keeps every end and trades an attempt for a handing out. -/
theorem turn_fates (W : World) (p : Poll) (hidle : Idle db) :
    (turn W db p).fates W = db.fates W ∧
      (turn W db p).work W + (turn W db p).claimCount = db.work W + db.claimCount := by
  rcases turn_cases W p hidle with ⟨_, heq⟩ | ⟨r, hclaim, hmoved⟩
  · rw [heq]
    exact ⟨rfl, rfl⟩
  · obtain ⟨_, hr, hpending, _⟩ := nextClaim_spec hclaim
    have hwork := hmoved.work hr hpending
    have hcount := hmoved.claimCount
    exact ⟨hmoved.fates hr hpending, by omega⟩

theorem turns_fates (W : World) (polls : List Poll) (hidle : Idle db) :
    Idle (polls.foldl (turn W) db) ∧
      (polls.foldl (turn W) db).fates W = db.fates W ∧
      (polls.foldl (turn W) db).work W + (polls.foldl (turn W) db).claimCount =
        db.work W + db.claimCount := by
  refine foldl_invariant (G := fun s => Idle s ∧ s.fates W = db.fates W ∧
    s.work W + s.claimCount = db.work W + db.claimCount) ?_ ⟨hidle, rfl, rfl⟩
  rintro s p ⟨hs, hfates, hwork⟩
  obtain ⟨hfates', hwork'⟩ := turn_fates W p hs
  exact ⟨turn_idle W p hs, hfates'.trans hfates, hwork'.trans hwork⟩

end Turn

end ProxmoxVEAutopilot.TsEngine
