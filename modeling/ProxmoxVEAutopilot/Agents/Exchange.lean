import ProxmoxVEAutopilot.Agents.Client

/-!
# What an exchange leaves behind

A row enters `running` only through an answered `next`, and an accepted result takes it
out again. A client holds a step from the answer that hands it out to the answer that
accepts its result.
-/

namespace ProxmoxVEAutopilot.Agents

open Foundation TsEngine
set_option autoImplicit false

theorem outcome_not_running {t : PlanTable} {r : PlanStep} {status : Status} {now : Time} {o : Outcome}
    (h : outcome t r status now = .ok o) : o.stepState ≠ .running := by
  rcases outcome_cases h with ⟨_, rfl⟩ | ⟨_, _, rfl⟩ | ⟨_, rfl⟩ | ⟨_, _, rfl⟩ | ⟨_, _, rfl⟩ <;> simp

theorem respond_next {db : RunDb} {body : AgentNextBody} {now : Time} (hbatch : body.batch = 1) :
    respond db (.next body) now =
      ((claimNextStep db (body.request false) now).1,
        .answer (claimNextStep db (body.request false) now).2) := by
  have hclaims : nextAction db body now =
      ((claimNextStep db (body.request false) now).1,
        (claimNextStep db (body.request false) now).2.toList) := by
    simp only [nextAction, hbatch, claimBatch, List.isEmpty_nil, Bool.not_true]
    split <;> simp_all
  simp only [respond, hclaims]
  cases (claimNextStep db (body.request false) now).2 <;> rfl

theorem respond_result (db : RunDb) (stepId : Uuid) (body : StepResultBody) (now : Time) :
    respond db (.result stepId body) now = (db, .error) ∨
    ∃ r ∈ db.steps.rows, r.id = stepId ∧
      (respond db (.result stepId body) now).2 = .answer none ∧
      ((lateFailure r (.ofText body.status) = true ∧
          (respond db (.result stepId body) now).1.steps = db.steps ∧
          (respond db (.result stepId body) now).1.run = db.run) ∨
        (lateFailure r (.ofText body.status) = false ∧
          ∃ o, outcome db.steps r (.ofText body.status) now = .ok o ∧
            (respond db (.result stepId body) now).1 =
              db.completeRow r o body.agentId (.ofText body.status) body.message body.data now)) := by
  simp only [respond, postStepResult]
  cases hget : db.steps.get? stepId with
  | none => exact .inl rfl
  | some r =>
    obtain ⟨hr, hid⟩ := PlanTable.get?_eq_some.mp hget
    cases hphase : r.inPhase body.phase with
    | false => exact .inl (by simp [hphase])
    | true =>
      cases hlate : lateFailure r (.ofText body.status) with
      | true =>
        refine .inr ⟨r, hr, hid, ?_⟩
        simp [hphase, completeStep, hget, hlate, Except.mapError]
      | false =>
        cases ho : outcome db.steps r (.ofText body.status) now with
        | error e => exact .inl (by simp [hphase, completeStep, hget, hlate, ho, Except.map, Except.mapError])
        | ok o =>
          refine .inr ⟨r, hr, hid, ?_⟩
          simp [hphase, completeStep, hget, hlate, ho, Except.map, Except.mapError]

theorem mem_set_running {t : PlanTable} {id : Uuid} {f : StepProgress → StepProgress} {r : PlanStep}
    (hf : ∀ p, (f p).state ≠ .running) (hr : r ∈ (t.set id f).rows) (hrunning : r.state = .running) :
    r ∈ t.rows ∧ r.id ≠ id := by
  obtain ⟨q, hq, rfl⟩ := PlanTable.mem_set.mp hr
  by_cases hid : q.id = id
  · rw [if_pos hid] at hrunning
    exact absurd hrunning (hf _)
  · rw [if_neg hid, PlanStep.withProgress_self]
    exact ⟨hq, hid⟩

theorem respond_running {db : RunDb} {call : ClientCall} {now : Time} {r : PlanStep}
    (hbatch : ∀ body, call = .next body → body.batch = 1)
    (hr : r ∈ (respond db call now).1.steps.rows) (hrunning : r.state = .running) :
    (∃ a, (respond db call now).2 = .answer (some a) ∧ a.id = r.id) ∨
    (∃ q ∈ db.steps.rows, q.id = r.id ∧ q.state = .running ∧
      ∀ body, call = .result r.id body → (respond db call now).2 = .error) := by
  cases call with
  | register agentId =>
    refine .inr ?_
    have hserve : (respond db (.register agentId) now).1 = serve db (.register agentId) now := rfl
    rw [hserve] at hr
    rcases serve_register db agentId now with ⟨_, hsame⟩ | ⟨q, _, _, _, hdone⟩
    · rw [hsame] at hr
      exact ⟨r, hr, rfl, hrunning, fun body h => by cases h⟩
    · rw [hdone] at hr
      exact ⟨r, (mem_set_running (by simp) hr hrunning).1, rfl, hrunning, fun body h => by cases h⟩
  | next body =>
    rw [respond_next (hbatch body rfl)] at hr ⊢
    cases hclaim : nextClaim db (body.request false) with
    | none =>
      simp only [claimNextStep, hclaim] at hr
      exact .inr ⟨r, hr, rfl, hrunning, fun body h => by cases h⟩
    | some q =>
      simp only [claimNextStep, hclaim] at hr ⊢
      by_cases hid : q.id = r.id
      · exact .inl ⟨_, rfl, hid⟩
      · obtain ⟨p, hp, hpr⟩ := PlanTable.mem_set.mp hr
        have hpid : p.id ≠ q.id := by
          rintro h
          apply hid
          rw [← hpr, PlanStep.withProgress_id, h]
        rw [if_neg hpid, PlanStep.withProgress_self] at hpr
        subst hpr
        exact .inr ⟨p, hp, rfl, hrunning, fun body h => by cases h⟩
  | result stepId body =>
    refine .inr ?_
    rcases respond_result db stepId body now with hrefused | ⟨q, hq, hid, _, hlate | hwritten⟩
    · rw [hrefused] at hr ⊢
      exact ⟨r, hr, rfl, hrunning, fun _ _ => rfl⟩
    · obtain ⟨hlate, hsteps, _⟩ := hlate
      rw [hsteps] at hr
      refine ⟨r, hr, rfl, hrunning, fun body' h => ?_⟩
      -- the ignored result was for a step that awaits its reboot
      injection h with hstep
      have hqr := db.steps.eq_of_id hq hr (hid.trans hstep)
      simp [lateFailure, hqr, hrunning] at hlate
    · obtain ⟨_, o, ho, hdb⟩ := hwritten
      rw [hdb] at hr
      have hnot : ∀ p, (completedProgress o (.ofText body.status) body.message p).state ≠ .running :=
        fun p => outcome_not_running ho
      obtain ⟨hmem, hne⟩ := mem_set_running hnot hr hrunning
      refine ⟨r, hmem, rfl, hrunning, fun body' h => ?_⟩
      injection h with hstep
      exact absurd (hid.trans hstep).symm hne
  | stepLog stepId => exact .inr ⟨r, hr, rfl, hrunning, fun body h => by cases h⟩
  | phaseComplete phase => exact .inr ⟨r, hr, rfl, hrunning, fun body h => by cases h⟩

theorem respond_hands {db : RunDb} {call : ClientCall} {now : Time} {a : PlanStep}
    (h : (respond db call now).2 = .answer (some a)) : ∃ body, call = .next body := by
  cases call with
  | next body => exact ⟨body, rfl⟩
  | result stepId body =>
    rcases respond_result db stepId body now with hrefused | ⟨_, _, _, hanswer, _⟩
    · rw [hrefused] at h
      cases h
    · rw [hanswer] at h
      cases h
  | register agentId => cases h
  | stepLog stepId =>
    simp only [respond] at h
    split at h <;> cases h
  | phaseComplete phase => cases h

theorem call_next_batch {cfg : ClientConfig} {x : Activity} {body : AgentNextBody}
    (h : x.call cfg = some (.next body)) : body.batch = 1 := by
  cases x <;> simp only [Activity.call, Option.some.injEq, reduceCtorEq, ClientCall.next.injEq] at h
  subst h
  rfl

/-- The action a client must still report: handed out to it, and its result not accepted. -/
def Client.held? (c : Client) : Option PlanStep :=
  match c.activity with
  | .asking _ _ =>
    match c.wire with
    | .answer action => action
    | _ => none
  | .logging a _ => some a
  | .working a _ => some a
  | .reporting a _ _ =>
    match c.wire with
    | .answer _ => none
    | _ => some a
  | _ => none

def Client.Holds (c : Client) (id : Uuid) : Prop := ∃ a, c.held? = some a ∧ a.id = id

/-- The client's code lets go of the step it holds: the answer that hands it out is lost,
the process dies, or the last attempt of a call outside every `try` fails. -/
def Client.abandons (cfg : ClientConfig) (c : Client) (e : ClientEvent) : Bool :=
  match e with
  | .crash => true
  | .loseAnswer =>
    match c.activity with
    | .asking _ _ => true
    | _ => false
  | .raise _ =>
    match c.wire with
    | .error =>
      decide (cfg.attempts ≤ c.attempt) &&
        match c.activity with
        | .reporting _ report _ => !report.guarded
        | _ => true
    | _ => false
  | _ => false

def Activity.action? : Activity → Option PlanStep
  | .logging a _ => some a
  | .working a _ => some a
  | .reporting a _ _ => some a
  | _ => none

def Activity.executing : Activity → Bool
  | .logging _ _ => true
  | .working _ _ => true
  | .reporting _ _ _ => true
  | .rebooting _ _ => true
  | _ => false

@[simp] theorem enter_held (cfg : ClientConfig) (c : Client) (x : Activity) :
    (c.enter cfg x).held? = x.action? := by
  cases x <;> rfl

/-- The activities a client goes on with, each with the event that leads there. -/
inductive Next (cfg : ClientConfig) (c : Client) : ClientEvent → Activity → Prop where
  | start : c.activity = .stopped → Next cfg c .start .registering
  | wake : c.activity = .sleeping → Next cfg c .wake cfg.onWake
  | answer {action : Option PlanStep} : c.wire = .answer action →
      Next cfg c .receive (cfg.onAnswer c.activity action)
  | error {fault : Fault} : c.wire = .error → cfg.attempts ≤ c.attempt →
      Next cfg c (.raise fault) (cfg.onError c.activity fault)
  | finish {r : WorkResult} {x : Activity} : cfg.onFinish c.activity r = some x →
      Next cfg c (.finish r) x

/-- Everything `react` can do. -/
inductive Reaction (cfg : ClientConfig) (c : Client) : ClientEvent → Client → Prop where
  | stay {e : ClientEvent} : e ≠ .crash → Reaction cfg c e c
  | enter {e : ClientEvent} {c' : Client} {x : Activity} : Next cfg c e x →
      Reaction cfg c e (c'.enter cfg x)
  | timeout : c.wire = .request → Reaction cfg c .timeout { c with wire := .error }
  | lost {action : Option PlanStep} : c.wire = .answer action →
      Reaction cfg c .loseAnswer { c with wire := .error, registered := false, asked := false }
  | retry {fault : Fault} : c.wire = .error →
      Reaction cfg c (.raise fault) { c with wire := .request, attempt := c.attempt + 1 }
  | crash : Reaction cfg c .crash {}

theorem react_reaction (cfg : ClientConfig) (c : Client) (e : ClientEvent) :
    Reaction cfg c e (c.react cfg e) := by
  cases e with
  | start =>
    simp only [Client.react]
    split
    · exact .enter (.start ‹_›)
    · exact .stay (by simp)
  | wake =>
    simp only [Client.react]
    split
    · exact .enter (.wake ‹_›)
    · exact .stay (by simp)
  | serve => exact .stay (by simp)
  | receive =>
    simp only [Client.react]
    split
    · exact .enter (.answer ‹_›)
    · exact .stay (by simp)
  | timeout =>
    simp only [Client.react]
    split
    · exact .timeout ‹_›
    · exact .stay (by simp)
  | loseAnswer =>
    simp only [Client.react]
    split
    · exact .lost ‹_›
    · exact .stay (by simp)
  | raise fault =>
    simp only [Client.react]
    split
    · split
      · exact .retry ‹_›
      · exact .enter (.error ‹_› (Nat.le_of_not_lt ‹_›))
    · exact .stay (by simp)
  | finish r =>
    simp only [Client.react]
    split
    · exact .enter (.finish ‹_›)
    · exact .stay (by simp)
  | crash => exact .crash

theorem Next.held {cfg : ClientConfig} {c : Client} {e : ClientEvent} {x : Activity} {a : PlanStep}
    (h : Next cfg c e x) (hkeep : c.abandons cfg e = false) (hheld : c.held? = some a) :
    x.action? = some a := by
  cases h with
  | start hx => simp [Client.held?, hx] at hheld
  | wake hx => simp [Client.held?, hx] at hheld
  | @answer action hw =>
    cases hx : c.activity with
    | asking phase turn =>
      have haction : action = some a := by simpa only [Client.held?, hx, hw] using hheld
      subst haction
      simp only [ClientConfig.onAnswer, ClientConfig.afterNext]
      cases cfg.kind <;> rfl
    | logging b turn => simpa [ClientConfig.onAnswer, Activity.action?, Client.held?, hx] using hheld
    | working b turn => simpa [ClientConfig.onAnswer, Activity.action?, Client.held?, hx] using hheld
    | _ => simp [Client.held?, hx, hw] at hheld
  | error hw hspent =>
    cases hx : c.activity with
    | reporting b report turn =>
      have hguarded : report.guarded = true := by simpa [Client.abandons, hspent, hx, hw] using hkeep
      simpa [ClientConfig.onError, hguarded, Activity.action?, Client.held?, hx, hw] using hheld
    | _ => simp [Client.abandons, hspent, hx, hw] at hkeep
  | finish hfinish =>
    cases hx : c.activity with
    | working b turn =>
      rw [hx] at hfinish
      obtain ⟨report, _, rfl⟩ := Option.map_eq_some_iff.mp hfinish
      simpa [Activity.action?, Client.held?, hx] using hheld
    | rebooting b turn => simp [Client.held?, hx] at hheld
    | _ =>
      rw [hx] at hfinish
      cases hfinish

theorem react_held {cfg : ClientConfig} {c : Client} {e : ClientEvent} {a : PlanStep}
    (hkeep : c.abandons cfg e = false) (hheld : c.held? = some a) :
    (c.react cfg e).held? = some a := by
  have hreact := react_reaction cfg c e
  generalize c.react cfg e = c' at hreact
  cases hreact with
  | stay => exact hheld
  | enter hnext =>
    rw [enter_held]
    exact hnext.held hkeep hheld
  | timeout hw => cases hx : c.activity <;> simp_all [Client.held?]
  | lost hw => cases hx : c.activity <;> simp_all [Client.held?, Client.abandons]
  | retry hw => cases hx : c.activity <;> simp_all [Client.held?]
  | crash => cases hkeep

section Served
variable {cfg : ClientConfig} {c : Client} {db : RunDb} {now : Time} {call : ClientCall}

theorem sent_eq_some (h : c.sent cfg = some call) : c.wire = .request ∧ c.activity.call cfg = some call := by
  unfold Client.sent at h
  split at h
  · rename_i hw
    exact ⟨hw, h⟩
  · cases h

theorem served_hands {a : PlanStep} (hsent : c.sent cfg = some call)
    (hanswer : (respond db call now).2 = .answer (some a)) :
    ({ c with wire := (respond db call now).2 } : Client).held? = some a := by
  obtain ⟨body, rfl⟩ := respond_hands hanswer
  obtain ⟨_, hcall⟩ := sent_eq_some hsent
  rw [hanswer]
  cases hx : c.activity <;> simp_all [Activity.call, Client.held?]

theorem served_keeps {a : PlanStep} (hsent : c.sent cfg = some call) (hheld : c.held? = some a)
    (hopen : ∀ body, call = .result a.id body → (respond db call now).2 = .error) :
    ({ c with wire := (respond db call now).2 } : Client).held? = some a := by
  obtain ⟨hw, hcall⟩ := sent_eq_some hsent
  cases hx : c.activity with
  | logging b turn => simpa [Client.held?, hx] using hheld
  | working b turn => simpa [Client.held?, hx] using hheld
  | reporting b report turn =>
    have hid : b = a := by simpa [Client.held?, hx, hw] using hheld
    subst hid
    rw [hx, Activity.call, Option.some.injEq] at hcall
    simp [Client.held?, hopen _ hcall.symm]
  | _ => simp [Client.held?, hx, hw] at hheld

end Served

end ProxmoxVEAutopilot.Agents
