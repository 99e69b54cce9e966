import ProxmoxVEAutopilot.TsEngine.Endpoints

/-!
# Finished steps

`complete_step` looks at the state of a step for one late report only, so a report
the endpoints accept for a finished step rewrites it. Everything else that agents can
ask for leaves finished steps alone.
-/

namespace ProxmoxVEAutopilot.TsEngine

open Foundation
set_option autoImplicit false

def AgentCall.names (a : AgentCall) (r : PlanStep) : Bool :=
  match a with
  | .result stepId _ => r.id == stepId
  | .rebooting body => r.id == body.stepId
  | _ => false

/-- The report names the step, and the endpoint and the engine accept it. -/
def AgentCall.reports (a : AgentCall) (r : PlanStep) : Bool :=
  a.names r &&
    match a with
    | .result _ body => r.inPhase body.phase && (Status.ofText body.status).supported
    | _ => true

def ReportsUnfinished (db : RunDb) (q : Request) : Prop :=
  match q.call with
  | .agent a => ∀ r ∈ db.steps.rows, a.reports r = true → r.finished = false
  | _ => True

/-- The operations that may move a finished step. -/
def SystemCall.Moves (call : SystemCall) (r : PlanStep) (p : StepProgress) : Prop :=
  match call with
  | .agent _ => False
  | .requeue stepId _ _ => r.id = stepId ∧ r.state = .failed ∧ p.state = .pending
  | .markDone kinds _ _ _ =>
    (normalizeKinds kinds).contains r.plan.kind = true ∧ r.state ≠ .done ∧ p.state = .done

/-- The operator or a controller asks for the step. -/
def SystemCall.concerns (call : SystemCall) (r : PlanStep) : Bool :=
  match call with
  | .agent _ => false
  | .requeue stepId _ _ => r.id == stepId
  | .markDone kinds _ _ _ => (normalizeKinds kinds).contains r.plan.kind

/-- Finished steps are kept unless they are requeued or marked done; a report on a
finished step changes neither the steps nor the run. -/
def FinishedKept (db : RunDb) (q : Request) (db' : RunDb) : Prop :=
  (∀ r ∈ db.steps.rows, r.finished = true → ∃ p, r.withProgress p ∈ db'.steps.rows ∧
    (p = r.toStepProgress ∨ q.call.Moves r p)) ∧
  (∀ a, q.call = .agent a → ∀ r ∈ db.steps.rows, r.finished = true → a.names r = true →
    db'.steps = db.steps ∧ db'.run = db.run)

/-- An engine call without an accepted report keeps a finished step or moves it as the
operator asked. -/
theorem exec_finished {db : RunDb} {c : Call} {r : PlanStep} (hr : r ∈ db.steps.rows)
    (hfinished : r.finished = true)
    (hno : ∀ agentId status message data, c.op = .complete r.id agentId status message data →
      status.supported = false) :
    ∃ p, r.withProgress p ∈ (exec db c).steps.rows ∧ (p = r.toStepProgress ∨
      (r.state = .failed ∧ p.state = .pending ∧
        ∃ requestedBy message, c.op = .requeue r.id requestedBy message) ∨
      (r.state ≠ .done ∧ p.state = .done ∧ ∃ kinds agentId message data,
        c.op = .markDone kinds agentId message data ∧
          (normalizeKinds kinds).contains r.plan.kind = true)) := by
  obtain ⟨p, hmove, hp⟩ := exists_exec_row c hr
  refine ⟨p, hp, ?_⟩
  rcases hmove.of_finished hfinished with hkeep | ⟨agentId, status, message, data, o, hop, ho⟩ | h | h
  · exact .inl hkeep
  · have := hno agentId status message data hop
    rw [outcome_ok_supported ho] at this
    cases this
  · exact .inr (.inl h)
  · exact .inr (.inr h)

theorem exec_claim_finished {db : RunDb} {c : Call} {q : ClaimRequest} (hop : c.op = .claim q)
    {r : PlanStep} (hr : r ∈ db.steps.rows) (hfinished : r.finished = true) :
    r ∈ (exec db c).steps.rows := by
  obtain ⟨p, hp, hmove⟩ := exec_finished (c := c) hr hfinished (by rw [hop]; simp)
  simp only [hop, reduceCtorEq, exists_false, false_and, and_false, or_false] at hmove
  rwa [hmove] at hp

theorem serve_next_finished {db : RunDb} (body : AgentNextBody) (now : Time) {r : PlanStep}
    (hr : r ∈ db.steps.rows) (hfinished : r.finished = true) :
    r ∈ (serve db (.next body) now).steps.rows := by
  obtain ⟨flags, hflags⟩ := serve_next db body now
  rw [hflags, List.foldl_map]
  exact List.foldlRecOn (motive := fun db : RunDb => r ∈ db.steps.rows) flags _ hr
    fun db hr flag _ => exec_claim_finished (c := nextCall body flag now) rfl hr hfinished

theorem serve_reports {db : RunDb} {a : AgentCall} (now : Time) {r : PlanStep}
    (hr : r ∈ db.steps.rows) (hfinished : r.finished = true) (hrep : a.reports r = true) :
    ∃ agentId status message data o, outcome db.steps r status now = .ok o ∧
      serve db a now = db.completeRow r o agentId status message data now := by
  have hlate : ∀ status, lateFailure r status = false := by
    intro status
    have hne : r.state ≠ .awaitingReboot := by
      intro h
      simp [PlanStep.finished, h] at hfinished
    simp [lateFailure, hne]
  cases a with
  | register agentId => simp [AgentCall.reports, AgentCall.names] at hrep
  | next body => simp [AgentCall.reports, AgentCall.names] at hrep
  | result stepId body =>
    simp only [AgentCall.reports, AgentCall.names, Bool.and_eq_true, beq_iff_eq] at hrep
    obtain ⟨rfl, hphase, hstatus⟩ := hrep
    obtain ⟨o, ho⟩ := outcome_supported (t := db.steps) (r := r) now hstatus
    refine ⟨body.agentId, .ofText body.status, body.message, body.data, o, ho, ?_⟩
    rcases serve_result db r.id body now with ⟨hno, _⟩ | ⟨_, hserve⟩
    · rw [hno r hr rfl] at hphase
      cases hphase
    · rw [hserve]
      exact exec_complete (c := resultCall r.id body now) rfl hr (hlate _) ho
  | rebooting body =>
    have hid : body.stepId = r.id := by
      simp only [AgentCall.reports, AgentCall.names, Bool.and_true, beq_iff_eq] at hrep
      exact hrep.symm
    obtain ⟨o, ho⟩ := outcome_supported (t := db.steps) (r := r) now
      (show Status.rebootRequired.supported = true from rfl)
    refine ⟨body.agentId, .rebootRequired, some (orText body.message "agent is rebooting"), .obj [], o,
      ho, ?_⟩
    rw [serve_rebooting]
    exact exec_complete (c := rebootingCall body now) (by simp only [rebootingCall, hid]) hr (hlate _) ho

theorem serve_not_reports {db : RunDb} {a : AgentCall} (now : Time) {r : PlanStep}
    (hr : r ∈ db.steps.rows) (hnames : a.names r = true) (hrep : a.reports r = false) :
    serve db a now = db := by
  cases a with
  | register agentId => cases hnames
  | next body => cases hnames
  | result stepId body =>
    have hid : r.id = stepId := by simpa [AgentCall.names] using hnames
    subst hid
    rcases serve_result db r.id body now with ⟨_, hserve⟩ | ⟨⟨q, hq, hid, hphase⟩, hserve⟩
    · exact hserve
    · rw [db.steps.eq_of_id hq hr hid] at hphase
      have hstatus : (Status.ofText body.status).supported = false := by
        simpa [AgentCall.reports, AgentCall.names, hphase] using hrep
      rw [hserve]
      cases htext : Status.ofText body.status with
      | other text =>
        simp [exec, resultCall, htext, completeStep, PlanTable.get?_of_mem hr, lateFailure, outcome,
          Except.map, committed]
      | _ => simp [htext, Status.supported] at hstatus
  | rebooting body => simp [AgentCall.reports, hnames] at hrep

theorem serve_keeps_finished {db : RunDb} {a : AgentCall} (now : Time)
    (hreports : ∀ r ∈ db.steps.rows, a.reports r = true → r.finished = false)
    {r : PlanStep} (hr : r ∈ db.steps.rows) (hfinished : r.finished = true) :
    r ∈ (serve db a now).steps.rows := by
  have hnot : a.reports r = false := by
    by_contra h
    have := hreports r hr (by simpa using h)
    rw [hfinished] at this
    cases this
  by_cases hnames : a.names r = true
  · rwa [serve_not_reports now hr hnames hnot]
  · cases a with
    | next body => exact serve_next_finished body now hr hfinished
    | register agentId =>
      rcases serve_register db agentId now with ⟨_, hserve⟩ | ⟨q, hq, hstate, _, hserve⟩
      · rwa [hserve]
      · rw [hserve]
        refine PlanTable.mem_set_of_ne hr fun hid => ?_
        rw [← db.steps.eq_of_id hr hq hid] at hstate
        simp [PlanStep.finished, hstate] at hfinished
    | result stepId body =>
      have hid : r.id ≠ stepId := by simpa [AgentCall.names] using hnames
      rcases serve_result db stepId body now with ⟨_, hserve⟩ | ⟨_, hserve⟩
      · rwa [hserve]
      · rw [hserve]
        exact exec_complete_other (c := resultCall stepId body now) rfl hr hid
    | rebooting body =>
      have hid : r.id ≠ body.stepId := by simpa [AgentCall.names] using hnames
      rw [serve_rebooting]
      exact exec_complete_other (c := rebootingCall body now) rfl hr hid

theorem handle_finishedKept {db : RunDb} {q : Request} (h : ReportsUnfinished db q) :
    FinishedKept db q (handle db q) := by
  obtain ⟨call, now⟩ := q
  cases call with
  | agent a =>
    refine ⟨fun r hr hfinished => ⟨r.toStepProgress, serve_keeps_finished now h hr hfinished, .inl rfl⟩, ?_⟩
    rintro _ ⟨rfl⟩ r hr hfinished hnames
    have hnot : a.reports r = false := by
      by_contra hrep
      have := h r hr (by simpa using hrep)
      rw [hfinished] at this
      cases this
    simp only [handle, serve_not_reports now hr hnames hnot, and_self]
  | requeue stepId requestedBy message =>
    refine ⟨fun r hr hfinished => ?_, fun a ha => nomatch ha⟩
    obtain ⟨p, hp, hmove⟩ := exec_finished (c := ⟨.requeue stepId requestedBy message, now⟩) hr hfinished
      fun _ _ _ _ hop => nomatch hop
    refine ⟨p, hp, ?_⟩
    rcases hmove with hkeep | ⟨hfailed, hpending, _, _, hop⟩ | ⟨_, _, _, _, _, _, hop, _⟩
    · exact .inl hkeep
    · injection hop with hid
      exact .inr ⟨hid.symm, hfailed, hpending⟩
    · cases hop
  | markDone kinds agentId message data =>
    refine ⟨fun r hr hfinished => ?_, fun a ha => nomatch ha⟩
    obtain ⟨p, hp, hmove⟩ := exec_finished (c := ⟨.markDone kinds agentId message data, now⟩) hr hfinished
      fun _ _ _ _ hop => nomatch hop
    refine ⟨p, hp, ?_⟩
    rcases hmove with hkeep | ⟨_, _, _, _, hop⟩ | ⟨hne, hdone, _, _, _, _, hop, hkind⟩
    · exact .inl hkeep
    · cases hop
    · injection hop with hkinds
      rw [← hkinds] at hkind
      exact .inr ⟨hkind, hne, hdone⟩

/-- A report that an older finish time cannot explain rewrites the finished step. -/
theorem not_finishedKept {db : RunDb} {a : AgentCall} {now : Time} {r : PlanStep}
    (hclock : r.finishedAt ≠ some now) (hr : r ∈ db.steps.rows) (hfinished : r.finished = true)
    (hrep : a.reports r = true) : ¬ FinishedKept db ⟨.agent a, now⟩ (serve db a now) := by
  intro hkept
  have hnames : a.names r = true := ((Bool.and_eq_true _ _).mp hrep).1
  obtain ⟨agentId, status, message, data, o, ho, hserve⟩ := serve_reports now hr hfinished hrep
  have hsteps := (hkept.2 a rfl r hr hfinished hnames).1
  have hget := PlanTable.get?_set_self (f := completedProgress o status message)
    (PlanTable.get?_of_mem hr)
  have hrow : (db.steps.set r.id (completedProgress o status message)) = db.steps := by
    rw [hserve] at hsteps
    exact hsteps
  rw [hrow, PlanTable.get?_of_mem hr, Option.some.injEq] at hget
  have hstate : r.state = o.stepState := congrArg (fun s : PlanStep => s.state) hget
  have hat : r.finishedAt = o.finishedAt := congrArg (fun s : PlanStep => s.finishedAt) hget
  have hdone : o.stepState = .done ∨ o.stepState = .skipped ∨ o.stepState = .failed := by
    rw [← hstate]
    simpa [PlanStep.finished, or_assoc] using hfinished
  exact hclock (hat.trans (outcome_finishedAt ho hdone))

theorem run_keeps_finished {db db' : RunDb} {qs : List Request}
    (hrun : Run (Guarded ReportsUnfinished handle) db qs db') {r : PlanStep}
    (hr : r ∈ db.steps.rows) (hfinished : r.finished = true) :
    r ∈ db'.steps.rows ∨ ∃ q ∈ qs, q.call.concerns r = true := by
  induction hrun with
  | nil => exact .inl hr
  | @snoc t u qs q _ hstep ih =>
    obtain ⟨hguard, rfl⟩ := hstep
    rcases ih with hmem | ⟨q', hq', hconcerns⟩
    · obtain ⟨p, hp, hkeep | hmoves⟩ := (handle_finishedKept hguard).1 r hmem hfinished
      · rw [hkeep, PlanStep.withProgress_self] at hp
        exact .inl hp
      · refine .inr ⟨q, by simp, ?_⟩
        cases hcall : q.call with
        | agent a => simp [hcall, SystemCall.Moves] at hmoves
        | requeue stepId requestedBy message =>
          simp only [hcall, SystemCall.Moves] at hmoves
          simp [SystemCall.concerns, hmoves.1]
        | markDone kinds agentId message data =>
          simp only [hcall, SystemCall.Moves] at hmoves
          exact hmoves.1
    · exact .inr ⟨q', List.mem_append_left _ hq', hconcerns⟩

/-- Requests that report on no finished step keep every finished step, one by one and
over whole runs, and at a later time no other request does. -/
theorem finished_steps_stay (db : RunDb) :
    (∀ q, ReportsUnfinished db q → FinishedKept db q (handle db q)) ∧
    (∀ q, (∀ r ∈ db.steps.rows, r.finishedAt ≠ some q.now) → FinishedKept db q (handle db q) →
      ReportsUnfinished db q) ∧
    (∀ qs db', Run (Guarded ReportsUnfinished handle) db qs db' →
      ∀ r ∈ db.steps.rows, r.finished = true →
        r ∈ db'.steps.rows ∨ ∃ q ∈ qs, q.call.concerns r = true) := by
  refine ⟨fun q => handle_finishedKept, ?_, fun qs db' hrun r => run_keeps_finished hrun⟩
  rintro ⟨call, now⟩ hclock hkept
  cases call with
  | agent a =>
    intro r hr hrep
    by_contra hfinished
    exact not_finishedKept (hclock r hr) hr (by simpa using hfinished) hrep hkept
  | requeue stepId requestedBy message => trivial
  | markDone kinds agentId message data => trivial

def finishingStep : Node :=
  { id := 1, parentId := none, position := 0, nodeType := .step "install_package", name := "Install"
    phase := "full_os" }

def askNext : Request := { call := .agent (.next { agentId := "agent", phase := "full_os" }), now := 1 }

def reportStatus (status : String) (now : Time) : Request where
  call := .agent (.result 1 { agentId := "agent", phase := "full_os", status := status })
  now := now

def finishedRun : RunDb :=
  [askNext, reportStatus "success" 2].foldl handle (createdFrom [finishingStep] rfl)

theorem finishedRun_keeps_over_poll :
    ReportsUnfinished finishedRun askNext ∧
    FinishedKept finishedRun askNext (handle finishedRun askNext) ∧
    ∀ r ∈ finishedRun.steps.rows, r.finished = true →
      r ∈ (handle finishedRun askNext).steps.rows ∨ ∃ q ∈ [askNext], q.call.concerns r = true := by
  have h : ReportsUnfinished finishedRun askNext := fun _ _ h => nomatch h
  obtain ⟨hstep, _, hrun⟩ := finished_steps_stay finishedRun
  exact ⟨h, hstep askNext h, hrun [askNext] _ (Run.single ⟨h, rfl⟩)⟩

/-- A late failure report takes the finished step back to failed. -/
theorem finishedRun_late_failure :
    ∃ db₀ qs db q, Created db₀ ∧ Run (Guarded (fun _ _ => True) handle) db₀ qs db ∧
      ¬ FinishedKept db q (handle db q) := by
  refine ⟨createdFrom [finishingStep] rfl, [askNext, reportStatus "success" 2], finishedRun,
    reportStatus "failed" 3, created_createdFrom _ rfl, Run.of_replays ⟨trivial, trivial, trivial⟩, ?_⟩
  intro hkept
  have hrow : finishedRun.steps.rows.head (by decide) ∈ finishedRun.steps.rows := List.head_mem _
  have hlate : ∀ r ∈ (handle finishedRun (reportStatus "failed" 3)).steps.rows, r.state = .failed := by
    decide
  obtain ⟨p, hp, hkeep | hmoves⟩ := hkept.1 _ hrow (by decide)
  · have hstate := hlate _ hp
    rw [hkeep] at hstate
    exact absurd hstate (by decide)
  · exact hmoves

end ProxmoxVEAutopilot.TsEngine
