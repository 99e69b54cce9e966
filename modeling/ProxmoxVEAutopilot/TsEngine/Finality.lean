import ProxmoxVEAutopilot.TsEngine.Moves

/-!
# Terminal runs

Four operations compute the run state from the steps without reading it first. What
they can do to a terminal run depends on the report and on the step it is about; only
`mark_steps_done_by_kind` looks before it writes.
-/

namespace ProxmoxVEAutopilot.TsEngine

open Foundation
set_option autoImplicit false

theorem nextRunState_cases (t : PlanTable) (id : Uuid) :
    (nextRunState t id = .queued ∧ ∃ r ∈ t.rows, r.id ≠ id ∧ r.unfinished = true) ∨
    (nextRunState t id = .done ∧ ∀ r ∈ t.rows, r.id ≠ id → r.unfinished = false) := by
  unfold nextRunState
  split
  · rename_i h
    obtain ⟨r, hr, hopen⟩ := List.any_eq_true.mp h
    obtain ⟨hid, hopen⟩ := (Bool.and_eq_true _ _).mp hopen
    exact .inl ⟨rfl, r, hr, by simpa using hid, hopen⟩
  · rename_i h
    refine .inr ⟨rfl, fun r hr hid => ?_⟩
    by_contra hopen
    exact h (List.any_eq_true.mpr ⟨r, hr, by simp [hid, hopen]⟩)

theorem nextRunState_set (t : PlanTable) (id : Uuid) (f : StepProgress → StepProgress) :
    nextRunState (t.set id f) id = nextRunState t id := by
  have hany : ((t.set id f).rows.any fun r => r.id != id && r.unfinished) =
      t.rows.any fun r => r.id != id && r.unfinished := by
    simp only [PlanTable.set, PlanTable.update, List.any_map]
    congr 1
    funext r
    by_cases hid : r.id = id
    · simp [hid]
    · simp [hid]
  simp only [nextRunState, hany]

theorem nextRunState_ne_failed (t : PlanTable) (id : Uuid) : nextRunState t id ≠ .failed := by
  rcases nextRunState_cases t id with ⟨h, _⟩ | ⟨h, _⟩ <;> simp [h]

def DoneFinished (db : RunDb) : Prop :=
  db.run.state = .done → ∀ r ∈ db.steps.rows, r.unfinished = false

theorem Initial.doneFinished {db : RunDb} (h : Initial db) : DoneFinished db := by
  intro hdone
  rw [h.queued] at hdone
  cases hdone

theorem set_finished {t : PlanTable} {r : PlanStep} {f : StepProgress → StepProgress}
    (hr : r ∈ t.rows) (hothers : ∀ s ∈ t.rows, s.id ≠ r.id → s.unfinished = false)
    (hf : (r.withProgress (f r.toStepProgress)).unfinished = false) :
    ∀ s ∈ (t.set r.id f).rows, s.unfinished = false := by
  intro s hs
  obtain ⟨q, hq, rfl⟩ := PlanTable.mem_set.mp hs
  by_cases hid : q.id = r.id
  · rw [if_pos hid, t.eq_of_id hq hr hid]
    exact hf
  · rw [if_neg hid]
    exact hothers q hq hid

theorem outcome_done {t : PlanTable} {r : PlanStep} {status : Status} {now : Time} {o : Outcome}
    (h : outcome t r status now = .ok o) (hdone : o.runState = .done) :
    nextRunState t r.id = .done ∧
      (o.stepState = .done ∨ o.stepState = .skipped ∨ o.stepState = .failed) := by
  rcases outcome_cases h with ⟨_, rfl⟩ | ⟨_, _, rfl⟩ | ⟨_, rfl⟩ | ⟨_, _, rfl⟩ | ⟨_, _, rfl⟩
  · cases hdone
  · exact ⟨hdone, .inl rfl⟩
  · exact ⟨hdone, .inr (.inl rfl)⟩
  · cases hdone
  · refine ⟨?_, .inr (.inr rfl)⟩
    dsimp only at hdone
    split at hdone
    · exact hdone
    · cases hdone

/-- Only `mark_steps_done_by_kind` reads the run state before it writes it. -/
theorem markedRun_state (run : RunRow) (t : PlanTable) (rows : List PlanStep) (changed : Nat)
    (now : Time) :
    (markedRun run t rows changed now).state =
      if (∀ r ∈ t.rows, r.remaining = false) ∧ run.state ≠ .failed then .done else run.state := by
  have hcount : t.rows.countP PlanStep.remaining = 0 ↔ ∀ r ∈ t.rows, r.remaining = false := by
    simp [List.countP_eq_zero]
  unfold markedRun
  by_cases hrem : t.rows.countP PlanStep.remaining = 0
  · rw [if_pos hrem]
    by_cases hfailed : run.state = .failed
    · rw [if_pos hfailed, if_neg fun h => h.2 hfailed]
    · rw [if_neg hfailed, if_pos ⟨hcount.mp hrem, hfailed⟩]
  · have hne : ¬ ((∀ r ∈ t.rows, r.remaining = false) ∧ run.state ≠ .failed) :=
      fun h => hrem (hcount.mpr h.1)
    rw [if_neg hrem, if_neg hne]
    split <;> rfl

/-- Evidence moves the engine's run to `done` at most, and never from `failed`. -/
def MayFinish (a b : RunState) : Prop := b = a ∨ a ≠ .failed ∧ b = .done

theorem mayFinish_mark (db : RunDb) (kinds : List String) (agentId : String) (message : Option String)
    (data : Json) (now : Time) :
    MayFinish db.run.state (markStepsDoneByKind db kinds agentId message data now).1.run.state := by
  unfold markStepsDoneByKind
  split
  · exact .inl rfl
  · dsimp only
    rw [markedRun_state, foldl_markRow_run]
    split
    · rename_i h
      exact .inr ⟨h.2, rfl⟩
    · exact .inl rfl

theorem MayFinish.failed {a b : RunState} (h : MayFinish a b) : b = .failed ↔ a = .failed := by
  rcases h with rfl | ⟨hne, rfl⟩
  · rfl
  · simp [hne]

theorem MayFinish.done {a b : RunState} (h : MayFinish a b) (ha : a = .done) : b = .done := by
  rcases h with rfl | ⟨_, rfl⟩
  · exact ha
  · rfl

theorem Effect.doneFinished {db db' : RunDb} {c : Call} (he : Effect db c db')
    (h : DoneFinished db) : DoneFinished db' := by
  intro hdone
  cases he with
  | unchanged => exact h hdone
  | lateIgnored => exact h hdone
  | claimed => cases hdone
  | @completed r _ _ _ _ o _ hr _ ho =>
    obtain ⟨hnext, hstate⟩ := outcome_done ho hdone
    rcases nextRunState_cases db.steps r.id with ⟨hqueued, _⟩ | ⟨_, hothers⟩
    · rw [hnext] at hqueued
      cases hqueued
    · refine set_finished hr hothers ?_
      rcases hstate with hs | hs | hs <;>
        simp [PlanStep.unfinished, PlanStep.withProgress, completedProgress, hs]
  | @rebooted r _ _ hr _ =>
    have hnext : nextRunState db.steps r.id = .done := by
      rw [← nextRunState_set db.steps r.id]
      exact hdone
    rcases nextRunState_cases db.steps r.id with ⟨hqueued, _⟩ | ⟨_, hothers⟩
    · rw [hnext] at hqueued
      cases hqueued
    · exact set_finished hr hothers rfl
  | requeued => cases hdone
  | @marked kinds agentId _ _ _ changed _ hsteps hrun =>
    rw [hrun, markedRun_state] at hdone
    split at hdone
    · rename_i hrem
      intro r hr
      have hr := hrem.1 r hr
      simp only [PlanStep.remaining, Bool.or_eq_false_iff] at hr
      exact hr.1
    · rw [hsteps]
      refine PlanTable.forall_mem_update.mpr fun q hq => ?_
      split
      · rfl
      · exact h hdone q hq

theorem foldl_exec_doneFinished {db : RunDb} (cs : List Call) (h : DoneFinished db) :
    DoneFinished (cs.foldl exec db) :=
  List.foldlRecOn cs exec h fun db hdb c _ => (exec_effect db c).doneFinished hdb

def KeepsTerminal (db db' : RunDb) : Prop :=
  db.run.state = .failed ∨ db.run.state = .done → db'.run.state = db.run.state

def Call.isRequeue (c : Call) : Bool :=
  match c.op with
  | .requeue _ _ _ => true
  | _ => false

/-- Calls that cannot reopen a terminal run: on a failed run no reboot ends and no report
is accepted but the last failure of a step that must not fail; on a done run accepted
reports finish their step and do not fail the run. -/
def TerminalSafe (db : RunDb) (c : Call) : Prop :=
  match c.op with
  | .complete stepId _ status _ _ => ∀ r ∈ db.steps.rows, r.id = stepId →
      lateFailure r status = false → status.supported = true →
      (db.run.state = .failed →
        status = .failed ∧ r.retriesRemaining = false ∧ r.plan.continueOnError = false) ∧
      (db.run.state = .done →
        (status = .success ∧ r.plan.rebootBehavior ≠ .required) ∨ status = .skipped ∨
        (status = .failed ∧ r.retriesRemaining = false ∧ r.plan.continueOnError = true))
  | .rebootComplete stepId _ => ∀ r ∈ db.steps.rows, r.id = stepId → r.state = .awaitingReboot →
      db.run.state ≠ .failed
  | _ => True

theorem outcome_runState_failed_iff {t : PlanTable} {r : PlanStep} {status : Status} {now : Time}
    {o : Outcome} (h : outcome t r status now = .ok o) :
    o.runState = .failed ↔
      status = .failed ∧ r.retriesRemaining = false ∧ r.plan.continueOnError = false := by
  have hnext := nextRunState_ne_failed t r.id
  rcases outcome_cases h with ⟨hs, rfl⟩ | ⟨hs, _, rfl⟩ | ⟨hs, rfl⟩ | ⟨hs, hretry, rfl⟩ | ⟨hs, hretry, rfl⟩
  · rcases hs with ⟨hs, _⟩ | hs <;> simp [hs]
  · simp [hs, hnext]
  · simp [hs, hnext]
  · simp [hs, hretry]
  · cases hcoe : r.plan.continueOnError <;> simp [hs, hretry, hnext]

theorem outcome_runState_done_iff {t : PlanTable} {r : PlanStep} {status : Status} {now : Time}
    {o : Outcome} (h : outcome t r status now = .ok o) (hnext : nextRunState t r.id = .done) :
    o.runState = .done ↔
      (status = .success ∧ r.plan.rebootBehavior ≠ .required) ∨ status = .skipped ∨
      (status = .failed ∧ r.retriesRemaining = false ∧ r.plan.continueOnError = true) := by
  rcases outcome_cases h with ⟨hs, rfl⟩ | ⟨hs, hreq, rfl⟩ | ⟨hs, rfl⟩ | ⟨hs, hretry, rfl⟩ | ⟨hs, hretry, rfl⟩
  · rcases hs with ⟨hs, hreq⟩ | hs <;> simp [*]
  · simp [hs, hreq, hnext]
  · simp [hs, hnext]
  · simp [hs, hretry]
  · cases hcoe : r.plan.continueOnError <;> simp [hs, hretry, hnext]

theorem DoneFinished.nextRunState {db : RunDb} (h : DoneFinished db) (hdone : db.run.state = .done)
    (id : Uuid) : nextRunState db.steps id = .done := by
  rcases nextRunState_cases db.steps id with ⟨_, r, hr, _, hopen⟩ | ⟨hnext, _⟩
  · rw [h hdone r hr] at hopen
    cases hopen
  · exact hnext

theorem nextClaim_terminal {db : RunDb} (h : db.run.state = .failed ∨ db.run.state = .done)
    (q : ClaimRequest) : nextClaim db q = none := by
  unfold nextClaim
  rcases h with h | h <;> simp [h, RunState.isOpen]

theorem keepsTerminal_complete {db : RunDb} {c : Call} {stepId : Uuid} {agentId : String}
    {status : Status} {message : Option String} {data : Json} (hdone : DoneFinished db)
    (hop : c.op = .complete stepId agentId status message data) :
    KeepsTerminal db (exec db c) ↔ TerminalSafe db c := by
  rcases exec_complete_cases db hop with
    ⟨r, hr, rfl, hlate, hstatus, o, ho, hexec⟩ | ⟨hno, hrefused, _⟩
  · have hstate : (exec db c).run.state = o.runState := by
      rw [hexec]
      rfl
    simp only [KeepsTerminal, TerminalSafe, hop, hstate]
    constructor
    · intro h s hs hid _ _
      rw [db.steps.eq_of_id hs hr hid]
      refine ⟨fun hrun => ?_, fun hrun => ?_⟩
      · exact (outcome_runState_failed_iff ho).mp ((h (.inl hrun)).trans hrun)
      · exact (outcome_runState_done_iff ho (hdone.nextRunState hrun r.id)).mp
          ((h (.inr hrun)).trans hrun)
    · intro h hrun
      obtain ⟨hfailed, hdone'⟩ := h r hr rfl hlate hstatus
      rcases hrun with hrun | hrun
      · rw [hrun]
        exact (outcome_runState_failed_iff ho).mpr (hfailed hrun)
      · rw [hrun]
        exact (outcome_runState_done_iff ho (hdone.nextRunState hrun r.id)).mpr (hdone' hrun)
  · refine iff_of_true (fun _ => by rw [hrefused]) ?_
    simp only [TerminalSafe, hop]
    intro r hr hid hlate hstatus
    rw [hno r hr hid hlate] at hstatus
    cases hstatus

theorem keepsTerminal_rebootComplete {db : RunDb} {c : Call} {stepId : Uuid} {agentId : String}
    (hdone : DoneFinished db) (hop : c.op = .rebootComplete stepId agentId) :
    KeepsTerminal db (exec db c) ↔ TerminalSafe db c := by
  rcases exec_rebootComplete_cases db hop with ⟨r, hr, rfl, hawait, hexec⟩ | ⟨hno, hrefused⟩
  · have hstate : (exec db c).run.state = nextRunState db.steps r.id := by
      rw [hexec]
      exact nextRunState_set db.steps r.id _
    have hnotDone : db.run.state ≠ .done := by
      intro hrun
      have hopen := hdone hrun r hr
      simp [PlanStep.unfinished, hawait] at hopen
    simp only [KeepsTerminal, TerminalSafe, hop, hstate]
    constructor
    · intro h _ _ _ _ hrun
      exact nextRunState_ne_failed db.steps r.id ((h (.inl hrun)).trans hrun)
    · intro h hrun
      rcases hrun with hrun | hrun
      · exact absurd hrun (h r hr rfl hawait)
      · exact absurd hrun hnotDone
  · refine iff_of_true (fun _ => by rw [hrefused]) ?_
    simp only [TerminalSafe, hop]
    exact fun r hr hid hawait => absurd hawait (hno r hr hid)

theorem keepsTerminal_markDone {db : RunDb} {c : Call} {kinds : List String} {agentId : String}
    {message : Option String} {data : Json} (hop : c.op = .markDone kinds agentId message data) :
    KeepsTerminal db (exec db c) := by
  intro hrun
  rcases exec_markDone_cases db hop with ⟨_, hexec⟩ | ⟨_, changed, hmarked⟩
  · rw [hexec]
  · rw [hmarked, markedRun_state]
    split
    · rename_i h
      exact (hrun.resolve_left h.2).symm
    · rfl

theorem keepsTerminal_iff {db : RunDb} (hdone : DoneFinished db) {c : Call}
    (hrequeue : c.isRequeue = false) : KeepsTerminal db (exec db c) ↔ TerminalSafe db c := by
  cases hop : c.op with
  | claim q =>
    refine iff_of_true (fun hrun => ?_) (by simp [TerminalSafe, hop])
    simp only [exec, hop, claimNextStep, nextClaim_terminal hrun q]
  | complete stepId agentId status message data => exact keepsTerminal_complete hdone hop
  | rebootComplete stepId agentId => exact keepsTerminal_rebootComplete hdone hop
  | requeue stepId requestedBy message => simp [Call.isRequeue, hop] at hrequeue
  | markDone kinds agentId message data =>
    exact iff_of_true (keepsTerminal_markDone hop) (by simp [TerminalSafe, hop])

theorem run_keepsTerminal {db db' : RunDb} {cs : List Call} (hdone : DoneFinished db)
    (hrun : Run (Guarded (fun db c => c.isRequeue = false ∧ TerminalSafe db c) exec) db cs db') :
    KeepsTerminal db db' := by
  have h : DoneFinished db' ∧ KeepsTerminal db db' := by
    refine hrun.invariant (P := fun s => DoneFinished s ∧ KeepsTerminal db s) ?_ ⟨hdone, fun _ => rfl⟩
    rintro s c _ ⟨hs, hkeeps⟩ ⟨⟨hrequeue, hsafe⟩, rfl⟩
    refine ⟨(exec_effect s c).doneFinished hs, fun hterminal => ?_⟩
    have heq := hkeeps hterminal
    rw [← heq] at hterminal
    exact ((keepsTerminal_iff hs hrequeue).mpr hsafe hterminal).trans heq
  exact h.2

/-- In every reached state a call other than a requeue keeps a terminal run exactly when
it is terminal safe, and runs of such calls keep it to their end. -/
theorem terminal_run_final {db₀ : RunDb} (hcreated : Created db₀) (before : List Call) :
    (∀ c, c.isRequeue = false →
      (KeepsTerminal (before.foldl exec db₀) (exec (before.foldl exec db₀) c) ↔
        TerminalSafe (before.foldl exec db₀) c)) ∧
    (∀ cs db, Run (Guarded (fun db c => c.isRequeue = false ∧ TerminalSafe db c) exec)
        (before.foldl exec db₀) cs db → KeepsTerminal (before.foldl exec db₀) db) := by
  have hdone := foldl_exec_doneFinished before hcreated.initial.doneFinished
  exact ⟨fun c => keepsTerminal_iff hdone, fun cs db => run_keepsTerminal hdone⟩

def peStep : Node :=
  { id := 1, parentId := none, position := 0, nodeType := .step "apply_wim", name := "Apply", phase := "pe" }

def fullOsStep : Node :=
  { id := 2, parentId := none, position := 1, nodeType := .step "install_qga", name := "Tools"
    phase := "full_os" }

def twoPhaseRun : RunDb := createdFrom [peStep, fullOsStep] rfl

def failedWhileRunning : List Call :=
  [{ op := .claim { phase := "pe", agentId := "pe-agent" } },
   { op := .claim { phase := "full_os", agentId := "os-agent" } },
   { op := .complete 1 "pe-agent" .failed (some "no image") (.obj []) }]

def lateSuccess : Call := { op := .complete 2 "os-agent" .success none (.obj []) }

def laterClaim : Call := { op := .claim { phase := "full_os", agentId := "os-agent" } }

theorem twoPhaseRun_claim_keeps_failed :
    (failedWhileRunning.foldl exec twoPhaseRun).run.state = .failed ∧
    TerminalSafe (failedWhileRunning.foldl exec twoPhaseRun) laterClaim ∧
    KeepsTerminal (failedWhileRunning.foldl exec twoPhaseRun)
      (exec (failedWhileRunning.foldl exec twoPhaseRun) laterClaim) := by
  obtain ⟨hstep, _⟩ := terminal_run_final (created_createdFrom [peStep, fullOsStep] rfl)
    failedWhileRunning
  have hsafe : TerminalSafe (failedWhileRunning.foldl exec twoPhaseRun) laterClaim := trivial
  exact ⟨by decide, hsafe, (hstep laterClaim rfl).mpr hsafe⟩

/-- The success of the step that was still running turns the failed run into a done one. -/
theorem twoPhaseRun_late_success :
    ∃ (db₀ : RunDb) (cs : List Call) (c : Call), Created db₀ ∧ c.isRequeue = false ∧
      (∀ d ∈ cs, d.isRequeue = false) ∧
      ¬ KeepsTerminal (cs.foldl exec db₀) (exec (cs.foldl exec db₀) c) := by
  refine ⟨twoPhaseRun, failedWhileRunning, lateSuccess, created_createdFrom _ rfl, rfl, by decide, ?_⟩
  intro h
  have hdone : (exec (failedWhileRunning.foldl exec twoPhaseRun) lateSuccess).run.state = .done := by
    decide
  have hfailed : (failedWhileRunning.foldl exec twoPhaseRun).run.state = .failed := by decide
  rw [h (.inl hfailed), hfailed] at hdone
  cases hdone

end ProxmoxVEAutopilot.TsEngine
