import ProxmoxVEAutopilot.TsEngine.FinishedSteps

/-!
# Resuming after a reboot

A registration ends the reboot of the cursor step only, while every claim, report and
requeue moves the cursor. All awaited reboots end exactly when the cursor points at
every step that awaits one.
-/

namespace ProxmoxVEAutopilot.TsEngine

open Foundation
set_option autoImplicit false

def NoneAwaiting (db : RunDb) : Prop := ∀ r ∈ db.steps.rows, r.state ≠ .awaitingReboot

instance (db : RunDb) : Decidable (NoneAwaiting db) :=
  inferInstanceAs (Decidable (∀ r ∈ db.steps.rows, _))

/-- The cursor points at every step that awaits a reboot. -/
def CursorAwaits (db : RunDb) : Prop :=
  ∀ r ∈ db.steps.rows, r.state = .awaitingReboot → db.run.cursorStepId = some r.id

theorem NoneAwaiting.cursorAwaits {db : RunDb} (h : NoneAwaiting db) : CursorAwaits db :=
  fun r hr hawait => absurd hawait (h r hr)

theorem mem_rebootRow_awaiting {db : RunDb} {r s : PlanStep} {agentId : String} {now : Time}
    (hs : s ∈ (db.rebootRow r agentId now).steps.rows) (hawait : s.state = .awaitingReboot) :
    s ∈ db.steps.rows ∧ s.id ≠ r.id := by
  obtain ⟨q, hq, rfl⟩ := PlanTable.mem_set.mp hs
  by_cases hid : q.id = r.id
  · rw [if_pos hid] at hawait
    cases hawait
  · rw [if_neg hid]
    exact ⟨hq, hid⟩

/-- Exactly when a registration leaves no step waiting. -/
theorem noneAwaiting_register_iff (db : RunDb) (agentId : String) (now : Time) :
    NoneAwaiting (serve db (.register agentId) now) ↔ CursorAwaits db := by
  rcases serve_register db agentId now with ⟨hother, hserve⟩ | ⟨r, hr, hawait, hcursor, hserve⟩
  · rw [hserve]
    exact ⟨NoneAwaiting.cursorAwaits, fun h r hr hawait => hother r hr hawait (h r hr hawait)⟩
  · rw [hserve]
    constructor
    · intro h s hs hsawait
      by_cases hid : s.id = r.id
      · rw [hcursor, hid]
      · exact absurd hsawait (h s (PlanTable.mem_set_of_ne hs hid))
    · intro h s hs hsawait
      obtain ⟨hs, hid⟩ := mem_rebootRow_awaiting hs hsawait
      have hcursor' := h s hs hsawait
      rw [hcursor, Option.some.injEq] at hcursor'
      exact hid hcursor'.symm

/-- While a step awaits a reboot nothing is handed out, no other step is reported on and
nothing is requeued. -/
def KeepsCursor (db : RunDb) (q : Request) : Prop :=
  match q.call with
  | .agent (.next body) => NoneAwaiting db ∨ nextClaim db (body.request false) = none
  | .agent (.result stepId body) => ∀ r ∈ db.steps.rows,
      (AgentCall.result stepId body).reports r = true →
      lateFailure r (.ofText body.status) = false →
      ∀ s ∈ db.steps.rows, s.state = .awaitingReboot → s.id = r.id
  | .agent (.rebooting body) => ∀ r ∈ db.steps.rows, (AgentCall.rebooting body).reports r = true →
      ∀ s ∈ db.steps.rows, s.state = .awaitingReboot → s.id = r.id
  | .requeue stepId _ _ => ∀ r ∈ db.steps.rows, r.id = stepId → r.state = .failed → NoneAwaiting db
  | _ => True

theorem Initial.noneAwaiting {db : RunDb} (h : Initial db) : NoneAwaiting db := by
  intro r hr hawait
  obtain ⟨s, hs, hp⟩ := h.progress r hr
  have hstate : r.state = s := by rw [hp]
  rcases hs with rfl | rfl <;> simp [hstate] at hawait

theorem exec_noneAwaiting {db : RunDb} {c : Call} (h : NoneAwaiting db)
    (hop : ∀ stepId agentId status message data, c.op ≠ .complete stepId agentId status message data) :
    NoneAwaiting (exec db c) := by
  intro r hr hawait
  obtain ⟨q, hq, p, hmove, rfl⟩ := mem_exec_rows hr
  rcases hmove.to_awaitingReboot hawait with ⟨_, hstate⟩ | ⟨_, _, _, _, hcomplete⟩
  · exact h q hq hstate
  · exact hop _ _ _ _ _ hcomplete

theorem serve_next_noneAwaiting {db : RunDb} (body : AgentNextBody) (now : Time)
    (h : NoneAwaiting db) : NoneAwaiting (serve db (.next body) now) := by
  obtain ⟨flags, hflags⟩ := serve_next db body now
  rw [hflags, List.foldl_map]
  exact List.foldlRecOn (motive := NoneAwaiting) flags _ h
    fun db hdb flag _ => exec_noneAwaiting hdb fun _ _ _ _ _ hop => nomatch hop

theorem serve_next_none {db : RunDb} {body : AgentNextBody} (now : Time)
    (h : nextClaim db (body.request false) = none) : serve db (.next body) now = db := by
  have hbatch : ∃ n, body.batch = n + 1 := by
    refine Nat.exists_eq_succ_of_ne_zero ?_
    unfold AgentNextBody.batch
    omega
  obtain ⟨n, hn⟩ := hbatch
  simp [serve, nextAction, hn, claimBatch, claimNextStep, h]

theorem exec_complete_cursorAwaits {db : RunDb} {c : Call} {stepId : Uuid} {agentId : String}
    {status : Status} {message : Option String} {data : Json} (h : CursorAwaits db)
    (hop : c.op = .complete stepId agentId status message data)
    (hsole : ∀ r ∈ db.steps.rows, r.id = stepId → status.supported = true →
      lateFailure r status = false → ∀ s ∈ db.steps.rows, s.state = .awaitingReboot → s.id = r.id) :
    CursorAwaits (exec db c) := by
  rcases exec_complete_cases db hop with
    ⟨r, hr, rfl, hlate, hstatus, o, _, hexec⟩ | ⟨_, hrun, hsteps⟩
  · rw [hexec]
    intro s hs hawait
    obtain ⟨q, hq, rfl⟩ := PlanTable.mem_set.mp hs
    by_cases hid : q.id = r.id
    · exact congrArg some hid.symm
    · rw [if_neg hid] at hawait
      exact absurd (hsole r hr rfl hstatus hlate q hq hawait) hid
  · intro r hr hawait
    rw [hsteps] at hr
    rw [hrun]
    exact h r hr hawait

theorem exec_requeue_cursorAwaits {db : RunDb} {c : Call} {stepId : Uuid} {requestedBy : String}
    {message : Option String} (h : CursorAwaits db) (hop : c.op = .requeue stepId requestedBy message)
    (hnone : ∀ r ∈ db.steps.rows, r.id = stepId → r.state = .failed → NoneAwaiting db) :
    CursorAwaits (exec db c) := by
  rcases exec_requeue_cases db hop with ⟨r, hr, hid, hfailed, _⟩ | ⟨_, hexec⟩
  · have hop' := fun stepId agentId status message data =>
      (by rw [hop]; simp : c.op ≠ .complete stepId agentId status message data)
    exact (exec_noneAwaiting (hnone r hr hid hfailed) hop').cursorAwaits
  · rwa [hexec]

theorem markedRun_cursor (run : RunRow) (t : PlanTable) (rows : List PlanStep) (changed : Nat)
    (now : Time) {id : Uuid} (h : run.cursorStepId = some id) :
    (markedRun run t rows changed now).cursorStepId = some id := by
  unfold markedRun
  split
  · split <;> simp [h]
  · split <;> exact h

theorem exec_markDone_cursorAwaits {db : RunDb} {kinds : List String} {agentId : String}
    {message : Option String} {data : Json} {now : Time} (h : CursorAwaits db) :
    CursorAwaits (exec db ⟨.markDone kinds agentId message data, now⟩) := by
  intro r hr hawait
  obtain ⟨q, hq, p, hmove, rfl⟩ := mem_exec_rows hr
  have hcursor : db.run.cursorStepId = some q.id := by
    rcases hmove.to_awaitingReboot hawait with ⟨_, hstate⟩ | ⟨_, _, _, _, hop⟩
    · exact h q hq hstate
    · cases hop
  rcases exec_markDone_cases db (c := ⟨.markDone kinds agentId message data, now⟩) rfl with
    ⟨_, hexec⟩ | ⟨_, changed, hrun⟩
  · rw [hexec]
    exact hcursor
  · rw [hrun]
    exact markedRun_cursor _ _ _ _ _ hcursor

theorem handle_cursorAwaits {db : RunDb} {q : Request} (hkeeps : KeepsCursor db q)
    (h : CursorAwaits db) : CursorAwaits (handle db q) := by
  obtain ⟨call, now⟩ := q
  cases call with
  | requeue stepId requestedBy message => exact exec_requeue_cursorAwaits h rfl hkeeps
  | markDone kinds agentId message data => exact exec_markDone_cursorAwaits h
  | agent a =>
    cases a with
    | register agentId => exact ((noneAwaiting_register_iff db agentId now).mpr h).cursorAwaits
    | next body =>
      rcases hkeeps with hnone | hclaim
      · exact (serve_next_noneAwaiting body now hnone).cursorAwaits
      · simp only [handle, serve_next_none now hclaim]
        exact h
    | result stepId body =>
      simp only [handle]
      rcases serve_result db stepId body now with ⟨_, hserve⟩ | ⟨⟨r, hr, hid, hphase⟩, hserve⟩
      · rwa [hserve]
      · rw [hserve]
        refine exec_complete_cursorAwaits h rfl fun s hs hsid hstatus hlate => ?_
        rw [db.steps.eq_of_id hs hr (hsid.trans hid.symm)] at hlate ⊢
        exact hkeeps r hr (by simp [AgentCall.reports, AgentCall.names, hid, hphase, hstatus]) hlate
    | rebooting body =>
      simp only [handle, serve_rebooting]
      refine exec_complete_cursorAwaits h rfl fun r hr hid _ _ => ?_
      exact hkeeps r hr (by simp [AgentCall.reports, AgentCall.names, hid])

/-- A registration ends every awaited reboot exactly when the cursor points at all of
them, which holds along every run that leaves an awaited reboot alone. -/
theorem register_resumes {db₀ : RunDb} (hcreated : Created db₀) :
    (∀ db agentId now, NoneAwaiting (serve db (.register agentId) now) ↔ CursorAwaits db) ∧
    (∀ qs db, Run (Guarded KeepsCursor handle) db₀ qs db →
      ∀ agentId now, NoneAwaiting (serve db (.register agentId) now)) := by
  refine ⟨noneAwaiting_register_iff, fun qs db hrun agentId now => ?_⟩
  refine (noneAwaiting_register_iff db agentId now).mpr (hrun.invariant ?_ ?_)
  · rintro db q _ hcursor ⟨hkeeps, rfl⟩
    exact handle_cursorAwaits hkeeps hcursor
  · exact hcreated.initial.noneAwaiting.cursorAwaits

def rebootingStep : Node :=
  { id := 1, parentId := none, position := 0, nodeType := .step "join_domain_role", name := "Join"
    phase := "full_os", rebootBehavior := .required }

def companionStep : Node :=
  { id := 2, parentId := none, position := 1, nodeType := .step "install_qga", name := "Tools"
    phase := "full_os" }

def rebootRun : RunDb := createdFrom [rebootingStep, companionStep] rfl

def askBatch (batchSize : Int) : Request where
  call := .agent (.next { agentId := "agent", phase := "full_os", batchSize := batchSize })

def reportDone (stepId : Uuid) : Request where
  call := .agent (.result stepId { agentId := "agent", phase := "full_os", status := "success" })

theorem rebootRun_single_resumes :
    Run (Guarded KeepsCursor handle) rebootRun [askBatch 1, reportDone 1]
      ([askBatch 1, reportDone 1].foldl handle rebootRun) ∧
    NoneAwaiting (serve ([askBatch 1, reportDone 1].foldl handle rebootRun) (.register "agent") 0) := by
  have hrun : Run (Guarded KeepsCursor handle) rebootRun [askBatch 1, reportDone 1]
      ([askBatch 1, reportDone 1].foldl handle rebootRun) := by
    refine Run.of_replays ⟨.inl (by decide), fun r _ _ _ s hs hawait => ?_, trivial⟩
    have hnone : ∀ s ∈ (handle rebootRun (askBatch 1)).steps.rows, s.state ≠ .awaitingReboot := by decide
    exact absurd hawait (hnone s hs)
  exact ⟨hrun, (register_resumes (created_createdFrom [rebootingStep, companionStep] rfl)).2 _ _ hrun _ _⟩

/-- Of a batch of two, the report of the second takes the cursor away from the first,
which still waits after the agent comes back. -/
theorem rebootRun_batch_left_waiting :
    ∃ db₀ qs db, Created db₀ ∧ Run (Guarded (fun _ _ => True) handle) db₀ qs db ∧
      ¬ NoneAwaiting (serve db (.register "agent") 0) := by
  refine ⟨rebootRun, [askBatch 2, reportDone 1, reportDone 2], _, created_createdFrom _ rfl,
    Run.of_replays ⟨trivial, trivial, trivial, trivial⟩, by decide⟩

end ProxmoxVEAutopilot.TsEngine
