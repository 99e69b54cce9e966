import ProxmoxVEAutopilot.TsEngine.Finality

/-!
# The run state as the aggregate of the steps

`mark_steps_done_by_kind` never takes a run out of `failed` and does not call a run
done while a failed step remains. Two marks record what it closed; with them the run
state is determined by the steps.
-/

namespace ProxmoxVEAutopilot.TsEngine

open Foundation
set_option autoImplicit false

def PlanStep.broken (r : PlanStep) : Bool := r.state == .failed && !r.plan.continueOnError

def PlanStep.settled (r : PlanStep) : Bool :=
  r.state == .done || r.state == .skipped || (r.state == .failed && r.plan.continueOnError)

def StepsDecide (db : RunDb) : Prop :=
  (db.run.state = .done ↔ ∀ r ∈ db.steps.rows, r.settled = true) ∧
  (db.run.state = .failed ↔ ∃ r ∈ db.steps.rows, r.broken = true)

/-- `failure`: a broken step was marked done, nothing was requeued since. `closed`: an
open step was marked done, nothing was reported, resumed or requeued since. -/
structure Marks where
  failure : Bool := false
  closed : Bool := false

def Marks.after (m : Marks) (db : RunDb) (c : Call) : Marks :=
  match c.op with
  | .claim _ => m
  | .complete stepId _ status _ _ =>
    if db.steps.rows.any fun r => r.id == stepId && !lateFailure r status && status.supported
    then { m with closed := false } else m
  | .rebootComplete stepId _ =>
    if db.steps.rows.any fun r => r.id == stepId && r.state == .awaitingReboot
    then { m with closed := false } else m
  | .requeue stepId _ _ =>
    if db.steps.rows.any fun r => r.id == stepId && r.state == .failed then {} else m
  | .markDone kinds _ _ _ =>
    { failure := m.failure || db.steps.rows.any fun r =>
        (normalizeKinds kinds).contains r.plan.kind && r.broken
      closed := m.closed || db.steps.rows.any fun r =>
        (normalizeKinds kinds).contains r.plan.kind && r.unfinished }

def execMarked (s : RunDb × Marks) (c : Call) : RunDb × Marks := (exec s.1 c, s.2.after s.1 c)

/-- Terminal runs are left alone, and a step is requeued only when no other step broke
the run. -/
def AggregateSafe (s : RunDb × Marks) (c : Call) : Prop :=
  TerminalSafe s.1 c ∧
  match c.op with
  | .requeue stepId _ _ => ∀ r ∈ s.1.steps.rows, r.broken = true → r.id = stepId
  | _ => True

structure Aggregate (db : RunDb) (m : Marks) : Prop where
  failed_iff : db.run.state = .failed ↔ (∃ r ∈ db.steps.rows, r.broken = true) ∨ m.failure = true
  done_iff : db.run.state = .done ↔ (∀ r ∈ db.steps.rows, r.settled = true) ∧ m.failure = false ∧
    (m.closed = true → ∀ r ∈ db.steps.rows, r.state ≠ .failed)

theorem settled_of_finished {r : PlanStep} (hopen : r.unfinished = false) (hbroken : r.broken = false) :
    r.settled = true := by
  revert hopen hbroken
  unfold PlanStep.unfinished PlanStep.broken PlanStep.settled
  cases r.state <;> cases r.plan.continueOnError <;> decide

theorem settled_not_unfinished {r : PlanStep} (h : r.settled = true) : r.unfinished = false := by
  revert h
  unfold PlanStep.unfinished PlanStep.settled
  cases r.state <;> cases r.plan.continueOnError <;> decide

theorem settled_not_broken {r : PlanStep} (h : r.settled = true) : r.broken = false := by
  revert h
  unfold PlanStep.broken PlanStep.settled
  cases r.state <;> cases r.plan.continueOnError <;> decide

theorem unfinished_not_broken {r : PlanStep} (h : r.unfinished = true) : r.broken = false := by
  revert h
  unfold PlanStep.unfinished PlanStep.broken
  cases r.state <;> cases r.plan.continueOnError <;> decide

theorem remaining_eq_false {r : PlanStep} (hsettled : r.settled = true) (hfailed : r.state ≠ .failed) :
    r.remaining = false := by
  simp [PlanStep.remaining, settled_not_unfinished hsettled, hfailed]

theorem settled_of_not_remaining {r : PlanStep} (h : r.remaining = false) : r.settled = true := by
  simp only [PlanStep.remaining, Bool.or_eq_false_iff] at h
  apply settled_of_finished h.1
  simp [PlanStep.broken, h.2]

section OneRow
variable {db db' : RunDb} {m : Marks} {r : PlanStep} {f : StepProgress → StepProgress}

theorem not_broken_of_not_failed (h : Aggregate db m) (hrun : db.run.state ≠ .failed) :
    (∀ s ∈ db.steps.rows, s.broken = false) ∧ m.failure = false := by
  have hno := mt h.failed_iff.mpr hrun
  rw [not_or] at hno
  refine ⟨fun s hs => ?_, by simpa using hno.2⟩
  by_contra hbroken
  exact hno.1 ⟨s, hs, by simpa using hbroken⟩

theorem not_broken_set (hr : r ∈ db.steps.rows)
    (hothers : ∀ s ∈ db.steps.rows, s.id ≠ r.id → s.broken = false)
    (hf : (r.withProgress (f r.toStepProgress)).broken = false) :
    ∀ s ∈ (db.steps.set r.id f).rows, s.broken = false := by
  intro s hs
  obtain ⟨q, hq, rfl⟩ := PlanTable.mem_set.mp hs
  by_cases hid : q.id = r.id
  · rw [if_pos hid, db.steps.eq_of_id hq hr hid]
    exact hf
  · rw [if_neg hid]
    exact hothers q hq hid

theorem mem_set_self (hr : r ∈ db.steps.rows) :
    r.withProgress (f r.toStepProgress) ∈ (db.steps.set r.id f).rows :=
  PlanTable.mem_set.mpr ⟨r, hr, by rw [if_pos rfl]⟩

theorem aggregate_open (hr : r ∈ db.steps.rows) (hsteps : db'.steps = db.steps.set r.id f)
    (hothers : ∀ s ∈ db.steps.rows, s.id ≠ r.id → s.broken = false)
    (hf : (r.withProgress (f r.toStepProgress)).unfinished = true) (hm : m.failure = false)
    (hdone : db'.run.state ≠ .done) (hfailed : db'.run.state ≠ .failed) : Aggregate db' m := by
  constructor
  · refine iff_of_false hfailed ?_
    rintro (⟨s, hs, hbroken⟩ | hmark)
    · rw [hsteps] at hs
      rw [not_broken_set hr hothers (unfinished_not_broken hf) s hs] at hbroken
      cases hbroken
    · rw [hm] at hmark
      cases hmark
  · refine iff_of_false hdone ?_
    rintro ⟨hsettled, _⟩
    rw [hsteps] at hsettled
    rw [settled_not_unfinished (hsettled _ (mem_set_self hr))] at hf
    cases hf

theorem aggregate_next (hr : r ∈ db.steps.rows) (hsteps : db'.steps = db.steps.set r.id f)
    (hothers : ∀ s ∈ db.steps.rows, s.id ≠ r.id → s.broken = false)
    (hf : (r.withProgress (f r.toStepProgress)).settled = true) (hm : m.failure = false)
    (hclosed : m.closed = false) (hrun : db'.run.state = nextRunState db.steps r.id) :
    Aggregate db' m := by
  have hbroken := not_broken_set hr hothers (settled_not_broken hf)
  rw [← hsteps] at hbroken
  constructor
  · refine iff_of_false (by rw [hrun]; exact nextRunState_ne_failed _ _) ?_
    rintro (⟨s, hs, h⟩ | hmark)
    · rw [hbroken s hs] at h
      cases h
    · rw [hm] at hmark
      cases hmark
  · rw [hrun]
    rcases nextRunState_cases db.steps r.id with ⟨hnext, s, hs, hid, hopen⟩ | ⟨hnext, hrest⟩
    · refine iff_of_false (by rw [hnext]; simp) ?_
      rintro ⟨hsettled, _⟩
      rw [hsteps] at hsettled
      rw [settled_not_unfinished (hsettled s (PlanTable.mem_set_of_ne hs hid))] at hopen
      cases hopen
    · refine iff_of_true hnext ⟨fun s hs => ?_, hm, fun h => by rw [hclosed] at h; cases h⟩
      have hfinished := set_finished hr hrest (settled_not_unfinished hf)
      rw [← hsteps] at hfinished
      exact settled_of_finished (hfinished s hs) (hbroken s hs)

theorem aggregate_broken (hr : r ∈ db.steps.rows) (hsteps : db'.steps = db.steps.set r.id f)
    (hf : (r.withProgress (f r.toStepProgress)).broken = true) (hrun : db'.run.state = .failed) :
    Aggregate db' m := by
  have hmem : r.withProgress (f r.toStepProgress) ∈ db'.steps.rows := by
    rw [hsteps]
    exact mem_set_self hr
  constructor
  · exact iff_of_true hrun (.inl ⟨_, hmem, hf⟩)
  · refine iff_of_false (by rw [hrun]; simp) ?_
    rintro ⟨hsettled, _⟩
    rw [settled_not_broken (hsettled _ hmem)] at hf
    cases hf

end OneRow

theorem Aggregate.congr {db db' : RunDb} {m : Marks} (h : Aggregate db m)
    (hrun : db'.run.state = db.run.state) (hsteps : db'.steps = db.steps) : Aggregate db' m := by
  constructor
  · rw [hrun, hsteps]
    exact h.failed_iff
  · rw [hrun, hsteps]
    exact h.done_iff

section Step
variable {db : RunDb} {m : Marks} {c : Call}

theorem exec_claim_aggregate {q : ClaimRequest} (h : Aggregate db m) (hop : c.op = .claim q) :
    Aggregate (exec db c) (m.after db c) := by
  have hm : m.after db c = m := by simp only [Marks.after, hop]
  rw [hm]
  cases hclaim : nextClaim db q with
  | none => exact h.congr (by simp [exec, hop, claimNextStep, hclaim]) (by simp [exec, hop, claimNextStep, hclaim])
  | some r =>
    obtain ⟨hopen, hr, _⟩ := nextClaim_spec hclaim
    have hrun : db.run.state ≠ .failed := by
      intro hfailed
      simp [RunState.isOpen, hfailed] at hopen
    obtain ⟨hbroken, hmark⟩ := not_broken_of_not_failed h hrun
    have hexec : exec db c = db.claimRow r q c.now := by simp [exec, hop, claimNextStep, hclaim]
    rw [hexec]
    exact aggregate_open hr rfl (fun s hs _ => hbroken s hs) rfl hmark (by simp [RunDb.claimRow])
      (by simp [RunDb.claimRow])

theorem exec_complete_aggregate {stepId : Uuid} {agentId : String} {status : Status}
    {message : Option String} {data : Json} (h : Aggregate db m) (hsafe : TerminalSafe db c)
    (hop : c.op = .complete stepId agentId status message data) :
    Aggregate (exec db c) (m.after db c) := by
  rcases exec_complete_cases db hop with
    ⟨r, hr, rfl, hlate, hstatus, o, ho, hexec⟩ | ⟨hno, hrun, hsteps⟩
  · have hm : m.after db c = { m with closed := false } := by
      simp only [Marks.after, hop]
      rw [if_pos (List.any_eq_true.mpr ⟨r, hr, by simp [hlate, hstatus]⟩)]
    rw [hm, hexec]
    by_cases hfailed : db.run.state = .failed
    · simp only [TerminalSafe, hop] at hsafe
      have hbreak := (hsafe r hr rfl hlate hstatus).1 hfailed
      have hstate := (outcome_runState_failed_iff ho).mpr hbreak
      apply aggregate_broken hr rfl ?_ hstate
      obtain ⟨rfl, hretry, hcoe⟩ := hbreak
      simp [outcome, hretry] at ho
      simp [PlanStep.broken, PlanStep.withProgress, completedProgress, ← ho, hcoe]
    · obtain ⟨hbroken, hmark⟩ := not_broken_of_not_failed h hfailed
      have hothers : ∀ s ∈ db.steps.rows, s.id ≠ r.id → s.broken = false := fun s hs _ => hbroken s hs
      rcases outcome_cases ho with ⟨_, rfl⟩ | ⟨_, _, rfl⟩ | ⟨_, rfl⟩ | ⟨_, _, rfl⟩ | ⟨_, _, rfl⟩
      · exact aggregate_open hr rfl hothers rfl hmark (by simp [RunDb.completeRow])
          (by simp [RunDb.completeRow])
      · exact aggregate_next hr rfl hothers rfl hmark rfl rfl
      · exact aggregate_next hr rfl hothers rfl hmark rfl rfl
      · exact aggregate_open hr rfl hothers rfl hmark (by simp [RunDb.completeRow])
          (by simp [RunDb.completeRow])
      · cases hcoe : r.plan.continueOnError with
        | true =>
          refine aggregate_next hr rfl hothers ?_ (m := { m with closed := false }) hmark rfl rfl
          simp [PlanStep.settled, PlanStep.withProgress, completedProgress, hcoe]
        | false =>
          apply aggregate_broken hr rfl ?_ rfl
          simp [PlanStep.broken, PlanStep.withProgress, completedProgress, hcoe]
  · have hm : m.after db c = m := by
      simp only [Marks.after, hop]
      rw [if_neg]
      intro hany
      obtain ⟨r, hr, hacc⟩ := List.any_eq_true.mp hany
      simp only [Bool.and_eq_true, beq_iff_eq, Bool.not_eq_true'] at hacc
      rw [hno r hr hacc.1.1 hacc.1.2] at hacc
      cases hacc.2
    rw [hm]
    exact h.congr (by rw [hrun]) hsteps

theorem exec_rebootComplete_aggregate {stepId : Uuid} {agentId : String} (h : Aggregate db m)
    (hsafe : TerminalSafe db c) (hop : c.op = .rebootComplete stepId agentId) :
    Aggregate (exec db c) (m.after db c) := by
  rcases exec_rebootComplete_cases db hop with ⟨r, hr, rfl, hawait, hexec⟩ | ⟨hno, hexec⟩
  · have hm : m.after db c = { m with closed := false } := by
      simp only [Marks.after, hop]
      rw [if_pos (List.any_eq_true.mpr ⟨r, hr, by simp [hawait]⟩)]
    simp only [TerminalSafe, hop] at hsafe
    obtain ⟨hbroken, hmark⟩ := not_broken_of_not_failed h (hsafe r hr rfl hawait)
    rw [hm, hexec]
    exact aggregate_next (f := fun p => { p with state := .done, finishedAt := some c.now }) hr rfl
      (fun s hs _ => hbroken s hs) rfl hmark rfl (nextRunState_set db.steps r.id _)
  · have hm : m.after db c = m := by
      simp only [Marks.after, hop]
      rw [if_neg]
      intro hany
      obtain ⟨r, hr, hacc⟩ := List.any_eq_true.mp hany
      simp only [Bool.and_eq_true, beq_iff_eq] at hacc
      exact hno r hr hacc.1 hacc.2
    rwa [hm, hexec]

theorem exec_requeue_aggregate {stepId : Uuid} {requestedBy : String} {message : Option String}
    (h : Aggregate db m) (hsole : ∀ r ∈ db.steps.rows, r.broken = true → r.id = stepId)
    (hop : c.op = .requeue stepId requestedBy message) : Aggregate (exec db c) (m.after db c) := by
  rcases exec_requeue_cases db hop with ⟨r, hr, rfl, hfailed, hexec⟩ | ⟨hno, hexec⟩
  · have hm : m.after db c = {} := by
      simp only [Marks.after, hop]
      rw [if_pos (List.any_eq_true.mpr ⟨r, hr, by simp [hfailed]⟩)]
    rw [hm, hexec]
    refine aggregate_open (f := fun _ => {}) hr rfl (fun s hs hid => ?_) rfl rfl
      (by simp [RunDb.requeueRow]) (by simp [RunDb.requeueRow])
    by_contra hbroken
    exact hid (hsole s hs (by simpa using hbroken))
  · have hm : m.after db c = m := by
      simp only [Marks.after, hop]
      rw [if_neg]
      intro hany
      obtain ⟨r, hr, hacc⟩ := List.any_eq_true.mp hany
      simp only [Bool.and_eq_true, beq_iff_eq] at hacc
      exact hno r hr hacc.1 hacc.2
    rwa [hm, hexec]

variable {kinds : List String} {agentId : String} {message : Option String} {data : Json}

theorem mem_marked {t t' : PlanTable} {now : Time} {r : PlanStep}
    (ht : t' = t.update fun r =>
      if (normalizeKinds kinds).contains r.plan.kind && r.state != .done
      then markedProgress agentId now r.toStepProgress else r.toStepProgress) (hr : r ∈ t'.rows) :
    r.state = .done ∨ (r ∈ t.rows ∧ (normalizeKinds kinds).contains r.plan.kind = false) := by
  rw [ht] at hr
  obtain ⟨q, hq, rfl⟩ := PlanTable.mem_update.mp hr
  split
  · exact .inl rfl
  · rename_i hsel
    cases hkind : (normalizeKinds kinds).contains q.plan.kind with
    | false => exact .inr ⟨hq, hkind⟩
    | true =>
      rw [hkind, Bool.true_and] at hsel
      exact .inl (by simpa using hsel)

theorem mem_marked_of_not {t t' : PlanTable} {now : Time} {r : PlanStep}
    (ht : t' = t.update fun r =>
      if (normalizeKinds kinds).contains r.plan.kind && r.state != .done
      then markedProgress agentId now r.toStepProgress else r.toStepProgress) (hr : r ∈ t.rows)
    (hkind : (normalizeKinds kinds).contains r.plan.kind = false) : r ∈ t'.rows := by
  rw [ht]
  exact PlanTable.mem_update.mpr ⟨r, hr, by rw [hkind]; rfl⟩

section Marking
variable {db' : RunDb}
  (hsteps : db'.steps = db.steps.update fun r =>
    if (normalizeKinds kinds).contains r.plan.kind && r.state != .done
    then markedProgress agentId c.now r.toStepProgress else r.toStepProgress)
  (hstate : db'.run.state =
    if (∀ r ∈ db'.steps.rows, r.remaining = false) ∧ db.run.state ≠ .failed then .done
    else db.run.state)
  (hop : c.op = .markDone kinds agentId message data)
include hstate

theorem marked_failed_eq : db'.run.state = .failed ↔ db.run.state = .failed := by
  rw [hstate]
  split
  · rename_i hno
    exact iff_of_false (by simp) hno.2
  · rfl

include hsteps hop

theorem marked_failed_iff (h : Aggregate db m) : db'.run.state = .failed ↔
    (∃ r ∈ db'.steps.rows, r.broken = true) ∨ (m.after db c).failure = true := by
  simp only [Marks.after, hop, Bool.or_eq_true]
  rw [marked_failed_eq hstate, h.failed_iff]
  constructor
  · rintro (⟨r, hr, hbroken⟩ | hmark)
    · cases hkind : (normalizeKinds kinds).contains r.plan.kind with
      | false => exact .inl ⟨r, mem_marked_of_not hsteps hr hkind, hbroken⟩
      | true => exact .inr (.inr (List.any_eq_true.mpr ⟨r, hr, by rw [hkind, hbroken]; rfl⟩))
    · exact .inr (.inl hmark)
  · rintro (⟨r, hr, hbroken⟩ | hmark | hmark)
    · rcases mem_marked hsteps hr with hdone | ⟨hr, _⟩
      · simp [PlanStep.broken, hdone] at hbroken
      · exact .inl ⟨r, hr, hbroken⟩
    · exact .inr hmark
    · obtain ⟨r, hr, hbroken⟩ := List.any_eq_true.mp hmark
      exact .inl ⟨r, hr, ((Bool.and_eq_true _ _).mp hbroken).2⟩

theorem marked_of_done (h : Aggregate db m) (hdone : db'.run.state = .done) :
    (∀ r ∈ db'.steps.rows, r.settled = true) ∧
      ((m.after db c).closed = true → ∀ r ∈ db'.steps.rows, r.state ≠ .failed) := by
  rw [hstate] at hdone
  split at hdone
  · rename_i hrem
    refine ⟨fun r hr => settled_of_not_remaining (hrem.1 r hr), fun _ r hr hstate => ?_⟩
    have := hrem.1 r hr
    simp [PlanStep.remaining, hstate] at this
  · obtain ⟨hsettled, _, hclosed⟩ := h.done_iff.mp hdone
    refine ⟨fun r hr => ?_, fun hmark r hr hstate => ?_⟩
    · rcases mem_marked hsteps hr with hd | ⟨hr, _⟩
      · simp [PlanStep.settled, hd]
      · exact hsettled r hr
    · rcases mem_marked hsteps hr with hd | ⟨hr, _⟩
      · rw [hd] at hstate
        cases hstate
      · refine hclosed ?_ r hr hstate
        simp only [Marks.after, hop, Bool.or_eq_true] at hmark
        refine hmark.resolve_right fun hany => ?_
        obtain ⟨q, hq, hopen⟩ := List.any_eq_true.mp hany
        rw [settled_not_unfinished (hsettled q hq), Bool.and_false] at hopen
        cases hopen

theorem marked_done (h : Aggregate db m) (hsettled : ∀ r ∈ db'.steps.rows, r.settled = true)
    (hmark : (m.after db c).failure = false)
    (hclosed : (m.after db c).closed = true → ∀ r ∈ db'.steps.rows, r.state ≠ .failed) :
    db'.run.state = .done := by
  have hnot : db.run.state ≠ .failed := by
    intro hrun
    rcases (marked_failed_iff hsteps hstate hop h).mp ((marked_failed_eq hstate).mpr hrun) with
      ⟨r, hr, hbroken⟩ | hmark'
    · rw [settled_not_broken (hsettled r hr)] at hbroken
      cases hbroken
    · rw [hmark] at hmark'
      cases hmark'
  rw [hstate]
  split
  · rfl
  · rename_i hrem
    -- some step is still failed, so nothing open was closed by the marking
    have hopen : (m.after db c).closed = false := by
      by_contra hc
      refine hrem ⟨fun r hr => ?_, hnot⟩
      exact remaining_eq_false (hsettled r hr) (hclosed (by simpa using hc) r hr)
    simp only [Marks.after, hop, Bool.or_eq_false_iff] at hopen hmark
    refine h.done_iff.mpr ⟨fun r hr => ?_, hmark.1, fun hc => by rw [hopen.1] at hc; cases hc⟩
    cases hkind : (normalizeKinds kinds).contains r.plan.kind with
    | false => exact hsettled r (mem_marked_of_not hsteps hr hkind)
    | true =>
      have hopen := List.any_eq_false.mp hopen.2 r hr
      have hbroken := List.any_eq_false.mp hmark.2 r hr
      simp only [hkind, Bool.true_and, Bool.not_eq_true] at hopen hbroken
      exact settled_of_finished hopen hbroken

end Marking

theorem exec_markDone_aggregate (h : Aggregate db m)
    (hop : c.op = .markDone kinds agentId message data) :
    Aggregate (exec db c) (m.after db c) := by
  rcases exec_markDone_cases db hop with ⟨hempty, hexec⟩ | ⟨hsteps, changed, hrun⟩
  · have hm : m.after db c = m := by
      have hany : ∀ p : PlanStep → Bool, (db.steps.rows.any fun r =>
          (normalizeKinds kinds).contains r.plan.kind && p r) = false := by
        intro p
        simp [hempty]
      simp only [Marks.after, hop, hany, Bool.or_false]
    rwa [hm, hexec]
  · have hstate := markedRun_state db.run (exec db c).steps (rowsOfKind db.steps kinds) changed c.now
    rw [← hrun] at hstate
    have hfailed := marked_failed_iff hsteps hstate hop h
    refine ⟨hfailed, fun hdone => ?_, fun ⟨hsettled, hmark, hclosed⟩ =>
      marked_done hsteps hstate hop h hsettled hmark hclosed⟩
    obtain ⟨hsettled, hclosed⟩ := marked_of_done hsteps hstate hop h hdone
    refine ⟨hsettled, ?_, hclosed⟩
    by_contra hmark
    rw [hfailed.mpr (.inr (by simpa using hmark))] at hdone
    cases hdone

end Step

theorem execMarked_aggregate {s : RunDb × Marks} {c : Call} (hsafe : AggregateSafe s c)
    (h : Aggregate s.1 s.2) : Aggregate (execMarked s c).1 (execMarked s c).2 := by
  obtain ⟨hterminal, hsole⟩ := hsafe
  cases hop : c.op with
  | claim q => exact exec_claim_aggregate h hop
  | complete stepId agentId status message data => exact exec_complete_aggregate h hterminal hop
  | rebootComplete stepId agentId => exact exec_rebootComplete_aggregate h hterminal hop
  | requeue stepId requestedBy message =>
    rw [hop] at hsole
    exact exec_requeue_aggregate h hsole hop
  | markDone kinds agentId message data => exact exec_markDone_aggregate h hop

theorem Initial.aggregate {db : RunDb} (h : Initial db)
    (hpending : ∃ r ∈ db.steps.rows, r.state = .pending) : Aggregate db {} := by
  constructor
  · refine iff_of_false (by rw [h.queued]; simp) ?_
    rintro (⟨r, hr, hbroken⟩ | hmark)
    · obtain ⟨s, hs, hp⟩ := h.progress r hr
      have hstate : r.state = s := by rw [hp]
      rcases hs with rfl | rfl <;> simp [PlanStep.broken, hstate] at hbroken
    · cases hmark
  · refine iff_of_false (by rw [h.queued]; simp) ?_
    rintro ⟨hsettled, _⟩
    obtain ⟨r, hr, hstate⟩ := hpending
    have := hsettled r hr
    simp [PlanStep.settled, hstate] at this

/-- Along every run that leaves terminal runs alone, the steps and the two marks
determine whether the run is failed or done. -/
theorem run_state_aggregates {db₀ : RunDb} (hcreated : Created db₀)
    (hpending : ∃ r ∈ db₀.steps.rows, r.state = .pending) {cs : List Call} {s : RunDb × Marks}
    (hrun : Run (Guarded AggregateSafe execMarked) (db₀, {}) cs s) :
    (s.1.run.state = .failed ↔ (∃ r ∈ s.1.steps.rows, r.broken = true) ∨ s.2.failure = true) ∧
    (s.1.run.state = .done ↔ (∀ r ∈ s.1.steps.rows, r.settled = true) ∧ s.2.failure = false ∧
      (s.2.closed = true → ∀ r ∈ s.1.steps.rows, r.state ≠ .failed)) := by
  have h : Aggregate s.1 s.2 := by
    refine hrun.invariant (P := fun s => Aggregate s.1 s.2) ?_ (hcreated.initial.aggregate hpending)
    rintro s c _ hs ⟨hsafe, rfl⟩
    exact execMarked_aggregate hsafe hs
  exact ⟨h.failed_iff, h.done_iff⟩

def evidenceStep : Node :=
  { id := 1, parentId := none, position := 0, nodeType := .step "apply_wim", name := "Apply", phase := "pe" }

def evidenceRun : RunDb := createdFrom [evidenceStep] rfl

def claimPe : Call := { op := .claim { phase := "pe", agentId := "pe-agent" } }

def reportPe (status : Status) : Call := { op := .complete 1 "pe-agent" status none (.obj []) }

def markApplied : Call := { op := .markDone ["apply_wim"] "controller" none (.obj []) }

theorem evidenceRun_success_done :
    ([claimPe, reportPe .success].foldl execMarked (evidenceRun, {})).1.run.state = .done ↔
      (∀ r ∈ ([claimPe, reportPe .success].foldl execMarked (evidenceRun, {})).1.steps.rows,
        r.settled = true) ∧
      ([claimPe, reportPe .success].foldl execMarked (evidenceRun, {})).2.failure = false ∧
      (([claimPe, reportPe .success].foldl execMarked (evidenceRun, {})).2.closed = true →
        ∀ r ∈ ([claimPe, reportPe .success].foldl execMarked (evidenceRun, {})).1.steps.rows,
          r.state ≠ .failed) := by
  have hreport : AggregateSafe (execMarked (evidenceRun, {}) claimPe) (reportPe .success) := by
    refine ⟨fun r _ _ _ _ => ⟨fun hrun => ?_, fun hrun => ?_⟩, trivial⟩
    · exact absurd hrun (by decide)
    · exact absurd hrun (by decide)
  have hrun : Run (Guarded AggregateSafe execMarked) (evidenceRun, {}) [claimPe, reportPe .success]
      ([claimPe, reportPe .success].foldl execMarked (evidenceRun, {})) :=
    Run.of_replays ⟨⟨trivial, trivial⟩, hreport, trivial⟩
  exact (run_state_aggregates (created_createdFrom [evidenceStep] rfl) (by decide) hrun).2

def reportsRunning (db : RunDb) (c : Call) : Bool :=
  match c.op with
  | .complete stepId _ _ _ _ => db.steps.rows.any fun r => r.id == stepId && r.state == .running
  | _ => true

/-- The broken step is marked done by outside evidence and the run stays failed. -/
theorem evidenceRun_failed_without_failure :
    ∃ db₀ cs db, Created db₀ ∧ Run (Guarded (fun db c => reportsRunning db c = true) exec) db₀ cs db ∧
      ¬ StepsDecide db := by
  refine ⟨evidenceRun, [claimPe, reportPe .failed, markApplied], _, created_createdFrom _ rfl,
    Run.of_replays ⟨by decide, by decide, by decide, trivial⟩, ?_⟩
  rintro ⟨_, hfailed⟩
  exact absurd (hfailed.mp (by decide)) (by decide)

end ProxmoxVEAutopilot.TsEngine
