import ProxmoxVEAutopilot.Foundation.Runs
import ProxmoxVEAutopilot.TsEngine.Engine

/-!
# What a call can do

`Effect` lists the outcomes of a call with its guards, `RowMove` what is left of them
for one row. The invariants of later modules are proved from these and never unfold an
operation.
-/

namespace ProxmoxVEAutopilot.TsEngine

open Foundation
set_option autoImplicit false

/-- Everything one call can do to the rows, with what it checked first. -/
inductive Effect (db : RunDb) (c : Call) : RunDb → Prop where
  | unchanged : Effect db c db
  | claimed {q : ClaimRequest} {r : PlanStep} : c.op = .claim q → nextClaim db q = some r →
      Effect db c (db.claimRow r q c.now)
  | lateIgnored {r : PlanStep} {agentId : String} {message : Option String} {data : Json} {e : Event} :
      c.op = .complete r.id agentId .failed message data → r ∈ db.steps.rows →
      r.state = .awaitingReboot → Effect db c (db.appendEvent e)
  | completed {r : PlanStep} {agentId : String} {status : Status} {message : Option String}
      {data : Json} {o : Outcome} :
      c.op = .complete r.id agentId status message data → r ∈ db.steps.rows →
      lateFailure r status = false → outcome db.steps r status c.now = .ok o →
      Effect db c (db.completeRow r o agentId status message data c.now)
  | rebooted {r : PlanStep} {agentId : String} :
      c.op = .rebootComplete r.id agentId → r ∈ db.steps.rows → r.state = .awaitingReboot →
      Effect db c (db.rebootRow r agentId c.now)
  | requeued {r : PlanStep} {requestedBy : String} {message : Option String} :
      c.op = .requeue r.id requestedBy message → r ∈ db.steps.rows → r.state = .failed →
      Effect db c (db.requeueRow r requestedBy message c.now)
  | marked {kinds : List String} {agentId : String} {message : Option String} {data : Json}
      {db' : RunDb} (changed : Nat) :
      c.op = .markDone kinds agentId message data →
      db'.steps = db.steps.update (fun r =>
        if (normalizeKinds kinds).contains r.plan.kind && r.state != .done
        then markedProgress agentId c.now r.toStepProgress else r.toStepProgress) →
      db'.run = markedRun db.run db'.steps (rowsOfKind db.steps kinds) changed c.now →
      Effect db c db'

section MarkLoop
variable {agentId : String} {message : Option String} {data : Json} {now : Time}

theorem foldl_markRow_run (rows : List PlanStep) :
    ∀ acc : RunDb × Nat, (rows.foldl (markRow agentId message data now) acc).1.run = acc.1.run := by
  induction rows with
  | nil => exact fun _ => rfl
  | cons row rows ih =>
    intro acc
    rw [List.foldl_cons, ih]
    unfold markRow
    split <;> rfl

theorem foldl_markRow_steps (rows : List PlanStep) :
    ∀ acc : RunDb × Nat, (rows.foldl (markRow agentId message data now) acc).1.steps =
      ((rows.filter fun r => r.state != .done).map fun r => r.id).foldl
        (fun t id => t.set id (markedProgress agentId now)) acc.1.steps := by
  induction rows with
  | nil => exact fun _ => rfl
  | cons row rows ih =>
    intro acc
    rw [List.foldl_cons, ih]
    by_cases hdone : row.state = .done
    · simp [markRow, hdone]
    · simp [markRow, hdone]

theorem mem_markedIds {t : PlanTable} {kinds : List String} {r : PlanStep} (hr : r ∈ t.rows) :
    r.id ∈ (((rowsOfKind t kinds).filter fun r => r.state != .done).map fun r => r.id) ↔
      ((normalizeKinds kinds).contains r.plan.kind && r.state != .done) = true := by
  constructor
  · intro h
    obtain ⟨q, hq, hid⟩ := List.mem_map.mp h
    obtain ⟨hq, hstate⟩ := List.mem_filter.mp hq
    obtain ⟨hq, hkind⟩ := List.mem_filter.mp hq
    rw [← t.eq_of_id hq hr hid]
    exact (Bool.and_eq_true _ _).mpr ⟨hkind, hstate⟩
  · intro h
    obtain ⟨hkind, hstate⟩ := (Bool.and_eq_true _ _).mp h
    exact List.mem_map.mpr ⟨r, List.mem_filter.mpr ⟨List.mem_filter.mpr ⟨hr, hkind⟩, hstate⟩, rfl⟩

theorem markLoop_steps (db : RunDb) (kinds : List String) (n : Nat) :
    ((rowsOfKind db.steps kinds).foldl (markRow agentId message data now) (db, n)).1.steps =
      db.steps.update fun r =>
        if (normalizeKinds kinds).contains r.plan.kind && r.state != .done
        then markedProgress agentId now r.toStepProgress else r.toStepProgress := by
  have hsub : (((rowsOfKind db.steps kinds).filter fun r => r.state != .done).map
      fun r => r.id).Sublist (db.steps.rows.map fun r => r.id) :=
    (List.filter_sublist.trans List.filter_sublist).map _
  rw [foldl_markRow_steps, PlanTable.foldl_set _ (db.steps.ids.sublist hsub)]
  apply PlanTable.update_congr
  intro r hr
  simp only [mem_markedIds hr]

end MarkLoop

theorem completeStep_effect {db db' : RunDb} {stepId : Uuid} {agentId : String} {status : Status}
    {message : Option String} {data : Json} {c : Call}
    (hop : c.op = .complete stepId agentId status message data)
    (h : completeStep db stepId agentId status message data c.now = .ok db') : Effect db c db' := by
  unfold completeStep at h
  split at h
  · cases h
  · rename_i r hr
    obtain ⟨hmem, rfl⟩ := PlanTable.get?_eq_some.mp hr
    split at h
    · rename_i hlate
      cases h
      simp only [lateFailure, Bool.and_eq_true, beq_iff_eq] at hlate
      obtain ⟨rfl, hstate⟩ := hlate
      exact .lateIgnored hop hmem hstate
    · rename_i hlate
      cases ho : outcome db.steps r status c.now with
      | error e => rw [ho] at h; cases h
      | ok o =>
        rw [ho] at h
        cases h
        exact .completed hop hmem (by simpa using hlate) ho

theorem markRebootComplete_effect {db db' : RunDb} {stepId : Uuid} {agentId : String} {c : Call}
    (hop : c.op = .rebootComplete stepId agentId)
    (h : markRebootComplete db stepId agentId c.now = .ok db') : Effect db c db' := by
  unfold markRebootComplete at h
  split at h
  · cases h
  · rename_i r hr
    obtain ⟨hmem, rfl⟩ := PlanTable.get?_eq_some.mp hr
    split at h
    · cases h
    · rename_i hstate
      cases h
      exact .rebooted hop hmem (not_not.mp hstate)

theorem requeueStep_effect {db db' : RunDb} {stepId : Uuid} {requestedBy : String}
    {message : Option String} {c : Call} (hop : c.op = .requeue stepId requestedBy message)
    (h : requeueStep db stepId requestedBy message c.now = .ok db') : Effect db c db' := by
  unfold requeueStep at h
  split at h
  · cases h
  · rename_i r hr
    obtain ⟨hmem, rfl⟩ := PlanTable.get?_eq_some.mp hr
    split at h
    · cases h
    · rename_i hstate
      cases h
      exact .requeued hop hmem (not_not.mp hstate)

theorem effect_committed {db : RunDb} {c : Call} {result : Except EngineError RunDb}
    (h : ∀ db', result = .ok db' → Effect db c db') : Effect db c (committed db result) := by
  cases result with
  | error e => exact .unchanged
  | ok db' => exact h db' rfl

theorem markStepsDoneByKind_effect (db : RunDb) {kinds : List String} {agentId : String}
    {message : Option String} {data : Json} {c : Call}
    (hop : c.op = .markDone kinds agentId message data) :
    Effect db c (markStepsDoneByKind db kinds agentId message data c.now).1 := by
  unfold markStepsDoneByKind
  split
  · exact .unchanged
  · refine .marked ((rowsOfKind db.steps kinds).foldl (markRow agentId message data c.now) (db, 0)).2
      hop (markLoop_steps db kinds 0) ?_
    dsimp only
    rw [foldl_markRow_run]

theorem exec_effect (db : RunDb) (c : Call) : Effect db c (exec db c) := by
  unfold exec
  split
  · rename_i q hop
    unfold claimNextStep
    split
    · exact .unchanged
    · rename_i r hr
      exact .claimed hop hr
  · rename_i hop
    exact effect_committed fun db' => completeStep_effect hop
  · rename_i hop
    exact effect_committed fun db' => markRebootComplete_effect hop
  · rename_i hop
    exact effect_committed fun db' => requeueStep_effect hop
  · rename_i hop
    exact markStepsDoneByKind_effect db hop

/-- What one call can do to one row. -/
inductive RowMove (db : RunDb) (c : Call) (r : PlanStep) : StepProgress → Prop where
  | keep : RowMove db c r r.toStepProgress
  | claimed {q : ClaimRequest} : c.op = .claim q → nextClaim db q = some r →
      RowMove db c r (claimedProgress q c.now r.toStepProgress)
  | completed {agentId : String} {status : Status} {message : Option String} {data : Json}
      {o : Outcome} : c.op = .complete r.id agentId status message data →
      lateFailure r status = false → outcome db.steps r status c.now = .ok o →
      RowMove db c r (completedProgress o status message r.toStepProgress)
  | rebooted {agentId : String} : c.op = .rebootComplete r.id agentId →
      r.state = .awaitingReboot →
      RowMove db c r { r.toStepProgress with state := .done, finishedAt := some c.now }
  | requeued {requestedBy : String} {message : Option String} :
      c.op = .requeue r.id requestedBy message → r.state = .failed → RowMove db c r {}
  | marked {kinds : List String} {agentId : String} {message : Option String} {data : Json} :
      c.op = .markDone kinds agentId message data →
      (normalizeKinds kinds).contains r.plan.kind = true → r.state ≠ .done →
      RowMove db c r (markedProgress agentId c.now r.toStepProgress)

theorem rowMove_set {db : RunDb} {c : Call} {r : PlanStep} {f : StepProgress → StepProgress}
    (hr : r ∈ db.steps.rows) (h : RowMove db c r (f r.toStepProgress)) :
    ∀ q ∈ db.steps.rows, RowMove db c q
      (if q.id = r.id then f q.toStepProgress else q.toStepProgress) := by
  intro q hq
  split
  · rename_i hid
    rwa [db.steps.eq_of_id hq hr hid]
  · exact .keep

theorem nextClaim_mem {db : RunDb} {q : ClaimRequest} {r : PlanStep} (h : nextClaim db q = some r) :
    r ∈ db.steps.rows := by
  unfold nextClaim at h
  split at h
  · exact List.mem_of_find?_eq_some h
  · cases h

theorem Effect.rows {db db' : RunDb} {c : Call} (h : Effect db c db') :
    ∃ f, db'.steps = db.steps.update f ∧ ∀ r ∈ db.steps.rows, RowMove db c r (f r) := by
  cases h with
  | unchanged => exact ⟨_, PlanTable.update_self.symm, fun _ _ => .keep⟩
  | lateIgnored => exact ⟨_, PlanTable.update_self.symm, fun _ _ => .keep⟩
  | claimed hop hr => exact ⟨_, rfl, rowMove_set (nextClaim_mem hr) (.claimed hop hr)⟩
  | completed hop hr hlate ho => exact ⟨_, rfl, rowMove_set hr (.completed hop hlate ho)⟩
  | rebooted hop hr hstate =>
    exact ⟨_, rfl, rowMove_set (f := fun p => { p with state := .done, finishedAt := some c.now })
      hr (.rebooted hop hstate)⟩
  | requeued hop hr hstate =>
    exact ⟨_, rfl, rowMove_set (f := fun _ => {}) hr (.requeued hop hstate)⟩
  | marked changed hop hsteps _ =>
    refine ⟨_, hsteps, fun r _ => ?_⟩
    split
    · rename_i h
      obtain ⟨hkind, hdone⟩ := (Bool.and_eq_true _ _).mp h
      exact .marked hop hkind (by simpa using hdone)
    · exact .keep

/-- Every row of the state after a call is a moved row of the state before it. -/
theorem mem_exec_rows {db : RunDb} {c : Call} {r : PlanStep} (h : r ∈ (exec db c).steps.rows) :
    ∃ q ∈ db.steps.rows, ∃ p, RowMove db c q p ∧ q.withProgress p = r := by
  obtain ⟨f, hf, hmoves⟩ := (exec_effect db c).rows
  rw [hf] at h
  obtain ⟨q, hq, rfl⟩ := PlanTable.mem_update.mp h
  exact ⟨q, hq, f q, hmoves q hq, rfl⟩

theorem exists_exec_row {db : RunDb} (c : Call) {r : PlanStep} (h : r ∈ db.steps.rows) :
    ∃ p, RowMove db c r p ∧ r.withProgress p ∈ (exec db c).steps.rows := by
  obtain ⟨f, hf, hmoves⟩ := (exec_effect db c).rows
  refine ⟨f r, hmoves r h, ?_⟩
  rw [hf]
  exact PlanTable.mem_update.mpr ⟨r, h, rfl⟩

theorem claimNextStep_answer (db : RunDb) (q : ClaimRequest) (now : Time) :
    (claimNextStep db q now).2 =
      (nextClaim db q).map fun r => r.withProgress (claimedProgress q now r.toStepProgress) := by
  unfold claimNextStep
  cases nextClaim db q <;> rfl

theorem nextClaim_spec {db : RunDb} {q : ClaimRequest} {r : PlanStep} (h : nextClaim db q = some r) :
    db.run.state.isOpen = true ∧ r ∈ db.steps.rows ∧ r.state = .pending ∧
      r.inPhase q.phase = true ∧ supports q.supportedKinds r = true ∧
      ∀ prev ∈ db.steps.rows, prev.plan.ordinal < r.plan.ordinal → blocks q prev = false := by
  have hmem := nextClaim_mem h
  unfold nextClaim at h
  split at h
  · rename_i hopen
    have hc := List.find?_some h
    simp only [claimable, Bool.and_eq_true, beq_iff_eq, Bool.not_eq_true', List.any_eq_false] at hc
    obtain ⟨⟨⟨hpending, hphase⟩, hkind⟩, hprev⟩ := hc
    refine ⟨hopen, hmem, hpending, hphase, hkind, ?_⟩
    intro prev hp hlt
    have hnot := hprev prev hp
    simpa [hlt] using hnot
  · cases h

theorem outcome_cases {t : PlanTable} {r : PlanStep} {status : Status} {now : Time} {o : Outcome}
    (h : outcome t r status now = .ok o) :
    ((status = .success ∧ r.plan.rebootBehavior = .required ∨ status = .rebootRequired) ∧
      o = ⟨.awaitingReboot, .awaitingReboot, none, .info⟩) ∨
    (status = .success ∧ r.plan.rebootBehavior ≠ .required ∧
      o = ⟨.done, nextRunState t r.id, some now, .info⟩) ∨
    (status = .skipped ∧ o = ⟨.skipped, nextRunState t r.id, some now, .info⟩) ∨
    (status = .failed ∧ r.retriesRemaining = true ∧
      o = ⟨.pending, .running r.plan.phase, none, .warning⟩) ∨
    (status = .failed ∧ r.retriesRemaining = false ∧
      o = ⟨.failed, if r.plan.continueOnError then nextRunState t r.id else .failed, some now,
        .error⟩) := by
  unfold outcome at h
  split at h
  · split at h
    · rename_i hreq
      cases h
      exact .inl ⟨.inl ⟨rfl, hreq⟩, rfl⟩
    · rename_i hreq
      cases h
      exact .inr (.inl ⟨rfl, hreq, rfl⟩)
  · cases h
    exact .inr (.inr (.inl ⟨rfl, rfl⟩))
  · cases h
    exact .inl ⟨.inr rfl, rfl⟩
  · split at h
    · rename_i hretry
      cases h
      exact .inr (.inr (.inr (.inl ⟨rfl, hretry, rfl⟩)))
    · rename_i hretry
      cases h
      exact .inr (.inr (.inr (.inr ⟨rfl, by simpa using hretry, rfl⟩)))
  · cases h

theorem outcome_pending {t : PlanTable} {r : PlanStep} {status : Status} {now : Time} {o : Outcome}
    (h : outcome t r status now = .ok o) (ho : o.stepState = .pending) :
    status = .failed ∧ r.retriesRemaining = true := by
  rcases outcome_cases h with ⟨_, rfl⟩ | ⟨_, _, rfl⟩ | ⟨_, rfl⟩ | ⟨hs, hretry, rfl⟩ | ⟨_, _, rfl⟩
  · cases ho
  · cases ho
  · cases ho
  · exact ⟨hs, hretry⟩
  · cases ho

theorem outcome_failed {t : PlanTable} {r : PlanStep} {status : Status} {now : Time} {o : Outcome}
    (h : outcome t r status now = .ok o) (ho : o.stepState = .failed) :
    status = .failed ∧ r.retriesRemaining = false := by
  rcases outcome_cases h with ⟨_, rfl⟩ | ⟨_, _, rfl⟩ | ⟨_, rfl⟩ | ⟨_, _, rfl⟩ | ⟨hs, hretry, rfl⟩
  · cases ho
  · cases ho
  · cases ho
  · cases ho
  · exact ⟨hs, hretry⟩

/-- Statuses that `complete_step` does not reject. -/
def Status.supported : Status → Bool
  | .other _ => false
  | _ => true

theorem outcome_ok_supported {t : PlanTable} {r : PlanStep} {status : Status} {now : Time}
    {o : Outcome} (h : outcome t r status now = .ok o) : status.supported = true := by
  cases status with
  | other text => cases h
  | _ => rfl

theorem outcome_supported {t : PlanTable} {r : PlanStep} {status : Status} (now : Time)
    (h : status.supported = true) : ∃ o, outcome t r status now = .ok o := by
  cases status with
  | other text => cases h
  | success =>
    dsimp only [outcome]
    split <;> exact ⟨_, rfl⟩
  | failed =>
    dsimp only [outcome]
    split <;> exact ⟨_, rfl⟩
  | skipped => exact ⟨_, rfl⟩
  | rebootRequired => exact ⟨_, rfl⟩

theorem outcome_finishedAt {t : PlanTable} {r : PlanStep} {status : Status} {now : Time} {o : Outcome}
    (h : outcome t r status now = .ok o)
    (hfinished : o.stepState = .done ∨ o.stepState = .skipped ∨ o.stepState = .failed) :
    o.finishedAt = some now := by
  rcases outcome_cases h with ⟨_, rfl⟩ | ⟨_, _, rfl⟩ | ⟨_, rfl⟩ | ⟨_, _, rfl⟩ | ⟨_, _, rfl⟩
  · simp at hfinished
  · rfl
  · rfl
  · simp at hfinished
  · rfl

theorem exec_complete {db : RunDb} {c : Call} {r : PlanStep} {agentId : String} {status : Status}
    {message : Option String} {data : Json} {o : Outcome}
    (hop : c.op = .complete r.id agentId status message data) (hr : r ∈ db.steps.rows)
    (hlate : lateFailure r status = false) (ho : outcome db.steps r status c.now = .ok o) :
    exec db c = db.completeRow r o agentId status message data c.now := by
  simp [exec, hop, completeStep, PlanTable.get?_of_mem hr, hlate, ho, Except.map, committed]

theorem exec_complete_refused {db : RunDb} {c : Call} {stepId : Uuid} {agentId : String}
    {status : Status} {message : Option String} {data : Json}
    (hop : c.op = .complete stepId agentId status message data)
    (hno : ∀ r ∈ db.steps.rows, r.id = stepId →
      lateFailure r status = true ∨ status.supported = false) :
    (exec db c).run = db.run ∧ (exec db c).steps = db.steps := by
  simp only [exec, hop, completeStep]
  split
  · exact ⟨rfl, rfl⟩
  · rename_i r hget
    obtain ⟨hr, hid⟩ := PlanTable.get?_eq_some.mp hget
    split
    · exact ⟨rfl, rfl⟩
    · rename_i hlate
      have hstatus := (hno r hr hid).resolve_left hlate
      cases status with
      | other text => exact ⟨rfl, rfl⟩
      | _ => cases hstatus

theorem exec_complete_cases (db : RunDb) {c : Call} {stepId : Uuid} {agentId : String}
    {status : Status} {message : Option String} {data : Json}
    (hop : c.op = .complete stepId agentId status message data) :
    (∃ r ∈ db.steps.rows, r.id = stepId ∧ lateFailure r status = false ∧ status.supported = true ∧
      ∃ o, outcome db.steps r status c.now = .ok o ∧
        exec db c = db.completeRow r o agentId status message data c.now) ∨
    ((∀ r ∈ db.steps.rows, r.id = stepId → lateFailure r status = false → status.supported = false) ∧
      (exec db c).run = db.run ∧ (exec db c).steps = db.steps) := by
  by_cases h : ∃ r ∈ db.steps.rows, r.id = stepId ∧ lateFailure r status = false ∧
      status.supported = true
  · obtain ⟨r, hr, rfl, hlate, hstatus⟩ := h
    obtain ⟨o, ho⟩ := outcome_supported (t := db.steps) (r := r) c.now hstatus
    exact .inl ⟨r, hr, rfl, hlate, hstatus, o, ho, exec_complete hop hr hlate ho⟩
  · have hno : ∀ r ∈ db.steps.rows, r.id = stepId → lateFailure r status = false →
        status.supported = false := by
      intro r hr hid hlate
      by_contra hstatus
      exact h ⟨r, hr, hid, hlate, by simpa using hstatus⟩
    refine .inr ⟨hno, exec_complete_refused hop fun r hr hid => ?_⟩
    cases hlate : lateFailure r status with
    | true => exact .inl rfl
    | false => exact .inr (hno r hr hid hlate)

theorem exec_rebootComplete_cases (db : RunDb) {c : Call} {stepId : Uuid} {agentId : String}
    (hop : c.op = .rebootComplete stepId agentId) :
    (∃ r ∈ db.steps.rows, r.id = stepId ∧ r.state = .awaitingReboot ∧
      exec db c = db.rebootRow r agentId c.now) ∨
    ((∀ r ∈ db.steps.rows, r.id = stepId → r.state ≠ .awaitingReboot) ∧ exec db c = db) := by
  simp only [exec, hop, markRebootComplete]
  split
  · rename_i hget
    refine .inr ⟨fun r hr hid => ?_, rfl⟩
    simp [← hid, PlanTable.get?_of_mem hr] at hget
  · rename_i r hget
    obtain ⟨hr, hid⟩ := PlanTable.get?_eq_some.mp hget
    by_cases hstate : r.state = .awaitingReboot
    · exact .inl ⟨r, hr, hid, hstate, by rw [if_neg (not_not.mpr hstate)]; rfl⟩
    · refine .inr ⟨fun s hs hsid => ?_, by rw [if_pos hstate]; rfl⟩
      rwa [db.steps.eq_of_id hs hr (hsid.trans hid.symm)]

theorem exec_requeue_cases (db : RunDb) {c : Call} {stepId : Uuid} {requestedBy : String}
    {message : Option String} (hop : c.op = .requeue stepId requestedBy message) :
    (∃ r ∈ db.steps.rows, r.id = stepId ∧ r.state = .failed ∧
      exec db c = db.requeueRow r requestedBy message c.now) ∨
    ((∀ r ∈ db.steps.rows, r.id = stepId → r.state ≠ .failed) ∧ exec db c = db) := by
  simp only [exec, hop, requeueStep]
  split
  · rename_i hget
    refine .inr ⟨fun r hr hid => ?_, rfl⟩
    simp [← hid, PlanTable.get?_of_mem hr] at hget
  · rename_i r hget
    obtain ⟨hr, hid⟩ := PlanTable.get?_eq_some.mp hget
    by_cases hstate : r.state = .failed
    · exact .inl ⟨r, hr, hid, hstate, by rw [if_neg (not_not.mpr hstate)]; rfl⟩
    · refine .inr ⟨fun s hs hsid => ?_, by rw [if_pos hstate]; rfl⟩
      rwa [db.steps.eq_of_id hs hr (hsid.trans hid.symm)]

theorem exec_markDone_cases (db : RunDb) {c : Call} {kinds : List String} {agentId : String}
    {message : Option String} {data : Json} (hop : c.op = .markDone kinds agentId message data) :
    (normalizeKinds kinds = [] ∧ exec db c = db) ∨
    ((exec db c).steps = db.steps.update (fun r =>
        if (normalizeKinds kinds).contains r.plan.kind && r.state != .done
        then markedProgress agentId c.now r.toStepProgress else r.toStepProgress) ∧
      ∃ changed, (exec db c).run =
        markedRun db.run (exec db c).steps (rowsOfKind db.steps kinds) changed c.now) := by
  simp only [exec, hop, markStepsDoneByKind]
  split
  · rename_i hempty
    exact .inl ⟨List.isEmpty_iff.mp hempty, rfl⟩
  · refine .inr ⟨markLoop_steps db kinds 0,
      ((rowsOfKind db.steps kinds).foldl (markRow agentId message data c.now) (db, 0)).2, ?_⟩
    dsimp only
    rw [foldl_markRow_run]

theorem exec_complete_other {db : RunDb} {c : Call} {r : PlanStep} {stepId : Uuid} {agentId : String}
    {status : Status} {message : Option String} {data : Json}
    (hop : c.op = .complete stepId agentId status message data) (hr : r ∈ db.steps.rows)
    (hid : r.id ≠ stepId) : r ∈ (exec db c).steps.rows := by
  obtain ⟨p, hmove, hp⟩ := exists_exec_row c hr
  cases hmove with
  | keep => exact hp
  | completed hop' =>
    rw [hop] at hop'
    injection hop' with h
    exact absurd h.symm hid
  | claimed hop' => rw [hop] at hop'; cases hop'
  | rebooted hop' => rw [hop] at hop'; cases hop'
  | requeued hop' => rw [hop] at hop'; cases hop'
  | marked hop' => rw [hop] at hop'; cases hop'

theorem RowMove.to_pending {db : RunDb} {c : Call} {r : PlanStep} {p : StepProgress}
    (h : RowMove db c r p) (hp : p.state = .pending) :
    (p = r.toStepProgress ∧ r.state = .pending) ∨
    (r.retriesRemaining = true ∧ ∃ agentId message data, c.op = .complete r.id agentId .failed message data) ∨
    (r.state = .failed ∧ ∃ requestedBy message, c.op = .requeue r.id requestedBy message) := by
  cases h with
  | keep => exact .inl ⟨rfl, hp⟩
  | claimed => cases hp
  | completed hop _ ho =>
    obtain ⟨rfl, hretry⟩ := outcome_pending ho hp
    exact .inr (.inl ⟨hretry, _, _, _, hop⟩)
  | rebooted => cases hp
  | requeued hop hstate => exact .inr (.inr ⟨hstate, _, _, hop⟩)
  | marked => cases hp

theorem RowMove.to_failed {db : RunDb} {c : Call} {r : PlanStep} {p : StepProgress}
    (h : RowMove db c r p) (hp : p.state = .failed) :
    (p = r.toStepProgress ∧ r.state = .failed) ∨
    (r.retriesRemaining = false ∧ ∃ agentId message data, c.op = .complete r.id agentId .failed message data) := by
  cases h with
  | keep => exact .inl ⟨rfl, hp⟩
  | claimed => cases hp
  | completed hop _ ho =>
    obtain ⟨rfl, hretry⟩ := outcome_failed ho hp
    exact .inr ⟨hretry, _, _, _, hop⟩
  | rebooted => cases hp
  | requeued => cases hp
  | marked => cases hp

theorem RowMove.to_awaitingReboot {db : RunDb} {c : Call} {r : PlanStep} {p : StepProgress}
    (h : RowMove db c r p) (hp : p.state = .awaitingReboot) :
    (p = r.toStepProgress ∧ r.state = .awaitingReboot) ∨
    ∃ agentId status message data, c.op = .complete r.id agentId status message data := by
  cases h with
  | keep => exact .inl ⟨rfl, hp⟩
  | claimed => cases hp
  | completed hop => exact .inr ⟨_, _, _, _, hop⟩
  | rebooted => cases hp
  | requeued => cases hp
  | marked => cases hp

theorem RowMove.of_finished {db : RunDb} {c : Call} {r : PlanStep} {p : StepProgress}
    (h : RowMove db c r p) (hr : r.finished = true) :
    p = r.toStepProgress ∨
    (∃ agentId status message data o, c.op = .complete r.id agentId status message data ∧
      outcome db.steps r status c.now = .ok o) ∨
    (r.state = .failed ∧ p.state = .pending ∧
      ∃ requestedBy message, c.op = .requeue r.id requestedBy message) ∨
    (r.state ≠ .done ∧ p.state = .done ∧ ∃ kinds agentId message data,
      c.op = .markDone kinds agentId message data ∧
        (normalizeKinds kinds).contains r.plan.kind = true) := by
  cases h with
  | keep => exact .inl rfl
  | claimed _ hclaim =>
    have hpending := (nextClaim_spec hclaim).2.2.1
    simp [PlanStep.finished, hpending] at hr
  | completed hop _ ho => exact .inr (.inl ⟨_, _, _, _, _, hop, ho⟩)
  | rebooted _ hstate => simp [PlanStep.finished, hstate] at hr
  | requeued hop hstate => exact .inr (.inr (.inl ⟨hstate, rfl, _, _, hop⟩))
  | marked hop hkind hdone => exact .inr (.inr (.inr ⟨hdone, rfl, _, _, _, _, hop, hkind⟩))

theorem nextClaim_le {db : RunDb} {q : ClaimRequest} {r s : PlanStep} (h : nextClaim db q = some r)
    (hs : s ∈ db.steps.rows) (hclaim : claimable db.steps.rows q s = true) :
    r.plan.ordinal ≤ s.plan.ordinal := by
  unfold nextClaim at h
  split at h
  · obtain ⟨_, before, after, hrows, hbefore⟩ := List.find?_eq_some_iff_append.mp h
    have hordered := db.steps.ordinals
    rw [hrows] at hs hordered
    rcases List.mem_append.mp hs with hmem | hmem
    · exact absurd hclaim (by simpa using hbefore s hmem)
    · rcases List.mem_cons.mp hmem with rfl | hmem
      · exact Nat.le_refl _
      · exact Nat.le_of_lt
          ((List.pairwise_cons.mp (List.pairwise_append.mp hordered).2.1).1 s hmem)
  · cases h

theorem exists_nextClaim {db : RunDb} {q : ClaimRequest} {s : PlanStep}
    (hopen : db.run.state.isOpen = true) (hs : s ∈ db.steps.rows)
    (hclaim : claimable db.steps.rows q s = true) : ∃ r, nextClaim db q = some r := by
  unfold nextClaim
  rw [if_pos hopen]
  exact Option.isSome_iff_exists.mp (List.find?_isSome.mpr ⟨s, hs, hclaim⟩)

end ProxmoxVEAutopilot.TsEngine
