import ProxmoxVEAutopilot.Foundation.Runs
import ProxmoxVEAutopilot.OsDeploy.Create
import ProxmoxVEAutopilot.TsEngine.Finality

/-!
# Final outcomes of OSDeploy runs

Three of the six calls write the state of a run without a look at the state it has: an
agent that goes on sending heartbeats takes a failed run back to `complete`.
-/

namespace ProxmoxVEAutopilot.OsDeploy

open Foundation TsEngine
set_option autoImplicit false

inductive Call where
  | setRunIdentity (vmid : Option Int) (vmUuid mac node computerName : Option String)
  | markPeRegistered (metadata : Json)
  | appendEvent (phase eventType severity : String) (message : Option String) (data : Json)
  | markCompleteFromHeartbeat (agentId : String) (heartbeat : Heartbeat)
  | markRoleStepResult (stepKind agentId status : String) (message : Option String) (data : Json)
  | markFailedFromJob (f : JobFailure)

def exec (d : Deployment) (c : Call × Time) : Deployment :=
  match c.1 with
  | .setRunIdentity vmid vmUuid mac node computerName => setRunIdentity d vmid vmUuid mac node computerName c.2
  | .markPeRegistered metadata => markPeRegistered d metadata c.2
  | .appendEvent phase eventType severity message data => appendEvent d phase eventType severity message data c.2
  | .markCompleteFromHeartbeat agentId heartbeat => markCompleteFromHeartbeat d agentId heartbeat c.2
  | .markRoleStepResult stepKind agentId status message data =>
    markRoleStepResult d stepKind agentId status message data c.2
  | .markFailedFromJob f => markFailedFromJob d f c.2

/-- Readiness and engine say of an ended run what the run says. -/
structure Agrees (d : Deployment) : Prop where
  failed : d.run.state = .failed → d.readiness.state = .failed ∧ d.ts.run.state = .failed
  complete : d.run.state = .complete → d.readiness.state = .complete ∧ d.ts.run.state = .done

def Ended (state : DeployState) : Prop := state = .failed ∨ state = .complete

instance (state : DeployState) : Decidable (Ended state) := inferInstanceAs (Decidable (_ ∨ _))

/-- The outcome of `a`, if it has one, is that of `b`, which everybody agrees on. -/
structure KeepsOutcome (a b : Deployment) : Prop where
  state : Ended a.run.state → b.run.state = a.run.state
  errors : Ended a.run.state → ∀ e ∈ a.readiness.errors, e ∈ b.readiness.errors
  agrees : Agrees b

def SparesOutcome (d : Deployment) (c : Call × Time) : Prop :=
  match c.1 with
  | .setRunIdentity .. | .appendEvent .. => True
  | .markPeRegistered _ => ¬ Ended d.run.state
  | .markCompleteFromHeartbeat .. => d.run.state ≠ .failed
  | .markRoleStepResult stepKind agentId status message data =>
    roleIsReady d = true ∨
      if status = "success" then some stepKind = finalRoleStepKind d.run.serverRole → d.run.state ≠ .failed
      else d.run.state ≠ .complete ∧
        (d.run.state = .failed → ∀ e ∈ d.readiness.errors, e = roleError stepKind agentId message data)
  | .markFailedFromJob _ => ¬ Ended d.run.state → d.run.state ≠ .canceled → d.ts.run.state ≠ .done

/-- The engine fails with the run, a complete run has no errors, and a builder's error has
its event. -/
structure Consistent (d : Deployment) : Prop where
  agrees : Agrees d
  engine : d.ts.run.state = .failed → d.run.state = .failed
  clean : d.run.state = .complete → d.readiness.errors = []
  recorded : ∀ e ∈ d.readiness.errors, ∀ jobId, e.ofJob jobId = true → failureRecorded d jobId = true

section Events
variable {d : Deployment} {phase eventType severity : String} {message : Option String} {data : Json}
  {now : Time}

@[simp] theorem appendEvent_readiness :
    (appendEvent d phase eventType severity message data now).readiness = d.readiness := by
  unfold appendEvent markPePhaseProgressFromEvent markStepsDoneFromEvent
  split <;> split <;> rfl

@[simp] theorem appendEvent_state :
    (appendEvent d phase eventType severity message data now).run.state = d.run.state := by
  unfold appendEvent markPePhaseProgressFromEvent markStepsDoneFromEvent
  split <;> split <;> rfl

theorem appendEvent_events : (appendEvent d phase eventType severity message data now).events =
    d.events ++ [⟨phase, eventType, severity, message, orEmpty data, now⟩] := by
  unfold appendEvent markPePhaseProgressFromEvent markStepsDoneFromEvent
  split <;> split <;> rfl

theorem appendEvent_engine :
    MayFinish d.ts.run.state (appendEvent d phase eventType severity message data now).ts.run.state := by
  unfold appendEvent markPePhaseProgressFromEvent markStepsDoneFromEvent
  split
  · split
    · exact .inl rfl
    · exact mayFinish_mark d.ts _ _ _ _ now
  · split
    · exact .inl rfl
    · exact mayFinish_mark d.ts _ _ _ _ now

theorem failureRecorded_appendEvent {jobId : String} (h : failureRecorded d jobId = true) :
    failureRecorded (appendEvent d phase eventType severity message data now) jobId = true := by
  unfold failureRecorded at *
  rw [appendEvent_events, List.any_append, h, Bool.true_or]

theorem Agrees.appendEvent (h : Agrees d) :
    Agrees (appendEvent d phase eventType severity message data now) where
  failed := by
    rw [appendEvent_state, appendEvent_readiness]
    exact fun hs => ⟨(h.failed hs).1, appendEvent_engine.failed.mpr (h.failed hs).2⟩
  complete := by
    rw [appendEvent_state, appendEvent_readiness]
    exact fun hs => ⟨(h.complete hs).1, appendEvent_engine.done (h.complete hs).2⟩

theorem Consistent.appendEvent (h : Consistent d) :
    Consistent (appendEvent d phase eventType severity message data now) where
  agrees := h.agrees.appendEvent
  engine := by
    rw [appendEvent_state]
    exact fun hs => h.engine (appendEvent_engine.failed.mp hs)
  clean := by
    rw [appendEvent_state, appendEvent_readiness]
    exact h.clean
  recorded := by
    rw [appendEvent_readiness]
    exact fun e he jobId hjob => failureRecorded_appendEvent (h.recorded e he jobId hjob)

theorem KeepsOutcome.appendEvent {a : Deployment} (h : KeepsOutcome a d) :
    KeepsOutcome a (appendEvent d phase eventType severity message data now) where
  state := by
    rw [appendEvent_state]
    exact h.state
  errors := by
    rw [appendEvent_readiness]
    exact h.errors
  agrees := h.agrees.appendEvent

end Events

section Calls
variable {d : Deployment} {now : Time}

theorem KeepsOutcome.refl (h : Agrees d) : KeepsOutcome d d := ⟨fun _ => rfl, fun _ _ he => he, h⟩

theorem KeepsOutcome.trans {a b c : Deployment} (hab : KeepsOutcome a b) (hbc : KeepsOutcome b c) :
    KeepsOutcome a c where
  state h := (hbc.state (hab.state h ▸ h)).trans (hab.state h)
  errors h e he := hbc.errors (hab.state h ▸ h) e (hab.errors h e he)
  agrees := hbc.agrees

theorem keepsOutcome_of_open {a b : Deployment} (ha : ¬ Ended a.run.state) (hb : Agrees b) :
    KeepsOutcome a b :=
  ⟨fun h => absurd h ha, fun h => absurd h ha, hb⟩

theorem spared_setRunIdentity (now : Time) (h : Consistent d) (vmid : Option Int)
    (vmUuid mac node computerName : Option String) :
    Consistent (setRunIdentity d vmid vmUuid mac node computerName now) ∧
      KeepsOutcome d (setRunIdentity d vmid vmUuid mac node computerName now) := by
  -- neither `CASE` touches a final state
  have hrun : ∀ s, Ended s → ((if d.run.state = .created then DeployState.awaitingPe else d.run.state) = s ↔
      d.run.state = s) := by
    intro s hs
    split
    · rename_i hcreated
      rw [hcreated]
      rcases hs with rfl | rfl
      · simp
      · simp
    · rfl
  have hts : ∀ s : RunState, s = .failed ∨ s = .done →
      ((if d.ts.run.state = .external "osdeploy_created" then RunState.external "osdeploy_awaiting_pe"
        else d.ts.run.state) = s ↔ d.ts.run.state = s) := by
    intro s hs
    split
    · rename_i hcreated
      rw [hcreated]
      rcases hs with rfl | rfl
      · simp
      · simp
    · rfl
  have hagrees : Agrees { d with
      run := { d.run with state := if d.run.state = .created then .awaitingPe else d.run.state }
      ts := { d.ts with run := { d.ts.run with
        state := if d.ts.run.state = .external "osdeploy_created" then .external "osdeploy_awaiting_pe"
          else d.ts.run.state } } } := by
    refine ⟨fun hs => ?_, fun hs => ?_⟩
    · have hfailed := h.agrees.failed ((hrun _ (.inl rfl)).mp hs)
      exact ⟨hfailed.1, (hts _ (.inl rfl)).mpr hfailed.2⟩
    · have hcomplete := h.agrees.complete ((hrun _ (.inr rfl)).mp hs)
      exact ⟨hcomplete.1, (hts _ (.inr rfl)).mpr hcomplete.2⟩
  refine ⟨Consistent.appendEvent ⟨⟨hagrees.failed, hagrees.complete⟩, ?_, ?_, h.recorded⟩,
    KeepsOutcome.appendEvent ⟨?_, fun _ e he => he, ⟨hagrees.failed, hagrees.complete⟩⟩⟩
  · intro hs
    exact (hrun _ (.inl rfl)).mpr (h.engine ((hts _ (.inl rfl)).mp hs))
  · intro hs
    exact h.clean ((hrun _ (.inr rfl)).mp hs)
  · intro hs
    exact (hrun _ hs).mpr rfl

theorem spared_markPeRegistered (h : Consistent d) (metadata : Json) (hopen : ¬ Ended d.run.state) :
    Consistent (markPeRegistered d metadata now) ∧ KeepsOutcome d (markPeRegistered d metadata now) := by
  refine ⟨Consistent.appendEvent ⟨⟨?_, ?_⟩, ?_, ?_, h.recorded⟩,
    KeepsOutcome.appendEvent (keepsOutcome_of_open hopen ⟨?_, ?_⟩)⟩
  all_goals
    intro hs
    cases hs

theorem state_markPeRegistered (metadata : Json) :
    (markPeRegistered d metadata now).run.state = .peRegistered := appendEvent_state

theorem keeps_markPeRegistered_iff (metadata : Json) (h : Consistent d) :
    KeepsOutcome d (markPeRegistered d metadata now) ↔ ¬ Ended d.run.state := by
  constructor
  · intro hkeeps hended
    have hstate := hkeeps.state hended
    rw [state_markPeRegistered] at hstate
    rw [← hstate] at hended
    rcases hended with hs | hs
    · cases hs
    · cases hs
  · exact fun hopen => (spared_markPeRegistered h metadata hopen).2

def heartbeatState (d : Deployment) (steps : PlanTable) : DeployState :=
  if roleIsReady d || roleAlreadyReady d steps then .complete else .rolePending

theorem state_markCompleteFromHeartbeat (d : Deployment) (agentId : String) (heartbeat : Heartbeat)
    (now : Time) : ∃ steps, (markCompleteFromHeartbeat d agentId heartbeat now).run.state = heartbeatState d steps :=
  ⟨_, appendEvent_state⟩

theorem roleReady_of_complete (h : d.run.state = .complete) (steps : PlanTable) :
    (roleIsReady d || roleAlreadyReady d steps) = true := by
  unfold roleAlreadyReady
  rw [h]
  cases roleIsReady d with
  | true => rfl
  | false => rfl

theorem spared_markCompleteFromHeartbeat (h : Consistent d) (agentId : String) (heartbeat : Heartbeat)
    (hnot : d.run.state ≠ .failed) :
    Consistent (markCompleteFromHeartbeat d agentId heartbeat now) ∧
      KeepsOutcome d (markCompleteFromHeartbeat d agentId heartbeat now) := by
  unfold markCompleteFromHeartbeat
  dsimp only
  set ts := (markStepsDoneByKind d.ts (heartbeatKinds d) agentId _ _ now).1
  set ready := roleIsReady d || roleAlreadyReady d ts.steps
  have hengine : ts.run.state ≠ .failed := by
    intro hs
    exact hnot (h.engine ((mayFinish_mark d.ts (heartbeatKinds d) agentId _ _ now).failed.mp hs))
  have hstate : (if ready = true then DeployState.complete else .rolePending) ≠ .failed := by
    split
    · simp
    · simp
  refine ⟨Consistent.appendEvent ⟨⟨?_, ?_⟩, ?_, fun _ => rfl, ?_⟩,
    KeepsOutcome.appendEvent ⟨?_, ?_, ⟨?_, ?_⟩⟩⟩
  · exact fun hs => absurd hs hstate
  · intro hs
    refine ⟨hs, ?_⟩
    have hyes : ready = true := by
      by_contra hno
      simp [hno] at hs
    simp [unlessFailed, hengine, hyes]
  · intro hs
    exfalso
    revert hs
    simp only [unlessFailed, hengine, if_false]
    split
    · simp
    · simp
  · exact fun e he => absurd he List.not_mem_nil
  · intro hended
    rcases hended with hs | hs
    · exact absurd hs hnot
    · have hyes : ready = true := roleReady_of_complete hs ts.steps
      simp [hyes, hs]
  · intro hended e he
    rcases hended with hs | hs
    · exact absurd hs hnot
    · rw [h.clean hs] at he
      exact absurd he List.not_mem_nil
  · exact fun hs => absurd hs hstate
  · intro hs
    refine ⟨hs, ?_⟩
    have hyes : ready = true := by
      by_contra hno
      simp [hno] at hs
    simp [unlessFailed, hengine, hyes]

theorem keeps_markCompleteFromHeartbeat_iff (h : Consistent d) (agentId : String) (heartbeat : Heartbeat) :
    KeepsOutcome d (markCompleteFromHeartbeat d agentId heartbeat now) ↔ d.run.state ≠ .failed := by
  constructor
  · intro hkeeps hfailed
    obtain ⟨steps, hstate⟩ := state_markCompleteFromHeartbeat d agentId heartbeat now
    rw [hkeeps.state (.inl hfailed), hfailed, heartbeatState] at hstate
    split at hstate
    · cases hstate
    · cases hstate
  · exact fun hnot => (spared_markCompleteFromHeartbeat h agentId heartbeat hnot).2

section RoleStep
variable {stepKind agentId status : String} {message : Option String} {data : Json}

theorem markRoleStepResult_success (agentId : String) (message : Option String) (data : Json) (now : Time) (hrole : roleIsReady d = false)
    (hfinal : some stepKind = finalRoleStepKind d.run.serverRole) :
    (markRoleStepResult d stepKind agentId "success" message data now).run.state = .complete ∧
      (d.run.state ≠ .failed → Consistent d →
        Consistent (markRoleStepResult d stepKind agentId "success" message data now) ∧
        KeepsOutcome d (markRoleStepResult d stepKind agentId "success" message data now)) := by
  unfold markRoleStepResult
  rw [hrole]
  simp only [Bool.false_eq_true, if_false, if_true, hfinal, ne_eq, not_true_eq_false]
  refine ⟨appendEvent_state, fun hnot h => ?_⟩
  have hengine : d.ts.run.state ≠ .failed := fun hs => hnot (h.engine hs)
  refine ⟨Consistent.appendEvent ⟨⟨?_, ?_⟩, ?_, fun _ => rfl, ?_⟩,
    KeepsOutcome.appendEvent ⟨?_, ?_, ⟨?_, ?_⟩⟩⟩
  · exact fun hs => absurd hs (by simp)
  · exact fun _ => ⟨rfl, by simp [unlessFailed, hengine]⟩
  · intro hs
    simp [unlessFailed, hengine] at hs
  · exact fun e he => absurd he List.not_mem_nil
  · intro hended
    exact (hended.resolve_left hnot).symm
  · intro hended e he
    rw [h.clean (hended.resolve_left hnot)] at he
    exact absurd he List.not_mem_nil
  · exact fun hs => absurd hs (by simp)
  · exact fun _ => ⟨rfl, by simp [unlessFailed, hengine]⟩

theorem markRoleStepResult_failure (stepKind agentId : String) (message : Option String) (data : Json) (now : Time)
    (hrole : roleIsReady d = false) (hstatus : status ≠ "success") :
    (markRoleStepResult d stepKind agentId status message data now).run.state = .failed ∧
    (markRoleStepResult d stepKind agentId status message data now).readiness.errors =
      [roleError stepKind agentId message data] ∧
    Consistent (markRoleStepResult d stepKind agentId status message data now) := by
  unfold markRoleStepResult
  rw [hrole]
  simp only [Bool.false_eq_true, if_false, hstatus]
  refine ⟨appendEvent_state, by rw [appendEvent_readiness],
    Consistent.appendEvent ⟨⟨fun _ => ⟨rfl, rfl⟩, ?_⟩, fun _ => rfl, ?_, ?_⟩⟩
  · exact fun hs => absurd hs (by simp)
  · exact fun hs => absurd hs (by simp)
  · intro e he jobId hjob
    rw [List.mem_singleton.mp he] at hjob
    cases hjob

theorem keeps_markRoleStepResult_iff (h : Consistent d) :
    (KeepsOutcome d (markRoleStepResult d stepKind agentId status message data now) ↔
      SparesOutcome d (.markRoleStepResult stepKind agentId status message data, now)) ∧
    (SparesOutcome d (.markRoleStepResult stepKind agentId status message data, now) →
      Consistent (markRoleStepResult d stepKind agentId status message data now)) := by
  unfold SparesOutcome
  dsimp only
  cases hrole : roleIsReady d with
  | true =>
    have hsame : markRoleStepResult d stepKind agentId status message data now = d := by
      unfold markRoleStepResult
      simp [hrole]
    rw [hsame]
    exact ⟨⟨fun _ => .inl rfl, fun _ => KeepsOutcome.refl h.agrees⟩, fun _ => h⟩
  | false =>
    simp only [Bool.false_eq_true, false_or]
    by_cases hstatus : status = "success"
    · subst hstatus
      simp only [if_true]
      by_cases hfinal : some stepKind = finalRoleStepKind d.run.serverRole
      · obtain ⟨hstate, hspared⟩ :=
          markRoleStepResult_success agentId message data now hrole hfinal
        refine ⟨⟨fun hkeeps _ hfailed => ?_, fun hok => (hspared (hok hfinal) h).2⟩,
          fun hok => (hspared (hok hfinal) h).1⟩
        have hsame := hkeeps.state (.inl hfailed)
        rw [hstate, hfailed] at hsame
        cases hsame
      · have hsame : ∃ e : RunEvent, markRoleStepResult d stepKind agentId "success" message data now =
            appendEvent d e.phase e.eventType e.severity e.message e.data now := by
          unfold markRoleStepResult
          simp only [hrole, Bool.false_eq_true, if_false, if_true, ne_eq, hfinal, not_false_eq_true]
          exact ⟨⟨_, _, _, _, _, now⟩, rfl⟩
        obtain ⟨e, hsame⟩ := hsame
        rw [hsame]
        exact ⟨⟨fun _ hf => absurd hf hfinal, fun _ => (KeepsOutcome.refl h.agrees).appendEvent⟩,
          fun _ => h.appendEvent⟩
    · obtain ⟨hstate, herrors, hconsistent⟩ :=
        markRoleStepResult_failure stepKind agentId message data now hrole hstatus
      rw [if_neg hstatus]
      refine ⟨⟨fun hkeeps => ⟨fun hcomplete => ?_, fun hfailed e he => ?_⟩, fun hok => ?_⟩,
        fun _ => hconsistent⟩
      · have hsame := hkeeps.state (.inr hcomplete)
        rw [hstate, hcomplete] at hsame
        cases hsame
      · have hmem := hkeeps.errors (.inl hfailed) e he
        rw [herrors] at hmem
        exact List.mem_singleton.mp hmem
      · refine ⟨fun hended => ?_, fun hended e he => ?_, hconsistent.agrees⟩
        · rw [hstate, hended.resolve_right hok.1]
        · rw [herrors, hok.2 (hended.resolve_right hok.1) e he]
          exact List.mem_singleton_self _

end RoleStep

section JobFailure
variable {f : JobFailure}

theorem mem_putError {entry e : ReadinessError} {jobId : String} {errors : List ReadinessError}
    (h : e ∈ errors) (hother : e.ofJob jobId = false) : e ∈ putError entry jobId errors := by
  induction errors with
  | nil => cases h
  | cons x rest ih =>
    unfold putError
    rcases List.mem_cons.mp h with rfl | h
    · rw [hother]
      exact List.mem_cons_self
    · split
      · exact List.mem_cons_of_mem _ h
      · exact List.mem_cons_of_mem _ (ih h)

theorem of_mem_putError {entry e : ReadinessError} {jobId : String} {errors : List ReadinessError}
    (h : e ∈ putError entry jobId errors) : e = entry ∨ e ∈ errors := by
  induction errors with
  | nil => exact .inl (List.mem_singleton.mp h)
  | cons x rest ih =>
    unfold putError at h
    split at h
    · rcases List.mem_cons.mp h with rfl | h
      · exact .inl rfl
      · exact .inr (List.mem_cons_of_mem _ h)
    · rcases List.mem_cons.mp h with rfl | h
      · exact .inr List.mem_cons_self
      · exact (ih h).imp id (List.mem_cons_of_mem _)

theorem markFailedFromJob_written (now : Time) (hstate : d.run.state ≠ .complete ∧ d.run.state ≠ .canceled)
    (hnew : ¬ (d.run.state = .failed ∧ failureRecorded d f.jobId = true)) :
    (markFailedFromJob d f now).run.state = .failed ∧
    (markFailedFromJob d f now).readiness.state = .failed ∧
    (markFailedFromJob d f now).readiness.errors = putError f.entry f.jobId d.readiness.errors ∧
    MayFinish (if d.ts.run.state = .done then .done else .failed) (markFailedFromJob d f now).ts.run.state ∧
    (∀ jobId, failureRecorded d jobId = true → failureRecorded (markFailedFromJob d f now) jobId = true) ∧
    failureRecorded (markFailedFromJob d f now) f.jobId = true := by
  have hstate' : ¬ (d.run.state = .complete ∨ d.run.state = .canceled) := by
    rintro (hs | hs)
    · exact hstate.1 hs
    · exact hstate.2 hs
  unfold markFailedFromJob
  rw [if_neg hstate', if_neg hnew]
  cases hrecorded : failureRecorded d f.jobId with
  | true =>
    refine ⟨rfl, rfl, rfl, ?_, fun _ hj => hj, hrecorded⟩
    simp only [if_true]
    split
    · rename_i hdone
      exact .inl hdone
    · exact .inl rfl
  | false =>
    simp only [Bool.false_eq_true, if_false]
    refine ⟨appendEvent_state, by rw [appendEvent_readiness], by rw [appendEvent_readiness], ?_,
      fun _ hj => failureRecorded_appendEvent hj, ?_⟩
    · by_cases hdone : d.ts.run.state = .done
      · simp only [hdone, if_true]
        refine .inl (appendEvent_engine.done ?_)
        simp [hdone]
      · simp only [hdone, if_false]
        refine .inl (appendEvent_engine.failed.mpr ?_)
        simp
    · unfold failureRecorded
      rw [appendEvent_events, List.any_append]
      simp [RunEvent.names, orEmpty, Json.truthy, Json.get?, columnText]

theorem consistent_written (now : Time) (h : Consistent d) (hstate : d.run.state ≠ .complete ∧ d.run.state ≠ .canceled)
    (hnew : ¬ (d.run.state = .failed ∧ failureRecorded d f.jobId = true)) (hengine : d.ts.run.state ≠ .done) :
    Consistent (markFailedFromJob d f now) := by
  obtain ⟨hrun, hreadiness, herrors, hts, hkept, hevent⟩ := markFailedFromJob_written now hstate hnew
  rw [if_neg hengine] at hts
  refine ⟨⟨fun _ => ⟨hreadiness, hts.failed.mpr rfl⟩, fun hs => ?_⟩, fun _ => hrun, fun hs => ?_, ?_⟩
  · rw [hrun] at hs
    cases hs
  · rw [hrun] at hs
    cases hs
  · intro e he jobId hjob
    rw [herrors] at he
    rcases of_mem_putError he with rfl | he
    · have hid : f.jobId = jobId := beq_iff_eq.mp hjob
      rwa [← hid]
    · exact hkept jobId (h.recorded e he jobId hjob)

theorem keeps_markFailedFromJob_iff (h : Consistent d) :
    (KeepsOutcome d (markFailedFromJob d f now) ↔ SparesOutcome d (.markFailedFromJob f, now)) ∧
    (SparesOutcome d (.markFailedFromJob f, now) → Consistent (markFailedFromJob d f now)) := by
  unfold SparesOutcome
  dsimp only
  by_cases hstate : d.run.state = .complete ∨ d.run.state = .canceled
  · have hsame : markFailedFromJob d f now = d := if_pos hstate
    rw [hsame]
    refine ⟨⟨fun _ hopen hcanceled => ?_, fun _ => KeepsOutcome.refl h.agrees⟩, fun _ => h⟩
    rcases hstate with hs | hs
    · exact absurd (.inr hs) hopen
    · exact absurd hs hcanceled
  by_cases hold : d.run.state = .failed ∧ failureRecorded d f.jobId = true
  · have hsame : markFailedFromJob d f now = d := by
      unfold markFailedFromJob
      rw [if_neg hstate, if_pos hold]
    rw [hsame]
    exact ⟨⟨fun _ hopen => absurd (.inl hold.1) hopen, fun _ => KeepsOutcome.refl h.agrees⟩, fun _ => h⟩
  have hnot : d.run.state ≠ .complete ∧ d.run.state ≠ .canceled :=
    ⟨fun hs => hstate (.inl hs), fun hs => hstate (.inr hs)⟩
  obtain ⟨hrun, _, herrors, hts, _, _⟩ := markFailedFromJob_written now hnot hold
  by_cases hfailed : d.run.state = .failed
  · have hengine : d.ts.run.state ≠ .done := by
      rw [(h.agrees.failed hfailed).2]
      simp
    have hconsistent := consistent_written now h hnot hold hengine
    refine ⟨⟨fun _ hopen => absurd (.inl hfailed) hopen, fun _ => ⟨fun _ => ?_, fun _ e he => ?_,
      hconsistent.agrees⟩⟩, fun _ => hconsistent⟩
    · rw [hrun, hfailed]
    · rw [herrors]
      refine mem_putError he ?_
      -- an error of the same job would have its event
      cases hjob : e.ofJob f.jobId with
      | false => rfl
      | true => exact absurd ⟨hfailed, h.recorded e he _ hjob⟩ hold
  · have hopen : ¬ Ended d.run.state := by
      rintro (hs | hs)
      · exact hfailed hs
      · exact hnot.1 hs
    refine ⟨⟨fun hkeeps _ _ hdone => ?_, fun hok => ?_⟩, fun hok => ?_⟩
    · rw [if_pos hdone] at hts
      have hfail := (hkeeps.agrees.failed hrun).2
      rw [hts.done rfl] at hfail
      cases hfail
    · exact keepsOutcome_of_open hopen (consistent_written now h hnot hold (hok hopen hnot.2)).agrees
    · exact consistent_written now h hnot hold (hok hopen hnot.2)

end JobFailure

theorem keepsOutcome_exec_iff (h : Consistent d) (c : Call × Time) :
    (KeepsOutcome d (exec d c) ↔ SparesOutcome d c) ∧ (SparesOutcome d c → Consistent (exec d c)) := by
  obtain ⟨c, now⟩ := c
  cases c with
  | setRunIdentity vmid vmUuid mac node computerName =>
    have hspared := spared_setRunIdentity now h vmid vmUuid mac node computerName
    exact ⟨⟨fun _ => trivial, fun _ => hspared.2⟩, fun _ => hspared.1⟩
  | appendEvent phase eventType severity message data =>
    exact ⟨⟨fun _ => trivial, fun _ => (KeepsOutcome.refl h.agrees).appendEvent⟩, fun _ => h.appendEvent⟩
  | markPeRegistered metadata =>
    exact ⟨keeps_markPeRegistered_iff metadata h, fun hok => (spared_markPeRegistered h metadata hok).1⟩
  | markCompleteFromHeartbeat agentId heartbeat =>
    exact ⟨keeps_markCompleteFromHeartbeat_iff h agentId heartbeat,
      fun hok => (spared_markCompleteFromHeartbeat h agentId heartbeat hok).1⟩
  | markRoleStepResult => exact keeps_markRoleStepResult_iff h
  | markFailedFromJob => exact keeps_markFailedFromJob_iff h

end Calls

section Outcome
variable {d : Deployment}

theorem Created.state (h : Created d) : d.run.state = .created := by
  obtain ⟨ids, nodeId, sequenceId, versionId, request, now, h⟩ := h
  obtain ⟨ts, rfl⟩ := createRun_ok h
  exact appendEvent_state

theorem Created.consistent (h : Created d) : Consistent d := by
  obtain ⟨ids, nodeId, sequenceId, versionId, request, now, h⟩ := h
  obtain ⟨ts, rfl⟩ := createRun_ok h
  refine Consistent.appendEvent ⟨⟨?_, ?_⟩, ?_, fun _ => rfl, fun e he => absurd he List.not_mem_nil⟩
  all_goals
    intro hs
    cases hs

/-- The outcome of a created run lasts, with its errors and with everybody agreeing on it,
along exactly the sequences of calls that spare it. -/
theorem outcomes_are_final_iff (h : Created d) (calls : List (Call × Time)) :
    Along KeepsOutcome exec d calls ↔ Replays SparesOutcome exec d calls := by
  refine along_iff_replays (P := Consistent) (fun d hd => KeepsOutcome.refl hd.agrees)
    (fun a b c => KeepsOutcome.trans) ?_ ?_ h.consistent
  · exact fun d c hd => (keepsOutcome_exec_iff hd c).1
  · exact fun d c hd => (keepsOutcome_exec_iff hd c).2

def baseServer : Deployment :=
  (createRun countingIds id 0 0 { vmName := "SRV1", serverRole := "base" } 0).toOption.get (by decide)

theorem created_baseServer : Created baseServer :=
  ⟨countingIds, id, 0, 0, { vmName := "SRV1", serverRole := "base" }, 0, ok_toOption_get _ (by decide)⟩

theorem registered_outcome_is_final :
    Created baseServer ∧ Along KeepsOutcome exec baseServer [(.markPeRegistered .null, 1)] := by
  refine ⟨created_baseServer, (outcomes_are_final_iff created_baseServer _).mpr ⟨?_, trivial⟩⟩
  show ¬ Ended baseServer.run.state
  rw [created_baseServer.state]
  decide

def failedThenAlive : List (Call × Time) :=
  [(.markFailedFromJob { jobId := "job-1" }, 1), (.markCompleteFromHeartbeat "agent-1" {}, 2)]

theorem heartbeat_completes_a_failed_run :
    Created baseServer ∧ ¬ Along KeepsOutcome exec baseServer failedThenAlive := by
  refine ⟨created_baseServer, fun h => ?_⟩
  have hopen := created_baseServer.state
  have hfailed : (markFailedFromJob baseServer { jobId := "job-1" } 1).run.state = .failed :=
    (markFailedFromJob_written 1 (by simp [hopen]) (by simp [hopen])).1
  have hkeeps : KeepsOutcome (markFailedFromJob baseServer { jobId := "job-1" } 1)
      (markCompleteFromHeartbeat (markFailedFromJob baseServer { jobId := "job-1" } 1) "agent-1" {} 2) :=
    h [(.markFailedFromJob { jobId := "job-1" }, 1)] [(.markCompleteFromHeartbeat "agent-1" {}, 2)]
      (List.prefix_refl _)
  obtain ⟨steps, hstate⟩ := state_markCompleteFromHeartbeat
    (markFailedFromJob baseServer { jobId := "job-1" } 1) "agent-1" {} 2
  rw [hkeeps.state (.inl hfailed), hfailed, heartbeatState] at hstate
  split at hstate
  · cases hstate
  · cases hstate

end Outcome

end ProxmoxVEAutopilot.OsDeploy
