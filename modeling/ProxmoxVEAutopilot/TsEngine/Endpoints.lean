import ProxmoxVEAutopilot.TsEngine.Moves

/-!
# The agent endpoints

`/osd/v2/agent/*` for one run whose token the caller holds. Every endpoint is a short
list of engine calls, so what is proved of the engine holds behind the endpoints.
-/

namespace ProxmoxVEAutopilot.TsEngine

open Foundation
set_option autoImplicit false

def Status.ofText (text : String) : Status :=
  if text = "success" then .success
  else if text = "skipped" then .skipped
  else if text = "reboot_required" then .rebootRequired
  else if text = "failed" then .failed
  else .other text

inductive HttpError where
  | stepNotFound
  | stepPhaseMismatch
  | engine (e : EngineError)
deriving DecidableEq, Repr

def HttpError.statusCode : HttpError → Nat
  | stepNotFound => 404
  | stepPhaseMismatch => 409
  | engine _ => 400

def HttpError.detail (str : Uuid → String) : HttpError → String
  | stepNotFound => "step not found"
  | stepPhaseMismatch => "step phase mismatch"
  | engine e => e.text str

structure AgentNextBody where
  agentId : String
  phase : String
  batchSize : Int := 1
  capabilities : List String := []
deriving DecidableEq, Repr

structure StepResultBody where
  agentId : String
  phase : String
  status : String
  message : Option String := none
  data : Json := .obj []

structure RebootingBody where
  agentId : String
  phase : String
  stepId : Uuid
  message : Option String := none
deriving DecidableEq, Repr

/-- `register_agent`: an awaited reboot of the cursor step counts as done. -/
def registerAgent (db : RunDb) (agentId : String) (now : Time) : RunDb :=
  match db.run.cursorStepId with
  | none => db
  | some cursor =>
    match db.steps.get? cursor with
    | none => db
    | some step =>
      if step.state = .awaitingReboot then committed db (markRebootComplete db cursor agentId now)
      else db

def powerShellOsdClientFullOsKinds : List String :=
  ["capture_autopilot_hash", "fix_recovery_partition", "handoff_to_oobe", "install_autopilot_agent",
    "install_package", "install_qga", "install_qga_watchdog", "join_domain_role", "verify_qga",
    "verify_ad_domain_join", "wait_agent_heartbeat"]

/-- `_supported_kinds_for_next`; the empty list stands for `None`. -/
def supportedKindsForNext (body : AgentNextBody) : List String :=
  let explicit := normalizeKinds body.capabilities
  if !explicit.isEmpty then explicit
  else if body.phase = "full_os" && "osd-fullos-".toList.isPrefixOf body.agentId.toList then
    powerShellOsdClientFullOsKinds
  else []

/-- `max(1, min(int(body.batch_size or 1), 10))`. -/
def AgentNextBody.batch (body : AgentNextBody) : Nat :=
  (max 1 (min (if body.batchSize = 0 then 1 else body.batchSize) 10)).toNat

def AgentNextBody.request (body : AgentNextBody) (allowRunning : Bool) : ClaimRequest where
  phase := body.phase
  agentId := body.agentId
  supportedKinds := supportedKindsForNext body
  allowRunning := allowRunning

def claimBatch (body : AgentNextBody) (now : Time) :
    Nat → RunDb → List PlanStep → RunDb × List PlanStep
  | 0, db, actions => (db, actions)
  | n + 1, db, actions =>
    match claimNextStep db (body.request !actions.isEmpty) now with
    | (db', none) => (db', actions)
    | (db', some step) => claimBatch body now n db' (actions ++ [step])

/-- `next_action`; the answer holds the claimed rows, from which the actions are read. -/
def nextAction (db : RunDb) (body : AgentNextBody) (now : Time) : RunDb × List PlanStep :=
  claimBatch body now body.batch db []

def postStepResult (db : RunDb) (stepId : Uuid) (body : StepResultBody) (now : Time) :
    Except HttpError RunDb :=
  match db.steps.get? stepId with
  | none => .error .stepNotFound
  | some step =>
    if !step.inPhase body.phase then .error .stepPhaseMismatch
    else (completeStep db stepId body.agentId (.ofText body.status) body.message body.data now).mapError
      .engine

def postRebooting (db : RunDb) (body : RebootingBody) (now : Time) : Except HttpError RunDb :=
  (completeStep db body.stepId body.agentId .rebootRequired
    (some (orText body.message "agent is rebooting")) (.obj []) now).mapError .engine

inductive AgentCall where
  | register (agentId : String)
  | next (body : AgentNextBody)
  | result (stepId : Uuid) (body : StepResultBody)
  | rebooting (body : RebootingBody)

/-- A refused request changes nothing. -/
def answered (db : RunDb) (result : Except HttpError RunDb) : RunDb :=
  match result with
  | .ok db' => db'
  | .error _ => db

def serve (db : RunDb) (a : AgentCall) (now : Time) : RunDb :=
  match a with
  | .register agentId => registerAgent db agentId now
  | .next body => (nextAction db body now).1
  | .result stepId body => answered db (postStepResult db stepId body now)
  | .rebooting body => answered db (postRebooting db body now)

/-- What reaches the engine from outside: agents, the operator, other controllers. -/
inductive SystemCall where
  | agent (a : AgentCall)
  | requeue (stepId : Uuid) (requestedBy : String) (message : Option String)
  | markDone (kinds : List String) (agentId : String) (message : Option String) (data : Json)

structure Request where
  call : SystemCall
  now : Time := 0

def handle (db : RunDb) (q : Request) : RunDb :=
  match q.call with
  | .agent a => serve db a q.now
  | .requeue stepId requestedBy message => exec db ⟨.requeue stepId requestedBy message, q.now⟩
  | .markDone kinds agentId message data => exec db ⟨.markDone kinds agentId message data, q.now⟩

theorem answered_mapError (db : RunDb) (result : Except EngineError RunDb) :
    answered db (result.mapError .engine) = committed db result := by
  cases result <;> rfl

/-- A registration does nothing, or it ends the awaited reboot of the cursor step. -/
theorem serve_register (db : RunDb) (agentId : String) (now : Time) :
    ((∀ r ∈ db.steps.rows, r.state = .awaitingReboot → db.run.cursorStepId ≠ some r.id) ∧
      serve db (.register agentId) now = db) ∨
    ∃ r ∈ db.steps.rows, r.state = .awaitingReboot ∧ db.run.cursorStepId = some r.id ∧
      serve db (.register agentId) now = db.rebootRow r agentId now := by
  simp only [serve, registerAgent]
  split
  · rename_i hcursor
    exact .inl ⟨fun r _ _ h => by simp [hcursor] at h, rfl⟩
  · rename_i cursor hcursor
    split
    · rename_i hget
      refine .inl ⟨fun r hr _ h => ?_, rfl⟩
      rw [hcursor, Option.some.injEq] at h
      simp [h, PlanTable.get?_of_mem hr] at hget
    · rename_i r hget
      obtain ⟨hr, rfl⟩ := PlanTable.get?_eq_some.mp hget
      split
      · rename_i hstate
        refine .inr ⟨r, hr, hstate, hcursor, ?_⟩
        simp [markRebootComplete, hget, hstate, committed]
      · rename_i hstate
        refine .inl ⟨fun q hq hawait h => ?_, rfl⟩
        rw [hcursor, Option.some.injEq] at h
        rw [db.steps.eq_of_id hq hr h.symm] at hawait
        exact hstate hawait

def resultCall (stepId : Uuid) (body : StepResultBody) (now : Time) : Call where
  op := .complete stepId body.agentId (.ofText body.status) body.message body.data
  now := now

def rebootingCall (body : RebootingBody) (now : Time) : Call where
  op := .complete body.stepId body.agentId .rebootRequired
    (some (orText body.message "agent is rebooting")) (.obj [])
  now := now

def nextCall (body : AgentNextBody) (allowRunning : Bool) (now : Time) : Call where
  op := .claim (body.request allowRunning)
  now := now

theorem serve_result (db : RunDb) (stepId : Uuid) (body : StepResultBody) (now : Time) :
    ((∀ r ∈ db.steps.rows, r.id = stepId → r.inPhase body.phase = false) ∧
      serve db (.result stepId body) now = db) ∨
    (∃ r ∈ db.steps.rows, r.id = stepId ∧ r.inPhase body.phase = true) ∧
      serve db (.result stepId body) now = exec db (resultCall stepId body now) := by
  simp only [serve, postStepResult]
  split
  · rename_i hget
    refine .inl ⟨fun r hr hid => ?_, rfl⟩
    simp [← hid, PlanTable.get?_of_mem hr] at hget
  · rename_i r hget
    obtain ⟨hr, rfl⟩ := PlanTable.get?_eq_some.mp hget
    split
    · rename_i hphase
      refine .inl ⟨fun q hq hid => ?_, rfl⟩
      rw [db.steps.eq_of_id hq hr hid]
      simpa using hphase
    · rename_i hphase
      refine .inr ⟨⟨r, hr, rfl, by simpa using hphase⟩, ?_⟩
      rw [answered_mapError]
      rfl

theorem serve_rebooting (db : RunDb) (body : RebootingBody) (now : Time) :
    serve db (.rebooting body) now = exec db (rebootingCall body now) := by
  simp only [serve, postRebooting, answered_mapError]
  rfl

theorem claimBatch_calls (body : AgentNextBody) (now : Time) (n : Nat) :
    ∀ db actions, ∃ flags : List Bool, (claimBatch body now n db actions).1 =
      (flags.map fun allowRunning => nextCall body allowRunning now).foldl exec db := by
  induction n with
  | zero => exact fun db actions => ⟨[], rfl⟩
  | succ n ih =>
    intro db actions
    have hexec : exec db (nextCall body (!actions.isEmpty) now) =
        (claimNextStep db (body.request !actions.isEmpty) now).1 := rfl
    simp only [claimBatch]
    split
    · rename_i db' hclaim
      rw [hclaim] at hexec
      exact ⟨[!actions.isEmpty], hexec.symm⟩
    · rename_i db' step hclaim
      rw [hclaim] at hexec
      obtain ⟨flags, hflags⟩ := ih db' (actions ++ [step])
      refine ⟨(!actions.isEmpty) :: flags, ?_⟩
      rw [List.map_cons, List.foldl_cons, hexec, hflags]

theorem serve_next (db : RunDb) (body : AgentNextBody) (now : Time) :
    ∃ flags : List Bool, serve db (.next body) now =
      (flags.map fun allowRunning => nextCall body allowRunning now).foldl exec db :=
  claimBatch_calls body now body.batch db []

end ProxmoxVEAutopilot.TsEngine
