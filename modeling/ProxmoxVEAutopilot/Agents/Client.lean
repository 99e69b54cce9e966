import ProxmoxVEAutopilot.TsEngine.Endpoints

/-!
# The loops of the three agents

`Invoke-OsdV2Client`, the `main` of the Linux agent and
`OsdV2WorkService.ProcessOnceAsync` as one client with a place in its loop and at most
one call on the wire. What an action does on the machine is an input.
-/

namespace ProxmoxVEAutopilot.Agents

open Foundation TsEngine
set_option autoImplicit false

inductive ClientKind where
  | osdClient
  | linuxAgent
  | workService
deriving DecidableEq, Repr

structure ClientConfig where
  kind : ClientKind
  agentId : String
  phase : Option String := none
  fallbackUrl : Bool := false
  once : Bool := false
deriving DecidableEq, Repr

namespace ClientConfig
variable (cfg : ClientConfig)

/-- `Get-OsdPhase`, `config.get("phase", "verify")` and `FullOsPhase`. -/
def ownPhase : String :=
  match cfg.kind with
  | .osdClient => orText cfg.phase "full_os"
  | .linuxAgent => cfg.phase.getD "verify"
  | .workService => "full_os"

def supportedKinds : List String :=
  ["capture_autopilot_hash", "verify_ad_domain_join", "wait_agent_heartbeat", "join_domain_role",
    "configure_file_server_role", "configure_isolated_domain_controller_role",
    "verify_isolated_domain_controller_role", "configure_mecm_prereq_role"]

/-- The `capabilities` of `next`. The OSD client names the kinds the server knows it by,
the Linux agent sends none. -/
def capabilities : List String :=
  match cfg.kind with
  | .osdClient => powerShellOsdClientFullOsKinds
  | .linuxAgent => []
  | .workService => supportedKinds

/-- `Invoke-OsdRequest` makes eight attempts for each base; the others make one. -/
def attempts : Nat :=
  match cfg.kind with
  | .osdClient => if cfg.fallbackUrl then 16 else 8
  | .linuxAgent => 1
  | .workService => 1

end ClientConfig

structure Turn where
  later : List String := []
  claimedAny : Bool := false
deriving DecidableEq, Repr

/-- A result about to be posted; `guarded` while a `catch` around the call would post
a failure in its place. -/
structure Report where
  status : String
  message : Option String := none
  data : Json := .obj []
  guarded : Bool

inductive Activity where
  | stopped
  | sleeping
  | registering
  | asking (phase : String) (turn : Turn)
  | closing (phase : String) (final : Bool) (turn : Turn)
  | logging (a : PlanStep) (turn : Turn)
  | working (a : PlanStep) (turn : Turn)
  | reporting (a : PlanStep) (report : Report) (turn : Turn)
  | rebooting (a : PlanStep) (turn : Turn)

/-- The calls of a client. Logs go to a table of their own and `phase-complete` only reads. -/
inductive ClientCall where
  | register (agentId : String)
  | next (body : AgentNextBody)
  | result (stepId : Uuid) (body : StepResultBody)
  | stepLog (stepId : Uuid)
  | phaseComplete (phase : String)

/-- The call of a client from its sending to its return. `batch_size` is 1 in all three
loops, so an answer holds one action or none; `error` is a call that raised. -/
inductive Wire where
  | idle
  | request
  | answer (action : Option PlanStep)
  | error

def respond (db : RunDb) (call : ClientCall) (now : Time) : RunDb × Wire :=
  match call with
  | .register agentId => (registerAgent db agentId now, .answer none)
  | .next body => ((nextAction db body now).1, .answer (nextAction db body now).2.head?)
  | .result stepId body =>
    match postStepResult db stepId body now with
    | .ok db' => (db', .answer none)
    | .error _ => (db, .error)
  | .stepLog stepId => (db, if (db.steps.get? stepId).isSome then .answer none else .error)
  | .phaseComplete _ => (db, .answer none)

def blank (text : String) : Bool := text.toList.all Char.isWhitespace

def ClientConfig.reportPhase (cfg : ClientConfig) (a : PlanStep) : String :=
  match cfg.kind with
  | .osdClient => if blank a.plan.phase then cfg.ownPhase else a.plan.phase
  | .linuxAgent => if a.plan.phase = "" then cfg.ownPhase else a.plan.phase
  | .workService => "full_os"

def Activity.call (cfg : ClientConfig) : Activity → Option ClientCall
  | .registering => some (.register cfg.agentId)
  | .asking phase _ => some (.next
      { agentId := cfg.agentId, phase := phase, batchSize := 1, capabilities := cfg.capabilities })
  | .closing phase _ _ => some (.phaseComplete phase)
  | .logging a _ => some (.stepLog a.id)
  | .reporting a report _ => some (.result a.id
      { agentId := cfg.agentId, phase := cfg.reportPhase a, status := report.status
        message := report.message, data := report.data })
  | _ => none

structure Fault where
  text : String
  exceptionType : String
deriving DecidableEq, Repr

inductive WorkResult where
  | ok (data : Json)
  | unsatisfied (data : Json)
  | raised (fault : Fault)

def ClientConfig.caught (cfg : ClientConfig) (fault : Fault) : Report where
  status := "failed"
  message := if cfg.kind = .osdClient && blank fault.text then none else some fault.text
  data := if cfg.kind = .workService then .obj [("exception_type", .str fault.exceptionType)] else .obj []
  guarded := false

def hasCommand (a : PlanStep) : Bool :=
  ((orEmpty a.plan.resolvedParamsJson).get? "command").any Json.truthy

/-- `_execute_action`: status and message of a kind; no exception leaves the action. -/
def linuxReport (a : PlanStep) : WorkResult → Option Report
  | .ok data =>
    let message :=
      if a.plan.kind == "run_firstboot_script" && hasCommand a then "first-boot script complete"
      else a.plan.kind ++ " complete"
    some ⟨"success", some message, data, false⟩
  | .unsatisfied data =>
    let failed (message : String) : Option Report := some ⟨"failed", some message, data, false⟩
    match a.plan.kind with
    | "verify_qga_linux" => failed "qemu-guest-agent is not active"
    | "verify_intune_portal" => failed "intune-portal is not installed"
    | "verify_mde_linux" => failed "mdatp is not healthy"
    | "wait_cloud_init_complete" => failed "cloud-init did not complete successfully"
    | "run_firstboot_script" => if hasCommand a then failed "first-boot script failed" else none
    | _ => none
  | .raised _ => none

def roleKinds : List String :=
  ["configure_file_server_role", "join_domain_role", "configure_isolated_domain_controller_role",
    "verify_isolated_domain_controller_role", "configure_mecm_prereq_role"]

/-- The `switch` of `ProcessActionAsync`; all of it stands inside one `try`. -/
def serviceReport (cfg : ClientConfig) (a : PlanStep) : WorkResult → Option Report
  | .ok data =>
    if a.plan.kind = "capture_autopilot_hash" then
      some ⟨"success", some "Autopilot hardware hash uploaded through AutopilotAgent v2", data, true⟩
    else if a.plan.kind = "wait_agent_heartbeat" then
      some ⟨"success", some "AutopilotAgent heartbeat confirmed from full OS", data, true⟩
    else if a.plan.kind = "verify_ad_domain_join" then
      some ⟨"success", some "AD domain membership verified by AutopilotAgent v2", data, true⟩
    else if a.plan.kind ∈ roleKinds then
      some ⟨"success", some ("OSDeploy role step completed: " ++ a.plan.kind), data, true⟩
    else
      some ⟨"failed", some ("Unsupported OSD v2 step kind: " ++ a.plan.kind), .obj [], true⟩
  | .unsatisfied data =>
    if a.plan.kind = "verify_ad_domain_join" then
      some ⟨"failed", some "AD domain membership is not present in full-OS telemetry yet", data, true⟩
    else none
  | .raised fault =>
    if a.plan.kind = "capture_autopilot_hash" ∨ a.plan.kind ∈ roleKinds then some (cfg.caught fault)
    else none

/-- The report an action ends in; `none` where the code has no such end. -/
def ClientConfig.workReport (cfg : ClientConfig) (a : PlanStep) (r : WorkResult) : Option Report :=
  match cfg.kind with
  | .osdClient =>
    match r with
    | .ok _ => some { status := "success", message := some "ok", guarded := true }
    | .unsatisfied _ => none
    | .raised fault => some (cfg.caught fault)
  | .linuxAgent => linuxReport a r
  | .workService => serviceReport cfg a r

def linuxTurn : Activity := .asking "full_os" { later := ["verify"] }

def ClientConfig.nextPhase (cfg : ClientConfig) (turn : Turn) : Activity :=
  match turn.later with
  | phase :: later => .asking phase { turn with later := later }
  | [] => if turn.claimedAny then linuxTurn else .closing cfg.ownPhase true turn

def ClientConfig.afterRegister (cfg : ClientConfig) : Activity :=
  match cfg.kind with
  | .linuxAgent => linuxTurn
  | _ => .asking cfg.ownPhase {}

def ClientConfig.afterNext (cfg : ClientConfig) (phase : String) (turn : Turn) :
    Option PlanStep → Activity
  | some a =>
    match cfg.kind with
    | .osdClient => .working a turn
    | _ => .logging a { turn with claimedAny := true }
  | none =>
    match cfg.kind with
    | .osdClient => .closing cfg.ownPhase true turn
    | .linuxAgent => .closing phase false turn
    | .workService => .sleeping

def ClientConfig.afterClosing (cfg : ClientConfig) (final : Bool) (turn : Turn) : Activity :=
  match cfg.kind with
  | .linuxAgent =>
    if !final then cfg.nextPhase turn
    else if cfg.once then .stopped
    else .sleeping
  | _ => .stopped

/-- The OSD client leaves with exit code 3010 after a required reboot and throws after a
failure; the service asks for the restart itself, for role steps. -/
def ClientConfig.afterReport (cfg : ClientConfig) (a : PlanStep) (report : Report) (turn : Turn) :
    Activity :=
  match cfg.kind with
  | .osdClient =>
    if report.status = "success" ∧ a.plan.rebootBehavior ≠ .required then .asking cfg.ownPhase {}
    else .stopped
  | .linuxAgent => cfg.nextPhase turn
  | .workService =>
    if report.status = "success" ∧ a.plan.kind ∈ roleKinds ∧ a.plan.rebootBehavior = .required then
      .rebooting a turn
    else .sleeping

def ClientConfig.onAnswer (cfg : ClientConfig) (x : Activity) (action : Option PlanStep) : Activity :=
  match x with
  | .registering => cfg.afterRegister
  | .asking phase turn => cfg.afterNext phase turn action
  | .closing _ final turn => cfg.afterClosing final turn
  | .logging a turn => .working a turn
  | .reporting a report turn => cfg.afterReport a report turn
  | x => x

/-- Where an exception nobody catches leaves the client: `Worker` goes on with its loop,
the other two processes end. -/
def ClientConfig.uncaught (cfg : ClientConfig) : Activity :=
  match cfg.kind with
  | .workService => .sleeping
  | _ => .stopped

def ClientConfig.onError (cfg : ClientConfig) (x : Activity) (fault : Fault) : Activity :=
  match x with
  | .reporting a report turn =>
    if report.guarded then .reporting a (cfg.caught fault) turn else cfg.uncaught
  | _ => cfg.uncaught

def ClientConfig.onFinish (cfg : ClientConfig) (x : Activity) (r : WorkResult) : Option Activity :=
  match x with
  | .working a turn => (cfg.workReport a r).map fun report => .reporting a report turn
  | .rebooting a turn =>
    match r with
    | .raised fault => some (.reporting a (cfg.caught fault) turn)
    | _ => some .sleeping
  | _ => none

def ClientConfig.onWake (cfg : ClientConfig) : Activity :=
  match cfg.kind with
  | .linuxAgent => linuxTurn
  | _ => .registering

/-- A client; the flags remember a register and a next call that returned since the last
crash or lost answer. -/
structure Client where
  activity : Activity := .stopped
  wire : Wire := .idle
  attempt : Nat := 0
  registered : Bool := false
  asked : Bool := false

/-- Goes on with an activity; its call, if it makes one, is sent at once. -/
def Client.enter (cfg : ClientConfig) (c : Client) (x : Activity) : Client :=
  { c with
    activity := x
    wire := if (x.call cfg).isSome then .request else .idle
    attempt := 1 }

inductive ClientEvent where
  | start
  | wake
  | serve
  | receive
  | timeout
  | loseAnswer
  | raise (fault : Fault)
  | finish (r : WorkResult)
  | crash

def Client.noted (c : Client) : Client :=
  match c.activity with
  | .registering => { c with registered := true }
  | .asking _ _ => { c with asked := true }
  | _ => c

/-- The step of a client that needs no server; an event that does not fit does nothing. -/
def Client.react (cfg : ClientConfig) (c : Client) (e : ClientEvent) : Client :=
  match e with
  | .start =>
    match c.activity with
    | .stopped => c.enter cfg .registering
    | _ => c
  | .wake =>
    match c.activity with
    | .sleeping => c.enter cfg cfg.onWake
    | _ => c
  | .serve => c
  | .receive =>
    match c.wire with
    | .answer action => c.noted.enter cfg (cfg.onAnswer c.activity action)
    | _ => c
  | .timeout =>
    match c.wire with
    | .request => { c with wire := .error }
    | _ => c
  | .loseAnswer =>
    match c.wire with
    | .answer _ => { c with wire := .error, registered := false, asked := false }
    | _ => c
  | .raise fault =>
    match c.wire with
    | .error =>
      if c.attempt < cfg.attempts then { c with wire := .request, attempt := c.attempt + 1 }
      else c.enter cfg (cfg.onError c.activity fault)
    | _ => c
  | .finish r =>
    match cfg.onFinish c.activity r with
    | some x => c.enter cfg x
    | none => c
  | .crash => {}

def Client.sent (cfg : ClientConfig) (c : Client) : Option ClientCall :=
  match c.wire with
  | .request => c.activity.call cfg
  | _ => none

def Client.served (cfg : ClientConfig) (c : Client) (db : RunDb) (now : Time) : RunDb × Client :=
  match c.sent cfg with
  | some call => ((respond db call now).1, { c with wire := (respond db call now).2 })
  | none => (db, c)

end ProxmoxVEAutopilot.Agents
