import ProxmoxVEAutopilot.Foundation.Text
import ProxmoxVEAutopilot.TsEngine.Create
import ProxmoxVEAutopilot.TsEngine.Engine

/-!
# OSDeploy runs

A deployment is what four tables store about one run: `osdeploy_runs`,
`osdeploy_readiness`, `osdeploy_run_events` and the rows of the engine. `create_run`
inserts the readiness row, so that every later `INSERT … ON CONFLICT` updates it.
-/

namespace ProxmoxVEAutopilot.OsDeploy

open Foundation TsEngine
set_option autoImplicit false

/-- The texts in the `state` columns of runs, readiness rows and bundles. -/
inductive DeployState where
  | created
  | awaitingPe
  | peRegistered
  | waitingForHeartbeat
  | running
  | rolePending
  | complete
  | failed
  | canceled
deriving DecidableEq, Repr

section Roles

def roleStepKinds (serverRole : String) : List String :=
  if serverRole = "file_server" then ["configure_file_server_role"]
  else if serverRole = "isolated_domain_controller" then
    ["configure_isolated_domain_controller_role", "verify_isolated_domain_controller_role"]
  else if serverRole = "mecm_prereq" then ["configure_mecm_prereq_role"]
  else []

def domainJoinStepKinds : List String := ["join_domain_role", "verify_ad_domain_join"]

def fullOsRoleActionKinds : List String :=
  domainJoinStepKinds ++ roleStepKinds "file_server" ++ roleStepKinds "isolated_domain_controller" ++
    roleStepKinds "mecm_prereq"

def finalRoleStepKind (serverRole : String) : Option String := (roleStepKinds serverRole).getLast?

def roleReadinessStatus (serverRole : String) : String :=
  if serverRole = "lab_in_a_box" then "bundle_ready" else serverRole ++ "_ready"

def domainJoin (roleOptions : Json) : Json := (roleOptions.get? "domain_join").getD (.obj [])

def domainJoinEnabled (roleOptions : Json) : Bool := ((domainJoin roleOptions).get? "enabled").any Json.truthy

def generatedStepKinds (serverRole : String) (roleOptions : Json) : List String :=
  (if domainJoinEnabled roleOptions then domainJoinStepKinds else []) ++ roleStepKinds serverRole

def peEventStepKinds (eventType : String) : List String :=
  if eventType = "pe_registered" then ["osdeploy_preflight"]
  else if eventType = "osdeploy_image_applied" then ["apply_wim"]
  else if eventType = "osdeploy_drivers_applied" then ["apply_driver_package"]
  else if eventType = "osdeploy_setupcomplete_staged" then
    ["prepare_windows_setup", "stage_osd_client", "stage_autopilot_agent"]
  else if eventType = "osdeploy_boot_files_staged" then ["bake_boot_entry"]
  else []

end Roles

/-- An entry of `errors_json`; the constructor is its `source`. -/
inductive ReadinessError where
  | builder (jobId : String) (exitCode : Option Int) (message : String) (vmid : Option Int)
      (logTail : Option String)
  | serverRole (agentId stepKind message : String) (data : Option Json)
deriving DecidableEq

structure OsdeployRun where
  runId : Nat
  serverRole : String
  state : DeployState := .created
  vmid : Option Int := none
  vmUuid : Option String := none
  mac : Option String := none
  node : Option String := none
  pveVmName : Option String := none
  peRegisteredAt : Option Time := none
  osdeployStartedAt : Option Time := none
  osdeployFinishedAt : Option Time := none
  firstHeartbeatAt : Option Time := none
  updatedAt : Time := 0

structure Readiness where
  state : DeployState := .waitingForHeartbeat
  qgaStatus : Option String := some "pending"
  agentStatus : Option String := some "pending"
  heartbeatAt : Option Time := none
  serverRoleStatus : Option String := some "pending"
  errors : List ReadinessError := []
  updatedAt : Time := 0

structure RunEvent where
  phase : String
  eventType : String
  severity : String := "info"
  message : Option String := none
  data : Json := .obj []
  createdAt : Time

structure Deployment where
  run : OsdeployRun
  readiness : Readiness := {}
  events : List RunEvent := []
  ts : RunDb

/-- The fields of an agent's heartbeat that are read here. -/
structure Heartbeat where
  computerName : Option String := none
  osName : Option String := none
  qgaState : Option String := none
  currentPhase : Option String := none

def textJson (s : Option String) : Json := s.elim .null .str

def intJson (n : Option Int) : Json := n.elim .null .int

/-- `{**base, **(data or {})}`. -/
def mergeFields (base : List (String × Json)) : Json → Json
  | .obj fields => .obj (base.map (fun p => (p.1, (fields.lookup p.1).getD p.2)) ++
      fields.filter fun p => !(base.map Prod.fst).contains p.1)
  | _ => .obj base

def normalizeUuid (value : Option String) : Option String := (given value).map fun s => lower (strip s)

def normalizeMac (value : Option String) : Option String :=
  (given value).map fun s => (lower (strip s)).replace "-" ":"

section Events
variable (d : Deployment)

def markStepsDoneFromEvent (phase eventType : String) (data : Json) (now : Time) : Deployment :=
  if phase ≠ "pe" then d
  else { d with ts := (markStepsDoneByKind d.ts (peEventStepKinds eventType) "osdeploy-pe"
          (some ("OSDeploy PE event completed " ++ eventType))
          (mergeFields [("event_type", .str eventType)] data) now).1 }

def markPePhaseProgressFromEvent (phase eventType : String) (now : Time) : Deployment :=
  if phase ≠ "pe" ∨ eventType = "pe_registered" then d
  else { d with run := { d.run with
          osdeployStartedAt := (d.run.osdeployStartedAt.or d.run.peRegisteredAt).or (some now)
          osdeployFinishedAt :=
            if eventType = "osdeploy_boot_files_staged" then d.run.osdeployFinishedAt.or (some now)
            else d.run.osdeployFinishedAt
          updatedAt := now } }

def insertEvent (e : RunEvent) : Deployment := { d with events := d.events ++ [e] }

def appendEvent (phase eventType severity : String) (message : Option String) (data : Json) (now : Time) :
    Deployment :=
  markPePhaseProgressFromEvent
    (markStepsDoneFromEvent
      (insertEvent d ⟨phase, eventType, severity, message, orEmpty data, now⟩)
      phase eventType data now)
    phase eventType now

end Events

section Calls
variable (d : Deployment)

def setRunIdentity (vmid : Option Int) (vmUuid mac node computerName : Option String) (now : Time) : Deployment :=
  let run := { d.run with
    vmid := vmid.or d.run.vmid
    vmUuid := orElse (normalizeUuid vmUuid) d.run.vmUuid
    mac := orElse (normalizeMac mac) d.run.mac
    node := orElse node d.run.node
    pveVmName := orElse computerName d.run.pveVmName
    state := if d.run.state = .created then .awaitingPe else d.run.state
    updatedAt := now }
  let tsRun := { d.ts.run with
    vmid := (vmid.map Json.int).or d.ts.run.vmid
    vmUuid := ((given (normalizeUuid vmUuid)).map Json.str).or d.ts.run.vmUuid
    state := if d.ts.run.state = .external "osdeploy_created" then .external "osdeploy_awaiting_pe"
      else d.ts.run.state }
  appendEvent { d with run := run, ts := { d.ts with run := tsRun } } "controller" "identity_recorded" "info"
    (some "OSDeploy VM identity recorded")
    (.obj [("vmid", intJson vmid), ("vm_uuid", textJson vmUuid), ("mac", textJson mac), ("node", textJson node)])
    now

def markPeRegistered (metadata : Json) (now : Time) : Deployment :=
  let run := { d.run with
    state := .peRegistered
    peRegisteredAt := d.run.peRegisteredAt.or (some now)
    updatedAt := now }
  let tsRun := { d.ts.run with state := .external "osdeploy_pe_registered", phase := some "pe" }
  appendEvent { d with run := run, ts := { d.ts with run := tsRun } } "pe" "pe_registered" "info"
    (some "OSDeploy PE client registered") metadata now

def roleIsReady : Bool := d.run.serverRole == "base"

/-- The kinds a heartbeat proves: all for a base server, else all but the role's actions. -/
def heartbeatKinds : List String :=
  ((d.ts.steps.rows.filter fun r =>
    r.state != .skipped && (roleIsReady d || !fullOsRoleActionKinds.contains r.plan.kind)).map
      fun r => r.plan.kind).dedup

/-- `kind = %s` is not true of any row when the role has no steps. -/
def finalRoleStepDone (steps : PlanTable) : Bool :=
  (finalRoleStepKind d.run.serverRole).any fun kind =>
    steps.rows.any fun r => r.plan.kind == kind && r.state == .done

def roleAlreadyReady (steps : PlanTable) : Bool :=
  !roleIsReady d &&
    (d.run.state == .complete || d.readiness.state == .complete ||
      d.readiness.serverRoleStatus == some (roleReadinessStatus d.run.serverRole) ||
      finalRoleStepDone d steps)

def unlessFailed (run : RunRow) (update : RunRow → RunRow) : RunRow :=
  if run.state = .failed then run else update run

def markCompleteFromHeartbeat (agentId : String) (heartbeat : Heartbeat) (now : Time) : Deployment :=
  let ts := (markStepsDoneByKind d.ts (heartbeatKinds d) agentId
    (some "OSDeploy Server base completed from agent heartbeat")
    (.obj [("computer_name", textJson heartbeat.computerName), ("os_name", textJson heartbeat.osName),
      ("qga_state", textJson heartbeat.qgaState), ("current_phase", textJson heartbeat.currentPhase)]) now).1
  let already := roleAlreadyReady d ts.steps
  let ready := roleIsReady d || already
  let next : DeployState := if ready then .complete else .rolePending
  let run := { d.run with
    state := next
    firstHeartbeatAt := d.run.firstHeartbeatAt.or (some now)
    updatedAt := now }
  let readiness : Readiness := {
    state := next
    qgaStatus := some ((given heartbeat.qgaState).getD "unknown")
    agentStatus := some "online"
    heartbeatAt := some now
    serverRoleStatus :=
      some (if already then roleReadinessStatus d.run.serverRole
        else if roleIsReady d then "base_ready" else "pending")
    errors := []
    updatedAt := now }
  let tsRun := unlessFailed ts.run fun r =>
    if ready then
      { r with state := .done, phase := some "full_os", finishedAt := r.finishedAt.or (some now) }
    else { r with state := .external "role_pending", phase := some "full_os" }
  appendEvent { d with run := run, readiness := readiness, ts := { ts with run := tsRun } }
    "full_os" "agent_heartbeat" "info" (some "OSDeploy Server base heartbeat observed")
    (.obj [("agent_id", .str agentId), ("computer_name", textJson heartbeat.computerName),
      ("os_name", textJson heartbeat.osName), ("qga_state", textJson heartbeat.qgaState)]) now

/-- The entry recorded for a role step that failed. -/
def roleError (stepKind agentId : String) (message : Option String) (data : Json) : ReadinessError :=
  .serverRole agentId stepKind ((given message).getD ("OSDeploy role step failed: " ++ stepKind))
    (if data.truthy then some data else none)

def markRoleStepResult (stepKind agentId status : String) (message : Option String) (data : Json)
    (now : Time) : Deployment :=
  let eventData := mergeFields [("agent_id", .str agentId), ("step_kind", .str stepKind)] data
  if roleIsReady d then d
  else if status = "success" then
    if some stepKind ≠ finalRoleStepKind d.run.serverRole then
      appendEvent d "full_os" "server_role_step_complete" "info"
        (some ((given message).getD ("OSDeploy role step completed: " ++ stepKind))) eventData now
    else
      let run := { d.run with state := .complete, updatedAt := now }
      let readiness := { d.readiness with
        state := .complete
        qgaStatus := d.readiness.qgaStatus.or (some "running")
        agentStatus := some "online"
        serverRoleStatus := some (roleReadinessStatus d.run.serverRole)
        errors := []
        updatedAt := now }
      let tsRun := unlessFailed d.ts.run fun r =>
        { r with state := .done, phase := some "full_os", finishedAt := r.finishedAt.or (some now), lastError := none }
      appendEvent { d with run := run, readiness := readiness, ts := { d.ts with run := tsRun } }
        "full_os" "server_role_ready" "info"
        (some ((given message).getD ("OSDeploy server role ready: " ++ d.run.serverRole))) eventData now
  else
    let error := (given message).getD ("OSDeploy role step failed: " ++ stepKind)
    let run := { d.run with state := .failed, updatedAt := now }
    let readiness := { d.readiness with
      state := .failed
      agentStatus := some "online"
      serverRoleStatus := some "failed"
      errors := [roleError stepKind agentId message data]
      updatedAt := now }
    let tsRun := { d.ts.run with
      state := .failed, phase := some "full_os", finishedAt := d.ts.run.finishedAt.or (some now)
      lastError := some error }
    appendEvent { d with run := run, readiness := readiness, ts := { d.ts with run := tsRun } }
      "full_os" "server_role_failed" "error" (some error) eventData now

structure JobFailure where
  jobId : String
  exitCode : Option Int := none
  message : Option String := none
  vmid : Option Int := none
  phase : String := "provision"
  logTail : Option String := none

def JobFailure.error (f : JobFailure) : String :=
  (given (some (strip (f.message.getD "")))).getD ("OSDeploy provision job " ++ f.jobId ++ " failed")

def JobFailure.entry (f : JobFailure) : ReadinessError :=
  .builder f.jobId f.exitCode f.error f.vmid (given f.logTail)

def ReadinessError.ofJob (jobId : String) : ReadinessError → Bool
  | .builder id .. => id == jobId
  | .serverRole .. => false

/-- The first entry of the job is replaced, else the new one appended. -/
def putError (entry : ReadinessError) (jobId : String) : List ReadinessError → List ReadinessError
  | [] => [entry]
  | e :: rest => if e.ofJob jobId then entry :: rest else e :: putError entry jobId rest

/-- `value #>> '{}'`, but for fractions and structures, whose texts name no job. -/
def columnText : Json → Option String
  | .str s => some s
  | .int n => some (toString n)
  | .bool b => some (if b then "true" else "false")
  | _ => none

def RunEvent.names (e : RunEvent) (jobId : String) : Bool :=
  e.eventType == "provision_job_failed" && (e.data.get? "job_id").bind columnText == some jobId

def failureRecorded (jobId : String) : Bool := d.events.any fun e => e.names jobId

/-- `mark_failed_from_job`; `phase` is the engine's as well as the event's. -/
def markFailedFromJob (f : JobFailure) (now : Time) : Deployment :=
  if d.run.state = .complete ∨ d.run.state = .canceled then d
  else if d.run.state = .failed ∧ failureRecorded d f.jobId then d
  else
    let run := { d.run with state := .failed, vmid := f.vmid.or d.run.vmid, updatedAt := now }
    let tsRun :=
      if d.ts.run.state = .done then d.ts.run
      else { d.ts.run with
        state := .failed, phase := some f.phase, vmid := (f.vmid.map Json.int).or d.ts.run.vmid
        finishedAt := d.ts.run.finishedAt.or (some now), lastError := some f.error }
    let readiness := { d.readiness with
      state := .failed
      qgaStatus := some "failed"
      agentStatus := some "failed"
      serverRoleStatus := some "failed"
      errors := putError f.entry f.jobId d.readiness.errors
      updatedAt := now }
    let failed := { d with run := run, readiness := readiness, ts := { d.ts with run := tsRun } }
    if failureRecorded d f.jobId then failed
    else appendEvent failed f.phase "provision_job_failed" "error" (some f.error)
      (.obj ([("job_id", .str f.jobId), ("exit_code", intJson f.exitCode), ("vmid", intJson f.vmid)] ++
        ((given f.logTail).map fun tail => ("log_tail", Json.str tail)).toList)) now

end Calls

end ProxmoxVEAutopilot.OsDeploy
