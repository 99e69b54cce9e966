import ProxmoxVEAutopilot.Foundation.Programs
import ProxmoxVEAutopilot.Foundation.Text
import ProxmoxVEAutopilot.TsEngine.Endpoints

/-!
# CloudOSD runs

What `cloudosd_runs`, `cloudosd_run_events` and the engine store about one run, and the
actions the calls are made of: a reading that only decides what comes next, or the writes
of one committed transaction.
-/

namespace ProxmoxVEAutopilot.CloudOsd

open Foundation TsEngine
set_option autoImplicit false

/-- The texts of `cloudosd_runs.state`. -/
inductive CloudState where
  | created
  | awaitingPe
  | peRegistered
  | fullOsWaitingDomainJoin
  | fullOsWaitingV2
  | complete
  | failed
deriving DecidableEq, Repr

def CloudState.text : CloudState → String
  | created => "created"
  | awaitingPe => "awaiting_pe"
  | peRegistered => "pe_registered"
  | fullOsWaitingDomainJoin => "full_os_waiting_domain_join"
  | fullOsWaitingV2 => "full_os_waiting_v2"
  | complete => "complete"
  | failed => "failed"

/-- How Python folds the case of a text and prints an id; nothing depends on which texts
these are. -/
structure Texts where
  casefold : String → String
  str : Uuid → String

/-- The dict under `domain_join`; an absent entry has its default. -/
structure DomainJoin where
  enabled : Bool := false
  sourceSequenceId : Option Int := none
  credentialId : Option Int := none
  domainFqdn : String := ""
  credentialDomain : String := ""
  domainControllerIpv4 : String := ""
  ouPath : String := ""
  acceptableDomainNames : List String := []
  expectedComputerName : String := ""
deriving DecidableEq, Repr

structure CloudosdRun where
  runId : Nat
  state : CloudState := .created
  architecture : String
  /-- `build_sha` of the row of `cloudosd_artifacts`. -/
  buildSha : String
  vmName : String
  expectedComputerName : Option String
  domainJoin : DomainJoin
  pveVmName : Option String := none
  node : Option String := none
  vmid : Option Int := none
  vmUuid : Option String := none
  mac : Option String := none
  peRegisteredAt : Option Time := none
  osdcloudStartedAt : Option Time := none
  osdcloudFinishedAt : Option Time := none
  firstHeartbeatAt : Option Time := none
  archivedAt : Option Time := none
  archivedBy : Option String := none
  archiveReason : Option String := none
  updatedAt : Time

structure RunEvent where
  phase : String
  eventType : String
  severity : String := "info"
  message : Option String := none
  data : Json := .obj []
deriving DecidableEq

structure Deployment where
  run : CloudosdRun
  events : List (RunEvent × Time) := []
  ts : RunDb

/-- The columns of `agent_heartbeats` that are read here. -/
structure Heartbeat where
  domainName : Option String := none
  domainJoined : Option Bool := none
deriving DecidableEq, Repr

def textJson (s : Option String) : Json := s.elim .null .str

def normalizeUuid (value : String) : Option String := (given (some value)).map fun s => lower (strip s)

def normalizeMac (value : String) : Option String :=
  (given (some value)).map fun s => (lower (strip s)).replace "-" ":"

section DomainJoin
variable (py : Texts)

def uniqueText (values : List String) : List String :=
  values.foldl (fun out value =>
    let item := strip value
    if item = "" ∨ py.casefold item ∈ out.map py.casefold then out else out ++ [item]) []

def sanitizeDomainJoin (raw : DomainJoin) (expectedComputerName : Option String) : DomainJoin :=
  if !raw.enabled then {}
  else
    { raw with
      domainFqdn := strip raw.domainFqdn
      credentialDomain := strip raw.credentialDomain
      domainControllerIpv4 := strip raw.domainControllerIpv4
      ouPath := strip raw.ouPath
      acceptableDomainNames := uniqueText py
        (raw.acceptableDomainNames ++ [strip raw.domainFqdn, strip raw.credentialDomain])
      expectedComputerName := (given expectedComputerName).getD (strip raw.expectedComputerName) }

structure Verification where
  isMatched : Bool
  reason : String
  expectedDomainNames : List String
  observedDomainName : String
  domainJoined : Bool

def domainJoinVerification (domainJoin : DomainJoin) (heartbeat : Option Heartbeat) : Verification :=
  let config := sanitizeDomainJoin py domainJoin none
  let hb := heartbeat.getD {}
  let observed := strip (hb.domainName.getD "")
  let joined := hb.domainJoined.getD false
  let expected := uniqueText py config.acceptableDomainNames
  let accepted := decide (py.casefold observed ∈ expected.map py.casefold)
  let isMatched := config.enabled && joined && decide (py.casefold observed ≠ "") && accepted
  { isMatched := isMatched
    reason :=
      if !joined then "heartbeat_not_domain_joined"
      else if observed = "" then "heartbeat_missing_domain_name"
      else if !expected.isEmpty && !accepted then "heartbeat_domain_mismatch"
      else if isMatched then "matched" else "waiting_for_domain_membership"
    expectedDomainNames := expected
    observedDomainName := observed
    domainJoined := joined }

def Verification.data (v : Verification) : Json :=
  .obj [("matched", .bool v.isMatched), ("reason", .str v.reason),
    ("expected_domain_names", .arr (v.expectedDomainNames.map .str)),
    ("observed_domain_name", .str v.observedDomainName), ("domain_joined", .bool v.domainJoined)]

end DomainJoin

section Evidence
variable (py : Texts)

def peStepKinds : List String :=
  ["cloudosd_preflight", "cloudosd_deploy_os", "cloudosd_validate_offline_os",
    "stage_ad_domain_join_unattend", "stage_osd_client", "stage_autopilot_agent"]

def heartbeatStepKinds : List String := peStepKinds ++ ["wait_agent_heartbeat"]

def domainVerifyStepKinds : List String := ["verify_ad_domain_join"]

def doneKinds (d : Deployment) : List String :=
  let eventTypes := d.events.map fun e => py.casefold e.1.eventType
  let phases := d.events.map fun e => py.casefold e.1.phase
  (if d.run.peRegisteredAt.isSome ∨ "pe_registered" ∈ eventTypes then ["cloudosd_preflight"] else []) ++
  (if "osdcloud_start" ∈ eventTypes then ["cloudosd_preflight"] else []) ++
  (if "offline_validation_ok" ∈ eventTypes ∨ "offline validation" ∈ phases ∨ "offline_validation" ∈ phases then
    ["cloudosd_deploy_os", "cloudosd_validate_offline_os"] else []) ++
  (if d.run.osdcloudFinishedAt.isSome ∨ "cloudosd_pe_complete" ∈ eventTypes then peStepKinds else []) ++
  (if d.run.firstHeartbeatAt.isSome ∨ d.run.state = .complete ∨ "autopilotagent_heartbeat" ∈ eventTypes ∨
      "autopilotagent_heartbeat_visible" ∈ eventTypes ∨ "firstboot_complete" ∈ eventTypes then
    heartbeatStepKinds else []) ++
  (if "domain_join_verified" ∈ eventTypes then domainVerifyStepKinds else [])

def requiredKinds (domainJoin : DomainJoin) : List String :=
  ["capture_autopilot_hash", "wait_agent_heartbeat"] ++
    if domainJoin.enabled then ["verify_ad_domain_join"] else []

def stepStateText : StepState → String
  | .pending => "pending"
  | .running => "running"
  | .awaitingReboot => "awaiting_reboot"
  | .done => "done"
  | .skipped => "skipped"
  | .failed => "failed"

/-- `states.get(kind)`: a later step of the kind overwrites an earlier one. -/
def kindState (steps : PlanTable) (kind : String) : Option StepState :=
  (steps.rows.filter fun r => r.plan.kind == kind).getLast?.map fun r => r.state

structure CompletionStatus where
  ready : Bool
  required : List String
  missing : List String
  states : List (String × StepState)

def v2CompletionStatus (steps : PlanTable) (domainJoin : DomainJoin) : CompletionStatus :=
  let required := requiredKinds domainJoin
  let missing := required.filter fun kind => kindState steps kind != some .done
  { ready := missing.isEmpty
    required := required
    missing := missing
    states := required.filterMap fun kind => (kindState steps kind).map fun state => (kind, state) }

def CompletionStatus.data (s : CompletionStatus) : Json :=
  .obj [("ready", .bool s.ready), ("required", .arr (s.required.map .str)),
    ("missing", .arr (s.missing.map .str)),
    ("states", .obj (s.states.map fun p => (p.1, .str (stepStateText p.2))))]

end Evidence

structure RunIdentityBody where
  vmid : Int
  vmUuid : String
  mac : String
  node : Option String := none
  computerName : Option String := none

structure PeRegisterBody where
  vmUuid : String
  mac : String
  architecture : String := "amd64"
  buildSha : Option String := none

/-- The writes of one transaction, or a reading. -/
inductive Action where
  | read
  | appendEvent (e : RunEvent) (now : Time)
  | recordIdentity (body : RunIdentityBody) (now : Time)
  | markPeRegistered (now : Time)
  | markOsdcloudStarted (now : Time)
  | markOsdcloudFinished (now : Time)
  | markFailed (message : Option String) (now : Time)
  | observeHeartbeat (waiting : CloudState) (heartbeatAt now : Time)
  | complete (heartbeatAt : Time) (heartbeat : Option Heartbeat) (now : Time)
  | waitForV2 (now : Time)
  | archive (archivedBy reason : String) (now : Time)
  | unarchive (now : Time)
  | engine (c : TsEngine.Call)

section Actions
variable (d : Deployment)

/-- `row.get("pve_vm_name") or row.get("expected_computer_name") or row["vm_name"]`. -/
def CloudosdRun.computerName (run : CloudosdRun) : String :=
  (orElse run.pveVmName (given run.expectedComputerName)).getD run.vmName

def recordIdentity (body : RunIdentityBody) (now : Time) : Deployment :=
  let run := { d.run with
    state := .awaitingPe
    vmid := some body.vmid
    vmUuid := normalizeUuid body.vmUuid
    mac := normalizeMac body.mac
    node := body.node.or d.run.node
    pveVmName := (given (body.computerName.map strip)).or d.run.pveVmName
    updatedAt := now }
  { d with
    run := run
    ts := { d.ts with run := { d.ts.run with
      state := .external "awaiting_pe"
      phase := some "pe"
      vmid := some (.int body.vmid)
      vmUuid := (normalizeUuid body.vmUuid).map .str
      computerName := some (.str run.computerName) } } }

def markPeRegistered (now : Time) : Deployment :=
  { d with
    run := { d.run with
      state := .peRegistered, peRegisteredAt := d.run.peRegisteredAt.or (some now), updatedAt := now }
    ts := { d.ts with run := { d.ts.run with state := .external "pe_registered", phase := some "pe" } } }

/-- `UPDATE … WHERE state <> 'complete'`; the engine's row follows the returned one. -/
def markFailed (message : Option String) (now : Time) : Deployment :=
  if d.run.state = .complete then d
  else { d with
    run := { d.run with state := .failed, updatedAt := now }
    ts := { d.ts with run := { d.ts.run with
      state := .failed
      phase := d.ts.run.phase.or (some "pe")
      finishedAt := d.ts.run.finishedAt.or (some now)
      lastError := message.or d.ts.run.lastError } } }

/-- The first `UPDATE` of a heartbeat, `WHERE state <> 'failed'`; `waiting` is the state
given to a run that is not complete. -/
def observeHeartbeat (waiting : CloudState) (heartbeatAt now : Time) : Deployment :=
  if d.run.state = .failed then d
  else { d with
    run := { d.run with
      state := if d.run.state = .complete then d.run.state else waiting
      firstHeartbeatAt := d.run.firstHeartbeatAt.or (some heartbeatAt)
      updatedAt := now }
    ts := { d.ts with run := { d.ts.run with
      state := if d.ts.run.state = .done then d.ts.run.state else .external waiting.text
      phase := some "full_os" } } }

/-- The last `UPDATE` of a heartbeat, `WHERE state <> 'failed'`. -/
def completeRun (heartbeatAt now : Time) : Deployment :=
  if d.run.state = .failed then d
  else { d with
    run := { d.run with state := .complete, updatedAt := now }
    ts := { d.ts with run := { d.ts.run with
      state := .done
      phase := some "full_os"
      finishedAt := d.ts.run.finishedAt.or (some heartbeatAt) } } }

/-- The `UPDATE` of `requeue_agent_v2_step`. -/
def waitForV2 (now : Time) : Deployment :=
  if d.run.state = .complete then d
  else { d with run := { d.run with state := .fullOsWaitingV2, updatedAt := now } }

def archiveRun (archivedBy reason : String) (now : Time) : Deployment :=
  { d with run := { d.run with
    archivedAt := d.run.archivedAt.or (some now)
    archivedBy := d.run.archivedBy.or (some archivedBy)
    archiveReason := orElse d.run.archiveReason (given (some reason))
    updatedAt := now } }

def unarchiveRun (now : Time) : Deployment :=
  { d with run := { d.run with archivedAt := none, archivedBy := none, archiveReason := none, updatedAt := now } }

end Actions

def perform (a : Action) (d : Deployment) : Deployment :=
  match a with
  | .read => d
  | .appendEvent e now => { d with events := d.events ++ [(e, now)] }
  | .recordIdentity body now => recordIdentity d body now
  | .markPeRegistered now => markPeRegistered d now
  | .markOsdcloudStarted now =>
    { d with run := { d.run with osdcloudStartedAt := d.run.osdcloudStartedAt.or (some now), updatedAt := now } }
  | .markOsdcloudFinished now =>
    { d with run := { d.run with osdcloudFinishedAt := d.run.osdcloudFinishedAt.or (some now), updatedAt := now } }
  | .markFailed message now => markFailed d message now
  | .observeHeartbeat waiting heartbeatAt now => observeHeartbeat d waiting heartbeatAt now
  | .complete heartbeatAt _ now => completeRun d heartbeatAt now
  | .waitForV2 now => waitForV2 d now
  | .archive archivedBy reason now => archiveRun d archivedBy reason now
  | .unarchive now => unarchiveRun d now
  | .engine c => { d with ts := TsEngine.exec d.ts c }

end ProxmoxVEAutopilot.CloudOsd
