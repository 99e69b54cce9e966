import ProxmoxVEAutopilot.OsDeploy.Runs

/-!
# Creating an OSDeploy run

The generated sequence has one step for each kind below; the role's steps stand before
the last one.
-/

namespace ProxmoxVEAutopilot.OsDeploy

open Foundation TsEngine
set_option autoImplicit false

def roleStepName (kind : String) : String :=
  ([ ("join_domain_role", "Join isolated domain"),
     ("verify_ad_domain_join", "Verify AD domain membership"),
     ("configure_file_server_role", "Configure File Server role"),
     ("configure_isolated_domain_controller_role", "Promote isolated domain controller"),
     ("verify_isolated_domain_controller_role", "Verify isolated domain controller"),
     ("configure_mecm_prereq_role", "Install MECM prerequisite baseline") ].lookup kind).getD kind

structure GeneratedStep where
  name : String
  kind : String
  phase : String

def generatedSteps (serverRole : String) (roleOptions : Json) : List GeneratedStep :=
  [ ⟨"OSDeploy PE preflight", "osdeploy_preflight", "pe"⟩,
    ⟨"Apply OSDeploy Server image", "apply_wim", "pe"⟩,
    ⟨"Apply VirtIO driver package", "apply_driver_package", "pe"⟩,
    ⟨"Prepare Windows Server setup", "prepare_windows_setup", "pe"⟩,
    ⟨"Bake Windows boot entry", "bake_boot_entry", "pe"⟩,
    ⟨"Stage OSD client", "stage_osd_client", "pe"⟩,
    ⟨"Stage AutopilotAgent", "stage_autopilot_agent", "pe"⟩,
    ⟨"Install QEMU Guest Agent", "install_qga", "full_os"⟩,
    ⟨"Verify QEMU Guest Agent", "verify_qga", "full_os"⟩,
    ⟨"Install QGA watchdog", "install_qga_watchdog", "full_os"⟩,
    ⟨"Install AutopilotAgent", "install_autopilot_agent", "full_os"⟩ ] ++
  ((generatedStepKinds serverRole roleOptions).map fun kind => ⟨roleStepName kind, kind, "full_os"⟩) ++
  [⟨"Wait for AutopilotAgent heartbeat", "wait_agent_heartbeat", "full_os"⟩]

def stepParams (serverRole : String) (roleOptions : Json) (kind : String) : Json :=
  if (["file_server", "isolated_domain_controller", "mecm_prereq"].flatMap roleStepKinds).contains kind then
    mergeFields [("server_role", .str serverRole)] roleOptions
  else if domainJoinStepKinds.contains kind then domainJoin roleOptions
  else if kind = "install_qga" then .obj [("required", .bool true)]
  else .obj []

/-- The nodes `_create_sequence_for_run` adds; `nodeId` gives their ids. -/
def sequenceNodes (nodeId : Nat → Uuid) (serverRole : String) (roleOptions : Json) : List Node :=
  (generatedSteps serverRole roleOptions).zipIdx.map fun p =>
    { id := nodeId p.2
      parentId := none
      position := p.2
      nodeType := .step p.1.kind
      name := p.1.name
      phase := p.1.phase
      paramsJson := stepParams serverRole roleOptions p.1.kind
      retryCount := if p.1.kind = "wait_agent_heartbeat" then 60 else 0
      retryDelaySeconds := if p.1.kind = "verify_ad_domain_join" then 30 else 10
      rebootBehavior :=
        if ["configure_isolated_domain_controller_role", "join_domain_role"].contains p.1.kind then .required
        else .none }

def isComputerNameChar (c : Char) : Bool := c.isAlphanum || c == '-'

def stripHyphens (cs : List Char) : List Char :=
  ((cs.dropWhile (· == '-')).reverse.dropWhile (· == '-')).reverse

def normalizeWindowsComputerName (name : String) : String :=
  String.ofList ((stripHyphens ((strip name).toList.filter isComputerNameChar)).take 15)

/-- The arguments of `create_run` that the run keeps; `roleOptions` as
`sanitize_role_options` returned them, `runVariables` the other run variables. -/
structure RunRequest where
  vmName : String
  serverRole : String
  architecture : String := "amd64"
  roleOptions : Json := .obj []
  runVariables : List (String × Json) := []

inductive CreateRunError where
  | invalidName
  | engine (e : CreateError)

def createRun (ids : IdSource) (nodeId : Nat → Uuid) (sequenceId versionId : Uuid) (request : RunRequest)
    (now : Time) : Except CreateRunError Deployment :=
  let computerName := normalizeWindowsComputerName request.vmName
  if computerName = "" then .error .invalidName
  else
    match createRunFromVersion ids versionId
        (some ⟨versionId, sequenceId, compiledTree (sequenceNodes nodeId request.serverRole request.roleOptions)⟩)
        (.obj [("computer_name", .str computerName), ("requested_name", .str request.vmName),
          ("architecture", .str request.architecture), ("osdeploy", .bool true)])
        (.obj ([("deployment_path", .str "osdeploy_v2"), ("server_role", .str request.serverRole),
          ("role_options", request.roleOptions)] ++ request.runVariables))
        (some "osdeploy") now with
    | .error e => .error (.engine e)
    | .ok ts => .ok (appendEvent
        { run := { runId := ts.run.id, serverRole := request.serverRole, updatedAt := now }
          readiness := { updatedAt := now }
          ts := { ts with run :=
            { ts.run with state := .external "osdeploy_created", phase := some "osdeploy" } } }
        "controller" "run_created" "info" (some "OSDeploy run created") .null now)

def Created (d : Deployment) : Prop :=
  ∃ ids nodeId sequenceId versionId request now, createRun ids nodeId sequenceId versionId request now = .ok d

theorem createRun_ok {ids : IdSource} {nodeId : Nat → Uuid} {sequenceId versionId : Uuid}
    {request : RunRequest} {now : Time} {d : Deployment}
    (h : createRun ids nodeId sequenceId versionId request now = .ok d) :
    ∃ ts : RunDb, d = appendEvent
      { run := { runId := ts.run.id, serverRole := request.serverRole, updatedAt := now }
        readiness := { updatedAt := now }
        ts := { ts with run :=
          { ts.run with state := .external "osdeploy_created", phase := some "osdeploy" } } }
      "controller" "run_created" "info" (some "OSDeploy run created") .null now := by
  unfold createRun at h
  dsimp only at h
  split at h
  · cases h
  · split at h
    · cases h
    · exact ⟨_, (Except.ok.inj h).symm⟩

end ProxmoxVEAutopilot.OsDeploy
