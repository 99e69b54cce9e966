import ProxmoxVEAutopilot.CloudOsd.Calls

/-!
# Creating a CloudOSD run

The generated sequence has one step of each of its kinds.
-/

namespace ProxmoxVEAutopilot.CloudOsd

open Foundation TsEngine
set_option autoImplicit false

structure GeneratedStep where
  name : String
  kind : String
  phase : String

/-- The steps of `_create_sequence_for_run`; a domain controller's address moves the join
from the unattend file to the full OS. -/
def generatedSteps (domainJoin : DomainJoin) : List GeneratedStep :=
  let fullOsDomainJoin := domainJoin.domainControllerIpv4 ≠ ""
  [ ⟨"OSDCloud PE preflight", "cloudosd_preflight", "pe"⟩,
    ⟨"Run OSDCloud workflow", "cloudosd_deploy_os", "pe"⟩ ] ++
  (if domainJoin.enabled ∧ ¬ fullOsDomainJoin then
    [⟨"Stage AD domain join unattend", "stage_ad_domain_join_unattend", "pe"⟩] else []) ++
  [ ⟨"Validate offline Windows", "cloudosd_validate_offline_os", "pe"⟩,
    ⟨"Stage OSD client", "stage_osd_client", "pe"⟩,
    ⟨"Stage AutopilotAgent", "stage_autopilot_agent", "pe"⟩,
    ⟨"Wait for AutopilotAgent heartbeat", "wait_agent_heartbeat", "full_os"⟩ ] ++
  (if domainJoin.enabled ∧ fullOsDomainJoin then [⟨"Join AD domain", "join_domain_role", "full_os"⟩] else []) ++
  (if domainJoin.enabled then [⟨"Verify AD domain membership", "verify_ad_domain_join", "full_os"⟩] else []) ++
  [⟨"Capture Autopilot hardware hash", "capture_autopilot_hash", "full_os"⟩]

def DomainJoin.json (config : DomainJoin) : Json :=
  if !config.enabled then .obj [("enabled", .bool false)]
  else .obj [
    ("enabled", .bool true),
    ("source_sequence_id", config.sourceSequenceId.elim .null .int),
    ("credential_id", config.credentialId.elim .null .int),
    ("domain_fqdn", .str config.domainFqdn),
    ("credential_domain", .str config.credentialDomain),
    ("domain_controller_ipv4", .str config.domainControllerIpv4),
    ("ou_path", .str config.ouPath),
    ("acceptable_domain_names", .arr (config.acceptableDomainNames.map .str)),
    ("expected_computer_name", .str config.expectedComputerName)]

def stepParams (domainJoin : DomainJoin) (vmGroupTag : Option String) (kind : String) : Json :=
  if kind ∈ ["stage_ad_domain_join_unattend", "join_domain_role", "verify_ad_domain_join"] then domainJoin.json
  else if kind = "capture_autopilot_hash" then
    (given vmGroupTag).elim (.obj []) fun tag => .obj [("group_tag", .str tag)]
  else .obj []

/-- The nodes `_create_sequence_for_run` adds; `nodeId` gives their ids. -/
def sequenceNodes (nodeId : Nat → Uuid) (domainJoin : DomainJoin) (vmGroupTag : Option String) : List Node :=
  (generatedSteps domainJoin).zipIdx.map fun p =>
    { id := nodeId p.2
      parentId := none
      position := p.2
      nodeType := .step p.1.kind
      name := p.1.name
      phase := p.1.phase
      paramsJson := stepParams domainJoin vmGroupTag p.1.kind
      retryCount :=
        if p.1.kind = "verify_ad_domain_join" then 60 else if p.1.kind = "capture_autopilot_hash" then 2 else 0
      retryDelaySeconds := if p.1.kind = "verify_ad_domain_join" then 30 else 10
      rebootBehavior := if p.1.kind = "join_domain_role" then .required else .none }

def isComputerNameChar (c : Char) : Bool := c.isAlphanum || c == '-'

def normalizeWindowsComputerName (value : String) : String :=
  let normalized := ((strip value).toList.filter isComputerNameChar).take 15
  if normalized ≠ [] ∧ normalized.all Char.isDigit then String.ofList (("PVE-".toList ++ normalized).take 15)
  else String.ofList normalized

/-- A row of `cloudosd_artifacts`. -/
structure Artifact where
  architecture : String
  buildSha : String

/-- The arguments of `create_run` that are read again; `runVariables` are the others the
engine stores with the run. -/
structure RunRequest where
  artifact : Option Artifact
  vmName : String
  architecture : String := "amd64"
  node : Option String := none
  vmGroupTag : Option String := none
  domainJoin : DomainJoin := {}
  runVariables : List (String × Json) := []

inductive CreateRunError where
  | artifactNotFound
  | architectureMismatch
  | invalidName
  | engine (e : CreateError)

def createRun (py : Texts) (ids : IdSource) (nodeId : Nat → Uuid) (sequenceId versionId : Uuid)
    (request : RunRequest) (now : Time) : Except CreateRunError Deployment :=
  match request.artifact with
  | none => .error .artifactNotFound
  | some artifact =>
    if artifact.architecture ≠ request.architecture then .error .architectureMismatch
    else
      let computerName := normalizeWindowsComputerName request.vmName
      if computerName = "" then .error .invalidName
      else
        let domainJoin := sanitizeDomainJoin py request.domainJoin (some computerName)
        match createRunFromVersion ids versionId
            (some ⟨versionId, sequenceId, compiledTree (sequenceNodes nodeId domainJoin request.vmGroupTag)⟩)
            (.obj [("computer_name", .str computerName), ("requested_name", .str request.vmName),
              ("architecture", .str request.architecture), ("cloudosd", .bool true)])
            (.obj ([("deployment_path", .str "cloudosd"), ("domain_join", domainJoin.json)] ++ request.runVariables))
            (some "cloudosd") now with
        | .error e => .error (.engine e)
        | .ok ts => .ok {
            run := {
              runId := ts.run.id
              architecture := request.architecture
              buildSha := artifact.buildSha
              vmName := request.vmName
              expectedComputerName := some computerName
              domainJoin := domainJoin
              node := request.node
              updatedAt := now }
            events := [(⟨"controller", "run_created", "info", some "OSDCloud run created", .obj []⟩, now)]
            ts := { ts with run :=
              { ts.run with state := .external "cloudosd_created", phase := some "cloudosd" } } }

def Created (py : Texts) (d : Deployment) : Prop :=
  ∃ ids nodeId sequenceId versionId request now, createRun py ids nodeId sequenceId versionId request now = .ok d

theorem createRun_ok {py : Texts} {ids : IdSource} {nodeId : Nat → Uuid} {sequenceId versionId : Uuid}
    {request : RunRequest} {now : Time} {d : Deployment}
    (h : createRun py ids nodeId sequenceId versionId request now = .ok d) :
    d.run.state = .created ∧ d.run.firstHeartbeatAt = none ∧
      ∃ version target vars ts, createRunFromVersion ids versionId (some version) target vars
          (some "cloudosd") now = .ok ts ∧
        version.compiledTreeJson =
          compiledTree (sequenceNodes nodeId d.run.domainJoin request.vmGroupTag) ∧
        d.ts.steps = ts.steps := by
  unfold createRun at h
  split at h
  · cases h
  · split at h
    · cases h
    · dsimp only at h
      split at h
      · cases h
      · split at h
        · cases h
        · rename_i ts hts
          cases h
          exact ⟨rfl, rfl, _, _, _, ts, hts, rfl, rfl⟩

def asciiTexts : Texts := ⟨lower, fun id => toString id⟩

def workgroupRun : Deployment :=
  (createRun asciiTexts countingIds id 0 0 { artifact := some ⟨"amd64", "sha"⟩, vmName := "PC1" } 0).toOption.get
    (by decide +kernel)

theorem created_workgroupRun : Created asciiTexts workgroupRun :=
  ⟨countingIds, id, 0, 0, { artifact := some ⟨"amd64", "sha"⟩, vmName := "PC1" }, 0,
    ok_toOption_get _ (by decide +kernel)⟩

end ProxmoxVEAutopilot.CloudOsd
