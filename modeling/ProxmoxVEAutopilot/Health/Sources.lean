import ProxmoxVEAutopilot.Health.Passes

/-!
# The sources of the cockpit

`sync_from_sources`: what is recorded of the jobs, the legacy and v2 runs and their steps, the
agents' work and the CloudOSD runs. Tables are lists of rows, and a table that does not exist
is an empty one; the rows of a query come sorted as it asks, ties in the order of the table.
-/

namespace ProxmoxVEAutopilot.Health

open Foundation

set_option autoImplicit false

/-! ### Tables -/

structure Job where
  id : String
  jobType : String
  playbook : String
  args : Json
  status : String
  workerId : Option String
  exitCode : Option Int
  createdAt : Int
  claimedAt : Option Int
  lastHeartbeat : Option Int
  endedAt : Option Int

/-- The check of `provision_path`. -/
inductive ProvisionPath where
  | clone | winpe
deriving DecidableEq

def ProvisionPath.text : ProvisionPath → String
  | .clone => "clone"
  | .winpe => "winpe"

structure LegacyRun where
  id : Int
  vmid : Option Int
  provisionPath : ProvisionPath
  state : String
  vmUuid : Option String
  startedAt : Int
  finishedAt : Option Int
  lastError : Option String

structure LegacyStep where
  id : Int
  runId : Int
  orderIndex : Int
  phase : String
  kind : String
  state : String
  startedAt : Option Int
  finishedAt : Option Int
  error : Option String

structure TsRun where
  id : String
  state : String
  phase : Option String
  vmid : Option Int
  vmUuid : Option String
  computerName : Option String
  serialNumber : Option String
  startedAt : Int
  finishedAt : Option Int
  lastError : Option String

structure TsStep where
  id : String
  runId : String
  ordinal : Int
  name : String
  kind : String
  phase : String
  state : String
  attempt : Int
  claimedAt : Option Int
  startedAt : Option Int
  finishedAt : Option Int
  lastError : Option String

structure WorkItem where
  id : String
  agentId : String
  kind : String
  status : String
  vmid : Option Int
  jobId : Option String
  request : Json
  result : Json
  error : Option String
  createdAt : Int
  claimedAt : Option Int
  completedAt : Option Int
  updatedAt : Int

structure CloudOsdRun where
  runId : String
  state : String
  workflowName : String
  architecture : String
  vmName : String
  expectedComputerName : Option String
  requestedVmid : Option Int
  vmid : Option Int
  node : Option String
  peRegisteredAt : Option Int
  osdcloudStartedAt : Option Int
  osdcloudFinishedAt : Option Int
  firstHeartbeatAt : Option Int
  createdAt : Int
  updatedAt : Int

structure Readiness where
  runId : String
  state : String
  hashStatus : Option String
  uploadStatus : Option String
  uploadStartedAt : Option Int
  uploadFinishedAt : Option Int
  uploadError : Option String
  assignmentStatus : Option String
  enrollmentStatus : Option String
  contactState : Option String
  cacheStatus : Option String

/-- `agent_devices` is given by what evidence says of the last contact. -/
structure Tables where
  jobs : List Job
  legacyRuns : List LegacyRun
  legacySteps : List LegacyStep
  tsRuns : List TsRun
  tsSteps : List TsStep
  workItems : List WorkItem
  lastSeen : String → Option String
  cloudosdRuns : List CloudOsdRun
  readiness : List Readiness

/-! ### Keys and states -/

inductive DeploymentKey where
  | job (id : String)
  | legacy (path : ProvisionPath) (id : Int)
  | ts (id : String)
  | agentWork (id : String)
  | cloudosd (id : String)
deriving DecidableEq

/-- `deployment_key` -/
def DeploymentKey.text : DeploymentKey → String
  | .job id => s!"job:{id}"
  | .legacy path id => s!"{path.text}:{id}"
  | .ts id => s!"ts:{id}"
  | .agentWork id => s!"agent-work:{id}"
  | .cloudosd id => s!"cloudosd:{id}"

/-- The primary key of `deployment_phase_timings`. -/
structure PhaseId where
  deployment : DeploymentKey
  phase : String
deriving DecidableEq

def jobExecutionState (status : String) : PhaseState :=
  if status = "complete" then .done
  else if status = "failed" then .failed
  else if status = "orphaned" then .stale
  else if status = "pending" then .pending
  else if status = "running" then .running
  else .failed

def legacyStepState (state : String) : PhaseState :=
  if state = "ok" then .done
  else if state = "error" then .failed
  else if state = "running" then .running
  else .pending

def runState (state : Option String) : PhaseState :=
  if state ∈ ["done", "complete", "completed"].map some then .done
  else if state ∈ ["failed", "error", "cancelled", "canceled"].map some then .failed
  else if state = some "skipped" then .skipped
  else if state ∈ ["queued", "pending"].map some then .pending
  else if state ∈ ["orphaned", "stale"].map some then .stale
  else .running

def tsStepState (state : String) : PhaseState :=
  if state = "done" then .done
  else if state = "failed" then .failed
  else if state = "skipped" then .skipped
  else if state = "pending" then .pending
  else .running

def WINPE_STEP_PHASES : List (String × String) :=
  [ ("vm_identity", "vm_identity")
  , ("winpe_boot", "winpe_boot")
  , ("partition", "partition_apply_wim")
  , ("apply_wim", "partition_apply_wim")
  , ("apply_os_image", "partition_apply_wim")
  , ("inject_drivers", "driver_injection")
  , ("driver_injection", "driver_injection")
  , ("boot_handoff", "boot_handoff")
  , ("windows_setup", "windows_setup")
  , ("osd_client", "osd_client")
  , ("stage_osd_client", "osd_client")
  , ("hash_capture", "hash_capture") ]

def CLOUDOSD_STEP_PHASES : List (String × String) :=
  [ ("cloudosd_preflight", "pe_registration")
  , ("cloudosd_deploy_os", "osdcloud")
  , ("cloudosd_validate_offline_os", "offline_validation")
  , ("stage_osd_client", "osd_client")
  , ("setup_complete", "setup_complete")
  , ("hash_capture", "hash_capture") ]

def BUILD_HOST_WORK_PHASES : List (String × String) :=
  [ ("install_build_prerequisites", "prereqs")
  , ("fetch_source_bundle", "source_fetch")
  , ("build_agent_msi", "msi_build")
  , ("build_winpe", "winpe_build")
  , ("build_cloudosd", "cloudosd_build")
  , ("publish_artifacts", "artifact_publish") ]

def kindText (kind : String) : String := if kind = "" then "step" else kind

def normalizedStepPhaseKey (deploymentType kind : String) (ordinal : Int) : String :=
  let kind := kindText kind
  let mapped :=
    if deploymentType = "winpe" then WINPE_STEP_PHASES.lookup kind
    else if deploymentType = "cloudosd" then CLOUDOSD_STEP_PHASES.lookup kind
    else if deploymentType = "task_engine" then (CLOUDOSD_STEP_PHASES.lookup kind).or (WINPE_STEP_PHASES.lookup kind)
    else none
  mapped.getD s!"step:{ordinal}:{kind}"

/-! ### Entries -/

def ofText (text : Option String) : Json := text.elim .null .str
def ofInt (n : Option Int) : Json := n.elim .null .int

/-- `label.replace("_", " ").title()` -/
def labelled (title : String → String) (kind : String) : String :=
  title (String.ofList (kind.toList.map fun c => if c = '_' then ' ' else c))

abbrev Recorded := PhaseId × Entry

section

variable (title : String → String) (t : Tables)

/-- `_evidence_from_job` -/
def Job.evidence (job : Job) : List (String × Json) :=
  [ ("job_id", .str job.id)
  , ("job_type", .str job.jobType)
  , ("playbook", .str job.playbook)
  , ("status", .str job.status)
  , ("worker_id", ofText job.workerId)
  , ("exit_code", ofInt job.exitCode) ] ++
  ["vmid", "vm_vmid", "target_vmid", "node", "artifact", "run_id", "workflow_name", "sequence_id"].filterMap fun key =>
    (job.args.get? key).map fun value => (key, value)

def queueState (claimedAt : Option Int) (status : String) : PhaseState :=
  if claimedAt ≠ none then .done else if status = "pending" then .running else .skipped

def Job.entry (job : Job) (phaseLabel : String) (state : PhaseState) (startedAt : Int) : Entry where
  deploymentType := job.jobType
  source := "jobs"
  sourceId := job.id
  phaseLabel := phaseLabel
  state := state
  startedAt := startedAt
  evidence := job.evidence

def Job.recorded (job : Job) : List Recorded :=
  let claimed := job.claimedAt.getD job.createdAt
  [ (⟨.job job.id, "queue_wait"⟩,
      { job.entry "Queue wait" (queueState job.claimedAt job.status) job.createdAt with
        endedAt := job.claimedAt, lastProgressAt := some claimed })
  , (⟨.job job.id, "execution"⟩,
      { job.entry "Execution" (jobExecutionState job.status) claimed with
        endedAt := job.endedAt, lastProgressAt := some (job.endedAt.getD (job.lastHeartbeat.getD claimed))
        error := if job.status = "failed" ∨ job.status = "orphaned" then some job.status else none }) ] ++
  if (job.args.get? "pause_enabled").any (·.truthy) then
    [ (⟨.job job.id, "pause_gate"⟩,
        { job.entry "Pause gate" (if job.endedAt ≠ none then .done else .running) claimed with
          endedAt := job.endedAt, lastProgressAt := some (job.lastHeartbeat.getD job.createdAt) }) ]
  else []

def newest {α : Type} (at' : α → Int) (rows : List α) : List α :=
  rows.insertionSort fun a b => at' b ≤ at' a

def syncJobs : List Recorded := ((newest Job.createdAt t.jobs).take 500).flatMap Job.recorded

def LegacyRun.recorded (run : LegacyRun) : Recorded :=
  (⟨.legacy run.provisionPath run.id, "run"⟩,
    { deploymentType := run.provisionPath.text
      source := "provisioning_runs"
      sourceId := toString run.id
      phaseLabel := s!"{title run.provisionPath.text} run"
      state := runState (some run.state)
      startedAt := run.startedAt
      endedAt := run.finishedAt
      lastProgressAt := some (run.finishedAt.getD run.startedAt)
      evidence :=
        [ ("run_id", .int run.id), ("vmid", ofInt run.vmid), ("vm_uuid", ofText run.vmUuid), ("state", .str run.state) ]
      error := run.lastError })

/-- A step of a run that is there. -/
def legacyJoined : List (LegacyRun × LegacyStep) :=
  t.legacySteps.filterMap fun step => (t.legacyRuns.find? (·.id = step.runId)).map fun run => (run, step)

/-- The runs newest first, the steps of one in order. -/
def legacyListed : List (LegacyRun × LegacyStep) :=
  ((legacyJoined t).insertionSort fun a b =>
    b.1.startedAt < a.1.startedAt ∨ a.1.startedAt = b.1.startedAt ∧ a.2.orderIndex ≤ b.2.orderIndex).take 1500

def legacyPhase (s : LegacyRun × LegacyStep) : PhaseId :=
  ⟨.legacy s.1.provisionPath s.1.id,
    normalizedStepPhaseKey s.1.provisionPath.text s.2.kind s.2.orderIndex⟩

def legacyStepRecorded (s : LegacyRun × LegacyStep) : Recorded :=
  let (run, step) := s
  let started := step.startedAt.getD run.startedAt
  (legacyPhase s,
    { deploymentType := run.provisionPath.text
      source := "provisioning_run_steps"
      sourceId := toString step.id
      phaseLabel := labelled title (kindText step.kind)
      state := legacyStepState step.state
      startedAt := step.startedAt.getD (step.finishedAt.getD run.startedAt)
      endedAt := step.finishedAt
      lastProgressAt := some (step.finishedAt.getD started)
      evidence :=
        [ ("run_id", .int step.runId), ("step_id", .int step.id), ("phase", .str step.phase), ("kind", .str step.kind)
        , ("state", .str step.state) ]
      error := step.error })

def syncLegacyRuns : List Recorded :=
  ((newest LegacyRun.startedAt t.legacyRuns).take 500).map (LegacyRun.recorded title) ++
    (legacyListed t).map (legacyStepRecorded title)

/-- The run that a job provisions: `cloudosd_run_id`, or `run_id` where that is null. -/
def Job.provisions (job : Job) (runId : String) : Bool :=
  match job.args.get? "cloudosd_run_id" with
  | none | some .null => job.args.get? "run_id" = some (.str runId)
  | some value => value = .str runId

/-- The newest `provision_cloudosd` job of a run. -/
def provisionJob (runId : String) : Option Job :=
  (newest Job.createdAt (t.jobs.filter fun job => job.jobType = "provision_cloudosd" ∧ job.provisions runId)).head?

def provisionJobFailed (job : Option Job) : Bool :=
  job.any fun job => job.status ∈ ["failed", "orphaned", "canceled", "cancelled"]

def TsRun.recorded (run : TsRun) : Recorded :=
  let job := provisionJob t run.id
  let cloudosdState := (t.cloudosdRuns.find? (·.runId = run.id)).map (·.state)
  let effectiveFailed :=
    runState (some run.state) = .failed ∨ runState cloudosdState = .failed ∨ provisionJobFailed job = true
  let effectiveFinishedAt := run.finishedAt.or (if effectiveFailed then job.bind (·.endedAt) else none)
  (⟨.ts run.id, "run"⟩,
    { deploymentType := "task_engine"
      source := "ts_provisioning_runs"
      sourceId := run.id
      phaseLabel := "Task engine run"
      state := if effectiveFailed then .failed else runState (some run.state)
      startedAt := run.startedAt
      endedAt := effectiveFinishedAt
      lastProgressAt := some (effectiveFinishedAt.getD ((job.bind (·.lastHeartbeat)).getD run.startedAt))
      evidence :=
        [ ("run_id", .str run.id), ("vmid", ofInt run.vmid), ("vm_uuid", ofText run.vmUuid)
        , ("computer_name", ofText run.computerName), ("serial_number", ofText run.serialNumber)
        , ("state", .str run.state), ("phase", ofText run.phase), ("cloudosd_state", ofText cloudosdState)
        , ("provision_job_id", ofText (job.map (·.id))), ("provision_job_status", ofText (job.map (·.status)))
        , ("provision_job_exit_code", ofInt (job.bind (·.exitCode))) ]
      error := orElse run.lastError (if provisionJobFailed job then job.map (·.status) else none) })

def tsJoined : List (TsRun × TsStep) :=
  t.tsSteps.filterMap fun step => (t.tsRuns.find? (·.id = step.runId)).map fun run => (run, step)

def tsListed : List (TsRun × TsStep) :=
  ((tsJoined t).insertionSort fun a b =>
    b.1.startedAt < a.1.startedAt ∨ a.1.startedAt = b.1.startedAt ∧ a.2.ordinal ≤ b.2.ordinal).take 2000

def tsPhase (s : TsRun × TsStep) : PhaseId :=
  ⟨.ts s.1.id, normalizedStepPhaseKey "task_engine" s.2.kind s.2.ordinal⟩

def tsStepRecorded (s : TsRun × TsStep) : Recorded :=
  let (run, step) := s
  (tsPhase s,
    { deploymentType := "task_engine"
      source := "ts_run_plan_steps"
      sourceId := step.id
      phaseLabel := if step.name ≠ "" then step.name else labelled title (kindText step.kind)
      state := tsStepState step.state
      startedAt := step.startedAt.getD run.startedAt
      endedAt := step.finishedAt
      lastProgressAt := some (((step.finishedAt.or step.startedAt).or step.claimedAt).getD run.startedAt)
      evidence :=
        [ ("run_id", .str step.runId), ("step_id", .str step.id), ("ordinal", .int step.ordinal)
        , ("name", .str step.name), ("kind", .str step.kind), ("phase", .str step.phase), ("state", .str step.state)
        , ("attempt", .int step.attempt) ]
      error := step.lastError })

def syncTsRuns : List Recorded :=
  ((newest TsRun.startedAt t.tsRuns).take 500).map (TsRun.recorded t) ++ (tsListed t).map (tsStepRecorded title)

/-- Later work of the same agent has ended. -/
def WorkItem.superseded (item : WorkItem) : Bool :=
  item.status = "claimed" && t.workItems.any fun later =>
    later.agentId = item.agentId &&
      later.status ∈ ["complete", "completed", "failed", "error", "cancelled", "canceled"] &&
        decide (item.claimedAt.getD item.createdAt < later.completedAt.getD later.updatedAt)

def WorkItem.recorded (item : WorkItem) : List Recorded :=
  let superseded := item.superseded t
  let claimed := item.claimedAt.getD item.createdAt
  let entry : Entry :=
    { deploymentType := s!"agent_work:{item.kind}"
      source := "agent_work_items"
      sourceId := item.id
      phaseLabel := "Queue wait"
      state := queueState item.claimedAt item.status
      startedAt := item.createdAt
      endedAt := item.claimedAt
      lastProgressAt := some (item.claimedAt.getD item.updatedAt)
      evidence :=
        [ ("work_item_id", .str item.id), ("agent_id", .str item.agentId), ("kind", .str item.kind)
        , ("status", .str item.status), ("vmid", ofInt item.vmid), ("job_id", ofText item.jobId)
        , ("agent_last_seen_at", ofText (t.lastSeen item.agentId)), ("request", item.request)
        , ("result", item.result), ("superseded_by_later_terminal_work", .bool superseded) ] }
  [ (⟨.agentWork item.id, "queue_wait"⟩, entry)
  , (⟨.agentWork item.id, (BUILD_HOST_WORK_PHASES.lookup item.kind).getD "execution"⟩,
      { entry with
        phaseLabel := labelled title (if item.kind = "" then "Agent work" else item.kind)
        state := if superseded then .failed else runState (some item.status)
        startedAt := claimed
        endedAt := item.completedAt
        lastProgressAt := some (item.completedAt.getD item.updatedAt)
        error :=
          if superseded then
            orElse item.error (some "claimed work item was superseded by later terminal work from the same agent")
          else item.error }) ]

def syncAgentWork : List Recorded :=
  ((newest WorkItem.createdAt t.workItems).take 500).flatMap (WorkItem.recorded title t)

/-- The upload phase: its state, end and error. -/
def Readiness.upload (run : CloudOsdRun) (failed : Bool) (jobEndedAt : Option Int) (r : Readiness) :
    PhaseState × Option Int × Option String :=
  let status := r.uploadStatus.getD ""
  let notConfigured := status = "not_configured" ∨ r.state = "upload_not_configured"
  let uploadFailed := status ∈ ["failed", "canceled", "cancelled"] ∨ r.state = "upload_failed" ∨
    given r.uploadError ≠ none ∧ ¬ notConfigured
  if notConfigured then
    (.skipped, some (((r.uploadFinishedAt.or r.uploadStartedAt).or run.firstHeartbeatAt).getD run.updatedAt), none)
  else if uploadFailed then
    (.failed, some (r.uploadFinishedAt.getD run.updatedAt), orElse r.uploadError (orElse (some status) (some r.state)))
  else if failed ∧ (status = "" ∨ status = "not_started") ∧ r.uploadStartedAt = none then
    (.skipped, some (jobEndedAt.getD run.updatedAt), none)
  else
    let done := r.uploadFinishedAt ≠ none ∨ status = "complete"
    (if done then .done else .running, r.uploadFinishedAt.or (if done then some run.updatedAt else none), r.uploadError)

def CloudOsdRun.recorded (run : CloudOsdRun) : List Recorded :=
  let job := provisionJob t run.runId
  let jobFailed := provisionJobFailed job
  let failed : Bool := runState (some run.state) = .failed ∨ jobFailed = true
  let jobEndedAt := job.bind (·.endedAt)
  let readiness := t.readiness.find? (·.runId = run.runId)
  let entry : Entry :=
    { deploymentType := "cloudosd"
      source := "cloudosd_runs"
      sourceId := run.runId
      phaseLabel := "Proxmox provision"
      state := if run.peRegisteredAt ≠ none then .done else if failed then .failed else .running
      startedAt := run.createdAt
      endedAt := run.peRegisteredAt.or (if failed then jobEndedAt else none)
      lastProgressAt :=
        some (((run.peRegisteredAt.or jobEndedAt).or (job.bind (·.lastHeartbeat))).getD run.updatedAt)
      evidence :=
        [ ("run_id", .str run.runId), ("workflow_name", .str run.workflowName), ("architecture", .str run.architecture)
        , ("vm_name", .str run.vmName), ("expected_computer_name", ofText run.expectedComputerName)
        , ("requested_vmid", ofInt run.requestedVmid), ("vmid", ofInt run.vmid), ("node", ofText run.node)
        , ("state", .str run.state), ("readiness_state", ofText (readiness.map (·.state)))
        , ("hash_status", ofText (readiness.bind (·.hashStatus)))
        , ("upload_status", ofText (readiness.bind (·.uploadStatus)))
        , ("assignment_status", ofText (readiness.bind (·.assignmentStatus)))
        , ("enrollment_status", ofText (readiness.bind (·.enrollmentStatus)))
        , ("contact_state", ofText (readiness.bind (·.contactState)))
        , ("cache_status", ofText (readiness.bind (·.cacheStatus)))
        , ("provision_job_id", ofText (job.map (·.id))), ("provision_job_status", ofText (job.map (·.status)))
        , ("provision_job_exit_code", ofInt (job.bind (·.exitCode))) ]
      error := if jobFailed then job.map (·.status) else if failed then some run.state else none }
  [ (⟨.cloudosd run.runId, "proxmox_provision"⟩, entry)
  , (⟨.cloudosd run.runId, "osdcloud"⟩,
      { entry with
        phaseLabel := "OSDCloud"
        state :=
          if run.osdcloudFinishedAt ≠ none then .done
          else if run.osdcloudStartedAt ≠ none then if failed then .failed else .running
          else if run.peRegisteredAt ≠ none ∧ failed = true then .failed
          else if failed then .skipped else .pending
        startedAt := (run.osdcloudStartedAt.or run.peRegisteredAt).getD run.createdAt
        endedAt := run.osdcloudFinishedAt.or (if failed then jobEndedAt else none)
        lastProgressAt :=
          some (((run.osdcloudFinishedAt.or run.osdcloudStartedAt).or run.peRegisteredAt).getD run.updatedAt)
        error := if failed then some run.state else none })
  , (⟨.cloudosd run.runId, "first_boot"⟩,
      { entry with
        phaseLabel := "First boot heartbeat"
        state := if run.firstHeartbeatAt ≠ none then .done else if failed then .skipped else .pending
        startedAt := run.osdcloudFinishedAt.getD run.createdAt
        endedAt := run.firstHeartbeatAt.or (if failed then jobEndedAt else none)
        lastProgressAt := some (run.firstHeartbeatAt.getD run.updatedAt)
        error := none }) ] ++
  (readiness.filter fun r =>
      r.uploadStartedAt ≠ none ∨ r.uploadFinishedAt ≠ none ∨ given r.hashStatus ≠ none).toList.map fun r =>
    let (state, endedAt, error) := r.upload run failed jobEndedAt
    (⟨.cloudosd run.runId, "hash_upload"⟩,
      { entry with
        source := "cloudosd_autopilot_readiness"
        phaseLabel := "Hash upload"
        state := state
        startedAt := (r.uploadStartedAt.or run.firstHeartbeatAt).getD run.createdAt
        endedAt := endedAt
        lastProgressAt := some ((r.uploadFinishedAt.or r.uploadStartedAt).getD run.updatedAt)
        error := error })

def syncCloudosd : List Recorded :=
  ((newest CloudOsdRun.createdAt t.cloudosdRuns).take 500).flatMap (CloudOsdRun.recorded t)

/-- What `sync_from_sources` records, in order. -/
def recorded : List Recorded :=
  syncJobs t ++ (syncLegacyRuns title t ++ (syncTsRuns title t ++ (syncAgentWork title t ++ syncCloudosd t)))

/-- The writes of a sync, each with the clock as it stands. -/
def writesFrom (stamps : Nat → Int) : Nat → List Recorded → List (Write PhaseId)
  | _, [] => []
  | k, r :: rest => ⟨r.1, r.2, stamps k⟩ :: writesFrom stamps (k + 1) rest

/-- `sync_from_sources` on the stored rows; none where it raises, which leaves them. -/
def syncFromSources (stamps : Nat → Int) (store : Store PhaseId) : Option (Store PhaseId) :=
  putAll (writesFrom stamps 0 (recorded title t)) store

end

end ProxmoxVEAutopilot.Health
