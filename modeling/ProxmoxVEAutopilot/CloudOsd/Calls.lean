import ProxmoxVEAutopilot.CloudOsd.Runs

/-!
# The calls on a CloudOSD run

Each call as a program of readings and committed transactions. A call reads the clock
several times; one time stands for them. What a call reads of another table (the latest
heartbeat of the run) comes with it.
-/

namespace ProxmoxVEAutopilot.CloudOsd

open Foundation TsEngine
set_option autoImplicit false

abbrev CloudProgram := Program Action Deployment

section Programs
variable (py : Texts) (now : Time)

def appendEvent (e : RunEvent) : CloudProgram := .one (.appendEvent e now)

/-- `ts_engine_pg.mark_steps_done_by_kind` with the arguments of `sync_ts_progress_for_run`. -/
def markDoneCall (kinds : List String) : TsEngine.Call where
  op := .markDone kinds "cloudosd-controller" (some "OSDCloud lifecycle evidence advanced this v2 run step")
    (.obj [("source", .str "cloudosd_lifecycle")])
  now := now

def syncTsProgressForRun : CloudProgram :=
  .act .read fun d => .one (.engine (markDoneCall now (doneKinds py d)))

def setRunIdentity (body : RunIdentityBody) : CloudProgram :=
  .act (.recordIdentity body now) fun d =>
    let run := (recordIdentity d body now).run
    appendEvent now {
      phase := "controller"
      eventType := "identity_recorded"
      message := some "OSDCloud VM identity recorded"
      data := .obj [("vmid", .int body.vmid), ("vm_uuid", textJson run.vmUuid), ("mac", textJson run.mac),
        ("computer_name", .str ((given run.pveVmName).getD run.vmName))] }

/-- The `WHERE` clause of `find_run_by_identity`; `NULL` equals nothing. -/
def identifiedBy (d : Deployment) (body : PeRegisterBody) : Bool :=
  d.run.vmUuid.isSome && d.run.mac.isSome &&
    d.run.vmUuid == normalizeUuid body.vmUuid && d.run.mac == normalizeMac body.mac &&
    d.run.architecture == body.architecture && body.buildSha.all (· == d.run.buildSha) &&
    (d.run.state == .awaitingPe || d.run.state == .created || d.run.state == .peRegistered)

/-- `pe_register` as far as it finds this run: a newer run with the same identity hides it. -/
def peRegister (body : PeRegisterBody) : CloudProgram :=
  .act .read fun d =>
    if identifiedBy d body then
      .act (.markPeRegistered now) fun _ =>
        appendEvent now {
          phase := "pe", eventType := "pe_registered", message := some "OSDCloud PE bridge registered" }
    else .done

/-- The gate of a heartbeat: the plan is read, then the run written. -/
def completionGate (domainJoin : DomainJoin) (heartbeatAt : Time) (heartbeat : Option Heartbeat) :
    CloudProgram :=
  .act .read fun d =>
    let status := v2CompletionStatus d.ts.steps domainJoin
    if !status.ready then
      appendEvent now {
        phase := "full_os"
        eventType := "cloudosd_v2_waiting"
        message := some "Waiting for AutopilotAgent v2 full-OS steps before OSDCloud completion"
        data := status.data }
    else
      .act (.complete heartbeatAt heartbeat now) fun d =>
        if d.run.state = .failed then .done
        else appendEvent now {
          phase := "full_os"
          eventType := "cloudosd_v2_completion_gate_satisfied"
          message := some "AutopilotAgent v2 full-OS steps and heartbeat gate are complete"
          data := status.data }

def heartbeatEvent (heartbeatAt : Time) : RunEvent where
  phase := "full_os"
  eventType := "autopilotagent_heartbeat"
  message := some "AutopilotAgent heartbeat observed for OSDCloud run"
  data := .obj [("first_heartbeat_at", .int heartbeatAt)]

def markCompleteFromHeartbeat (heartbeatAt : Time) (heartbeat : Option Heartbeat) : CloudProgram :=
  .act .read fun current =>
    if current.run.state = .failed then .done
    else
      let domainJoin := sanitizeDomainJoin py current.run.domainJoin none
      let verification := domainJoinVerification py domainJoin heartbeat
      if domainJoin.enabled && !verification.isMatched then
        .act (.observeHeartbeat .fullOsWaitingDomainJoin heartbeatAt now) fun d =>
          if d.run.state = .failed then .done
          else
            ((appendEvent now (heartbeatEvent heartbeatAt)).seq (appendEvent now {
              phase := "domain_join"
              eventType := "domain_join_pending"
              severity := "warning"
              message := some
                "Waiting for AutopilotAgent heartbeat to report expected AD domain membership"
              data := verification.data })).seq
            (syncTsProgressForRun py now)
      else
        .act (.observeHeartbeat .fullOsWaitingV2 heartbeatAt now) fun d =>
          if d.run.state = .failed then .done
          else
            ((appendEvent now (heartbeatEvent heartbeatAt)).seq (syncTsProgressForRun py now)).seq
            (completionGate now domainJoin heartbeatAt heartbeat)

/-- The endpoint of the PE's events. -/
def postEvent (e : RunEvent) : CloudProgram :=
  (appendEvent now e).seq
    ((if e.eventType = "osdcloud_start" then .one (.markOsdcloudStarted now)
      else if e.eventType = "cloudosd_pe_complete" then .one (.markOsdcloudFinished now)
      else .done : CloudProgram).seq
    ((if lower e.severity = "error" then .one (.markFailed ((given e.message).or (some e.eventType)) now)
      else .done : CloudProgram).seq
    (syncTsProgressForRun py now)))

/-- The endpoint that reads one run, with the heartbeat it finds. -/
def getRun (latest : Option (Time × Heartbeat)) : CloudProgram :=
  .act .read fun d =>
    (match latest with
      | some (heartbeatAt, heartbeat) =>
        if d.run.state ≠ .complete then markCompleteFromHeartbeat py now heartbeatAt (some heartbeat) else .done
      | none => .done : CloudProgram).seq
    (syncTsProgressForRun py now)

def archive (reason : String) : CloudProgram :=
  (Program.one (.archive "operator" reason now)).seq (appendEvent now {
    phase := "controller"
    eventType := "run_archived"
    message := some "CloudOSD run hidden from default history"
    data := .obj [("reason", .str reason)] })

def unarchive : CloudProgram :=
  (Program.one (.unarchive now)).seq (appendEvent now {
    phase := "controller"
    eventType := "run_unarchived"
    message := some "CloudOSD run restored to default history" })

/-- `_archive_runs_bulk` for a run: `WHERE archived_at IS NULL AND state = … AND updated_at <= …`,
the times in seconds. -/
def archiveRunsBulk (state : CloudState) (olderThanHours : Nat) (reason eventType : String) : CloudProgram :=
  .act .read fun d =>
    if d.run.archivedAt.isNone ∧ d.run.state = state ∧ d.run.updatedAt + olderThanHours * 3600 ≤ now then
      (Program.one (.archive "operator" reason now)).seq (appendEvent now {
        phase := "controller"
        eventType := eventType
        message := some "CloudOSD run hidden from default history"
        data := .obj [("reason", .str reason), ("bulk", .bool true)] })
    else .done

/-- `max(1, int(older_than_hours or default))`. -/
def atLeastOneHour (olderThanHours default : Int) : Nat :=
  (max 1 (if olderThanHours = 0 then default else olderThanHours)).toNat

def archiveStaleFailedRuns (olderThanHours : Int) : CloudProgram :=
  archiveRunsBulk now .failed (atLeastOneHour olderThanHours 12) "stale failed CloudOSD run"
    "stale_failed_runs_archived"

def archiveCompletedOldRuns (olderThanHours : Int) : CloudProgram :=
  archiveRunsBulk now .complete (atLeastOneHour olderThanHours 24)
    "completed CloudOSD run hidden from default history" "completed_old_runs_archived"

/-- The kinds and events of `_sync_cloudosd_after_step_result`. -/
def stepResultEvent (kind : String) : Option RunEvent :=
  if kind = "capture_autopilot_hash" then
    some {
      phase := "AutopilotAgent"
      eventType := "autopilotagent_v2_hash_capture_complete"
      message := some "AutopilotAgent v2 reported Autopilot hardware hash capture complete" }
  else if kind = "wait_agent_heartbeat" then
    some {
      phase := "AutopilotAgent"
      eventType := "autopilotagent_v2_heartbeat_confirmed"
      message := some "AutopilotAgent v2 confirmed full-OS heartbeat" }
  else if kind = "verify_ad_domain_join" then
    some {
      phase := "domain_join"
      eventType := "domain_join_verified"
      message := some "AD domain membership verified by AutopilotAgent v2" }
  else none

def mergeFields (base : List (String × Json)) : Json → Json
  | .obj fields => .obj (base.map (fun p => (p.1, (fields.lookup p.1).getD p.2)) ++
      fields.filter fun p => !(base.map Prod.fst).contains p.1)
  | _ => .obj base

def syncCloudosdAfterStepResult (step : PlanStep) (body : StepResultBody)
    (latest : Option (Time × Heartbeat)) : CloudProgram :=
  if body.status ≠ "success" then .done
  else
    match stepResultEvent step.plan.kind with
    | none => .done
    | some e =>
      (appendEvent now { e with
        message := (given body.message).or e.message
        data := mergeFields [("step_id", .str (py.str step.id)), ("agent_id", .str body.agentId)] body.data }).seq
      (match latest with
        | none => .done
        | some (heartbeatAt, heartbeat) => markCompleteFromHeartbeat py now heartbeatAt (some heartbeat))

def postStepResult (stepId : Uuid) (body : StepResultBody) (latest : Option (Time × Heartbeat)) :
    CloudProgram :=
  .act .read fun d =>
    match d.ts.steps.get? stepId with
    | none => .done
    | some step =>
      if !step.inPhase body.phase then .done
      else
        .act (.engine (resultCall stepId body now)) fun _ =>
          syncCloudosdAfterStepResult py now step body latest

def agentOperatorRetryKinds : List String :=
  ["capture_autopilot_hash", "join_domain_role", "verify_ad_domain_join"]

def requeueMessage (step : PlanStep) : String := "Operator requeued OSDCloud v2 step " ++ step.plan.kind

def requeueCall (step : PlanStep) (requestedBy : String) : TsEngine.Call where
  op := .requeue step.id requestedBy (some (requeueMessage step))
  now := now

def requeueAgentV2Step (stepId : Uuid) (requestedBy : String) : CloudProgram :=
  .act .read fun d =>
    match d.ts.steps.get? stepId with
    | none => .done
    | some step =>
      if step.plan.phase ≠ "full_os" ∨ step.plan.kind ∉ agentOperatorRetryKinds then .done
      else
        .act (.engine (requeueCall now step requestedBy)) fun d =>
          match requeueStep d.ts step.id requestedBy (some (requeueMessage step)) now with
          | .error _ => .done
          | .ok _ =>
            ((Program.one (.waitForV2 now)).seq (appendEvent now {
              phase := if step.plan.kind = "verify_ad_domain_join" then "domain_join" else "AutopilotAgent"
              eventType := "cloudosd_v2_step_requeued"
              severity := "warning"
              message := some ("Operator requeued " ++ step.plan.kind)
              data := .obj [("step_id", .str (py.str step.id)), ("kind", .str step.plan.kind),
                ("requested_by", .str requestedBy)] })).seq
            (syncTsProgressForRun py now)

end Programs

/-- What the controller and the PE ask of a run. -/
inductive Call where
  | setRunIdentity (body : RunIdentityBody)
  | peRegister (body : PeRegisterBody)
  | postEvent (e : RunEvent)
  | appendEvent (e : RunEvent)
  | markCompleteFromHeartbeat (heartbeatAt : Time) (heartbeat : Option Heartbeat)
  | getRun (latest : Option (Time × Heartbeat))
  | syncTsProgress
  | archive (reason : String)
  | unarchive
  | archiveStaleFailedRuns (olderThanHours : Int)
  | archiveCompletedOldRuns (olderThanHours : Int)

/-- What else reaches the run: step reports, operator retries, and the engine's own
transactions behind claims, registrations and the controllers' step executors. -/
inductive Request where
  | call (c : Call)
  | postStepResult (stepId : Uuid) (body : StepResultBody) (latest : Option (Time × Heartbeat))
  | retryV2Step (stepId : Uuid)
  | engine (op : TsEngine.Op)

def Call.program (py : Texts) (c : Call × Time) : CloudProgram :=
  match c.1 with
  | .setRunIdentity body => CloudOsd.setRunIdentity c.2 body
  | .peRegister body => CloudOsd.peRegister c.2 body
  | .postEvent e => CloudOsd.postEvent py c.2 e
  | .appendEvent e => CloudOsd.appendEvent c.2 e
  | .markCompleteFromHeartbeat heartbeatAt heartbeat =>
    CloudOsd.markCompleteFromHeartbeat py c.2 heartbeatAt heartbeat
  | .getRun latest => CloudOsd.getRun py c.2 latest
  | .syncTsProgress => syncTsProgressForRun py c.2
  | .archive reason => CloudOsd.archive c.2 reason
  | .unarchive => CloudOsd.unarchive c.2
  | .archiveStaleFailedRuns olderThanHours => CloudOsd.archiveStaleFailedRuns c.2 olderThanHours
  | .archiveCompletedOldRuns olderThanHours => CloudOsd.archiveCompletedOldRuns c.2 olderThanHours

def Request.program (py : Texts) (q : Request × Time) : CloudProgram :=
  match q.1 with
  | .call c => Call.program py (c, q.2)
  | .postStepResult stepId body latest => CloudOsd.postStepResult py q.2 stepId body latest
  | .retryV2Step stepId => requeueAgentV2Step py q.2 stepId "operator"
  | .engine op => .one (.engine ⟨op, q.2⟩)

end ProxmoxVEAutopilot.CloudOsd
