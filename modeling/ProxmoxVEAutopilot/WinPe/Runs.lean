import ProxmoxVEAutopilot.Foundation.Json
import ProxmoxVEAutopilot.Foundation.Table
import ProxmoxVEAutopilot.Foundation.Text

/-!
# Legacy WinPE runs

`provisioning_runs`, `provisioning_run_steps` and the endpoints that write them. Every
`append_run_step` is a transaction of its own, so a registration that fails leaves the
steps it has inserted.
-/

namespace ProxmoxVEAutopilot.WinPe

open Foundation
set_option autoImplicit false

abbrev Time := Nat

inductive RunState where
  | queued
  | awaitingWinpe
  | awaitingWindowsSetup
  | awaitingOsdClient
  | awaitingSpecialize
  | done
  | failed
deriving DecidableEq, Repr

def RunState.text : RunState → String
  | .queued => "queued"
  | .awaitingWinpe => "awaiting_winpe"
  | .awaitingWindowsSetup => "awaiting_windows_setup"
  | .awaitingOsdClient => "awaiting_osd_client"
  | .awaitingSpecialize => "awaiting_specialize"
  | .done => "done"
  | .failed => "failed"

def RunState.terminal : RunState → Bool
  | .done | .failed => true
  | _ => false

/-- The states `sweep_stale_runs` looks at. -/
def RunState.swept : RunState → Bool
  | .awaitingWinpe | .awaitingWindowsSetup | .awaitingOsdClient | .awaitingSpecialize => true
  | _ => false

inductive Phase where
  | winpe
  | osd
deriving DecidableEq, Repr

inductive StepState where
  | pending
  | running
  | ok
  | error
deriving DecidableEq, Repr

def StepState.text : StepState → String
  | .pending => "pending"
  | .running => "running"
  | .ok => "ok"
  | .error => "error"

structure Action where
  kind : String
  params : Json := .obj []
deriving DecidableEq

/-- An action of an answer, with the step it was stored as. -/
structure HandedAction extends Action where
  stepId : Nat
deriving DecidableEq

structure ProvisioningRun where
  id : Nat
  sequenceId : Nat
  state : RunState := .queued
  vmid : Option Int := none
  vmUuid : Option String := none
  startedAt : Time := 0
  finishedAt : Option Time := none
  lastError : Option String := none

structure RunStep where
  id : Nat
  runId : Nat
  orderIndex : Int
  phase : Phase
  action : Action
  state : StepState := .pending
  startedAt : Option Time := none
  finishedAt : Option Time := none
  error : Option String := none

/-- The columns of `task_sequences` that `compile_winpe` reads. -/
structure Sequence where
  producesAutopilotHash : Bool := false
  hashCapturePhase : String := ""

/-- The tables; `drawn` step ids were taken from their sequence. -/
structure WinpeDb where
  runs : List ProvisioningRun
  steps : List RunStep := []
  drawn : Nat := 0

structure HttpError where
  statusCode : Nat
  detail : String
deriving DecidableEq, Repr

/-- What FastAPI answers when an exception leaves an endpoint. -/
def internalError : HttpError := ⟨500, "Internal Server Error"⟩

def runNotFound : HttpError := ⟨404, "run not found"⟩

def compileWinpe (sequence : Sequence) : List Action :=
  (if sequence.producesAutopilotHash && sequence.hashCapturePhase == "winpe" then
    [{ kind := "capture_hash" }] else []) ++
  [ { kind := "partition_disk", params := .obj [("layout", .str "recovery_before_c")] },
    { kind := "apply_wim"
      params := .obj [("image_index_metadata_name", .str "Windows 11 Enterprise")] },
    { kind := "apply_driver_package"
      params := .obj
        [ ("architecture", .str "amd64"),
          ("required_infs", .arr [.str "vioscsi.inf", .str "viostor.inf", .str "netkvm.inf",
            .str "vioser.inf", .str "balloon.inf"]),
          ("optional", .bool true)] },
    { kind := "prepare_windows_setup" }, { kind := "stage_osd_client" },
    { kind := "bake_boot_entry" }, { kind := "handoff_to_windows_setup" }]

def defaultOsdActions : List Action :=
  [ { kind := "install_qga" }, { kind := "fix_recovery_partition" }, { kind := "verify_qga" },
    { kind := "install_qga_watchdog"
      params := .obj [("task_interval_minutes", .int 5), ("restart_interval_minutes", .int 10)] },
    { kind := "capture_autopilot_hash" }, { kind := "handoff_to_oobe" }]

def requiredOsdCompletionKinds : List String :=
  ["install_qga", "fix_recovery_partition", "verify_qga", "install_qga_watchdog",
    "capture_autopilot_hash", "handoff_to_oobe"]

def defaultOsdOrder : List String := defaultOsdActions.map Action.kind

section Store
variable (db : WinpeDb)

def getProvisioningRun (runId : Nat) : Option ProvisioningRun := db.runs.find? fun r => r.id = runId

def normalizeUuid (vmUuid : String) : String := lower (strip vmUuid)

/-- `ORDER BY id DESC LIMIT 1` of the rows that satisfy the condition. -/
def latestRun (p : ProvisioningRun → Bool) : Option ProvisioningRun :=
  ((db.runs.filter p).insertionSort fun a b => b.id ≤ a.id).head?

def findRunByUuidState (vmUuid : String) (state : RunState) : Option ProvisioningRun :=
  latestRun db fun r => r.vmUuid == some (normalizeUuid vmUuid) && r.state == state

def getLatestRunStateByUuid (vmUuid : String) : Option RunState :=
  (latestRun db fun r => r.vmUuid == some (normalizeUuid vmUuid)).map ProvisioningRun.state

def stepsOf (runId : Nat) : List RunStep := db.steps.filter fun s => s.runId = runId

/-- `list_run_steps`, ordered by `order_index`. -/
def listRunSteps (runId : Nat) : List RunStep :=
  (stepsOf db runId).insertionSort fun a b => a.orderIndex ≤ b.orderIndex

def getRunStep (stepId : Nat) : Option RunStep := db.steps.find? fun s => s.id = stepId

/-- `COALESCE(MAX(order_index) + 1, 0)`. -/
def nextOrder (runId : Nat) : Int :=
  (((stepsOf db runId).map RunStep.orderIndex).max?.map (· + 1)).getD 0

theorem mem_stepsOf {db : WinpeDb} {runId : Nat} {s : RunStep} :
    s ∈ stepsOf db runId ↔ s ∈ db.steps ∧ s.runId = runId := by
  simp [stepsOf]

theorem lt_nextOrder {db : WinpeDb} {runId : Nat} {s : RunStep} (hs : s ∈ stepsOf db runId) :
    s.orderIndex < nextOrder db runId := by
  have hmem : s.orderIndex ∈ (stepsOf db runId).map RunStep.orderIndex := List.mem_map_of_mem hs
  unfold nextOrder
  cases hmax : ((stepsOf db runId).map RunStep.orderIndex).max? with
  | none =>
    rw [List.max?_eq_none_iff.mp hmax] at hmem
    cases hmem
  | some m =>
    have hle : s.orderIndex ≤ m := (List.max?_eq_some_iff.mp hmax).2 _ hmem
    simp only [Option.map_some, Option.getD_some]
    omega

end Store

section Updates
variable (db : WinpeDb)

def setProvisioningRunIdentity (runId : Nat) (vmid : Int) (vmUuid : String) : WinpeDb :=
  { db with runs := Table.modify ProvisioningRun.id db.runs runId fun r =>
      if r.state = .queued then
        { r with vmid := some vmid, vmUuid := some (normalizeUuid vmUuid), state := .awaitingWinpe }
      else r }

def updateProvisioningRunState (runId : Nat) (state : RunState) (lastError : Option String) (now : Time) :
    WinpeDb :=
  { db with runs := Table.modify ProvisioningRun.id db.runs runId fun r =>
      { r with
        state := state
        lastError := lastError
        finishedAt := if state.terminal then some now else r.finishedAt } }

/-- The row `append_run_step` inserts at `orderIndex`. -/
def newStep (runId : Nat) (phase : Phase) (orderIndex : Int) (action : Action) : RunStep where
  id := db.drawn + 1
  runId := runId
  orderIndex := orderIndex
  phase := phase
  action := action

def insertStep (step : RunStep) : WinpeDb :=
  { db with steps := db.steps ++ [step], drawn := db.drawn + 1 }

def appendRunStep (runId : Nat) (phase : Phase) (action : Action) : WinpeDb × RunStep :=
  let step := newStep db runId phase (nextOrder db runId) action
  (insertStep db step, step)

def RunStep.handed (s : RunStep) : HandedAction := { s.action with stepId := s.id }

/-- A loop of `append_run_step` calls. -/
def appendRunSteps (runId : Nat) (phase : Phase) : List Action → WinpeDb → WinpeDb × List HandedAction
  | [], db => (db, [])
  | action :: rest, db =>
    let (db', step) := appendRunStep db runId phase action
    let (db'', out) := appendRunSteps runId phase rest db'
    (db'', step.handed :: out)

def updateRunStepState (stepId : Nat) (update : RunStep → RunStep) : WinpeDb :=
  { db with steps := Table.modify RunStep.id db.steps stepId update }

def RunStep.start (now : Time) (s : RunStep) : RunStep :=
  { s with state := .running, startedAt := s.startedAt.or (some now), finishedAt := none, error := none }

def RunStep.finish (state : StepState) (error : Option String) (now : Time) (s : RunStep) : RunStep :=
  { s with state := state, finishedAt := some now, error := error }

end Updates

section Reorder

/-- `order.get(kind, len(order))`. -/
def kindRank (orderedKinds : List String) (kind : String) : Nat := orderedKinds.idxOf kind

def reorderLe (orderedKinds : List String) (a b : RunStep) : Prop :=
  kindRank orderedKinds a.action.kind < kindRank orderedKinds b.action.kind ∨
    kindRank orderedKinds a.action.kind = kindRank orderedKinds b.action.kind ∧ a.orderIndex ≤ b.orderIndex

instance (orderedKinds : List String) : DecidableRel (reorderLe orderedKinds) :=
  fun _ _ => inferInstanceAs (Decidable (_ ∨ _))

/-- One pass of `UPDATE … SET order_index = %s WHERE id = %s`. -/
def renumber (index : Nat → Int) (sorted : List RunStep) (steps : List RunStep) : List RunStep :=
  sorted.zipIdx.foldl (fun steps p =>
    Table.modify RunStep.id steps p.1.id fun s => { s with orderIndex := index p.2 }) steps

def reorderRunPhaseSteps (db : WinpeDb) (runId : Nat) (phase : Phase) (orderedKinds : List String) : WinpeDb :=
  let rows := (listRunSteps db runId).filter fun s => s.phase = phase
  match (rows.map RunStep.orderIndex).min? with
  | none => db
  | some base =>
    let sorted := rows.insertionSort (reorderLe orderedKinds)
    { db with steps := renumber (fun i => base + i) sorted (renumber (fun i => -(i + 1)) sorted db.steps) }

end Reorder

section Endpoints
variable (db : WinpeDb)

/-- `post_identity`; `allowed` is the answer of `_check_identity_caller`. -/
def postIdentity (allowed : Bool) (runId : Nat) (vmid : Int) (vmUuid : String) : Except HttpError WinpeDb :=
  if !allowed then .error ⟨403, "caller not allowed"⟩
  else
    match getProvisioningRun db runId with
    | none => .error runNotFound
    | some run => .ok (if run.state = .queued then setProvisioningRunIdentity db runId vmid vmUuid else db)

/-- What is inserted before an exception after `stop` inserts; `none` for no exception. -/
def cut (stop : Option Nat) (actions : List Action) : List Action :=
  match stop with
  | none => actions
  | some n => actions.take n

/-- `_build_actions_for_run` and `_build_osd_actions_for_run`. -/
def buildActions (stop : Option Nat) (runId : Nat) (phase : Phase) (actions : List Action) :
    WinpeDb × Except HttpError (List HandedAction) :=
  let (db', out) := appendRunSteps runId phase (cut stop actions) db
  (db', if stop.isSome then .error internalError else .ok out)

def unfinished (steps : List RunStep) : List HandedAction :=
  (steps.filter fun s => s.state ≠ .ok).map RunStep.handed

/-- What `post_register` answers when no run with the UUID awaits WinPE. -/
def noAwaitingRun (vmUuid : String) : HttpError :=
  match getLatestRunStateByUuid db vmUuid with
  | none => ⟨404, "no run for vm_uuid"⟩
  | some state => ⟨409, "run state is '" ++ state.text ++ "', expected awaiting_winpe"⟩

/-- `post_register`; `sequences` are the stored sequences, and a run refers to one. -/
def postRegister (sequences : Nat → Sequence) (stop : Option Nat) (vmUuid : String) :
    WinpeDb × Except HttpError (List HandedAction) :=
  match findRunByUuidState db vmUuid .awaitingWinpe with
  | none => (db, .error (noAwaitingRun db vmUuid))
  | some run =>
    let existing := listRunSteps db run.id
    if existing.isEmpty then
      buildActions db stop run.id .winpe (compileWinpe (sequences run.sequenceId))
    else (db, .ok (unfinished existing))

structure StepResultBody where
  state : String
  error : Option String := none

/-- What both result endpoints do with a step they accept. -/
def recordResult (label : String) (step : RunStep) (body : StepResultBody) (now : Time) :
    Except HttpError WinpeDb :=
  if body.state = "running" then .ok (updateRunStepState db step.id (·.start now))
  else if body.state = "ok" then .ok (updateRunStepState db step.id (·.finish .ok none now))
  else if body.state = "error" then
    .ok (updateProvisioningRunState
      (updateRunStepState db step.id (·.finish .error (some (body.error.getD "")) now))
      step.runId .failed
      (some (label ++ step.action.kind ++ ": " ++ (orElse body.error (some "unknown")).getD "")) now)
  else .error ⟨400, "bad state: " ++ body.state⟩

/-- `post_step_result`; `tokenRun` is the run of the bearer token. -/
def postStepResult (tokenRun stepId : Nat) (body : StepResultBody) (now : Time) : Except HttpError WinpeDb :=
  match getRunStep db stepId with
  | none => .error ⟨404, "step not found"⟩
  | some step =>
    if step.runId ≠ tokenRun then .error ⟨403, "token/run mismatch"⟩
    else recordResult db "step " step body now

def postOsdStepResult (tokenRun stepId : Nat) (body : StepResultBody) (now : Time) : Except HttpError WinpeDb :=
  match getRunStep db stepId with
  | none => .error ⟨404, "step not found"⟩
  | some step =>
    if step.runId ≠ tokenRun then .error ⟨403, "token/run mismatch"⟩
    else if step.phase ≠ .osd then .error ⟨409, "step is not an OSD step"⟩
    else recordResult db "osd step " step body now

/-- `post_done`; `detached` tells whether Proxmox takes the new boot order. -/
def postDone (tokenRun : Nat) (detached : Bool) (now : Time) : Except HttpError WinpeDb :=
  match getProvisioningRun db tokenRun with
  | none => .error runNotFound
  | some run =>
    if run.vmid.isNone then .error ⟨409, "run identity not set"⟩
    else if run.state ≠ .awaitingWinpe then .ok db
    else if !detached then .error internalError
    else .ok (updateProvisioningRunState db run.id .awaitingWindowsSetup none now)

def osdSteps (runId : Nat) : List RunStep := (listRunSteps db runId).filter fun s => s.phase = .osd

/-- `_ensure_osd_actions_for_run`. -/
def ensureOsdActions (stop : Option Nat) (runId : Nat) : WinpeDb × Except HttpError (List HandedAction) :=
  let existing := osdSteps db runId
  if existing.isEmpty then buildActions db stop runId .osd defaultOsdActions
  else
    let missing := defaultOsdActions.filter fun a => !(existing.map fun s => s.action.kind).contains a.kind
    let (db', _) := appendRunSteps runId .osd (cut stop missing) db
    if stop.isSome then (db', .error internalError)
    else
      let db'' := reorderRunPhaseSteps db' runId .osd defaultOsdOrder
      (db'', .ok (unfinished (osdSteps db'' runId)))

def postOsdRegister (stop : Option Nat) (tokenRun : Nat) (now : Time) :
    WinpeDb × Except HttpError (List HandedAction) :=
  match getProvisioningRun db tokenRun with
  | none => (db, .error runNotFound)
  | some run =>
    match run.state with
    | .awaitingWindowsSetup =>
      ensureOsdActions (updateProvisioningRunState db tokenRun .awaitingOsdClient none now) stop tokenRun
    | .awaitingOsdClient => ensureOsdActions db stop tokenRun
    | .done => (db, .ok [])
    | state => (db, .error ⟨409, "run state is '" ++ state.text ++
        "', expected awaiting_windows_setup or awaiting_osd_client"⟩)

def postOsdComplete (tokenRun : Nat) (now : Time) : Except HttpError WinpeDb :=
  match getProvisioningRun db tokenRun with
  | none => .error runNotFound
  | some run =>
    if run.state.terminal then .ok db
    else if run.state ≠ .awaitingWindowsSetup ∧ run.state ≠ .awaitingOsdClient then
      .error ⟨409, "run state is '" ++ run.state.text ++ "', expected OSD client state"⟩
    else
      let steps := osdSteps db tokenRun
      let incomplete := steps.filter fun s => s.state ≠ .ok
      let missing := requiredOsdCompletionKinds.filter fun k => !(steps.map fun s => s.action.kind).contains k
      let handoff := steps.filter fun s => s.action.kind = "handoff_to_oobe"
      if steps.isEmpty then .error ⟨409, "OSD client cannot complete before registering steps"⟩
      else if !incomplete.isEmpty then
        .error ⟨409, "OSD client cannot complete with incomplete steps: " ++
          ", ".intercalate (incomplete.map fun s => s.action.kind ++ "=" ++ s.state.text)⟩
      else if !missing.isEmpty then
        .error ⟨409, "OSD client cannot complete before required steps are ok: " ++
          ", ".intercalate (missing.insertionSort (· ≤ ·))⟩
      else if handoff.getLast?.any fun s => s.state = .ok then
        .ok (updateProvisioningRunState db tokenRun .done none now)
      else .error ⟨409, "OSD client cannot complete before handoff_to_oobe is ok"⟩

/-- `post_run_fail` and `post_run_complete`. -/
def postRunOutcome (runId : Nat) (state : RunState) (lastError : Option String) (now : Time) :
    Except HttpError WinpeDb :=
  match getProvisioningRun db runId with
  | none => .error runNotFound
  | some run =>
    .ok (if run.state.terminal then db else updateProvisioningRunState db runId state lastError now)

def postRunFail (runId : Nat) (reason : String) (now : Time) : Except HttpError WinpeDb :=
  postRunOutcome db runId .failed (some reason) now

def postRunComplete (runId : Nat) (now : Time) : Except HttpError WinpeDb :=
  postRunOutcome db runId .done none now

/-- The run has a running step, and the last one was started before the cutoff. -/
def stale (cutoff : Time) (r : ProvisioningRun) : Bool :=
  r.state.swept &&
    (((stepsOf db r.id).filter fun s => s.state = .running).filterMap RunStep.startedAt).max?.any (· < cutoff)

/-- `sweep_stale_runs`; `cutoff` is `ttl_seconds` before now. -/
def sweepStaleRuns (ttlSeconds : Nat) (cutoff now : Time) : WinpeDb :=
  { db with
    runs := db.runs.map fun r =>
      if stale db cutoff r then
        { r with
          state := .failed
          lastError := some ("stale; no step update for >" ++ toString (ttlSeconds / 60) ++ " min")
          finishedAt := some now }
      else r
    steps := db.steps.map fun s =>
      if s.state = .running ∧ db.runs.any (fun r => r.id = s.runId && stale db cutoff r) then
        s.finish .error (some "stale: agent silent") now
      else s }

end Endpoints

inductive Call where
  | identity (allowed : Bool) (runId : Nat) (vmid : Int) (vmUuid : String)
  | register (stop : Option Nat) (vmUuid : String)
  | stepResult (tokenRun stepId : Nat) (body : StepResultBody)
  | winpeDone (tokenRun : Nat) (detached : Bool)
  | osdRegister (stop : Option Nat) (tokenRun : Nat)
  | osdStepResult (tokenRun stepId : Nat) (body : StepResultBody)
  | osdComplete (tokenRun : Nat)
  | runFail (runId : Nat) (reason : String)
  | runComplete (runId : Nat)
  | sweep (ttlSeconds : Nat) (cutoff : Time)

/-- A refused request changes nothing. -/
def answered (db : WinpeDb) (result : Except HttpError WinpeDb) : WinpeDb :=
  match result with
  | .ok db' => db'
  | .error _ => db

def exec (sequences : Nat → Sequence) (db : WinpeDb) (c : Call × Time) : WinpeDb :=
  match c.1 with
  | .identity allowed runId vmid vmUuid => answered db (postIdentity db allowed runId vmid vmUuid)
  | .register stop vmUuid => (postRegister db sequences stop vmUuid).1
  | .stepResult tokenRun stepId body => answered db (postStepResult db tokenRun stepId body c.2)
  | .winpeDone tokenRun detached => answered db (postDone db tokenRun detached c.2)
  | .osdRegister stop tokenRun => (postOsdRegister db stop tokenRun c.2).1
  | .osdStepResult tokenRun stepId body => answered db (postOsdStepResult db tokenRun stepId body c.2)
  | .osdComplete tokenRun => answered db (postOsdComplete db tokenRun c.2)
  | .runFail runId reason => answered db (postRunFail db runId reason c.2)
  | .runComplete runId => answered db (postRunComplete db runId c.2)
  | .sweep ttlSeconds cutoff => sweepStaleRuns db ttlSeconds cutoff c.2

end ProxmoxVEAutopilot.WinPe
