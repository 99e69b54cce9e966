import ProxmoxVEAutopilot.TsEngine.Create

/-!
# The operations of the engine

Each function is one transaction on one run. A call that raises is rolled back, so it
leaves the rows as they were.
-/

namespace ProxmoxVEAutopilot.TsEngine

open Foundation
set_option autoImplicit false

inductive Status where
  | success
  | skipped
  | rebootRequired
  | failed
  | other (text : String)
deriving DecidableEq, Repr

inductive EngineError where
  | stepNotFound (stepId : Uuid)
  | onlyFailedRequeued (stepId : Uuid)
  | notAwaitingReboot (stepId : Uuid)
  | unsupportedStatus (text : String)
deriving DecidableEq, Repr

/-- The text of the `ValueError`; `str` prints an id. -/
def EngineError.text (str : Uuid → String) : EngineError → String
  | stepNotFound id => "step not found for run: " ++ str id
  | onlyFailedRequeued id => "only failed steps can be requeued: " ++ str id
  | notAwaitingReboot id => "step is not awaiting reboot: " ++ str id
  | unsupportedStatus text => "unsupported step status: " ++ text

structure ClaimRequest where
  phase : String
  agentId : String
  supportedKinds : List String := []
  allowRunning : Bool := false
deriving DecidableEq, Repr

/-- `run.state NOT IN ('done', 'failed', 'canceled')`. -/
def RunState.isOpen (s : RunState) : Bool := !(s == .done || s == .failed || s == .canceled)

/-- `sorted({str(kind) for kind in kinds if str(kind)})`; only membership is read. -/
def normalizeKinds (kinds : List String) : List String := kinds.filter fun k => k != ""

/-- The condition on `prev` inside `NOT EXISTS`, its ordinal apart. -/
def blocks (q : ClaimRequest) (prev : PlanStep) : Bool :=
  prev.inPhase q.phase &&
    (prev.state == .pending || prev.state == .awaitingReboot || prev.state == .failed ||
      (prev.state == .running && (!q.allowRunning || prev.claimedBy.getD "" != q.agentId)))

def supports (kinds : List String) (r : PlanStep) : Bool :=
  (normalizeKinds kinds).isEmpty || (normalizeKinds kinds).contains r.plan.kind

/-- The `WHERE` clause on the step, `prevs` being the rows the subquery reads. -/
def claimable (prevs : List PlanStep) (q : ClaimRequest) (r : PlanStep) : Bool :=
  r.state == .pending && r.inPhase q.phase && supports q.supportedKinds r &&
    !(prevs.any fun prev => decide (prev.plan.ordinal < r.plan.ordinal) && blocks q prev)

/-- The row the `SELECT` returns; rows stand in the order of their ordinals. -/
def nextClaim (db : RunDb) (q : ClaimRequest) : Option PlanStep :=
  if db.run.state.isOpen then db.steps.rows.find? (claimable db.steps.rows q) else none

def claimedProgress (q : ClaimRequest) (now : Time) (p : StepProgress) : StepProgress :=
  { p with
    state := .running
    attempt := p.attempt + 1
    claimedBy := some q.agentId
    claimedAt := some now
    startedAt := p.startedAt.or (some now) }

def RunDb.claimRow (db : RunDb) (r : PlanStep) (q : ClaimRequest) (now : Time) : RunDb where
  run := { db.run with
    state := .running q.phase
    phase := some q.phase
    cursorStepId := some r.id }
  steps := db.steps.set r.id (claimedProgress q now)
  events := db.events ++ [{
    stepId := some r.id, eventType := .stepClaimed, agentId := some q.agentId
    phase := some q.phase, attempt := some (r.attempt + 1), createdAt := now }]

/-- `claim_next_step`, when no other call comes between its commit and its second `SELECT`: the
row that it reads back is then the one that it wrote. -/
def claimNextStep (db : RunDb) (q : ClaimRequest) (now : Time) : RunDb × Option PlanStep :=
  match nextClaim db q with
  | none => (db, none)
  | some r => (db.claimRow r q now, some (r.withProgress (claimedProgress q now r.toStepProgress)))

def nextRunState (t : PlanTable) (excludingStepId : Uuid) : RunState :=
  if t.rows.any fun r => r.id != excludingStepId && r.unfinished then .queued else .done

/-- What the branches of `complete_step` choose. -/
structure Outcome where
  stepState : StepState
  runState : RunState
  finishedAt : Option Time
  severity : Severity
deriving DecidableEq, Repr

def PlanStep.retriesRemaining (r : PlanStep) : Bool := decide ((r.attempt : Int) ≤ r.plan.retryCount)

def outcome (t : PlanTable) (r : PlanStep) (status : Status) (now : Time) :
    Except EngineError Outcome :=
  match status with
  | .success =>
    if r.plan.rebootBehavior = .required then
      .ok ⟨.awaitingReboot, .awaitingReboot, none, .info⟩
    else
      .ok ⟨.done, nextRunState t r.id, some now, .info⟩
  | .skipped => .ok ⟨.skipped, nextRunState t r.id, some now, .info⟩
  | .rebootRequired => .ok ⟨.awaitingReboot, .awaitingReboot, none, .info⟩
  | .failed =>
    if r.retriesRemaining then
      .ok ⟨.pending, .running r.plan.phase, none, .warning⟩
    else
      .ok ⟨.failed, if r.plan.continueOnError then nextRunState t r.id else .failed, some now, .error⟩
  | .other text => .error (.unsupportedStatus text)

def completedProgress (o : Outcome) (status : Status) (message : Option String)
    (p : StepProgress) : StepProgress :=
  { p with
    state := o.stepState
    finishedAt := o.finishedAt
    claimedBy := if o.stepState = .pending then none else p.claimedBy
    claimedAt := if o.stepState = .pending then none else p.claimedAt
    lastError := if status = .failed then message else none }

def RunDb.completeRow (db : RunDb) (r : PlanStep) (o : Outcome) (agentId : String)
    (status : Status) (message : Option String) (data : Json) (now : Time) : RunDb where
  run := { db.run with
    state := o.runState
    phase := some r.plan.phase
    cursorStepId := some r.id
    finishedAt := if o.runState = .done ∨ o.runState = .failed then some now else db.run.finishedAt
    lastError := if o.runState = .failed then message else db.run.lastError }
  steps := db.steps.set r.id (completedProgress o status message)
  events := db.events ++ [{
    stepId := some r.id, eventType := .stepEntered o.stepState, severity := o.severity
    agentId := some agentId, phase := some r.plan.phase, attempt := some r.attempt
    message := message, data := orEmpty data, createdAt := now }]

/-- `status == "failed" and step["state"] == "awaiting_reboot"`. -/
def lateFailure (r : PlanStep) (status : Status) : Bool :=
  status == .failed && r.state == .awaitingReboot

def completeStep (db : RunDb) (stepId : Uuid) (agentId : String) (status : Status)
    (message : Option String) (data : Json) (now : Time) : Except EngineError RunDb :=
  match db.steps.get? stepId with
  | none => .error (.stepNotFound stepId)
  | some r =>
    if lateFailure r status then
      .ok (db.appendEvent {
        stepId := some stepId, eventType := .stepLateFailureIgnored, severity := .warning
        agentId := some agentId, phase := some r.plan.phase, attempt := some r.attempt
        message := message, data := orEmpty data, createdAt := now })
    else
      (outcome db.steps r status now).map fun o =>
        db.completeRow r o agentId status message data now

def RunDb.rebootRow (db : RunDb) (r : PlanStep) (agentId : String) (now : Time) : RunDb :=
  let steps := db.steps.set r.id fun p => { p with state := .done, finishedAt := some now }
  let runState := nextRunState steps r.id
  { run := { db.run with
      state := runState
      phase := some r.plan.phase
      cursorStepId := some r.id
      finishedAt := if runState = .done then some now else db.run.finishedAt }
    steps := steps
    events := db.events ++ [{
      stepId := some r.id, eventType := .stepRebootComplete, agentId := some agentId
      phase := some r.plan.phase, attempt := some r.attempt, createdAt := now }] }

/-- `mark_reboot_complete`; its two readings of the clock are one. -/
def markRebootComplete (db : RunDb) (stepId : Uuid) (agentId : String) (now : Time) :
    Except EngineError RunDb :=
  match db.steps.get? stepId with
  | none => .error (.stepNotFound stepId)
  | some r =>
    if r.state ≠ .awaitingReboot then .error (.notAwaitingReboot stepId)
    else .ok (db.rebootRow r agentId now)

def orText (message : Option String) (default : String) : String :=
  match message with
  | none => default
  | some text => if text = "" then default else text

def RunDb.requeueRow (db : RunDb) (r : PlanStep) (requestedBy : String) (message : Option String)
    (now : Time) : RunDb where
  run := { db.run with
    state := .running r.plan.phase
    phase := some r.plan.phase
    cursorStepId := none
    finishedAt := none
    lastError := none }
  steps := db.steps.set r.id fun _ => {}
  events := db.events ++ [{
    stepId := some r.id, eventType := .stepRequeued, severity := .warning
    agentId := some requestedBy, phase := some r.plan.phase, attempt := some 0
    message := some (orText message ("Operator requeued failed step " ++ r.plan.kind))
    data := .obj [("previous_attempt", .int r.attempt), ("kind", .str r.plan.kind)]
    createdAt := now }]

def requeueStep (db : RunDb) (stepId : Uuid) (requestedBy : String) (message : Option String)
    (now : Time) : Except EngineError RunDb :=
  match db.steps.get? stepId with
  | none => .error (.stepNotFound stepId)
  | some r =>
    if r.state ≠ .failed then .error (.onlyFailedRequeued stepId)
    else .ok (db.requeueRow r requestedBy message now)

def markedProgress (agentId : String) (now : Time) (p : StepProgress) : StepProgress :=
  { p with
    state := .done
    startedAt := p.startedAt.or (some now)
    finishedAt := p.finishedAt.or (some now)
    claimedBy := p.claimedBy.or (some agentId)
    claimedAt := p.claimedAt.or (some now)
    lastError := none }

def markRow (agentId : String) (message : Option String) (data : Json) (now : Time)
    (acc : RunDb × Nat) (row : PlanStep) : RunDb × Nat :=
  if row.state = .done then acc
  else
    ({ acc.1 with
        steps := acc.1.steps.set row.id (markedProgress agentId now)
        events := acc.1.events ++ [{
          stepId := some row.id, eventType := .stepEntered .done, agentId := some agentId
          phase := some row.plan.phase, attempt := some row.attempt
          message := some (orText message "step completed from external lifecycle evidence")
          data := orEmpty data, createdAt := now }] },
      acc.2 + 1)

/-- `state IN ('pending', 'running', 'awaiting_reboot', 'failed')`. -/
def PlanStep.remaining (r : PlanStep) : Bool := r.unfinished || r.state == .failed

/-- `SELECT ... ORDER BY ordinal` of the rows whose kind is marked. -/
def rowsOfKind (t : PlanTable) (kinds : List String) : List PlanStep :=
  t.rows.filter fun r => (normalizeKinds kinds).contains r.plan.kind

/-- The run row after the loop of `mark_steps_done_by_kind`. -/
def markedRun (run : RunRow) (t : PlanTable) (rows : List PlanStep) (changed : Nat) (now : Time) :
    RunRow :=
  if (t.rows.countP PlanStep.remaining) = 0 then
    if run.state = .failed then run
    else { run with
      state := .done
      phase := some "full_os"
      finishedAt := run.finishedAt.or (some now)
      cursorStepId := run.cursorStepId.or (t.rows.getLast?.map fun r => r.id) }
  else if changed = 0 ∨ run.state = .done ∨ run.state = .failed then run
  else { run with phase := (rows.getLast?.map fun r => r.plan.phase).or run.phase }

def markStepsDoneByKind (db : RunDb) (kinds : List String) (agentId : String)
    (message : Option String) (data : Json) (now : Time) : RunDb × Nat :=
  if (normalizeKinds kinds).isEmpty then (db, 0)
  else
    let rows := rowsOfKind db.steps kinds
    let marked := rows.foldl (markRow agentId message data now) (db, 0)
    ({ marked.1 with run := markedRun marked.1.run marked.1.steps rows marked.2 now }, marked.2)

inductive Op where
  | claim (q : ClaimRequest)
  | complete (stepId : Uuid) (agentId : String) (status : Status) (message : Option String) (data : Json)
  | rebootComplete (stepId : Uuid) (agentId : String)
  | requeue (stepId : Uuid) (requestedBy : String) (message : Option String)
  | markDone (kinds : List String) (agentId : String) (message : Option String) (data : Json)

/-- An operation with the time the engine reads while it runs. -/
structure Call where
  op : Op
  now : Time := 0

/-- A raised error rolls the transaction back. -/
def committed (db : RunDb) (result : Except EngineError RunDb) : RunDb :=
  match result with
  | .ok db' => db'
  | .error _ => db

def exec (db : RunDb) (c : Call) : RunDb :=
  match c.op with
  | .claim q => (claimNextStep db q c.now).1
  | .complete stepId agentId status message data =>
    committed db (completeStep db stepId agentId status message data c.now)
  | .rebootComplete stepId agentId => committed db (markRebootComplete db stepId agentId c.now)
  | .requeue stepId requestedBy message => committed db (requeueStep db stepId requestedBy message c.now)
  | .markDone kinds agentId message data =>
    (markStepsDoneByKind db kinds agentId message data c.now).1

end ProxmoxVEAutopilot.TsEngine
