import ProxmoxVEAutopilot.CloudOsd.Runs
import ProxmoxVEAutopilot.Foundation.Markers

/-!
# The domain-join executor

One tick probes the runs that wait for their domain over the guest agent, joins a guest
that says it is in no domain, and completes the steps of one that says it is in one.
-/

namespace ProxmoxVEAutopilot.CloudOsd

open Foundation TsEngine
set_option autoImplicit false

/-- What `_PROBE_PS` prints its line from; `$null` prints as nothing. -/
structure Probe where
  partOfDomain : Option Bool
  name : String
  host : String
deriving DecidableEq, Repr

def boolText : Option Bool → String
  | some true => "True"
  | some false => "False"
  | none => ""

def Probe.output (p : Probe) : String :=
  "DOMAIN=" ++ boolText p.partOfDomain ++ ";NAME=" ++ p.name ++ ";HOST=" ++ p.host ++ "\r\n"

structure ExecResult where
  exitcode : Option Int
  outData : String := ""
  errData : String := ""
deriving DecidableEq, Repr

/-- The payload of a credential; an absent entry is empty. -/
structure JoinCredential where
  username : String := ""
  password : String := ""
deriving DecidableEq, Repr

/-- A script as the values it is built from. -/
inductive Script where
  | probe
  | addComputer (username password domain ouPath : String)
  | restart
deriving DecidableEq, Repr

structure Candidate where
  runId : Nat
  vmid : Option Int
  node : Option String
  domainJoin : DomainJoin
  vmName : String
  heartbeatAt : Option Time
deriving DecidableEq

/-- What the calls that leave the process answer about one candidate: an error is a raised
exception, `clock` the monotonic clock before the candidate's turn. Nothing depends on how
the restart of a joined guest ends. -/
structure Answers where
  resolvedNode : Except String (Option String)
  clock : Nat := 0
  probe : Except String Probe
  credential : Int → Except String JoinCredential
  addComputer : Except String ExecResult

inductive JoinStatus where
  | alreadyJoined
  | joined
  | failed
  | unreachable
  | noNode
  | noCredential
deriving DecidableEq, Repr

/-- What `execute_join_for_run` returns, the scripts it has handed to the guest and its writes. -/
structure Outcome where
  status : JoinStatus
  error : Option String := none
  rebooted : Bool := false
  scripts : List Script := []
  actions : List Action := []

def cut (limit : Nat) (text : String) : String := String.ofList (text.toList.take limit)

def qualifyUser (username : String) (domainJoin : DomainJoin) : String :=
  let name := strip username
  if name = "" ∨ contains "\\" name ∨ contains "@" name then name
  else
    let domain := strip ((given (some domainJoin.credentialDomain)).getD domainJoin.domainFqdn)
    if domain = "" then name else name ++ "@" ++ domain

def probeIsDomainJoined (output : String) : Bool := contains "DOMAIN=True" output

def joinSucceeded (result : ExecResult) : Bool := result.exitcode == some 0 && contains "JOIN_OK" result.outData

def vmidJson (vmid : Option Int) : Json := vmid.elim .null .int

def markSteps (now : Time) (kinds : List String) (message : String) (data : Json) : Action :=
  .engine { op := .markDone kinds "cloudosd-domain-join" (some message) data, now := now }

/-- `_event`. -/
def joinEvent (now : Time) (eventType severity message : String) (data : List (String × Json)) : Action :=
  .appendEvent {
    phase := "domain_join"
    eventType := eventType
    severity := severity
    message := some message
    data := .obj data } now

section Execution
variable (now : Time) (candidate : Candidate) (answers : Answers)

/-- The end of `execute_join_for_run`, with the credential at hand. -/
def addComputer (username password : String) : Outcome :=
  let join := Script.addComputer username password candidate.domainJoin.domainFqdn candidate.domainJoin.ouPath
  match answers.addComputer with
  | .error raised => { status := .unreachable, error := some (cut 200 raised), scripts := [.probe, join] }
  | .ok result =>
    if joinSucceeded result then
      { status := .joined
        rebooted := true
        scripts := [.probe, join, .restart]
        actions := [
          markSteps now ["join_domain_role"] "Server-side Add-Computer AD join completed"
            (.obj [("vmid", vmidJson candidate.vmid), ("source", .str "add_computer")]),
          joinEvent now "domain_join_executed" "info"
            ("Joined " ++ (given (some candidate.vmName)).getD (candidate.vmid.elim "None" toString) ++ " to " ++
              candidate.domainJoin.domainFqdn)
            [("vmid", vmidJson candidate.vmid)]] }
    else
      let err := cut 300 ((given (some result.errData)).getD result.outData)
      { status := .failed
        error := some err
        scripts := [.probe, join]
        actions := [joinEvent now "domain_join_failed" "warning" "Add-Computer did not report success"
          [("error", .str err), ("vmid", vmidJson candidate.vmid)]] }

/-- `execute_join_for_run` from the credential on; a raised lookup ends in the tick's handler. -/
def joinWithCredential : Outcome :=
  match candidate.domainJoin.credentialId with
  | none =>
    { status := .noCredential
      scripts := [.probe]
      actions := [joinEvent now "domain_join_failed" "warning"
        "Domain join is enabled but no usable credential_id is stored"
        [("vmid", vmidJson candidate.vmid), ("credential_id", .str "None")]] }
  | some credentialId =>
    match answers.credential credentialId with
    | .error raised => { status := .failed, error := some (cut 200 raised), scripts := [.probe] }
    | .ok cred =>
      let username := qualifyUser cred.username candidate.domainJoin
      if username ≠ "" ∧ cred.password ≠ "" then addComputer now candidate answers username cred.password
      else
        { status := .noCredential
          scripts := [.probe]
          actions := [joinEvent now "domain_join_failed" "warning"
            "Domain-join credential missing username/password"
            [("vmid", vmidJson candidate.vmid), ("credential_id", .int credentialId)]] }

/-- `candidate.get("node") or resolve_node(vmid)`. -/
def findNode : Except String (Option String) :=
  match given candidate.node with
  | some node => .ok (some node)
  | none => answers.resolvedNode.map given

def executeJoinForRun : Outcome :=
  match findNode candidate answers with
  | .error raised => { status := .failed, error := some (cut 200 raised) }
  | .ok none => { status := .noNode }
  | .ok (some _) =>
    match answers.probe with
    | .error raised => { status := .unreachable, error := some (cut 200 raised), scripts := [.probe] }
    | .ok probe =>
      if probeIsDomainJoined probe.output then
        let data := [("vmid", vmidJson candidate.vmid), ("source", .str "probe")]
        { status := .alreadyJoined
          scripts := [.probe]
          actions := [
            markSteps now ["join_domain_role", "verify_ad_domain_join"]
              "Guest confirmed in AD domain via PartOfDomain probe" (.obj data),
            joinEvent now "domain_join_verified" "info" "Guest confirmed joined to the AD domain" data] }
      else if !contains "DOMAIN=False" probe.output then
        { status := .unreachable
          error := some ("unexpected probe output: " ++ cut 120 probe.output)
          scripts := [.probe] }
      else joinWithCredential now candidate answers

end Execution

/-- A row of `cloudosd_runs` with its newest heartbeat from an agent that is not revoked. -/
structure Member where
  deployment : Deployment
  createdAt : Time
  heartbeatAt : Option Time

def Member.isCandidate (m : Member) : Bool :=
  let run := m.deployment.run
  let steps := m.deployment.ts.steps.rows
  run.domainJoin.enabled && run.domainJoin.domainControllerIpv4 != "" &&
    run.state != .complete && run.state != .failed &&
    (steps.any fun h => h.plan.kind == "wait_agent_heartbeat" && h.state == .done) &&
    steps.any fun s =>
      (s.plan.kind == "join_domain_role" || s.plan.kind == "verify_ad_domain_join") && s.state == .pending

def Member.candidate (m : Member) : Candidate where
  runId := m.deployment.run.runId
  vmid := m.deployment.run.vmid
  node := m.deployment.run.node
  domainJoin := m.deployment.run.domainJoin
  vmName := m.deployment.run.vmName
  heartbeatAt := m.heartbeatAt

def heartbeatIsStale (heartbeatAt cutoff : Option Time) : Bool :=
  cutoff.any fun oldest => !heartbeatAt.any fun received => oldest ≤ received

/-- The first key of the `ORDER BY`. -/
def isLive (cutoff : Option Time) (m : Member) : Bool :=
  m.heartbeatAt.any fun received => cutoff.all fun oldest => oldest ≤ received

def liveFirst (cutoff : Option Time) (m n : Member) : Bool :=
  if isLive cutoff m == isLive cutoff n then m.createdAt ≤ n.createdAt else isLive cutoff m

def findJoinCandidates (fleet : List Member) (limit : Nat) (cutoff : Option Time) : List Candidate :=
  (((fleet.filter Member.isCandidate).insertionSort fun m n => liveFirst cutoff m n = true).take limit).map
    Member.candidate

structure Tick where
  now : Time
  limit : Nat := 50
  maxHeartbeatAge : Option Nat := some 1800
  maxSeconds : Option Nat := none
  /-- The monotonic clock when the sweep begins. -/
  started : Nat := 0
  answers : Nat → Answers

structure Execution where
  candidate : Candidate
  answers : Answers
  outcome : Outcome

inductive SweepResult where
  | stale (candidate : Candidate)
  | deferred (candidate : Candidate)
  | ran (x : Execution)

section Ticks
variable (t : Tick)

/-- `heartbeat_cutoff`. -/
def Tick.cutoff : Option Time := t.maxHeartbeatAge.map (t.now - ·)

def sweepCandidate (candidate : Candidate) : SweepResult :=
  let answers := t.answers candidate.runId
  if heartbeatIsStale candidate.heartbeatAt t.cutoff then .stale candidate
  else if t.maxSeconds.any fun seconds => t.started + seconds ≤ answers.clock then .deferred candidate
  else .ran ⟨candidate, answers, executeJoinForRun t.now candidate answers⟩

def applyExecution (fleet : List Member) (x : Execution) : List Member :=
  fleet.map fun m =>
    if m.deployment.run.runId = x.candidate.runId then
      { m with deployment := x.outcome.actions.foldl (fun d a => perform a d) m.deployment }
    else m

def ranExecution : SweepResult → Option Execution
  | .ran x => some x
  | _ => none

/-- The candidates are read once, before the first of them runs. -/
def runPendingJoins (fleet : List Member) : List Member × List SweepResult :=
  let results := (findJoinCandidates fleet t.limit t.cutoff).map (sweepCandidate t)
  ((results.filterMap ranExecution).foldl applyExecution fleet, results)

end Ticks

/-- Between two ticks anything else may have happened to the runs. -/
inductive FleetEvent where
  | tick (t : Tick)
  | outside (fleet : List Member)

def executions (fleet : List Member) : List FleetEvent → List Execution
  | [] => []
  | .tick t :: events =>
    let swept := runPendingJoins t fleet
    swept.2.filterMap ranExecution ++ executions swept.1 events
  | .outside changed :: events => executions changed events

end ProxmoxVEAutopilot.CloudOsd
