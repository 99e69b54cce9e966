import ProxmoxVEAutopilot.Foundation.Transactions
import ProxmoxVEAutopilot.ManagedLabs.Escalation

/-!
# A plan and its run on one connection

The plan pass of a reconcile, statement by statement, and the two callers that record its
run. The inventory is read as Python reads it, so that a row that is no dict raises where
it is met. Rows of findings and of fix actions stand in the order they were inserted in.
-/

namespace ProxmoxVEAutopilot.ManagedLabs.PlanSession

open Foundation
open Foundation.Transaction (read write commit)
open Escalation (RunId LabRow ReconcileDb startReconcileRun finishReconcileRun statusText)

set_option autoImplicit false

section State

/-- A row of `lab_reconcile_findings`. -/
structure FindingRow where
  labId : LabId
  runId : RunId
  finding : Finding
  status : String := "open"

/-- A row of `lab_fix_actions`. -/
structure FixRow where
  labId : LabId
  runId : RunId
  provider : String := "proxmox"
  action : FixAction
  status : String := "pending"

structure State where
  db : LabsDb := {}
  rows : ReconcileDb := {}
  desiredState : LabId → Json := fun _ => .obj []
  findings : List FindingRow := []
  fixes : List FixRow := []

inductive PlanError where
  | lab (e : LabError)
  | typeError
  | attributeError
  | foreignKeyViolation
  | assertionError
  | notFound
  | connectionLost

abbrev Session (α : Type) := Transaction State PlanError α

def check {α : Type} : Except PlanError α → Session α
  | .ok a => pure a
  | .error e => Transaction.raise e

end State

section Inventory

-- `str` of a JSON value.
variable (str : Json → String)

def iterate : Json → Except PlanError (List Json)
  | .arr xs => .ok xs
  | .obj fields => .ok (fields.map fun f => .str f.1)
  | .str s => .ok (s.toList.map fun c => .str (String.singleton c))
  | _ => .error .typeError

/-- What has a method `get`. -/
def asDict : Json → Except PlanError (List (String × Json))
  | .obj fields => .ok fields
  | _ => .error .attributeError

def getOr (fields : List (String × Json)) (key : String) (default : Json) : Json := (fields.lookup key).getD default

def orElse (first second : Json) : Json := if first.truthy then first else second

def idText : Option Json → Option String
  | none => none
  | some .null => none
  | some value => given (some (strip (str value)))

def rowTexts (keys : List String) (row : Json) : Except PlanError (List String) :=
  (asDict row).map fun fields => ("id" :: keys).filterMap fun key => idText str (fields.lookup key)

def ids (rows : Json) (keys : List String) : Except PlanError (List String) := do
  let items ← iterate (orElse rows (.arr []))
  let texts ← items.mapM (rowTexts str keys)
  return texts.flatten

/-- `next((row for row in rows if ...), {})`: later rows are not looked at. -/
def firstRow (holds : List (String × Json) → Bool) : List Json → Except PlanError (List (String × Json))
  | [] => .ok []
  | row :: rows =>
    match asDict row with
    | .error e => .error e
    | .ok fields => if holds fields then .ok fields else firstRow holds rows

def fieldText (fields : List (String × Json)) (key : String) : String :=
  strip (str (orElse (getOr fields key .null) (.str "")))

def isNamed (key name : String) (fields : List (String × Json)) : Bool :=
  strip (str (orElse (getOr fields key .null) (orElse (getOr fields "id" .null) (.str "")))) == name

def hasId (subnet : String) (fields : List (String × Json)) : Bool :=
  (["id", "subnet", "cidr"].filterMap fun key => idText str (fields.lookup key)).contains subnet

def listed (inventory : List (String × Json)) (key : String) : Json := getOr inventory key (.arr [])

/-- `(inventory.get("subnets_by_vnet", {}) or {}).get(vnet, [])` -/
def subnetRows (inventory : List (String × Json)) (vnet : String) : Except PlanError Json := do
  let byVnet ← asDict (orElse (getOr inventory "subnets_by_vnet" (.obj [])) (.obj []))
  return listed byVnet vnet

/-- The ids of the zones and of the VNets, once the rows of all three kinds are read. -/
def readNetwork (inventory : List (String × Json)) (network : NetworkShape) :
    Except PlanError (List String × List String) := do
  let zoneRows := orElse (listed inventory "zones") (.arr [])
  let vnetRows := orElse (listed inventory "vnets") (.arr [])
  let subnets ← subnetRows inventory network.vnet
  let zoneIds ← ids str zoneRows ["zone"]
  let vnetIds ← ids str vnetRows ["vnet"]
  let _ ← firstRow (isNamed str "zone" network.zone) (← iterate zoneRows)
  let _ ← firstRow (isNamed str "vnet" network.vnet) (← iterate vnetRows)
  let _ ← firstRow (hasId str network.subnet) (← iterate (orElse subnets (.arr [])))
  return (zoneIds, vnetIds)

def subnetExists (inventory : List (String × Json)) (network : NetworkShape) : Except PlanError Bool := do
  let byVnet ← asDict (getOr inventory "subnets_by_vnet" (.obj []))
  let found ← ids str (orElse (listed byVnet network.vnet) (.arr [])) ["subnet", "cidr"]
  return found.contains network.subnet

/-- What `sync_lab_network_current_state` reads of the inventory. -/
def readCurrentState (inventory : List (String × Json)) (network : NetworkShape) : Except PlanError Unit := do
  let _ ← firstRow (isNamed str "zone" network.zone) (← iterate (listed inventory "zones"))
  let _ ← firstRow (isNamed str "vnet" network.vnet) (← iterate (listed inventory "vnets"))
  let subnets ← subnetRows inventory network.vnet
  let _ ← firstRow (fun fields => ["id", "subnet", "cidr"].any fun key => fieldText str fields key == network.subnet)
    (← iterate subnets)
  return ()

end Inventory

section Plan
variable (lower : String → String) (str : Json → String) (hex : String)

def upsertObjects (objects : List (BoundaryObject × List (String × String))) : Session Unit :=
  write fun s =>
    match objects.foldlM upsertBoundaryObject s.db.identities with
    | .ok identities => .ok ((), { s with db := { s.db with identities } })
    | .error e => .error (.lab e)

/-- `(lab.get("desired_state") or {}).get("naming_policy")` -/
def namingPolicy (desiredState : Json) : Except PlanError Json := do
  let fields ← asDict (orElse desiredState (.obj []))
  return getOr fields "naming_policy" .null

def ensureLabBoundaryModel (lab : Lab) : Session Unit := do
  let desiredState ← read fun s => s.desiredState lab.id
  let _ ← check (namingPolicy desiredState)
  upsertObjects (boundaryObjects lower lab hex)

def currentProviders : List String := ["network", "proxmox"]

def currentStatuses : List String := ["pending", "failed", "blocked", "running"]

def FindingRow.current (labId : LabId) (r : FindingRow) : Prop :=
  r.labId = labId ∧ r.status = "open" ∧ r.finding.provider ∈ currentProviders

def FixRow.current (labId : LabId) (r : FixRow) : Prop :=
  r.labId = labId ∧ r.status ∈ currentStatuses ∧ r.provider ∈ currentProviders

instance (labId : LabId) (r : FindingRow) : Decidable (r.current labId) := inferInstanceAs (Decidable (_ ∧ _ ∧ _))

instance (labId : LabId) (r : FixRow) : Decidable (r.current labId) := inferInstanceAs (Decidable (_ ∧ _ ∧ _))

/-- `clear_current_reconcile_state`. -/
def State.cleared (s : State) (labId : LabId) : State :=
  { s with
    findings := s.findings.map fun r => if r.current labId then { r with status := "resolved" } else r
    fixes := s.fixes.map fun r => if r.current labId then { r with status := "superseded" } else r }

def clearCurrentReconcileState (labId : LabId) : Session Unit := write fun s => .ok ((), s.cleared labId)

def syncLabNetworkCurrentState (lab : Lab) (inventory : List (String × Json)) : Session Unit := do
  ensureLabBoundaryModel lower hex lab
  check (readCurrentState str inventory (labNetworkShape lower lab hex))
  upsertObjects (networkObjects lower lab hex)

/-- `reserve_value`. That the row is another lab's is found out after the statement, which then
has changed nothing. -/
def reserveCidr (lab : Lab) : Session Unit := do
  let reserved ← write fun s =>
    match reserveValue lab.id "cidr" s.db.reservations lab.networkCidr with
    | .ok reservations => .ok (.ok (), { s with db := { s.db with reservations } })
    | .error e => .ok (.error (.lab e), s)
  check reserved

def recordFinding (labId : LabId) (runId : RunId) (finding : Finding) : Session Unit := do
  write fun s => .ok ((), { s with findings := s.findings ++ [{ labId, runId, finding }] })
  commit

/-- The pending row of the same action. -/
def FixRow.samePending (labId : LabId) (action : FixAction) (r : FixRow) : Bool :=
  r.labId = labId ∧ r.provider = "proxmox" ∧ r.action.actionType = action.actionType ∧ r.status = "pending" ∧
    r.action.request = action.request

/-- Of several such rows the first by priority and creation is written again. -/
def renewedIndex (labId : LabId) (action : FixAction) (fixes : List FixRow) : Option Nat :=
  (fixes.zipIdx.filter fun x => x.1.samePending labId action).mergeSort
    (fun x y => decide (x.1.action.priority ≤ y.1.action.priority)) |>.head?.map Prod.snd

def createFixAction (labId : LabId) (runId : RunId) (action : FixAction) : Session Unit := do
  write fun s =>
    match renewedIndex labId action s.fixes with
    | none => .ok ((), { s with fixes := s.fixes ++ [{ labId, runId, action }] })
    | some i =>
      .ok ((), { s with
        fixes := s.fixes.modify i fun r =>
          { r with runId, action := { r.action with priority := action.priority, detail := action.detail } } })
  commit

/-- `_record_fixable`, if the object is missing. -/
def recordFixable (missing : Bool) (lab : Lab) (runId : RunId) (findingType actionType detail : String)
    (priority : Nat) (request : Json) : Session (List (Finding × FixAction)) :=
  if missing then do
    recordFinding lab.id runId ⟨"proxmox", findingType, "fixable", detail, request⟩
    createFixAction lab.id runId ⟨actionType, priority, detail, request⟩
    return [(⟨"proxmox", findingType, "fixable", detail, request⟩, ⟨actionType, priority, detail, request⟩)]
  else return []

def recordBlocked (lab : Lab) (runId : RunId) (inventory : List (String × Json)) (finding : Finding) :
    Session Plan := do
  syncLabNetworkCurrentState lower str hex lab inventory
  recordFinding lab.id runId finding
  return { status := .blocked, findings := [finding] }

/-- The end of the plan: ready, or the missing objects and the action that applies them. -/
def closePlan (lab : Lab) (runId : RunId) (inventory : List (String × Json)) :
    List (Finding × FixAction) → Session Plan
  | [] => do
    syncLabNetworkCurrentState lower str hex lab inventory
    commit
    return { status := .ready }
  | missing => do
    syncLabNetworkCurrentState lower str hex lab inventory
    createFixAction lab.id runId applySdn
    return { status := .fixing, findings := missing.map Prod.fst, fixActions := missing.map Prod.snd ++ [applySdn] }

def planMissing (lab : Lab) (runId : RunId) (inventory : List (String × Json)) (network : NetworkShape)
    (seen : List String × List String) : Session Plan := do
  let zone ← recordFixable (!seen.1.contains network.zone) lab runId "sdn_zone_missing" "create_sdn_zone"
    ("SDN zone " ++ network.zone ++ " is missing.") 10 (.obj [("zone", .str network.zone), ("type", .str "simple")])
  let vnet ← recordFixable (!seen.2.contains network.vnet) lab runId "sdn_vnet_missing" "create_sdn_vnet"
    ("SDN VNet " ++ network.vnet ++ " is missing.") 20
    (.obj [("vnet", .str network.vnet), ("zone", .str network.zone), ("alias", .str lab.name)])
  let found ← check (subnetExists str inventory network)
  let subnet ← recordFixable (!found) lab runId "sdn_subnet_missing" "create_sdn_subnet"
    ("SDN subnet " ++ network.subnet ++ " is missing on " ++ network.vnet ++ ".") 30
    (.obj [("vnet", .str network.vnet), ("subnet", .str network.subnet), ("gateway", .str lab.gatewayIp),
      ("snat", .bool true)])
  closePlan lower str hex lab runId inventory (zone ++ vnet ++ subnet)

def planReserved (lab : Lab) (runId : RunId) (inventory : List (String × Json)) : Session Plan :=
  if lab.networkMode ≠ "sdn" then recordBlocked lower str hex lab runId inventory (bridgeFinding lab)
  else do
    let network := requiredNetwork lower lab hex
    let seen ← check (readNetwork str inventory network)
    planMissing lower str hex lab runId inventory network seen

def planOverlaps (lab : Lab) (runId : RunId) (inventory : List (String × Json)) : List Reservation → Session Plan
  | overlap :: _ => recordBlocked lower str hex lab runId inventory (overlapFinding lab overlap)
  | [] => do
    reserveCidr lab
    planReserved lower str hex lab runId inventory

def planLab (lab : Lab) (runId : RunId) (inventory : List (String × Json)) : Session Plan := do
  ensureLabBoundaryModel lower hex lab
  clearCurrentReconcileState lab.id
  let overlaps ← read fun s => findOverlappingCidrReservations s.db.reservations lab.networkCidr lab.id
  let overlaps ← check (overlaps.mapError .lab)
  planOverlaps lower str hex lab runId inventory overlaps

def planNetworkReconcile (labId : LabId) (inventory : List (String × Json)) (runId : RunId) : Session Plan := do
  let lab? ← read fun s => getLab s.db labId
  match lab? with
  | none => Transaction.raise (.lab (.valueError ("lab not found: " ++ toString labId)))
  | some lab => planLab lower str hex lab runId inventory

end Plan

section Callers
variable (lower : String → String) (str : Json → String) (hex : String)

inductive Answer where
  | planned (plan : Plan)
  | failed

/-- The run references its lab. -/
def startRun (labId : LabId) (attempt : Nat) : Session RunId := do
  let runId ← write fun s =>
    if (getLab s.db labId).isSome then
      .ok (s.rows.nextRunId, { s with rows := startReconcileRun s.rows labId attempt })
    else .error .foreignKeyViolation
  commit
  return runId

def finishRun (runId : RunId) (status : String) : Session Unit := do
  write fun s =>
    if s.rows.runs.any fun r => r.id = runId then .ok ((), { s with rows := finishReconcileRun s.rows runId status })
    else .error .assertionError
  commit

def finishPlan (runId : RunId) : Except PlanError Plan → Session Answer
  | .ok plan => do
    finishRun runId (statusText plan.status)
    return .planned plan
  | .error _ => do
    finishRun runId "failed"
    return .failed

/-- The run of a plan; the inventory is what there is of it. -/
def runPlan (lab : LabRow) (inventory : Except PlanError (List (String × Json))) : Session Answer := do
  let runId ← startRun lab.id (lab.retryCount + 1)
  let result ← Transaction.attempt (do
    let inventory ← check inventory
    planNetworkReconcile lower str hex lab.id inventory runId)
  finishPlan runId result

/-- The row of the lab is one that was listed before. What applies the fixes of a plan that was
made is left out. -/
def reconcileLabOnce (lab : LabRow) (inventory : List (String × Json)) : Session Answer :=
  runPlan lower str hex lab (.ok inventory)

/-- The endpoint; it asks Proxmox for the inventory once the run is started. -/
def reconcileLab (labId : LabId) (inventory : Except PlanError (List (String × Json))) : Session Answer := do
  let lab? ← read fun s => s.rows.labs.find? fun l => l.id = labId
  match lab? with
  | none => Transaction.raise .notFound
  | some lab => runPlan lower str hex lab inventory

inductive Caller where
  | sweep (lab : LabRow) (inventory : List (String × Json))
  | endpoint (labId : LabId) (inventory : Except PlanError (List (String × Json)))

def Caller.session : Caller → Session Answer
  | .sweep lab inventory => reconcileLabOnce lower str hex lab inventory
  | .endpoint labId inventory => reconcileLab lower str hex labId inventory

end Callers

end ProxmoxVEAutopilot.ManagedLabs.PlanSession
