import ProxmoxVEAutopilot.Foundation.Json
import ProxmoxVEAutopilot.ManagedLabs.Labs

/-!
# Reconciling a lab

The plan pass for one lab, and what a sequence of calls does to the tables. Findings and
fix actions are returned; the tables they are kept in are read by nothing here.
-/

namespace ProxmoxVEAutopilot.ManagedLabs

open Foundation
set_option autoImplicit false

section Overlaps

def activeCidr (r : Reservation) : Bool := r.reservationType == "cidr" && r.status == "active"

def overlapTexts (a b : String) : Bool :=
  (Ip.ipNetwork a).any fun m => (Ip.ipNetwork b).any fun n => m.overlaps n

def findOverlappingCidrReservations (reservations : List Reservation) (cidr : String) (excludeLabId : LabId) :
    Except LabError (List Reservation) :=
  let rows := reservations.filter fun r => activeCidr r && r.labId != excludeLabId
  match (cidr :: rows.map fun r => r.value).find? fun text => (Ip.ipNetwork text).isNone with
  | some text => .error (.valueError ("'" ++ text ++ "' does not appear to be an IPv4 or IPv6 network"))
  | none => .ok (rows.filter fun r => overlapTexts cidr r.value)

end Overlaps

section Plan

/-- A row of the inventory; `name` is what it has under its own key, `zone`, `vnet` or `subnet`. -/
structure InventoryRow where
  id : Option String := none
  name : Option String := none
  cidr : Option String := none

structure Inventory where
  zones : List InventoryRow := []
  vnets : List InventoryRow := []
  subnetsByVnet : String → List InventoryRow := fun _ => []

def rowIds (rows : List InventoryRow) (keys : List (InventoryRow → Option String)) : List String :=
  rows.flatMap fun row => keys.filterMap fun key => given ((key row).map strip)

def namedIds (rows : List InventoryRow) : List String := rowIds rows [InventoryRow.id, InventoryRow.name]

def subnetExists (inventory : Inventory) (vnet subnet : String) : Bool :=
  (rowIds (inventory.subnetsByVnet vnet) [InventoryRow.id, InventoryRow.name, InventoryRow.cidr]).contains subnet

structure Finding where
  provider : String
  findingType : String
  severity : String
  detail : String
  objectRef : Json

structure FixAction where
  actionType : String
  priority : Nat
  detail : String
  request : Json

inductive PlanStatus where
  | blocked
  | fixing
  | ready
deriving DecidableEq, Repr

structure Plan where
  status : PlanStatus
  findings : List Finding := []
  fixActions : List FixAction := []

/-- `_record_fixable`, where the object is missing. -/
def recordFixable (missing : Bool) (findingType actionType detail : String) (priority : Nat) (request : Json) :
    List (Finding × FixAction) :=
  if missing then
    [(⟨"proxmox", findingType, "fixable", detail, request⟩, ⟨actionType, priority, detail, request⟩)]
  else []

def Reservation.toJson (r : Reservation) : Json :=
  .obj [("lab_id", .int r.labId), ("reservation_type", .str r.reservationType), ("value", .str r.value),
    ("status", .str r.status)]

def overlapFinding (lab : Lab) (overlap : Reservation) : Finding where
  provider := "network"
  findingType := "subnet_overlaps_existing_lab"
  severity := "blocked"
  detail := "Requested subnet overlaps existing reservation " ++ overlap.value ++ "."
  objectRef := .obj [("cidr", .str lab.networkCidr), ("overlap", overlap.toJson)]

def bridgeFinding (lab : Lab) : Finding where
  provider := "proxmox"
  findingType := "bridge_validate_only"
  severity := "blocked"
  detail := "Bridge targets are validate-only in this slice; create or select an existing bridge before proceeding."
  objectRef := .obj [("network_mode", .str lab.networkMode)]

variable (lower : String → String)

/-- `zone`, `vnet` and `subnet` of the plan. -/
def requiredNetwork (lab : Lab) (hex : String) : NetworkShape where
  zone := textOr lab.sdnZone (proxmoxSdnZoneId lower lab.shortCode hex)
  vnet := textOr lab.sdnVnet (proxmoxSdnVnetId lower lab.shortCode hex)
  subnet := textOr lab.sdnSubnet lab.networkCidr

def missingObjects (lab : Lab) (network : NetworkShape) (inventory : Inventory) : List (Finding × FixAction) :=
  recordFixable (!(namedIds inventory.zones).contains network.zone) "sdn_zone_missing" "create_sdn_zone"
    ("SDN zone " ++ network.zone ++ " is missing.") 10 (.obj [("zone", .str network.zone), ("type", .str "simple")]) ++
  recordFixable (!(namedIds inventory.vnets).contains network.vnet) "sdn_vnet_missing" "create_sdn_vnet"
    ("SDN VNet " ++ network.vnet ++ " is missing.") 20
    (.obj [("vnet", .str network.vnet), ("zone", .str network.zone), ("alias", .str lab.name)]) ++
  recordFixable (!subnetExists inventory network.vnet network.subnet) "sdn_subnet_missing" "create_sdn_subnet"
    ("SDN subnet " ++ network.subnet ++ " is missing on " ++ network.vnet ++ ".") 30
    (.obj [("vnet", .str network.vnet), ("subnet", .str network.subnet), ("gateway", .str lab.gatewayIp),
      ("snat", .bool true)])

def applySdn : FixAction :=
  ⟨"apply_sdn", 90, "Apply pending Proxmox SDN changes.", .obj [("allow_pending", .bool true)]⟩

def networkPlan (lab : Lab) (network : NetworkShape) (inventory : Inventory) : Plan :=
  match missingObjects lab network inventory with
  | [] => { status := .ready }
  | missing =>
    { status := .fixing, findings := missing.map Prod.fst, fixActions := missing.map Prod.snd ++ [applySdn] }

/-- What is kept of `sync_lab_network_current_state`. -/
def syncLabNetworkCurrentState (identities : List ProviderIdentity) (lab : Lab) (hex : String) :
    Except LabError (List ProviderIdentity) := do
  let identities ← ensureLabBoundaryModel lower identities lab hex
  (networkObjects lower lab hex).foldlM upsertBoundaryObject identities

def getLab (db : LabsDb) (labId : LabId) : Option Lab := db.labs.find? fun l => l.id = labId

def planNetworkReconcile (db : LabsDb) (labId : LabId) (inventory : Inventory) (hex : String) :
    Except LabError (LabsDb × Plan) :=
  match getLab db labId with
  | none => .error (.valueError ("lab not found: " ++ toString labId))
  | some lab => do
    let identities ← ensureLabBoundaryModel lower db.identities lab hex
    let overlaps ← findOverlappingCidrReservations db.reservations lab.networkCidr lab.id
    match overlaps with
    | overlap :: _ =>
      let identities ← syncLabNetworkCurrentState lower identities lab hex
      return ({ db with identities }, { status := .blocked, findings := [overlapFinding lab overlap] })
    | [] =>
      let reservations ← reserveValue lab.id "cidr" db.reservations lab.networkCidr
      let identities ← syncLabNetworkCurrentState lower identities lab hex
      if lab.networkMode ≠ "sdn" then
        return ({ db with reservations, identities }, { status := .blocked, findings := [bridgeFinding lab] })
      else
        return ({ db with reservations, identities },
          networkPlan lab (requiredNetwork lower lab hex) inventory)

end Plan

section Calls
variable (lower : String → String)

inductive Call where
  | createLab (draws : Draws) (body : LabCreateBody)
  | reconcile (labId : LabId) (inventory : Inventory) (hex : String)
  | deleteLab (labId : LabId)

/-- A call that raises changes nothing. -/
def exec (db : LabsDb) : Call → LabsDb
  | .createLab draws body => (createLab lower db draws body).1
  | .reconcile labId inventory hex =>
    match planNetworkReconcile lower db labId inventory hex with
    | .ok (db', _) => db'
    | .error _ => db
  | .deleteLab labId => deleteLab db labId

end Calls

end ProxmoxVEAutopilot.ManagedLabs
