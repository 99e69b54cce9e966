import ProxmoxVEAutopilot.Bubbles.Store
import ProxmoxVEAutopilot.Foundation.Json
import ProxmoxVEAutopilot.Foundation.Runs
import ProxmoxVEAutopilot.Foundation.Text

/-!
# SDN labs

A lab is a bubble and the binding that names its SDN zone, VNet and subnet. The bubble is
committed by one store and the binding by another; the readers put the bindings next to the
live SDN inventory.
-/

namespace ProxmoxVEAutopilot.Sdn

open Foundation (Json strip)

set_option autoImplicit false

/-- Python's `str` of a value that is not a text, and its `lower` and `upper`. -/
structure Python where
  str : Json → String
  lower : String → String
  upper : String → String

section Inventory

/-- What `proxmox_sdn.inventory` returns; its rows are dicts. -/
abbrev Fields := List (String × Json)

structure Inventory where
  zones : List Fields
  vnets : List Fields
  subnetsByVnet : List (String × List Fields)

variable (py : Python)

def get (row : Fields) (key : String) : Json := (row.lookup key).getD .null

/-- `first or second`. -/
def orElse (first second : Json) : Json := if first.truthy then first else second

def textOf : Json → String
  | .str s => s
  | value => py.str value

def textValue : Json → String
  | .null => ""
  | value => strip (textOf py value)

/-- `_object_id`; a missing key and null both give the empty text here. -/
def objectId (row : Fields) (key : String) : String :=
  if textValue py (get row "id") ≠ "" then textValue py (get row "id") else textValue py (get row key)

def truthy (value : Json) : Bool :=
  match value with
  | .bool b => b
  | .int n => n != 0
  | .float q => q != 0
  | value =>
    let normalized := py.lower (textValue py value)
    if normalized ∈ ["1", "true", "yes", "on"] then true
    else if normalized ∈ ["", "0", "false", "no", "off", "none"] then false
    else value.truthy

/-- `_subnet_identity_values`. -/
def identityValues (row : Fields) : List String :=
  [textValue py (get row "id"), textValue py (get row "subnet"), textValue py (get row "cidr"),
    textValue py (get row "cidr4")].filter (· ≠ "")

/-- One part of a `start-address=…,end-address=…` text. -/
def rangePart (found : String × String) (part : List Char) : String × String :=
  match part.splitOn '=' with
  | key :: raw :: more =>
    let key := py.lower (strip (String.ofList key))
    let raw := strip (String.ofList (['='].intercalate (raw :: more)))
    if key = "start-address" then (raw, found.2)
    else if key = "end-address" then (found.1, raw)
    else found
  | _ => found

mutual

def dhcpRangeParts : Json → String × String
  | .arr xs => dhcpRangeFirst xs
  | .obj fields =>
    (textValue py (orElse (orElse (get fields "start-address") (get fields "start")) (get fields "from")),
      textValue py (orElse (orElse (get fields "end-address") (get fields "end")) (get fields "to")))
  | .str s => (s.toList.splitOn ',').foldl (rangePart py) ("", "")
  | _ => ("", "")

def dhcpRangeFirst : List Json → String × String
  | [] => ("", "")
  | x :: xs =>
    let parts := dhcpRangeParts x
    if parts.1 ≠ "" ∨ parts.2 ≠ "" then parts else dhcpRangeFirst xs

end

def dhcpRangeValue (row : Fields) : String :=
  let parts := dhcpRangeParts py (get row "dhcp-range")
  let texts := (if parts.1 ≠ "" then ["start-address=" ++ parts.1] else []) ++
    (if parts.2 ≠ "" then ["end-address=" ++ parts.2] else [])
  if texts ≠ [] then ",".intercalate texts else textValue py (get row "dhcp-range")

structure SubnetInfo where
  subnet : String
  cidr : String
  network : String
  gateway : String
  snat : Bool
  dhcpDnsServer : String
  dhcpRange : String
  dhcpPoolStart : String
  dhcpPoolEnd : String
  dnszoneprefix : String
deriving DecidableEq

def subnetInfo (row : Fields) : SubnetInfo where
  subnet := textValue py (orElse (orElse (get row "subnet") (get row "id")) (get row "cidr"))
  cidr := textValue py (orElse (orElse (orElse (get row "cidr") (get row "cidr4")) (get row "subnet")) (get row "id"))
  network := textValue py (get row "network")
  gateway := textValue py (get row "gateway")
  snat := truthy py (get row "snat")
  dhcpDnsServer := textValue py (get row "dhcp-dns-server")
  dhcpRange := dhcpRangeValue py row
  dhcpPoolStart := (dhcpRangeParts py (get row "dhcp-range")).1
  dhcpPoolEnd := (dhcpRangeParts py (get row "dhcp-range")).2
  dnszoneprefix := textValue py (get row "dnszoneprefix")

def Inventory.subnets (inventory : Inventory) (vnet : String) : List Fields :=
  (inventory.subnetsByVnet.lookup vnet).getD []

end Inventory

section Preflight

/-- `SdnLabBody`. -/
structure LabBody where
  name : String
  zone : String
  vnet : String
  subnet : String := ""
  domainName : String := ""
  netbiosName : String := ""
  cidr : String := ""
  gatewayIp : String := ""
  dhcpScope : String := ""
  dhcpPoolStart : String := ""
  dhcpPoolEnd : String := ""
  egressPolicy : String := "open"
  snatEnabled : Bool := true
  firewallProfile : String := "isolated_open_egress"

structure Finding where
  id : String
  detail : String
deriving DecidableEq

structure Preflight where
  blocking : List Finding
  warnings : List Finding
  egressPolicy : String
  snatEnabled : Bool
  firewallProfile : String
  subnet : Option SubnetInfo

/-- `value or default` of texts. -/
def given (value default : String) : String := if value = "" then default else value

variable (py : Python)

/-- `_lab_preflight_payload`. -/
def labPreflight (inventory : Inventory) (body : LabBody) : Preflight :=
  let subnet := (inventory.subnets body.vnet).find? fun row => strip body.subnet ∈ identityValues py row
  let selected := if body.egressPolicy = "open" then subnet else none
  let snatEnabled := match selected with
    | none => body.snatEnabled
    | some row => truthy py ((row.lookup "snat").getD (.bool body.snatEnabled))
  { blocking :=
      (if body.zone ∈ inventory.zones.map fun row => objectId py row "zone" then []
        else [⟨"zone_missing", "SDN zone is not present: " ++ body.zone⟩]) ++
      (if body.vnet ∈ inventory.vnets.map fun row => objectId py row "vnet" then []
        else [⟨"vnet_missing", "SDN VNet is not present: " ++ body.vnet⟩]) ++
      (if strip body.subnet = "" then
        [⟨"subnet_required", "Select an SDN subnet before creating an isolated lab."⟩] else []) ++
      (if body.subnet ≠ "" ∧ subnet = none then
        [⟨"subnet_missing", "SDN subnet is not present on " ++ body.vnet ++ ": " ++ body.subnet⟩] else [])
    warnings := if selected.isSome ∧ snatEnabled = false then
      [⟨"snat_not_enabled",
        "Outbound egress is open, but the selected subnet does not report SNAT enabled."⟩] else []
    egressPolicy := given body.egressPolicy "open"
    snatEnabled := snatEnabled
    firewallProfile := given body.firewallProfile "isolated_open_egress"
    subnet := subnet.map (subnetInfo py) }

end Preflight

section Tables

/-- The columns of `lab_bubbles` that `create_lab` gives. -/
structure Bubble where
  id : Nat
  name : String
  slug : String
  domainName : String
  netbiosName : String
  cidr : String
  gatewayIp : String
  plannedBridge : String
  lifecycleState : String
  isolationStatus : String
  dhcpScope : String
  dhcpPoolStart : String
  dhcpPoolEnd : String
deriving DecidableEq

/-- A row of `lab_sdn_bindings`. -/
structure Binding where
  bubbleId : Nat
  zone : String
  vnet : String
  subnet : String
  egressPolicy : String
  snatEnabled : Bool
  firewallProfile : String
  lastApplyState : String := "not_applied"
deriving DecidableEq

structure Db where
  bubbles : List Bubble := []
  bindings : List Binding := []

inductive SdnError where
  | preflightFailed (preflight : Preflight)
  | uniqueViolation
  | dataError
  | valueError (detail : String)
  | keyError
  | notFound

/-- An id that no row has. -/
def Db.newId (db : Db) : Nat :=
  (db.bubbles.map Bubble.id ++ db.bindings.map Binding.bubbleId).foldr max 0 + 1

/-- A text column takes no NUL. -/
def storable (s : String) : Bool := !s.toList.contains (Char.ofNat 0)

def Bubble.texts (b : Bubble) : List String :=
  [b.name, b.slug, b.domainName, b.netbiosName, b.cidr, b.gatewayIp, b.plannedBridge, b.lifecycleState,
    b.isolationStatus, b.dhcpScope, b.dhcpPoolStart, b.dhcpPoolEnd]

def Binding.texts (k : Binding) : List String := [k.zone, k.vnet, k.subnet, k.egressPolicy, k.firewallProfile]

/-- The `INSERT` of `create_bubble`, committed there. -/
def insertBubble (db : Db) (b : Bubble) : Except SdnError Db :=
  if !b.texts.all storable then .error .dataError
  else if db.bubbles.any fun c => c.name = b.name ∨ c.slug = b.slug then .error .uniqueViolation
  else .ok { db with bubbles := db.bubbles ++ [b] }

def egressPolicies : List String := ["open", "restricted", "dark"]

/-- `upsert_binding`, with the `DO UPDATE` of a bubble that is bound. -/
def upsertBinding (py : Python) (db : Db) (k : Binding) : Except SdnError (Binding × Db) :=
  let egressPolicy := py.lower (strip (given k.egressPolicy "open"))
  if egressPolicy ∈ egressPolicies then
    let new := { k with
      zone := strip k.zone
      vnet := strip k.vnet
      subnet := strip k.subnet
      egressPolicy := egressPolicy
      firewallProfile := given (strip (given k.firewallProfile "isolated_open_egress")) "isolated_open_egress" }
    if !new.texts.all storable then .error .dataError
    else
      match db.bindings.find? fun old => old.bubbleId = k.bubbleId with
      | none => .ok (new, { db with bindings := db.bindings ++ [new] })
      | some old =>
        let merged := { new with lastApplyState := old.lastApplyState }
        .ok (merged, { db with
          bindings := db.bindings.map fun b => if b.bubbleId = k.bubbleId then merged else b })
  else .error (.valueError ("Unsupported SDN lab egress policy: " ++ egressPolicy))

def deleteBinding (db : Db) (bubbleId : Nat) : Db :=
  { db with bindings := db.bindings.filter fun k => k.bubbleId ≠ bubbleId }

end Tables

section Endpoints
variable (py : Python)

/-- The row of `create_bubble`; `hex` is what `_slug` draws for a name without letters. -/
def bubbleOf (preflight : Preflight) (body : LabBody) (hex : String) (id : Nat) : Bubble :=
  let default := fun (f : SubnetInfo → String) => (preflight.subnet.map f).getD ""
  { id := id
    name := strip body.name
    slug := Bubbles.bubbleSlug py.lower body.name hex
    domainName := py.lower (strip body.domainName)
    netbiosName := py.upper (strip body.netbiosName)
    cidr := strip (given body.cidr (default SubnetInfo.cidr))
    gatewayIp := strip (given body.gatewayIp (default SubnetInfo.gateway))
    plannedBridge := strip body.vnet
    lifecycleState := "active"
    isolationStatus := "isolated"
    dhcpScope := strip (given body.dhcpScope (given (default SubnetInfo.network) body.vnet))
    dhcpPoolStart := strip (given body.dhcpPoolStart (default SubnetInfo.dhcpPoolStart))
    dhcpPoolEnd := strip (given body.dhcpPoolEnd (default SubnetInfo.dhcpPoolEnd)) }

def bindingOf (preflight : Preflight) (body : LabBody) (bubbleId : Nat) : Binding where
  bubbleId := bubbleId
  zone := body.zone
  vnet := body.vnet
  subnet := body.subnet
  egressPolicy := preflight.egressPolicy
  snatEnabled := preflight.snatEnabled
  firewallProfile := preflight.firewallProfile

structure Lab where
  bubble : Bubble
  binding : Binding
  preflight : Preflight

/-- `create_lab`: the answer and the tables, which keep what either store has committed. -/
def createLab (inventory : Inventory) (db : Db) (body : LabBody) (hex : String) : Except SdnError Lab × Db :=
  let preflight := labPreflight py inventory body
  if preflight.blocking ≠ [] then (.error (.preflightFailed preflight), db)
  else
    let bubble := bubbleOf py preflight body hex db.newId
    match insertBubble db bubble with
    | .error e => (.error e, db)
    | .ok db' =>
      match upsertBinding py db' (bindingOf preflight body bubble.id) with
      | .error e => (.error e, db')
      | .ok (binding, db'') => (.ok ⟨bubble, binding, preflight⟩, db'')

/-- The subnet of `get_lab_network`: the first that is the bound one, else the first with a
gateway, else the first. -/
def primaryOf (wanted : String) (rows : List Fields) : Option Fields :=
  ((rows.find? fun row => wanted ≠ "" ∧ wanted ∈ identityValues py row).or
    (rows.find? fun row => (get row "gateway").truthy)).or rows.head?

/-- Where the live query fails the subnet is null. -/
def getLabNetwork (inventory : Option Inventory) (db : Db) (bubbleId : Nat) :
    Except SdnError (Binding × Option SubnetInfo) :=
  match db.bindings.find? fun k => k.bubbleId = bubbleId with
  | none => .error .notFound
  | some k =>
    .ok (k, inventory.bind fun inventory =>
      (primaryOf py (strip k.subnet) (inventory.subnets k.vnet)).map (subnetInfo py))

/-- `item.get("vnet") or item.get("id")`. -/
def vnetId (row : Fields) : Json := orElse (get row "vnet") (get row "id")

def textOr (value : Json) : String := if value.truthy then textOf py value else ""

structure OrphanVnet where
  vnet : String
  zone : String
  vnetAlias : String
  vnetType : String
  subnet : Option SubnetInfo

def orphanOf (inventory : Inventory) (row : Fields) : OrphanVnet :=
  let subnets := inventory.subnets (textOr py (vnetId row))
  { vnet := textOr py (vnetId row)
    zone := textOr py (get row "zone")
    vnetAlias := textOr py (get row "alias")
    vnetType := textOr py (get row "type")
    subnet := (((subnets.find? fun s => (get s "gateway").truthy).or subnets.head?).filter (· ≠ [])).map (subnetInfo py) }

/-- `row[0]` of a row that is a dict, as the connection's row factory makes them. -/
def firstColumn (_ : Binding) : Except SdnError String := .error .keyError

def listOrphanVnets (inventory : Inventory) (db : Db) : Except SdnError (List OrphanVnet) := do
  let bound ← (db.bindings.filter fun k => k.vnet ≠ "").mapM firstColumn
  let vnets := inventory.vnets.filter fun row => (vnetId row).truthy
  pure ((vnets.filter fun row => textOr py (vnetId row) ∉ bound).map (orphanOf py inventory))

end Endpoints

section Histories

structure World where
  inventory : Option Inventory := none
  db : Db := {}

/-- The requests, and the changes made in Proxmox; without an inventory its query fails. -/
inductive Event where
  | setInventory (inventory : Option Inventory)
  | createLab (body : LabBody) (hex : String)
  | deleteBinding (bubbleId : Nat)
  | getLabNetwork (bubbleId : Nat)
  | listOrphanVnets

def exec (py : Python) (w : World) : Event → World
  | .setInventory inventory => { w with inventory := inventory }
  | .createLab body hex =>
    match w.inventory with
    | none => w
    | some inventory => { w with db := (createLab py inventory w.db body hex).2 }
  | .deleteBinding bubbleId => { w with db := deleteBinding w.db bubbleId }
  | .getLabNetwork _ | .listOrphanVnets => w

end Histories

end ProxmoxVEAutopilot.Sdn
