import ProxmoxVEAutopilot.Foundation.Networks
import ProxmoxVEAutopilot.Foundation.Text

/-!
# Managed labs

Labs, their reservations and the identities their objects have at the providers. A call
is one transaction: where it raises, nothing of it is kept.
-/

namespace ProxmoxVEAutopilot.ManagedLabs

open Foundation
set_option autoImplicit false

abbrev LabId := Nat

/-- A row of `labs`. -/
structure Lab where
  id : LabId
  name : String
  slug : String
  shortCode : String
  groupTag : String
  networkCidr : String
  gatewayIp : String
  networkMode : String
  sdnZone : String
  sdnVnet : String
  sdnSubnet : String
deriving DecidableEq, Repr

/-- A row of `lab_reservations`. -/
structure Reservation where
  labId : LabId
  reservationType : String
  value : String
  status : String := "active"
deriving DecidableEq, Repr

/-- A lab has one object of a name for each kind of a provider. -/
structure BoundaryObject where
  labId : LabId
  provider : String
  kind : String
  name : String
deriving DecidableEq, Repr

/-- A row of `lab_boundary_object_provider_identities`. -/
structure ProviderIdentity where
  object : BoundaryObject
  key : String
  value : String
deriving DecidableEq, Repr

/-- Reservations stand in the order they were created in. -/
structure LabsDb where
  labs : List Lab := []
  reservations : List Reservation := []
  identities : List ProviderIdentity := []
deriving DecidableEq, Repr

inductive LabError where
  | valueError (text : String)
  | uniqueViolation
deriving DecidableEq, Repr

section Names

-- `str.lower`, of which nothing is used.
variable (lower : String → String)

def isIdChar (c : Char) : Bool := c.isLower || c.isDigit

/-- The texts between what `_slug` replaces, and a drawn one if there are none. -/
def slugOf (value hex : String) : String :=
  let words := ((lower (strip value)).toList.splitOnP fun c => !isIdChar c).filter fun word => word ≠ []
  if words = [] then "lab-" ++ hex else "-".intercalate (words.map String.ofList)

def proxmoxSdnIdPart (value hex : String) : List Char :=
  let cleaned := (lower (strip value)).toList.filter isIdChar
  if cleaned = [] then hex.toList else cleaned

def proxmoxSdnZoneId (shortCode hex : String) : String :=
  String.ofList ((proxmoxSdnIdPart lower shortCode hex).take 6 ++ ['z'])

def proxmoxSdnVnetId (shortCode hex : String) : String :=
  String.ofList ((proxmoxSdnIdPart lower shortCode hex).take 6 ++ ['v', 'n'])

end Names

/-- `first or second` for texts that are not `None`. -/
def textOr (first second : String) : String := if first = "" then second else first

section Identities

def ProviderIdentity.sameKey (r s : ProviderIdentity) : Bool :=
  r.object.provider == s.object.provider && r.object.kind == s.object.kind && r.key == s.key && r.value == s.value

def insertIdentity (identities : List ProviderIdentity) (r : ProviderIdentity) :
    Except LabError (List ProviderIdentity) :=
  if identities.any fun s => s.sameKey r || (s.object == r.object && s.key == r.key) then .error .uniqueViolation
  else .ok (identities ++ [r])

def providerIdentityRows (o : BoundaryObject) (providerIds : List (String × String)) : List ProviderIdentity :=
  (providerIds.map fun p => ⟨o, strip p.1, strip p.2⟩).filter fun r : ProviderIdentity => r.key ≠ "" ∧ r.value ≠ ""

/-- What is kept of `upsert_boundary_object`: the identities of the object, written anew. -/
def upsertBoundaryObject (identities : List ProviderIdentity) (x : BoundaryObject × List (String × String)) :
    Except LabError (List ProviderIdentity) :=
  (providerIdentityRows x.1 x.2).foldlM insertIdentity (identities.filter fun r => r.object ≠ x.1)

structure NetworkShape where
  zone : String
  vnet : String
  subnet : String

variable (lower : String → String)

/-- No stored zone or VNet is empty, so that the drawn `hex` is never read. -/
def labNetworkShape (lab : Lab) (hex : String) : NetworkShape where
  zone := textOr (strip lab.sdnZone) (proxmoxSdnZoneId lower (lower (strip lab.shortCode)) hex)
  vnet := textOr (strip lab.sdnVnet) (proxmoxSdnVnetId lower (lower (strip lab.shortCode)) hex)
  subnet := textOr (strip lab.sdnSubnet) (strip lab.networkCidr)

/-- The objects of a lab, and what names them at their providers. -/
def networkObjects (lab : Lab) (hex : String) : List (BoundaryObject × List (String × String)) :=
  let network := labNetworkShape lower lab hex
  [(⟨lab.id, "network", "subnet", lab.networkCidr⟩, [("cidr", lab.networkCidr)]),
    (⟨lab.id, "proxmox", "sdn_zone", network.zone⟩, [("zone", network.zone)]),
    (⟨lab.id, "proxmox", "sdn_vnet", network.vnet⟩, [("vnet", network.vnet)]),
    (⟨lab.id, "proxmox", "sdn_subnet", network.subnet⟩, [("vnet", network.vnet), ("subnet", network.subnet)])]

def boundaryObjects (lab : Lab) (hex : String) : List (BoundaryObject × List (String × String)) :=
  networkObjects lower lab hex ++
  [(⟨lab.id, "ad", "group", lab.groupTag⟩, [("group_tag", lab.groupTag)]),
    (⟨lab.id, "entra", "device_group", lab.groupTag⟩, [("group_tag", lab.groupTag)]),
    (⟨lab.id, "intune", "autopilot_profile", lab.groupTag⟩, [("group_tag", lab.groupTag)]),
    (⟨lab.id, "deployment", "naming_policy", lab.shortCode ++ "-naming-policy"⟩, [("short_code", lab.shortCode)])]

def ensureLabBoundaryModel (identities : List ProviderIdentity) (lab : Lab) (hex : String) :
    Except LabError (List ProviderIdentity) :=
  (boundaryObjects lower lab hex).foldlM upsertBoundaryObject identities

end Identities

section Reservations

def reserveValue (labId : LabId) (reservationType : String) (reservations : List Reservation) (value : String) :
    Except LabError (List Reservation) :=
  let sameKey (r : Reservation) : Bool := r.reservationType == reservationType && r.value == strip value
  match reservations.find? sameKey with
  | none => .ok (reservations ++ [⟨labId, reservationType, strip value, "active"⟩])
  | some r =>
    if r.labId = labId then
      .ok (reservations.map fun s => if sameKey s ∧ s.labId = labId then { s with status := "active" } else s)
    else
      .error (.valueError
        ("reservation " ++ reservationType ++ ":" ++ strip value ++ " is already reserved by another lab"))

variable (lower : String → String)

def threeDigits (index : Nat) : String := String.ofList (List.leftpad 3 '0' (toString index).toList)

def defaultName (shortCode role : String) (index : Nat) : String :=
  lower (strip shortCode) ++ "-" ++ lower (strip role) ++ "-" ++ threeDigits index

def reserveName (labId : LabId) (reservations : List Reservation) (value : String) :
    Except LabError (List Reservation) :=
  if 15 < value.length then .error (.valueError ("generated Windows hostname exceeds 15 characters: " ++ value))
  else reserveValue labId "hostname" reservations value

def reserveDefaultNames (labId : LabId) (shortCode role : String) (count : Nat) (reservations : List Reservation) :
    Except LabError (List Reservation) :=
  ((List.range count).map fun i => defaultName lower shortCode role (i + 1)).foldlM (reserveName labId) reservations

end Reservations

section Create
variable (lower : String → String)

structure LabCreateBody where
  name : String
  shortCode : String
  groupTag : String
  networkCidr : String
  gatewayIp : String := ""
  networkMode : String := "sdn"
  sdnZone : String := ""
  sdnVnet : String := ""
  sdnSubnet : String := ""
  templateId : String := ""
  desktopCount : Int := 0
  serverCount : Int := 0

/-- What a call draws at random. -/
structure Draws where
  labId : LabId
  slugHex : String := ""
  zoneHex : String := ""
  vnetHex : String := ""

def labTemplates : List String := ["standard-hybrid-lab", "cloud-desktop-lab", "server-validation-lab"]

/-- `get_lab_template`; of the template nothing is read below. -/
def checkTemplate (templateId : String) : Except LabError Unit :=
  if strip templateId = "" ∨ strip templateId ∈ labTemplates then .ok ()
  else .error (.valueError ("unknown lab template: " ++ strip templateId))

def newLab (draws : Draws) (body : LabCreateBody) : Lab :=
  let shortCode := lower (strip body.shortCode)
  { id := draws.labId
    name := strip body.name
    slug := slugOf lower body.name draws.slugHex
    shortCode := shortCode
    groupTag := strip body.groupTag
    networkCidr := strip body.networkCidr
    gatewayIp := strip body.gatewayIp
    networkMode := textOr (strip body.networkMode) "sdn"
    sdnZone := textOr (strip body.sdnZone) (proxmoxSdnZoneId lower shortCode draws.zoneHex)
    sdnVnet := textOr (strip body.sdnVnet) (proxmoxSdnVnetId lower shortCode draws.vnetHex)
    sdnSubnet := strip (textOr body.sdnSubnet body.networkCidr) }

def insertLab (labs : List Lab) (lab : Lab) : Except LabError (List Lab) :=
  if labs.any fun l => l.id == lab.id || l.slug == lab.slug then .error .uniqueViolation else .ok (labs ++ [lab])

/-- `managed_labs_pg.create_lab`. -/
def createLabRow (db : LabsDb) (draws : Draws) (body : LabCreateBody) : Except LabError (LabsDb × Lab) := do
  checkTemplate body.templateId
  if body.desktopCount < 0 ∨ body.serverCount < 0 then
    throw (.valueError "device counts must be zero or greater")
  let lab := newLab lower draws body
  let labs ← insertLab db.labs lab
  let identities ← ensureLabBoundaryModel lower db.identities lab draws.zoneHex
  return ({ db with labs, identities }, lab)

def createLabSteps (db : LabsDb) (draws : Draws) (body : LabCreateBody) : Except LabError (LabsDb × Lab) := do
  let (db, lab) ← createLabRow lower db draws body
  let reservations ← reserveValue lab.id "group_tag" db.reservations lab.groupTag
  let reservations ← reserveValue lab.id "cidr" reservations lab.networkCidr
  let reservations ← reserveDefaultNames lower lab.id lab.shortCode "wks" body.desktopCount.toNat reservations
  let reservations ← reserveDefaultNames lower lab.id lab.shortCode "srv" body.serverCount.toNat reservations
  return ({ db with reservations }, lab)

def validateBody (body : LabCreateBody) : Except String LabCreateBody := do
  if (Ip.ipNetwork (strip body.networkCidr)).isNone then throw "network_cidr must be a valid CIDR"
  if strip body.gatewayIp ≠ "" ∧ (Ip.ipAddress (strip body.gatewayIp)).isNone then
    throw "gateway_ip must be a valid IPv4 or IPv6 address"
  if ¬ (0 ≤ body.desktopCount ∧ body.desktopCount ≤ 500) then throw "desktop_count"
  if ¬ (0 ≤ body.serverCount ∧ body.serverCount ≤ 500) then throw "server_count"
  return { body with networkCidr := strip body.networkCidr, gatewayIp := strip body.gatewayIp }

inductive CreateAnswer where
  | created (lab : Lab)
  | unprocessable (text : String)
  | conflict (text : String)
  | failed
deriving DecidableEq, Repr

/-- The endpoint `create_lab`. -/
def createLab (db : LabsDb) (draws : Draws) (body : LabCreateBody) : LabsDb × CreateAnswer :=
  match validateBody body with
  | .error text => (db, .unprocessable text)
  | .ok body =>
    match createLabSteps lower db draws body with
    | .ok (created, lab) => (created, .created lab)
    | .error (.valueError text) => (db, .conflict text)
    | .error .uniqueViolation => (db, .failed)

/-- The rows of the other tables go with the lab. -/
def deleteLab (db : LabsDb) (labId : LabId) : LabsDb where
  labs := db.labs.filter fun l => l.id ≠ labId
  reservations := db.reservations.filter fun r => r.labId ≠ labId
  identities := db.identities.filter fun r => r.object.labId ≠ labId

end Create

end ProxmoxVEAutopilot.ManagedLabs
