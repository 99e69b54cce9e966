import ProxmoxVEAutopilot.Foundation.Coroutines
import ProxmoxVEAutopilot.Foundation.Table
import ProxmoxVEAutopilot.ManagedLabs.PlanSession

/-!
# Carrying out a fix action

`execute_fix_action` against a Proxmox that answers each call as it likes, or fails it. A
request is what is asked of Proxmox; the URL is made of its arguments.
-/

namespace ProxmoxVEAutopilot.ManagedLabs.FixActions

open Foundation
open Foundation.Coroutine (await catching ofExcept state update)
open PlanSession (FindingRow getOr orElse idText isNamed)

set_option autoImplicit false

abbrev Fields := List (String × Json)

section Calls

inductive SdnCall where
  | zones
  | vnets
  | subnets (vnet : Json)
  | controllers
  | ipams
  | dns
  | fabrics
  | createZone (body : Json)
  | createVnet (body : Json)
  | createSubnet (vnet : String) (body : Json)
  | acquireLock (allowPending : Bool)
  | applySdn (token : String)
  | releaseLock (token : String) (force : Bool)

def SdnCall.mutates : SdnCall → Bool
  | .zones | .vnets | .subnets _ | .controllers | .ipams | .dns | .fabrics => false
  | .createZone _ | .createVnet _ | .createSubnet _ _ | .acquireLock _ | .applySdn _ | .releaseLock _ _ => true

inductive ActionType where
  | createZone
  | createVnet
  | createSubnet
  | applySdn
deriving DecidableEq, Repr

def ActionType.text : ActionType → String
  | .createZone => "create_sdn_zone"
  | .createVnet => "create_sdn_vnet"
  | .createSubnet => "create_sdn_subnet"
  | .applySdn => "apply_sdn"

/-- `ACTION_FINDING_TYPES`. -/
def ActionType.findingType : ActionType → Option String
  | .createZone => some "sdn_zone_missing"
  | .createVnet => some "sdn_vnet_missing"
  | .createSubnet => some "sdn_subnet_missing"
  | .applySdn => none

def supportedActions : List ActionType := [.createZone, .createVnet, .createSubnet, .applySdn]

end Calls

section State

/-- A row of `lab_fix_actions` with what carrying it out writes. -/
structure StoredFix where
  id : Nat
  row : PlanSession.FixRow
  result : Json := .obj []
  snapshotId : Option Nat := none

structure FixDb where
  labs : List LabId := []
  fixes : List StoredFix := []
  findings : List FindingRow := []
  snapshots : Nat := 0

/-- The connection, and the two variables that the `except` clause reads. -/
structure FixState where
  committed : FixDb
  work : FixDb
  lockToken : String := ""
  released : Bool := false

/-- An exception is its text. -/
abbrev Handler (α : Type) := Coroutine FixState SdnCall String Json α

def commit : Handler Unit := update fun s => { s with committed := s.work }

end State

/-- What is taken from Python: `str`, `str.lower`, and `dict` of a value that is neither a dict nor
false. -/
structure Python where
  str : Json → String
  str_str : ∀ s, str (.str s) = s
  lower : String → String
  dict : Json → Except String Fields

section Inventory
variable (py : Python)

def secretFieldNames : List String := ["key", "token", "password", "secret"]

mutual

def clean : Json → Json
  | .obj fields => .obj (cleanFields fields)
  | .arr xs => .arr (cleanItems xs)
  | .bool b => .int (if b then 1 else 0)
  | j => j

def cleanFields : List (String × Json) → List (String × Json)
  | [] => []
  | (key, value) :: rest =>
    if py.lower key ∈ secretFieldNames then cleanFields rest else (key, clean value) :: cleanFields rest

def cleanItems : List Json → List Json
  | [] => []
  | x :: xs => clean x :: cleanItems xs

end

def iterate (rows : Json) : Except String (List Json) := (PlanSession.iterate rows).mapError fun _ => "not iterable"

/-- `dict(row or {})`. -/
def asRow (row : Json) : Except String Fields :=
  match orElse row (.obj []) with
  | .obj fields => .ok fields
  | value => py.dict value

def setField (fields : Fields) (key : String) (value : Json) : Fields :=
  if fields.any fun f => f.1 = key then fields.map fun f => if f.1 = key then (key, value) else f
  else fields ++ [(key, value)]

def withId (key : String) (row : Json) : Except String Fields := do
  let fields ← asRow py row
  let cleaned := cleanFields py fields
  return if cleaned.any (fun f => f.1 = "id") ∨ getOr cleaned key .null = .null then cleaned
    else cleaned ++ [("id", getOr cleaned key .null)]

-- `_parse_dhcp_range`, of which nothing is read here.
variable (dhcpRange : Option Json → String × String)

def normalizeSubnet (row : Json) : Except String Fields := do
  let out ← withId py "subnet" row
  let range := dhcpRange (out.lookup "dhcp-range")
  return setField (setField out "dhcp_range_start" (.str range.1)) "dhcp_range_end" (.str range.2)

/-- What is read of an inventory. -/
structure SdnInventory where
  zones : List Fields
  vnets : List Fields
  subnetsByVnet : List (String × List Fields)

def SdnInventory.subnets (inventory : SdnInventory) (vnet : String) : List Fields :=
  (inventory.subnetsByVnet.lookup vnet).getD []

def rows (normalize : Json → Except String Fields) (answer : Json) : Except String (List Fields) := do
  let items ← iterate (orElse answer (.arr []))
  items.mapM normalize

def setSubnets (seen : List (String × List Fields)) (vnet : String) (subnets : List Fields) :
    List (String × List Fields) :=
  if seen.any fun f => f.1 = vnet then seen.map fun f => if f.1 = vnet then (vnet, subnets) else f
  else seen ++ [(vnet, subnets)]

def subnetsByVnet (seen : List (String × List Fields)) : List Fields → Handler (List (String × List Fields))
  | [] => pure seen
  | vnet :: vnets =>
    let vnetId := orElse (getOr vnet "id" .null) (getOr vnet "vnet" .null)
    if vnetId.truthy then do
      let answer ← catching (await (.subnets vnetId)) fun _ => pure (.arr [])
      let subnets ← ofExcept (rows (normalizeSubnet py dhcpRange) answer)
      subnetsByVnet (setSubnets seen (py.str vnetId) subnets) vnets
    else subnetsByVnet seen vnets

/-- A list that is left empty if Proxmox does not give it. -/
def optionalRows (call : SdnCall) : Handler Unit :=
  catching (do let _ ← await call) fun _ => pure ()

def inventory : Handler SdnInventory := do
  let zones ← await .zones
  let zones ← ofExcept (rows (withId py "zone") zones)
  let vnets ← await .vnets
  let vnets ← ofExcept (rows (withId py "vnet") vnets)
  let subnetsByVnet ← subnetsByVnet py dhcpRange [] vnets
  optionalRows .controllers
  optionalRows .ipams
  optionalRows .dns
  optionalRows .fabrics
  return { zones, vnets, subnetsByVnet }

end Inventory

section Presence
variable (py : Python)

def requestText (request : Fields) (key : String) : String :=
  strip (py.str (orElse (getOr request key .null) (.str "")))

/-- `_ids` of one row. -/
def idTexts (keys : List String) (row : Fields) : List String :=
  ("id" :: keys).filterMap fun key => idText py.str (row.lookup key)

def ids (rows : List Fields) (keys : List String) : List String := rows.flatMap (idTexts py keys)

def alreadyPresent (action : ActionType) (object : Fields) (what name : String) : Fields :=
  [("already_present", .bool true), ("action", .str action.text), ("object", .obj object),
    ("detail", .str (what ++ " " ++ name ++ " already present in snapshot."))]

def alreadyPresentResult (action : ActionType) (request : Fields) : Option Fields :=
  match action with
  | .createZone =>
    some (alreadyPresent action [("zone", getOr request "zone" .null)] "SDN zone" (py.str (getOr request "zone" .null)))
  | .createVnet =>
    some (alreadyPresent action [("vnet", getOr request "vnet" .null)] "SDN VNet" (py.str (getOr request "vnet" .null)))
  | .createSubnet =>
    some (alreadyPresent action [("vnet", getOr request "vnet" .null), ("subnet", getOr request "subnet" .null)]
      "SDN subnet" (py.str (getOr request "subnet" .null)))
  | .applySdn => none

def existingCreateResult (action : ActionType) (request : Fields) (inventory : SdnInventory) : Option Fields :=
  match action with
  | .createZone =>
    let zone := requestText py request "zone"
    if zone ≠ "" ∧ zone ∈ ids py inventory.zones ["zone"] then alreadyPresentResult py action request else none
  | .createVnet =>
    let vnet := requestText py request "vnet"
    if vnet ≠ "" ∧ vnet ∈ ids py inventory.vnets ["vnet"] then alreadyPresentResult py action request else none
  | .createSubnet =>
    let vnet := requestText py request "vnet"
    let subnet := requestText py request "subnet"
    if vnet ≠ "" ∧ subnet ≠ "" ∧ subnet ∈ ids py (inventory.subnets vnet) ["subnet", "cidr"] then
      alreadyPresentResult py action request
    else none
  | .applySdn => none

/-- What `_verification_rows` reports of a row, or of what was asked for. -/
def observedRow (key : String) (row asked : Fields) : Bool × Json :=
  (!row.isEmpty, .obj [("observed", .bool !row.isEmpty), (key, .obj (if row.isEmpty then asked else row))])

/-- `_verification_rows`, for the actions that are supported. -/
def verificationRows (action : ActionType) (request : Fields) (inventory : SdnInventory) : Bool × Json :=
  match action with
  | .createZone =>
    let zone := requestText py request "zone"
    observedRow "zone" ((inventory.zones.find? (isNamed py.str "zone" zone)).getD []) [("zone", .str zone)]
  | .createVnet =>
    let vnet := requestText py request "vnet"
    observedRow "vnet" ((inventory.vnets.find? (isNamed py.str "vnet" vnet)).getD []) [("vnet", .str vnet)]
  | .createSubnet =>
    let vnet := requestText py request "vnet"
    let subnet := requestText py request "subnet"
    observedRow "subnet"
      (((inventory.subnets vnet).find? fun row => decide (subnet ∈ idTexts py ["subnet", "cidr"] row)).getD [])
      [("vnet", .str vnet), ("subnet", .str subnet)]
  | .applySdn =>
    (true, .obj [("observed", .bool true),
      ("inventory_counts", .obj [("zones", .int inventory.zones.length), ("vnets", .int inventory.vnets.length),
        ("subnet_vnets", .int inventory.subnetsByVnet.length)])])

end Presence

section Statements

def getFixAction (db : FixDb) (fixId : Nat) : Option StoredFix := db.fixes.find? fun f => f.id = fixId

def resolveOpenFinding (labId : LabId) (findingType : String) (db : FixDb) : FixDb :=
  { db with
    findings := db.findings.map fun r =>
      if r.labId = labId ∧ r.finding.provider = "proxmox" ∧ r.finding.findingType = findingType ∧ r.status = "open" then
        { r with status := "resolved" }
      else r }

def resolveFindingOf (labId : LabId) (action : ActionType) : Handler Unit :=
  match action.findingType with
  | some findingType => update fun s => { s with work := resolveOpenFinding labId findingType s.work }
  | none => pure ()

def recordVerificationFailure (fix : StoredFix) (action : ActionType) (request : Fields) : Handler Unit :=
  update fun s =>
    { s with
      work :=
        { s.work with
          findings := s.work.findings ++
            [{ labId := fix.row.labId
               runId := fix.row.runId
               finding := ⟨"proxmox", action.text ++ "_verification_failed", "blocked",
                 "Verification did not observe the expected object after " ++ action.text ++ ".", .obj request⟩ }] } }

def StoredFix.written (fix : StoredFix) (status : String) (result : Json) (snapshotId : Nat) : StoredFix :=
  { fix with
    row := { fix.row with status := status }
    result := result
    snapshotId := some snapshotId }

/-- `update_fix_action`. The row was there, and nothing has deleted it. -/
def updateFixAction (fixId : Nat) (status : String) (result : Json) (snapshotId : Nat) : Handler Unit := do
  update fun s =>
    { s with
      work :=
        { s.work with
          fixes := Table.modify StoredFix.id s.work.fixes fixId fun f => f.written status result snapshotId } }
  commit

def recordProviderSnapshot : Handler Nat := do
  let s ← state
  update fun s => { s with work := { s.work with snapshots := s.work.snapshots + 1 } }
  commit
  return s.work.snapshots

end Statements

section Execute
-- `sync_lab_network_current_state` writes other tables, or raises.
variable (py : Python) (dhcpRange : Option Json → String × String) (sync : SdnInventory → String → Except String Unit)

def validateFixScope (fix : StoredFix) : Except String (ActionType × Fields) := do
  if strip fix.row.provider ≠ "proxmox" then throw "unsupported provider"
  if strip fix.row.status ≠ "pending" then throw "unsupported status"
  match supportedActions.find? fun a => a.text = strip fix.row.action.actionType with
  | none => throw "unsupported action type"
  | some action => return (action, ← asRow py fix.row.action.request)

def lockTokenFromResponse : Json → String
  | .str s => strip s
  | .obj fields =>
    strip (py.str (["lock-token", "lock", "lock_token", "token"].foldr
      (fun key rest => orElse (getOr fields key .null) rest) (orElse (getOr fields "data" .null) (.str ""))))
  | _ => ""

/-- What the wrappers of `proxmox_sdn` make of an answer. -/
def cleanAnswer (answer : Json) : Json := clean py (orElse answer (.obj []))

def create (call : SdnCall) : Handler Json := do
  let answer ← await call
  return cleanAnswer py answer

def createSubnet (request : Fields) : Handler Json := do
  let vnet := requestText py request "vnet"
  if vnet = "" then ofExcept (.error "create_sdn_subnet requires vnet")
  else
    let body := (request.filter fun f => f.1 ≠ "vnet").foldl (fun body f => setField body f.1 f.2) [("type", .str "subnet")]
    create py (.createSubnet vnet (clean py (.obj body)))

def applyLocked (token : String) : Handler Json := do
  let result ← await (.applySdn token)
  let _ ← await (.releaseLock token false)
  update fun s => { s with released := true }
  return cleanAnswer py result

def applyPending (request : Fields) : Handler Json := do
  let lock ← await (.acquireLock (getOr request "allow_pending" (.bool true)).truthy)
  let token := lockTokenFromResponse py (cleanAnswer py lock)
  update fun s => { s with lockToken := token }
  if token = "" then ofExcept (.error "failed to acquire SDN lock token")
  else applyLocked py token

def mutate (action : ActionType) (request : Fields) : Handler Json :=
  match action with
  | .createZone => create py (.createZone (clean py (.obj request)))
  | .createVnet => create py (.createVnet (clean py (.obj request)))
  | .createSubnet => createSubnet py request
  | .applySdn => applyPending py request

/-- The body of the `try`. -/
def attemptFix (action : ActionType) (request : Fields) : Handler (Json × SdnInventory) := do
  let result ← mutate py action request
  let inventory ← inventory py dhcpRange
  return (result, inventory)

/-- What the `except` clause does before it fails the action. -/
def forceRelease : Handler Unit := do
  let s ← state
  if s.lockToken ≠ "" ∧ s.released = false then
    catching (do let _ ← await (.releaseLock s.lockToken true)) fun _ => pure ()
  else pure ()

/-- What is known when the action is begun. -/
structure Prepared where
  fix : StoredFix
  action : ActionType
  request : Fields
  inventory : SdnInventory
  snapshotId : Nat

def prepare (fixId : Nat) : Handler Prepared := do
  let s ← state
  let fix ← ofExcept (match getFixAction s.work fixId with
    | some fix => .ok fix
    | none => .error "fix action not found")
  let (action, request) ← ofExcept (validateFixScope py fix)
  ofExcept (if fix.row.labId ∈ s.work.labs then .ok () else .error "lab not found")
  let inventory ← inventory py dhcpRange
  let snapshotId ← recordProviderSnapshot
  return { fix, action, request, inventory, snapshotId }

/-- The object was there before. -/
def finishPresent (p : Prepared) (existing : Fields) : Handler Unit := do
  let verification := (verificationRows py p.action p.request p.inventory).2
  ofExcept (sync p.inventory "fixing")
  resolveFindingOf p.fix.row.labId p.action
  updateFixAction p.fix.id "fixed" (.obj ([("ok", .bool true)] ++ existing ++ [("verification", verification)])) p.snapshotId

def finishMutated (p : Prepared) (result : Json) (post : SdnInventory) : Handler Unit := do
  let (observed, verification) := verificationRows py p.action p.request post
  ofExcept (sync post (if p.action = .applySdn ∧ observed then "ready" else "fixing"))
  if observed then do
    resolveFindingOf p.fix.row.labId p.action
    updateFixAction p.fix.id "fixed"
      (.obj [("ok", .bool true), ("result", result), ("verification", verification)]) p.snapshotId
  else do
    recordVerificationFailure p.fix p.action p.request
    updateFixAction p.fix.id "failed"
      (.obj [("ok", .bool false),
        ("error", .str ("verification did not observe the expected object after " ++ p.action.text)),
        ("result", result), ("verification", verification)]) p.snapshotId

def finishFailed (p : Prepared) (error : String) : Handler Unit := do
  forceRelease
  updateFixAction p.fix.id "failed" (.obj [("ok", .bool false), ("error", .str error)]) p.snapshotId

/-- What the `try` came to. -/
def attempted (p : Prepared) : Handler (Except String (Json × SdnInventory)) :=
  catching (do let done ← attemptFix py dhcpRange p.action p.request; return .ok done) fun error => pure (.error error)

def carryOut (p : Prepared) : Handler Unit :=
  match existingCreateResult py p.action p.request p.inventory with
  | some existing => finishPresent py sync p existing
  | none => do
    let done ← attempted py dhcpRange p
    match done with
    | .ok (result, post) => finishMutated py sync p result post
    | .error error => finishFailed p error

def executeFixAction (fixId : Nat) : Handler Unit := do
  let p ← prepare py dhcpRange fixId
  carryOut py dhcpRange sync p

end Execute

end ProxmoxVEAutopilot.ManagedLabs.FixActions
