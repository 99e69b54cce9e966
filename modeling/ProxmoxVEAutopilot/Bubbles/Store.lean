import ProxmoxVEAutopilot.Foundation.Json
import ProxmoxVEAutopilot.Foundation.Table
import ProxmoxVEAutopilot.Foundation.Text
import ProxmoxVEAutopilot.Foundation.Transactions

/-!
# Lab bubbles

Bubbles, the assets that are in them, the services these provide and the audit log.
-/

namespace ProxmoxVEAutopilot.Bubbles

open Foundation
set_option autoImplicit false

section Tables

/-- A row of `lab_bubbles`. -/
structure Bubble where
  id : Nat
  name : String
  slug : String
  dhcpScope : String := ""
  dhcpPoolStart : String := ""
  dhcpPoolEnd : String := ""
  dhcpOwnerAssetId : Option Nat := none
  dcReady : Bool := false
  dnsReady : Bool := false
  dhcpReady : Bool := false
  workloadReady : Bool := false
  allowEarlyWorkgroupLaunch : Bool := true
  requireDomainReady : Bool := true
  requireMultiDomainReady : Bool := true
  updatedAt : Nat
deriving DecidableEq

/-- A row of `lab_bubble_assets`. -/
structure Asset where
  id : Nat
  bubbleId : Nat
  assetType : String
  assetRole : String
  vmid : Option Int := none
  vmUuid : Option String := none
  runId : Option String := none
  agentId : Option String := none
  serviceId : Option String := none
  membershipState : String := "active"
  evidenceState : String := "unknown"
  notes : String := ""
  createdAt : Nat
  updatedAt : Nat
deriving DecidableEq

/-- A row of `lab_bubble_services`. -/
structure Service where
  id : Nat
  bubbleId : Nat
  serviceKind : String
  serviceName : String
  scope : String := "bubble_local"
  providerAssetId : Option Nat := none
  consumerRefs : List Json := []
  readinessState : String := "unknown"
  lastEvidenceAt : Option Nat := none
  evidenceSummary : Json := .obj []
  createdAt : Nat
  updatedAt : Nat
deriving DecidableEq

/-- `dc_readiness` of a heartbeat: what `bool` and `str` make of its values. -/
structure Evidence where
  adDsReady : Bool := false
  dnsReady : Bool := false
  dhcpReady : Bool := false
  dhcpScope : String := ""
  dhcpPoolStart : String := ""
  dhcpPoolEnd : String := ""
deriving DecidableEq

inductive AuditValues where
  | nothing
  | asset (a : Asset)
  | service (s : Service)
  | evidence (e : Evidence)
deriving DecidableEq

/-- A row of `lab_bubble_audit_events`. -/
structure AuditEvent where
  bubbleId : Nat
  assetId : Option Nat := none
  action : String
  actor : String := "system"
  reason : String := ""
  oldValues : AuditValues := .nothing
  newValues : AuditValues := .nothing
  createdAt : Nat
deriving DecidableEq

/-- `nextId` is what `_new_id` draws next. -/
structure BubblesDb where
  bubbles : List Bubble := []
  assets : List Asset := []
  services : List Service := []
  events : List AuditEvent := []
  nextId : Nat := 0
deriving DecidableEq

/-- `lost` stands for every error of the server that the rows do not decide. -/
inductive BubbleError where
  | valueError (text : String)
  | typeError
  | uniqueViolation
  | foreignKeyViolation
  | notNullViolation
  | lost
deriving DecidableEq

end Tables

section Statements

abbrev Statement (α : Type) := BubblesDb → Except BubbleError (α × BubblesDb)

def getBubble (db : BubblesDb) (bubbleId : Nat) : Option Bubble := db.bubbles.find? fun b => b.id = bubbleId

def getAsset (db : BubblesDb) (assetId : Nat) : Option Asset := db.assets.find? fun a => a.id = assetId

def getService (db : BubblesDb) (serviceId : Nat) : Option Service := db.services.find? fun s => s.id = serviceId

def insertBubble (row : Nat → Bubble) : Statement Bubble := fun db =>
  let bubble := row db.nextId
  if db.bubbles.any fun b => b.name = bubble.name ∨ b.slug = bubble.slug then .error .uniqueViolation
  else .ok (bubble, { db with bubbles := db.bubbles ++ [bubble], nextId := db.nextId + 1 })

def insertAsset (row : Nat → Asset) : Statement Asset := fun db =>
  let asset := row db.nextId
  if (getBubble db asset.bubbleId).isNone then .error .foreignKeyViolation
  else .ok (asset, { db with assets := db.assets ++ [asset], nextId := db.nextId + 1 })

def insertService (row : Nat → Service) : Statement Service := fun db =>
  let service := row db.nextId
  if (getBubble db service.bubbleId).isNone then .error .foreignKeyViolation
  else if service.providerAssetId.any fun id => (getAsset db id).isNone then .error .foreignKeyViolation
  else .ok (service, { db with services := db.services ++ [service], nextId := db.nextId + 1 })

/-- `UPDATE lab_bubbles … WHERE id = … RETURNING *`; no row comes back where there is none. -/
def updateBubbleRow (bubbleId : Nat) (f : Bubble → Bubble) : Statement Bubble := fun db =>
  match getBubble db bubbleId with
  | none => .error (.valueError "bubble not found")
  | some bubble => .ok (f bubble, { db with bubbles := Table.modify Bubble.id db.bubbles bubbleId f })

/-- The row that comes back is subscripted, which a missing one does not let. -/
def updateAssetRow (assetId : Nat) (f : Asset → Except BubbleError Asset) : Statement Asset := fun db =>
  match getAsset db assetId with
  | none => .error .typeError
  | some old =>
    match f old with
    | .error e => .error e
    | .ok asset =>
      if (getBubble db asset.bubbleId).isNone then .error .foreignKeyViolation
      else .ok (asset, { db with assets := Table.modify Asset.id db.assets assetId fun _ => asset })

def updateServiceRow (serviceId : Nat) (f : Service → Except BubbleError Service) : Statement Service := fun db =>
  match getService db serviceId with
  | none => .error .typeError
  | some old =>
    match f old with
    | .error e => .error e
    | .ok service =>
      if service.providerAssetId.any fun id => (getAsset db id).isNone then .error .foreignKeyViolation
      else .ok (service, { db with services := Table.modify Service.id db.services serviceId fun _ => service })

def deleteServiceRow (serviceId : Nat) : Statement Unit := fun db =>
  .ok ((), { db with services := Table.delete Service.id db.services serviceId })

def recordAuditEvent (event : AuditEvent) : Statement Unit := fun db =>
  if (getBubble db event.bubbleId).isNone then .error .foreignKeyViolation
  else if event.assetId.any fun id => (getAsset db id).isNone then .error .foreignKeyViolation
  else .ok ((), { db with events := db.events ++ [event] })

end Statements

section Calls
open Transaction

abbrev Txn (α : Type) := Transaction BubblesDb BubbleError α

structure NewBubble where
  name : String
  dhcpScope : String := ""
  dhcpPoolStart : String := ""
  dhcpPoolEnd : String := ""
  hex : String := ""

/-- `_slug`: the texts between what it replaces, and a drawn one if there are none. -/
def bubbleSlug (lower : String → String) (value hex : String) : String :=
  let words := ((lower (strip value)).toList.splitOnP fun c => !(c.isLower || c.isDigit)).filter fun word => word ≠ []
  if words = [] then "bubble-" ++ hex else "-".intercalate (words.map String.ofList)

def createBubble (lower : String → String) (new : NewBubble) (now : Nat) : Txn Bubble := do
  let row ← write (insertBubble fun id =>
    { id := id, name := strip new.name, slug := bubbleSlug lower new.name new.hex, dhcpScope := strip new.dhcpScope,
      dhcpPoolStart := strip new.dhcpPoolStart, dhcpPoolEnd := strip new.dhcpPoolEnd, updatedAt := now })
  commit
  return row

structure NewAsset where
  assetType : String
  assetRole : String
  vmid : Option Int := none
  vmUuid : Option String := none
  runId : Option String := none
  agentId : Option String := none
  serviceId : Option String := none
  membershipState : String := "active"
  evidenceState : String := "unknown"
  notes : String := ""
  actor : String := "system"

def addAsset (bubbleId : Nat) (new : NewAsset) (now : Nat) : Txn Asset := do
  let asset ← write (insertAsset fun id =>
    { id := id, bubbleId := bubbleId, assetType := new.assetType, assetRole := new.assetRole, vmid := new.vmid,
      vmUuid := new.vmUuid, runId := given new.runId, agentId := new.agentId, serviceId := given new.serviceId,
      membershipState := new.membershipState, evidenceState := new.evidenceState, notes := new.notes,
      createdAt := now, updatedAt := now })
  write (recordAuditEvent
    { bubbleId := bubbleId, assetId := some asset.id, action := "asset_added", actor := new.actor,
      newValues := .asset asset, createdAt := now })
  commit
  return asset

/-- A value for a column that is NOT NULL; `some none` is a `None` that was passed. -/
def setText (value : Option (Option String)) (current : String) : Except BubbleError String :=
  match value with
  | none => .ok current
  | some (some text) => .ok text
  | some none => .error .notNullViolation

/-- The fields `update_asset` lets through. -/
structure AssetPatch where
  assetRole : Option (Option String) := none
  vmid : Option (Option Int) := none
  vmUuid : Option (Option String) := none
  runId : Option (Option String) := none
  agentId : Option (Option String) := none
  serviceId : Option (Option String) := none
  membershipState : Option (Option String) := none
  evidenceState : Option (Option String) := none
  notes : Option (Option String) := none
deriving DecidableEq

def AssetPatch.apply (patch : AssetPatch) (now : Nat) (a : Asset) : Except BubbleError Asset := do
  let assetRole ← setText patch.assetRole a.assetRole
  let membershipState ← setText patch.membershipState a.membershipState
  let evidenceState ← setText patch.evidenceState a.evidenceState
  let notes ← setText patch.notes a.notes
  return { a with
    assetRole := assetRole
    vmid := patch.vmid.getD a.vmid
    vmUuid := patch.vmUuid.getD a.vmUuid
    runId := patch.runId.getD a.runId
    agentId := patch.agentId.getD a.agentId
    serviceId := patch.serviceId.getD a.serviceId
    membershipState := membershipState
    evidenceState := evidenceState
    notes := notes
    updatedAt := now }

def updateAsset (assetId : Nat) (patch : AssetPatch) (now : Nat) : Txn Asset := do
  match ← read (getAsset · assetId) with
  | none => raise (.valueError "asset not found")
  | some old =>
    if patch = {} then return old
    else
      let asset ← write (updateAssetRow assetId (patch.apply now))
      write (recordAuditEvent
        { bubbleId := asset.bubbleId, assetId := some assetId, action := "asset_updated", oldValues := .asset old,
          newValues := .asset asset, createdAt := now })
      commit
      return asset

def Asset.movedTo (a : Asset) (bubbleId now : Nat) : Asset := { a with bubbleId := bubbleId, updatedAt := now }

@[simp] theorem Asset.movedTo_id (a : Asset) (bubbleId now : Nat) : (a.movedTo bubbleId now).id = a.id := rfl

@[simp] theorem Asset.movedTo_bubbleId (a : Asset) (bubbleId now : Nat) :
    (a.movedTo bubbleId now).bubbleId = bubbleId := rfl

def providesElsewhere (db : BubblesDb) (assetId bubbleId : Nat) : Bool :=
  db.services.any fun s => s.providerAssetId = some assetId ∧ s.bubbleId ≠ bubbleId

def moveAsset (assetId bubbleId : Nat) (reason actor : String) (now : Nat) : Txn Asset := do
  match ← read (getAsset · assetId) with
  | none => raise (.valueError "asset not found")
  | some old =>
    if ← read (providesElsewhere · assetId bubbleId) then
      raise (.valueError "asset provides services in another bubble")
    else
      let moved ← write (updateAssetRow assetId fun a => .ok (a.movedTo bubbleId now))
      write (recordAuditEvent
        { bubbleId := bubbleId, assetId := some assetId, action := "asset_moved", actor := actor, reason := reason,
          oldValues := .asset old, newValues := .asset moved, createdAt := now })
      commit
      return moved

def isMember (a : Asset) : Bool := a.membershipState = "active" ∨ a.membershipState = "provisioning"

def assetInBubble (db : BubblesDb) (assetId bubbleId : Nat) (role : Option String) (activeOnly : Bool) : Option Asset :=
  db.assets.find? fun a =>
    a.id = assetId && a.bubbleId = bubbleId && role.all (a.assetRole = ·) && (!activeOnly || isMember a)

def requireAssetInBubble (assetId bubbleId : Nat) (role : Option String) (activeOnly : Bool) : Txn Asset := do
  match ← read (assetInBubble · assetId bubbleId role activeOnly) with
  | none => raise (.valueError "asset not found in bubble")
  | some asset => return asset

def requireProvider (provider : Option Nat) (bubbleId : Nat) : Txn Unit :=
  match provider with
  | none => return ()
  | some assetId => (requireAssetInBubble assetId bubbleId none false).forget

structure NewService where
  serviceKind : String
  serviceName : String
  scope : String := "bubble_local"
  providerAssetId : Option Nat := none
  consumerRefs : List Json := []
  readinessState : String := "unknown"
  evidenceSummary : Json := .obj []
  actor : String := "system"

def addService (bubbleId : Nat) (new : NewService) (now : Nat) : Txn Service := do
  requireProvider new.providerAssetId bubbleId
  let service ← write (insertService fun id =>
    { id := id, bubbleId := bubbleId, serviceKind := new.serviceKind, serviceName := new.serviceName,
      scope := new.scope, providerAssetId := new.providerAssetId, consumerRefs := new.consumerRefs,
      readinessState := new.readinessState,
      lastEvidenceAt := if new.readinessState ≠ "unknown" then some now else none,
      evidenceSummary := new.evidenceSummary, createdAt := now, updatedAt := now })
  write (recordAuditEvent
    { bubbleId := bubbleId, action := "service_added", actor := new.actor, newValues := .service service,
      createdAt := now })
  commit
  return service

/-- The fields `update_service` lets through. -/
structure ServicePatch where
  serviceKind : Option (Option String) := none
  serviceName : Option (Option String) := none
  scope : Option (Option String) := none
  providerAssetId : Option (Option Nat) := none
  consumerRefs : Option (List Json) := none
  readinessState : Option (Option String) := none
  evidenceSummary : Option Json := none
deriving DecidableEq

def ServicePatch.apply (patch : ServicePatch) (now : Nat) (s : Service) : Except BubbleError Service := do
  let serviceKind ← setText patch.serviceKind s.serviceKind
  let serviceName ← setText patch.serviceName s.serviceName
  let scope ← setText patch.scope s.scope
  let readinessState ← setText patch.readinessState s.readinessState
  return { s with
    serviceKind := serviceKind
    serviceName := serviceName
    scope := scope
    providerAssetId := patch.providerAssetId.getD s.providerAssetId
    consumerRefs := patch.consumerRefs.getD s.consumerRefs
    readinessState := readinessState
    lastEvidenceAt := if patch.readinessState.isSome then some now else s.lastEvidenceAt
    evidenceSummary := patch.evidenceSummary.getD s.evidenceSummary
    updatedAt := now }

def updateService (serviceId : Nat) (patch : ServicePatch) (now : Nat) : Txn Service := do
  match ← read (getService · serviceId) with
  | none => raise (.valueError "service not found")
  | some old =>
    requireProvider (patch.providerAssetId.getD none) old.bubbleId
    if patch = {} then return old
    else
      let service ← write (updateServiceRow serviceId (patch.apply now))
      write (recordAuditEvent
        { bubbleId := service.bubbleId, action := "service_updated", oldValues := .service old,
          newValues := .service service, createdAt := now })
      commit
      return service

def deleteService (serviceId : Nat) (actor : String) (now : Nat) : Txn Bool := do
  match ← read (getService · serviceId) with
  | none => return false
  | some old =>
    write (deleteServiceRow serviceId)
    write (recordAuditEvent
      { bubbleId := old.bubbleId, action := "service_deleted", actor := actor, oldValues := .service old,
        createdAt := now })
    commit
    return true

def Evidence.applyTo (evidence : Evidence) (dcAssetId now : Nat) (b : Bubble) : Bubble :=
  { b with
    dhcpOwnerAssetId := some dcAssetId
    dcReady := evidence.adDsReady
    dnsReady := evidence.dnsReady
    dhcpReady := evidence.dhcpReady
    workloadReady := evidence.adDsReady && evidence.dnsReady && evidence.dhcpReady
    dhcpScope := evidence.dhcpScope
    dhcpPoolStart := evidence.dhcpPoolStart
    dhcpPoolEnd := evidence.dhcpPoolEnd
    updatedAt := now }

def updateReadinessFromDcEvidence (bubbleId dcAssetId : Nat) (evidence : Evidence) (now : Nat) : Txn Bubble := do
  let _ ← requireAssetInBubble dcAssetId bubbleId (some "domain_controller") true
  let patched ← write (updateBubbleRow bubbleId (evidence.applyTo dcAssetId now))
  write (recordAuditEvent
    { bubbleId := bubbleId, assetId := some dcAssetId, action := "readiness_evidence_updated", actor := "agent",
      newValues := .evidence evidence, createdAt := now })
  commit
  return patched

def newer (a b : Asset) : Bool :=
  b.updatedAt < a.updatedAt || (b.updatedAt = a.updatedAt && b.createdAt < a.createdAt)

def assetForAgent (db : BubblesDb) (bubbleId : Nat) (agentId : String) : Option Asset :=
  (db.assets.filter fun a => a.bubbleId = bubbleId && a.agentId = some agentId && isMember a).foldl
    (fun best a => if best.any fun b => !newer a b then best else some a) none

/-- What a heartbeat that carries `bubble_id` and `dc_readiness` does here. -/
def heartbeat (bubbleId : Nat) (agentId : String) (evidence : Evidence) (now : Nat) : Txn Unit := do
  match ← read (assetForAgent · bubbleId agentId) with
  | none => return ()
  | some asset =>
    if asset.assetRole = "domain_controller" then
      (updateReadinessFromDcEvidence bubbleId asset.id evidence now).forget
    else return ()

end Calls

section Gate

structure LaunchGate where
  state : String
  allowed : Bool
  reasons : List String
deriving DecidableEq

structure Launch where
  requiresDomainJoin : Bool
  requiresConfigmgr : Bool
  isMultiBubbleContext : Bool
  isMultiDomainContext : Bool

def configmgrReady (db : BubblesDb) (bubbleId : Nat) : Bool :=
  db.services.any fun s =>
    s.bubbleId = bubbleId && (s.serviceKind = "configmgr" || s.serviceKind = "mecm") && s.readinessState = "ready"

def gateReasons (db : BubblesDb) (b : Bubble) (launch : Launch) : List String :=
  (if b.dcReady then [] else ["DC agent has not reported AD DS readiness"]) ++
  (if b.dnsReady then [] else ["DC agent has not reported DNS readiness"]) ++
  (if b.dhcpReady then [] else ["DC agent has not reported DHCP scope readiness"]) ++
  (if launch.requiresConfigmgr && !configmgrReady db b.id then ["ConfigMgr service readiness is missing"] else [])

def evaluateLaunchGate (db : BubblesDb) (bubbleId : Nat) (launch : Launch) : LaunchGate :=
  match getBubble db bubbleId with
  | none => ⟨"blocked", false, ["bubble not found"]⟩
  | some b =>
    let reasons := gateReasons db b launch
    let ready := b.dcReady && b.dnsReady && b.dhcpReady
    let hardRequiresReady := (launch.requiresDomainJoin && b.requireDomainReady) || launch.requiresConfigmgr ||
      (launch.isMultiBubbleContext && b.requireMultiDomainReady) ||
      (launch.isMultiDomainContext && b.requireMultiDomainReady)
    if hardRequiresReady && reasons ≠ [] then ⟨"blocked", false, reasons⟩
    else if !ready && reasons ≠ [] then ⟨"warning", b.allowEarlyWorkgroupLaunch, reasons⟩
    else ⟨"allowed", true, []⟩

end Gate

section Runs

inductive Call where
  | createBubble (new : NewBubble)
  | addAsset (bubbleId : Nat) (new : NewAsset)
  | updateAsset (assetId : Nat) (patch : AssetPatch)
  | moveAsset (assetId bubbleId : Nat) (reason actor : String)
  | addService (bubbleId : Nat) (new : NewService)
  | updateService (serviceId : Nat) (patch : ServicePatch)
  | deleteService (serviceId : Nat) (actor : String)
  | updateReadiness (bubbleId dcAssetId : Nat) (evidence : Evidence)
  | heartbeat (bubbleId : Nat) (agentId : String) (evidence : Evidence)

variable (lower : String → String)

def Call.transaction (now : Nat) : Call → Txn Unit
  | .createBubble new => (Bubbles.createBubble lower new now).forget
  | .addAsset bubbleId new => (Bubbles.addAsset bubbleId new now).forget
  | .updateAsset assetId patch => (Bubbles.updateAsset assetId patch now).forget
  | .moveAsset assetId bubbleId reason actor => (Bubbles.moveAsset assetId bubbleId reason actor now).forget
  | .addService bubbleId new => (Bubbles.addService bubbleId new now).forget
  | .updateService serviceId patch => (Bubbles.updateService serviceId patch now).forget
  | .deleteService serviceId actor => (Bubbles.deleteService serviceId actor now).forget
  | .updateReadiness bubbleId dcAssetId evidence =>
    (updateReadinessFromDcEvidence bubbleId dcAssetId evidence now).forget
  | .heartbeat bubbleId agentId evidence => Bubbles.heartbeat bubbleId agentId evidence now

/-- A call, when it is made, and after how many answers the server stops. -/
structure Request where
  call : Call
  now : Nat := 0
  answers : Option Nat := none

def perform (db : BubblesDb) (q : Request) : Except BubbleError Unit × BubblesDb :=
  (q.call.transaction lower q.now).perform .lost q.answers db

def exec (db : BubblesDb) (q : Request) : BubblesDb := (perform lower db q).2

end Runs

end ProxmoxVEAutopilot.Bubbles
