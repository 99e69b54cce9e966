import ProxmoxVEAutopilot.Foundation.Json
import ProxmoxVEAutopilot.Foundation.Text

/-!
# Sweeps of the device monitor

A sweep asks Proxmox for the machines, the guest for its name and serial, and the three
directories for what they know under these. A call that raises leaves its text in the
errors of the row, and an empty list where its matches would be.
-/

namespace ProxmoxVEAutopilot.Monitor

open Foundation
set_option autoImplicit false

abbrev Time := Nat

/-- `f"{type(e).__name__}: {e}"`. -/
abbrev Raised := String

structure VmEntry where
  vmid : Int := 0
  name : Option String := none
  node : Option String := none
  status : Option String := none
  tags : Option String := none
  lock : Option String := none
deriving DecidableEq

structure GuestDetails where
  winName : Option String := none
  serial : Option String := none
  uuid : Option String := none
  osBuild : Option String := none
  dsreg : Option Json := none

structure SearchOu where
  dn : String
  label : String
deriving DecidableEq

/-- The attributes of an AD entry that the timeline reads. -/
structure AdEntry where
  objectGUID : Option String := none
  objectSid : Option String := none
  distinguishedName : Option String := none
  cn : Option String := none
  sAMAccountName : Option String := none
  userAccountControl : Option Int := none
deriving DecidableEq

structure AdMatch extends AdEntry where
  sourceOuDn : String
  sourceOuLabel : String
deriving DecidableEq

structure EntraDevice where
  id : Option String := none
  trustType : Option String := none
  onPremisesSecurityIdentifier : Option String := none
deriving DecidableEq

structure IntuneDevice where
  id : Option String := none
  azureADDeviceId : Option String := none
  azure_ad_device_id : Option String := none
  complianceState : Option String := none
deriving DecidableEq

def IntuneDevice.entraId (d : IntuneDevice) : String :=
  (orElse d.azureADDeviceId d.azure_ad_device_id).getD ""

/-- A row of `pve_snapshots` with the columns that the timeline reads. -/
structure PveSnapshot where
  checkedAt : Time
  vmid : Int
  present : Bool := true
  node : Option String := none
  name : Option String := none
  status : Option String := none
  configDigest : String := ""
  args : Option String := none
  probeError : Option Raised := none
deriving DecidableEq

structure ProbeErrors where
  guest : Option Raised := none
  adPerOu : List (String × Raised) := []
  entra : Option Raised := none
  intune : Option Raised := none
deriving DecidableEq

/-- A row of `device_probes`. -/
structure ProbeRow where
  vmid : Int
  checkedAt : Time
  vmName : Option String
  winName : Option String
  serial : Option String
  uuid : Option String
  osBuild : Option String
  dsregStatus : Json
  adFound : Bool
  adMatchCount : Nat
  adMatches : List AdMatch
  entraFound : Bool
  entraMatchCount : Nat
  entraMatches : List EntraDevice
  intuneFound : Bool
  intuneMatchCount : Nat
  intuneMatches : List IntuneDevice
  probeErrors : ProbeErrors

/-- The calls of one sweep; each raises or answers. The two clocks are read while a machine is
probed. -/
structure MonitorContext where
  listPveVms : Except Raised (List VmEntry)
  fetchPveConfig : Int → String → Except Raised Json
  fetchGuestDetails : Int → String → Except Raised (Option GuestDetails)
  adSearch : String → String → Except Raised (List AdEntry)
  graphFindEntraDevice : String → Except Raised (List EntraDevice)
  graphFindIntuneDevice : String → Except Raised (List IntuneDevice)
  graphFindEntraDeviceByDeviceId : String → Except Raised (List EntraDevice)
  snapshotNow : Int → Time
  probeNow : Int → Time

/-- `f"{value}"`, with `None` as Python prints it. -/
def shown (value : Option String) : String := value.getD "None"

structure Visit where
  ctx : MonitorContext
  searchOus : List SearchOu
  vm : VmEntry

def probeAdForWinName (ctx : MonitorContext) (winName : String) :
    List SearchOu → List AdMatch × List (String × Raised)
  | [] => ([], [])
  | ou :: ous =>
    let rest := probeAdForWinName ctx winName ous
    match ctx.adSearch ou.dn winName with
    | .error e => (rest.1, (ou.dn, e) :: rest.2)
    | .ok entries =>
      (entries.map (fun entry => { entry with sourceOuDn := ou.dn, sourceOuLabel := ou.label }) ++ rest.1, rest.2)

/-- `probe_entra_for_device_ids`, from the ids not seen yet. -/
def probeEntraForDeviceIds (ctx : MonitorContext) : List String → List String → Except Raised (List EntraDevice)
  | _, [] => .ok []
  | seen, id :: ids =>
    if id = "" ∨ id ∈ seen then probeEntraForDeviceIds ctx seen ids
    else
      match ctx.graphFindEntraDeviceByDeviceId id with
      | .error e => .error e
      | .ok found =>
        match probeEntraForDeviceIds ctx (id :: seen) ids with
        | .error e => .error e
        | .ok rest => .ok (found ++ rest)

namespace Visit
variable (v : Visit)

def node : String := v.vm.node.getD ""

/-- What the guest says, and why it says nothing. -/
def guest : Option GuestDetails × Option Raised :=
  if v.vm.status = some "running" then
    match v.ctx.fetchGuestDetails v.vm.vmid v.node with
    | .ok details => (details, none)
    | .error e => (none, some e)
  else (none, some ("vm-not-running (" ++ shown v.vm.status ++ ")"))

/-- The name that AD and Entra are asked for. -/
def winName : String := (orElse (v.guest.1.bind GuestDetails.winName) v.vm.name).getD ""

def serial : String := (v.guest.1.bind GuestDetails.serial).getD ""

def ad : List AdMatch × List (String × Raised) :=
  if v.winName ≠ "" ∧ v.searchOus ≠ [] then probeAdForWinName v.ctx v.winName v.searchOus else ([], [])

def entraByName : List EntraDevice × Option Raised :=
  if v.winName ≠ "" ∧ v.searchOus ≠ [] then
    match v.ctx.graphFindEntraDevice v.winName with
    | .ok found => (found, none)
    | .error e => ([], some e)
  else ([], none)

def intune : List IntuneDevice × Option Raised :=
  if v.serial ≠ "" then
    match v.ctx.graphFindIntuneDevice v.serial with
    | .ok found => (found, none)
    | .error e => ([], some e)
  else ([], none)

/-- Where the name gives nothing, Entra is asked for the ids that Intune knows. -/
def entra : List EntraDevice × Option Raised :=
  if v.entraByName.1 = [] ∧ v.intune.1 ≠ [] ∧ v.entraByName.2 = none then
    match probeEntraForDeviceIds v.ctx [] (v.intune.1.map IntuneDevice.entraId) with
    | .ok found => (found, none)
    | .error e => ([], some e)
  else v.entraByName

def row : ProbeRow where
  vmid := v.vm.vmid
  checkedAt := v.ctx.probeNow v.vm.vmid
  vmName := v.vm.name
  winName := v.guest.1.bind GuestDetails.winName
  serial := v.guest.1.bind GuestDetails.serial
  uuid := v.guest.1.bind GuestDetails.uuid
  osBuild := v.guest.1.bind GuestDetails.osBuild
  dsregStatus := (v.guest.1.bind GuestDetails.dsreg).getD (.obj [])
  adFound := !v.ad.1.isEmpty
  adMatchCount := v.ad.1.length
  adMatches := v.ad.1
  entraFound := !v.entra.1.isEmpty
  entraMatchCount := v.entra.1.length
  entraMatches := v.entra.1
  intuneFound := !v.intune.1.isEmpty
  intuneMatchCount := v.intune.1.length
  intuneMatches := v.intune.1
  probeErrors := { guest := given v.guest.2, adPerOu := v.ad.2, entra := given v.entra.2, intune := given v.intune.2 }

/-- The PVE row; one that could not be read is recorded without a digest. -/
def snapshot (probePve : Int → String → Json → VmEntry → Time → PveSnapshot) : PveSnapshot :=
  match v.ctx.fetchPveConfig v.vm.vmid v.node with
  | .ok config => probePve v.vm.vmid v.node config v.vm (v.ctx.snapshotNow v.vm.vmid)
  | .error e =>
    { checkedAt := v.ctx.snapshotNow v.vm.vmid
      vmid := v.vm.vmid
      node := some v.node
      name := v.vm.name
      status := v.vm.status
      probeError := some e }

end Visit

def isAutopilotVm (entry : VmEntry) : Bool :=
  let tags := (entry.tags.getD "").toList
  let has := fun (separator : Char) => (tags.splitOn separator).any fun t => strip (String.ofList t) = "autopilot"
  has ';' || has ','

structure SweepInput where
  ctx : MonitorContext
  searchOus : List SearchOu
  extraInScopeVmids : List Int := []

structure SweepResult where
  snapshots : List PveSnapshot := []
  probes : List ProbeRow := []
  vmCount : Nat := 0
  errors : List (String × Raised) := []

def SweepInput.visits (input : SweepInput) : List Visit :=
  match input.ctx.listPveVms with
  | .error _ => []
  | .ok vms =>
    (vms.filter fun vm => isAutopilotVm vm || decide (vm.vmid ∈ input.extraInScopeVmids)).map fun vm =>
      { ctx := input.ctx, searchOus := input.searchOus, vm }

/-- `sweep`, where the database takes every row. -/
def sweep (probePve : Int → String → Json → VmEntry → Time → PveSnapshot) (input : SweepInput) : SweepResult where
  snapshots := input.visits.map fun v => v.snapshot probePve
  probes := input.visits.map Visit.row
  vmCount := input.visits.length
  errors :=
    match input.ctx.listPveVms with
    | .error e => [("pve_list", e)]
    | .ok _ => if input.searchOus = [] then [("search_ous", "no enabled search OUs configured")] else []

end ProxmoxVEAutopilot.Monitor
