import ProxmoxVEAutopilot.Foundation.Walk
import ProxmoxVEAutopilot.Monitor.Sweep

/-!
# The timeline of a machine

Four detectors walk the rows of a machine, oldest first, and compare each row with the one
before. `lowerCase` is `str.lower()`.
-/

namespace ProxmoxVEAutopilot.Monitor

open Foundation
set_option autoImplicit false

inductive Severity where
  | regression
  | progression
  | rename
  | ouMove
  | replacement
  | linkBroken
  | syncPending
  | event
deriving DecidableEq, Repr

inductive Source where
  | pve
  | ad
  | entra
  | intune
deriving DecidableEq, Repr

inductive Details where
  | snapshot (row : PveSnapshot)
  | prevNode (node : Option String)
  | change (before after : Option String)
  | nodes (before after : Option String)
  | digests (before after : String)
  | adMatches (found : List AdMatch)
  | adRenamed (objectGUID : String) (fromCn toCn fromSam toSam : Option String)
  | adMoved (objectGUID : String) (fromDn toDn : Option String)
  | adObject (objectGUID : String)
  | adNew (objectGUID : String) (found : AdMatch)
  | adGone (objectGUID : String) (prev : AdMatch)
  | entraMatches (found : List EntraDevice)
  | entraPrev (prev : List EntraDevice)
  | entraIds (before after : List String)
  | adFirstSeen (seen : Time)
  | brokenLink (entraId : Option String) (entraSid : String) (adSids : List String)
  | intuneMatches (found : List IntuneDevice)
  | intunePrev (prev : List IntuneDevice)

structure Event where
  atTime : Time
  source : Source
  type : String
  severity : Severity
  summary : String
  details : Details

section Pve

def pveChange (prev row : PveSnapshot) : List Event :=
  if !row.present && prev.present then
    [{ atTime := row.checkedAt, source := .pve, type := "deleted", severity := .regression,
       summary := "VM removed from Proxmox", details := .prevNode prev.node }]
  else
    let power : List Event :=
      if prev.status = row.status then []
      else
        let type :=
          if row.status = some "running" ∧ prev.status = some "stopped" then "power-on"
          else if row.status = some "stopped" ∧ prev.status = some "running" then "power-off"
          else "status-" ++ shown prev.status ++ "-to-" ++ shown row.status
        [{ atTime := row.checkedAt, source := .pve, type, severity := .event,
           summary := "status " ++ shown prev.status ++ " → " ++ shown row.status,
           details := .change prev.status row.status }]
    let migration : List Event :=
      if (given prev.node).isSome ∧ (given row.node).isSome ∧ prev.node ≠ row.node then
        [{ atTime := row.checkedAt, source := .pve, type := "migration", severity := .event,
           summary := "migrated " ++ shown prev.node ++ " → " ++ shown row.node,
           details := .nodes prev.node row.node }]
      else []
    let config : List Event :=
      if prev.configDigest ≠ "" ∧ row.configDigest ≠ "" ∧ prev.configDigest ≠ row.configDigest then
        if prev.args ≠ row.args then
          [{ atTime := row.checkedAt, source := .pve, type := "smbios-reconfig", severity := .event,
             summary := "QEMU args changed", details := .change prev.args row.args }]
        else
          [{ atTime := row.checkedAt, source := .pve, type := "config-changed", severity := .event,
             summary := "Proxmox config changed", details := .digests prev.configDigest row.configDigest }]
      else []
    power ++ migration ++ config

def pveStep (prev : Option PveSnapshot) (row : PveSnapshot) : List Event × Option PveSnapshot :=
  match prev with
  | none =>
    ([{ atTime := row.checkedAt, source := .pve, type := "first-observed", severity := .event,
        summary := "VM " ++ toString row.vmid ++ " first observed on " ++ (given row.node).getD "?" ++
          ": status=" ++ shown row.status,
        details := .snapshot row }], some row)
  | some prev => (pveChange prev row, some row)

def pveTransitions (rows : List PveSnapshot) : List Event := walk pveStep none rows

end Pve

section Ad
variable (lowerCase : String → String)

def indexByGuid (out : List (String × AdMatch)) (m : AdMatch) : List (String × AdMatch) :=
  match given m.objectGUID with
  | none => out
  | some guid => if (out.lookup guid).isSome then out else out ++ [(guid, m)]

/-- `_first_ad_match_by_guid`, as the items of the dict. -/
def firstAdMatchByGuid (found : List AdMatch) : List (String × AdMatch) := found.foldl indexByGuid []

def parentOu (dn : String) : String :=
  String.ofList ((dn.toList.dropWhile (· ≠ ',')).drop 1)

def shortGuid (guid : String) : String :=
  if 8 < guid.length then String.ofList (guid.toList.take 8) ++ "…" else guid

/-- Bit `0x2` of `userAccountControl`. -/
def AdMatch.disabled (m : AdMatch) : Bool := (m.userAccountControl.getD 0 / 2) % 2 = 1

def adObjectChange (atTime : Time) (guid : String) (prev now : AdMatch) : List Event :=
  let renamed : List Event :=
    if prev.cn ≠ now.cn ∨ prev.sAMAccountName ≠ now.sAMAccountName then
      [{ atTime, source := .ad, type := "renamed", severity := .rename,
         summary := "cn: " ++ shown prev.cn ++ " → " ++ shown now.cn,
         details := .adRenamed guid prev.cn now.cn prev.sAMAccountName now.sAMAccountName }]
    else []
  let prevParent := parentOu (prev.distinguishedName.getD "")
  let nowParent := parentOu (now.distinguishedName.getD "")
  let moved : List Event :=
    if lowerCase prevParent ≠ lowerCase nowParent ∧ prevParent ≠ "" ∧ nowParent ≠ "" then
      [{ atTime, source := .ad, type := "ou-move", severity := .ouMove,
         summary := "moved OU: " ++ prevParent ++ " → " ++ nowParent,
         details := .adMoved guid prev.distinguishedName now.distinguishedName }]
    else []
  let flipped : List Event :=
    if !prev.disabled && now.disabled then
      [{ atTime, source := .ad, type := "disabled", severity := .regression,
         summary := "AD object disabled", details := .adObject guid }]
    else if prev.disabled && !now.disabled then
      [{ atTime, source := .ad, type := "re-enabled", severity := .progression,
         summary := "AD object re-enabled", details := .adObject guid }]
    else []
  renamed ++ moved ++ flipped

/-- The pair of two probe rows; Python walks the three sets in an order of its own. -/
def adChange (prev row : ProbeRow) : List Event :=
  let before := firstAdMatchByGuid prev.adMatches
  let after := firstAdMatchByGuid row.adMatches
  let same := before.flatMap fun p =>
    match after.lookup p.1 with
    | some now => adObjectChange lowerCase row.checkedAt p.1 p.2 now
    | none => []
  let new : List Event := (after.filter fun p => (before.lookup p.1).isNone).map fun p =>
    { atTime := row.checkedAt, source := .ad, type := "object-created", severity := .progression,
      summary := "new AD object: " ++ shortGuid p.1, details := .adNew p.1 p.2 }
  let gone : List Event := (before.filter fun p => (after.lookup p.1).isNone).map fun p =>
    { atTime := row.checkedAt, source := .ad, type := "object-removed",
      severity := if after.isEmpty then .regression else .event,
      summary := "AD object gone: " ++ shortGuid p.1, details := .adGone p.1 p.2 }
  same ++ new ++ gone

def adStep (prev : Option ProbeRow) (row : ProbeRow) : List Event × Option ProbeRow :=
  match prev with
  | none =>
    (match firstAdMatchByGuid row.adMatches with
      | [] => []
      | (guid, _) :: _ =>
        [{ atTime := row.checkedAt, source := .ad, type := "object-created", severity := .progression,
           summary := "AD object appeared: " ++ shortGuid guid, details := .adMatches row.adMatches }],
      some row)
  | some prev => (adChange lowerCase prev row, some row)

def adTransitions (rows : List ProbeRow) : List Event := walk (adStep lowerCase) none rows

end Ad

section Entra
variable (syncWindowMinutes : Nat)

def sortedSet (values : List String) : List String := values.dedup.mergeSort fun a b => decide (a ≤ b)

def isServerAd (d : EntraDevice) : Bool := d.trustType = some "ServerAd"

def apart (a b : Time) : Nat := (a - b) + (b - a)

/-- `f"{minutes:.0f}"`: half a minute goes to the even neighbour. -/
def minutesText (seconds : Nat) : String :=
  let whole := seconds / 60
  let rest := seconds % 60
  toString (if rest < 30 ∨ rest = 30 ∧ whole % 2 = 0 then whole else whole + 1)

structure EntraState where
  prev : Option ProbeRow := none
  adFirstSeen : Option Time := none
  emittedSyncPending : Bool := false

def entraChange (prev row : ProbeRow) : List Event :=
  let before := prev.entraMatches
  let after := row.entraMatches
  let prevIds := before.filterMap fun m => given m.id
  let nowIds := after.filterMap fun m => given m.id
  let synced : List Event :=
    if !before.any isServerAd && after.any isServerAd then
      [{ atTime := row.checkedAt, source := .entra, type := "hybrid-synced", severity := .progression,
         summary := "Entra hybrid device appeared (trustType=ServerAd)", details := .entraMatches after }]
    else []
  let lost : List Event :=
    if before.any isServerAd && !after.any isServerAd then
      [{ atTime := row.checkedAt, source := .entra, type := "hybrid-lost", severity := .regression,
         summary := "Hybrid Entra device gone", details := .entraPrev before }]
    else []
  let replaced : List Event :=
    if prevIds ≠ [] ∧ nowIds ≠ [] ∧ prevIds.all (fun id => id ∉ nowIds) then
      [{ atTime := row.checkedAt, source := .entra, type := "replacement", severity := .replacement,
         summary := "Entra deviceId changed — object was replaced",
         details := .entraIds (sortedSet prevIds) (sortedSet nowIds) }]
    else []
  synced ++ lost ++ replaced

/-- AD has the machine, Entra does not follow yet. -/
def syncPending (s : EntraState) (adFirstSeen : Option Time) (row : ProbeRow) : List Event :=
  match adFirstSeen with
  | none => []
  | some seen =>
    if !s.emittedSyncPending && row.entraMatches.isEmpty &&
        decide (apart seen row.checkedAt < syncWindowMinutes * 60) then
      [{ atTime := row.checkedAt, source := .entra, type := "sync-pending", severity := .syncPending,
         summary := "Entra not yet synced (AD seen " ++ minutesText (apart seen row.checkedAt) ++ "m ago)",
         details := .adFirstSeen seen }]
    else []

/-- Hybrid devices whose security identifier no AD match has. -/
def brokenLinks (row : ProbeRow) : List Event :=
  let adSids := row.adMatches.filterMap fun m => given m.objectSid
  row.entraMatches.filterMap fun m =>
    match given m.onPremisesSecurityIdentifier with
    | none => none
    | some sid =>
      if isServerAd m ∧ adSids ≠ [] ∧ sid ∉ adSids then
        some { atTime := row.checkedAt, source := .entra, type := "link-broken", severity := .linkBroken,
               summary := "Entra.onPremisesSID ≠ AD.objectSid (stale Entra device)",
               details := .brokenLink m.id sid (sortedSet adSids) }
      else none

def entraStep (s : EntraState) (row : ProbeRow) : List Event × EntraState :=
  let adFirstSeen := if s.adFirstSeen.isNone ∧ row.adMatches ≠ [] then some row.checkedAt else s.adFirstSeen
  match s.prev with
  | none => ([], { s with prev := some row, adFirstSeen })
  | some prev =>
    let pending := syncPending syncWindowMinutes s adFirstSeen row
    (entraChange prev row ++ pending ++ brokenLinks row,
      { prev := some row, adFirstSeen, emittedSyncPending := s.emittedSyncPending || !pending.isEmpty })

def entraTransitions (rows : List ProbeRow) : List Event := walk (entraStep syncWindowMinutes) {} rows

end Entra

section Intune

def complianceState (found : List IntuneDevice) : Option String := found.head?.bind IntuneDevice.complianceState

def enrolled (row : ProbeRow) : Event where
  atTime := row.checkedAt
  source := .intune
  type := "enrolled"
  severity := .progression
  summary := "Intune enrollment appeared (" ++ shown (complianceState row.intuneMatches) ++ ")"
  details := .intuneMatches row.intuneMatches

def complianceChange (atTime : Time) (before after : Option String) : List Event :=
  match given before, given after with
  | some p, some c =>
    if p ≠ c then
      [{ atTime, source := .intune, type := "compliance-changed",
         severity := if c = "noncompliant" then .regression else .progression,
         summary := "compliance: " ++ p ++ " → " ++ c, details := .change (some p) (some c) }]
    else []
  | _, _ => []

def intuneChange (prev row : ProbeRow) : List Event :=
  match prev.intuneMatches, row.intuneMatches with
  | _ :: _, [] =>
    [{ atTime := row.checkedAt, source := .intune, type := "unenrolled", severity := .regression,
       summary := "Intune device gone", details := .intunePrev prev.intuneMatches }]
  | [], _ :: _ => [enrolled row]
  | before, after => complianceChange row.checkedAt (complianceState before) (complianceState after)

def intuneStep (prev : Option ProbeRow) (row : ProbeRow) : List Event × Option ProbeRow :=
  match prev with
  | none => (if row.intuneMatches = [] then [] else [enrolled row], some row)
  | some prev => (intuneChange prev row, some row)

def intuneTransitions (rows : List ProbeRow) : List Event := walk intuneStep none rows

end Intune

/-- `build_timeline`: newest first, and otherwise in the order of the detectors. -/
def buildTimeline (lowerCase : String → String) (pveRows : List PveSnapshot) (probeRows : List ProbeRow) :
    List Event :=
  (pveTransitions pveRows ++ adTransitions lowerCase probeRows ++ entraTransitions 45 probeRows ++
    intuneTransitions probeRows).mergeSort fun a b => decide (b.atTime ≤ a.atTime)

end ProxmoxVEAutopilot.Monitor
