import ProxmoxVEAutopilot.CloudOsd.Create

/-!
# Names of machines

The checks of the preflight that read names, and the indexed names of a batch. Windows gets
the normalized name, Proxmox the one that was asked for.
-/

namespace ProxmoxVEAutopilot.CloudOsd.Names

open Foundation
set_option autoImplicit false

/-- `str.lower`, which leaves an index alone and takes ASCII letters one by one, and the characters
of `\d`. -/
structure Python where
  lower : String → String
  isDecimal : Char → Bool
  lower_eq_empty : ∀ s, lower s = "" ↔ s = ""
  lower_index : ∀ base digits : String, (∀ c ∈ digits.toList, c.isDigit = true) →
    lower (base ++ "-" ++ digits) = lower (base ++ "-") ++ digits
  lower_ascii : ∀ cs : List Char, (∀ c ∈ cs, c.toNat < 128) →
    lower (String.ofList cs) = String.ofList (cs.map Char.toLower)

variable (py : Python)

section Preflight

structure Check where
  code : String
  title : String
  detail : String

/-- What is read of a machine that Proxmox lists. -/
structure ListedVm where
  vmid : Option Int := none
  name : Option String := none

def ListedVm.nameText (vm : ListedVm) : String := vm.name.getD ""

def computerNameChecks (vmName : String) : List Check :=
  if normalizeWindowsComputerName vmName = "" then
    [⟨"computer_name_invalid", "Invalid Windows computer name",
      "The requested VM name does not leave any valid Windows computer-name characters."⟩]
  else []

def vmidChecks (requestedVmid : Option Int) (vm : ListedVm) : List Check :=
  match requestedVmid with
  | none => []
  | some vmid =>
    if vmid ≠ 0 ∧ vm.vmid.getD 0 = vmid then
      [⟨"vmid_collision", "VMID collision", "VMID " ++ toString vmid ++ " already exists."⟩]
    else []

def vmNameChecks (vmName : String) (vm : ListedVm) : List Check :=
  let vmNameKey := py.lower (strip vm.nameText)
  if vmNameKey ≠ "" ∧ vmNameKey ∈ [py.lower (strip vmName), py.lower (normalizeWindowsComputerName vmName)] then
    [⟨"vm_name_collision", "VM name collision", "VM name " ++ vm.nameText ++ " already exists."⟩]
  else []

/-- The blocking checks of `preflight_payload` that read names or VMIDs. -/
def nameBlocking (requestedVmid : Option Int) (vmName : String) (vms : List ListedVm) : List Check :=
  computerNameChecks vmName ++ vms.flatMap fun vm => vmidChecks requestedVmid vm ++ vmNameChecks py vmName vm

end Preflight

section Indexed

/-- `^(?P<base>.+?)-(?P<idx>\d+)$`; there is no hyphen in an index. -/
def splitIndex (req : List Char) : Option (List Char × List Char) :=
  let idx := (req.reverse.takeWhile (· ≠ '-')).reverse
  match req.reverse.dropWhile (· ≠ '-') with
  | [] => none
  | _ :: base =>
    if idx ≠ [] ∧ idx.all py.isDecimal ∧ base ≠ [] ∧ '\n' ∉ base then some (base.reverse, idx) else none

def baseOf (req : String) : String := String.ofList (((splitIndex py req.toList).map Prod.fst).getD req.toList)

def widthOf (req : String) : Nat := ((splitIndex py req.toList).map fun m => max m.2.length 2).getD 2

/-- `f"{i:0{width}d}"`. -/
def padded (width i : Nat) : String := String.ofList ((toString i).toList.leftpad width '0')

def indexedName (base : String) (width i : Nat) : String := base ++ "-" ++ padded width i

def takenLower (taken : List String) : List String := (taken.filter fun t => strip t ≠ "").map fun t => py.lower (strip t)

def freeIndex (base : String) (width maxIndex : Nat) (taken : List String) : Option Nat :=
  (List.range' 1 maxIndex).find? fun i => decide (py.lower (indexedName base width i) ∉ takenLower py taken)

def nextFreeIndexedName (requested : String) (taken : List String) (maxIndex : Nat := 999) : String :=
  let req := strip requested
  if req = "" ∨ py.lower req ∉ takenLower py taken then req
  else
    match freeIndex py (baseOf py req) (widthOf py req) maxIndex taken with
    | some i => indexedName (baseOf py req) (widthOf py req) i
    | none => req

def batch (requested : String) (maxIndex : Nat) : List String → Nat → List String
  | _, 0 => []
  | taken, n + 1 =>
    let name := nextFreeIndexedName py requested taken maxIndex
    name :: batch requested maxIndex (taken ++ [name]) n

end Indexed

end ProxmoxVEAutopilot.CloudOsd.Names
