import ProxmoxVEAutopilot.Foundation.Text
import ProxmoxVEAutopilot.Monitor.Sweep
import ProxmoxVEAutopilot.Smbios.Options

/-!
# The probe of a Proxmox config

`probe_pve` sorts the entries of a config, reads disks and network cards from their option
strings, and digests what makes up the configuration. The digest is a parameter.
-/

namespace ProxmoxVEAutopilot.Monitor.PveConfig

open Foundation
open Smbios (commaParts splitOption)
set_option autoImplicit false

/-- A dict as `json.loads` leaves it: one entry a key. -/
abbrev RawConfig := List (String × Json)

def RawConfig.get (config : RawConfig) (key : String) : Json := (config.lookup key).getD .null

def parseInt (val : Json) : Option Int := pyInt val

/-- A key of letters and a number: `^(…)(\d+)$`. -/
def numbered (name key : String) : Option Nat :=
  if name.toList <+: key.toList then
    let rest := key.toList.drop name.toList.length
    if rest ≠ [] ∧ rest.all Char.isDigit then natural rest else none
  else none

def busNames : List String := ["scsi", "ide", "virtio", "sata", "nvme"]

/-- `_DISK_KEY_RE` -/
def diskKey (key : String) : Option (String × Nat) :=
  busNames.findSome? fun bus => (numbered bus key).map fun index => (bus, index)

/-- `_NET_KEY_RE` -/
def netKey (key : String) : Option Nat := numbered "net" key

/-- `text.split(c, 1)[0]`, where the letter occurs. -/
def upTo (c : Char) (text : String) : Option String :=
  if c ∈ text.toList then some (String.ofList (text.toList.takeWhile (· ≠ c))) else none

/-- The options behind the first part; the last of two with one key counts. -/
def attrs (parts : List String) : List (String × String) :=
  ((parts.filter fun p => '=' ∈ p.toList).map splitOption).reverse

def unitMul (c : Char) : Option Int :=
  if c = 'K' then some 1024
  else if c = 'M' then some (1024 ^ 2)
  else if c = 'G' then some (1024 ^ 3)
  else if c = 'T' then some (1024 ^ 4)
  else none

def sizeBytes (size : String) : Option Int :=
  if size = "" then none
  else
    match size.toList.getLast?.bind unitMul with
    | some mult => (intOfText (String.ofList size.toList.dropLast)).map (· * mult)
    | none => intOfText size

structure ParsedDisk where
  bus : String
  index : Nat
  storage : String
  volid : String
  sizeBytes : Option Int
  serial : Option String
  media : Option String
  raw : String
deriving DecidableEq, Repr

/-- `_parse_proxmox_disk` of a key that matched. -/
def parseProxmoxDisk (bus : String) (index : Nat) (spec : String) : ParsedDisk :=
  let parts := commaParts spec
  let volid := parts.headD ""
  let options := attrs parts.tail
  { bus := bus
    index := index
    storage := (upTo ':' volid).getD ""
    volid := volid
    sizeBytes := sizeBytes ((options.lookup "size").getD "")
    serial := options.lookup "serial"
    media := options.lookup "media"
    raw := spec }

structure ParsedNet where
  index : Nat
  model : String
  mac : Option String
  bridge : Option String
  firewall : Option String
  vlan : Option Int
  raw : String
deriving DecidableEq, Repr

/-- `_parse_proxmox_net` of a key that matched. -/
def parseProxmoxNet (index : Nat) (spec : String) : ParsedNet :=
  let parts := commaParts spec
  let modelPart := parts.headD ""
  let options := attrs parts.tail
  { index := index
    model := (upTo '=' modelPart).getD modelPart
    mac := if '=' ∈ modelPart.toList then some (splitOption modelPart).2 else none
    bridge := options.lookup "bridge"
    firewall := options.lookup "firewall"
    vlan := (options.lookup "tag").bind fun tag => parseInt (.str tag)
    raw := spec }

/-- `sorted(config.items())`; keys are distinct, so values are never compared. -/
def sortedItems (config : RawConfig) : RawConfig := config.insertionSort fun a b => a.1 ≤ b.1

def diskOf : String × Json → Option ParsedDisk
  | (key, .str spec) => ((diskKey key).map fun m => parseProxmoxDisk m.1 m.2 spec).filter fun d => d.media ≠ some "cdrom"
  | _ => none

def netOf : String × Json → Option ParsedNet
  | (key, .str spec) => if (diskKey key).isSome then none else (netKey key).map fun index => parseProxmoxNet index spec
  | _ => none

def disksOf (config : RawConfig) : List ParsedDisk := (sortedItems config).filterMap diskOf

def netsOf (config : RawConfig) : List ParsedNet := (sortedItems config).filterMap netOf

/-- `(config.get("tags") or "").split(",")`, sorted, without the empty ones. -/
def tagsOf (config : RawConfig) : Except String (List String) :=
  match config.get "tags" with
  | .str text => .ok (((commaParts text).insertionSort (· ≤ ·)).filter fun t => t ≠ "")
  | value => if value.truthy then .error "AttributeError" else .ok []

structure DiskFields where
  bus : String
  index : Nat
  storage : String
  sizeBytes : Option Int
  serial : Option String
deriving DecidableEq, Repr

structure NetFields where
  index : Nat
  model : String
  bridge : Option String
  vlan : Option Int
deriving DecidableEq, Repr

structure DigestFields where
  name : Json
  cores : Option Int
  sockets : Option Int
  memory : Option Int
  balloon : Option Int
  machine : Json
  bios : Json
  smbios1 : Json
  args : Json
  vmgenid : Json
  disks : List DiskFields
  nets : List NetFields
  tags : List String

def ParsedDisk.fields (d : ParsedDisk) : DiskFields := ⟨d.bus, d.index, d.storage, d.sizeBytes, d.serial⟩

def ParsedNet.fields (n : ParsedNet) : NetFields := ⟨n.index, n.model, n.bridge, n.vlan⟩

def digestFields (config : RawConfig) (tags : List String) : DigestFields where
  name := config.get "name"
  cores := parseInt (config.get "cores")
  sockets := parseInt (config.get "sockets")
  memory := parseInt (config.get "memory")
  balloon := parseInt (config.get "balloon")
  machine := config.get "machine"
  bios := config.get "bios"
  smbios1 := config.get "smbios1"
  args := config.get "args"
  vmgenid := config.get "vmgenid"
  disks := (disksOf config).map ParsedDisk.fields
  nets := (netsOf config).map ParsedNet.fields
  tags := tags

/-- The snapshot; `disks` and `nets` are what `disks_json` and `net_json` are written from. -/
structure Probed (Digest : Type) where
  checkedAt : Time
  vmid : Int
  present : Bool := true
  node : String
  name : Json
  status : Option String
  tagsCsv : String
  lockMode : Option String
  cores : Option Int
  sockets : Option Int
  memoryMb : Option Int
  balloonMb : Option Int
  machine : Json
  bios : Json
  smbios1 : Json
  args : Json
  vmgenid : Json
  disks : List ParsedDisk
  nets : List ParsedNet
  configDigest : Digest

section Probe
variable {Digest : Type} (sha256 : DigestFields → Digest)

/-- `sha256` digests the fields as `json.dumps` writes them. -/
def probePve (vmid : Int) (node : String) (config : RawConfig) (vmListEntry : Option VmEntry) (now : Time) :
    Except String (Probed Digest) := do
  let tags ← tagsOf config
  pure {
    checkedAt := now
    vmid := vmid
    node := node
    name := config.get "name"
    status := vmListEntry.bind VmEntry.status
    tagsCsv := ",".intercalate tags
    lockMode := vmListEntry.bind VmEntry.lock
    cores := parseInt (config.get "cores")
    sockets := parseInt (config.get "sockets")
    memoryMb := parseInt (config.get "memory")
    balloonMb := parseInt (config.get "balloon")
    machine := config.get "machine"
    bios := config.get "bios"
    smbios1 := config.get "smbios1"
    args := config.get "args"
    vmgenid := config.get "vmgenid"
    disks := disksOf config
    nets := netsOf config
    configDigest := sha256 (digestFields config tags) }

end Probe

end ProxmoxVEAutopilot.Monitor.PveConfig
