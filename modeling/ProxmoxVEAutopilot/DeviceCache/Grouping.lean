import ProxmoxVEAutopilot.Foundation.Buckets
import ProxmoxVEAutopilot.Foundation.Json
import ProxmoxVEAutopilot.Foundation.Text

/-!
# The device cache and its grouping by serial

The Autopilot, Intune and Entra tables as the last synchronisation left them, and
`list_grouped`, which joins them. A row carries the columns the grouping reads; `rest` stands
for the others, which are shown as they are.
-/

namespace ProxmoxVEAutopilot.DeviceCache

open Foundation

set_option autoImplicit false

structure AutopilotRow where
  id : String
  serial : String
  syncedAt : String
  rest : Json := .null
deriving DecidableEq

structure IntuneRow where
  id : String
  serial : Option String
  os : Option String
  azureAdDeviceId : Option String
  syncedAt : String
  rest : Json := .null
deriving DecidableEq

structure EntraRow where
  id : String
  deviceId : Option String
  serial : Option String
  operatingSystem : Option String
  syncedAt : String
  rest : Json := .null
deriving DecidableEq

/-- The three tables; `id` is the primary key of each. -/
structure Cache where
  ap : List AutopilotRow
  it : List IntuneRow
  en : List EntraRow
  apKey : (ap.map (·.id)).Nodup
  itKey : (it.map (·.id)).Nodup
  enKey : (en.map (·.id)).Nodup

/-! ### What a synchronisation writes -/

/-- A device as Graph returns it, with the fields the tables have columns for. -/
structure GraphDevice where
  id : String
  serialNumber : Option String := none
  operatingSystem : Option String := none
  azureADDeviceId : Option String := none
  deviceId : Option String := none
  physicalIds : List String := []

def nullableText (value : Option String) : Option String := given value

/-- `_extract_physical_id`; both labels end in the first colon, so what follows it is what
`split(":", 1)[1]` gives. -/
def extractPhysicalId (physicalIds : List String) (label : String) : Option String :=
  (physicalIds.find? fun pid => label.toList.isPrefixOf pid.toList).map fun pid =>
    String.ofList ((pid.toList.dropWhile (· != ':')).drop 1)

/-- A serial that is null breaks the `NOT NULL` of its column and with it the transaction. -/
def autopilotRows (now : String) (devices : List GraphDevice) : Option (List AutopilotRow) :=
  devices.mapM fun d => d.serialNumber.map fun serial => { id := d.id, serial := serial, syncedAt := now }

def intuneRows (now : String) (devices : List GraphDevice) : List IntuneRow :=
  devices.map fun d =>
    { id := d.id, serial := nullableText d.serialNumber, os := nullableText d.operatingSystem
      azureAdDeviceId := nullableText d.azureADDeviceId, syncedAt := now }

def entraRows (now : String) (devices : List GraphDevice) : List EntraRow :=
  devices.map fun d =>
    { id := d.id, deviceId := nullableText d.deviceId
      serial := extractPhysicalId d.physicalIds "[SerialNumber]:"
      operatingSystem := nullableText d.operatingSystem, syncedAt := now }

/-! ### `list_grouped` -/

def startsWith (front text : String) : Bool := front.toList.isPrefixOf text.toList

def isWindowsIntune (row : IntuneRow) : Bool :=
  startsWith "windows" (lower (strip (row.os.getD "")))

def isWindowsEntra (row : EntraRow) : Bool :=
  let osName := lower (strip (row.operatingSystem.getD ""))
  startsWith "windows" osName || osName == "unknown" || osName == ""

/-- `intune_by_azure_id.get(device_id)`: of several records with that id the last one read. -/
def intuneByAzureId (it : List IntuneRow) (deviceId : Option String) : Option IntuneRow :=
  deviceId.bind fun d => (it.filter fun r => given r.azureAdDeviceId = some d).getLast?

/-- An Entra record without a serial takes the one of the Intune record with its device id. -/
def adoptSerial (it : List IntuneRow) (row : EntraRow) : EntraRow :=
  if (given row.serial).isNone then
    match intuneByAzureId it row.deviceId with
    | some holder => { row with serial := holder.serial }
    | none => row
  else row

@[ext]
structure Group where
  serial : String
  autopilot : Option AutopilotRow
  intune : Option IntuneRow
  entra : List EntraRow
deriving DecidableEq

def Group.fresh (serial : String) : Group := ⟨serial, none, none, []⟩

def Group.setAutopilot (row : AutopilotRow) (g : Group) : Group := { g with autopilot := some row }

def Group.setIntune (row : IntuneRow) (g : Group) : Group := { g with intune := some row }

def Group.addEntra (row : EntraRow) (g : Group) : Group := { g with entra := g.entra ++ [row] }

structure Meta where
  syncedAt : String
  counts : Nat × Nat × Nat
  /-- `counts_filtered`, there with `filter: windows_only` -/
  countsFiltered : Option (Nat × Nat × Nat)
deriving DecidableEq

@[ext]
structure Grouped where
  groups : List Group
  info : Meta
  unmatched : List EntraRow
deriving DecidableEq

def serials (ap : List AutopilotRow) (it : List IntuneRow) (en : List EntraRow) : List (String × Group) :=
  let table := Buckets.fill Group.fresh (·.serial) Group.setAutopilot ap []
  let table := Buckets.fill Group.fresh (·.serial.getD "") Group.setIntune it table
  Buckets.fill Group.fresh (·.serial.getD "") Group.addEntra (en.filter fun row => (given row.serial).isSome) table

def syncedAt (ap : List AutopilotRow) (it : List IntuneRow) (en : List EntraRow) : String :=
  (ap.map (·.syncedAt) ++ it.map (·.syncedAt) ++ en.map (·.syncedAt)).foldl max ""

def listGrouped (windowsOnly : Bool) (ap : List AutopilotRow) (it : List IntuneRow) (en : List EntraRow) : Grouped :=
  let adopted := en.map (adoptSerial it)
  let shownIt := if windowsOnly then it.filter isWindowsIntune else it
  let shownEn := if windowsOnly then adopted.filter isWindowsEntra else adopted
  { groups := (((serials ap shownIt shownEn).map Prod.snd).filter (·.serial ≠ "")).insertionSort
      (fun a b => a.serial ≤ b.serial)
    info :=
      { syncedAt := syncedAt ap it en
        counts := (ap.length, it.length, en.length)
        countsFiltered := if windowsOnly then some (ap.length, shownIt.length, shownEn.length) else none }
    unmatched := shownEn.filter fun row => (given row.serial).isNone }

/-! ### The groups by their rows -/

/-- The group of a serial, put together from the rows at once. -/
def groupOf (ap : List AutopilotRow) (it : List IntuneRow) (en : List EntraRow) (serial : String) : Group where
  serial := serial
  autopilot := (ap.filter (·.serial = serial)).getLast?
  intune := (it.filter (·.serial.getD "" = serial)).getLast?
  entra := (en.filter fun row => (given row.serial).isSome).filter (·.serial.getD "" = serial)

theorem foldl_setAutopilot (rows : List AutopilotRow) (g : Group) :
    rows.foldl (fun g row => g.setAutopilot row) g = { g with autopilot := rows.getLast?.or g.autopilot } := by
  induction rows generalizing g with
  | nil => rfl
  | cons row rows ih =>
    rw [List.foldl_cons, ih]
    cases h : rows.getLast? <;> simp [Group.setAutopilot, List.getLast?_cons, h]

theorem foldl_setIntune (rows : List IntuneRow) (g : Group) :
    rows.foldl (fun g row => g.setIntune row) g = { g with intune := rows.getLast?.or g.intune } := by
  induction rows generalizing g with
  | nil => rfl
  | cons row rows ih =>
    rw [List.foldl_cons, ih]
    cases h : rows.getLast? <;> simp [Group.setIntune, List.getLast?_cons, h]

theorem foldl_addEntra (rows : List EntraRow) (g : Group) :
    rows.foldl (fun g row => g.addEntra row) g = { g with entra := g.entra ++ rows } := by
  induction rows generalizing g with
  | nil => simp
  | cons row rows ih =>
    rw [List.foldl_cons, ih]
    simp [Group.addEntra]

section

variable (ap : List AutopilotRow) (it : List IntuneRow) (en : List EntraRow)

theorem content_serials (serial : String) :
    Buckets.content Group.fresh (serials ap it en) serial = groupOf ap it en serial := by
  unfold serials
  rw [Buckets.content_fill, Buckets.content_fill, Buckets.content_fill]
  have hnil : Buckets.content Group.fresh [] serial = Group.fresh serial := rfl
  rw [hnil, foldl_setAutopilot, foldl_setIntune, foldl_addEntra]
  simp [Group.fresh, groupOf]

theorem nodup_keys_serials : (Buckets.keys (serials ap it en)).Nodup := by
  unfold serials
  apply Buckets.nodup_keys_fill
  apply Buckets.nodup_keys_fill
  apply Buckets.nodup_keys_fill
  exact List.nodup_nil

/-- A serial some row is filed under. -/
def Filed (serial : String) : Prop :=
  (∃ row ∈ ap, row.serial = serial) ∨ (∃ row ∈ it, row.serial.getD "" = serial) ∨
    ∃ row ∈ en, given row.serial ≠ none ∧ row.serial.getD "" = serial

theorem mem_keys_serials (serial : String) :
    serial ∈ Buckets.keys (serials ap it en) ↔ Filed ap it en serial := by
  unfold serials Filed
  rw [Buckets.mem_keys_fill, Buckets.mem_keys_fill, Buckets.mem_keys_fill]
  simp [Buckets.keys, Option.isSome_iff_ne_none, and_assoc, or_assoc]

theorem serials_eq : serials ap it en = (Buckets.keys (serials ap it en)).map fun s => (s, groupOf ap it en s) := by
  unfold Buckets.keys
  rw [List.map_map]
  conv_lhs => rw [← List.map_id (serials ap it en)]
  apply List.map_congr_left
  intro entry hentry
  have hcontent := Buckets.content_of_mem Group.fresh (nodup_keys_serials ap it en) hentry
  rw [content_serials] at hcontent
  rw [Function.comp_apply, hcontent, id]

end

end ProxmoxVEAutopilot.DeviceCache
