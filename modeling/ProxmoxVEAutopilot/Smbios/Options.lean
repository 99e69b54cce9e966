import ProxmoxVEAutopilot.Foundation.Base64
import ProxmoxVEAutopilot.Smbios.Tables

/-!
# The smbios1 option

The fields as Proxmox takes them: `key=value` between commas, the values in base64 but for
the UUID.
-/

namespace ProxmoxVEAutopilot.Smbios

open Foundation
set_option autoImplicit false

/-- The dict; an absent field is empty. -/
structure OemFields where
  manufacturer : String := ""
  product : String := ""
  family : String := ""
  serial : String := ""
  sku : String := ""
  uuid : String := ""

inductive Smbios1Input where
  | raw (text : String)
  | fields (f : OemFields)

def OemFields.oem (f : OemFields) : List (String × String) :=
  [("manufacturer", f.manufacturer), ("product", f.product), ("family", f.family), ("serial", f.serial), ("sku", f.sku)]

def OemFields.nonEmpty (f : OemFields) : List (String × String) := (f.oem ++ [("uuid", f.uuid)]).filter fun kv => kv.2 ≠ ""

def b64 (value : String) : String := String.ofList (standard.encode (utf8 value))

def oemParts (given : List (String × String)) : List String :=
  if given = [] then [] else "base64=1" :: given.map fun kv => kv.1 ++ "=" ++ b64 kv.2

def uuidPart (uuid : String) : List String := if uuid = "" then [] else ["uuid=" ++ uuid]

/-- `text.split(",")` -/
def commaParts (text : String) : List String := (text.toList.splitOn ',').map String.ofList

def proxmoxSmbios1 : Smbios1Input → Option String
  | .raw text =>
    let parts := (commaParts text).filter fun p => p ≠ "" && !p.startsWith "uuid="
    some (if parts = [] then text else ",".intercalate parts)
  | .fields f =>
    let given := f.oem.filter fun kv => kv.2 ≠ ""
    if given = [] ∧ f.uuid = "" then none else some (",".intercalate (oemParts given ++ uuidPart f.uuid))

/-- A part up to its first equals sign, and what stands behind it. -/
def splitOption (part : String) : String × String :=
  (String.ofList (part.toList.takeWhile (· ≠ '=')), String.ofList (part.toList.dropWhile (· ≠ '=')).tail)

def readOption (coded : Bool) (option : String × String) : Option (String × String) :=
  if coded && option.1 ≠ "uuid" then
    ((standard.decode option.2.toList).bind decodeUtf8).map fun value => (option.1, value)
  else some option

/-- The fields Proxmox finds in its option. -/
def readSmbios1 : Option String → Option (List (String × String))
  | none => some []
  | some text =>
    let options := (commaParts text).map splitOption
    (options.filter fun option => option.1 ≠ "base64").mapM (readOption (decide (("base64", "1") ∈ options)))

section RoundTrip

theorem comma_notMem_b64 (value : String) : ',' ∉ (b64 value).toList := by
  have hletters : ∀ n < 64, standard.letter n ≠ ',' := by decide +kernel
  unfold b64 Alphabet.encode
  rw [String.toList_ofList]
  intro h
  rcases List.mem_append.mp h with h | h
  · obtain ⟨n, hn, heq⟩ := Alphabet.mem_encodeBare h
    exact hletters n hn heq.symm
  · exact absurd (List.eq_of_mem_replicate h) (by decide)

theorem splitOption_pair {key : String} (hkey : '=' ∉ key.toList) (value : String) :
    splitOption (key ++ "=" ++ value) = (key, value) := by
  have hall : ∀ c ∈ key.toList, decide (c ≠ '=') = true := fun c hc => decide_eq_true fun heq => hkey (heq ▸ hc)
  have hchars : (key ++ "=" ++ value).toList = key.toList ++ '=' :: value.toList := by
    rw [String.toList_append, String.toList_append, List.append_assoc]
    rfl
  unfold splitOption
  rw [hchars, List.takeWhile_append_of_pos hall, List.dropWhile_append_of_pos hall,
    List.takeWhile_cons_of_neg (by decide), List.dropWhile_cons_of_neg (by decide), List.append_nil, List.tail_cons,
    String.ofList_toList, String.ofList_toList]

theorem commaParts_intercalate {parts : List String} (hne : parts ≠ []) (h : ∀ p ∈ parts, ',' ∉ p.toList) :
    commaParts (",".intercalate parts) = parts := by
  have hcomma : ∀ chars ∈ parts.map String.toList, ',' ∉ chars := by
    intro chars hchars
    obtain ⟨p, hp, rfl⟩ := List.mem_map.mp hchars
    exact h p hp
  have hsplit := List.splitOn_intercalate ',' hcomma (by simpa using hne)
  unfold commaParts
  rw [String.toList_intercalate]
  change (([','].intercalate (parts.map String.toList)).splitOn ',').map String.ofList = parts
  rw [hsplit, List.map_map]
  exact (List.map_congr_left fun p _ => String.ofList_toList).trans (List.map_id parts)

theorem mapM_some {α β : Type} {f : α → Option β} {g : α → β} {xs : List α} (h : ∀ x ∈ xs, f x = some (g x)) :
    xs.mapM f = some (xs.map g) := by
  induction xs with
  | nil => rfl
  | cons x xs ih =>
    rw [List.mapM_cons, h x (List.mem_cons_self ..), ih fun y hy => h y (List.mem_cons_of_mem _ hy)]
    rfl

variable {f : OemFields} {kv : String × String}

/-- The five keys are neither of the two others, and hold none of the separators. -/
structure OemKey (key : String) : Prop where
  equals : '=' ∉ key.toList
  comma : ',' ∉ key.toList
  base64 : key ≠ "base64"
  uuid : key ≠ "uuid"

theorem oemKey (h : kv ∈ f.oem) : OemKey kv.1 := by
  have hkeys : kv.1 ∈ ["manufacturer", "product", "family", "serial", "sku"] := List.mem_map_of_mem (f := Prod.fst) h
  generalize kv.1 = key at hkeys
  simp only [List.mem_cons, List.not_mem_nil, or_false] at hkeys
  rcases hkeys with rfl | rfl | rfl | rfl | rfl <;> exact ⟨by decide, by decide, by decide, by decide⟩

theorem readOption_coded (hkey : kv.1 ≠ "uuid") : readOption true (kv.1, b64 kv.2) = some kv := by
  unfold readOption
  rw [if_pos (by simp [hkey])]
  unfold b64
  rw [String.toList_ofList, Alphabet.decode_encode, Option.bind_some, decodeUtf8_utf8, Option.map_some]

theorem readOption_uuid (coded : Bool) (uuid : String) : readOption coded ("uuid", uuid) = some ("uuid", uuid) := by
  unfold readOption
  rw [if_neg (by simp)]

/-- The parts as pairs. -/
def oemOptions (given : List (String × String)) : List (String × String) :=
  if given = [] then [] else ("base64", "1") :: given.map fun kv => (kv.1, b64 kv.2)

def uuidOptions (uuid : String) : List (String × String) := if uuid = "" then [] else [("uuid", uuid)]

variable {given : List (String × String)} {uuid : String}

theorem splitOption_oemParts (hkeys : ∀ kv ∈ given, OemKey kv.1) :
    (oemParts given).map splitOption = oemOptions given := by
  unfold oemParts oemOptions
  split
  · rfl
  · have hmarker : splitOption "base64=1" = ("base64", "1") := by decide +kernel
    rw [List.map_cons, hmarker, List.map_map]
    exact congrArg _ (List.map_congr_left fun kv hkv => splitOption_pair (hkeys kv hkv).equals _)

theorem splitOption_uuidPart : (uuidPart uuid).map splitOption = uuidOptions uuid := by
  unfold uuidPart uuidOptions
  split
  · rfl
  · have hequals : "uuid=" = "uuid" ++ "=" := by decide
    rw [List.map_singleton, hequals, splitOption_pair (by decide)]

theorem comma_notMem_parts (hkeys : ∀ kv ∈ given, OemKey kv.1) (hcomma : ',' ∉ uuid.toList) :
    ∀ p ∈ oemParts given ++ uuidPart uuid, ',' ∉ p.toList := by
  intro p hp
  rcases List.mem_append.mp hp with hp | hp
  · unfold oemParts at hp
    split at hp
    · exact absurd hp List.not_mem_nil
    rcases List.mem_cons.mp hp with rfl | hp
    · decide
    obtain ⟨kv, hkv, rfl⟩ := List.mem_map.mp hp
    rw [String.toList_append, String.toList_append, List.mem_append, List.mem_append, not_or, not_or]
    exact ⟨⟨(hkeys kv hkv).comma, by decide⟩, comma_notMem_b64 kv.2⟩
  · unfold uuidPart at hp
    split at hp
    · exact absurd hp List.not_mem_nil
    rw [List.mem_singleton.mp hp, String.toList_append, List.mem_append, not_or]
    exact ⟨by decide, hcomma⟩

theorem readOption_options (hkeys : ∀ kv ∈ given, OemKey kv.1) (coded : Bool) (hcoded : given ≠ [] → coded = true) :
    ((oemOptions given ++ uuidOptions uuid).filter fun option => option.1 ≠ "base64").mapM (readOption coded) =
      some (given ++ uuidOptions uuid) := by
  have huuid : (uuidOptions uuid).filter (fun option => decide (option.1 ≠ "base64")) = uuidOptions uuid := by
    unfold uuidOptions
    split <;> simp
  have hread : ∀ option ∈ uuidOptions uuid, readOption coded option = some (id option) := by
    intro option hoption
    unfold uuidOptions at hoption
    split at hoption
    · exact absurd hoption List.not_mem_nil
    · rw [List.mem_singleton.mp hoption, readOption_uuid]
      rfl
  have hlast : (uuidOptions uuid).mapM (readOption coded) = some (uuidOptions uuid) := by
    rw [mapM_some hread, List.map_id]
  rw [List.filter_append, huuid]
  unfold oemOptions
  split
  · rename_i hempty
    simp only [hempty, List.filter_nil, List.nil_append]
    exact hlast
  · rename_i hsome
    have hgiven : (given.map fun kv => (kv.1, b64 kv.2)).filter (fun option => decide (option.1 ≠ "base64")) =
        given.map fun kv => (kv.1, b64 kv.2) := by
      refine List.filter_eq_self.mpr fun option hoption => ?_
      obtain ⟨kv, hkv, rfl⟩ := List.mem_map.mp hoption
      exact decide_eq_true (hkeys kv hkv).base64
    have hfirst : (given.map fun kv => (kv.1, b64 kv.2)).mapM (readOption coded) = some given := by
      rw [hcoded hsome, List.mapM_map]
      have heach : ∀ kv ∈ given, (readOption true ∘ fun kv => (kv.1, b64 kv.2)) kv = some (id kv) := fun kv hkv =>
        readOption_coded (hkeys kv hkv).uuid
      rw [mapM_some heach, List.map_id]
    rw [List.filter_cons_of_neg (by simp), hgiven, List.mapM_append, hfirst, hlast]
    rfl

theorem nonEmpty_eq : f.nonEmpty = (f.oem.filter fun kv => kv.2 ≠ "") ++ uuidOptions f.uuid := by
  unfold OemFields.nonEmpty uuidOptions
  rw [List.filter_append]
  congr 1
  split <;> simp_all

theorem readSmbios1_fields (hcomma : ',' ∉ f.uuid.toList) :
    readSmbios1 (proxmoxSmbios1 (.fields f)) = some f.nonEmpty := by
  have hkeys : ∀ kv ∈ f.oem.filter fun kv => kv.2 ≠ "", OemKey kv.1 := fun kv h => oemKey (List.mem_of_mem_filter h)
  rw [nonEmpty_eq]
  unfold proxmoxSmbios1
  dsimp only
  generalize (f.oem.filter fun kv => kv.2 ≠ "") = given at hkeys ⊢
  split
  · rename_i hnone
    rw [hnone.1, hnone.2]
    rfl
  · rename_i hsome
    have hne : oemParts given ++ uuidPart f.uuid ≠ [] := by
      intro hnil
      obtain ⟨hoem, huuid⟩ := List.append_eq_nil_iff.mp hnil
      refine hsome ⟨?_, ?_⟩
      · by_contra h
        simp [oemParts, h] at hoem
      · by_contra h
        simp [uuidPart, h] at huuid
    unfold readSmbios1
    dsimp only
    rw [commaParts_intercalate hne (comma_notMem_parts hkeys hcomma), List.map_append, splitOption_oemParts hkeys,
      splitOption_uuidPart]
    refine readOption_options hkeys _ fun hgiven => decide_eq_true (List.mem_append_left _ ?_)
    unfold oemOptions
    rw [if_neg hgiven]
    exact List.mem_cons_self ..

end RoundTrip

section Machine

/-- The values of one machine that fit into the file. -/
structure Valid (f : SmbiosFields) : Prop where
  manufacturer : NulFree f.manufacturer
  productName : NulFree f.productName
  family : NulFree f.family
  sku : NulFree f.sku
  version : NulFree f.version
  serialNumber : NulFree f.serialNumber
  biosVendor : ∀ vendor ∈ f.biosVendor, NulFree vendor
  biosVersion : NulFree f.biosVersion
  biosReleaseDate : NulFree f.biosReleaseDate
  uuid : (uuidOfText f.uuidStr).isSome
  chassisType : 1 ≤ f.chassisType ∧ f.chassisType ≤ 255

/-- The file is three structures with the values given, and this BIOS vendor. -/
def ReadsAs (vendor : String) (f : SmbiosFields) : Prop :=
  ∃ bytes uuid bios system chassis, buildFullSmbios f = .ok bytes ∧ uuidOfText f.uuidStr = some uuid ∧
    readSmbios bytes = some [bios, system, chassis] ∧ IsBios bios vendor f.biosVersion f.biosReleaseDate ∧
    IsSystem system f.manufacturer f.productName f.version f.serialNumber uuid f.sku f.family ∧
    IsChassis chassis f.chassisType.toNat f.manufacturer f.serialNumber "" ""

variable {f : SmbiosFields}

theorem uuidOfText_lt {text : String} {uuid : Nat} (h : uuidOfText text = some uuid) : uuid < 2 ^ 128 := by
  unfold uuidOfText at h
  dsimp only at h
  split at h
  · rename_i hhex
    obtain rfl := Option.some.inj h
    have hlt := Ip.number_lt ((((withoutBraces (replaceAll (replaceAll text "urn:" "") "uuid:" "")).toList.filter
      (· ≠ '-'))).map Ip.hexDigit)
    rw [List.length_map, hhex.1] at hlt
    exact hlt.trans_eq (by norm_num)
  · cases h

theorem nulFree_vendor (h : Valid f) : NulFree f.vendor := by
  unfold SmbiosFields.vendor
  cases hgiven : given f.biosVendor with
  | none => exact h.manufacturer
  | some vendor => exact h.biosVendor vendor (Option.filter_eq_some_iff.mp hgiven).1

theorem readSmbios_full (h : Valid f) : ReadsAs f.vendor f := by
  obtain ⟨uuid, huuid⟩ := Option.isSome_iff_exists.mp h.uuid
  have hempty : NulFree "" := List.not_mem_nil
  obtain ⟨hlow, hhigh⟩ := h.chassisType
  obtain ⟨bios, hbios, hisBios⟩ := reads_type0 (nulFree_vendor h) h.biosVersion h.biosReleaseDate
  obtain ⟨system, hsystem, hisSystem⟩ := reads_type1 h.manufacturer h.productName h.version h.serialNumber
    (uuidOfText_lt huuid) h.sku h.family
  obtain ⟨chassis, hchassis, hisChassis⟩ := reads_type3 (show f.chassisType.toNat < 256 by omega)
    h.manufacturer h.serialNumber hempty hempty h.sku
  have hbuilt : buildFullSmbios f = .ok (buildType0Bios f.vendor f.biosVersion f.biosReleaseDate ++
      (buildType1System f.manufacturer f.productName f.version f.serialNumber uuid f.sku f.family ++
        buildType3Chassis f.chassisType.toNat f.manufacturer f.serialNumber "" "" f.sku)) := by
    unfold buildFullSmbios
    rw [huuid]
    exact if_neg (by omega)
  have hpieces := List.Forall₂.cons hbios (.cons hsystem (.cons hchassis .nil))
  have hall := readAll_pieces hpieces fun piece hpiece => by
    simp only [List.mem_cons, List.not_mem_nil, or_false] at hpiece
    rcases hpiece with rfl | rfl | rfl <;> exact List.cons_ne_nil _ _
  rw [List.flatten_cons, List.flatten_cons, List.flatten_cons, List.flatten_nil, List.append_nil] at hall
  exact ⟨_, uuid, bios, system, chassis, hbuilt, huuid, hall, hisBios, hisSystem, hisChassis⟩

theorem smbios_reads_back (h : Valid f) {oem : OemFields} (hcomma : ',' ∉ oem.uuid.toList) :
    ReadsAs f.vendor f ∧ readSmbios1 (proxmoxSmbios1 (.fields oem)) = some oem.nonEmpty :=
  ⟨readSmbios_full h, readSmbios1_fields hcomma⟩

def thinkPad : SmbiosFields where
  manufacturer := "Lenovo"
  productName := "ThinkPad T14"
  sku := "Lenovo"
  serialNumber := "PF-0A1B2C3D"
  uuidStr := "0A1B2C3D-1111-2222-3333-444455556666"
  chassisType := 10
  biosVendor := some ""

theorem valid_thinkPad : Valid thinkPad where
  manufacturer := by unfold NulFree; decide
  productName := by unfold NulFree; decide
  family := by unfold NulFree; decide
  sku := by unfold NulFree; decide
  version := by unfold NulFree; decide
  serialNumber := by unfold NulFree; decide
  biosVendor := by
    intro vendor hvendor
    obtain rfl := Option.some.inj hvendor
    exact List.not_mem_nil
  biosVersion := by unfold NulFree; decide
  biosReleaseDate := by unfold NulFree; decide
  uuid := by decide +kernel
  chassisType := by decide

def thinkPadOption : OemFields where
  manufacturer := "Lenovo, Inc."
  serial := "PF-0A1B2C3D"
  uuid := "0A1B2C3D-1111-2222-3333-444455556666"

theorem thinkPad_reads_back : ReadsAs thinkPad.vendor thinkPad ∧
    readSmbios1 (proxmoxSmbios1 (.fields thinkPadOption)) = some thinkPadOption.nonEmpty :=
  smbios_reads_back valid_thinkPad (by decide)

def splitUuid : OemFields where
  uuid := "0A1B2C3D,uuid=x"

/-- An empty BIOS vendor reads back as the manufacturer, and a UUID with a comma falls apart. -/
theorem vendor_and_uuid_lost : (Valid thinkPad ∧ thinkPad.biosVendor = some "" ∧ ¬ ReadsAs "" thinkPad) ∧
    readSmbios1 (proxmoxSmbios1 (.fields splitUuid)) ≠ some splitUuid.nonEmpty := by
  refine ⟨⟨valid_thinkPad, rfl, fun h => ?_⟩, by decide +kernel⟩
  obtain ⟨bytes, uuid, bios, system, chassis, hbuilt, _, hread, hbios, _⟩ := h
  obtain ⟨bytes', uuid', bios', system', chassis', hbuilt', _, hread', hbios', _⟩ := readSmbios_full valid_thinkPad
  obtain rfl : bytes = bytes' := Except.ok.inj (hbuilt.symm.trans hbuilt')
  obtain rfl : bios = bios' := (List.cons.inj (Option.some.inj (hread.symm.trans hread'))).1
  have hvendor : given (some "") = given (some thinkPad.vendor) := hbios.vendor.symm.trans hbios'.vendor
  exact absurd hvendor (by decide)

end Machine

end ProxmoxVEAutopilot.Smbios
