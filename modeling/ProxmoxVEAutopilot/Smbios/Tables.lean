import ProxmoxVEAutopilot.Foundation.Bytes
import ProxmoxVEAutopilot.Foundation.Networks
import ProxmoxVEAutopilot.Foundation.Substitution
import ProxmoxVEAutopilot.Foundation.Text

/-!
# The SMBIOS file of a machine

Three structures: BIOS, system and chassis. Each has a formatted area and behind it the
strings its indexes count, every string once.
-/

namespace ProxmoxVEAutopilot.Smbios

open Foundation
set_option autoImplicit false

/-- The unformatted section of one structure. -/
def stringTable (strings : List String) : List UInt8 :=
  if strings = [] then [0, 0]
  else (strings.map fun s => utf8 (if s = "" then " " else s) ++ [0]).flatten ++ [0]

/-- The 1-based index of the value, and the strings with the value among them. -/
def strIndex (strings : List String) (value : String) : Nat × List String :=
  if value = "" then (0, strings)
  else
    match strings.idxOf? value with
    | some i => (i + 1, strings)
    | none => (strings.length + 1, strings ++ [value])

/-- `struct.pack` of an index; a structure has seven strings at most. -/
def indexByte (i : Nat) : UInt8 := UInt8.ofNat i

def buildType0Bios (vendor biosVersion releaseDate : String) : List UInt8 :=
  let (sVendor, strings) := strIndex [] vendor
  let (sVersion, strings) := strIndex strings biosVersion
  let (sDate, strings) := strIndex strings releaseDate
  [0x00, 0x18] ++ littleEndian 2 0x0000 ++ [indexByte sVendor, indexByte sVersion] ++ littleEndian 2 0xE800 ++
    [indexByte sDate, 0x00] ++ littleEndian 8 0x80000 ++ [0x03, 0x03, 0x01, 0x00, 0x00, 0x00] ++ stringTable strings

/-- `str.strip("{}")` -/
def withoutBraces (s : String) : String := String.ofList (trimmed (fun c => c == '\x7b' || c == '\x7d') s.toList)

/-- `uuid.UUID(hex)`, without the leniency of `int` about signs and underscores. -/
def uuidOfText (text : String) : Option Nat :=
  let hex := (withoutBraces (replaceAll (replaceAll text "urn:" "") "uuid:" "")).toList.filter (· ≠ '-')
  if hex.length = 32 ∧ hex.all Ip.isHexDigit = true then some (Ip.number (hex.map Ip.hexDigit)) else none

/-- The first three groups from the low byte on. -/
def swapGroups (bytes : List UInt8) : List UInt8 :=
  (bytes.take 4).reverse ++ (((bytes.drop 4).take 2).reverse ++ (((bytes.drop 6).take 2).reverse ++ bytes.drop 8))

/-- `UUID.bytes_le` -/
def uuidBytesLe (uuid : Nat) : List UInt8 := swapGroups (bigEndian 16 uuid)

def buildType1System (manufacturer productName version serialNumber : String) (uuid : Nat) (sku family : String) :
    List UInt8 :=
  let (sMfr, strings) := strIndex [] manufacturer
  let (sProd, strings) := strIndex strings productName
  let (sVer, strings) := strIndex strings version
  let (sSer, strings) := strIndex strings serialNumber
  let (sSku, strings) := strIndex strings sku
  let (sFam, strings) := strIndex strings family
  [0x01, 0x1B] ++ littleEndian 2 0x0100 ++ [indexByte sMfr, indexByte sProd, indexByte sVer, indexByte sSer] ++
    uuidBytesLe uuid ++ [0x06, indexByte sSku, indexByte sFam] ++ stringTable strings

/-- The SKU is among the strings, though no index counts it. -/
def buildType3Chassis (chassisType : Nat) (manufacturer serialNumber version assetTag sku : String) : List UInt8 :=
  let (sMfr, strings) := strIndex [] manufacturer
  let (sVer, strings) := strIndex strings version
  let (sSer, strings) := strIndex strings serialNumber
  let (sAsset, strings) := strIndex strings assetTag
  let (_, strings) := strIndex strings (if sku ≠ "" then sku else "Default")
  [0x03, 0x15] ++ littleEndian 2 0x0300 ++ [indexByte sMfr, UInt8.ofNat chassisType, indexByte sVer, indexByte sSer,
    indexByte sAsset, 3, 3, 3, 3, 0, 0, 0, 0, 0, 0, 0, 0] ++ stringTable strings

structure SmbiosFields where
  manufacturer : String
  productName : String
  family : String := ""
  sku : String := ""
  version : String := ""
  serialNumber : String
  uuidStr : String
  chassisType : Int
  biosVendor : Option String := none
  biosVersion : String := "1.0"
  biosReleaseDate : String := "01/01/2026"

def SmbiosFields.vendor (f : SmbiosFields) : String := (given f.biosVendor).getD f.manufacturer

def buildFullSmbios (f : SmbiosFields) : Except String (List UInt8) :=
  match uuidOfText f.uuidStr with
  | none => .error "badly formed hexadecimal UUID string"
  | some uuid =>
    if f.chassisType < 1 ∨ 255 < f.chassisType then
      .error ("chassis_type must be 1..255, got " ++ toString f.chassisType)
    else
      .ok (buildType0Bios f.vendor f.biosVersion f.biosReleaseDate ++
        (buildType1System f.manufacturer f.productName f.version f.serialNumber uuid f.sku f.family ++
          buildType3Chassis f.chassisType.toNat f.manufacturer f.serialNumber "" "" f.sku))

/-!
## Reading the SMBIOS file back

A structure is its formatted area, of the length its second byte states, and NUL-terminated
strings up to an empty one. An index of zero is no string.
-/

structure SmbiosStructure where
  area : List UInt8
  strings : List (List UInt8)
deriving DecidableEq

/-- Strings up to an empty one; `current` is the reversed beginning of the first. -/
def readStrings (current : List UInt8) : List UInt8 → Option (List (List UInt8) × List UInt8)
  | [] => none
  | b :: bytes =>
    if b = 0 then
      if current = [] then some ([], bytes)
      else (readStrings [] bytes).map fun read => (current.reverse :: read.1, read.2)
    else readStrings (b :: current) bytes

/-- Without strings there are two NULs. -/
def readStringSet : Reader (List (List UInt8)) := fun bytes =>
  match bytes with
  | 0 :: 0 :: rest => some ([], rest)
  | 0 :: _ => none
  | bytes => readStrings [] bytes

def readArea : Reader (List UInt8) := fun bytes =>
  match bytes with
  | _ :: length :: _ => if 4 ≤ length.toNat then taking length.toNat bytes else none
  | _ => none

def readStructure : Reader SmbiosStructure := do
  let area ← readArea
  let strings ← readStringSet
  pure ⟨area, strings⟩

def readSmbios (bytes : List UInt8) : Option (List SmbiosStructure) := readAll readStructure bytes

def SmbiosStructure.byteAt (s : SmbiosStructure) (offset : Nat) : Nat := (s.area.getD offset 0).toNat

def SmbiosStructure.field (s : SmbiosStructure) (offset : Nat) : Option String :=
  if s.byteAt offset = 0 then none else (s.strings[s.byteAt offset - 1]?).bind decodeUtf8

def SmbiosStructure.uuid (s : SmbiosStructure) : Nat := bigEndianValue (swapGroups ((s.area.drop 8).take 16))

section Strings

def NulFree (s : String) : Prop := Char.ofNat 0 ∉ s.toList

def Plain (s : String) : Prop := s ≠ "" ∧ NulFree s

theorem readStrings_string {rest : List UInt8} (bytes : List UInt8) : ∀ current : List UInt8, 0 ∉ bytes →
    current.reverse ++ bytes ≠ [] → readStrings current (bytes ++ 0 :: rest) =
      (readStrings [] rest).map fun read => ((current.reverse ++ bytes) :: read.1, read.2) := by
  induction bytes with
  | nil =>
    intro current _ hne
    rw [List.append_nil] at hne
    have hcurrent : current ≠ [] := fun h => hne (by rw [h]; rfl)
    rw [List.nil_append, List.append_nil]
    simp only [readStrings, if_neg hcurrent, if_true]
  | cons b bytes ih =>
    intro current hbytes _
    have hb : b ≠ 0 := fun h => hbytes (h ▸ List.mem_cons_self ..)
    have hstep := ih (b :: current) (fun h => hbytes (List.mem_cons_of_mem _ h)) (by simp)
    rw [List.cons_append]
    simp only [readStrings, if_neg hb]
    rw [hstep, List.reverse_cons, List.append_assoc, List.singleton_append]

theorem utf8_ne_nil {s : String} (h : s ≠ "") : utf8 s ≠ [] := fun hnil => h (utf8_eq_nil.mp hnil)

theorem readStrings_table {strings : List String} (h : ∀ s ∈ strings, Plain s) (rest : List UInt8) :
    readStrings [] ((strings.map fun s => utf8 (if s = "" then " " else s) ++ [0]).flatten ++ (0 :: rest)) =
      some (strings.map utf8, rest) := by
  induction strings with
  | nil => rfl
  | cons s strings ih =>
    obtain ⟨hne, hfree⟩ := h s (List.mem_cons_self ..)
    have hbytes := zero_not_mem_utf8 hfree
    rw [List.map_cons, List.flatten_cons, if_neg hne, List.append_assoc, List.append_assoc, List.singleton_append,
      readStrings_string (utf8 s) [] hbytes (by simpa using utf8_ne_nil hne),
      ih fun t ht => h t (List.mem_cons_of_mem _ ht)]
    rfl

theorem reads_stringSet {strings : List String} (h : ∀ s ∈ strings, Plain s) :
    Reads readStringSet (stringTable strings) (strings.map utf8) := by
  intro rest
  unfold stringTable
  split
  · rename_i hempty
    rw [hempty]
    rfl
  · rename_i hsome
    have htable := readStrings_table h rest
    obtain ⟨s, more, rfl⟩ := List.exists_cons_of_ne_nil hsome
    obtain ⟨hne, hfree⟩ := h s (List.mem_cons_self ..)
    have hbytes := zero_not_mem_utf8 hfree
    obtain ⟨b, bytes, hutf8⟩ := List.exists_cons_of_ne_nil (utf8_ne_nil hne)
    have hb : b ≠ 0 := fun hzero => hbytes (by rw [hutf8, hzero]; exact List.mem_cons_self ..)
    rw [List.append_assoc, List.singleton_append]
    rw [List.map_cons, List.flatten_cons, if_neg hne, hutf8] at htable ⊢
    simp only [List.cons_append] at htable ⊢
    unfold readStringSet
    split
    · rename_i heq
      exact absurd (List.cons.inj heq).1 hb
    · rename_i heq
      exact absurd (List.cons.inj heq).1 hb
    · exact htable

end Strings

section Indexes
variable {strings strings' table : List String} {value : String} {i : Nat}

/-- The index counts the value in the strings; an empty value has none. -/
def Counts (strings : List String) (value : String) (i : Nat) : Prop :=
  (value = "" ∧ i = 0) ∨ (value ≠ "" ∧ 0 < i ∧ strings[i - 1]? = some value)

structure Indexed (strings strings' : List String) (value : String) (i : Nat) : Prop where
  kept : strings <+: strings'
  counts : Counts strings' value i
  length : strings'.length ≤ strings.length + 1
  plain : (∀ s ∈ strings, Plain s) → NulFree value → ∀ s ∈ strings', Plain s

theorem indexed_strIndex (h : strIndex strings value = (i, strings')) : Indexed strings strings' value i := by
  unfold strIndex at h
  split at h
  · rename_i hempty
    obtain ⟨rfl, rfl⟩ := Prod.mk.inj h
    exact ⟨List.prefix_rfl, .inl ⟨hempty, rfl⟩, Nat.le_succ _, fun hplain _ => hplain⟩
  · rename_i hne
    split at h
    · rename_i j hj
      obtain ⟨rfl, rfl⟩ := Prod.mk.inj h
      refine ⟨List.prefix_rfl, .inr ⟨hne, Nat.succ_pos _, ?_⟩, Nat.le_succ _, fun hplain _ => hplain⟩
      obtain ⟨hlt, hget, _⟩ := List.idxOf?_eq_some_iff.mp hj
      rw [Nat.add_sub_cancel, List.getElem?_eq_getElem hlt]
      exact congrArg some (by simpa using hget)
    · obtain ⟨rfl, rfl⟩ := Prod.mk.inj h
      refine ⟨List.prefix_append _ _, .inr ⟨hne, Nat.succ_pos _, ?_⟩, by simp, fun hplain hfree s hs => ?_⟩
      · rw [Nat.add_sub_cancel, List.getElem?_append_right le_rfl, Nat.sub_self]
        rfl
      · rcases List.mem_append.mp hs with hs | hs
        · exact hplain s hs
        · rw [List.mem_singleton.mp hs]
          exact ⟨hne, hfree⟩

theorem Counts.mono (h : Counts strings value i) (hkept : strings <+: strings') : Counts strings' value i := by
  rcases h with h | ⟨hne, hpos, hget⟩
  · exact .inl h
  · obtain ⟨more, rfl⟩ := hkept
    obtain ⟨hlt, _⟩ := List.getElem?_eq_some_iff.mp hget
    exact .inr ⟨hne, hpos, by rw [List.getElem?_append_left hlt, hget]⟩

theorem field_eq {s : SmbiosStructure} {offset : Nat} (hbyte : s.area.getD offset 0 = indexByte i)
    (hstrings : s.strings = table.map utf8) (hcounts : Counts table value i) (hlength : table.length < 256) :
    s.field offset = given (some value) := by
  have hlt : i < 256 := by
    rcases hcounts with ⟨_, rfl⟩ | ⟨_, hpos, hget⟩
    · decide
    · obtain ⟨hlt, _⟩ := List.getElem?_eq_some_iff.mp hget
      omega
  have hindex : s.byteAt offset = i := by
    have hnat : (UInt8.ofNat i).toNat = i % 256 := UInt8.toNat_ofNat
    unfold SmbiosStructure.byteAt
    rw [hbyte]
    unfold indexByte
    omega
  unfold SmbiosStructure.field
  rw [hindex, hstrings]
  rcases hcounts with ⟨rfl, rfl⟩ | ⟨hne, hpos, hget⟩
  · rfl
  · have hgiven : given (some value) = some value := by
      unfold given
      rw [Option.filter_some, if_pos (by simpa using hne)]
    rw [if_neg (by omega), List.getElem?_map, hget, hgiven]
    exact decodeUtf8_utf8 value

end Indexes

section Structures
variable {table : List String}

theorem reads_area {a b : UInt8} {rest : List UInt8} (hlength : b.toNat = rest.length + 2) (hfour : 4 ≤ b.toNat) :
    Reads readArea (a :: b :: rest) (a :: b :: rest) := by
  intro more
  have htaken := Reads.taking (a :: b :: rest) more
  simp only [List.length_cons, List.cons_append] at htaken
  simp only [List.cons_append, readArea]
  rw [if_pos hfour, hlength]
  exact htaken

theorem reads_structure {a b : UInt8} {rest : List UInt8} (hlength : b.toNat = rest.length + 2) (hfour : 4 ≤ b.toNat)
    (hplain : ∀ s ∈ table, Plain s) :
    Reads readStructure ((a :: b :: rest) ++ stringTable table) ⟨a :: b :: rest, table.map utf8⟩ :=
  (reads_area hlength hfour).bind (reads_stringSet hplain).map

/-- A BIOS structure with these values. -/
structure IsBios (s : SmbiosStructure) (vendor biosVersion releaseDate : String) : Prop where
  kind : s.byteAt 0 = 0
  vendor : s.field 4 = given (some vendor)
  biosVersion : s.field 5 = given (some biosVersion)
  releaseDate : s.field 8 = given (some releaseDate)

theorem reads_type0 {vendor biosVersion releaseDate : String} (hvendor : NulFree vendor)
    (hversion : NulFree biosVersion) (hdate : NulFree releaseDate) :
    ∃ s, Reads readStructure (buildType0Bios vendor biosVersion releaseDate) s ∧
      IsBios s vendor biosVersion releaseDate := by
  rcases h1 : strIndex [] vendor with ⟨iVendor, t1⟩
  rcases h2 : strIndex t1 biosVersion with ⟨iVersion, t2⟩
  rcases h3 : strIndex t2 releaseDate with ⟨iDate, t3⟩
  have s1 := indexed_strIndex h1
  have s2 := indexed_strIndex h2
  have s3 := indexed_strIndex h3
  have hplain : ∀ s ∈ t3, Plain s :=
    s3.plain (s2.plain (s1.plain (fun _ h => absurd h List.not_mem_nil) hvendor) hversion) hdate
  have hlength : t3.length < 256 := by
    have l1 := s1.length
    have l2 := s2.length
    have l3 := s3.length
    rw [List.length_nil] at l1
    omega
  unfold buildType0Bios
  simp only [h1, h2, h3]
  refine ⟨_, reads_structure (by rfl) (by decide) hplain, ⟨rfl, ?_, ?_, ?_⟩⟩
  · exact field_eq rfl rfl (s1.counts.mono (s2.kept.trans s3.kept)) hlength
  · exact field_eq rfl rfl (s2.counts.mono s3.kept) hlength
  · exact field_eq rfl rfl s3.counts hlength

theorem eq_sixteen {bytes : List UInt8} (h : bytes.length = 16) : ∃ b0 b1 b2 b3 b4 b5 b6 b7 b8 b9 b10 b11 b12 b13 b14 b15,
    bytes = [b0, b1, b2, b3, b4, b5, b6, b7, b8, b9, b10, b11, b12, b13, b14, b15] := by
  match bytes, h with
  | [b0, b1, b2, b3, b4, b5, b6, b7, b8, b9, b10, b11, b12, b13, b14, b15], _ =>
    exact ⟨b0, b1, b2, b3, b4, b5, b6, b7, b8, b9, b10, b11, b12, b13, b14, b15, rfl⟩

theorem swapGroups_swapGroups {bytes : List UInt8} (h : bytes.length = 16) : swapGroups (swapGroups bytes) = bytes := by
  obtain ⟨b0, b1, b2, b3, b4, b5, b6, b7, b8, b9, b10, b11, b12, b13, b14, b15, rfl⟩ := eq_sixteen h
  rfl

theorem length_swapGroups {bytes : List UInt8} (h : bytes.length = 16) : (swapGroups bytes).length = 16 := by
  obtain ⟨b0, b1, b2, b3, b4, b5, b6, b7, b8, b9, b10, b11, b12, b13, b14, b15, rfl⟩ := eq_sixteen h
  rfl

/-- A system structure with these values. -/
structure IsSystem (s : SmbiosStructure) (manufacturer productName version serialNumber : String) (uuid : Nat)
    (sku family : String) : Prop where
  kind : s.byteAt 0 = 1
  manufacturer : s.field 4 = given (some manufacturer)
  productName : s.field 5 = given (some productName)
  version : s.field 6 = given (some version)
  serialNumber : s.field 7 = given (some serialNumber)
  uuid : s.uuid = uuid
  sku : s.field 25 = given (some sku)
  family : s.field 26 = given (some family)

theorem reads_type1 {manufacturer productName version serialNumber : String} {uuid : Nat} {sku family : String}
    (hmanufacturer : NulFree manufacturer) (hproduct : NulFree productName) (hversion : NulFree version)
    (hserial : NulFree serialNumber) (huuid : uuid < 2 ^ 128) (hsku : NulFree sku) (hfamily : NulFree family) :
    ∃ s, Reads readStructure (buildType1System manufacturer productName version serialNumber uuid sku family) s ∧
      IsSystem s manufacturer productName version serialNumber uuid sku family := by
  rcases h1 : strIndex [] manufacturer with ⟨iMfr, t1⟩
  rcases h2 : strIndex t1 productName with ⟨iProd, t2⟩
  rcases h3 : strIndex t2 version with ⟨iVer, t3⟩
  rcases h4 : strIndex t3 serialNumber with ⟨iSer, t4⟩
  rcases h5 : strIndex t4 sku with ⟨iSku, t5⟩
  rcases h6 : strIndex t5 family with ⟨iFam, t6⟩
  have s1 := indexed_strIndex h1
  have s2 := indexed_strIndex h2
  have s3 := indexed_strIndex h3
  have s4 := indexed_strIndex h4
  have s5 := indexed_strIndex h5
  have s6 := indexed_strIndex h6
  have hplain : ∀ s ∈ t6, Plain s :=
    s6.plain (s5.plain (s4.plain (s3.plain (s2.plain (s1.plain (fun _ h => absurd h List.not_mem_nil) hmanufacturer)
      hproduct) hversion) hserial) hsku) hfamily
  have k5 := s6.kept
  have k4 := s5.kept.trans k5
  have k3 := s4.kept.trans k4
  have k2 := s3.kept.trans k3
  have k1 := s2.kept.trans k2
  have hlength : t6.length < 256 := by
    have l1 := s1.length
    have l2 := s2.length
    have l3 := s3.length
    have l4 := s4.length
    have l5 := s5.length
    have l6 := s6.length
    rw [List.length_nil] at l1
    omega
  have hsixteen : (bigEndian 16 uuid).length = 16 := length_bigEndian 16 uuid
  have hvalue : bigEndianValue (swapGroups (uuidBytesLe uuid)) = uuid := by
    unfold uuidBytesLe
    rw [swapGroups_swapGroups hsixteen]
    exact bigEndianValue_bigEndian 16 huuid
  have hbytes : (uuidBytesLe uuid).length = 16 := length_swapGroups hsixteen
  unfold buildType1System
  simp only [h1, h2, h3, h4, h5, h6]
  generalize uuidBytesLe uuid = bytes at hvalue hbytes ⊢
  obtain ⟨b0, b1, b2, b3, b4, b5, b6, b7, b8, b9, b10, b11, b12, b13, b14, b15, rfl⟩ := eq_sixteen hbytes
  refine ⟨_, reads_structure (by rfl) (by decide) hplain, ⟨rfl, ?_, ?_, ?_, ?_, hvalue, ?_, ?_⟩⟩
  · exact field_eq rfl rfl (s1.counts.mono k1) hlength
  · exact field_eq rfl rfl (s2.counts.mono k2) hlength
  · exact field_eq rfl rfl (s3.counts.mono k3) hlength
  · exact field_eq rfl rfl (s4.counts.mono k4) hlength
  · exact field_eq rfl rfl (s5.counts.mono k5) hlength
  · exact field_eq rfl rfl s6.counts hlength

/-- A chassis structure with these values. -/
structure IsChassis (s : SmbiosStructure) (chassisType : Nat) (manufacturer serialNumber version assetTag : String) :
    Prop where
  kind : s.byteAt 0 = 3
  manufacturer : s.field 4 = given (some manufacturer)
  chassisType : s.byteAt 5 = chassisType
  version : s.field 6 = given (some version)
  serialNumber : s.field 7 = given (some serialNumber)
  assetTag : s.field 8 = given (some assetTag)

theorem reads_type3 {chassisType : Nat} {manufacturer serialNumber version assetTag sku : String}
    (hchassis : chassisType < 256) (hmanufacturer : NulFree manufacturer) (hserial : NulFree serialNumber)
    (hversion : NulFree version) (hasset : NulFree assetTag) (hsku : NulFree sku) :
    ∃ s, Reads readStructure (buildType3Chassis chassisType manufacturer serialNumber version assetTag sku) s ∧
      IsChassis s chassisType manufacturer serialNumber version assetTag := by
  have hpadding : NulFree (if sku ≠ "" then sku else "Default") := by
    split
    · exact hsku
    · unfold NulFree
      decide
  rcases h1 : strIndex [] manufacturer with ⟨iMfr, t1⟩
  rcases h2 : strIndex t1 version with ⟨iVer, t2⟩
  rcases h3 : strIndex t2 serialNumber with ⟨iSer, t3⟩
  rcases h4 : strIndex t3 assetTag with ⟨iAsset, t4⟩
  rcases h5 : strIndex t4 (if sku ≠ "" then sku else "Default") with ⟨iSku, t5⟩
  have s1 := indexed_strIndex h1
  have s2 := indexed_strIndex h2
  have s3 := indexed_strIndex h3
  have s4 := indexed_strIndex h4
  have s5 := indexed_strIndex h5
  have hplain : ∀ s ∈ t5, Plain s :=
    s5.plain (s4.plain (s3.plain (s2.plain (s1.plain (fun _ h => absurd h List.not_mem_nil) hmanufacturer)
      hversion) hserial) hasset) hpadding
  have k4 := s5.kept
  have k3 := s4.kept.trans k4
  have k2 := s3.kept.trans k3
  have k1 := s2.kept.trans k2
  have hlength : t5.length < 256 := by
    have l1 := s1.length
    have l2 := s2.length
    have l3 := s3.length
    have l4 := s4.length
    have l5 := s5.length
    rw [List.length_nil] at l1
    omega
  have hbyte : (UInt8.ofNat chassisType).toNat = chassisType := by
    have hnat : (UInt8.ofNat chassisType).toNat = chassisType % 256 := UInt8.toNat_ofNat
    omega
  unfold buildType3Chassis
  simp only [h1, h2, h3, h4, h5]
  refine ⟨_, reads_structure (by rfl) (by decide) hplain, ⟨rfl, ?_, hbyte, ?_, ?_, ?_⟩⟩
  · exact field_eq rfl rfl (s1.counts.mono k1) hlength
  · exact field_eq rfl rfl (s2.counts.mono k2) hlength
  · exact field_eq rfl rfl (s3.counts.mono k3) hlength
  · exact field_eq rfl rfl (s4.counts.mono k4) hlength

end Structures

end ProxmoxVEAutopilot.Smbios
