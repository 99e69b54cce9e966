import ProxmoxVEAutopilot.Foundation.Lists
import ProxmoxVEAutopilot.Manifests.ContentManifest

/-!
# The canonical digest

A validated manifest is written, validated again and digested without a change, and its digest
stands for it: two manifests have one digest where they say the same, whatever the order of their
keys. Forms are compared value by value; `1`, `1.0` and `true` are three values.
-/

namespace ProxmoxVEAutopilot.Manifests

open Foundation

set_option autoImplicit false

section

variable {py : Python}

theorem stableJsonValue_eq {value : Json} (h : value.Keyed) : stableJsonValue py value = some value.sortKeys :=
  JsonText.loads_text py.floats true (Json.keyed_sortKeys h)

/-! ### The fields -/

theorem requiredString_ok {raw : Json} {fieldName context value : String} :
    requiredString raw fieldName context = .ok value ↔ raw.get? fieldName = some (.str value) ∧ strip value ≠ "" := by
  unfold requiredString
  split
  · rename_i value' hvalue
    rw [hvalue]
    split
    · rename_i hempty
      refine iff_of_false (by rintro ⟨⟩) ?_
      rintro ⟨⟨rfl⟩, hne⟩
      exact hne hempty
    · rename_i hne
      constructor
      · rintro ⟨rfl⟩
        exact ⟨rfl, hne⟩
      · rintro ⟨⟨rfl⟩, -⟩
        rfl
  · rename_i hnone
    refine iff_of_false (by rintro ⟨⟩) ?_
    rintro ⟨hvalue, -⟩
    exact hnone value hvalue

theorem contentKind_ok {raw : Json} {context value : String} :
    contentKind raw context = .ok value ↔
      raw.get? "kind" = some (.str value) ∧ strip value ≠ "" ∧ value ∈ CONTENT_KINDS := by
  unfold contentKind
  refine bind_ok.trans ?_
  constructor
  · rintro ⟨value', hvalue, hkind⟩
    split at hkind
    · rename_i hmem
      cases hkind
      exact ⟨(requiredString_ok.mp hvalue).1, (requiredString_ok.mp hvalue).2, hmem⟩
    · cases hkind
  · rintro ⟨hvalue, hne, hmem⟩
    exact ⟨value, requiredString_ok.mpr ⟨hvalue, hne⟩, if_pos hmem⟩

/-- The text parses, with a scheme. -/
def HasScheme (py : Python) (value : String) : Prop :=
  ∃ parsed, UrlSplit.urlparse py.refuses value.toList = some parsed ∧ parsed.scheme ≠ []

theorem sourceUriField_ok {raw : Json} {context value : String} :
    sourceUriField py raw context = .ok value ↔
      raw.get? "source_uri" = some (.str value) ∧ strip value ≠ "" ∧ HasScheme py value := by
  unfold sourceUriField HasScheme
  refine bind_ok.trans ?_
  constructor
  · rintro ⟨value', hvalue, hscheme⟩
    split at hscheme
    · cases hscheme
    · rename_i parsed hparsed
      split at hscheme
      · cases hscheme
      · rename_i hne
        cases hscheme
        exact ⟨(requiredString_ok.mp hvalue).1, (requiredString_ok.mp hvalue).2, parsed, hparsed, hne⟩
  · rintro ⟨hvalue, hne, parsed, hparsed, hscheme⟩
    refine ⟨value, requiredString_ok.mpr ⟨hvalue, hne⟩, ?_⟩
    simp only [hparsed, if_neg hscheme]

theorem sha256Field_ok {raw : Json} {context value : String} :
    sha256Field raw context = .ok value ↔ ∃ text, raw.get? "sha256" = some (.str text) ∧ strip text ≠ "" ∧
      isSha256 text.toList = true ∧ value = lower text := by
  unfold sha256Field
  refine bind_ok.trans ?_
  constructor
  · rintro ⟨text, htext, hlower⟩
    split at hlower
    · rename_i hhex
      cases hlower
      exact ⟨text, (requiredString_ok.mp htext).1, (requiredString_ok.mp htext).2, hhex, rfl⟩
    · cases hlower
  · rintro ⟨text, htext, hne, hhex, rfl⟩
    exact ⟨text, requiredString_ok.mpr ⟨htext, hne⟩, if_pos hhex⟩

theorem sizeBytesField_ok {raw : Json} {context : String} {value : Int} :
    sizeBytesField raw context = .ok value ↔ raw.get? "size_bytes" = some (.int value) ∧ 0 ≤ value := by
  unfold sizeBytesField
  split
  · rename_i value' hvalue
    rw [hvalue]
    split
    · rename_i hnegative
      refine iff_of_false (by rintro ⟨⟩) ?_
      rintro ⟨⟨rfl⟩, hnot⟩
      omega
    · rename_i hnot
      constructor
      · rintro ⟨rfl⟩
        exact ⟨rfl, by omega⟩
      · rintro ⟨⟨rfl⟩, -⟩
        rfl
  · rename_i hnone
    refine iff_of_false (by rintro ⟨⟩) ?_
    rintro ⟨hvalue, -⟩
    exact hnone value hvalue

theorem rebootBehaviorField_ok {raw : Json} {context value : String} :
    rebootBehaviorField raw context = .ok value ↔
      (raw.get? "reboot_behavior").getD (.str "none") = .str value ∧ value ∈ REBOOT_BEHAVIORS := by
  unfold rebootBehaviorField
  dsimp only
  split
  · rename_i value' hvalue
    rw [hvalue]
    split
    · rename_i hmem
      constructor
      · rintro ⟨rfl⟩
        exact ⟨rfl, hmem⟩
      · rintro ⟨⟨rfl⟩, -⟩
        rfl
    · rename_i hnot
      refine iff_of_false (by rintro ⟨⟩) ?_
      rintro ⟨⟨rfl⟩, hmem⟩
      exact hnot hmem
  · rename_i hnone
    refine iff_of_false (by rintro ⟨⟩) ?_
    rintro ⟨hvalue, -⟩
    exact hnone value hvalue

/-- What stands under an optional object field. -/
def objectAt (raw : Json) (fieldName : String) : Json := (raw.get? fieldName).getD (.obj [])

theorem objectAt_keyed {raw : Json} (h : raw.Keyed) (fieldName : String) : (objectAt raw fieldName).Keyed := by
  unfold objectAt
  cases hvalue : raw.get? fieldName with
  | none => exact ⟨List.nodup_nil, trivial⟩
  | some value => exact Json.keyed_of_get? h hvalue

theorem jsonObject_ok {raw : Json} (h : raw.Keyed) {fieldName context : String} {value : Json} :
    jsonObject py raw fieldName context = .ok value ↔
      (∃ fields, objectAt raw fieldName = .obj fields) ∧ value = (objectAt raw fieldName).sortKeys := by
  have hkeyed := objectAt_keyed h fieldName
  have hat : (raw.get? fieldName).getD (.obj []) = objectAt raw fieldName := by
    unfold objectAt
    cases raw.get? fieldName <;> rfl
  unfold jsonObject
  rw [hat]
  cases hobject : objectAt raw fieldName with
  | obj fields =>
    rw [hobject] at hkeyed
    dsimp only
    rw [stableJsonValue_eq hkeyed, Json.sortKeys]
    dsimp only
    constructor
    · rintro ⟨rfl⟩
      exact ⟨⟨fields, rfl⟩, rfl⟩
    · rintro ⟨-, rfl⟩
      rfl
  | _ => exact iff_of_false (by rintro ⟨⟩) (by rintro ⟨⟨_, ⟨⟩⟩, -⟩)

/-! ### Lower case digests -/

def lowerChar (c : Char) : List Char :=
  if c.toNat = 0x212A then ['k'] else if c.toNat = 0x130 then ['i', Char.ofNat 0x307] else [c.toLower]

theorem hex_lower {c : Char} (h : isHex c = true) :
    lowerChar c = [c.toLower] ∧ isHex c.toLower = true ∧ lowerChar c.toLower = [c.toLower] ∧ isSpace c = false := by
  have hsmall : c.toNat < 128 := by
    unfold isHex Char.isDigit at h
    simp only [Bool.or_eq_true, Bool.and_eq_true, decide_eq_true_eq, Char.le_def, UInt32.le_iff_toNat_le] at h
    change c.val.toNat < 128
    rcases h with (h | h) | h
    · have hle : c.val.toNat ≤ 57 := h.2
      omega
    · have hle : c.val.toNat ≤ 102 := h.2
      omega
    · have hle : c.val.toNat ≤ 70 := h.2
      omega
  have hall : ∀ n < 128, isHex (Char.ofNat n) = true → lowerChar (Char.ofNat n) = [(Char.ofNat n).toLower] ∧
      isHex (Char.ofNat n).toLower = true ∧ lowerChar (Char.ofNat n).toLower = [(Char.ofNat n).toLower] ∧
        isSpace (Char.ofNat n) = false := by decide +kernel
  have hc := hall c.toNat hsmall
  rw [Char.ofNat_toNat] at hc
  exact hc h

theorem flatMap_lowerChar {chars : List Char} (h : ∀ c ∈ chars, lowerChar c = [c.toLower]) :
    chars.flatMap lowerChar = chars.map Char.toLower := by
  induction chars with
  | nil => rfl
  | cons c chars ih =>
    rw [List.flatMap_cons, h c (List.mem_cons_self ..), ih fun d hd => h d (List.mem_cons_of_mem c hd)]
    rfl

theorem isSha256_lower {text : String} (h : isSha256 text.toList = true) :
    isSha256 (lower text).toList = true ∧ lower (lower text) = lower text ∧ strip (lower text) ≠ "" := by
  unfold isSha256 at h
  simp only [Bool.and_eq_true, decide_eq_true_eq, List.all_eq_true] at h
  obtain ⟨hlength, hhex⟩ := h
  have hchars : (lower text).toList = text.toList.map Char.toLower := by
    rw [← flatMap_lowerChar fun c hc => (hex_lower (hhex c hc)).1]
    exact String.toList_ofList
  have hlower : isSha256 (lower text).toList = true := by
    unfold isSha256
    rw [hchars]
    simp only [Bool.and_eq_true, decide_eq_true_eq, List.all_eq_true, List.length_map, List.mem_map,
      forall_exists_index, and_imp, forall_apply_eq_imp_iff₂]
    exact ⟨hlength, fun c hc => (hex_lower (hhex c hc)).2.1⟩
  refine ⟨hlower, ?_, ?_⟩
  · have hfixed : (text.toList.map Char.toLower).flatMap lowerChar = text.toList.map Char.toLower := by
      rw [List.flatMap_map]
      refine (List.flatMap_congr fun c hc => (hex_lower (hhex c hc)).2.2.1).trans ?_
      exact List.map_eq_flatMap.symm
    have htwice : lower (lower text) = String.ofList ((text.toList.map Char.toLower).flatMap lowerChar) := by
      rw [← hchars]
      rfl
    rw [htwice, hfixed, ← hchars, String.ofList_toList]
  · have hne : (lower text).toList ≠ [] := by
      intro hnil
      rw [hchars, List.map_eq_nil_iff] at hnil
      rw [hnil] at hlength
      exact absurd hlength (by decide)
    obtain ⟨c, cs, hcs⟩ := List.exists_cons_of_ne_nil hne
    have hmem : c ∈ (lower text).toList := by rw [hcs]; exact List.mem_cons_self ..
    unfold isSha256 at hlower
    simp only [Bool.and_eq_true, decide_eq_true_eq, List.all_eq_true] at hlower
    exact strip_ne_empty hmem (hex_lower (hlower.2 c hmem)).2.2.2

/-! ### Items -/

/-- What the item says, field by field, and what was checked. -/
structure Reads (py : Python) (raw : Json) (item : ContentManifestItem) : Prop where
  object : ∃ fields, raw = .obj fields
  id : raw.get? "id" = some (.str item.id) ∧ strip item.id ≠ ""
  kind : raw.get? "kind" = some (.str item.kind) ∧ strip item.kind ≠ "" ∧ item.kind ∈ CONTENT_KINDS
  name : raw.get? "name" = some (.str item.name) ∧ strip item.name ≠ ""
  version : raw.get? "version" = some (.str item.version) ∧ strip item.version ≠ ""
  sourceUri : raw.get? "source_uri" = some (.str item.sourceUri) ∧ strip item.sourceUri ≠ "" ∧
    HasScheme py item.sourceUri
  sha256 : ∃ text, raw.get? "sha256" = some (.str text) ∧ strip text ≠ "" ∧ isSha256 text.toList = true ∧
    item.sha256 = lower text
  sizeBytes : raw.get? "size_bytes" = some (.int item.sizeBytes) ∧ 0 ≤ item.sizeBytes
  architecture : raw.get? "architecture" = some (.str item.architecture) ∧ strip item.architecture ≠ ""
  targetOs : raw.get? "target_os" = some (.str item.targetOs) ∧ strip item.targetOs ≠ ""
  rebootBehavior : (raw.get? "reboot_behavior").getD (.str "none") = .str item.rebootBehavior ∧
    item.rebootBehavior ∈ REBOOT_BEHAVIORS
  conditions : (∃ fields, objectAt raw "conditions" = .obj fields) ∧
    item.conditions = (objectAt raw "conditions").sortKeys
  metadata : (∃ fields, objectAt raw "metadata" = .obj fields) ∧ item.metadata = (objectAt raw "metadata").sortKeys

theorem item_ok {raw : Json} (h : raw.Keyed) {index : Nat} {item : ContentManifestItem} :
    ContentManifestItem.fromDict py raw index = .ok item ↔ Reads py raw item := by
  cases raw with
  | obj fields =>
    unfold ContentManifestItem.fromDict
    constructor
    · intro hitem
      obtain ⟨id, hid, hitem⟩ := bind_ok.mp hitem
      obtain ⟨kind, hkind, hitem⟩ := bind_ok.mp hitem
      obtain ⟨name, hname, hitem⟩ := bind_ok.mp hitem
      obtain ⟨version, hversion, hitem⟩ := bind_ok.mp hitem
      obtain ⟨uri, huri, hitem⟩ := bind_ok.mp hitem
      obtain ⟨sha, hsha, hitem⟩ := bind_ok.mp hitem
      obtain ⟨size, hsize, hitem⟩ := bind_ok.mp hitem
      obtain ⟨arch, harch, hitem⟩ := bind_ok.mp hitem
      obtain ⟨os, hos, hitem⟩ := bind_ok.mp hitem
      obtain ⟨reboot, hreboot, hitem⟩ := bind_ok.mp hitem
      obtain ⟨conditions, hconditions, hitem⟩ := bind_ok.mp hitem
      obtain ⟨metadata, hmetadata, hitem⟩ := bind_ok.mp hitem
      cases hitem
      exact
        { object := ⟨fields, rfl⟩
          id := requiredString_ok.mp hid
          kind := contentKind_ok.mp hkind
          name := requiredString_ok.mp hname
          version := requiredString_ok.mp hversion
          sourceUri := sourceUriField_ok.mp huri
          sha256 := sha256Field_ok.mp hsha
          sizeBytes := sizeBytesField_ok.mp hsize
          architecture := requiredString_ok.mp harch
          targetOs := requiredString_ok.mp hos
          rebootBehavior := rebootBehaviorField_ok.mp hreboot
          conditions := (jsonObject_ok h).mp hconditions
          metadata := (jsonObject_ok h).mp hmetadata }
    · intro hreads
      refine bind_ok.mpr ⟨_, requiredString_ok.mpr hreads.id, ?_⟩
      refine bind_ok.mpr ⟨_, contentKind_ok.mpr hreads.kind, ?_⟩
      refine bind_ok.mpr ⟨_, requiredString_ok.mpr hreads.name, ?_⟩
      refine bind_ok.mpr ⟨_, requiredString_ok.mpr hreads.version, ?_⟩
      refine bind_ok.mpr ⟨_, sourceUriField_ok.mpr hreads.sourceUri, ?_⟩
      refine bind_ok.mpr ⟨_, sha256Field_ok.mpr hreads.sha256, ?_⟩
      refine bind_ok.mpr ⟨_, sizeBytesField_ok.mpr hreads.sizeBytes, ?_⟩
      refine bind_ok.mpr ⟨_, requiredString_ok.mpr hreads.architecture, ?_⟩
      refine bind_ok.mpr ⟨_, requiredString_ok.mpr hreads.targetOs, ?_⟩
      refine bind_ok.mpr ⟨_, rebootBehaviorField_ok.mpr hreads.rebootBehavior, ?_⟩
      refine bind_ok.mpr ⟨_, (jsonObject_ok h).mpr hreads.conditions, ?_⟩
      exact bind_ok.mpr ⟨_, (jsonObject_ok h).mpr hreads.metadata, rfl⟩
  | _ => exact iff_of_false (by rintro ⟨⟩) (by rintro ⟨⟨_, ⟨⟩⟩, -⟩)

theorem sorted_objectAt {raw : Json} (h : raw.Keyed) (fieldName : String) :
    objectAt raw.sortKeys fieldName = (objectAt raw fieldName).sortKeys := by
  unfold objectAt
  rw [Json.get?_sortKeys h]
  cases raw.get? fieldName <;> rfl

/-- The item as it stands in the dict that is hashed. -/
def ContentManifestItem.form (item : ContentManifestItem) : Json :=
  .obj
    [ ("id", .str item.id)
    , ("kind", .str item.kind)
    , ("name", .str item.name)
    , ("version", .str item.version)
    , ("source_uri", .str item.sourceUri)
    , ("sha256", .str item.sha256)
    , ("size_bytes", .int item.sizeBytes)
    , ("architecture", .str item.architecture)
    , ("target_os", .str item.targetOs)
    , ("reboot_behavior", .str item.rebootBehavior)
    , ("conditions", item.conditions.sortKeys)
    , ("metadata", item.metadata.sortKeys) ]

structure ContentManifestItem.Keyed (item : ContentManifestItem) : Prop where
  conditions : item.conditions.Keyed
  metadata : item.metadata.Keyed

theorem ContentManifestItem.Keyed.form {item : ContentManifestItem} (h : item.Keyed) : item.form.Keyed := by
  refine ⟨?_, ?_⟩
  · change ["id", "kind", "name", "version", "source_uri", "sha256", "size_bytes", "architecture", "target_os",
      "reboot_behavior", "conditions", "metadata"].Nodup
    decide
  · exact ⟨trivial, trivial, trivial, trivial, trivial, trivial, trivial, trivial, trivial, trivial,
      Json.keyed_sortKeys h.conditions, Json.keyed_sortKeys h.metadata, trivial⟩

theorem item_toDict {item : ContentManifestItem} (h : item.Keyed) : item.toDict py = some item.form := by
  unfold ContentManifestItem.toDict
  rw [stableJsonValue_eq h.conditions, stableJsonValue_eq h.metadata]
  rfl

section Validated

variable {raw raw' : Json} {item item' : ContentManifestItem}

theorem Reads.keyed (h : Reads py raw item) (hraw : raw.Keyed) : item.Keyed := by
  constructor
  · rw [h.conditions.2]
    exact Json.keyed_sortKeys (objectAt_keyed hraw "conditions")
  · rw [h.metadata.2]
    exact Json.keyed_sortKeys (objectAt_keyed hraw "metadata")

theorem sorted_object {j : Json} (h : ∃ fields, j = .obj fields) : ∃ fields, j.sortKeys = .obj fields := by
  obtain ⟨fields, rfl⟩ := h
  exact ⟨_, rfl⟩

theorem Reads.form (h : Reads py raw item) : Reads py item.form item := by
  obtain ⟨text, -, -, hhex, hlower⟩ := h.sha256
  obtain ⟨hhex', htwice, hne⟩ := isSha256_lower hhex
  have hconditions : item.conditions.sortKeys = item.conditions := by
    rw [h.conditions.2, Json.sortKeys_sortKeys]
  have hmetadata : item.metadata.sortKeys = item.metadata := by
    rw [h.metadata.2, Json.sortKeys_sortKeys]
  exact
    { object := ⟨_, rfl⟩
      id := ⟨rfl, h.id.2⟩
      kind := ⟨rfl, h.kind.2⟩
      name := ⟨rfl, h.name.2⟩
      version := ⟨rfl, h.version.2⟩
      sourceUri := ⟨rfl, h.sourceUri.2⟩
      sha256 := by
        refine ⟨item.sha256, rfl, ?_⟩
        rw [hlower]
        exact ⟨hne, hhex', htwice.symm⟩
      sizeBytes := ⟨rfl, h.sizeBytes.2⟩
      architecture := ⟨rfl, h.architecture.2⟩
      targetOs := ⟨rfl, h.targetOs.2⟩
      rebootBehavior := ⟨rfl, h.rebootBehavior.2⟩
      conditions := by
        refine ⟨?_, ?_⟩
        · change ∃ fields, item.conditions.sortKeys = .obj fields
          rw [hconditions, h.conditions.2]
          exact sorted_object h.conditions.1
        · change item.conditions = item.conditions.sortKeys.sortKeys
          rw [hconditions, hconditions]
      metadata := by
        refine ⟨?_, ?_⟩
        · change ∃ fields, item.metadata.sortKeys = .obj fields
          rw [hmetadata, h.metadata.2]
          exact sorted_object h.metadata.1
        · change item.metadata = item.metadata.sortKeys.sortKeys
          rw [hmetadata, hmetadata] }

/-- Two raw items say the same: conditions and metadata up to the order of keys, the digest in
either case, and no word on reboots means `none`. -/
structure ItemAgree (raw raw' : Json) : Prop where
  plain : ∀ fieldName ∈ ["id", "kind", "name", "version", "source_uri", "size_bytes", "architecture", "target_os"],
    raw.get? fieldName = raw'.get? fieldName
  sha256 : ∀ text text', raw.get? "sha256" = some (.str text) → raw'.get? "sha256" = some (.str text') →
    lower text = lower text'
  rebootBehavior : (raw.get? "reboot_behavior").getD (.str "none") = (raw'.get? "reboot_behavior").getD (.str "none")
  conditions : (objectAt raw "conditions").Same (objectAt raw' "conditions")
  metadata : (objectAt raw "metadata").Same (objectAt raw' "metadata")

theorem item_eq_iff (h : Reads py raw item) (h' : Reads py raw' item') (hraw : raw.Keyed) (hraw' : raw'.Keyed) :
    item = item' ↔ ItemAgree raw raw' := by
  have hsame := fun fieldName => Json.same_iff (objectAt_keyed hraw fieldName) (objectAt_keyed hraw' fieldName)
  obtain ⟨text, htext, -, -, hlower⟩ := h.sha256
  obtain ⟨text', htext', -, -, hlower'⟩ := h'.sha256
  constructor
  · rintro rfl
    refine ⟨?_, ?_, ?_, ?_, ?_⟩
    · simp only [List.forall_mem_cons, List.not_mem_nil, false_implies, implies_true, and_true]
      refine ⟨?_, ?_, ?_, ?_, ?_, ?_, ?_, ?_⟩
      · rw [h.id.1, h'.id.1]
      · rw [h.kind.1, h'.kind.1]
      · rw [h.name.1, h'.name.1]
      · rw [h.version.1, h'.version.1]
      · rw [h.sourceUri.1, h'.sourceUri.1]
      · rw [h.sizeBytes.1, h'.sizeBytes.1]
      · rw [h.architecture.1, h'.architecture.1]
      · rw [h.targetOs.1, h'.targetOs.1]
    · rintro one other hone hother
      rw [htext] at hone
      rw [htext'] at hother
      cases hone
      cases hother
      rw [← hlower, hlower']
    · rw [h.rebootBehavior.1, h'.rebootBehavior.1]
    · rw [hsame, ← h.conditions.2, h'.conditions.2]
    · rw [hsame, ← h.metadata.2, h'.metadata.2]
  · intro hagree
    have hplain := hagree.plain
    simp only [List.forall_mem_cons, List.not_mem_nil, false_implies, implies_true, and_true] at hplain
    obtain ⟨hid, hkind, hname, hversion, huri, hsize, harch, hos⟩ := hplain
    rw [h.id.1, h'.id.1] at hid
    rw [h.kind.1, h'.kind.1] at hkind
    rw [h.name.1, h'.name.1] at hname
    rw [h.version.1, h'.version.1] at hversion
    rw [h.sourceUri.1, h'.sourceUri.1] at huri
    rw [h.sizeBytes.1, h'.sizeBytes.1] at hsize
    rw [h.architecture.1, h'.architecture.1] at harch
    rw [h.targetOs.1, h'.targetOs.1] at hos
    have hsha := hagree.sha256 text text' htext htext'
    rw [← hlower, ← hlower'] at hsha
    have hreboot := hagree.rebootBehavior
    rw [h.rebootBehavior.1, h'.rebootBehavior.1] at hreboot
    have hconditions := (hsame "conditions").mp hagree.conditions
    rw [← h.conditions.2, ← h'.conditions.2] at hconditions
    have hmetadata := (hsame "metadata").mp hagree.metadata
    rw [← h.metadata.2, ← h'.metadata.2] at hmetadata
    cases item
    cases item'
    simp only [Option.some.injEq, Json.str.injEq, Json.int.injEq] at hid hkind hname hversion huri hsize harch hos hreboot
    dsimp only at hsha hconditions hmetadata
    subst hid hkind hname hversion huri hsize harch hos hreboot hsha hconditions hmetadata
    rfl

theorem form_injective (h : Reads py raw item) (h' : Reads py raw' item') (hraw : raw.Keyed) (hraw' : raw'.Keyed)
    (hforms : item.form.sortKeys = item'.form.sortKeys) : item = item' := by
  have hkeyed := (h.keyed hraw).form
  have hkeyed' := (h'.keyed hraw').form
  have hget : ∀ k, (item.form.get? k).map Json.sortKeys = (item'.form.get? k).map Json.sortKeys := by
    intro k
    rw [← Json.get?_sortKeys hkeyed, ← Json.get?_sortKeys hkeyed', hforms]
  have hstr : ∀ {k s s'}, item.form.get? k = some (.str s) → item'.form.get? k = some (.str s') → s = s' := by
    intro k s s' hs hs'
    have hk := hget k
    rw [hs, hs'] at hk
    exact Json.str.inj (Option.some.inj hk)
  have hobject : ∀ fieldName, (objectAt item.form fieldName).Same (objectAt item'.form fieldName) := by
    intro fieldName
    rw [Json.same_iff (objectAt_keyed hkeyed fieldName) (objectAt_keyed hkeyed' fieldName), ← sorted_objectAt hkeyed,
      ← sorted_objectAt hkeyed', hforms]
  refine (item_eq_iff h.form h'.form hkeyed hkeyed').mpr ⟨?_, ?_, ?_, hobject _, hobject _⟩
  · simp only [List.forall_mem_cons, List.not_mem_nil, false_implies, implies_true, and_true]
    exact ⟨hget "id", hget "kind", hget "name", hget "version", hget "source_uri", hget "size_bytes",
      hget "architecture", hget "target_os"⟩
  · rintro text text' ⟨rfl⟩ ⟨rfl⟩
    rw [hstr (k := "sha256") rfl rfl]
  · change Json.str item.rebootBehavior = Json.str item'.rebootBehavior
    rw [hstr (k := "reboot_behavior") rfl rfl]

end Validated

/-! ### Manifests -/

def ContentManifest.Keyed (m : ContentManifest) : Prop := ∀ item ∈ m.items, item.Keyed

/-- Dicts, here too, have each of their keys once. -/
def Raw.Keyed : Raw → Prop
  | .dict raw => raw.Keyed
  | .manifest m => m.Keyed

def ContentManifest.form (m : ContentManifest) : Json :=
  .obj [("schema_version", .int m.schemaVersion), ("items", .arr (m.items.map (·.form)))]

theorem mapM_toDict {items : List ContentManifestItem} (h : ∀ item ∈ items, item.Keyed) :
    items.mapM (ContentManifestItem.toDict py) = some (items.map (·.form)) := by
  induction items with
  | nil => rfl
  | cons item items ih =>
    have hitems := fun other hother => h other (List.mem_cons_of_mem item hother)
    rw [List.mapM_cons, item_toDict (h item (List.mem_cons_self ..)), ih hitems]
    rfl

theorem manifest_toDict {m : ContentManifest} (h : m.Keyed) : m.toDict py = some m.form := by
  unfold ContentManifest.toDict
  rw [mapM_toDict h]
  rfl

theorem ContentManifest.Keyed.form {m : ContentManifest} (h : m.Keyed) : m.form.Keyed := by
  refine ⟨?_, trivial, ?_, trivial⟩
  · change ["schema_version", "items"].Nodup
    decide
  · rw [Json.Keyed, Json.keyedList_iff]
    intro j hj
    obtain ⟨item, hitem, rfl⟩ := List.mem_map.mp hj
    exact (h item hitem).form

theorem itemsFrom_ok {index : Nat} {raws : List Json} (h : ∀ raw ∈ raws, raw.Keyed) {items : List ContentManifestItem} :
    itemsFrom py index raws = .ok items ↔ List.Forall₂ (Reads py) raws items := by
  induction raws generalizing index items with
  | nil =>
    rw [List.forall₂_nil_left_iff]
    exact ⟨fun hitems => (Except.ok.inj hitems).symm, fun hitems => by rw [hitems]; rfl⟩
  | cons raw raws ih =>
    have hraw := h raw (List.mem_cons_self ..)
    have hraws := fun other hother => h other (List.mem_cons_of_mem raw hother)
    rw [List.forall₂_cons_left_iff]
    constructor
    · intro hitems
      obtain ⟨item, hitem, hitems⟩ := bind_ok.mp hitems
      obtain ⟨rest, hrest, hitems⟩ := bind_ok.mp hitems
      exact ⟨item, rest, (item_ok hraw).mp hitem, (ih hraws).mp hrest, (Except.ok.inj hitems).symm⟩
    · rintro ⟨item, rest, hitem, hrest, rfl⟩
      exact bind_ok.mpr ⟨item, (item_ok hraw).mpr hitem, bind_ok.mpr ⟨rest, (ih hraws).mpr hrest, rfl⟩⟩

def itemsIn (raw : Json) : List Json :=
  match raw.get? "items" with
  | some (.arr items) => items
  | _ => []

theorem itemsIn_keyed {raw : Json} (h : raw.Keyed) : ∀ item ∈ itemsIn raw, item.Keyed := by
  unfold itemsIn
  split
  · rename_i items hitems
    exact Json.keyedList_iff.mp (Json.keyed_of_get? h hitems)
  · simp

/-- What the manifest says, item by item. -/
structure ReadsAll (py : Python) (raw : Json) (m : ContentManifest) : Prop where
  version : m.schemaVersion = SCHEMA_VERSION
  items : List.Forall₂ (Reads py) (itemsIn raw) m.items

theorem manifest_ok {raw : Json} (hraw : raw.Keyed) {m : ContentManifest} (h : ContentManifest.fromDict py raw = .ok m) :
    ReadsAll py raw m := by
  have hkeyed := itemsIn_keyed hraw
  cases raw with
  | obj fields =>
    unfold ContentManifest.fromDict at h
    dsimp only at h
    split at h
    · cases h
    · split at h
      · rename_i items hitems
        obtain ⟨read, hread, rfl⟩ := map_ok.mp h
        have hin : itemsIn (.obj fields) = items := by
          unfold itemsIn
          rw [hitems]
        refine ⟨rfl, ?_⟩
        rw [hin] at hkeyed ⊢
        exact (itemsFrom_ok hkeyed).mp hread
      · cases h
  | _ => cases h

theorem ReadsAll.keyed {raw : Json} {m : ContentManifest} (h : ReadsAll py raw m) (hraw : raw.Keyed) : m.Keyed := by
  intro item hitem
  obtain ⟨rawItem, hmem, hreads⟩ := exists_left_of_forall₂ h.items hitem
  exact hreads.keyed (itemsIn_keyed hraw rawItem hmem)

theorem ReadsAll.fromDict_form {raw : Json} {m : ContentManifest} (h : ReadsAll py raw m) (hraw : raw.Keyed) :
    ContentManifest.fromDict py m.form = .ok m := by
  have hkeyed := h.keyed hraw
  have hreads : List.Forall₂ (Reads py) (m.items.map (·.form)) m.items := by
    rw [List.forall₂_map_left_iff, List.forall₂_same]
    intro item hitem
    obtain ⟨rawItem, -, hitem⟩ := exists_left_of_forall₂ h.items hitem
    exact hitem.form
  have hforms : ∀ j ∈ m.items.map (·.form), Json.Keyed j := by
    intro j hj
    obtain ⟨item, hitem, rfl⟩ := List.mem_map.mp hj
    exact (hkeyed item hitem).form
  obtain ⟨version, items⟩ := m
  obtain rfl : version = SCHEMA_VERSION := h.version
  change (itemsFrom py 0 _).map _ = _
  rw [(itemsFrom_ok hforms).mpr hreads]
  rfl

/-- Two raw manifests say the same: item by item, in order. -/
def Agree (raw raw' : Json) : Prop := List.Forall₂ ItemAgree (itemsIn raw) (itemsIn raw')

theorem forall₂_reads {raws raws' : List Json} {items items' : List ContentManifestItem}
    (h : List.Forall₂ (Reads py) raws items) (h' : List.Forall₂ (Reads py) raws' items')
    (hraws : ∀ raw ∈ raws, raw.Keyed) (hraws' : ∀ raw ∈ raws', raw.Keyed) :
    items = items' ↔ List.Forall₂ ItemAgree raws raws' := by
  induction h generalizing raws' items' with
  | nil =>
    cases h' with
    | nil => simp
    | cons _ _ => simp
  | cons hreads _ ih =>
    cases h' with
    | nil => simp
    | cons hreads' hrest' =>
      rw [List.forall_mem_cons] at hraws hraws'
      rw [List.cons.injEq, List.forall₂_cons, item_eq_iff hreads hreads' hraws.1 hraws'.1, ih hrest' hraws.2 hraws'.2]

theorem ReadsAll.eq_iff {raw raw' : Json} {m m' : ContentManifest} (h : ReadsAll py raw m) (h' : ReadsAll py raw' m')
    (hraw : raw.Keyed) (hraw' : raw'.Keyed) : m = m' ↔ Agree raw raw' := by
  unfold Agree
  rw [← forall₂_reads h.items h'.items (itemsIn_keyed hraw) (itemsIn_keyed hraw')]
  have hversion := h.version.trans h'.version.symm
  cases m
  cases m'
  dsimp only at hversion
  rw [hversion]
  simp

theorem forms_injective {raws raws' : List Json} {items items' : List ContentManifestItem}
    (h : List.Forall₂ (Reads py) raws items) (h' : List.Forall₂ (Reads py) raws' items')
    (hraws : ∀ raw ∈ raws, raw.Keyed) (hraws' : ∀ raw ∈ raws', raw.Keyed)
    (hforms : Json.sortList (items.map (·.form)) = Json.sortList (items'.map (·.form))) : items = items' := by
  induction h generalizing raws' items' with
  | nil =>
    cases h' with
    | nil => rfl
    | cons _ _ => cases hforms
  | cons hreads _ ih =>
    cases h' with
    | nil => cases hforms
    | cons hreads' hrest' =>
      rw [List.forall_mem_cons] at hraws hraws'
      obtain ⟨hform, hrest⟩ := List.cons.inj hforms
      rw [form_injective hreads hreads' hraws.1 hraws'.1 hform, ih hrest' hraws.2 hraws'.2 hrest]

theorem ReadsAll.eq_of_forms {raw raw' : Json} {m m' : ContentManifest} (h : ReadsAll py raw m)
    (h' : ReadsAll py raw' m') (hraw : raw.Keyed) (hraw' : raw'.Keyed) (hforms : m.form.sortKeys = m'.form.sortKeys) :
    m = m' := by
  have hitems : (m.form.sortKeys).get? "items" = (m'.form.sortKeys).get? "items" := by rw [hforms]
  rw [Json.get?_sortKeys (h.keyed hraw).form, Json.get?_sortKeys (h'.keyed hraw').form] at hitems
  have hlists : Json.sortList (m.items.map (·.form)) = Json.sortList (m'.items.map (·.form)) :=
    Json.arr.inj (Option.some.inj hitems)
  have hversion := h.version.trans h'.version.symm
  have heq := forms_injective h.items h'.items (itemsIn_keyed hraw) (itemsIn_keyed hraw') hlists
  cases m
  cases m'
  dsimp only at hversion heq
  rw [hversion, heq]

/-! ### What is accepted -/

theorem validateManifest_ok {raw : Raw} (hraw : raw.Keyed) {m : ContentManifest} (h : validateManifest py raw = .ok m) :
    ∃ dict, raw.toDict py = some dict ∧ dict.Keyed ∧ ReadsAll py dict m := by
  have hdict : ∃ dict, raw.toDict py = some dict ∧ dict.Keyed := by
    cases raw with
    | dict raw => exact ⟨raw, rfl, hraw⟩
    | manifest given => exact ⟨given.form, manifest_toDict hraw, hraw.form⟩
  obtain ⟨dict, hdict, hkeyed⟩ := hdict
  unfold validateManifest at h
  rw [hdict] at h
  exact ⟨dict, hdict, hkeyed, manifest_ok hkeyed h⟩

theorem manifestDigest_eq (sha256 : List Char → String) {raw : Raw} {m : ContentManifest} (hm : m.Keyed)
    (h : validateManifest py raw = .ok m) :
    manifestDigest py sha256 raw = .ok (sha256 (JsonText.text py.floats false m.form.sortKeys)) := by
  have hcanonical : canonicalText py m = some (JsonText.text py.floats false m.form.sortKeys) := by
    unfold canonicalText
    rw [manifest_toDict hm]
    rfl
  unfold manifestDigest
  rw [h]
  dsimp only [bind, Except.bind]
  rw [hcanonical]

/-- The digest is canonical: validating is idempotent through `to_dict`, the manifest may be digested
in any of its shapes, and two accepted manifests have one digest exactly where they are validated as
one manifest, that is where they say the same. -/
theorem manifest_digest_canonical {sha256 : List Char → String} (hsha : Function.Injective sha256) {raw : Raw}
    (hraw : raw.Keyed) {m : ContentManifest} (h : validateManifest py raw = .ok m) :
    (∃ dict, m.toDict py = some dict ∧ validateManifest py (.dict dict) = .ok m ∧
      manifestDigest py sha256 (.dict dict) = manifestDigest py sha256 raw) ∧
    manifestDigest py sha256 (.manifest m) = manifestDigest py sha256 raw ∧
    (∃ digest, manifestDigest py sha256 raw = .ok digest) ∧
    ∀ (raw' : Raw) (m' : ContentManifest), raw'.Keyed → validateManifest py raw' = .ok m' →
      (manifestDigest py sha256 raw = manifestDigest py sha256 raw' ↔ m = m') ∧
      ∀ dict dict', raw.toDict py = some dict → raw'.toDict py = some dict' → (m = m' ↔ Agree dict dict') := by
  obtain ⟨dict, hdict, hkeyed, hreads⟩ := validateManifest_ok hraw h
  have hm := hreads.keyed hkeyed
  have hform : validateManifest py (.dict m.form) = .ok m := hreads.fromDict_form hkeyed
  have hagain : validateManifest py (.manifest m) = .ok m := by
    unfold validateManifest Raw.toDict
    dsimp only
    rw [manifest_toDict hm]
    exact hform
  have hdigest := manifestDigest_eq sha256 hm h
  refine ⟨⟨m.form, manifest_toDict hm, hform, ?_⟩, ?_, ⟨_, hdigest⟩, ?_⟩
  · rw [hdigest, manifestDigest_eq sha256 hm hform]
  · rw [hdigest, manifestDigest_eq sha256 hm hagain]
  · intro raw' m' hraw' h'
    obtain ⟨dict', hdict', hkeyed', hreads'⟩ := validateManifest_ok hraw' h'
    have hm' := hreads'.keyed hkeyed'
    constructor
    · rw [hdigest, manifestDigest_eq sha256 hm' h', Except.ok.injEq]
      constructor
      · intro hsame
        have htext := JsonText.text_injective py.floats false (Json.keyed_sortKeys hm.form)
          (Json.keyed_sortKeys hm'.form) (hsha hsame)
        exact hreads.eq_of_forms hreads' hkeyed hkeyed' htext
      · rintro rfl
        rfl
    · intro one other hone hother
      rw [hdict] at hone
      rw [hdict'] at hother
      cases hone
      cases hother
      exact hreads.eq_iff hreads' hkeyed hkeyed'

end

/-! ### A package -/

def fractions : JsonText.Floats where
  repr q :=
    { negative := q.num < 0, whole := q.num.natAbs, fraction := Nat.toDigits 10 q.den, exponent := none
      fraction_digits := JsonText.toDigits_digits q.den
      exponent_digits := by rintro _ ⟨⟩
      isFloat := .inl Nat.toDigits_ne_nil }
  parse text :=
    match JsonText.scanInt text with
    | some (whole, rest) => mkRat (JsonText.intOf whole) (Nat.ofDigitChars 10 rest.tail 0)
    | none => 0
  parse_repr q := by
    unfold JsonText.FloatText.text JsonText.FloatText.fractionText JsonText.FloatText.exponentText
    rw [if_neg Nat.toDigits_ne_nil, List.append_nil, JsonText.scanInt_signed _ _ (by rintro c ⟨rfl⟩; decide)]
    dsimp only
    rw [JsonText.intOf_signed, List.tail_cons, Nat.ofDigitChars_ten_toDigits, Rat.mkRat_self]

def agentRaw : Json :=
  .obj
    [ ("items", .arr
        [ .obj
          [ ("id", .str "qga"), ("kind", .str "package"), ("name", .str "Agent"), ("version", .str "107")
          , ("source_uri", .str "https://c/q.msi"), ("sha256", .str (String.ofList (List.replicate 64 'D')))
          , ("size_bytes", .int 12), ("architecture", .str "x64"), ("target_os", .str "windows")
          , ("conditions", .obj [("min_build", .int 22631), ("all", .arr [])]) ] ])
    , ("schema_version", .int 1) ]

def agentManifest : ContentManifest where
  schemaVersion := 1
  items :=
    [ { id := "qga", kind := "package", name := "Agent", version := "107", sourceUri := "https://c/q.msi"
        sha256 := String.ofList (List.replicate 64 'd'), sizeBytes := 12, architecture := "x64", targetOs := "windows"
        rebootBehavior := "none", conditions := .obj [("all", .arr []), ("min_build", .int 22631)], metadata := .obj [] } ]

def plain : Python := ⟨fractions, fun _ => false⟩

def agentDigest : String := "dbeba2f9231103cbb5861eb18b66f20b912ea548d936d6e4c658f4401fc4c3fc"

def agentText : List Char :=
  [ "\x7b\"items\":[\x7b\"architecture\":\"x64\""
  , ",\"conditions\":\x7b\"all\":[],\"min_build\":22631\x7d"
  , ",\"id\":\"qga\",\"kind\":\"package\""
  , ",\"metadata\":\x7b\x7d,\"name\":\"Agent\""
  , ",\"reboot_behavior\":\"none\""
  , ",\"sha256\":\""
  , "dddddddddddddddddddddddddddddddd"
  , "dddddddddddddddddddddddddddddddd\""
  , ",\"size_bytes\":12,\"source_uri\":\"https://c/q.msi\""
  , ",\"target_os\":\"windows\""
  , ",\"version\":\"107\"\x7d],\"schema_version\":1\x7d" ].flatMap String.toList

/-- SHA-256 of this text; other texts are told apart, as the digest is taken to do. -/
def sha256Sample (canonical : List Char) : String :=
  if canonical = agentText then agentDigest else String.ofList (':' :: canonical)

theorem sha256Sample_injective : Function.Injective sha256Sample := by
  have hother : ∀ text : List Char, agentDigest ≠ String.ofList (':' :: text) := by
    intro text htext
    have hhead := congrArg (fun s => s.toList.head?) htext
    simp only [String.toList_ofList, List.head?_cons] at hhead
    revert hhead
    decide
  intro a b h
  unfold sha256Sample at h
  split at h
  · rename_i ha
    split at h
    · rename_i hb
      exact ha.trans hb.symm
    · exact absurd h (hother b)
  · split at h
    · exact absurd h.symm (hother a)
    · have hlists := congrArg String.toList h
      rw [String.toList_ofList, String.toList_ofList] at hlists
      exact (List.cons.inj hlists).2

theorem agentRaw_keyed : (Raw.dict agentRaw).Keyed := by
  simp [Raw.Keyed, agentRaw, Json.Keyed, Json.KeyedFields, Json.KeyedList]

theorem agent_validated : validateManifest plain (.dict agentRaw) = .ok agentManifest := by decide +kernel

theorem agent_canonical : JsonText.text plain.floats false agentManifest.form.sortKeys = agentText := by
  decide +kernel

theorem sha256Sample_agent : sha256Sample agentText = agentDigest := by
  unfold sha256Sample
  exact if_pos rfl

theorem agent_digest_canonical :
    manifestDigest plain sha256Sample (.manifest agentManifest) = manifestDigest plain sha256Sample (.dict agentRaw) ∧
      manifestDigest plain sha256Sample (.dict agentRaw) = .ok agentDigest := by
  refine ⟨(manifest_digest_canonical sha256Sample_injective agentRaw_keyed agent_validated).2.1, ?_⟩
  obtain ⟨dict, -, hkeyed, hreads⟩ := validateManifest_ok agentRaw_keyed agent_validated
  rw [manifestDigest_eq sha256Sample (hreads.keyed hkeyed) agent_validated, agent_canonical, sha256Sample_agent]

end ProxmoxVEAutopilot.Manifests
