import ProxmoxVEAutopilot.Foundation.JsonText
import ProxmoxVEAutopilot.Foundation.Text
import ProxmoxVEAutopilot.Foundation.UrlSplit

/-!
# Content manifests

The Content Manifest v1 validator and its digest. A manifest is checked item by item and
field by field in the order of the dataclass; conditions and metadata are any JSON objects.
-/

namespace ProxmoxVEAutopilot.Manifests

open Foundation

set_option autoImplicit false

def SCHEMA_VERSION : Int := 1

/-- `CONTENT_KINDS`, sorted. -/
def CONTENT_KINDS : List String := ["app", "driver", "os_image", "package", "script"]

/-- `REBOOT_BEHAVIORS`, sorted. -/
def REBOOT_BEHAVIORS : List String := ["deferred", "none", "optional", "required"]

/-- `ContentManifestValidationError`, or the `ValueError` that `urlparse` raises. -/
inductive ManifestError where
  | validation (message : String)
  | valueError
deriving DecidableEq, Repr

structure ContentManifestItem where
  id : String
  kind : String
  name : String
  version : String
  sourceUri : String
  sha256 : String
  sizeBytes : Int
  architecture : String
  targetOs : String
  rebootBehavior : String
  conditions : Json
  metadata : Json
deriving DecidableEq

structure ContentManifest where
  schemaVersion : Int
  items : List ContentManifestItem
deriving DecidableEq

/-- What Python does with floats, and for which network locations its `urlparse` raises. -/
structure Python where
  floats : JsonText.Floats
  refuses : List Char → Bool

section

variable (py : Python)

/-! ### The fields of an item -/

def requiredString (raw : Json) (fieldName context : String) : Except ManifestError String :=
  match raw.get? fieldName with
  | some (.str value) =>
    if strip value = "" then .error (.validation s!"{context}.{fieldName} must be a non-empty string") else .ok value
  | _ => .error (.validation s!"{context}.{fieldName} must be a non-empty string")

def contentKind (raw : Json) (context : String) : Except ManifestError String := do
  let value ← requiredString raw "kind" context
  if value ∈ CONTENT_KINDS then .ok value
  else
    let allowed := String.intercalate ", " CONTENT_KINDS
    .error (.validation s!"{context}.kind must be one of: {allowed}")

def sourceUriField (raw : Json) (context : String) : Except ManifestError String := do
  let value ← requiredString raw "source_uri" context
  match UrlSplit.urlparse py.refuses value.toList with
  | none => .error .valueError
  | some parsed =>
    if parsed.scheme = [] then .error (.validation s!"{context}.source_uri must include a URI scheme") else .ok value

def isHex (c : Char) : Bool := c.isDigit || ('a' ≤ c && c ≤ 'f') || ('A' ≤ c && c ≤ 'F')

/-- `_SHA256_RE` -/
def isSha256 (value : List Char) : Bool := value.length = 64 && value.all isHex

def sha256Field (raw : Json) (context : String) : Except ManifestError String := do
  let value ← requiredString raw "sha256" context
  if isSha256 value.toList then .ok (lower value)
  else .error (.validation s!"{context}.sha256 must be 64 hexadecimal characters")

def sizeBytesField (raw : Json) (context : String) : Except ManifestError Int :=
  match raw.get? "size_bytes" with
  | some (.int value) =>
    if value < 0 then .error (.validation s!"{context}.size_bytes must be a non-negative integer") else .ok value
  | _ => .error (.validation s!"{context}.size_bytes must be a non-negative integer")

def rebootBehaviorField (raw : Json) (context : String) : Except ManifestError String :=
  let allowed := String.intercalate ", " REBOOT_BEHAVIORS
  match (raw.get? "reboot_behavior").getD (.str "none") with
  | .str value =>
    if value ∈ REBOOT_BEHAVIORS then .ok value
    else .error (.validation s!"{context}.reboot_behavior must be one of: {allowed}")
  | _ => .error (.validation s!"{context}.reboot_behavior must be one of: {allowed}")

/-- `_stable_json_value`: written with sorted keys and read again. -/
def stableJsonValue (value : Json) : Option Json :=
  JsonText.loads py.floats (JsonText.text py.floats true value.sortKeys)

def jsonObject (raw : Json) (fieldName context : String) : Except ManifestError Json :=
  match (raw.get? fieldName).getD (.obj []) with
  | .obj fields =>
    match stableJsonValue py (.obj fields) with
    | some (.obj stable) => .ok (.obj stable)
    | some _ => .error (.validation s!"{context}.{fieldName} must be an object")
    | none => .error (.validation s!"{context}.{fieldName} must be JSON-serializable")
  | _ => .error (.validation s!"{context}.{fieldName} must be an object")

/-! ### Items and manifests -/

/-- `_item_object` and `ContentManifestItem.from_dict` -/
def ContentManifestItem.fromDict (raw : Json) (index : Nat) : Except ManifestError ContentManifestItem :=
  match raw with
  | .obj _ => do
    let context := s!"items[{index}]"
    let id ← requiredString raw "id" context
    let kind ← contentKind raw context
    let name ← requiredString raw "name" context
    let version ← requiredString raw "version" context
    let sourceUri ← sourceUriField py raw context
    let sha256 ← sha256Field raw context
    let sizeBytes ← sizeBytesField raw context
    let architecture ← requiredString raw "architecture" context
    let targetOs ← requiredString raw "target_os" context
    let rebootBehavior ← rebootBehaviorField raw context
    let conditions ← jsonObject py raw "conditions" context
    let metadata ← jsonObject py raw "metadata" context
    .ok ⟨id, kind, name, version, sourceUri, sha256, sizeBytes, architecture, targetOs, rebootBehavior, conditions,
      metadata⟩
  | _ => .error (.validation s!"items[{index}] must be an object")

def ContentManifestItem.toDict (item : ContentManifestItem) : Option Json := do
  let conditions ← stableJsonValue py item.conditions
  let metadata ← stableJsonValue py item.metadata
  some (.obj
    [ ("id", .str item.id)
    , ("kind", .str item.kind)
    , ("name", .str item.name)
    , ("version", .str item.version)
    , ("source_uri", .str item.sourceUri)
    , ("sha256", .str item.sha256)
    , ("size_bytes", .int item.sizeBytes)
    , ("architecture", .str item.architecture)
    , ("target_os", .str item.targetOs)
    , ("reboot_behavior", .str item.rebootBehavior)
    , ("conditions", conditions)
    , ("metadata", metadata) ])

def itemsFrom : Nat → List Json → Except ManifestError (List ContentManifestItem)
  | _, [] => .ok []
  | index, raw :: rest => do
    let item ← ContentManifestItem.fromDict py raw index
    let items ← itemsFrom (index + 1) rest
    .ok (item :: items)

def ContentManifest.fromDict (raw : Json) : Except ManifestError ContentManifest :=
  match raw with
  | .obj _ =>
    if ¬ (raw.get? "schema_version").any (·.pyEq (.int SCHEMA_VERSION)) then
      .error (.validation s!"schema_version must be {SCHEMA_VERSION}")
    else
      match raw.get? "items" with
      | some (.arr items) => (itemsFrom py 0 items).map fun items => ⟨SCHEMA_VERSION, items⟩
      | _ => .error (.validation "items must be a list")
  | _ => .error (.validation "manifest must be an object")

def ContentManifest.toDict (m : ContentManifest) : Option Json :=
  (m.items.mapM (ContentManifestItem.toDict py)).map fun items =>
    .obj [("schema_version", .int m.schemaVersion), ("items", .arr items)]

/-- What `validate_manifest` takes. -/
inductive Raw where
  | dict (raw : Json)
  | manifest (m : ContentManifest)

/-- The dict that is validated. -/
def Raw.toDict : Raw → Option Json
  | .dict raw => some raw
  | .manifest m => m.toDict py

def validateManifest (raw : Raw) : Except ManifestError ContentManifest :=
  match raw.toDict py with
  | some dict => ContentManifest.fromDict py dict
  | none => .error .valueError

/-- What is hashed: the manifest with sorted keys and without blanks. -/
def canonicalText (m : ContentManifest) : Option (List Char) :=
  (m.toDict py).map fun dict => JsonText.text py.floats false dict.sortKeys

def manifestDigest (sha256 : List Char → String) (raw : Raw) : Except ManifestError String := do
  let manifest ← validateManifest py raw
  match canonicalText py manifest with
  | some canonical => .ok (sha256 canonical)
  | none => .error .valueError

end

end ProxmoxVEAutopilot.Manifests
