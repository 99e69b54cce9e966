import ProxmoxVEAutopilot.Foundation.Text
import ProxmoxVEAutopilot.OsDeploy.BundleCreation

/-!
# The role options that a run keeps

`sanitize_role_options` reads the fields of a role, each with its own default, and calls itself
for the children of a lab.
-/

namespace ProxmoxVEAutopilot.OsDeploy.Creation

open Foundation

set_option autoImplicit false

/-- Python's `str`, `lower` and `upper`, `dict` of a value that is no dict (none where it raises),
and `sorted(set(…), key=str.lower)`. -/
structure Python where
  str : Json → String
  lower : String → String
  upper : String → String
  dict : Json → Option (List (String × Json))
  sortedSet : List String → List String

variable (py : Python)

/-- `dict(role_options or {})` -/
def rawOptions (roleOptions : Json) : Option (List (String × Json)) :=
  if roleOptions.truthy then
    match roleOptions with
    | .obj fields => some fields
    | value => py.dict value
  else some []

def field (raw : List (String × Json)) (key : String) : Json := (raw.lookup key).getD .null

/-- `str(raw.get(key) or "").strip()` -/
def textField (raw : List (String × Json)) (key : String) : String :=
  if (field raw key).truthy then strip (py.str (field raw key)) else ""

def positiveInt (value : Json) : Option Int := (pyInt value).filter (0 < ·)

def intJson (value : Option Int) : Json := value.elim .null .int

def stringList (value : Json) : List String :=
  let values : List Json := match value with
    | .str s => [.str s]
    | .arr items => items
    | _ => []
  (values.map fun item => strip (py.str item)).filter (· ≠ "")

def textsJson (texts : List String) : Json := .arr (texts.map Json.str)

/-- `_sanitize_domain_join`, none where the join is not enabled. -/
def sanitizeDomainJoin (value : Json) : Option Json :=
  let raw := match value with
    | .obj fields => fields
    | _ => []
  let credentialId := positiveInt (field raw "credential_id")
  let domainFqdn := py.lower (textField py raw "domain_fqdn")
  let credentialDomain := textField py raw "credential_domain"
  let acceptable := stringList py (field raw "acceptable_domain_names") ++
    (if domainFqdn = "" then [] else [domainFqdn, String.ofList (domainFqdn.toList.takeWhile (· ≠ '.'))]) ++
    [credentialDomain]
  if credentialId.isSome ∧ domainFqdn ≠ "" then
    some (.obj [("enabled", .bool true), ("credential_id", intJson credentialId), ("domain_fqdn", .str domainFqdn),
      ("credential_domain", .str credentialDomain),
      ("domain_controller_ipv4", .str (textField py raw "domain_controller_ipv4")),
      ("acceptable_domain_names", textsJson (py.sortedSet (acceptable.filter (· ≠ ""))))])
  else none

/-- The options of a role whose machines may join a domain. -/
def withDomainJoin (raw out : List (String × Json)) : Json :=
  .obj (out ++ ((sanitizeDomainJoin py (field raw "domain_join")).map fun join => ("domain_join", join)).toList)

def fileServerOptions (raw : List (String × Json)) : Json :=
  withDomainJoin py raw [("share_name", .str (textField py raw "share_name")),
    ("share_path", .str (textField py raw "share_path")),
    ("full_access_principals", textsJson (stringList py (field raw "full_access_principals"))),
    ("change_access_principals", textsJson (stringList py (field raw "change_access_principals"))),
    ("read_access_principals", textsJson (stringList py (field raw "read_access_principals")))]

def domainControllerOptions (raw : List (String × Json)) : Json :=
  let mode := py.lower (if (field raw "dc_mode").truthy then strip (py.str (field raw "dc_mode")) else "new_forest")
  .obj [("dc_mode", .str (if mode = "additional_dc" then mode else "new_forest")),
    ("forest_fqdn", .str (py.lower (textField py raw "forest_fqdn"))),
    ("netbios_name", .str (py.upper (textField py raw "netbios_name"))),
    ("forest_admin_credential_id", intJson (positiveInt (field raw "forest_admin_credential_id"))),
    ("dsrm_credential_id", intJson (positiveInt (field raw "dsrm_credential_id")))]

def mecmPrereqOptions (raw : List (String × Json)) : Json :=
  withDomainJoin py raw [("prereq_profile", .str (textField py raw "prereq_profile")),
    ("content_root", .str (textField py raw "content_root"))]

/-- A child of a lab; one that is no dict is passed over. -/
def labChild (sanitize : String → Json → Option Json) : Json → Option (Option LabChild)
  | .obj child =>
    let role := textField py child "role"
    (sanitize role (field child "role_options")).map fun options => some ⟨role, textField py child "vm_name", options⟩
  | _ => some none

def labOptions (sanitize : String → Json → Option Json) (raw : List (String × Json)) : Option LabOptions :=
  let children := match field raw "children" with
    | .arr items => items
    | _ => []
  (children.mapM (labChild py sanitize)).map fun children =>
    ⟨textField py raw "bundle_name", positiveInt (field raw "domain_join_credential_id"), children.reduceOption⟩

/-- `sanitize_role_options`, none where it raises. `limit` calls may be under way at once. -/
def sanitizeRoleOptions : Nat → String → Json → Option Json
  | 0, _, _ => none
  | limit + 1, serverRole, roleOptions =>
    (rawOptions py roleOptions).bind fun raw =>
      if serverRole = "base" then some (.obj [])
      else if serverRole = "file_server" then some (fileServerOptions py raw)
      else if serverRole = "isolated_domain_controller" then some (domainControllerOptions py raw)
      else if serverRole = "mecm_prereq" then some (mecmPrereqOptions py raw)
      else if serverRole = "lab_in_a_box" then
        (labOptions py (sanitizeRoleOptions limit) raw).map LabOptions.json
      else some (.obj raw)

/-- The sanitizer as the creation of a lab uses it. -/
def roleSanitize (limit : Nat) : Sanitize where
  lab roleOptions := (rawOptions py roleOptions).bind (labOptions py (sanitizeRoleOptions py limit))
  role := sanitizeRoleOptions py (limit + 1)

theorem roleSanitize_lab (limit : Nat) (roleOptions : Json) :
    ((roleSanitize py limit).lab roleOptions).map LabOptions.json =
      sanitizeRoleOptions py (limit + 1) "lab_in_a_box" roleOptions := by
  unfold roleSanitize sanitizeRoleOptions
  simp [Option.map_bind]

end ProxmoxVEAutopilot.OsDeploy.Creation
