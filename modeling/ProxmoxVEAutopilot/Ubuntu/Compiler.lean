import ProxmoxVEAutopilot.Foundation.Lists
import ProxmoxVEAutopilot.Foundation.Json

/-!
# The Ubuntu sequence compiler

Each enabled step contributes entries of a cloud-config document, commands of the first boot
of the template and commands of the first boot of a clone. The documents are what the YAML
writer is given.
-/

namespace ProxmoxVEAutopilot.Ubuntu

open Foundation

set_option autoImplicit false

/-! ### Documents -/

/-- A value of a document; the keys of a dict that a step hands on need not be texts. -/
inductive Node where
  | scalar (value : Json)
  | list (items : List Json)
  | dict (entries : List (Json × Json))
deriving DecidableEq

abbrev Doc := List (String × Node)

def assign {κ β : Type} [DecidableEq κ] (dict : List (κ × β)) (key : κ) (value : β) : List (κ × β) :=
  if (dict.lookup key).isSome then dict.map fun entry => if entry.1 = key then (key, value) else entry
  else dict ++ [(key, value)]

structure StepOutput where
  cloudConfig : Doc := []
  runcmd : List Json := []
  firstbootRuncmd : List Json := []
deriving DecidableEq

inductive Raised where
  | compileError (text : String)
  | exception (name : String)
deriving DecidableEq

abbrev Compiled (α : Type) := Except Raised α

/-- What is Python's or a library's; the hash of a call has a salt of its own. -/
structure Python where
  sha512Crypt : Nat → String → String
  str : Json → String
  repr : Json → String

abbrev Credentials := List (Int × List (String × Json))

/-! ### Python -/

/-- `params.get(key, default)` -/
def getOr (params : Json) (key : String) (default : Json) : Compiled Json :=
  match params with
  | .obj fields => .ok ((fields.lookup key).getD default)
  | _ => .error (.exception "AttributeError")

/-- What stands in an f-string. -/
def Python.formatted (python : Python) : Json → String
  | .str s => s
  | value => python.str value

/-- `list(value)` -/
def listOf : Json → Compiled (List Json)
  | .arr xs => .ok xs
  | .str s => .ok (s.toList.map fun c => .str (String.singleton c))
  | .obj fields => .ok (fields.map fun field => .str field.1)
  | _ => .error (.exception "TypeError")

def hashable : Json → Bool
  | .arr _ | .obj _ => false
  | _ => true

def pairOf (item : Json) : Compiled (Json × Json) :=
  match listOf item with
  | .ok [key, value] => if hashable key then .ok (key, value) else .error (.exception "TypeError")
  | .ok _ => .error (.exception "ValueError")
  | .error raised => .error raised

/-- A key counts as there where an equal one is. -/
def store (dict : List (Json × Json)) (entry : Json × Json) : List (Json × Json) :=
  if dict.any fun known => known.1.pyEq entry.1 then
    dict.map fun known => if known.1.pyEq entry.1 then (known.1, entry.2) else known
  else dict ++ [entry]

/-- `dict(value)` -/
def dictOf : Json → Compiled (List (Json × Json))
  | .obj fields => .ok (fields.map fun field => (.str field.1, field.2))
  | value => do
    let items ← listOf value
    let pairs ← items.mapM pairOf
    .ok (pairs.foldl store [])

/-- `credentials.get(cred_id)` -/
def credentialOf (credentials : Credentials) (credId : Json) : Compiled (Option (List (String × Json))) :=
  if hashable credId then
    .ok (credId.numeric?.bind fun n => (credentials.find? fun credential => (credential.1 : Rat) = n).map (·.2))
  else .error (.exception "TypeError")

/-- A letter that `shlex.quote` leaves unquoted. -/
def isSafe (c : Char) : Bool :=
  ('a' ≤ c && c ≤ 'z') || ('A' ≤ c && c ≤ 'Z') || ('0' ≤ c && c ≤ '9') || c ∈ "_@%+=:,./-".toList

/-- `shlex.quote` -/
def shlexQuote (s : String) : String :=
  if s = "" then "''" else if s.toList.all isSafe then s
  else "'" ++ String.ofList (s.toList.flatMap fun c => if c = '\'' then "'\"'\"'".toList else [c]) ++ "'"

def quoteJson : Json → Compiled String
  | .str s => .ok (shlexQuote s)
  | _ => .error (.exception "TypeError")

/-! ### Steps -/

section Steps

variable (python : Python) (params : Json) (credentials : Credentials)

/-- The credential that a parameter of a step names. -/
def requireCredential (stepType param noun : String) : Compiled (List (String × Json)) := do
  let credId ← getOr params param .null
  if credId = .null then .error (.compileError s!"{stepType}: params.{param} is required")
  else do
    let cred ← credentialOf credentials credId
    match cred with
    | none => .error (.compileError s!"{stepType}: {noun} {python.formatted credId} not provided")
    | some fields => .ok fields

def compileInstallUbuntuCore : Compiled StepOutput := do
  let locale ← getOr params "locale" (.str "en_US.UTF-8")
  let timezone ← getOr params "timezone" (.str "UTC")
  let aptProxy ← getOr params "apt_proxy" .null
  .ok
    { cloudConfig :=
        [ ("timezone", .scalar timezone)
        , ("locale", .scalar locale)
        , ("package_update", .scalar (.bool true))
        , ("package_upgrade", .scalar (.bool false))
        , ("packages", .list [.str "qemu-guest-agent"]) ] ++
        if aptProxy.truthy then [("apt", .dict [(.str "http_proxy", aptProxy), (.str "https_proxy", aptProxy)])] else []
      runcmd := [.str "systemctl enable --now qemu-guest-agent || true"] }

def userEntry (username : Json) (hashed : String) : Json :=
  .obj
    [ ("name", username)
    , ("passwd", .str hashed)
    , ("groups", .arr [.str "sudo"])
    , ("shell", .str "/bin/bash")
    , ("lock_passwd", .bool false)
    , ("sudo", .str "ALL=(ALL) NOPASSWD:ALL") ]

/-- The call's number tells the salts of its hashes apart. -/
def compileCreateUbuntuUser (call : Nat) : Compiled StepOutput := do
  let cred ← requireCredential python params credentials "create_ubuntu_user" "local_admin_credential_id" "credential"
  let username := (cred.lookup "username").getD .null
  let password := (cred.lookup "password").getD .null
  if username.truthy && password.truthy then
    match password with
    | .str secret =>
      .ok { cloudConfig := [("users", .list [userEntry username (python.sha512Crypt call secret)])] }
    | _ => .error (.exception "TypeError")
  else .error (.compileError "create_ubuntu_user: credential missing username or password")

/-- The selections a step hands on; none where they are missing or empty. -/
def debconfOf : Compiled (Option (List (Json × Json))) := do
  let debconf ← getOr params "debconf_selections" .null
  if debconf.truthy then do
    let entries ← dictOf debconf
    .ok (some entries)
  else .ok none

def compileInstallAptPackages : Compiled StepOutput := do
  let given ← getOr params "packages" (.arr [])
  let packages ← listOf given
  let debconf ← debconfOf params
  .ok
    { cloudConfig := [("packages", .list packages)] ++
        debconf.toList.map fun entries => ("debconf_selections", .dict entries) }

/-- One command of `snap.commands`. -/
def snapCommand (snap : Json) : Compiled Json :=
  match snap with
  | .obj fields =>
    match fields.lookup "name" with
    | some (.str name) =>
      .ok (.str (" ".intercalate (["snap", "install", name] ++
        if ((fields.lookup "classic").getD .null).truthy then ["--classic"] else [])))
    | some _ => .error (.exception "TypeError")
    | none => .error (.exception "KeyError")
  | _ => .error (.exception "TypeError")

def compileInstallSnapPackages : Compiled StepOutput := do
  let given ← getOr params "snaps" (.arr [])
  let snaps ← listOf given
  let commands ← snaps.mapM snapCommand
  .ok (if commands = [] then {} else { cloudConfig := [("snap", .dict [(.str "commands", .arr commands)])] })

def compileRemoveAptPackages : Compiled StepOutput := do
  let given ← getOr params "packages" (.arr [])
  let packages ← listOf given
  .ok
    (if packages = [] then {}
    else
      { runcmd := packages.map (fun pkg => .str s!"apt-get purge -y {python.formatted pkg}") ++
          [.str "apt-get autoremove -y", .str "apt-get clean"] })

def ALLOWED_FLAVORS : List String :=
  [ "ubuntu-desktop", "ubuntu-desktop-minimal", "xubuntu-desktop", "kubuntu-desktop", "lubuntu-desktop"
  , "ubuntu-mate-desktop" ]

def compileInstallDesktopEnvironment : Compiled StepOutput := do
  let flavor ← getOr params "flavor" (.str "ubuntu-desktop")
  match flavor with
  | .arr _ | .obj _ => .error (.exception "TypeError")
  | _ =>
    if flavor ∈ ALLOWED_FLAVORS.map Json.str then
      .ok { runcmd :=
        [ .str s!"DEBIAN_FRONTEND=noninteractive apt-get install -y {python.formatted flavor}"
        , .str "systemctl set-default graphical.target" ] }
    else .error (.compileError ("install_desktop_environment: unknown flavor " ++ python.repr flavor ++
      ". Pick one of: ['kubuntu-desktop', 'lubuntu-desktop', 'ubuntu-desktop', 'ubuntu-desktop-minimal', " ++
        "'ubuntu-mate-desktop', 'xubuntu-desktop']"))

def compileInstallMdeLinux : Compiled StepOutput := do
  let cred ← requireCredential python params credentials "install_mde_linux" "mde_onboarding_credential_id"
    "mde_onboarding credential"
  let script := (cred.lookup "script_b64").getD .null
  if script.truthy then
    .ok { runcmd :=
      [ .str "apt-get install -y mdatp"
      , .str "mkdir -p /tmp/mde"
      , .str ("bash -c 'echo \"" ++ python.formatted script ++ "\" | base64 -d > /tmp/mde/onboard.py'")
      , .str "chmod +x /tmp/mde/onboard.py"
      , .str "python3 /tmp/mde/onboard.py"
      , .str "rm -rf /tmp/mde" ] }
  else .error (.compileError "install_mde_linux: credential missing script_b64")

def msKeySetup : List Json :=
  [ .str "mkdir -p /tmp/microsoft"
  , .str ("bash -c 'cd /tmp/microsoft && curl -fsSL https://packages.microsoft.com/keys/microsoft.asc | " ++
      "gpg --dearmor > microsoft.gpg'")
  , .str "install -o root -g root -m 644 /tmp/microsoft/microsoft.gpg /usr/share/keyrings/microsoft.gpg" ]

def compileInstallIntunePortal : Compiled StepOutput := do
  let release ← getOr params "ubuntu_release" (.str "noble")
  let version ← getOr params "ubuntu_release_version" (.str "24.04")
  .ok
    { runcmd := msKeySetup ++
        [ .str ("bash -c 'echo \"deb [arch=amd64 signed-by=/usr/share/keyrings/microsoft.gpg] " ++
            "https://packages.microsoft.com/ubuntu/" ++ python.formatted version ++ "/prod " ++ python.formatted release ++
            " main\" > /etc/apt/sources.list.d/microsoft-ubuntu-" ++ python.formatted release ++ "-prod.list'")
        , .str "apt-get update"
        , .str "apt-get install -y intune-portal" ] }

def compileInstallEdge : Compiled StepOutput :=
  .ok
    { runcmd := msKeySetup ++
        [ .str ("bash -c 'echo \"deb [arch=amd64 signed-by=/usr/share/keyrings/microsoft.gpg] " ++
            "https://packages.microsoft.com/repos/edge stable main\" > /etc/apt/sources.list.d/microsoft-edge.list'")
        , .str "apt-get update"
        , .str "apt-get install -y microsoft-edge-stable" ] }

/-- The command of a script step, which has to be there. -/
def requireCommand (stepType : String) : Compiled Json := do
  let command ← getOr params "command" .null
  if command.truthy then .ok command
  else .error (.compileError s!"{stepType}: params.command is required")

def compileRunLateCommand : Compiled StepOutput := do
  let command ← requireCommand params "run_late_command"
  let quoted ← quoteJson command
  .ok { runcmd := [.str ("sh -c " ++ quoted)] }

/-- `"\n" in cmd` -/
def hasLineBreak : Json → Compiled Bool
  | .str s => .ok (s.toList.contains '\n')
  | .arr xs => .ok (xs.any (·.pyEq (.str "\n")))
  | .obj fields => .ok (fields.lookup "\n").isSome
  | _ => .error (.exception "TypeError")

def compileRunFirstbootScript : Compiled StepOutput := do
  let command ← requireCommand params "run_firstboot_script"
  let broken ← hasLineBreak command
  if broken then do
    let quoted ← quoteJson command
    .ok { firstbootRuncmd := [.str ("sh -c " ++ quoted)] }
  else .ok { firstbootRuncmd := [command] }

def compileStep (call : Nat) (stepType : Json) : Compiled StepOutput :=
  match stepType with
  | .str "install_ubuntu_core" => compileInstallUbuntuCore params
  | .str "create_ubuntu_user" => compileCreateUbuntuUser python params credentials call
  | .str "install_apt_packages" => compileInstallAptPackages params
  | .str "install_snap_packages" => compileInstallSnapPackages params
  | .str "remove_apt_packages" => compileRemoveAptPackages python params
  | .str "install_intune_portal" => compileInstallIntunePortal python params
  | .str "install_edge" => compileInstallEdge
  | .str "install_mde_linux" => compileInstallMdeLinux python params credentials
  | .str "install_desktop_environment" => compileInstallDesktopEnvironment python params
  | .str "run_late_command" => compileRunLateCommand params
  | .str "run_firstboot_script" => compileRunFirstbootScript params
  | .arr _ | .obj _ => .error (.exception "TypeError")
  | _ => .error (.compileError s!"unknown Ubuntu step_type: {python.formatted stepType}")

end Steps

/-! ### Merging -/

def LIST_KEYS : List String := ["packages", "runcmd", "users"]

/-- `existing.extend(items)` -/
def extend : Node → Node → Compiled Node
  | .list existing, .list items => .ok (.list (existing ++ items))
  | _, _ => .error (.exception "AttributeError")

def extendJson : Json → Json → Compiled Json
  | .arr existing, .arr items => .ok (.arr (existing ++ items))
  | _, _ => .error (.exception "AttributeError")

/-- The commands are appended, every other key of the snap module is taken over. -/
def mergeSnap (existing : Node) (given : List (Json × Json)) : Compiled Node :=
  match existing with
  | .dict entries => do
    let entries ← match given.lookup (.str "commands") with
      | none => .ok entries
      | some commands =>
        (extendJson ((entries.lookup (.str "commands")).getD (.arr [])) commands).map (assign entries (.str "commands"))
    .ok (.dict ((given.filter (·.1 ≠ .str "commands")).foldl (fun dict entry => assign dict entry.1 entry.2) entries))
  | _ => .error (.exception "AttributeError")

/-- What a contributed value makes of the value that is there. -/
def mergeValue (key : String) (existing : Option Node) (value : Node) : Compiled Node :=
  if key ∈ LIST_KEYS then extend (existing.getD (.list [])) value
  else if key = "snap" then
    match value with
    | .dict given => mergeSnap (existing.getD (.dict [])) given
    | _ => .ok value
  else .ok value

def mergeInto (cc : Doc) (contribution : Doc) : Compiled Doc :=
  contribution.foldlM (fun cc entry => (mergeValue entry.1 (cc.lookup entry.1) entry.2).map (assign cc entry.1)) cc

/-! ### Compiling a sequence -/

abbrev Step := List (String × Json)

/-- All but the steps that are switched off by `False` itself. -/
def Step.enabled (step : Step) : Bool := step.lookup "enabled" ≠ some (.bool false)

def Step.compile (python : Python) (credentials : Credentials) (call : Nat) (step : Step) : Compiled StepOutput :=
  match step.lookup "step_type" with
  | none => .error (.exception "KeyError")
  | some stepType => compileStep python ((step.lookup "params").getD (.obj [])) credentials call stepType

structure Documents where
  userData : Doc
  metaData : Doc
  firstbootUserData : Doc
  firstbootMetaData : Doc
deriving DecidableEq

/-- The cloud-config and the first-boot commands as far as the loop has come. -/
structure Merged where
  cc : Doc
  firstbootRuncmd : List Json

def addCloudConfig (cc contribution : Doc) : Compiled Doc :=
  if contribution = [] then .ok cc else mergeInto cc contribution

def addRuncmd (cc : Doc) (commands : List Json) : Compiled Doc :=
  if commands = [] then .ok cc
  else (extend ((cc.lookup "runcmd").getD (.list [])) (.list commands)).map (assign cc "runcmd")

def addOutput (merged : Merged) (out : StepOutput) : Compiled Merged := do
  let cc ← addCloudConfig merged.cc out.cloudConfig
  let cc ← addRuncmd cc out.runcmd
  .ok ⟨cc, merged.firstbootRuncmd ++ out.firstbootRuncmd⟩

def addStep (python : Python) (credentials : Credentials) (merged : Merged) (step : Step × Nat) : Compiled Merged :=
  if step.1.enabled then do
    let out ← step.1.compile python credentials step.2
    addOutput merged out
  else .ok merged

def agentRuncmd : List Json :=
  [ .str ("dpkg -s qemu-guest-agent >/dev/null 2>&1 || " ++ "(apt-get update && apt-get install -y qemu-guest-agent)")
  , .str "systemctl enable --now qemu-guest-agent" ]

def dropEmptyRuncmd (cc : Doc) : Doc :=
  if cc.lookup "runcmd" = some (.list []) then cc.filter (·.1 ≠ "runcmd") else cc

/-- `compile_sequence`; the base document is empty. -/
def compileSequence (python : Python) (steps : List Step) (credentials : Credentials) (instanceId hostname : String) :
    Compiled Documents := do
  let merged ← steps.zipIdx.foldlM (addStep python credentials) ⟨[("runcmd", .list [])], []⟩
  .ok
    { userData := dropEmptyRuncmd merged.cc
      metaData := [("instance-id", .scalar (.str instanceId))]
      firstbootUserData :=
        [ ("hostname", .scalar (.str hostname))
        , ("runcmd", .list (agentRuncmd ++ merged.firstbootRuncmd)) ]
      firstbootMetaData := [("instance-id", .scalar (.str s!"firstboot-{instanceId}"))] }

end ProxmoxVEAutopilot.Ubuntu
