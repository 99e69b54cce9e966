import ProxmoxVEAutopilot.Foundation.Base64
import ProxmoxVEAutopilot.Foundation.Lists
import ProxmoxVEAutopilot.Foundation.Text
import ProxmoxVEAutopilot.Foundation.Substitution
import ProxmoxVEAutopilot.Foundation.Bytes

/-!
# Compiling a sequence

The enabled steps write, in their order, into one compiled sequence: variables, blocks of the
unattend file and commands of the first logon. What auto-logon needs at the end depends on
the blocks they have left behind.
-/

namespace ProxmoxVEAutopilot.Sequences

open Foundation
set_option autoImplicit false

/-- A step as `get_sequence` gives it; what is absent has its default. -/
structure StepDict where
  stepType : String
  params : Option Json := none
  enabled : Option Json := none
deriving DecidableEq

structure SequenceDict where
  id : Int
  steps : List StepDict
deriving DecidableEq

inductive CompileError where
  | unknownStepType (stepType : String)
  | stepNotImplemented (stepType : String)
  | noCredentialId (stepType : String)
  | noResolver (stepType : String)
  | noSuchCredential (stepType : String) (credentialId : Json)
  | noPassword
  | incompleteJoin
  | emptyPattern
  | emptyScript
  | emptyModule
  | raised (exception : String)
deriving DecidableEq

def CompileError.message (repr : String → String) (str : Json → String) : CompileError → String
  | unknownStepType stepType => "unknown step type: " ++ repr stepType
  | stepNotImplemented stepType => "step type " ++ repr stepType ++ " is not implemented in this version"
  | noCredentialId stepType =>
    stepType ++ " step has no credential_id set; edit the sequence and pick a credential."
  | noResolver stepType =>
    stepType ++ " step needs a credential but the compile call did not provide a resolver (compiler was " ++
      "invoked without access to decrypted credentials)."
  | noSuchCredential stepType credentialId =>
    stepType ++ " step references credential id=" ++ str credentialId ++
      " but no such credential exists (it may have been deleted)."
  | noPassword => "local_admin credential has no password (create or edit the credential and set one)."
  | incompleteJoin => "join_ad_domain credential is missing one of domain_fqdn, username, password."
  | emptyPattern => "rename_computer with name_source='pattern' requires a non-empty 'pattern' param."
  | emptyScript => "run_script step requires a non-empty 'script' param."
  | emptyModule => "install_module step requires a 'module' param."
  | raised exception => exception

structure LogonCommand where
  command : String
  description : String
deriving DecidableEq, Repr

structure CompiledSequence where
  ansibleVars : List (String × String) := []
  unattendBlocks : List (String × String) := []
  firstLogonCommands : List LogonCommand := []
  autopilotEnabled : Bool := false
  causesRebootCount : Nat := 0
deriving DecidableEq, Repr

/-- Gives the payload of a credential, or raises. -/
abbrev Resolver := Int → Except String Json

def setItem (dict : List (String × String)) (key value : String) : List (String × String) :=
  if (dict.lookup key).isSome then dict.map fun entry => if entry.1 = key then (key, value) else entry
  else dict ++ [(key, value)]

def CompiledSequence.setVar (out : CompiledSequence) (key value : String) : CompiledSequence :=
  { out with ansibleVars := setItem out.ansibleVars key value }

def CompiledSequence.setBlock (out : CompiledSequence) (key value : String) : CompiledSequence :=
  { out with unattendBlocks := setItem out.unattendBlocks key value }

section Values

/-- `value.get(key)` -/
def getItem (value : Json) (key : String) : Except String Json :=
  match value with
  | .obj fields => .ok ((fields.lookup key).getD .null)
  | _ => .error "AttributeError"

/-- `value or ""`, of which a method of texts is called. -/
def textOr (value : Json) : Except String String :=
  if value.truthy then
    match value with
    | .str s => .ok s
    | _ => .error "AttributeError"
  else .ok ""

def stripped (value : Json) : Except String String := (textOr value).map strip

def orElse (first second : Json) : Json := if first.truthy then first else second

def toInt (value : Json) : Except String Int :=
  match pyInt value with
  | some n => .ok n
  | none => .error (match value with | .str _ => "ValueError" | _ => "TypeError")

end Values

/-- A Python exception that the compiler does not catch. -/
def raising {α : Type} (x : Except String α) : Except CompileError α := x.mapError .raised

section Fragments

/-- `xml.sax.saxutils.escape` -/
def xmlEscape (s : String) : String :=
  String.ofList (s.toList.flatMap fun c =>
    if c = '&' then "&amp;".toList else if c = '>' then "&gt;".toList
    else if c = '<' then "&lt;".toList else [c])

def indent : String := "      "

def renderUserAccounts (username password : String) : String :=
  indent ++ "<UserAccounts>\n" ++
  indent ++ "  <LocalAccounts>\n" ++
  indent ++ "    <LocalAccount wcm:action=\"add\">\n" ++
  indent ++ "      <Name>" ++ xmlEscape username ++ "</Name>\n" ++
  indent ++ "      <Group>Administrators</Group>\n" ++
  indent ++ "      <Password>\n" ++
  indent ++ "        <Value>" ++ xmlEscape password ++ "</Value>\n" ++
  indent ++ "        <PlainText>true</PlainText>\n" ++
  indent ++ "      </Password>\n" ++
  indent ++ "    </LocalAccount>\n" ++
  indent ++ "  </LocalAccounts>\n" ++
  indent ++ "</UserAccounts>"

def renderAutoLogon (username password : String) : String :=
  indent ++ "<AutoLogon>\n" ++
  indent ++ "  <Enabled>true</Enabled>\n" ++
  indent ++ "  <Username>" ++ xmlEscape username ++ "</Username>\n" ++
  indent ++ "  <Password>\n" ++
  indent ++ "    <Value>" ++ xmlEscape password ++ "</Value>\n" ++
  indent ++ "    <PlainText>true</PlainText>\n" ++
  indent ++ "  </Password>\n" ++
  indent ++ "  <LogonCount>1</LogonCount>\n" ++
  indent ++ "</AutoLogon>"

def renderJoinDomain (domainFqdn credentialDomain username password ouPath : String) : String :=
  indent ++ "<Identification>\n" ++
  indent ++ "  <Credentials>\n" ++
  indent ++ "    <Domain>" ++ xmlEscape credentialDomain ++ "</Domain>\n" ++
  indent ++ "    <Username>" ++ xmlEscape username ++ "</Username>\n" ++
  indent ++ "    <Password>" ++ xmlEscape password ++ "</Password>\n" ++
  indent ++ "  </Credentials>\n" ++
  indent ++ "  <JoinDomain>" ++ xmlEscape domainFqdn ++ "</JoinDomain>\n" ++
  (if ouPath ≠ "" then indent ++ "  <MachineObjectOU>" ++ xmlEscape ouPath ++ "</MachineObjectOU>\n" else "") ++
  indent ++ "</Identification>"

end Fragments

section Handlers
variable (params : Json) (out : CompiledSequence) (resolver : Option Resolver)

def handleSetOemHardware : Except CompileError CompiledSequence := do
  let profile ← raising ((getItem params "oem_profile").bind stripped)
  let out := if profile ≠ "" then out.setVar "vm_oem_profile" profile else out
  let ct ← raising (getItem params "chassis_type")
  let chassis := (pyInt ct).getD 0
  pure (if 0 < chassis then out.setVar "chassis_type_override" (toString chassis) else out)

def handleAutopilotEntra : Except CompileError CompiledSequence :=
  .ok ({ out with autopilotEnabled := true }.setVar "autopilot_enabled" "true")

def handleHybridStub : Except CompileError CompiledSequence := .error (.stepNotImplemented "autopilot_hybrid")

def requireCredential (stepType : String) : Except CompileError Json := do
  let cid ← raising (getItem params "credential_id")
  if cid = .null then .error (.noCredentialId stepType)
  else
    match resolver with
    | none => .error (.noResolver stepType)
    | some resolve =>
      let id ← raising (toInt cid)
      let payload ← raising (resolve id)
      if payload.truthy then pure payload else .error (.noSuchCredential stepType cid)

/-- What an absent parameter defaults to is true. -/
def wantsAutologon : Bool := ((params.get? "autologon").map Json.truthy).getD true

/-- The user name and the password of `_handle_local_admin`. -/
def localAdminAccount : Except CompileError (String × String) := do
  let payload ← requireCredential params resolver "local_admin"
  let name ← raising ((getItem payload "username").bind stripped)
  let secret ← raising (getItem payload "password")
  if !secret.truthy then .error .noPassword
  else
    let password ← raising (textOr secret)
    pure (if name ≠ "" then name else "Administrator", password)

def handleLocalAdmin : Except CompileError CompiledSequence := do
  let account ← localAdminAccount params resolver
  let out := out.setBlock "oobe_user_accounts" (renderUserAccounts account.1 account.2)
  pure (if wantsAutologon params then out.setBlock "oobe_auto_logon" (renderAutoLogon account.1 account.2) else out)

/-- The domain and the bare user of a credential's user name: what stands before the first
backslash, or what stands behind the last at sign. -/
def splitDomainUser (raw : String) : String × String :=
  let cs := raw.toList
  if '\\' ∈ cs then
    (strip (String.ofList (cs.takeWhile (· ≠ '\\'))), strip (String.ofList (cs.dropWhile (· ≠ '\\')).tail))
  else if '@' ∈ cs then
    (strip (String.ofList (cs.reverse.takeWhile (· ≠ '@')).reverse),
      strip (String.ofList (cs.reverse.dropWhile (· ≠ '@')).tail.reverse))
  else ("", strip raw)

def handleJoinAdDomain : Except CompileError CompiledSequence := do
  let payload ← requireCredential params resolver "join_ad_domain"
  let domainFqdn ← raising ((getItem payload "domain_fqdn").bind stripped)
  let rawUsername ← raising ((getItem payload "username").bind stripped)
  let secret ← raising (getItem payload "password")
  if domainFqdn = "" ∨ rawUsername = "" ∨ !secret.truthy then .error .incompleteJoin
  else
    let (userDomain, userBare) := splitDomainUser rawUsername
    let own ← raising (getItem params "ou_path")
    let hint ← raising (getItem payload "ou_hint")
    let ou ← raising (stripped (orElse own hint))
    let password ← raising (textOr secret)
    pure (out.setBlock "specialize_identification"
      (renderJoinDomain domainFqdn (if userDomain ≠ "" then userDomain else domainFqdn) userBare password ou))

def namePattern (source : String) : Except CompileError String :=
  if lower (strip source) = "pattern" then raising ((getItem params "pattern").bind textOr)
  else .ok "{serial}"

def handleRenameComputer : Except CompileError CompiledSequence := do
  let named ← raising (getItem params "name_source")
  let source ← raising (textOr (orElse named (.str "serial")))
  let pattern ← namePattern params source
  if pattern = "" then .error .emptyPattern
  else
    let name := replaceAll (replaceAll pattern "{serial}" "%AUTOPILOT_SERIAL%") "{vmid}" "%AUTOPILOT_VMID%"
    pure (out.setBlock "specialize_computer_name" (xmlEscape name))

def encodePsCommand (script : String) : String := String.ofList (standard.encode (utf16le script))

def encodedCommand (script : String) : String :=
  "powershell.exe -NoProfile -ExecutionPolicy Bypass -EncodedCommand " ++ encodePsCommand script

def handleRunScript : Except CompileError CompiledSequence := do
  let script ← raising ((getItem params "script").bind textOr)
  if strip script = "" then .error .emptyScript
  else
    let named ← raising ((getItem params "name").bind stripped)
    let reboots ← raising (getItem params "causes_reboot")
    pure {
      out with
      firstLogonCommands := out.firstLogonCommands ++
        [⟨encodedCommand script, if named ≠ "" then named else "run_script"⟩]
      causesRebootCount := out.causesRebootCount + (if reboots.truthy then 1 else 0) }

/-- The string for a single-quoted literal. -/
def psEscape (s : String) : String :=
  String.ofList (s.toList.flatMap fun c => if c = '\'' then ['\'', '\''] else [c])

def installModuleScript (module repository scope version : String) : String :=
  let r := psEscape repository
  let m := psEscape module
  let s := psEscape scope
  "; ".intercalate [
    "[Net.ServicePointManager]::SecurityProtocol = [Net.ServicePointManager]::SecurityProtocol -bor " ++
      "[Net.SecurityProtocolType]::Tls12",
    "if ((Get-PSRepository -Name '" ++ r ++ "' -ErrorAction SilentlyContinue).InstallationPolicy -ne 'Trusted') \x7b " ++
      "Set-PSRepository -Name '" ++ r ++ "' -InstallationPolicy Trusted \x7d",
    "if (-not (Get-PackageProvider -Name NuGet -ErrorAction SilentlyContinue)) \x7b " ++
      "Install-PackageProvider -Name NuGet -Force -Scope AllUsers | Out-Null \x7d",
    "Install-Module -Name '" ++ m ++ "' -Repository '" ++ r ++ "' -Scope '" ++ s ++ "' -Force -AllowClobber" ++
      (if version ≠ "" then " -RequiredVersion '" ++ psEscape version ++ "'" else "")]

def handleInstallModule : Except CompileError CompiledSequence := do
  let module ← raising ((getItem params "module").bind stripped)
  if module = "" then .error .emptyModule
  else
    let version ← raising ((getItem params "version").bind stripped)
    let givenRepository ← raising ((getItem params "repository").bind stripped)
    let givenScope ← raising ((getItem params "scope").bind stripped)
    let repository := if givenRepository ≠ "" then givenRepository else "PSGallery"
    let scope := if givenScope ≠ "" then givenScope else "AllUsers"
    pure { out with
      firstLogonCommands := out.firstLogonCommands ++
        [⟨encodedCommand (installModuleScript module repository scope version),
          "Install-Module " ++ module ++ (if version ≠ "" then " " ++ version else "")⟩] }

end Handlers

/-- `_STEP_HANDLERS` -/
def handler (resolver : Option Resolver) (stepType : String) (params : Json) (out : CompiledSequence) :
    Except CompileError CompiledSequence :=
  match stepType with
  | "set_oem_hardware" => handleSetOemHardware params out
  | "autopilot_entra" => handleAutopilotEntra out
  | "autopilot_hybrid" => handleHybridStub
  | "local_admin" => handleLocalAdmin params out resolver
  | "join_ad_domain" => handleJoinAdDomain params out resolver
  | "rename_computer" => handleRenameComputer params out
  | "run_script" => handleRunScript params out
  | "install_module" => handleInstallModule params out
  | _ => .error (.unknownStepType stepType)

def StepDict.isEnabled (step : StepDict) : Bool := (step.enabled.map Json.truthy).getD true

def StepDict.paramsOr (step : StepDict) : Json := step.params.getD (.obj [])

/-- One turn of the loop. -/
def compileStep (resolver : Option Resolver) (out : CompiledSequence) (step : StepDict) :
    Except CompileError CompiledSequence :=
  if step.isEnabled then handler resolver step.stepType step.paramsOr out else .ok out

def finalRebootScript : String :=
  "$k='HKLM:\\SOFTWARE\\Microsoft\\Windows NT\\CurrentVersion\\Winlogon'; " ++
  "Set-ItemProperty -Path $k -Name AutoAdminLogon -Type String -Value '0' -Force; " ++
  "Remove-ItemProperty -Path $k -Name AutoLogonCount -ErrorAction SilentlyContinue; " ++
  "Remove-ItemProperty -Path $k -Name DefaultPassword -ErrorAction SilentlyContinue; " ++
  "Remove-ItemProperty -Path $k -Name DefaultUserName -ErrorAction SilentlyContinue; " ++
  "shutdown.exe /a 2>$null; " ++
  "shutdown.exe /r /t 15 /c 'Provisioning complete, rebooting to logon screen'"

def finalReboot : LogonCommand where
  command := "powershell.exe -NoProfile -ExecutionPolicy Bypass -Command \"" ++ (finalRebootScript ++ "\"")
  description := "Disable auto-logon and reboot to logon screen"

def CompiledSequence.hasAutoLogon (out : CompiledSequence) : Bool :=
  (out.unattendBlocks.lookup "oobe_auto_logon").isSome

def appendFinalRebootIfAutologon (out : CompiledSequence) : CompiledSequence :=
  if out.hasAutoLogon then
    { out with
      firstLogonCommands := out.firstLogonCommands ++ [finalReboot]
      causesRebootCount := out.causesRebootCount + 1 }
  else out

def compile (resolver : Option Resolver) (sequence : SequenceDict) : Except CompileError CompiledSequence :=
  (sequence.steps.foldlM (compileStep resolver) {}).map appendFinalRebootIfAutologon

end ProxmoxVEAutopilot.Sequences
