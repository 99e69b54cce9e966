import ProxmoxVEAutopilot.CloudOsd.WindowsNames
import ProxmoxVEAutopilot.Foundation.Markers
import ProxmoxVEAutopilot.Foundation.Xml

/-!
# Staging the offline answer file

The PE bridge finds or creates what it needs in `Unattend.xml`: the first-boot command, the
computer name and the domain join of the specialize pass, and the accounts of OOBE.
-/

namespace ProxmoxVEAutopilot.CloudOsd.Unattend

open Foundation Foundation.Xml
open Agents (isBlank)

set_option autoImplicit false

def unattendNs : String := "urn:schemas-microsoft-com:unattend"
def wcmNs : String := "http://schemas.microsoft.com/WMIConfig/2002/State"

def elementSel (name : String) : Sel := { ns := unattendNs, name := name }
def elementTag (name : String) : Tag := { ns := unattendNs, name := name }

def settingsSel (pass : String) : Sel := { ns := unattendNs, name := "settings", attributes := [("pass", pass)] }

def settingsTag (pass : String) : Tag :=
  { ns := unattendNs, name := "settings", attributes := [{ name := "pass", value := pass }] }

def componentSel (name : String) : Sel :=
  { ns := unattendNs, name := "component", attributes := [("name", name), ("processorArchitecture", "amd64")] }

def componentTag (name : String) : Tag :=
  { ns := unattendNs
    name := "component"
    attributes := [{ name := "name", value := name }, { name := "processorArchitecture", value := "amd64" },
      { name := "publicKeyToken", value := "31bf3856ad364e35" }, { name := "language", value := "neutral" },
      { name := "versionScope", value := "nonSxS" }] }

/-- `New-PVEAutopilotUnattendTextElement` -/
def textElement (name value : String) : Node := .element (elementTag name) [.text value]

/-- `Set-PVEAutopilotUnattendTextElement` -/
def setTextElement (name value : String) : Slot := .setText (elementSel name) (elementTag name) value

/-- `Set-PVEAutopilotUnattendPasswordElement` -/
def setPasswordElement (value : String) : Slot :=
  .within (elementSel "Password") (elementTag "Password")
    [setTextElement "Value" value, setTextElement "PlainText" "true"]

/-- The domain join block, whose values are read as texts. -/
structure DomainJoin where
  enabled : Bool := false
  domainFqdn : String := ""
  credentialDomain : String := ""
  username : String := ""
  password : String := ""
  ouPath : String := ""

structure LocalAdmin where
  username : String := ""
  password : String := ""

/-- What the bridge takes from the run's package. -/
structure Package where
  computerName : String := ""
  domainJoin : DomainJoin := {}
  preserveAutopilotOobe : Bool := false
  localAdmin : LocalAdmin := {}

inductive StageError where
  | notUnattend
  | noNamespace
  | incompleteJoin
  | foreignJoin
  | xpath (text : String)
deriving DecidableEq

def StageError.message : StageError → String
  | notUnattend => "Existing offline Unattend.xml does not have an unattend root element"
  | noNamespace => "Existing offline Unattend.xml root does not use the Windows unattend namespace"
  | incompleteJoin => "CloudOSD domain join package is missing domain_fqdn, username, or password"
  | foreignJoin =>
    "Refusing to overwrite existing Microsoft-Windows-UnattendedJoin component without ProxmoxVEAutopilot sentinel"
  | xpath text => text

/-! ### The first-boot command -/

def isWhite (c : Char) : Bool := c == ' ' || (9 ≤ c.toNat && c.toNat ≤ 13)

def signedDigits : List Char → Bool × List Char
  | '-' :: digits => (true, digits)
  | '+' :: digits => (false, digits)
  | digits => (false, digits)

def tryParse (text : String) : Option Int :=
  let signed := signedDigits (trimmed isWhite text.toList)
  let number : Int := Nat.ofDigitChars 10 signed.2 0
  let value := if signed.1 then -number else number
  if signed.2 ≠ [] ∧ signed.2.all Char.isDigit ∧ -2147483648 ≤ value ∧ value ≤ 2147483647 then some value else none

/-- The texts of `u:RunSynchronousCommand/u:Order`. -/
def commandOrders (command : Node) : List String :=
  if (elementSel "RunSynchronousCommand").picks command then
    (command.children.filter (elementSel "Order").picks).map Node.innerText
  else []

def orderAfter (order : Int) (text : String) : Int :=
  match tryParse text with
  | some parsed => if order ≤ parsed then parsed + 1 else order
  | none => order

/-- One more than the largest order there; beyond 32 bits the number becomes a double, whose
text is that of the integer. -/
def nextOrder (children : List Node) : Int := (children.flatMap commandOrders).foldl orderAfter 1

def scriptName : String := "PVEAutopilot-SetupComplete.cmd"

def isSentinelPath (n : Node) : Bool := (elementSel "Path").picks n && contains scriptName n.firstText

def firstBootCommand (order : Int) : Node :=
  .element
    { ns := unattendNs
      name := "RunSynchronousCommand"
      attributes := [{ ns := wcmNs, name := "action", value := "add" }] }
    [textElement "Order" (toString order),
      textElement "Description" "Start ProxmoxVEAutopilot CloudOSD first boot task",
      textElement "Path" "cmd.exe /c C:\\Windows\\Setup\\Scripts\\PVEAutopilot-SetupComplete.cmd"]

def hasSentinel (runSynchronous : Node) : Bool :=
  !(Node.occurrencesList isSentinelPath runSynchronous.children).isEmpty

def addFirstBoot (runSynchronous : Node) : Node :=
  if hasSentinel runSynchronous then runSynchronous
  else runSynchronous.withChildren
    (runSynchronous.children ++ [firstBootCommand (nextOrder runSynchronous.children)])

def runSynchronousSlot : Slot where
  sel := elementSel "RunSynchronous"
  tag := elementTag "RunSynchronous"
  edit := addFirstBoot

def deploymentSlot : Slot :=
  .within (componentSel "Microsoft-Windows-Deployment") (componentTag "Microsoft-Windows-Deployment")
    [runSynchronousSlot]

def shellSlot (slots : List Slot) : Slot :=
  .within (componentSel "Microsoft-Windows-Shell-Setup") (componentTag "Microsoft-Windows-Shell-Setup") slots

/-! ### The domain join -/

def joinName : String := "Microsoft-Windows-UnattendedJoin"
def joinSentinel : String := "PVEAUTOPILOT-CLOUDOSD-DOMAIN-JOIN"

def joinSel : Sel := { ns := unattendNs, name := "component", attributes := [("name", joinName)] }

def hasJoinSentinel (component : Node) : Bool :=
  component.children.any fun child =>
    match child with
    | .comment content => contains (lower joinSentinel) (lower content)
    | _ => false

def joinComponent (join : DomainJoin) : Node :=
  .element (componentTag joinName)
    [ .comment joinSentinel,
      .element (elementTag "Identification")
        ([ .element (elementTag "Credentials")
             [ textElement "Domain" (if isBlank join.credentialDomain then join.domainFqdn else join.credentialDomain),
               textElement "Username" join.username,
               textElement "Password" join.password ],
           textElement "JoinDomain" join.domainFqdn ] ++
          if isBlank join.ouPath then [] else [textElement "MachineObjectOU" join.ouPath]) ]

/-- `Add-PVEAutopilotUnattendedJoinComponent`; an error leaves the file as it is, so that it
does not matter what was removed before it. -/
def addUnattendedJoinComponent (join : DomainJoin) (children : List Node) : Except StageError (List Node) :=
  if !join.enabled then .ok children
  else if isBlank join.domainFqdn || isBlank join.username || isBlank join.password then .error .incompleteJoin
  else if (children.filter joinSel.picks).any fun component => !hasJoinSentinel component then .error .foreignJoin
  else .ok (children.filter (fun n => !joinSel.picks n) ++ [joinComponent join])

/-! ### The two passes -/

section Passes
variable (folds : Char → Bool) (package : Package)

def specializeSlots : List Slot :=
  deploymentSlot ::
    match convertToWindowsComputerName folds package.computerName with
    | some name => [shellSlot [setTextElement "ComputerName" name]]
    | none => []

def specializeSettings (settings : Node) : Except StageError Node :=
  (addUnattendedJoinComponent package.domainJoin (fillAll (specializeSlots folds package) settings.children)).map
    settings.withChildren

end Passes

def oobeEntries : List (String × String) :=
  [ ("HideEULAPage", "true"), ("HideOEMRegistrationScreen", "true"), ("HideLocalAccountScreen", "true"),
    ("HideOnlineAccountScreens", "true"), ("HideWirelessSetupInOOBE", "true"), ("ProtectYourPC", "3") ]

def localeEntries : List (String × String) :=
  [("InputLocale", "en-US"), ("SystemLocale", "en-US"), ("UILanguage", "en-US"), ("UserLocale", "en-US")]

def setTextElements (entries : List (String × String)) : List Slot :=
  entries.map fun e => setTextElement e.1 e.2

def hasName (user : String) (account : Node) : Bool :=
  account.children.any fun child => (elementSel "Name").picks child && child.innerText == user

/-- What `[u:Name='user']` is with the user name between the apostrophes, or why it is no predicate. -/
structure XPath where
  named : String → Except String (Node → Bool)
  named_plain : ∀ user, '\'' ∉ user.toList → named user = .ok (hasName user)

def localAccountSlot (picked : Node → Bool) (user password : String) : Slot where
  sel := elementSel "LocalAccount"
  also := picked
  tag :=
    { ns := unattendNs
      name := "LocalAccount"
      attributes := [{ ns := wcmNs, name := "action", value := "add" }] }
  edit := Node.fill
    [setTextElement "Name" user, setTextElement "Group" "Administrators", setPasswordElement password]

def oobeShellSlots (picked : Node → Bool) (user password : String) : List Slot :=
  [ .within (elementSel "OOBE") (elementTag "OOBE") (setTextElements oobeEntries),
    .within (elementSel "UserAccounts") (elementTag "UserAccounts")
      [.within (elementSel "LocalAccounts") (elementTag "LocalAccounts") [localAccountSlot picked user password]],
    .within (elementSel "AutoLogon") (elementTag "AutoLogon")
      [setTextElement "Enabled" "true", setTextElement "Username" user, setPasswordElement password,
        setTextElement "LogonCount" "1"] ]

def internationalSlot : Slot :=
  .within (componentSel "Microsoft-Windows-International-Core") (componentTag "Microsoft-Windows-International-Core")
    (setTextElements localeEntries)

def oobeSystemSlot (slots : List Slot) : Slot :=
  .within (settingsSel "oobeSystem") (settingsTag "oobeSystem") slots

/-- `random` is the password of `New-PVEAutopilotOobeBootstrapPassword`. -/
def bootstrap (random : String) (localAdmin : LocalAdmin) : LocalAdmin :=
  if isBlank localAdmin.username || isBlank localAdmin.password then ⟨"PVEAutopilot", random⟩ else localAdmin

/-- The slots of `Add-PVEAutopilotOobeSystemUnattend`. -/
def oobeSystemSlots (xpath : XPath) (random : String) (package : Package) : Except StageError (List Slot) :=
  if package.preserveAutopilotOobe then .ok [internationalSlot]
  else
    let admin := bootstrap random package.localAdmin
    match xpath.named admin.username with
    | .error text => .error (.xpath text)
    | .ok picked => .ok [shellSlot (oobeShellSlots picked admin.username admin.password), internationalSlot]

/-- The `xmlns:wcm` of the root. -/
def wcmDeclaration : Attribute := { ns := "http://www.w3.org/2000/xmlns/", name := "wcm", value := wcmNs }

def emptyRoot : Node := .element (elementTag "unattend") []

def specializeOf (root : Node) : Node :=
  (root.children.find? (settingsSel "specialize").picks).getD (.element (settingsTag "specialize") [])

/-- `Add-PVEAutopilotSpecializeUnattend` on the document that is there, if one is. -/
def addSpecializeUnattend (xpath : XPath) (folds : Char → Bool) (random : String) (package : Package)
    (existing : Option Node) : Except StageError Node :=
  let root := existing.getD emptyRoot
  match root.tag? with
  | none => .error .notUnattend
  | some tag =>
    if tag.name ≠ "unattend" then .error .notUnattend
    else if tag.ns = "" then .error .noNamespace
    else
      (specializeSettings folds package (specializeOf root)).bind fun settings =>
        (oobeSystemSlots xpath random package).map fun slots =>
          .element (tag.set wcmDeclaration)
            ((oobeSystemSlot slots).put (place (settingsSel "specialize").picks settings root.children))

end ProxmoxVEAutopilot.CloudOsd.Unattend
