import ProxmoxVEAutopilot.Foundation.Dotted
import ProxmoxVEAutopilot.Foundation.Text

/-!
# Artifacts of the build hosts and the agent release

The registry is a list of rows, one for each artifact. An agent release is an `agent-msi` whose
file is there and begins as an installer does.
-/

namespace ProxmoxVEAutopilot.Setup

open Foundation
set_option autoImplicit false

section Registry

structure Artifact where
  artifactId : String
  kind : String
  filename : String
  path : String
  sizeBytes : Nat
  sha256 : String
  /-- What `str` makes of the values that are truthy. -/
  metadata : List (String × String)
  producerAgentId : String
  workItemId : String
  createdAt : String
  proxmoxVolid : Option String := none
  promotedAt : Option String := none
deriving DecidableEq

/-- What a file holds. -/
abbrev Bytes := List UInt8

/-- The files of the controller by their paths. -/
abbrev Files := String → Option Bytes

/-- `list_artifacts(kind=kind)`, the last registered first. -/
def listArtifacts (registry : List Artifact) (kind : String) : List Artifact :=
  (registry.filter fun row => row.kind = kind).insertionSort fun a b => b.createdAt ≤ a.createdAt

def markPromoted (registry : List Artifact) (artifactId volid now : String) : List Artifact :=
  match registry with
  | [] => []
  | row :: rest =>
    if row.artifactId = artifactId then { row with proxmoxVolid := some volid, promotedAt := some now } :: rest
    else row :: markPromoted rest artifactId volid now

end Registry

section Version

/-- `\d+` at the beginning of a text. -/
def number (cs : List Char) : Option (List Char × List Char) :=
  match cs.span fun c => (decimal? c).isSome with
  | ([], _) => none
  | (ds, rest) => some (ds, rest)

/-- `\d+\.\d+\.\d+` at the beginning of a text. -/
def threeNumbers (cs : List Char) : Option (List (List Char) × List Char) :=
  match number cs with
  | some (major, '.' :: cs) =>
    match number cs with
    | some (minor, '.' :: cs) => (number cs).map fun (patch, rest) => ([major, minor, patch], rest)
    | _ => none
  | _ => none

/-- The end of a release's file name, `-win-(?:x64|arm64)(?:-\d+)?\.msi$`. -/
def isReleaseEnd (cs : List Char) : Bool :=
  let afterRid := (cs.dropPrefix? "-win-x64".toList).or (cs.dropPrefix? "-win-arm64".toList)
  let afterCount := afterRid.bind fun rest => match rest with
    | '-' :: rest => (number rest).map Prod.snd
    | rest => some rest
  afterCount = some ".msi".toList || afterCount = some ".msi\n".toList

/-- `_agent_release_rid` -/
def Artifact.rid (row : Artifact) : String :=
  let value := strip ((orElse (row.metadata.lookup "rid") (row.metadata.lookup "runtime_identifier")).getD "")
  if value ≠ "" then value
  else if "arm64".toList <:+: (lower row.filename).toList then "win-arm64"
  else "win-x64"

/-- `_agent_release_version` -/
def Artifact.version (row : Artifact) : String :=
  let value := strip ((orElse (row.metadata.lookup "version") (row.metadata.lookup "agent_version")).getD "")
  if value ≠ "" then value
  else
    match row.filename.toList.dropPrefix? "AutopilotAgent-".toList with
    | none => ""
    | some remainder =>
      match threeNumbers remainder with
      | some (numbers, rest) =>
        if isReleaseEnd rest then String.ofList (List.intercalate ['.'] numbers) else ""
      | none => ""

/-- `_agent_release_version_key`, none where it raises. -/
def versionKey (value : String) : Option (List Nat) :=
  match threeNumbers (strip value).toList with
  | some (numbers, []) => numbers.mapM intOfDigits
  | _ => some []

end Version

section Release

def looksLikeMsi (file : Bytes) (sizeBytes : Nat) : Bool :=
  1024 ≤ sizeBytes && ([0x4D, 0x5A].isPrefixOf file || file.take 8 = [0xD0, 0xCF, 0x11, 0xE0, 0xA1, 0xB1, 0x1A, 0xE1])

structure Release where
  artifact : Artifact
  runtimeIdentifier : String
  version : String
  sizeBytes : Nat
  sha256 : String
deriving DecidableEq

variable (digest : Bytes → String) (files : Files)

def Artifact.release (row : Artifact) (rid : String) : Option Release :=
  (files row.path).bind fun file =>
    let sizeBytes := if row.sizeBytes ≠ 0 then row.sizeBytes else file.length
    if looksLikeMsi file sizeBytes ∧ row.rid = rid then
      some ⟨row, rid, row.version, sizeBytes, if row.sha256 ≠ "" then row.sha256 else digest file⟩
    else none

def candidates (registry : List Artifact) (rid : String) : List Release :=
  (listArtifacts registry "agent-msi").filterMap fun row => row.release digest files rid

def Release.key (release : Release) : List Nat := (versionKey release.version).getD []

/-- What the latest release has the most of. -/
def Release.rank (release : Release) : Lex (List Nat × String) := toLex (release.key, release.artifact.createdAt)

/-- `latest_agent_release`, none where it raises. -/
def latestAgentRelease (registry : List Artifact) (rid : String) : Option (Option Release) :=
  let candidates := candidates digest files registry rid
  if candidates.all fun release => (versionKey release.version).isSome then some (candidates.argmax Release.rank)
  else none

end Release

end ProxmoxVEAutopilot.Setup
