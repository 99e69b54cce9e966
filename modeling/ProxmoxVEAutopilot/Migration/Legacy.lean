import ProxmoxVEAutopilot.Foundation.Json
import ProxmoxVEAutopilot.Foundation.Text

/-!
# The legacy databases

The rows of the SQLite files as the script reads them: a flag is what `_bool` makes of its
cell, a timestamp what `_dt` does, a JSON cell what `_json` does, and an id or a number
behind `or 0` is zero where the cell is empty. The other columns are as they stand.
-/

namespace ProxmoxVEAutopilot.Migration

open Foundation
set_option autoImplicit false

structure LegacyCredential where
  id : Int
  name : String
  type : Option String
  encryptedBlob : String
  createdAt : Option Int
  updatedAt : Option Int

structure LegacySequence where
  id : Int
  name : String
  description : Option String
  isDefault : Bool
  producesAutopilotHash : Bool
  targetOs : Option String
  hashCapturePhase : Option String
  createdAt : Option Int
  updatedAt : Option Int

structure LegacyStep where
  sequenceId : Int
  orderIndex : Int
  stepType : String
  params : Json
  enabled : Bool

structure LegacyVmProvisioning where
  vmid : Int
  sequenceId : Int
  provisionedAt : Option Int

structure LegacyAnswerIso where
  hash : String
  shortHash : String
  volid : String
  compiledAt : Option Int
  lastUsedAt : Option Int

structure LegacyRun where
  id : Int
  vmid : Option Int
  sequenceId : Int
  provisionPath : Option String
  state : Option String
  vmUuid : Option String
  startedAt : Option Int
  finishedAt : Option Int
  lastError : Option String

structure LegacyRunStep where
  runId : Int
  orderIndex : Int
  phase : String
  kind : String
  params : Json
  state : Option String
  startedAt : Option Int
  finishedAt : Option Int
  error : Option String

structure LegacySettings where
  enabled : Bool
  intervalSeconds : Int
  adCredentialId : Int
  updatedAt : Option Int

structure LegacySearchOu where
  dn : String
  label : String
  enabled : Bool
  sortOrder : Int
  createdAt : Option Int
  updatedAt : Option Int

structure LegacySweep where
  id : Int
  startedAt : Option Int
  endedAt : Option Int
  vmCount : Int
  errors : Json

/-- A row of `pve_snapshots` or `device_probes`; `columns` are the other columns as the script
writes them. -/
structure LegacyFinding where
  sweepId : Int
  checkedAt : Option Int
  vmid : Int
  columns : List (String × Json)

structure LegacyDeletion where
  id : Int
  deletedAt : Option Int
  source : String
  objectId : String
  serial : Option String
  displayName : Option String
  status : Option String
  message : Option String

/-- A table that is missing is empty; of the settings the script reads the first row. -/
structure Legacy where
  credentials : List LegacyCredential := []
  sequences : List LegacySequence := []
  steps : List LegacyStep := []
  vmProvisioning : List LegacyVmProvisioning := []
  answerIsos : List LegacyAnswerIso := []
  runs : List LegacyRun := []
  runSteps : List LegacyRunStep := []
  settings : Option LegacySettings := none
  searchOus : List LegacySearchOu := []
  sweeps : List LegacySweep := []
  snapshots : List LegacyFinding := []
  probes : List LegacyFinding := []
  deletions : List LegacyDeletion := []

section References

/-- `value or fallback` -/
def orText (value : Option String) (fallback : String) : String := (given value).getD fallback

def credentialRefKeys : List String :=
  ["credential_id", "ad_credential_id", "domain_join_credential_id", "local_admin_credential_id",
    "mde_onboarding_credential_id"]

/-- What becomes of the value of a reference. -/
def remapRef (credentialMap : List (Int × Int)) (value : Json) : Json :=
  match pyInt value with
  | some old => .int ((credentialMap.lookup old).getD old)
  | none => value

mutual

/-- `_remap_credential_refs` -/
def remapRefs (credentialMap : List (Int × Int)) : Json → Json
  | .arr items => .arr (remapItems credentialMap items)
  | .obj fields => .obj (remapFields credentialMap fields)
  | value => value

def remapItems (credentialMap : List (Int × Int)) : List Json → List Json
  | [] => []
  | item :: rest => remapRefs credentialMap item :: remapItems credentialMap rest

def remapFields (credentialMap : List (Int × Int)) : List (String × Json) → List (String × Json)
  | [] => []
  | (key, item) :: rest =>
    (key, if key ∈ credentialRefKeys then remapRef credentialMap item else remapRefs credentialMap item) ::
      remapFields credentialMap rest

end

end References

end ProxmoxVEAutopilot.Migration
