import ProxmoxVEAutopilot.Migration.Legacy
import ProxmoxVEAutopilot.Migration.NaturalKeys

/-!
# The migration from SQLite

`migrate` is one transaction after the tables have been initialised: one that raises leaves
the initialised tables. `now` is the clock, which is read only where a timestamp is missing.
The ids that the maps give are those of rows, so no foreign key is violated. Rows without an
id here have a surrogate one that the script leaves to the server.
-/

namespace ProxmoxVEAutopilot.Migration

open Foundation Sequences
set_option autoImplicit false

section Database

/-- The row of `monitoring_settings`. -/
structure MonitoringSettings where
  enabled : Bool
  intervalSeconds : Int
  adCredentialId : Int
  updatedAt : Int
deriving DecidableEq

structure SearchOu where
  dn : String
  label : String
  enabled : Bool
  sortOrder : Int
  createdAt : Int
  updatedAt : Int
deriving DecidableEq

/-- A row of `monitoring_sweeps`. -/
structure Sweep where
  id : Int
  startedAt : Int
  endedAt : Option Int
  vmCount : Int
  errors : Json
deriving DecidableEq

/-- A row of `pve_snapshots` or `device_probes`. -/
structure Finding where
  sweepId : Int
  checkedAt : Int
  vmid : Int
  columns : List (String × Json)
deriving DecidableEq

structure Deletion where
  id : Int
  deletedAt : Int
  source : String
  objectId : String
  serial : Option String
  displayName : Option String
  status : String
  message : Option String
deriving DecidableEq

structure Database extends Store where
  settings : Option MonitoringSettings := none
  searchOus : List SearchOu := []
  sweeps : List Sweep := []
  snapshots : List Finding := []
  probes : List Finding := []
  deletions : List Deletion := []
deriving DecidableEq

def defaultOu (now : Int) : SearchOu :=
  ⟨"OU=WorkspaceLabs,DC=home,DC=gell,DC=one", "WorkspaceLabs", true, 0, now, now⟩

/-- `device_history_pg.init`; the other tables' `init` adds no row. -/
def initialise (now : Int) (db : Database) : Database :=
  { db with
    settings := some (db.settings.getD ⟨true, 900, 0, now⟩)
    searchOus := if db.searchOus = [] then [defaultOu now] else db.searchOus }

end Database

section Credentials
variable (now : Int)

/-- How credential blobs go from the legacy key to the target key, if they do. -/
abbrev Rewrap := Option (String → Except StoreError String)

def rewrapRow (rewrap : Rewrap) (l : LegacyCredential) : Except StoreError LegacyCredential :=
  match rewrap with
  | none => .ok l
  | some rewrap => (rewrap l.encryptedBlob).map fun blob => { l with encryptedBlob := blob }

def credentialImporter : Importer LegacyCredential Credential where
  legacyId := LegacyCredential.id
  name := LegacyCredential.name
  newName l := if l.name = "" then "legacy-" ++ toString l.id else l.name
  id := Credential.id
  rowName := Credential.name
  update l row :=
    { row with
      type := orText l.type "local_admin"
      encryptedBlob := l.encryptedBlob
      updatedAt := l.updatedAt.getD row.updatedAt }
  insert newId l :=
    { id := newId
      name := if l.name = "" then "legacy-" ++ toString l.id else l.name
      type := orText l.type "local_admin"
      encryptedBlob := l.encryptedBlob
      createdAt := l.createdAt.getD now
      updatedAt := l.updatedAt.getD now }
  allowed _ := true
  nameConstraint := "credentials_name_key"
  checkConstraint := ""

/-- `_migrate_credentials`; the blobs are rewrapped ahead of the loop. -/
def migrateCredentials (rewrap : Rewrap) (rows : List Credential) (legacy : List LegacyCredential) :
    Except StoreError (Importing Credential) :=
  (legacy.mapM (rewrapRow rewrap)).bind fun legacy => importRows (credentialImporter now) rows legacy

end Credentials

section Sequences
variable (now : Int)

def sequenceImporter : Importer LegacySequence Sequence where
  legacyId := LegacySequence.id
  name := LegacySequence.name
  newName l := if l.name = "" then "legacy-sequence-" ++ toString l.id else l.name
  id := Sequence.id
  rowName := Sequence.name
  update l row :=
    { row with
      description := l.description.getD ""
      isDefault := l.isDefault
      producesAutopilotHash := l.producesAutopilotHash
      targetOs := orText l.targetOs "windows"
      hashCapturePhase := orText l.hashCapturePhase "oobe"
      updatedAt := l.updatedAt.getD row.updatedAt }
  insert newId l :=
    { id := newId
      name := if l.name = "" then "legacy-sequence-" ++ toString l.id else l.name
      description := l.description.getD ""
      isDefault := l.isDefault
      producesAutopilotHash := l.producesAutopilotHash
      targetOs := orText l.targetOs "windows"
      hashCapturePhase := orText l.hashCapturePhase "oobe"
      createdAt := l.createdAt.getD now
      updatedAt := l.updatedAt.getD now }
  allowed l := orText l.hashCapturePhase "oobe" ∈ phases
  nameConstraint := "task_sequences_name_key"
  checkConstraint := "task_sequences_hash_capture_phase_check"

/-- An id that a map gives, unless it is zero. -/
def mapped (idMap : List (Int × Int)) (oldId : Int) : Option Int := (idMap.lookup oldId).filter (· ≠ 0)

def stepBefore (a b : LegacyStep) : Prop :=
  a.sequenceId < b.sequenceId ∨ (a.sequenceId = b.sequenceId ∧ a.orderIndex ≤ b.orderIndex)

instance : DecidableRel stepBefore := fun _ _ => inferInstanceAs (Decidable (_ ∨ _))

/-- The rows that the legacy steps are written as, in their order. -/
def stepWrites (sequenceMap credentialMap : List (Int × Int)) (legacySteps : List LegacyStep) : List Step :=
  (legacySteps.insertionSort stepBefore).filterMap fun l =>
    (mapped sequenceMap l.sequenceId).map fun target =>
      ⟨target, l.orderIndex, l.stepType, remapRefs credentialMap l.params, l.enabled⟩

def stepKey (step : Step) : Int × Int := (step.sequenceId, step.orderIndex)

def writeStep (new old : Step) : Step :=
  { old with stepType := new.stepType, params := new.params, enabled := new.enabled }

/-- `_migrate_sequences`. The steps of the sequences that are updated are deleted in its first
loop, which writes none. -/
def migrateSequences (rows : List Sequence) (steps : List Step) (legacy : List LegacySequence)
    (legacySteps : List LegacyStep) (credentialMap : List (Int × Int)) :
    Except StoreError (Importing Sequence × List Step) :=
  (importRows (sequenceImporter now) rows legacy).map fun st =>
    (st, (stepWrites st.idMap credentialMap legacySteps).foldl
      (fun steps new => Table.upsert stepKey steps new (writeStep new))
      (steps.filter fun step => step.sequenceId ∉ st.updated))

end Sequences

section State
variable (now : Int) (sequenceMap credentialMap : List (Int × Int))

def vmRow (l : LegacyVmProvisioning) : VmProvisioning :=
  ⟨l.vmid, sequenceMap.lookup l.sequenceId, l.provisionedAt.getD now⟩

def writeVm (l : LegacyVmProvisioning) (row : VmProvisioning) : VmProvisioning :=
  { row with sequenceId := sequenceMap.lookup l.sequenceId, provisionedAt := l.provisionedAt.getD now }

def migrateVmProvisioning (rows : List VmProvisioning) (legacy : List LegacyVmProvisioning) : List VmProvisioning :=
  legacy.foldl (fun rows l =>
    Table.upsert VmProvisioning.vmid rows (vmRow now sequenceMap l) (writeVm now sequenceMap l)) rows

def isoRow (l : LegacyAnswerIso) : AnswerIso :=
  ⟨l.hash, l.shortHash, l.volid, l.compiledAt.getD now, l.lastUsedAt⟩

def writeIso (l : LegacyAnswerIso) (row : AnswerIso) : AnswerIso :=
  { row with
    shortHash := l.shortHash, volid := l.volid, compiledAt := l.compiledAt.getD now, lastUsedAt := l.lastUsedAt }

/-- The short hash is unique too. -/
def migrateIso (rows : List AnswerIso) (l : LegacyAnswerIso) : Except StoreError (List AnswerIso) :=
  if ∃ row ∈ rows, row.hash ≠ l.hash ∧ row.shortHash = l.shortHash then
    .error (.uniqueViolation "answer_iso_cache_short_hash_key")
  else .ok (Table.upsert AnswerIso.hash rows (isoRow now l) (writeIso now l))

def migrateIsos (rows : List AnswerIso) (legacy : List LegacyAnswerIso) : Except StoreError (List AnswerIso) :=
  legacy.foldlM (migrateIso now) rows

/-- `(vm_uuid or "").strip().lower() or None` -/
def LegacyRun.uuid (l : LegacyRun) : Option String := given (some (lower (strip (l.vmUuid.getD ""))))

def runAppender : Appender LegacyRun ProvisioningRun where
  legacyId := LegacyRun.id
  id := ProvisioningRun.id
  first l row := l.uuid.isSome ∧ some (lower (row.vmUuid.getD "")) = l.uuid ∧ row.startedAt = l.startedAt.getD now
  second l row := row.vmid = l.vmid ∧ row.startedAt = l.startedAt.getD now ∧ row.state = l.state.getD ""
  insert l := (mapped sequenceMap l.sequenceId).map fun target newId =>
    { id := newId
      vmid := l.vmid
      sequenceId := target
      provisionPath := orText l.provisionPath "winpe"
      state := orText l.state "unknown"
      vmUuid := l.uuid
      startedAt := l.startedAt.getD now
      finishedAt := l.finishedAt
      lastError := l.lastError }
  allowed l := orText l.provisionPath "winpe" ∈ ["clone", "winpe"]
  checkConstraint := "provisioning_runs_provision_path_check"

def runStepBefore (a b : LegacyRunStep) : Prop :=
  a.runId < b.runId ∨ (a.runId = b.runId ∧ a.orderIndex ≤ b.orderIndex)

instance : DecidableRel runStepBefore := fun _ _ => inferInstanceAs (Decidable (_ ∨ _))

def runStepRow (runId : Int) (l : LegacyRunStep) : RunStep :=
  ⟨runId, l.orderIndex, l.phase, l.kind, remapRefs credentialMap l.params, orText l.state "pending", l.startedAt,
    l.finishedAt, l.error⟩

/-- An id that a map gives, unless it is zero or that of a row that was there before. -/
def mappedNew (idMap : List (Int × Int)) (newIds : List Int) (oldId : Int) : Option Int :=
  (mapped idMap oldId).filter (· ∈ newIds)

/-- The steps of the runs that were inserted. -/
def runStepWrites (runMap : List (Int × Int)) (newRuns : List Int) (legacy : List LegacyRunStep) : List RunStep :=
  (legacy.insertionSort runStepBefore).filterMap fun l =>
    (mappedNew runMap newRuns l.runId).map fun runId => runStepRow credentialMap runId l

def runStepKey (step : RunStep) : Int × Int := (step.runId, step.orderIndex)

/-- `ON CONFLICT (run_id, order_index) DO NOTHING` -/
def addRunStep (rows : List RunStep) (new : RunStep) : List RunStep :=
  Table.upsert runStepKey rows new id

end State

section Monitor
variable (now : Int) (credentialMap : List (Int × Int))

def migrateSettings (legacy : Option LegacySettings) (row : MonitoringSettings) : MonitoringSettings :=
  match legacy with
  | none => row
  | some l =>
    { enabled := l.enabled
      intervalSeconds := if l.intervalSeconds = 0 then 900 else l.intervalSeconds
      adCredentialId := (credentialMap.lookup l.adCredentialId).getD l.adCredentialId
      updatedAt := l.updatedAt.getD now }

def ouRow (l : LegacySearchOu) : SearchOu :=
  ⟨l.dn, l.label, l.enabled, l.sortOrder, l.createdAt.getD now, l.updatedAt.getD now⟩

def writeOu (l : LegacySearchOu) (row : SearchOu) : SearchOu :=
  { row with label := l.label, enabled := l.enabled, sortOrder := l.sortOrder, updatedAt := l.updatedAt.getD now }

def migrateSearchOus (rows : List SearchOu) (legacy : List LegacySearchOu) : List SearchOu :=
  legacy.foldl (fun rows l => Table.upsert SearchOu.dn rows (ouRow now l) (writeOu now l)) rows

def sweepAppender : Appender LegacySweep Sweep where
  legacyId := LegacySweep.id
  id := Sweep.id
  first l row := row.startedAt = l.startedAt.getD now
  insert l := some fun newId => ⟨newId, l.startedAt.getD now, l.endedAt, l.vmCount, l.errors⟩

/-- The snapshots or the probes of the sweeps that were inserted. -/
def findingRows (sweepMap : List (Int × Int)) (newSweeps : List Int) (legacy : List LegacyFinding) : List Finding :=
  legacy.filterMap fun l => (mappedNew sweepMap newSweeps l.sweepId).map fun sweepId =>
    ⟨sweepId, l.checkedAt.getD now, l.vmid, l.columns⟩

def deletionAppender : Appender LegacyDeletion Deletion where
  legacyId := LegacyDeletion.id
  id := Deletion.id
  first l row := row.source = l.source ∧ row.objectId = l.objectId ∧ row.deletedAt = l.deletedAt.getD now
  insert l := some fun newId =>
    ⟨newId, l.deletedAt.getD now, l.source, l.objectId, l.serial, l.displayName, orText l.status "unknown", l.message⟩

/-- The history of sweeps, in `_migrate_device_monitor`. -/
def migrateHistory (legacy : Legacy) (db : Database) : Except StoreError Database :=
  (appendRows (sweepAppender now) db.sweeps legacy.sweeps).map fun sweeps =>
    { db with
      sweeps := sweeps.rows
      snapshots := db.snapshots ++ findingRows now sweeps.idMap sweeps.newIds legacy.snapshots
      probes := db.probes ++ findingRows now sweeps.idMap sweeps.newIds legacy.probes }

end Monitor

section Migrate

structure Options where
  includeHistory : Bool := true
  rewrap : Rewrap := none

/-- What the transaction leaves, and the maps it has made on the way. -/
structure Migrated where
  database : Database
  credentialMap : List (Int × Int)
  sequenceMap : List (Int × Int)
  runMap : List (Int × Int)
  newRuns : List Int

def migrateTx (options : Options) (legacy : Legacy) (now : Int) (db : Database) : Except StoreError Migrated := do
  let credentials ← migrateCredentials now options.rewrap db.credentials legacy.credentials
  let (sequences, steps) ← migrateSequences now db.sequences db.steps legacy.sequences legacy.steps credentials.idMap
  let answerIsos ← migrateIsos now db.answerIsos legacy.answerIsos
  let runs ← appendRows (runAppender now sequences.idMap) db.runs legacy.runs
  let migrated : Database := { db with
    credentials := credentials.rows
    sequences := sequences.rows
    steps := steps
    vmProvisioning := migrateVmProvisioning now sequences.idMap db.vmProvisioning legacy.vmProvisioning
    answerIsos := answerIsos
    runs := runs.rows
    runSteps := (runStepWrites credentials.idMap runs.idMap runs.newIds legacy.runSteps).foldl addRunStep db.runSteps
    settings := db.settings.map (migrateSettings now credentials.idMap legacy.settings)
    searchOus := migrateSearchOus now db.searchOus legacy.searchOus }
  let monitored ← if options.includeHistory then migrateHistory now legacy migrated else .ok migrated
  let deletions ← appendRows (deletionAppender now) monitored.deletions legacy.deletions
  .ok
    { database := { monitored with deletions := deletions.rows }
      credentialMap := credentials.idMap
      sequenceMap := sequences.idMap
      runMap := runs.idMap
      newRuns := runs.newIds }

def migrate (options : Options) (legacy : Legacy) (now : Int) (db : Database) : Database :=
  match migrateTx options legacy now (initialise now db) with
  | .ok migrated => migrated.database
  | .error _ => initialise now db

end Migrate

end ProxmoxVEAutopilot.Migration
