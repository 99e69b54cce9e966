import ProxmoxVEAutopilot.Migration.Migrate

/-!
# The parts of a migration

What a migration that goes through has made of each table, and the rules that the tables'
own importers keep.
-/

namespace ProxmoxVEAutopilot.Migration

open Foundation Sequences
set_option autoImplicit false

section Importers
variable (now : Int)

theorem getD_getD (time : Option Int) : time.getD (time.getD now) = time.getD now := by
  cases time with
  | none => rfl
  | some _ => rfl

theorem credentialImporter_lawful : (credentialImporter now).Lawful where
  id_update := fun _ _ => rfl
  rowName_update := fun _ _ => rfl
  id_insert := fun _ _ => rfl
  rowName_insert := fun _ _ => rfl
  update_insert := by
    intro i l
    unfold credentialImporter
    dsimp only
    rw [getD_getD]
  newName := fun _ h => if_neg h
  newName_ne := by
    intro l
    unfold credentialImporter
    dsimp only
    split
    · exact fun h => absurd (congrArg String.length h) (by simp [String.length_append])
    · assumption

theorem sequenceImporter_lawful : (sequenceImporter now).Lawful where
  id_update := fun _ _ => rfl
  rowName_update := fun _ _ => rfl
  id_insert := fun _ _ => rfl
  rowName_insert := fun _ _ => rfl
  update_insert := by
    intro i l
    unfold sequenceImporter
    dsimp only
    rw [getD_getD]
  newName := fun _ h => if_neg h
  newName_ne := by
    intro l
    unfold sequenceImporter
    dsimp only
    split
    · exact fun h => absurd (congrArg String.length h) (by simp [String.length_append])
    · assumption

theorem writeStep_key (new old : Step) : stepKey (writeStep new old) = stepKey old := rfl

theorem writeStep_self (step : Step) : writeStep step step = step := rfl

theorem writeVm_key {sequenceMap : List (Int × Int)} (l : LegacyVmProvisioning) (row : VmProvisioning) :
    (writeVm now sequenceMap l row).vmid = row.vmid := rfl

theorem writeOu_key (l : LegacySearchOu) (row : SearchOu) : (writeOu now l row).dn = row.dn := rfl

theorem writeIso_key (l : LegacyAnswerIso) (row : AnswerIso) : (writeIso now l row).hash = row.hash := rfl

end Importers

section Tables
variable (now : Int)

/-- The constraints of the tables that ids and references rest on. -/
structure Constraints (db : Database) : Prop where
  credentials : (credentialImporter 0).Table db.credentials
  sequences : (sequenceImporter 0).Table db.sequences
  steps : ∀ step ∈ db.steps, step.sequenceId ∈ db.sequences.map Sequence.id

theorem Constraints.credentialTable {now : Int} {db : Database} (h : Constraints db) :
    (credentialImporter now).Table db.credentials := ⟨h.credentials.ids, h.credentials.names, h.credentials.positive⟩

theorem Constraints.sequenceTable {now : Int} {db : Database} (h : Constraints db) :
    (sequenceImporter now).Table db.sequences := ⟨h.sequences.ids, h.sequences.names, h.sequences.positive⟩

theorem Constraints.initialised {now : Int} {db : Database} (h : Constraints db) : Constraints (initialise now db) :=
  ⟨h.credentials, h.sequences, h.steps⟩

theorem steps_takesOver (rows writes : List Step) : ∃ fresh, TakesOver stepKey stepKey writeStep rows writes
    (writes.foldl (fun steps new => Table.upsert stepKey steps new (writeStep new)) rows) fresh :=
  TakesOver.of_upserts (fun _ => rfl) writeStep_self

theorem vms_takesOver (sequenceMap : List (Int × Int)) (rows : List VmProvisioning) (legacy : List LegacyVmProvisioning) :
    ∃ fresh, TakesOver VmProvisioning.vmid LegacyVmProvisioning.vmid (writeVm now sequenceMap) rows legacy
      (migrateVmProvisioning now sequenceMap rows legacy) fresh :=
  TakesOver.of_upserts (fun _ => rfl) fun _ => rfl

theorem searchOus_takesOver (rows : List SearchOu) (legacy : List LegacySearchOu) :
    ∃ fresh, TakesOver SearchOu.dn LegacySearchOu.dn (writeOu now) rows legacy
      (migrateSearchOus now rows legacy) fresh :=
  TakesOver.of_upserts (fun _ => rfl) fun _ => rfl

variable {now}

theorem migrateIsos_ok {legacy : List LegacyAnswerIso} : ∀ {rows rows' : List AnswerIso},
    migrateIsos now rows legacy = .ok rows' →
    rows' = legacy.foldl (fun rows l => Table.upsert AnswerIso.hash rows (isoRow now l) (writeIso now l)) rows := by
  induction legacy with
  | nil =>
    intro rows rows' h
    cases h
    rfl
  | cons l legacy ih =>
    intro rows rows' h
    unfold migrateIsos at h
    rw [List.foldlM_cons] at h
    obtain ⟨mid, hrow, hrest⟩ := bind_ok.mp h
    unfold migrateIso at hrow
    split at hrow
    · cases hrow
    · cases hrow
      exact ih hrest

theorem isos_takesOver {rows rows' : List AnswerIso} {legacy : List LegacyAnswerIso}
    (h : migrateIsos now rows legacy = .ok rows') :
    ∃ fresh, TakesOver AnswerIso.hash LegacyAnswerIso.hash (writeIso now) rows legacy rows' fresh := by
  rw [migrateIsos_ok h]
  exact TakesOver.of_upserts (fun _ => rfl) fun _ => rfl

end Tables

section Rewrapped
variable {now : Int} {rewrap : Rewrap} {rows : List Credential} {legacy : List LegacyCredential}
  {st : Importing Credential}

def SameButBlob (l l' : LegacyCredential) : Prop := ∃ blob, l' = { l with encryptedBlob := blob }

theorem migrateCredentials_ok (h : migrateCredentials now rewrap rows legacy = .ok st) : ∃ legacy',
    List.Forall₂ SameButBlob legacy legacy' ∧ importRows (credentialImporter now) rows legacy' = .ok st := by
  obtain ⟨legacy', hrewrapped, himported⟩ := bind_ok.mp h
  refine ⟨legacy', (mapM_ok_forall₂ hrewrapped).imp fun l l' hl => ?_, himported⟩
  unfold rewrapRow at hl
  cases rewrap with
  | none =>
    cases hl
    exact ⟨l.encryptedBlob, rfl⟩
  | some rewrap =>
    obtain ⟨blob, _, hblob⟩ := map_ok.mp hl
    exact ⟨blob, hblob.symm⟩

end Rewrapped

section Parts

/-- What the loops with a map of ids end with. -/
structure Parts where
  credentials : Importing Credential
  sequences : Importing Sequence
  runs : Appending ProvisioningRun

/-- The migration goes through and leaves `out`. -/
structure Phases (options : Options) (legacy : Legacy) (now : Int) (db : Database) (parts : Parts)
    (out : Database) : Prop where
  credentials : migrateCredentials now options.rewrap db.credentials legacy.credentials = .ok parts.credentials
  sequences : importRows (sequenceImporter now) db.sequences legacy.sequences = .ok parts.sequences
  runs : appendRows (runAppender now parts.sequences.idMap) db.runs legacy.runs = .ok parts.runs
  credentialRows : out.credentials = parts.credentials.rows
  sequenceRows : out.sequences = parts.sequences.rows
  steps : out.steps = (stepWrites parts.sequences.idMap parts.credentials.idMap legacy.steps).foldl
    (fun steps new => Table.upsert stepKey steps new (writeStep new))
    (db.steps.filter fun step => step.sequenceId ∉ parts.sequences.updated)
  vmProvisioning : out.vmProvisioning =
    migrateVmProvisioning now parts.sequences.idMap db.vmProvisioning legacy.vmProvisioning
  answerIsos : migrateIsos now db.answerIsos legacy.answerIsos = .ok out.answerIsos
  runRows : out.runs = parts.runs.rows
  runSteps : out.runSteps =
    (runStepWrites parts.credentials.idMap parts.runs.idMap parts.runs.newIds legacy.runSteps).foldl addRunStep db.runSteps
  settings : out.settings = db.settings.map (migrateSettings now parts.credentials.idMap legacy.settings)
  searchOus : out.searchOus = migrateSearchOus now db.searchOus legacy.searchOus
  history : options.includeHistory = true →
    ∃ sweeps, appendRows (sweepAppender now) db.sweeps legacy.sweeps = .ok sweeps ∧ out.sweeps = sweeps.rows ∧
      out.snapshots = db.snapshots ++ findingRows now sweeps.idMap sweeps.newIds legacy.snapshots ∧
      out.probes = db.probes ++ findingRows now sweeps.idMap sweeps.newIds legacy.probes
  noHistory : options.includeHistory = false →
    out.sweeps = db.sweeps ∧ out.snapshots = db.snapshots ∧ out.probes = db.probes
  deletions : ∃ deletions, appendRows (deletionAppender now) db.deletions legacy.deletions = .ok deletions ∧
    out.deletions = deletions.rows

/-- The migration is not rolled back. -/
def Completes (options : Options) (legacy : Legacy) (now : Int) (db : Database) : Prop :=
  ∃ out, migrateTx options legacy now (initialise now db) = .ok out

variable {options : Options} {legacy : Legacy} {now : Int} {db : Database} {out : Migrated}

theorem migrateTx_ok (h : migrateTx options legacy now db = .ok out) : ∃ parts,
    Phases options legacy now db parts out.database ∧ out.credentialMap = parts.credentials.idMap ∧
      out.sequenceMap = parts.sequences.idMap ∧ out.runMap = parts.runs.idMap ∧ out.newRuns = parts.runs.newIds := by
  unfold migrateTx at h
  obtain ⟨credentials, hcredentials, h⟩ := bind_ok.mp h
  obtain ⟨⟨sequences, steps⟩, hsequences, h⟩ := bind_ok.mp h
  obtain ⟨isos, hisos, h⟩ := bind_ok.mp h
  obtain ⟨runs, hruns, h⟩ := bind_ok.mp h
  unfold migrateSequences at hsequences
  obtain ⟨_, himported, hpair⟩ := map_ok.mp hsequences
  cases hpair
  cases hhistory : options.includeHistory with
  | true =>
    rw [hhistory] at h
    obtain ⟨monitored, hmonitored, h⟩ := bind_ok.mp h
    obtain ⟨deletions, hdeletions, h⟩ := bind_ok.mp h
    unfold migrateHistory at hmonitored
    obtain ⟨sweeps, hsweeps, rfl⟩ := map_ok.mp hmonitored
    cases h
    refine ⟨⟨credentials, sequences, runs⟩, ?_, rfl, rfl, rfl, rfl⟩
    exact
      { credentials := hcredentials, sequences := himported, runs := hruns, answerIsos := hisos
        credentialRows := rfl, sequenceRows := rfl, steps := rfl, vmProvisioning := rfl, runRows := rfl
        runSteps := rfl, settings := rfl, searchOus := rfl
        history := fun _ => ⟨sweeps, hsweeps, rfl, rfl, rfl⟩
        noHistory := fun hnone => absurd (hhistory.symm.trans hnone) (by decide)
        deletions := ⟨deletions, hdeletions, rfl⟩ }
  | false =>
    rw [hhistory] at h
    obtain ⟨deletions, hdeletions, h⟩ := bind_ok.mp h
    cases h
    refine ⟨⟨credentials, sequences, runs⟩, ?_, rfl, rfl, rfl, rfl⟩
    exact
      { credentials := hcredentials, sequences := himported, runs := hruns, answerIsos := hisos
        credentialRows := rfl, sequenceRows := rfl, steps := rfl, vmProvisioning := rfl, runRows := rfl
        runSteps := rfl, settings := rfl, searchOus := rfl
        history := fun hsome => absurd (hhistory.symm.trans hsome) (by decide)
        noHistory := fun _ => ⟨rfl, rfl, rfl⟩
        deletions := ⟨deletions, hdeletions, rfl⟩ }

end Parts

end ProxmoxVEAutopilot.Migration
