import ProxmoxVEAutopilot.Migration.Phases

/-!
# Rows that are newer here than in the legacy databases

Each table's import writes the legacy timestamp over the one that is there, so a row with a
later one does not stay as it is.
-/

namespace ProxmoxVEAutopilot.Migration

open Foundation Sequences
set_option autoImplicit false

section Later
variable {α ρ κ : Type} [DecidableEq κ]

/-- There are legacy rows with the key of the row, and it is later than each of them. -/
def Later (key : ρ → κ) (source : α → κ) (time : ρ → Int) (legacyTime : α → Option Int) (legacy : List α)
    (row : ρ) : Prop :=
  (∃ l ∈ legacy, source l = key row) ∧ ∀ l ∈ legacy, source l = key row → ∃ t ∈ legacyTime l, t < time row

variable {key : ρ → κ} {source : α → κ} {merge : α → ρ → ρ} {time : ρ → Int} {legacyTime : α → Option Int}
  {legacy : List α} {row r : ρ} {rows rows' fresh : List ρ}

theorem merged_lt (hlater : Later key source time legacyTime legacy row)
    (hsets : ∀ l t, legacyTime l = some t → ∀ r, time (merge l r) = t) (hkey : key r = key row) :
    time (mergedRow key source merge legacy r) < time row := by
  obtain ⟨hsome, hall⟩ := hlater
  rw [← hkey] at hsome hall
  have hvalue : ∀ l ∈ legacy, source l = key r → ∀ r, time (merge l r) = (legacyTime l).getD 0 := by
    intro l hl hsource r
    obtain ⟨t, ht, _⟩ := hall l hl hsource
    rw [hsets l t ht, ht]
    rfl
  obtain ⟨l, hl, hsource, heq⟩ := mergedRow_sets time hsome hvalue
  obtain ⟨t, ht, hlt⟩ := hall l hl hsource
  rw [heq, ht]
  exact hlt

theorem overwritten (hkeep : ∀ l r, key (merge l r) = key r)
    (htakes : TakesOver key source merge rows legacy rows' fresh) (hlater : Later key source time legacyTime legacy row)
    (hsets : ∀ l t, legacyTime l = some t → ∀ r, time (merge l r) = t) : row ∉ rows' := by
  rw [htakes.eq_map hkeep]
  intro hmem
  obtain ⟨r, _, rfl⟩ := List.mem_map.mp hmem
  exact Int.lt_irrefl _ (merged_lt hlater hsets (mergedRow_kept key hkeep).symm)

variable {m : Importer α ρ} {st : Importing ρ}

theorem import_overwritten (hlaw : m.Lawful) (htable : m.Table rows) (h : importRows m rows legacy = .ok st)
    (hrow : row ∈ rows) (hlater : Later m.rowName m.name time legacyTime legacy row)
    (hsets : ∀ l t, legacyTime l = some t → ∀ r, time (m.update l r) = t) : row ∉ st.rows := by
  obtain ⟨tagged, fresh, himports⟩ := importRows_ok hlaw htable h
  intro hmem
  rw [himports.rows, himports.takes.eq_map mergeTagged_key, List.map_map] at hmem
  obtain ⟨t, ht, heq⟩ := List.mem_map.mp hmem
  dsimp only [Function.comp_apply] at heq
  rcases List.mem_append.mp ht with hold | hnew
  · obtain ⟨r, _, rfl⟩ := List.mem_map.mp hold
    have hname : m.rowName (mergedRow Prod.fst m.name m.mergeTagged legacy (m.rowName r, r)).2 = m.rowName r :=
      mergedRow_kept (fun t : String × ρ => m.rowName t.2) fun l t => hlaw.rowName_update l t.2
    rw [heq] at hname
    have htagged : Later Prod.fst m.name (fun t : String × ρ => time t.2) legacyTime legacy (m.rowName row, row) :=
      hlater
    have hlt : time (mergedRow Prod.fst m.name m.mergeTagged legacy (m.rowName r, r)).2 < time row :=
      merged_lt htagged (fun l t ht r => hsets l t ht r.2) hname.symm
    rw [heq] at hlt
    exact Int.lt_irrefl _ hlt
  · have hid : m.id (mergedRow Prod.fst m.name m.mergeTagged legacy t).2 = m.id t.2 :=
      mergedRow_kept (fun t : String × ρ => m.id t.2) fun l t => hlaw.id_update l t.2
    have hids := himports.table.ids
    rw [himports.column hlaw.id_update] at hids
    refine (List.nodup_append.mp hids).2.2 (m.id row) (List.mem_map_of_mem hrow) (m.id t.2)
      (List.mem_map.mpr ⟨t, hnew, rfl⟩) ?_
    rw [← hid, heq]

end Later

theorem later_rewrapped {legacy legacy' : List LegacyCredential} {row : Credential}
    (hsame : List.Forall₂ SameButBlob legacy legacy')
    (h : Later Credential.name LegacyCredential.name Credential.updatedAt LegacyCredential.updatedAt legacy row) :
    Later Credential.name LegacyCredential.name Credential.updatedAt LegacyCredential.updatedAt legacy' row := by
  obtain ⟨⟨l, hl, hname⟩, hall⟩ := h
  constructor
  · obtain ⟨l', hl', blob, rfl⟩ := exists_right_of_forall₂ hsame hl
    exact ⟨_, hl', hname⟩
  · intro l' hl' hname'
    obtain ⟨l, hl, blob, rfl⟩ := exists_left_of_forall₂ hsame hl'
    exact hall l hl hname'

section Preserved
variable (legacy : Legacy) (db : Database)

/-- What holds of each row that is later than the legacy rows of its key. -/
structure EachNewer (credential : Credential → Prop) (sequence : Sequence → Prop) (vm : VmProvisioning → Prop)
    (settings : MonitoringSettings → Prop) (searchOu : SearchOu → Prop) : Prop where
  credentials : ∀ row ∈ db.credentials,
    Later Credential.name LegacyCredential.name Credential.updatedAt LegacyCredential.updatedAt legacy.credentials row →
      credential row
  sequences : ∀ row ∈ db.sequences,
    Later Sequence.name LegacySequence.name Sequence.updatedAt LegacySequence.updatedAt legacy.sequences row → sequence row
  vmProvisioning : ∀ row ∈ db.vmProvisioning,
    Later VmProvisioning.vmid LegacyVmProvisioning.vmid VmProvisioning.provisionedAt LegacyVmProvisioning.provisionedAt
      legacy.vmProvisioning row → vm row
  settings : ∀ row ∈ db.settings,
    Later (fun _ => ()) (fun _ => ()) MonitoringSettings.updatedAt LegacySettings.updatedAt legacy.settings.toList row →
      settings row
  searchOus : ∀ row ∈ db.searchOus,
    Later SearchOu.dn LegacySearchOu.dn SearchOu.updatedAt LegacySearchOu.updatedAt legacy.searchOus row → searchOu row

/-- The newer rows are there as they were, sequences with their steps. -/
def Preserved (out : Database) : Prop :=
  EachNewer legacy db (· ∈ out.credentials)
    (fun row => row ∈ out.sequences ∧ sequenceSteps out.toStore row.id = sequenceSteps db.toStore row.id)
    (· ∈ out.vmProvisioning) (out.settings = some ·) (· ∈ out.searchOus)

/-- No row is later than the legacy rows of its key. -/
def NothingNewer : Prop :=
  EachNewer legacy db (fun _ => False) (fun _ => False) (fun _ => False) (fun _ => False) fun _ => False

variable {legacy db} {options : Options} {now : Int} {out : Database} {parts : Parts}

theorem preserved_initialise : Preserved legacy db (initialise now db) where
  credentials := fun row hrow _ => hrow
  sequences := fun row hrow _ => ⟨hrow, rfl⟩
  vmProvisioning := fun row hrow _ => hrow
  settings := by
    intro row hrow _
    rw [Option.mem_def] at hrow
    unfold initialise
    rw [hrow]
    rfl
  searchOus := by
    intro row hrow _
    have hne : db.searchOus ≠ [] := List.ne_nil_of_mem hrow
    unfold initialise
    rw [if_neg hne]
    exact hrow

theorem nothingNewer_of_preserved (hdb : Constraints db) (h : Phases options legacy now (initialise now db) parts out)
    (hpreserved : Preserved legacy db out) : NothingNewer legacy db where
  credentials := by
    intro row hrow hlater
    obtain ⟨legacy', hsame, himported⟩ := migrateCredentials_ok h.credentials
    refine import_overwritten (credentialImporter_lawful now) hdb.credentialTable himported hrow
      (later_rewrapped hsame hlater) (fun l t ht r => ?_) (h.credentialRows ▸ hpreserved.credentials row hrow hlater)
    exact congrArg (fun time => time.getD r.updatedAt) ht
  sequences := by
    intro row hrow hlater
    refine import_overwritten (sequenceImporter_lawful now) hdb.sequenceTable h.sequences hrow hlater
      (fun l t ht r => ?_) (h.sequenceRows ▸ (hpreserved.sequences row hrow hlater).1)
    exact congrArg (fun time => time.getD r.updatedAt) ht
  vmProvisioning := by
    intro row hrow hlater
    obtain ⟨fresh, htakes⟩ := vms_takesOver now parts.sequences.idMap db.vmProvisioning legacy.vmProvisioning
    refine overwritten (writeVm_key now) htakes hlater (fun l t ht r => ?_)
      (h.vmProvisioning ▸ hpreserved.vmProvisioning row hrow hlater)
    exact congrArg (fun time => time.getD now) ht
  settings := by
    intro row hrow hlater
    have hkept := hpreserved.settings row hrow hlater
    obtain ⟨⟨l, hl, _⟩, hall⟩ := hlater
    obtain ⟨t, ht, hlt⟩ := hall l hl rfl
    have hset : (migrateSettings now parts.credentials.idMap legacy.settings row).updatedAt = t := by
      rw [Option.mem_toList.mp hl]
      exact congrArg (fun time => time.getD now) ht
    have hout := h.settings
    unfold initialise at hout
    dsimp only at hout
    rw [hkept, Option.mem_def.mp hrow] at hout
    have hsame : row = migrateSettings now parts.credentials.idMap legacy.settings row := Option.some.inj hout
    rw [← hsame] at hset
    omega
  searchOus := by
    intro row hrow hlater
    have hne : db.searchOus ≠ [] := List.ne_nil_of_mem hrow
    obtain ⟨fresh, htakes⟩ := searchOus_takesOver now db.searchOus legacy.searchOus
    have hout := h.searchOus
    unfold initialise at hout
    rw [if_neg hne] at hout
    refine overwritten (writeOu_key now) htakes hlater (fun l t ht r => ?_)
      (hout ▸ hpreserved.searchOus row hrow hlater)
    exact congrArg (fun time => time.getD now) ht

/-- A migration that goes through writes over every newer row. -/
theorem preserved_iff (hdb : Constraints db) : Preserved legacy db (migrate options legacy now db) ↔
    (Completes options legacy now db → NothingNewer legacy db) := by
  unfold Completes migrate
  cases htx : migrateTx options legacy now (initialise now db) with
  | error e => exact ⟨fun _ ⟨out, hout⟩ => absurd hout (by simp), fun _ => preserved_initialise⟩
  | ok out =>
    obtain ⟨parts, hphases, _⟩ := migrateTx_ok htx
    constructor
    · exact fun hpreserved _ => nothingNewer_of_preserved hdb hphases hpreserved
    · intro hnothing
      have hnone := hnothing ⟨out, rfl⟩
      exact
        { credentials := fun row hrow hlater => (hnone.credentials row hrow hlater).elim
          sequences := fun row hrow hlater => (hnone.sequences row hrow hlater).elim
          vmProvisioning := fun row hrow hlater => (hnone.vmProvisioning row hrow hlater).elim
          settings := fun row hrow hlater => (hnone.settings row hrow hlater).elim
          searchOus := fun row hrow hlater => (hnone.searchOus row hrow hlater).elim }

def oldCredential : Legacy where
  credentials := [⟨1, "domain", some "domain_join", "old", some 1, some 2⟩]

def newerCredential : Database where
  credentials := [⟨1, "domain", "domain_join", "new", 1, 9⟩]

/-- The blob that was set at 9 is replaced by the legacy one of 2. -/
theorem newer_credential_overwritten : ¬ Preserved oldCredential newerCredential
    (migrate {} oldCredential 20 newerCredential) := by
  intro h
  have hlater : Later Credential.name LegacyCredential.name Credential.updatedAt LegacyCredential.updatedAt
      oldCredential.credentials ⟨1, "domain", "domain_join", "new", 1, 9⟩ := by
    simp [Later, oldCredential]
  have hkept := h.credentials _ (by decide) hlater
  have hrows : (migrate {} oldCredential 20 newerCredential).credentials =
      [⟨1, "domain", "domain_join", "old", 1, 2⟩] := by decide +kernel
  rw [hrows] at hkept
  revert hkept
  decide

def olderCredential : Database where
  credentials := [⟨1, "domain", "domain_join", "older", 1, 1⟩]

theorem older_credential_preserved : Preserved oldCredential olderCredential
    (migrate {} oldCredential 20 olderCredential) :=
  (preserved_iff ⟨⟨by decide, by decide, by decide⟩, ⟨by decide, by decide, by decide⟩, by decide⟩).mpr fun _ =>
    { credentials := by simp [Later, oldCredential, olderCredential], sequences := by simp [olderCredential]
      vmProvisioning := by simp [olderCredential], settings := by simp [olderCredential]
      searchOus := by simp [olderCredential] }

end Preserved

end ProxmoxVEAutopilot.Migration
