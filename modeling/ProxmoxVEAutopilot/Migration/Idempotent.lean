import ProxmoxVEAutopilot.Migration.Phases

/-!
# Migrating twice

With every timestamp there the clock is not read, so a second migration reads the same legacy
rows and finds each of them where the first one put it.
-/

namespace ProxmoxVEAutopilot.Migration

open Foundation Sequences
set_option autoImplicit false

attribute [ext] Database

/-- Every timestamp that the script does not take for optional parses. -/
structure Parses (legacy : Legacy) : Prop where
  credentials : ∀ l ∈ legacy.credentials, l.createdAt.isSome ∧ l.updatedAt.isSome
  sequences : ∀ l ∈ legacy.sequences, l.createdAt.isSome ∧ l.updatedAt.isSome
  vmProvisioning : ∀ l ∈ legacy.vmProvisioning, l.provisionedAt.isSome
  answerIsos : ∀ l ∈ legacy.answerIsos, l.compiledAt.isSome
  runs : ∀ l ∈ legacy.runs, l.startedAt.isSome
  settings : ∀ l ∈ legacy.settings, l.updatedAt.isSome
  searchOus : ∀ l ∈ legacy.searchOus, l.createdAt.isSome ∧ l.updatedAt.isSome
  sweeps : ∀ l ∈ legacy.sweeps, l.startedAt.isSome
  snapshots : ∀ l ∈ legacy.snapshots, l.checkedAt.isSome
  probes : ∀ l ∈ legacy.probes, l.checkedAt.isSome
  deletions : ∀ l ∈ legacy.deletions, l.deletedAt.isSome

section Clock
variable (now now' : Int)

theorem getD_clock {time : Option Int} (h : time.isSome) : time.getD now = time.getD now' := by
  obtain ⟨t, rfl⟩ := Option.isSome_iff_exists.mp h
  rfl

theorem migrateCredentials_none {rows : List Credential} {legacy : List LegacyCredential} :
    migrateCredentials now none rows legacy = importRows (credentialImporter now) rows legacy := by
  have hsame : legacy.mapM (rewrapRow none) = .ok legacy := by
    induction legacy with
    | nil => rfl
    | cons l legacy ih =>
      rw [List.mapM_cons, ih]
      rfl
  unfold migrateCredentials
  rw [hsame]
  rfl

theorem migrateCredentials_clock {rows : List Credential} {legacy : List LegacyCredential}
    (h : ∀ l ∈ legacy, l.createdAt.isSome ∧ l.updatedAt.isSome) :
    importRows (credentialImporter now) rows legacy = importRows (credentialImporter now') rows legacy := by
  apply foldlM_congr
  intro st l hl
  obtain ⟨hcreated, hupdated⟩ := h l hl
  unfold importRow credentialImporter
  dsimp only
  rw [getD_clock now now' hcreated, getD_clock now now' hupdated]

theorem migrateSequences_clock {rows : List Sequence} {legacy : List LegacySequence}
    (h : ∀ l ∈ legacy, l.createdAt.isSome ∧ l.updatedAt.isSome) :
    importRows (sequenceImporter now) rows legacy = importRows (sequenceImporter now') rows legacy := by
  apply foldlM_congr
  intro st l hl
  obtain ⟨hcreated, hupdated⟩ := h l hl
  unfold importRow sequenceImporter
  dsimp only
  rw [getD_clock now now' hcreated, getD_clock now now' hupdated]

theorem migrateVmProvisioning_clock {sequenceMap : List (Int × Int)} {rows : List VmProvisioning}
    {legacy : List LegacyVmProvisioning} (h : ∀ l ∈ legacy, l.provisionedAt.isSome) :
    migrateVmProvisioning now sequenceMap rows legacy = migrateVmProvisioning now' sequenceMap rows legacy := by
  apply List.foldl_ext
  intro rows l hl
  unfold vmRow writeVm
  rw [getD_clock now now' (h l hl)]

theorem migrateIsos_clock {rows : List AnswerIso} {legacy : List LegacyAnswerIso}
    (h : ∀ l ∈ legacy, l.compiledAt.isSome) : migrateIsos now rows legacy = migrateIsos now' rows legacy := by
  apply foldlM_congr
  intro rows l hl
  unfold migrateIso isoRow writeIso
  rw [getD_clock now now' (h l hl)]

theorem migrateSearchOus_clock {rows : List SearchOu} {legacy : List LegacySearchOu}
    (h : ∀ l ∈ legacy, l.createdAt.isSome ∧ l.updatedAt.isSome) :
    migrateSearchOus now rows legacy = migrateSearchOus now' rows legacy := by
  apply List.foldl_ext
  intro rows l hl
  obtain ⟨hcreated, hupdated⟩ := h l hl
  unfold ouRow writeOu
  rw [getD_clock now now' hcreated, getD_clock now now' hupdated]

theorem migrateSettings_clock {credentialMap : List (Int × Int)} {legacy : Option LegacySettings}
    (h : ∀ l ∈ legacy, l.updatedAt.isSome) :
    migrateSettings now credentialMap legacy = migrateSettings now' credentialMap legacy := by
  funext row
  cases legacy with
  | none => rfl
  | some l =>
    unfold migrateSettings
    dsimp only
    rw [getD_clock now now' (h l rfl)]

theorem appendRows_congr {α ρ : Type} {a a' : Appender α ρ} {rows : List ρ} {legacy : List α}
    (hid : a.id = a'.id) (hlegacy : a.legacyId = a'.legacyId)
    (hrow : ∀ st, ∀ l ∈ legacy, appendRow a st l = appendRow a' st l) :
    appendRows a rows legacy = appendRows a' rows legacy := by
  unfold appendRows startAppend Appender.sorted
  rw [hid, hlegacy]
  apply foldlM_congr
  intro st l hl
  exact hrow st l ((List.mem_insertionSort _).mp hl)

theorem runs_clock {sequenceMap : List (Int × Int)} {rows : List ProvisioningRun} {legacy : List LegacyRun}
    (h : ∀ l ∈ legacy, l.startedAt.isSome) :
    appendRows (runAppender now sequenceMap) rows legacy = appendRows (runAppender now' sequenceMap) rows legacy := by
  refine appendRows_congr rfl rfl fun st l hl => ?_
  unfold appendRow Appender.existing runAppender
  dsimp only
  rw [getD_clock now now' (h l hl)]

theorem sweeps_clock {rows : List Sweep} {legacy : List LegacySweep} (h : ∀ l ∈ legacy, l.startedAt.isSome) :
    appendRows (sweepAppender now) rows legacy = appendRows (sweepAppender now') rows legacy := by
  refine appendRows_congr rfl rfl fun st l hl => ?_
  unfold appendRow Appender.existing sweepAppender
  dsimp only
  rw [getD_clock now now' (h l hl)]

theorem deletions_clock {rows : List Deletion} {legacy : List LegacyDeletion}
    (h : ∀ l ∈ legacy, l.deletedAt.isSome) :
    appendRows (deletionAppender now) rows legacy = appendRows (deletionAppender now') rows legacy := by
  refine appendRows_congr rfl rfl fun st l hl => ?_
  unfold appendRow Appender.existing deletionAppender
  dsimp only
  rw [getD_clock now now' (h l hl)]

theorem findingRows_clock {sweepMap : List (Int × Int)} {newSweeps : List Int} {legacy : List LegacyFinding}
    (h : ∀ l ∈ legacy, l.checkedAt.isSome) :
    findingRows now sweepMap newSweeps legacy = findingRows now' sweepMap newSweeps legacy := by
  apply List.filterMap_congr
  intro l hl
  rw [getD_clock now now' (h l hl)]

theorem migrateTx_clock {options : Options} {legacy : Legacy} {db : Database} (h : Parses legacy)
    (hrewrap : options.rewrap = none) : migrateTx options legacy now db = migrateTx options legacy now' db := by
  unfold migrateTx migrateHistory migrateSequences
  rw [hrewrap]
  simp only [migrateCredentials_none, migrateCredentials_clock now now' h.credentials,
    migrateSequences_clock now now' h.sequences, migrateIsos_clock now now' h.answerIsos,
    runs_clock now now' h.runs, migrateVmProvisioning_clock now now' h.vmProvisioning,
    migrateSettings_clock now now' h.settings, migrateSearchOus_clock now now' h.searchOus,
    sweeps_clock now now' h.sweeps, findingRows_clock now now' h.snapshots, findingRows_clock now now' h.probes,
    deletions_clock now now' h.deletions]

end Clock

section Again
variable {now : Int}

theorem credentials_absorb {legacy : List LegacyCredential} (h : ∀ l ∈ legacy, l.createdAt.isSome ∧ l.updatedAt.isSome) :
    Absorbs (credentialImporter now).update legacy := by
  intro x hx y _ r
  obtain ⟨time, htime⟩ := Option.isSome_iff_exists.mp (h x hx).2
  unfold credentialImporter
  dsimp only
  rw [htime]
  rfl

theorem sequences_absorb {legacy : List LegacySequence} (h : ∀ l ∈ legacy, l.createdAt.isSome ∧ l.updatedAt.isSome) :
    Absorbs (sequenceImporter now).update legacy := by
  intro x hx y _ r
  obtain ⟨time, htime⟩ := Option.isSome_iff_exists.mp (h x hx).2
  unfold sequenceImporter
  dsimp only
  rw [htime]
  rfl

theorem mem_of_mapped {idMap : List (Int × Int)} {oldId i : Int} (h : mapped idMap oldId = some i) :
    i ∈ idMap.map Prod.snd := by
  obtain ⟨front, back, rfl, _⟩ := List.lookup_eq_some_iff.mp (Option.filter_eq_some_iff.mp h).1
  simp

theorem mem_stepWrites {sequenceMap credentialMap : List (Int × Int)} {legacy : List LegacyStep} {w : Step}
    (hw : w ∈ stepWrites sequenceMap credentialMap legacy) : w.sequenceId ∈ sequenceMap.map Prod.snd := by
  obtain ⟨l, _, hl⟩ := List.mem_filterMap.mp hw
  obtain ⟨target, htarget, rfl⟩ := Option.map_eq_some_iff.mp hl
  exact mem_of_mapped htarget

/-- The second migration deletes the steps that the first one has written, and no others. -/
theorem steps_left {steps writes : List Step} {rowIds targets updated updated' : List Int}
    (hfk : ∀ step ∈ steps, step.sequenceId ∈ rowIds) (hwrites : ∀ w ∈ writes, w.sequenceId ∈ targets)
    (htargets : ∀ i ∈ targets, i ∈ updated ∨ i ∉ rowIds) (hupdated : ∀ i, i ∈ updated' ↔ i ∈ targets) :
    ((writes.foldl (fun steps new => Table.upsert stepKey steps new (writeStep new))
      (steps.filter fun step => step.sequenceId ∉ updated)).filter fun step => step.sequenceId ∉ updated') =
      steps.filter fun step => step.sequenceId ∉ updated := by
  obtain ⟨fresh, htakes⟩ := steps_takesOver (steps.filter fun step => step.sequenceId ∉ updated) writes
  have hbase : ∀ step ∈ steps.filter (fun step => step.sequenceId ∉ updated), step.sequenceId ∉ targets := by
    intro step hstep hmem
    obtain ⟨hin, hout⟩ := List.mem_filter.mp hstep
    rcases htargets _ hmem with hthere | hnot
    · exact of_decide_eq_true hout hthere
    · exact hnot (hfk step hin)
  have hkept : ∀ step ∈ steps.filter (fun step => step.sequenceId ∉ updated),
      mergedRow stepKey stepKey writeStep writes step = step := by
    intro step hstep
    refine mergedRow_of_absent fun w hw heq => hbase step hstep ?_
    have hid : w.sequenceId = step.sequenceId := congrArg Prod.fst heq
    exact hid ▸ hwrites w hw
  rw [htakes.eq_map writeStep_key, List.map_append, List.filter_append]
  have hold : (steps.filter fun step => step.sequenceId ∉ updated).map
      (mergedRow stepKey stepKey writeStep writes) = steps.filter fun step => step.sequenceId ∉ updated := by
    conv_rhs => rw [← List.map_id (steps.filter fun step => step.sequenceId ∉ updated)]
    exact List.map_congr_left hkept
  have hnew : ((fresh.map (mergedRow stepKey stepKey writeStep writes)).filter
      fun step => step.sequenceId ∉ updated') = [] := by
    rw [List.filter_eq_nil_iff]
    intro step hstep
    obtain ⟨r, hr, rfl⟩ := List.mem_map.mp hstep
    obtain ⟨⟨w, hw, hkey⟩, _⟩ := htakes.fresh_source writeStep_key r hr
    have hsame : stepKey (mergedRow stepKey stepKey writeStep writes r) = stepKey r :=
      mergedRow_kept stepKey writeStep_key
    have hid : (mergedRow stepKey stepKey writeStep writes r).sequenceId = w.sequenceId :=
      congrArg Prod.fst (hsame.trans hkey.symm)
    rw [hid]
    simpa using (hupdated _).mpr (hwrites w hw)
  rw [hold, hnew, List.append_nil, List.filter_eq_self]
  intro step hstep
  simpa using fun hmem => hbase step hstep ((hupdated _).mp hmem)

theorem run_found {sequenceMap : List (Int × Int)} {l : LegacyRun} (hstate : (given l.state).isSome) :
    (runAppender now sequenceMap).Finds l := by
  intro new i hinsert
  obtain ⟨target, _, rfl⟩ := Option.map_eq_some_iff.mp hinsert
  obtain ⟨state, hgiven⟩ := Option.isSome_iff_exists.mp hstate
  have hsame : l.state = some state := (Option.filter_eq_some_iff.mp hgiven).1
  refine .inr (decide_eq_true ⟨rfl, rfl, ?_⟩)
  unfold orText
  dsimp only
  rw [hgiven, hsame]
  rfl

theorem sweep_found {l : LegacySweep} : (sweepAppender now).Finds l := by
  intro new i hinsert
  cases hinsert
  exact .inl (decide_eq_true rfl)

theorem deletion_found {l : LegacyDeletion} : (deletionAppender now).Finds l := by
  intro new i hinsert
  cases hinsert
  exact .inl (decide_eq_true ⟨rfl, rfl, rfl⟩)

theorem runSteps_none {credentialMap runMap : List (Int × Int)} {legacy : List LegacyRunStep} :
    runStepWrites credentialMap runMap [] legacy = [] := by
  unfold runStepWrites mappedNew
  rw [List.filterMap_eq_nil_iff]
  intro l _
  simp

theorem findings_none {sweepMap : List (Int × Int)} {legacy : List LegacyFinding} :
    findingRows now sweepMap [] legacy = [] := by
  unfold findingRows mappedNew
  rw [List.filterMap_eq_nil_iff]
  intro l _
  simp

theorem settings_again {credentialMap : List (Int × Int)} {legacy : Option LegacySettings}
    {row : Option MonitoringSettings} : (row.map (migrateSettings now credentialMap legacy)).map
      (migrateSettings now credentialMap legacy) = row.map (migrateSettings now credentialMap legacy) := by
  rw [Option.map_map]
  congr 1
  funext settings
  cases legacy with
  | none => rfl
  | some _ => rfl

variable {options : Options} {legacy : Legacy} {db out out' : Database} {parts parts' : Parts}

theorem credentials_again (hparses : Parses legacy) (hrewrap : options.rewrap = none) (hdb : Constraints db)
    (h : Phases options legacy now db parts out) (h' : Phases options legacy now out parts' out') :
    out'.credentials = out.credentials ∧ parts'.credentials.idMap = parts.credentials.idMap := by
  have hfirst := h.credentials
  have hsecond := h'.credentials
  rw [hrewrap, migrateCredentials_none] at hfirst hsecond
  rw [h.credentialRows] at hsecond
  obtain ⟨hrows, hmap, _⟩ := importRows_again (credentialImporter_lawful now) hdb.credentialTable
    (credentials_absorb hparses.credentials) hfirst hsecond
  exact ⟨by rw [h'.credentialRows, h.credentialRows, hrows], hmap⟩

theorem sequences_again (hparses : Parses legacy) (hdb : Constraints db)
    (h : Phases options legacy now db parts out) (h' : Phases options legacy now out parts' out') :
    out'.sequences = out.sequences ∧ parts'.sequences.idMap = parts.sequences.idMap ∧
      (∀ i, i ∈ parts'.sequences.updated ↔ i ∈ parts.sequences.idMap.map Prod.snd) ∧
      ∀ i ∈ parts.sequences.idMap.map Prod.snd, i ∈ parts.sequences.updated ∨ i ∉ db.sequences.map Sequence.id := by
  have hsecond := h'.sequences
  rw [h.sequenceRows] at hsecond
  obtain ⟨tagged, fresh, himports⟩ := importRows_ok (sequenceImporter_lawful now) hdb.sequenceTable h.sequences
  obtain ⟨tagged', fresh', himports'⟩ := importRows_ok (sequenceImporter_lawful now) himports.table hsecond
  obtain ⟨hrows, hmap, hupdated⟩ := importRows_again (sequenceImporter_lawful now) hdb.sequenceTable
    (sequences_absorb hparses.sequences) h.sequences hsecond
  rw [hmap] at hupdated
  refine ⟨by rw [h'.sequenceRows, h.sequenceRows, hrows], hmap, fun i => ⟨fun hi => ?_, hupdated i⟩, ?_⟩
  · exact hmap ▸ mem_updated_idMap himports' i hi
  · exact updated_of_idMap (sequenceImporter_lawful now) himports

theorem history_again (h : Phases options legacy now db parts out) (h' : Phases options legacy now out parts' out') :
    out'.sweeps = out.sweeps ∧ out'.snapshots = out.snapshots ∧ out'.probes = out.probes := by
  cases hhistory : options.includeHistory with
  | true =>
    obtain ⟨sweeps, hsweeps, hrows, _⟩ := h.history hhistory
    obtain ⟨sweeps', hsweeps', hrows', hsnapshots', hprobes'⟩ := h'.history hhistory
    obtain ⟨again, hagain, hsame, hnone⟩ := appendRows_again (fun l _ => sweep_found) hsweeps
    rw [hrows, hagain] at hsweeps'
    cases hsweeps'
    rw [hrows', hsnapshots', hprobes', hnone, findings_none, findings_none, hrows]
    exact ⟨hsame, List.append_nil _, List.append_nil _⟩
  | false => exact h'.noHistory hhistory

theorem phases_again (hparses : Parses legacy) (hstates : ∀ l ∈ legacy.runs, (given l.state).isSome)
    (hrewrap : options.rewrap = none) (hdb : Constraints db) (h : Phases options legacy now db parts out)
    (h' : Phases options legacy now out parts' out') : out' = out := by
  obtain ⟨hcredentials, hcredentialMap⟩ := credentials_again hparses hrewrap hdb h h'
  obtain ⟨hsequences, hsequenceMap, hupdated, hcovered⟩ := sequences_again hparses hdb h h'
  obtain ⟨hsweeps, hsnapshots, hprobes⟩ := history_again h h'
  have hsteps : out'.steps = out.steps := by
    rw [h'.steps, hsequenceMap, hcredentialMap, h.steps,
      steps_left hdb.steps (fun w hw => mem_stepWrites hw) hcovered hupdated]
  have hvms : out'.vmProvisioning = out.vmProvisioning := by
    obtain ⟨fresh, hfirst⟩ := vms_takesOver now parts.sequences.idMap db.vmProvisioning legacy.vmProvisioning
    obtain ⟨fresh', hsecond⟩ := vms_takesOver now parts.sequences.idMap out.vmProvisioning legacy.vmProvisioning
    rw [h'.vmProvisioning, hsequenceMap]
    rw [h.vmProvisioning] at hsecond ⊢
    exact hfirst.again (writeVm_key now) (fun x _ y _ r => rfl) hsecond
  have hisos : out'.answerIsos = out.answerIsos := by
    obtain ⟨fresh, hfirst⟩ := isos_takesOver h.answerIsos
    obtain ⟨fresh', hsecond⟩ := isos_takesOver h'.answerIsos
    exact hfirst.again (writeIso_key now) (fun x _ y _ r => rfl) hsecond
  have hous : out'.searchOus = out.searchOus := by
    obtain ⟨fresh, hfirst⟩ := searchOus_takesOver now db.searchOus legacy.searchOus
    obtain ⟨fresh', hsecond⟩ := searchOus_takesOver now out.searchOus legacy.searchOus
    rw [h'.searchOus]
    rw [h.searchOus] at hsecond ⊢
    exact hfirst.again (writeOu_key now) (fun x _ y _ r => rfl) hsecond
  have hsettings : out'.settings = out.settings := by
    rw [h'.settings, hcredentialMap, h.settings, settings_again]
  obtain ⟨runs, hruns, hrunRows, hnewRuns⟩ := appendRows_again (fun l hl => run_found (hstates l hl)) h.runs
  have hsame : parts'.runs = runs := by
    have hruns' := h'.runs
    rw [hsequenceMap, h.runRows, hruns] at hruns'
    exact (Except.ok.inj hruns').symm
  have hrows : out'.runs = out.runs := by rw [h'.runRows, h.runRows, hsame, hrunRows]
  have hrunSteps : out'.runSteps = out.runSteps := by
    rw [h'.runSteps, hsame, hnewRuns, runSteps_none]
    rfl
  have hdeletions : out'.deletions = out.deletions := by
    obtain ⟨deletions, hfirst, hrows⟩ := h.deletions
    obtain ⟨deletions', hsecond, hrows'⟩ := h'.deletions
    obtain ⟨again, hagain, hkept, _⟩ := appendRows_again (fun l _ => deletion_found) hfirst
    rw [hrows, hagain] at hsecond
    cases hsecond
    rw [hrows', hrows, hkept]
  exact Database.ext hcredentials hsequences hsteps hvms hisos hrows hrunSteps hsettings hous hsweeps hsnapshots
    hprobes hdeletions

end Again

section Twice
variable {options : Options} {legacy : Legacy} {now : Int} {db out : Database} {parts : Parts}

/-- The tables have the rows that initialising them adds. -/
structure Initialised (db : Database) : Prop where
  settings : db.settings.isSome
  searchOus : db.searchOus ≠ []

theorem initialised : Initialised (initialise now db) where
  settings := rfl
  searchOus := by
    unfold initialise
    dsimp only
    split
    · exact List.cons_ne_nil _ _
    · assumption

theorem initialise_again (h : Initialised db) : initialise now db = db := by
  obtain ⟨row, hrow⟩ := Option.isSome_iff_exists.mp h.settings
  have hkept : some (db.settings.getD ⟨true, 900, 0, now⟩) = db.settings := by rw [hrow]; rfl
  unfold initialise
  rw [hkept, if_neg h.searchOus]

theorem Phases.initialised (h : Phases options legacy now db parts out) (hdb : Initialised db) : Initialised out where
  settings := by
    rw [h.settings, Option.isSome_map]
    exact hdb.settings
  searchOus := by
    obtain ⟨fresh, htakes⟩ := searchOus_takesOver now db.searchOus legacy.searchOus
    rw [← h.searchOus] at htakes
    have hkeys := htakes.keys (writeOu_key now)
    intro hnone
    rw [hnone] at hkeys
    exact hdb.searchOus (List.map_eq_nil_iff.mp (List.append_eq_nil_iff.mp hkeys.symm).1)

/-- A migration after another one changes nothing, whatever the clock is then. -/
theorem migrate_twice (hparses : Parses legacy) (hstates : ∀ l ∈ legacy.runs, (given l.state).isSome)
    (hrewrap : options.rewrap = none) (hdb : Constraints db) (now now' : Int) :
    migrate options legacy now' (migrate options legacy now db) = migrate options legacy now db := by
  have hconstraints : Constraints (initialise now db) := hdb.initialised
  have hclock : ∀ db, migrateTx options legacy now' db = migrateTx options legacy now db :=
    fun db => migrateTx_clock now' now hparses hrewrap
  cases hfirst : migrateTx options legacy now (initialise now db) with
  | error e =>
    have hone : migrate options legacy now db = initialise now db := by unfold migrate; rw [hfirst]
    rw [hone]
    unfold migrate
    rw [initialise_again initialised, hclock, hfirst]
  | ok out =>
    have hone : migrate options legacy now db = out.database := by unfold migrate; rw [hfirst]
    obtain ⟨parts, hphases, _⟩ := migrateTx_ok hfirst
    rw [hone]
    unfold migrate
    rw [initialise_again (hphases.initialised initialised), hclock]
    cases hsecond : migrateTx options legacy now out.database with
    | error e => rfl
    | ok out' =>
      obtain ⟨parts', hphases', _⟩ := migrateTx_ok hsecond
      exact phases_again hparses hstates hrewrap hconstraints hphases hphases'

/-- Two credentials of one name, the first under an id that another credential has here, and a
run without a UUID. -/
def clashingLegacy : Legacy where
  credentials := [⟨1, "domain", none, "a", some 1, some 2⟩, ⟨4, "domain", some "domain_join", "b", some 1, some 3⟩]
  sequences := [⟨1, "windows", none, true, false, none, none, some 1, some 2⟩]
  steps := [⟨1, 0, "join_domain", .obj [("credential_id", .int 4)], true⟩]
  runs := [⟨1, some 100, 1, none, some "done", none, some 5, none, none⟩]
  runSteps := [⟨1, 0, "winpe", "join_domain", .obj [], none, none, none, none⟩]

def clashingDatabase : Database where
  credentials := [⟨1, "local", "local_admin", "c", 0, 0⟩]

theorem clashing_migrate_twice : (migrate {} clashingLegacy 10 clashingDatabase).credentials =
      [⟨1, "local", "local_admin", "c", 0, 0⟩, ⟨5, "domain", "domain_join", "b", 1, 3⟩] ∧
    migrate {} clashingLegacy 20 (migrate {} clashingLegacy 10 clashingDatabase) =
      migrate {} clashingLegacy 10 clashingDatabase :=
  ⟨by decide +kernel, migrate_twice
    { credentials := by decide, sequences := by decide, vmProvisioning := by decide, answerIsos := by decide
      runs := by decide, settings := by decide, searchOus := by decide, sweeps := by decide, snapshots := by decide
      probes := by decide, deletions := by decide }
    (by decide) rfl
    { credentials := ⟨by decide, by decide, by decide⟩, sequences := ⟨by decide, by decide, by decide⟩
      steps := by decide } 10 20⟩

end Twice

end ProxmoxVEAutopilot.Migration
