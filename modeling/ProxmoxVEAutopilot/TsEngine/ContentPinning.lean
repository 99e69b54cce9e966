import ProxmoxVEAutopilot.Foundation.Table
import ProxmoxVEAutopilot.TsEngine.Content

/-!
# Pinned content

A resolution only appends rows, one for every reference that has none yet. Once all
references of a plan have their row, resolving again appends nothing, and staging
touches no pinned column.
-/

namespace ProxmoxVEAutopilot.TsEngine

open Foundation
set_option autoImplicit false

section References

theorem mem_foldl_setDefault {name : String} {pairs : List (String × String)} :
    ∀ {refs : List (String × String)}, name ∈ (pairs.foldl setDefault refs).map Prod.fst ↔
      name ∈ refs.map Prod.fst ∨ name ∈ pairs.map Prod.fst := by
  induction pairs with
  | nil => intro refs; simp
  | cons ref rest ih =>
    intro refs
    rw [List.foldl_cons, ih, List.map_cons, List.mem_cons]
    have hset : name ∈ (setDefault refs ref).map Prod.fst ↔ name ∈ refs.map Prod.fst ∨ name = ref.1 := by
      unfold setDefault
      split
      · rename_i hmem
        constructor
        · exact .inl
        · intro h
          rcases h with h | rfl
          · exact h
          · exact hmem
      · simp
    rw [hset]
    tauto

theorem mem_planRefs {steps : List PlanStep} {name : String} :
    name ∈ (planRefs steps).map Prod.fst ↔ ∃ s ∈ steps, name ∈ s.plan.contentRefsJson := by
  unfold planRefs
  rw [mem_foldl_setDefault]
  simp only [List.map_nil, List.not_mem_nil, false_or, List.mem_map, List.mem_flatMap]
  constructor
  · intro hmem
    obtain ⟨pair, ⟨s, hs, n, hn, hpair⟩, hname⟩ := hmem
    refine ⟨s, hs, ?_⟩
    rw [← hname, ← hpair]
    exact hn
  · intro hmem
    obtain ⟨s, hs, hname⟩ := hmem
    exact ⟨(name, s.plan.phase), ⟨s, hs, name, hname, rfl⟩, rfl⟩

end References

section Inserts
variable {args : ResolveArgs} {db db' : ContentDb}

def HasRow (db : ContentDb) (runId : Uuid) (name : String) : Prop :=
  (runId, name) ∈ db.manifest.map fun m => (m.pin.runId, m.pin.logicalName)

theorem any_key_iff {row : ManifestRow} :
    (db.manifest.any fun m =>
      m.pin.runId == row.pin.runId && m.pin.logicalName == row.pin.logicalName) = true ↔
      HasRow db row.pin.runId row.pin.logicalName := by
  simp [HasRow]

theorem insertManifest_ok {row : ManifestRow} (h : insertManifest row db = .ok db') :
    HasRow db row.pin.runId row.pin.logicalName ∧ db' = db ∨
    ¬ HasRow db row.pin.runId row.pin.logicalName ∧
      db' = { db with manifest := db.manifest ++ [row] } := by
  unfold insertManifest at h
  split at h
  · rename_i hany
    exact .inl ⟨any_key_iff.mp hany, (Except.ok.inj h).symm⟩
  · rename_i hany
    split at h
    · cases h
    · exact .inr ⟨fun hrow => hany (any_key_iff.mpr hrow), (Except.ok.inj h).symm⟩

theorem newestVersion_mem {name : String} {item : ContentItem} {version : ContentVersion}
    (h : db.newestVersion name = some (item, version)) : version ∈ db.versions := by
  unfold ContentDb.newestVersion at h
  simp only [Option.bind_eq_bind, Option.bind_eq_some_iff] at h
  obtain ⟨i, _, v, hv, heq⟩ := h
  cases heq
  have hmem := List.mem_of_mem_head? hv
  rw [List.mem_insertionSort] at hmem
  exact (List.mem_filter.mp hmem).1

theorem pinReference_ok {n : Nat} {ref : String × String} (h : pinReference args n ref db = .ok db') :
    ∃ item version, db.newestVersion ref.1 = some (item, version) ∧
      (HasRow db args.runId ref.1 ∧ db' = db ∨
      ¬ HasRow db args.runId ref.1 ∧
        db' = { db with manifest := db.manifest ++ [manifestRow args n ref.1 ref.2 item version] }) := by
  unfold pinReference at h
  split at h
  · cases h
  · rename_i item version hnewest
    exact ⟨item, version, hnewest, insertManifest_ok h⟩

theorem pinReferences_invariant {P : ContentDb → Prop} {refs : List (String × String)} :
    ∀ {n : Nat} {db : ContentDb},
      (∀ n db db', ∀ ref ∈ refs, P db → pinReference args n ref db = .ok db' → P db') → P db →
      P (pinReferences args refs n db).1 := by
  induction refs with
  | nil => exact fun _ h => h
  | cons ref rest ih =>
    intro n db step h
    unfold pinReferences
    cases hpin : pinReference args n ref db with
    | error e => exact h
    | ok db' =>
      apply ih
      · intro m db db' r hr
        exact step m db db' r (List.mem_cons_of_mem _ hr)
      · exact step n db db' ref List.mem_cons_self h hpin

/-- Only the manifest grows. -/
def Appends (db db' : ContentDb) : Prop :=
  ∃ rows, db' = { db with manifest := db.manifest ++ rows }

theorem Appends.refl (db : ContentDb) : Appends db db := ⟨[], by simp⟩

theorem Appends.trans {a b c : ContentDb} (hab : Appends a b) (hbc : Appends b c) : Appends a c := by
  obtain ⟨rows, rfl⟩ := hab
  obtain ⟨more, rfl⟩ := hbc
  exact ⟨rows ++ more, by simp⟩

theorem Appends.hasRow {runId : Uuid} {name : String} (h : Appends db db')
    (hrow : HasRow db runId name) : HasRow db' runId name := by
  obtain ⟨rows, rfl⟩ := h
  unfold HasRow at hrow ⊢
  rw [List.map_append]
  exact List.mem_append_left _ hrow

theorem Appends.mem_runs {run : RunDb} (h : Appends db db') (hrun : run ∈ db.runs) : run ∈ db'.runs := by
  obtain ⟨rows, rfl⟩ := h
  exact hrun

theorem pinReference_appends {n : Nat} {ref : String × String}
    (h : pinReference args n ref db = .ok db') : Appends db db' := by
  obtain ⟨item, version, _, ⟨_, rfl⟩ | ⟨_, rfl⟩⟩ := pinReference_ok h
  · exact .refl _
  · exact ⟨_, rfl⟩

theorem pinReferences_appends {refs : List (String × String)} {n : Nat} :
    Appends db (pinReferences args refs n db).1 := by
  apply pinReferences_invariant (P := Appends db)
  · intro n a b ref _ ha hpin
    exact ha.trans (pinReference_appends hpin)
  · exact .refl db

theorem pinReference_hasRow {n : Nat} {ref : String × String}
    (h : pinReference args n ref db = .ok db') : HasRow db' args.runId ref.1 := by
  obtain ⟨item, version, _, ⟨hrow, rfl⟩ | ⟨_, rfl⟩⟩ := pinReference_ok h
  · exact hrow
  · simp [HasRow, manifestRow]

theorem pinReferences_hasRow {refs : List (String × String)} : ∀ {n : Nat} {db : ContentDb},
    (pinReferences args refs n db).2 = .ok () →
    ∀ ref ∈ refs, HasRow (pinReferences args refs n db).1 args.runId ref.1 := by
  induction refs with
  | nil => intro n db _ ref href; simp at href
  | cons first rest ih =>
    intro n db hok ref href
    unfold pinReferences at hok ⊢
    cases hpin : pinReference args n first db with
    | error e => rw [hpin] at hok; cases hok
    | ok db' =>
      rw [hpin] at hok
      rcases List.mem_cons.mp href with rfl | href
      · exact pinReferences_appends.hasRow (pinReference_hasRow hpin)
      · exact ih hok ref href

theorem pinReferences_missing {refs : List (String × String)} {ref : String × String} :
    ∀ {n : Nat} {db : ContentDb}, ref ∈ refs → db.newestVersion ref.1 = none →
      ∃ e, (pinReferences args refs n db).2 = .error e := by
  induction refs with
  | nil => intro n db href; simp at href
  | cons first rest ih =>
    intro n db href hnone
    unfold pinReferences
    cases hpin : pinReference args n first db with
    | error e => exact ⟨e, rfl⟩
    | ok db' =>
      rcases List.mem_cons.mp href with rfl | href
      · obtain ⟨item, version, hsome, _⟩ := pinReference_ok hpin
        rw [hnone] at hsome
        cases hsome
      · apply ih href
        obtain ⟨rows, rfl⟩ := pinReference_appends hpin
        exact hnone

theorem pinReferences_of_hasRow {refs : List (String × String)} {n : Nat}
    (h : ∀ ref ∈ refs, HasRow db args.runId ref.1) : (pinReferences args refs n db).1 = db := by
  apply pinReferences_invariant (P := fun db' => db' = db)
  · intro n a b ref href ha hpin
    subst ha
    obtain ⟨item, version, _, ⟨_, rfl⟩ | ⟨hnot, _⟩⟩ := pinReference_ok hpin
    · rfl
    · exact absurd (h ref href) hnot
  · rfl

theorem pinReferences_pins {refs : List (String × String)} {n : Nat} {runId : Uuid}
    (hne : args.runId ≠ runId) :
    (pinReferences args refs n db).1.pins runId = db.pins runId := by
  apply pinReferences_invariant (P := fun db' => db'.pins runId = db.pins runId)
  · intro n a b ref _ ha hpin
    obtain ⟨item, version, _, ⟨_, rfl⟩ | ⟨_, rfl⟩⟩ := pinReference_ok hpin
    · exact ha
    · rw [← ha]
      simp [ContentDb.pins, manifestRow, hne]
  · rfl

theorem pinReferences_wellFormed {refs : List (String × String)} {n : Nat} (hdb : db.WellFormed)
    (hrun : args.runId ∈ db.runs.map fun r => r.run.id) :
    (pinReferences args refs n db).1.WellFormed := by
  refine (pinReferences_invariant
    (P := fun db' => db'.WellFormed ∧ args.runId ∈ db'.runs.map fun r => r.run.id) ?_ ⟨hdb, hrun⟩).1
  intro n a b ref _ ⟨ha, hrun⟩ hpin
  obtain ⟨item, version, hnewest, ⟨_, rfl⟩ | ⟨hnot, rfl⟩⟩ := pinReference_ok hpin
  · exact ⟨ha, hrun⟩
  · refine ⟨⟨ha.versionIds, ha.runIds, ha.stepIds, ?_, ?_, ?_⟩, hrun⟩
    · apply nodup_map_snoc ha.manifestKeys
      intro m hm heq
      exact hnot (List.mem_map.mpr ⟨m, hm, heq⟩)
    · intro m hm
      rcases List.mem_append.mp hm with hm | hm
      · exact ha.manifestRuns m hm
      · rw [List.mem_singleton.mp hm]
        exact hrun
    · intro m hm
      rcases List.mem_append.mp hm with hm | hm
      · exact ha.manifestVersions m hm
      · rw [List.mem_singleton.mp hm]
        exact List.mem_map_of_mem (newestVersion_mem hnewest)

end Inserts

section Steps
variable {db db' : ContentDb} {run : RunDb}

theorem insertRun_ok (h : insertRun run db = .ok db') :
    run.run.id ∉ db.runs.map (fun r => r.run.id) ∧ (∀ r ∈ run.steps.rows, r.id ∉ db.stepIds) ∧
      db' = { db with runs := db.runs ++ [run] } := by
  unfold insertRun at h
  split at h
  · cases h
  · rename_i hnot
    simp only [not_or, List.any_eq_true, decide_eq_true_eq, not_exists, not_and] at hnot
    exact ⟨hnot.1, hnot.2, (Except.ok.inj h).symm⟩

theorem insertRun_wellFormed (hdb : db.WellFormed) (h : insertRun run db = .ok db') :
    db'.WellFormed := by
  obtain ⟨hrun, hsteps, rfl⟩ := insertRun_ok h
  refine ⟨hdb.versionIds, ?_, ?_, hdb.manifestKeys, ?_, hdb.manifestVersions⟩
  · apply nodup_map_snoc hdb.runIds
    intro r hr heq
    exact hrun (heq ▸ List.mem_map_of_mem hr)
  · simp only [ContentDb.stepIds, List.flatMap_append, List.flatMap_cons, List.flatMap_nil,
      List.append_nil, List.nodup_append]
    refine ⟨hdb.stepIds, run.steps.ids, ?_⟩
    intro a ha b hb heq
    obtain ⟨r, hr, rfl⟩ := List.mem_map.mp hb
    exact hsteps r hr (heq ▸ ha)
  · intro m hm
    rw [List.map_append]
    exact List.mem_append_left _ (hdb.manifestRuns m hm)

theorem stepsOf_eq (hdb : db.WellFormed) (hrun : run ∈ db.runs) :
    db.stepsOf run.run.id = run.steps.rows := by
  unfold ContentDb.stepsOf
  rw [Table.find?_key hdb.runIds hrun]
  rfl

theorem getStep_eq (hdb : db.WellFormed) (hrun : run ∈ db.runs) {step : PlanStep}
    (hstep : step ∈ run.steps.rows) : getStep db step.id = some (run.run.id, step) := by
  unfold getStep
  have hnodup : ((db.runs.flatMap fun r => r.steps.rows.map fun s => (r.run.id, s)).map
      fun p => p.2.id).Nodup := by
    have hids := hdb.stepIds
    unfold ContentDb.stepIds at hids
    rw [List.map_flatMap]
    simpa only [List.map_map, Function.comp_def] using hids
  have hmem : (run.run.id, step) ∈ db.runs.flatMap fun r => r.steps.rows.map fun s => (r.run.id, s) :=
    List.mem_flatMap.mpr ⟨run, hrun, List.mem_map_of_mem hstep⟩
  exact Table.find?_key hnodup hmem

theorem map_logicalName_join {rows : List ManifestRow} {versions : List ContentVersion}
    (h : ∀ m ∈ rows, m.pin.contentVersionId ∈ versions.map ContentVersion.id) :
    (rows.filterMap fun m =>
      (versions.find? fun v => v.id = m.pin.contentVersionId).map m.forStep).map
        ContentForStep.logicalName = rows.map fun m => m.pin.logicalName := by
  induction rows with
  | nil => rfl
  | cons m rest ih =>
    have hrest := ih fun m hm => h m (List.mem_cons_of_mem _ hm)
    obtain ⟨v, hv, hid⟩ := List.mem_map.mp (h m List.mem_cons_self)
    cases hfind : versions.find? fun v => v.id = m.pin.contentVersionId with
    | none =>
      have := List.find?_eq_none.mp hfind v hv
      simp [hid] at this
    | some w =>
      rw [List.filterMap_cons]
      simp only [hfind, Option.map_some, List.map_cons, hrest]
      rfl

end Steps

section Resolved
variable {db db' : ContentDb} {run : RunDb}

/-- Every reference of the plan has its row. -/
structure Resolved (db : ContentDb) (run : RunDb) : Prop where
  wellFormed : db.WellFormed
  mem : run ∈ db.runs
  rows : ∀ step ∈ run.steps.rows, ∀ ref ∈ step.plan.contentRefsJson, HasRow db run.run.id ref

theorem nodup_names_of_run (hdb : db.WellFormed) {rows : List ManifestRow} {runId : Uuid}
    (hsub : rows.Sublist db.manifest) (hrun : ∀ m ∈ rows, m.pin.runId = runId) :
    (rows.map fun m => m.pin.logicalName).Nodup := by
  have hkeys : (rows.map fun m => (m.pin.runId, m.pin.logicalName)).Nodup :=
    hdb.manifestKeys.sublist (hsub.map _)
  have hpairs : rows.map (fun m => (m.pin.runId, m.pin.logicalName)) =
      (rows.map fun m => m.pin.logicalName).map fun name => (runId, name) := by
    rw [List.map_map]
    apply List.map_congr_left
    intro m hm
    simp [hrun m hm]
  rw [hpairs] at hkeys
  exact List.Nodup.of_map _ hkeys

/-- Exactly one row of the run for each reference of its plan. -/
def OneRowPerReference (db : ContentDb) (run : RunDb) : Prop :=
  ∀ step ∈ run.steps.rows, ∀ ref ∈ step.plan.contentRefsJson,
    ((db.pins run.run.id).filter fun p => p.logicalName = ref).length = 1

/-- `content_for_step` answers with one item for each distinct reference of the step. -/
def OneItemPerReference (db : ContentDb) (run : RunDb) : Prop :=
  ∀ step ∈ run.steps.rows, ∃ items, contentForStep db step.id = .ok items ∧
    (items.map ContentForStep.logicalName).Nodup ∧
    ∀ ref, ref ∈ items.map ContentForStep.logicalName ↔ ref ∈ step.plan.contentRefsJson

theorem Resolved.oneRow (h : Resolved db run) : OneRowPerReference db run := by
  intro step hstep ref href
  obtain ⟨m, hm, hkey⟩ := List.mem_map.mp (h.rows step hstep ref href)
  have hrunId : m.pin.runId = run.run.id := congrArg Prod.fst hkey
  have hname : m.pin.logicalName = ref := congrArg Prod.snd hkey
  have hnames : ((db.pins run.run.id).map Pin.logicalName).Nodup := by
    have hrows : ((db.manifest.filter fun m => m.pin.runId = run.run.id).map
        fun m => m.pin.logicalName).Nodup := by
      apply nodup_names_of_run h.wellFormed List.filter_sublist
      intro m hm
      simpa using (List.mem_filter.mp hm).2
    unfold ContentDb.pins
    rw [List.filter_map, List.map_map]
    exact hrows
  have hmem : m.pin ∈ (db.pins run.run.id).filter fun p => p.logicalName = ref := by
    rw [List.mem_filter]
    refine ⟨?_, by simpa using hname⟩
    unfold ContentDb.pins
    rw [List.mem_filter]
    exact ⟨List.mem_map_of_mem hm, by simpa using hrunId⟩
  have hall : ∀ p ∈ (db.pins run.run.id).filter fun p => p.logicalName = ref, p = m.pin := by
    intro p hp
    obtain ⟨hpin, hpname⟩ := List.mem_filter.mp hp
    apply List.inj_on_of_nodup_map hnames hpin (List.mem_filter.mp hmem).1
    rw [hname]
    simpa using hpname
  have hnodup : ((db.pins run.run.id).filter fun p => p.logicalName = ref).Nodup :=
    (List.Nodup.of_map _ hnames).filter _
  -- A list without repetitions whose only element is the row.
  rw [List.length_eq_one_iff]
  refine ⟨m.pin, ?_⟩
  have hperm : ((db.pins run.run.id).filter fun p => p.logicalName = ref).Perm [m.pin] := by
    rw [List.perm_ext_iff_of_nodup hnodup (List.nodup_singleton _)]
    intro p
    rw [List.mem_singleton]
    exact ⟨hall p, fun hp => hp ▸ hmem⟩
  exact List.perm_singleton.mp hperm

theorem Resolved.oneItem (h : Resolved db run) : OneItemPerReference db run := by
  intro step hstep
  unfold contentForStep
  rw [getStep_eq h.wellFormed h.mem hstep]
  simp only
  by_cases hnil : step.plan.contentRefsJson = []
  · rw [if_pos hnil, hnil]
    exact ⟨[], rfl, by simp, by simp⟩
  · rw [if_neg hnil]
    refine ⟨_, rfl, ?_⟩
    have hperm := List.perm_insertionSort (fun a b : ContentForStep => a.logicalName ≤ b.logicalName)
      ((db.manifest.filter fun m =>
        m.pin.runId = run.run.id ∧ m.pin.logicalName ∈ step.plan.contentRefsJson).filterMap
        fun m => (db.versions.find? fun v => v.id = m.pin.contentVersionId).map m.forStep)
    have hnames := hperm.map ContentForStep.logicalName
    rw [map_logicalName_join fun m hm => h.wellFormed.manifestVersions m (List.mem_filter.mp hm).1]
      at hnames
    refine ⟨?_, ?_⟩
    · rw [hnames.nodup_iff]
      apply nodup_names_of_run h.wellFormed List.filter_sublist
      intro m hm
      have := (List.mem_filter.mp hm).2
      simp only [decide_eq_true_eq] at this
      exact this.1
    · intro ref
      rw [hnames.mem_iff, List.mem_map]
      constructor
      · intro ⟨m, hm, hname⟩
        have := (List.mem_filter.mp hm).2
        simp only [decide_eq_true_eq] at this
        rw [← hname]
        exact this.2
      · intro href
        obtain ⟨m, hm, hkey⟩ := List.mem_map.mp (h.rows step hstep ref href)
        have hrunId : m.pin.runId = run.run.id := congrArg Prod.fst hkey
        have hname : m.pin.logicalName = ref := congrArg Prod.snd hkey
        refine ⟨m, List.mem_filter.mpr ⟨hm, ?_⟩, hname⟩
        simp only [decide_eq_true_eq]
        rw [hname]
        exact ⟨hrunId, href⟩

end Resolved

section Histories
variable {db db' : ContentDb} {run : RunDb}

theorem Resolved.of_pins (h : Resolved db run) {manifest : List ManifestRow}
    (hpins : manifest.map ManifestRow.pin = db.manifest.map ManifestRow.pin) :
    Resolved { db with manifest := manifest } run := by
  have hkeys : manifest.map (fun m => (m.pin.runId, m.pin.logicalName)) =
      db.manifest.map fun m => (m.pin.runId, m.pin.logicalName) := by
    have := congrArg (List.map fun p : Pin => (p.runId, p.logicalName)) hpins
    simpa only [List.map_map, Function.comp_def] using this
  have hpin : ∀ m ∈ manifest, ∃ m' ∈ db.manifest, m'.pin = m.pin := by
    intro m hm
    have hmem : m.pin ∈ db.manifest.map ManifestRow.pin := hpins ▸ List.mem_map_of_mem hm
    exact List.mem_map.mp hmem
  refine ⟨⟨h.wellFormed.versionIds, h.wellFormed.runIds, h.wellFormed.stepIds, ?_, ?_, ?_⟩, h.mem, ?_⟩
  · rw [hkeys]
    exact h.wellFormed.manifestKeys
  · intro m hm
    obtain ⟨m', hm', heq⟩ := hpin m hm
    rw [← heq]
    exact h.wellFormed.manifestRuns m' hm'
  · intro m hm
    obtain ⟨m', hm', heq⟩ := hpin m hm
    rw [← heq]
    exact h.wellFormed.manifestVersions m' hm'
  · intro step hstep ref href
    unfold HasRow
    rw [hkeys]
    exact h.rows step hstep ref href

theorem markManifestItemStaging_ok {manifestId runId : Uuid} {status agentId : String}
    {stagingPath error : Option String} {now : Time}
    (h : markManifestItemStaging manifestId runId status agentId stagingPath error now db = .ok db') :
    ∃ manifest, manifest.map ManifestRow.pin = db.manifest.map ManifestRow.pin ∧
      db' = { db with manifest := manifest } := by
  unfold markManifestItemStaging at h
  split at h
  · cases h
  · split at h
    · refine ⟨_, ?_, (Except.ok.inj h).symm⟩
      rw [List.map_map]
      apply List.map_congr_left
      intro m _
      simp only [Function.comp_apply]
      split <;> rfl
    · cases h

theorem createContentItem_ok {id : Uuid} {name contentType : String}
    (h : createContentItem id name contentType db = .ok db') :
    ∃ items, db' = { db with items := items } := by
  unfold createContentItem at h
  split at h
  · cases h
  · split at h
    · cases h
    · exact ⟨_, (Except.ok.inj h).symm⟩

theorem createContentVersion_ok {id contentItemId : Uuid} {version sha256 sourceUri : String}
    {sizeBytes : Option Int} {rebootBehavior : String} {metadata : Json} {now : Time}
    (h : createContentVersion id contentItemId version sha256 sourceUri sizeBytes rebootBehavior
      metadata now db = .ok db') :
    ∃ v : ContentVersion, v.id ∉ db.versions.map ContentVersion.id ∧
      db' = { db with versions := db.versions ++ [v] } := by
  unfold createContentVersion at h
  split at h
  · cases h
  · split at h
    · cases h
    · rename_i hnew
      split at h
      · cases h
      · refine ⟨_, ?_, (Except.ok.inj h).symm⟩
        intro hmem
        obtain ⟨v, hv, hid⟩ := List.mem_map.mp hmem
        apply hnew
        rw [List.any_eq_true]
        refine ⟨v, hv, ?_⟩
        simp only [Bool.or_eq_true, beq_iff_eq]
        exact .inl hid

theorem Resolved.addVersion (h : Resolved db run) {v : ContentVersion}
    (hv : v.id ∉ db.versions.map ContentVersion.id) :
    Resolved { db with versions := db.versions ++ [v] } run := by
  refine ⟨⟨?_, h.wellFormed.runIds, h.wellFormed.stepIds, h.wellFormed.manifestKeys,
    h.wellFormed.manifestRuns, ?_⟩, h.mem, h.rows⟩
  · apply nodup_map_snoc h.wellFormed.versionIds
    intro w hw heq
    exact hv (heq ▸ List.mem_map_of_mem hw)
  · intro m hm
    rw [List.map_append]
    exact List.mem_append_left _ (h.wellFormed.manifestVersions m hm)

def resolution (args : ResolveArgs) (db : ContentDb) : ContentDb × Except ContentError Unit :=
  TsEngine.pinReferences args (planRefs (db.stepsOf args.runId)) 0 db

theorem resolveRunContentManifest_cases (args : ResolveArgs) (s : Session) :
    (resolution args s.working).2 = .ok () ∧
      resolveRunContentManifest args s =
        (⟨(resolution args s.working).1, (resolution args s.working).1⟩, .ok ()) ∨
    ∃ e, (resolution args s.working).2 = .error e ∧
      resolveRunContentManifest args s = (⟨s.committed, (resolution args s.working).1⟩, .error e) := by
  unfold resolveRunContentManifest resolution
  cases hpin : TsEngine.pinReferences args (planRefs (s.working.stepsOf args.runId)) 0 s.working with
  | mk db result =>
    cases result with
    | ok u => exact .inl ⟨rfl, rfl⟩
    | error e => exact .inr ⟨e, rfl, rfl⟩

theorem Resolved.resolution (h : Resolved db run) (args : ResolveArgs) :
    Resolved (TsEngine.resolution args db).1 run ∧
      (TsEngine.resolution args db).1.pins run.run.id = db.pins run.run.id := by
  unfold TsEngine.resolution
  by_cases hrun : args.runId ∈ db.runs.map fun r => r.run.id
  · by_cases hid : args.runId = run.run.id
    · have hrows : ∀ ref ∈ planRefs (db.stepsOf args.runId), HasRow db args.runId ref.1 := by
        intro ref href
        rw [hid, stepsOf_eq h.wellFormed h.mem] at href
        obtain ⟨step, hstep, hname⟩ := mem_planRefs.mp (List.mem_map_of_mem href)
        rw [hid]
        exact h.rows step hstep ref.1 hname
      rw [pinReferences_of_hasRow hrows]
      exact ⟨h, rfl⟩
    · refine ⟨⟨pinReferences_wellFormed h.wellFormed hrun, ?_, ?_⟩, pinReferences_pins hid⟩
      · exact pinReferences_appends.mem_runs h.mem
      · intro step hstep ref href
        exact pinReferences_appends.hasRow (h.rows step hstep ref href)
  · -- A run that is not there has no references.
    have hsteps : db.stepsOf args.runId = [] := by
      unfold ContentDb.stepsOf
      have hfind : (db.runs.find? fun r => r.run.id = args.runId) = none := by
        rw [List.find?_eq_none]
        intro r hr heq
        apply hrun
        rw [← of_decide_eq_true heq]
        exact List.mem_map_of_mem hr
      rw [hfind]
      rfl
    rw [hsteps]
    exact ⟨h, rfl⟩

theorem Resolved.exec (h : Resolved db run) (op : ContentOp) :
    Resolved (db.exec op) run ∧ (db.exec op).pins run.run.id = db.pins run.run.id := by
  cases op with
  | createContentItem id name contentType =>
    simp only [ContentDb.exec]
    cases hcall : createContentItem id name contentType db with
    | error e => exact ⟨h, rfl⟩
    | ok db' =>
      obtain ⟨items, rfl⟩ := createContentItem_ok hcall
      exact ⟨⟨⟨h.wellFormed.versionIds, h.wellFormed.runIds, h.wellFormed.stepIds,
        h.wellFormed.manifestKeys, h.wellFormed.manifestRuns, h.wellFormed.manifestVersions⟩,
        h.mem, h.rows⟩, rfl⟩
  | createContentVersion id contentItemId version sha256 sourceUri sizeBytes rebootBehavior metadata now =>
    simp only [ContentDb.exec]
    cases hcall : createContentVersion id contentItemId version sha256 sourceUri sizeBytes
        rebootBehavior metadata now db with
    | error e => exact ⟨h, rfl⟩
    | ok db' =>
      obtain ⟨v, hv, rfl⟩ := createContentVersion_ok hcall
      exact ⟨h.addVersion hv, rfl⟩
  | resolveRunContentManifest args =>
    simp only [ContentDb.exec]
    rcases resolveRunContentManifest_cases args (Session.opened db) with ⟨_, heq⟩ | ⟨e, _, heq⟩
    · rw [heq]
      exact h.resolution args
    · rw [heq]
      exact ⟨h, rfl⟩
  | markManifestItemStaging manifestId runId status agentId stagingPath error now =>
    simp only [ContentDb.exec]
    cases hcall : markManifestItemStaging manifestId runId status agentId stagingPath error now db with
    | error e => exact ⟨h, rfl⟩
    | ok db' =>
      obtain ⟨manifest, hpins, rfl⟩ := markManifestItemStaging_ok hcall
      refine ⟨h.of_pins hpins, ?_⟩
      simp only [orRollback, ContentDb.pins, hpins]

theorem Resolved.history (h : Resolved db run) (ops : List ContentOp) :
    Resolved (ops.foldl ContentDb.exec db) run ∧
      (ops.foldl ContentDb.exec db).pins run.run.id = db.pins run.run.id := by
  induction ops using List.reverseRecOn with
  | nil => exact ⟨h, rfl⟩
  | append_singleton ops op ih =>
    rw [List.foldl_append]
    have hstep := ih.1.exec op
    exact ⟨hstep.1, hstep.2.trans ih.2⟩

end Histories

section Creation
variable {db : ContentDb} {args : CreateArgs}

/-- No enabled item of that name has a version. -/
def NoEnabledVersion (db : ContentDb) (ref : String) : Prop :=
  ∀ i ∈ db.items, i.name = ref → i.enabled = true → ∀ v ∈ db.versions, v.contentItemId ≠ i.id

theorem NoEnabledVersion.newestVersion {ref : String} (h : NoEnabledVersion db ref) :
    db.newestVersion ref = none := by
  unfold ContentDb.newestVersion
  cases hfind : db.items.find? fun i => i.name = ref ∧ i.enabled with
  | none => rfl
  | some item =>
    have hitem := List.find?_some hfind
    simp only [decide_eq_true_eq] at hitem
    have hnone : db.versions.filter (fun v => v.contentItemId = item.id) = [] := by
      rw [List.filter_eq_nil_iff]
      intro v hv
      simpa using h item (List.mem_of_find?_eq_some hfind) hitem.1 hitem.2 v hv
    simp [hnone]

theorem createRunFromVersion_plan {ids : IdSource} {versionId : Uuid} {version : SequenceVersion}
    {target vars : Json} {createdBy : Option String} {now : Time} {run : RunDb}
    (h : createRunFromVersion ids versionId (some version) target vars createdBy now = .ok run) :
    run.steps.rows.map PlanStep.plan = flattenSteps version.compiledTreeJson :=
  mapM_planRow_plan (createRunFromVersion_rows h).1

theorem insertRun_refs (hdb : db.WellFormed) {run : RunDb} {db' : ContentDb}
    (h : insertRun run db = .ok db') {step : PlanStep} (hstep : step ∈ run.steps.rows) {ref : String}
    (href : ref ∈ step.plan.contentRefsJson) :
    ∃ pair ∈ planRefs (db'.stepsOf run.run.id), pair.1 = ref := by
  have hwf := insertRun_wellFormed hdb h
  obtain ⟨_, _, rfl⟩ := insertRun_ok h
  apply List.mem_map.mp
  rw [stepsOf_eq hwf (List.mem_append_right _ List.mem_cons_self), mem_planRefs]
  exact ⟨step, hstep, href⟩

theorem createRun_cases (args : CreateArgs) (s : Session) :
    (∃ e, createRun true args s = (s, .error e)) ∨
    ∃ run db, createRunFromVersion args.ids args.sequenceVersionId args.version?
        args.deploymentTarget args.runVariables args.createdBy args.now = .ok run ∧
      insertRun run s.working = .ok db ∧
      ((resolution (args.resolve run) db).2 = .ok () ∧
        createRun true args s = (⟨(resolution (args.resolve run) db).1,
          (resolution (args.resolve run) db).1⟩, .ok run.run.id) ∨
      ∃ e, (resolution (args.resolve run) db).2 = .error e ∧
        createRun true args s = (⟨s.committed, s.committed⟩, .error e)) := by
  unfold createRun
  cases hcreate : createRunFromVersion args.ids args.sequenceVersionId args.version?
      args.deploymentTarget args.runVariables args.createdBy args.now with
  | error e => exact .inl ⟨_, rfl⟩
  | ok run =>
    cases hinsert : insertRun run s.working with
    | error e =>
      simp only [hinsert]
      exact .inl ⟨_, rfl⟩
    | ok db =>
      refine .inr ⟨run, db, rfl, hinsert, ?_⟩
      simp only [hinsert, if_true]
      rcases resolveRunContentManifest_cases (args.resolve run) { s with working := db } with
        ⟨hok, heq⟩ | ⟨e, herr, heq⟩
      · rw [heq]
        exact .inl ⟨hok, rfl⟩
      · rw [heq]
        exact .inr ⟨e, herr, rfl⟩

theorem createRun_resolved (hdb : db.WellFormed) {s : Session} {runId : Uuid}
    (h : createRun true args (Session.opened db) = (s, .ok runId)) :
    ∃ run version, args.version? = some version ∧ run.run.id = runId ∧
      run.steps.rows.map PlanStep.plan = flattenSteps version.compiledTreeJson ∧
      Resolved s.committed run := by
  rcases createRun_cases args (Session.opened db) with
    ⟨e, heq⟩ | ⟨run, db', hcreate, hinsert, ⟨hok, heq⟩ | ⟨e, _, heq⟩⟩
  · rw [heq] at h
    cases h
  · rw [heq] at h
    cases h
    cases hversion : args.version? with
    | none => rw [hversion] at hcreate; cases hcreate
    | some version =>
      rw [hversion] at hcreate
      refine ⟨run, version, rfl, rfl, createRunFromVersion_plan hcreate, ?_⟩
      have hwf := insertRun_wellFormed hdb hinsert
      have hmem : run ∈ db'.runs := by
        obtain ⟨_, _, rfl⟩ := insertRun_ok hinsert
        exact List.mem_append_right _ List.mem_cons_self
      refine ⟨pinReferences_wellFormed hwf (List.mem_map_of_mem hmem), ?_, ?_⟩
      · exact pinReferences_appends.mem_runs hmem
      · intro step hstep ref href
        obtain ⟨pair, hpair, rfl⟩ := insertRun_refs hdb hinsert hstep href
        exact pinReferences_hasRow hok pair hpair
  · rw [heq] at h
    cases h

theorem createRun_missing {version : SequenceVersion} (hversion : args.version? = some version)
    {f : FlatStep} (hf : f ∈ flattenSteps version.compiledTreeJson) {ref : String}
    (href : ref ∈ f.contentRefsJson) (hnone : NoEnabledVersion db ref) (hdb : db.WellFormed) :
    ∃ e, createRun true args (Session.opened db) = (Session.opened db, .error e) := by
  rcases createRun_cases args (Session.opened db) with
    ⟨e, heq⟩ | ⟨run, db', hcreate, hinsert, ⟨hok, _⟩ | ⟨e, _, heq⟩⟩
  · exact ⟨e, heq⟩
  · exfalso
    rw [hversion] at hcreate
    rw [← createRunFromVersion_plan hcreate] at hf
    obtain ⟨step, hstep, rfl⟩ := List.mem_map.mp hf
    obtain ⟨pair, hpair, rfl⟩ := insertRun_refs hdb hinsert hstep href
    have hnewest : db'.newestVersion pair.1 = none := by
      obtain ⟨_, _, rfl⟩ := insertRun_ok hinsert
      exact hnone.newestVersion
    obtain ⟨e, herr⟩ : ∃ e, (resolution (args.resolve run) db').2 = .error e :=
      pinReferences_missing hpair hnewest
    rw [hok] at herr
    cases herr
  · exact ⟨e, heq⟩

/-- A created run has its content pinned for good; one whose content is missing leaves nothing. -/
theorem content_pinned (db : ContentDb) (hdb : db.WellFormed) (args : CreateArgs) :
    (∀ s runId, createRun true args (Session.opened db) = (s, .ok runId) →
      ∃ run version, args.version? = some version ∧ run ∈ s.committed.runs ∧ run.run.id = runId ∧
        run.steps.rows.map PlanStep.plan = flattenSteps version.compiledTreeJson ∧
        ∀ ops : List ContentOp,
          OneRowPerReference (ops.foldl ContentDb.exec s.committed) run ∧
          OneItemPerReference (ops.foldl ContentDb.exec s.committed) run ∧
          (ops.foldl ContentDb.exec s.committed).pins runId = s.committed.pins runId) ∧
    ∀ version, args.version? = some version →
      (∃ f ∈ flattenSteps version.compiledTreeJson, ∃ ref ∈ f.contentRefsJson,
        NoEnabledVersion db ref) →
      ∃ e, createRun true args (Session.opened db) = (Session.opened db, .error e) := by
  constructor
  · intro s runId h
    obtain ⟨run, version, hversion, rfl, hplan, hres⟩ := createRun_resolved hdb h
    refine ⟨run, version, hversion, hres.mem, rfl, hplan, ?_⟩
    intro ops
    obtain ⟨hlater, hpins⟩ := hres.history ops
    exact ⟨hlater.oneRow, hlater.oneItem, hpins⟩
  · intro version hversion ⟨f, hf, ref, href, hnone⟩
    exact createRun_missing hversion hf href hnone hdb

def guestAgentDb : ContentDb where
  items := [{ id := 1, name := "qemu-guest-agent", contentType := .package }]
  versions :=
    [{ id := 2, contentItemId := 1, version := "106.0", sha256 := "b", sourceUri := "https://content.local/qga-106.msi", createdAt := 0 },
      { id := 3, contentItemId := 1, version := "107.0", sha256 := "c", sourceUri := "https://content.local/qga-107.msi", createdAt := 1 }]

def guestAgentArgs : CreateArgs where
  ids := countingIds
  sequenceVersionId := 0
  version? := some ⟨0, 0, [
    { id := 4, parentId := none, position := 0, nodeType := .step "install_package",
      name := "Install QGA", phase := "full_os", contentRefsJson := ["qemu-guest-agent", "qemu-guest-agent"] }]⟩
  now := 2
  manifestId := fun n => n
  manifestNow := fun _ => 2

theorem guest_agent_stays_at_its_version :
    ∃ s, createRun true guestAgentArgs (Session.opened guestAgentDb) = (s, .ok 0) ∧
      (s.committed.pins 0).map (fun p => (p.contentVersionId, p.requiredPhase)) = [(3, "full_os")] ∧
      ∀ ops : List ContentOp, (ops.foldl ContentDb.exec s.committed).pins 0 = s.committed.pins 0 := by
  have hdb : guestAgentDb.WellFormed := by
    constructor <;> simp [guestAgentDb, ContentDb.stepIds]
  refine ⟨(createRun true guestAgentArgs (Session.opened guestAgentDb)).1, rfl, rfl, ?_⟩
  obtain ⟨run, version, _, _, _, _, hops⟩ := (content_pinned guestAgentDb hdb guestAgentArgs).1 _ 0 rfl
  exact fun ops => (hops ops).2.2

end Creation

end ProxmoxVEAutopilot.TsEngine
