import ProxmoxVEAutopilot.Health.Sources

/-!
# What the cockpit reports

The steps of one phase are merged one after the other, and the last of them that is done,
failed or skipped decides: a phase is reported done or failed as it should where that step
speaks for all of them.
-/

namespace ProxmoxVEAutopilot.Health

open Foundation

set_option autoImplicit false

/-! ### The steps of a phase -/

/-- Every step of every run, with the phase it is mapped to and its state as it is stored. -/
def allSteps (t : Tables) : List (PhaseId × String) :=
  (legacyJoined t).map (fun s => (legacyPhase s, s.2.state)) ++ (tsJoined t).map fun s => (tsPhase s, s.2.state)

def AllFinished (t : Tables) (p : PhaseId) : Prop :=
  ∀ step ∈ allSteps t, step.1 = p → step.2 ∈ ["ok", "done", "skipped"]

def SomeFailed (t : Tables) (p : PhaseId) : Prop := ∃ step ∈ allSteps t, step.1 = p ∧ step.2 ∈ ["error", "failed"]

/-- A stored phase is done only if all of its steps are, and failed whenever one of them is. -/
def Honest (t : Tables) (store : Store PhaseId) : Prop :=
  ∀ p, ∀ row ∈ store p, (row.state = .done → AllFinished t p) ∧ (SomeFailed t p → row.state = .failed)

/-- The states of the steps of a phase that a sync lists, in its order. -/
def listedStates (t : Tables) (p : PhaseId) : List PhaseState :=
  ((legacyListed t).filter (legacyPhase · = p)).map (fun s => legacyStepState s.2.state) ++
    ((tsListed t).filter (tsPhase · = p)).map fun s => tsStepState s.2.state

/-- The last step that is done, failed or skipped says so, or there is none and the phase is
stored so already. -/
def Shows (existing : Option PhaseRow) (states : List PhaseState) (s : PhaseState) : Prop :=
  lastDecided states = some s ∨ lastDecided states = none ∧ existing.map (·.state) = some s

/-- In every phase the step that decides speaks for all of them. -/
def Decides (t : Tables) (store : Store PhaseId) : Prop :=
  ∀ p, (Shows (store p) (listedStates t p) .done → AllFinished t p) ∧
    (SomeFailed t p → Shows (store p) (listedStates t p) .failed ∨ store p = none ∧ listedStates t p = [])

theorem normalizedStepPhaseKey_ne_run (deploymentType kind : String) (ordinal : Int) :
    normalizedStepPhaseKey deploymentType kind ordinal ≠ "run" := by
  have hmapped : ∀ phases ∈ [WINPE_STEP_PHASES, CLOUDOSD_STEP_PHASES], ∀ k, phases.lookup k ≠ some "run" := by
    intro phases hphases k hk
    obtain ⟨front, back, hsplit, -⟩ := List.lookup_eq_some_iff.mp hk
    have hvalues : ∀ phases ∈ [WINPE_STEP_PHASES, CLOUDOSD_STEP_PHASES], "run" ∉ phases.map Prod.snd := by decide
    apply hvalues phases hphases
    rw [hsplit]
    simp
  have hwinpe := hmapped WINPE_STEP_PHASES (by simp) (kindText kind)
  have hcloudosd := hmapped CLOUDOSD_STEP_PHASES (by simp) (kindText kind)
  have hnumbered : s!"step:{ordinal}:{kindText kind}" ≠ "run" := by
    intro h
    have hfirst : s!"step:{ordinal}:{kindText kind}" = "s" ++ ("tep:" ++ toString ordinal ++ ":" ++ kindText kind) := by
      simp only [← String.append_assoc]
      rfl
    have hlists := congrArg String.toList h
    rw [hfirst, String.toList_append] at hlists
    exact absurd (List.cons.inj hlists).1 (by decide)
  unfold normalizedStepPhaseKey
  dsimp only
  have hgetD : ∀ mapped : Option String, mapped ≠ some "run" → mapped.getD s!"step:{ordinal}:{kindText kind}" ≠ "run" := by
    intro mapped hne
    cases mapped with
    | none => exact hnumbered
    | some phase => exact fun h => hne (congrArg some h)
  apply hgetD
  split
  · exact hwinpe
  · split
    · exact hcloudosd
    · split
      · cases hlookup : CLOUDOSD_STEP_PHASES.lookup (kindText kind) with
        | none => exact hwinpe
        | some phase =>
          rw [hlookup] at hcloudosd
          exact hcloudosd
      · exact nofun

def entriesAt (title : String → String) (t : Tables) (p : PhaseId) : List Entry :=
  ((recorded title t).filter (·.1 = p)).map (·.2)

theorem writesFrom_entries (stamps : Nat → Int) (k : Nat) (rs : List Recorded) (p : PhaseId) :
    ((writesFrom stamps k rs).filter (·.id = p)).map (·.entry) = (rs.filter (·.1 = p)).map (·.2) := by
  induction rs generalizing k with
  | nil => rfl
  | cons r rs ih =>
    by_cases hp : r.1 = p
    · rw [writesFrom, List.filter_cons_of_pos (by simpa using hp), List.filter_cons_of_pos (by simpa using hp),
        List.map_cons, List.map_cons, ih]
    · rw [writesFrom, List.filter_cons_of_neg (by simpa using hp), List.filter_cons_of_neg (by simpa using hp), ih]

/-- A phase that steps are mapped to. -/
def OfSteps (p : PhaseId) : Prop :=
  p.phase ≠ "run" ∧ ((∃ path id, p.deployment = .legacy path id) ∨ ∃ id, p.deployment = .ts id)

theorem ofSteps_legacy (s : LegacyRun × LegacyStep) : OfSteps (legacyPhase s) :=
  ⟨normalizedStepPhaseKey_ne_run _ _ _, .inl ⟨_, _, rfl⟩⟩

theorem ofSteps_ts (s : TsRun × TsStep) : OfSteps (tsPhase s) :=
  ⟨normalizedStepPhaseKey_ne_run _ _ _, .inr ⟨_, rfl⟩⟩

theorem ofSteps_of_mem {t : Tables} {step : PhaseId × String} (h : step ∈ allSteps t) : OfSteps step.1 := by
  rcases List.mem_append.mp h with h | h
  · obtain ⟨s, -, rfl⟩ := List.mem_map.mp h
    exact ofSteps_legacy s
  · obtain ⟨s, -, rfl⟩ := List.mem_map.mp h
    exact ofSteps_ts s

theorem entriesAt_states {p : PhaseId} (hp : OfSteps p) (title : String → String) (t : Tables) :
    (entriesAt title t p).map (·.state) = listedStates t p := by
  obtain ⟨hrun, hdeployment⟩ := hp
  have hnone : ∀ rs : List Recorded, (∀ r ∈ rs, r.1 ≠ p) → rs.filter (·.1 = p) = [] := by
    intro rs hne
    rw [List.filter_eq_nil_iff]
    exact fun r hr => by simpa using hne r hr
  have hjobs : (syncJobs t).filter (·.1 = p) = [] := by
    refine hnone _ fun r hr hrp => ?_
    obtain ⟨job, -, hr⟩ := List.mem_flatMap.mp hr
    have hkey : r.1.deployment = .job job.id := by
      unfold Job.recorded at hr
      rcases List.mem_append.mp hr with hr | hr
      · simp only [List.mem_cons, List.not_mem_nil, or_false] at hr
        rcases hr with rfl | rfl <;> rfl
      · split at hr
        · cases List.mem_singleton.mp hr
          rfl
        · cases hr
    rw [hrp] at hkey
    rcases hdeployment with ⟨_, _, h⟩ | ⟨_, h⟩ <;> cases h ▸ hkey
  have hwork : (syncAgentWork title t).filter (·.1 = p) = [] := by
    refine hnone _ fun r hr hrp => ?_
    obtain ⟨item, -, hr⟩ := List.mem_flatMap.mp hr
    have hkey : r.1.deployment = .agentWork item.id := by
      simp only [WorkItem.recorded, List.mem_cons, List.not_mem_nil, or_false] at hr
      rcases hr with rfl | rfl <;> rfl
    rw [hrp] at hkey
    rcases hdeployment with ⟨_, _, h⟩ | ⟨_, h⟩ <;> cases h ▸ hkey
  have hcloudosd : (syncCloudosd t).filter (·.1 = p) = [] := by
    refine hnone _ fun r hr hrp => ?_
    obtain ⟨run, -, hr⟩ := List.mem_flatMap.mp hr
    have hkey : r.1.deployment = .cloudosd run.runId := by
      unfold CloudOsdRun.recorded at hr
      rcases List.mem_append.mp hr with hr | hr
      · simp only [List.mem_cons, List.not_mem_nil, or_false] at hr
        rcases hr with rfl | rfl | rfl <;> rfl
      · obtain ⟨r', -, rfl⟩ := List.mem_map.mp hr
        rfl
    rw [hrp] at hkey
    rcases hdeployment with ⟨_, _, h⟩ | ⟨_, h⟩ <;> cases h ▸ hkey
  have hlegacy : (syncLegacyRuns title t).filter (·.1 = p) =
      ((legacyListed t).filter (legacyPhase · = p)).map (legacyStepRecorded title) := by
    unfold syncLegacyRuns
    rw [List.filter_append, hnone, List.nil_append, List.filter_map]
    · rfl
    · intro r hr hrp
      obtain ⟨run, -, rfl⟩ := List.mem_map.mp hr
      exact hrun (congrArg PhaseId.phase hrp).symm
  have hts : (syncTsRuns title t).filter (·.1 = p) =
      ((tsListed t).filter (tsPhase · = p)).map (tsStepRecorded title) := by
    unfold syncTsRuns
    rw [List.filter_append, hnone, List.nil_append, List.filter_map]
    · rfl
    · intro r hr hrp
      obtain ⟨run, -, rfl⟩ := List.mem_map.mp hr
      exact hrun (congrArg PhaseId.phase hrp).symm
  unfold entriesAt recorded listedStates
  rw [List.filter_append, List.filter_append, List.filter_append, List.filter_append, hjobs, hlegacy, hts, hwork,
    hcloudosd, List.nil_append, List.append_nil, List.append_nil, List.map_append, List.map_append, List.map_map,
    List.map_map, List.map_map, List.map_map]
  rfl

theorem stale_notMem_listedStates (t : Tables) (p : PhaseId) : .stale ∉ listedStates t p := by
  have hlegacy : ∀ state, legacyStepState state ≠ .stale := by
    intro state
    unfold legacyStepState
    split <;> [skip; split <;> [skip; split]] <;> decide
  have hts : ∀ state, tsStepState state ≠ .stale := by
    intro state
    unfold tsStepState
    split <;> [skip; split <;> [skip; split <;> [skip; split]]] <;> decide
  intro h
  rcases List.mem_append.mp h with h | h
  · obtain ⟨s, -, hs⟩ := List.mem_map.mp h
    exact hlegacy s.2.state hs
  · obtain ⟨s, -, hs⟩ := List.mem_map.mp h
    exact hts s.2.state hs

/-! ### One sync -/

theorem sync_row {title : String → String} {t : Tables} {stamps : Nat → Int} {store store' : Store PhaseId}
    (h : syncFromSources title t stamps store = some store') (p : PhaseId) :
    ∃ ws : List (Write PhaseId), ws.map (·.entry) = entriesAt title t p ∧ store' p = rowAfter (store p) ws :=
  ⟨_, writesFrom_entries stamps 0 _ p, putAll_row h p⟩

theorem rowAfter_eq_none {κ : Type} {existing : Option PhaseRow} {ws : List (Write κ)} :
    rowAfter existing ws = none ↔ existing = none ∧ ws = [] := by
  cases ws with
  | nil => simp [rowAfter]
  | cons w ws => simp [rowAfter]

theorem rowAfter_shows {κ : Type} {existing : Option PhaseRow} {ws : List (Write κ)} {states : List PhaseState}
    (hws : (ws.map (·.entry)).map (·.state) = states) (hstale : .stale ∉ states) {s : PhaseState}
    (hs : s = .done ∨ s = .failed) : (rowAfter existing ws).map (·.state) = some s ↔ Shows existing states s := by
  subst hws
  cases ws with
  | nil => simp [rowAfter, Shows, lastDecided]
  | cons w ws =>
    have hcolumn := rowAfter_column (·.state) (fun s e => mergeState s e.state) (fun _ => .pending) (fun _ _ => rfl)
      (fun w => by cases hstate : w.entry.state <;> exact hstate)
      (show rowAfter existing (w :: ws) = some _ from rfl)
    have hfold : ∀ x, ((w :: ws).map (·.entry)).foldl (fun s e => mergeState s e.state) x =
        (((w :: ws).map (·.entry)).map (·.state)).foldl mergeState x := fun x => List.foldl_map.symm
    rw [hfold] at hcolumn
    have hfirst : existing.elim PhaseState.pending (·.state) = s ↔ existing.map (·.state) = some s := by
      cases existing with
      | none => rcases hs with rfl | rfl <;> simp
      | some row => simp
    rw [rowAfter, Option.map_some, Option.some_inj, hcolumn, foldl_mergeState hstale hs, hfirst]
    rfl

theorem honest_at (row : Option PhaseRow) (A B : Prop) :
    (∀ r ∈ row, (r.state = .done → A) ∧ (B → r.state = .failed)) ↔
      (row.map (·.state) = some .done → A) ∧ (B → row.map (·.state) = some .failed ∨ row = none) := by
  cases row <;> simp

theorem honest_iff {title : String → String} {t : Tables} {stamps : Nat → Int} {store store' : Store PhaseId}
    (h : syncFromSources title t stamps store = some store') : Honest t store' ↔ Decides t store := by
  refine forall_congr' fun p => ?_
  rw [honest_at]
  by_cases hp : OfSteps p
  · obtain ⟨ws, hws, hrow⟩ := sync_row h p
    have hstates : (ws.map (·.entry)).map (·.state) = listedStates t p := by rw [hws, entriesAt_states hp]
    have hnil : ws = [] ↔ listedStates t p = [] := by
      rw [← hstates, List.map_eq_nil_iff, List.map_eq_nil_iff]
    have hstale := stale_notMem_listedStates t p
    rw [hrow, rowAfter_shows hstates hstale (.inl rfl), rowAfter_shows hstates hstale (.inr rfl), rowAfter_eq_none, hnil]
  · -- no step is mapped there
    have hsteps : ∀ step ∈ allSteps t, step.1 ≠ p := fun step hstep hstepp => hp (hstepp ▸ ofSteps_of_mem hstep)
    have hfinished : AllFinished t p := fun step hstep hstepp => absurd hstepp (hsteps step hstep)
    have hfailed : ¬ SomeFailed t p := fun ⟨step, hstep, hstepp, _⟩ => hsteps step hstep hstepp
    exact iff_of_true ⟨fun _ => hfinished, fun hf => absurd hf hfailed⟩
      ⟨fun _ => hfinished, fun hf => absurd hf hfailed⟩

/-! ### A second sync -/

/-- Each row that the sync creates begins with an entry that is in order. -/
def Ordered (title : String → String) (t : Tables) (store : Store PhaseId) : Prop :=
  ∀ p, store p = none → FirstInOrder (entriesAt title t p)

/-- The same rows, equal in every column but `updated_at`. -/
def Unchanged (store store' : Store PhaseId) : Prop := ∀ p, Option.Rel SameColumns (store p) (store' p)

theorem SameColumns.refl (row : PhaseRow) : SameColumns row row where
  deploymentType := rfl
  source := rfl
  sourceId := rfl
  phaseLabel := rfl
  state := rfl
  startedAt := rfl
  endedAt := rfl
  lastProgressAt := rfl
  durationSeconds := rfl
  evidence _ := rfl
  error := rfl

theorem sameColumns_self (row : Option PhaseRow) : Option.Rel SameColumns row row := by
  cases row with
  | none => exact .none
  | some row => exact .some (.refl row)

theorem firstInOrder_of_all {title : String → String} {t : Tables}
    (h : ∀ r ∈ recorded title t, (∀ ended ∈ r.2.endedAt, ended ≤ r.2.progress) ∧ r.2.startedAt ≤ r.2.progress)
    (store : Store PhaseId) : Ordered title t store := by
  intro p _
  have hentries : ∀ e ∈ entriesAt title t p, (∀ ended ∈ e.endedAt, ended ≤ e.progress) ∧ e.startedAt ≤ e.progress := by
    intro e he
    obtain ⟨r, hr, rfl⟩ := List.mem_map.mp he
    exact h r (List.mem_filter.mp hr).1
  cases hcase : entriesAt title t p with
  | nil => trivial
  | cons e es =>
    obtain ⟨hended, hstarted⟩ := hentries e (hcase ▸ List.mem_cons_self)
    exact ⟨hended, fun _ => hstarted⟩

theorem second_sync {title : String → String} {t : Tables} {stamps again : Nat → Int}
    {store store' store'' : Store PhaseId} (h : syncFromSources title t stamps store = some store') (hordered : Ordered title t store)
    (h' : syncFromSources title t again store' = some store'') : Unchanged store' store'' := by
  intro p
  obtain ⟨ws, hws, hrow⟩ := sync_row h p
  obtain ⟨vs, hvs, hrow'⟩ := sync_row h' p
  have hentries : vs.map (·.entry) = ws.map (·.entry) := hvs.trans hws.symm
  cases ws with
  | nil =>
    rw [List.map_nil, List.map_eq_nil_iff] at hentries
    rw [hrow', hentries]
    exact sameColumns_self _
  | cons w ws =>
    cases vs with
    | nil => cases hentries
    | cons v vs =>
      obtain ⟨row, hsome⟩ : ∃ row, store' p = some row := ⟨_, hrow⟩
      obtain ⟨row', hsome'⟩ : ∃ row', store'' p = some row' := ⟨_, hrow'⟩
      rw [hsome] at hrow hrow' ⊢
      rw [hsome'] at hrow' ⊢
      refine .some (second_pass hrow.symm ?_ hentries hrow'.symm)
      intro hnone
      rw [hws]
      exact hordered p hnone

/-! ### Runs -/

/-- The source tables and the stored phases. -/
structure Cockpit where
  tables : Tables
  store : Store PhaseId

inductive CockpitMove where
  | edit (tables : Tables)
  | sync (stamps : Nat → Int)

namespace Cockpit

variable (title : String → String)

def exec (c : Cockpit) : CockpitMove → Cockpit
  | .edit tables => { c with tables := tables }
  | .sync stamps => { c with store := (syncFromSources title c.tables stamps c.store).getD c.store }

def Proper (c : Cockpit) : CockpitMove → Prop
  | .edit _ => True
  | .sync _ => Decides c.tables c.store ∧ Ordered title c.tables c.store

theorem proper_here {c : Cockpit} {before after : List CockpitMove} {m : CockpitMove}
    (h : Replays (Proper title) (exec title) c (before ++ m :: after)) :
    Proper title (before.foldl (exec title) c) m := by
  induction before generalizing c with
  | nil => exact h.1
  | cons first before ih => exact ih h.2

theorem sync_again {t : Tables} {stamps : Nat → Int} {store store' : Store PhaseId}
    (h : syncFromSources title t stamps store = some store') (hordered : Ordered title t store) (again : Nat → Int) :
    Unchanged store' (exec title ⟨t, store'⟩ (.sync again)).store := by
  change Unchanged store' ((syncFromSources title t again store').getD store')
  cases hagain : syncFromSources title t again store' with
  | none => exact fun p => sameColumns_self (store' p)
  | some store'' => exact second_sync h hordered hagain

/-- A completed sync leaves every phase reported as it should be if and only if the deciding steps
speak for their phases, and in a run that keeps to this and to the order of first entries each
completed sync does, with nothing left for a second one. -/
theorem cockpit_honest :
    (∀ t stamps store store', syncFromSources title t stamps store = some store' →
      (Honest t store' ↔ Decides t store)) ∧
    ∀ (tables : Tables) (before after : List CockpitMove) (stamps : Nat → Int),
      Replays (Proper title) (exec title) ⟨tables, fun _ => none⟩ (before ++ .sync stamps :: after) →
      ∀ c, before.foldl (exec title) ⟨tables, fun _ => none⟩ = c →
      ∀ store', syncFromSources title c.tables stamps c.store = some store' →
        Honest c.tables store' ∧ ∀ again, Unchanged store' (exec title ⟨c.tables, store'⟩ (.sync again)).store := by
  refine ⟨fun t stamps store store' h => honest_iff h, ?_⟩
  rintro tables before after stamps hrun c rfl store' hsync
  obtain ⟨hdecides, hordered⟩ := proper_here title hrun
  exact ⟨(honest_iff hsync).mpr hdecides, sync_again title hsync hordered⟩

end Cockpit

/-! ### Two runs -/

def winpeRun (applyWim : String) (finishedAt : Option Int) : Tables where
  jobs := []
  legacyRuns :=
    [ { id := 1, vmid := some 101, provisionPath := .winpe, state := "awaiting_winpe", vmUuid := none, startedAt := 10
        finishedAt := none, lastError := none } ]
  legacySteps :=
    [ { id := 1, runId := 1, orderIndex := 0, phase := "winpe", kind := "partition", state := "ok"
        startedAt := some 20, finishedAt := some 25, error := none }
    , { id := 2, runId := 1, orderIndex := 1, phase := "winpe", kind := "apply_wim", state := applyWim
        startedAt := some 30, finishedAt := finishedAt, error := none } ]
  tsRuns := []
  tsSteps := []
  workItems := []
  lastSeen _ := none
  cloudosdRuns := []
  readiness := []

namespace Cockpit

theorem winpeRun_honest : ∃ store',
    syncFromSources id (winpeRun "ok" (some 35)) (fun _ => 40) (fun _ => none) = some store' ∧
    Honest (winpeRun "ok" (some 35)) store' ∧
      ∀ again, Unchanged store' (exec id ⟨winpeRun "ok" (some 35), store'⟩ (.sync again)).store := by
  have hfinished : ∀ p, AllFinished (winpeRun "ok" (some 35)) p := by
    have hall : ∀ step ∈ allSteps (winpeRun "ok" (some 35)), step.2 ∈ ["ok", "done", "skipped"] := by decide
    exact fun p step hstep _ => hall step hstep
  have hfailed : ∀ p, ¬ SomeFailed (winpeRun "ok" (some 35)) p := by
    have hall : ∀ step ∈ allSteps (winpeRun "ok" (some 35)), step.2 ∉ ["error", "failed"] := by decide
    exact fun p ⟨step, hstep, _, hstate⟩ => hall step hstep hstate
  have hdecides : Decides (winpeRun "ok" (some 35)) fun _ => none :=
    fun p => ⟨fun _ => hfinished p, fun h => absurd h (hfailed p)⟩
  have hordered : Ordered id (winpeRun "ok" (some 35)) fun _ => none := firstInOrder_of_all (by decide) _
  refine ⟨_, rfl, ?_⟩
  exact (cockpit_honest id).2 (winpeRun "ok" (some 35)) [] [] (fun _ => 40) ⟨⟨hdecides, hordered⟩, trivial⟩ _ rfl _ rfl

/-- The image is being applied and the phase is reported done. -/
theorem running_step_covered :
    ∃ store', syncFromSources id (winpeRun "running" none) (fun _ => 40) (fun _ => none) = some store' ∧
      ¬ Honest (winpeRun "running" none) store' := by
  refine ⟨_, rfl, fun h => ?_⟩
  have hphase := h ⟨.legacy .winpe 1, "partition_apply_wim"⟩ _ rfl
  exact absurd (hphase.1 (by decide)) (by unfold AllFinished; decide)

end Cockpit

end ProxmoxVEAutopilot.Health
