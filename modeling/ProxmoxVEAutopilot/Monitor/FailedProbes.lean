import ProxmoxVEAutopilot.Monitor.Timeline

/-!
# Failed probes

A lookup that fails, or that is not made because the guest does not answer, leaves the same
empty list as an object that is gone, and the detectors see only the list. While the
directories stay as they are, the timeline is free of regressions exactly when no sweep
misses what the sweep before it found.
-/

namespace ProxmoxVEAutopilot.Monitor

open Foundation
set_option autoImplicit false

/-- What the directories answer; an `objectGUID` names one object. -/
structure Directory where
  ad : String → String → List AdEntry
  entra : String → List EntraDevice
  entraById : String → List EntraDevice
  intune : String → List IntuneDevice
  oneObject : ∀ dn name dn' name', ∀ e ∈ ad dn name, ∀ e' ∈ ad dn' name', given e.objectGUID ≠ none →
    e.objectGUID = e'.objectGUID → e = e'

/-- Every call of the visit fails or gives what the directory has, and a guest that answers
gives the serial of the machine. -/
structure Unchanged (dir : Directory) (serial : Option String) (v : Visit) : Prop where
  ad : ∀ dn name found, v.ctx.adSearch dn name = .ok found → found = dir.ad dn name
  entra : ∀ name found, v.ctx.graphFindEntraDevice name = .ok found → found = dir.entra name
  entraById : ∀ id found, v.ctx.graphFindEntraDeviceByDeviceId id = .ok found → found = dir.entraById id
  intune : ∀ s found, v.ctx.graphFindIntuneDevice s = .ok found → found = dir.intune s
  guest : ∀ details, v.ctx.fetchGuestDetails v.vm.vmid v.node = .ok (some details) → details.serial = serial

section Found
variable (v : Visit)

/-- A search that answers, under the name that is asked for, has an object with a GUID. -/
def AdFound : Prop :=
  v.winName ≠ "" ∧ ∃ ou ∈ v.searchOus, ∃ found, v.ctx.adSearch ou.dn v.winName = .ok found ∧
    ∃ e ∈ found, given e.objectGUID ≠ none

/-- A hybrid device answers to the name. -/
def HybridByName : Prop :=
  v.winName ≠ "" ∧ v.searchOus ≠ [] ∧ ∃ found, v.ctx.graphFindEntraDevice v.winName = .ok found ∧
    ∃ m ∈ found, isServerAd m = true

/-- The name gives nothing, every id that Intune names is answered for, and one is a hybrid device's. -/
def HybridById : Prop :=
  (v.winName ≠ "" → v.searchOus ≠ [] → v.ctx.graphFindEntraDevice v.winName = .ok []) ∧ v.serial ≠ "" ∧
    ∃ devices, v.ctx.graphFindIntuneDevice v.serial = .ok devices ∧
      (∀ d ∈ devices, d.entraId ≠ "" → ∃ found, v.ctx.graphFindEntraDeviceByDeviceId d.entraId = .ok found) ∧
      ∃ d ∈ devices, d.entraId ≠ "" ∧ ∃ found, v.ctx.graphFindEntraDeviceByDeviceId d.entraId = .ok found ∧
        ∃ m ∈ found, isServerAd m = true

def IntuneFound : Prop :=
  v.serial ≠ "" ∧ ∃ found, v.ctx.graphFindIntuneDevice v.serial = .ok found ∧ found ≠ []

end Found

/-- What one sweep found in a directory, the next finds again. -/
structure StillFound (before after : Visit) : Prop where
  ad : AdFound before → AdFound after
  entra : HybridByName before ∨ HybridById before → HybridByName after ∨ HybridById after
  intune : IntuneFound before → IntuneFound after

def visitsOf (vmid : Int) (history : List SweepInput) : List Visit :=
  history.flatMap fun input => input.visits.filter fun v => v.vm.vmid = vmid

def rowsOf (probePve : Int → String → Json → VmEntry → Time → PveSnapshot) (vmid : Int)
    (history : List SweepInput) : List ProbeRow :=
  history.flatMap fun input => (sweep probePve input).probes.filter fun r => r.vmid = vmid

theorem rowsOf_eq (probePve : Int → String → Json → VmEntry → Time → PveSnapshot) (vmid : Int)
    (history : List SweepInput) : rowsOf probePve vmid history = (visitsOf vmid history).map Visit.row := by
  unfold rowsOf visitsOf
  rw [List.map_flatMap]
  apply List.flatMap_congr
  intro input _
  simp only [sweep, List.filter_map]
  rfl

section Index
variable {found : List AdMatch} {m : AdMatch} {guid : String}

theorem firstAdMatchByGuid_snoc (found : List AdMatch) (m : AdMatch) :
    firstAdMatchByGuid (found ++ [m]) = indexByGuid (firstAdMatchByGuid found) m := by
  simp [firstAdMatchByGuid]

theorem mem_firstAdMatchByGuid : ∀ {m : AdMatch} {guid : String}, (guid, m) ∈ firstAdMatchByGuid found →
    m ∈ found ∧ given m.objectGUID = some guid := by
  induction found using List.reverseRecOn with
  | nil =>
    intro m guid h
    cases h
  | append_singleton found last ih =>
    intro m guid h
    rw [firstAdMatchByGuid_snoc, indexByGuid] at h
    have hold : (guid, m) ∈ firstAdMatchByGuid found → m ∈ found ++ [last] ∧ given m.objectGUID = some guid :=
      fun hm => ⟨List.mem_append_left _ (ih hm).1, (ih hm).2⟩
    split at h
    · exact hold h
    · rename_i g hg
      split at h
      · exact hold h
      · rcases List.mem_append.mp h with h | h
        · exact hold h
        · cases List.mem_singleton.mp h
          exact ⟨List.mem_append_right _ (List.mem_singleton.mpr rfl), hg⟩

theorem firstAdMatchByGuid_eq_nil : firstAdMatchByGuid found = [] ↔ ∀ m ∈ found, given m.objectGUID = none := by
  induction found using List.reverseRecOn with
  | nil => simp [firstAdMatchByGuid]
  | append_singleton found last ih =>
    rw [firstAdMatchByGuid_snoc, indexByGuid]
    cases hg : given last.objectGUID with
    | none => simp [ih, hg, or_imp, forall_and]
    | some g =>
      have hlast : ¬ ∀ m ∈ found ++ [last], given m.objectGUID = none := by
        intro h
        have := h last (by simp)
        rw [hg] at this
        cases this
      simp only [hlast, iff_false]
      split
      · rename_i hsome
        intro hnil
        rw [hnil] at hsome
        cases hsome
      · simp

end Index

/-- Not a regression of a directory. -/
def Quiet (e : Event) : Prop := e.severity = .regression → e.source = .pve

section Pairs
variable {lowerCase : String → String} {window : Nat} {prev row : ProbeRow}

theorem quiet_of_severity {e : Event} (h : e.severity ≠ .regression) : Quiet e := fun hsev => absurd hsev h

theorem quiet_if {c : Prop} [Decidable c] {e : Event} (h : e.severity ≠ .regression) :
    ∀ x ∈ (if c then [e] else []), Quiet x := by
  intro x hx
  split at hx
  · rw [List.mem_singleton.mp hx]
    exact quiet_of_severity h
  · cases hx

theorem quiet_adObjectChange {atTime : Time} {guid : String} {before after : AdMatch} :
    (∀ e ∈ adObjectChange lowerCase atTime guid before after, Quiet e) ↔
      ¬ (before.disabled = false ∧ after.disabled = true) := by
  unfold adObjectChange
  simp only [List.mem_append, or_imp, forall_and]
  constructor
  · intro ⟨_, hflip⟩ ⟨hbefore, hafter⟩
    simp [hbefore, hafter, Quiet] at hflip
  · intro hnot
    refine ⟨⟨quiet_if (by simp), quiet_if (by simp)⟩, ?_⟩
    intro e he
    split at he
    · rename_i hflip
      simp only [Bool.and_eq_true, Bool.not_eq_true'] at hflip
      exact absurd hflip hnot
    · exact quiet_if (by simp) e he

/-- No object that both rows have got disabled, and not all objects are gone. -/
structure AdQuiet (prev row : ProbeRow) : Prop where
  kept : firstAdMatchByGuid prev.adMatches ≠ [] → firstAdMatchByGuid row.adMatches ≠ []
  enabled : ∀ p ∈ firstAdMatchByGuid prev.adMatches, ∀ now,
    (firstAdMatchByGuid row.adMatches).lookup p.1 = some now → ¬ (p.2.disabled = false ∧ now.disabled = true)

theorem quiet_adChange : (∀ e ∈ adChange lowerCase prev row, Quiet e) ↔ AdQuiet prev row := by
  unfold adChange
  simp only [List.mem_append, or_imp, forall_and]
  constructor
  · intro ⟨⟨hsame, _⟩, hgone⟩
    constructor
    · intro hbefore hafter
      obtain ⟨p, rest, hp⟩ := List.exists_cons_of_ne_nil hbefore
      have hquiet := hgone _ (List.mem_map.mpr ⟨p, List.mem_filter.mpr ⟨?_, ?_⟩, rfl⟩)
      · simp [Quiet, hafter] at hquiet
      · rw [hp]
        exact List.mem_cons_self
      · rw [hafter]
        rfl
    · intro p hp now hnow
      have hobject : (∀ e ∈ adObjectChange lowerCase row.checkedAt p.1 p.2 now, Quiet e) ↔ _ :=
        quiet_adObjectChange
      apply hobject.mp
      intro e he
      apply hsame e
      refine List.mem_flatMap.mpr ⟨p, hp, ?_⟩
      rw [hnow]
      exact he
  · intro hquiet
    refine ⟨⟨?_, ?_⟩, ?_⟩
    · intro e he
      obtain ⟨p, hp, he⟩ := List.mem_flatMap.mp he
      split at he
      · rename_i now hnow
        exact quiet_adObjectChange.mpr (hquiet.enabled p hp now hnow) e he
      · cases he
    · intro e he
      obtain ⟨p, _, rfl⟩ := List.mem_map.mp he
      exact quiet_of_severity (by simp)
    · intro e he
      obtain ⟨p, hp, rfl⟩ := List.mem_map.mp he
      have hbefore : firstAdMatchByGuid prev.adMatches ≠ [] :=
        List.ne_nil_of_mem (List.mem_filter.mp hp).1
      apply quiet_of_severity
      simp [hquiet.kept hbefore]

def EntraQuiet (prev row : ProbeRow) : Prop :=
  prev.entraMatches.any isServerAd = true → row.entraMatches.any isServerAd = true

theorem quiet_entraChange : (∀ e ∈ entraChange prev row, Quiet e) ↔ EntraQuiet prev row := by
  unfold entraChange
  simp only [List.mem_append, or_imp, forall_and]
  constructor
  · intro ⟨⟨_, hlost⟩, _⟩ hbefore
    cases hafter : row.entraMatches.any isServerAd with
    | true => rfl
    | false => simp [hbefore, hafter, Quiet] at hlost
  · intro hkept
    refine ⟨⟨quiet_if (by simp), ?_⟩, quiet_if (by simp)⟩
    intro e he
    split at he
    · rename_i hlost
      simp only [Bool.and_eq_true, Bool.not_eq_true'] at hlost
      rw [hkept hlost.1] at hlost
      cases hlost.2
    · cases he

theorem quiet_syncPending {s : EntraState} {seen : Option Time} :
    ∀ e ∈ syncPending window s seen row, Quiet e := by
  unfold syncPending
  cases seen with
  | none => simp
  | some seen => exact quiet_if (by simp)

theorem quiet_brokenLinks : ∀ e ∈ brokenLinks row, Quiet e := by
  intro e he
  obtain ⟨m, _, hm⟩ := List.mem_filterMap.mp he
  split at hm
  · cases hm
  · split at hm
    · cases hm
      exact quiet_of_severity (by simp)
    · cases hm

/-- Intune keeps a device, and it does not turn noncompliant. -/
structure IntuneQuiet (prev row : ProbeRow) : Prop where
  kept : prev.intuneMatches ≠ [] → row.intuneMatches ≠ []
  compliant : ∀ p, given (complianceState prev.intuneMatches) = some p →
    given (complianceState row.intuneMatches) = some "noncompliant" → p = "noncompliant"

theorem quiet_complianceChange {atTime : Time} {before after : Option String} :
    (∀ e ∈ complianceChange atTime before after, Quiet e) ↔
      ∀ p, given before = some p → given after = some "noncompliant" → p = "noncompliant" := by
  unfold complianceChange
  cases given before with
  | none => simp
  | some p =>
    cases given after with
    | none => simp
    | some c =>
      simp only [Option.some.injEq, forall_eq']
      by_cases hpc : p = c
      · subst hpc
        simp
      · by_cases hc : c = "noncompliant"
        · subst hc
          simp [hpc, Quiet]
        · simp [hpc, hc, Quiet]

theorem quiet_intuneChange : (∀ e ∈ intuneChange prev row, Quiet e) ↔ IntuneQuiet prev row := by
  unfold intuneChange
  cases hbefore : prev.intuneMatches with
  | nil =>
    have hquiet : IntuneQuiet prev row := by
      constructor <;> simp [hbefore, complianceState, given]
    cases hafter : row.intuneMatches with
    | nil => simp [complianceChange, complianceState, given, hquiet]
    | cons d after => simp [hquiet, Quiet, enrolled]
  | cons d before =>
    cases hafter : row.intuneMatches with
    | nil =>
      constructor
      · intro h
        simp [Quiet] at h
      · intro hquiet
        exact absurd hafter (hquiet.kept (by simp [hbefore]))
    | cons d' after =>
      simp only
      rw [← hbefore, ← hafter, quiet_complianceChange]
      constructor
      · intro h
        exact ⟨fun _ => by simp [hafter], h⟩
      · intro hquiet
        exact hquiet.compliant

end Pairs

section Transitions
variable {lowerCase : String → String} {rows : List ProbeRow}

theorem source_pveTransitions (rows : List PveSnapshot) : ∀ e ∈ pveTransitions rows, e.source = .pve := by
  apply forall_walk
  intro prev row e he
  cases prev with
  | none =>
    rw [List.mem_singleton.mp he]
  | some prev =>
    change e ∈ pveChange prev row at he
    unfold pveChange at he
    split at he
    · rw [List.mem_singleton.mp he]
    · simp only [List.mem_append] at he
      rcases he with (he | he) | he
      · split at he
        · cases he
        · rw [List.mem_singleton.mp he]
      · split at he
        · rw [List.mem_singleton.mp he]
        · cases he
      · split at he
        · split at he
          · rw [List.mem_singleton.mp he]
          · rw [List.mem_singleton.mp he]
        · cases he

theorem quiet_adTransitions (lowerCase : String → String) : (∀ e ∈ adTransitions lowerCase rows, Quiet e) ↔ rows.IsChain AdQuiet := by
  refine forall_walk_iff (adStep lowerCase) id ?_ ?_ ?_ rows none
  · intro s r
    cases s with
    | none => rfl
    | some p => rfl
  · intro s r hs e he
    cases hs
    simp only [adStep] at he
    split at he
    · cases he
    · rw [List.mem_singleton.mp he]
      exact quiet_of_severity (by simp)
  · intro s p r hs
    cases hs
    exact quiet_adChange

theorem quiet_entraTransitions (window : Nat) :
    (∀ e ∈ entraTransitions window rows, Quiet e) ↔ rows.IsChain EntraQuiet := by
  refine forall_walk_iff (entraStep window) EntraState.prev ?_ ?_ ?_ rows {}
  · intro s r
    unfold entraStep
    cases s.prev with
    | none => rfl
    | some p => rfl
  · intro s r hs e he
    simp [entraStep, hs] at he
  · intro s p r hs
    simp only [entraStep, hs, List.mem_append, or_imp, forall_and]
    rw [quiet_entraChange]
    exact ⟨fun h => h.1.1, fun h => ⟨⟨h, quiet_syncPending⟩, quiet_brokenLinks⟩⟩

theorem quiet_intuneTransitions : (∀ e ∈ intuneTransitions rows, Quiet e) ↔ rows.IsChain IntuneQuiet := by
  refine forall_walk_iff intuneStep id ?_ ?_ ?_ rows none
  · intro s r
    cases s with
    | none => rfl
    | some p => rfl
  · intro s r hs e he
    cases hs
    simp only [intuneStep] at he
    split at he
    · cases he
    · rw [List.mem_singleton.mp he]
      exact quiet_of_severity (by simp [enrolled])
  · intro s p r hs
    cases hs
    exact quiet_intuneChange

theorem quiet_buildTimeline {pveRows : List PveSnapshot} :
    (∀ e ∈ buildTimeline lowerCase pveRows rows, Quiet e) ↔
      rows.IsChain fun prev row => AdQuiet prev row ∧ EntraQuiet prev row ∧ IntuneQuiet prev row := by
  rw [isChain_and_iff, isChain_and_iff, ← quiet_adTransitions lowerCase, ← quiet_entraTransitions 45,
    ← quiet_intuneTransitions]
  simp only [buildTimeline, List.mem_mergeSort, List.mem_append, or_imp, forall_and]
  constructor
  · exact fun h => ⟨h.1.1.2, h.1.2, h.2⟩
  · intro h
    exact ⟨⟨⟨fun e he _ => source_pveTransitions pveRows e he, h.1⟩, h.2.1⟩, h.2.2⟩

end Transitions

section Lookups
variable {ctx : MonitorContext} {name : String} {v v' : Visit}

theorem mem_probeAdForWinName {m : AdMatch} {ous : List SearchOu} :
    m ∈ (probeAdForWinName ctx name ous).1 ↔ ∃ ou ∈ ous, ∃ found, ctx.adSearch ou.dn name = .ok found ∧
      ∃ e ∈ found, m = { e with sourceOuDn := ou.dn, sourceOuLabel := ou.label } := by
  induction ous with
  | nil => simp [probeAdForWinName]
  | cons ou ous ih =>
    simp only [probeAdForWinName, List.mem_cons, exists_eq_or_imp]
    cases hsearch : ctx.adSearch ou.dn name with
    | error e => simp [ih]
    | ok found =>
      simp only [List.mem_append, List.mem_map, ih, Except.ok.injEq, exists_eq_left', eq_comm]

theorem probeEntraForDeviceIds_ok {ids : List String} : ∀ {seen : List String} {found : List EntraDevice},
    probeEntraForDeviceIds ctx seen ids = .ok found → ∀ id ∈ ids, id ≠ "" → id ∉ seen →
      ∃ ds, ctx.graphFindEntraDeviceByDeviceId id = .ok ds ∧ ∀ m ∈ ds, m ∈ found := by
  induction ids with
  | nil => simp
  | cons first ids ih =>
    intro seen found h id hid hne hnew
    rw [probeEntraForDeviceIds] at h
    split at h
    · rename_i hskip
      rcases List.mem_cons.mp hid with rfl | hid
      · exact absurd hskip (by simp [hne, hnew])
      · exact ih h id hid hne hnew
    · split at h
      · cases h
      · rename_i ds hds
        split at h
        · cases h
        · rename_i rest hrest
          cases h
          by_cases hfirst : id = first
          · subst hfirst
            exact ⟨ds, hds, fun m hm => List.mem_append_left _ hm⟩
          · have htail : id ∈ ids := (List.mem_cons.mp hid).resolve_left hfirst
            obtain ⟨ds', hds', hmem⟩ := ih hrest id htail hne (by simp [hfirst, hnew])
            exact ⟨ds', hds', fun m hm => List.mem_append_right _ (hmem m hm)⟩

theorem mem_probeEntraForDeviceIds {ids : List String} : ∀ {seen : List String} {found : List EntraDevice},
    probeEntraForDeviceIds ctx seen ids = .ok found → ∀ m ∈ found,
      ∃ id ∈ ids, id ≠ "" ∧ ∃ ds, ctx.graphFindEntraDeviceByDeviceId id = .ok ds ∧ m ∈ ds := by
  induction ids with
  | nil =>
    intro seen found h m hm
    cases h
    cases hm
  | cons first ids ih =>
    intro seen found h m hm
    have hlater : ∀ {seen : List String} {found : List EntraDevice},
        probeEntraForDeviceIds ctx seen ids = .ok found → m ∈ found → ∃ id ∈ first :: ids, id ≠ "" ∧
          ∃ ds, ctx.graphFindEntraDeviceByDeviceId id = .ok ds ∧ m ∈ ds := by
      intro seen found h hm
      obtain ⟨id, hid, hrest⟩ := ih h m hm
      exact ⟨id, List.mem_cons_of_mem _ hid, hrest⟩
    rw [probeEntraForDeviceIds] at h
    split at h
    · exact hlater h hm
    · rename_i hask
      split at h
      · cases h
      · rename_i ds hds
        split at h
        · cases h
        · rename_i rest hrest
          cases h
          rcases List.mem_append.mp hm with hm | hm
          · exact ⟨first, List.mem_cons_self, (not_or.mp hask).1, ds, hds, hm⟩
          · exact hlater hrest hm

theorem exists_probeEntraForDeviceIds {ids : List String}
    (h : ∀ id ∈ ids, id ≠ "" → ∃ ds, ctx.graphFindEntraDeviceByDeviceId id = .ok ds) :
    ∀ seen, ∃ found, probeEntraForDeviceIds ctx seen ids = .ok found := by
  induction ids with
  | nil => exact fun _ => ⟨[], rfl⟩
  | cons first ids ih =>
    intro seen
    have ih := ih fun id hid => h id (List.mem_cons_of_mem _ hid)
    rw [probeEntraForDeviceIds]
    split
    · exact ih seen
    · rename_i hask
      obtain ⟨ds, hds⟩ := h first List.mem_cons_self (not_or.mp hask).1
      obtain ⟨rest, hrest⟩ := ih (first :: seen)
      exact ⟨ds ++ rest, by rw [hds]; simp only [hrest]⟩

theorem intune_eq {devices : List IntuneDevice} (hserial : v.serial ≠ "")
    (h : v.ctx.graphFindIntuneDevice v.serial = .ok devices) : v.intune = (devices, none) := by
  simp [Visit.intune, hserial, h]

theorem intune_ne_nil (h : v.intune.1 ≠ []) :
    v.serial ≠ "" ∧ v.ctx.graphFindIntuneDevice v.serial = .ok v.intune.1 := by
  unfold Visit.intune at h ⊢
  split at h
  · rename_i hserial
    rw [if_pos hserial]
    split at h
    · rename_i found hfound
      exact ⟨hserial, by rw [hfound]⟩
    · exact absurd rfl h
  · exact absurd rfl h

theorem intuneFound_iff : IntuneFound v ↔ v.row.intuneMatches ≠ [] := by
  constructor
  · intro ⟨hserial, found, hfound, hne⟩
    change v.intune.1 ≠ []
    rw [intune_eq hserial hfound]
    exact hne
  · intro h
    obtain ⟨hserial, hfound⟩ := intune_ne_nil h
    exact ⟨hserial, _, hfound, h⟩

theorem adFound_iff : AdFound v ↔ firstAdMatchByGuid v.row.adMatches ≠ [] := by
  rw [Ne, firstAdMatchByGuid_eq_nil]
  constructor
  · intro ⟨hname, ou, hou, found, hfound, e, he, hguid⟩ hall
    have hous : v.searchOus ≠ [] := List.ne_nil_of_mem hou
    apply hguid
    apply hall { e with sourceOuDn := ou.dn, sourceOuLabel := ou.label }
    change _ ∈ v.ad.1
    rw [Visit.ad, if_pos ⟨hname, hous⟩]
    exact mem_probeAdForWinName.mpr ⟨ou, hou, found, hfound, e, he, rfl⟩
  · intro h
    push Not at h
    obtain ⟨m, hm, hguid⟩ := h
    change m ∈ v.ad.1 at hm
    unfold Visit.ad at hm
    split at hm
    · rename_i hasked
      obtain ⟨ou, hou, found, hfound, e, he, rfl⟩ := mem_probeAdForWinName.mp hm
      exact ⟨hasked.1, ou, hou, found, hfound, e, he, hguid⟩
    · cases hm

theorem entraByName_empty (hempty : v.entraByName.1 = []) (hok : v.entraByName.2 = none) :
    v.winName ≠ "" → v.searchOus ≠ [] → v.ctx.graphFindEntraDevice v.winName = .ok [] := by
  intro hname hous
  rw [Visit.entraByName, if_pos ⟨hname, hous⟩] at hempty hok
  split at hempty
  · rename_i found hfound
    rw [hfound, show found = [] from hempty]
  · rename_i e he
    simp [he] at hok

theorem entraByName_of_empty
    (h : v.winName ≠ "" → v.searchOus ≠ [] → v.ctx.graphFindEntraDevice v.winName = .ok []) :
    v.entraByName = ([], none) := by
  unfold Visit.entraByName
  split
  · rename_i hasked
    rw [h hasked.1 hasked.2]
  · rfl

theorem HybridByName.found (h : HybridByName v) : ∃ m ∈ v.entra.1, isServerAd m = true := by
  obtain ⟨hname, hous, found, hfound, m, hm, hserver⟩ := h
  have hbyName : v.entraByName = (found, none) := by
    simp [Visit.entraByName, hname, hous, hfound]
  have hnot : ¬ (v.entraByName.1 = [] ∧ v.intune.1 ≠ [] ∧ v.entraByName.2 = none) := by
    rw [hbyName]
    exact fun hnil => List.ne_nil_of_mem hm hnil.1
  refine ⟨m, ?_, hserver⟩
  rw [Visit.entra, if_neg hnot, hbyName]
  exact hm

theorem HybridById.found (h : HybridById v) : ∃ m ∈ v.entra.1, isServerAd m = true := by
  obtain ⟨hempty, hserial, devices, hdevices, hall, d, hd, hne, ds, hds, m, hm, hserver⟩ := h
  have hcond : v.entraByName.1 = [] ∧ v.intune.1 ≠ [] ∧ v.entraByName.2 = none := by
    rw [entraByName_of_empty hempty, intune_eq hserial hdevices]
    exact ⟨rfl, List.ne_nil_of_mem hd, rfl⟩
  -- Every id of Intune is answered for, so no answer of an earlier id is lost.
  have hids : ∀ id ∈ v.intune.1.map IntuneDevice.entraId, id ≠ "" →
      ∃ ds, v.ctx.graphFindEntraDeviceByDeviceId id = .ok ds := by
    intro id hid hne
    rw [intune_eq hserial hdevices] at hid
    obtain ⟨x, hx, rfl⟩ := List.mem_map.mp hid
    exact hall x hx hne
  obtain ⟨found, hfound⟩ := exists_probeEntraForDeviceIds hids []
  have hid : d.entraId ∈ v.intune.1.map IntuneDevice.entraId := by
    rw [intune_eq hserial hdevices]
    exact List.mem_map_of_mem hd
  obtain ⟨ds', hds', hmem⟩ := probeEntraForDeviceIds_ok hfound d.entraId hid hne (by simp)
  rw [hds] at hds'
  cases hds'
  refine ⟨m, ?_, hserver⟩
  rw [Visit.entra, if_pos hcond, hfound]
  exact hmem m hm

theorem hybridFound_iff : HybridByName v ∨ HybridById v ↔ v.row.entraMatches.any isServerAd = true := by
  change _ ↔ v.entra.1.any isServerAd = true
  rw [List.any_eq_true]
  constructor
  · intro h
    rcases h with h | h
    · exact h.found
    · exact h.found
  · intro ⟨m, hm, hserver⟩
    unfold Visit.entra at hm
    split at hm
    · rename_i hcond
      obtain ⟨hempty, hintune, hok⟩ := hcond
      obtain ⟨hserial, hdevices⟩ := intune_ne_nil hintune
      split at hm
      · rename_i found hfound
        obtain ⟨id, hid, hne, ds, hds, hmds⟩ := mem_probeEntraForDeviceIds hfound m hm
        obtain ⟨d, hd, rfl⟩ := List.mem_map.mp hid
        refine .inr ⟨entraByName_empty hempty hok, hserial, _, hdevices, ?_, d, hd, hne, ds, hds, m, hmds, hserver⟩
        intro x hx hxne
        obtain ⟨xs, hxs, _⟩ := probeEntraForDeviceIds_ok hfound x.entraId (List.mem_map_of_mem hx) hxne (by simp)
        exact ⟨xs, hxs⟩
      · cases hm
    · unfold Visit.entraByName at hm
      split at hm
      · rename_i hasked
        split at hm
        · rename_i found hfound
          exact .inl ⟨hasked.1, hasked.2, found, hfound, m, hm, hserver⟩
        · cases hm
      · cases hm

end Lookups

section Steady
variable {dir : Directory} {serial : Option String} {v v' : Visit}

theorem adMatch_eq (h : Unchanged dir serial v) (h' : Unchanged dir serial v') {m m' : AdMatch}
    (hm : m ∈ v.row.adMatches) (hm' : m' ∈ v'.row.adMatches) (hguid : given m.objectGUID ≠ none)
    (heq : m.objectGUID = m'.objectGUID) : m.toAdEntry = m'.toAdEntry := by
  have hentry : ∀ {u : Visit} {x : AdMatch}, Unchanged dir serial u → x ∈ u.row.adMatches →
      ∃ dn name, x.toAdEntry ∈ dir.ad dn name := by
    intro u x hu hx
    change x ∈ u.ad.1 at hx
    unfold Visit.ad at hx
    split at hx
    · obtain ⟨ou, _, found, hfound, e, he, rfl⟩ := mem_probeAdForWinName.mp hx
      rw [hu.ad _ _ _ hfound] at he
      exact ⟨_, _, he⟩
    · cases hx
  obtain ⟨dn, name, hmem⟩ := hentry h hm
  obtain ⟨dn', name', hmem'⟩ := hentry h' hm'
  exact dir.oneObject dn name dn' name' _ hmem _ hmem' hguid heq

theorem adQuiet_iff (h : Unchanged dir serial v) (h' : Unchanged dir serial v') :
    AdQuiet v.row v'.row ↔ (AdFound v → AdFound v') := by
  rw [adFound_iff, adFound_iff]
  constructor
  · exact AdQuiet.kept
  · intro hkept
    refine ⟨hkept, ?_⟩
    intro p hp now hnow ⟨hbefore, hafter⟩
    obtain ⟨hm, hguid⟩ := mem_firstAdMatchByGuid hp
    obtain ⟨_, rest, hlookup, _⟩ := List.lookup_eq_some_iff.mp hnow
    have hmem : (p.1, now) ∈ firstAdMatchByGuid v'.row.adMatches := by
      rw [hlookup]
      simp
    obtain ⟨hm', hguid'⟩ := mem_firstAdMatchByGuid hmem
    have heq : p.2.objectGUID = now.objectGUID := by
      rw [(Option.filter_eq_some_iff.mp hguid).1, (Option.filter_eq_some_iff.mp hguid').1]
    have hsame := adMatch_eq h h' hm hm' (by rw [hguid]; simp) heq
    rw [AdMatch.disabled, ← hsame] at hafter
    rw [AdMatch.disabled, hafter] at hbefore
    cases hbefore

theorem intuneMatches_eq (h : Unchanged dir serial v) (hne : v.row.intuneMatches ≠ []) :
    v.row.intuneMatches = dir.intune (serial.getD "") := by
  obtain ⟨hserial, hfound⟩ := intune_ne_nil hne
  have hasked : v.serial = serial.getD "" := by
    unfold Visit.serial Visit.guest at hserial ⊢
    split at hserial
    · rename_i hrunning
      rw [if_pos hrunning]
      split at hserial
      · rename_i details hdetails
        cases details with
        | none => exact absurd rfl hserial
        | some details =>
          simp only [Option.bind_some]
          rw [h.guest details hdetails]
      · exact absurd rfl hserial
    · exact absurd rfl hserial
  rw [← hasked]
  exact h.intune _ _ hfound

theorem intuneQuiet_iff (h : Unchanged dir serial v) (h' : Unchanged dir serial v') :
    IntuneQuiet v.row v'.row ↔ (IntuneFound v → IntuneFound v') := by
  rw [intuneFound_iff, intuneFound_iff]
  constructor
  · exact IntuneQuiet.kept
  · intro hkept
    refine ⟨hkept, ?_⟩
    intro p hbefore hafter
    have hne : v.row.intuneMatches ≠ [] := by
      intro hnil
      rw [hnil] at hbefore
      cases hbefore
    rw [intuneMatches_eq h hne] at hbefore
    rw [intuneMatches_eq h' (hkept hne), hbefore] at hafter
    exact Option.some.inj hafter

theorem quiet_iff_stillFound (h : Unchanged dir serial v) (h' : Unchanged dir serial v') :
    (AdQuiet v.row v'.row ∧ EntraQuiet v.row v'.row ∧ IntuneQuiet v.row v'.row) ↔ StillFound v v' := by
  rw [adQuiet_iff h h', intuneQuiet_iff h h', EntraQuiet, ← hybridFound_iff, ← hybridFound_iff]
  constructor
  · exact fun hq => ⟨hq.1, hq.2.1, hq.2.2⟩
  · exact fun hs => ⟨hs.ad, hs.entra, hs.intune⟩

end Steady

/-- While the directories do not change, the timeline of a machine has no regression of AD, Entra
or Intune if and only if each sweep finds what the sweep before it found. -/
theorem no_directory_regression_iff (lowerCase : String → String)
    (probePve : Int → String → Json → VmEntry → Time → PveSnapshot) (dir : Directory) (serial : Option String)
    (vmid : Int) (history : List SweepInput) (pveRows : List PveSnapshot)
    (h : ∀ v ∈ visitsOf vmid history, Unchanged dir serial v) :
    (∀ e ∈ buildTimeline lowerCase pveRows (rowsOf probePve vmid history),
      e.severity = .regression → e.source = .pve) ↔ (visitsOf vmid history).IsChain StillFound := by
  change (∀ e ∈ buildTimeline lowerCase pveRows (rowsOf probePve vmid history), Quiet e) ↔ _
  rw [quiet_buildTimeline, rowsOf_eq, List.isChain_map]
  apply List.IsChain.iff_of_mem_imp
  intro v v' hv hv'
  exact quiet_iff_stillFound (h v hv) (h v' hv')

def laptopEntry : AdEntry := { objectGUID := some "6f1d0c1e-77aa", cn := some "PC-7", userAccountControl := some 4096 }

def laptopDirectory : Directory where
  ad := fun _ name => if name = "PC-7" then [laptopEntry] else []
  entra := fun name => if name = "PC-7" then [{ id := some "e-7", trustType := some "ServerAd" }] else []
  entraById := fun _ => []
  intune := fun s => if s = "SERIAL7" then [{ id := some "i-7", complianceState := some "compliant" }] else []
  oneObject := by
    have hone : ∀ {name : String} {e : AdEntry}, e ∈ (if name = "PC-7" then [laptopEntry] else []) →
        e = laptopEntry := by
      intro name e he
      split at he
      · exact List.mem_singleton.mp he
      · cases he
    intro _ _ _ _ e he e' he' _ _
    rw [hone he, hone he']

def healthySweep : SweepInput where
  ctx :=
    { listPveVms := .ok [{ vmid := 7, name := some "pve-vm-7", node := some "pve2", status := some "running" }]
      fetchPveConfig := fun _ _ => .ok (.obj [])
      fetchGuestDetails := fun _ _ => .ok (some { winName := some "PC-7", serial := some "SERIAL7" })
      adSearch := fun dn name => .ok (laptopDirectory.ad dn name)
      graphFindEntraDevice := fun name => .ok (laptopDirectory.entra name)
      graphFindIntuneDevice := fun s => .ok (laptopDirectory.intune s)
      graphFindEntraDeviceByDeviceId := fun id => .ok (laptopDirectory.entraById id)
      snapshotNow := fun _ => 0
      probeNow := fun _ => 0 }
  searchOus := [⟨"OU=Lab,DC=corp", "lab"⟩, ⟨"DC=corp", "all"⟩]
  extraInScopeVmids := [7]

def withLdapDown (down : String → Bool) : SweepInput :=
  { healthySweep with
    ctx :=
      { healthySweep.ctx with
        adSearch := fun dn name =>
          if down dn then .error "SERVER_DOWN: can't contact LDAP server" else healthySweep.ctx.adSearch dn name } }

def laptopVisit (down : String → Bool) : Visit where
  ctx := (withLdapDown down).ctx
  searchOus := healthySweep.searchOus
  vm := { vmid := 7, name := some "pve-vm-7", node := some "pve2", status := some "running" }

theorem visits_laptop (before after : String → Bool) :
    visitsOf 7 [withLdapDown before, withLdapDown after] = [laptopVisit before, laptopVisit after] := by
  simp [visitsOf, SweepInput.visits, withLdapDown, healthySweep, laptopVisit]

theorem unchanged_laptop (down : String → Bool) : Unchanged laptopDirectory (some "SERIAL7") (laptopVisit down) := by
  constructor
  · intro dn name found h
    change (if down dn then _ else _) = _ at h
    split at h
    · cases h
    · cases h
      rfl
  · intro name found h
    cases h
    rfl
  · intro id found h
    cases h
    rfl
  · intro s found h
    cases h
    rfl
  · intro details h
    cases h
    rfl

theorem unchanged_visits (before after : String → Bool) :
    ∀ v ∈ visitsOf 7 [withLdapDown before, withLdapDown after],
      Unchanged laptopDirectory (some "SERIAL7") v := by
  rw [visits_laptop]
  intro v hv
  rcases List.mem_cons.mp hv with rfl | hv
  · exact unchanged_laptop _
  · rw [List.mem_singleton.mp hv]
    exact unchanged_laptop _

def oneBaseDown : List SweepInput := [withLdapDown fun _ => false, withLdapDown fun dn => dn == "OU=Lab,DC=corp"]

theorem one_base_down_is_no_regression :
    (visitsOf 7 oneBaseDown).IsChain StillFound ∧
    ∀ e ∈ buildTimeline id [] (rowsOf (fun vmid _ _ _ now => { checkedAt := now, vmid }) 7 oneBaseDown),
      e.severity = .regression → e.source = .pve := by
  have hfound : (visitsOf 7 oneBaseDown).IsChain StillFound := by
    rw [oneBaseDown, visits_laptop, List.isChain_pair]
    refine ⟨fun _ => ?_, fun _ => .inl ?_, fun _ => ?_⟩
    · exact ⟨by decide, ⟨"DC=corp", "all"⟩, by decide, [laptopEntry], rfl, laptopEntry, by decide, by decide⟩
    · exact ⟨by decide, by decide, _, rfl, _, List.mem_singleton.mpr rfl, rfl⟩
    · exact ⟨by decide, _, rfl, by decide⟩
  refine ⟨hfound, ?_⟩
  exact (no_directory_regression_iff id _ laptopDirectory (some "SERIAL7") 7 oneBaseDown []
    (unchanged_visits _ _)).mpr hfound

theorem ldap_outage_reads_as_regression :
    ¬ ∀ (lowerCase : String → String) (probePve : Int → String → Json → VmEntry → Time → PveSnapshot)
        (dir : Directory) (serial : Option String) (vmid : Int) (history : List SweepInput)
        (pveRows : List PveSnapshot), (∀ v ∈ visitsOf vmid history, Unchanged dir serial v) →
      ∀ e ∈ buildTimeline lowerCase pveRows (rowsOf probePve vmid history),
        e.severity = .regression → e.source = .pve := by
  intro h
  have hquiet := h id (fun vmid _ _ _ now => { checkedAt := now, vmid }) laptopDirectory (some "SERIAL7") 7
    [withLdapDown fun _ => false, withLdapDown fun _ => true] [] (unchanged_visits _ _)
  have hchain := quiet_buildTimeline.mp hquiet
  rw [rowsOf_eq, visits_laptop, List.map_cons, List.map_singleton, List.isChain_pair] at hchain
  exact hchain.1.kept (by decide) (by decide)

end ProxmoxVEAutopilot.Monitor
