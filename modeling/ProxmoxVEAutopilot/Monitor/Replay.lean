import ProxmoxVEAutopilot.Monitor.Balance
import ProxmoxVEAutopilot.Monitor.FailedProbes

/-!
# The AD timeline replayed

The created and removed events of the AD detector, replayed from nothing, give after each row
the objects that the row has, in whatever order the events of one row come.
-/

namespace ProxmoxVEAutopilot.Monitor

open Foundation
set_option autoImplicit false

section Guids

def guidsOf (found : List AdMatch) : Finset String := (found.filterMap fun m => given m.objectGUID).toFinset

def ProbeRow.guids (row : ProbeRow) : Finset String := guidsOf row.adMatches

theorem mem_guidsOf {found : List AdMatch} {guid : String} :
    guid ∈ guidsOf found ↔ ∃ m ∈ found, given m.objectGUID = some guid := by
  unfold guidsOf
  rw [List.mem_toFinset, List.mem_filterMap]

theorem keys_firstAdMatchByGuid {found : List AdMatch} {guid : String} :
    guid ∈ (firstAdMatchByGuid found).map Prod.fst ↔ guid ∈ guidsOf found := by
  induction found using List.reverseRecOn with
  | nil => simp [firstAdMatchByGuid, guidsOf]
  | append_singleton found m ih =>
    have hsnoc : guid ∈ guidsOf (found ++ [m]) ↔ guid ∈ guidsOf found ∨ given m.objectGUID = some guid := by
      simp only [mem_guidsOf, List.mem_append, List.mem_singleton, or_and_right, exists_or, exists_eq_left]
    rw [firstAdMatchByGuid_snoc, hsnoc, ← ih]
    unfold indexByGuid
    cases hguid : given m.objectGUID with
    | none => simp
    | some own =>
      dsimp only
      split
      · rename_i hknown
        obtain ⟨p, hp, hkey⟩ := List.lookup_isSome_iff.mp hknown
        have hown : own ∈ (firstAdMatchByGuid found).map Prod.fst :=
          List.mem_map.mpr ⟨p, hp, (eq_of_beq hkey).symm⟩
        refine ⟨.inl, fun h => h.elim id fun heq => ?_⟩
        rwa [← Option.some.inj heq]
      · rw [List.map_append, List.mem_append, List.map_singleton, List.mem_singleton, Option.some.injEq,
          eq_comm (a := own)]

theorem lookup_firstAdMatchByGuid {found : List AdMatch} {guid : String} :
    ((firstAdMatchByGuid found).lookup guid).isNone = true ↔ guid ∉ guidsOf found := by
  rw [← keys_firstAdMatchByGuid, Option.isNone_iff_eq_none, List.lookup_eq_none_iff, List.mem_map]
  constructor
  · rintro h ⟨p, hp, rfl⟩
    have hne := h p hp
    simp at hne
  · intro h p hp
    rw [bne_iff_ne]
    exact fun hkey => h ⟨p, hp, hkey.symm⟩

theorem firstAdMatchByGuid_isEmpty {found : List AdMatch} :
    (firstAdMatchByGuid found).isEmpty = true ↔ guidsOf found = ∅ := by
  rw [List.isEmpty_iff, Finset.eq_empty_iff_forall_notMem]
  constructor
  · intro h guid hguid
    rw [← keys_firstAdMatchByGuid, h] at hguid
    cases hguid
  · intro h
    refine List.eq_nil_iff_forall_not_mem.mpr fun p hp => ?_
    exact h p.1 (keys_firstAdMatchByGuid.mp (List.mem_map_of_mem hp))

end Guids

section Replays

/-- The objects that an event names; the first event names those of all matches. -/
def Details.guids : Details → Finset String
  | .adMatches found => guidsOf found
  | .adNew guid _ => {guid}
  | .adGone guid _ => {guid}
  | _ => ∅

/-- A created event adds its objects, a removed event takes them away. -/
def replay (known : Finset String) (e : Event) : Finset String :=
  if e.type = "object-created" then known ∪ e.details.guids
  else if e.type = "object-removed" then known \ e.details.guids
  else known

def Creates (e : Event) (guid : String) : Prop := e.type = "object-created" ∧ guid ∈ e.details.guids

def Removes (e : Event) (guid : String) : Prop := e.type = "object-removed" ∧ guid ∈ e.details.guids

variable {es others : List Event} {known before after : Finset String} {guid : String}

theorem mem_replay {e : Event} : guid ∈ replay known e ↔ (guid ∈ known ∧ ¬ Removes e guid) ∨ Creates e guid := by
  unfold replay Creates Removes
  by_cases hcreated : e.type = "object-created"
  · rw [if_pos hcreated, Finset.mem_union, hcreated]
    simp
  · rw [if_neg hcreated]
    split
    · rename_i hremoved
      rw [Finset.mem_sdiff]
      simp [hremoved]
    · rename_i hremoved
      simp [hcreated, hremoved]

theorem mem_foldl_replay_of_not_removed (h : ∀ e ∈ es, ¬ Removes e guid) : ∀ {known : Finset String},
    guid ∈ es.foldl replay known ↔ guid ∈ known ∨ ∃ e ∈ es, Creates e guid := by
  induction es with
  | nil => simp
  | cons e es ih =>
    intro known
    obtain ⟨he, hes⟩ := List.forall_mem_cons.mp h
    rw [List.foldl_cons, ih hes, mem_replay, and_iff_left he, List.exists_mem_cons_iff, or_assoc]

theorem mem_foldl_replay_of_not_created (h : ∀ e ∈ es, ¬ Creates e guid) : ∀ {known : Finset String},
    guid ∈ es.foldl replay known ↔ guid ∈ known ∧ ∀ e ∈ es, ¬ Removes e guid := by
  induction es with
  | nil => simp
  | cons e es ih =>
    intro known
    obtain ⟨he, hes⟩ := List.forall_mem_cons.mp h
    rw [List.foldl_cons, ih hes, mem_replay, or_iff_left he, List.forall_mem_cons, and_assoc]

/-- The events say how the objects of a row differ from those before. -/
structure TellsChange (before after : Finset String) (es : List Event) : Prop where
  creates : ∀ guid, (∃ e ∈ es, Creates e guid) ↔ guid ∈ after ∧ guid ∉ before
  removes : ∀ guid, (∃ e ∈ es, Removes e guid) ↔ guid ∈ before ∧ guid ∉ after
  severity : ∀ e ∈ es, e.type = "object-removed" → (e.severity = .regression ↔ after = ∅)

theorem TellsChange.perm (h : TellsChange before after es) (hperm : others.Perm es) : TellsChange before after others where
  creates := by simpa only [hperm.mem_iff] using h.creates
  removes := by simpa only [hperm.mem_iff] using h.removes
  severity := by simpa only [hperm.mem_iff] using h.severity

theorem TellsChange.replay (h : TellsChange before after es) : es.foldl Monitor.replay before = after := by
  ext guid
  by_cases hafter : guid ∈ after
  · have hkept : ∀ e ∈ es, ¬ Removes e guid := fun e he hremoves => ((h.removes guid).mp ⟨e, he, hremoves⟩).2 hafter
    rw [mem_foldl_replay_of_not_removed hkept, h.creates guid]
    by_cases hbefore : guid ∈ before <;> simp [hafter, hbefore]
  · have hnew : ∀ e ∈ es, ¬ Creates e guid := fun e he hcreates => hafter ((h.creates guid).mp ⟨e, he, hcreates⟩).1
    rw [mem_foldl_replay_of_not_created hnew]
    refine iff_of_false (fun hknown => ?_) hafter
    obtain ⟨e, he, hremoves⟩ := (h.removes guid).mpr ⟨hknown.1, hafter⟩
    exact hknown.2 e he hremoves

end Replays

section Detector
variable {lowerCase : String → String} {prev row : ProbeRow} {guid : String}

theorem type_adObjectChange {atTime : Time} {before now : AdMatch} :
    ∀ e ∈ adObjectChange lowerCase atTime guid before now, e.type ≠ "object-created" ∧ e.type ≠ "object-removed" := by
  intro e he
  unfold adObjectChange at he
  dsimp only at he
  rcases List.mem_append.mp he with he | he
  · rcases List.mem_append.mp he with he | he
    · split at he
      · rw [List.mem_singleton.mp he]
        exact ⟨by simp, by simp⟩
      · cases he
    · split at he
      · rw [List.mem_singleton.mp he]
        exact ⟨by simp, by simp⟩
      · cases he
  · split at he
    · rw [List.mem_singleton.mp he]
      exact ⟨by simp, by simp⟩
    · split at he
      · rw [List.mem_singleton.mp he]
        exact ⟨by simp, by simp⟩
      · cases he

theorem mem_adChange {e : Event} (he : e ∈ adChange lowerCase prev row) :
    (e.type ≠ "object-created" ∧ e.type ≠ "object-removed") ∨
      (∃ guid, e.type = "object-created" ∧ e.details.guids = {guid} ∧ guid ∈ row.guids ∧ guid ∉ prev.guids) ∨
      ∃ guid, e.type = "object-removed" ∧ e.details.guids = {guid} ∧ guid ∈ prev.guids ∧ guid ∉ row.guids ∧
        (e.severity = .regression ↔ row.guids = ∅) := by
  unfold adChange at he
  dsimp only at he
  rcases List.mem_append.mp he with he | he
  · rcases List.mem_append.mp he with he | he
    · obtain ⟨p, _, he⟩ := List.mem_flatMap.mp he
      split at he
      · exact .inl (type_adObjectChange e he)
      · cases he
    · obtain ⟨p, hp, rfl⟩ := List.mem_map.mp he
      obtain ⟨hp, hnew⟩ := List.mem_filter.mp hp
      exact .inr (.inl ⟨p.1, rfl, rfl, keys_firstAdMatchByGuid.mp (List.mem_map_of_mem hp),
        lookup_firstAdMatchByGuid.mp hnew⟩)
  · obtain ⟨p, hp, rfl⟩ := List.mem_map.mp he
    obtain ⟨hp, hgone⟩ := List.mem_filter.mp hp
    refine .inr (.inr ⟨p.1, rfl, rfl, keys_firstAdMatchByGuid.mp (List.mem_map_of_mem hp),
      lookup_firstAdMatchByGuid.mp hgone, ?_⟩)
    dsimp only
    unfold ProbeRow.guids
    rw [← firstAdMatchByGuid_isEmpty]
    split <;> simp_all

theorem created_of_new (hafter : guid ∈ row.guids) (hbefore : guid ∉ prev.guids) :
    ∃ e ∈ adChange lowerCase prev row, Creates e guid := by
  obtain ⟨p, hp, rfl⟩ := List.mem_map.mp (keys_firstAdMatchByGuid.mpr hafter)
  have hnew := lookup_firstAdMatchByGuid.mpr hbefore
  refine ⟨_, List.mem_append_left _ (List.mem_append_right _ (List.mem_map_of_mem (List.mem_filter.mpr ⟨hp, hnew⟩))), rfl, ?_⟩
  exact Finset.mem_singleton_self _

theorem removed_of_gone (hbefore : guid ∈ prev.guids) (hafter : guid ∉ row.guids) :
    ∃ e ∈ adChange lowerCase prev row, Removes e guid := by
  obtain ⟨p, hp, rfl⟩ := List.mem_map.mp (keys_firstAdMatchByGuid.mpr hbefore)
  have hgone := lookup_firstAdMatchByGuid.mpr hafter
  refine ⟨_, List.mem_append_right _ (List.mem_map_of_mem (List.mem_filter.mpr ⟨hp, hgone⟩)), rfl, ?_⟩
  exact Finset.mem_singleton_self _

theorem tellsChange_adChange : TellsChange prev.guids row.guids (adChange lowerCase prev row) where
  creates := by
    intro guid
    refine ⟨fun ⟨e, he, htype, hguid⟩ => ?_, fun h => created_of_new h.1 h.2⟩
    rcases mem_adChange he with hother | ⟨own, _, hown, hafter, hbefore⟩ | ⟨own, hremoved, _⟩
    · exact absurd htype hother.1
    · rw [hown, Finset.mem_singleton] at hguid
      rw [hguid]
      exact ⟨hafter, hbefore⟩
    · rw [htype] at hremoved
      simp at hremoved
  removes := by
    intro guid
    refine ⟨fun ⟨e, he, htype, hguid⟩ => ?_, fun h => removed_of_gone h.1 h.2⟩
    rcases mem_adChange he with hother | ⟨own, hcreated, _⟩ | ⟨own, _, hown, hbefore, hafter, _⟩
    · exact absurd htype hother.2
    · rw [htype] at hcreated
      simp at hcreated
    · rw [hown, Finset.mem_singleton] at hguid
      rw [hguid]
      exact ⟨hbefore, hafter⟩
  severity := by
    intro e he htype
    rcases mem_adChange he with hother | ⟨own, hcreated, _⟩ | ⟨own, _, _, _, _, hseverity⟩
    · exact absurd htype hother.2
    · rw [htype] at hcreated
      simp at hcreated
    · exact hseverity

def guidsBefore (prev : Option ProbeRow) : Finset String := prev.elim ∅ ProbeRow.guids

theorem tellsChange_adStep (prev : Option ProbeRow) (row : ProbeRow) :
    TellsChange (guidsBefore prev) row.guids (adStep lowerCase prev row).1 := by
  cases prev with
  | some prev => exact tellsChange_adChange
  | none =>
    have hempty := @firstAdMatchByGuid_isEmpty row.adMatches
    unfold adStep
    dsimp only
    split
    · rename_i hnone
      rw [hnone] at hempty
      have hguids : row.guids = ∅ := hempty.mp rfl
      rw [hguids]
      exact ⟨by simp [guidsBefore], by simp [guidsBefore], by simp⟩
    · exact ⟨by simp [Creates, Details.guids, guidsBefore, ProbeRow.guids], by simp [Removes, guidsBefore], by simp⟩

/-- Row by row the replayed events give the objects of the row, leave alone what the row before
has too, and are a regression where nothing is left. -/
inductive Tracks : Finset String → List ProbeRow → List (List Event) → Prop where
  | nil (known : Finset String) : Tracks known [] []
  | row {known : Finset String} {row : ProbeRow} {rows : List ProbeRow} {es : List Event} {rest : List (List Event)}
      (replayed : es.foldl replay known = row.guids)
      (kept : ∀ e ∈ es, ∀ guid ∈ known, guid ∈ row.guids → ¬ Creates e guid ∧ ¬ Removes e guid)
      (severity : ∀ e ∈ es, e.type = "object-removed" → (e.severity = .regression ↔ row.guids = ∅))
      (later : Tracks row.guids rows rest) : Tracks known (row :: rows) (es :: rest)

theorem tracks_of_perm {rows : List ProbeRow} : ∀ {prev : Option ProbeRow} {emitted : List (List Event)},
    List.Forall₂ List.Perm emitted (walkRows (adStep lowerCase) prev rows) →
    Tracks (guidsBefore prev) rows emitted := by
  induction rows with
  | nil =>
    intro prev emitted h
    cases h
    exact .nil _
  | cons row rows ih =>
    intro prev emitted h
    obtain ⟨es, rest, hes, hrest, rfl⟩ := List.forall₂_cons_right_iff.mp h
    have htells := (tellsChange_adStep prev row).perm hes
    refine .row htells.replay (fun e he guid hbefore hafter => ?_) htells.severity ?_
    · exact ⟨fun hcreates => ((htells.creates guid).mp ⟨e, he, hcreates⟩).2 hbefore,
        fun hremoves => ((htells.removes guid).mp ⟨e, he, hremoves⟩).2 hafter⟩
    · have hnext : (adStep lowerCase prev row).2 = some row := by cases prev <;> rfl
      rw [hnext] at hrest
      exact ih hrest

/-- The detector's events, those of one row in any order, replay to the directory. -/
theorem ad_timeline_replays (lowerCase : String → String) (rows : List ProbeRow) (emitted : List (List Event))
    (hemitted : List.Forall₂ List.Perm emitted (walkRows (adStep lowerCase) none rows)) :
    emitted.flatten.Perm (adTransitions lowerCase rows) ∧ Tracks ∅ rows emitted := by
  refine ⟨?_, tracks_of_perm hemitted⟩
  unfold adTransitions
  rw [← flatten_walkRows]
  exact List.Perm.flatten_congr hemitted

end Detector

def laptopMatch : AdMatch where
  objectGUID := some "guid"
  sourceOuDn := "OU=Laptops"
  sourceOuLabel := "Laptops"

def laptopRows : List ProbeRow := [seenRow 0 [laptopMatch] [], seenRow 60 [] [], seenRow 120 [laptopMatch] []]

theorem laptop_timeline_replays :
    (walkRows (adStep id) none laptopRows).flatten.Perm (adTransitions id laptopRows) ∧
      Tracks ∅ laptopRows (walkRows (adStep id) none laptopRows) :=
  ad_timeline_replays id laptopRows _ (List.forall₂_same.mpr fun _ _ => List.Perm.refl _)

end ProxmoxVEAutopilot.Monitor
