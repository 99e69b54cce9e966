import ProxmoxVEAutopilot.Foundation.Runs
import ProxmoxVEAutopilot.OsDeploy.Cache

/-!
# A catalog refresh and the builds in flight

A refresh writes every seed anew. What it leaves of the cached images and of the builds in
flight is what lies outside the seeds.
-/

namespace ProxmoxVEAutopilot.OsDeploy.Cache

open Foundation
set_option autoImplicit false

section Refresh
variable {rows : List Entry} {r : Entry} {clock : Nat → Nat}

def seedIds : List String := serverImageSeeds.map fun seed => (seedValues seed).id

theorem mem_upsertEntry {now : Nat} {values : Values} (hr : r ∈ upsertEntry rows now values) :
    (r ∈ rows ∧ r.id ≠ values.id) ∨ (r.id = values.id ∧ r.status = (values.row now).status) := by
  rcases Table.mem_upsert.mp hr with hold | ⟨old, _, hkey, rfl⟩ | ⟨_, rfl⟩
  · exact .inl hold
  · exact .inr ⟨hkey, rfl⟩
  · exact .inr ⟨rfl, rfl⟩

theorem upsertEntry_keeps {now : Nat} {values : Values} (hr : r ∈ rows) (hid : r.id ≠ values.id) :
    r ∈ upsertEntry rows now values := Table.mem_upsert.mpr (.inl ⟨hr, hid⟩)

theorem mem_seeded {seeds : List ((String × String × String) × Nat)} :
    ∀ {rows : List Entry}, r ∈ seeds.foldl (fun rows x => upsertEntry rows (clock x.2) (seedValues x.1)) rows →
      (r ∈ rows ∧ ∀ x ∈ seeds, r.id ≠ (seedValues x.1).id) ∨
        ((∃ x ∈ seeds, r.id = (seedValues x.1).id) ∧ r.status = "discovered") := by
  induction seeds with
  | nil => exact fun hr => .inl ⟨hr, by simp⟩
  | cons x seeds ih =>
    intro rows hr
    rcases ih hr with ⟨hmem, hnot⟩ | ⟨⟨y, hy, hid⟩, hstatus⟩
    · rcases mem_upsertEntry hmem with ⟨hold, hne⟩ | ⟨hid, hstatus⟩
      · exact .inl ⟨hold, List.forall_mem_cons.mpr ⟨hne, hnot⟩⟩
      · exact .inr ⟨⟨x, List.mem_cons_self, hid⟩, hstatus⟩
    · exact .inr ⟨⟨y, List.mem_cons_of_mem _ hy, hid⟩, hstatus⟩

theorem seeded_keeps {seeds : List ((String × String × String) × Nat)} : ∀ {rows : List Entry}, r ∈ rows →
    (∀ x ∈ seeds, r.id ≠ (seedValues x.1).id) →
      r ∈ seeds.foldl (fun rows x => upsertEntry rows (clock x.2) (seedValues x.1)) rows := by
  induction seeds with
  | nil => exact fun hr _ => hr
  | cons x seeds ih =>
    intro rows hr hnot
    obtain ⟨hne, hnot⟩ := List.forall_mem_cons.mp hnot
    exact ih (upsertEntry_keeps hr hne) hnot

theorem notMem_seedIds : r.id ∉ seedIds ↔ ∀ x ∈ serverImageSeeds.zipIdx, r.id ≠ (seedValues x.1).id := by
  have hfst : serverImageSeeds.zipIdx.map Prod.fst = serverImageSeeds := List.zipIdx_map_fst 0 _
  have hids : seedIds = serverImageSeeds.zipIdx.map fun x => (seedValues x.1).id := by
    unfold seedIds
    nth_rewrite 1 [← hfst]
    rw [List.map_map]
    rfl
  rw [hids, List.mem_map]
  constructor
  · exact fun hnot x hx heq => hnot ⟨x, hx, heq.symm⟩
  · exact fun hnot ⟨x, hx, heq⟩ => hnot x hx heq.symm

theorem mem_refreshCatalog (hr : r ∈ refreshCatalog rows clock) : r.entryType ≠ "quality_update" ∧
    ((r ∈ rows ∧ r.id ∉ seedIds) ∨ (r.id ∈ seedIds ∧ r.status = "discovered")) := by
  obtain ⟨hmem, htype⟩ := List.mem_filter.mp hr
  refine ⟨of_decide_eq_true htype, ?_⟩
  rcases mem_seeded hmem with ⟨hold, hnot⟩ | ⟨⟨x, hx, hid⟩, hstatus⟩
  · exact .inl ⟨hold, notMem_seedIds.mpr hnot⟩
  · exact .inr ⟨by_contra fun hno => notMem_seedIds.mp hno x hx hid, hstatus⟩

theorem refreshCatalog_keeps (hr : r ∈ rows) (hid : r.id ∉ seedIds) (htype : r.entryType ≠ "quality_update") :
    r ∈ refreshCatalog rows clock :=
  List.mem_filter.mpr ⟨seeded_keeps hr (notMem_seedIds.mp hid), decide_eq_true htype⟩

end Refresh

section Rows

/-- Ids are unique, and `list_entries` has room for every row: refreshing is the only way to
new rows, and it adds seeds. -/
structure Kept (rows : List Entry) : Prop where
  ids : (rows.map Entry.id).Nodup
  few : (rows.map Entry.id).countP (fun id => id ∉ seedIds) ≤ 496

variable {rows rows' : List Entry} {r : Entry} {entryId : String}

theorem Kept.of_ids (h : Kept rows) (hids : rows'.map Entry.id = rows.map Entry.id) : Kept rows' :=
  ⟨hids ▸ h.ids, hids ▸ h.few⟩

theorem Kept.length_le (h : Kept rows) : rows.length ≤ 500 := by
  have hsplit := List.length_eq_countP_add_countP (fun id => decide (id ∉ seedIds)) (l := rows.map Entry.id)
  have hseeds : (rows.map Entry.id).countP (fun id => ! decide (id ∉ seedIds)) ≤ 4 := by
    rw [List.countP_eq_length_filter]
    have hsub : (rows.map Entry.id).filter (fun id => ! decide (id ∉ seedIds)) ⊆ seedIds := by
      intro id hid
      simpa using (List.mem_filter.mp hid).2
    exact ((h.ids.sublist List.filter_sublist).subperm hsub).length_le
  have hfew := h.few
  rw [List.length_map] at hsplit
  have hsame : (fun id => decide ¬(decide (id ∉ seedIds)) = true) = fun id => ! decide (id ∉ seedIds) := by
    funext id
    simp
  rw [hsame] at hsplit
  omega

theorem getEntry_iff (h : Kept rows) : getEntry rows entryId = some r ↔ r ∈ rows ∧ r.id = entryId := by
  constructor
  · intro hget
    exact ⟨List.mem_of_find?_eq_some hget, by simpa using List.find?_some hget⟩
  · rintro ⟨hr, rfl⟩
    exact Table.find?_key h.ids hr

theorem mem_warmingBuildEntries (h : Kept rows) : r ∈ warmingBuildEntries rows ↔ r ∈ rows ∧ r.warmsBuild := by
  have hlength : (rows.insertionSort newerFirst).length ≤ 500 := by
    rw [(List.perm_insertionSort newerFirst rows).length_eq]
    exact h.length_le
  unfold warmingBuildEntries listEntries
  rw [List.take_of_length_le hlength, List.mem_filter, List.mem_insertionSort, decide_eq_true_iff]

theorem warmingBuildEntries_ids (h : Kept rows) : ((warmingBuildEntries rows).map Entry.id).Nodup := by
  have hsorted : ((rows.insertionSort newerFirst).map Entry.id).Nodup :=
    ((List.perm_insertionSort newerFirst rows).map Entry.id).nodup_iff.mpr h.ids
  exact hsorted.sublist ((List.filter_sublist.trans (List.take_sublist _ _)).map _)

theorem kept_upsertEntry {now : Nat} {values : Values} (h : Kept rows) (hseed : values.id ∈ seedIds) :
    Kept (upsertEntry rows now values) := by
  have hids : (upsertEntry rows now values).map Entry.id = if values.id ∈ rows.map Entry.id then
      rows.map Entry.id else rows.map Entry.id ++ [values.id] := Table.map_key_upsert fun _ => rfl
  by_cases hmem : values.id ∈ rows.map Entry.id
  · exact h.of_ids (by rw [hids, if_pos hmem])
  · rw [if_neg hmem] at hids
    constructor
    · rw [hids]
      exact List.nodup_append.mpr ⟨h.ids, List.nodup_singleton _, by
        intro a ha b hb heq
        rw [List.mem_singleton] at hb
        exact hmem (hb ▸ heq ▸ ha)⟩
    · rw [hids, List.countP_append]
      simpa [hseed] using h.few

theorem kept_refreshCatalog {clock : Nat → Nat} (h : Kept rows) : Kept (refreshCatalog rows clock) := by
  have hseeded : ∀ seeds : List ((String × String × String) × Nat), (∀ x ∈ seeds, (seedValues x.1).id ∈ seedIds) →
      ∀ {rows : List Entry}, Kept rows →
        Kept (seeds.foldl (fun rows x => upsertEntry rows (clock x.2) (seedValues x.1)) rows) := by
    intro seeds
    induction seeds with
    | nil => exact fun _ _ h => h
    | cons x seeds ih =>
      intro hseeds rows h
      obtain ⟨hseed, hseeds⟩ := List.forall_mem_cons.mp hseeds
      exact ih hseeds (kept_upsertEntry h hseed)
  have hall := hseeded serverImageSeeds.zipIdx (fun x hx => List.mem_map.mpr ⟨x.1, List.fst_mem_of_mem_zipIdx hx, rfl⟩) h
  have hsub : ((refreshCatalog rows clock).map Entry.id).Sublist _ := List.filter_sublist.map Entry.id
  exact ⟨hall.ids.sublist hsub, hsub.countP_le.trans hall.few⟩

end Rows

section Reconciling
variable {w : World} {acc : List Entry × List String} {entry : Entry} {now : Nat} {j : String}

theorem reconcile_ids : (w.reconcile now acc entry).1.map Entry.id = acc.1.map Entry.id := by
  unfold World.reconcile
  split
  · exact Table.map_key_modify fun _ => rfl
  · split
    · exact Table.map_key_modify fun _ => rfl
    · rfl

theorem getEntry_modify {rows : List Entry} {k : String} {f : Entry → Entry} (hf : ∀ r, (f r).id = r.id) :
    getEntry (Table.modify Entry.id rows k f) j = (getEntry rows j).map fun r => if j = k then f r else r :=
  Table.find?_modify hf j

theorem getEntry_modify_ne {rows : List Entry} {k : String} {f : Entry → Entry} (hf : ∀ r, (f r).id = r.id)
    (hne : j ≠ k) : getEntry (Table.modify Entry.id rows k f) j = getEntry rows j := by
  rw [getEntry_modify hf]
  simp [hne]

/-- The reconciler has no news of the entry. -/
def World.NoNews (w : World) (entry : Entry) : Prop :=
  w.builtIso entry.buildWorkItemId = none ∧ w.failure entry.buildWorkItemId = none

theorem reconcile_other (h : j ≠ entry.id ∨ w.NoNews entry) :
    getEntry (w.reconcile now acc entry).1 j = getEntry acc.1 j := by
  unfold World.reconcile
  rcases h with hne | ⟨hiso, hfailure⟩
  · split
    · exact getEntry_modify_ne (fun _ => rfl) hne
    · split
      · exact getEntry_modify_ne (fun _ => rfl) hne
      · rfl
  · rw [hiso]
    dsimp only
    rw [hfailure]

theorem reconcile_finalized : acc.2 ⊆ (w.reconcile now acc entry).2 := by
  unfold World.reconcile
  split
  · exact List.subset_append_left _ _
  · split
    · exact List.Subset.refl _
    · exact List.Subset.refl _

variable {clock : Nat → Nat} {xs : List (Entry × Nat)}

theorem reconcileAll_ids : ∀ {acc : List Entry × List String},
    (xs.foldl (fun acc x => w.reconcile (clock x.2) acc x.1) acc).1.map Entry.id = acc.1.map Entry.id := by
  induction xs with
  | nil => exact rfl
  | cons x xs ih => exact ih.trans reconcile_ids

theorem reconcileAll_other : ∀ {acc : List Entry × List String}, (∀ x ∈ xs, j ≠ x.1.id ∨ w.NoNews x.1) →
    getEntry (xs.foldl (fun acc x => w.reconcile (clock x.2) acc x.1) acc).1 j = getEntry acc.1 j := by
  induction xs with
  | nil => exact fun _ => rfl
  | cons x xs ih =>
    intro acc h
    obtain ⟨hx, hxs⟩ := List.forall_mem_cons.mp h
    exact (ih hxs).trans (reconcile_other hx)

theorem reconcileAll_finalized : ∀ {acc : List Entry × List String},
    acc.2 ⊆ (xs.foldl (fun acc x => w.reconcile (clock x.2) acc x.1) acc).2 := by
  induction xs with
  | nil =>
    intro acc
    exact List.Subset.refl _
  | cons x xs ih =>
    intro acc
    exact List.Subset.trans reconcile_finalized ih

theorem kept_finalizeWarming (h : Kept w.entries) : Kept (w.finalizeWarmingCacheBuilds clock).1 :=
  h.of_ids reconcileAll_ids

def Finalised (result : List Entry × List String) (entryId : String) (iso : Artifact × Nat) : Prop :=
  entryId ∈ result.2 ∧ ∃ r, getEntry result.1 entryId = some r ∧ r.status = "ready" ∧ r.localPath = some iso.1.path ∧
    r.sha256 = some iso.1.sha256 ∧
    r.sizeBytes = some ((if iso.1.sizeBytes = 0 then iso.2 else iso.1.sizeBytes : Nat) : Int) ∧
    r.fileName = pathName iso.1.path

theorem reconcile_built {iso : Artifact × Nat} (hentry : ∃ r, getEntry acc.1 entry.id = some r)
    (hiso : w.builtIso entry.buildWorkItemId = some iso) : Finalised (w.reconcile now acc entry) entry.id iso := by
  obtain ⟨r, hr⟩ := hentry
  obtain ⟨artifact, size⟩ := iso
  unfold World.reconcile
  rw [hiso]
  refine ⟨List.mem_append_right _ (List.mem_singleton_self _), ?_⟩
  have hget : getEntry (finalizeFromBuild acc.1 now entry.id artifact.path
      (if artifact.sizeBytes = 0 then size else artifact.sizeBytes) artifact.sha256 (some (pathName artifact.path)))
      entry.id = _ := getEntry_modify fun _ => rfl
  rw [hr, Option.map_some, if_pos rfl] at hget
  exact ⟨_, hget, rfl, rfl, rfl, by simp, rfl⟩

theorem Finalised.stays {result result' : List Entry × List String} {iso : Artifact × Nat}
    (h : Finalised result j iso) (hget : getEntry result'.1 j = getEntry result.1 j) (hsub : result.2 ⊆ result'.2) :
    Finalised result' j iso := by
  obtain ⟨hmem, r, hr, hrest⟩ := h
  exact ⟨hsub hmem, r, hget.trans hr, hrest⟩

theorem finalizeWarming_built {iso : Artifact × Nat} (h : Kept w.entries) (hentry : entry ∈ warmingBuildEntries w.entries)
    (hiso : w.builtIso entry.buildWorkItemId = some iso) :
    Finalised (w.finalizeWarmingCacheBuilds clock) entry.id iso := by
  have hids : ((warmingBuildEntries w.entries).zipIdx.map fun x => x.1.id).Nodup := by
    have hfst : (warmingBuildEntries w.entries).zipIdx.map Prod.fst = warmingBuildEntries w.entries :=
      List.zipIdx_map_fst 0 _
    have hnodup := warmingBuildEntries_ids h
    rw [← hfst, List.map_map] at hnodup
    exact hnodup
  obtain ⟨i, hi⟩ := List.mem_iff_getElem?.mp hentry
  obtain ⟨front, back, hsplit⟩ := List.append_of_mem (List.mk_mem_zipIdx_iff_getElem?.mpr hi)
  rw [hsplit, List.map_append, List.map_cons] at hids
  have hfront : ∀ x ∈ front, entry.id ≠ x.1.id := by
    intro x hx heq
    exact (List.nodup_append.mp hids).2.2 _ (List.mem_map_of_mem hx) _ List.mem_cons_self heq.symm
  have hback : ∀ x ∈ back, entry.id ≠ x.1.id := by
    intro x hx heq
    exact (List.nodup_cons.mp (List.nodup_append.mp hids).2.1).1 (heq ▸ List.mem_map_of_mem hx)
  have hget : getEntry w.entries entry.id = some entry :=
    (getEntry_iff h).mpr ⟨((mem_warmingBuildEntries h).mp hentry).1, rfl⟩
  unfold World.finalizeWarmingCacheBuilds
  rw [hsplit, List.foldl_append, List.foldl_cons]
  refine (reconcile_built ⟨entry, ?_⟩ hiso).stays ?_ reconcileAll_finalized
  · exact (reconcileAll_other fun x hx => .inl (hfront x hx)).trans hget
  · exact reconcileAll_other fun x hx => .inl (hback x hx)

end Reconciling

section Calls
variable {w : World} {x : Timed} {entryId workItemId : String}

theorem kept_exec (h : Kept w.entries) (x : Timed) : Kept (w.exec x).entries := by
  obtain ⟨move, clock⟩ := x
  cases move with
  | refreshCatalog => exact kept_refreshCatalog h
  | markBuildDispatched => exact h.of_ids (Table.map_key_modify fun _ => rfl)
  | finalizeFromBuild => exact h.of_ids (Table.map_key_modify fun _ => rfl)
  | markStatus => exact h.of_ids (Table.map_key_modify fun _ => rfl)
  | finalizeWarmingCacheBuilds => exact kept_finalizeWarming h
  | upload => exact h
  | workItem => exact h

/-- A refresh loses neither a cached image nor a build in flight. -/
def Keeps (w : World) (x : Timed) : Prop := x.move = .refreshCatalog →
  (∀ e ∈ w.entries, e.status = "ready" → ∃ r ∈ (w.exec x).entries, r.id = e.id ∧ r.status = "ready" ∧
    r.localPath = e.localPath ∧ r.sha256 = e.sha256 ∧ r.sizeBytes = e.sizeBytes) ∧
  ∀ e ∈ warmingBuildEntries w.entries, ∃ r ∈ warmingBuildEntries (w.exec x).entries, r.id = e.id ∧
    r.buildWorkItemId = e.buildWorkItemId

/-- A refresh is called only while no seed and no retired update is ready or warms a build. -/
def Spares (w : World) (x : Timed) : Prop := x.move = .refreshCatalog →
  ∀ e ∈ w.entries, e.status = "ready" ∨ e.warmsBuild → e.id ∉ seedIds ∧ e.entryType ≠ "quality_update"

theorem spares_of_ne (hmove : x.move ≠ .refreshCatalog) : Spares w x := fun h => absurd h hmove

theorem keeps_of_spares (h : Kept w.entries) (hspares : Spares w x) : Keeps w x := by
  intro hmove
  have hrows : (w.exec x).entries = refreshCatalog w.entries x.clock := by
    unfold World.exec
    rw [hmove]
  rw [hrows]
  constructor
  · intro e he hready
    obtain ⟨hid, htype⟩ := hspares hmove e he (.inl hready)
    exact ⟨e, refreshCatalog_keeps he hid htype, rfl, hready, rfl, rfl, rfl⟩
  · intro e he
    obtain ⟨hmem, hwarms⟩ := (mem_warmingBuildEntries h).mp he
    obtain ⟨hid, htype⟩ := hspares hmove e hmem (.inr hwarms)
    refine ⟨e, ?_, rfl, rfl⟩
    exact (mem_warmingBuildEntries (kept_refreshCatalog h)).mpr ⟨refreshCatalog_keeps hmem hid htype, hwarms⟩

theorem same_of_refreshed {rows : List Entry} {clock : Nat → Nat} {e r : Entry} (h : Kept rows) (he : e ∈ rows)
    (hr : r ∈ refreshCatalog rows clock) (hid : r.id = e.id) (hstatus : r.status ≠ "discovered") :
    e.id ∉ seedIds ∧ e.entryType ≠ "quality_update" := by
  obtain ⟨htype, ⟨hmem, hnot⟩ | ⟨_, hdiscovered⟩⟩ := mem_refreshCatalog hr
  · have hsame : r = e := List.inj_on_of_nodup_map h.ids hmem he hid
    exact hsame ▸ ⟨hnot, htype⟩
  · exact absurd hdiscovered hstatus

theorem spares_of_keeps (h : Kept w.entries) (hkeeps : Keeps w x) : Spares w x := by
  intro hmove e he hkind
  have hrows : (w.exec x).entries = refreshCatalog w.entries x.clock := by
    unfold World.exec
    rw [hmove]
  obtain ⟨hready, hwarming⟩ := hkeeps hmove
  rw [hrows] at hready hwarming
  rcases hkind with hstatus | hwarms
  · obtain ⟨r, hr, hid, hstill, _⟩ := hready e he hstatus
    exact same_of_refreshed h he hr hid (by rw [hstill]; decide)
  · obtain ⟨r, hr, hid, _⟩ := hwarming e ((mem_warmingBuildEntries h).mpr ⟨he, hwarms⟩)
    obtain ⟨hmem, hstill⟩ := (mem_warmingBuildEntries (kept_refreshCatalog h)).mp hr
    exact same_of_refreshed h he hmem hid (by rw [hstill.1]; decide)

/-- The entry is warming the build of the work item. -/
def Building (rows : List Entry) (entryId workItemId : String) : Prop :=
  ∃ r, getEntry rows entryId = some r ∧ r.status = "warming" ∧ r.buildWorkItemId = workItemId

/-- Nothing but a refresh takes the entry away from its build: it is not dispatched again, its
status is not set, and no reconciler before the upload sees the work item failed. -/
def Undisturbed (entryId workItemId : String) (w : World) (x : Timed) : Prop :=
  match x.move with
  | .markBuildDispatched id _ _ => id ≠ entryId
  | .finalizeFromBuild id .. => id ≠ entryId
  | .markStatus id status .. => id = entryId → status = "warming"
  | .finalizeWarmingCacheBuilds => w.builtIso workItemId = none ∧ w.failure workItemId = none
  | _ => True

theorem building_dispatch {rows : List Entry} {now : Nat} {jobId : Option String} {e : Entry}
    (hget : getEntry rows entryId = some e) :
    Building (markBuildDispatched rows now entryId workItemId jobId) entryId workItemId := by
  have hnew : getEntry (markBuildDispatched rows now entryId workItemId jobId) entryId = _ :=
    getEntry_modify fun _ => rfl
  rw [hget, Option.map_some, if_pos rfl] at hnew
  exact ⟨_, hnew, rfl, by simp [Entry.buildWorkItemId, setField]⟩

theorem Building.of_getEntry {rows rows' : List Entry} (h : Building rows entryId workItemId)
    (hget : getEntry rows' entryId = getEntry rows entryId) : Building rows' entryId workItemId := by
  obtain ⟨r, hr, hrest⟩ := h
  exact ⟨r, hget.trans hr, hrest⟩

theorem building_exec (h : Kept w.entries) (hnonempty : workItemId ≠ "") (hbuilding : Building w.entries entryId workItemId)
    (hspares : Spares w x) (hundisturbed : Undisturbed entryId workItemId w x) :
    Building (w.exec x).entries entryId workItemId := by
  obtain ⟨move, clock⟩ := x
  cases move with
  | refreshCatalog =>
    obtain ⟨r, hget, hstatus, hwork⟩ := hbuilding
    obtain ⟨hr, hid⟩ := (getEntry_iff h).mp hget
    obtain ⟨hseed, htype⟩ := hspares rfl r hr (.inr ⟨hstatus, hwork ▸ hnonempty⟩)
    exact ⟨r, (getEntry_iff (kept_refreshCatalog h)).mpr ⟨refreshCatalog_keeps hr hseed htype, hid⟩, hstatus, hwork⟩
  | markBuildDispatched id =>
    exact hbuilding.of_getEntry (getEntry_modify_ne (fun _ => rfl) (Ne.symm hundisturbed))
  | finalizeFromBuild id =>
    exact hbuilding.of_getEntry (getEntry_modify_ne (fun _ => rfl) (Ne.symm hundisturbed))
  | markStatus id status error localPath sizeBytes sha256Value =>
    by_cases hid : id = entryId
    · subst hid
      obtain ⟨r, hget, _, hwork⟩ := hbuilding
      have hnew : getEntry (markStatus w.entries (clock 0) id status error localPath sizeBytes sha256Value) id = _ :=
        getEntry_modify fun _ => rfl
      rw [hget, Option.map_some, if_pos rfl] at hnew
      exact ⟨_, hnew, hundisturbed rfl, hwork⟩
    · exact hbuilding.of_getEntry (getEntry_modify_ne (fun _ => rfl) (Ne.symm hid))
  | finalizeWarmingCacheBuilds =>
    apply hbuilding.of_getEntry
    apply reconcileAll_other
    intro y hy
    by_cases hid : entryId = y.1.id
    · right
      obtain ⟨r, hget, _, hwork⟩ := hbuilding
      have hwarming : y.1 ∈ warmingBuildEntries w.entries := List.fst_mem_of_mem_zipIdx hy
      have hsame : getEntry w.entries entryId = some y.1 :=
        (getEntry_iff h).mpr ⟨((mem_warmingBuildEntries h).mp hwarming).1, hid.symm⟩
      obtain rfl : y.1 = r := Option.some.inj (hsame.symm.trans hget)
      unfold World.NoNews
      rw [hwork]
      exact hundisturbed
    · exact .inl hid
  | upload => exact hbuilding
  | workItem => exact hbuilding

end Calls

section Runs
variable {w : World} {moves : List Timed} {entryId workItemId : String}

theorem kept_foldl (h : Kept w.entries) : Kept (moves.foldl World.exec w).entries := by
  induction moves generalizing w with
  | nil => exact h
  | cons x moves ih => exact ih (kept_exec h x)

theorem building_foldl (h : Kept w.entries) (hnonempty : workItemId ≠ "")
    (hbuilding : Building w.entries entryId workItemId) (hspares : Replays Spares World.exec w moves)
    (hundisturbed : Replays (Undisturbed entryId workItemId) World.exec w moves) :
    Building (moves.foldl World.exec w).entries entryId workItemId := by
  induction moves generalizing w with
  | nil => exact hbuilding
  | cons x moves ih =>
    exact ih (kept_exec h x) (building_exec h hnonempty hbuilding hspares.1 hundisturbed.1) hspares.2 hundisturbed.2

/-- An ISO is registered for the work item, and the files registered for it are there. -/
def World.Uploaded (w : World) (workItemId : String) : Prop :=
  (∃ artifact ∈ w.artifacts, artifact.kind = "osdeploy-iso" ∧ artifact.workItemId = workItemId) ∧
    ∀ artifact ∈ w.artifacts, artifact.workItemId = workItemId → (w.files artifact.path).isSome

theorem builtIso_of_uploaded (h : w.Uploaded workItemId) : ∃ iso, w.builtIso workItemId = some iso ∧
    iso.1 ∈ w.artifacts ∧ iso.1.workItemId = workItemId := by
  obtain ⟨⟨artifact, hmem, hkind, hwork⟩, hfiles⟩ := h
  have hlisted : artifact ∈ w.listArtifacts "osdeploy-iso" :=
    (List.mem_insertionSort _).mpr (List.mem_filter.mpr ⟨hmem, decide_eq_true hkind⟩)
  obtain ⟨newest, hnewest⟩ : ∃ a, (w.listArtifacts "osdeploy-iso").find? (fun a => a.workItemId = workItemId) = some a :=
    Option.isSome_iff_exists.mp (List.find?_isSome.mpr ⟨artifact, hlisted, decide_eq_true hwork⟩)
  have hin : newest ∈ w.artifacts :=
    (List.mem_filter.mp ((List.mem_insertionSort _).mp (List.mem_of_find?_eq_some hnewest))).1
  have hits : newest.workItemId = workItemId := by simpa using List.find?_some hnewest
  obtain ⟨size, hsize⟩ := Option.isSome_iff_exists.mp (hfiles newest hin hits)
  refine ⟨(newest, size), ?_, hin, hits⟩
  unfold World.builtIso
  rw [hnewest, Option.bind_some, hsize, Option.map_some]

/-- Where a dispatched build goes undisturbed and has uploaded its ISO, the next reconciler
finalises the entry with an ISO of that build. -/
def FinalisesUploads (w : World) (moves : List Timed) : Prop :=
  ∀ front dispatch between finalize, front ++ dispatch :: (between ++ [finalize]) <+: moves →
    ∀ entryId workItemId jobId, dispatch.move = .markBuildDispatched entryId workItemId jobId → workItemId ≠ "" →
    finalize.move = .finalizeWarmingCacheBuilds → (∃ e ∈ (front.foldl World.exec w).entries, e.id = entryId) →
    Replays (Undisturbed entryId workItemId) World.exec ((front.foldl World.exec w).exec dispatch) between →
    (between.foldl World.exec ((front.foldl World.exec w).exec dispatch)).Uploaded workItemId →
    ∃ iso : Artifact × Nat, iso.1 ∈ (between.foldl World.exec ((front.foldl World.exec w).exec dispatch)).artifacts ∧
      iso.1.workItemId = workItemId ∧ Finalised
        ((between.foldl World.exec ((front.foldl World.exec w).exec dispatch)).finalizeWarmingCacheBuilds
          finalize.clock) entryId iso

theorem finalisesUploads (h : Kept w.entries) (hspares : Replays Spares World.exec w moves) :
    FinalisesUploads w moves := by
  intro front dispatch between finalize hprefix entryId workItemId jobId hdispatch hnonempty _ ⟨e, he, hid⟩ hundisturbed
    huploaded
  obtain ⟨rest, rfl⟩ := hprefix
  rw [List.append_assoc, List.cons_append, List.append_assoc] at hspares
  obtain ⟨_, _, hrest⟩ := replays_append.mp hspares
  have hbetween := (replays_append.mp hrest).1
  have hfront : Kept (front.foldl World.exec w).entries := kept_foldl h
  have hdispatched := kept_exec hfront dispatch
  have hbuilding : Building ((front.foldl World.exec w).exec dispatch).entries entryId workItemId := by
    unfold World.exec
    rw [hdispatch]
    exact building_dispatch ((getEntry_iff hfront).mpr ⟨he, hid⟩)
  obtain ⟨r, hget, hstatus, hwork⟩ := building_foldl hdispatched hnonempty hbuilding hbetween hundisturbed
  have hkept : Kept (between.foldl World.exec ((front.foldl World.exec w).exec dispatch)).entries :=
    kept_foldl hdispatched
  obtain ⟨hr, rfl⟩ := (getEntry_iff hkept).mp hget
  obtain ⟨iso, hiso, hregistered, hits⟩ := builtIso_of_uploaded huploaded
  refine ⟨iso, hregistered, hits, finalizeWarming_built hkept ?_ (hwork ▸ hiso)⟩
  exact (mem_warmingBuildEntries hkept).mpr ⟨hr, hstatus, hwork ▸ hnonempty⟩

/-- A refresh keeps the cache exactly where it finds no seed ready or warming a build, and
where every refresh does, dispatched builds are finalised. -/
theorem refresh_keeps_builds_iff (h : Kept w.entries) (moves : List Timed) :
    (Replays Keeps World.exec w moves ↔ Replays Spares World.exec w moves) ∧
      (Replays Spares World.exec w moves → FinalisesUploads w moves) := by
  refine ⟨⟨?_, ?_⟩, finalisesUploads h⟩
  · exact Replays.mono (fun w x h => kept_exec h x) (fun w x h => spares_of_keeps h) h
  · exact Replays.mono (fun w x h => kept_exec h x) (fun w x h => keeps_of_spares h) h

end Runs

section Example

def emptyWorld : World := ⟨[], [], fun _ => none, fun _ => none⟩

def atTime (now : Nat) (move : Move) : Timed := ⟨move, fun i => now + i⟩

def seedId : String := stableId ["server_image", "Windows Server 2025", "amd64", "Datacenter", "en-us"]

def builtArtifact : Artifact := ⟨"osdeploy-iso", "/artifacts/osdeploy-iso/server.iso", 4096, "c0ffee", "work-1", 30⟩

def warmRun : List Timed :=
  [atTime 0 .refreshCatalog, atTime 10 (.markBuildDispatched seedId "work-1" none), atTime 30 (.upload builtArtifact 4096),
    atTime 40 .finalizeWarmingCacheBuilds]

theorem kept_empty : Kept emptyWorld.entries := ⟨by simp [emptyWorld], by simp [emptyWorld]⟩

theorem seedId_mem : ∃ e ∈ (emptyWorld.exec (atTime 0 .refreshCatalog)).entries, e.id = seedId := by decide +kernel

/-- A refresh ends both the build in flight and the image that another build has left. -/
theorem refresh_loses_build_and_image :
    ¬ Replays Keeps World.exec emptyWorld (warmRun ++ [atTime 50 .refreshCatalog]) ∧
    ¬ FinalisesUploads emptyWorld
      [atTime 0 .refreshCatalog, atTime 10 (.markBuildDispatched seedId "work-1" none), atTime 20 .refreshCatalog,
        atTime 30 (.upload builtArtifact 4096), atTime 40 .finalizeWarmingCacheBuilds] := by
  constructor
  · intro hkeeps
    obtain ⟨_, hlast, _⟩ := replays_append.mp hkeeps
    have hready : ∃ e ∈ (warmRun.foldl World.exec emptyWorld).entries, e.status = "ready" := by decide +kernel
    have hnone : ∀ r ∈ ((warmRun.foldl World.exec emptyWorld).exec (atTime 50 .refreshCatalog)).entries,
        r.status ≠ "ready" := by decide +kernel
    obtain ⟨e, he, hstatus⟩ := hready
    obtain ⟨r, hr, _, hstill, _⟩ := (hlast rfl).1 e he hstatus
    exact hnone r hr hstill
  · intro hfinalises
    obtain ⟨iso, _, _, hmem, _⟩ := hfinalises [atTime 0 .refreshCatalog] (atTime 10 (.markBuildDispatched seedId "work-1" none))
      [atTime 20 .refreshCatalog, atTime 30 (.upload builtArtifact 4096)] (atTime 40 .finalizeWarmingCacheBuilds)
      (List.prefix_refl _) seedId "work-1" none rfl (by decide) rfl seedId_mem ⟨trivial, trivial, trivial⟩
      ⟨⟨builtArtifact, by decide +kernel, rfl, rfl⟩, by decide +kernel⟩
    revert hmem
    decide +kernel

theorem warmed_seed_is_finalised : ∃ iso : Artifact × Nat, Finalised
    (((warmRun.take 3).foldl World.exec emptyWorld).finalizeWarmingCacheBuilds fun i => 40 + i) seedId iso := by
  have hspares : Replays Spares World.exec emptyWorld warmRun :=
    ⟨fun _ e he => absurd he List.not_mem_nil, spares_of_ne nofun, spares_of_ne nofun, spares_of_ne nofun, trivial⟩
  obtain ⟨iso, _, _, hfinalised⟩ := (refresh_keeps_builds_iff kept_empty warmRun).2 hspares [atTime 0 .refreshCatalog]
    (atTime 10 (.markBuildDispatched seedId "work-1" none)) [atTime 30 (.upload builtArtifact 4096)]
    (atTime 40 .finalizeWarmingCacheBuilds) (List.prefix_refl _) seedId "work-1" none rfl (by decide) rfl seedId_mem
    ⟨trivial, trivial⟩ ⟨⟨builtArtifact, by decide +kernel, rfl, rfl⟩, by decide +kernel⟩
  exact ⟨iso, hfinalised⟩

end Example

end ProxmoxVEAutopilot.OsDeploy.Cache
