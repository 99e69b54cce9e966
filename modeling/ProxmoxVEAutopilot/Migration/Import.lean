import ProxmoxVEAutopilot.Foundation.Lists
import ProxmoxVEAutopilot.Foundation.Takeover
import ProxmoxVEAutopilot.Sequences.Store

/-!
# Importing rows by name

How the script takes over credentials and sequences: a legacy row goes to the row of its
name, and to a new row, under an id that is free, where there is none.
-/

namespace ProxmoxVEAutopilot.Migration

open Foundation Sequences
set_option autoImplicit false

section Ids

def maxId (ids : List Int) : Int := ids.foldl max 0

def nextId (ids legacyIds : List Int) : Int := max (maxId ids) (maxId legacyIds) + 1

/-- The ids in use and the one to try next. -/
structure Ids where
  used : List Int
  next : Int

/-- `while next_ref[0] in used`; as many turns as there are ids are enough. -/
def firstFree (used : List Int) : Nat → Int → Int
  | 0, next => next
  | turns + 1, next => if next ∈ used then firstFree used turns (next + 1) else next

/-- `_choose_id` -/
def Ids.choose (ids : Ids) (rowId : Int) : Int × Ids :=
  if 0 < rowId ∧ rowId ∉ ids.used then (rowId, { ids with used := rowId :: ids.used })
  else
    let chosen := firstFree ids.used ids.used.length ids.next
    (chosen, ⟨chosen :: ids.used, chosen + 1⟩)

theorem le_maxId {ids : List Int} : 0 ≤ maxId ids ∧ ∀ i ∈ ids, i ≤ maxId ids := by
  unfold maxId
  have hall : ∀ (ids : List Int) (start : Int), start ≤ ids.foldl max start ∧ ∀ i ∈ ids, i ≤ ids.foldl max start := by
    intro ids
    induction ids with
    | nil => exact fun start => ⟨Int.le_refl _, by simp⟩
    | cons i ids ih =>
      intro start
      obtain ⟨hstart, hids⟩ := ih (max start i)
      rw [List.foldl_cons]
      refine ⟨Int.le_trans (Int.le_max_left _ _) hstart, fun j hj => ?_⟩
      rcases List.mem_cons.mp hj with rfl | hj
      · exact Int.le_trans (Int.le_max_right _ _) hstart
      · exact hids j hj
  exact hall ids 0

/-- The next id is ahead of every id in use. -/
structure Ids.Ahead (ids : Ids) : Prop where
  positive : 0 < ids.next
  used : ∀ i ∈ ids.used, i < ids.next

variable {ids : Ids} {rowId : Int}

/-- What `_choose_id` gives: the row's own id where it is free, else the next one. -/
structure Chosen (ids : Ids) (rowId : Int) (result : Int × Ids) : Prop where
  positive : 0 < result.1
  fresh : result.1 ∉ ids.used
  used : result.2.used = result.1 :: ids.used
  ahead : result.2.Ahead
  chosen : (result.1 = rowId ∧ result.2.next = ids.next) ∨
    (result.1 = ids.next ∧ result.2.next = ids.next + 1 ∧ (rowId ≤ 0 ∨ rowId ∈ ids.used))

theorem Ids.Ahead.chosen (h : ids.Ahead) (hrow : rowId < ids.next) : Chosen ids rowId (ids.choose rowId) := by
  have hnext : ids.next ∉ ids.used := fun hmem => Int.lt_irrefl _ (h.used _ hmem)
  unfold Ids.choose
  by_cases hown : 0 < rowId ∧ rowId ∉ ids.used
  · rw [if_pos hown]
    exact ⟨hown.1, hown.2, rfl, ⟨h.positive, List.forall_mem_cons.mpr ⟨hrow, h.used⟩⟩, .inl ⟨rfl, rfl⟩⟩
  · rw [if_neg hown]
    have hfree : firstFree ids.used ids.used.length ids.next = ids.next := by
      cases ids.used.length with
      | zero => rfl
      | succ turns => exact if_neg hnext
    dsimp only
    rw [hfree]
    refine ⟨h.positive, hnext, rfl, ⟨by have := h.positive; dsimp only; omega, ?_⟩, .inr ⟨rfl, rfl, ?_⟩⟩
    · refine List.forall_mem_cons.mpr ⟨by dsimp only; omega, fun i hi => ?_⟩
      have := h.used i hi
      dsimp only
      omega
    · by_contra hnot
      rw [not_or, not_le] at hnot
      exact hown hnot

theorem ahead_nextId {rowIds legacyIds : List Int} : Ids.Ahead ⟨rowIds, nextId rowIds legacyIds⟩ := by
  obtain ⟨hzero, hmax⟩ : 0 ≤ maxId rowIds ∧ ∀ i ∈ rowIds, i ≤ maxId rowIds := le_maxId
  constructor
  · unfold nextId
    dsimp only
    omega
  · intro i hi
    have := hmax i hi
    unfold nextId
    dsimp only
    omega

theorem lt_nextId {rowIds legacyIds : List Int} {i : Int} (hi : i ∈ legacyIds) : i < nextId rowIds legacyIds := by
  have := le_maxId.2 i hi
  unfold nextId
  omega

end Ids

section Importer

/-- What taking over one table by name needs. `newName` is the name of an inserted row and
`update` the columns that an existing one gets. -/
structure Importer (α ρ : Type) where
  legacyId : α → Int
  name : α → String
  newName : α → String
  id : ρ → Int
  rowName : ρ → String
  update : α → ρ → ρ
  insert : Int → α → ρ
  allowed : α → Bool
  nameConstraint : String
  checkConstraint : String

structure Importing (ρ : Type) where
  rows : List ρ
  ids : Ids
  byName : List (String × Int)
  idMap : List (Int × Int)
  updated : List Int

variable {α ρ : Type} (m : Importer α ρ)

def startImport (rows : List ρ) (legacy : List α) : Importing ρ where
  rows := rows
  ids := ⟨rows.map m.id, nextId (rows.map m.id) (legacy.map m.legacyId)⟩
  byName := rows.map fun r => (m.rowName r, m.id r)
  idMap := []
  updated := []

/-- An id that `by_name.get` gives counts unless it is zero. -/
def importRow (st : Importing ρ) (l : α) : Except StoreError (Importing ρ) :=
  match (st.byName.lookup (m.name l)).filter (· ≠ 0) with
  | some existing =>
    if m.allowed l then
      .ok { st with
        rows := Table.modify m.id st.rows existing (m.update l)
        idMap := (m.legacyId l, existing) :: st.idMap
        updated := existing :: st.updated }
    else .error (.checkViolation m.checkConstraint)
  | none =>
    let chosen := st.ids.choose (m.legacyId l)
    let new := m.insert chosen.1 l
    if m.rowName new ∈ st.rows.map m.rowName then .error (.uniqueViolation m.nameConstraint)
    else if m.allowed l then
      .ok { st with
        rows := st.rows ++ [new]
        ids := chosen.2
        byName := (m.name l, chosen.1) :: st.byName
        idMap := (m.legacyId l, chosen.1) :: st.idMap }
    else .error (.checkViolation m.checkConstraint)

def importRows (rows : List ρ) (legacy : List α) : Except StoreError (Importing ρ) :=
  legacy.foldlM (importRow m) (startImport m rows legacy)

/-- Neither an update nor the choice of the id touches what a row is found by. -/
structure Importer.Lawful : Prop where
  id_update : ∀ l r, m.id (m.update l r) = m.id r
  rowName_update : ∀ l r, m.rowName (m.update l r) = m.rowName r
  id_insert : ∀ i l, m.id (m.insert i l) = i
  rowName_insert : ∀ i l, m.rowName (m.insert i l) = m.newName l
  update_insert : ∀ i l, m.update l (m.insert i l) = m.insert i l
  newName : ∀ l, m.name l ≠ "" → m.newName l = m.name l
  newName_ne : ∀ l, m.newName l ≠ ""

/-- The rows as the tables' constraints have them; the ids come from sequences that begin at
one. -/
structure Importer.Table (rows : List ρ) : Prop where
  ids : (rows.map m.id).Nodup
  names : (rows.map m.rowName).Nodup
  positive : ∀ r ∈ rows, 0 < m.id r

def Importer.tag (rows : List ρ) : List (String × ρ) := rows.map fun r => (m.rowName r, r)

def Importer.mergeTagged (l : α) (t : String × ρ) : String × ρ := (t.1, m.update l t.2)

def Importer.target (tagged : List (String × ρ)) (name : String) : Int :=
  ((tagged.find? fun t => t.1 = name).map fun t => m.id t.2).getD 0

/-- The state of an import after the rows `done`. -/
structure Imports (legacy : List α) (rows : List ρ) (done : List α) (st : Importing ρ)
    (tagged fresh : List (String × ρ)) : Prop where
  takes : TakesOver Prod.fst m.name m.mergeTagged (m.tag rows) done tagged fresh
  rows : st.rows = tagged.map Prod.snd
  byName : ∀ name, st.byName.lookup name = (tagged.find? fun t => t.1 = name).map fun t => m.id t.2
  used : ∀ i, i ∈ st.ids.used ↔ i ∈ st.rows.map m.id
  ahead : st.ids.Ahead
  bound : ∀ l ∈ legacy, m.legacyId l < st.ids.next
  table : m.Table st.rows
  idMap : st.idMap = (done.map fun l => (m.legacyId l, m.target tagged (m.name l))).reverse
  updated : ∀ i ∈ st.updated, ∃ l ∈ done, m.target tagged (m.name l) = i
  others : ∀ l ∈ done, m.target tagged (m.name l) ∈ st.updated ∨
    m.target tagged (m.name l) ∈ fresh.map fun t => m.id t.2
  inserted : ∀ t ∈ fresh, ∃ i l, done.find? (fun l => m.name l = t.1) = some l ∧ t.2 = m.insert i l

variable {m} {st st' : Importing ρ} {rows : List ρ} {legacy done : List α} {tagged fresh : List (String × ρ)} {l : α}

theorem importRow_cases (h : importRow m st l = .ok st') : m.allowed l = true ∧
    ((∃ existing, st.byName.lookup (m.name l) = some existing ∧ existing ≠ 0 ∧ st' = { st with
        rows := Table.modify m.id st.rows existing (m.update l)
        idMap := (m.legacyId l, existing) :: st.idMap
        updated := existing :: st.updated }) ∨
    ((∀ i, st.byName.lookup (m.name l) = some i → i = 0) ∧
      m.rowName (m.insert (st.ids.choose (m.legacyId l)).1 l) ∉ st.rows.map m.rowName ∧ st' = { st with
        rows := st.rows ++ [m.insert (st.ids.choose (m.legacyId l)).1 l]
        ids := (st.ids.choose (m.legacyId l)).2
        byName := (m.name l, (st.ids.choose (m.legacyId l)).1) :: st.byName
        idMap := (m.legacyId l, (st.ids.choose (m.legacyId l)).1) :: st.idMap })) := by
  unfold importRow at h
  split at h
  · rename_i existing hfound
    obtain ⟨hlookup, hne⟩ := Option.filter_eq_some_iff.mp hfound
    split at h
    · rename_i hallowed
      exact ⟨hallowed, .inl ⟨existing, hlookup, by simpa using hne, (Except.ok.inj h).symm⟩⟩
    · cases h
  · rename_i hnone
    dsimp only at h
    split at h
    · cases h
    · rename_i hname
      split at h
      · rename_i hallowed
        refine ⟨hallowed, .inr ⟨fun i hi => ?_, hname, (Except.ok.inj h).symm⟩⟩
        rw [hi] at hnone
        simpa using hnone
      · cases h

theorem mergeTagged_key (l : α) (t : String × ρ) : (m.mergeTagged l t).1 = t.1 := rfl

theorem tag_keys : (m.tag rows).map Prod.fst = rows.map m.rowName := by
  unfold Importer.tag
  rw [List.map_map]
  rfl

theorem tag_rows : (m.tag rows).map Prod.snd = rows := by
  unfold Importer.tag
  rw [List.map_map]
  exact List.map_id rows

theorem imports_start (h : m.Table rows) :
    Imports m legacy rows [] (startImport m rows legacy) (m.tag rows) [] where
  takes := .nil _
  rows := tag_rows.symm
  byName := by
    intro name
    unfold startImport Importer.tag
    rw [lookup_map, List.find?_map, Option.map_map]
    rfl
  used := fun i => Iff.rfl
  ahead := ahead_nextId
  bound := fun l hl => lt_nextId (List.mem_map_of_mem hl)
  table := h
  idMap := rfl
  updated := fun i hi => absurd hi List.not_mem_nil
  others := fun l hl => absurd hl List.not_mem_nil
  inserted := fun t ht => absurd ht List.not_mem_nil

theorem Imports.tags_nodup (h : Imports m legacy rows done st tagged fresh) (htable : m.Table rows) :
    (tagged.map Prod.fst).Nodup := by
  apply h.takes.nodup_keys mergeTagged_key
  rw [tag_keys]
  exact htable.names

theorem Imports.id_iff (h : Imports m legacy rows done st tagged fresh) (htable : m.Table rows) {t x : String × ρ}
    (ht : t ∈ tagged) (hx : x ∈ tagged) : m.id x.2 = m.id t.2 ↔ x.1 = t.1 := by
  have hids : (tagged.map fun t => m.id t.2).Nodup := by
    have := h.table.ids
    rwa [h.rows, List.map_map] at this
  constructor
  · intro heq
    rw [List.inj_on_of_nodup_map hids hx ht heq]
  · intro heq
    rw [List.inj_on_of_nodup_map (h.tags_nodup htable) hx ht heq]

theorem find?_mergeTagged (hlaw : m.Lawful) (k name : String) :
    ((Table.modify Prod.fst tagged k (m.mergeTagged l)).find? fun t => t.1 = name).map (fun t => m.id t.2) =
      (tagged.find? fun t => t.1 = name).map fun t => m.id t.2 := by
  rw [Table.find?_modify (mergeTagged_key l), Option.map_map]
  congr 1
  funext t
  dsimp only [Function.comp_apply]
  split
  · exact hlaw.id_update l t.2
  · rfl

theorem Imports.update (hlaw : m.Lawful) (htable : m.Table rows) (h : Imports m legacy rows done st tagged fresh)
    {existing : Int} (hfound : st.byName.lookup (m.name l) = some existing) :
    Imports m legacy rows (done ++ [l])
      { st with
        rows := Table.modify m.id st.rows existing (m.update l)
        idMap := (m.legacyId l, existing) :: st.idMap
        updated := existing :: st.updated }
      (Table.modify Prod.fst tagged (m.name l) (m.mergeTagged l)) fresh := by
  rw [h.byName] at hfound
  obtain ⟨t, hfind, hid⟩ := Option.map_eq_some_iff.mp hfound
  have ht : t ∈ tagged := List.mem_of_find?_eq_some hfind
  have htag : t.1 = m.name l := by simpa using List.find?_some hfind
  have htarget : ∀ name, m.target (Table.modify Prod.fst tagged (m.name l) (m.mergeTagged l)) name = m.target tagged name := by
    intro name
    unfold Importer.target
    rw [find?_mergeTagged hlaw]
  have hexisting : m.target tagged (m.name l) = existing := by
    unfold Importer.target
    rw [hfound]
    rfl
  have hids : (Table.modify m.id st.rows existing (m.update l)).map m.id = st.rows.map m.id :=
    Table.map_key_modify (hlaw.id_update l)
  refine
    { takes := h.takes.merge (List.mem_map.mpr ⟨t, ht, htag⟩)
      rows := ?_, byName := ?_, used := ?_, ahead := h.ahead, bound := h.bound, table := ⟨?_, ?_, ?_⟩, idMap := ?_
      updated := ?_, others := ?_, inserted := ?_ }
  · dsimp only
    unfold Table.modify
    rw [h.rows, List.map_map, List.map_map]
    apply List.map_congr_left
    intro x hx
    have hiff := h.id_iff htable ht hx
    rw [hid, htag] at hiff
    dsimp only [Function.comp_apply]
    by_cases hk : x.1 = m.name l
    · rw [if_pos (hiff.mpr hk), if_pos hk]
      rfl
    · rw [if_neg fun heq => hk (hiff.mp heq), if_neg hk]
  · intro name
    rw [find?_mergeTagged hlaw]
    exact h.byName name
  · dsimp only
    rw [hids]
    exact h.used
  · dsimp only
    rw [hids]
    exact h.table.ids
  · dsimp only
    rw [Table.map_modify (hlaw.rowName_update l)]
    exact h.table.names
  · intro r hr
    have hmem := List.mem_map_of_mem (f := m.id) hr
    rw [hids] at hmem
    obtain ⟨old, hold, heq⟩ := List.mem_map.mp hmem
    exact heq ▸ h.table.positive old hold
  · dsimp only
    rw [h.idMap, List.map_append, List.reverse_append, List.map_singleton, List.reverse_singleton,
      List.singleton_append, htarget, hexisting]
    simp only [htarget]
  · intro i hi
    simp only [htarget]
    rcases List.mem_cons.mp hi with rfl | hi
    · exact ⟨l, List.mem_append_right _ (List.mem_singleton_self l), hexisting⟩
    · obtain ⟨l', hl', heq⟩ := h.updated i hi
      exact ⟨l', List.mem_append_left _ hl', heq⟩
  · intro l' hl'
    rw [htarget]
    rcases List.mem_append.mp hl' with hl' | hl'
    · exact (h.others l' hl').imp_left (List.mem_cons_of_mem _)
    · rw [List.mem_singleton.mp hl', hexisting]
      exact .inl List.mem_cons_self
  · intro x hx
    obtain ⟨i, l0, hfirst, hrow⟩ := h.inserted x hx
    exact ⟨i, l0, by rw [List.find?_append, hfirst]; rfl, hrow⟩

theorem Imports.insert (hlaw : m.Lawful) (h : Imports m legacy rows done st tagged fresh)
    (hl : l ∈ legacy) (hnew : ∀ i, st.byName.lookup (m.name l) = some i → i = 0)
    (hname : m.rowName (m.insert (st.ids.choose (m.legacyId l)).1 l) ∉ st.rows.map m.rowName) :
    Imports m legacy rows (done ++ [l])
      { st with
        rows := st.rows ++ [m.insert (st.ids.choose (m.legacyId l)).1 l]
        ids := (st.ids.choose (m.legacyId l)).2
        byName := (m.name l, (st.ids.choose (m.legacyId l)).1) :: st.byName
        idMap := (m.legacyId l, (st.ids.choose (m.legacyId l)).1) :: st.idMap }
      (tagged ++ [(m.name l, m.insert (st.ids.choose (m.legacyId l)).1 l)])
      (fresh ++ [(m.name l, m.insert (st.ids.choose (m.legacyId l)).1 l)]) := by
  have hchosen := h.ahead.chosen (h.bound l hl)
  set chosen := st.ids.choose (m.legacyId l)
  set new := m.insert chosen.1 l
  have hid : m.id new = chosen.1 := hlaw.id_insert _ _
  have hnone : tagged.find? (fun t => t.1 = m.name l) = none := by
    cases hfind : tagged.find? fun t => t.1 = m.name l with
    | none => rfl
    | some t =>
      have hzero := hnew (m.id t.2) (by rw [h.byName, hfind]; rfl)
      have hmem : t.2 ∈ st.rows := h.rows ▸ List.mem_map_of_mem (List.mem_of_find?_eq_some hfind)
      have := h.table.positive t.2 hmem
      omega
  have hout : m.name l ∉ tagged.map Prod.fst := by
    intro hmem
    obtain ⟨t, ht, heq⟩ := List.mem_map.mp hmem
    simpa [heq] using List.find?_eq_none.mp hnone t ht
  have hcovers : ∀ l' ∈ done, m.name l' ∈ tagged.map Prod.fst := h.takes.covers mergeTagged_key
  have hself : m.target (tagged ++ [(m.name l, new)]) (m.name l) = chosen.1 := by
    unfold Importer.target
    rw [List.find?_append, hnone]
    simp [hid]
  have hother : ∀ l' ∈ done, m.target (tagged ++ [(m.name l, new)]) (m.name l') = m.target tagged (m.name l') := by
    intro l' hl'
    obtain ⟨t, ht, heq⟩ := List.mem_map.mp (hcovers l' hl')
    obtain ⟨found, hfound⟩ : ∃ found, tagged.find? (fun t => t.1 = m.name l') = some found :=
      Option.isSome_iff_exists.mp (List.find?_isSome.mpr ⟨t, ht, decide_eq_true heq⟩)
    unfold Importer.target
    rw [List.find?_append, hfound]
    rfl
  have hfreshId : chosen.1 ∉ st.rows.map m.id := fun hmem => hchosen.fresh ((h.used _).mpr hmem)
  refine
    { takes := h.takes.append hout rfl (Prod.ext rfl (hlaw.update_insert _ _))
      rows := ?_, byName := ?_, used := ?_, ahead := hchosen.ahead, bound := ?_, table := ⟨?_, ?_, ?_⟩, idMap := ?_
      updated := ?_, others := ?_, inserted := ?_ }
  · dsimp only
    rw [h.rows, List.map_append, List.map_singleton]
  · intro name
    dsimp only
    rw [List.lookup_cons, List.find?_append]
    by_cases heq : name = m.name l
    · rw [heq, hnone]
      simp [hid]
    · have hbeq : (name == m.name l) = false := beq_eq_false_iff_ne.mpr heq
      rw [hbeq, h.byName]
      have hsingle : [(m.name l, new)].find? (fun t => t.1 = name) = none := by simp [Ne.symm heq]
      rw [hsingle, Option.or_none]
  · intro i
    dsimp only
    rw [hchosen.used, List.mem_cons, h.used, List.map_append, List.mem_append, List.map_singleton, List.mem_singleton,
      hid, or_comm]
  · intro l' hl'
    have := h.bound l' hl'
    dsimp only
    rcases hchosen.chosen with ⟨_, hnext⟩ | ⟨_, hnext, _⟩
    · omega
    · omega
  · refine nodup_map_snoc h.table.ids fun r hr heq => hfreshId ?_
    rw [← hid, ← heq]
    exact List.mem_map_of_mem hr
  · refine nodup_map_snoc h.table.names fun r hr heq => hname ?_
    rw [← heq]
    exact List.mem_map_of_mem hr
  · intro r hr
    rcases List.mem_append.mp hr with hr | hr
    · exact h.table.positive r hr
    · rw [List.mem_singleton.mp hr, hid]
      exact hchosen.positive
  · dsimp only
    rw [h.idMap, List.map_append, List.reverse_append, List.map_singleton, List.reverse_singleton,
      List.singleton_append, hself]
    congr 2
    apply List.map_congr_left
    intro l' hl'
    rw [hother l' hl']
  · intro i hi
    obtain ⟨l', hl', heq⟩ := h.updated i hi
    exact ⟨l', List.mem_append_left _ hl', (hother l' hl').trans heq⟩
  · intro l' hl'
    rcases List.mem_append.mp hl' with hl' | hl'
    · rw [hother l' hl', List.map_append]
      exact (h.others l' hl').imp_right (List.mem_append_left _)
    · rw [List.mem_singleton.mp hl', hself, List.map_append]
      exact .inr (List.mem_append_right _ (by simp [hid]))
  · intro t ht
    rcases List.mem_append.mp ht with ht | ht
    · obtain ⟨i, l0, hfirst, hrow⟩ := h.inserted t ht
      exact ⟨i, l0, by rw [List.find?_append, hfirst]; rfl, hrow⟩
    · rw [List.mem_singleton.mp ht]
      refine ⟨chosen.1, l, ?_, rfl⟩
      have hnotDone : done.find? (fun l' => m.name l' = m.name l) = none := by
        rw [List.find?_eq_none]
        intro l' hl' heq
        exact hout (of_decide_eq_true heq ▸ hcovers l' hl')
      rw [List.find?_append, hnotDone]
      simp

theorem importRows_ok (hlaw : m.Lawful) (htable : m.Table rows) (h : importRows m rows legacy = .ok st) :
    ∃ tagged fresh, Imports m legacy rows legacy st tagged fresh := by
  have hall : ∃ done, done ++ [] = legacy ∧ ∃ tagged fresh, Imports m legacy rows done st tagged fresh := by
    refine foldlM_ok_invariant (P := fun todo st => ∃ done, done ++ todo = legacy ∧
      ∃ tagged fresh, Imports m legacy rows done st tagged fresh) ?_ ⟨[], rfl, _, _, imports_start htable⟩ h
    rintro l todo st st' ⟨done, hsplit, tagged, fresh, hprev⟩ hrow
    refine ⟨done ++ [l], by rw [List.append_assoc, List.singleton_append, hsplit], ?_⟩
    have hl : l ∈ legacy := hsplit ▸ List.mem_append_right _ List.mem_cons_self
    obtain ⟨_, ⟨existing, hfound, _, rfl⟩ | ⟨hnew, hname, rfl⟩⟩ := importRow_cases hrow
    · exact ⟨_, _, hprev.update hlaw htable hfound⟩
    · exact ⟨_, _, hprev.insert hlaw hl hnew hname⟩
  obtain ⟨done, hdone, tagged, fresh, himports⟩ := hall
  rw [List.append_nil] at hdone
  exact ⟨tagged, fresh, hdone ▸ himports⟩

theorem Imports.column {β : Type} {column : ρ → β} (h : Imports m legacy rows done st tagged fresh)
    (hkeeps : ∀ l r, column (m.update l r) = column r) :
    st.rows.map column = rows.map column ++ fresh.map fun t => column t.2 := by
  have hmerged : ∀ t : String × ρ, column (mergedRow Prod.fst m.name m.mergeTagged done t).2 = column t.2 := fun t =>
    mergedRow_kept (fun t : String × ρ => column t.2) fun l t => hkeeps l t.2
  rw [h.rows, h.takes.eq_map mergeTagged_key, List.map_map, List.map_map, List.map_append]
  congr 1
  · unfold Importer.tag
    rw [List.map_map]
    exact List.map_congr_left fun r _ => hmerged (m.rowName r, r)
  · exact List.map_congr_left fun t _ => hmerged t

theorem Imports.fresh_name (hlaw : m.Lawful) (h : Imports m legacy rows done st tagged fresh) {t : String × ρ}
    (ht : t ∈ fresh) : ∃ l ∈ done, m.name l = t.1 ∧ done.find? (fun l => m.name l = t.1) = some l ∧
      m.rowName t.2 = m.newName l := by
  obtain ⟨i, l, hfirst, hrow⟩ := h.inserted t ht
  exact ⟨l, List.mem_of_find?_eq_some hfirst, by simpa using List.find?_some hfirst, hfirst,
    hrow ▸ hlaw.rowName_insert i l⟩

theorem mem_idMap_rows (h : Imports m legacy rows done st tagged fresh) :
    ∀ i ∈ st.idMap.map Prod.snd, i ∈ st.rows.map m.id := by
  intro i hi
  rw [h.idMap, List.map_reverse, List.mem_reverse, List.map_map, List.mem_map] at hi
  obtain ⟨l, hl, rfl⟩ := hi
  obtain ⟨t, ht, heq⟩ := List.mem_map.mp (h.takes.covers mergeTagged_key l hl)
  obtain ⟨found, hfound⟩ : ∃ found, tagged.find? (fun t => t.1 = m.name l) = some found :=
    Option.isSome_iff_exists.mp (List.find?_isSome.mpr ⟨t, ht, decide_eq_true heq⟩)
  dsimp only [Function.comp_apply]
  unfold Importer.target
  rw [hfound, h.rows, List.map_map]
  exact List.mem_map.mpr ⟨found, List.mem_of_find?_eq_some hfound, rfl⟩

theorem mem_updated_idMap (h : Imports m legacy rows done st tagged fresh) :
    ∀ i ∈ st.updated, i ∈ st.idMap.map Prod.snd := by
  intro i hi
  obtain ⟨l, hl, heq⟩ := h.updated i hi
  rw [h.idMap, List.map_reverse, List.mem_reverse, List.map_map]
  exact List.mem_map.mpr ⟨l, hl, heq⟩

theorem updated_of_idMap (hlaw : m.Lawful) (h : Imports m legacy rows done st tagged fresh) :
    ∀ i ∈ st.idMap.map Prod.snd, i ∈ st.updated ∨ i ∉ rows.map m.id := by
  intro i hi
  rw [h.idMap, List.map_reverse, List.mem_reverse, List.map_map, List.mem_map] at hi
  obtain ⟨l, hl, rfl⟩ := hi
  refine (h.others l hl).imp_right fun hfresh hold => ?_
  have hids := h.table.ids
  rw [h.column hlaw.id_update] at hids
  exact (List.nodup_append.mp hids).2.2 _ hold _ hfresh rfl

theorem importRows_again (hlaw : m.Lawful) (htable : m.Table rows) (habsorbs : Absorbs m.update legacy)
    (h : importRows m rows legacy = .ok st) (h' : importRows m st.rows legacy = .ok st') :
    st'.rows = st.rows ∧ st'.idMap = st.idMap ∧ ∀ i ∈ st'.idMap.map Prod.snd, i ∈ st'.updated := by
  obtain ⟨tagged, fresh, hfirst⟩ := importRows_ok hlaw htable h
  obtain ⟨tagged', fresh', hsecond⟩ := importRows_ok hlaw hfirst.table h'
  have hnames := hfirst.column hlaw.rowName_update
  have hnames' := hsecond.column hlaw.rowName_update
  have hnil : fresh' = [] := by
    by_contra hne
    obtain ⟨t', ht'⟩ := List.exists_mem_of_ne_nil _ hne
    obtain ⟨l, hl, hname, hfind, hrow⟩ := hsecond.fresh_name hlaw ht'
    have hnot : t'.1 ∉ st.rows.map m.rowName := by
      rw [← tag_keys]
      exact (hsecond.takes.fresh_source mergeTagged_key t' ht').2
    have hkey := hfirst.takes.covers mergeTagged_key l hl
    rw [hfirst.takes.keys mergeTagged_key, tag_keys, hname] at hkey
    rcases List.mem_append.mp hkey with hold | hinserted
    · exact hnot (hnames ▸ List.mem_append_left _ hold)
    · obtain ⟨t, ht, heq⟩ := List.mem_map.mp hinserted
      obtain ⟨l0, _, _, hfind0, hrow0⟩ := hfirst.fresh_name hlaw ht
      rw [heq, hfind, Option.some.injEq] at hfind0
      have hclash := hsecond.table.names
      rw [hnames'] at hclash
      refine (List.nodup_append.mp hclash).2.2 _ ?_ _ (List.mem_map_of_mem ht') rfl
      rw [hnames, hrow, hfind0, ← hrow0]
      exact List.mem_append_right _ (List.mem_map_of_mem ht)
  have htagged : tagged = m.tag st.rows := by
    have hown : ∀ t ∈ tagged, t.1 = m.rowName t.2 := by
      intro t ht
      rw [hfirst.takes.eq_map mergeTagged_key] at ht
      obtain ⟨old, hold, rfl⟩ := List.mem_map.mp ht
      have hkept : m.rowName (mergedRow Prod.fst m.name m.mergeTagged legacy old).2 = m.rowName old.2 :=
        mergedRow_kept (fun t : String × ρ => m.rowName t.2) fun l t => hlaw.rowName_update l t.2
      rw [hkept, mergedRow_kept Prod.fst mergeTagged_key]
      rcases List.mem_append.mp hold with hrow | hnew
      · obtain ⟨r, _, rfl⟩ := List.mem_map.mp hrow
        rfl
      · obtain ⟨l, hl, hname, _, hrow⟩ := hfirst.fresh_name hlaw hnew
        rw [hrow]
        by_cases hempty : m.name l = ""
        · have hkey := hsecond.takes.covers mergeTagged_key l hl
          rw [hsecond.takes.keys mergeTagged_key, tag_keys, hnil, List.map_nil, List.append_nil, hnames, hempty] at hkey
          rcases List.mem_append.mp hkey with hthere | hinserted
          · have hnot := (hfirst.takes.fresh_source mergeTagged_key old hnew).2
            rw [tag_keys, ← hname, hempty] at hnot
            exact absurd hthere hnot
          · obtain ⟨t, ht, heq⟩ := List.mem_map.mp hinserted
            obtain ⟨l0, _, _, _, hrow0⟩ := hfirst.fresh_name hlaw ht
            exact absurd (hrow0.symm.trans heq) (hlaw.newName_ne l0)
        · rw [hlaw.newName l hempty, hname]
    unfold Importer.tag
    rw [hfirst.rows, List.map_map]
    conv_lhs => rw [← List.map_id tagged]
    exact List.map_congr_left fun t ht => Prod.ext (hown t ht) rfl
  have hsame : tagged' = tagged := by
    refine hfirst.takes.again mergeTagged_key (fun x hx y hy t => ?_) (htagged ▸ hsecond.takes)
    exact Prod.ext rfl (habsorbs x hx y hy t.2)
  have hidMap : st'.idMap = st.idMap := by rw [hsecond.idMap, hsame, hfirst.idMap]
  refine ⟨by rw [hsecond.rows, hsame, hfirst.rows], hidMap, fun i hi => ?_⟩
  refine (updated_of_idMap hlaw hsecond i hi).resolve_right (not_not.mpr ?_)
  exact mem_idMap_rows hfirst i (hidMap ▸ hi)

end Importer

end ProxmoxVEAutopilot.Migration
