import ProxmoxVEAutopilot.Migration.Import

/-!
# Importing rows that are told apart by what they hold

Runs, sweeps and deletions: a legacy row that a lookup finds among the rows is taken for
imported already and leaves them alone; any other is appended under an id that is free.
-/

namespace ProxmoxVEAutopilot.Migration

open Foundation Sequences
set_option autoImplicit false

/-- `first` and `second` are the lookups in their order. A row without an `insert` is
skipped. -/
structure Appender (α ρ : Type) where
  legacyId : α → Int
  id : ρ → Int
  first : α → ρ → Bool
  second : α → ρ → Bool := fun _ _ => false
  insert : α → Option (Int → ρ)
  allowed : α → Bool := fun _ => true
  checkConstraint : String := ""

structure Appending (ρ : Type) where
  rows : List ρ
  ids : Ids
  idMap : List (Int × Int)
  newIds : List Int

variable {α ρ : Type} (a : Appender α ρ)

def Appender.existing (rows : List ρ) (l : α) : Option ρ := (rows.find? (a.first l)).or (rows.find? (a.second l))

def appendRow (st : Appending ρ) (l : α) : Except StoreError (Appending ρ) :=
  match a.existing st.rows l with
  | some r => .ok { st with idMap := (a.legacyId l, a.id r) :: st.idMap }
  | none =>
    match a.insert l with
    | none => .ok st
    | some new =>
      let chosen := st.ids.choose (a.legacyId l)
      if a.allowed l then
        .ok
          { rows := st.rows ++ [new chosen.1]
            ids := chosen.2
            idMap := (a.legacyId l, chosen.1) :: st.idMap
            newIds := chosen.1 :: st.newIds }
      else .error (.checkViolation a.checkConstraint)

def startAppend (rows : List ρ) (legacy : List α) : Appending ρ where
  rows := rows
  ids := ⟨rows.map a.id, nextId (rows.map a.id) (legacy.map a.legacyId)⟩
  idMap := []
  newIds := []

def Appender.sorted (legacy : List α) : List α := legacy.insertionSort fun l l' => a.legacyId l ≤ a.legacyId l'

def appendRows (rows : List ρ) (legacy : List α) : Except StoreError (Appending ρ) :=
  (a.sorted legacy).foldlM (appendRow a) (startAppend a rows legacy)

variable {a} {st st' : Appending ρ} {rows : List ρ} {legacy : List α} {l : α}

theorem existing_isSome : (a.existing rows l).isSome ↔ ∃ r ∈ rows, a.first l r = true ∨ a.second l r = true := by
  unfold Appender.existing
  rw [Option.isSome_or, Bool.or_eq_true, List.find?_isSome, List.find?_isSome]
  constructor
  · rintro (⟨r, hr, hfirst⟩ | ⟨r, hr, hsecond⟩)
    · exact ⟨r, hr, .inl hfirst⟩
    · exact ⟨r, hr, .inr hsecond⟩
  · rintro ⟨r, hr, hfirst | hsecond⟩
    · exact .inl ⟨r, hr, hfirst⟩
    · exact .inr ⟨r, hr, hsecond⟩

theorem appendRow_cases (h : appendRow a st l = .ok st') :
    (∃ r, a.existing st.rows l = some r ∧ st' = { st with idMap := (a.legacyId l, a.id r) :: st.idMap }) ∨
    (a.existing st.rows l = none ∧ a.insert l = none ∧ st' = st) ∨
    ∃ new, a.existing st.rows l = none ∧ a.insert l = some new ∧ a.allowed l = true ∧ st' =
      { rows := st.rows ++ [new (st.ids.choose (a.legacyId l)).1]
        ids := (st.ids.choose (a.legacyId l)).2
        idMap := (a.legacyId l, (st.ids.choose (a.legacyId l)).1) :: st.idMap
        newIds := (st.ids.choose (a.legacyId l)).1 :: st.newIds } := by
  unfold appendRow at h
  split at h
  · rename_i r hfound
    exact .inl ⟨r, hfound, (Except.ok.inj h).symm⟩
  · rename_i hnone
    split at h
    · rename_i hskip
      exact .inr (.inl ⟨hnone, hskip, (Except.ok.inj h).symm⟩)
    · rename_i new hinsert
      dsimp only at h
      split at h
      · rename_i hallowed
        exact .inr (.inr ⟨new, hnone, hinsert, hallowed, (Except.ok.inj h).symm⟩)
      · cases h

/-- The row need not be imported any more. -/
def Appender.Settled (a : Appender α ρ) (rows : List ρ) (l : α) : Prop :=
  a.insert l = none ∨ (a.existing rows l).isSome

theorem settled_append {more : List ρ} (h : a.Settled rows l) : a.Settled (rows ++ more) l := by
  refine h.imp_right fun hfound => ?_
  obtain ⟨r, hr, hmatch⟩ := existing_isSome.mp hfound
  exact existing_isSome.mpr ⟨r, List.mem_append_left _ hr, hmatch⟩

/-- A lookup finds what the row itself has inserted. -/
def Appender.Finds (a : Appender α ρ) (l : α) : Prop :=
  ∀ new i, a.insert l = some new → a.first l (new i) = true ∨ a.second l (new i) = true

theorem settled_appendRow (hfinds : a.Finds l) (h : appendRow a st l = .ok st') :
    a.Settled st'.rows l ∧ ∃ more, st'.rows = st.rows ++ more := by
  rcases appendRow_cases h with ⟨r, hfound, rfl⟩ | ⟨_, hskip, rfl⟩ | ⟨new, _, hinsert, _, rfl⟩
  · exact ⟨.inr (by rw [hfound]; rfl), [], (List.append_nil _).symm⟩
  · exact ⟨.inl hskip, [], (List.append_nil _).symm⟩
  · refine ⟨.inr (existing_isSome.mpr ⟨_, List.mem_append_right _ (List.mem_singleton_self _), ?_⟩), _, rfl⟩
    exact hfinds new _ hinsert

theorem settled_appendRows {xs : List α} (hfinds : ∀ l ∈ xs, a.Finds l) : ∀ {st st' : Appending ρ},
    xs.foldlM (appendRow a) st = .ok st' → (∀ l ∈ xs, a.Settled st'.rows l) ∧ ∃ more, st'.rows = st.rows ++ more := by
  induction xs with
  | nil =>
    intro st st' h
    cases h
    exact ⟨by simp, [], (List.append_nil _).symm⟩
  | cons l xs ih =>
    intro st st' h
    obtain ⟨hl, hxs⟩ := List.forall_mem_cons.mp hfinds
    rw [List.foldlM_cons] at h
    obtain ⟨mid, hrow, hrest⟩ := bind_ok.mp h
    obtain ⟨hsettled, more, hmore⟩ := settled_appendRow hl hrow
    obtain ⟨hall, more', hmore'⟩ := ih hxs hrest
    refine ⟨List.forall_mem_cons.mpr ⟨hmore' ▸ settled_append hsettled, hall⟩, more ++ more', ?_⟩
    rw [hmore', hmore, List.append_assoc]

theorem appendRows_settled {xs : List α} : ∀ {st : Appending ρ}, (∀ l ∈ xs, a.Settled st.rows l) →
    ∃ idMap, xs.foldlM (appendRow a) st = .ok { st with idMap := idMap } := by
  induction xs with
  | nil => exact fun {st} _ => ⟨st.idMap, rfl⟩
  | cons l xs ih =>
    intro st hall
    obtain ⟨hl, hxs⟩ := List.forall_mem_cons.mp hall
    have hrow : ∃ idMap, appendRow a st l = .ok { st with idMap := idMap } := by
      unfold appendRow
      cases hfound : a.existing st.rows l with
      | some r => exact ⟨_, rfl⟩
      | none =>
        rcases hl with hskip | hsome
        · rw [hskip]
          exact ⟨st.idMap, rfl⟩
        · rw [hfound] at hsome
          cases hsome
    obtain ⟨idMap, hrow⟩ := hrow
    obtain ⟨idMap', hrest⟩ := @ih { st with idMap := idMap } hxs
    refine ⟨idMap', ?_⟩
    rw [List.foldlM_cons, hrow]
    exact hrest

theorem appendRows_again (hfinds : ∀ l ∈ legacy, a.Finds l) (h : appendRows a rows legacy = .ok st) :
    ∃ st', appendRows a st.rows legacy = .ok st' ∧ st'.rows = st.rows ∧ st'.newIds = [] := by
  have hsorted : ∀ l ∈ a.sorted legacy, a.Finds l := fun l hl => hfinds l ((List.mem_insertionSort _).mp hl)
  obtain ⟨hsettled, _⟩ := settled_appendRows hsorted h
  obtain ⟨idMap, hagain⟩ : ∃ idMap, (a.sorted legacy).foldlM (appendRow a) (startAppend a st.rows legacy) =
      .ok { startAppend a st.rows legacy with idMap := idMap } := appendRows_settled hsettled
  exact ⟨_, hagain, rfl, rfl⟩

end ProxmoxVEAutopilot.Migration
