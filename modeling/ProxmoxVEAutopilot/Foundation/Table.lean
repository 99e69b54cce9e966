import Mathlib

/-!
# Tables with a key

Rows as a list; a statement that names a key touches the rows that have it.
-/

namespace ProxmoxVEAutopilot.Foundation.Table

set_option autoImplicit false

variable {ρ κ : Type} [DecidableEq κ] (key : ρ → κ)

/-- `UPDATE … SET f WHERE key = k`. -/
def modify (rows : List ρ) (k : κ) (f : ρ → ρ) : List ρ :=
  rows.map fun r => if key r = k then f r else r

/-- `INSERT … ON CONFLICT (key) DO UPDATE`. -/
def upsert (rows : List ρ) (new : ρ) (merge : ρ → ρ) : List ρ :=
  if rows.any fun r => key r = key new then modify key rows (key new) merge else rows ++ [new]

/-- `DELETE … WHERE key = k`. -/
def delete (rows : List ρ) (k : κ) : List ρ := rows.filter fun r => key r ≠ k

variable {key} {rows : List ρ} {r new : ρ} {k : κ} {f merge : ρ → ρ}

theorem mem_modify : r ∈ modify key rows k f ↔
    (r ∈ rows ∧ key r ≠ k) ∨ ∃ old ∈ rows, key old = k ∧ r = f old := by
  unfold modify
  rw [List.mem_map]
  constructor
  · intro ⟨old, hold, heq⟩
    by_cases hk : key old = k
    · rw [if_pos hk] at heq
      exact .inr ⟨old, hold, hk, heq.symm⟩
    · rw [if_neg hk] at heq
      subst heq
      exact .inl ⟨hold, hk⟩
  · intro h
    rcases h with ⟨hr, hk⟩ | ⟨old, hold, hk, rfl⟩
    · exact ⟨r, hr, if_neg hk⟩
    · exact ⟨old, hold, if_pos hk⟩

theorem mem_upsert : r ∈ upsert key rows new merge ↔
    (r ∈ rows ∧ key r ≠ key new) ∨ (∃ old ∈ rows, key old = key new ∧ r = merge old) ∨
      (∀ old ∈ rows, key old ≠ key new) ∧ r = new := by
  unfold upsert
  by_cases hany : rows.any (fun r => key r = key new) = true
  · rw [if_pos hany, mem_modify]
    obtain ⟨old, hold, hkey⟩ := List.any_eq_true.mp hany
    have hnot : ¬ ((∀ old ∈ rows, key old ≠ key new) ∧ r = new) :=
      fun h => h.1 old hold (of_decide_eq_true hkey)
    rw [or_iff_left hnot]
  · rw [if_neg hany, List.mem_append, List.mem_singleton]
    have habsent : ∀ old ∈ rows, key old ≠ key new := by
      intro old hold heq
      exact hany (List.any_eq_true.mpr ⟨old, hold, decide_eq_true heq⟩)
    constructor
    · intro h
      rcases h with hr | rfl
      · exact .inl ⟨hr, habsent r hr⟩
      · exact .inr (.inr ⟨habsent, rfl⟩)
    · intro h
      rcases h with ⟨hr, _⟩ | ⟨old, hold, hkey, _⟩ | ⟨_, rfl⟩
      · exact .inl hr
      · exact absurd hkey (habsent old hold)
      · exact .inr rfl

theorem upsert_id (h : key new ∈ rows.map key) : upsert key rows new id = rows := by
  obtain ⟨r, hr, hkey⟩ := List.mem_map.mp h
  unfold upsert
  rw [if_pos (List.any_eq_true.mpr ⟨r, hr, decide_eq_true hkey⟩)]
  unfold modify
  simp

theorem mem_delete : r ∈ delete key rows k ↔ r ∈ rows ∧ key r ≠ k := by
  simp [delete]

theorem map_modify {β : Type} {column : ρ → β} (hf : ∀ r, column (f r) = column r) :
    (modify key rows k f).map column = rows.map column := by
  unfold modify
  rw [List.map_map]
  apply List.map_congr_left
  intro r _
  simp only [Function.comp_apply]
  split
  · exact hf r
  · rfl

theorem map_key_modify (hf : ∀ r, key (f r) = key r) :
    (modify key rows k f).map key = rows.map key := map_modify hf

theorem map_key_upsert (hmerge : ∀ r, key (merge r) = key r) : (upsert key rows new merge).map key =
    if key new ∈ rows.map key then rows.map key else rows.map key ++ [key new] := by
  have hany : (rows.any fun r => key r = key new) = true ↔ key new ∈ rows.map key := by
    simp [List.any_eq_true, List.mem_map]
  unfold upsert
  by_cases hmem : key new ∈ rows.map key
  · rw [if_pos (hany.mpr hmem), if_pos hmem, map_key_modify hmerge]
  · rw [if_neg (fun h => hmem (hany.mp h)), if_neg hmem, List.map_append, List.map_singleton]

theorem find?_key (hkeys : (rows.map key).Nodup) (hr : r ∈ rows) :
    (rows.find? fun s => key s = key r) = some r := by
  cases hfind : rows.find? fun s => key s = key r with
  | none =>
    have hnone := List.find?_eq_none.mp hfind r hr
    simp at hnone
  | some s =>
    have hkey : key s = key r := by simpa using List.find?_some hfind
    rw [List.inj_on_of_nodup_map hkeys (List.mem_of_find?_eq_some hfind) hr hkey]

theorem find?_map_key {g : ρ → ρ} (hg : ∀ r, key (g r) = key r) (j : κ) :
    ((rows.map g).find? fun r => key r = j) = (rows.find? fun r => key r = j).map g := by
  rw [List.find?_map]
  congr 2
  funext r
  simp [hg]

theorem find?_modify (hf : ∀ r, key (f r) = key r) (j : κ) :
    ((modify key rows k f).find? fun r => key r = j) =
      (rows.find? fun r => key r = j).map fun r => if j = k then f r else r := by
  unfold modify
  rw [find?_map_key]
  · cases hfind : rows.find? fun r => key r = j with
    | none => rfl
    | some r =>
      have hkey : key r = j := by simpa using List.find?_some hfind
      simp [hkey]
  · intro r
    split
    · exact hf r
    · rfl

end ProxmoxVEAutopilot.Foundation.Table

/-!
## Marked rows

A table where deleting marks the rows of a key. A key is gone when it has rows and all of
them are marked; no statement that keeps keys and marks brings it back.
-/

namespace ProxmoxVEAutopilot.Foundation.Table

set_option autoImplicit false

variable {ρ κ : Type} [DecidableEq κ] (key : ρ → κ) (marked : ρ → Bool)

def Gone (rows : List ρ) (k : κ) : Prop :=
  (∃ r ∈ rows, key r = k) ∧ ∀ r ∈ rows, key r = k → marked r = true

variable {key marked} {rows : List ρ} {k : κ} {r new : ρ} {g merge : ρ → ρ}

omit [DecidableEq κ] in
theorem gone_of_nodup (hkeys : (rows.map key).Nodup) (hr : r ∈ rows) (hmarked : marked r = true) :
    Gone key marked rows (key r) := by
  refine ⟨⟨r, hr, rfl⟩, fun s hs hkey => ?_⟩
  rw [List.inj_on_of_nodup_map hkeys hs hr hkey]
  exact hmarked

omit [DecidableEq κ] in
theorem Gone.map (h : Gone key marked rows k) (hkey : ∀ r, key (g r) = key r)
    (hmark : ∀ r, marked r = true → marked (g r) = true) : Gone key marked (rows.map g) k := by
  obtain ⟨⟨r, hr, hrk⟩, hall⟩ := h
  refine ⟨⟨g r, List.mem_map_of_mem hr, (hkey r).trans hrk⟩, fun s hs hsk => ?_⟩
  obtain ⟨old, hold, rfl⟩ := List.mem_map.mp hs
  exact hmark old (hall old hold ((hkey old).symm.trans hsk))

theorem Gone.modify {j : κ} (h : Gone key marked rows k) (hkey : ∀ r, key (g r) = key r)
    (hmark : ∀ r, marked r = true → marked (g r) = true) : Gone key marked (modify key rows j g) k := by
  refine h.map (fun r => ?_) fun r hr => ?_
  · split
    · exact hkey r
    · rfl
  · split
    · exact hmark r hr
    · exact hr

theorem Gone.upsert (h : Gone key marked rows k) (hkey : ∀ r, key (merge r) = key r)
    (hmark : ∀ r, marked r = true → marked (merge r) = true) : Gone key marked (upsert key rows new merge) k := by
  unfold Table.upsert
  split
  · exact h.modify hkey hmark
  · rename_i habsent
    obtain ⟨⟨r, hr, hrk⟩, hall⟩ := h
    refine ⟨⟨r, List.mem_append_left _ hr, hrk⟩, fun s hs hsk => ?_⟩
    rcases List.mem_append.mp hs with hold | hnew
    · exact hall s hold hsk
    · rw [List.mem_singleton.mp hnew] at hsk
      exact absurd (List.any_eq_true.mpr ⟨r, hr, decide_eq_true (hrk.trans hsk.symm)⟩) habsent

omit [DecidableEq κ] in
theorem nodup_map (hkeys : (rows.map key).Nodup) (hkey : ∀ r, key (g r) = key r) : ((rows.map g).map key).Nodup := by
  rw [List.map_map, show key ∘ g = key from funext hkey]
  exact hkeys

theorem nodup_modify {j : κ} (hkeys : (rows.map key).Nodup) (hkey : ∀ r, key (g r) = key r) :
    ((Table.modify key rows j g).map key).Nodup := by
  rw [map_key_modify hkey]
  exact hkeys

theorem nodup_upsert (hkeys : (rows.map key).Nodup) (hkey : ∀ r, key (merge r) = key r) :
    ((upsert key rows new merge).map key).Nodup := by
  rw [map_key_upsert hkey]
  split
  · exact hkeys
  · rename_i hnew
    rw [← List.concat_eq_append]
    exact hkeys.concat hnew

end ProxmoxVEAutopilot.Foundation.Table
