import ProxmoxVEAutopilot.Foundation.Table

/-!
# Rows taken over by key

The rows of one table are written into another, one after the other: a row whose key is
there already is merged into the row that has it, any other is appended as a fresh row.
-/

namespace ProxmoxVEAutopilot.Foundation

set_option autoImplicit false

variable {α ρ κ β : Type} [DecidableEq κ] (key : ρ → κ) (source : α → κ) (merge : α → ρ → ρ)

/-- `TakesOver rows xs rows' fresh`: taking over `xs` turns `rows` into `rows'`, and `fresh`
are the rows that were appended, as they were then. -/
inductive TakesOver : List ρ → List α → List ρ → List ρ → Prop where
  | nil (rows : List ρ) : TakesOver rows [] rows []
  | merge {rows rows' fresh : List ρ} {xs : List α} {x : α} :
      TakesOver rows xs rows' fresh → source x ∈ rows'.map key →
      TakesOver rows (xs ++ [x]) (Table.modify key rows' (source x) (merge x)) fresh
  | append {rows rows' fresh : List ρ} {xs : List α} {x : α} {new : ρ} :
      TakesOver rows xs rows' fresh → source x ∉ rows'.map key → key new = source x → merge x new = new →
      TakesOver rows (xs ++ [x]) (rows' ++ [new]) (fresh ++ [new])

/-- What the rows with its key make of a row. -/
def mergedRow (xs : List α) (r : ρ) : ρ :=
  (xs.filter fun x => source x = key r).foldl (fun r x => merge x r) r

variable {key source merge} {rows rows' rows'' fresh fresh' : List ρ} {xs : List α} {r : ρ}

section Merged

theorem mergedRow_snoc {x : α} : mergedRow key source merge (xs ++ [x]) r =
    if source x = key r then merge x (mergedRow key source merge xs r) else mergedRow key source merge xs r := by
  unfold mergedRow
  rw [List.filter_append, List.foldl_append]
  by_cases h : source x = key r
  · simp [h]
  · simp [h]

theorem mergedRow_of_absent (h : ∀ x ∈ xs, source x ≠ key r) : mergedRow key source merge xs r = r := by
  unfold mergedRow
  rw [List.filter_eq_nil_iff.mpr (by simpa using h)]
  rfl

/-- A column that every merge sets is as the last row with the key has it. -/
theorem mergedRow_column (column : ρ → β) {value : α → β} (hsets : ∀ x r, column (merge x r) = value x) :
    column (mergedRow key source merge xs r) =
      ((xs.filter fun x => source x = key r).getLast?).elim (column r) value := by
  unfold mergedRow
  induction xs.filter (fun x => decide (source x = key r)) using List.reverseRecOn with
  | nil => rfl
  | append_singleton ys y _ => simp [List.foldl_append, hsets]

theorem mergedRow_sets (column : ρ → β) {value : α → β} (hsome : ∃ x ∈ xs, source x = key r)
    (hsets : ∀ x ∈ xs, source x = key r → ∀ r, column (merge x r) = value x) :
    ∃ x ∈ xs, source x = key r ∧ column (mergedRow key source merge xs r) = value x := by
  obtain ⟨x, hx, hsource⟩ := hsome
  have hmem : x ∈ xs.filter fun x => source x = key r := List.mem_filter.mpr ⟨hx, decide_eq_true hsource⟩
  obtain ⟨front, last, hsplit⟩ := (List.eq_nil_or_concat' _).resolve_left (List.ne_nil_of_mem hmem)
  have hlast : last ∈ xs.filter fun x => source x = key r := by rw [hsplit]; simp
  obtain ⟨hin, hkeyed⟩ := List.mem_filter.mp hlast
  refine ⟨last, hin, of_decide_eq_true hkeyed, ?_⟩
  unfold mergedRow
  rw [hsplit, List.foldl_append, List.foldl_cons, List.foldl_nil]
  exact hsets last hin (of_decide_eq_true hkeyed) _

theorem mergedRow_kept (column : ρ → β) (hkeeps : ∀ x r, column (merge x r) = column r) :
    column (mergedRow key source merge xs r) = column r := by
  unfold mergedRow
  induction xs.filter (fun x => decide (source x = key r)) using List.reverseRecOn with
  | nil => rfl
  | append_singleton ys y ih => rw [List.foldl_append, List.foldl_cons, List.foldl_nil, hkeeps, ih]

/-- A later merge leaves nothing of an earlier one. -/
def Absorbs (merge : α → ρ → ρ) (xs : List α) : Prop := ∀ x ∈ xs, ∀ y ∈ xs, ∀ r, merge x (merge y r) = merge x r

theorem foldl_absorbs {ys : List α} (habsorbs : Absorbs merge ys) : ys.foldl (fun r x => merge x r) r =
    (ys.getLast?).elim r fun x => merge x r := by
  induction ys using List.reverseRecOn with
  | nil => rfl
  | append_singleton zs z ih =>
    rw [List.foldl_append, List.foldl_cons, List.foldl_nil, ih fun x hx y hy =>
      habsorbs x (List.mem_append_left _ hx) y (List.mem_append_left _ hy), List.getLast?_concat]
    cases hlast : zs.getLast? with
    | none => rfl
    | some y =>
      exact habsorbs z (by simp) y (List.mem_append_left _ (List.mem_of_getLast? hlast)) r

theorem mergedRow_absorbs (habsorbs : Absorbs merge xs) : mergedRow key source merge xs r =
    ((xs.filter fun x => source x = key r).getLast?).elim r fun x => merge x r :=
  foldl_absorbs fun x hx y hy => habsorbs x (List.mem_filter.mp hx).1 y (List.mem_filter.mp hy).1

theorem mergedRow_mergedRow (hkey : ∀ x r, key (merge x r) = key r) (habsorbs : Absorbs merge xs) :
    mergedRow key source merge xs (mergedRow key source merge xs r) = mergedRow key source merge xs r := by
  have hsame : key (mergedRow key source merge xs r) = key r := mergedRow_kept key hkey
  rw [mergedRow_absorbs habsorbs, mergedRow_absorbs habsorbs] at *
  rw [hsame]
  cases hlast : (xs.filter fun x => source x = key r).getLast? with
  | none => rfl
  | some x =>
    have hx : x ∈ xs := (List.mem_filter.mp (List.mem_of_getLast? hlast)).1
    exact habsorbs x hx x hx r

end Merged

namespace TakesOver

theorem keys (hkey : ∀ x r, key (merge x r) = key r) (h : TakesOver key source merge rows xs rows' fresh) :
    rows'.map key = rows.map key ++ fresh.map key := by
  induction h with
  | nil => simp
  | merge _ _ ih => rw [Table.map_key_modify (hkey _), ih]
  | append _ _ _ _ ih => rw [List.map_append, ih, List.map_append, List.append_assoc]

theorem covers (hkey : ∀ x r, key (merge x r) = key r) (h : TakesOver key source merge rows xs rows' fresh) :
    ∀ x ∈ xs, source x ∈ rows'.map key := by
  induction h with
  | nil => exact fun x hx => absurd hx List.not_mem_nil
  | merge _ hin ih =>
    intro y hy
    rw [Table.map_key_modify (hkey _)]
    rcases List.mem_append.mp hy with hy | hy
    · exact ih y hy
    · rwa [List.mem_singleton.mp hy]
  | append _ _ hnew _ ih =>
    intro y hy
    rw [List.map_append]
    rcases List.mem_append.mp hy with hy | hy
    · exact List.mem_append_left _ (ih y hy)
    · rw [List.mem_singleton.mp hy, ← hnew]
      exact List.mem_append_right _ (List.mem_singleton_self _)

theorem nodup_keys (hkey : ∀ x r, key (merge x r) = key r) (hrows : (rows.map key).Nodup)
    (h : TakesOver key source merge rows xs rows' fresh) : (rows'.map key).Nodup := by
  induction h with
  | nil => exact hrows
  | merge _ _ ih => rw [Table.map_key_modify (hkey _)]; exact ih
  | append _ hout hnew _ ih =>
    rw [List.map_append, List.map_singleton]
    refine List.nodup_append.mpr ⟨ih, List.nodup_singleton _, ?_⟩
    intro a ha b hb heq
    rw [List.mem_singleton.mp hb, hnew] at heq
    exact hout (heq ▸ ha)

/-- A fresh row comes from a row that is taken over and whose key was not there. -/
theorem fresh_source (hkey : ∀ x r, key (merge x r) = key r) (h : TakesOver key source merge rows xs rows' fresh) :
    ∀ r ∈ fresh, (∃ x ∈ xs, source x = key r) ∧ key r ∉ rows.map key := by
  induction h with
  | nil => exact fun r hr => absurd hr List.not_mem_nil
  | merge _ _ ih =>
    intro r hr
    obtain ⟨⟨x, hx, hsource⟩, hnot⟩ := ih r hr
    exact ⟨⟨x, List.mem_append_left _ hx, hsource⟩, hnot⟩
  | append hprev hout hnew _ ih =>
    intro r hr
    rcases List.mem_append.mp hr with hr | hr
    · obtain ⟨⟨x, hx, hsource⟩, hnot⟩ := ih r hr
      exact ⟨⟨x, List.mem_append_left _ hx, hsource⟩, hnot⟩
    · rw [List.mem_singleton.mp hr, hnew]
      refine ⟨⟨_, List.mem_append_right _ (List.mem_singleton_self _), rfl⟩, fun hmem => hout ?_⟩
      rw [hprev.keys hkey]
      exact List.mem_append_left _ hmem

theorem eq_map (hkey : ∀ x r, key (merge x r) = key r) (h : TakesOver key source merge rows xs rows' fresh) :
    rows' = (rows ++ fresh).map (mergedRow key source merge xs) := by
  induction h with
  | nil =>
    rw [List.append_nil]
    exact (List.map_id'' (fun r => mergedRow_of_absent (fun x hx => absurd hx List.not_mem_nil)) rows).symm
  | @merge rows' fresh xs x _ _ ih =>
    rw [ih]
    unfold Table.modify
    rw [List.map_map]
    apply List.map_congr_left
    intro r _
    rw [Function.comp_apply, mergedRow_snoc, mergedRow_kept key hkey]
    simp only [eq_comm]
  | @append rows' fresh xs x new hprev hout hnew hsame ih =>
    rw [← List.append_assoc, List.map_append, List.map_singleton]
    have hnone : ∀ r ∈ rows ++ fresh, source x ≠ key r := by
      intro r hr heq
      rw [hprev.keys hkey, ← List.map_append] at hout
      exact hout (List.mem_map.mpr ⟨r, hr, heq.symm⟩)
    have habsent : ∀ y ∈ xs, source y ≠ key new := by
      intro y hy heq
      exact hout (hnew ▸ heq ▸ hprev.covers hkey y hy)
    have hold : (rows ++ fresh).map (mergedRow key source merge (xs ++ [x])) = rows' := by
      rw [ih]
      apply List.map_congr_left
      intro r hr
      rw [mergedRow_snoc, if_neg (hnone r hr)]
    rw [hold, mergedRow_snoc, if_pos hnew.symm, mergedRow_of_absent habsent, hsame]

theorem fresh_nil (hkey : ∀ x r, key (merge x r) = key r) (h : TakesOver key source merge rows xs rows' fresh)
    (hall : ∀ x ∈ xs, source x ∈ rows.map key) : fresh = [] := by
  cases fresh with
  | nil => rfl
  | cons r fresh =>
    obtain ⟨⟨x, hx, hsource⟩, hnot⟩ := h.fresh_source hkey r List.mem_cons_self
    exact absurd (hsource ▸ hall x hx) hnot

theorem again (hkey : ∀ x r, key (merge x r) = key r) (habsorbs : Absorbs merge xs)
    (h : TakesOver key source merge rows xs rows' fresh) (h' : TakesOver key source merge rows' xs rows'' fresh') :
    rows'' = rows' := by
  have hnil := h'.fresh_nil hkey (h.covers hkey)
  rw [h'.eq_map hkey, hnil, List.append_nil, h.eq_map hkey, List.map_map]
  apply List.map_congr_left
  intro r _
  exact mergedRow_mergedRow hkey habsorbs

/-- `INSERT … ON CONFLICT (key) DO UPDATE`, row by row. -/
theorem of_upserts {new : α → ρ} (hnew : ∀ x, key (new x) = source x) (hsame : ∀ x, merge x (new x) = new x) :
    ∃ fresh, TakesOver key source merge rows xs
      (xs.foldl (fun rows x => Table.upsert key rows (new x) (merge x)) rows) fresh := by
  induction xs using List.reverseRecOn with
  | nil => exact ⟨[], .nil rows⟩
  | append_singleton xs x ih =>
    obtain ⟨fresh, ih⟩ := ih
    rw [List.foldl_append, List.foldl_cons, List.foldl_nil]
    set rows' := xs.foldl (fun rows x => Table.upsert key rows (new x) (merge x)) rows
    have hany : (rows'.any fun r => key r = key (new x)) = true ↔ source x ∈ rows'.map key := by
      simp [List.any_eq_true, List.mem_map, hnew]
    unfold Table.upsert
    by_cases hin : source x ∈ rows'.map key
    · rw [if_pos (hany.mpr hin), hnew]
      exact ⟨fresh, ih.merge hin⟩
    · rw [if_neg fun h => hin (hany.mp h)]
      exact ⟨fresh ++ [new x], ih.append hin (hnew x) (hsame x)⟩

end TakesOver

end ProxmoxVEAutopilot.Foundation
