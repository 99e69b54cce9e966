import Mathlib

/-!
# Rows collected in buckets

A dictionary whose missing entries are made on first use, filled row by row. What a bucket
holds is the fold of the rows with its key, and its key is there once one such row was read.
-/

namespace ProxmoxVEAutopilot.Foundation.Buckets

set_option autoImplicit false

variable {κ β ρ : Type} [DecidableEq κ] (fresh : κ → β)

/-- `table.setdefault(k, fresh(k))`, and the entry then changed by `f`. -/
def revise (k : κ) (f : β → β) : List (κ × β) → List (κ × β)
  | [] => [(k, f (fresh k))]
  | (l, b) :: rest => if l = k then (l, f b) :: rest else (l, b) :: revise k f rest

def content (table : List (κ × β)) (k : κ) : β := (table.lookup k).getD (fresh k)

def keys (table : List (κ × β)) : List κ := table.map Prod.fst

theorem content_revise (k l : κ) (f : β → β) (table : List (κ × β)) :
    content fresh (revise fresh k f table) l =
      if l = k then f (content fresh table k) else content fresh table l := by
  induction table with
  | nil =>
    by_cases h : l = k
    · simp [revise, content, h]
    · simp [revise, content, h, List.lookup_cons, beq_eq_false_iff_ne.mpr h]
  | cons entry rest ih =>
    obtain ⟨m, b⟩ := entry
    unfold content at ih ⊢
    by_cases hm : m = k
    · subst hm
      by_cases h : l = m
      · simp [revise, h]
      · simp [revise, h, List.lookup_cons, beq_eq_false_iff_ne.mpr h]
    · rw [revise, if_neg hm]
      have hkm : (k == m) = false := beq_eq_false_iff_ne.mpr (Ne.symm hm)
      by_cases h : l = m
      · subst h
        rw [if_neg hm]
        simp
      · have hlm : (l == m) = false := beq_eq_false_iff_ne.mpr h
        simp only [List.lookup_cons, hlm, hkm]
        exact ih

theorem mem_keys_revise (k l : κ) (f : β → β) (table : List (κ × β)) :
    l ∈ keys (revise fresh k f table) ↔ l ∈ keys table ∨ l = k := by
  induction table with
  | nil => simp [revise, keys]
  | cons entry rest ih =>
    obtain ⟨m, b⟩ := entry
    unfold keys at ih ⊢
    by_cases hm : m = k
    · subst hm
      rw [revise, if_pos rfl]
      simp only [List.map_cons, List.mem_cons]
      tauto
    · rw [revise, if_neg hm]
      simp only [List.map_cons, List.mem_cons, ih]
      tauto

theorem nodup_keys_revise {table : List (κ × β)} (h : (keys table).Nodup) (k : κ) (f : β → β) :
    (keys (revise fresh k f table)).Nodup := by
  induction table with
  | nil => simp [revise, keys]
  | cons entry rest ih =>
    obtain ⟨m, b⟩ := entry
    obtain ⟨hm, hrest⟩ := List.nodup_cons.mp h
    by_cases hk : m = k
    · subst hk
      rw [revise, if_pos rfl]
      exact h
    · rw [revise, if_neg hk]
      refine List.nodup_cons.mpr ⟨?_, ih hrest⟩
      intro hmem
      rcases (mem_keys_revise fresh k m f rest).mp hmem with hmem | rfl
      · exact hm hmem
      · exact hk rfl

theorem content_of_mem {table : List (κ × β)} (h : (keys table).Nodup) {k : κ} {b : β}
    (hmem : (k, b) ∈ table) : content fresh table k = b := by
  induction table with
  | nil => cases hmem
  | cons entry rest ih =>
    obtain ⟨m, c⟩ := entry
    obtain ⟨hm, hrest⟩ := List.nodup_cons.mp h
    rcases List.mem_cons.mp hmem with heq | htail
    · cases heq
      simp [content]
    · have hkm : (k == m) = false := by
        apply beq_eq_false_iff_ne.mpr
        intro heq
        subst heq
        exact hm (List.mem_map.mpr ⟨(k, b), htail, rfl⟩)
      have hrec := ih hrest htail
      unfold content at hrec ⊢
      rw [List.lookup_cons, hkm]
      exact hrec

variable (key : ρ → κ) (f : ρ → β → β)

def fill (rows : List ρ) (table : List (κ × β)) : List (κ × β) :=
  rows.foldl (fun table row => revise fresh (key row) (f row) table) table

theorem content_fill (rows : List ρ) (table : List (κ × β)) (k : κ) :
    content fresh (fill fresh key f rows table) k =
      (rows.filter (key · = k)).foldl (fun b row => f row b) (content fresh table k) := by
  induction rows generalizing table with
  | nil => rfl
  | cons row rows ih =>
    unfold fill at ih ⊢
    rw [List.foldl_cons, ih, content_revise]
    by_cases h : k = key row
    · subst h
      simp
    · have hne : ¬ key row = k := fun heq => h heq.symm
      simp [h, hne]

theorem mem_keys_fill (rows : List ρ) (table : List (κ × β)) (k : κ) :
    k ∈ keys (fill fresh key f rows table) ↔ k ∈ keys table ∨ ∃ row ∈ rows, key row = k := by
  induction rows generalizing table with
  | nil => simp [fill]
  | cons row rows ih =>
    unfold fill at ih ⊢
    rw [List.foldl_cons, ih, mem_keys_revise]
    rw [List.exists_mem_cons_iff, or_assoc, eq_comm (a := k)]

theorem nodup_keys_fill (rows : List ρ) {table : List (κ × β)} (h : (keys table).Nodup) :
    (keys (fill fresh key f rows table)).Nodup := by
  induction rows generalizing table with
  | nil => exact h
  | cons row rows ih => exact ih (nodup_keys_revise fresh h _ _)

end ProxmoxVEAutopilot.Foundation.Buckets
