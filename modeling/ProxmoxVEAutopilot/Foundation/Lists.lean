import Mathlib

/-!
# Loops over lists that may fail or only append
-/

namespace ProxmoxVEAutopilot.Foundation

set_option autoImplicit false

theorem mapM_congr {α β ε : Type} {f g : α → Except ε β} {xs : List α}
    (h : ∀ x ∈ xs, f x = g x) : xs.mapM f = xs.mapM g := by
  induction xs with
  | nil => rfl
  | cons x xs ih =>
    simp only [List.mapM_cons]
    rw [h x List.mem_cons_self, ih fun y hy => h y (List.mem_cons_of_mem x hy)]

theorem mapM_ok {α β ε : Type} {f : α → Except ε β} {xs : List α}
    (h : ∀ x ∈ xs, ∃ y, f x = .ok y) : ∃ ys, xs.mapM f = .ok ys := by
  induction xs with
  | nil => exact ⟨[], rfl⟩
  | cons x xs ih =>
    obtain ⟨y, hy⟩ := h x List.mem_cons_self
    obtain ⟨ys, hys⟩ := ih fun z hz => h z (List.mem_cons_of_mem x hz)
    exact ⟨y :: ys, by rw [List.mapM_cons, hy, hys]; rfl⟩

theorem mapM_ok_forall₂ {α β ε : Type} {f : α → Except ε β} {xs : List α} {ys : List β}
    (h : xs.mapM f = .ok ys) : List.Forall₂ (fun x y => f x = .ok y) xs ys := by
  induction xs generalizing ys with
  | nil => cases h; exact .nil
  | cons x xs ih =>
    rw [List.mapM_cons] at h
    cases hx : f x with
    | error e => rw [hx] at h; cases h
    | ok y =>
      cases hxs : xs.mapM f with
      | error e => rw [hx, hxs] at h; cases h
      | ok zs =>
        rw [hx, hxs] at h
        cases h
        exact .cons hx (ih hxs)

theorem bind_ok {α β ε : Type} {x : Except ε α} {f : α → Except ε β} {y : β} :
    x.bind f = .ok y ↔ ∃ a, x = .ok a ∧ f a = .ok y := by
  cases x <;> simp [Except.bind]

theorem map_ok {α β ε : Type} {x : Except ε α} {f : α → β} {y : β} :
    x.map f = .ok y ↔ ∃ a, x = .ok a ∧ f a = y := by
  cases x <;> simp [Except.map]

theorem foldlM_congr {α β ε : Type} {f g : β → α → Except ε β} {xs : List α}
    (h : ∀ b, ∀ x ∈ xs, f b x = g b x) : ∀ b, xs.foldlM f b = xs.foldlM g b := by
  induction xs with
  | nil => exact fun b => rfl
  | cons x xs ih =>
    intro b
    obtain ⟨hx, hxs⟩ : (∀ b, f b x = g b x) ∧ ∀ b, ∀ y ∈ xs, f b y = g b y :=
      ⟨fun b => h b x List.mem_cons_self, fun b y hy => h b y (List.mem_cons_of_mem _ hy)⟩
    rw [List.foldlM_cons, List.foldlM_cons, hx]
    exact congrArg _ (funext fun b => ih hxs b)

/-- What every turn of a loop keeps, where `P` also speaks of the inputs to come. -/
theorem foldlM_ok_invariant {α β ε : Type} {f : β → α → Except ε β} {P : List α → β → Prop}
    (step : ∀ x xs b b', P (x :: xs) b → f b x = .ok b' → P xs b') {xs : List α} :
    ∀ {b b' : β}, P xs b → xs.foldlM f b = .ok b' → P [] b' := by
  induction xs with
  | nil =>
    intro b b' hb h
    cases h
    exact hb
  | cons x xs ih =>
    intro b b' hb h
    rw [List.foldlM_cons] at h
    obtain ⟨c, hx, hrest⟩ := bind_ok.mp h
    exact ih (step x xs b c hb hx) hrest

section Forall₂
variable {α β γ : Type} {R : α → β → Prop} {xs : List α} {ys : List β}

theorem map_eq_of_forall₂ {g : β → γ} {k : α → γ} (h : List.Forall₂ R xs ys)
    (hg : ∀ x y, R x y → g y = k x) : ys.map g = xs.map k := by
  induction h with
  | nil => rfl
  | cons hxy _ ih => simp only [List.map_cons, hg _ _ hxy, ih]

theorem exists_left_of_forall₂ (h : List.Forall₂ R xs ys) {y : β} (hy : y ∈ ys) :
    ∃ x ∈ xs, R x y := by
  induction h with
  | nil => simp at hy
  | cons hxy _ ih =>
    rcases List.mem_cons.mp hy with rfl | hy
    · exact ⟨_, List.mem_cons_self, hxy⟩
    · obtain ⟨x, hx, hR⟩ := ih hy
      exact ⟨x, List.mem_cons_of_mem _ hx, hR⟩

theorem exists_right_of_forall₂ (h : List.Forall₂ R xs ys) {x : α} (hx : x ∈ xs) :
    ∃ y ∈ ys, R x y :=
  exists_left_of_forall₂ h.flip hx

end Forall₂

theorem exists_mem_foldl_of_mem {α β : Type} {f : List β → α → List β} {P : β → Prop}
    (hext : ∀ acc x, acc <+: f acc x) {xs : List α} {x : α} (hx : x ∈ xs)
    (hemit : ∀ acc, ∃ y ∈ f acc x, P y) (out : List β) : ∃ y ∈ xs.foldl f out, P y := by
  obtain ⟨before, after, rfl⟩ := List.append_of_mem hx
  rw [List.foldl_append, List.foldl_cons]
  obtain ⟨y, hy, hPy⟩ := hemit (before.foldl f out)
  have hkeep : f (before.foldl f out) x <+: after.foldl f (f (before.foldl f out) x) := by
    refine List.foldlRecOn (motive := fun acc => f (before.foldl f out) x <+: acc) _ _
      List.prefix_rfl ?_
    exact fun acc hacc a _ => hacc.trans (hext acc a)
  exact ⟨y, hkeep.subset hy, hPy⟩

theorem filter_length_le_one {α κ : Type} {key : α → κ} {p : α → Bool} {xs : List α} (hkeys : (xs.map key).Nodup) :
    (xs.filter p).length ≤ 1 ↔ ∀ a ∈ xs, ∀ b ∈ xs, p a = true → p b = true → key a = key b := by
  constructor
  · intro hlength a ha b hb hpa hpb
    have hma : a ∈ xs.filter p := List.mem_filter.mpr ⟨ha, hpa⟩
    have hmb : b ∈ xs.filter p := List.mem_filter.mpr ⟨hb, hpb⟩
    obtain ⟨c, hc⟩ : ∃ c, xs.filter p = [c] :=
      List.length_eq_one_iff.mp (Nat.le_antisymm hlength (List.length_pos_of_mem hma))
    rw [hc] at hma hmb
    rw [List.mem_singleton.mp hma, List.mem_singleton.mp hmb]
  · intro hsame
    have hfiltered : ((xs.filter p).map key).Nodup := hkeys.sublist (List.filter_sublist.map _)
    match hcases : xs.filter p with
    | [] => simp
    | [_] => simp
    | a :: b :: rest =>
      rw [hcases] at hfiltered
      have hma : a ∈ xs.filter p := by rw [hcases]; simp
      have hmb : b ∈ xs.filter p := by rw [hcases]; simp
      obtain ⟨ha, hpa⟩ := List.mem_filter.mp hma
      obtain ⟨hb, hpb⟩ := List.mem_filter.mp hmb
      have heq := hsame a ha b hb hpa hpb
      simp [heq] at hfiltered

theorem mem_zip_map {α β : Type} {f : α → β} {xs : List α} {x : α} (hx : x ∈ xs) : (x, f x) ∈ xs.zip (xs.map f) := by
  induction xs with
  | nil => cases hx
  | cons y ys ih =>
    rcases List.mem_cons.mp hx with rfl | hx
    · exact List.mem_cons_self
    · exact List.mem_cons_of_mem _ (ih hx)

theorem filter_notMem_take {α β : Type} [BEq β] [LawfulBEq β] {f : α → β} {xs : List α}
    (h : (xs.map f).Nodup) (k : Nat) :
    (xs.filter fun x => !((xs.take k).map f).contains (f x)) = xs.drop k := by
  rw [← List.take_append_drop k xs, List.map_append, List.nodup_append] at h
  obtain ⟨-, -, hdisjoint⟩ := h
  conv_lhs => rw [← List.take_append_drop k xs]
  rw [List.filter_append]
  have htake : ((xs.take k).filter fun x => !((xs.take k).map f).contains (f x)) = [] := by
    rw [List.filter_eq_nil_iff]
    intro x hx
    simp only [Bool.not_eq_true', List.contains_eq_mem, decide_eq_false_iff_not, not_not]
    exact List.mem_map_of_mem hx
  have hdrop : ((xs.drop k).filter fun x => !((xs.take k).map f).contains (f x)) = xs.drop k := by
    rw [List.filter_eq_self]
    intro x hx
    simp only [Bool.not_eq_true', List.contains_eq_mem, decide_eq_false_iff_not]
    exact fun hmem => hdisjoint _ hmem _ (List.mem_map_of_mem hx) rfl
  have hlist : List.take k xs ++ List.drop k xs = xs := List.take_append_drop k xs
  rw [hlist, htake, hdrop, List.nil_append]

theorem lookup_map {α β κ : Type} [DecidableEq κ] {f : α → κ} {g : α → β} {xs : List α} {k : κ} :
    (xs.map fun x => (f x, g x)).lookup k = (xs.find? fun x => f x = k).map g := by
  induction xs with
  | nil => rfl
  | cons x xs ih =>
    rw [List.map_cons, List.lookup_cons, List.find?_cons, ih]
    by_cases hx : f x = k
    · simp [hx]
    · have hbeq : (k == f x) = false := by
        rw [beq_eq_false_iff_ne]
        exact fun heq => hx heq.symm
      rw [hbeq, decide_eq_false hx]

theorem nodup_map_snoc {α β : Type} {f : α → β} {xs : List α} {x : α} (h : (xs.map f).Nodup)
    (hx : ∀ y ∈ xs, f y ≠ f x) : ((xs ++ [x]).map f).Nodup := by
  rw [List.map_append, List.nodup_append]
  refine ⟨h, by simp, ?_⟩
  intro a ha b hb
  obtain ⟨y, hy, rfl⟩ := List.mem_map.mp ha
  simp only [List.map_cons, List.map_nil, List.mem_singleton] at hb
  rw [hb]
  exact hx y hy

section Dicts
variable {κ β : Type} [DecidableEq κ]

theorem lookup_iff_mem {dict : List (κ × β)} (h : (dict.map Prod.fst).Nodup) {k : κ} {v : β} :
    dict.lookup k = some v ↔ (k, v) ∈ dict := by
  induction dict with
  | nil => simp
  | cons p dict ih =>
    obtain ⟨l, w⟩ := p
    rw [List.map_cons, List.nodup_cons] at h
    rw [List.lookup_cons, List.mem_cons, Prod.mk.injEq]
    by_cases hk : k = l
    · subst hk
      have hnot : (k, v) ∉ dict := fun hmem => h.1 (List.mem_map.mpr ⟨(k, v), hmem, rfl⟩)
      simp [hnot, eq_comm]
    · rw [beq_eq_false_iff_ne.mpr hk]
      simp [hk, ih h.2]

/-- `dict[key] = value` -/
theorem lookup_assigned (dict : List (κ × β)) (key other : κ) (value : β) :
    (if (dict.lookup key).isSome then dict.map fun entry => if entry.1 = key then (key, value) else entry
      else dict ++ [(key, value)]).lookup other = if other = key then some value else dict.lookup other := by
  have hmap : ∀ dict : List (κ × β), (dict.map fun entry => if entry.1 = key then (key, value) else entry).lookup other =
      if other = key ∧ (dict.lookup key).isSome then some value else dict.lookup other := by
    intro dict
    induction dict with
    | nil => simp
    | cons entry dict ih =>
      obtain ⟨k, v⟩ := entry
      by_cases hk : k = key
      · subst hk
        by_cases hother : other = k
        · subst hother
          simp
        · simp [List.lookup_cons, beq_eq_false_iff_ne.mpr hother, ih, hother]
      · by_cases hother : other = k
        · subst hother
          simp [List.lookup_cons, hk]
        · rw [List.map_cons, if_neg hk, List.lookup_cons, beq_eq_false_iff_ne.mpr hother, ih, List.lookup_cons,
            List.lookup_cons, beq_eq_false_iff_ne.mpr hother, beq_eq_false_iff_ne.mpr (Ne.symm hk)]
  split
  · rename_i hsome
    rw [hmap]
    by_cases hother : other = key
    · rw [if_pos ⟨hother, hsome⟩, if_pos hother]
    · rw [if_neg (fun h => hother h.1), if_neg hother]
  · rename_i hnone
    rw [List.lookup_append]
    by_cases hother : other = key
    · subst hother
      rw [Option.not_isSome_iff_eq_none.mp hnone, if_pos rfl]
      simp
    · rw [if_neg hother, List.lookup_cons, beq_eq_false_iff_ne.mpr hother]
      simp

/-- `dict.update` -/
theorem lookup_merged (old new : List (κ × β)) (k : κ) :
    (old.filter (fun entry => entry.1 ∉ new.map Prod.fst) ++ new).lookup k = (new.lookup k).or (old.lookup k) := by
  have hfilter : (old.filter fun entry => entry.1 ∉ new.map Prod.fst).lookup k =
      if k ∈ new.map Prod.fst then none else old.lookup k := by
    induction old with
    | nil => simp
    | cons entry old ih =>
      obtain ⟨l, v⟩ := entry
      by_cases hl : l ∈ new.map Prod.fst
      · rw [List.filter_cons_of_neg (by simpa using hl), ih, List.lookup_cons]
        by_cases hk : k = l
        · subst hk
          rw [if_pos hl, if_pos hl]
        · rw [beq_eq_false_iff_ne.mpr hk]
      · rw [List.filter_cons_of_pos (by simpa using hl), List.lookup_cons, List.lookup_cons, ih]
        by_cases hk : k = l
        · subst hk
          simp [hl]
        · rw [beq_eq_false_iff_ne.mpr hk]
  rw [List.lookup_append, hfilter]
  by_cases hk : k ∈ new.map Prod.fst
  · rw [if_pos hk, Option.none_or]
    cases hlookup : new.lookup k with
    | some v => rfl
    | none =>
      obtain ⟨entry, hentry, rfl⟩ := List.mem_map.mp hk
      have hne := List.lookup_eq_none_iff.mp hlookup entry hentry
      simp at hne
  · have hnone : new.lookup k = none := by
      rw [List.lookup_eq_none_iff]
      intro entry hentry
      rw [bne_iff_ne]
      rintro rfl
      exact hk (List.mem_map_of_mem hentry)
    rw [if_neg hk, hnone, Option.or_none, Option.none_or]

end Dicts

end ProxmoxVEAutopilot.Foundation
