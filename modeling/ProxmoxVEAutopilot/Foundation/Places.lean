import Mathlib

/-!
# Find or create

The first element of a kind is replaced, or a new one stands behind all others.
-/

namespace ProxmoxVEAutopilot.Foundation

set_option autoImplicit false

section Place
variable {α β : Type*} {p q : α → Bool} {y : α}

/-- `y` in place of the first element of the kind, or last where there is none. -/
def place (p : α → Bool) (y : α) : List α → List α
  | [] => [y]
  | x :: rest => if p x then y :: rest else x :: place p y rest

theorem place_cons (x : α) (rest : List α) :
    place p y (x :: rest) = if p x then y :: rest else x :: place p y rest := rfl

theorem find?_place (hy : p y = true) (l : List α) : (place p y l).find? p = some y := by
  induction l with
  | nil => exact List.find?_cons_of_pos hy
  | cons x rest ih =>
    unfold place
    split
    · exact List.find?_cons_of_pos hy
    · rename_i hx
      rw [List.find?_cons_of_neg hx, ih]

theorem place_self {l : List α} {x : α} (h : l.find? p = some x) : place p x l = l := by
  induction l with
  | nil => cases h
  | cons z rest ih =>
    unfold place
    split
    · rename_i hz
      rw [List.find?_cons_of_pos hz] at h
      cases h
      rfl
    · rename_i hz
      rw [List.find?_cons_of_neg hz] at h
      rw [ih h]

theorem find?_place_of_apart (hapart : ∀ x, p x = true → q x = false) (hy : q y = false) (l : List α) :
    (place p y l).find? q = l.find? q := by
  induction l with
  | nil =>
    unfold place
    rw [List.find?_cons_of_neg (by rw [hy]; exact Bool.false_ne_true)]
  | cons x rest ih =>
    unfold place
    split
    · rename_i hx
      rw [List.find?_cons_of_neg (by rw [hy]; exact Bool.false_ne_true),
        List.find?_cons_of_neg (by rw [hapart x hx]; exact Bool.false_ne_true)]
    · rw [List.find?_cons, List.find?_cons, ih]

theorem findIdx?_place_of_apart (hapart : ∀ x, p x = true → q x = false) (hy : q y = false) (l : List α) :
    (place p y l).findIdx? q = l.findIdx? q := by
  induction l with
  | nil =>
    unfold place
    rw [List.findIdx?_cons, hy]
    rfl
  | cons x rest ih =>
    unfold place
    split
    · rename_i hx
      rw [List.findIdx?_cons, List.findIdx?_cons, hy, hapart x hx]
    · rw [List.findIdx?_cons, List.findIdx?_cons, ih]

theorem getElem?_place {l : List α} {i : Nat} {x : α} (h : l[i]? = some x) :
    (place p y l)[i]? = some (if l.findIdx? p = some i then y else x) := by
  induction l generalizing i with
  | nil => cases h
  | cons z rest ih =>
    unfold place
    cases hz : p z with
    | true =>
      rw [if_pos rfl, List.findIdx?_cons, hz]
      cases i with
      | zero => simp
      | succ i =>
        rw [List.getElem?_cons_succ] at h ⊢
        rw [h]
        simp
    | false =>
      rw [if_neg Bool.false_ne_true, List.findIdx?_cons, hz]
      cases i with
      | zero =>
        rw [List.getElem?_cons_zero] at h ⊢
        cases h
        simp
      | succ i =>
        rw [List.getElem?_cons_succ] at h ⊢
        rw [ih h]
        simp

theorem flatMap_place_same {f : α → List β} {l : List α} (h : f y = (l.find? p).elim [] f) :
    (place p y l).flatMap f = l.flatMap f := by
  induction l with
  | nil =>
    unfold place
    rw [List.flatMap_cons, h]
    rfl
  | cons x rest ih =>
    unfold place
    split
    · rename_i hx
      rw [List.find?_cons_of_pos hx] at h
      rw [List.flatMap_cons, List.flatMap_cons, h]
      rfl
    · rename_i hx
      rw [List.find?_cons_of_neg hx] at h
      rw [List.flatMap_cons, List.flatMap_cons, ih h]

theorem length_elim_find?_le (f : α → List β) (l : List α) :
    ((l.find? p).elim [] f).length ≤ (l.flatMap f).length := by
  cases hfind : l.find? p with
  | none => exact Nat.zero_le _
  | some x =>
    obtain ⟨before, after, hl⟩ := List.append_of_mem (List.mem_of_find?_eq_some hfind)
    rw [hl, List.flatMap_append, List.flatMap_cons, List.length_append, List.length_append]
    change (f x).length ≤ _
    omega

theorem flatMap_place_of_only {f : α → List β} {l : List α} (h : l.flatMap f = (l.find? p).elim [] f) :
    (place p y l).flatMap f = f y := by
  induction l with
  | nil =>
    unfold place
    rw [List.flatMap_cons, List.flatMap_nil, List.append_nil]
  | cons x rest ih =>
    unfold place
    split
    · rename_i hx
      rw [List.find?_cons_of_pos hx, List.flatMap_cons] at h
      have hrest : rest.flatMap f = [] := List.append_right_eq_self.mp h
      rw [List.flatMap_cons, hrest, List.append_nil]
    · rename_i hx
      rw [List.find?_cons_of_neg hx, List.flatMap_cons] at h
      have hlength := congrArg List.length h
      have hle := length_elim_find?_le (p := p) f rest
      rw [List.length_append] at hlength
      have hnone : f x = [] := List.eq_nil_of_length_eq_zero (by omega)
      rw [hnone, List.nil_append] at h
      rw [List.flatMap_cons, hnone, List.nil_append, ih h]

/-- If only the found one counts, and by some part of what it has, then by all it has. -/
theorem flatMap_only {f g : α → List β} {l : List α} (h : l.flatMap f = (l.find? p).elim [] g)
    (hle : ∀ x, (g x).length ≤ (f x).length) : l.flatMap f = (l.find? p).elim [] f := by
  cases hfind : l.find? p with
  | none =>
    rw [hfind] at h
    exact h
  | some x =>
    rw [hfind] at h
    obtain ⟨before, after, hl⟩ := List.append_of_mem (List.mem_of_find?_eq_some hfind)
    have hlength := congrArg List.length h
    have hx := hle x
    change (l.flatMap f).length = (g x).length at hlength
    rw [hl, List.flatMap_append, List.flatMap_cons, List.length_append, List.length_append] at hlength
    have hbefore : before.flatMap f = [] := List.eq_nil_of_length_eq_zero (by omega)
    have hafter : after.flatMap f = [] := List.eq_nil_of_length_eq_zero (by omega)
    rw [hl, List.flatMap_append, List.flatMap_cons, hbefore, hafter, List.append_nil]
    rfl

theorem elim_find?_of_only {f : α → List β} {l : List α} (h : l.flatMap f = (l.find? p).elim [] f)
    (hapart : ∀ x, p x = true → q x = false) : (l.find? q).elim [] f = [] := by
  induction l with
  | nil => rfl
  | cons x rest ih =>
    cases hx : p x with
    | true =>
      rw [List.find?_cons_of_pos hx, List.flatMap_cons] at h
      have hrest : rest.flatMap f = [] := List.append_right_eq_self.mp h
      have hle := length_elim_find?_le (p := q) f rest
      rw [hrest] at hle
      rw [List.find?_cons_of_neg (by rw [hapart x hx]; exact Bool.false_ne_true)]
      exact List.eq_nil_of_length_eq_zero (Nat.le_zero.mp hle)
    | false =>
      have hneg : ¬ p x = true := by
        rw [hx]
        exact Bool.false_ne_true
      rw [List.find?_cons_of_neg hneg, List.flatMap_cons] at h
      have hlength := congrArg List.length h
      have hle := length_elim_find?_le (p := p) f rest
      rw [List.length_append] at hlength
      have hnone : f x = [] := List.eq_nil_of_length_eq_zero (by omega)
      rw [hnone, List.nil_append] at h
      rw [List.find?_cons]
      split
      · exact hnone
      · exact ih h

theorem find?_filter_of_imp (h : ∀ x, p x = true → q x = true) (l : List α) : (l.filter q).find? p = l.find? p := by
  rw [List.find?_filter]
  congr 1
  funext x
  cases hx : p x with
  | true => simp [h x hx]
  | false => simp

theorem filter_place (h : ∀ x, p x = true → q x = true) (hy : q y = true) (l : List α) :
    (place p y l).filter q = place p y (l.filter q) := by
  induction l with
  | nil =>
    unfold place
    rw [List.filter_cons, if_pos hy]
    rfl
  | cons x rest ih =>
    rw [place_cons, List.filter_cons]
    cases hx : p x with
    | true => rw [if_pos rfl, if_pos (h x hx), List.filter_cons, if_pos hy, place_cons, hx, if_pos rfl]
    | false =>
      rw [if_neg Bool.false_ne_true, List.filter_cons, ih]
      split
      · rw [place_cons, hx, if_neg Bool.false_ne_true]
      · rfl

theorem flatMap_filter_of_only {f : α → List β} {l : List α} (h : l.flatMap f = (l.find? p).elim [] f)
    (hq : ∀ x, p x = true → q x = true) : (l.filter q).flatMap f = ((l.filter q).find? p).elim [] f := by
  have hsub : ((l.filter q).flatMap f).Sublist (l.flatMap f) := List.filter_sublist.flatMap f
  have hle := length_elim_find?_le (p := p) f (l.filter q)
  rw [find?_filter_of_imp hq] at hle ⊢
  rw [h] at hsub
  exact hsub.eq_of_length_le hle

theorem find?_of_findIdx? {l : List α} {i : Nat} {x : α} (h : l.findIdx? p = some i) (hx : l[i]? = some x) :
    l.find? p = some x ∧ p x = true := by
  have hfind : l.find? p = some x := by
    rw [List.find?_eq_bind_findIdx?_getElem?, h]
    exact hx
  exact ⟨hfind, List.find?_some hfind⟩

end Place

end ProxmoxVEAutopilot.Foundation
