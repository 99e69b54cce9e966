import ProxmoxVEAutopilot.Foundation.Json
import ProxmoxVEAutopilot.Foundation.Lists

/-!
# The order of keys

Two JSON values that differ in the order of keys only, at any depth, have one form with its keys
sorted.
-/

namespace ProxmoxVEAutopilot.Foundation.Json

set_option autoImplicit false

mutual

/-- Every object has each of its keys once, as a dict does. -/
def Keyed : Json → Prop
  | .arr xs => KeyedList xs
  | .obj fields => (fields.map Prod.fst).Nodup ∧ KeyedFields fields
  | _ => True

def KeyedList : List Json → Prop
  | [] => True
  | x :: xs => x.Keyed ∧ KeyedList xs

def KeyedFields : List (String × Json) → Prop
  | [] => True
  | (_, v) :: fields => v.Keyed ∧ KeyedFields fields

end

/-- In the order of the keys. -/
def keyLe (p q : String × Json) : Prop := p.1 ≤ q.1

instance : DecidableRel keyLe := fun p q => inferInstanceAs (Decidable (p.1 ≤ q.1))
instance : Std.Total keyLe := ⟨fun p q => le_total p.1 q.1⟩
instance : IsTrans (String × Json) keyLe := ⟨fun _ _ _ hpq hqr => le_trans (a := (_ : String)) hpq hqr⟩

mutual

/-- The value with the keys of every object sorted. -/
def sortKeys : Json → Json
  | .arr xs => .arr (sortList xs)
  | .obj fields => .obj ((sortFields fields).insertionSort keyLe)
  | j => j

def sortList : List Json → List Json
  | [] => []
  | x :: xs => x.sortKeys :: sortList xs

/-- The values only. -/
def sortFields : List (String × Json) → List (String × Json)
  | [] => []
  | (k, v) :: fields => (k, v.sortKeys) :: sortFields fields

end

mutual

/-- The same value up to the order of keys. -/
def Same : Json → Json → Prop
  | .arr xs, .arr ys => SameList xs ys
  | .obj fields, .obj others => fields.length = others.length ∧ SameFields fields others
  | a, b => a = b

def SameList : List Json → List Json → Prop
  | [], [] => True
  | x :: xs, y :: ys => x.Same y ∧ SameList xs ys
  | _, _ => False

/-- Every field is among the others. -/
def SameFields : List (String × Json) → List (String × Json) → Prop
  | [], _ => True
  | (k, v) :: fields, others => (∃ w, (k, w) ∈ others ∧ v.Same w) ∧ SameFields fields others

end

theorem keyedList_iff {xs : List Json} : KeyedList xs ↔ ∀ x ∈ xs, x.Keyed := by
  induction xs with
  | nil => simp [KeyedList]
  | cons x xs ih => rw [KeyedList, ih, List.forall_mem_cons]

theorem keyedFields_iff {fields : List (String × Json)} : KeyedFields fields ↔ ∀ p ∈ fields, p.2.Keyed := by
  induction fields with
  | nil => simp [KeyedFields]
  | cons p fields ih =>
    obtain ⟨k, v⟩ := p
    rw [KeyedFields, ih, List.forall_mem_cons]

theorem sortFields_eq (fields : List (String × Json)) :
    sortFields fields = fields.map fun p => (p.1, p.2.sortKeys) := by
  induction fields with
  | nil => rfl
  | cons p fields ih =>
    obtain ⟨k, v⟩ := p
    rw [sortFields, ih, List.map_cons]

theorem keys_sortFields (fields : List (String × Json)) :
    (sortFields fields).map Prod.fst = fields.map Prod.fst := by
  rw [sortFields_eq, List.map_map]
  rfl

theorem nodup_sortFields {fields : List (String × Json)} (h : (fields.map Prod.fst).Nodup) :
    (sortFields fields).Nodup := by
  rw [← keys_sortFields] at h
  exact List.Nodup.of_map _ h

mutual

theorem keyed_sortKeys : ∀ {j : Json}, j.Keyed → j.sortKeys.Keyed
  | .arr xs, h => by
    rw [sortKeys, Keyed]
    exact keyedList_sortList h
  | .obj fields, ⟨hkeys, hfields⟩ => by
    have hperm := List.perm_insertionSort keyLe (sortFields fields)
    rw [sortKeys, Keyed]
    constructor
    · rw [(hperm.map Prod.fst).nodup_iff, keys_sortFields]
      exact hkeys
    · rw [keyedFields_iff]
      intro p hp
      exact keyedFields_iff.mp (keyedFields_sortFields hfields) p (hperm.mem_iff.mp hp)
  | .null, _ => trivial
  | .bool _, _ => trivial
  | .int _, _ => trivial
  | .float _, _ => trivial
  | .str _, _ => trivial

theorem keyedList_sortList : ∀ {xs : List Json}, KeyedList xs → KeyedList (sortList xs)
  | [], _ => trivial
  | _ :: _, h => ⟨keyed_sortKeys h.1, keyedList_sortList h.2⟩

theorem keyedFields_sortFields : ∀ {fields : List (String × Json)}, KeyedFields fields → KeyedFields (sortFields fields)
  | [], _ => trivial
  | (_, _) :: _, h => ⟨keyed_sortKeys h.1, keyedFields_sortFields h.2⟩

end

mutual

theorem sortKeys_sortKeys : ∀ j : Json, j.sortKeys.sortKeys = j.sortKeys
  | .arr xs => by
    rw [sortKeys, sortKeys, sortList_sortList xs]
  | .obj fields => by
    have hperm := List.perm_insertionSort keyLe (sortFields fields)
    have hfixed : sortFields ((sortFields fields).insertionSort keyLe) = (sortFields fields).insertionSort keyLe := by
      rw [sortFields_eq]
      refine (List.map_congr_left fun p hp => ?_).trans (List.map_id _)
      rw [sortFields_fixed fields p (hperm.mem_iff.mp hp), id]
    rw [sortKeys, sortKeys, hfixed, (List.pairwise_insertionSort keyLe _).insertionSort_eq]
  | .null => rfl
  | .bool _ => rfl
  | .int _ => rfl
  | .float _ => rfl
  | .str _ => rfl

theorem sortList_sortList : ∀ xs : List Json, sortList (sortList xs) = sortList xs
  | [] => rfl
  | x :: xs => by
    rw [sortList, sortList, sortKeys_sortKeys x, sortList_sortList xs]

theorem sortFields_fixed : ∀ fields : List (String × Json), ∀ p ∈ sortFields fields, p.2.sortKeys = p.2
  | [], p, hp => by cases hp
  | (k, v) :: fields, p, hp => by
    rw [sortFields] at hp
    rcases List.mem_cons.mp hp with rfl | hp
    · exact sortKeys_sortKeys v
    · exact sortFields_fixed fields p hp

end

theorem insertionSort_eq_iff {fields others : List (String × Json)} (hkeys : (fields.map Prod.fst).Nodup) :
    fields.insertionSort keyLe = others.insertionSort keyLe ↔ fields.Perm others := by
  constructor
  · intro h
    exact (List.perm_insertionSort keyLe fields).symm.trans (h ▸ List.perm_insertionSort keyLe others)
  · intro h
    have hsorted := (List.perm_insertionSort keyLe fields).trans (h.trans (List.perm_insertionSort keyLe others).symm)
    refine hsorted.eq_of_pairwise ?_ (List.pairwise_insertionSort keyLe _) (List.pairwise_insertionSort keyLe _)
    intro p q hp hq hpq hqp
    have hp' : p ∈ fields := (List.mem_insertionSort keyLe).mp hp
    have hq' : q ∈ fields := h.mem_iff.mpr ((List.mem_insertionSort keyLe).mp hq)
    exact List.inj_on_of_nodup_map hkeys hp' hq' (le_antisymm hpq hqp)

mutual

theorem same_iff : ∀ {a b : Json}, a.Keyed → b.Keyed → (a.Same b ↔ a.sortKeys = b.sortKeys)
  | .arr xs, .arr ys, ha, hb => by
    rw [Same, sortKeys, sortKeys, Json.arr.injEq]
    exact sameList_iff ha hb
  | .obj fields, .obj others, ha, hb => by
    rw [Same, sortKeys, sortKeys, Json.obj.injEq,
      insertionSort_eq_iff (by rw [keys_sortFields]; exact ha.1), sameFields_iff ha.2 hb.2]
    constructor
    · rintro ⟨hlength, hsub⟩
      refine (List.subperm_of_subset (nodup_sortFields ha.1) hsub).perm_of_length_le ?_
      rw [sortFields_eq, sortFields_eq, List.length_map, List.length_map, hlength]
    · intro hperm
      refine ⟨?_, hperm.subset⟩
      have hlength := hperm.length_eq
      rwa [sortFields_eq, sortFields_eq, List.length_map, List.length_map] at hlength
  | .null, b, _, _ => by cases b <;> simp [Same, sortKeys]
  | .bool _, b, _, _ => by cases b <;> simp [Same, sortKeys]
  | .int _, b, _, _ => by cases b <;> simp [Same, sortKeys]
  | .float _, b, _, _ => by cases b <;> simp [Same, sortKeys]
  | .str _, b, _, _ => by cases b <;> simp [Same, sortKeys]
  | .arr _, .null, _, _ | .arr _, .bool _, _, _ | .arr _, .int _, _, _ | .arr _, .float _, _, _
  | .arr _, .str _, _, _ | .arr _, .obj _, _, _ => by simp [Same, sortKeys]
  | .obj _, .null, _, _ | .obj _, .bool _, _, _ | .obj _, .int _, _, _ | .obj _, .float _, _, _
  | .obj _, .str _, _, _ | .obj _, .arr _, _, _ => by simp [Same, sortKeys]

theorem sameList_iff : ∀ {xs ys : List Json}, KeyedList xs → KeyedList ys →
    (SameList xs ys ↔ sortList xs = sortList ys)
  | [], [], _, _ => by simp [SameList]
  | x :: xs, y :: ys, ha, hb => by
    rw [SameList, sortList, sortList, List.cons.injEq, same_iff ha.1 hb.1, sameList_iff ha.2 hb.2]
  | [], _ :: _, _, _ | _ :: _, [], _, _ => by simp [SameList, sortList]

theorem sameFields_iff : ∀ {fields others : List (String × Json)}, KeyedFields fields → KeyedFields others →
    (SameFields fields others ↔ sortFields fields ⊆ sortFields others)
  | [], others, _, _ => by simp [SameFields, sortFields]
  | (k, v) :: fields, others, ha, hb => by
    rw [SameFields, sortFields, List.cons_subset, sameFields_iff ha.2 hb]
    refine and_congr_left fun _ => ?_
    rw [sortFields_eq, List.mem_map]
    constructor
    · rintro ⟨w, hw, hsame⟩
      have hsorted := (same_iff ha.1 (keyedFields_iff.mp hb _ hw)).mp hsame
      exact ⟨(k, w), hw, by rw [hsorted]⟩
    · rintro ⟨⟨l, w⟩, hw, hsorted⟩
      obtain ⟨rfl, hvalue⟩ := Prod.mk.inj hsorted
      exact ⟨w, hw, (same_iff ha.1 (keyedFields_iff.mp hb _ hw)).mpr hvalue.symm⟩

end

/-! ### Reading a field -/

theorem get?_sortKeys {j : Json} (h : j.Keyed) (k : String) : j.sortKeys.get? k = (j.get? k).map sortKeys := by
  cases j with
  | obj fields =>
    have hperm := List.perm_insertionSort keyLe (sortFields fields)
    have hkeys : ((sortFields fields).map Prod.fst).Nodup := by rw [keys_sortFields]; exact h.1
    ext v
    rw [sortKeys, get?, get?, lookup_iff_mem ((hperm.map Prod.fst).nodup_iff.mpr hkeys), hperm.mem_iff, sortFields_eq,
      List.mem_map, Option.map_eq_some_iff]
    constructor
    · rintro ⟨⟨l, w⟩, hw, heq⟩
      obtain ⟨rfl, rfl⟩ := Prod.mk.inj heq
      exact ⟨w, (lookup_iff_mem h.1).mpr hw, rfl⟩
    · rintro ⟨w, hw, rfl⟩
      exact ⟨(k, w), (lookup_iff_mem h.1).mp hw, rfl⟩
  | _ => rfl

theorem keyed_of_get? {j v : Json} (h : j.Keyed) {k : String} (hv : j.get? k = some v) : v.Keyed := by
  cases j with
  | obj fields => exact keyedFields_iff.mp h.2 _ ((lookup_iff_mem h.1).mp hv)
  | _ => cases hv

end ProxmoxVEAutopilot.Foundation.Json
