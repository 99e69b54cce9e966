import Mathlib

/-!
# Leaves of a forest in preorder

A forest is given by the ordered children of each node and of the root. The leaves, each with
the inner nodes above it, come out in the lexicographic order of their paths.
-/

namespace ProxmoxVEAutopilot.Foundation

set_option autoImplicit false

section Forest
variable {ν : Type} (kids : Option ν → List ν) (inner : ν → Bool)

def leaves : Nat → Option ν → List ν → List (List ν × ν)
  | 0, _, _ => []
  | fuel + 1, parent, above =>
    (kids parent).flatMap fun n => if inner n then leaves fuel (some n) (above ++ [n]) else [(above, n)]

/-- The inner nodes `gs`, from the outermost in, lead from `parent` to the leaf. -/
inductive Leads : Option ν → List ν → ν → Prop where
  | leaf {parent : Option ν} {n : ν} : n ∈ kids parent → inner n = false → Leads parent [] n
  | inner {parent : Option ν} {g n : ν} {gs : List ν} : g ∈ kids parent → inner g = true → Leads (some g) gs n →
    Leads parent (g :: gs) n

variable {kids inner} {fuel : Nat} {parent : Option ν} {above gs : List ν} {n : ν} {place : List ν × ν}

theorem above_of_mem_leaves : ∀ {parent : Option ν} {above : List ν}, place ∈ leaves kids inner fuel parent above →
    ∃ rest, place.1 = above ++ rest ∧ rest.length < fuel ∧ Leads kids inner parent rest place.2 := by
  induction fuel with
  | zero => exact fun h => nomatch h
  | succ fuel ih =>
    intro parent above h
    obtain ⟨n, hn, hplace⟩ := List.mem_flatMap.mp h
    split at hplace
    · rename_i hinner
      obtain ⟨rest, heq, hlength, hleads⟩ := ih hplace
      refine ⟨n :: rest, ?_, Nat.succ_lt_succ hlength, .inner hn hinner hleads⟩
      rw [heq, List.append_assoc]
      rfl
    · rename_i hleaf
      rw [List.mem_singleton.mp hplace]
      exact ⟨[], (List.append_nil above).symm, Nat.succ_pos fuel, .leaf hn (Bool.eq_false_iff.mpr hleaf)⟩

theorem Leads.mem_leaves (h : Leads kids inner parent gs n) : ∀ {fuel : Nat} {above : List ν}, gs.length < fuel →
    (above ++ gs, n) ∈ leaves kids inner fuel parent above := by
  induction h with
  | leaf hn hleaf =>
    intro fuel above hlength
    obtain ⟨fuel, rfl⟩ := Nat.exists_eq_succ_of_ne_zero (Nat.ne_of_gt (Nat.zero_lt_of_lt hlength))
    refine List.mem_flatMap.mpr ⟨_, hn, ?_⟩
    rw [if_neg (Bool.eq_false_iff.mp hleaf), List.append_nil]
    exact List.mem_singleton_self _
  | @inner parent g n gs hg hinner _ ih =>
    intro fuel above hlength
    obtain ⟨fuel, rfl⟩ := Nat.exists_eq_succ_of_ne_zero (Nat.ne_of_gt (Nat.zero_lt_of_lt hlength))
    refine List.mem_flatMap.mpr ⟨_, hg, ?_⟩
    have hrest := @ih fuel (above ++ [g]) (Nat.lt_of_succ_lt_succ hlength)
    rw [List.append_assoc] at hrest
    rw [if_pos hinner]
    exact hrest

theorem mem_leaves : place ∈ leaves kids inner fuel parent above ↔
    ∃ rest, place.1 = above ++ rest ∧ rest.length < fuel ∧ Leads kids inner parent rest place.2 := by
  refine ⟨above_of_mem_leaves, fun ⟨rest, heq, hlength, hleads⟩ => ?_⟩
  obtain ⟨groups, leaf⟩ := place
  have hmem : (above ++ rest, leaf) ∈ leaves kids inner fuel parent above := hleads.mem_leaves hlength
  rwa [← heq] at hmem

/-- The path from the root to a leaf. -/
def pathOf (place : List ν × ν) : List ν := place.1 ++ [place.2]

theorem lex_append_left {r : ν → ν → Prop} {xs ys : List ν} (h : List.Lex r xs ys) (above : List ν) :
    List.Lex r (above ++ xs) (above ++ ys) := by
  induction above with
  | nil => exact h
  | cons _ _ ih => exact .cons ih

theorem pairwise_leaves {r : ν → ν → Prop} (hkids : ∀ parent, (kids parent).Pairwise r) (fuel : Nat) :
    ∀ parent above, (leaves kids inner fuel parent above).Pairwise fun p q => List.Lex r (pathOf p) (pathOf q) := by
  induction fuel with
  | zero => exact fun _ _ => .nil
  | succ fuel ih =>
    intro parent above
    unfold leaves
    have hbelow : ∀ n, ∀ place ∈ (if inner n then leaves kids inner fuel (some n) (above ++ [n]) else [(above, n)]),
        ∃ rest, pathOf place = above ++ n :: rest := by
      intro n place hplace
      split at hplace
      · obtain ⟨rest, heq, _⟩ := above_of_mem_leaves hplace
        exact ⟨rest ++ [place.2], by rw [pathOf, heq]; simp⟩
      · rw [List.mem_singleton.mp hplace]
        exact ⟨[], rfl⟩
    refine List.pairwise_flatMap.mpr ⟨fun n _ => ?_, (hkids parent).imp fun {a b} hab p hp q hq => ?_⟩
    · split
      · exact ih _ _
      · exact List.pairwise_singleton _ _
    · obtain ⟨rest, hrest⟩ := hbelow a p hp
      obtain ⟨rest', hrest'⟩ := hbelow b q hq
      rw [hrest, hrest']
      exact lex_append_left (.rel hab) above

end Forest

theorem foldl_emit {ν π ε : Type} {block : ν → List π} {emit : π → Nat → ε} {turn : List ε → ν → List ε}
    (hturn : ∀ out n, turn out n = out ++ (block n).mapIdx fun i p => emit p (out.length + i)) (nodes : List ν) :
    ∀ out, nodes.foldl turn out = out ++ (nodes.flatMap block).mapIdx fun i p => emit p (out.length + i) := by
  induction nodes with
  | nil => exact fun out => (List.append_nil out).symm
  | cons n nodes ih =>
    intro out
    rw [List.foldl_cons, ih, hturn, List.flatMap_cons, List.mapIdx_append, List.append_assoc, List.length_append,
      List.length_mapIdx]
    simp only [Nat.add_assoc, Nat.add_comm (block n).length]

end ProxmoxVEAutopilot.Foundation
