import ProxmoxVEAutopilot.Foundation.Preorder
import ProxmoxVEAutopilot.TsEngine.Tree

/-!
# Flattening is exact

The walk emits the leaves of the tree in preorder, so a plan has each reachable step once, at
its place among the siblings, whatever order the rows came in.
-/

namespace ProxmoxVEAutopilot.TsEngine

open Foundation
set_option autoImplicit false

def Node.isGroup (n : Node) : Bool := n.nodeType = .group

def NodeType.kind : NodeType → String
  | .group => ""
  | .step kind => kind

/-- The step dict of a node below these groups. -/
def flatAt (place : List Node × Node) (ordinal : Nat) : FlatStep :=
  place.2.flat place.2.nodeType.kind ordinal place.1.length (" / ".intercalate ((pathOf place).map Node.name))

/-- The siblings below a node, in the order of the walk. -/
def siblings (tree : List Node) (parent : Option Node) : List Node := childrenOf tree (parent.map Node.id)

/-- Siblings by position, name and id. -/
def siblingLt (a b : Node) : Prop :=
  a.position < b.position ∨ a.position = b.position ∧ (a.name < b.name ∨ a.name = b.name ∧ a.id < b.id)

section Walk
variable {tree : List Node} {n : Node} {gs : List Node} {parent : Option Node}

theorem walk_eq_leaves (tree : List Node) (fuel : Nat) : ∀ (parent : Option Node) (above : List Node) (out : List FlatStep),
    walk tree fuel (parent.map Node.id) (above.map Node.name) above.length out =
      out ++ (leaves (siblings tree) Node.isGroup fuel parent above).mapIdx fun i place => flatAt place (out.length + i) := by
  induction fuel with
  | zero => exact fun _ _ out => (List.append_nil out).symm
  | succ fuel ih =>
    intro parent above out
    refine foldl_emit (fun out node => ?_) (siblings tree parent) out
    unfold Node.isGroup
    cases htype : node.nodeType with
    | group =>
      have hgroup := ih (some node) (above ++ [node]) out
      rw [List.map_append, List.length_append] at hgroup
      exact hgroup
    | step kind =>
      have hflat : flatAt (above, node) out.length = node.flat kind out.length above.length
          (" / ".intercalate (above.map Node.name ++ [node.name])) := by
        unfold flatAt pathOf
        rw [List.map_append, htype]
        rfl
      exact congrArg (fun flat => out ++ [flat]) hflat.symm

theorem flattenSteps_eq_leaves (tree : List Node) : flattenSteps tree =
    (leaves (siblings tree) Node.isGroup (tree.length + 1) none []).mapIdx fun i place => flatAt place i := by
  unfold flattenSteps
  have hwalk := walk_eq_leaves tree (tree.length + 1) none [] []
  simpa using hwalk

theorem leads_iff_below : Leads (siblings tree) Node.isGroup parent gs n ↔
    Below tree (parent.map Node.id) gs n ∧ n.isGroup = false := by
  constructor
  · intro h
    induction h with
    | leaf hn hleaf =>
      obtain ⟨hmem, hparent⟩ := mem_childrenOf.mp hn
      rw [← hparent]
      exact ⟨.child hmem, hleaf⟩
    | inner hg hgroup _ ih =>
      obtain ⟨hmem, hparent⟩ := mem_childrenOf.mp hg
      rw [← hparent]
      exact ⟨.group hmem (of_decide_eq_true hgroup) ih.1, ih.2⟩
  · rintro ⟨h, hleaf⟩
    generalize hstart : parent.map Node.id = start at h
    induction h generalizing parent with
    | child hn => exact .leaf (mem_childrenOf.mpr ⟨hn, hstart.symm⟩) hleaf
    | @group g n gs hg hgroup _ ih =>
      have hbelow : Leads (siblings tree) Node.isGroup (some g) gs n := ih hleaf rfl
      exact .inner (mem_childrenOf.mpr ⟨hg, hstart.symm⟩) (decide_eq_true hgroup) hbelow

def siblingKey (n : Node) : ℤ ×ₗ String ×ₗ ℕ := toLex (n.position, toLex (n.name, n.id))

theorem siblingLe_iff {a b : Node} : siblingLe a b ↔ siblingKey a ≤ siblingKey b := by
  unfold siblingLe siblingKey
  rw [Prod.Lex.toLex_le_toLex, Prod.Lex.toLex_le_toLex]

theorem siblingLt_iff {a b : Node} : siblingLt a b ↔ siblingKey a < siblingKey b := by
  unfold siblingLt siblingKey
  rw [Prod.Lex.toLex_lt_toLex, Prod.Lex.toLex_lt_toLex]

instance : Std.Total siblingLe where
  total := fun a b => by
    rw [siblingLe_iff, siblingLe_iff]
    exact le_total _ _

instance : IsTrans Node siblingLe where
  trans := fun a b c => by
    rw [siblingLe_iff, siblingLe_iff, siblingLe_iff]
    exact le_trans

theorem id_of_siblingKey {a b : Node} (h : siblingKey a = siblingKey b) : a.id = b.id := by
  unfold siblingKey at h
  exact congrArg (fun key => (ofLex (ofLex key).2).2) h

theorem siblingLt_irrefl (n : Node) : ¬ siblingLt n n := by
  rw [siblingLt_iff]
  exact lt_irrefl _

theorem Below.parent_getLast {start : Option Uuid} (h : Below tree start gs n) :
    n.parentId = (gs.getLast?.map Node.id).or start := by
  induction h with
  | child => rfl
  | @group g n gs _ _ _ ih =>
    rw [ih, List.getLast?_cons]
    cases gs.getLast? <;> rfl

theorem Below.init {start : Option Uuid} {g : Node} (h : Below tree start (gs ++ [g]) n) :
    g ∈ tree ∧ Below tree start gs g := by
  induction gs generalizing start with
  | nil =>
    cases h with
    | group hg _ _ => exact ⟨hg, .child hg⟩
  | cons first gs ih =>
    cases h with
    | group hfirst hgroup hrest =>
      obtain ⟨hg, hbelow⟩ := ih hrest
      exact ⟨hg, .group hfirst hgroup hbelow⟩

end Walk

section UniqueIds
variable {nodes others : List Node} (unique : (nodes.map Node.id).Nodup)
include unique

theorem Below.chain_unique {gs : List Node} : ∀ {n : Node} {gs' : List Node}, Below nodes none gs n → Below nodes none gs' n →
    gs = gs' := by
  induction gs using List.reverseRecOn with
  | nil =>
    intro n gs' h h'
    have hroot := h.parent_getLast
    rw [h'.parent_getLast, Option.or_none] at hroot
    exact (List.getLast?_eq_none_iff.mp (Option.map_eq_none_iff.mp hroot)).symm
  | append_singleton gs g ih =>
    intro n gs' h h'
    obtain ⟨hg, hbelow⟩ := h.init
    have hparent := h.parent_getLast
    rw [List.getLast?_concat, h'.parent_getLast, Option.or_none] at hparent
    obtain ⟨g', hlast, hid⟩ := Option.map_eq_some_iff.mp hparent
    obtain ⟨gs', rfl⟩ := List.getLast?_eq_some_iff.mp hlast
    obtain ⟨hg', hbelow'⟩ := h'.init
    obtain rfl : g' = g := eq_of_node_id unique hg' hg hid
    rw [ih hbelow hbelow']

theorem pairwise_siblings (parent : Option Node) : (siblings nodes parent).Pairwise siblingLt := by
  have hsorted : (siblings nodes parent).Pairwise siblingLe := List.pairwise_insertionSort siblingLe _
  have hnodup : (siblings nodes parent).Pairwise fun a b => a.id ≠ b.id := by
    have hkept : ((nodes.filter fun n => n.parentId == parent.map Node.id).map Node.id).Nodup :=
      unique.sublist (List.Sublist.map _ List.filter_sublist)
    have hids : ((siblings nodes parent).map Node.id).Nodup :=
      ((List.perm_insertionSort siblingLe _).map Node.id).nodup_iff.mpr hkept
    exact List.pairwise_map.mp hids
  refine (hsorted.and hnodup).imp fun {a b} h => ?_
  rw [siblingLt_iff]
  exact lt_of_le_of_ne (siblingLe_iff.mp h.1) fun heq => h.2 (id_of_siblingKey heq)

theorem flattenSteps_perm (h : others.Perm nodes) :
    flattenSteps (compiledTree others) = flattenSteps (compiledTree nodes) := by
  have hperm : (compiledTree others).Perm (compiledTree nodes) :=
    ((List.perm_insertionSort _ _).trans h).trans (List.perm_insertionSort _ _).symm
  have hsiblings : siblings (compiledTree others) = siblings (compiledTree nodes) := by
    funext parent
    have hkids : (siblings (compiledTree others) parent).Perm (siblings (compiledTree nodes) parent) :=
      ((List.perm_insertionSort _ _).trans (hperm.filter _)).trans (List.perm_insertionSort _ _).symm
    refine List.Perm.eq_of_pairwise (fun a b ha hb hab hba => ?_) (List.pairwise_insertionSort siblingLe _)
      (List.pairwise_insertionSort siblingLe _) hkids
    have hkey : siblingKey a = siblingKey b := le_antisymm (siblingLe_iff.mp hab) (siblingLe_iff.mp hba)
    refine eq_of_node_id unique ?_ ?_ (id_of_siblingKey hkey)
    · exact h.mem_iff.mp (mem_compiledTree.mp (mem_childrenOf.mp ha).1)
    · exact mem_compiledTree.mp (mem_childrenOf.mp hb).1
  rw [flattenSteps_eq_leaves, flattenSteps_eq_leaves, hsiblings, hperm.length_eq]

end UniqueIds

/-- The steps are the dicts of the places, in order and numbered: the places of the steps that
groups lead to, each step once, in preorder of the tree. -/
structure Flattened (nodes : List Node) (places : List (List Node × Node)) (steps : List FlatStep) : Prop where
  dicts : steps = places.mapIdx fun i place => flatAt place i
  exact : ∀ gs n, (gs, n) ∈ places ↔ Below nodes none gs n ∧ n.isGroup = false
  once : (places.map fun place => place.2.id).Nodup
  preorder : places.Pairwise fun p q => List.Lex siblingLt (pathOf p) (pathOf q)

/-- Flattening emits every step that groups lead to once, in preorder, whatever the row order. -/
theorem flattening_is_exact (nodes : List Node) (unique : (nodes.map Node.id).Nodup) :
    (∃ places, Flattened nodes places (flattenSteps (compiledTree nodes))) ∧
      ∀ others, others.Perm nodes → flattenSteps (compiledTree others) = flattenSteps (compiledTree nodes) := by
  have hunique : ((compiledTree nodes).map Node.id).Nodup :=
    ((List.perm_insertionSort compiledLe nodes).map Node.id).nodup_iff.mpr unique
  have hexact : ∀ gs n, (gs, n) ∈ leaves (siblings (compiledTree nodes)) Node.isGroup ((compiledTree nodes).length + 1) none [] ↔
      Below nodes none gs n ∧ n.isGroup = false := by
    intro gs n
    rw [mem_leaves]
    constructor
    · rintro ⟨rest, heq, _, hleads⟩
      obtain rfl : gs = rest := heq
      obtain ⟨hbelow, hleaf⟩ := leads_iff_below.mp hleads
      exact ⟨below_compiledTree.mp hbelow, hleaf⟩
    · rintro ⟨hbelow, hleaf⟩
      have hlength := hbelow.length_le unique
      rw [length_compiledTree]
      exact ⟨gs, rfl, Nat.lt_succ_of_le hlength, leads_iff_below.mpr ⟨below_compiledTree.mpr hbelow, hleaf⟩⟩
  have hpreorder : (leaves (siblings (compiledTree nodes)) Node.isGroup ((compiledTree nodes).length + 1) none []).Pairwise
      fun p q => List.Lex siblingLt (pathOf p) (pathOf q) :=
    pairwise_leaves (pairwise_siblings hunique) _ none []
  refine ⟨⟨_, flattenSteps_eq_leaves (compiledTree nodes), hexact, ?_, hpreorder⟩, fun others h => flattenSteps_perm unique h⟩
  have hnodup : (leaves (siblings (compiledTree nodes)) Node.isGroup ((compiledTree nodes).length + 1) none []).Nodup := by
    refine hpreorder.imp fun {p q} hlex heq => ?_
    rw [heq] at hlex
    exact List.lex_irrefl siblingLt_irrefl _ hlex
  refine List.Nodup.map_on ?_ hnodup
  rintro ⟨gs, n⟩ hp ⟨gs', n'⟩ hq hid
  obtain ⟨hbelow, _⟩ := (hexact gs n).mp hp
  obtain ⟨hbelow', _⟩ := (hexact gs' n').mp hq
  obtain rfl : n = n' := eq_of_node_id unique hbelow.mem hbelow'.mem hid
  rw [hbelow.chain_unique unique hbelow']

/-- A step below a group beside a step at the same position. -/
def applyPhase : List Node := [
  { id := 3, parentId := some 1, position := 0, nodeType := .step "apply_wim", name := "Apply OS" },
  { id := 2, parentId := none, position := 0, nodeType := .step "partition_disk", name := "Partition" },
  { id := 1, parentId := none, position := 0, nodeType := .group, name := "Apply" }]

example : (flattenSteps (compiledTree applyPhase)).map FlatStep.path = ["Apply / Apply OS", "Partition"] := by
  decide +kernel

theorem applyPhase_flattened : (∃ places, Flattened applyPhase places (flattenSteps (compiledTree applyPhase))) ∧
    ∀ others, others.Perm applyPhase → flattenSteps (compiledTree others) = flattenSteps (compiledTree applyPhase) :=
  flattening_is_exact applyPhase (by decide)

end ProxmoxVEAutopilot.TsEngine
