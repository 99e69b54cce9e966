import ProxmoxVEAutopilot.TsEngine.Condition

/-!
# Sequence trees and their flattening

Nodes are stored with parent links; `_compiled_tree` sorts the rows and
`_flatten_steps` walks them depth first. A step is planned exactly when groups lead
to it from the root, and the budget of the walk always reaches it.
-/

namespace ProxmoxVEAutopilot.TsEngine

open Foundation
set_option autoImplicit false

/-- `node_type` and `kind` under the table's check constraint. -/
inductive NodeType where
  | group
  | step (kind : String)
deriving DecidableEq, Repr

/-- A row of `ts_task_sequence_nodes`; the dict of `_compiled_tree` has the same keys. -/
structure Node where
  id : Uuid
  parentId : Option Uuid
  position : Int
  nodeType : NodeType
  name : String
  phase : String := "any"
  enabled : Bool := true
  conditionJson : Json := .obj []
  variablesJson : Json := .obj []
  paramsJson : Json := .obj []
  contentRefsJson : List String := []
  continueOnError : Bool := false
  retryCount : Int := 0
  retryDelaySeconds : Int := 10
  timeoutSeconds : Option Int := none
  rebootBehavior : RebootBehavior := .none

/-- `str(parent_id or "")`: roots come first. -/
def parentKey : Option Uuid → Nat
  | none => 0
  | some p => p + 1

def compiledLe (a b : Node) : Prop :=
  parentKey a.parentId < parentKey b.parentId ∨ parentKey a.parentId = parentKey b.parentId ∧
    (a.position < b.position ∨ a.position = b.position ∧ a.id ≤ b.id)

instance : DecidableRel compiledLe := fun _ _ => inferInstanceAs (Decidable (_ ∨ _))

def siblingLe (a b : Node) : Prop :=
  a.position < b.position ∨ a.position = b.position ∧
    (a.name < b.name ∨ a.name = b.name ∧ a.id ≤ b.id)

instance : DecidableRel siblingLe := fun _ _ => inferInstanceAs (Decidable (_ ∨ _))

def compiledTree (nodes : List Node) : List Node := nodes.insertionSort compiledLe

/-- `children.get(parent_id, [])` after sorting. -/
def childrenOf (tree : List Node) (parent : Option Uuid) : List Node :=
  (tree.filter fun n => n.parentId == parent).insertionSort siblingLe

def Node.flat (n : Node) (kind : String) (ordinal depth : Nat) (path : String) : FlatStep where
  sourceNodeId := n.id
  parentSourceNodeId := n.parentId
  ordinal := ordinal
  depth := depth
  path := path
  name := n.name
  kind := kind
  phase := n.phase
  enabled := n.enabled
  conditionJson := n.conditionJson
  variablesJson := n.variablesJson
  paramsJson := n.paramsJson
  resolvedParamsJson := n.paramsJson
  contentRefsJson := n.contentRefsJson
  continueOnError := n.continueOnError
  retryCount := n.retryCount
  retryDelaySeconds := n.retryDelaySeconds
  timeoutSeconds := n.timeoutSeconds
  rebootBehavior := n.rebootBehavior

/-- The inner `walk`; `fuel` bounds the nesting it follows. -/
def walk (tree : List Node) :
    Nat → Option Uuid → List String → Nat → List FlatStep → List FlatStep
  | 0, _, _, _, out => out
  | fuel + 1, parent, parts, depth, out =>
    (childrenOf tree parent).foldl
      (fun out node =>
        match node.nodeType with
        | .group => walk tree fuel (some node.id) (parts ++ [node.name]) (depth + 1) out
        | .step kind =>
          out ++ [node.flat kind out.length depth (" / ".intercalate (parts ++ [node.name]))])
      out

def flattenSteps (tree : List Node) : List FlatStep := walk tree (tree.length + 1) none [] 0 []

/-- The groups `gs`, from the outermost in, lead from `parent` to the node. -/
inductive Below (tree : List Node) : Option Uuid → List Node → Node → Prop where
  | child {n : Node} : n ∈ tree → Below tree n.parentId [] n
  | group {g n : Node} {gs : List Node} :
      g ∈ tree → g.nodeType = .group → Below tree (some g.id) gs n →
      Below tree g.parentId (g :: gs) n

def FlatOf (n : Node) (kind : String) (f : FlatStep) : Prop :=
  ∃ ordinal depth path, f = n.flat kind ordinal depth path

theorem mem_childrenOf {tree : List Node} {parent : Option Uuid} {n : Node} :
    n ∈ childrenOf tree parent ↔ n ∈ tree ∧ n.parentId = parent := by
  simp [childrenOf]

theorem mem_compiledTree {nodes : List Node} {n : Node} : n ∈ compiledTree nodes ↔ n ∈ nodes := by
  simp [compiledTree]

theorem length_compiledTree (nodes : List Node) : (compiledTree nodes).length = nodes.length :=
  List.length_insertionSort ..

theorem Below.mono {tree tree' : List Node} (h : ∀ n, n ∈ tree → n ∈ tree')
    {parent : Option Uuid} {gs : List Node} {n : Node} (hb : Below tree parent gs n) :
    Below tree' parent gs n := by
  induction hb with
  | child hn => exact .child (h _ hn)
  | group hg ht _ ih => exact .group (h _ hg) ht ih

theorem below_compiledTree {nodes : List Node} {parent : Option Uuid} {gs : List Node} {n : Node} :
    Below (compiledTree nodes) parent gs n ↔ Below nodes parent gs n :=
  ⟨Below.mono fun _ => mem_compiledTree.mp, Below.mono fun _ => mem_compiledTree.mpr⟩

theorem Below.mem {tree : List Node} {parent : Option Uuid} {gs : List Node} {n : Node}
    (h : Below tree parent gs n) : n ∈ tree := by
  induction h with
  | child hn => exact hn
  | group _ _ _ ih => exact ih

theorem Below.groups_mem {tree : List Node} {parent : Option Uuid} {gs : List Node} {n : Node}
    (h : Below tree parent gs n) : ∀ g ∈ gs, g ∈ tree := by
  induction h with
  | child => simp
  | group hg _ _ ih => exact List.forall_mem_cons.mpr ⟨hg, ih⟩

theorem prefix_walk (tree : List Node) (fuel : Nat) :
    ∀ parent parts depth out, out <+: walk tree fuel parent parts depth out := by
  induction fuel with
  | zero => exact fun _ _ _ out => List.prefix_rfl
  | succ fuel ih =>
    intro parent parts depth out
    simp only [walk]
    refine List.foldlRecOn (motive := fun acc => out <+: acc) _ _ List.prefix_rfl ?_
    intro acc hacc node _
    cases node.nodeType with
    | group => exact hacc.trans (ih _ _ _ acc)
    | step kind => exact hacc.trans (List.prefix_append acc _)

theorem walk_ordinals (tree : List Node) (fuel : Nat) :
    ∀ parent parts depth out, out.map FlatStep.ordinal = List.range out.length →
      (walk tree fuel parent parts depth out).map FlatStep.ordinal =
        List.range (walk tree fuel parent parts depth out).length := by
  induction fuel with
  | zero => exact fun _ _ _ _ h => h
  | succ fuel ih =>
    intro parent parts depth out hout
    simp only [walk]
    refine List.foldlRecOn
      (motive := fun acc : List FlatStep => acc.map FlatStep.ordinal = List.range acc.length) _ _ hout ?_
    intro acc hacc node _
    cases node.nodeType with
    | group => exact ih _ _ _ acc hacc
    | step kind => simp [hacc, List.range_succ, Node.flat]

theorem flattenSteps_ordinals (tree : List Node) :
    (flattenSteps tree).map FlatStep.ordinal = List.range (flattenSteps tree).length :=
  walk_ordinals tree _ _ _ _ [] rfl

theorem flattenSteps_ordered (tree : List Node) :
    (flattenSteps tree).Pairwise fun a b => a.ordinal < b.ordinal := by
  have h : ((flattenSteps tree).map FlatStep.ordinal).Pairwise (· < ·) := by
    rw [flattenSteps_ordinals]
    exact List.pairwise_lt_range
  exact List.pairwise_map.mp h

theorem walk_sound (tree : List Node) (fuel : Nat) :
    ∀ parent parts depth out, ∀ f ∈ walk tree fuel parent parts depth out, f ∈ out ∨
      ∃ gs n kind, Below tree parent gs n ∧ n.nodeType = .step kind ∧ FlatOf n kind f := by
  induction fuel with
  | zero => exact fun _ _ _ _ f hf => .inl hf
  | succ fuel ih =>
    intro parent parts depth out
    simp only [walk]
    refine List.foldlRecOn (motive := fun acc => ∀ f ∈ acc, f ∈ out ∨
      ∃ gs n kind, Below tree parent gs n ∧ n.nodeType = .step kind ∧ FlatOf n kind f)
      _ _ (fun f hf => .inl hf) ?_
    intro acc hacc node hnode f hf
    obtain ⟨hmem, rfl⟩ := mem_childrenOf.mp hnode
    cases ht : node.nodeType with
    | group =>
      rw [ht] at hf
      rcases ih _ _ _ acc f hf with hf | ⟨gs, n, kind, hb, hk, hflat⟩
      · exact hacc f hf
      · exact .inr ⟨node :: gs, n, kind, .group hmem ht hb, hk, hflat⟩
    | step kind =>
      rw [ht] at hf
      rcases List.mem_append.mp hf with hf | hf
      · exact hacc f hf
      · exact .inr ⟨[], node, kind, .child hmem, ht, _, _, _, List.mem_singleton.mp hf⟩

theorem flattenSteps_sound {tree : List Node} {f : FlatStep} (hf : f ∈ flattenSteps tree) :
    ∃ gs n kind, Below tree none gs n ∧ n.nodeType = .step kind ∧ FlatOf n kind f := by
  rcases walk_sound tree _ _ _ _ _ _ hf with hf | h
  · simp at hf
  · exact h

theorem walk_complete {tree : List Node} {parent : Option Uuid} {gs : List Node} {n : Node}
    {kind : String} (hb : Below tree parent gs n) (hk : n.nodeType = .step kind) :
    ∀ fuel, gs.length < fuel → ∀ parts depth out,
      ∃ f ∈ walk tree fuel parent parts depth out, FlatOf n kind f := by
  have hext : ∀ (fuel : Nat) (parts : List String) (depth : Nat) (acc : List FlatStep) (x : Node),
      acc <+: (match x.nodeType with
        | .group => walk tree fuel (some x.id) (parts ++ [x.name]) (depth + 1) acc
        | .step kind =>
          acc ++ [x.flat kind acc.length depth (" / ".intercalate (parts ++ [x.name]))]) := by
    intro fuel parts depth acc x
    cases x.nodeType with
    | group => exact prefix_walk tree fuel _ _ _ acc
    | step kind => exact List.prefix_append acc _
  induction hb with
  | child hn =>
    intro fuel hfuel parts depth out
    obtain ⟨fuel, rfl⟩ := Nat.exists_eq_succ_of_ne_zero (Nat.ne_of_gt (Nat.zero_lt_of_lt hfuel))
    simp only [walk]
    refine exists_mem_foldl_of_mem (hext fuel parts depth) (mem_childrenOf.mpr ⟨hn, rfl⟩) ?_ out
    intro acc
    rw [hk]
    exact ⟨_, List.mem_append_right acc List.mem_cons_self, _, _, _, rfl⟩
  | group hg ht _ ih =>
    intro fuel hfuel parts depth out
    obtain ⟨fuel, rfl⟩ := Nat.exists_eq_succ_of_ne_zero (Nat.ne_of_gt (Nat.zero_lt_of_lt hfuel))
    simp only [walk]
    refine exists_mem_foldl_of_mem (hext fuel parts depth) (mem_childrenOf.mpr ⟨hg, rfl⟩) ?_ out
    intro acc
    rw [ht]
    exact ih hk fuel (by simpa using hfuel) _ _ acc

theorem flattenSteps_kinds {tree : List Node} {kindOf : Node → String}
    (h : ∀ n ∈ tree, n.parentId = none ∧ n.nodeType = .step (kindOf n)) :
    ((flattenSteps tree).map FlatStep.kind).Perm (tree.map kindOf) := by
  have hfold : ∀ (nodes : List Node) (out : List FlatStep), (∀ n ∈ nodes, n.nodeType = .step (kindOf n)) →
      (nodes.foldl (fun out node =>
        match node.nodeType with
        | .group => walk tree tree.length (some node.id) ([] ++ [node.name]) (0 + 1) out
        | .step kind =>
          out ++ [node.flat kind out.length 0 (" / ".intercalate ([] ++ [node.name]))])
        out).map FlatStep.kind = out.map FlatStep.kind ++ nodes.map kindOf := by
    intro nodes
    induction nodes with
    | nil => exact fun out _ => by simp
    | cons node nodes ih =>
      intro out hnodes
      obtain ⟨hnode, hrest⟩ := List.forall_mem_cons.mp hnodes
      rw [List.foldl_cons, ih _ hrest, hnode]
      simp [Node.flat]
  have hchildren : (childrenOf tree none).Perm tree := by
    have hroots : (tree.filter fun n => n.parentId == none) = tree :=
      List.filter_eq_self.mpr fun n hn => by simp [(h n hn).1]
    unfold childrenOf
    rw [hroots]
    exact List.perm_insertionSort _ _
  unfold flattenSteps walk
  rw [hfold _ _ fun n hn => (h n (hchildren.mem_iff.mp hn)).2]
  exact hchildren.map kindOf

section UniqueIds
variable {tree : List Node} (unique : (tree.map Node.id).Nodup)
include unique

theorem eq_of_node_id {a b : Node} (ha : a ∈ tree) (hb : b ∈ tree) (h : a.id = b.id) : a = b :=
  List.inj_on_of_nodup_map unique ha hb h

omit unique in
theorem Below.getElem_parent {parent : Option Uuid} {gs : List Node} {n : Node}
    (h : Below tree parent gs n) : ∀ i (hi : i < gs.length), (gs[i]).parentId =
      match i with
      | 0 => parent
      | j + 1 => (gs[j]?).map Node.id := by
  induction h with
  | child => intro i hi; simp at hi
  | @group g n gs _ _ _ ih =>
    intro i hi
    match i with
    | 0 => rfl
    | 1 => simpa using ih 0 (by simpa using hi)
    | j + 2 => simpa using ih (j + 1) (Nat.lt_of_succ_lt_succ hi)

theorem Below.group_ne {gs : List Node} {n : Node} (h : Below tree none gs n) :
    ∀ i j (hi : i < j) (hj : j < gs.length), gs[i] ≠ gs[j] := by
  intro i
  induction i with
  | zero =>
    intro j hi hj heq
    obtain ⟨k, rfl⟩ := Nat.exists_eq_succ_of_ne_zero (Nat.ne_of_gt hi)
    have h0 := h.getElem_parent 0 (by omega)
    have hk := h.getElem_parent (k + 1) hj
    rw [← heq, h0] at hk
    simp [List.getElem?_eq_getElem (show k < gs.length by omega)] at hk
  | succ i ih =>
    intro j hi hj heq
    obtain ⟨k, rfl⟩ := Nat.exists_eq_succ_of_ne_zero (Nat.ne_of_gt (Nat.zero_lt_of_lt hi))
    have h1 := h.getElem_parent (i + 1) (by omega)
    have h2 := h.getElem_parent (k + 1) hj
    rw [← heq, h1] at h2
    simp only [List.getElem?_eq_getElem (show i < gs.length by omega),
      List.getElem?_eq_getElem (show k < gs.length by omega), Option.map_some,
      Option.some.injEq] at h2
    exact ih k (by omega) (by omega)
      (eq_of_node_id unique (h.groups_mem _ (List.getElem_mem _))
        (h.groups_mem _ (List.getElem_mem _)) h2)

theorem Below.length_le {gs : List Node} {n : Node} (h : Below tree none gs n) :
    gs.length ≤ tree.length := by
  have hnodup : gs.Nodup := by
    rw [List.Nodup, List.pairwise_iff_getElem]
    exact fun i j _ hj hij => h.group_ne unique i j hij hj
  exact (hnodup.subperm h.groups_mem).length_le

/-- The budget of `flattenSteps` reaches every step that groups lead to. -/
theorem flattenSteps_complete {gs : List Node} {n : Node} {kind : String}
    (hb : Below tree none gs n) (hk : n.nodeType = .step kind) :
    ∃ f ∈ flattenSteps tree, FlatOf n kind f := by
  have hlen := hb.length_le unique
  exact walk_complete hb hk _ (by omega) _ _ _

end UniqueIds

end ProxmoxVEAutopilot.TsEngine
