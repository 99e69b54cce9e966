import ProxmoxVEAutopilot.TsEngine.Publication

/-!
# The tree that a builder save stores

The save resolves parents through a map that the same loop fills. A group that is listed
after a node that names it is not in the map yet, and the node is inserted at the root.
-/

namespace ProxmoxVEAutopilot.TsEngine

open Foundation
set_option autoImplicit false

section Normalized

/-- `node_type` is the group word. -/
def BuilderNode.isGroup (raw : BuilderNode) : Bool :=
  String.ofList ((strip ((given raw.nodeType).getD "step")).toList.map Char.toLower) = "group"

/-- What one turn of the normalising loop makes of a node. -/
structure Normalizes (index : Nat) (position : Int) (raw : BuilderNode) (node : NormalizedNode) : Prop where
  clientId : node.clientId = raw.clientRef index
  parentRef : node.parentRef = raw.parentKey
  name : ∀ id parentId, (node.row id parentId).name = strip (raw.name.getD "")
  parentId : ∀ id parentId, (node.row id parentId).parentId = parentId
  position : ∀ id parentId, (node.row id parentId).position = position
  isGroup : ∀ id parentId, (node.row id parentId).nodeType = .group ↔ raw.isGroup = true

variable {index : Nat} {position : Int} {seenRefs : List String} {raw : BuilderNode} {node : NormalizedNode}

theorem normalizeBuilderNode_ok (h : normalizeBuilderNode index position seenRefs raw = .ok node) :
    Normalizes index position raw node ∧ node.clientId ∉ seenRefs := by
  unfold normalizeBuilderNode at h
  dsimp only at h
  split at h
  · cases h
  · split at h
    · cases h
    · split at h
      · cases h
      · split at h
        · split at h
          · cases h
          · rename_i htype _ _ _ _ _ hseen
            cases h
            refine ⟨⟨rfl, rfl, fun _ _ => rfl, fun _ _ => rfl, fun _ _ => rfl, fun _ _ => ?_⟩, hseen⟩
            unfold BuilderNode.isGroup
            dsimp only
            split <;> simp_all
        · cases h

/-- The node at `index` among the nodes that follow `before`, normalised. -/
def NormalizedAll (before : List BuilderNode) : List BuilderNode → List NormalizedNode → Prop
  | [], [] => True
  | raw :: raws, node :: nodes =>
    Normalizes before.length (before.countP fun other => other.parentKey = raw.parentKey) raw node ∧
      NormalizedAll (before ++ [raw]) raws nodes
  | _, _ => False

theorem normalizeFrom_ok {raws : List BuilderNode} : ∀ {before : List BuilderNode} {counters : Option String → Nat}
    {seenRefs : List String} {nodes : List NormalizedNode},
    (∀ key, counters key = before.countP fun other => other.parentKey = key) →
    normalizeFrom before.length counters seenRefs raws = .ok nodes →
    NormalizedAll before raws nodes ∧ (nodes.map NormalizedNode.clientId).Nodup ∧
      ∀ node ∈ nodes, node.clientId ∉ seenRefs := by
  induction raws with
  | nil =>
    intro before counters seenRefs nodes _ h
    cases h
    exact ⟨trivial, List.nodup_nil, fun _ hnode => nomatch hnode⟩
  | cons raw raws ih =>
    intro before counters seenRefs nodes hcounters h
    unfold normalizeFrom at h
    dsimp only at h
    obtain ⟨node, hnode, h⟩ := bind_ok.mp h
    obtain ⟨rest, hrest, h⟩ := bind_ok.mp h
    cases h
    obtain ⟨hnormal, hseen⟩ := normalizeBuilderNode_ok hnode
    have hnext : ∀ key, Function.update counters raw.parentKey (counters raw.parentKey + 1) key =
        (before ++ [raw]).countP fun other => other.parentKey = key := by
      intro key
      rw [List.countP_append, ← hcounters key]
      by_cases hkey : key = raw.parentKey
      · simp [hkey]
      · simp [hkey, Ne.symm hkey]
    have hlength : before.length + 1 = (before ++ [raw]).length := by rw [List.length_append, List.length_singleton]
    rw [hlength] at hrest
    obtain ⟨hall, hnodup, hfresh⟩ := ih hnext hrest
    rw [hcounters] at hnormal
    refine ⟨⟨hnormal, hall⟩, ?_, ?_⟩
    · rw [List.map_cons, List.nodup_cons]
      refine ⟨fun hmem => ?_, hnodup⟩
      obtain ⟨other, hother, heq⟩ := List.mem_map.mp hmem
      exact hfresh other hother (heq ▸ List.mem_cons_self)
    · refine List.forall_mem_cons.mpr ⟨hseen, fun other hother hold => ?_⟩
      exact hfresh other hother (List.mem_cons_of_mem _ hold)

theorem NormalizedAll.length {raws : List BuilderNode} : ∀ {before : List BuilderNode} {nodes : List NormalizedNode},
    NormalizedAll before raws nodes → nodes.length = raws.length := by
  induction raws with
  | nil =>
    intro before nodes h
    cases nodes with
    | nil => rfl
    | cons => exact h.elim
  | cons raw raws ih =>
    intro before nodes h
    cases nodes with
    | nil => exact h.elim
    | cons node nodes => exact congrArg (· + 1) (ih h.2)

theorem NormalizedAll.get {raws : List BuilderNode} : ∀ {before : List BuilderNode} {nodes : List NormalizedNode},
    NormalizedAll before raws nodes → ∀ i raw node, raws[i]? = some raw → nodes[i]? = some node →
    Normalizes (before.length + i) ((before ++ raws.take i).countP fun other => other.parentKey = raw.parentKey) raw node := by
  induction raws with
  | nil => exact fun _ _ _ _ hraw => nomatch hraw
  | cons first raws ih =>
    intro before nodes h i raw node hraw hnode
    cases nodes with
    | nil => exact h.elim
    | cons head nodes =>
      cases i with
      | zero =>
        cases hraw
        cases hnode
        simpa using h.1
      | succ i =>
        have hrest := ih h.2 i raw node hraw hnode
        rw [List.length_append, List.length_singleton, List.append_assoc] at hrest
        rw [List.take_succ_cons, Nat.add_comm i 1, ← Nat.add_assoc]
        exact hrest

end Normalized

section Rows
variable (ids : IdSource) (drawn : Nat)

def idMapOf (seen : List NormalizedNode) (ref : String) : Option Uuid :=
  (seen.findIdx? fun n => n.clientId = ref).map fun k => ids.next (drawn + k)

def storedRow (nodes : List NormalizedNode) (i : Nat) (node : NormalizedNode) : Node :=
  node.row (ids.next (drawn + i)) (node.parentRef.bind (idMapOf ids drawn (nodes.take (i + 1))))

def storedRows (nodes : List NormalizedNode) : List Node := nodes.mapIdx (storedRow ids drawn nodes)

variable {ids drawn} {done rest : List NormalizedNode} {node : NormalizedNode} {nodes rows result : List Node}

theorem idMapOf_snoc (hnew : node.clientId ∉ done.map NormalizedNode.clientId) :
    Function.update (idMapOf ids drawn done) node.clientId (some (ids.next (drawn + done.length))) =
      idMapOf ids drawn (done ++ [node]) := by
  funext ref
  unfold idMapOf
  rw [List.findIdx?_append, List.findIdx?_singleton]
  by_cases href : ref = node.clientId
  · have hnone : done.findIdx? (fun n => n.clientId = ref) = none := by
      refine List.findIdx?_eq_none_iff.mpr fun n hn => decide_eq_false fun heq => hnew ?_
      rw [← href, ← heq]
      exact List.mem_map_of_mem hn
    rw [hnone, if_pos (decide_eq_true href.symm), href, Function.update_self]
    simp
  · rw [Function.update_of_ne href, if_neg (by simpa using Ne.symm href)]
    simp

theorem insertNormalized_eq : ∀ {done : List NormalizedNode} {nodes : List Node},
    ((done ++ rest).map NormalizedNode.clientId).Nodup →
    insertNormalized ids (drawn + done.length) (idMapOf ids drawn done) nodes rest =
      ((storedRows ids drawn (done ++ rest)).drop done.length).foldlM (insertNode []) nodes := by
  induction rest with
  | nil =>
    intro done nodes _
    rw [List.append_nil, List.drop_of_length_le (by rw [storedRows, List.length_mapIdx])]
    rfl
  | cons node rest ih =>
    intro done nodes hnodup
    have hnew : node.clientId ∉ done.map NormalizedNode.clientId := by
      rw [List.map_append, List.nodup_append] at hnodup
      intro hmem
      exact hnodup.2.2 _ hmem _ (by simp) rfl
    have hsplit : done ++ node :: rest = (done ++ [node]) ++ rest := by simp
    have hrow : (storedRows ids drawn (done ++ node :: rest)).drop done.length =
        node.row (ids.next (drawn + done.length)) (node.parentRef.bind (idMapOf ids drawn (done ++ [node]))) ::
          (storedRows ids drawn (done ++ node :: rest)).drop (done ++ [node]).length := by
      have hlength : done.length < (storedRows ids drawn (done ++ node :: rest)).length := by
        rw [storedRows, List.length_mapIdx, List.length_append, List.length_cons]
        omega
      have htake : (done ++ node :: rest).take (done.length + 1) = done ++ [node] := by
        rw [List.take_append]
        simp
      rw [List.drop_eq_getElem_cons hlength, List.length_append, List.length_singleton]
      congr 1
      simp only [storedRows, List.getElem_mapIdx, List.getElem_append_right (Nat.le_refl _), Nat.sub_self,
        List.getElem_cons_zero, storedRow, htake]
    rw [hrow, List.foldlM_cons]
    unfold insertNormalized
    dsimp only
    rw [idMapOf_snoc hnew]
    have hrest : ∀ nodes, insertNormalized ids (drawn + done.length + 1) (idMapOf ids drawn (done ++ [node])) nodes rest =
        ((storedRows ids drawn (done ++ node :: rest)).drop (done ++ [node]).length).foldlM (insertNode []) nodes := by
      intro nodes
      have h := @ih (done ++ [node]) nodes (by rwa [hsplit] at hnodup)
      rw [List.length_append, List.length_singleton, ← Nat.add_assoc] at h
      rw [hsplit, List.length_append, List.length_singleton]
      exact h
    exact bind_congr hrest

/-- The insert of the node violates no constraint. -/
structure Insertable (nodes : List Node) (node : Node) : Prop where
  parent : ∀ p, node.parentId = some p → p = node.id ∨ p ∈ nodes.map Node.id
  position : ∀ n ∈ nodes, n.parentId = node.parentId → n.position ≠ node.position

theorem Insertable.insertNode {node : Node} (h : Insertable nodes node) : TsEngine.insertNode [] nodes node = .ok (nodes ++ [node]) := by
  have hparent : (node.parentId.filter fun p => p ≠ node.id ∧ p ∉ ([] : List Uuid) ∧ p ∉ nodes.map Node.id) = none := by
    rw [Option.filter_eq_none_iff]
    intro p hp
    rw [decide_eq_true_eq]
    rintro ⟨hself, _, hmem⟩
    exact (h.parent p hp).elim hself hmem
  have hposition : ¬ (nodes.any fun n => n.parentId == node.parentId && n.position == node.position) = true := by
    rw [List.any_eq_true]
    rintro ⟨n, hn, hsame⟩
    rw [Bool.and_eq_true, beq_iff_eq, beq_iff_eq] at hsame
    exact h.position n hn hsame.1 hsame.2
  unfold TsEngine.insertNode
  rw [hparent]
  exact if_neg hposition

theorem foldlM_insertNode : ∀ {nodes : List Node}, rows.foldlM (TsEngine.insertNode []) nodes = .ok result → result = nodes ++ rows := by
  induction rows with
  | nil =>
    intro nodes h
    cases h
    exact (List.append_nil _).symm
  | cons row rows ih =>
    intro nodes h
    rw [List.foldlM_cons] at h
    obtain ⟨next, hnext, h⟩ := bind_ok.mp h
    rw [ih h, insertNode_ok hnext, List.append_assoc]
    rfl

theorem foldlM_of_insertable : ∀ {nodes : List Node},
    (∀ before row after, rows = before ++ row :: after → Insertable (nodes ++ before) row) →
    rows.foldlM (insertNode []) nodes = .ok (nodes ++ rows) := by
  induction rows with
  | nil =>
    intro nodes _
    rw [List.append_nil]
    rfl
  | cons row rows ih =>
    intro nodes h
    have hfirst := h [] row rows rfl
    rw [List.append_nil] at hfirst
    have hrest : rows.foldlM (TsEngine.insertNode []) (nodes ++ [row]) = .ok (nodes ++ [row] ++ rows) := by
      refine ih fun before next after heq => ?_
      have hnext := h (row :: before) next after (by rw [heq]; rfl)
      rwa [List.append_assoc]
    rw [List.foldlM_cons, hfirst.insertNode]
    rw [List.append_assoc] at hrest
    exact hrest

end Rows

section Forest

/-- The parent reference of the node at `i` is the id of the node at `j`. -/
def Refers (raws : List BuilderNode) (i j : Nat) : Prop :=
  ∃ raw parent : BuilderNode, raws[i]? = some raw ∧ raws[j]? = some parent ∧ raw.parentKey = some (parent.clientRef j)

/-- Every parent reference is the id of a group of the list. -/
def NamesGroups (raws : List BuilderNode) : Prop :=
  ∀ (i : Nat) (raw : BuilderNode) (ref : String), raws[i]? = some raw → raw.parentKey = some ref →
    ∃ (j : Nat) (parent : BuilderNode), raws[j]? = some parent ∧ parent.clientRef j = ref ∧ parent.isGroup = true

/-- The rows are the submitted nodes, place by place: below the image of the submitted parent,
with siblings in their order and at different positions. -/
structure StoresTree (raws : List BuilderNode) (rows : List Node) : Prop where
  length : rows.length = raws.length
  ids : (rows.map Node.id).Nodup
  fields : ∀ (i : Nat) (raw : BuilderNode) (row : Node), raws[i]? = some raw → rows[i]? = some row →
    row.name = strip (raw.name.getD "") ∧ (row.nodeType = .group ↔ raw.isGroup = true)
  roots : ∀ (i : Nat) (raw : BuilderNode) (row : Node), raws[i]? = some raw → rows[i]? = some row → raw.parentKey = none → row.parentId = none
  parents : ∀ (i j : Nat) (row parent : Node), Refers raws i j → rows[i]? = some row → rows[j]? = some parent →
    row.parentId = some parent.id
  siblings : ∀ (i j : Nat) (row other : Node), i < j → rows[i]? = some row → rows[j]? = some other → row.parentId = other.parentId →
    row.position < other.position

variable {ids : IdSource} {drawn : Nat} {raws : List BuilderNode} {nodes : List NormalizedNode}

/-- What is known of a list that is normalised. -/
structure Normal (raws : List BuilderNode) (nodes : List NormalizedNode) : Prop where
  all : NormalizedAll [] raws nodes
  distinct : (nodes.map NormalizedNode.clientId).Nodup

theorem normal_of_ok (h : normalizeBuilderNodes raws = .ok nodes) : Normal raws nodes := by
  have hfrom : normalizeFrom ([] : List BuilderNode).length (fun _ => 0) [] raws = .ok nodes := h
  obtain ⟨hall, hnodup, _⟩ := normalizeFrom_ok (fun _ => rfl) hfrom
  exact ⟨hall, hnodup⟩

theorem Normal.get (h : Normal raws nodes) {i : Nat} {raw : BuilderNode} {node : NormalizedNode} (hraw : raws[i]? = some raw)
    (hnode : nodes[i]? = some node) :
    Normalizes i ((raws.take i).countP fun other => other.parentKey = raw.parentKey) raw node := by
  have hget := h.all.get i raw node hraw hnode
  rwa [List.length_nil, Nat.zero_add, List.nil_append] at hget

theorem Normal.exists_node (h : Normal raws nodes) {i : Nat} {raw : BuilderNode} (hraw : raws[i]? = some raw) :
    ∃ node, nodes[i]? = some node := by
  have hlt : i < nodes.length := by
    rw [h.all.length]
    exact (List.getElem?_eq_some_iff.mp hraw).1
  exact ⟨_, List.getElem?_eq_getElem hlt⟩

theorem Normal.idMapOf (h : Normal raws nodes) {j k : Nat} {parent : BuilderNode} (hparent : raws[j]? = some parent) :
    TsEngine.idMapOf ids drawn (nodes.take k) (parent.clientRef j) = if j < k then some (ids.next (drawn + j)) else none := by
  obtain ⟨node, hnode⟩ := h.exists_node hparent
  obtain ⟨hj, hnode'⟩ := List.getElem?_eq_some_iff.mp hnode
  have hclient : node.clientId = parent.clientRef j := (h.get hparent hnode).clientId
  have hsame : ∀ (m : Nat) (hm : m < nodes.length), nodes[m].clientId = parent.clientRef j → m = j := by
    intro m hm heq
    rw [← hclient, ← hnode'] at heq
    have hmbound : m < (nodes.map NormalizedNode.clientId).length := by rwa [List.length_map]
    have hjbound : j < (nodes.map NormalizedNode.clientId).length := by rwa [List.length_map]
    have hmap : (nodes.map NormalizedNode.clientId)[m] = (nodes.map NormalizedNode.clientId)[j] := by
      rw [List.getElem_map, List.getElem_map]
      exact heq
    exact (List.Nodup.getElem_inj_iff h.distinct).mp hmap
  unfold TsEngine.idMapOf
  split
  · rename_i hlt
    have hfound : (nodes.take k).findIdx? (fun n => n.clientId = parent.clientRef j) = some j := by
      refine List.findIdx?_eq_some_iff_getElem.mpr ⟨by rw [List.length_take]; omega, ?_, fun m hm => ?_⟩
      · rw [List.getElem_take, hnode']
        exact decide_eq_true hclient
      · rw [List.getElem_take, decide_eq_true_eq]
        exact fun heq => absurd (hsame m (by omega) heq) (by omega)
    rw [hfound]
    rfl
  · rename_i hge
    have hnone : (nodes.take k).findIdx? (fun n => n.clientId = parent.clientRef j) = none := by
      refine List.findIdx?_eq_none_iff.mpr fun n hn => decide_eq_false fun heq => ?_
      obtain ⟨m, hm, rfl⟩ := List.getElem_of_mem hn
      rw [List.getElem_take] at heq
      rw [List.length_take] at hm
      exact absurd (hsame m (by omega) heq) (by omega)
    rw [hnone]
    rfl

theorem Normal.stored (h : Normal raws nodes) {i : Nat} {raw : BuilderNode} {row : Node} (hraw : raws[i]? = some raw)
    (hrow : (storedRows ids drawn nodes)[i]? = some row) :
    row.id = ids.next (drawn + i) ∧ row.parentId = raw.parentKey.bind (TsEngine.idMapOf ids drawn (nodes.take (i + 1))) ∧
      row.position = (raws.take i).countP (fun other => other.parentKey = raw.parentKey) ∧
      row.name = strip (raw.name.getD "") ∧ (row.nodeType = .group ↔ raw.isGroup = true) := by
  obtain ⟨node, hnode⟩ := h.exists_node hraw
  have hnormal := h.get hraw hnode
  unfold storedRows at hrow
  rw [List.getElem?_mapIdx, hnode, Option.map_some, Option.some.injEq] at hrow
  rw [← hrow]
  unfold storedRow
  refine ⟨node.row_id _ _, ?_, hnormal.position _ _, hnormal.name _ _, hnormal.isGroup _ _⟩
  rw [hnormal.parentId, hnormal.parentRef]

theorem Normal.length_storedRows (h : Normal raws nodes) : (storedRows ids drawn nodes).length = raws.length := by
  rw [storedRows, List.length_mapIdx, h.all.length]

theorem Normal.exists_raw_of_row (h : Normal raws nodes) {i : Nat} {row : Node}
    (hrow : (storedRows ids drawn nodes)[i]? = some row) : ∃ raw, raws[i]? = some raw := by
  have hlt : i < raws.length := by
    have hlength : (storedRows ids drawn nodes).length = raws.length := h.length_storedRows
    rw [← hlength]
    exact (List.getElem?_eq_some_iff.mp hrow).1
  exact ⟨_, List.getElem?_eq_getElem hlt⟩

theorem Normal.nodup_ids (h : Normal raws nodes) : ((storedRows ids drawn nodes).map Node.id).Nodup := by
  refine List.pairwise_map.mpr (List.pairwise_iff_getElem.mpr fun i j hi hj hlt heq => ?_)
  have hrow : (storedRows ids drawn nodes)[i]? = some _ := List.getElem?_eq_getElem hi
  have hother : (storedRows ids drawn nodes)[j]? = some _ := List.getElem?_eq_getElem hj
  obtain ⟨raw, hraw⟩ := h.exists_raw_of_row hrow
  obtain ⟨other, hotherRaw⟩ := h.exists_raw_of_row hother
  rw [(h.stored hraw hrow).1, (h.stored hotherRaw hother).1] at heq
  have := ids.fresh heq
  omega

/-- A node whose parent comes later is stored at the root. -/
theorem Normal.parent_of_refers (h : Normal raws nodes) {i j : Nat} {row : Node} (hrefers : Refers raws i j)
    (hrow : (storedRows ids drawn nodes)[i]? = some row) :
    row.parentId = if j ≤ i then some (ids.next (drawn + j)) else none := by
  obtain ⟨raw, parent, hraw, hparent, hkey⟩ := hrefers
  rw [(h.stored hraw hrow).2.1, hkey, Option.bind_some, h.idMapOf hparent]
  exact if_congr Nat.lt_succ_iff rfl rfl

/-- Every parent is listed before its children, or is its own parent. -/
def ParentsFirst (raws : List BuilderNode) : Prop := ∀ i j, Refers raws i j → j ≤ i

theorem Normal.parent_cases (h : Normal raws nodes) (hgroups : NamesGroups raws) (hfirst : ParentsFirst raws) {i : Nat}
    {raw : BuilderNode} {row : Node} (hraw : raws[i]? = some raw) (hrow : (storedRows ids drawn nodes)[i]? = some row) :
    (raw.parentKey = none ∧ row.parentId = none) ∨
      ∃ (j : Nat) (parent : BuilderNode), raws[j]? = some parent ∧ j ≤ i ∧ raw.parentKey = some (parent.clientRef j) ∧
        row.parentId = some (ids.next (drawn + j)) := by
  cases hkey : raw.parentKey with
  | none =>
    refine .inl ⟨rfl, ?_⟩
    rw [(h.stored hraw hrow).2.1, hkey]
    rfl
  | some ref =>
    obtain ⟨j, parent, hparent, rfl, _⟩ := hgroups i raw ref hraw hkey
    have hrefers : Refers raws i j := ⟨raw, parent, hraw, hparent, hkey⟩
    refine .inr ⟨j, parent, hparent, hfirst i j hrefers, rfl, ?_⟩
    rw [h.parent_of_refers hrefers hrow, if_pos (hfirst i j hrefers)]

theorem Normal.key_of_parent (h : Normal raws nodes) (hgroups : NamesGroups raws) (hfirst : ParentsFirst raws) {i j : Nat}
    {raw other : BuilderNode} {row row' : Node} (hraw : raws[i]? = some raw) (hother : raws[j]? = some other)
    (hrow : (storedRows ids drawn nodes)[i]? = some row) (hrow' : (storedRows ids drawn nodes)[j]? = some row')
    (hsame : row.parentId = row'.parentId) : raw.parentKey = other.parentKey := by
  rcases h.parent_cases hgroups hfirst hraw hrow with ⟨hkey, hid⟩ | ⟨m, parent, hparent, _, hkey, hid⟩
  · rcases h.parent_cases hgroups hfirst hother hrow' with ⟨hkey', _⟩ | ⟨m, parent, _, _, _, hid'⟩
    · rw [hkey, hkey']
    · rw [hid, hid'] at hsame
      cases hsame
  · rcases h.parent_cases hgroups hfirst hother hrow' with ⟨_, hid'⟩ | ⟨m', parent', hparent', _, hkey', hid'⟩
    · rw [hid, hid'] at hsame
      cases hsame
    · rw [hid, hid', Option.some.injEq] at hsame
      obtain rfl : m = m' := by
        have := ids.fresh hsame
        omega
      rw [hparent] at hparent'
      cases hparent'
      rw [hkey, hkey']

theorem countP_take_lt {i j : Nat} {raw : BuilderNode} {p : BuilderNode → Bool} (hlt : i < j) (hraw : raws[i]? = some raw)
    (hp : p raw = true) : (raws.take i).countP p < (raws.take j).countP p := by
  have hsnoc : raws.take (i + 1) = raws.take i ++ [raw] := by
    rw [List.take_add_one, hraw]
    rfl
  have hsub : (raws.take (i + 1)).Sublist (raws.take j) := by
    have htake : raws.take (i + 1) = (raws.take j).take (i + 1) := by
      rw [List.take_take, Nat.min_eq_left hlt]
    rw [htake]
    exact List.take_sublist _ _
  refine Nat.lt_of_lt_of_le ?_ (hsub.countP_le)
  rw [hsnoc, List.countP_append, List.countP_singleton, if_pos hp]
  exact Nat.lt_succ_self _

theorem Normal.storesTree (h : Normal raws nodes) (hgroups : NamesGroups raws) (hfirst : ParentsFirst raws) :
    StoresTree raws (storedRows ids drawn nodes) where
  length := h.length_storedRows
  ids := h.nodup_ids
  fields := fun i raw row hraw hrow => (h.stored hraw hrow).2.2.2
  roots := by
    intro i raw row hraw hrow hkey
    rw [(h.stored hraw hrow).2.1, hkey]
    rfl
  parents := by
    intro i j row parent hrefers hrow hparent
    rw [h.parent_of_refers hrefers hrow, if_pos (hfirst i j hrefers)]
    obtain ⟨_, praw, _, hpraw, _⟩ := hrefers
    rw [(h.stored hpraw hparent).1]
  siblings := by
    intro i j row other hlt hrow hother hsame
    obtain ⟨raw, hraw⟩ := h.exists_raw_of_row hrow
    obtain ⟨raw', hraw'⟩ := h.exists_raw_of_row hother
    have hkey : raw.parentKey = raw'.parentKey := h.key_of_parent hgroups hfirst hraw hraw' hrow hother hsame
    rw [(h.stored hraw hrow).2.2.1, (h.stored hraw' hother).2.2.1, ← hkey]
    exact Int.ofNat_lt.mpr (countP_take_lt hlt hraw (decide_eq_true rfl))

theorem Normal.insertable (h : Normal raws nodes) (hgroups : NamesGroups raws) (hfirst : ParentsFirst raws)
    {before after : List Node} {row : Node} (hrows : storedRows ids drawn nodes = before ++ row :: after) :
    Insertable before row := by
  have htree : StoresTree raws (storedRows ids drawn nodes) := h.storesTree hgroups hfirst
  have hat : (storedRows ids drawn nodes)[before.length]? = some row := by rw [hrows]; simp
  have hbefore : ∀ m < before.length, (storedRows ids drawn nodes)[m]? = before[m]? := by
    intro m hm
    rw [hrows, List.getElem?_append_left hm]
  constructor
  · intro p hp
    obtain ⟨raw, hraw⟩ := h.exists_raw_of_row hat
    rcases h.parent_cases hgroups hfirst hraw hat with ⟨_, hid⟩ | ⟨j, parent, hparent, hle, _, hid⟩
    · rw [hid] at hp
      cases hp
    · rw [hid, Option.some.injEq] at hp
      rcases Nat.lt_or_eq_of_le hle with hlt | heq
      · right
        have hparentRow : (storedRows ids drawn nodes)[j]? = some before[j] := by
          rw [hbefore j hlt, List.getElem?_eq_getElem hlt]
        rw [← hp, ← (h.stored hparent hparentRow).1]
        exact List.mem_map_of_mem (List.getElem_mem hlt)
      · left
        rw [(h.stored hraw hat).1, ← hp, heq]
  · intro n hn hsame hposition
    obtain ⟨m, hm, rfl⟩ := List.getElem_of_mem hn
    have hearlier : (storedRows ids drawn nodes)[m]? = some before[m] := by rw [hbefore m hm, List.getElem?_eq_getElem hm]
    have hlt := htree.siblings m before.length _ row hm hearlier hat hsame
    omega

/-- A save of normalised nodes stores the submitted tree exactly if every group is listed
before the nodes that name it. -/
theorem builder_save_iff {δ : Type} (ids : IdSource) (d : Draft δ) (raws : List BuilderNode) (nodes : List NormalizedNode)
    (hvalid : normalizeBuilderNodes raws = .ok nodes) (hgroups : NamesGroups raws) :
    (∃ d', replaceSequenceNodes ids raws d = .ok d' ∧ StoresTree raws d'.nodes) ↔ ParentsFirst raws := by
  have h := normal_of_ok hvalid
  have hinsert : insertNormalized ids d.drawn (fun _ => none) [] nodes =
      (storedRows ids d.drawn nodes).foldlM (insertNode []) [] :=
    @insertNormalized_eq ids d.drawn nodes [] [] h.distinct
  unfold replaceSequenceNodes
  rw [hvalid]
  constructor
  · rintro ⟨d', hd', htree⟩ i j hrefers
    obtain ⟨normalized, hnormalized, hd'⟩ := bind_ok.mp hd'
    obtain ⟨rows, hrows, hd'⟩ := bind_ok.mp hd'
    cases hnormalized
    cases hd'
    rw [hinsert] at hrows
    have hresult : rows = storedRows ids d.drawn nodes := foldlM_insertNode hrows
    have htree : StoresTree raws rows := htree
    rw [hresult] at htree
    obtain ⟨raw, parent, hraw, hparent, _⟩ := id hrefers
    have hrow := List.getElem?_eq_getElem (by rw [htree.length]; exact (List.getElem?_eq_some_iff.mp hraw).1)
    have hparentRow := List.getElem?_eq_getElem (by rw [htree.length]; exact (List.getElem?_eq_some_iff.mp hparent).1)
    have hstored := htree.parents i j _ _ hrefers hrow hparentRow
    by_contra hlate
    rw [h.parent_of_refers hrefers hrow, if_neg hlate] at hstored
    cases hstored
  · intro hfirst
    have hrows : (storedRows ids d.drawn nodes).foldlM (insertNode []) [] = .ok (storedRows ids d.drawn nodes) :=
      foldlM_of_insertable fun before row after hsplit => h.insertable hgroups hfirst hsplit
    rw [hrows] at hinsert
    refine ⟨{ d with nodes := storedRows ids d.drawn nodes, drawn := d.drawn + nodes.length }, ?_, h.storesTree hgroups hfirst⟩
    exact bind_ok.mpr ⟨nodes, rfl, bind_ok.mpr ⟨_, hinsert, rfl⟩⟩

end Forest

def peGroup : BuilderNode where
  clientId := some "pe"
  nodeType := some "group"
  name := some "PE deployment"

def deployStep : BuilderNode where
  clientId := some "deploy"
  parentId := some "pe"
  name := some "Run OSDCloud workflow"
  kind := some "cloudosd_deploy_os"

def newDraft : Draft Unit := createSequence countingIds

def normalizedOf (raws : List BuilderNode) : List NormalizedNode := (normalizeBuilderNodes raws).toOption.getD []

theorem namesGroups_pe : NamesGroups [peGroup, deployStep] := by
  intro i raw ref hraw hkey
  refine ⟨0, peGroup, rfl, ?_, by decide +kernel⟩
  match i, hraw with
  | 0, hraw =>
    cases hraw
    cases hkey
  | 1, hraw =>
    cases hraw
    exact Option.some.inj (Eq.trans (by decide +kernel) hkey)

theorem pe_deployment_saved :
    (∃ d', replaceSequenceNodes countingIds [peGroup, deployStep] newDraft = .ok d' ∧
      StoresTree [peGroup, deployStep] d'.nodes) ↔ ParentsFirst [peGroup, deployStep] :=
  builder_save_iff countingIds newDraft [peGroup, deployStep] (normalizedOf [peGroup, deployStep]) rfl namesGroups_pe

def outerGroup : BuilderNode where
  clientId := some "outer"
  parentId := some "inner"
  nodeType := some "group"
  name := some "Outer"

def innerGroup : BuilderNode where
  clientId := some "inner"
  parentId := some "outer"
  nodeType := some "group"
  name := some "Inner"

/-- A step before its group collides with the group at the root; two groups that name each
other are saved, the first one at the root. -/
theorem late_parent_is_lost :
    (¬ ∃ d', replaceSequenceNodes countingIds [deployStep, peGroup] newDraft = .ok d' ∧
      StoresTree [deployStep, peGroup] d'.nodes) ∧
    ∃ d', replaceSequenceNodes countingIds [outerGroup, innerGroup] newDraft = .ok d' ∧
      ¬ StoresTree [outerGroup, innerGroup] d'.nodes := by
  constructor
  · rintro ⟨d', hd', _⟩
    have hrefused : (replaceSequenceNodes countingIds [deployStep, peGroup] newDraft).toOption.isNone = true := by
      decide +kernel
    rw [hd'] at hrefused
    cases hrefused
  · refine ⟨_, rfl, fun htree => ?_⟩
    have hrefers : Refers [outerGroup, innerGroup] 0 1 := ⟨outerGroup, innerGroup, rfl, rfl, by decide +kernel⟩
    have hparent := htree.parents 0 1 _ _ hrefers rfl rfl
    revert hparent
    decide +kernel

end ProxmoxVEAutopilot.TsEngine
