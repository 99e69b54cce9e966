import ProxmoxVEAutopilot.Foundation.Table
import ProxmoxVEAutopilot.TsEngine.Authoring

/-!
# What compiling publishes

Every version of a draft that had nodes is either the current one, of the nodes as they
are, or overtaken: some node is newer than it, or none of its nodes is left. Neither
can be undone, because ids are never drawn twice.
-/

namespace ProxmoxVEAutopilot.TsEngine

open Foundation
set_option autoImplicit false

namespace IdSource
variable {ids : IdSource} {m n : Nat} {id : Uuid}

def Drawn (ids : IdSource) (n : Nat) (id : Uuid) : Prop := ∃ k < n, id = ids.next k

theorem Drawn.mono (h : ids.Drawn m id) (hmn : m ≤ n) : ids.Drawn n id := by
  obtain ⟨k, hk, rfl⟩ := h
  exact ⟨k, by omega, rfl⟩

theorem not_drawn_next (h : m ≤ n) : ¬ ids.Drawn m (ids.next n) := by
  intro ⟨k, hk, heq⟩
  have := ids.fresh heq
  omega

end IdSource

def Overtaken (tree nodes : List Node) : Prop :=
  (∃ n ∈ nodes, n.id ∉ tree.map Node.id) ∨ tree ≠ [] ∧ ∀ n ∈ nodes, n.id ∉ tree.map Node.id

theorem Overtaken.ne {tree nodes : List Node} (h : Overtaken tree nodes) :
    tree ≠ compiledTree nodes := by
  intro heq
  rcases h with ⟨n, hn, hnot⟩ | ⟨hne, hnone⟩
  · apply hnot
    rw [heq]
    exact List.mem_map_of_mem (mem_compiledTree.mpr hn)
  · obtain ⟨n, hn⟩ := List.exists_mem_of_ne_nil tree hne
    apply hnone n
    · rw [heq] at hn
      exact mem_compiledTree.mp hn
    · exact List.mem_map_of_mem hn

theorem compiledTree_eq_nil {nodes : List Node} : compiledTree nodes = [] ↔ nodes = [] := by
  rw [← List.length_eq_zero_iff, length_compiledTree, List.length_eq_zero_iff]

section Effects
variable {δ : Type} {H : SourceHash δ} {ids : IdSource} {d d' : Draft δ}

theorem insertNode_ok {foreign : List Uuid} {nodes nodes' : List Node} {node : Node}
    (h : insertNode foreign nodes node = .ok nodes') : nodes' = nodes ++ [node] := by
  unfold insertNode at h
  split at h
  · cases h
  · split at h
    · cases h
    · exact (Except.ok.inj h).symm

theorem insertNormalized_ok {normalized : List NormalizedNode} : ∀ {drawn : Nat}
    {idMap : String → Option Uuid} {nodes rows : List Node},
    insertNormalized ids drawn idMap nodes normalized = .ok rows →
    ∀ n ∈ rows, n ∈ nodes ∨ ∃ k, drawn ≤ k ∧ k < drawn + normalized.length ∧ n.id = ids.next k := by
  induction normalized with
  | nil =>
    intro drawn idMap nodes rows h n hn
    cases h
    exact .inl hn
  | cons node rest ih =>
    intro drawn idMap nodes rows h n hn
    simp only [insertNormalized] at h
    cases hins : insertNode [] nodes (node.row (ids.next drawn)
        (node.parentRef.bind (Function.update idMap node.clientId (some (ids.next drawn))))) with
    | error e => rw [hins] at h; cases h
    | ok nodes' =>
      rw [hins] at h
      have hnodes := insertNode_ok hins
      rcases ih h n hn with hold | ⟨k, hk, hlt, hid⟩
      · rw [hnodes, List.mem_append, List.mem_singleton] at hold
        rcases hold with hold | rfl
        · exact .inl hold
        · refine .inr ⟨drawn, Nat.le_refl _, ?_, node.row_id _ _⟩
          simp
      · refine .inr ⟨k, by omega, ?_, hid⟩
        simp only [List.length_cons]
        omega

theorem addNode_ok {foreign : List Uuid} {row : Uuid → Node} (hrow : ∀ id, (row id).id = id)
    (h : addNode ids foreign row d = .ok d') :
    ∃ n : Node, n.id = ids.next d.drawn ∧
      d' = { d with nodes := d.nodes ++ [n], drawn := d.drawn + 1 } := by
  unfold addNode at h
  cases hins : insertNode foreign d.nodes (row (ids.next d.drawn)) with
  | error e => rw [hins] at h; cases h
  | ok nodes =>
    rw [hins] at h
    cases h
    exact ⟨row (ids.next d.drawn), hrow _, by rw [insertNode_ok hins]⟩

theorem replaceSequenceNodes_ok {nodes : List BuilderNode}
    (h : replaceSequenceNodes ids nodes d = .ok d') :
    ∃ rows drawn, d.drawn ≤ drawn ∧
      (∀ n ∈ rows, ∃ k, d.drawn ≤ k ∧ k < drawn ∧ n.id = ids.next k) ∧
      d' = { d with nodes := rows, drawn := drawn } := by
  unfold replaceSequenceNodes at h
  cases hnorm : normalizeBuilderNodes nodes with
  | error e => rw [hnorm] at h; cases h
  | ok normalized =>
    rw [hnorm] at h
    cases hins : insertNormalized ids d.drawn (fun _ => none) [] normalized with
    | error e =>
      simp only [bind, Except.bind, hins] at h
      cases h
    | ok rows =>
      simp only [bind, Except.bind, hins] at h
      cases h
      refine ⟨rows, _, Nat.le_add_right _ _, ?_, rfl⟩
      intro n hn
      exact (insertNormalized_ok hins n hn).resolve_left (by simp)

def newVersion (H : SourceHash δ) (ids : IdSource) (d : Draft δ) : VersionRow δ where
  id := ids.next d.drawn
  sequenceId := d.sequenceId
  compiledTreeJson := compiledTree d.nodes
  version := nextVersion d.versions
  sourceHash := H.hash (compiledTree d.nodes)

def publish (H : SourceHash δ) (ids : IdSource) (d : Draft δ) : Draft δ :=
  { d with
    versions := d.versions ++ [newVersion H ids d]
    currentVersionId := some (ids.next d.drawn)
    drawn := d.drawn + 1 }

theorem compileSequence_cases [DecidableEq δ] (H : SourceHash δ) (ids : IdSource) (d : Draft δ) :
    (∃ v ∈ d.versions, v.sourceHash = H.hash (compiledTree d.nodes) ∧
      compileSequence H ids d = (d, v.id)) ∨
    (∀ v ∈ d.versions, v.sourceHash ≠ H.hash (compiledTree d.nodes)) ∧
      compileSequence H ids d = (publish H ids d, ids.next d.drawn) := by
  unfold compileSequence
  cases hfind : d.versions.find? fun v => v.sourceHash = H.hash (compiledTree d.nodes) with
  | some v =>
    left
    refine ⟨v, List.mem_of_find?_eq_some hfind, ?_, by simp only [hfind]⟩
    simpa using List.find?_some hfind
  | none =>
    right
    constructor
    · simpa using hfind
    · simp only [hfind]
      rfl

theorem author_cases [DecidableEq δ] (H : SourceHash δ) (ids : IdSource) (d : Draft δ)
    (op : AuthoringOp) :
    author H ids d op = d ∨
    (∃ n : Node, n.id = ids.next d.drawn ∧
      author H ids d op = { d with nodes := d.nodes ++ [n], drawn := d.drawn + 1 }) ∨
    (∃ rows drawn, d.drawn ≤ drawn ∧
      (∀ n ∈ rows, ∃ k, d.drawn ≤ k ∧ k < drawn ∧ n.id = ids.next k) ∧
      author H ids d op = { d with nodes := rows, drawn := drawn }) ∨
    (∀ v ∈ d.versions, v.sourceHash ≠ H.hash (compiledTree d.nodes)) ∧
      author H ids d op = publish H ids d := by
  unfold author
  cases hcall : op.call H ids d with
  | error e => exact .inl rfl
  | ok d' =>
    cases op with
    | addGroup =>
      simp only [AuthoringOp.call, addGroup] at hcall
      exact .inr (.inl (addNode_ok (fun _ => rfl) hcall))
    | addStep =>
      simp only [AuthoringOp.call, addStep] at hcall
      exact .inr (.inl (addNode_ok (fun _ => rfl) hcall))
    | replaceSequenceNodes =>
      exact .inr (.inr (.inl (replaceSequenceNodes_ok hcall)))
    | compileSequence =>
      have hd' : (compileSequence H ids d).1 = d' := Except.ok.inj hcall
      rcases compileSequence_cases H ids d with ⟨v, _, _, heq⟩ | ⟨hnone, heq⟩
      · rw [heq] at hd'
        exact .inl hd'.symm
      · rw [heq] at hd'
        exact .inr (.inr (.inr ⟨hnone, hd'.symm⟩))

end Effects

section Invariant
variable {δ : Type} {H : SourceHash δ} {ids : IdSource} {d : Draft δ}

/-- What every authoring history keeps. -/
structure Coherent (H : SourceHash δ) (ids : IdSource) (d : Draft δ) : Prop where
  nodesDrawn : ∀ n ∈ d.nodes, ids.Drawn d.drawn n.id
  treesDrawn : ∀ v ∈ d.versions, ∀ n ∈ v.compiledTreeJson, ids.Drawn d.drawn n.id
  versionsDrawn : ∀ v ∈ d.versions, ids.Drawn d.drawn v.id
  hashes : ∀ v ∈ d.versions, v.sourceHash = H.hash v.compiledTreeJson
  distinctIds : (d.versions.map fun v => v.id).Nodup
  distinctNumbers : (d.versions.map VersionRow.version).Nodup
  distinctHashes : (d.versions.map VersionRow.sourceHash).Nodup
  settled : ∀ v ∈ d.versions, v.compiledTreeJson = [] ∨
    v.compiledTreeJson = compiledTree d.nodes ∧ d.currentVersionId = some v.id ∨
    Overtaken v.compiledTreeJson d.nodes

theorem coherent_createSequence (H : SourceHash δ) (ids : IdSource) :
    Coherent H ids (createSequence ids) := by
  constructor <;> simp [createSequence]

theorem Coherent.not_mem_tree (h : Coherent H ids d) {v : VersionRow δ} (hv : v ∈ d.versions)
    {k : Nat} (hk : d.drawn ≤ k) : ids.next k ∉ v.compiledTreeJson.map Node.id := by
  intro hmem
  obtain ⟨n, hn, hid⟩ := List.mem_map.mp hmem
  have hdrawn := h.treesDrawn v hv n hn
  rw [hid] at hdrawn
  exact IdSource.not_drawn_next hk hdrawn

theorem Coherent.add (h : Coherent H ids d) {n : Node} (hid : n.id = ids.next d.drawn) :
    Coherent H ids { d with nodes := d.nodes ++ [n], drawn := d.drawn + 1 } := by
  have hle : d.drawn ≤ d.drawn + 1 := Nat.le_add_right _ _
  refine ⟨?_, fun v hv m hm => (h.treesDrawn v hv m hm).mono hle,
    fun v hv => (h.versionsDrawn v hv).mono hle, h.hashes, h.distinctIds, h.distinctNumbers,
    h.distinctHashes, ?_⟩
  · intro m hm
    rcases List.mem_append.mp hm with hm | hm
    · exact (h.nodesDrawn m hm).mono hle
    · rw [List.mem_singleton.mp hm]
      exact ⟨d.drawn, Nat.lt_succ_self _, hid⟩
  · intro v hv
    by_cases hempty : v.compiledTreeJson = []
    · exact .inl hempty
    · refine .inr (.inr (.inl ⟨n, List.mem_append_right _ List.mem_cons_self, ?_⟩))
      rw [hid]
      exact h.not_mem_tree hv (Nat.le_refl _)

theorem Coherent.replace (h : Coherent H ids d) {rows : List Node} {drawn : Nat}
    (hle : d.drawn ≤ drawn)
    (hrows : ∀ n ∈ rows, ∃ k, d.drawn ≤ k ∧ k < drawn ∧ n.id = ids.next k) :
    Coherent H ids { d with nodes := rows, drawn := drawn } := by
  refine ⟨?_, fun v hv m hm => (h.treesDrawn v hv m hm).mono hle,
    fun v hv => (h.versionsDrawn v hv).mono hle, h.hashes, h.distinctIds, h.distinctNumbers,
    h.distinctHashes, ?_⟩
  · intro n hn
    obtain ⟨k, _, hk, hid⟩ := hrows n hn
    exact ⟨k, hk, hid⟩
  · intro v hv
    by_cases hempty : v.compiledTreeJson = []
    · exact .inl hempty
    · refine .inr (.inr (.inr ⟨hempty, ?_⟩))
      intro n hn
      obtain ⟨k, hk, _, hid⟩ := hrows n hn
      rw [hid]
      exact h.not_mem_tree hv hk

theorem lt_nextVersion {versions : List (VersionRow δ)} {v : VersionRow δ} (hv : v ∈ versions) :
    v.version < nextVersion versions := by
  induction versions with
  | nil => simp at hv
  | cons w rest ih =>
    simp only [nextVersion, List.map_cons, List.foldr_cons] at ih ⊢
    rcases List.mem_cons.mp hv with rfl | hv
    · omega
    · have := ih hv
      omega

theorem Coherent.publish (h : Coherent H ids d)
    (hnone : ∀ v ∈ d.versions, v.sourceHash ≠ H.hash (compiledTree d.nodes)) :
    Coherent H ids (publish H ids d) := by
  have hle : d.drawn ≤ d.drawn + 1 := Nat.le_add_right _ _
  have hcases : ∀ v ∈ (TsEngine.publish H ids d).versions,
      v ∈ d.versions ∨ v = newVersion H ids d := by
    intro v hv
    simpa [TsEngine.publish] using hv
  refine ⟨fun n hn => (h.nodesDrawn n hn).mono hle, ?_, ?_, ?_, ?_, ?_, ?_, ?_⟩
  · intro v hv n hn
    rcases hcases v hv with hv | rfl
    · exact (h.treesDrawn v hv n hn).mono hle
    · exact (h.nodesDrawn n (mem_compiledTree.mp hn)).mono hle
  · intro v hv
    rcases hcases v hv with hv | rfl
    · exact (h.versionsDrawn v hv).mono hle
    · exact ⟨d.drawn, Nat.lt_succ_self _, rfl⟩
  · intro v hv
    rcases hcases v hv with hv | rfl
    · exact h.hashes v hv
    · rfl
  · apply nodup_map_snoc h.distinctIds
    intro v hv heq
    have hdrawn := h.versionsDrawn v hv
    rw [heq] at hdrawn
    exact IdSource.not_drawn_next (Nat.le_refl _) hdrawn
  · apply nodup_map_snoc h.distinctNumbers
    intro v hv
    exact Nat.ne_of_lt (lt_nextVersion hv)
  · exact nodup_map_snoc h.distinctHashes hnone
  · intro v hv
    rcases hcases v hv with hv | rfl
    · rcases h.settled v hv with hempty | ⟨htree, _⟩ | hover
      · exact .inl hempty
      · exact absurd (by rw [h.hashes v hv, htree]) (hnone v hv)
      · exact .inr (.inr hover)
    · exact .inr (.inl ⟨rfl, rfl⟩)

theorem Coherent.author [DecidableEq δ] (h : Coherent H ids d) (op : AuthoringOp) :
    Coherent H ids (author H ids d op) := by
  rcases author_cases H ids d op with heq | ⟨n, hid, heq⟩ | ⟨rows, drawn, hle, hrows, heq⟩ |
    ⟨hnone, heq⟩
  · rw [heq]
    exact h
  · rw [heq]
    exact h.add hid
  · rw [heq]
    exact h.replace hle hrows
  · rw [heq]
    exact h.publish hnone

theorem coherent_history [DecidableEq δ] (H : SourceHash δ) (ids : IdSource)
    (ops : List AuthoringOp) : Coherent H ids (ops.foldl (TsEngine.author H ids) (createSequence ids)) := by
  induction ops using List.reverseRecOn with
  | nil => exact coherent_createSequence H ids
  | append_singleton ops op ih =>
    rw [List.foldl_append]
    exact ih.author op

theorem Coherent.versionTree? (h : Coherent H ids d) {v : VersionRow δ} (hv : v ∈ d.versions) :
    d.versionTree? v.id = some v.compiledTreeJson := by
  unfold Draft.versionTree?
  rw [Table.find?_key h.distinctIds hv]
  rfl

theorem Coherent.eq_of_tree (h : Coherent H ids d) {v w : VersionRow δ} (hv : v ∈ d.versions)
    (hw : w ∈ d.versions) (heq : v.compiledTreeJson = w.compiledTreeJson) : v = w := by
  apply List.inj_on_of_nodup_map h.distinctHashes hv hw
  rw [h.hashes v hv, h.hashes w hw, heq]

theorem Coherent.published_publish (h : Coherent H ids d)
    (hnone : ∀ v ∈ d.versions, v.sourceHash ≠ H.hash (compiledTree d.nodes)) :
    Published (TsEngine.publish H ids d) (ids.next d.drawn) := by
  refine ⟨?_, rfl⟩
  exact (h.publish hnone).versionTree? (v := newVersion H ids d) (List.mem_append_right _ List.mem_cons_self)

/-- Compiling publishes the draft, except for an empty draft whose version was replaced. -/
theorem Coherent.compile_published_iff [DecidableEq δ] (h : Coherent H ids d) :
    Published (compileSequence H ids d).1 (compileSequence H ids d).2 ↔ ¬ EmptiedAgain d := by
  rcases compileSequence_cases H ids d with ⟨v, hv, hhash, heq⟩ | ⟨hnone, heq⟩
  · rw [heq]
    have htree : v.compiledTreeJson = compiledTree d.nodes := by
      apply H.collisionFree
      rw [← h.hashes v hv, hhash]
    have hlookup : d.versionTree? v.id = some (compiledTree d.nodes) := by
      rw [h.versionTree? hv, htree]
    constructor
    · intro hpub ⟨hnodes, w, hw, hwtree, hcurrent⟩
      have hvw : v = w := by
        apply h.eq_of_tree hv hw
        rw [htree, hwtree, hnodes]
        rfl
      rw [← hvw] at hcurrent
      exact hcurrent hpub.2
    · intro hnot
      refine ⟨hlookup, ?_⟩
      rcases h.settled v hv with hempty | ⟨_, hcurrent⟩ | hover
      · by_contra hcurrent
        apply hnot
        refine ⟨?_, v, hv, hempty, hcurrent⟩
        rw [htree] at hempty
        exact compiledTree_eq_nil.mp hempty
      · exact hcurrent
      · exact absurd htree hover.ne
  · rw [heq]
    constructor
    · intro _ ⟨hnodes, w, hw, hwtree, _⟩
      apply hnone w hw
      rw [h.hashes w hw, hwtree, hnodes]
      rfl
    · intro _
      exact h.published_publish hnone

end Invariant

section Theorems
variable {δ : Type} [DecidableEq δ]

/-- After any authoring history, `compile_sequence` publishes the draft if and only if the
draft is not an empty one whose earlier version was replaced. -/
theorem compile_publishes_iff (H : SourceHash δ) (ids : IdSource) (ops : List AuthoringOp) :
    let d := ops.foldl (author H ids) (createSequence ids)
    let (d', v) := compileSequence H ids d
    (Published d' v ↔ ¬ EmptiedAgain d) ∧ (d'.versions.map VersionRow.version).Nodup := by
  intro d
  have h : Coherent H ids d := coherent_history H ids ops
  exact ⟨h.compile_published_iff, (h.author .compileSequence).distinctNumbers⟩

end Theorems

def nodesAsHash : SourceHash (List Node) := ⟨id, Function.injective_id⟩

def emptiedAgain : List AuthoringOp :=
  [.compileSequence,
    .addStep [] { parentId := none, name := "Apply OS", kind := "apply_os_image", phase := "winpe", position := 0 },
    .compileSequence,
    .replaceSequenceNodes []]

theorem emptied_sequence_not_published :
    ¬ ∀ (δ : Type) [DecidableEq δ] (H : SourceHash δ) (ids : IdSource) (ops : List AuthoringOp),
      let (d', v) := compileSequence H ids (ops.foldl (author H ids) (createSequence ids))
      Published d' v ∧ (d'.versions.map VersionRow.version).Nodup := by
  intro h
  have hpub := (h (List Node) nodesAsHash countingIds emptiedAgain).1
  revert hpub
  unfold Published
  decide

end ProxmoxVEAutopilot.TsEngine
