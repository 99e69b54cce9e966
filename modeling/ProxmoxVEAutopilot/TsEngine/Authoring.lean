import ProxmoxVEAutopilot.Foundation.Text
import ProxmoxVEAutopilot.TsEngine.Create

/-!
# Authoring a sequence

The draft nodes of one sequence, its compiled versions and the version it points at.
Node ids are never used twice, so two drafts that are not empty compile to the same
tree only when nothing was edited between them. The empty draft is the exception: it
comes back as the same tree, and the hash look-up then answers with the old version.
-/

namespace ProxmoxVEAutopilot.TsEngine

open Foundation
set_option autoImplicit false

deriving instance DecidableEq for Node

/-- `hexdigest` of the dumped tree, assumed to have no collisions. -/
structure SourceHash (δ : Type) where
  hash : List Node → δ
  collisionFree : Function.Injective hash

/-- A row of `ts_task_sequence_versions` with the columns `compile_sequence` reads. -/
structure VersionRow (δ : Type) extends SequenceVersion where
  version : Nat
  sourceHash : δ

/-- One sequence: its nodes, its versions, `current_version_id` and how many ids were drawn. -/
structure Draft (δ : Type) where
  sequenceId : Uuid
  nodes : List Node := []
  versions : List (VersionRow δ) := []
  currentVersionId : Option Uuid := none
  drawn : Nat

inductive AuthoringError where
  | unsupportedNodeType (nodeType : String)
  | nameRequired
  | kindRequired (name : String)
  | rebootBehavior (value : String)
  | duplicateBuilderNodeId (clientRef : String)
  | parentMissing (parent : Uuid)
  | positionTaken (parent : Option Uuid) (position : Int)
deriving DecidableEq, Repr

/-- The dict of one builder node, with absent keys as `none`. -/
structure BuilderNode where
  clientId : Option String := none
  id : Option String := none
  parentId : Option String := none
  parentRef : Option String := none
  nodeType : Option String := none
  name : Option String := none
  kind : Option String := none
  phase : Option String := none
  enabled : Bool := true
  conditionJson : Json := .obj []
  variablesJson : Json := .obj []
  paramsJson : Json := .obj []
  contentRefsJson : List String := []
  continueOnError : Bool := false
  retryCount : Option Int := none
  retryDelaySeconds : Option Int := none
  timeoutSeconds : Option Int := none
  rebootBehavior : Option String := none

/-- What `_normalize_builder_nodes` appends; `row` waits for the ids. -/
structure NormalizedNode where
  clientId : String
  parentRef : Option String
  row : Uuid → Option Uuid → Node
  row_id : ∀ id parentId, (row id parentId).id = id

def RebootBehavior.parse : String → Option RebootBehavior
  | "none" => some .none
  | "optional" => some .optional
  | "required" => some .required
  | "deferred" => some .deferred
  | _ => none

def BuilderNode.clientRef (raw : BuilderNode) (index : Nat) : String :=
  ((given raw.clientId).or (given raw.id)).getD s!"node-{index}"

def BuilderNode.parentKey (raw : BuilderNode) : Option String :=
  (given raw.parentId).or (given raw.parentRef)

/-- One turn of the loop of `_normalize_builder_nodes`; `position` is the counter of its parent. -/
def normalizeBuilderNode (index : Nat) (position : Int) (seenRefs : List String)
    (raw : BuilderNode) : Except AuthoringError NormalizedNode := do
  -- No letter outside ASCII is lowered into one of the two accepted words.
  let nodeType := String.ofList ((strip ((given raw.nodeType).getD "step")).toList.map Char.toLower)
  if nodeType ≠ "group" ∧ nodeType ≠ "step" then throw (.unsupportedNodeType nodeType)
  let name := strip (raw.name.getD "")
  if name = "" then throw .nameRequired
  let kind := strip (raw.kind.getD "")
  if nodeType = "step" ∧ kind = "" then throw (.kindRequired name)
  let phase := (given (some (strip ((given raw.phase).getD "any")))).getD "any"
  let behavior := (given (some (strip ((given raw.rebootBehavior).getD "none")))).getD "none"
  let some rebootBehavior := RebootBehavior.parse behavior | throw (.rebootBehavior behavior)
  if raw.clientRef index ∈ seenRefs then throw (.duplicateBuilderNodeId (raw.clientRef index))
  return {
    clientId := raw.clientRef index
    parentRef := raw.parentKey
    row := fun id parentId =>
      { id, parentId, position, name, phase, rebootBehavior
        nodeType := if nodeType = "group" then .group else .step kind
        enabled := raw.enabled
        conditionJson := orEmpty raw.conditionJson
        variablesJson := orEmpty raw.variablesJson
        paramsJson := orEmpty raw.paramsJson
        contentRefsJson := raw.contentRefsJson
        continueOnError := raw.continueOnError
        retryCount := raw.retryCount.getD 0
        -- `int(value or 10)`: a delay of zero becomes the default.
        retryDelaySeconds := if raw.retryDelaySeconds.getD 0 = 0 then 10 else raw.retryDelaySeconds.getD 0
        timeoutSeconds := raw.timeoutSeconds }
    row_id := fun _ _ => rfl }

def normalizeFrom (index : Nat) (counters : Option String → Nat) (seenRefs : List String) :
    List BuilderNode → Except AuthoringError (List NormalizedNode)
  | [] => .ok []
  | raw :: rest => do
    let key := raw.parentKey
    let node ← normalizeBuilderNode index (counters key) seenRefs raw
    let nodes ← normalizeFrom (index + 1) (Function.update counters key (counters key + 1))
      (node.clientId :: seenRefs) rest
    return node :: nodes

def normalizeBuilderNodes (nodes : List BuilderNode) : Except AuthoringError (List NormalizedNode) :=
  normalizeFrom 0 (fun _ => 0) [] nodes

/-- The insert into `ts_task_sequence_nodes`; `foreign` are the ids of other sequences' nodes. -/
def insertNode (foreign : List Uuid) (nodes : List Node) (node : Node) :
    Except AuthoringError (List Node) :=
  match node.parentId.filter fun p => p ≠ node.id ∧ p ∉ foreign ∧ p ∉ nodes.map Node.id with
  | some p => .error (.parentMissing p)
  | none =>
    if nodes.any fun n => n.parentId == node.parentId && n.position == node.position then
      .error (.positionTaken node.parentId node.position)
    else .ok (nodes ++ [node])

/-- The loop of `replace_sequence_nodes`. A node is in `idMap` before its own parent is looked up;
a parent that is not yet there leaves the node at the root. -/
def insertNormalized (ids : IdSource) (drawn : Nat) (idMap : String → Option Uuid)
    (nodes : List Node) : List NormalizedNode → Except AuthoringError (List Node)
  | [] => .ok nodes
  | node :: rest => do
    let nodeId := ids.next drawn
    let idMap := Function.update idMap node.clientId (some nodeId)
    let nodes ← insertNode [] nodes (node.row nodeId (node.parentRef.bind idMap))
    insertNormalized ids (drawn + 1) idMap nodes rest

section Operations
variable {δ : Type} (H : SourceHash δ) (ids : IdSource)

def createSequence : Draft δ where
  sequenceId := ids.next 0
  drawn := 1

/-- `_add_node`; `row` is the inserted row without its id. -/
def addNode (foreign : List Uuid) (row : Uuid → Node) (d : Draft δ) :
    Except AuthoringError (Draft δ) := do
  let nodes ← insertNode foreign d.nodes (row (ids.next d.drawn))
  return { d with nodes := nodes, drawn := d.drawn + 1 }

def addGroup (foreign : List Uuid) (name : String) (position : Int) (parentId : Option Uuid)
    (enabled : Bool) (condition variablesJson : Json) (d : Draft δ) :
    Except AuthoringError (Draft δ) :=
  addNode ids foreign
    (fun id =>
      { id, parentId, position, name, enabled
        nodeType := .group
        conditionJson := orEmpty condition
        variablesJson := orEmpty variablesJson }) d

structure StepArgs where
  parentId : Option Uuid
  name : String
  kind : String
  phase : String
  position : Int
  enabled : Bool := true
  conditionJson : Json := .obj []
  variablesJson : Json := .obj []
  paramsJson : Json := .obj []
  contentRefsJson : List String := []
  continueOnError : Bool := false
  retryCount : Int := 0
  retryDelaySeconds : Int := 10
  timeoutSeconds : Option Int := none
  rebootBehavior : RebootBehavior := .none

def addStep (foreign : List Uuid) (step : StepArgs) (d : Draft δ) :
    Except AuthoringError (Draft δ) :=
  addNode ids foreign
    (fun id =>
      { id
        parentId := step.parentId
        position := step.position
        nodeType := .step step.kind
        name := step.name
        phase := step.phase
        enabled := step.enabled
        conditionJson := orEmpty step.conditionJson
        variablesJson := orEmpty step.variablesJson
        paramsJson := orEmpty step.paramsJson
        contentRefsJson := step.contentRefsJson
        continueOnError := step.continueOnError
        retryCount := step.retryCount
        retryDelaySeconds := step.retryDelaySeconds
        timeoutSeconds := step.timeoutSeconds
        rebootBehavior := step.rebootBehavior }) d

def replaceSequenceNodes (nodes : List BuilderNode) (d : Draft δ) :
    Except AuthoringError (Draft δ) := do
  let normalized ← normalizeBuilderNodes nodes
  let rows ← insertNormalized ids d.drawn (fun _ => none) [] normalized
  return { d with nodes := rows, drawn := d.drawn + normalized.length }

def nextVersion (versions : List (VersionRow δ)) : Nat :=
  (versions.map VersionRow.version).foldr max 0 + 1

/-- `compile_sequence` with the id it returns. -/
def compileSequence [DecidableEq δ] (d : Draft δ) : Draft δ × Uuid :=
  let tree := compiledTree d.nodes
  match d.versions.find? fun v => v.sourceHash = H.hash tree with
  | some v => (d, v.id)
  | none =>
    let v : VersionRow δ :=
      { id := ids.next d.drawn
        sequenceId := d.sequenceId
        compiledTreeJson := tree
        version := nextVersion d.versions
        sourceHash := H.hash tree }
    ({ d with versions := d.versions ++ [v], currentVersionId := some v.id, drawn := d.drawn + 1 }, v.id)

/-- An authoring call. `foreign` are the ids of the nodes of other sequences at that moment. -/
inductive AuthoringOp where
  | addGroup (foreign : List Uuid) (name : String) (position : Int) (parentId : Option Uuid)
      (enabled : Bool) (condition variablesJson : Json)
  | addStep (foreign : List Uuid) (step : StepArgs)
  | replaceSequenceNodes (nodes : List BuilderNode)
  | compileSequence

def AuthoringOp.call [DecidableEq δ] (d : Draft δ) : AuthoringOp → Except AuthoringError (Draft δ)
  | .addGroup foreign name position parentId enabled condition variablesJson =>
    TsEngine.addGroup ids foreign name position parentId enabled condition variablesJson d
  | .addStep foreign step => TsEngine.addStep ids foreign step d
  | .replaceSequenceNodes nodes => TsEngine.replaceSequenceNodes ids nodes d
  | .compileSequence => .ok (TsEngine.compileSequence H ids d).1

/-- A call that fails is rolled back. -/
def author [DecidableEq δ] (d : Draft δ) (op : AuthoringOp) : Draft δ :=
  match op.call H ids d with
  | .ok d' => d'
  | .error _ => d

def Draft.versionTree? (d : Draft δ) (versionId : Uuid) : Option (List Node) :=
  (d.versions.find? fun v => v.id = versionId).map fun v => v.compiledTreeJson

def Published (d : Draft δ) (versionId : Uuid) : Prop :=
  d.versionTree? versionId = some (compiledTree d.nodes) ∧ d.currentVersionId = some versionId

/-- The draft is empty and was already compiled as empty, into a version that has been replaced. -/
def EmptiedAgain (d : Draft δ) : Prop :=
  d.nodes = [] ∧ ∃ v ∈ d.versions, v.compiledTreeJson = [] ∧ d.currentVersionId ≠ some v.id

end Operations

end ProxmoxVEAutopilot.TsEngine
