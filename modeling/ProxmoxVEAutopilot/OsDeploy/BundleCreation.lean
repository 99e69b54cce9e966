import ProxmoxVEAutopilot.Foundation.Transactions
import ProxmoxVEAutopilot.OsDeploy.Create
import ProxmoxVEAutopilot.TsEngine.Authoring

/-!
# Creating a lab bundle, statement by statement

`create_lab_bundle` on one connection: each child gets a sequence, its steps, a version, an
engine run and an OSDeploy run, and most of these commit by themselves. A new id is one that
no row has.
-/

namespace ProxmoxVEAutopilot.OsDeploy.Creation

open Foundation TsEngine
open Foundation.Transaction (read write commit)

set_option autoImplicit false

structure Artifact where
  id : String
  architecture : String

structure BundleRow where
  id : Uuid
  bundleName : String
  artifactId : String
  roleOptions : Json

structure BundleChildRow where
  id : Uuid
  bundleId : Uuid
  dependencyOrder : Nat
  serverRole : String
  childRunId : Uuid

/-- The arguments that all children share. -/
structure RunArgs where
  artifactId : String
  node : Option String := none
  isoStorage : Option String := none
  storage : Option String := none
  networkBridge : Option String := none
  architecture : String := "amd64"
  osVersion : String := "Windows Server 2022"
  osEdition : String := "Datacenter"
  osLanguage : String := "en-us"
  vmCores : Int := 4
  vmMemoryMb : Int := 8192
  vmDiskSizeGb : Int := 120
  secureBoot : Bool := true
  outboundPolicy : Json := .obj []

structure OsdeployRunRow where
  runId : Uuid
  args : RunArgs
  workflowName : String
  serverRole : String
  vmName : String
  expectedComputerName : String
  roleOptions : Json
  localAdmin : Json

structure SequenceRow where
  id : Uuid
  name : String
  currentVersionId : Option Uuid := none

structure EngineRunRow where
  id : Uuid
  sequenceId : Uuid
  sequenceVersionId : Uuid
  state : RunState := .queued
  phase : Option String := none
  deploymentTarget : Json
  runVariables : Json

structure RunEventRow where
  runId : Uuid
  phase : String
  eventType : String
  message : String

/-- The tables that the call reads or writes. -/
structure Db (δ : Type) where
  artifacts : List Artifact := []
  bundles : List BundleRow := []
  bundleChildren : List BundleChildRow := []
  runs : List OsdeployRunRow := []
  readiness : List Uuid := []
  runEvents : List RunEventRow := []
  sequences : List SequenceRow := []
  nodes : List (Uuid × Node) := []
  versions : List (VersionRow δ) := []
  engineRuns : List EngineRunRow := []
  planSteps : List (Uuid × PlanStep) := []
  engineEvents : List (Uuid × EventType) := []

inductive CreationError where
  | foreignKey
  | artifactNotFound (artifactId : String)
  | architecture
  | invalidName
  | roleOptions
  | engine (e : CreateError)
  | lost

section Ids
variable {δ : Type} (db : Db δ)

def Db.ids : List Uuid :=
  db.bundles.map BundleRow.id ++ db.bundleChildren.map BundleChildRow.id ++ db.sequences.map SequenceRow.id ++
    db.nodes.map Prod.fst ++ db.nodes.map (fun n => n.2.id) ++ db.versions.map (fun v => v.id) ++
    db.versions.map (fun v => v.sequenceId) ++ db.engineRuns.map EngineRunRow.id ++
    db.planSteps.map (fun s => s.2.id)

def Db.newId : Uuid := db.ids.foldr max 0 + 1

end Ids

abbrev Work (δ α : Type) := Transaction (Db δ) CreationError α

section Engine
variable {δ : Type} [DecidableEq δ] (hash : List Node → δ)

/-- A statement that stores a row under a new id. -/
def insert (row : Uuid → Db δ → Db δ) : Work δ Uuid := write fun db => .ok (db.newId, row db.newId db)

def store (change : Db δ → Db δ) : Work δ Unit := write fun db => .ok ((), change db)

def createSequence (name : String) : Work δ Uuid := do
  let sequenceId ← insert fun id db => { db with sequences := db.sequences ++ [⟨id, name, none⟩] }
  commit
  pure sequenceId

def addNode (sequenceId : Uuid) (node : Node) : Work δ Unit := do
  let _ ← insert fun id db => { db with nodes := db.nodes ++ [(sequenceId, { node with id := id })] }
  commit

def addNodes (sequenceId : Uuid) : List Node → Work δ Unit
  | [] => pure ()
  | node :: nodes => do
    addNode sequenceId node
    addNodes sequenceId nodes

def Db.nodesOf (db : Db δ) (sequenceId : Uuid) : List Node :=
  (db.nodes.filter fun n => n.1 = sequenceId).map Prod.snd

def insertVersion (sequenceId : Uuid) (tree : List Node) : Work δ Uuid := do
  let next ← read fun db =>
    ((db.versions.filter fun v => v.sequenceId = sequenceId).map fun v => v.version).foldr max 0 + 1
  let versionId ← insert fun id db => { db with versions := db.versions ++
    [{ id := id, sequenceId := sequenceId, compiledTreeJson := tree, version := next, sourceHash := hash tree }] }
  store fun db => { db with sequences := db.sequences.map fun s =>
    if s.id = sequenceId then { s with currentVersionId := some versionId } else s }
  commit
  pure versionId

def compileSequence (sequenceId : Uuid) : Work δ Uuid := do
  let nodes ← read fun db => db.nodesOf sequenceId
  let tree := compiledTree nodes
  let existing ← read fun db =>
    db.versions.find? fun v => v.sequenceId = sequenceId && decide (v.sourceHash = hash tree)
  match existing with
  | some version => pure version.id
  | none => insertVersion hash sequenceId tree

def insertPlanSteps (runId : Uuid) (vars target : Json) : List FlatStep → Work δ Unit
  | [] => pure ()
  | f :: steps =>
    match evaluateCondition f.conditionJson vars target with
    | .error e => .raise (.engine (.condition e))
    | .ok r => do
      let _ ← insert fun id db => { db with planSteps := db.planSteps ++ [(runId,
        { id := id, plan := f, conditionResult := r,
          state := if f.enabled && r.matched then .pending else .skipped })] }
      insertPlanSteps runId vars target steps

def queueRun (version : VersionRow δ) (target vars : Json) : Work δ Uuid := do
  let runId ← insert fun id db => { db with engineRuns := db.engineRuns ++
    [{ id := id, sequenceId := version.sequenceId, sequenceVersionId := version.id,
       deploymentTarget := target, runVariables := vars }] }
  insertPlanSteps runId vars target (flattenSteps version.compiledTreeJson)
  store fun db => { db with engineEvents := db.engineEvents ++ [(runId, .runCreated)] }
  commit
  pure runId

/-- `create_run_from_version` without content resolution. -/
def createRunFromVersion (versionId : Uuid) (target vars : Json) : Work δ Uuid := do
  let version? ← read fun db => db.versions.find? fun v => v.id = versionId
  match version? with
  | none => .raise (.engine (.versionNotFound versionId))
  | some version => queueRun version target vars

end Engine

section Runs
variable {δ : Type} [DecidableEq δ] (hash : List Node → δ)

structure LabChild where
  role : String
  vmName : String
  roleOptions : Json
deriving Repr

structure LabOptions where
  bundleName : String
  domainJoinCredentialId : Option Int
  children : List LabChild
deriving Repr

def LabOptions.json (options : LabOptions) : Json :=
  .obj [("bundle_name", .str options.bundleName),
    ("domain_join_credential_id", options.domainJoinCredentialId.elim .null .int),
    ("children", .arr (options.children.map fun child => .obj [("role", .str child.role),
      ("vm_name", .str child.vmName), ("role_options", child.roleOptions)]))]

/-- `sanitize_role_options` for `lab_in_a_box`, and for the role of a child. -/
structure Sanitize where
  lab : Json → Option LabOptions
  role : String → Json → Option Json

variable (sanitize : Sanitize) (args : RunArgs)

/-- The engine's run of a sequence that has no steps yet. -/
def createEngineRun (serverRole vmName computerName : String) (roleOptions localAdmin : Json) (sequenceId : Uuid) :
    Work δ Uuid := do
  addNodes sequenceId (sequenceNodes (fun _ => 0) serverRole roleOptions)
  let versionId ← compileSequence hash sequenceId
  createRunFromVersion versionId
    (.obj [("computer_name", .str computerName), ("requested_name", .str vmName),
      ("architecture", .str args.architecture), ("osdeploy", .bool true)])
    (.obj [("deployment_path", .str "osdeploy_v2"), ("artifact_id", .str args.artifactId),
      ("server_role", .str serverRole), ("role_options", roleOptions), ("os_version", .str args.osVersion),
      ("os_edition", .str args.osEdition), ("os_language", .str args.osLanguage), ("local_admin", localAdmin)])

def recordRun (row : OsdeployRunRow) : Work δ Uuid := do
  store fun db => { db with runs := db.runs ++ [row] }
  store fun db => { db with engineRuns := db.engineRuns.map fun r =>
    if r.id = row.runId then { r with state := .external "osdeploy_created", phase := some "osdeploy" } else r }
  store fun db => { db with readiness := db.readiness ++ [row.runId] }
  commit
  store fun db => { db with runEvents := db.runEvents ++
    [⟨row.runId, "controller", "run_created", "OSDeploy run created"⟩] }
  commit
  pure row.runId

/-- What `create_run` does behind `create_sequence`. -/
def finishRun (serverRole vmName computerName : String) (roleOptions localAdmin : Json) (sequenceId : Uuid) :
    Work δ Uuid := do
  let runId ← createEngineRun hash args serverRole vmName computerName roleOptions localAdmin sequenceId
  recordRun {
    runId := runId
    args := args
    workflowName := "pveautopilot-osdeploy-" ++ toString runId
    serverRole := serverRole
    vmName := vmName
    expectedComputerName := computerName
    roleOptions := roleOptions
    localAdmin := localAdmin }

/-- The statements of `create_run` whose arguments passed every check. -/
def storeRun (serverRole vmName computerName : String) (roleOptions localAdmin : Json) : Work δ Uuid := do
  let sequenceId ← createSequence ("OSDeploy deployment for " ++ vmName)
  finishRun hash args serverRole vmName computerName roleOptions localAdmin sequenceId

/-- `_sanitize_local_admin` of no arguments, with the generated password. -/
def generatedAdmin (password : String) : Json :=
  .obj [("username", .str "localadmin"), ("password", .str password), ("generated", .bool true)]

/-- `create_run` behind the look-up of the artifact. -/
def checkRun (artifact : Artifact) (serverRole vmName : String) (roleOptions : Json) (password : String) :
    Work δ Uuid :=
  if artifact.architecture ≠ args.architecture then .raise .architecture
  else if normalizeWindowsComputerName vmName = "" then .raise .invalidName
  else
    match sanitize.role serverRole roleOptions with
    | none => .raise .roleOptions
    | some options => storeRun hash args serverRole vmName (normalizeWindowsComputerName vmName) options
        (generatedAdmin password)

def createRun (serverRole vmName : String) (roleOptions : Json) (password : String) : Work δ Uuid := do
  let artifact? ← read fun db => db.artifacts.find? fun a => a.id = args.artifactId
  match artifact? with
  | none => .raise (.artifactNotFound args.artifactId)
  | some artifact => checkRun hash sanitize args artifact serverRole vmName roleOptions password

def setField (fields : Json) (key : String) (value : Json) : Json :=
  match fields with
  | .obj entries => .obj (entries.filter (fun e => e.1 ≠ key) ++ [(key, value)])
  | _ => .obj [(key, value)]

def labDomainJoin (options : LabOptions) : Json :=
  let controller := options.children.find? fun c => c.role = "isolated_domain_controller"
  .obj [("credential_id", options.domainJoinCredentialId.elim .null .int),
    ("domain_fqdn", (controller.bind fun c => c.roleOptions.get? "forest_fqdn").getD .null)]

def childRoleOptions (options : LabOptions) (child : LabChild) : Json :=
  if child.role = "file_server" ∨ child.role = "mecm_prereq" then
    setField child.roleOptions "domain_join" (labDomainJoin options)
  else child.roleOptions

variable (passwords : Nat → String)

def createChildren (options : LabOptions) (bundleId : Uuid) : List LabChild → Nat → Work δ Unit
  | [], _ => pure ()
  | child :: rest, order => do
    let runId ← createRun hash sanitize args child.role child.vmName (childRoleOptions options child)
      (passwords order)
    let _ ← insert fun id db => { db with bundleChildren := db.bundleChildren ++
      [⟨id, bundleId, order, child.role, runId⟩] }
    commit
    createChildren options bundleId rest (order + 1)

/-- The row refers to its artifact. -/
def insertBundle (bundleName : String) (roleOptions : Json) : Work δ Uuid := write fun db =>
  if db.artifacts.any fun a => a.id = args.artifactId then
    .ok (db.newId, { db with bundles := db.bundles ++ [⟨db.newId, bundleName, args.artifactId, roleOptions⟩] })
  else .error .foreignKey

def createLabBundle (vmName : String) (roleOptions : Json) : Work δ Uuid :=
  match sanitize.lab roleOptions with
  | none => .raise .roleOptions
  | some options => do
    let bundleId ← insertBundle args ((given (some options.bundleName)).getD vmName) options.json
    createChildren hash sanitize args passwords options bundleId options.children 1
    pure bundleId

end Runs

end ProxmoxVEAutopilot.OsDeploy.Creation
