import ProxmoxVEAutopilot.TsEngine.Authoring

/-!
# Content catalogue and run manifests

A reference names a content item; `resolve_run_content_manifest` pins the newest version
of every item a plan refers to. A manifest row is split into what the insert pins and
what staging updates. Calls work on an open transaction, so that a half-built run shows
in `working` until it is committed or rolled back.
-/

namespace ProxmoxVEAutopilot.TsEngine

open Foundation
set_option autoImplicit false

inductive ContentType where
  | app
  | package
  | script
  | driver
  | osImage
deriving DecidableEq, Repr

def ContentType.parse : String → Option ContentType
  | "app" => some .app
  | "package" => some .package
  | "script" => some .script
  | "driver" => some .driver
  | "os_image" => some .osImage
  | _ => none

structure ContentItem where
  id : Uuid
  name : String
  contentType : ContentType
  enabled : Bool := true

structure ContentVersion where
  id : Uuid
  contentItemId : Uuid
  version : String
  sha256 : String
  sizeBytes : Option Int := none
  sourceUri : String
  rebootBehavior : RebootBehavior := .none
  metadataJson : Json := .obj []
  createdAt : Time

inductive StagingStatus where
  | pending
  | staging
  | staged
  | failed
deriving DecidableEq, Repr

def StagingStatus.parse : String → Option StagingStatus
  | "pending" => some .pending
  | "staging" => some .staging
  | "staged" => some .staged
  | "failed" => some .failed
  | _ => none

/-- The columns of `ts_run_content_manifest` that only the insert writes. -/
structure Pin where
  id : Uuid
  runId : Uuid
  contentVersionId : Uuid
  logicalName : String
  contentType : ContentType
  requiredPhase : String
  required : Bool := true
  sourceUri : String
  sha256 : String
  sizeBytes : Option Int
  metadataJson : Json
  createdAt : Time

structure Staging where
  stagingPath : Option String
  status : StagingStatus := .pending
  stagingAttempts : Nat := 0
  stagedBy : Option String := none
  stagedAt : Option Time := none
  lastError : Option String := none

structure ManifestRow extends Staging where
  pin : Pin

structure ContentDb where
  items : List ContentItem := []
  versions : List ContentVersion := []
  runs : List RunDb := []
  manifest : List ManifestRow := []

inductive ContentError where
  | contentType (value : String)
  | rebootBehavior (value : String)
  | duplicateKey
  | itemMissing (contentItemId : Uuid)
  /-- `content reference has no version: {logical_name}` -/
  | noVersion (logicalName : String)
  | unsupportedStatus (status : String)
  | manifestItemNotFound (manifestId : Uuid)
  | stepNotFound (stepId : Uuid)
  | create (e : CreateError)

namespace ContentDb

/-- `ORDER BY cv.created_at DESC, cv.id DESC`. -/
def newestLe (a b : ContentVersion) : Prop :=
  b.createdAt < a.createdAt ∨ a.createdAt = b.createdAt ∧ b.id ≤ a.id

instance : DecidableRel newestLe := fun _ _ => inferInstanceAs (Decidable (_ ∨ _))

/-- The enabled item of that name, joined with its newest version. -/
def newestVersion (db : ContentDb) (name : String) : Option (ContentItem × ContentVersion) := do
  let item ← db.items.find? fun i => i.name = name ∧ i.enabled
  let version ← ((db.versions.filter fun v => v.contentItemId = item.id).insertionSort newestLe).head?
  return (item, version)

def stepsOf (db : ContentDb) (runId : Uuid) : List PlanStep :=
  ((db.runs.find? fun r => r.run.id = runId).map fun r => r.steps.rows).getD []

def stepIds (db : ContentDb) : List Uuid := db.runs.flatMap fun r => r.steps.rows.map PlanStep.id

def pins (db : ContentDb) (runId : Uuid) : List Pin :=
  (db.manifest.map ManifestRow.pin).filter fun p => p.runId = runId

end ContentDb

def createContentItem (id : Uuid) (name contentType : String) (db : ContentDb) :
    Except ContentError ContentDb :=
  match ContentType.parse contentType with
  | none => .error (.contentType contentType)
  | some type =>
    if db.items.any fun i => i.name == name || i.id == id then .error .duplicateKey
    else .ok { db with items := db.items ++ [{ id, name, contentType := type }] }

/-- `create_content_version`; the digest is stored in lower case. -/
def createContentVersion (id contentItemId : Uuid) (version sha256 sourceUri : String)
    (sizeBytes : Option Int) (rebootBehavior : String) (metadata : Json) (now : Time)
    (db : ContentDb) : Except ContentError ContentDb :=
  match RebootBehavior.parse rebootBehavior with
  | none => .error (.rebootBehavior rebootBehavior)
  | some behavior =>
    if db.versions.any fun v => v.id == id || v.contentItemId == contentItemId && v.version == version
    then .error .duplicateKey
    else if contentItemId ∉ db.items.map ContentItem.id then .error (.itemMissing contentItemId)
    else .ok { db with versions := db.versions ++
      [{ id, contentItemId, version, sizeBytes, sourceUri
         sha256 := String.ofList (sha256.toList.map Char.toLower)
         rebootBehavior := behavior
         metadataJson := orEmpty metadata
         createdAt := now }] }

/-- `refs.setdefault(logical_name, phase)`. -/
def setDefault (refs : List (String × String)) (ref : String × String) : List (String × String) :=
  if ref.1 ∈ refs.map Prod.fst then refs else refs ++ [ref]

/-- The references of the plan with the phase of the first step that has each. -/
def planRefs (steps : List PlanStep) : List (String × String) :=
  (steps.flatMap fun s => s.plan.contentRefsJson.map fun name => (name, s.plan.phase)).foldl setDefault []

/-- The `roots` dict: the given entries over the built-in ones. -/
def stagingRoot (stagingRoots : List (String × String)) (phase : String) : Option String :=
  (stagingRoots.lookup phase).or
    ([("winpe", "X:\\autopilot\\content"),
      ("full_os", "C:\\ProgramData\\ProxmoxVEAutopilot\\Content"),
      ("any", "C:\\ProgramData\\ProxmoxVEAutopilot\\Content")].lookup phase)

def stagingPath (stagingRoots : List (String × String)) (phase logicalName version : String) : String :=
  let root := ((stagingRoot stagingRoots phase).or (stagingRoot stagingRoots "any")).getD ""
  root ++ "\\" ++ logicalName ++ "\\" ++ version

/-- `INSERT … ON CONFLICT (run_id, logical_name) DO NOTHING`. -/
def insertManifest (row : ManifestRow) (db : ContentDb) : Except ContentError ContentDb :=
  if db.manifest.any fun m => m.pin.runId == row.pin.runId && m.pin.logicalName == row.pin.logicalName
  then .ok db
  else if db.manifest.any fun m => m.pin.id == row.pin.id then .error .duplicateKey
  else .ok { db with manifest := db.manifest ++ [row] }

/-- The inputs of one `resolve_run_content_manifest` call: `id` and `now` are what `_new_id` and
`_now` return in its `n`-th turn. -/
structure ResolveArgs where
  runId : Uuid
  stagingRoots : List (String × String) := []
  id : Nat → Uuid
  now : Nat → Time

def manifestRow (args : ResolveArgs) (n : Nat) (logicalName phase : String) (item : ContentItem)
    (version : ContentVersion) : ManifestRow where
  stagingPath := some (stagingPath args.stagingRoots phase logicalName version.version)
  pin :=
    { id := args.id n
      runId := args.runId
      contentVersionId := version.id
      logicalName := logicalName
      contentType := item.contentType
      requiredPhase := phase
      sourceUri := version.sourceUri
      sha256 := version.sha256
      sizeBytes := version.sizeBytes
      metadataJson := orEmpty version.metadataJson
      createdAt := args.now n }

def pinReference (args : ResolveArgs) (n : Nat) (ref : String × String) (db : ContentDb) :
    Except ContentError ContentDb :=
  match db.newestVersion ref.1 with
  | none => .error (.noVersion ref.1)
  | some (item, version) => insertManifest (manifestRow args n ref.1 ref.2 item version) db

/-- The loop over `refs`. A failing turn leaves the inserts of the turns before it. -/
def pinReferences (args : ResolveArgs) :
    List (String × String) → Nat → ContentDb → ContentDb × Except ContentError Unit
  | [], _, db => (db, .ok ())
  | ref :: rest, n, db =>
    match pinReference args n ref db with
    | .error e => (db, .error e)
    | .ok db' => pinReferences args rest (n + 1) db'

structure Session where
  committed : ContentDb
  working : ContentDb

namespace Session

def opened (db : ContentDb) : Session := ⟨db, db⟩

def commit (s : Session) : Session := { s with committed := s.working }

def rollback (s : Session) : Session := { s with working := s.committed }

end Session

def resolveRunContentManifest (args : ResolveArgs) (s : Session) : Session × Except ContentError Unit :=
  match pinReferences args (planRefs (s.working.stepsOf args.runId)) 0 s.working with
  | (db, .ok ()) => (Session.commit { s with working := db }, .ok ())
  | (db, .error e) => ({ s with working := db }, .error e)

/-- The inserts of a run, its plan and its first event. -/
def insertRun (run : RunDb) (db : ContentDb) : Except ContentError ContentDb :=
  if run.run.id ∈ db.runs.map (fun r => r.run.id) ∨
      (run.steps.rows.any fun r => r.id ∈ db.stepIds) then .error .duplicateKey
  else .ok { db with runs := db.runs ++ [run] }

structure CreateArgs where
  ids : IdSource
  sequenceVersionId : Uuid
  version? : Option SequenceVersion
  deploymentTarget : Json := .obj []
  runVariables : Json := .obj []
  createdBy : Option String := none
  now : Time
  manifestId : Nat → Uuid
  manifestNow : Nat → Time

def CreateArgs.resolve (args : CreateArgs) (run : RunDb) : ResolveArgs where
  runId := run.run.id
  id := args.manifestId
  now := args.manifestNow

/-- `create_run_from_version`. Only a failure of the resolution is rolled back here; what an
earlier failure leaves in the transaction goes when the connection is closed. -/
def createRun (resolveContent : Bool) (args : CreateArgs) (s : Session) :
    Session × Except ContentError Uuid :=
  match createRunFromVersion args.ids args.sequenceVersionId args.version? args.deploymentTarget
      args.runVariables args.createdBy args.now with
  | .error e => (s, .error (.create e))
  | .ok run =>
    match insertRun run s.working with
    | .error e => (s, .error e)
    | .ok db =>
      if resolveContent then
        match resolveRunContentManifest (args.resolve run) { s with working := db } with
        | (s', .ok ()) => (s', .ok run.run.id)
        | (s', .error e) => (s'.rollback, .error e)
      else (Session.commit { s with working := db }, .ok run.run.id)

/-- The dict `content_for_step` returns for a row. -/
structure ContentForStep where
  id : Uuid
  logicalName : String
  contentType : ContentType
  version : String
  sha256 : String
  sourceUri : String
  requiredPhase : String
  stagingPath : Option String
  status : StagingStatus
  metadata : Option Json

def ManifestRow.forStep (m : ManifestRow) (v : ContentVersion) : ContentForStep where
  id := m.pin.id
  logicalName := m.pin.logicalName
  contentType := m.pin.contentType
  version := v.version
  sha256 := m.pin.sha256
  sourceUri := m.pin.sourceUri
  requiredPhase := m.pin.requiredPhase
  stagingPath := m.stagingPath
  status := m.status
  metadata := if m.pin.metadataJson.truthy then some m.pin.metadataJson else none

/-- `get_step` with the run it belongs to. -/
def getStep (db : ContentDb) (stepId : Uuid) : Option (Uuid × PlanStep) :=
  (db.runs.flatMap fun r => r.steps.rows.map fun s => (r.run.id, s)).find? fun p => p.2.id = stepId

def contentForStep (db : ContentDb) (stepId : Uuid) : Except ContentError (List ContentForStep) :=
  match getStep db stepId with
  | none => .error (.stepNotFound stepId)
  | some (runId, step) =>
    let refs := step.plan.contentRefsJson
    if refs = [] then .ok []
    else .ok (((db.manifest.filter fun m => m.pin.runId = runId ∧ m.pin.logicalName ∈ refs).filterMap
      fun m => (db.versions.find? fun v => v.id = m.pin.contentVersionId).map m.forStep).insertionSort
        fun a b => a.logicalName ≤ b.logicalName)

def markManifestItemStaging (manifestId runId : Uuid) (status : String) (agentId : String)
    (stagingPath error : Option String) (now : Time) (db : ContentDb) :
    Except ContentError ContentDb :=
  match StagingStatus.parse status with
  | none => .error (.unsupportedStatus status)
  | some status =>
    if db.manifest.any fun m => m.pin.id == manifestId && m.pin.runId == runId then
      .ok { db with manifest := db.manifest.map fun m =>
        if m.pin.id = manifestId ∧ m.pin.runId = runId then
          { m with
            status := status
            stagingPath := stagingPath.or m.stagingPath
            stagingAttempts := m.stagingAttempts + if status = .staging then 1 else 0
            stagedBy := some agentId
            stagedAt := if status = .staged then some now else m.stagedAt
            lastError := if status = .failed then error else none }
        else m }
    else .error (.manifestItemNotFound manifestId)

inductive ContentOp where
  | createContentItem (id : Uuid) (name contentType : String)
  | createContentVersion (id contentItemId : Uuid) (version sha256 sourceUri : String)
      (sizeBytes : Option Int) (rebootBehavior : String) (metadata : Json) (now : Time)
  | resolveRunContentManifest (args : ResolveArgs)
  | markManifestItemStaging (manifestId runId : Uuid) (status : String) (agentId : String)
      (stagingPath error : Option String) (now : Time)

def orRollback (db : ContentDb) : Except ContentError ContentDb → ContentDb
  | .ok db' => db'
  | .error _ => db

/-- What is committed after a call on a new connection. -/
def ContentDb.exec (db : ContentDb) : ContentOp → ContentDb
  | .createContentItem id name contentType =>
    orRollback db (TsEngine.createContentItem id name contentType db)
  | .createContentVersion id contentItemId version sha256 sourceUri sizeBytes rebootBehavior metadata now =>
    orRollback db (TsEngine.createContentVersion id contentItemId version sha256 sourceUri sizeBytes
      rebootBehavior metadata now db)
  | .resolveRunContentManifest args =>
    (TsEngine.resolveRunContentManifest args (Session.opened db)).1.committed
  | .markManifestItemStaging manifestId runId status agentId stagingPath error now =>
    orRollback db (TsEngine.markManifestItemStaging manifestId runId status agentId stagingPath error
      now db)

/-- The unique and foreign keys of the schema. -/
structure ContentDb.WellFormed (db : ContentDb) : Prop where
  versionIds : (db.versions.map ContentVersion.id).Nodup
  runIds : (db.runs.map fun r => r.run.id).Nodup
  stepIds : db.stepIds.Nodup
  manifestKeys : (db.manifest.map fun m => (m.pin.runId, m.pin.logicalName)).Nodup
  manifestRuns : ∀ m ∈ db.manifest, m.pin.runId ∈ db.runs.map fun r => r.run.id
  manifestVersions : ∀ m ∈ db.manifest, m.pin.contentVersionId ∈ db.versions.map ContentVersion.id

end ProxmoxVEAutopilot.TsEngine
