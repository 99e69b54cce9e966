import ProxmoxVEAutopilot.Foundation.Json
import ProxmoxVEAutopilot.Foundation.Table
import ProxmoxVEAutopilot.Foundation.Text

/-!
# The cache of server images

The rows of `osdeploy_cache_entries` and the calls on them; each call is one transaction. The
registry of artifacts, the files and the work items are what the reconciler looks at besides.
-/

namespace ProxmoxVEAutopilot.OsDeploy.Cache

open Foundation
set_option autoImplicit false

/-- A row of `osdeploy_cache_entries`. -/
structure Entry where
  id : String
  entryType : String
  status : String
  windowsVersion : String
  architecture : String
  edition : Option String
  language : Option String
  kb : Option String
  title : Option String
  fileName : String
  sourceUrl : Option String
  expectedSizeBytes : Option Int
  expectedSha256 : Option String
  sha256 : Option String
  sizeBytes : Option Int
  localPath : Option String
  lastJobId : Option String
  verifiedAt : Option Nat
  lastServedAt : Option Nat
  servedCount : Int
  error : Option String
  metadata : List (String × Json)
  createdAt : Nat
  updatedAt : Nat
deriving DecidableEq

/-- What `upsert_entry` is given. -/
structure Values where
  id : String
  entryType : String
  status : Option String := none
  windowsVersion : String
  architecture : Option String := none
  edition : Option String := none
  language : Option String := none
  kb : Option String := none
  title : Option String := none
  fileName : String
  sourceUrl : Option String := none
  expectedSizeBytes : Option Int := none
  expectedSha256 : Option String := none
  sha256 : Option String := none
  sizeBytes : Option Int := none
  localPath : Option String := none
  lastJobId : Option String := none
  verifiedAt : Option Nat := none
  lastServedAt : Option Nat := none
  servedCount : Option Int := none
  error : Option String := none
  metadata : List (String × Json) := []

section Repository
variable (rows : List Entry) (now : Nat)

def Values.row (values : Values) : Entry where
  id := values.id
  entryType := values.entryType
  status := (given values.status).getD "discovered"
  windowsVersion := values.windowsVersion
  architecture := (given values.architecture).getD "amd64"
  edition := values.edition
  language := values.language
  kb := values.kb
  title := values.title
  fileName := values.fileName
  sourceUrl := values.sourceUrl
  expectedSizeBytes := values.expectedSizeBytes
  expectedSha256 := values.expectedSha256
  sha256 := values.sha256
  sizeBytes := values.sizeBytes
  localPath := values.localPath
  lastJobId := values.lastJobId
  verifiedAt := values.verifiedAt
  lastServedAt := values.lastServedAt
  servedCount := values.servedCount.getD 0
  error := values.error
  metadata := values.metadata
  createdAt := now
  updatedAt := now

def upsertEntry (values : Values) : List Entry :=
  Table.upsert Entry.id rows (values.row now) fun old =>
    { values.row now with id := old.id, createdAt := old.createdAt }

def serverImageSeeds : List (String × String × String) :=
  [("Windows Server 2025", "Datacenter", "en-us"), ("Windows Server 2025", "Standard", "en-us"),
    ("Windows Server 2022", "Datacenter", "en-us"), ("Windows Server 2022", "Standard", "en-us")]

/-- The key whose uuid5 is the id, in place of that uuid. -/
def stableId (parts : List String) : String :=
  "proxmoxveautopilot:osdeploy-cache:" ++ "|".intercalate parts

def slugChars : List Char → List Char
  | [] => []
  | c :: cs =>
    if c.isDigit ∨ c.isLower then c :: slugChars cs
    else match slugChars cs with
      | '-' :: rest => '-' :: rest
      | rest => '-' :: rest

/-- `re.sub(r"[^a-z0-9]+", "-", value.lower()).strip("-")` -/
def slug (value : String) : String :=
  let dashed := slugChars (lower value).toList
  String.ofList (((dashed.dropWhile (· = '-')).reverse.dropWhile (· = '-')).reverse)

def seedValues : String × String × String → Values
  | (windowsVersion, edition, language) =>
    { id := stableId ["server_image", windowsVersion, "amd64", edition, language]
      entryType := "server_image"
      status := some "discovered"
      windowsVersion := windowsVersion
      architecture := some "amd64"
      edition := some edition
      language := some language
      title := some (windowsVersion ++ " " ++ edition ++ " installation media")
      fileName := slug windowsVersion ++ "-" ++ slug edition ++ "-" ++ language ++ ".iso"
      sourceUrl := some "manual://microsoft-volume-licensing-or-eval-center"
      metadata :=
        [("factory", .str "OSDeploy/OSDBuilder"), ("content_role", .str "source_media"),
          ("requires_admin_dism_host", .bool true)] }

/-- The i-th seed is written at the i-th reading of the clock. -/
def refreshCatalog (clock : Nat → Nat) : List Entry :=
  (serverImageSeeds.zipIdx.foldl (fun rows x => upsertEntry rows (clock x.2) (seedValues x.1)) rows).filter
    fun entry => entry.entryType ≠ "quality_update"

def markStatus (entryId status : String) (error localPath : Option String) (sizeBytes : Option Int)
    (sha256Value : Option String) : List Entry :=
  Table.modify Entry.id rows entryId fun entry =>
    { entry with
      status := status
      error := error
      localPath := localPath.or entry.localPath
      sizeBytes := sizeBytes.or entry.sizeBytes
      sha256 := sha256Value.or entry.sha256
      verifiedAt := if status = "ready" then some now else entry.verifiedAt
      updatedAt := now }

def setField (fields : List (String × Json)) (key : String) (value : Json) : List (String × Json) :=
  (key, value) :: fields.filter fun field => field.1 ≠ key

def markBuildDispatched (entryId workItemId : String) (jobId : Option String) : List Entry :=
  Table.modify Entry.id rows entryId fun entry =>
    { entry with
      status := "warming"
      error := none
      lastJobId := jobId.or entry.lastJobId
      metadata := setField entry.metadata "build_work_item_id" (.str workItemId)
      updatedAt := now }

def finalizeFromBuild (entryId localPath : String) (sizeBytes : Int) (sha256Value : String)
    (fileName : Option String) : List Entry :=
  Table.modify Entry.id rows entryId fun entry =>
    { entry with
      status := "ready"
      error := none
      localPath := some localPath
      sizeBytes := some sizeBytes
      sha256 := some sha256Value
      fileName := fileName.getD entry.fileName
      verifiedAt := some now
      updatedAt := now }

def getEntry (entryId : String) : Option Entry := rows.find? fun entry => entry.id = entryId

/-- `ORDER BY updated_at DESC, created_at DESC` -/
def newerFirst (a b : Entry) : Prop := b.updatedAt < a.updatedAt ∨ (b.updatedAt = a.updatedAt ∧ b.createdAt ≤ a.createdAt)

instance : DecidableRel newerFirst := fun _ _ => inferInstanceAs (Decidable (_ ∨ _))

def listEntries (limit : Nat) : List Entry := (rows.insertionSort newerFirst).take limit

/-- The work item of the build, empty where there is none; it is only ever written as text. -/
def Entry.buildWorkItemId (entry : Entry) : String :=
  match entry.metadata.lookup "build_work_item_id" with
  | some (.str workItemId) => workItemId
  | _ => ""

def Entry.warmsBuild (entry : Entry) : Prop := entry.status = "warming" ∧ entry.buildWorkItemId ≠ ""

instance : DecidablePred Entry.warmsBuild := fun _ => inferInstanceAs (Decidable (_ ∧ _))

def warmingBuildEntries : List Entry := (listEntries rows 500).filter fun entry => entry.warmsBuild

end Repository

section Reconciler

/-- A row of the registry of artifacts; `path` is the text of a `Path`. -/
structure Artifact where
  kind : String
  path : String
  sizeBytes : Nat
  sha256 : String
  workItemId : String
  createdAt : Nat
deriving DecidableEq

structure WorkItem where
  status : String
  error : Option String
deriving DecidableEq

/-- `files` gives the size of the file at a path. -/
structure World where
  entries : List Entry
  artifacts : List Artifact
  files : String → Option Nat
  workItems : String → Option WorkItem

variable (w : World)

def World.listArtifacts (kind : String) : List Artifact :=
  (w.artifacts.filter fun artifact => artifact.kind = kind).insertionSort fun a b => b.createdAt ≤ a.createdAt

/-- The newest ISO that was uploaded for the work item, where its file is there, and the
file's size. -/
def World.builtIso (workItemId : String) : Option (Artifact × Nat) :=
  ((w.listArtifacts "osdeploy-iso").find? fun artifact => artifact.workItemId = workItemId).bind
    fun artifact => (w.files artifact.path).map fun size => (artifact, size)

/-- `Path(path).name` -/
def pathName (path : String) : String :=
  ((path.splitOn "/").filter fun part => part ≠ "" ∧ part ≠ ".").getLastD ""

def World.failure (workItemId : String) : Option String :=
  (w.workItems workItemId).bind fun item =>
    if item.status = "failed" then some ((given item.error).getD "build_osdeploy work item failed") else none

/-- One turn of the loop; `now` is the reading of the clock in it. -/
def World.reconcile (now : Nat) (acc : List Entry × List String) (entry : Entry) : List Entry × List String :=
  match w.builtIso entry.buildWorkItemId with
  | some (artifact, size) =>
    (finalizeFromBuild acc.1 now entry.id artifact.path (if artifact.sizeBytes = 0 then size else artifact.sizeBytes)
      artifact.sha256 (some (pathName artifact.path)), acc.2 ++ [entry.id])
  | none =>
    match w.failure entry.buildWorkItemId with
    | some error => (markStatus acc.1 now entry.id "failed" (some error) none none none, acc.2)
    | none => acc

/-- `_finalize_warming_cache_builds`: the rows it leaves and the ids it has finalised. -/
def World.finalizeWarmingCacheBuilds (clock : Nat → Nat) : List Entry × List String :=
  (warmingBuildEntries w.entries).zipIdx.foldl (fun acc x => w.reconcile (clock x.2) acc x.1) (w.entries, [])

/-- The calls on the cache, and what build hosts do besides: they upload files and their work
items move. -/
inductive Move where
  | refreshCatalog
  | markBuildDispatched (entryId workItemId : String) (jobId : Option String)
  | finalizeFromBuild (entryId localPath : String) (sizeBytes : Int) (sha256Value : String) (fileName : Option String)
  | markStatus (entryId status : String) (error localPath : Option String) (sizeBytes : Option Int)
      (sha256Value : Option String)
  | finalizeWarmingCacheBuilds
  | upload (artifact : Artifact) (size : Nat)
  | workItem (workItemId : String) (item : WorkItem)

/-- A move and the clock while it runs. -/
structure Timed where
  move : Move
  clock : Nat → Nat

def World.exec (w : World) (x : Timed) : World :=
  match x.move with
  | .refreshCatalog => { w with entries := refreshCatalog w.entries x.clock }
  | .markBuildDispatched entryId workItemId jobId =>
    { w with entries := markBuildDispatched w.entries (x.clock 0) entryId workItemId jobId }
  | .finalizeFromBuild entryId localPath sizeBytes sha256Value fileName =>
    { w with entries := finalizeFromBuild w.entries (x.clock 0) entryId localPath sizeBytes sha256Value fileName }
  | .markStatus entryId status error localPath sizeBytes sha256Value =>
    { w with entries := markStatus w.entries (x.clock 0) entryId status error localPath sizeBytes sha256Value }
  | .finalizeWarmingCacheBuilds => { w with entries := (w.finalizeWarmingCacheBuilds x.clock).1 }
  | .upload artifact size =>
    { w with artifacts := w.artifacts ++ [artifact], files := Function.update w.files artifact.path (some size) }
  | .workItem workItemId item => { w with workItems := Function.update w.workItems workItemId (some item) }

end Reconciler

end ProxmoxVEAutopilot.OsDeploy.Cache
