import ProxmoxVEAutopilot.Foundation.Json
import ProxmoxVEAutopilot.Foundation.Table
import ProxmoxVEAutopilot.Foundation.Text

/-!
# Install tracking

A run stores a summary of its items beside them. Deleting marks a row, and the readers skip
the rows that are marked. Each call is one transaction on the two tables, after the `init`
that most of them begin with; one time stands for the clock it reads.
-/

namespace ProxmoxVEAutopilot.Install

open Foundation
set_option autoImplicit false

abbrev Time := Nat

/-- `VALID_STATUSES`. -/
inductive Status where
  | pending
  | running
  | ready
  | blocked
  | failed
  | skipped
deriving DecidableEq, Repr

def Status.text : Status → String
  | pending => "pending"
  | running => "running"
  | ready => "ready"
  | blocked => "blocked"
  | failed => "failed"
  | skipped => "skipped"

def validStatuses : List Status := [.pending, .running, .ready, .blocked, .failed, .skipped]

def cleanText (limit : Nat) (value : String) : String := String.ofList ((strip value).toList.take limit)

/-- `_clean_status`; `none` is its `ValueError`. -/
def cleanStatus (value : String) : Option Status :=
  let status := lower (strip ((given (some value)).getD "pending"))
  validStatuses.find? fun s => s.text = status

/-- A row of `install_tracking_items` with the columns that are read. -/
structure Item where
  runId : String
  itemId : String
  category : String
  label : String
  status : Status
  sortOrder : Int
  createdAt : Time
  updatedAt : Time
  deletedAt : Option Time := none
  deletedBy : Option String := none
  deleteReason : Option String := none
deriving DecidableEq

def Item.key (i : Item) : String × String := (i.runId, i.itemId)

structure Summary where
  total : Nat
  complete : Nat
  blockers : Nat
  running : Nat
  percent : Nat
  counts : List (Status × Nat)
deriving DecidableEq, Repr

/-- A row of `install_tracking_runs`; without a summary `summary_json` is `{}`. -/
structure InstallRun where
  runId : String
  status : Status
  summary : Option Summary := none
  completedAt : Option Time := none
  createdAt : Time
  updatedAt : Time
  deletedAt : Option Time := none
  deletedBy : Option String := none
  deleteReason : Option String := none
deriving DecidableEq

structure Db where
  runs : List InstallRun
  items : List Item

def defaultRunId : String := "pvetest-clean-install"

structure Seed where
  itemId : String
  category : String
  label : String
  status : Status
  sortOrder : Int

def Seed.item (seed : Seed) (runId : String) (now : Time) : Item where
  runId := runId
  itemId := seed.itemId
  category := seed.category
  label := seed.label
  status := seed.status
  sortOrder := seed.sortOrder
  createdAt := now
  updatedAt := now

def defaultItems : List Seed := [
  ⟨"pve-foundation", "Proxmox host", "Run one-shot Proxmox bootstrap", .running, 10⟩,
  ⟨"controller-stack", "Controller", "Operator console containers healthy", .running, 20⟩,
  ⟨"mcp-docs-bridge", "Controller", "MCP docs bridge reachable", .ready, 30⟩,
  ⟨"media-discovery", "Media", "Live PVE media discovery verified", .ready, 40⟩,
  ⟨"proxmox-deploy-options", "Proxmox target", "Deploy target options discovered", .pending, 45⟩,
  ⟨"windows-build-box", "Build box", "Windows build-box responsibilities documented", .pending, 50⟩,
  ⟨"agent-seed-artifacts", "Agent bootstrap", "AutopilotAgent seed artifacts available", .pending, 55⟩,
  ⟨"osdcloud-catalog", "OSDCloud", "OSDCloud catalog and deploy options ready", .pending, 56⟩,
  ⟨"osdcloud-assets", "OSDCloud", "OSDCloud assets/cache available", .pending, 57⟩,
  ⟨"osdeploy-artifact", "OSDeploy", "OSDeploy artifact published to PVE", .ready, 60⟩,
  ⟨"osdeploy-source-media", "OSDeploy", "OSDeploy source media and cache ready", .pending, 65⟩,
  ⟨"winpe-baseline", "WinPE", "Existing WinPE baseline preserved", .pending, 66⟩,
  ⟨"osdeploy-e2e-run", "OSDeploy", "Clean OSDeploy run completes", .ready, 70⟩,
  ⟨"agent-readiness", "Readiness", "Agent and QGA readiness confirmed", .ready, 80⟩]

section Reading
variable (db : Db)

/-- The columns of the `ORDER BY`, in the database's order of texts up to its collation. -/
def listedBefore (a b : Item) : Bool :=
  a.sortOrder < b.sortOrder || (a.sortOrder == b.sortOrder &&
    (a.category < b.category || (a.category == b.category && a.label ≤ b.label)))

def listRunItems (runId : String) : List Item :=
  (db.items.filter fun i => i.runId = runId ∧ i.deletedAt = none).insertionSort fun a b => listedBefore a b = true

def getItem (runId itemId : String) : Option Item :=
  db.items.find? fun i => i.runId = runId ∧ i.itemId = itemId ∧ i.deletedAt = none

/-- `round(100 * complete / total)`: half goes to the even neighbour. -/
def percentOf (complete total : Nat) : Nat :=
  let whole := 100 * complete / total
  let rest := 100 * complete % total
  if 2 * rest < total ∨ 2 * rest = total ∧ whole % 2 = 0 then whole else whole + 1

def summary (runId : String) : Summary :=
  let items := listRunItems db runId
  let count := fun s => items.countP fun i => i.status = s
  let complete := count .ready + count .skipped
  { total := items.length
    complete := complete
    blockers := count .blocked + count .failed
    running := count .running
    percent := if items.length = 0 then 0 else percentOf complete items.length
    counts := validStatuses.map fun s => (s, count s) }

def statusFromSummary (item : Summary) : Status :=
  if item.blockers ≠ 0 then .blocked
  else if item.total ≠ 0 ∧ item.total ≤ item.complete then .ready
  else if item.running ≠ 0 then .running
  else .pending

end Reading

section Writing
variable (db : Db) (now : Time)

def refreshRunSummary (runId : String) (touch : Bool) : Db :=
  let data := summary db runId
  let status := statusFromSummary data
  { db with
    runs := Table.modify InstallRun.runId db.runs runId fun run =>
      { run with
        summary := some data
        status := status
        completedAt := if status = .ready then some now else none
        updatedAt := if touch then now else run.updatedAt } }

def ensureDefaultRun : Db :=
  { db with
    runs := Table.upsert InstallRun.runId db.runs
      { runId := defaultRunId, status := .running, createdAt := now, updatedAt := now } id }

/-- `ON CONFLICT (run_id, item_id) DO NOTHING`. -/
def seedDefaults (runId : String) : Db :=
  { db with
    items := defaultItems.foldl (fun items seed => Table.upsert Item.key items (seed.item runId now) id) db.items }

def init : Db := refreshRunSummary (seedDefaults (ensureDefaultRun db now) now defaultRunId) now defaultRunId false

structure ItemBody where
  category : String
  label : String
  status : String := "pending"
  sortOrder : Int := 1000

/-- The `DO UPDATE SET` of `upsert_item`: the mark of a deleted row is not among the columns. -/
def Item.overwrite (new old : Item) : Item :=
  { old with
    category := new.category
    label := new.label
    status := new.status
    sortOrder := new.sortOrder
    updatedAt := new.updatedAt }

/-- `upsert_item`; without the run the foreign key refuses the row. -/
def upsertItem (runId itemId : String) (body : ItemBody) : Db :=
  let cleanId := cleanText 120 itemId
  if cleanId = "" then db
  else
    match cleanStatus body.status with
    | none => db
    | some status =>
      if db.runs.any fun run => run.runId = runId then
        let new : Item :=
          { runId := runId
            itemId := cleanId
            category := cleanText 120 body.category
            label := cleanText 240 body.label
            status := status
            sortOrder := if body.sortOrder = 0 then 1000 else body.sortOrder
            createdAt := now
            updatedAt := now }
        refreshRunSummary
          { db with
            items := Table.upsert Item.key db.items new (Item.overwrite new) }
          now runId true
      else db

/-- `update_item`; without a live item it is a `KeyError`. -/
def updateItem (itemId runId status : String) : Db :=
  let db := init db now
  match getItem db runId itemId with
  | none => db
  | some existing =>
    upsertItem db now runId itemId
      { category := existing.category, label := existing.label, status := status, sortOrder := existing.sortOrder }

/-- The three columns that mark a row. -/
structure Mark where
  reason : String
  deletedBy : Option String

def cleanMark (reason : String) (deletedBy : Option String) : Option Mark :=
  let reasonClean := strip reason
  if reasonClean = "" then none
  else some ⟨String.ofList (reasonClean.toList.take 500), given (deletedBy.map strip)⟩

def Item.mark (m : Mark) (i : Item) : Item :=
  { i with deletedAt := some now, deletedBy := m.deletedBy, deleteReason := some m.reason, updatedAt := now }

def InstallRun.mark (m : Mark) (run : InstallRun) : InstallRun :=
  { run with deletedAt := some now, deletedBy := m.deletedBy, deleteReason := some m.reason, updatedAt := now }

def deleteRun (runId reason : String) (deletedBy : Option String) : Db :=
  let db := init db now
  match cleanMark reason deletedBy with
  | none => db
  | some m =>
    if db.runs.any fun run => run.runId = runId ∧ run.deletedAt = none then
      { runs := db.runs.map fun run => if run.runId = runId ∧ run.deletedAt = none then run.mark now m else run
        items := db.items.map fun i => if i.runId = runId ∧ i.deletedAt = none then i.mark now m else i }
    else db

def deleteItem (runId itemId reason : String) (deletedBy : Option String) : Db :=
  let db := init db now
  match cleanMark reason deletedBy with
  | none => db
  | some m =>
    { db with
      items := db.items.map fun i =>
        if i.runId = runId ∧ i.itemId = itemId ∧ i.deletedAt = none then i.mark now m else i }

def evidenceKeys : List (String × String) :=
  [("controller-stack", "controller_stack"), ("mcp-docs-bridge", "mcp_docs"), ("pve-foundation", "setup_readiness"),
    ("windows-build-box", "build_host"), ("osdeploy-artifact", "osdeploy_artifact"),
    ("osdeploy-e2e-run", "osdeploy_run"), ("agent-readiness", "agent_readiness")]

def isReady (itemEvidence : Json) : Bool :=
  let isSet := fun key => (itemEvidence.get? key).any Json.truthy
  isSet "ready" || isSet "healthy" || isSet "ok" ||
    ["ready", "healthy", "complete", "completed", "online"].any
      (fun status => itemEvidence.get? "status" == some (.str status)) ||
    isSet "tool_count" || isSet "doc_count"

/-- One round of the loop of `refresh_evidence`. -/
def applyEvidence (runId : String) (evidence : Json) (db : Db) (entry : String × String) : Db :=
  match (evidence.get? entry.2).filter Json.truthy with
  | none => db
  | some itemEvidence =>
    match getItem db runId entry.1 with
    | none => db
    | some existing =>
      if existing.status = .pending ∨ existing.status = .running then
        updateItem db now entry.1 runId (if isReady itemEvidence then "ready" else existing.status.text)
      else db

def refreshEvidence (runId : String) (evidence : Json) : Db :=
  refreshRunSummary (evidenceKeys.foldl (applyEvidence now runId evidence) (init db now)) now runId true

end Writing

/-- A call that writes; the readers of runs only run `init`. -/
inductive Call where
  | upsertItem (runId itemId : String) (body : ItemBody)
  | updateItem (itemId runId status : String)
  | deleteRun (runId reason : String) (deletedBy : Option String)
  | deleteItem (runId itemId reason : String) (deletedBy : Option String)
  | refreshEvidence (runId : String) (evidence : Json)
  | readRuns

def exec (db : Db) (c : Call × Time) : Db :=
  match c.1 with
  | .upsertItem runId itemId body => upsertItem db c.2 runId itemId body
  | .updateItem itemId runId status => updateItem db c.2 itemId runId status
  | .deleteRun runId reason deletedBy => deleteRun db c.2 runId reason deletedBy
  | .deleteItem runId itemId reason deletedBy => deleteItem db c.2 runId itemId reason deletedBy
  | .refreshEvidence runId evidence => refreshEvidence db c.2 runId evidence
  | .readRuns => init db c.2

section Runs
variable (db : Db) (now : Time)

def getRun (runId : String) : Option InstallRun :=
  (init db now).runs.find? fun run => run.runId = runId ∧ run.deletedAt = none

/-- The `ORDER BY` of `default_run`. -/
def orderKey (run : InstallRun) : ℕ ×ₗ ℕᵒᵈ ×ₗ ℕᵒᵈ :=
  toLex (if run.status = .running ∨ run.status = .pending ∨ run.status = .blocked ∨ run.status = .failed then 0 else 1,
    toLex (OrderDual.toDual run.updatedAt, OrderDual.toDual run.createdAt))

/-- The rows that `default_run` may return: of rows that tie the database takes any. -/
def defaultRuns : List InstallRun :=
  let runs := (init db now).runs
  runs.filter fun run => runs.all fun other => !decide (orderKey other < orderKey run)

end Runs

end ProxmoxVEAutopilot.Install
