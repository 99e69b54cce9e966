import ProxmoxVEAutopilot.Foundation.Interleaving
import ProxmoxVEAutopilot.Foundation.Json
import ProxmoxVEAutopilot.Foundation.Table

/-!
# Work items

READ COMMITTED: a statement reads the rows committed when it starts, and checks its `WHERE`
clause again on the newest version of a row that it has locked. What a transaction writes is
applied where it commits; until then it holds the lock of the row.
-/

namespace ProxmoxVEAutopilot.Telemetry

open Foundation
set_option autoImplicit false

abbrev ItemId := String

inductive WorkStatus where
  | pending
  | claimed
  | complete
  | failed
deriving DecidableEq, Repr

def WorkStatus.open : WorkStatus → Bool
  | .pending | .claimed => true
  | .complete | .failed => false

structure WorkItem where
  id : ItemId
  agentId : String
  kind : String
  status : WorkStatus := .pending
  vmid : Option Int := none
  jobId : Option String := none
  request : Json := .obj []
  result : Json := .obj []
  error : Option String := none
  createdAt : Int
  claimedAt : Option Int := none
  completedAt : Option Int := none
  updatedAt : Int
deriving DecidableEq

/-- What a request writes over an item: its end as one status, with a result and an error. -/
structure Report where
  id : ItemId
  agentId : String
  failed : Bool
  result : Json
  error : Option String
deriving DecidableEq

def Report.status (report : Report) : WorkStatus := if report.failed then .failed else .complete

section Rows

def WorkItem.claim (now : Int) (item : WorkItem) : WorkItem :=
  { item with status := .claimed, claimedAt := item.claimedAt.or (some now), updatedAt := now }

/-- `complete_work_item` and `fail_work_item` -/
def Report.apply (report : Report) (now : Int) (item : WorkItem) : WorkItem :=
  { item with
    status := report.status
    result := report.result
    error := report.error
    completedAt := item.completedAt.or (some now)
    updatedAt := now }

/-- The `WHERE` clause of a claim. -/
def claimable (agentId : String) (kinds : List String) (item : WorkItem) : Bool :=
  item.agentId = agentId && item.status = .pending && item.kind ∈ kinds

/-- The `WHERE` clause of a report. -/
def Report.matches (report : Report) (item : WorkItem) : Bool :=
  item.id = report.id && item.agentId = report.agentId && item.status.open

def olderFirst (a b : WorkItem) : Prop := a.createdAt < b.createdAt ∨ a.createdAt = b.createdAt ∧ a.id ≤ b.id

instance : DecidableRel olderFirst := fun _ _ => inferInstanceAs (Decidable (_ ∨ _))

def candidates (items : List WorkItem) (agentId : String) (kinds : List String) : List WorkItem :=
  (items.filter (claimable agentId kinds)).insertionSort olderFirst

end Rows

section Requests

/-- `HashBody`, and what the handler finds besides the item: the VMID of the latest telemetry or
else of the device, and the name of the file that it writes. -/
structure HashBody where
  workItemId : Option ItemId
  serialNumber : String
  productId : String
  knownVmid : Option Int
  filename : String

inductive Request where
  | nextWork (agentId : String) (supportedKinds : List String)
  | completeWork (agentId : String) (id : ItemId) (result : Json)
  | failWork (agentId : String) (id : ItemId) (error : String) (result : Json)
  | postHash (body : HashBody)

inductive Answer where
  | nothing
  | item (row : WorkItem)
  | accepted (report : Report)
  | hashOnly
  | refused (status : Nat)
  /-- The connection or the process is gone, and the transaction is rolled back. -/
  | lost

inductive Tx where
  | idle
  /-- The rows that the `SELECT` has found and not tried to lock. -/
  | scanning (agentId : String) (kinds : List String) (rest : List WorkItem)
  | granted (row : WorkItem)
  | reporting (report : Report)
  /-- The `UPDATE` has found the row and waits for its lock. -/
  | found (report : Report)
  | held (report : Report) (row : WorkItem)
  | done (answer : Answer)

/-- `str((request or {}).get("group_tag") or "")` of a text. -/
def groupTag (item : WorkItem) : String :=
  match item.request with
  | .obj fields =>
    match fields.lookup "group_tag" with
    | some (.str tag) => tag
    | _ => ""
  | _ => ""

def hashResult (body : HashBody) (item : WorkItem) (vmid : Int) : Json :=
  .obj [("filename", .str body.filename), ("vmid", .int vmid), ("serial_number", .str body.serialNumber),
    ("product_id", .str body.productId), ("group_tag", .str (groupTag item)), ("source", .str "agent-v1")]

/-- What a request comes to before its first write, for the agent of the token. -/
def begin (items : List WorkItem) (device : String) : Request → Tx
  | .nextWork agentId supportedKinds =>
    let kinds := supportedKinds.filter (· ≠ "")
    if agentId ≠ device then .done (.refused 403)
    else if kinds = [] then .done .nothing
    else .scanning agentId kinds (candidates items agentId kinds)
  | .completeWork agentId id result =>
    if agentId ≠ device then .done (.refused 403) else .reporting ⟨id, agentId, false, result, none⟩
  | .failWork agentId id error result =>
    if agentId ≠ device then .done (.refused 403) else .reporting ⟨id, agentId, true, result, some error⟩
  | .postHash body =>
    match body.workItemId with
    | none => if body.knownVmid = none then .done (.refused 409) else .done .hashOnly
    | some id =>
      match items.find? fun item => item.id = id with
      | none => .done (.refused 404)
      | some item =>
        if item.agentId ≠ device then .done (.refused 403)
        else
          match item.vmid.or body.knownVmid with
          | none => .done (.refused 409)
          | some vmid => .reporting ⟨id, device, false, hashResult body item vmid, none⟩

/-- The answer where no row was updated. -/
def Request.unmatched : Request → Nat
  | .postHash _ => 409
  | _ => 404

end Requests

section Moves

structure WorkDb (τ : Type) where
  items : List WorkItem
  locks : Locks ItemId τ := fun _ => none
  tx : τ → Tx := fun _ => .idle

inductive WorkEvent (τ : Type) where
  | go (t : τ) (now : Int)
  | lose (t : τ)
  | create (item : WorkItem)

variable {τ : Type} [DecidableEq τ] (device : τ → String) (requests : τ → Request)

def WorkDb.setTx (w : WorkDb τ) (t : τ) (tx : Tx) : WorkDb τ := { w with tx := Function.update w.tx t tx }

/-- The transaction ends: what it has written is there and what it has locked is free. -/
def WorkDb.finish (w : WorkDb τ) (t : τ) (items : List WorkItem) (answer : Answer) : WorkDb τ :=
  { w.setTx t (.done answer) with items := items, locks := w.locks.release t }

def WorkDb.newest (w : WorkDb τ) (id : ItemId) : Option WorkItem := w.items.find? fun item => item.id = id

def execWork (w : WorkDb τ) : WorkEvent τ → WorkDb τ
  | .go t now =>
    match w.tx t with
    | .idle => w.setTx t (begin w.items (device t) (requests t))
    | .scanning _ _ [] => w.finish t w.items .nothing
    | .scanning agentId kinds (row :: rest) =>
      if w.locks row.id ≠ none ∧ w.locks row.id ≠ some t then w.setTx t (.scanning agentId kinds rest)
      else
        match w.newest row.id with
        | none => w.setTx t (.scanning agentId kinds rest)
        | some row =>
          { w.setTx t (if claimable agentId kinds row then .granted row else .scanning agentId kinds rest) with
            locks := w.locks.acquire row.id t }
    | .granted row => w.finish t (Table.modify WorkItem.id w.items row.id (WorkItem.claim now)) (.item (row.claim now))
    | .reporting report =>
      if w.items.any report.matches then w.setTx t (.found report)
      else w.finish t w.items (.refused (requests t).unmatched)
    | .found report =>
      if w.locks report.id ≠ none ∧ w.locks report.id ≠ some t then w
      else
        match w.newest report.id with
        | none => w.finish t w.items (.refused (requests t).unmatched)
        | some row =>
          if report.matches row then { w.setTx t (.held report row) with locks := w.locks.acquire row.id t }
          else w.finish t w.items (.refused (requests t).unmatched)
    | .held report row => w.finish t (Table.modify WorkItem.id w.items row.id (report.apply now)) (.accepted report)
    | .done _ => w
  | .lose t =>
    match w.tx t with
    | .done _ => w
    | _ => w.finish t w.items .lost
  | .create item =>
    if (w.items.any fun other => other.id = item.id) ∨ item.status ≠ .pending then w
    else { w with items := w.items ++ [item] }

end Moves

end ProxmoxVEAutopilot.Telemetry
