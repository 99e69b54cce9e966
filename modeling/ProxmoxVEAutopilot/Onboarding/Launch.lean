import ProxmoxVEAutopilot.Onboarding.State
import ProxmoxVEAutopilot.Install.Tracking

/-!
# Launches of an onboarding row

A launch reads the row without a lock, writes its install-tracking rows in a transaction that
stays open, posts the provision request and then sets the row to launched and commits. Puts,
deletes and other launches of the owner go on between any two of these.
-/

namespace ProxmoxVEAutopilot.Onboarding.Launch

open Foundation (Json Replays)

set_option autoImplicit false

section Plan

/-- `answers.get(key) or {}`, none where `.get` of it raises. -/
def part (answers : List (String × Json)) (key : String) : Option (List (String × Json)) :=
  match answers.lookup key with
  | none => some []
  | some value =>
    if value.truthy then
      match value with
      | .obj fields => some fields
      | _ => none
    else some []

structure PhaseItem where
  itemId : String
  label : String
  sortOrder : Int

def phasesFor (answers : List (String × Json)) : Option (List PhaseItem) := do
  let identity ← part answers "identity"
  let artifact ← part answers "artifact"
  let build := if artifact.lookup "source" = some (.str "build") then
    [⟨"build-artifact", "Build artifact", 20⟩] else []
  let inject := if identity.lookup "mode" = some (.str "workgroup") then []
    else [⟨"inject-autopilot", "Inject Autopilot config", 40⟩]
  pure ([⟨"validate", "Validate inputs", 10⟩] ++ build ++ [⟨"clone-template", "Clone template", 30⟩] ++ inject ++
    [⟨"provision", "Start VM and run task sequence", 50⟩, ⟨"watch-oobe", "Watch OOBE", 60⟩])

def shortSub (ownerSub : String) : String :=
  String.ofList (ownerSub.toList.map fun c => if c = '@' ∨ c = '.' then '-' else c)

def runIdOf (ownerSub : String) (seconds : Nat) : String :=
  "onboarding-" ++ shortSub ownerSub ++ "-" ++ toString seconds

/-- What a launch has read and is about to write. -/
structure Plan where
  runId : String
  kind : Json
  answers : List (String × Json)
  items : List PhaseItem
  started : Int
  seconds : Nat

def plan (ownerSub : String) (row : Row) (started : Int) (seconds : Nat) : Option Plan := do
  let artifact ← part row.answers "artifact"
  let _ ← part row.answers "trial"
  let items ← phasesFor row.answers
  let kind := (artifact.lookup "kind").getD .null
  pure {
    runId := runIdOf ownerSub seconds
    kind := if kind.truthy then kind else .str "cloudosd"
    answers := row.answers
    items := items
    started := started
    seconds := seconds }

/-- `upsert_run` with status running and no summary. -/
def upsertRun (db : Install.Db) (now : Install.Time) (runId : String) : Install.Db :=
  let new : Install.InstallRun :=
    { runId := Install.cleanText 120 runId, status := .running, createdAt := now, updatedAt := now }
  { db with
    runs := Foundation.Table.upsert Install.InstallRun.runId db.runs new fun old =>
      { old with status := new.status, summary := none, completedAt := none, updatedAt := now } }

/-- The rows of one launch. A run id that `upsert_run` cuts is not the one the items refer to, and
the foreign key refuses them. -/
def trackRows (db : Install.Db) (p : Plan) : Option Install.Db :=
  if Install.cleanText 120 p.runId = p.runId then
    some (p.items.foldl
      (fun db item => Install.upsertItem db p.seconds p.runId item.itemId
        { category := "Onboarding", label := item.label, sortOrder := item.sortOrder })
      (upsertRun db p.seconds p.runId))
  else none

end Plan

section System

/-- A provision request that succeeded; `era` counts how often the row was set to in_progress. -/
structure Kick where
  era : Nat
  runId : String
  kind : Json
  answers : List (String × Json)

/-- Where a launch stands. `refused`: it raised before the request. `rowMissing`: the row was gone
when it was to be set to launched. -/
inductive Phase where
  | waiting
  | read (row : Row) (started : Int)
  | tracked (p : Plan)
  | kicked (p : Plan)
  | launched (p : Plan)
  | rowMissing (p : Plan)
  | kickFailed
  | refused

structure World (τ : Type) where
  row : Option Row := none
  tracking : Install.Db := ⟨[], []⟩
  era : Nat := 0
  kicks : List Kick := []
  phase : τ → Phase := fun _ => .waiting

inductive Event (τ : Type) where
  | put (patch : Patch) (ifMatch : Option Int) (now : Int)
  | delete
  | read (t : τ) (started : Int)
  | track (t : τ) (seconds : Nat)
  | kick (t : τ) (succeeds : Bool)
  | finish (t : τ)

def Event.launch {τ : Type} : Event τ → Option τ
  | .put _ _ _ | .delete => none
  | .read t _ | .track t _ | .kick t _ | .finish t => some t

namespace World
variable {τ : Type}

/-- `put_state`, which holds the row's lock from its `SELECT` to its commit. -/
def put (w : World τ) (patch : Patch) (ifMatch : Option Int) (now : Int) : World τ :=
  if patch.valid then
    match w.row with
    | none =>
      if ifMatch.isSome then w
      else
        let new := patch.insert now
        { w with row := some new, era := if new.status = "in_progress" then w.era + 1 else w.era }
    | some row =>
      if ifMatch.isSome ∧ ifMatch ≠ some row.updatedAt then w
      else
        { w with
          row := some (patch.update now row)
          era := if patch.status = some "in_progress" then w.era + 1 else w.era }
  else w

variable [DecidableEq τ] (ownerSub : String)

def goTo (w : World τ) (t : τ) (p : Phase) : World τ := { w with phase := Function.update w.phase t p }

/-- The status gate. -/
def read (w : World τ) (t : τ) (started : Int) : World τ :=
  match w.row with
  | none => w.goTo t .refused
  | some row => if row.status = "in_progress" then w.goTo t (.read row started) else w.goTo t .refused

/-- The rows are written, and seen by nobody else before the commit. -/
def track (w : World τ) (t : τ) (row : Row) (started : Int) (seconds : Nat) : World τ :=
  match plan ownerSub row started seconds with
  | none => w.goTo t .refused
  | some p => if (trackRows w.tracking p).isSome then w.goTo t (.tracked p) else w.goTo t .refused

/-- A request that fails rolls the transaction back. -/
def kick (w : World τ) (t : τ) (p : Plan) (succeeds : Bool) : World τ :=
  if succeeds then { w.goTo t (.kicked p) with kicks := ⟨w.era, p.runId, p.kind, p.answers⟩ :: w.kicks }
  else w.goTo t .kickFailed

/-- `set_launched_run` and the commit; without a row its `KeyError` rolls the transaction back. -/
def finish (w : World τ) (t : τ) (p : Plan) : World τ :=
  match w.row with
  | none => w.goTo t (.rowMissing p)
  | some row =>
    { w.goTo t (.launched p) with
      row := some { row with launchedRunId := some p.runId, status := "launched", updatedAt := p.started }
      tracking := (trackRows w.tracking p).getD w.tracking }

/-- A step that is not the next one of its launch changes nothing. -/
def exec (w : World τ) : Event τ → World τ
  | .put patch ifMatch now => w.put patch ifMatch now
  | .delete => { w with row := none }
  | .read t started =>
    match w.phase t with
    | .waiting => w.read t started
    | _ => w
  | .track t seconds =>
    match w.phase t with
    | .read row started => w.track ownerSub t row started seconds
    | _ => w
  | .kick t succeeds =>
    match w.phase t with
    | .tracked p => w.kick t p succeeds
    | _ => w
  | .finish t =>
    match w.phase t with
    | .kicked p => w.finish t p
    | _ => w

def run (w : World τ) (events : List (Event τ)) : World τ := events.foldl (fun w e => w.exec ownerSub e) w

end World

end System

end ProxmoxVEAutopilot.Onboarding.Launch
