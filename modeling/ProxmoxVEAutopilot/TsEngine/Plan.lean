import ProxmoxVEAutopilot.Foundation.Json

/-!
# Rows of one provisioning run

The columns of `ts_run_plan_steps`, `ts_provisioning_runs` and `ts_run_step_events`.
A plan step is split into the part copied from the compiled tree, which no statement
ever updates, and the part the engine moves. The table carries its two unique
constraints, so an update cannot break them.
-/

namespace ProxmoxVEAutopilot.TsEngine

open Foundation
set_option autoImplicit false

/-- A 128-bit value; `str` of uuids and their numbers are ordered alike. -/
abbrev Uuid := Nat

abbrev Time := Nat

inductive StepState where
  | pending
  | running
  | awaitingReboot
  | done
  | skipped
  | failed
deriving DecidableEq, Repr

/-- `running phase` is the text `running_{phase}`; `external` holds the texts other
controllers write into the column. -/
inductive RunState where
  | queued
  | running (phase : String)
  | awaitingReboot
  | done
  | failed
  | canceled
  | external (name : String)
deriving DecidableEq, Repr

inductive RebootBehavior where
  | none
  | optional
  | required
  | deferred
deriving DecidableEq, Repr

inductive Severity where
  | info
  | warning
  | error
deriving DecidableEq, Repr

inductive EventType where
  | runCreated
  | stepClaimed
  | stepLateFailureIgnored
  | stepEntered (state : StepState)
  | stepRebootComplete
  | stepRequeued
deriving DecidableEq, Repr

structure ConditionResult where
  matched : Bool
  reason : String
deriving DecidableEq, Repr

structure FlatStep where
  sourceNodeId : Uuid
  parentSourceNodeId : Option Uuid
  ordinal : Nat
  depth : Nat
  path : String
  name : String
  kind : String
  phase : String
  enabled : Bool
  conditionJson : Json
  variablesJson : Json
  paramsJson : Json
  resolvedParamsJson : Json
  contentRefsJson : List String
  continueOnError : Bool
  retryCount : Int
  retryDelaySeconds : Int
  timeoutSeconds : Option Int
  rebootBehavior : RebootBehavior

/-- The columns of a plan step that change after creation, with their defaults. -/
structure StepProgress where
  state : StepState := .pending
  attempt : Nat := 0
  claimedBy : Option String := none
  claimedAt : Option Time := none
  startedAt : Option Time := none
  finishedAt : Option Time := none
  lastError : Option String := none
deriving DecidableEq, Repr

structure PlanStep extends StepProgress where
  id : Uuid
  plan : FlatStep
  conditionResult : ConditionResult

namespace PlanStep

def withProgress (r : PlanStep) (p : StepProgress) : PlanStep := { r with toStepProgress := p }

@[simp] theorem withProgress_id (r : PlanStep) (p : StepProgress) : (r.withProgress p).id = r.id := rfl

@[simp] theorem withProgress_plan (r : PlanStep) (p : StepProgress) :
    (r.withProgress p).plan = r.plan := rfl

@[simp] theorem withProgress_toStepProgress (r : PlanStep) (p : StepProgress) :
    (r.withProgress p).toStepProgress = p := rfl

@[simp] theorem withProgress_self (r : PlanStep) : r.withProgress r.toStepProgress = r := rfl

/-- `phase IN (%s, 'any')`. -/
def inPhase (phase : String) (r : PlanStep) : Bool := r.plan.phase == phase || r.plan.phase == "any"

/-- `state IN ('pending', 'running', 'awaiting_reboot')`. -/
def unfinished (r : PlanStep) : Bool :=
  r.state == .pending || r.state == .running || r.state == .awaitingReboot

def finished (r : PlanStep) : Bool :=
  r.state == .done || r.state == .skipped || r.state == .failed

end PlanStep

/-- The plan steps of one run in the order of their ordinals. -/
structure PlanTable where
  rows : List PlanStep
  ordinals : rows.Pairwise fun a b => a.plan.ordinal < b.plan.ordinal
  ids : (rows.map fun r => r.id).Nodup

namespace PlanTable
variable (t : PlanTable)

/-- An `UPDATE` of the moving columns, row by row. -/
def update (f : PlanStep → StepProgress) : PlanTable where
  rows := t.rows.map fun r => r.withProgress (f r)
  ordinals := by simpa [List.pairwise_map] using t.ordinals
  ids := by simpa [Function.comp_def] using t.ids

/-- `UPDATE ... WHERE id = %s`. -/
def set (id : Uuid) (f : StepProgress → StepProgress) : PlanTable :=
  t.update fun r => if r.id = id then f r.toStepProgress else r.toStepProgress

/-- `SELECT ... WHERE id = %s`. -/
def get? (id : Uuid) : Option PlanStep := t.rows.find? fun r => r.id == id

variable {t}

@[ext] theorem ext {t u : PlanTable} (h : t.rows = u.rows) : t = u := by
  cases t
  cases u
  simp_all

theorem mem_update {f : PlanStep → StepProgress} {r : PlanStep} :
    r ∈ (t.update f).rows ↔ ∃ q ∈ t.rows, q.withProgress (f q) = r := by
  simp [update]

theorem mem_set {id : Uuid} {f : StepProgress → StepProgress} {r : PlanStep} :
    r ∈ (t.set id f).rows ↔
      ∃ q ∈ t.rows, q.withProgress (if q.id = id then f q.toStepProgress else q.toStepProgress) = r :=
  mem_update

theorem mem_set_of_ne {id : Uuid} {f : StepProgress → StepProgress} {r : PlanStep} (hr : r ∈ t.rows)
    (hne : r.id ≠ id) : r ∈ (t.set id f).rows :=
  mem_set.mpr ⟨r, hr, by rw [if_neg hne, PlanStep.withProgress_self]⟩

theorem forall_mem_update {f : PlanStep → StepProgress} {P : PlanStep → Prop} :
    (∀ r ∈ (t.update f).rows, P r) ↔ ∀ q ∈ t.rows, P (q.withProgress (f q)) := by
  simp [update]

theorem update_self : t.update (fun r => r.toStepProgress) = t := by
  apply ext
  simp [update]

theorem update_congr {f g : PlanStep → StepProgress} (h : ∀ r ∈ t.rows, f r = g r) :
    t.update f = t.update g := by
  apply ext
  exact List.map_congr_left fun r hr => by rw [h r hr]

theorem update_update (f g : PlanStep → StepProgress) :
    (t.update f).update g = t.update fun r => g (r.withProgress (f r)) := by
  apply ext
  simp [update, Function.comp_def, PlanStep.withProgress]

/-- Updating distinct rows one after another is one update of all of them. -/
theorem foldl_set (f : StepProgress → StepProgress) {keys : List Uuid} (hkeys : keys.Nodup) :
    ∀ t : PlanTable, keys.foldl (fun t id => t.set id f) t =
      t.update fun r => if r.id ∈ keys then f r.toStepProgress else r.toStepProgress := by
  induction keys with
  | nil => exact fun t => by simpa using update_self.symm
  | cons id keys ih =>
    intro t
    obtain ⟨hnot, hkeys⟩ := List.nodup_cons.mp hkeys
    rw [List.foldl_cons, ih hkeys, set, update_update]
    apply update_congr
    intro r _
    by_cases hid : r.id = id
    · simp [hid, hnot]
    · simp [hid]

theorem eq_of_id {a b : PlanStep} (ha : a ∈ t.rows) (hb : b ∈ t.rows) (h : a.id = b.id) : a = b :=
  List.inj_on_of_nodup_map t.ids ha hb h

theorem eq_of_ordinal {a b : PlanStep} (ha : a ∈ t.rows) (hb : b ∈ t.rows)
    (h : a.plan.ordinal = b.plan.ordinal) : a = b := by
  have hnodup : (t.rows.map fun r => r.plan.ordinal).Nodup := by
    rw [List.Nodup, List.pairwise_map]
    exact t.ordinals.imp fun hab => Nat.ne_of_lt hab
  exact List.inj_on_of_nodup_map hnodup ha hb h

theorem get?_eq_some {id : Uuid} {r : PlanStep} :
    t.get? id = some r ↔ r ∈ t.rows ∧ r.id = id := by
  constructor
  · intro h
    exact ⟨List.mem_of_find?_eq_some h, by simpa using List.find?_some h⟩
  · rintro ⟨hr, hid⟩
    cases h : t.get? id with
    | none =>
      have hnone := List.find?_eq_none.mp h r hr
      simp [hid] at hnone
    | some q =>
      have hq : q.id = id := by simpa using List.find?_some h
      rw [eq_of_id (List.mem_of_find?_eq_some h) hr (hq.trans hid.symm)]

theorem get?_of_mem {r : PlanStep} (h : r ∈ t.rows) : t.get? r.id = some r :=
  get?_eq_some.mpr ⟨h, rfl⟩

theorem get?_set_self {id : Uuid} {f : StepProgress → StepProgress} {r : PlanStep}
    (h : t.get? id = some r) : (t.set id f).get? id = some (r.withProgress (f r.toStepProgress)) := by
  obtain ⟨hr, hid⟩ := get?_eq_some.mp h
  exact get?_eq_some.mpr ⟨mem_set.mpr ⟨r, hr, by rw [if_pos hid]⟩, hid⟩

end PlanTable

structure RunRow where
  id : Uuid
  sequenceId : Uuid
  sequenceVersionId : Uuid
  state : RunState := .queued
  phase : Option String := none
  cursorStepId : Option Uuid := none
  vmid : Option Json := none
  vmUuid : Option Json := none
  computerName : Option Json := none
  serialNumber : Option Json := none
  deploymentTarget : Json
  runVariables : Json
  startedAt : Time
  finishedAt : Option Time := none
  lastError : Option String := none
  createdBy : Option String := none

structure Event where
  stepId : Option Uuid := none
  eventType : EventType
  severity : Severity := .info
  agentId : Option String := none
  phase : Option String := none
  attempt : Option Nat := none
  message : Option String := none
  data : Json := .obj []
  createdAt : Time

/-- Everything the engine stores about one run. -/
structure RunDb where
  run : RunRow
  steps : PlanTable
  events : List Event

def RunDb.appendEvent (db : RunDb) (e : Event) : RunDb := { db with events := db.events ++ [e] }

@[simp] theorem RunDb.appendEvent_run (db : RunDb) (e : Event) : (db.appendEvent e).run = db.run := rfl

@[simp] theorem RunDb.appendEvent_steps (db : RunDb) (e : Event) :
    (db.appendEvent e).steps = db.steps := rfl

end ProxmoxVEAutopilot.TsEngine
