import ProxmoxVEAutopilot.Foundation.Json
import ProxmoxVEAutopilot.Foundation.Text

/-!
# Observing a machine

`_observe` merges what an observer reports with the row it read, logs a change of state
and writes the row. The write is a function of the row that was read, which need not be
the row that is stored by then.
-/

namespace ProxmoxVEAutopilot.Lifecycle

open Foundation
set_option autoImplicit false

abbrev Time := Nat

structure Flags where
  autopilotRegistered : Bool := false
  intuneEnrolled : Bool := false
  entraJoined : Bool := false
  domainJoined : Bool := false
deriving DecidableEq, Repr

namespace Flags

def or (a b : Flags) : Flags where
  autopilotRegistered := a.autopilotRegistered || b.autopilotRegistered
  intuneEnrolled := a.intuneEnrolled || b.intuneEnrolled
  entraJoined := a.entraJoined || b.entraJoined
  domainJoined := a.domainJoined || b.domainJoined

def any (a : Flags) : Bool := a.autopilotRegistered || a.intuneEnrolled || a.entraJoined || a.domainJoined

/-- No flag of `a` is missing in `b`. -/
def Le (a b : Flags) : Prop := a.or b = b

instance (a b : Flags) : Decidable (a.Le b) := inferInstanceAs (Decidable (_ = _))

end Flags

inductive MachineState where
  | workgroupUnenrolled
  | adDomainJoined
  | entraJoined
  | hybridJoined
  | intuneEnrolled
  | autopilotRegistered
  | unknownStale
deriving DecidableEq, Repr

def MachineState.label : MachineState → String
  | .workgroupUnenrolled => "unenrolled"
  | .adDomainJoined => "domain"
  | .entraJoined => "Entra ID"
  | .hybridJoined => "hybrid"
  | .intuneEnrolled => "Intune"
  | .autopilotRegistered => "Autopilot ID"
  | .unknownStale => "unknown"

def MachineState.priority : MachineState → Nat
  | .unknownStale => 0
  | .workgroupUnenrolled => 10
  | .autopilotRegistered => 50
  | .adDomainJoined => 70
  | .entraJoined => 80
  | .hybridJoined => 85
  | .intuneEnrolled => 90

def stateFromEvidence (flags : Flags) (explicitWorkgroup : Bool) : MachineState :=
  if flags.intuneEnrolled then .intuneEnrolled
  else if flags.entraJoined && flags.domainJoined then .hybridJoined
  else if flags.entraJoined then .entraJoined
  else if flags.domainJoined then .adDomainJoined
  else if flags.autopilotRegistered then .autopilotRegistered
  else if explicitWorkgroup then .workgroupUnenrolled
  else .unknownStale

structure Subject where
  vmid : Option Int := none
  agentId : Option String := none
  serialNumber : Option String := none
  computerName : Option String := none
  domainName : Option String := none
  tenantId : Option String := none
deriving DecidableEq

/-- `COALESCE(EXCLUDED.column, machine_lifecycle_current.column)` in every column. -/
def Subject.over (new old : Subject) : Subject where
  vmid := new.vmid.or old.vmid
  agentId := new.agentId.or old.agentId
  serialNumber := new.serialNumber.or old.serialNumber
  computerName := new.computerName.or old.computerName
  domainName := new.domainName.or old.domainName
  tenantId := new.tenantId.or old.tenantId

def identityToken (value : Option String) : String :=
  String.ofList ((lower (strip (value.getD ""))).toList.filter fun c =>
    ('a' ≤ c && c ≤ 'z') || ('0' ≤ c && c ≤ '9'))

def identityKeyFor (s : Subject) : String :=
  if identityToken s.serialNumber ≠ "" then "serial:" ++ identityToken s.serialNumber
  else if identityToken s.agentId ≠ "" then "agent:" ++ identityToken s.agentId
  else
    match s.vmid with
    | some vmid => "vmid:" ++ toString vmid
    | none =>
      if identityToken s.computerName ≠ "" then "computer:" ++ identityToken s.computerName
      else "unknown"

structure Observation where
  source : String
  observedAt : Time
  subject : Subject
  flags : Flags := {}
  explicitWorkgroup : Bool := false
  evidence : Json := .obj []
deriving DecidableEq

def Observation.identityKey (o : Observation) : String := identityKeyFor o.subject

/-- A row of `machine_lifecycle_current`. -/
structure Current where
  state : MachineState
  label : String
  source : String
  priority : Nat
  subject : Subject
  flags : Flags
  firstObservedAt : Time
  lastObservedAt : Time
  evidenceJson : Json

inductive EventType where
  | initial
  | transition
deriving DecidableEq, Repr

/-- A row of `machine_lifecycle_events`. -/
structure Event where
  identityKey : String
  eventType : EventType
  previousState : Option MachineState
  state : MachineState
  label : String
  source : String
  priority : Nat
  subject : Subject
  flags : Flags
  observedAt : Time
  evidenceJson : Json

/-- The two tables; `identity_key` is the primary key of the first. -/
structure LifecycleDb where
  current : String → Option Current := fun _ => none
  events : List Event := []

namespace Observation
variable (o : Observation) (existing stored : Option Current)

def merged : Flags :=
  match existing with
  | none => o.flags
  | some row => o.flags.or row.flags

def mergedWorkgroup : Bool :=
  match existing with
  | none => o.explicitWorkgroup
  | some _ => o.explicitWorkgroup && !(o.merged existing).any

def state : MachineState := stateFromEvidence (o.merged existing) (o.mergedWorkgroup existing)

def change : List Event :=
  if existing.map Current.state = some (o.state existing) then []
  else
    [{ identityKey := o.identityKey
       eventType := if existing.isNone then .initial else .transition
       previousState := existing.map Current.state
       state := o.state existing
       label := (o.state existing).label
       source := o.source
       priority := (o.state existing).priority
       subject := o.subject
       flags := o.merged existing
       observedAt := o.observedAt
       evidenceJson := o.evidence }]

/-- The row after the upsert over the stored one. -/
def row : Current where
  state := o.state existing
  label := (o.state existing).label
  source := o.source
  priority := (o.state existing).priority
  subject := stored.elim o.subject fun old => o.subject.over old.subject
  flags := o.merged existing
  firstObservedAt := stored.elim o.observedAt Current.firstObservedAt
  lastObservedAt := o.observedAt
  evidenceJson := o.evidence

end Observation

/-- The writes of `_observe` after it read `existing`. -/
def record (existing : Option Current) (o : Observation) (db : LifecycleDb) : LifecycleDb where
  current := Function.update db.current o.identityKey (some (o.row existing (db.current o.identityKey)))
  events := db.events ++ o.change existing

/-- `_observe` with nothing in between. -/
def observe (db : LifecycleDb) (o : Observation) : LifecycleDb := record (db.current o.identityKey) o db

section Evidence
variable {os os' : List Observation} {o : Observation} {key : String}

def ofKey (key : String) (os : List Observation) : List Observation := os.filter fun o => o.identityKey = key

def reported (os : List Observation) : Flags where
  autopilotRegistered := os.any fun o => o.flags.autopilotRegistered
  intuneEnrolled := os.any fun o => o.flags.intuneEnrolled
  entraJoined := os.any fun o => o.flags.entraJoined
  domainJoined := os.any fun o => o.flags.domainJoined

theorem Flags.or_comm (a b : Flags) : a.or b = b.or a := by
  simp [Flags.or, Bool.or_comm]

theorem Flags.or_assoc (a b c : Flags) : (a.or b).or c = a.or (b.or c) := by
  simp [Flags.or, Bool.or_assoc]

theorem Flags.or_self (a : Flags) : a.or a = a := by
  simp [Flags.or]

@[simp] theorem reported_nil : reported [] = {} := rfl

theorem reported_snoc (os : List Observation) (o : Observation) :
    reported (os ++ [o]) = o.flags.or (reported os) := by
  simp [reported, Flags.or, Bool.or_comm]

theorem reported_congr (h : ∀ o, o ∈ os ↔ o ∈ os') : reported os = reported os' := by
  have hany : ∀ p : Observation → Bool, os.any p = os'.any p := by
    intro p
    rw [Bool.eq_iff_iff, List.any_eq_true, List.any_eq_true]
    simp only [h]
  simp only [reported, hany]

theorem ofKey_snoc_self (h : o.identityKey = key) : ofKey key (os ++ [o]) = ofKey key os ++ [o] := by
  simp [ofKey, h]

theorem ofKey_snoc_of_ne (h : o.identityKey ≠ key) : ofKey key (os ++ [o]) = ofKey key os := by
  simp [ofKey, h]

theorem stateFromEvidence_of_any {flags : Flags} (h : flags.any = true) (a b : Bool) :
    stateFromEvidence flags a = stateFromEvidence flags b := by
  obtain ⟨autopilot, intune, entra, domain⟩ := flags
  cases autopilot <;> cases intune <;> cases entra <;> cases domain <;> first | rfl | cases h

end Evidence

/-- The rows hold what the observations `os` report. -/
structure Merged (os : List Observation) (db : LifecycleDb) : Prop where
  absent : ∀ key, db.current key = none ↔ ofKey key os = []
  flags : ∀ key row, db.current key = some row → row.flags = reported (ofKey key os)
  state : ∀ key row, db.current key = some row → row.flags.any = true →
    row.state = stateFromEvidence row.flags false

theorem merged_empty : Merged [] {} := by
  constructor <;> simp [ofKey]

section Record
variable {os : List Observation} {existing : Option Current} {o : Observation} {db : LifecycleDb} {key : String}

theorem record_current_self (h : o.identityKey = key) :
    (record existing o db).current key = some (o.row existing (db.current key)) := by
  subst h
  simp [record]

theorem record_current_of_ne (h : o.identityKey ≠ key) : (record existing o db).current key = db.current key := by
  simp [record, Function.update_of_ne (Ne.symm h)]

theorem merged_eq_of_between {r : Flags} (hbelow : ∀ row, existing = some row → row.flags.Le r)
    (habove : r.Le (o.merged existing)) : o.merged existing = o.flags.or r := by
  cases existing with
  | none =>
    have hle : r.or o.flags = o.flags := habove
    change o.flags = o.flags.or r
    rw [Flags.or_comm, hle]
  | some row =>
    have hrow : row.flags.or r = r := hbelow row rfl
    have hle : r.or (o.flags.or row.flags) = o.flags.or row.flags := habove
    change o.flags.or row.flags = o.flags.or r
    calc o.flags.or row.flags = r.or (o.flags.or row.flags) := hle.symm
      _ = (o.flags.or row.flags).or r := Flags.or_comm _ _
      _ = o.flags.or (row.flags.or r) := Flags.or_assoc _ _ _
      _ = o.flags.or r := by rw [hrow]

/-- A write keeps the evidence when the row it read is not ahead of the stored one, and the
stored one has no flag that the write leaves out. -/
theorem Merged.record (h : Merged os db)
    (hbelow : ∀ row, existing = some row →
      ∃ now, db.current o.identityKey = some now ∧ row.flags.Le now.flags)
    (habove : ∀ now, db.current o.identityKey = some now → now.flags.Le (o.merged existing)) :
    Merged (os ++ [o]) (record existing o db) := by
  have hflags : o.merged existing = o.flags.or (reported (ofKey o.identityKey os)) := by
    cases hnow : db.current o.identityKey with
    | none =>
      have hexisting : existing = none := by
        cases existing with
        | none => rfl
        | some row =>
          obtain ⟨now, hsome, _⟩ := hbelow row rfl
          rw [hnow] at hsome
          cases hsome
      subst hexisting
      rw [(h.absent _).mp hnow]
      simp [Observation.merged, reported, Flags.or]
    | some now =>
      rw [← h.flags _ now hnow]
      apply merged_eq_of_between _ (habove now hnow)
      intro row hrow
      obtain ⟨stored, hstored, hle⟩ := hbelow row hrow
      rw [hnow] at hstored
      cases hstored
      exact hle
  constructor
  · intro key
    by_cases hkey : o.identityKey = key
    · rw [record_current_self hkey, ofKey_snoc_self hkey]
      simp
    · rw [record_current_of_ne hkey, ofKey_snoc_of_ne hkey]
      exact h.absent key
  · intro key row hrow
    by_cases hkey : o.identityKey = key
    · subst hkey
      rw [record_current_self rfl] at hrow
      cases hrow
      rw [ofKey_snoc_self rfl, reported_snoc]
      exact hflags
    · rw [record_current_of_ne hkey] at hrow
      rw [ofKey_snoc_of_ne hkey]
      exact h.flags key row hrow
  · intro key row hrow hany
    by_cases hkey : o.identityKey = key
    · subst hkey
      rw [record_current_self rfl] at hrow
      cases hrow
      exact stateFromEvidence_of_any hany _ _
    · rw [record_current_of_ne hkey] at hrow
      exact h.state key row hrow hany

theorem Merged.observe (h : Merged os db) (o : Observation) : Merged (os ++ [o]) (observe db o) := by
  apply h.record
  · intro row hrow
    exact ⟨row, hrow, Flags.or_self _⟩
  · intro now hnow
    rw [hnow]
    change now.flags.or (o.flags.or now.flags) = o.flags.or now.flags
    rw [Flags.or_comm, Flags.or_assoc, Flags.or_self]

end Record

def observeFromAgentHeartbeat (agentId : String) (receivedAt : Time) (machine : Subject)
    (domainJoined entraJoined : Option Bool) (heartbeat : Json) : Observation :=
  let domainName := strip (machine.domainName.getD "")
  { source := "agent_heartbeat"
    observedAt := receivedAt
    subject := { machine with agentId := some agentId, domainName := some domainName }
    flags := { domainJoined := domainJoined.getD false, entraJoined := entraJoined.getD false }
    explicitWorkgroup := (domainJoined == some false || lower domainName == "workgroup") && !entraJoined.getD false
    evidence := .obj [("agent_id", .str agentId), ("heartbeat", heartbeat)] }

def observeAutopilotRegistration (now : Time) (vmid : Option Int) (serialNumber computerName : Option String)
    (registered : Bool) (evidence : Json) : Option Observation :=
  if registered && ((given serialNumber).isSome || vmid.any (· ≠ 0) || (given computerName).isSome) then
    some
      { source := "autopilot_registration"
        observedAt := now
        subject := { vmid, serialNumber, computerName }
        flags := { autopilotRegistered := true }
        evidence := evidence }
  else none

end ProxmoxVEAutopilot.Lifecycle
