import ProxmoxVEAutopilot.Foundation.Table

/-!
# Agent devices and bootstrap approvals

`agent_devices` holds the hash of the current token of each agent beside a `revoked`
flag; `agent_bootstrap_approvals` holds the token itself until the agent has fetched it.
Every call below is what it commits. The two hashes are parameters: `hashToken` is the
keyed one of agent tokens, `publicSha256` the one of bootstrap tokens.
-/

namespace ProxmoxVEAutopilot.Telemetry

open Foundation
set_option autoImplicit false

abbrev Time := Nat
abbrev Token := String

structure Identity where
  vmid : Option Int := none
  vmUuid : Option String := none
  serialNumber : Option String := none
  computerName : Option String := none
  agentVersion : Option String := none
  createdFromRunId : Option String := none
deriving DecidableEq

/-- `COALESCE(EXCLUDED.column, agent_devices.column)` in every column. -/
def Identity.over (new old : Identity) : Identity where
  vmid := new.vmid.or old.vmid
  vmUuid := new.vmUuid.or old.vmUuid
  serialNumber := new.serialNumber.or old.serialNumber
  computerName := new.computerName.or old.computerName
  agentVersion := new.agentVersion.or old.agentVersion
  createdFromRunId := new.createdFromRunId.or old.createdFromRunId

structure Device (δ : Type) where
  agentId : String
  tokenHash : δ
  identity : Identity
  revoked : Bool := false
  createdAt : Time
  firstSeenAt : Time
  lastSeenAt : Time
  tokenRotatedAt : Time

inductive ApprovalStatus where
  | pending
  | approved
  | claimed
deriving DecidableEq, Repr

structure Approval (δ : Type) where
  approvalId : Nat
  agentId : String
  bootstrapTokenHash : δ
  status : ApprovalStatus := .pending
  phase : Option String
  identity : Identity
  agentToken : Option Token := none
  requestedAt : Time
  approvedAt : Option Time := none
  claimedAt : Option Time := none

/-- The `WHERE` clause of the unique index on `agent_id`. -/
def Approval.live {δ : Type} (a : Approval δ) : Bool := a.status == .pending || a.status == .approved

structure AgentDb (δ : Type) where
  devices : List (Device δ) := []
  approvals : List (Approval δ) := []

section Calls
variable {δ : Type} (hashToken publicSha256 : String → δ)

def newDevice (agentId : String) (token : Token) (identity : Identity) (now : Time) : Device δ where
  agentId := agentId
  tokenHash := hashToken token
  identity := identity
  createdAt := now
  firstSeenAt := now
  lastSeenAt := now
  tokenRotatedAt := now

/-- `upsert_device`: a new token, enabled. -/
def upsertDevice (agentId : String) (token : Token) (identity : Identity) (now : Time)
    (db : AgentDb δ) : AgentDb δ :=
  { db with
    devices := Table.upsert Device.agentId db.devices (newDevice hashToken agentId token identity now)
      fun old =>
        { old with
          tokenHash := hashToken token
          identity := identity.over old.identity
          revoked := false
          lastSeenAt := now
          tokenRotatedAt := now } }

def validateAgentToken [DecidableEq δ] (token : Token) (db : AgentDb δ) : Option (Device δ) :=
  db.devices.find? fun d => d.tokenHash = hashToken token ∧ d.revoked = false

def revokeAgent (agentId : String) (now : Time) (db : AgentDb δ) : AgentDb δ :=
  { db with devices := Table.modify Device.agentId db.devices agentId fun d =>
      { d with revoked := true, lastSeenAt := now } }

/-- `upsert_manual_agent`; `token` is drawn for the insert and thrown away. An existing row is
enabled with the token hash it has. -/
def upsertManualAgent (agentId : String) (token : Token) (identity : Identity) (now : Time)
    (db : AgentDb δ) : AgentDb δ :=
  { db with
    devices := Table.upsert Device.agentId db.devices
      (newDevice hashToken agentId token { identity with vmUuid := none } now)
      fun old =>
        { old with
          identity := { identity with vmUuid := old.identity.vmUuid }
          revoked := false
          lastSeenAt := now } }

def updateAgentMetadata (agentId : String) (identity : Identity) (now : Time) (db : AgentDb δ) :
    AgentDb δ :=
  { db with devices := Table.modify Device.agentId db.devices agentId fun d =>
      { d with identity := { identity with vmUuid := d.identity.vmUuid }, lastSeenAt := now } }

def updateAgentVersion (agentId version : String) (now : Time) (db : AgentDb δ) : AgentDb δ :=
  { db with devices := Table.modify Device.agentId db.devices agentId fun d =>
      { d with identity := { d.identity with agentVersion := some version }, lastSeenAt := now } }

/-- `record_heartbeat` without the heartbeat row; its foreign key wants a device. The payload
carries no run id for the device. -/
def recordHeartbeat (agentId : String) (payload : Identity) (now : Time) (db : AgentDb δ) : AgentDb δ :=
  if db.devices.any fun d => d.agentId = agentId then
    { devices := Table.modify Device.agentId db.devices agentId fun d =>
        { d with
          identity := { payload.over d.identity with createdFromRunId := d.identity.createdFromRunId }
          lastSeenAt := now }
      approvals := Table.modify Approval.agentId db.approvals agentId fun a =>
        if a.status = .approved ∧ a.agentToken.isSome then
          { a with status := .claimed, claimedAt := a.claimedAt.or (some now) }
        else a }
  else db

def hardDeleteAgent (agentId : String) (db : AgentDb δ) : AgentDb δ :=
  if db.devices.any fun d => d.agentId = agentId then
    { devices := Table.delete Device.agentId db.devices agentId
      approvals := Table.delete Approval.agentId db.approvals agentId }
  else db

/-- `create_bootstrap_approval`: a retry refreshes the live approval of the agent, but neither
its status nor its token. -/
def createBootstrapApproval (approvalId : Nat) (bootstrapToken : Token) (agentId : String)
    (phase : Option String) (identity : Identity) (now : Time) (db : AgentDb δ) : AgentDb δ :=
  if db.approvals.any fun a => a.agentId = agentId ∧ a.live then
    { db with approvals := db.approvals.map fun a =>
        if a.agentId = agentId ∧ a.live then
          { a with
            bootstrapTokenHash := publicSha256 bootstrapToken
            phase := phase
            identity := identity.over a.identity
            requestedAt := now }
        else a }
  else
    { db with approvals := db.approvals ++
        [{ approvalId, agentId, bootstrapTokenHash := publicSha256 bootstrapToken, phase, identity,
           requestedAt := now }] }

def getBootstrapApproval (approvalId : Nat) (db : AgentDb δ) : Option (Approval δ) :=
  db.approvals.find? fun a => a.approvalId = approvalId

/-- The last statement of `approve_bootstrap_approval`. -/
def storeAgentToken (approvalId : Nat) (token : Token) (now : Time) (db : AgentDb δ) : AgentDb δ :=
  { db with approvals := Table.modify Approval.approvalId db.approvals approvalId fun a =>
      { a with
        status := .approved
        approvedAt := a.approvedAt.or (some now)
        agentToken := some token } }

/-- `approve_bootstrap_approval` without anything in between. -/
def approveBootstrapApproval (approvalId : Nat) (token : Token) (now : Time) (db : AgentDb δ) :
    AgentDb δ :=
  match getBootstrapApproval approvalId db with
  | none => db
  | some pending =>
    if pending.live then
      storeAgentToken approvalId token now
        (upsertDevice hashToken pending.agentId token pending.identity now db)
    else db

/-- `claim_bootstrap_approval`, and `mark_bootstrap_approval_claimed` when it hands out the token. -/
def claimBootstrapApproval [DecidableEq δ] (approvalId : Nat) (bootstrapToken : Token) (now : Time)
    (db : AgentDb δ) : AgentDb δ :=
  match db.approvals.find? fun a =>
      a.approvalId = approvalId ∧ a.bootstrapTokenHash = publicSha256 bootstrapToken with
  | none => db
  | some approval =>
    if approval.status = .approved ∧ approval.agentToken.isSome then
      { db with approvals := Table.modify Approval.approvalId db.approvals approvalId fun a =>
          { a with claimedAt := a.claimedAt.or (some now) } }
    else db

end Calls

section Upsert
variable {δ : Type} {hashToken : String → δ} {db : AgentDb δ} {agentId : String} {token : Token}
  {identity : Identity} {now : Time} {d : Device δ}

theorem mem_upsertDevice (h : d ∈ (upsertDevice hashToken agentId token identity now db).devices) :
    d ∈ db.devices ∧ d.agentId ≠ agentId ∨
      d.agentId = agentId ∧ d.tokenHash = hashToken token ∧ d.revoked = false ∧
        ∃ old, d.identity = identity.over old := by
  rcases Table.mem_upsert.mp h with hold | ⟨old, _, hkey, rfl⟩ | ⟨_, rfl⟩
  · exact .inl hold
  · exact .inr ⟨hkey, rfl, rfl, old.identity, rfl⟩
  · refine .inr ⟨rfl, rfl, rfl, {}, ?_⟩
    simp [newDevice, Identity.over]

theorem mem_upsertDevice_of_ne (hne : d.agentId ≠ agentId) :
    d ∈ (upsertDevice hashToken agentId token identity now db).devices ↔ d ∈ db.devices := by
  constructor
  · intro h
    rcases mem_upsertDevice h with ⟨hd, _⟩ | ⟨hid, _⟩
    · exact hd
    · exact absurd hid hne
  · intro hd
    exact Table.mem_upsert.mpr (.inl ⟨hd, hne⟩)

theorem exists_upsertDevice (hashToken : String → δ) (agentId : String) (token : Token) (identity : Identity)
    (now : Time) (db : AgentDb δ) :
    ∃ d ∈ (upsertDevice hashToken agentId token identity now db).devices, d.agentId = agentId := by
  by_cases hrow : ∃ old ∈ db.devices, old.agentId = agentId
  · obtain ⟨old, hold, hid⟩ := hrow
    exact ⟨_, Table.mem_upsert.mpr (.inr (.inl ⟨old, hold, hid, rfl⟩)), hid⟩
  · refine ⟨_, Table.mem_upsert.mpr (.inr (.inr ⟨?_, rfl⟩)), rfl⟩
    intro old hold hid
    exact hrow ⟨old, hold, hid⟩

end Upsert

end ProxmoxVEAutopilot.Telemetry
