import ProxmoxVEAutopilot.Foundation.Text
import ProxmoxVEAutopilot.Telemetry.Devices

/-!
# Bootstrapping an agent

The body names the agent, the bearer token decides by what right: the fleet token asks
for an approval, the token of a run enrols at once. A run token is bound to its run, not
to an agent, so it takes over whatever row the agent id already has.
-/

namespace ProxmoxVEAutopilot.Telemetry

open Foundation
set_option autoImplicit false

structure BootstrapBody where
  agentId : String
  runId : Option String := none
  phase : Option String := none
  vmid : Option Int := none
  vmUuid : Option String := none
  computerName : Option String := none
  serialNumber : Option String := none
  agentVersion : Option String := none
  minLength : agentId ≠ "" := by decide

inductive Refusal where
  | http (statusCode : Nat) (detail : String)
  /-- An exception that no handler turns into an answer. -/
  | unhandled
deriving DecidableEq, Repr

inductive VerifyError where
  | tokenInvalid
  | tokenExpired
  | tokenSecretMissing
  | other
deriving DecidableEq, Repr

inductive BootstrapResponse where
  | enrolled (agentId : String) (approval : Option (Nat × ApprovalStatus)) (agentToken : Token)
      (heartbeatIntervalSeconds : Nat)
  | waiting (agentId : String) (approvalId : Nat) (approvalStatus : ApprovalStatus) (pollUrl : String)
      (retryAfterSeconds : Nat)
deriving DecidableEq

def heartbeatIntervalSeconds : Nat := 30

/-- What a request meets besides the agent tables. -/
structure Site where
  /-- `_configured_fleet_bootstrap_token_sha256()`. -/
  fleetTokenSha256 : String
  sha256 : String → String
  verify : Token → Except VerifyError String
  /-- The canonical text of a `uuid`, if the text is one. -/
  uuid : String → Option String
  /-- The columns of `get_run` that are read here. -/
  runs : String → Option Identity
  buildhostAutoApprovalMatches : BootstrapBody → Option Int → Option String → Bool

def bearer (authorization : Option String) : Except Refusal Token :=
  match authorization with
  | none => .error (.http 401 "missing bearer")
  | some header =>
    if "Bearer ".toList.isPrefixOf header.toList then
      let token := strip (String.ofList (header.toList.drop 7))
      if token = "" then .error (.http 401 "missing bearer") else .ok token
    else .error (.http 401 "missing bearer")

/-- `hmac.compare_digest` of two texts raises unless both are ASCII. -/
def compareDigest (a b : String) : Except Refusal Bool :=
  if a.toList.all (·.toNat < 128) && b.toList.all (·.toNat < 128) then .ok (a == b) else .error .unhandled

namespace Site
variable (site : Site)

def fleetBootstrapTokenMatches (token : Token) : Except Refusal Bool := do
  if site.fleetTokenSha256 = "" then return false
  let submitted := String.ofList ((strip token).toList.map Char.toLower)
  if ← compareDigest submitted site.fleetTokenSha256 then return true
  compareDigest (site.sha256 token) site.fleetTokenSha256

def bootstrapRunId (token : Token) (requestedRunId : Option String) : Except Refusal (Option String) := do
  if ← site.fleetBootstrapTokenMatches token then return none
  match site.verify token with
  | .error .tokenExpired => .error (.http 401 "bootstrap token expired")
  | .error .other => .error .unhandled
  | .error _ => .error (.http 401 "invalid bootstrap token")
  | .ok runId =>
    if (given requestedRunId).any (· ≠ runId) then .error (.http 403 "token/run mismatch")
    else return some runId

/-- `ts_engine_pg.get_run`, whose `ValueError` becomes 404. -/
def getRun (runId : String) : Except Refusal Identity :=
  match site.uuid runId with
  | none => .error .unhandled
  | some id =>
    match site.runs id with
    | none => .error (.http 404 "run not found")
    | some run => .ok run

def bootstrapIdentity (body : BootstrapBody) (runId : Option String) : Except Refusal Identity :=
  match given runId with
  | some runId => do
    let run ← site.getRun runId
    return { vmid := body.vmid.or run.vmid
             vmUuid := orElse body.vmUuid run.vmUuid
             computerName := orElse body.computerName run.computerName
             serialNumber := orElse body.serialNumber run.serialNumber
             agentVersion := body.agentVersion }
  | none =>
    return { vmid := body.vmid
             vmUuid := body.vmUuid
             computerName := body.computerName
             serialNumber := body.serialNumber
             agentVersion := body.agentVersion }

/-- The text as the value of a `uuid` column. -/
def uuidColumn : Option String → Except Refusal (Option String)
  | none => .ok none
  | some text =>
    match site.uuid text with
    | none => .error .unhandled
    | some id => .ok (some id)

variable {δ : Type} (hashToken publicSha256 : String → δ)

/-- The answer to an approval request; an approval on its way out is marked. -/
def answerApproval (approval : Approval δ) (now : Time) (db : AgentDb δ) : BootstrapResponse × AgentDb δ :=
  match approval.status, given approval.agentToken with
  | .approved, some agentToken =>
    (.enrolled approval.agentId (some (approval.approvalId, .approved)) agentToken heartbeatIntervalSeconds,
      { db with approvals := Table.modify Approval.approvalId db.approvals approval.approvalId fun a =>
          { a with claimedAt := a.claimedAt.or (some now) } })
  | _, _ =>
    (.waiting approval.agentId approval.approvalId approval.status
      ("/api/agent/v1/bootstrap/claim/" ++ toString approval.approvalId) 5, db)

/-- `bootstrap_agent`. `agentToken` and `approvalId` are what the call draws if it needs them. -/
def bootstrapAgent (body : BootstrapBody) (authorization : Option String) (agentToken : Token)
    (approvalId : Nat) (now : Time) (db : AgentDb δ) : Except Refusal (BootstrapResponse × AgentDb δ) := do
  let bootstrapToken ← bearer authorization
  let tokenRunId ← site.bootstrapRunId bootstrapToken body.runId
  let runId := orElse body.runId tokenRunId
  let identity ← site.bootstrapIdentity body runId
  let createdFromRunId ← site.uuidColumn runId
  if ← site.fleetBootstrapTokenMatches bootstrapToken then
    let db := createBootstrapApproval publicSha256 approvalId bootstrapToken body.agentId body.phase
      { identity with createdFromRunId } now db
    match db.approvals.find? fun a => a.agentId = body.agentId ∧ a.live with
    | none => .error .unhandled
    | some approval =>
      if approval.status = .pending ∧
          site.buildhostAutoApprovalMatches body identity.vmid identity.computerName then
        let db := approveBootstrapApproval hashToken approval.approvalId agentToken now db
        match getBootstrapApproval approval.approvalId db with
        | none => .error .unhandled
        | some approval => return answerApproval approval now db
      else return answerApproval approval now db
  else
    return (.enrolled body.agentId none agentToken heartbeatIntervalSeconds,
      upsertDevice hashToken body.agentId agentToken { identity with createdFromRunId } now db)

end Site

section RunToken
variable {site : Site} {token : Token} {runId : String} {body : BootstrapBody} {authorization : Option String}
  {agentToken : Token} {approvalId : Nat} {now : Time}

/-- The request carries a token of the run, and it is not the fleet token. -/
structure RunScoped (site : Site) (authorization : Option String) (runId : String) : Prop where
  bearing : ∃ token, bearer authorization = .ok token ∧
    site.fleetBootstrapTokenMatches token = .ok false ∧ site.verify token = .ok runId

theorem orElse_of_match (h : (given body.runId).any (· ≠ runId) = false) :
    orElse body.runId (some runId) = some runId := by
  unfold orElse
  cases hgiven : given body.runId with
  | none => rfl
  | some named =>
    rw [hgiven] at h
    simp only [Option.any_some, ne_eq, decide_not, Bool.not_eq_false', decide_eq_true_eq] at h
    rw [h, Option.some_or]

variable {δ : Type} {hashToken publicSha256 : String → δ} {db : AgentDb δ}

theorem bootstrapAgent_of_runScoped (h : RunScoped site authorization runId) :
    site.bootstrapAgent hashToken publicSha256 body authorization agentToken approvalId now db =
      if (given body.runId).any (· ≠ runId) then .error (.http 403 "token/run mismatch")
      else do
        let identity ← site.bootstrapIdentity body (some runId)
        let createdFromRunId ← site.uuidColumn (some runId)
        return (.enrolled body.agentId none agentToken heartbeatIntervalSeconds,
          upsertDevice hashToken body.agentId agentToken { identity with createdFromRunId } now db) := by
  obtain ⟨token, hbearer, hfleet, hverify⟩ := h.bearing
  have hrun : site.bootstrapRunId token body.runId =
      if (given body.runId).any (· ≠ runId) then .error (.http 403 "token/run mismatch")
      else .ok (some runId) := by
    simp only [Site.bootstrapRunId, hfleet, hverify, bind, Except.bind]
    rfl
  simp only [Site.bootstrapAgent, hbearer, hrun, bind, Except.bind]
  by_cases hmatch : (given body.runId).any (· ≠ runId) = true
  · rw [if_pos hmatch, if_pos hmatch]
  · rw [if_neg hmatch, if_neg hmatch]
    simp only [orElse_of_match (Bool.not_eq_true _ ▸ hmatch), hfleet]
    rfl

theorem uuidColumn_ok {column : Option String} (h : site.uuidColumn (some runId) = .ok column) :
    ∃ run, site.uuid runId = some run ∧ column = some run := by
  cases hid : site.uuid runId with
  | none =>
    simp only [Site.uuidColumn, hid] at h
    cases h
  | some run =>
    simp only [Site.uuidColumn, hid] at h
    cases h
    exact ⟨run, rfl, rfl⟩

/-- What a token of a run can do: a request that names another run is refused. Otherwise the row
of the agent, new or taken over, is bound to the run, enabled and has the token of the answer;
no other row and no approval changes. -/
theorem run_token_takes_one_agent (h : RunScoped site authorization runId) :
    (∀ named, given body.runId = some named → named ≠ runId →
      site.bootstrapAgent hashToken publicSha256 body authorization agentToken approvalId now db =
        .error (.http 403 "token/run mismatch")) ∧
    ∀ response db',
      site.bootstrapAgent hashToken publicSha256 body authorization agentToken approvalId now db =
        .ok (response, db') →
      response = .enrolled body.agentId none agentToken heartbeatIntervalSeconds ∧
      db'.approvals = db.approvals ∧
      (∀ d, d.agentId ≠ body.agentId → (d ∈ db'.devices ↔ d ∈ db.devices)) ∧
      (∃ d ∈ db'.devices, d.agentId = body.agentId) ∧
      ∀ d ∈ db'.devices, d.agentId = body.agentId →
        (∃ run, site.uuid runId = some run ∧ d.identity.createdFromRunId = some run) ∧
        d.tokenHash = hashToken agentToken ∧ d.revoked = false := by
  constructor
  · intro named hnamed hne
    rw [bootstrapAgent_of_runScoped h, hnamed, if_pos]
    simpa using hne
  · intro response db' hok
    rw [bootstrapAgent_of_runScoped h] at hok
    split at hok
    · cases hok
    · cases hidentity : site.bootstrapIdentity body (some runId) with
      | error e => simp [hidentity, bind, Except.bind] at hok
      | ok identity =>
        cases hcolumn : site.uuidColumn (some runId) with
        | error e => simp [hidentity, hcolumn, bind, Except.bind] at hok
        | ok column =>
          simp only [hidentity, hcolumn, bind, Except.bind, pure, Except.pure, Except.ok.injEq,
            Prod.mk.injEq] at hok
          obtain ⟨rfl, rfl⟩ := hok
          obtain ⟨run, hrun, rfl⟩ := uuidColumn_ok hcolumn
          refine ⟨rfl, rfl, fun d hd => mem_upsertDevice_of_ne hd, exists_upsertDevice .., ?_⟩
          intro d hd hid
          rcases mem_upsertDevice hd with ⟨_, hne⟩ | ⟨_, hhash, hopen, old, hidentity⟩
          · exact absurd hid hne
          · refine ⟨⟨run, hrun, ?_⟩, hhash, hopen⟩
            rw [hidentity]
            rfl

end RunToken

def twoRuns : Site where
  fleetTokenSha256 := ""
  sha256 := id
  verify := fun token =>
    if token = "of-run-1" then .ok "run-1" else if token = "of-run-2" then .ok "run-2" else .error .tokenInvalid
  uuid := fun text => if text = "run-1" ∨ text = "run-2" then some text else none
  runs := fun id => if id = "run-1" ∨ id = "run-2" then some {} else none
  buildhostAutoApprovalMatches := fun _ _ _ => false

theorem runScoped_twoRuns : RunScoped twoRuns (some "Bearer of-run-2") "run-2" := by
  exact ⟨"of-run-2", by decide, rfl, rfl⟩

def revokedAgent : AgentDb String where
  devices :=
    [{ agentId := "agent-pc1", tokenHash := "t1", identity := { createdFromRunId := some "run-1" },
       revoked := true, createdAt := 0, firstSeenAt := 0, lastSeenAt := 0, tokenRotatedAt := 0 }]

def takenOver : AgentDb String :=
  upsertDevice id "agent-pc1" "t2" { createdFromRunId := some "run-2" } 5 revokedAgent

theorem bootstrap_revokedAgent :
    twoRuns.bootstrapAgent id id { agentId := "agent-pc1" } (some "Bearer of-run-2") "t2" 0 5 revokedAgent =
      .ok (.enrolled "agent-pc1" none "t2" 30, takenOver) := by
  rw [bootstrapAgent_of_runScoped runScoped_twoRuns]
  rfl

theorem second_run_takes_the_agent :
    RunScoped twoRuns (some "Bearer of-run-2") "run-2" ∧
    ∀ d ∈ takenOver.devices, d.agentId = "agent-pc1" →
      d.identity.createdFromRunId = some "run-2" ∧ d.tokenHash = "t2" ∧ d.revoked = false := by
  refine ⟨runScoped_twoRuns, ?_⟩
  intro d hd hid
  have h := (run_token_takes_one_agent runScoped_twoRuns).2 _ _ bootstrap_revokedAgent
  obtain ⟨⟨run, hrun, hcreated⟩, hhash, hopen⟩ := h.2.2.2.2 d hd hid
  cases hrun
  exact ⟨hcreated, hhash, hopen⟩

theorem second_run_changes_another_runs_agent :
    ¬ ∀ (δ : Type) (site : Site) (hashToken publicSha256 : String → δ) (body : BootstrapBody)
        (authorization : Option String) (runId : String) (agentToken : Token) (approvalId : Nat) (now : Time)
        (db db' : AgentDb δ) (response : BootstrapResponse), RunScoped site authorization runId →
      site.bootstrapAgent hashToken publicSha256 body authorization agentToken approvalId now db =
        .ok (response, db') →
      ∀ d ∈ db.devices, d.identity.createdFromRunId ≠ site.uuid runId → d ∈ db'.devices := by
  intro h
  have hkept := h String twoRuns id id _ _ _ _ _ _ _ _ _ runScoped_twoRuns bootstrap_revokedAgent
    _ (List.mem_singleton.mpr rfl) (by decide)
  have hhash : "t1" ∈ takenOver.devices.map Device.tokenHash := List.mem_map_of_mem hkept
  revert hhash
  decide

end ProxmoxVEAutopilot.Telemetry
