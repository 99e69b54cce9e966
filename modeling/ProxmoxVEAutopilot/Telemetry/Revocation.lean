import ProxmoxVEAutopilot.Foundation.Runs
import ProxmoxVEAutopilot.Telemetry.Devices

/-!
# Revocation

Revoking sets a flag beside the token hash. Every call that clears the flag also replaces
the hash, except `upsert_manual_agent` on an existing row, which hands a revoked token
its access back.
-/

namespace ProxmoxVEAutopilot.Telemetry

open Foundation
set_option autoImplicit false

inductive AgentCall where
  | upsertDevice (agentId : String) (token : Token) (identity : Identity) (now : Time)
  | createBootstrapApproval (approvalId : Nat) (bootstrapToken : Token) (agentId : String)
      (phase : Option String) (identity : Identity) (now : Time)
  | approveBootstrapApproval (approvalId : Nat) (token : Token) (now : Time)
  | claimBootstrapApproval (approvalId : Nat) (bootstrapToken : Token) (now : Time)
  | revokeAgent (agentId : String) (now : Time)
  | upsertManualAgent (agentId : String) (token : Token) (identity : Identity) (now : Time)
  | updateAgentMetadata (agentId : String) (identity : Identity) (now : Time)
  | updateAgentVersion (agentId version : String) (now : Time)
  | recordHeartbeat (agentId : String) (payload : Identity) (now : Time)
  | hardDeleteAgent (agentId : String)

/-- The database with its past: the tokens drawn, those issued to agents, and those that were
issued to an agent before it was revoked. -/
structure AgentHistory (δ : Type) where
  db : AgentDb δ := {}
  drawn : List Token := []
  issued : List (String × Token) := []
  withdrawn : List Token := []

namespace AgentCall

def drawn : AgentCall → List Token
  | .upsertDevice _ token _ _ | .approveBootstrapApproval _ token _ | .upsertManualAgent _ token _ _ =>
    [token]
  | _ => []

variable {δ : Type}

def issues (db : AgentDb δ) : AgentCall → List (String × Token)
  | .upsertDevice agentId token _ _ => [(agentId, token)]
  | .approveBootstrapApproval approvalId token _ =>
    match getBootstrapApproval approvalId db with
    | some pending => if pending.live then [(pending.agentId, token)] else []
    | none => []
  | _ => []

def withdraws (issued : List (String × Token)) : AgentCall → List Token
  | .revokeAgent agentId _ => (issued.filter fun p => p.1 = agentId).map Prod.snd
  | _ => []

variable [DecidableEq δ] (hashToken publicSha256 : String → δ)

def run (db : AgentDb δ) : AgentCall → AgentDb δ
  | .upsertDevice agentId token identity now => Telemetry.upsertDevice hashToken agentId token identity now db
  | .createBootstrapApproval approvalId bootstrapToken agentId phase identity now =>
    Telemetry.createBootstrapApproval publicSha256 approvalId bootstrapToken agentId phase identity now db
  | .approveBootstrapApproval approvalId token now =>
    Telemetry.approveBootstrapApproval hashToken approvalId token now db
  | .claimBootstrapApproval approvalId bootstrapToken now =>
    Telemetry.claimBootstrapApproval publicSha256 approvalId bootstrapToken now db
  | .revokeAgent agentId now => Telemetry.revokeAgent agentId now db
  | .upsertManualAgent agentId token identity now =>
    Telemetry.upsertManualAgent hashToken agentId token identity now db
  | .updateAgentMetadata agentId identity now => Telemetry.updateAgentMetadata agentId identity now db
  | .updateAgentVersion agentId version now => Telemetry.updateAgentVersion agentId version now db
  | .recordHeartbeat agentId payload now => Telemetry.recordHeartbeat agentId payload now db
  | .hardDeleteAgent agentId => Telemetry.hardDeleteAgent agentId db

end AgentCall

section History
variable {δ : Type} [DecidableEq δ] (hashToken publicSha256 : String → δ)

def AgentHistory.exec (w : AgentHistory δ) (c : AgentCall) : AgentHistory δ where
  db := c.run hashToken publicSha256 w.db
  drawn := c.drawn ++ w.drawn
  issued := c.issues w.db ++ w.issued
  withdrawn := c.withdraws w.issued ++ w.withdrawn

def Fresh (w : AgentHistory δ) (c : AgentCall) : Prop := ∀ token ∈ c.drawn, token ∉ w.drawn

instance (w : AgentHistory δ) (c : AgentCall) : Decidable (Fresh w c) :=
  inferInstanceAs (Decidable (∀ _ ∈ _, _))

/-- No token that was issued to an agent before it was revoked is accepted. -/
def RevocationEffective (w : AgentHistory δ) : Prop :=
  ∀ token ∈ w.withdrawn, validateAgentToken hashToken token w.db = none

/-- `upsert_manual_agent` is not called for an agent whose row is revoked and still has the hash
of a token that was issued to the agent. -/
def SparesRevoked (w : AgentHistory δ) : AgentCall → Prop
  | .upsertManualAgent agentId _ _ _ =>
    ∀ d ∈ w.db.devices, d.agentId = agentId → d.revoked = true →
      ∀ token, (agentId, token) ∈ w.issued → d.tokenHash ≠ hashToken token
  | _ => True

end History

section Rows
variable {δ : Type} {hashToken publicSha256 : String → δ} {w : AgentHistory δ}
  {c : AgentCall} {d d' : Device δ}

/-- Where a row of `agent_devices` comes from after a call. -/
inductive Origin (hashToken : String → δ) (w : AgentHistory δ) (c : AgentCall) (d' : Device δ) : Prop where
  | kept (d : Device δ) : d ∈ w.db.devices → d'.agentId = d.agentId → d'.tokenHash = d.tokenHash →
      d'.revoked = d.revoked → (∀ now, c ≠ .revokeAgent d.agentId now) → Origin hashToken w c d'
  | issued (token : Token) : token ∈ c.drawn → (∀ p ∈ c.issues w.db, p = (d'.agentId, token)) →
      d'.tokenHash = hashToken token → d'.revoked = false → Origin hashToken w c d'
  | revoked (d : Device δ) (now : Time) : d ∈ w.db.devices → c = .revokeAgent d.agentId now →
      d'.agentId = d.agentId → d'.tokenHash = d.tokenHash → d'.revoked = true → Origin hashToken w c d'
  | enabled (d : Device δ) (token : Token) (identity : Identity) (now : Time) : d ∈ w.db.devices →
      c = .upsertManualAgent d.agentId token identity now → d'.agentId = d.agentId →
      d'.tokenHash = d.tokenHash → d'.revoked = false → Origin hashToken w c d'

theorem Origin.of_mem (h : d ∈ w.db.devices) (hc : ∀ now, c ≠ .revokeAgent d.agentId now) :
    Origin hashToken w c d :=
  .kept d h rfl rfl rfl hc

theorem Origin.of_modify {agentId : String} {f : Device δ → Device δ}
    (h : d' ∈ Table.modify Device.agentId w.db.devices agentId f)
    (hf : ∀ d, (f d).agentId = d.agentId ∧ (f d).tokenHash = d.tokenHash ∧ (f d).revoked = d.revoked)
    (hc : ∀ id now, c ≠ .revokeAgent id now) : Origin hashToken w c d' := by
  rcases Table.mem_modify.mp h with ⟨hd, _⟩ | ⟨old, hold, _, rfl⟩
  · exact .of_mem hd (hc _)
  · exact .kept old hold (hf old).1 (hf old).2.1 (hf old).2.2 (hc _)

theorem Origin.of_upsertDevice {agentId : String} {token : Token} {identity : Identity} {now : Time}
    (h : d' ∈ (upsertDevice hashToken agentId token identity now w.db).devices)
    (hdrawn : token ∈ c.drawn) (hissues : ∀ p ∈ c.issues w.db, p = (agentId, token))
    (hc : ∀ id now, c ≠ .revokeAgent id now) : Origin hashToken w c d' := by
  rcases Table.mem_upsert.mp h with ⟨hd, _⟩ | ⟨old, _, hkey, rfl⟩ | ⟨_, rfl⟩
  · exact .of_mem hd (hc _)
  · refine .issued token hdrawn ?_ rfl rfl
    intro p hp
    have hid : old.agentId = agentId := hkey
    rw [hissues p hp, hid]
  · exact .issued token hdrawn hissues rfl rfl

variable [DecidableEq δ]

theorem origin_of_mem_run (h : d' ∈ (c.run hashToken publicSha256 w.db).devices) :
    Origin hashToken w c d' := by
  cases c with
  | upsertDevice agentId token identity now =>
    exact .of_upsertDevice h (by simp [AgentCall.drawn]) (by simp [AgentCall.issues])
      fun _ _ hc => by cases hc
  | createBootstrapApproval approvalId bootstrapToken agentId phase identity now =>
    have hd : d' ∈ w.db.devices := by
      simp only [AgentCall.run, createBootstrapApproval] at h
      split at h <;> exact h
    exact .of_mem hd fun _ hc => by cases hc
  | approveBootstrapApproval approvalId token now =>
    simp only [AgentCall.run, approveBootstrapApproval] at h
    cases hget : getBootstrapApproval approvalId w.db with
    | none =>
      rw [hget] at h
      exact .of_mem h fun _ hc => by cases hc
    | some pending =>
      rw [hget] at h
      simp only at h
      split at h
      · rename_i hlive
        exact .of_upsertDevice h (by simp [AgentCall.drawn]) (by simp [AgentCall.issues, hget, hlive])
          fun _ _ hc => by cases hc
      · exact .of_mem h fun _ hc => by cases hc
  | claimBootstrapApproval approvalId bootstrapToken now =>
    have hd : d' ∈ w.db.devices := by
      simp only [AgentCall.run, claimBootstrapApproval] at h
      split at h
      · exact h
      · split at h <;> exact h
    exact .of_mem hd fun _ hc => by cases hc
  | revokeAgent agentId now =>
    rcases Table.mem_modify.mp h with ⟨hd, hne⟩ | ⟨old, hold, rfl, rfl⟩
    · exact .of_mem hd fun _ hc => hne (by cases hc; rfl)
    · exact .revoked old now hold rfl rfl rfl rfl
  | upsertManualAgent agentId token identity now =>
    rcases Table.mem_upsert.mp h with ⟨hd, _⟩ | ⟨old, hold, hkey, rfl⟩ | ⟨_, rfl⟩
    · exact .of_mem hd fun _ hc => by cases hc
    · have hid : old.agentId = agentId := hkey
      subst hid
      exact .enabled old token identity now hold rfl rfl rfl rfl
    · exact .issued token (by simp [AgentCall.drawn]) (by simp [AgentCall.issues]) rfl rfl
  | updateAgentMetadata agentId identity now =>
    exact .of_modify h (fun _ => ⟨rfl, rfl, rfl⟩) fun _ _ hc => by cases hc
  | updateAgentVersion agentId version now =>
    exact .of_modify h (fun _ => ⟨rfl, rfl, rfl⟩) fun _ _ hc => by cases hc
  | recordHeartbeat agentId payload now =>
    simp only [AgentCall.run, recordHeartbeat] at h
    split at h
    · exact .of_modify h (fun _ => ⟨rfl, rfl, rfl⟩) fun _ _ hc => by cases hc
    · exact .of_mem h fun _ hc => by cases hc
  | hardDeleteAgent agentId =>
    have hd : d' ∈ w.db.devices := by
      simp only [AgentCall.run, hardDeleteAgent] at h
      split at h
      · exact (Table.mem_delete.mp h).1
      · exact h
    exact .of_mem hd fun _ hc => by cases hc

end Rows

section Tracking
variable {δ : Type} {hashToken publicSha256 : String → δ} {w : AgentHistory δ}
  {c : AgentCall}

/-- How the rows and the past fit together, whatever the calls were. -/
structure Tracked (hashToken : String → δ) (w : AgentHistory δ) : Prop where
  hashed : ∀ d ∈ w.db.devices, ∃ token ∈ w.drawn, d.tokenHash = hashToken token
  issuedDrawn : ∀ p ∈ w.issued, p.2 ∈ w.drawn
  owner : ∀ d ∈ w.db.devices, ∀ p ∈ w.issued, d.tokenHash = hashToken p.2 → d.agentId = p.1
  withdrawnIssued : ∀ token ∈ w.withdrawn, ∃ agentId, (agentId, token) ∈ w.issued
  revokedWithdrawn : ∀ d ∈ w.db.devices, d.revoked = true → ∀ token, (d.agentId, token) ∈ w.issued →
    d.tokenHash = hashToken token → token ∈ w.withdrawn

theorem tracked_empty (hashToken : String → δ) : Tracked hashToken {} := by
  constructor <;> simp

theorem AgentCall.issues_drawn {db : AgentDb δ} {p : String × Token} (h : p ∈ c.issues db) :
    p.2 ∈ c.drawn := by
  cases c with
  | upsertDevice =>
    simp only [AgentCall.issues, List.mem_singleton] at h
    simp [AgentCall.drawn, h]
  | approveBootstrapApproval =>
    simp only [AgentCall.issues] at h
    split at h
    · split at h
      · simp only [List.mem_singleton] at h
        simp [AgentCall.drawn, h]
      · simp at h
    · simp at h
  | _ => simp [AgentCall.issues] at h

theorem AgentCall.mem_withdraws {issued : List (String × Token)} {token : Token} :
    token ∈ c.withdraws issued ↔ ∃ agentId now, c = .revokeAgent agentId now ∧ (agentId, token) ∈ issued := by
  cases c with
  | revokeAgent agentId now => simp [AgentCall.withdraws]
  | _ => simp [AgentCall.withdraws]

variable (hinj : Function.Injective hashToken)
include hinj

theorem Tracked.hash_ne (h : Tracked hashToken w) {d : Device δ} (hd : d ∈ w.db.devices) {token : Token}
    (hfresh : token ∉ w.drawn) : d.tokenHash ≠ hashToken token := by
  intro heq
  obtain ⟨old, hold, hhash⟩ := h.hashed d hd
  rw [hhash] at heq
  exact hfresh (hinj heq ▸ hold)

variable [DecidableEq δ]

theorem Tracked.exec (h : Tracked hashToken w) (hfresh : Fresh w c) :
    Tracked hashToken (w.exec hashToken publicSha256 c) := by
  have hnew : ∀ p ∈ c.issues w.db, p.2 ∉ w.drawn := fun p hp => hfresh _ (AgentCall.issues_drawn hp)
  have horigin : ∀ d' ∈ (w.exec hashToken publicSha256 c).db.devices, Origin hashToken w c d' :=
    fun d' hd' => origin_of_mem_run hd'
  -- The owner of an old row, with the tokens issued now.
  have howner : ∀ d ∈ w.db.devices, ∀ p ∈ c.issues w.db ++ w.issued, d.tokenHash = hashToken p.2 →
      d.agentId = p.1 ∧ p ∈ w.issued := by
    intro d hd p hp hhash
    rcases List.mem_append.mp hp with hp | hp
    · exact absurd hhash (h.hash_ne hinj hd (hnew p hp))
    · exact ⟨h.owner d hd p hp hhash, hp⟩
  constructor
  · intro d' hd'
    cases horigin d' hd' with
    | kept d hd _ hhash | revoked d _ hd _ _ hhash | enabled d _ _ _ hd _ _ hhash =>
      obtain ⟨token, htoken, heq⟩ := h.hashed d hd
      exact ⟨token, List.mem_append_right _ htoken, hhash.trans heq⟩
    | issued token htoken _ hhash => exact ⟨token, List.mem_append_left _ htoken, hhash⟩
  · intro p hp
    rcases List.mem_append.mp hp with hp | hp
    · exact List.mem_append_left _ (AgentCall.issues_drawn hp)
    · exact List.mem_append_right _ (h.issuedDrawn p hp)
  · intro d' hd' p hp hhash'
    cases horigin d' hd' with
    | kept d hd hid hhash | revoked d _ hd _ hid hhash | enabled d _ _ _ hd _ hid hhash =>
      rw [hid]
      exact (howner d hd p hp (hhash.symm.trans hhash')).1
    | issued token htoken hissues hhash =>
      rcases List.mem_append.mp hp with hp | hp
      · rw [hissues p hp]
      · have htok : token = p.2 := hinj (hhash.symm.trans hhash')
        exact absurd (htok ▸ h.issuedDrawn p hp) (hfresh token htoken)
  · intro token htoken
    rcases List.mem_append.mp htoken with htoken | htoken
    · obtain ⟨agentId, now, _, hissued⟩ := AgentCall.mem_withdraws.mp htoken
      exact ⟨agentId, List.mem_append_right _ hissued⟩
    · obtain ⟨agentId, hissued⟩ := h.withdrawnIssued token htoken
      exact ⟨agentId, List.mem_append_right _ hissued⟩
  · intro d' hd' hrevoked token hissued hhash'
    cases horigin d' hd' with
    | kept d hd hid hhash hflag =>
      obtain ⟨_, hold⟩ := howner d hd _ hissued (hhash.symm.trans hhash')
      rw [hid] at hold
      apply List.mem_append_right
      exact h.revokedWithdrawn d hd (hflag ▸ hrevoked) token hold (hhash.symm.trans hhash')
    | issued _ _ _ _ hflag => rw [hflag] at hrevoked; cases hrevoked
    | revoked d now hd hc hid hhash =>
      obtain ⟨_, hold⟩ := howner d hd _ hissued (hhash.symm.trans hhash')
      rw [hid] at hold
      exact List.mem_append_left _ (AgentCall.mem_withdraws.mpr ⟨d.agentId, now, hc, hold⟩)
    | enabled _ _ _ _ _ _ _ _ hflag => rw [hflag] at hrevoked; cases hrevoked

theorem effective_exec_iff (h : Tracked hashToken w) (heff : RevocationEffective hashToken w)
    (hfresh : Fresh w c) :
    RevocationEffective hashToken (w.exec hashToken publicSha256 c) ↔ SparesRevoked hashToken w c := by
  have hflag : ∀ token ∈ w.withdrawn, ∀ d ∈ w.db.devices, d.tokenHash = hashToken token →
      d.revoked = true := by
    intro token htoken d hd hhash
    have hnone := List.find?_eq_none.mp (heff token htoken) d hd
    simpa [hhash] using hnone
  constructor
  · intro hafter
    cases c with
    | upsertManualAgent agentId token identity now =>
      intro d hd hid hrevoked old hissued hhash
      subst hid
      have hwithdrawn := h.revokedWithdrawn d hd hrevoked old hissued hhash
      -- The row with its flag cleared.
      have hrow := List.find?_eq_none.mp (hafter old (List.mem_append_right _ hwithdrawn)) _
        (Table.mem_upsert.mpr (.inr (.inl ⟨d, hd, rfl, rfl⟩)))
      simp [hhash] at hrow
    | _ => trivial
  · intro hspares token htoken
    apply List.find?_eq_none.mpr
    intro d' hd' haccept
    simp only [decide_eq_true_eq] at haccept
    obtain ⟨hhash', hopen⟩ := haccept
    have hissued : ∃ agentId, (agentId, token) ∈ w.issued := by
      rcases List.mem_append.mp htoken with htoken | htoken
      · obtain ⟨agentId, _, _, hissued⟩ := AgentCall.mem_withdraws.mp htoken
        exact ⟨agentId, hissued⟩
      · exact h.withdrawnIssued token htoken
    obtain ⟨agentId, hissued⟩ := hissued
    have hold : ∀ d ∈ w.db.devices, d.tokenHash = hashToken token → d.agentId = agentId :=
      fun d hd hhash => h.owner d hd _ hissued hhash
    cases origin_of_mem_run hd' with
    | kept d hd _ hhash hsame hnot =>
      rw [hsame] at hopen
      have hdhash := hhash.symm.trans hhash'
      rcases List.mem_append.mp htoken with htoken | htoken
      · obtain ⟨revoked, now, hc, hrevoked⟩ := AgentCall.mem_withdraws.mp htoken
        have hdid : d.agentId = revoked := h.owner d hd _ hrevoked hdhash
        exact hnot now (hdid ▸ hc)
      · rw [hflag token htoken d hd hdhash] at hopen
        cases hopen
    | issued new hnew _ hhash =>
      have heq : new = token := hinj (hhash.symm.trans hhash')
      exact hfresh new hnew (heq ▸ h.issuedDrawn _ hissued)
    | revoked _ _ _ _ _ _ hclosed => rw [hclosed] at hopen; cases hopen
    | enabled d new identity now hd hc _ hhash =>
      subst hc
      have hdhash := hhash.symm.trans hhash'
      rcases List.mem_append.mp htoken with htoken | htoken
      · obtain ⟨_, _, hc, _⟩ := AgentCall.mem_withdraws.mp htoken
        cases hc
      · refine hspares d hd rfl (hflag token htoken d hd hdhash) token ?_ hdhash
        rw [hold d hd hdhash]
        exact hissued

theorem effective_history_iff {calls : List AgentCall} : ∀ {w : AgentHistory δ}, Tracked hashToken w →
    RevocationEffective hashToken w →
    Replays Fresh (AgentHistory.exec hashToken publicSha256) w calls →
    ((∀ before, before <+: calls →
        RevocationEffective hashToken (before.foldl (AgentHistory.exec hashToken publicSha256) w)) ↔
      Replays (SparesRevoked hashToken) (AgentHistory.exec hashToken publicSha256) w calls) := by
  induction calls with
  | nil =>
    intro w _ heff _
    constructor
    · exact fun _ => trivial
    · intro _ before hbefore
      rw [List.prefix_nil.mp hbefore]
      exact heff
  | cons c calls ih =>
    intro w htracked heff hfresh
    have hstep : RevocationEffective hashToken (w.exec hashToken publicSha256 c) ↔
        SparesRevoked hashToken w c := effective_exec_iff hinj htracked heff hfresh.1
    have htracked' : Tracked hashToken (w.exec hashToken publicSha256 c) := htracked.exec hinj hfresh.1
    constructor
    · intro h
      have hfirst := h [c] (by simp)
      refine ⟨hstep.mp hfirst, (ih htracked' hfirst hfresh.2).mp ?_⟩
      intro before hbefore
      exact h (c :: before) (List.prefix_cons_inj c |>.mpr hbefore)
    · intro h before hbefore
      have hfirst := hstep.mpr h.1
      cases before with
      | nil => exact heff
      | cons b before =>
        obtain ⟨rfl, hrest⟩ := List.cons_prefix_cons.mp hbefore
        exact (ih htracked' hfirst hfresh.2).mpr h.2 before hrest

end Tracking

section Theorems
variable {δ : Type} [DecidableEq δ]

/-- In a history of calls with fresh tokens, revocation is effective at every moment if and only
if no call to `upsert_manual_agent` meets a revoked row with the token that was issued for it. -/
theorem revocation_effective_iff {hashToken : String → δ} (publicSha256 : String → δ)
    (hinj : Function.Injective hashToken) (calls : List AgentCall)
    (hfresh : Replays Fresh (AgentHistory.exec hashToken publicSha256) {} calls) :
    (∀ before, before <+: calls →
        RevocationEffective hashToken (before.foldl (AgentHistory.exec hashToken publicSha256) {})) ↔
      Replays (SparesRevoked hashToken) (AgentHistory.exec hashToken publicSha256) {} calls := by
  apply effective_history_iff hinj (tracked_empty hashToken) ?_ hfresh
  intro token htoken
  cases htoken

end Theorems

def reenrolled : List AgentCall :=
  [.upsertDevice "agent-pc1" "t1" {} 0, .revokeAgent "agent-pc1" 1, .upsertDevice "agent-pc1" "t2" {} 2]

theorem reenrolling_keeps_the_old_token_out :
    validateAgentToken id "t1" (reenrolled.foldl (AgentHistory.exec id id) {}).db = none := by
  have hfresh : Replays Fresh (AgentHistory.exec id id) {} reenrolled := by decide
  have hspares : Replays (SparesRevoked id) (AgentHistory.exec id id) {} reenrolled := by
    exact ⟨trivial, trivial, trivial, trivial⟩
  have h := (revocation_effective_iff id Function.injective_id reenrolled hfresh).mpr hspares
  exact h reenrolled List.prefix_rfl "t1" (by decide)

def recreatedByHand : List AgentCall :=
  [.upsertDevice "agent-pc1" "t1" {} 0, .revokeAgent "agent-pc1" 1, .upsertManualAgent "agent-pc1" "t2" {} 2]

theorem recreating_lets_the_revoked_token_in :
    ¬ ∀ (δ : Type) [DecidableEq δ] (hashToken publicSha256 : String → δ) (calls : List AgentCall),
      Function.Injective hashToken →
      Replays Fresh (AgentHistory.exec hashToken publicSha256) {} calls →
      RevocationEffective hashToken (calls.foldl (AgentHistory.exec hashToken publicSha256) {}) := by
  intro h
  have hfresh : Replays Fresh (AgentHistory.exec (id : String → String) id) {} recreatedByHand := by decide
  have hnone := h String id id recreatedByHand Function.injective_id hfresh "t1" (by decide)
  have hsome : (validateAgentToken id "t1"
      (recreatedByHand.foldl (AgentHistory.exec id id) {}).db).isSome = true := by decide
  rw [hnone] at hsome
  cases hsome

end ProxmoxVEAutopilot.Telemetry
