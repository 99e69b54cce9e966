import ProxmoxVEAutopilot.Foundation.Lists
import ProxmoxVEAutopilot.Foundation.Runs
import ProxmoxVEAutopilot.Telemetry.Devices

/-!
# Concurrent approvals

`approve_bootstrap_approval` reads the approval, commits the new token to the device and
commits it to the approval, in this order and without a lock. Calls on one approval can
interleave, and the last token stored need not be the last one the device got.
-/

namespace ProxmoxVEAutopilot.Telemetry

open Foundation
set_option autoImplicit false

inductive Approving (δ : Type) where
  | idle
  | read (token : Token) (pending : Approval δ) (now : Time)
  | upserted (token : Token) (pending : Approval δ) (now : Time)

inductive ApprovalAction where
  | approve (approvalId : Nat) (token : Token) (now : Time)
  | next (now : Time)
  | createBootstrapApproval (approvalId : Nat) (bootstrapToken : Token) (agentId : String)
      (phase : Option String) (identity : Identity) (now : Time)
  | claimBootstrapApproval (approvalId : Nat) (bootstrapToken : Token) (now : Time)

structure Approvals (δ τ : Type) where
  db : AgentDb δ
  drawn : List Token
  calls : τ → Approving δ

namespace Approvals
variable {δ τ : Type} [DecidableEq δ] [DecidableEq τ] (hashToken publicSha256 : String → δ)

def act (w : Approvals δ τ) (t : τ) (a : ApprovalAction) : Option (Approvals δ τ) :=
  match w.calls t, a with
  | .idle, .approve approvalId token now =>
    if token ∈ w.drawn then none
    else
      match getBootstrapApproval approvalId w.db with
      | none => some { w with drawn := token :: w.drawn }
      | some pending =>
        if pending.live then
          some { w with
            drawn := token :: w.drawn
            calls := Function.update w.calls t (.read token pending now) }
        else some { w with drawn := token :: w.drawn }
  | .read token pending start, .next now =>
    some { w with
      db := upsertDevice hashToken pending.agentId token pending.identity now w.db
      calls := Function.update w.calls t (.upserted token pending start) }
  | .upserted token pending start, .next _ =>
    some { w with
      db := storeAgentToken pending.approvalId token start w.db
      calls := Function.update w.calls t .idle }
  | .idle, .createBootstrapApproval approvalId bootstrapToken agentId phase identity now =>
    if approvalId ∈ w.db.approvals.map Approval.approvalId then none
    else some { w with
      db := Telemetry.createBootstrapApproval publicSha256 approvalId bootstrapToken agentId phase identity now w.db }
  | .idle, .claimBootstrapApproval approvalId bootstrapToken now =>
    some { w with db := Telemetry.claimBootstrapApproval publicSha256 approvalId bootstrapToken now w.db }
  | _, _ => none

end Approvals

section Properties
variable {δ τ : Type} (hashToken : String → δ)

/-- The device of the agent is enabled with this token. -/
def Holds (db : AgentDb δ) (agentId : String) (token : Token) : Prop :=
  ∃ d ∈ db.devices, d.agentId = agentId ∧ d.tokenHash = hashToken token ∧ d.revoked = false

/-- A call on the approval has given the device the token it has now, and is still to store it. -/
def AboutToStore (w : Approvals δ τ) (u : τ) (approvalId : Nat) (agentId : String) : Prop :=
  ∃ token pending start, w.calls u = .upserted token pending start ∧
    pending.approvalId = approvalId ∧ Holds hashToken w.db agentId token

/-- When a call stores its token, the device has this token, or that of another call that is
still to store it in the same approval. -/
def StoresInTurn (w : Approvals δ τ) (t : τ) : Prop :=
  match w.calls t with
  | .upserted token pending _ =>
    Holds hashToken w.db pending.agentId token ∨
      ∃ u, u ≠ t ∧ AboutToStore hashToken w u pending.approvalId pending.agentId
  | _ => True

def ApprovedTokensWork [DecidableEq δ] (db : AgentDb δ) : Prop :=
  ∀ a ∈ db.approvals, a.status = .approved → ∃ token, a.agentToken = some token ∧
    ∃ d, validateAgentToken hashToken token db = some d ∧ d.agentId = a.agentId

/-- No call in flight; the keys of both tables hold, device hashes come from drawn tokens, and
approved tokens work. -/
structure Approvals.Start [DecidableEq δ] (w : Approvals δ τ) : Prop where
  idle : ∀ t, w.calls t = .idle
  ids : (w.db.approvals.map Approval.approvalId).Nodup
  agents : ∀ a ∈ w.db.approvals, ∀ b ∈ w.db.approvals, a.live = true → b.live = true →
    a.agentId = b.agentId → a.approvalId = b.approvalId
  hashed : ∀ d ∈ w.db.devices, ∃ token ∈ w.drawn, d.tokenHash = hashToken token
  owners : ∀ d ∈ w.db.devices, ∀ e ∈ w.db.devices, d.tokenHash = e.tokenHash → d.agentId = e.agentId
  working : ApprovedTokensWork hashToken w.db

end Properties

section Invariant
variable {δ τ : Type} {hashToken : String → δ} {w : Approvals δ τ}

def Approving.inFlight : Approving δ → Option (Token × Approval δ)
  | .idle => none
  | .read token pending _ | .upserted token pending _ => some (token, pending)

/-- What holds between the tables and the calls in flight. -/
structure Coordinated (hashToken : String → δ) (w : Approvals δ τ) : Prop where
  ids : (w.db.approvals.map Approval.approvalId).Nodup
  agents : ∀ a ∈ w.db.approvals, ∀ b ∈ w.db.approvals, a.live = true → b.live = true →
    a.agentId = b.agentId → a.approvalId = b.approvalId
  hashed : ∀ d ∈ w.db.devices, ∃ token ∈ w.drawn, d.tokenHash = hashToken token
  owners : ∀ d ∈ w.db.devices, ∀ e ∈ w.db.devices, d.tokenHash = e.tokenHash → d.agentId = e.agentId
  calls : ∀ t c, (w.calls t).inFlight = some c → c.1 ∈ w.drawn ∧
    ∃ a ∈ w.db.approvals, a.approvalId = c.2.approvalId ∧ a.agentId = c.2.agentId ∧ a.live = true
  distinct : ∀ t u c c', t ≠ u → (w.calls t).inFlight = some c → (w.calls u).inFlight = some c' → c.1 ≠ c'.1
  unused : ∀ t token pending now, w.calls t = .read token pending now →
    ∀ d ∈ w.db.devices, d.tokenHash ≠ hashToken token
  stored : ∀ a ∈ w.db.approvals, a.status = .approved →
    (∃ token, a.agentToken = some token ∧ Holds hashToken w.db a.agentId token) ∨
      ∃ u, AboutToStore hashToken w u a.approvalId a.agentId

def Approval.core (a : Approval δ) : Nat × String × ApprovalStatus × Option Token :=
  (a.approvalId, a.agentId, a.status, a.agentToken)

theorem Approval.core_eq {a b : Approval δ} (h : a.core = b.core) :
    a.approvalId = b.approvalId ∧ a.agentId = b.agentId ∧ a.status = b.status ∧
      a.agentToken = b.agentToken ∧ a.live = b.live := by
  simp only [Approval.core, Prod.mk.injEq] at h
  exact ⟨h.1, h.2.1, h.2.2.1, h.2.2.2, by simp [Approval.live, h.2.2.1]⟩

theorem AboutToStore.of_devices {w w' : Approvals δ τ} {u : τ} {approvalId : Nat} {agentId : String}
    (h : AboutToStore hashToken w u approvalId agentId) (hcall : w'.calls u = w.calls u)
    (hdevices : w'.db.devices = w.db.devices) : AboutToStore hashToken w' u approvalId agentId := by
  obtain ⟨token, pending, start, hu, hid, hholds⟩ := h
  refine ⟨token, pending, start, hcall.trans hu, hid, ?_⟩
  unfold Holds at hholds ⊢
  rw [hdevices]
  exact hholds

theorem Coordinated.refresh (h : Coordinated hashToken w) {f : Approval δ → Approval δ}
    (hf : ∀ a, (f a).core = a.core) :
    Coordinated hashToken { w with db := { w.db with approvals := w.db.approvals.map f } } := by
  refine ⟨?_, ?_, h.hashed, h.owners, ?_, h.distinct, h.unused, ?_⟩
  · have hids : (w.db.approvals.map f).map Approval.approvalId = w.db.approvals.map Approval.approvalId := by
      rw [List.map_map]
      apply List.map_congr_left
      intro a _
      exact (Approval.core_eq (hf a)).1
    rw [hids]
    exact h.ids
  · intro a' ha' b' hb' hla hlb hagent
    obtain ⟨a, ha, rfl⟩ := List.mem_map.mp ha'
    obtain ⟨b, hb, rfl⟩ := List.mem_map.mp hb'
    obtain ⟨haid, haagent, _, _, halive⟩ := Approval.core_eq (hf a)
    obtain ⟨hbid, hbagent, _, _, hblive⟩ := Approval.core_eq (hf b)
    rw [haid, hbid]
    exact h.agents a ha b hb (halive ▸ hla) (hblive ▸ hlb) (by rw [← haagent, ← hbagent, hagent])
  · intro t c hc
    obtain ⟨hdrawn, a, ha, hid, hagent, hlive⟩ := h.calls t c hc
    obtain ⟨haid, haagent, _, _, halive⟩ := Approval.core_eq (hf a)
    exact ⟨hdrawn, f a, List.mem_map_of_mem ha, haid.trans hid, haagent.trans hagent, halive.trans hlive⟩
  · intro a' ha' happroved
    obtain ⟨a, ha, rfl⟩ := List.mem_map.mp ha'
    obtain ⟨haid, haagent, hastatus, hatoken, _⟩ := Approval.core_eq (hf a)
    rw [haid, haagent, hatoken]
    exact h.stored a ha (hastatus ▸ happroved)

theorem Coordinated.addPending (h : Coordinated hashToken w) {new : Approval δ}
    (hid : new.approvalId ∉ w.db.approvals.map Approval.approvalId) (hstatus : new.status = .pending)
    (hnone : ∀ a ∈ w.db.approvals, a.agentId = new.agentId → a.live = false) :
    Coordinated hashToken { w with db := { w.db with approvals := w.db.approvals ++ [new] } } := by
  refine ⟨?_, ?_, h.hashed, h.owners, ?_, h.distinct, h.unused, ?_⟩
  · apply nodup_map_snoc h.ids
    intro a ha heq
    exact hid (heq ▸ List.mem_map_of_mem ha)
  · intro a ha b hb hla hlb hagent
    rcases List.mem_append.mp ha with ha | ha
    · rcases List.mem_append.mp hb with hb | hb
      · exact h.agents a ha b hb hla hlb hagent
      · rw [List.mem_singleton.mp hb] at hagent
        rw [hnone a ha hagent] at hla
        cases hla
    · rw [List.mem_singleton.mp ha] at hagent ⊢
      rcases List.mem_append.mp hb with hb | hb
      · rw [hnone b hb hagent.symm] at hlb
        cases hlb
      · rw [List.mem_singleton.mp hb]
  · intro t c hc
    obtain ⟨hdrawn, a, ha, hrest⟩ := h.calls t c hc
    exact ⟨hdrawn, a, List.mem_append_left _ ha, hrest⟩
  · intro a ha happroved
    rcases List.mem_append.mp ha with ha | ha
    · exact h.stored a ha happroved
    · rw [List.mem_singleton.mp ha, hstatus] at happroved
      cases happroved

theorem Coordinated.draw (h : Coordinated hashToken w) (token : Token) :
    Coordinated hashToken { w with drawn := token :: w.drawn } := by
  refine ⟨h.ids, h.agents, ?_, h.owners, ?_, h.distinct, h.unused, h.stored⟩
  · intro d hd
    obtain ⟨old, hold, hhash⟩ := h.hashed d hd
    exact ⟨old, List.mem_cons_of_mem _ hold, hhash⟩
  · intro t c hc
    obtain ⟨hdrawn, hrest⟩ := h.calls t c hc
    exact ⟨List.mem_cons_of_mem _ hdrawn, hrest⟩

variable [DecidableEq τ] {t : τ}

/-- A call starts: its token is on no device and in no other call. -/
theorem Coordinated.begin (h : Coordinated hashToken w) (hinj : Function.Injective hashToken)
    (hidle : w.calls t = .idle) {token : Token} (hfresh : token ∉ w.drawn) {pending : Approval δ}
    (hmem : pending ∈ w.db.approvals) (hlive : pending.live = true) (now : Time) :
    Coordinated hashToken { w with
      drawn := token :: w.drawn
      calls := Function.update w.calls t (.read token pending now) } := by
  have hdraw := h.draw token
  refine ⟨h.ids, h.agents, hdraw.hashed, h.owners, ?_, ?_, ?_, ?_⟩
  · intro u c hc
    by_cases hu : u = t
    · subst hu
      simp only [Function.update_self, Approving.inFlight, Option.some.injEq] at hc
      subst hc
      exact ⟨List.mem_cons_self, pending, hmem, rfl, rfl, hlive⟩
    · simp only [Function.update_of_ne hu] at hc
      exact hdraw.calls u c hc
  · intro u v c c' huv hc hc'
    have hother : ∀ x y, x ≠ t → (w.calls x).inFlight = some y → y.1 ≠ token := by
      intro x y _ hy heq
      exact hfresh (heq ▸ (h.calls x y hy).1)
    by_cases hu : u = t
    · have hv : v ≠ t := fun hv => huv (hu.trans hv.symm)
      subst hu
      simp only [Function.update_self, Approving.inFlight, Option.some.injEq] at hc
      simp only [Function.update_of_ne hv] at hc'
      rw [← hc]
      exact (hother v c' hv hc').symm
    · simp only [Function.update_of_ne hu] at hc
      by_cases hv : v = t
      · subst hv
        simp only [Function.update_self, Approving.inFlight, Option.some.injEq] at hc'
        rw [← hc']
        exact hother u c hu hc
      · simp only [Function.update_of_ne hv] at hc'
        exact h.distinct u v c c' huv hc hc'
  · intro u tok pend start hu d hd hhash
    by_cases hut : u = t
    · subst hut
      simp only [Function.update_self, Approving.read.injEq] at hu
      obtain ⟨old, hold, hold'⟩ := h.hashed d hd
      rw [← hu.1, hold'] at hhash
      exact hfresh (hinj hhash ▸ hold)
    · simp only [Function.update_of_ne hut] at hu
      exact h.unused u tok pend start hu d hd hhash
  · intro a ha happroved
    rcases h.stored a ha happroved with hown | ⟨u, hu⟩
    · exact .inl hown
    · right
      refine ⟨u, hu.of_devices ?_ rfl⟩
      have hut : u ≠ t := by
        intro heq
        obtain ⟨_, _, _, hcall, _⟩ := hu
        rw [heq, hidle] at hcall
        cases hcall
      exact Function.update_of_ne hut _ _

end Invariant

section Upsert
variable {δ : Type} {hashToken : String → δ} {db : AgentDb δ} {agentId : String} {token : Token}
  {identity : Identity} {now : Time}

theorem holds_upsertDevice :
    Holds hashToken (upsertDevice hashToken agentId token identity now db) agentId token := by
  obtain ⟨d, hd, hid⟩ := exists_upsertDevice hashToken agentId token identity now db
  rcases mem_upsertDevice hd with ⟨_, hne⟩ | ⟨_, hhash, hopen, _⟩
  · exact absurd hid hne
  · exact ⟨d, hd, hid, hhash, hopen⟩

theorem Holds.upsertDevice {other : String} {x : Token} (h : Holds hashToken db other x)
    (hne : other ≠ agentId) :
    Holds hashToken (upsertDevice hashToken agentId token identity now db) other x := by
  obtain ⟨d, hd, hid, hrest⟩ := h
  refine ⟨d, Table.mem_upsert.mpr (.inl ⟨hd, ?_⟩), hid, hrest⟩
  rw [hid]
  exact hne

end Upsert

section Parts
variable {δ τ : Type} {hashToken : String → δ} {w : Approvals δ τ} {t : τ}
  {token : Token} {pending : Approval δ} {start : Time}

theorem Coordinated.approval_of_agent (h : Coordinated hashToken w)
    (hcall : (w.calls t).inFlight = some (token, pending)) {a : Approval δ} (ha : a ∈ w.db.approvals)
    (hlive : a.live = true) (hagent : a.agentId = pending.agentId) :
    a.approvalId = pending.approvalId := by
  obtain ⟨_, b, hb, hbid, hbagent, hblive⟩ := h.calls t _ hcall
  rw [← hbid]
  exact h.agents a ha b hb hlive hblive (hagent.trans hbagent.symm)

theorem mem_storeAgentToken {db : AgentDb δ} {approvalId : Nat} {now : Time} {a : Approval δ}
    (h : a ∈ (storeAgentToken approvalId token now db).approvals) :
    a ∈ db.approvals ∧ a.approvalId ≠ approvalId ∨
      ∃ old ∈ db.approvals, old.approvalId = approvalId ∧ a.approvalId = approvalId ∧
        a.agentId = old.agentId ∧ a.status = .approved ∧ a.agentToken = some token := by
  rcases Table.mem_modify.mp h with hold | ⟨old, hold, hid, rfl⟩
  · exact .inl hold
  · exact .inr ⟨old, hold, hid, hid, rfl, rfl, rfl⟩

/-- The row that a call writes is its live approval, so a live row was live before. -/
theorem Coordinated.live_before_store (h : Coordinated hashToken w)
    (hcall : (w.calls t).inFlight = some (token, pending)) {a : Approval δ}
    (ha : a ∈ (storeAgentToken pending.approvalId token start w.db).approvals) (hlive : a.live = true) :
    ∃ old ∈ w.db.approvals, old.approvalId = a.approvalId ∧ old.agentId = a.agentId ∧ old.live = true := by
  obtain ⟨_, mine, hmine, hmineid, _, hminelive⟩ := h.calls t _ hcall
  rcases mem_storeAgentToken ha with ⟨ha, _⟩ | ⟨old, hold, hoid, haid, haagent, _, _⟩
  · exact ⟨a, ha, rfl, rfl, hlive⟩
  · have hrow : old = mine := List.inj_on_of_nodup_map h.ids hold hmine (hoid.trans hmineid.symm)
    exact ⟨old, hold, hoid.trans haid.symm, haagent.symm, hrow ▸ hminelive⟩

variable [DecidableEq τ]

theorem Coordinated.upsert (h : Coordinated hashToken w) (hinj : Function.Injective hashToken)
    (hread : w.calls t = .read token pending start) (now : Time) :
    Coordinated hashToken { w with
      db := upsertDevice hashToken pending.agentId token pending.identity now w.db
      calls := Function.update w.calls t (.upserted token pending start) } := by
  have hcall : (w.calls t).inFlight = some (token, pending) := by rw [hread]; rfl
  have hdrawn := (h.calls t _ hcall).1
  -- The call keeps its token and its approval.
  have hsame : ∀ u, (Function.update w.calls t (.upserted token pending start) u).inFlight =
      (w.calls u).inFlight := by
    intro u
    by_cases hu : u = t
    · subst hu
      rw [Function.update_self, hcall]
      rfl
    · rw [Function.update_of_ne hu]
  refine ⟨h.ids, h.agents, ?_, ?_, ?_, ?_, ?_, ?_⟩
  · intro d hd
    rcases mem_upsertDevice hd with ⟨hd, _⟩ | ⟨_, hhash, _⟩
    · exact h.hashed d hd
    · exact ⟨token, hdrawn, hhash⟩
  · intro d hd e he heq
    rcases mem_upsertDevice hd with ⟨hd, _⟩ | ⟨hdid, hdhash, _⟩
    · rcases mem_upsertDevice he with ⟨he, _⟩ | ⟨_, hehash, _⟩
      · exact h.owners d hd e he heq
      · exact absurd (heq.trans hehash) (h.unused t token pending start hread d hd)
    · rcases mem_upsertDevice he with ⟨he, _⟩ | ⟨heid, _, _⟩
      · exact absurd (heq.symm.trans hdhash) (h.unused t token pending start hread e he)
      · rw [hdid, heid]
  · intro u c hc
    exact h.calls u c ((hsame u).symm.trans hc)
  · intro u v c c' huv hc hc'
    exact h.distinct u v c c' huv ((hsame u).symm.trans hc) ((hsame v).symm.trans hc')
  · intro u tok pend began hu d hd hhash
    by_cases hut : u = t
    · subst hut
      simp only [Function.update_self] at hu
      cases hu
    · simp only [Function.update_of_ne hut] at hu
      rcases mem_upsertDevice hd with ⟨hd, _⟩ | ⟨_, hdhash, _⟩
      · exact h.unused u tok pend began hu d hd hhash
      · have hother : (w.calls u).inFlight = some (tok, pend) := by rw [hu]; rfl
        exact h.distinct u t _ _ hut hother hcall (hinj (hhash.symm.trans hdhash))
  · intro a ha happroved
    have hlive : a.live = true := by simp [Approval.live, happroved]
    by_cases hagent : a.agentId = pending.agentId
    · right
      refine ⟨t, token, pending, start, Function.update_self _ _ _, ?_, ?_⟩
      · exact (h.approval_of_agent hcall ha hlive hagent).symm
      · rw [hagent]
        exact holds_upsertDevice
    · rcases h.stored a ha happroved with ⟨x, hx, hholds⟩ | ⟨u, x, pend, began, hu, hid, hholds⟩
      · exact .inl ⟨x, hx, hholds.upsertDevice hagent⟩
      · right
        refine ⟨u, x, pend, began, ?_, hid, hholds.upsertDevice hagent⟩
        have hut : u ≠ t := by
          intro heq
          rw [heq, hread] at hu
          cases hu
        simp only [Function.update_of_ne hut]
        exact hu

theorem inFlight_update_idle {calls : τ → Approving δ} {u : τ} {c : Token × Approval δ}
    (h : (Function.update calls t .idle u).inFlight = some c) : u ≠ t ∧ (calls u).inFlight = some c := by
  by_cases hu : u = t
  · subst hu
    simp [Approving.inFlight] at h
  · rw [Function.update_of_ne hu] at h
    exact ⟨hu, h⟩

theorem Coordinated.store (h : Coordinated hashToken w)
    (hupserted : w.calls t = .upserted token pending start) (hturn : StoresInTurn hashToken w t) :
    Coordinated hashToken { w with
      db := storeAgentToken pending.approvalId token start w.db
      calls := Function.update w.calls t .idle } := by
  have hcall : (w.calls t).inFlight = some (token, pending) := by rw [hupserted]; rfl
  refine ⟨?_, ?_, h.hashed, h.owners, ?_, ?_, ?_, ?_⟩
  · simp only [storeAgentToken]
    rw [Table.map_key_modify]
    · exact h.ids
    · exact fun _ => rfl
  · intro a ha b hb hla hlb hagent
    obtain ⟨a0, ha0, haid, haagent, halive⟩ := h.live_before_store hcall ha hla
    obtain ⟨b0, hb0, hbid, hbagent, hblive⟩ := h.live_before_store hcall hb hlb
    rw [← haid, ← hbid]
    exact h.agents a0 ha0 b0 hb0 halive hblive (haagent.trans (hagent.trans hbagent.symm))
  · intro u c hc
    obtain ⟨_, hc⟩ := inFlight_update_idle hc
    obtain ⟨hdrawn, a, ha, hid, hagent, hlive⟩ := h.calls u c hc
    refine ⟨hdrawn, ?_⟩
    by_cases hmatch : a.approvalId = pending.approvalId
    · exact ⟨_, Table.mem_modify.mpr (.inr ⟨a, ha, hmatch, rfl⟩), hid, hagent, rfl⟩
    · exact ⟨a, Table.mem_modify.mpr (.inl ⟨ha, hmatch⟩), hid, hagent, hlive⟩
  · intro u v c c' huv hc hc'
    exact h.distinct u v c c' huv (inFlight_update_idle hc).2 (inFlight_update_idle hc').2
  · intro u tok pend began hu d hd
    by_cases hut : u = t
    · subst hut
      simp at hu
    · simp only [Function.update_of_ne hut] at hu
      exact h.unused u tok pend began hu d hd
  · intro a ha happroved
    have hothers : ∀ u, u ≠ t → ∀ approvalId agentId, AboutToStore hashToken w u approvalId agentId →
        AboutToStore hashToken { w with
          db := storeAgentToken pending.approvalId token start w.db
          calls := Function.update w.calls t .idle } u approvalId agentId :=
      fun u hut _ _ hu => hu.of_devices (Function.update_of_ne hut _ _) rfl
    rcases mem_storeAgentToken ha with ⟨ha, hid⟩ | ⟨old, hold, hoid, haid, haagent, _, hatoken⟩
    · rcases h.stored a ha happroved with hown | ⟨u, hu⟩
      · exact .inl hown
      · refine .inr ⟨u, hothers u ?_ _ _ hu⟩
        intro heq
        obtain ⟨_, pend, _, hcallu, hpend, _⟩ := hu
        rw [heq, hupserted] at hcallu
        cases hcallu
        exact hid hpend.symm
    · have hagent : a.agentId = pending.agentId := by
        obtain ⟨_, mine, hmine, hmineid, hmineagent, _⟩ := h.calls t _ hcall
        rw [haagent, List.inj_on_of_nodup_map h.ids hold hmine (hoid.trans hmineid.symm), hmineagent]
      unfold StoresInTurn at hturn
      rw [hupserted] at hturn
      rcases hturn with hholds | ⟨u, hut, hu⟩
      · exact .inl ⟨token, hatoken, hagent ▸ hholds⟩
      · right
        rw [haid, hagent]
        exact ⟨u, hothers u hut _ _ hu⟩

end Parts

section Runs
variable {δ τ : Type} [DecidableEq δ] {hashToken publicSha256 : String → δ} {w w' : Approvals δ τ}

theorem Coordinated.validate (h : Coordinated hashToken w) {agentId : String} {token : Token}
    (hholds : Holds hashToken w.db agentId token) :
    ∃ d, validateAgentToken hashToken token w.db = some d ∧ d.agentId = agentId := by
  obtain ⟨d, hd, hid, hhash, hopen⟩ := hholds
  cases hfind : validateAgentToken hashToken token w.db with
  | none =>
    have := List.find?_eq_none.mp hfind d hd
    simp [hhash, hopen] at this
  | some e =>
    have he := List.find?_some hfind
    simp only [decide_eq_true_eq] at he
    refine ⟨e, rfl, ?_⟩
    rw [← hid]
    exact h.owners e (List.mem_of_find?_eq_some hfind) d hd (he.1.trans hhash.symm)

theorem Approvals.Start.coordinated (h : w.Start hashToken) : Coordinated hashToken w := by
  have hnone : ∀ t c, (w.calls t).inFlight ≠ some c := by
    intro t c hc
    rw [h.idle t] at hc
    cases hc
  refine ⟨h.ids, h.agents, h.hashed, h.owners, fun t c hc => absurd hc (hnone t c),
    fun t _ c _ _ hc => absurd hc (hnone t c), ?_, ?_⟩
  · intro t token pending now hread
    rw [h.idle t] at hread
    cases hread
  · intro a ha happroved
    obtain ⟨token, htoken, d, hvalid, hid⟩ := h.working a ha happroved
    have hd := List.find?_some hvalid
    simp only [decide_eq_true_eq] at hd
    exact .inl ⟨token, htoken, d, List.mem_of_find?_eq_some hvalid, hid, hd.1, hd.2⟩

theorem Coordinated.working (h : Coordinated hashToken w) (hidle : ∀ t, w.calls t = .idle) :
    ApprovedTokensWork hashToken w.db := by
  intro a ha happroved
  rcases h.stored a ha happroved with ⟨token, htoken, hholds⟩ | ⟨u, _, _, _, hu, _⟩
  · exact ⟨token, htoken, h.validate hholds⟩
  · rw [hidle u] at hu
    cases hu

omit [DecidableEq δ] in
theorem Coordinated.createApproval (h : Coordinated hashToken w) {approvalId : Nat}
    (hnew : approvalId ∉ w.db.approvals.map Approval.approvalId) (bootstrapToken : Token)
    (agentId : String) (phase : Option String) (identity : Identity) (now : Time) :
    Coordinated hashToken { w with
      db := createBootstrapApproval publicSha256 approvalId bootstrapToken agentId phase identity now w.db } := by
  unfold createBootstrapApproval
  split
  · apply h.refresh
    intro a
    split <;> rfl
  · rename_i hany
    apply h.addPending hnew rfl
    intro a ha hagent
    by_contra hlive
    apply hany
    rw [List.any_eq_true]
    refine ⟨a, ha, ?_⟩
    simp only [Bool.not_eq_false] at hlive
    simp [hagent, hlive]

theorem Coordinated.claimApproval (h : Coordinated hashToken w) (approvalId : Nat)
    (bootstrapToken : Token) (now : Time) :
    Coordinated hashToken { w with
      db := claimBootstrapApproval publicSha256 approvalId bootstrapToken now w.db } := by
  unfold claimBootstrapApproval
  split
  · exact h
  · split
    · apply h.refresh
      intro a
      split <;> rfl
    · exact h

variable [DecidableEq τ]

variable (hashToken publicSha256) in
/-- A step of some call, where a token is stored only in its turn. -/
def OrderlyStep (w : Approvals δ τ) (x : τ × ApprovalAction) (w' : Approvals δ τ) : Prop :=
  w.act hashToken publicSha256 x.1 x.2 = some w' ∧
    ∀ now, x.2 = .next now → StoresInTurn hashToken w x.1

theorem Coordinated.step (hinj : Function.Injective hashToken) {x : τ × ApprovalAction}
    (h : Coordinated hashToken w) (hstep : OrderlyStep hashToken publicSha256 w x w') :
    Coordinated hashToken w' := by
  obtain ⟨t, a⟩ := x
  obtain ⟨hact, hturn⟩ := hstep
  simp only at hact hturn
  unfold Approvals.act at hact
  split at hact
  · rename_i approvalId token now hidle
    split at hact
    · cases hact
    · rename_i hfresh
      split at hact
      · cases hact
        exact h.draw token
      · rename_i pending hget
        split at hact
        · rename_i hlive
          cases hact
          exact h.begin hinj hidle hfresh (List.mem_of_find?_eq_some hget) hlive now
        · cases hact
          exact h.draw token
  · rename_i token pending start now hread
    cases hact
    exact h.upsert hinj hread now
  · rename_i token pending start now hupserted
    cases hact
    exact h.store hupserted (hturn now rfl)
  · rename_i approvalId bootstrapToken agentId phase identity now hidle
    split at hact
    · cases hact
    · rename_i hnew
      cases hact
      exact h.createApproval hnew bootstrapToken agentId phase identity now
  · rename_i approvalId bootstrapToken now hidle
    cases hact
    exact h.claimApproval approvalId bootstrapToken now
  · cases hact

/-- In every interleaving in which tokens are stored in their turn, once no call is in flight
every approved approval has a token that works. -/
theorem approved_tokens_work_of_orderly (hinj : Function.Injective hashToken)
    {xs : List (τ × ApprovalAction)} (hstart : w.Start hashToken)
    (hrun : Run (OrderlyStep hashToken publicSha256) w xs w') (hidle : ∀ t, w'.calls t = .idle) :
    ApprovedTokensWork hashToken w'.db := by
  have h : Coordinated hashToken w' :=
    hrun.invariant (fun _ _ _ hw hstep => hw.step hinj hstep) hstart.coordinated
  exact h.working hidle

end Runs

def oneWaiting : Approvals String Nat where
  db :=
    { approvals :=
        [{ approvalId := 1, agentId := "agent-pc1", bootstrapTokenHash := "fleet", phase := none, identity := {},
           requestedAt := 0 }] }
  drawn := []
  calls := fun _ => .idle

theorem start_oneWaiting : oneWaiting.Start id := by
  constructor <;> simp [oneWaiting, ApprovedTokensWork]

def replay (w : Approvals String Nat) (xs : List (Nat × ApprovalAction)) : Option (Approvals String Nat) :=
  xs.foldlM (fun w x => Approvals.act id id w x.1 x.2) w

def approvedInTurn : List (Nat × ApprovalAction) :=
  [(0, .approve 1 "t1" 1), (1, .approve 1 "t2" 2), (0, .next 3), (0, .next 4), (1, .next 5), (1, .next 6)]

def inTurn (n : Fin 7) : Approvals String Nat :=
  (replay oneWaiting (approvedInTurn.take n)).get (by revert n; decide)

theorem second_approval_works :
    Run (OrderlyStep id id) oneWaiting approvedInTurn (inTurn 6) ∧
      (inTurn 6).db.approvals.map Approval.agentToken = [some "t2"] ∧ ApprovedTokensWork id (inTurn 6).db := by
  have hstores : ∀ n token pending start t, (inTurn n).calls t = .upserted token pending start →
      Holds id (inTurn n).db pending.agentId token → StoresInTurn id (inTurn n) t := by
    intro n token pending start t hcall hholds
    unfold StoresInTurn
    rw [hcall]
    exact .inl hholds
  have h0 : OrderlyStep id id oneWaiting (0, .approve 1 "t1" 1) (inTurn 1) := ⟨rfl, fun _ h => by cases h⟩
  have h1 : OrderlyStep id id (inTurn 1) (1, .approve 1 "t2" 2) (inTurn 2) := ⟨rfl, fun _ h => by cases h⟩
  have h2 : OrderlyStep id id (inTurn 2) (0, .next 3) (inTurn 3) := ⟨rfl, fun _ _ => trivial⟩
  have h3 : OrderlyStep id id (inTurn 3) (0, .next 4) (inTurn 4) :=
    ⟨rfl, fun _ _ => hstores 3 _ _ _ _ rfl ⟨_, List.mem_singleton.mpr rfl, rfl, rfl, rfl⟩⟩
  have h4 : OrderlyStep id id (inTurn 4) (1, .next 5) (inTurn 5) := ⟨rfl, fun _ _ => trivial⟩
  have h5 : OrderlyStep id id (inTurn 5) (1, .next 6) (inTurn 6) :=
    ⟨rfl, fun _ _ => hstores 5 _ _ _ _ rfl ⟨_, List.mem_singleton.mpr rfl, rfl, rfl, rfl⟩⟩
  have hrun : Run (OrderlyStep id id) oneWaiting approvedInTurn (inTurn 6) :=
    (((((Run.single h0).snoc h1).snoc h2).snoc h3).snoc h4).snoc h5
  have hidle : ∀ t, (inTurn 6).calls t = .idle
    | 0 | 1 | _ + 2 => rfl
  exact ⟨hrun, by decide, approved_tokens_work_of_orderly Function.injective_id start_oneWaiting hrun hidle⟩

def crossedApprovals : List (Nat × ApprovalAction) :=
  [(0, .approve 1 "t1" 1), (1, .approve 1 "t2" 2), (0, .next 3), (1, .next 4), (1, .next 5), (0, .next 6)]

def crossed : Approvals String Nat := (replay oneWaiting crossedApprovals).get (by decide)

theorem crossed_approvals_leave_a_dead_token :
    ¬ ∀ (δ : Type) [DecidableEq δ] (hashToken publicSha256 : String → δ) (w w' : Approvals δ Nat)
        (xs : List (Nat × ApprovalAction)), Function.Injective hashToken → w.Start hashToken →
      Run (fun w x w' => w.act hashToken publicSha256 x.1 x.2 = some w') w xs w' →
      (∀ t, w'.calls t = .idle) → ApprovedTokensWork hashToken w'.db := by
  intro h
  have hrun : Run (fun w x w' => Approvals.act id id w x.1 x.2 = some w') oneWaiting crossedApprovals crossed :=
    Run.of_foldlM (Option.some_get _).symm
  have hidle : ∀ t, crossed.calls t = .idle
    | 0 | 1 | _ + 2 => rfl
  have hwork := h String id id oneWaiting crossed _ Function.injective_id start_oneWaiting hrun hidle
  obtain ⟨token, htoken, d, hvalid, _⟩ := hwork _ (List.mem_singleton.mpr rfl) rfl
  cases htoken
  have hnone : (validateAgentToken id "t1" crossed.db).isSome = false := by decide
  rw [hvalid] at hnone
  cases hnone

end ProxmoxVEAutopilot.Telemetry
