import ProxmoxVEAutopilot.Bubbles.Services
import ProxmoxVEAutopilot.Foundation.Runs

/-!
# Readiness and the controller it came from

The evidence of a domain controller is checked against the asset when it arrives. What
becomes of the asset later does not reach the flags.
-/

namespace ProxmoxVEAutopilot.Bubbles

open Foundation Transaction
set_option autoImplicit false

section Grounded

def Bubble.flagged (b : Bubble) : Bool := b.dcReady || b.dnsReady || b.dhcpReady

def Controls (a : Asset) (b : Bubble) : Prop :=
  a.bubbleId = b.id ∧ a.assetRole = "domain_controller" ∧ isMember a = true

instance (a : Asset) (b : Bubble) : Decidable (Controls a b) := inferInstanceAs (Decidable (_ ∧ _ ∧ _))

def HasController (db : BubblesDb) (b : Bubble) : Prop :=
  ∃ a ∈ db.assets, b.dhcpOwnerAssetId = some a.id ∧ Controls a b

/-- A bubble with a readiness flag has its controller, and a launch that joins the domain is
let into no other. -/
structure Grounded (db : BubblesDb) : Prop where
  present : ∀ b ∈ db.bubbles, b.flagged = true → HasController db b
  gate : ∀ bubbleId launch, launch.requiresDomainJoin = true → (evaluateLaunchGate db bubbleId launch).allowed = true →
    ∃ b, getBubble db bubbleId = some b ∧ HasController db b

def ReliesOn (db : BubblesDb) (assetId : Nat) (b : Bubble) : Prop :=
  b ∈ db.bubbles ∧ b.flagged = true ∧ b.dhcpOwnerAssetId = some assetId

/-- The server stops answering before the commit, which is the `n`-th statement. -/
def StopsBefore (q : Request) (n : Nat) : Prop := ∃ k ∈ q.answers, k < n

/-- A `None` for a column that is NOT NULL. -/
def AssetPatch.Refused (patch : AssetPatch) : Prop :=
  patch.assetRole = some none ∨ patch.membershipState = some none ∨ patch.evidenceState = some none ∨
    patch.notes = some none

def AssetPatch.KeepsController (patch : AssetPatch) : Prop :=
  (∀ role ∈ patch.assetRole, role = some "domain_controller") ∧
    ∀ state ∈ patch.membershipState, state = some "active" ∨ state = some "provisioning"

/-- A controller that a readiness flag relies on is neither demoted, retired nor moved away. -/
def SparesControllers (db : BubblesDb) (q : Request) : Prop :=
  match q.call with
  | .updateAsset assetId patch =>
    ∀ b, ReliesOn db assetId b → patch.KeepsController ∨ patch.Refused ∨ StopsBefore q 4
  | .moveAsset assetId bubbleId _ _ =>
    ∀ b, ReliesOn db assetId b → bubbleId = b.id ∨ providesElsewhere db assetId bubbleId = true ∨
      (getBubble db bubbleId).isNone = true ∨ StopsBefore q 5
  | _ => True

end Grounded

section Gate
variable {db : BubblesDb}

/-- Nothing in these calls turns `require_domain_ready` off. -/
def RequiresReady (db : BubblesDb) : Prop := ∀ b ∈ db.bubbles, b.requireDomainReady = true

theorem flagged_of_allowed {bubbleId : Nat} {launch : Launch} (hrequires : RequiresReady db)
    (hjoin : launch.requiresDomainJoin = true) (hallowed : (evaluateLaunchGate db bubbleId launch).allowed = true) :
    ∃ b, getBubble db bubbleId = some b ∧ b.flagged = true := by
  unfold evaluateLaunchGate at hallowed
  cases hb : getBubble db bubbleId with
  | none =>
    rw [hb] at hallowed
    cases hallowed
  | some b =>
    rw [hb] at hallowed
    refine ⟨b, rfl, ?_⟩
    have hready : b.requireDomainReady = true := hrequires b (getBubble_some hb).1
    by_cases hdc : b.dcReady = true
    · simp [Bubble.flagged, hdc]
    · have hreasons : gateReasons db b launch ≠ [] := by simp [gateReasons, hdc]
      simp [hjoin, hready, hreasons] at hallowed

theorem grounded_iff (hrequires : RequiresReady db) :
    Grounded db ↔ ∀ b ∈ db.bubbles, b.flagged = true → HasController db b := by
  constructor
  · exact fun h => h.present
  · intro h
    refine ⟨h, fun bubbleId launch hjoin hallowed => ?_⟩
    obtain ⟨b, hb, hflagged⟩ := flagged_of_allowed hrequires hjoin hallowed
    exact ⟨b, hb, h b (getBubble_some hb).1 hflagged⟩

end Gate

section Steps
variable {db db' : BubblesDb} {now : Nat} {old asset : Asset} {assetId bubbleId : Nat} {patch : AssetPatch}

def Present (db : BubblesDb) : Prop := ∀ b ∈ db.bubbles, b.flagged = true → HasController db b

theorem present_modify_iff {events : List AuditEvent} (h : Present db) (hold : getAsset db assetId = some old)
    (hid : asset.id = old.id) :
    Present { db with assets := Table.modify Asset.id db.assets assetId fun _ => asset, events := events } ↔
      ∀ b, ReliesOn db assetId b → Controls asset b := by
  obtain ⟨hmem, hassetId⟩ := getAsset_some hold
  constructor
  · intro hafter b ⟨hb, hflagged, howner⟩
    obtain ⟨a, ha, haowner, hcontrols⟩ := hafter b hb hflagged
    have haid : a.id = assetId := Option.some.inj (haowner.symm.trans howner)
    rcases Table.mem_modify.mp ha with ⟨_, hne⟩ | ⟨_, _, _, rfl⟩
    · exact absurd haid hne
    · exact hcontrols
  · intro hspared b hb hflagged
    obtain ⟨a, ha, howner, hcontrols⟩ := h b hb hflagged
    by_cases haid : a.id = assetId
    · have hrelies : ReliesOn db assetId b := ⟨hb, hflagged, haid ▸ howner⟩
      refine ⟨asset, Table.mem_modify.mpr (.inr ⟨old, hmem, hassetId, rfl⟩), ?_, hspared b hrelies⟩
      rw [howner, haid, hid, hassetId]
    · exact ⟨a, Table.mem_modify.mpr (.inl ⟨ha, haid⟩), howner, hcontrols⟩

theorem relied_controls (hk : Kept db) (h : Present db) {b : Bubble} (hrelies : ReliesOn db assetId b) :
    ∃ old, getAsset db assetId = some old ∧ Controls old b ∧ (getBubble db old.bubbleId).isSome = true := by
  obtain ⟨hb, hflagged, howner⟩ := hrelies
  obtain ⟨a, ha, haowner, hcontrols⟩ := h b hb hflagged
  obtain rfl : assetId = a.id := Option.some.inj (howner.symm.trans haowner)
  refine ⟨a, Table.find?_key hk.assetIds ha, hcontrols, ?_⟩
  unfold getBubble
  rw [List.find?_isSome]
  exact ⟨b, hb, by simp [hcontrols.1]⟩

theorem setText_ok {value : Option (Option String)} {current : String} (h : value ≠ some none) :
    ∃ text, setText value current = .ok text := by
  unfold setText
  split
  · exact ⟨_, rfl⟩
  · exact ⟨_, rfl⟩
  · exact absurd rfl h

theorem setText_forall {P : String → Prop} {value : Option (Option String)} {current text : String}
    (h : setText value current = .ok text) (hcurrent : P current) : P text ↔ ∀ v ∈ value, ∃ t, v = some t ∧ P t := by
  cases value with
  | none =>
    cases h
    simp [hcurrent]
  | some v =>
    cases v with
    | none => cases h
    | some t =>
      cases h
      simp

theorem AssetPatch.apply_of_not_refused (now : Nat) (a : Asset) (h : ¬ patch.Refused) :
    ∃ asset, patch.apply now a = .ok asset := by
  unfold AssetPatch.Refused at h
  rw [not_or, not_or, not_or] at h
  obtain ⟨hrole, hmembership, hevidence, hnotes⟩ := h
  obtain ⟨role, hrole⟩ := @setText_ok _ a.assetRole hrole
  obtain ⟨membership, hmembership⟩ := @setText_ok _ a.membershipState hmembership
  obtain ⟨evidence, hevidence⟩ := @setText_ok _ a.evidenceState hevidence
  obtain ⟨notes, hnotes⟩ := @setText_ok _ a.notes hnotes
  unfold AssetPatch.apply
  simp only [hrole, hmembership, hevidence, hnotes]
  exact ⟨_, rfl⟩

theorem AssetPatch.controls_iff {b : Bubble} (happly : patch.apply now old = .ok asset) (hold : Controls old b) :
    Controls asset b ↔ patch.KeepsController := by
  obtain ⟨_, hbubble, hrole, hmembership⟩ := patch.apply_ok happly
  obtain ⟨hb, hcontroller, hmember⟩ := hold
  unfold Controls AssetPatch.KeepsController
  rw [hbubble, and_iff_right hb]
  refine and_congr ?_ ?_
  · have hnew := @setText_forall (fun t => t = "domain_controller") _ _ _ hrole hcontroller
    simpa using hnew
  · have hstate := @setText_forall (fun t => t = "active" ∨ t = "provisioning") _ _ _ hmembership (by
      simpa [isMember] using hmember)
    simp only [isMember, decide_eq_true_eq]
    refine hstate.trans (forall₂_congr fun state _ => ?_)
    cases state <;> simp

theorem recordAuditEvent_runs {event : AuditEvent} (hbubble : (getBubble db event.bubbleId).isSome = true)
    (hasset : ∀ id ∈ event.assetId, (getAsset db id).isSome = true) :
    recordAuditEvent event db = .ok ((), { db with events := db.events ++ [event] }) := by
  unfold recordAuditEvent
  rw [if_neg (by simpa [Option.isSome_iff_ne_none] using hbubble), if_neg ?_]
  cases hid : event.assetId with
  | none => simp
  | some id => simpa [Option.isSome_iff_ne_none] using hasset id hid

theorem getAsset_modify (hold : getAsset db assetId = some old) (hid : asset.id = old.id) :
    (getAsset { db with assets := Table.modify Asset.id db.assets assetId fun _ => asset } assetId).isSome = true := by
  obtain ⟨hmem, hassetId⟩ := getAsset_some hold
  unfold getAsset
  rw [List.find?_isSome]
  exact ⟨asset, Table.mem_modify.mpr (.inr ⟨old, hmem, hassetId, rfl⟩), by simp [hid, hassetId]⟩

theorem updateAssetRow_runs {f : Asset → Except BubbleError Asset} (hold : getAsset db assetId = some old)
    (hf : f old = .ok asset) (hbubble : (getBubble db asset.bubbleId).isSome = true) :
    updateAssetRow assetId f db =
      .ok (asset, { db with assets := Table.modify Asset.id db.assets assetId fun _ => asset }) := by
  unfold updateAssetRow
  rw [hold]
  dsimp only
  rw [hf]
  dsimp only
  rw [if_neg (by simpa [Option.isSome_iff_ne_none] using hbubble)]

theorem updateAsset_runs (hold : getAsset db assetId = some old) (hbubble : (getBubble db old.bubbleId).isSome = true)
    (hne : patch ≠ {}) (happly : patch.apply now old = .ok asset) :
    (∃ events, (updateAsset assetId patch now).runs db = .ok (asset,
      { db with assets := Table.modify Asset.id db.assets assetId fun _ => asset, events := events })) ∧
    (updateAsset assetId patch now).steps db = 4 := by
  obtain ⟨hid, hb, _⟩ := patch.apply_ok happly
  have hupdate := updateAssetRow_runs hold happly (hb.symm ▸ hbubble)
  have haudit := @recordAuditEvent_runs
    { db with assets := Table.modify Asset.id db.assets assetId fun _ => asset }
    { bubbleId := asset.bubbleId, assetId := some assetId, action := "asset_updated", oldValues := .asset old,
      newValues := .asset asset, createdAt := now } (hb.symm ▸ hbubble)
    (fun id hsome => by
      cases hsome
      exact getAsset_modify hold hid)
  constructor
  · unfold updateAsset
    rw [runs_read_bind, hold]
    dsimp only
    rw [if_neg hne]
    exact ⟨_, runs_write_bind_ok.mpr ⟨_, _, hupdate, runs_write_bind_ok.mpr ⟨_, _, haudit, rfl⟩⟩⟩
  · unfold updateAsset
    rw [steps_read_bind, hold]
    dsimp only
    rw [if_neg hne, steps_write_bind hupdate, steps_write_bind haudit, steps_commit_pure]

theorem moveAsset_runs {reason actor : String} (hold : getAsset db assetId = some old)
    (hbubble : (getBubble db bubbleId).isSome = true) (helsewhere : providesElsewhere db assetId bubbleId = false) :
    (∃ events, (moveAsset assetId bubbleId reason actor now).runs db =
      .ok (old.movedTo bubbleId now,
        { db with
          assets := Table.modify Asset.id db.assets assetId fun _ => old.movedTo bubbleId now
          events := events })) ∧
    (moveAsset assetId bubbleId reason actor now).steps db = 5 := by
  have hupdate := @updateAssetRow_runs db old (old.movedTo bubbleId now) assetId
    (fun a => .ok (a.movedTo bubbleId now)) hold rfl hbubble
  have haudit := @recordAuditEvent_runs
    { db with
      assets := Table.modify Asset.id db.assets assetId fun _ => old.movedTo bubbleId now }
    { bubbleId := bubbleId, assetId := some assetId, action := "asset_moved", actor := actor, reason := reason,
      oldValues := .asset old, newValues := .asset (old.movedTo bubbleId now), createdAt := now }
    hbubble (fun id hsome => by
      cases hsome
      exact getAsset_modify hold rfl)
  constructor
  · unfold moveAsset
    rw [runs_read_bind, hold]
    dsimp only
    rw [runs_read_bind, if_neg (by simp [helsewhere])]
    exact ⟨_, runs_write_bind_ok.mpr ⟨_, _, hupdate, runs_write_bind_ok.mpr ⟨_, _, haudit, rfl⟩⟩⟩
  · unfold moveAsset
    rw [steps_read_bind, hold]
    dsimp only
    rw [steps_read_bind, if_neg (by simp [helsewhere]), steps_write_bind hupdate, steps_write_bind haudit,
      steps_commit_pure]

end Steps

section Exec
variable {lower : String → String} {db : BubblesDb} {q : Request} {t : BubblesDb} {n : Nat}

theorem exec_of_runs (hruns : (q.call.transaction lower q.now).runs db = .ok ((), t))
    (hsteps : (q.call.transaction lower q.now).steps db = n) :
    exec lower db q = if q.answers.all (n ≤ ·) then t else db := by
  unfold exec perform
  rw [perform_eq (transaction_commitsLast lower q.now q.call), hruns, hsteps]
  split <;> rfl

theorem stopsBefore_iff : StopsBefore q n ↔ q.answers.all (n ≤ ·) = false := by
  unfold StopsBefore
  cases q.answers <;> simp

theorem not_refused_of_apply {patch : AssetPatch} {now : Nat} {old asset : Asset} (h : patch.apply now old = .ok asset) :
    ¬ patch.Refused := by
  unfold AssetPatch.apply at h
  simp only [bind, bind_ok] at h
  obtain ⟨_, hrole, _, hmembership, _, hevidence, _, hnotes, _⟩ := h
  rintro (hnull | hnull | hnull | hnull)
  · rw [hnull] at hrole
    cases hrole
  · rw [hnull] at hmembership
    cases hmembership
  · rw [hnull] at hevidence
    cases hevidence
  · rw [hnull] at hnotes
    cases hnotes

theorem present_updateAsset_iff {assetId now : Nat} {patch : AssetPatch} {answers : Option Nat} (hk : Kept db)
    (h : Present db) : Present (exec lower db ⟨.updateAsset assetId patch, now, answers⟩) ↔
      SparesControllers db ⟨.updateAsset assetId patch, now, answers⟩ := by
  -- A relied controller is there, so the call goes through unless it is refused or stopped.
  have hgoes : ∀ b old asset, ReliesOn db assetId b → getAsset db assetId = some old → patch ≠ {} →
      patch.apply now old = .ok asset → ∃ events, exec lower db ⟨.updateAsset assetId patch, now, answers⟩ =
        if answers.all (4 ≤ ·) then
          { db with assets := Table.modify Asset.id db.assets assetId fun _ => asset, events := events } else db := by
    intro b old asset hrelies hold hne happly
    obtain ⟨old', hold', _, hbubble⟩ := relied_controls hk h hrelies
    obtain rfl := Option.some.inj (hold.symm.trans hold')
    obtain ⟨⟨events, hruns⟩, hsteps⟩ := updateAsset_runs hold hbubble hne happly
    exact ⟨events, exec_of_runs (runs_forget_ok.mpr ⟨_, hruns⟩) (steps_forget.trans hsteps)⟩
  constructor
  · intro hafter b hrelies
    by_contra hnot
    rw [not_or, not_or, stopsBefore_iff, Bool.not_eq_false] at hnot
    obtain ⟨hloses, haccepted, hanswered⟩ := hnot
    obtain ⟨old, hold, hcontrols, _⟩ := relied_controls hk h hrelies
    obtain ⟨asset, happly⟩ := AssetPatch.apply_of_not_refused now old haccepted
    have hne : patch ≠ {} := by
      rintro rfl
      exact hloses ⟨by simp, by simp⟩
    obtain ⟨events, hexec⟩ := hgoes b old asset hrelies hold hne happly
    rw [hexec, if_pos hanswered, present_modify_iff h hold (patch.apply_ok happly).1] at hafter
    exact hloses ((AssetPatch.controls_iff happly hcontrols).mp (hafter b hrelies))
  · intro hspares
    rcases exec_cases lower db ⟨.updateAsset assetId patch, now, answers⟩ with hsame | hruns
    · rw [hsame]
      exact h
    · obtain ⟨asset, hasset⟩ := runs_forget_ok.mp hruns
      rcases updateAsset_ok hasset with ⟨_, hsame⟩ | ⟨hne, old, events, hold, happly, heq⟩
      · rw [hsame]
        exact h
      · have hid := (patch.apply_ok happly).1
        rw [heq, present_modify_iff h hold hid]
        intro b hrelies
        obtain ⟨old', hold', hcontrols, _⟩ := relied_controls hk h hrelies
        obtain rfl := Option.some.inj (hold.symm.trans hold')
        rcases hspares b hrelies with hkeeps | hrefused | hstops
        · exact (AssetPatch.controls_iff happly hcontrols).mpr hkeeps
        · exact absurd hrefused (not_refused_of_apply happly)
        · obtain ⟨_, hexec⟩ := hgoes b old asset hrelies hold hne happly
          rw [stopsBefore_iff.mp hstops, if_neg Bool.false_ne_true, heq] at hexec
          have hafter := h
          rw [← hexec] at hafter
          exact (present_modify_iff h hold hid).mp hafter b hrelies

theorem present_moveAsset_iff {assetId bubbleId now : Nat} {reason actor : String} {answers : Option Nat} (hk : Kept db)
    (h : Present db) : Present (exec lower db ⟨.moveAsset assetId bubbleId reason actor, now, answers⟩) ↔
      SparesControllers db ⟨.moveAsset assetId bubbleId reason actor, now, answers⟩ := by
  have hgoes : ∀ old, getAsset db assetId = some old → (getBubble db bubbleId).isSome = true →
      providesElsewhere db assetId bubbleId = false →
      ∃ events, exec lower db ⟨.moveAsset assetId bubbleId reason actor, now, answers⟩ =
        if answers.all (5 ≤ ·) then
          { db with
            assets := Table.modify Asset.id db.assets assetId fun _ => old.movedTo bubbleId now
            events := events }
        else db := by
    intro old hold hbubble helsewhere
    obtain ⟨⟨events, hruns⟩, hsteps⟩ := @moveAsset_runs db now old assetId bubbleId reason actor hold hbubble helsewhere
    exact ⟨events, exec_of_runs (runs_forget_ok.mpr ⟨_, hruns⟩) (steps_forget.trans hsteps)⟩
  have hcontrols_iff : ∀ old b, Controls old b →
      (Controls (old.movedTo bubbleId now) b ↔ bubbleId = b.id) := by
    intro old b hcontrols
    exact and_iff_left hcontrols.2
  constructor
  · intro hafter b hrelies
    by_contra hnot
    rw [not_or, not_or, not_or, stopsBefore_iff, Bool.not_eq_false, Bool.not_eq_true, Bool.not_eq_true] at hnot
    obtain ⟨hleaves, helsewhere, hbubble, hanswered⟩ := hnot
    obtain ⟨old, hold, hcontrols, _⟩ := relied_controls hk h hrelies
    obtain ⟨events, hexec⟩ := hgoes old hold (Option.isNone_eq_false_iff.mp hbubble) helsewhere
    rw [hexec, if_pos hanswered, present_modify_iff h hold (old.movedTo_id ..)] at hafter
    exact hleaves ((hcontrols_iff old b hcontrols).mp (hafter b hrelies))
  · intro hspares
    rcases exec_cases lower db ⟨.moveAsset assetId bubbleId reason actor, now, answers⟩ with hsame | hruns
    · rw [hsame]
      exact h
    · obtain ⟨asset, hasset⟩ := runs_forget_ok.mp hruns
      obtain ⟨old, events, hold, helsewhere, hbubble, rfl, heq⟩ := moveAsset_ok hasset
      rw [heq, present_modify_iff h hold (old.movedTo_id ..)]
      intro b hrelies
      obtain ⟨old', hold', hcontrols, _⟩ := relied_controls hk h hrelies
      obtain rfl := Option.some.inj (hold.symm.trans hold')
      rcases hspares b hrelies with hstays | hprovides | hmissing | hstops
      · exact (hcontrols_iff old b hcontrols).mpr hstays
      · rw [helsewhere] at hprovides
        cases hprovides
      · rw [Option.isNone_iff_eq_none.mp hmissing] at hbubble
        cases hbubble
      · obtain ⟨_, hexec⟩ := hgoes old hold hbubble helsewhere
        rw [stopsBefore_iff.mp hstops, if_neg Bool.false_ne_true, heq] at hexec
        have hafter := h
        rw [← hexec] at hafter
        exact (present_modify_iff h hold (old.movedTo_id ..)).mp hafter b hrelies

theorem Present.mono (h : Present db) (hassets : db.assets ⊆ t.assets)
    (hbubbles : ∀ b ∈ t.bubbles, b.flagged = true → b ∈ db.bubbles) : Present t := by
  intro b hb hflagged
  obtain ⟨a, ha, hcontrols⟩ := h b (hbubbles b hb hflagged) hflagged
  exact ⟨a, hassets ha, hcontrols⟩

theorem present_updateReadiness {bubbleId dcAssetId now : Nat} {evidence : Evidence} {patched : Bubble} (h : Present db)
    (hruns : (updateReadinessFromDcEvidence bubbleId dcAssetId evidence now).runs db = .ok (patched, t)) : Present t := by
  obtain ⟨dc, events, hdc, rfl⟩ := updateReadiness_ok hruns
  obtain ⟨hmem, hid, hbubble, hrole, hmember⟩ := assetInBubble_some hdc
  intro b hb hflagged
  rcases Table.mem_modify.mp hb with ⟨hold, _⟩ | ⟨old, _, hkey, rfl⟩
  · exact h b hold hflagged
  · refine ⟨dc, hmem, ?_, ?_, hrole _ rfl, hmember rfl⟩
    · rw [hid]
      rfl
    · rw [hbubble, ← hkey]
      rfl

theorem present_exec_iff (hk : Kept db) (h : Present db) : Present (exec lower db q) ↔ SparesControllers db q := by
  obtain ⟨call, now, answers⟩ := q
  have hothers : (∀ u, (call.transaction lower now).runs db = .ok ((), u) → Present u) →
      Present (exec lower db ⟨call, now, answers⟩) := by
    intro hcall
    rcases exec_cases lower db ⟨call, now, answers⟩ with hsame | hruns
    · rw [hsame]
      exact h
    · exact hcall _ hruns
  cases call with
  | updateAsset assetId patch => exact present_updateAsset_iff hk h
  | moveAsset assetId bubbleId reason actor => exact present_moveAsset_iff hk h
  | createBubble new =>
    refine iff_of_true (hothers fun u hruns => ?_) trivial
    obtain ⟨row, hrow⟩ := runs_forget_ok.mp hruns
    obtain ⟨_, hdc, hdns, hdhcp, _, rfl⟩ := createBubble_ok hrow
    refine h.mono (List.Subset.refl _) fun b hb hflagged => ?_
    rcases List.mem_append.mp hb with hold | hnew
    · exact hold
    · rw [List.mem_singleton.mp hnew, Bubble.flagged, hdc, hdns, hdhcp] at hflagged
      cases hflagged
  | addAsset bubbleId new =>
    refine iff_of_true (hothers fun u hruns => ?_) trivial
    obtain ⟨asset, hasset⟩ := runs_forget_ok.mp hruns
    obtain ⟨_, events, rfl⟩ := addAsset_ok hasset
    exact h.mono (List.subset_append_left _ _) fun b hb _ => hb
  | addService bubbleId new =>
    refine iff_of_true (hothers fun u hruns => ?_) trivial
    obtain ⟨service, hservice⟩ := runs_forget_ok.mp hruns
    obtain ⟨_, _, events, rfl⟩ := addService_ok hservice
    exact h
  | updateService serviceId patch =>
    refine iff_of_true (hothers fun u hruns => ?_) trivial
    obtain ⟨service, hservice⟩ := runs_forget_ok.mp hruns
    rcases updateService_ok hservice with rfl | ⟨_, events, _, _, _, _, rfl⟩
    · exact h
    · exact h
  | deleteService serviceId actor =>
    refine iff_of_true (hothers fun u hruns => ?_) trivial
    obtain ⟨found, hfound⟩ := runs_forget_ok.mp hruns
    rcases deleteService_ok hfound with rfl | ⟨events, rfl⟩
    · exact h
    · exact h
  | updateReadiness bubbleId dcAssetId evidence =>
    refine iff_of_true (hothers fun u hruns => ?_) trivial
    obtain ⟨patched, hpatched⟩ := runs_forget_ok.mp hruns
    exact present_updateReadiness h hpatched
  | heartbeat bubbleId agentId evidence =>
    refine iff_of_true (hothers fun u hruns => ?_) trivial
    rcases heartbeat_ok hruns with rfl | ⟨dcAssetId, patched, hpatched⟩
    · exact h
    · exact present_updateReadiness h hpatched

theorem requiresReady_exec (h : RequiresReady db) (q : Request) : RequiresReady (exec lower db q) := by
  have hreadiness : ∀ {u bubbleId dcAssetId evidence now patched},
      (updateReadinessFromDcEvidence bubbleId dcAssetId evidence now).runs db = .ok (patched, u) → RequiresReady u := by
    intro u bubbleId dcAssetId evidence now patched hruns
    obtain ⟨_, events, _, rfl⟩ := updateReadiness_ok hruns
    intro b hb
    rcases Table.mem_modify.mp hb with ⟨hold, _⟩ | ⟨old, hold, _, rfl⟩
    · exact h b hold
    · exact h old hold
  rcases exec_cases lower db q with hsame | hruns
  · rw [hsame]
    exact h
  · generalize exec lower db q = u at hruns
    obtain ⟨call, now, answers⟩ := q
    cases call with
    | createBubble new =>
      obtain ⟨row, hrow⟩ := runs_forget_ok.mp hruns
      obtain ⟨_, _, _, _, hrequires, rfl⟩ := createBubble_ok hrow
      intro b hb
      rcases List.mem_append.mp hb with hold | hnew
      · exact h b hold
      · rw [List.mem_singleton.mp hnew]
        exact hrequires
    | addAsset bubbleId new =>
      obtain ⟨asset, hasset⟩ := runs_forget_ok.mp hruns
      obtain ⟨_, events, rfl⟩ := addAsset_ok hasset
      exact h
    | updateAsset assetId patch =>
      obtain ⟨asset, hasset⟩ := runs_forget_ok.mp hruns
      rcases updateAsset_ok hasset with ⟨_, rfl⟩ | ⟨_, _, events, _, _, rfl⟩
      · exact h
      · exact h
    | moveAsset assetId bubbleId reason actor =>
      obtain ⟨asset, hasset⟩ := runs_forget_ok.mp hruns
      obtain ⟨_, events, _, _, _, _, rfl⟩ := moveAsset_ok hasset
      exact h
    | addService bubbleId new =>
      obtain ⟨service, hservice⟩ := runs_forget_ok.mp hruns
      obtain ⟨_, _, events, rfl⟩ := addService_ok hservice
      exact h
    | updateService serviceId patch =>
      obtain ⟨service, hservice⟩ := runs_forget_ok.mp hruns
      rcases updateService_ok hservice with rfl | ⟨_, events, _, _, _, _, rfl⟩
      · exact h
      · exact h
    | deleteService serviceId actor =>
      obtain ⟨found, hfound⟩ := runs_forget_ok.mp hruns
      rcases deleteService_ok hfound with rfl | ⟨events, rfl⟩
      · exact h
      · exact h
    | updateReadiness bubbleId dcAssetId evidence =>
      obtain ⟨patched, hpatched⟩ := runs_forget_ok.mp hruns
      exact hreadiness hpatched
    | heartbeat bubbleId agentId evidence =>
      rcases heartbeat_ok hruns with rfl | ⟨dcAssetId, patched, hpatched⟩
      · exact h
      · exact hreadiness hpatched

/-- Along a history every state is grounded exactly if every request spares the controllers
that readiness relies on. -/
theorem readiness_grounded_iff (lower : String → String) (requests : List Request) :
    (∀ done, done <+: requests → Grounded (done.foldl (exec lower) {})) ↔
      Replays SparesControllers (exec lower) {} requests := by
  have halong : Along (fun _ db => Grounded db) (exec lower) {} requests ↔
      Replays SparesControllers (exec lower) {} requests := by
    refine along_iff_replays (P := fun db => (Kept db ∧ RequiresReady db) ∧ Present db) ?_ (fun _ _ _ _ hlast => hlast)
      ?_ ?_ ⟨⟨kept_empty, fun b hb => by cases hb⟩, fun b hb => by cases hb⟩
    · exact fun db h => (grounded_iff h.1.2).mpr h.2
    · exact fun db q h => (grounded_iff (requiresReady_exec h.1.2 q)).trans (present_exec_iff h.1.1 h.2)
    · exact fun db q h hspares =>
        ⟨⟨kept_exec h.1.1 q, requiresReady_exec h.1.2 q⟩, (present_exec_iff h.1.1 h.2).mpr hspares⟩
  rw [← halong]
  constructor
  · exact fun h js ks hjs => h (js ++ ks) hjs
  · exact fun h done hdone => h [] done hdone

def retiredDc : List Request :=
  [{ call := .createBubble { name := "Contoso" } },
    { call := .addAsset 0 { assetType := "vm", assetRole := "domain_controller", agentId := some "dc01" } },
    { call := .heartbeat 0 "dc01" { adDsReady := true, dnsReady := true, dhcpReady := true } },
    { call := .updateAsset 1 { membershipState := some (some "retired") } }]

theorem retired_controller_admits_launches :
    (retiredDc.foldl (exec Foundation.lower) {}).assets.map Asset.membershipState = ["retired"] ∧
    evaluateLaunchGate (retiredDc.foldl (exec Foundation.lower) {}) 0
      { requiresDomainJoin := true, requiresConfigmgr := false, isMultiBubbleContext := false,
        isMultiDomainContext := false } = ⟨"allowed", true, []⟩ ∧
    ¬ Grounded (retiredDc.foldl (exec Foundation.lower) {}) := by
  refine ⟨by decide +kernel, by decide +kernel, fun h => ?_⟩
  have hflagged : (retiredDc.foldl (exec Foundation.lower) {}).bubbles.all Bubble.flagged = true := by decide +kernel
  have hmembers : (retiredDc.foldl (exec Foundation.lower) {}).assets.all (fun a => !isMember a) = true := by
    decide +kernel
  have hsome : (retiredDc.foldl (exec Foundation.lower) {}).bubbles ≠ [] := by decide +kernel
  obtain ⟨b, hb⟩ := List.exists_mem_of_ne_nil _ hsome
  obtain ⟨a, ha, _, _, _, hmember⟩ := h.present b hb (List.all_eq_true.mp hflagged b hb)
  simpa [hmember] using List.all_eq_true.mp hmembers a ha

end Exec

end ProxmoxVEAutopilot.Bubbles
