import ProxmoxVEAutopilot.Bubbles.Store
import ProxmoxVEAutopilot.Foundation.Lists

/-!
# What a call on bubbles does

Every call commits at its end. For each a lemma says what it writes where it runs through.
-/

namespace ProxmoxVEAutopilot.Bubbles

open Foundation Transaction
set_option autoImplicit false

section Commits

theorem requireAssetInBubble_readsOnly (assetId bubbleId : Nat) (role : Option String) (activeOnly : Bool) :
    (requireAssetInBubble assetId bubbleId role activeOnly).ReadsOnly := by
  intro found
  cases found <;> trivial

theorem requireProvider_readsOnly (provider : Option Nat) (bubbleId : Nat) :
    (requireProvider provider bubbleId).ReadsOnly := by
  cases provider with
  | none => trivial
  | some assetId =>
    intro found
    cases found <;> trivial

theorem createBubble_commitsLast (lower : String → String) (new : NewBubble) (now : Nat) :
    (createBubble lower new now).CommitsLast true :=
  commitsLast_write_bind _ fun row => commitsLast_commit_pure row

theorem addAsset_commitsLast (bubbleId : Nat) (new : NewAsset) (now : Nat) :
    (addAsset bubbleId new now).CommitsLast true :=
  commitsLast_write_bind _ fun asset => commitsLast_write_bind _ fun _ => commitsLast_commit_pure asset

theorem updateAsset_commitsLast (assetId : Nat) (patch : AssetPatch) (now : Nat) :
    (updateAsset assetId patch now).CommitsLast true := by
  refine commitsLast_read_bind _ fun found => ?_
  cases found with
  | none => trivial
  | some old =>
    dsimp only
    split
    · rfl
    · exact commitsLast_write_bind _ fun asset => commitsLast_write_bind _ fun _ => commitsLast_commit_pure asset

theorem moveAsset_commitsLast (assetId bubbleId : Nat) (reason actor : String) (now : Nat) :
    (moveAsset assetId bubbleId reason actor now).CommitsLast true := by
  refine commitsLast_read_bind _ fun found => ?_
  cases found with
  | none => trivial
  | some old =>
    refine commitsLast_read_bind _ fun elsewhere => ?_
    cases elsewhere with
    | true => trivial
    | false =>
      exact commitsLast_write_bind _ fun moved => commitsLast_write_bind _ fun _ => commitsLast_commit_pure moved

theorem addService_commitsLast (bubbleId : Nat) (new : NewService) (now : Nat) :
    (addService bubbleId new now).CommitsLast true := by
  refine (requireProvider_readsOnly _ _).commitsLast_bind fun _ => ?_
  exact commitsLast_write_bind _ fun service => commitsLast_write_bind _ fun _ => commitsLast_commit_pure service

theorem updateService_commitsLast (serviceId : Nat) (patch : ServicePatch) (now : Nat) :
    (updateService serviceId patch now).CommitsLast true := by
  refine commitsLast_read_bind _ fun found => ?_
  cases found with
  | none => trivial
  | some old =>
    refine (requireProvider_readsOnly _ _).commitsLast_bind fun _ => ?_
    split
    · rfl
    · exact commitsLast_write_bind _ fun service => commitsLast_write_bind _ fun _ => commitsLast_commit_pure service

theorem deleteService_commitsLast (serviceId : Nat) (actor : String) (now : Nat) :
    (deleteService serviceId actor now).CommitsLast true := by
  refine commitsLast_read_bind _ fun found => ?_
  cases found with
  | none => rfl
  | some old =>
    exact commitsLast_write_bind _ fun _ => commitsLast_write_bind _ fun _ => commitsLast_commit_pure true

theorem updateReadiness_commitsLast (bubbleId dcAssetId : Nat) (evidence : Evidence) (now : Nat) :
    (updateReadinessFromDcEvidence bubbleId dcAssetId evidence now).CommitsLast true := by
  refine (requireAssetInBubble_readsOnly _ _ _ _).commitsLast_bind fun _ => ?_
  exact commitsLast_write_bind _ fun patched => commitsLast_write_bind _ fun _ => commitsLast_commit_pure patched

theorem heartbeat_commitsLast (bubbleId : Nat) (agentId : String) (evidence : Evidence) (now : Nat) :
    (heartbeat bubbleId agentId evidence now).CommitsLast true := by
  refine commitsLast_read_bind _ fun found => ?_
  cases found with
  | none => rfl
  | some asset =>
    dsimp only
    split
    · exact (updateReadiness_commitsLast _ _ _ _).forget
    · rfl

theorem transaction_commitsLast (lower : String → String) (now : Nat) (c : Call) :
    (c.transaction lower now).CommitsLast true := by
  cases c with
  | createBubble new => exact (createBubble_commitsLast _ _ _).forget
  | addAsset bubbleId new => exact (addAsset_commitsLast _ _ _).forget
  | updateAsset assetId patch => exact (updateAsset_commitsLast _ _ _).forget
  | moveAsset assetId bubbleId reason actor => exact (moveAsset_commitsLast _ _ _ _ _).forget
  | addService bubbleId new => exact (addService_commitsLast _ _ _).forget
  | updateService serviceId patch => exact (updateService_commitsLast _ _ _).forget
  | deleteService serviceId actor => exact (deleteService_commitsLast _ _ _).forget
  | updateReadiness bubbleId dcAssetId evidence => exact (updateReadiness_commitsLast _ _ _ _).forget
  | heartbeat bubbleId agentId evidence => exact heartbeat_commitsLast _ _ _ _

end Commits

section Writes
variable {db db' : BubblesDb} {now : Nat}

theorem recordAuditEvent_ok {event : AuditEvent} {u : Unit} (h : recordAuditEvent event db = .ok (u, db')) :
    db' = { db with events := db.events ++ [event] } := by
  unfold recordAuditEvent at h
  split at h
  · cases h
  · split at h
    · cases h
    · cases h
      rfl

theorem getBubble_some {bubbleId : Nat} {b : Bubble} (h : getBubble db bubbleId = some b) : b ∈ db.bubbles ∧ b.id = bubbleId :=
  ⟨List.mem_of_find?_eq_some h, by simpa using List.find?_some h⟩

theorem getAsset_some {assetId : Nat} {a : Asset} (h : getAsset db assetId = some a) : a ∈ db.assets ∧ a.id = assetId :=
  ⟨List.mem_of_find?_eq_some h, by simpa using List.find?_some h⟩

theorem getService_some {serviceId : Nat} {s : Service} (h : getService db serviceId = some s) :
    s ∈ db.services ∧ s.id = serviceId :=
  ⟨List.mem_of_find?_eq_some h, by simpa using List.find?_some h⟩

theorem createBubble_ok {lower : String → String} {new : NewBubble} {row : Bubble}
    (h : (createBubble lower new now).runs db = .ok (row, db')) :
    row.id = db.nextId ∧ row.dcReady = false ∧ row.dnsReady = false ∧ row.dhcpReady = false ∧
    row.requireDomainReady = true ∧
    db' = { db with bubbles := db.bubbles ++ [row], nextId := db.nextId + 1 } := by
  obtain ⟨b, t, hinsert, hrest⟩ := runs_write_bind_ok.mp h
  obtain ⟨rfl, rfl⟩ := Prod.mk.inj (runs_commit_pure_ok.mp hrest)
  unfold insertBubble at hinsert
  dsimp only at hinsert
  split at hinsert
  · cases hinsert
  · cases hinsert
    exact ⟨rfl, rfl, rfl, rfl, rfl, rfl⟩

theorem addAsset_ok {bubbleId : Nat} {new : NewAsset} {asset : Asset}
    (h : (addAsset bubbleId new now).runs db = .ok (asset, db')) :
    asset.id = db.nextId ∧ ∃ events,
      db' = { db with assets := db.assets ++ [asset], events := events, nextId := db.nextId + 1 } := by
  obtain ⟨a, t, hinsert, hrest⟩ := runs_write_bind_ok.mp h
  obtain ⟨_, u, haudit, hrest⟩ := runs_write_bind_ok.mp hrest
  obtain ⟨rfl, rfl⟩ := Prod.mk.inj (runs_commit_pure_ok.mp hrest)
  unfold insertAsset at hinsert
  dsimp only at hinsert
  split at hinsert
  · cases hinsert
  · cases hinsert
    exact ⟨rfl, _, recordAuditEvent_ok haudit⟩

theorem updateAssetRow_ok {assetId : Nat} {f : Asset → Except BubbleError Asset} {asset : Asset}
    (h : updateAssetRow assetId f db = .ok (asset, db')) :
    ∃ old, getAsset db assetId = some old ∧ f old = .ok asset ∧ (getBubble db asset.bubbleId).isSome = true ∧
      db' = { db with assets := Table.modify Asset.id db.assets assetId fun _ => asset } := by
  unfold updateAssetRow at h
  split at h
  · cases h
  · rename_i old hold
    split at h
    · cases h
    · rename_i row hrow
      split at h
      · cases h
      · rename_i hbubble
        cases h
        exact ⟨old, hold, hrow, by simpa [Option.isSome_iff_ne_none] using hbubble, rfl⟩

theorem updateAsset_ok {assetId : Nat} {patch : AssetPatch} {asset : Asset}
    (h : (updateAsset assetId patch now).runs db = .ok (asset, db')) :
    (patch = {} ∧ db' = db) ∨ patch ≠ {} ∧ ∃ old events, getAsset db assetId = some old ∧
      patch.apply now old = .ok asset ∧
      db' = { db with assets := Table.modify Asset.id db.assets assetId fun _ => asset, events := events } := by
  unfold updateAsset at h
  rw [runs_read_bind] at h
  cases hold : getAsset db assetId with
  | none =>
    rw [hold] at h
    cases h
  | some old =>
    rw [hold] at h
    dsimp only at h
    split at h
    · rename_i hempty
      cases h
      exact .inl ⟨hempty, rfl⟩
    · rename_i hne
      obtain ⟨a, t, hupdate, hrest⟩ := runs_write_bind_ok.mp h
      obtain ⟨_, u, haudit, hrest⟩ := runs_write_bind_ok.mp hrest
      obtain ⟨rfl, rfl⟩ := Prod.mk.inj (runs_commit_pure_ok.mp hrest)
      obtain ⟨row, hrow, happly, _, rfl⟩ := updateAssetRow_ok hupdate
      obtain rfl := Option.some.inj (hold.symm.trans hrow)
      exact .inr ⟨hne, old, _, rfl, happly, recordAuditEvent_ok haudit⟩

theorem moveAsset_ok {assetId bubbleId : Nat} {reason actor : String} {asset : Asset}
    (h : (moveAsset assetId bubbleId reason actor now).runs db = .ok (asset, db')) :
    ∃ old events, getAsset db assetId = some old ∧ providesElsewhere db assetId bubbleId = false ∧
      (getBubble db bubbleId).isSome = true ∧ asset = old.movedTo bubbleId now ∧
      db' = { db with assets := Table.modify Asset.id db.assets assetId fun _ => asset, events := events } := by
  unfold moveAsset at h
  rw [runs_read_bind] at h
  cases hold : getAsset db assetId with
  | none =>
    rw [hold] at h
    cases h
  | some old =>
    rw [hold] at h
    dsimp only at h
    rw [runs_read_bind] at h
    split at h
    · cases h
    · rename_i helsewhere
      obtain ⟨a, t, hupdate, hrest⟩ := runs_write_bind_ok.mp h
      obtain ⟨_, u, haudit, hrest⟩ := runs_write_bind_ok.mp hrest
      obtain ⟨rfl, rfl⟩ := Prod.mk.inj (runs_commit_pure_ok.mp hrest)
      obtain ⟨row, hrow, hmoved, hbubble, rfl⟩ := updateAssetRow_ok hupdate
      obtain rfl := Option.some.inj (hold.symm.trans hrow)
      cases hmoved
      exact ⟨old, _, rfl, by simpa using helsewhere, hbubble, rfl, recordAuditEvent_ok haudit⟩

theorem assetInBubble_some {assetId bubbleId : Nat} {role : Option String} {activeOnly : Bool} {a : Asset}
    (h : assetInBubble db assetId bubbleId role activeOnly = some a) :
    a ∈ db.assets ∧ a.id = assetId ∧ a.bubbleId = bubbleId ∧ (∀ r ∈ role, a.assetRole = r) ∧
      (activeOnly = true → isMember a = true) := by
  have hfound := List.find?_some h
  simp only [Bool.and_eq_true, decide_eq_true_eq, Bool.or_eq_true, Bool.not_eq_true', Option.all_eq_true] at hfound
  obtain ⟨⟨⟨hid, hbubble⟩, hrole⟩, hmember⟩ := hfound
  refine ⟨List.mem_of_find?_eq_some h, hid, hbubble, hrole, fun hactive => ?_⟩
  rcases hmember with hnot | hmember
  · rw [hactive] at hnot
    cases hnot
  · exact hmember

theorem requireAssetInBubble_ok {assetId bubbleId : Nat} {role : Option String} {activeOnly : Bool} {a : Asset}
    (h : (requireAssetInBubble assetId bubbleId role activeOnly).runs db = .ok (a, db')) :
    db' = db ∧ assetInBubble db assetId bubbleId role activeOnly = some a := by
  unfold requireAssetInBubble at h
  rw [runs_read_bind] at h
  cases hfound : assetInBubble db assetId bubbleId role activeOnly with
  | none =>
    rw [hfound] at h
    cases h
  | some b =>
    rw [hfound] at h
    cases h
    exact ⟨rfl, rfl⟩

theorem requireProvider_ok {provider : Option Nat} {bubbleId : Nat} {u : Unit}
    (h : (requireProvider provider bubbleId).runs db = .ok (u, db')) :
    db' = db ∧ ∀ assetId ∈ provider, ∃ a ∈ db.assets, a.id = assetId ∧ a.bubbleId = bubbleId := by
  cases provider with
  | none =>
    cases h
    exact ⟨rfl, fun _ hmem => by cases hmem⟩
  | some assetId =>
    obtain ⟨a, ha⟩ := runs_forget_ok.mp h
    obtain ⟨hsame, hfound⟩ := requireAssetInBubble_ok ha
    obtain ⟨hmem, hid, hbubble, _⟩ := assetInBubble_some hfound
    refine ⟨hsame, fun id hid' => ?_⟩
    cases hid'
    exact ⟨a, hmem, hid, hbubble⟩

theorem addService_ok {bubbleId : Nat} {new : NewService} {service : Service}
    (h : (addService bubbleId new now).runs db = .ok (service, db')) :
    service.id = db.nextId ∧
    (∀ assetId ∈ service.providerAssetId, ∃ a ∈ db.assets, a.id = assetId ∧ a.bubbleId = service.bubbleId) ∧
    ∃ events, db' = { db with services := db.services ++ [service], events := events, nextId := db.nextId + 1 } := by
  obtain ⟨_, t, hrequire, hrest⟩ := runs_bind_ok.mp h
  obtain ⟨rfl, hprovider⟩ := requireProvider_ok hrequire
  obtain ⟨s, u, hinsert, hrest⟩ := runs_write_bind_ok.mp hrest
  obtain ⟨_, v, haudit, hrest⟩ := runs_write_bind_ok.mp hrest
  obtain ⟨rfl, rfl⟩ := Prod.mk.inj (runs_commit_pure_ok.mp hrest)
  unfold insertService at hinsert
  dsimp only at hinsert
  split at hinsert
  · cases hinsert
  · split at hinsert
    · cases hinsert
    · cases hinsert
      exact ⟨rfl, hprovider, _, recordAuditEvent_ok haudit⟩

theorem ServicePatch.apply_ok {patch : ServicePatch} {old service : Service} (h : patch.apply now old = .ok service) :
    service.id = old.id ∧ service.bubbleId = old.bubbleId ∧
      service.providerAssetId = patch.providerAssetId.getD old.providerAssetId := by
  unfold ServicePatch.apply at h
  simp only [bind, bind_ok] at h
  obtain ⟨_, _, _, _, _, _, _, _, hservice⟩ := h
  cases hservice
  exact ⟨rfl, rfl, rfl⟩

theorem updateService_ok {serviceId : Nat} {patch : ServicePatch} {service : Service}
    (h : (updateService serviceId patch now).runs db = .ok (service, db')) :
    db' = db ∨ ∃ old events, old ∈ db.services ∧ old.id = serviceId ∧ patch.apply now old = .ok service ∧
      (∀ assetId ∈ patch.providerAssetId.getD none, ∃ a ∈ db.assets, a.id = assetId ∧ a.bubbleId = old.bubbleId) ∧
      db' = { db with services := Table.modify Service.id db.services serviceId fun _ => service, events := events } := by
  unfold updateService at h
  rw [runs_read_bind] at h
  cases hold : getService db serviceId with
  | none =>
    rw [hold] at h
    cases h
  | some old =>
    rw [hold] at h
    obtain ⟨_, t, hrequire, hrest⟩ := runs_bind_ok.mp h
    obtain ⟨rfl, hprovider⟩ := requireProvider_ok hrequire
    split at hrest
    · cases hrest
      exact .inl rfl
    · obtain ⟨s, u, hupdate, hrest⟩ := runs_write_bind_ok.mp hrest
      obtain ⟨_, v, haudit, hrest⟩ := runs_write_bind_ok.mp hrest
      obtain ⟨rfl, rfl⟩ := Prod.mk.inj (runs_commit_pure_ok.mp hrest)
      unfold updateServiceRow at hupdate
      rw [hold] at hupdate
      dsimp only at hupdate
      split at hupdate
      · cases hupdate
      · rename_i row hrow
        split at hupdate
        · cases hupdate
        · cases hupdate
          obtain ⟨hmem, hid⟩ := getService_some hold
          exact .inr ⟨old, _, hmem, hid, hrow, hprovider, recordAuditEvent_ok haudit⟩

theorem deleteService_ok {serviceId : Nat} {actor : String} {found : Bool}
    (h : (deleteService serviceId actor now).runs db = .ok (found, db')) :
    db' = db ∨ ∃ events, db' = { db with services := Table.delete Service.id db.services serviceId, events := events } := by
  unfold deleteService at h
  rw [runs_read_bind] at h
  cases hold : getService db serviceId with
  | none =>
    rw [hold] at h
    cases h
    exact .inl rfl
  | some old =>
    rw [hold] at h
    obtain ⟨_, u, hdelete, hrest⟩ := runs_write_bind_ok.mp h
    obtain ⟨_, v, haudit, hrest⟩ := runs_write_bind_ok.mp hrest
    obtain ⟨rfl, rfl⟩ := Prod.mk.inj (runs_commit_pure_ok.mp hrest)
    cases hdelete
    exact .inr ⟨_, recordAuditEvent_ok haudit⟩

theorem updateReadiness_ok {bubbleId dcAssetId : Nat} {evidence : Evidence} {patched : Bubble}
    (h : (updateReadinessFromDcEvidence bubbleId dcAssetId evidence now).runs db = .ok (patched, db')) :
    ∃ dc events, assetInBubble db dcAssetId bubbleId (some "domain_controller") true = some dc ∧
      db' = { db with
        bubbles := Table.modify Bubble.id db.bubbles bubbleId (evidence.applyTo dcAssetId now), events := events } := by
  obtain ⟨dc, t, hrequire, hrest⟩ := runs_bind_ok.mp h
  obtain ⟨rfl, hdc⟩ := requireAssetInBubble_ok hrequire
  obtain ⟨b, u, hupdate, hrest⟩ := runs_write_bind_ok.mp hrest
  obtain ⟨_, v, haudit, hrest⟩ := runs_write_bind_ok.mp hrest
  obtain ⟨rfl, rfl⟩ := Prod.mk.inj (runs_commit_pure_ok.mp hrest)
  unfold updateBubbleRow at hupdate
  split at hupdate
  · cases hupdate
  · cases hupdate
    exact ⟨dc, _, hdc, recordAuditEvent_ok haudit⟩

theorem heartbeat_ok {bubbleId : Nat} {agentId : String} {evidence : Evidence} {u : Unit}
    (h : (heartbeat bubbleId agentId evidence now).runs db = .ok (u, db')) :
    db' = db ∨ ∃ dcAssetId patched,
      (updateReadinessFromDcEvidence bubbleId dcAssetId evidence now).runs db = .ok (patched, db') := by
  unfold heartbeat at h
  rw [runs_read_bind] at h
  cases hfound : assetForAgent db bubbleId agentId with
  | none =>
    rw [hfound] at h
    cases h
    exact .inl rfl
  | some asset =>
    rw [hfound] at h
    dsimp only at h
    split at h
    · exact .inr ⟨asset.id, runs_forget_ok.mp h⟩
    · cases h
      exact .inl rfl

end Writes

end ProxmoxVEAutopilot.Bubbles
