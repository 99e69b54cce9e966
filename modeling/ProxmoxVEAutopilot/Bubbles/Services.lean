import ProxmoxVEAutopilot.Bubbles.Effects

/-!
# Services are provided from inside their bubble

A service and its provider are checked where the service is written and where the asset
is moved. Both checks rest on an asset having an id of its own.
-/

namespace ProxmoxVEAutopilot.Bubbles

open Foundation Transaction
set_option autoImplicit false

section Invariant
variable {db db' : BubblesDb} {now : Nat}

def ProvidedInside (db : BubblesDb) : Prop :=
  ∀ s ∈ db.services, ∀ assetId ∈ s.providerAssetId, ∃ a ∈ db.assets, a.id = assetId ∧ a.bubbleId = s.bubbleId

structure Kept (db : BubblesDb) : Prop where
  assetIds : (db.assets.map Asset.id).Nodup
  assetsFresh : ∀ a ∈ db.assets, a.id < db.nextId
  inside : ProvidedInside db

theorem kept_empty : Kept {} := by
  refine ⟨List.nodup_nil, ?_, ?_⟩
  · intro a ha
    cases ha
  · intro s hs
    cases hs

theorem ProvidedInside.mono (h : ProvidedInside db) (hservices : db'.services ⊆ db.services)
    (hassets : ∀ a ∈ db.assets, ∃ b ∈ db'.assets, b.id = a.id ∧ b.bubbleId = a.bubbleId) : ProvidedInside db' := by
  intro s hs assetId hprovider
  obtain ⟨a, ha, hid, hbubble⟩ := h s (hservices hs) assetId hprovider
  obtain ⟨b, hb, hbid, hbb⟩ := hassets a ha
  exact ⟨b, hb, hbid.trans hid, hbb.trans hbubble⟩

theorem AssetPatch.apply_ok {patch : AssetPatch} {old asset : Asset} (h : patch.apply now old = .ok asset) :
    asset.id = old.id ∧ asset.bubbleId = old.bubbleId ∧
      setText patch.assetRole old.assetRole = .ok asset.assetRole ∧
      setText patch.membershipState old.membershipState = .ok asset.membershipState := by
  unfold AssetPatch.apply at h
  simp only [bind, bind_ok] at h
  obtain ⟨role, hrole, membership, hmembership, _, _, _, _, hasset⟩ := h
  cases hasset
  exact ⟨rfl, rfl, hrole, hmembership⟩

theorem map_id_modify {assetId : Nat} {old asset : Asset} (hold : getAsset db assetId = some old)
    (hid : asset.id = old.id) :
    (Table.modify Asset.id db.assets assetId fun _ => asset).map Asset.id = db.assets.map Asset.id := by
  unfold Table.modify
  rw [List.map_map]
  apply List.map_congr_left
  intro a _
  by_cases ha : a.id = assetId
  · simp [ha, hid, (getAsset_some hold).2]
  · simp [ha]

theorem Kept.modifyAsset {assetId : Nat} {old asset : Asset} {events : List AuditEvent} (h : Kept db)
    (hold : getAsset db assetId = some old) (hid : asset.id = old.id)
    (hinside : ∀ s ∈ db.services, s.providerAssetId = some assetId → asset.bubbleId = s.bubbleId) :
    Kept { db with assets := Table.modify Asset.id db.assets assetId fun _ => asset, events := events } := by
  obtain ⟨hmem, hassetId⟩ := getAsset_some hold
  refine ⟨?_, ?_, ?_⟩
  · rw [map_id_modify hold hid]
    exact h.assetIds
  · intro a ha
    rcases Table.mem_modify.mp ha with ⟨hkept, _⟩ | ⟨_, _, _, rfl⟩
    · exact h.assetsFresh a hkept
    · rw [hid]
      exact h.assetsFresh old hmem
  · intro s hs id hprovider
    by_cases heq : id = assetId
    · subst heq
      exact ⟨asset, Table.mem_modify.mpr (.inr ⟨old, hmem, hassetId, rfl⟩), hid.trans hassetId, hinside s hs hprovider⟩
    · obtain ⟨a, ha, haid, hbubble⟩ := h.inside s hs id hprovider
      exact ⟨a, Table.mem_modify.mpr (.inl ⟨ha, fun h => heq (haid.symm.trans h)⟩), haid, hbubble⟩

theorem kept_updateAsset {assetId : Nat} {patch : AssetPatch} {asset : Asset} (h : Kept db)
    (hruns : (updateAsset assetId patch now).runs db = .ok (asset, db')) : Kept db' := by
  rcases updateAsset_ok hruns with ⟨_, rfl⟩ | ⟨_, old, events, hold, happly, rfl⟩
  · exact h
  · obtain ⟨hid, hbubble, _⟩ := patch.apply_ok happly
    refine h.modifyAsset hold hid fun s hs hprovider => ?_
    obtain ⟨hmem, hassetId⟩ := getAsset_some hold
    obtain ⟨a, ha, haid, hinside⟩ := h.inside s hs assetId hprovider
    rw [hbubble, ← List.inj_on_of_nodup_map h.assetIds ha hmem (haid.trans hassetId.symm), hinside]

theorem kept_moveAsset {assetId bubbleId : Nat} {reason actor : String} {asset : Asset} (h : Kept db)
    (hruns : (moveAsset assetId bubbleId reason actor now).runs db = .ok (asset, db')) : Kept db' := by
  obtain ⟨old, events, hold, helsewhere, _, rfl, rfl⟩ := moveAsset_ok hruns
  refine h.modifyAsset hold (Asset.movedTo_id ..) fun s hs hprovider => ?_
  have hnone : ¬ (s.providerAssetId = some assetId ∧ s.bubbleId ≠ bubbleId) :=
    fun hboth => List.any_eq_false.mp helsewhere s hs (decide_eq_true hboth)
  by_contra hne
  exact hnone ⟨hprovider, fun heq => hne ((Asset.movedTo_bubbleId ..).trans heq.symm)⟩

theorem kept_addAsset {bubbleId : Nat} {new : NewAsset} {asset : Asset} (h : Kept db)
    (hruns : (addAsset bubbleId new now).runs db = .ok (asset, db')) : Kept db' := by
  obtain ⟨hid, events, rfl⟩ := addAsset_ok hruns
  refine ⟨?_, ?_, ?_⟩
  · refine nodup_map_snoc h.assetIds fun a ha => ?_
    rw [hid]
    exact Nat.ne_of_lt (h.assetsFresh a ha)
  · intro a ha
    rcases List.mem_append.mp ha with hold | hnew
    · exact Nat.lt_succ_of_lt (h.assetsFresh a hold)
    · rw [List.mem_singleton.mp hnew, hid]
      exact Nat.lt_succ_self _
  · exact h.inside.mono (List.Subset.refl _) fun a ha => ⟨a, List.mem_append_left _ ha, rfl, rfl⟩

theorem kept_addService {bubbleId : Nat} {new : NewService} {service : Service} (h : Kept db)
    (hruns : (addService bubbleId new now).runs db = .ok (service, db')) : Kept db' := by
  obtain ⟨_, hprovider, events, rfl⟩ := addService_ok hruns
  refine ⟨h.assetIds, fun a ha => Nat.lt_succ_of_lt (h.assetsFresh a ha), ?_⟩
  intro s hs
  rcases List.mem_append.mp hs with hold | hnew
  · exact h.inside s hold
  · rw [List.mem_singleton.mp hnew]
    exact hprovider

theorem kept_updateService {serviceId : Nat} {patch : ServicePatch} {service : Service} (h : Kept db)
    (hruns : (updateService serviceId patch now).runs db = .ok (service, db')) : Kept db' := by
  rcases updateService_ok hruns with rfl | ⟨old, events, hmem, _, happly, hprovider, rfl⟩
  · exact h
  · obtain ⟨_, hbubble, hnew⟩ := patch.apply_ok happly
    refine ⟨h.assetIds, h.assetsFresh, fun s hs => ?_⟩
    rcases Table.mem_modify.mp hs with ⟨hkept, _⟩ | ⟨_, _, _, rfl⟩
    · exact h.inside s hkept
    · rw [hnew, hbubble]
      cases hpatch : patch.providerAssetId with
      | none => exact h.inside old hmem
      | some provider =>
        rw [hpatch] at hprovider
        exact hprovider

theorem kept_updateReadiness {bubbleId dcAssetId : Nat} {evidence : Evidence} {patched : Bubble} (h : Kept db)
    (hruns : (updateReadinessFromDcEvidence bubbleId dcAssetId evidence now).runs db = .ok (patched, db')) :
    Kept db' := by
  obtain ⟨_, events, _, rfl⟩ := updateReadiness_ok hruns
  exact ⟨h.assetIds, h.assetsFresh, h.inside⟩

theorem kept_runs {lower : String → String} {c : Call} (h : Kept db)
    (hruns : (c.transaction lower now).runs db = .ok ((), db')) : Kept db' := by
  cases c with
  | createBubble new =>
    obtain ⟨row, hrow⟩ := runs_forget_ok.mp hruns
    obtain ⟨_, _, _, _, _, rfl⟩ := createBubble_ok hrow
    exact ⟨h.assetIds, fun a ha => Nat.lt_succ_of_lt (h.assetsFresh a ha), h.inside⟩
  | addAsset bubbleId new =>
    obtain ⟨asset, hasset⟩ := runs_forget_ok.mp hruns
    exact kept_addAsset h hasset
  | updateAsset assetId patch =>
    obtain ⟨asset, hasset⟩ := runs_forget_ok.mp hruns
    exact kept_updateAsset h hasset
  | moveAsset assetId bubbleId reason actor =>
    obtain ⟨asset, hasset⟩ := runs_forget_ok.mp hruns
    exact kept_moveAsset h hasset
  | addService bubbleId new =>
    obtain ⟨service, hservice⟩ := runs_forget_ok.mp hruns
    exact kept_addService h hservice
  | updateService serviceId patch =>
    obtain ⟨service, hservice⟩ := runs_forget_ok.mp hruns
    exact kept_updateService h hservice
  | deleteService serviceId actor =>
    obtain ⟨found, hfound⟩ := runs_forget_ok.mp hruns
    rcases deleteService_ok hfound with rfl | ⟨events, rfl⟩
    · exact h
    · exact ⟨h.assetIds, h.assetsFresh, h.inside.mono (List.filter_subset_self _) fun a ha => ⟨a, ha, rfl, rfl⟩⟩
  | updateReadiness bubbleId dcAssetId evidence =>
    obtain ⟨patched, hpatched⟩ := runs_forget_ok.mp hruns
    exact kept_updateReadiness h hpatched
  | heartbeat bubbleId agentId evidence =>
    rcases heartbeat_ok hruns with rfl | ⟨dcAssetId, patched, hpatched⟩
    · exact h
    · exact kept_updateReadiness h hpatched

variable {lower : String → String}

theorem exec_cases (lower : String → String) (db : BubblesDb) (q : Request) : exec lower db q = db ∨
    (q.call.transaction lower q.now).runs db = .ok ((), exec lower db q) :=
  (perform_cases (transaction_commitsLast lower q.now q.call)).imp_right fun ⟨_, h⟩ => h

theorem kept_exec (h : Kept db) (q : Request) : Kept (exec lower db q) := by
  rcases exec_cases lower db q with hsame | hruns
  · rw [hsame]
    exact h
  · exact kept_runs h hruns

theorem kept_foldl (requests : List Request) : Kept (requests.foldl (exec lower) {}) :=
  List.foldlRecOn requests (exec lower) kept_empty fun _ h q _ => kept_exec h q

/-- In every reachable state services are provided from inside their bubble, and no request
that raises changes a table. -/
theorem services_stay_inside (lower : String → String) (requests : List Request) :
    ProvidedInside (requests.foldl (exec lower) {}) ∧
    ∀ q e, (perform lower (requests.foldl (exec lower) {}) q).1 = .error e →
      exec lower (requests.foldl (exec lower) {}) q = requests.foldl (exec lower) {} :=
  ⟨(kept_foldl requests).inside, fun q _ h => perform_error (transaction_commitsLast lower q.now q.call) h⟩

def servingDc : List Request :=
  [{ call := .createBubble { name := "Contoso" } }, { call := .createBubble { name := "Fabrikam" } },
    { call := .addAsset 0 { assetType := "vm", assetRole := "domain_controller" } },
    { call := .addService 0 { serviceKind := "dns", serviceName := "DNS", providerAssetId := some 2 } }]

theorem refused_move_changes_nothing :
    (servingDc.foldl (exec Foundation.lower) {}).services.map Service.providerAssetId = [some 2] ∧
    ProvidedInside (servingDc.foldl (exec Foundation.lower) {}) ∧
    exec Foundation.lower (servingDc.foldl (exec Foundation.lower) {}) { call := .moveAsset 2 1 "" "operator" } =
      servingDc.foldl (exec Foundation.lower) {} := by
  have hraised : (perform Foundation.lower (servingDc.foldl (exec Foundation.lower) {})
      { call := .moveAsset 2 1 "" "operator" }).1 = .error (.valueError "asset provides services in another bubble") := by
    decide +kernel
  obtain ⟨hinside, hunchanged⟩ := services_stay_inside Foundation.lower servingDc
  exact ⟨by decide +kernel, hinside, hunchanged _ _ hraised⟩

end Invariant

end ProxmoxVEAutopilot.Bubbles
