import ProxmoxVEAutopilot.ManagedLabs.CidrReservations

/-!
# Networks of different labs

Zones and VNets are kept apart by the identities of the objects: a lab whose zone another
lab has cannot be created. Subnets are not: what is compared with the reservations is the
network of the lab, and what the plan asks for is its subnet.
-/

namespace ProxmoxVEAutopilot.ManagedLabs

open Foundation
set_option autoImplicit false

section Identities

def Unique (identities : List ProviderIdentity) : Prop := identities.Pairwise fun r s => r.sameKey s = false

variable {ids ids' : List ProviderIdentity} {r s : ProviderIdentity} {x : BoundaryObject × List (String × String)}

theorem sameKey_iff : r.sameKey s = true ↔ r.object.provider = s.object.provider ∧ r.object.kind = s.object.kind ∧
    r.key = s.key ∧ r.value = s.value := by
  simp [ProviderIdentity.sameKey, and_assoc]

theorem Unique.eq_of_sameKey (h : Unique ids) (hr : r ∈ ids) (hs : s ∈ ids) (hkey : r.sameKey s = true) : r = s := by
  have hsymm : Std.Symm fun r s : ProviderIdentity => r.sameKey s = false := ⟨fun r s hrs => by
    rw [Bool.eq_false_iff, Ne, sameKey_iff] at hrs ⊢
    intro ⟨hprovider, hkind, hkey, hvalue⟩
    exact hrs ⟨hprovider.symm, hkind.symm, hkey.symm, hvalue.symm⟩⟩
  by_contra hne
  rw [h.forall hr hs hne] at hkey
  cases hkey

theorem insertIdentity_ok (h : insertIdentity ids r = .ok ids') :
    ids' = ids ++ [r] ∧ ∀ s ∈ ids, s.sameKey r = false := by
  unfold insertIdentity at h
  split at h
  · cases h
  · rename_i hnone
    cases h
    refine ⟨rfl, fun s hs => Bool.eq_false_iff.mpr fun hsame => hnone ?_⟩
    exact List.any_eq_true.mpr ⟨s, hs, by simp [hsame]⟩

theorem upsertBoundaryObject_ok (h : upsertBoundaryObject ids x = .ok ids') (hids : Unique ids) :
    ids' = (ids.filter fun r => r.object ≠ x.1) ++ providerIdentityRows x.1 x.2 ∧ Unique ids' := by
  have hloop := foldlM_ok_invariant (P := fun rest identities => Unique identities ∧
    identities ++ rest = (ids.filter fun r => r.object ≠ x.1) ++ providerIdentityRows x.1 x.2)
    (fun r rest identities after ⟨hunique, heq⟩ hinsert => by
      obtain ⟨rfl, hnew⟩ := insertIdentity_ok hinsert
      refine ⟨List.pairwise_append.mpr ⟨hunique, List.pairwise_singleton _ _, fun s hs t ht => ?_⟩, ?_⟩
      · rw [List.mem_singleton.mp ht]
        exact hnew s hs
      · rw [← heq, List.append_assoc, List.singleton_append])
    ⟨hids.filter _, rfl⟩ h
  exact ⟨by simpa using hloop.2, hloop.1⟩

theorem mem_upsertAll {objects : List (BoundaryObject × List (String × String))}
    (hsame : ∀ y ∈ objects, y.1 = r.object → r ∈ providerIdentityRows y.1 y.2)
    (h : objects.foldlM upsertBoundaryObject ids = .ok ids') (hids : Unique ids)
    (hr : (∃ y ∈ objects, r ∈ providerIdentityRows y.1 y.2) ∨ r ∈ ids) : r ∈ ids' ∧ Unique ids' := by
  have hloop := foldlM_ok_invariant (P := fun rest identities => Unique identities ∧
    (∀ y ∈ rest, y.1 = r.object → r ∈ providerIdentityRows y.1 y.2) ∧
    ((∃ y ∈ rest, r ∈ providerIdentityRows y.1 y.2) ∨ r ∈ identities))
    (fun y rest identities after ⟨hunique, hrest, hmem⟩ hupsert => by
      obtain ⟨rfl, hafter⟩ := upsertBoundaryObject_ok hupsert hunique
      refine ⟨hafter, fun z hz => hrest z (List.mem_cons_of_mem _ hz), ?_⟩
      rcases hmem with ⟨z, hz, hrow⟩ | hold
      · rcases List.mem_cons.mp hz with rfl | hlater
        · exact .inr (List.mem_append_right _ hrow)
        · exact .inl ⟨z, hlater, hrow⟩
      · refine .inr (List.mem_append.mpr ?_)
        by_cases hobject : r.object = y.1
        · exact .inr (hrest y List.mem_cons_self hobject.symm)
        · exact .inl (List.mem_filter.mpr ⟨hold, decide_eq_true hobject⟩))
    ⟨hids, hsame, hr⟩ h
  exact ⟨hloop.2.2.resolve_left (by simp), hloop.1⟩

end Identities

section Names
variable {lower : String → String}

/-- The lab has a zone and a VNet. -/
structure Named (lab : Lab) : Prop where
  zone : strip lab.sdnZone ≠ ""
  vnet : strip lab.sdnVnet ≠ ""

def zoneIdentity (lab : Lab) : ProviderIdentity :=
  ⟨⟨lab.id, "proxmox", "sdn_zone", strip lab.sdnZone⟩, "zone", strip lab.sdnZone⟩

def vnetIdentity (lab : Lab) : ProviderIdentity :=
  ⟨⟨lab.id, "proxmox", "sdn_vnet", strip lab.sdnVnet⟩, "vnet", strip lab.sdnVnet⟩

theorem providerIdentityRows_single {o : BoundaryObject} {key value : String} (hkey : strip key = key)
    (hkeyed : key ≠ "") (hvalue : strip value = value) (hvalued : value ≠ "") :
    providerIdentityRows o [(key, value)] = [⟨o, key, value⟩] := by
  simp [providerIdentityRows, hkey, hkeyed, hvalue, hvalued]

theorem zoneIdentity_mem_rows {lab other : Lab} {hex : String} (h : Named lab)
    {y : BoundaryObject × List (String × String)} (hy : y ∈ boundaryObjects lower other hex)
    (ho : y.1 = (zoneIdentity lab).object) : zoneIdentity lab ∈ providerIdentityRows y.1 y.2 := by
  simp only [boundaryObjects, networkObjects, List.cons_append, List.nil_append, List.mem_cons, List.not_mem_nil,
    or_false] at hy
  rcases hy with rfl | rfl | rfl | rfl | rfl | rfl | rfl | rfl
  case inr.inl =>
    obtain ⟨_, hzone⟩ : other.id = lab.id ∧ (labNetworkShape lower other hex).zone = strip lab.sdnZone := by
      simpa [zoneIdentity] using ho
    rw [ho, hzone, providerIdentityRows_single (by decide) (by decide) (strip_strip _) h.zone]
    exact List.mem_singleton_self _
  all_goals simp [zoneIdentity] at ho

theorem vnetIdentity_mem_rows {lab other : Lab} {hex : String} (h : Named lab)
    {y : BoundaryObject × List (String × String)} (hy : y ∈ boundaryObjects lower other hex)
    (ho : y.1 = (vnetIdentity lab).object) : vnetIdentity lab ∈ providerIdentityRows y.1 y.2 := by
  simp only [boundaryObjects, networkObjects, List.cons_append, List.nil_append, List.mem_cons, List.not_mem_nil,
    or_false] at hy
  rcases hy with rfl | rfl | rfl | rfl | rfl | rfl | rfl | rfl
  case inr.inr.inl =>
    obtain ⟨_, hvnet⟩ : other.id = lab.id ∧ (labNetworkShape lower other hex).vnet = strip lab.sdnVnet := by
      simpa [vnetIdentity] using ho
    rw [ho, hvnet, providerIdentityRows_single (by decide) (by decide) (strip_strip _) h.vnet]
    exact List.mem_singleton_self _
  all_goals simp [vnetIdentity] at ho

/-- A pass over the objects of any lab keeps the zone and the VNet of a lab. -/
structure Holds (identities : List ProviderIdentity) (lab : Lab) : Prop where
  named : Named lab
  zone : zoneIdentity lab ∈ identities
  vnet : vnetIdentity lab ∈ identities

variable {ids ids' : List ProviderIdentity} {lab other : Lab} {hex : String}
  {objects : List (BoundaryObject × List (String × String))}

theorem Holds.upsertAll (h : Holds ids lab) (hids : Unique ids) (hobjects : objects ⊆ boundaryObjects lower other hex)
    (hok : objects.foldlM upsertBoundaryObject ids = .ok ids') : Holds ids' lab where
  named := h.named
  zone := (mem_upsertAll (fun _ hy ho => zoneIdentity_mem_rows h.named (hobjects hy) ho) hok hids (.inr h.zone)).1
  vnet := (mem_upsertAll (fun _ hy ho => vnetIdentity_mem_rows h.named (hobjects hy) ho) hok hids (.inr h.vnet)).1

theorem unique_upsertAll (hids : Unique ids) (hok : objects.foldlM upsertBoundaryObject ids = .ok ids') : Unique ids' :=
  foldlM_ok_invariant (P := fun _ identities => Unique identities)
    (fun _ _ _ _ hunique hupsert => (upsertBoundaryObject_ok hupsert hunique).2) hids hok

theorem networkObjects_subset : networkObjects lower lab hex ⊆ boundaryObjects lower lab hex :=
  List.subset_append_left _ _

theorem holds_of_ensure (h : Named lab) (hids : Unique ids)
    (hok : ensureLabBoundaryModel lower ids lab hex = .ok ids') : Holds ids' lab := by
  have hzone : (labNetworkShape lower lab hex).zone = strip lab.sdnZone := if_neg h.zone
  have hvnet : (labNetworkShape lower lab hex).vnet = strip lab.sdnVnet := if_neg h.vnet
  have hzoneObject : ((zoneIdentity lab).object, [("zone", strip lab.sdnZone)]) ∈ boundaryObjects lower lab hex := by
    simp [boundaryObjects, networkObjects, zoneIdentity, hzone]
  have hvnetObject : ((vnetIdentity lab).object, [("vnet", strip lab.sdnVnet)]) ∈ boundaryObjects lower lab hex := by
    simp [boundaryObjects, networkObjects, vnetIdentity, hvnet]
  refine ⟨h, ?_, ?_⟩
  · exact (mem_upsertAll (fun _ hy ho => zoneIdentity_mem_rows h hy ho) hok hids
      (.inl ⟨_, hzoneObject, zoneIdentity_mem_rows h hzoneObject rfl⟩)).1
  · exact (mem_upsertAll (fun _ hy ho => vnetIdentity_mem_rows h hy ho) hok hids
      (.inl ⟨_, hvnetObject, vnetIdentity_mem_rows h hvnetObject rfl⟩)).1

theorem strip_textOr_ne_empty {given other : String} (h : strip other ≠ "") : strip (textOr (strip given) other) ≠ "" := by
  unfold textOr
  split
  · exact h
  · rename_i hgiven
    rwa [strip_strip]

theorem strip_proxmoxSdnZoneId (shortCode hex : String) : strip (proxmoxSdnZoneId lower shortCode hex) ≠ "" :=
  strip_ne_empty (c := 'z') (by simp [proxmoxSdnZoneId]) (by decide)

theorem strip_proxmoxSdnVnetId (shortCode hex : String) : strip (proxmoxSdnVnetId lower shortCode hex) ≠ "" :=
  strip_ne_empty (c := 'v') (by simp [proxmoxSdnVnetId]) (by decide)

theorem newLab_named (draws : Draws) (body : LabCreateBody) : Named (newLab lower draws body) := by
  constructor
  · simp only [newLab]
    exact strip_textOr_ne_empty (strip_proxmoxSdnZoneId _ _)
  · simp only [newLab]
    exact strip_textOr_ne_empty (strip_proxmoxSdnVnetId _ _)

end Names

section Invariant
variable {lower : String → String} {db db' : LabsDb}

structure Identified (db : LabsDb) : Prop where
  unique : Unique db.identities
  holds : ∀ lab ∈ db.labs, Holds db.identities lab

theorem Identified.created {draws : Draws} {body : LabCreateBody} {lab : Lab} (h : Identified db)
    (hc : Created lower db draws body lab db') : Identified db' := by
  refine ⟨unique_upsertAll h.unique hc.identities, fun l hl => ?_⟩
  rw [hc.labs] at hl
  rcases List.mem_append.mp hl with hold | hnew
  · exact (h.holds l hold).upsertAll h.unique (List.Subset.refl _) hc.identities
  · rw [List.mem_singleton.mp hnew]
    obtain ⟨valid, _, hlab⟩ := hc.valid
    exact holds_of_ensure (hlab ▸ newLab_named draws valid) h.unique hc.identities

theorem Identified.planned {inventory : Inventory} {hex : String} {lab : Lab} {plan : Plan} (h : Identified db)
    (hp : Planned lower db inventory hex lab db' plan) : Identified db' := by
  obtain ⟨ensured, hensured, hsynced⟩ := hp.identities
  unfold syncLabNetworkCurrentState at hsynced
  obtain ⟨again, hagain, hnetwork⟩ := bind_ok.mp hsynced
  have hfirst := unique_upsertAll h.unique hensured
  have hsecond := unique_upsertAll hfirst hagain
  refine ⟨unique_upsertAll hsecond hnetwork, fun l hl => ?_⟩
  rw [hp.labs] at hl
  exact (((h.holds l hl).upsertAll h.unique (List.Subset.refl _) hensured).upsertAll hfirst (List.Subset.refl _)
    hagain).upsertAll hsecond networkObjects_subset hnetwork

theorem Identified.deleted (h : Identified db) (labId : LabId) : Identified (deleteLab db labId) := by
  refine ⟨h.unique.filter _, fun lab hlab => ?_⟩
  obtain ⟨hmem, hne⟩ := List.mem_filter.mp hlab
  have hheld := h.holds lab hmem
  exact ⟨hheld.named, List.mem_filter.mpr ⟨hheld.zone, hne⟩, List.mem_filter.mpr ⟨hheld.vnet, hne⟩⟩

theorem identified_exec (h : Identified db) (c : Call) : Identified (exec lower db c) := by
  cases c with
  | createLab draws body =>
    rw [exec_createLab]
    rcases createLab_cases db draws body with ⟨hsame, _⟩ | ⟨lab, db', heq, hc⟩
    · rw [hsame]
      exact h
    · rw [heq]
      exact h.created hc
  | reconcile labId inventory hex =>
    unfold exec
    dsimp only
    split
    · rename_i db' plan hok
      obtain ⟨lab, _, hp⟩ := planNetworkReconcile_ok hok
      exact h.planned hp
    · exact h
  | deleteLab labId => exact h.deleted labId

theorem identified_reach (calls : List Call) : Identified (reach lower calls) := by
  induction calls using List.reverseRecOn with
  | nil => exact ⟨List.Pairwise.nil, fun lab h => by cases h⟩
  | append_singleton calls c ih =>
    unfold reach
    rw [List.foldl_append]
    exact identified_exec ih c

/-- Two labs have different zones and VNets, whatever their plans draw. -/
theorem zones_and_vnets_differ (h : Identified db) {a b : Lab} (ha : a ∈ db.labs) (hb : b ∈ db.labs)
    (hne : a.id ≠ b.id) (hexA hexB : String) :
    (requiredNetwork lower a hexA).zone ≠ (requiredNetwork lower b hexB).zone ∧
      (requiredNetwork lower a hexA).vnet ≠ (requiredNetwork lower b hexB).vnet := by
  have hstored : ∀ {text other : String}, strip text ≠ "" → textOr text other = text := by
    rintro text other hstrip
    refine if_neg fun hempty => hstrip ?_
    rw [hempty]
    decide
  have hA := h.holds a ha
  have hB := h.holds b hb
  unfold requiredNetwork
  dsimp only
  rw [hstored hA.named.zone, hstored hB.named.zone, hstored hA.named.vnet, hstored hB.named.vnet]
  constructor
  · intro hzone
    have hsame := h.unique.eq_of_sameKey hA.zone hB.zone (sameKey_iff.mpr ⟨rfl, rfl, rfl, congrArg strip hzone⟩)
    exact hne (congrArg (fun r => r.object.labId) hsame)
  · intro hvnet
    have hsame := h.unique.eq_of_sameKey hA.vnet hB.vnet (sameKey_iff.mpr ⟨rfl, rfl, rfl, congrArg strip hvnet⟩)
    exact hne (congrArg (fun r => r.object.labId) hsame)

end Invariant

section Labs
variable {lower : String → String} {db : LabsDb}

def Undeleted : Call → Prop
  | .deleteLab _ => False
  | _ => True

theorem mem_labs_exec {c : Call} {lab : Lab} (h : lab ∈ (exec lower db c).labs) :
    lab ∈ db.labs ∨ ∃ draws body db', c = .createLab draws body ∧ Created lower db draws body lab db' := by
  cases c with
  | createLab draws body =>
    rw [exec_createLab] at h
    rcases @createLab_cases lower db draws body with ⟨hsame, _⟩ | ⟨new, db', heq, hc⟩
    · rw [hsame] at h
      exact .inl h
    · rw [heq, hc.labs] at h
      rcases List.mem_append.mp h with hold | hnew
      · exact .inl hold
      · rw [List.mem_singleton.mp hnew]
        exact .inr ⟨draws, body, db', rfl, hc⟩
  | reconcile labId inventory hex =>
    unfold exec at h
    dsimp only at h
    split at h
    · rename_i db' plan hok
      obtain ⟨_, _, hp⟩ := planNetworkReconcile_ok hok
      exact .inl (hp.labs ▸ h)
    · exact .inl h
  | deleteLab labId => exact .inl (List.mem_of_mem_filter h)

theorem networks_read (calls : List Call) :
    ∀ lab ∈ (reach lower calls).labs, (Ip.ipNetwork lab.networkCidr).isSome = true := by
  induction calls using List.reverseRecOn with
  | nil => exact fun lab h => by cases h
  | append_singleton calls c ih =>
    intro lab h
    unfold reach at h
    rw [List.foldl_append] at h
    rcases mem_labs_exec h with hold | ⟨_, _, _, _, hc⟩
    · exact ih lab hold
    · exact hc.networkCidr.2.2

theorem labs_subset_exec {c : Call} (hc : Undeleted c) : db.labs ⊆ (exec lower db c).labs := by
  cases c with
  | createLab draws body =>
    rw [exec_createLab]
    rcases @createLab_cases lower db draws body with ⟨hsame, _⟩ | ⟨new, db', heq, hcreated⟩
    · rw [hsame]
      exact List.Subset.refl _
    · rw [heq, hcreated.labs]
      exact List.subset_append_left _ _
  | reconcile labId inventory hex =>
    unfold exec
    dsimp only
    split
    · rename_i db' plan hok
      obtain ⟨_, _, hp⟩ := planNetworkReconcile_ok hok
      rw [hp.labs]
      exact List.Subset.refl _
    · exact List.Subset.refl _
  | deleteLab labId => exact hc.elim

theorem labs_subset_reach {done calls : List Call} (hdone : done <+: calls) (h : ∀ c ∈ calls, Undeleted c) :
    (reach lower done).labs ⊆ (reach lower calls).labs := by
  obtain ⟨later, rfl⟩ := hdone
  induction later using List.reverseRecOn with
  | nil => simp
  | append_singleton later c ih =>
    have hrest : ∀ d ∈ done ++ later, Undeleted d := fun d hd => h d (by
      rw [← List.append_assoc]
      exact List.mem_append_left _ hd)
    have hlast : reach lower (done ++ (later ++ [c])) = exec lower (reach lower (done ++ later)) c := by
      unfold reach
      rw [← List.append_assoc, List.foldl_append, List.foldl_cons, List.foldl_nil]
    rw [hlast]
    exact List.Subset.trans (ih hrest) (labs_subset_exec (h c (by simp)))

end Labs

section Subnets
variable (lower : String → String)

def requiredSubnet (lab : Lab) : String := textOr lab.sdnSubnet lab.networkCidr

/-- A lab is created with no subnet of its own, or with one inside its network. -/
def SubnetInside : Call → Prop
  | .createLab _ body => ∀ m n, Ip.ipNetwork (strip body.sdnSubnet) = some m →
      Ip.ipNetwork (strip body.networkCidr) = some n → m.addresses ⊆ n.addresses
  | _ => True

def Granted (calls : List Call) (lab : Lab) : Prop :=
  ∃ done inventory hex db' plan, done ++ [.reconcile lab.id inventory hex] <+: calls ∧
    lab ∈ (reach lower done).labs ∧
    planNetworkReconcile lower (reach lower done) lab.id inventory hex = .ok (db', plan) ∧ plan.status ≠ .blocked

variable {lower} {db : LabsDb} {calls : List Call} {a b : Lab}

theorem subnet_subset_of_created {draws : Draws} {body : LabCreateBody} {db' : LabsDb}
    (hc : Created lower db draws body a db') (hinside : SubnetInside (.createLab draws body)) {m n : Ip.Network}
    (hm : Ip.ipNetwork (requiredSubnet a) = some m) (hn : Ip.ipNetwork a.networkCidr = some n) :
    m.addresses ⊆ n.addresses := by
  have hsame : Ip.ipNetwork a.networkCidr = some m → m.addresses ⊆ n.addresses := by
    intro hm
    rw [Option.some.inj (hm.symm.trans hn)]
  obtain ⟨hcidr, _, _⟩ := hc.networkCidr
  obtain ⟨valid, hvalid, hlab⟩ := hc.valid
  obtain ⟨_, rfl⟩ := validateBody_ok hvalid
  have hsubnet : a.sdnSubnet = strip (textOr body.sdnSubnet (strip body.networkCidr)) := by rw [hlab]; rfl
  by_cases hempty : body.sdnSubnet = ""
  · rw [hempty, textOr, if_pos rfl, strip_strip, ← hcidr] at hsubnet
    rw [requiredSubnet, hsubnet, textOr, ite_self] at hm
    exact hsame hm
  · rw [textOr, if_neg hempty] at hsubnet
    unfold requiredSubnet textOr at hm
    split at hm
    · exact hsame hm
    · rw [hsubnet] at hm
      rw [hcidr] at hn
      exact hinside m n hm hn

theorem subnet_subset_of_reached (hinside : ∀ c ∈ calls, SubnetInside c) (ha : a ∈ (reach lower calls).labs)
    {m n : Ip.Network} (hm : Ip.ipNetwork (requiredSubnet a) = some m) (hn : Ip.ipNetwork a.networkCidr = some n) :
    m.addresses ⊆ n.addresses := by
  induction calls using List.reverseRecOn with
  | nil => cases ha
  | append_singleton calls c ih =>
    unfold reach at ha
    rw [List.foldl_append] at ha
    rcases mem_labs_exec ha with hold | ⟨draws, body, db', rfl, hc⟩
    · exact ih (fun d hd => hinside d (List.mem_append_left _ hd)) hold
    · exact subnet_subset_of_created hc (hinside _ (by simp)) hm hn

theorem not_overlap_of_planned (hk : Kept db) (ha : a ∈ db.labs) (hb : b ∈ db.labs) (hne : a.id ≠ b.id)
    {inventory : Inventory} {hex : String} {db' : LabsDb} {plan : Plan}
    (hok : planNetworkReconcile lower db b.id inventory hex = .ok (db', plan)) (hstatus : plan.status ≠ .blocked) :
    ¬ Overlap b.networkCidr a.networkCidr := by
  intro hmeet
  obtain ⟨lab, hlab, hp⟩ := planNetworkReconcile_ok hok
  obtain ⟨hmem, hid⟩ := getLab_some hlab
  obtain rfl : lab = b := List.inj_on_of_nodup_map hk.ids hmem hb hid
  rcases hp.outcome with ⟨overlap, rest, _, _, hplan⟩ | ⟨hnone, _, _⟩
  · rw [hplan] at hstatus
    exact hstatus rfl
  · obtain ⟨r, hr, hrl, hrt, hrv, hrs⟩ := (hk.cidrs a.id a.networkCidr).mpr ⟨a, ha, rfl, rfl⟩
    have hfound := (findOverlapping_ok hnone (r := r)).mpr
      ⟨hr, activeCidr_iff.mpr ⟨hrt, hrs⟩, by rw [hrl]; exact hne, by rw [hrv]; exact hmeet⟩
    cases hfound

theorem not_overlap_of_granted (hkept : ∀ c ∈ calls, Undeleted c) (ha : Granted lower calls a)
    (hb : Granted lower calls b) (hne : a.id ≠ b.id) : ¬ Overlap a.networkCidr b.networkCidr := by
  obtain ⟨doneA, invA, hexA, dbA, planA, hprefixA, hmemA, hokA, hstatusA⟩ := ha
  obtain ⟨doneB, invB, hexB, dbB, planB, hprefixB, hmemB, hokB, hstatusB⟩ := hb
  have hbeforeA := (List.prefix_append doneA _).trans hprefixA
  have hbeforeB := (List.prefix_append doneB _).trans hprefixB
  rcases List.prefix_or_prefix_of_prefix hbeforeA hbeforeB with hle | hle
  · have hthere := labs_subset_reach hle (fun c hc => hkept c (hbeforeB.subset hc)) hmemA
    exact fun hmeet => not_overlap_of_planned (kept_reach _) hthere hmemB hne hokB hstatusB hmeet.symm
  · have hthere := labs_subset_reach hle (fun c hc => hkept c (hbeforeA.subset hc)) hmemB
    exact not_overlap_of_planned (kept_reach _) hthere hmemA hne.symm hokA hstatusA

theorem Granted.mem_labs (hkept : ∀ c ∈ calls, Undeleted c) (h : Granted lower calls a) :
    a ∈ (reach lower calls).labs := by
  obtain ⟨done, _, _, _, _, hprefix, hmem, _⟩ := h
  exact labs_subset_reach ((List.prefix_append done _).trans hprefix) hkept hmem

/-- Labs with plans that are not blocked share no zone, no VNet and, where every subnet lies in
the network of its lab, no address. -/
theorem networks_are_separate (hkept : ∀ c ∈ calls, Undeleted c) (hinside : ∀ c ∈ calls, SubnetInside c)
    (ha : Granted lower calls a) (hb : Granted lower calls b) (hne : a.id ≠ b.id) (hexA hexB : String) :
    (requiredNetwork lower a hexA).zone ≠ (requiredNetwork lower b hexB).zone ∧
    (requiredNetwork lower a hexA).vnet ≠ (requiredNetwork lower b hexB).vnet ∧
    ¬ Overlap (requiredNetwork lower a hexA).subnet (requiredNetwork lower b hexB).subnet := by
  have hmemA := ha.mem_labs hkept
  have hmemB := hb.mem_labs hkept
  obtain ⟨hzone, hvnet⟩ := zones_and_vnets_differ (identified_reach calls) hmemA hmemB hne hexA hexB
  refine ⟨hzone, hvnet, ?_⟩
  rintro ⟨m, n, hm, hn, hmeet⟩
  have hread : ∀ lab ∈ (reach lower calls).labs, ∃ network, Ip.ipNetwork lab.networkCidr = some network :=
    fun lab hlab => Option.isSome_iff_exists.mp (networks_read calls lab hlab)
  obtain ⟨netA, hnetA⟩ := hread a hmemA
  obtain ⟨netB, hnetB⟩ := hread b hmemB
  refine not_overlap_of_granted hkept ha hb hne ⟨netA, netB, hnetA, hnetB, fun hdisjoint => hmeet ?_⟩
  exact hdisjoint.mono (subnet_subset_of_reached hinside hmemA hm hnetA) (subnet_subset_of_reached hinside hmemB hn hnetB)

def labRow (labId : LabId) (code cidr : String) (sdnSubnet : String) : Lab where
  id := labId
  name := code
  slug := code
  shortCode := code
  groupTag := code
  networkCidr := cidr
  gatewayIp := ""
  networkMode := "sdn"
  sdnZone := code ++ "z"
  sdnVnet := code ++ "vn"
  sdnSubnet := sdnSubnet

theorem granted_of_fixing (n : Nat) (inventory : Inventory)
    (hat : calls[n]? = some (.reconcile a.id inventory "")) (hmem : a ∈ (reach lower (calls.take n)).labs)
    (hstatus : ((planNetworkReconcile lower (reach lower (calls.take n)) a.id inventory "").map
      fun r => r.2.status).toOption = some .fixing) : Granted lower calls a := by
  cases hok : planNetworkReconcile lower (reach lower (calls.take n)) a.id inventory "" with
  | error e =>
    rw [hok] at hstatus
    cases hstatus
  | ok r =>
    rw [hok] at hstatus
    have hfixing : r.2.status = .fixing := Option.some.inj hstatus
    refine ⟨calls.take n, inventory, "", r.1, r.2, ?_, hmem, hok, by rw [hfixing]; decide⟩
    obtain ⟨hlt, hget⟩ := List.getElem?_eq_some_iff.mp hat
    rw [← hget, List.take_append_getElem hlt]
    exact List.take_prefix _ _

def neighbours : List Call :=
  [labOn 1 "alpha" "10.50.1.0/24", labOn 2 "beta" "10.50.2.0/24", .reconcile 1 {} "", .reconcile 2 {} ""]

theorem neighbours_are_separate :
    (requiredNetwork Foundation.lower (labRow 1 "alpha" "10.50.1.0/24" "10.50.1.0/24") "").zone ≠
      (requiredNetwork Foundation.lower (labRow 2 "beta" "10.50.2.0/24" "10.50.2.0/24") "").zone ∧
    (requiredNetwork Foundation.lower (labRow 1 "alpha" "10.50.1.0/24" "10.50.1.0/24") "").vnet ≠
      (requiredNetwork Foundation.lower (labRow 2 "beta" "10.50.2.0/24" "10.50.2.0/24") "").vnet ∧
    ¬ Overlap (requiredNetwork Foundation.lower (labRow 1 "alpha" "10.50.1.0/24" "10.50.1.0/24") "").subnet
      (requiredNetwork Foundation.lower (labRow 2 "beta" "10.50.2.0/24" "10.50.2.0/24") "").subnet := by
  have hnone : Ip.ipNetwork (strip "") = none := by decide +kernel
  refine @networks_are_separate Foundation.lower neighbours _ _ ?_ ?_ (granted_of_fixing 2 {} rfl (by decide +kernel)
    (by decide +kernel)) (granted_of_fixing 3 {} rfl (by decide +kernel) (by decide +kernel)) (by decide) "" ""
  · intro c hc
    simp only [neighbours, List.mem_cons, List.not_mem_nil, or_false] at hc
    rcases hc with rfl | rfl | rfl | rfl <;> trivial
  · intro c hc
    simp only [neighbours, List.mem_cons, List.not_mem_nil, or_false] at hc
    rcases hc with rfl | rfl | rfl | rfl
    · intro m n hm
      cases hnone.symm.trans hm
    · intro m n hm
      cases hnone.symm.trans hm
    · trivial
    · trivial

def strayed : List Call :=
  [labOn 1 "alpha" "10.50.1.0/24",
    .createLab { labId := 2 }
      { name := "beta", shortCode := "beta", groupTag := "beta", networkCidr := "10.50.2.0/24",
        sdnSubnet := "10.50.1.128/25" },
    .reconcile 1 {} "", .reconcile 2 {} ""]

theorem strayed_subnet_is_shared :
    Granted Foundation.lower strayed (labRow 1 "alpha" "10.50.1.0/24" "10.50.1.0/24") ∧
    Granted Foundation.lower strayed (labRow 2 "beta" "10.50.2.0/24" "10.50.1.128/25") ∧
    Overlap (requiredNetwork Foundation.lower (labRow 1 "alpha" "10.50.1.0/24" "10.50.1.0/24") "").subnet
      (requiredNetwork Foundation.lower (labRow 2 "beta" "10.50.2.0/24" "10.50.1.128/25") "").subnet :=
  ⟨granted_of_fixing 2 {} rfl (by decide +kernel) (by decide +kernel),
    granted_of_fixing 3 {} rfl (by decide +kernel) (by decide +kernel),
    overlapTexts_iff.mp (by decide +kernel)⟩

end Subnets

end ProxmoxVEAutopilot.ManagedLabs
