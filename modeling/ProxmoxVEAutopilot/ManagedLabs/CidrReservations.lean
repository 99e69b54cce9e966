import ProxmoxVEAutopilot.Foundation.Runs
import ProxmoxVEAutopilot.ManagedLabs.Effects

/-!
# Reservations of networks

A reconcile refuses a network that overlaps the reservation of another lab; the creation of
a lab reserves whatever text no other lab has. So the reservations stay disjoint exactly
as long as no lab is created on a network that is taken.
-/

namespace ProxmoxVEAutopilot.ManagedLabs

open Foundation
set_option autoImplicit false

section Overlap

def Overlap (a b : String) : Prop :=
  ∃ m n, Ip.ipNetwork a = some m ∧ Ip.ipNetwork b = some n ∧ ¬ Disjoint m.addresses n.addresses

theorem overlapTexts_iff {a b : String} : overlapTexts a b = true ↔ Overlap a b := by
  unfold overlapTexts Overlap
  cases ha : Ip.ipNetwork a with
  | none => simp
  | some m =>
    cases hb : Ip.ipNetwork b with
    | none => simp
    | some n => simp [Ip.Network.overlaps_iff]

theorem Overlap.symm {a b : String} (h : Overlap a b) : Overlap b a := by
  obtain ⟨m, n, ha, hb, hmeet⟩ := h
  exact ⟨n, m, hb, ha, fun hdisjoint => hmeet hdisjoint.symm⟩

/-- The active networks of two labs have no address in common. -/
def CidrsDisjoint (reservations : List Reservation) : Prop :=
  ∀ r ∈ reservations, ∀ s ∈ reservations, activeCidr r = true → activeCidr s = true → r.labId ≠ s.labId →
    ¬ Overlap r.value s.value

theorem cidrsDisjoint_iff {rs : List Reservation} : CidrsDisjoint rs ↔
    ∀ k v l w, Reserves rs k "cidr" v → Reserves rs l "cidr" w → k ≠ l → ¬ Overlap v w := by
  constructor
  · rintro h k v l w ⟨r, hr, rfl, hrt, rfl, hrs⟩ ⟨s, hs, rfl, hst, rfl, hss⟩ hne
    exact h r hr s hs (activeCidr_iff.mpr ⟨hrt, hrs⟩) (activeCidr_iff.mpr ⟨hst, hss⟩) hne
  · intro h r hr s hs hra hsa hne
    obtain ⟨hrt, hrs⟩ := activeCidr_iff.mp hra
    obtain ⟨hst, hss⟩ := activeCidr_iff.mp hsa
    exact h r.labId r.value s.labId s.value ⟨r, hr, rfl, hrt, rfl, hrs⟩ ⟨s, hs, rfl, hst, rfl, hss⟩ hne

theorem findOverlapping_ok {rs overlaps : List Reservation} {cidr : String} {labId : LabId}
    (h : findOverlappingCidrReservations rs cidr labId = .ok overlaps) {r : Reservation} :
    r ∈ overlaps ↔ r ∈ rs ∧ activeCidr r = true ∧ r.labId ≠ labId ∧ Overlap cidr r.value := by
  unfold findOverlappingCidrReservations at h
  dsimp only at h
  split at h
  · cases h
  · cases h
    simp only [List.mem_filter, Bool.and_eq_true, bne_iff_ne, overlapTexts_iff, and_assoc]

end Overlap

section Invariant

/-- The active networks are those of the labs, one each. -/
structure Kept (db : LabsDb) : Prop where
  ids : (db.labs.map Lab.id).Nodup
  cidrs : ∀ l v, Reserves db.reservations l "cidr" v ↔ ∃ lab ∈ db.labs, lab.id = l ∧ lab.networkCidr = v
  stripped : ∀ lab ∈ db.labs, strip lab.networkCidr = lab.networkCidr

theorem kept_empty : Kept {} := by
  refine ⟨List.nodup_nil, fun l v => ?_, fun lab h => by cases h⟩
  simp [Reserves]

variable {lower : String → String} {db db' : LabsDb}

theorem Kept.created {draws : Draws} {body : LabCreateBody} {lab : Lab} (h : Kept db)
    (hc : Created lower db draws body lab db') : Kept db' := by
  obtain ⟨_, hstrip, _⟩ := hc.networkCidr
  refine ⟨?_, ?_, ?_⟩
  · rw [hc.labs, List.map_append, List.map_singleton, List.nodup_append_comm, List.singleton_append, List.nodup_cons]
    refine ⟨fun hmem => ?_, h.ids⟩
    obtain ⟨l, hl, hid⟩ := List.mem_map.mp hmem
    exact hc.fresh l hl hid
  · intro l v
    rw [hc.reservations, h.cidrs, hc.labs, hstrip]
    simp only [List.mem_append, List.mem_singleton, or_and_right, exists_or, exists_eq_left]
    rw [eq_comm (a := l), eq_comm (a := v)]
  · intro l hl
    rw [hc.labs] at hl
    rcases List.mem_append.mp hl with hold | hnew
    · exact h.stripped l hold
    · rw [List.mem_singleton.mp hnew]
      exact hstrip

theorem Kept.reserves_planned {inventory : Inventory} {hex : String} {lab : Lab} {plan : Plan} (h : Kept db)
    (hlab : lab ∈ db.labs) (hp : Planned lower db inventory hex lab db' plan) (l : LabId) (v : String) :
    Reserves db'.reservations l "cidr" v ↔ Reserves db.reservations l "cidr" v := by
  rcases hp.outcome with ⟨_, _, _, hsame, _⟩ | ⟨_, hreserved, _⟩
  · rw [hsame]
  · rw [reserves_reserveValue hreserved, or_iff_left_iff_imp]
    rintro ⟨rfl, _, rfl⟩
    exact (h.cidrs _ _).mpr ⟨lab, hlab, rfl, (h.stripped lab hlab).symm⟩

theorem Kept.planned {inventory : Inventory} {hex : String} {lab : Lab} {plan : Plan} (h : Kept db)
    (hlab : lab ∈ db.labs) (hp : Planned lower db inventory hex lab db' plan) : Kept db' := by
  refine ⟨by rw [hp.labs]; exact h.ids, fun l v => ?_, by rw [hp.labs]; exact h.stripped⟩
  rw [h.reserves_planned hlab hp, h.cidrs, hp.labs]

theorem Kept.deleted (h : Kept db) (labId : LabId) : Kept (deleteLab db labId) := by
  refine ⟨h.ids.sublist (List.filter_sublist.map _), ?_, fun lab hlab => h.stripped lab (List.mem_of_mem_filter hlab)⟩
  intro l v
  show Reserves (db.reservations.filter fun r => r.labId ≠ labId) l "cidr" v ↔
    ∃ lab ∈ db.labs.filter fun lab => lab.id ≠ labId, lab.id = l ∧ lab.networkCidr = v
  rw [reserves_delete, h.cidrs]
  constructor
  · rintro ⟨⟨lab, hlab, rfl, hv⟩, hne⟩
    exact ⟨lab, List.mem_filter.mpr ⟨hlab, decide_eq_true hne⟩, rfl, hv⟩
  · rintro ⟨lab, hlab, rfl, hv⟩
    obtain ⟨hmem, hne⟩ := List.mem_filter.mp hlab
    exact ⟨⟨lab, hmem, rfl, hv⟩, of_decide_eq_true hne⟩

theorem exec_createLab (draws : Draws) (body : LabCreateBody) :
    exec lower db (.createLab draws body) = (createLab lower db draws body).1 := rfl

theorem kept_exec (h : Kept db) (c : Call) : Kept (exec lower db c) := by
  cases c with
  | createLab draws body =>
    rw [exec_createLab]
    rcases createLab_cases db draws body with ⟨hsame, _⟩ | ⟨lab, db', heq, hc⟩
    · rw [hsame]
      exact h
    · rw [heq]
      exact h.created hc
  | reconcile labId inventory hex =>
    unfold exec
    dsimp only
    split
    · rename_i db' plan hok
      obtain ⟨lab, hlab, hp⟩ := planNetworkReconcile_ok hok
      exact h.planned (getLab_some hlab).1 hp
    · exact h
  | deleteLab labId => exact h.deleted labId

end Invariant

section Disjoint
variable (lower : String → String)

/-- A lab that is created is on a network that overlaps no active reservation. -/
def CreatedClear (db : LabsDb) : Call → Prop
  | .createLab draws body => (∃ lab, (createLab lower db draws body).2 = .created lab) →
      ∀ r ∈ db.reservations, activeCidr r = true → overlapTexts (strip body.networkCidr) r.value = false
  | _ => True

variable {lower} {db db' : LabsDb}

theorem cidrsDisjoint_created {draws : Draws} {body : LabCreateBody} {lab : Lab} (hk : Kept db)
    (hd : CidrsDisjoint db.reservations) (hc : Created lower db draws body lab db') :
    CidrsDisjoint db'.reservations ↔
      ∀ l v, Reserves db.reservations l "cidr" v → ¬ Overlap (strip body.networkCidr) v := by
  obtain ⟨hcidr, hstrip, _⟩ := hc.networkCidr
  have hnew : Reserves db'.reservations lab.id "cidr" (strip body.networkCidr) := by
    rw [hc.reservations]
    exact .inr ⟨rfl, by rw [hstrip, hcidr]⟩
  have hother : ∀ l v, Reserves db.reservations l "cidr" v → l ≠ lab.id := by
    rintro l v hold rfl
    obtain ⟨other, hmem, hid, _⟩ := (hk.cidrs _ _).mp hold
    exact hc.fresh other hmem hid
  rw [cidrsDisjoint_iff] at hd ⊢
  constructor
  · intro h l v hold
    exact h lab.id _ l v hnew ((hc.reservations l v).mpr (.inl hold)) (hother l v hold).symm
  · intro h k v l w hv hw hne
    rw [hc.reservations, hstrip, hcidr] at hv hw
    rcases hv with hv | ⟨rfl, rfl⟩
    · rcases hw with hw | ⟨rfl, rfl⟩
      · exact hd k v l w hv hw hne
      · exact fun hmeet => h k v hv hmeet.symm
    · rcases hw with hw | ⟨rfl, _⟩
      · exact h l w hw
      · exact absurd rfl hne

theorem cidrsDisjoint_exec_iff (hk : Kept db) (hd : CidrsDisjoint db.reservations) (c : Call) :
    CidrsDisjoint (exec lower db c).reservations ↔ CreatedClear lower db c := by
  cases c with
  | createLab draws body =>
    rw [exec_createLab]
    unfold CreatedClear
    dsimp only
    rcases createLab_cases db draws body with ⟨hsame, hnone⟩ | ⟨lab, db', heq, hc⟩
    · rw [hsame]
      refine iff_of_true hd ?_
      rintro ⟨lab, hcreated⟩
      exact absurd hcreated (hnone lab)
    · rw [heq, cidrsDisjoint_created hk hd hc]
      constructor
      · intro h _ r hr hactive
        obtain ⟨htype, hstatus⟩ := activeCidr_iff.mp hactive
        have hclear := h r.labId r.value ⟨r, hr, rfl, htype, rfl, hstatus⟩
        exact Bool.eq_false_iff.mpr fun hmeet => hclear (overlapTexts_iff.mp hmeet)
      · rintro h l v ⟨r, hr, _, htype, rfl, hstatus⟩ hmeet
        have hclear := h ⟨lab, rfl⟩ r hr (activeCidr_iff.mpr ⟨htype, hstatus⟩)
        rw [overlapTexts_iff.mpr hmeet] at hclear
        cases hclear
  | reconcile labId inventory hex =>
    refine iff_of_true ?_ trivial
    unfold exec
    dsimp only
    split
    · rename_i db' plan hok
      obtain ⟨lab, hlab, hp⟩ := planNetworkReconcile_ok hok
      rw [cidrsDisjoint_iff] at hd ⊢
      simpa only [hk.reserves_planned (getLab_some hlab).1 hp] using hd
    · exact hd
  | deleteLab labId =>
    refine iff_of_true (fun r hr s hs => ?_) trivial
    exact hd r (List.mem_of_mem_filter hr) s (List.mem_of_mem_filter hs)

end Disjoint

section Blocked
variable (lower : String → String)

/-- The plan of the lab is blocked because its network overlaps that of another lab. -/
def BlockedByOverlap (db : LabsDb) (labId : LabId) (inventory : Inventory) (hex : String) : Prop :=
  ∃ db' plan, planNetworkReconcile lower db labId inventory hex = .ok (db', plan) ∧ plan.status = .blocked ∧
    ∃ f ∈ plan.findings, f.findingType = "subnet_overlaps_existing_lab"

variable {lower} {db : LabsDb} {labId : LabId} {inventory : Inventory} {hex : String}

theorem networkPlan_not_blocked (lab : Lab) (network : NetworkShape) (inventory : Inventory) :
    (networkPlan lab network inventory).status ≠ .blocked := by
  unfold networkPlan
  split <;> simp

theorem overlap_of_blocked (h : BlockedByOverlap lower db labId inventory hex) :
    ∃ lab ∈ db.labs, ∃ r ∈ db.reservations, activeCidr r = true ∧ r.labId ≠ lab.id ∧
      Overlap lab.networkCidr r.value := by
  obtain ⟨db', plan, hok, hstatus, f, hf, htype⟩ := h
  obtain ⟨lab, hlab, hp⟩ := planNetworkReconcile_ok hok
  rcases hp.outcome with ⟨overlap, rest, hoverlaps, _, _⟩ | ⟨_, _, hplan⟩
  · obtain ⟨hmem, hactive, hne, hmeet⟩ := (findOverlapping_ok hoverlaps).mp (List.mem_cons_self (a := overlap))
    exact ⟨lab, (getLab_some hlab).1, overlap, hmem, hactive, hne, hmeet⟩
  · rw [hplan] at hstatus hf
    split at hstatus
    · rename_i hmode
      rw [if_pos hmode, List.mem_singleton] at hf
      rw [hf] at htype
      simp [bridgeFinding] at htype
    · exact absurd hstatus (networkPlan_not_blocked _ _ _)

theorem not_blockedByOverlap (hk : Kept db) (hd : CidrsDisjoint db.reservations) :
    ¬ BlockedByOverlap lower db labId inventory hex := by
  intro h
  obtain ⟨lab, hlab, r, hr, hactive, hne, hmeet⟩ := overlap_of_blocked h
  obtain ⟨s, hs, hsl, hst, hsv, hss⟩ := (hk.cidrs lab.id lab.networkCidr).mpr ⟨lab, hlab, rfl, rfl⟩
  refine hd s hs r hr (activeCidr_iff.mpr ⟨hst, hss⟩) hactive (hsl ▸ hne.symm) ?_
  rw [hsv]
  exact hmeet

end Blocked

section Runs
variable (lower : String → String)

def reach (calls : List Call) : LabsDb := calls.foldl (exec lower) {}

/-- In every state reached the reservations are disjoint, and no creation of a lab blocks the
plan of a lab that was there before. -/
def Separated (calls : List Call) : Prop :=
  (∀ done, done <+: calls → CidrsDisjoint (reach lower done).reservations) ∧
  ∀ done draws body, done ++ [.createLab draws body] <+: calls → ∀ labId inventory hex,
    labId ∈ (reach lower done).labs.map Lab.id →
    BlockedByOverlap lower (reach lower (done ++ [.createLab draws body])) labId inventory hex →
    BlockedByOverlap lower (reach lower done) labId inventory hex

variable {lower}

theorem kept_reach (calls : List Call) : Kept (reach lower calls) := by
  induction calls using List.reverseRecOn with
  | nil => exact kept_empty
  | append_singleton calls c ih =>
    unfold reach
    rw [List.foldl_append]
    exact kept_exec ih c

/-- The networks stay apart exactly if every lab is created on one that is clear. -/
theorem separated_iff (calls : List Call) :
    Separated lower calls ↔ Replays (CreatedClear lower) (exec lower) {} calls := by
  have hempty : CidrsDisjoint ({} : LabsDb).reservations := fun r hr => by cases hr
  have halong : Along (fun _ db : LabsDb => CidrsDisjoint db.reservations) (exec lower) {} calls ↔
      Replays (CreatedClear lower) (exec lower) {} calls :=
    along_iff_replays (P := fun db => Kept db ∧ CidrsDisjoint db.reservations)
      (fun _ h => h.2) (fun _ _ _ _ hlast => hlast) (fun db c h => cidrsDisjoint_exec_iff h.1 h.2 c)
      (fun db c h hclear => ⟨kept_exec h.1 c, (cidrsDisjoint_exec_iff h.1 h.2 c).mpr hclear⟩)
      ⟨kept_empty, hempty⟩
  rw [← halong]
  constructor
  · intro h js ks hjs
    exact h.1 (js ++ ks) hjs
  · intro h
    have hdisjoint : ∀ done, done <+: calls → CidrsDisjoint (reach lower done).reservations :=
      fun done hdone => h [] done hdone
    refine ⟨hdisjoint, fun done draws body hdone labId inventory hex _ hblocked => ?_⟩
    exact absurd hblocked (not_blockedByOverlap (kept_reach _) (hdisjoint _ hdone))

def labOn (labId : LabId) (code cidr : String) : Call :=
  .createLab { labId := labId } { name := code, shortCode := code, groupTag := code, networkCidr := cidr }

def nestedLabs : List Call := [labOn 1 "alpha" "10.50.0.0/16", labOn 2 "beta" "10.50.1.0/24"]

/-- The second lab is created inside the network of the first, whose plan is blocked from then on. -/
theorem nested_labs_overlap :
    (reach Foundation.lower nestedLabs).reservations.filter activeCidr =
      [⟨1, "cidr", "10.50.0.0/16", "active"⟩, ⟨2, "cidr", "10.50.1.0/24", "active"⟩] ∧
    ¬ BlockedByOverlap Foundation.lower (reach Foundation.lower (nestedLabs.take 1)) 1 {} "" ∧
    BlockedByOverlap Foundation.lower (reach Foundation.lower nestedLabs) 1 {} "" ∧
    ¬ Separated Foundation.lower nestedLabs := by
  have hactive : (reach Foundation.lower nestedLabs).reservations.filter activeCidr =
      [⟨1, "cidr", "10.50.0.0/16", "active"⟩, ⟨2, "cidr", "10.50.1.0/24", "active"⟩] := by decide +kernel
  have hbefore : ((planNetworkReconcile Foundation.lower (reach Foundation.lower (nestedLabs.take 1)) 1 {} "").map
      fun r => r.2.status).toOption = some .fixing := by decide +kernel
  have hafter : ((planNetworkReconcile Foundation.lower (reach Foundation.lower nestedLabs) 1 {} "").map
      fun r => (r.2.status, r.2.findings.map Finding.findingType)).toOption =
        some (.blocked, ["subnet_overlaps_existing_lab"]) := by decide +kernel
  refine ⟨hactive, ?_, ?_, ?_⟩
  · rintro ⟨db', plan, hok, hstatus, _⟩
    rw [hok] at hbefore
    have hfixing : plan.status = .fixing := Option.some.inj hbefore
    rw [hstatus] at hfixing
    cases hfixing
  · cases hplan : planNetworkReconcile Foundation.lower (reach Foundation.lower nestedLabs) 1 {} "" with
    | error e =>
      rw [hplan] at hafter
      cases hafter
    | ok r =>
      rw [hplan] at hafter
      have hpair := Option.some.inj hafter
      have htypes : r.2.findings.map Finding.findingType = ["subnet_overlaps_existing_lab"] := congrArg Prod.snd hpair
      obtain ⟨f, hf, htype⟩ := List.mem_map.mp (htypes ▸ List.mem_singleton_self "subnet_overlaps_existing_lab")
      exact ⟨r.1, r.2, hplan, congrArg Prod.fst hpair, f, hf, htype⟩
  · intro h
    have hall := h.1 nestedLabs (List.prefix_refl _)
    have hmem : ∀ r ∈ ([⟨1, "cidr", "10.50.0.0/16", "active"⟩, ⟨2, "cidr", "10.50.1.0/24", "active"⟩] :
        List Reservation), r ∈ (reach Foundation.lower nestedLabs).reservations := by
      intro r hr
      rw [← hactive] at hr
      exact List.mem_of_mem_filter hr
    refine hall _ (hmem ⟨1, "cidr", "10.50.0.0/16", "active"⟩ (by simp)) _
      (hmem ⟨2, "cidr", "10.50.1.0/24", "active"⟩ (by simp)) (by decide) (by decide) (by decide) ?_
    exact overlapTexts_iff.mp (by decide +kernel)

end Runs

end ProxmoxVEAutopilot.ManagedLabs
