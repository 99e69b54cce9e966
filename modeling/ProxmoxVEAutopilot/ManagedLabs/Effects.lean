import ProxmoxVEAutopilot.Foundation.Lists
import ProxmoxVEAutopilot.ManagedLabs.Reconcile

/-!
# What the calls do

One lemma for each function that writes: the reservations a call leaves, the identities
it leaves, and what a call that succeeds has checked.
-/

namespace ProxmoxVEAutopilot.ManagedLabs

open Foundation
set_option autoImplicit false

section Reservations

/-- The lab holds the value. -/
def Reserves (reservations : List Reservation) (labId : LabId) (reservationType value : String) : Prop :=
  ∃ r ∈ reservations, r.labId = labId ∧ r.reservationType = reservationType ∧ r.value = value ∧ r.status = "active"

variable {rs rs' : List Reservation} {labId l : LabId} {reservationType t value v : String}

theorem reserves_append {new : Reservation} : Reserves (rs ++ [new]) l t v ↔
    Reserves rs l t v ∨ new.labId = l ∧ new.reservationType = t ∧ new.value = v ∧ new.status = "active" := by
  unfold Reserves
  constructor
  · rintro ⟨r, hr, h⟩
    rcases List.mem_append.mp hr with hold | hnew
    · exact .inl ⟨r, hold, h⟩
    · rw [List.mem_singleton.mp hnew] at h
      exact .inr h
  · rintro (⟨r, hr, h⟩ | h)
    · exact ⟨r, List.mem_append_left _ hr, h⟩
    · exact ⟨new, List.mem_append_right _ (List.mem_singleton_self _), h⟩

theorem reserves_reserveValue (h : reserveValue labId reservationType rs value = .ok rs') :
    Reserves rs' l t v ↔ Reserves rs l t v ∨ l = labId ∧ t = reservationType ∧ v = strip value := by
  unfold reserveValue at h
  dsimp only at h
  split at h
  · cases h
    rw [reserves_append]
    simp [eq_comm]
  · rename_i found hfound
    split at h
    · rename_i howner
      cases h
      obtain ⟨htype, hvalue⟩ : found.reservationType = reservationType ∧ found.value = strip value := by
        simpa using List.find?_some hfound
      constructor
      · rintro ⟨r, hr, h⟩
        obtain ⟨s, hs, rfl⟩ := List.mem_map.mp hr
        split at h
        · rename_i hsame
          simp only [Bool.and_eq_true, beq_iff_eq] at hsame
          obtain ⟨⟨hst, hsv⟩, hsl⟩ := hsame
          exact .inr ⟨by rw [← h.1, hsl], by rw [← h.2.1, hst], by rw [← h.2.2.1, hsv]⟩
        · exact .inl ⟨s, hs, h⟩
      · rintro (⟨r, hr, hrl, hrt, hrv, hrs⟩ | ⟨rfl, rfl, rfl⟩)
        · refine ⟨_, List.mem_map_of_mem hr, ?_⟩
          split
          · exact ⟨hrl, hrt, hrv, rfl⟩
          · exact ⟨hrl, hrt, hrv, hrs⟩
        · refine ⟨_, List.mem_map_of_mem (List.mem_of_find?_eq_some hfound), ?_⟩
          simp [htype, hvalue, howner]
    · cases h

theorem reserves_reserveDefaultNames {lower : String → String} {shortCode role : String} {count : Nat}
    (h : reserveDefaultNames lower labId shortCode role count rs = .ok rs') :
    Reserves rs' l "cidr" v ↔ Reserves rs l "cidr" v := by
  refine foldlM_ok_invariant (P := fun _ r => Reserves r l "cidr" v ↔ Reserves rs l "cidr" v) ?_ Iff.rfl h
  intro name names r r' hr hname
  unfold reserveName at hname
  split at hname
  · cases hname
  · rw [reserves_reserveValue hname, or_iff_left (by simp), hr]

theorem reserves_delete : Reserves (rs.filter fun r => r.labId ≠ labId) l t v ↔ Reserves rs l t v ∧ l ≠ labId := by
  unfold Reserves
  constructor
  · rintro ⟨r, hr, hl, hrest⟩
    obtain ⟨hmem, hne⟩ := List.mem_filter.mp hr
    exact ⟨⟨r, hmem, hl, hrest⟩, hl ▸ of_decide_eq_true hne⟩
  · rintro ⟨⟨r, hr, hl, hrest⟩, hne⟩
    exact ⟨r, List.mem_filter.mpr ⟨hr, decide_eq_true (hl ▸ hne)⟩, hl, hrest⟩

theorem activeCidr_iff {r : Reservation} : activeCidr r = true ↔ r.reservationType = "cidr" ∧ r.status = "active" := by
  simp [activeCidr]

end Reservations

section Creates
variable (lower : String → String)

/-- What a lab that was created has passed. -/
structure Created (db : LabsDb) (draws : Draws) (body : LabCreateBody) (lab : Lab) (db' : LabsDb) : Prop where
  valid : ∃ valid, validateBody body = .ok valid ∧ lab = newLab lower draws valid
  fresh : ∀ l ∈ db.labs, l.id ≠ lab.id
  labs : db'.labs = db.labs ++ [lab]
  identities : ensureLabBoundaryModel lower db.identities lab draws.zoneHex = .ok db'.identities
  reservations : ∀ l v, Reserves db'.reservations l "cidr" v ↔
    Reserves db.reservations l "cidr" v ∨ l = lab.id ∧ v = strip lab.networkCidr

variable {lower} {db db' : LabsDb} {draws : Draws} {body : LabCreateBody} {lab : Lab}

theorem createLabRow_ok (h : createLabRow lower db draws body = .ok (db', lab)) :
    lab = newLab lower draws body ∧ (∀ l ∈ db.labs, l.id ≠ lab.id) ∧ db'.labs = db.labs ++ [lab] ∧
      db'.reservations = db.reservations ∧
      ensureLabBoundaryModel lower db.identities lab draws.zoneHex = .ok db'.identities := by
  unfold createLabRow at h
  simp only [bind, bind_ok] at h
  obtain ⟨_, _, h⟩ := h
  split at h
  · cases h
  · simp only [bind_ok] at h
    obtain ⟨labs, hlabs, identities, hidentities, h⟩ := h
    cases h
    unfold insertLab at hlabs
    split at hlabs
    · cases hlabs
    · rename_i hany
      cases hlabs
      refine ⟨rfl, fun l hl heq => hany ?_, rfl, rfl, hidentities⟩
      exact List.any_eq_true.mpr ⟨l, hl, by simp [heq]⟩

theorem createLabSteps_ok (h : createLabSteps lower db draws body = .ok (db', lab)) :
    lab = newLab lower draws body ∧ (∀ l ∈ db.labs, l.id ≠ lab.id) ∧ db'.labs = db.labs ++ [lab] ∧
      ensureLabBoundaryModel lower db.identities lab draws.zoneHex = .ok db'.identities ∧
      ∀ l v, Reserves db'.reservations l "cidr" v ↔
        Reserves db.reservations l "cidr" v ∨ l = lab.id ∧ v = strip lab.networkCidr := by
  unfold createLabSteps at h
  simp only [bind, bind_ok] at h
  obtain ⟨⟨created, lab'⟩, hrow, tagged, htagged, reserved, hreserved, wks, hwks, srv, hsrv, h⟩ := h
  cases h
  obtain ⟨hlab, hfresh, hlabs, hreservations, hidentities⟩ := createLabRow_ok hrow
  refine ⟨hlab, hfresh, hlabs, hidentities, fun l v => ?_⟩
  rw [reserves_reserveDefaultNames hsrv, reserves_reserveDefaultNames hwks, reserves_reserveValue hreserved,
    reserves_reserveValue htagged, hreservations]
  simp

theorem createLab_cases (db : LabsDb) (draws : Draws) (body : LabCreateBody) :
    ((createLab lower db draws body).1 = db ∧ ∀ lab, (createLab lower db draws body).2 ≠ .created lab) ∨
    ∃ lab db', createLab lower db draws body = (db', .created lab) ∧ Created lower db draws body lab db' := by
  unfold createLab
  split
  · exact .inl ⟨rfl, fun _ => by simp⟩
  · rename_i valid hvalid
    split
    · rename_i db' lab hsteps
      obtain ⟨hlab, hfresh, hlabs, hidentities, hreservations⟩ := createLabSteps_ok hsteps
      exact .inr ⟨lab, db', rfl, ⟨valid, hvalid, hlab⟩, hfresh, hlabs, hidentities, hreservations⟩
    · exact .inl ⟨rfl, fun _ => by simp⟩
    · exact .inl ⟨rfl, fun _ => by simp⟩

theorem validateBody_ok {valid : LabCreateBody} (h : validateBody body = .ok valid) :
    (Ip.ipNetwork (strip body.networkCidr)).isSome = true ∧
      valid = { body with networkCidr := strip body.networkCidr, gatewayIp := strip body.gatewayIp } := by
  unfold validateBody at h
  simp only [bind] at h
  split at h
  · cases h
  · rename_i hnone
    split at h
    · cases h
    split at h
    · cases h
    split at h
    · cases h
    cases h
    exact ⟨Option.isSome_iff_ne_none.mpr (by simpa using hnone), rfl⟩

theorem Created.networkCidr (h : Created lower db draws body lab db') :
    lab.networkCidr = strip body.networkCidr ∧ strip lab.networkCidr = lab.networkCidr ∧
      (Ip.ipNetwork lab.networkCidr).isSome = true := by
  obtain ⟨valid, hvalid, rfl⟩ := h.valid
  obtain ⟨hnetwork, rfl⟩ := validateBody_ok hvalid
  have hcidr : strip (strip body.networkCidr) = strip body.networkCidr := strip_strip _
  refine ⟨hcidr, strip_strip _, ?_⟩
  show (Ip.ipNetwork (strip (strip body.networkCidr))).isSome = true
  rw [hcidr]
  exact hnetwork

end Creates

section Plans
variable (lower : String → String)

/-- What a plan that was made has found. -/
structure Planned (db : LabsDb) (inventory : Inventory) (hex : String) (lab : Lab) (db' : LabsDb) (plan : Plan) :
    Prop where
  labs : db'.labs = db.labs
  identities : ∃ ensured, ensureLabBoundaryModel lower db.identities lab hex = .ok ensured ∧
    syncLabNetworkCurrentState lower ensured lab hex = .ok db'.identities
  outcome : (∃ overlap rest, findOverlappingCidrReservations db.reservations lab.networkCidr lab.id =
        .ok (overlap :: rest) ∧ db'.reservations = db.reservations ∧
        plan = { status := .blocked, findings := [overlapFinding lab overlap] }) ∨
    findOverlappingCidrReservations db.reservations lab.networkCidr lab.id = .ok [] ∧
      reserveValue lab.id "cidr" db.reservations lab.networkCidr = .ok db'.reservations ∧
      plan = if lab.networkMode ≠ "sdn" then { status := .blocked, findings := [bridgeFinding lab] }
        else networkPlan lab (requiredNetwork lower lab hex) inventory

variable {lower} {db db' : LabsDb} {labId : LabId} {inventory : Inventory} {hex : String} {plan : Plan}

theorem planNetworkReconcile_ok (h : planNetworkReconcile lower db labId inventory hex = .ok (db', plan)) :
    ∃ lab, getLab db labId = some lab ∧ Planned lower db inventory hex lab db' plan := by
  unfold planNetworkReconcile at h
  cases hlab : getLab db labId with
  | none =>
    rw [hlab] at h
    cases h
  | some lab =>
    rw [hlab] at h
    simp only [bind, bind_ok] at h
    obtain ⟨ensured, hensured, overlaps, hoverlaps, h⟩ := h
    refine ⟨lab, rfl, ?_⟩
    cases overlaps with
    | cons overlap rest =>
      simp only [bind_ok] at h
      obtain ⟨synced, hsynced, h⟩ := h
      cases h
      exact ⟨rfl, ⟨ensured, hensured, hsynced⟩, .inl ⟨overlap, rest, hoverlaps, rfl, rfl⟩⟩
    | nil =>
      simp only [bind_ok] at h
      obtain ⟨reserved, hreserved, synced, hsynced, h⟩ := h
      split at h
      · rename_i hmode
        cases h
        exact ⟨rfl, ⟨ensured, hensured, hsynced⟩, .inr ⟨hoverlaps, hreserved, (if_pos hmode).symm⟩⟩
      · rename_i hmode
        cases h
        exact ⟨rfl, ⟨ensured, hensured, hsynced⟩, .inr ⟨hoverlaps, hreserved, (if_neg hmode).symm⟩⟩

theorem getLab_some {lab : Lab} (h : getLab db labId = some lab) : lab ∈ db.labs ∧ lab.id = labId :=
  ⟨List.mem_of_find?_eq_some h, of_decide_eq_true (List.find?_some (p := fun l : Lab => decide (l.id = labId)) h)⟩

end Plans

end ProxmoxVEAutopilot.ManagedLabs
