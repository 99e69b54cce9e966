import ProxmoxVEAutopilot.ManagedLabs.PlanSession

/-!
# What a failed plan leaves

A plan resolves the findings and supersedes the fix actions of its lab before it looks for
anything that may fail, and the handler that records the failure commits on the same
connection. So a plan that raises leaves its lab alone only where there was nothing to clear
and nothing had been found missing.
-/

namespace ProxmoxVEAutopilot.ManagedLabs.PlanSession

open Foundation
open Foundation.Transaction (read write commit runs_bind_ok runs_write_bind_ok)
open Escalation (RunId LabRow ReconcileDb startReconcileRun finishReconcileRun statusText)

set_option autoImplicit false

section Untouched

def openFinding (s : State) (i : Nat) : Option FindingRow := s.findings[i]?.filter fun r => r.status = "open"

def fixStatus (s : State) (i : Nat) : Option String := s.fixes[i]?.map fun r => r.status

def Untouched (s t : State) : Prop :=
  (∀ i, openFinding t i = openFinding s i) ∧ ∀ i, fixStatus t i = fixStatus s i

/-- There is nothing that a plan of the lab would clear. -/
def NothingCurrent (s : State) (labId : LabId) : Prop :=
  (∀ r ∈ s.findings, ¬ r.current labId) ∧ ∀ r ∈ s.fixes, ¬ r.current labId

instance (s : State) (labId : LabId) : Decidable (NothingCurrent s labId) := inferInstanceAs (Decidable (_ ∧ _))

variable {s t : State} {labId : LabId}

theorem cleared_findings : (s.cleared labId).findings =
    s.findings.map fun r => if r.current labId then { r with status := "resolved" } else r := rfl

theorem cleared_fixes : (s.cleared labId).fixes =
    s.fixes.map fun r => if r.current labId then { r with status := "superseded" } else r := rfl

/-- What is open after the clearing and more findings is what was open, if and only if nothing
was cleared and nothing more was found. -/
theorem openFinding_cleared_iff {new : List FindingRow} (hnew : ∀ r ∈ new, r.status = "open")
    (ht : t.findings = (s.cleared labId).findings ++ new) :
    (∀ i, openFinding t i = openFinding s i) ↔ (∀ r ∈ s.findings, ¬ r.current labId) ∧ new = [] := by
  constructor
  · intro h
    constructor
    · intro r hr hcurrent
      obtain ⟨i, hi, rfl⟩ := List.getElem_of_mem hr
      have hsame := h i
      unfold openFinding at hsame
      rw [ht, cleared_findings, List.getElem?_append_left (by simpa using hi), List.getElem?_map,
        List.getElem?_eq_getElem hi, Option.map_some, if_pos hcurrent] at hsame
      simp [Option.filter, hcurrent.2.1] at hsame
    · cases new with
      | nil => rfl
      | cons r rest =>
        have hsame := h s.findings.length
        have hopen : r.status = "open" := hnew r List.mem_cons_self
        unfold openFinding at hsame
        rw [ht, cleared_findings, List.getElem?_append_right (by simp)] at hsame
        simp [Option.filter, hopen] at hsame
  · rintro ⟨hnone, rfl⟩ i
    unfold openFinding
    rw [ht, List.append_nil, cleared_findings, List.getElem?_map]
    cases hi : s.findings[i]? with
    | none => rfl
    | some r => rw [Option.map_some, if_neg (hnone r (List.mem_of_getElem? hi))]

theorem fixStatus_cleared_iff (ht : t.fixes = (s.cleared labId).fixes) :
    (∀ i, fixStatus t i = fixStatus s i) ↔ ∀ r ∈ s.fixes, ¬ r.current labId := by
  constructor
  · intro h r hr hcurrent
    obtain ⟨i, hi, rfl⟩ := List.getElem_of_mem hr
    have hsame := h i
    unfold fixStatus at hsame
    rw [ht, cleared_fixes, List.getElem?_map, List.getElem?_eq_getElem hi, Option.map_some, Option.map_some,
      Option.map_some, if_pos hcurrent] at hsame
    have hstatus : "superseded" ∈ currentStatuses := by
      have hstatus := Option.some.inj hsame
      dsimp only at hstatus
      rw [hstatus]
      exact hcurrent.2.1
    exact absurd hstatus (by decide)
  · intro hnone i
    unfold fixStatus
    rw [ht, cleared_fixes, List.getElem?_map]
    cases hi : s.fixes[i]? with
    | none => rfl
    | some r => rw [Option.map_some, if_neg (hnone r (List.mem_of_getElem? hi))]

end Untouched

section Along

/-- Findings are only added, and are open. -/
def Grows (s t : State) : Prop := ∃ new, t.findings = s.findings ++ new ∧ ∀ r ∈ new, r.status = "open"

/-- Findings, fix actions and reservations stay. -/
def Quiet (s t : State) : Prop := t.findings = s.findings ∧ t.fixes = s.fixes

theorem Grows.refl (s : State) : Grows s s := ⟨[], (List.append_nil _).symm, fun r hr => by cases hr⟩

theorem Grows.trans (s t u : State) (hst : Grows s t) (htu : Grows t u) : Grows s u := by
  obtain ⟨new, hnew, hopen⟩ := hst
  obtain ⟨more, hmore, hmoreOpen⟩ := htu
  refine ⟨new ++ more, by rw [hmore, hnew, List.append_assoc], fun r hr => ?_⟩
  exact (List.mem_append.mp hr).elim (hopen r) (hmoreOpen r)

theorem Quiet.grows {s t : State} (h : Quiet s t) : Grows s t :=
  ⟨[], by rw [h.1, List.append_nil], fun r hr => by cases hr⟩

theorem Quiet.trans (s t u : State) (hst : Quiet s t) (htu : Quiet t u) : Quiet s u :=
  ⟨htu.1.trans hst.1, htu.2.trans hst.2⟩

/-- A finding more, and perhaps others after it. -/
def Found (s t : State) : Prop := ∃ new ≠ [], t.findings = s.findings ++ new ∧ ∀ r ∈ new, r.status = "open"

theorem Found.then {s t u : State} (h : Found s t) (hgrows : Grows t u) : Found s u := by
  obtain ⟨new, hne, hnew, hopen⟩ := h
  obtain ⟨more, hmore, hmoreOpen⟩ := hgrows
  refine ⟨new ++ more, by simp [hne], by rw [hmore, hnew, List.append_assoc], fun r hr => ?_⟩
  exact (List.mem_append.mp hr).elim (hopen r) (hmoreOpen r)

theorem Quiet.found {s t u : State} (h : Quiet s t) (hfound : Found t u) : Found s u := by
  obtain ⟨new, hne, hnew, hopen⟩ := hfound
  exact ⟨new, hne, by rw [hnew, h.1], hopen⟩

variable {α β : Type} {p : Session α} {k : α → Session β} {s t : State} {r : Except PlanError α}

theorem check_along {R : State → State → Prop} (q : Except PlanError α) : (check q).Along R := by
  cases q <;> trivial

theorem quiet_attempt (hp : p.Along Quiet) (h : p.attempt.runs s = .ok (r, t)) : Quiet s t :=
  hp.attempt.runs (fun _ => ⟨rfl, rfl⟩) Quiet.trans h

theorem grows_attempt (hp : p.Along Grows) (h : p.attempt.runs s = .ok (r, t)) : Grows s t :=
  hp.attempt.runs Grows.refl Grows.trans h

theorem found_attempt_bind {q : Except PlanError β} (hp : ∀ r t, p.attempt.runs s = .ok (r, t) → Found s t)
    (hk : ∀ a, (k a).Along Grows) (h : (p >>= k).attempt.runs s = .ok (q, t)) : Found s t := by
  rcases Transaction.attempt_bind_cases h with ⟨e, _, hraised⟩ | ⟨a, u, hfirst, hrest⟩
  · exact hp _ _ hraised
  · exact (hp _ _ hfirst).then (grows_attempt (hk a) hrest)

theorem attempt_check_bind {q : Except PlanError α} {x : Except PlanError β}
    (h : (check q >>= k).attempt.runs s = .ok (x, t)) :
    (∃ e, q = .error e ∧ x = .error e ∧ t = s) ∨ ∃ a, q = .ok a ∧ (k a).attempt.runs s = .ok (x, t) := by
  cases q with
  | ok a => exact .inr ⟨a, rfl, h⟩
  | error e =>
    cases h
    exact .inl ⟨e, rfl, rfl, rfl⟩

end Along

section Statements
variable {lower : String → String} {str : Json → String} {hex : String} {lab : Lab} {runId : RunId}
variable {inventory : List (String × Json)} {s t : State}

theorem upsertObjects_along (objects : List (BoundaryObject × List (String × String))) :
    (upsertObjects objects).Along Quiet := by
  refine ⟨fun s b t h => ?_, fun _ => trivial⟩
  dsimp only at h
  split at h
  · cases h
    exact ⟨rfl, rfl⟩
  · cases h

theorem upsertObjects_cases {objects : List (BoundaryObject × List (String × String))} {r : Except PlanError Unit}
    (h : (upsertObjects objects).attempt.runs s = .ok (r, t)) :
    r = .ok () ∧ ∃ identities, t = { s with db := { s.db with identities } } := by
  obtain ⟨_, u, hwrite, hdone⟩ := Transaction.attempt_write_bind_cases (k := pure) h
  cases hdone
  dsimp only at hwrite
  split at hwrite
  · cases hwrite
    exact ⟨rfl, _, rfl⟩
  · cases hwrite

theorem ensureLabBoundaryModel_along : (ensureLabBoundaryModel lower hex lab).Along Quiet :=
  fun _ => (check_along _).bind fun _ => upsertObjects_along _

theorem syncLabNetworkCurrentState_along : (syncLabNetworkCurrentState lower str hex lab inventory).Along Quiet :=
  ensureLabBoundaryModel_along.bind fun _ => (check_along _).bind fun _ => upsertObjects_along _

theorem reserveCidr_along : (reserveCidr lab).Along Quiet := by
  refine Transaction.Along.bind ⟨fun s b t h => ?_, fun _ => trivial⟩ fun _ => check_along _
  dsimp only at h
  split at h
  · cases h
    exact ⟨rfl, rfl⟩
  · cases h
    exact ⟨rfl, rfl⟩

theorem recordFinding_along (labId : LabId) (finding : Finding) : (recordFinding labId runId finding).Along Grows := by
  refine ⟨fun s b t h => ?_, fun _ => trivial⟩
  cases h
  exact ⟨_, rfl, fun r hr => by rw [List.mem_singleton.mp hr]⟩

theorem createFixAction_along (labId : LabId) (action : FixAction) :
    (createFixAction labId runId action).Along Grows := by
  refine ⟨fun s b t h => ?_, fun _ => trivial⟩
  dsimp only at h
  split at h
  · cases h
    exact Grows.refl _
  · cases h
    exact Grows.refl _

variable {missing : Bool} {findingType actionType detail : String} {priority : Nat} {request : Json}

theorem recordFixable_along :
    (recordFixable missing lab runId findingType actionType detail priority request).Along Grows := by
  unfold recordFixable
  split
  · exact (recordFinding_along _ _).bind fun _ => (createFixAction_along _ _).bind fun _ => trivial
  · trivial

theorem recordFixable_found {r : Except PlanError (List (Finding × FixAction))}
    (h : (recordFixable true lab runId findingType actionType detail priority request).attempt.runs s = .ok (r, t)) :
    Found s t := by
  unfold recordFixable at h
  rw [if_pos rfl] at h
  refine found_attempt_bind ?_ ?_ h
  · intro r t h
    cases h
    exact ⟨_, by simp, rfl, fun r hr => by rw [List.mem_singleton.mp hr]⟩
  · exact fun _ => (createFixAction_along _ _).bind fun _ => trivial

theorem closePlan_along (missing : List (Finding × FixAction)) :
    (closePlan lower str hex lab runId inventory missing).Along Grows := by
  have hsync : (syncLabNetworkCurrentState lower str hex lab inventory).Along Grows :=
    syncLabNetworkCurrentState_along.mono fun _ _ h => h.grows
  cases missing with
  | nil => exact hsync.bind fun _ => trivial
  | cons x rest => exact hsync.bind fun _ => (createFixAction_along _ _).bind fun _ => trivial

theorem closePlan_ready_along : (closePlan lower str hex lab runId inventory []).Along Quiet :=
  syncLabNetworkCurrentState_along.bind fun _ => trivial

theorem reserveCidr_cases {r : Except PlanError Unit} (h : (reserveCidr lab).attempt.runs s = .ok (r, t)) :
    (∃ reservations, reserveValue lab.id "cidr" s.db.reservations lab.networkCidr = .ok reservations) ∧ r = .ok () ∨
    (∀ reservations, reserveValue lab.id "cidr" s.db.reservations lab.networkCidr ≠ .ok reservations) ∧
      ∃ e, r = .error e := by
  obtain ⟨reserved, u, hwrite, hcheck⟩ := Transaction.attempt_write_bind_cases h
  cases hreserve : reserveValue lab.id "cidr" s.db.reservations lab.networkCidr with
  | ok reservations =>
    rw [hreserve] at hwrite
    cases hwrite
    cases hcheck
    exact .inl ⟨⟨reservations, rfl⟩, rfl⟩
  | error e =>
    rw [hreserve] at hwrite
    cases hwrite
    cases hcheck
    exact .inr ⟨fun _ hok => (by cases hok), .lab e, rfl⟩

theorem recordBlocked_raises {finding : Finding} {e : PlanError}
    (h : (recordBlocked lower str hex lab runId inventory finding).attempt.runs s = .ok (.error e, t)) : Quiet s t := by
  rcases Transaction.attempt_bind_cases h with ⟨_, _, hraised⟩ | ⟨_, u, _, hrest⟩
  · exact quiet_attempt syncLabNetworkCurrentState_along hraised
  · cases hrest

end Statements

section Raises
variable (lower : String → String) (str : Json → String) (hex : String)

/-- One of the three objects is not among those that were read. -/
def Missing (inventory : List (String × Json)) (network : NetworkShape) (seen : List String × List String) : Prop :=
  network.zone ∉ seen.1 ∨ network.vnet ∉ seen.2 ∨ subnetExists str inventory network = .ok false

/-- An object of the lab is missing, and that is found out before a row of the inventory
cannot be read. -/
def FindsMissing (lab : Lab) (inventory : List (String × Json)) : Prop :=
  lab.networkMode = "sdn" ∧ ∃ seen, readNetwork str inventory (requiredNetwork lower lab hex) = .ok seen ∧
    Missing str inventory (requiredNetwork lower lab hex) seen

/-- The plan of the lab comes to record what is missing. -/
def Proposes (s : State) (lab : Lab) (inventory : List (String × Json)) : Prop :=
  findOverlappingCidrReservations s.db.reservations lab.networkCidr lab.id = .ok [] ∧
    (∃ reservations, reserveValue lab.id "cidr" s.db.reservations lab.networkCidr = .ok reservations) ∧
    FindsMissing lower str hex lab inventory

variable {lower str hex} {lab : Lab} {runId : RunId} {inventory : List (String × Json)} {s t : State} {e : PlanError}

theorem planMissing_raises {network : NetworkShape} {seen : List String × List String}
    (h : (planMissing lower str hex lab runId inventory network seen).attempt.runs s = .ok (.error e, t)) :
    Missing str inventory network seen ∧ Found s t ∨ ¬ Missing str inventory network seen ∧ Quiet s t := by
  unfold planMissing at h
  by_cases hzone : network.zone ∈ seen.1
  · rw [show (!seen.1.contains network.zone) = false by simpa using hzone] at h
    by_cases hvnet : network.vnet ∈ seen.2
    · rw [show (!seen.2.contains network.vnet) = false by simpa using hvnet] at h
      rcases attempt_check_bind h with ⟨_, hsubnet, _, rfl⟩ | ⟨found, hsubnet, hrest⟩
      · exact .inr ⟨by simp [Missing, hzone, hvnet, hsubnet], rfl, rfl⟩
      · cases found with
        | true =>
          -- nothing is missing, and what raises is the reading of the current state
          have hclose : (closePlan lower str hex lab runId inventory []).attempt.runs s = .ok (.error e, t) := hrest
          exact .inr ⟨by simp [Missing, hzone, hvnet, hsubnet], quiet_attempt closePlan_ready_along hclose⟩
        | false =>
          refine .inl ⟨.inr (.inr hsubnet), found_attempt_bind (fun r t => recordFixable_found) ?_ hrest⟩
          exact fun subnet => closePlan_along _
    · rw [show (!seen.2.contains network.vnet) = true by simpa using hvnet] at h
      refine .inl ⟨.inr (.inl hvnet), found_attempt_bind (fun r t => recordFixable_found) (fun vnet => ?_) h⟩
      exact (check_along _).bind fun found => recordFixable_along.bind fun subnet => closePlan_along _
  · rw [show (!seen.1.contains network.zone) = true by simpa using hzone] at h
    refine .inl ⟨.inl hzone, found_attempt_bind (fun r t => recordFixable_found) (fun zone => ?_) h⟩
    refine recordFixable_along.bind fun vnet => (check_along _).bind fun found => ?_
    exact recordFixable_along.bind fun subnet => closePlan_along _

theorem planReserved_raises
    (h : (planReserved lower str hex lab runId inventory).attempt.runs s = .ok (.error e, t)) :
    FindsMissing lower str hex lab inventory ∧ Found s t ∨
      ¬ FindsMissing lower str hex lab inventory ∧ Quiet s t := by
  unfold planReserved at h
  split at h
  · rename_i hmode
    exact .inr ⟨fun hfinds => hmode hfinds.1, recordBlocked_raises h⟩
  · rename_i hmode
    have hsdn : lab.networkMode = "sdn" := not_not.mp hmode
    rcases attempt_check_bind h with ⟨_, hread, _, rfl⟩ | ⟨seen, hread, hrest⟩
    · refine .inr ⟨?_, rfl, rfl⟩
      rintro ⟨_, seen, hseen, _⟩
      rw [hread] at hseen
      cases hseen
    · rcases planMissing_raises hrest with ⟨hmissing, hfound⟩ | ⟨hnone, hquiet⟩
      · exact .inl ⟨⟨hsdn, seen, hread, hmissing⟩, hfound⟩
      · refine .inr ⟨?_, hquiet⟩
        rintro ⟨_, other, hother, hmissing⟩
        rw [hread] at hother
        cases hother
        exact hnone hmissing

theorem planOverlaps_raises {overlaps : List Reservation}
    (h : (planOverlaps lower str hex lab runId inventory overlaps).attempt.runs s = .ok (.error e, t))
    (hoverlaps : findOverlappingCidrReservations s.db.reservations lab.networkCidr lab.id = .ok overlaps) :
    Proposes lower str hex s lab inventory ∧ Found s t ∨
      ¬ Proposes lower str hex s lab inventory ∧ Quiet s t := by
  cases overlaps with
  | cons overlap rest =>
    refine .inr ⟨?_, recordBlocked_raises h⟩
    rintro ⟨hnone, _⟩
    rw [hoverlaps] at hnone
    cases hnone
  | nil =>
    rcases Transaction.attempt_bind_cases h with ⟨_, _, hraised⟩ | ⟨_, u, hreserved, hrest⟩
    · rcases reserveCidr_cases hraised with ⟨_, hok⟩ | ⟨hrefused, _⟩
      · cases hok
      · refine .inr ⟨?_, quiet_attempt reserveCidr_along hraised⟩
        rintro ⟨_, ⟨reservations, hok⟩, _⟩
        exact hrefused reservations hok
    · have hquiet : Quiet s u := quiet_attempt reserveCidr_along hreserved
      rcases reserveCidr_cases hreserved with ⟨hok, _⟩ | ⟨_, e, herror⟩
      · rcases planReserved_raises hrest with ⟨hfinds, hfound⟩ | ⟨hnone, hrest⟩
        · exact .inl ⟨⟨hoverlaps, hok, hfinds⟩, hquiet.found hfound⟩
        · exact .inr ⟨fun hproposes => hnone hproposes.2.2, Quiet.trans _ _ _ hquiet hrest⟩
      · cases herror

theorem planLab_raises (h : (planLab lower str hex lab runId inventory).attempt.runs s = .ok (.error e, t)) :
    (∃ e, namingPolicy (s.desiredState lab.id) = .error e) ∧ t = s ∨
    (∃ policy, namingPolicy (s.desiredState lab.id) = .ok policy) ∧
      (Proposes lower str hex s lab inventory ∧ Found (s.cleared lab.id) t ∨
        ¬ Proposes lower str hex s lab inventory ∧ Quiet (s.cleared lab.id) t) := by
  rcases Transaction.attempt_bind_cases h with ⟨_, _, hraised⟩ | ⟨_, u, hensured, hrest⟩
  · replace hraised := Transaction.attempt_read_bind_cases hraised
    rcases attempt_check_bind hraised with ⟨e, hpolicy, _, rfl⟩ | ⟨_, _, hupsert⟩
    · exact .inl ⟨⟨e, hpolicy⟩, rfl⟩
    · cases (upsertObjects_cases hupsert).1
  · replace hensured := Transaction.attempt_read_bind_cases hensured
    rcases attempt_check_bind hensured with ⟨_, _, hok, _⟩ | ⟨policy, hpolicy, hupsert⟩
    · cases hok
    · obtain ⟨_, identities, rfl⟩ := upsertObjects_cases hupsert
      obtain ⟨_, v, hcleared, hrest⟩ := Transaction.attempt_write_bind_cases hrest
      cases hcleared
      refine .inr ⟨⟨policy, hpolicy⟩, ?_⟩
      replace hrest := Transaction.attempt_read_bind_cases hrest
      rcases attempt_check_bind hrest with ⟨_, hoverlaps, _, rfl⟩ | ⟨overlaps, hoverlaps, hrest⟩
      · refine .inr ⟨?_, rfl, rfl⟩
        rintro ⟨hnone, _⟩
        have hnone' : findOverlappingCidrReservations s.db.reservations lab.networkCidr lab.id = .ok [] := hnone
        simp [State.cleared, hnone', Except.mapError] at hoverlaps
      · have hok : findOverlappingCidrReservations s.db.reservations lab.networkCidr lab.id = .ok overlaps := by
          cases hfound : findOverlappingCidrReservations s.db.reservations lab.networkCidr lab.id with
          | ok found =>
            simpa [State.cleared, hfound, Except.mapError] using hoverlaps
          | error e =>
            simp [State.cleared, hfound, Except.mapError] at hoverlaps
        exact planOverlaps_raises hrest hok

end Raises

section Callers
variable (lower : String → String) (str : Json → String) (hex : String)

/-- What the failure of a plan leaves as it was: it raised before the clearing, or there is
nothing to clear and nothing was recorded. -/
def LeavesAlone (s : State) (labId : LabId) (inventory : List (String × Json)) : Prop :=
  ∀ lab, getLab s.db labId = some lab → (∃ e, namingPolicy (s.desiredState lab.id) = .error e) ∨
    NothingCurrent s lab.id ∧ ¬ Proposes lower str hex s lab inventory

def Caller.labId : Caller → LabId
  | .sweep lab _ => lab.id
  | .endpoint labId _ => labId

def Caller.inventory : Caller → Except PlanError (List (String × Json))
  | .sweep _ inventory => .ok inventory
  | .endpoint _ inventory => inventory

/-- Without an inventory no plan is begun. -/
def Caller.LeavesAlone (s : State) (caller : Caller) : Prop :=
  ∀ inventory, caller.inventory = .ok inventory → PlanSession.LeavesAlone lower str hex s caller.labId inventory

variable {lower str hex} {s t u : State} {lab : Lab} {labId : LabId} {runId : RunId}

theorem untouched_refl : Untouched s s := ⟨fun _ => rfl, fun _ => rfl⟩

theorem untouched_found (h : Found (s.cleared labId) t) : ¬ Untouched s t := by
  obtain ⟨new, hne, hnew, hopen⟩ := h
  exact fun huntouched => hne ((openFinding_cleared_iff hopen hnew).mp huntouched.1).2

theorem untouched_quiet (h : Quiet (s.cleared labId) t) : Untouched s t ↔ NothingCurrent s labId := by
  unfold Untouched NothingCurrent
  have hnew : t.findings = (s.cleared labId).findings ++ [] := by rw [h.1, List.append_nil]
  rw [openFinding_cleared_iff (fun r hr => by cases hr) hnew, fixStatus_cleared_iff h.2, and_iff_left rfl]

theorem planNetworkReconcile_untouched {inventory : List (String × Json)} {e : PlanError}
    (h : (planNetworkReconcile lower str hex labId inventory runId).attempt.runs s = .ok (.error e, t)) :
    Untouched s t ↔ LeavesAlone lower str hex s labId inventory := by
  replace h := Transaction.attempt_read_bind_cases h
  cases hlab : getLab s.db labId with
  | none =>
    rw [hlab] at h
    cases h
    exact iff_of_true untouched_refl fun lab hsome => by rw [hlab] at hsome; cases hsome
  | some lab =>
    rw [hlab] at h
    have hiff : LeavesAlone lower str hex s labId inventory ↔
        (∃ e, namingPolicy (s.desiredState lab.id) = .error e) ∨ NothingCurrent s lab.id ∧ ¬ Proposes lower str hex s lab inventory := by
      unfold LeavesAlone
      rw [hlab]
      simp
    rw [hiff]
    rcases planLab_raises h with ⟨hpolicy, rfl⟩ | ⟨⟨policy, hpolicy⟩, ⟨hproposes, hfound⟩ | ⟨hnone, hquiet⟩⟩
    · exact iff_of_true untouched_refl (.inl hpolicy)
    · refine iff_of_false (untouched_found hfound) ?_
      rintro (⟨e, herror⟩ | ⟨_, hnone⟩)
      · rw [hpolicy] at herror
        cases herror
      · exact hnone hproposes
    · rw [untouched_quiet hquiet]
      simp [hpolicy, hnone]

theorem startRun_cases {attempt : Nat} (h : (startRun labId attempt).runs s = .ok (runId, t)) :
    t = { s with rows := startReconcileRun s.rows labId attempt } ∧ runId = s.rows.nextRunId := by
  obtain ⟨_, u, hwrite, hdone⟩ := runs_write_bind_ok.mp h
  split at hwrite
  · cases hwrite
    cases hdone
    exact ⟨rfl, rfl⟩
  · cases hwrite

theorem finishRun_cases {status : String} {x : Unit} (h : (finishRun runId status).runs s = .ok (x, t)) :
    t = { s with rows := finishReconcileRun s.rows runId status } ∧ ∃ r ∈ s.rows.runs, r.id = runId := by
  obtain ⟨_, u, hwrite, hdone⟩ := runs_write_bind_ok.mp h
  split at hwrite
  · rename_i hany
    cases hwrite
    cases hdone
    exact ⟨rfl, by simpa using hany⟩
  · cases hwrite

theorem finishPlan_failed {result : Except PlanError Plan}
    (h : (finishPlan runId result).runs s = .ok (.failed, t)) :
    (∃ e, result = .error e) ∧ ∃ x, (finishRun runId "failed").runs s = .ok (x, t) := by
  cases result with
  | ok plan =>
    obtain ⟨_, u, _, hdone⟩ := runs_bind_ok.mp h
    cases hdone
  | error e =>
    obtain ⟨x, u, hfinish, hdone⟩ := runs_bind_ok.mp h
    cases hdone
    exact ⟨⟨e, rfl⟩, x, hfinish⟩

theorem runPlan_failed {row : LabRow} {inventory : Except PlanError (List (String × Json))}
    (h : (runPlan lower str hex row inventory).runs s = .ok (.failed, t)) :
    ∃ e u, (check inventory >>= fun inventory =>
        planNetworkReconcile lower str hex row.id inventory s.rows.nextRunId).attempt.runs
          { s with rows := startReconcileRun s.rows row.id (row.retryCount + 1) } = .ok (.error e, u) ∧
      t = { u with rows := finishReconcileRun u.rows s.rows.nextRunId "failed" } ∧
      ∃ r ∈ u.rows.runs, r.id = s.rows.nextRunId := by
  obtain ⟨runId, u, hstart, h⟩ := runs_bind_ok.mp h
  obtain ⟨result, v, hplan, hfinish⟩ := runs_bind_ok.mp h
  obtain ⟨rfl, rfl⟩ := startRun_cases hstart
  obtain ⟨⟨e, rfl⟩, x, hfinish⟩ := finishPlan_failed hfinish
  exact ⟨e, v, hplan, finishRun_cases hfinish⟩

theorem runPlan_untouched {row : LabRow} {inventory : Except PlanError (List (String × Json))}
    (h : (runPlan lower str hex row inventory).runs s = .ok (.failed, t)) :
    Untouched s t ↔ ∀ inv, inventory = .ok inv → PlanSession.LeavesAlone lower str hex s row.id inv := by
  obtain ⟨e, u, hraised, rfl, _⟩ := runPlan_failed h
  have hrows : Untouched s { u with rows := finishReconcileRun u.rows s.rows.nextRunId "failed" } ↔
      Untouched { s with rows := startReconcileRun s.rows row.id (row.retryCount + 1) } u := Iff.rfl
  rw [hrows]
  rcases attempt_check_bind hraised with ⟨e, rfl, _, rfl⟩ | ⟨inv, rfl, hplan⟩
  · exact iff_of_true untouched_refl fun inv hinv => by cases hinv
  · rw [planNetworkReconcile_untouched hplan]
    constructor
    · rintro halone _ ⟨⟩
      exact halone
    · exact fun h => h inv rfl

theorem finishPlan_closes (result : Except PlanError Plan) : (finishPlan runId result).Closes false := by
  cases result with
  | ok plan => exact fun _ => rfl
  | error e => exact fun _ => rfl

theorem runPlan_closes (row : LabRow) (inventory : Except PlanError (List (String × Json))) :
    (runPlan lower str hex row inventory).Closes true :=
  Transaction.Closes.bind fun _ => Transaction.Closes.bind fun result => finishPlan_closes result

theorem session_closes (caller : Caller) : (caller.session lower str hex).Closes true := by
  cases caller with
  | sweep row inventory => exact runPlan_closes row (.ok inventory)
  | endpoint labId inventory =>
    intro row
    cases row with
    | none => trivial
    | some row => exact runPlan_closes row inventory

theorem session_failed {caller : Caller} (h : (caller.session lower str hex).runs s = .ok (.failed, t)) :
    ∃ row : LabRow, row.id = caller.labId ∧
      (runPlan lower str hex row caller.inventory).runs s = .ok (.failed, t) := by
  cases caller with
  | sweep row inventory => exact ⟨row, rfl, h⟩
  | endpoint labId inventory =>
    cases hrow : s.rows.labs.find? fun l => l.id = labId with
    | none =>
      simp only [Caller.session, reconcileLab, Transaction.runs_read_bind, hrow] at h
      cases h
    | some row =>
      simp only [Caller.session, reconcileLab, Transaction.runs_read_bind, hrow] at h
      exact ⟨row, of_decide_eq_true (List.find?_some (p := fun l : LabRow => decide (l.id = labId)) hrow), h⟩

section Performed
variable (lower str hex) (lost : PlanError) (answers : Option Nat) (s) (caller : Caller)

/-- After a plan that raised, findings and fix actions are what they were, if and only if it
raised before the clearing, or nothing was cleared and nothing recorded. -/
theorem failed_plan_untouched_iff (h : ((caller.session lower str hex).perform lost answers s).1 = .ok .failed) :
    Untouched s ((caller.session lower str hex).perform lost answers s).2 ↔ caller.LeavesAlone lower str hex s := by
  obtain ⟨row, hrow, hruns⟩ := session_failed ((session_closes caller).execute_ok (fun _ => rfl) h)
  refine (runPlan_untouched hruns).trans ?_
  unfold Caller.LeavesAlone
  rw [hrow]

end Performed

def staleState : State where
  db :=
    { labs := [⟨1, "Lab", "lab", "lab", "LAB", "10.0.0.0/24", "10.0.0.1", "sdn", "labz", "labvn", "10.0.0.0/24"⟩]
      reservations := [⟨1, "cidr", "10.0.0.0/24", "active"⟩, ⟨2, "cidr", "corp-lan", "active"⟩] }
  rows := { labs := [{ id := 1 }] }
  findings := [⟨1, 0, ⟨"proxmox", "sdn_zone_missing", "fixable", "SDN zone labz is missing.", .obj []⟩, "open"⟩]

def staleSweep : Session Answer := reconcileLabOnce id (fun _ => "") "" { id := 1 } []

theorem stale_finding_resolved : (staleSweep.perform .connectionLost none staleState).1 = .ok .failed ∧
    ¬ Untouched staleState (staleSweep.perform .connectionLost none staleState).2 := by
  constructor
  · rfl
  · intro h
    have hopen := congrArg Option.isSome (h.1 0)
    revert hopen
    decide +kernel

def clearState : State := { staleState with findings := [] }

theorem nothing_cleared : Untouched clearState (staleSweep.perform .connectionLost none clearState).2 := by
  have hiff := failed_plan_untouched_iff id (fun _ => "") "" clearState .connectionLost none (.sweep { id := 1 } []) rfl
  refine hiff.mpr ?_
  rintro inventory ⟨⟩ lab ⟨⟩
  refine .inr ⟨⟨?_, ?_⟩, fun hproposes => ?_⟩
  · intro r hr
    cases hr
  · intro r hr
    cases hr
  have hnone : (findOverlappingCidrReservations clearState.db.reservations "10.0.0.0/24" 1).toOption.isSome = true := by
    rw [show findOverlappingCidrReservations clearState.db.reservations "10.0.0.0/24" 1 = .ok [] from hproposes.1]
    rfl
  revert hnone
  decide +kernel

end Callers

end ProxmoxVEAutopilot.ManagedLabs.PlanSession
