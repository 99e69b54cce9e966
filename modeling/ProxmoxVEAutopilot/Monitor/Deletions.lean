import ProxmoxVEAutopilot.Monitor.FailedProbes

/-!
# Machines that disappear

The timeline has a deletion wherever an absent row follows a present one. The sweep writes
rows of the machines it is given, and they are all present.
-/

namespace ProxmoxVEAutopilot.Monitor

open Foundation
set_option autoImplicit false

def fieldText (config : Json) (key : String) : Option String :=
  match config.get? key with
  | some (.str s) => some s
  | _ => none

/-- `probe_pve` with the columns of `PveSnapshot`; `digest` hashes the fields that count. -/
def probePve (digest : Json → String) (vmid : Int) (node : String) (config : Json) (entry : VmEntry) (now : Time) :
    PveSnapshot where
  checkedAt := now
  vmid := vmid
  present := true
  node := some node
  name := fieldText config "name"
  status := entry.status
  configDigest := digest config
  args := fieldText config "args"

section Detector
variable {prev row : PveSnapshot} {rows : List PveSnapshot}

/-- The timeline's deletions are the steps from a present row to an absent one. -/
theorem pveChange_deleted_iff :
    (∀ e ∈ pveChange prev row, e.type ≠ "deleted") ↔ ¬ (prev.present = true ∧ row.present = false) := by
  unfold pveChange
  split
  · rename_i hgone
    rw [Bool.and_eq_true, Bool.not_eq_true'] at hgone
    simp [hgone]
  · rename_i hstays
    refine iff_of_true ?_ fun h => hstays (by simp [h])
    intro e he
    simp only [List.mem_append] at he
    rcases he with (he | he) | he
    · split at he
      · cases he
      · rw [List.mem_singleton.mp he]
        dsimp only
        split_ifs
        · decide
        · decide
        · intro htype
          have := congrArg String.toList htype
          simp at this
    · split at he
      · rw [List.mem_singleton.mp he]
        exact fun htype : "migration" = "deleted" => absurd htype (by decide)
      · cases he
    · split at he
      · split at he
        · rw [List.mem_singleton.mp he]
          exact fun htype : "smbios-reconfig" = "deleted" => absurd htype (by decide)
        · rw [List.mem_singleton.mp he]
          exact fun htype : "config-changed" = "deleted" => absurd htype (by decide)
      · cases he

theorem pveTransitions_deleted_iff :
    (∀ e ∈ pveTransitions rows, e.type ≠ "deleted") ↔
      rows.IsChain fun prev row => ¬ (prev.present = true ∧ row.present = false) := by
  have hfirst : ∀ s r, id s = none → ∀ e ∈ (pveStep s r).1, e.type ≠ "deleted" := by
    rintro _ row rfl e he
    rw [List.mem_singleton.mp he]
    exact fun htype : "first-observed" = "deleted" => absurd htype (by decide)
  have hlast : ∀ s r, id (pveStep s r).2 = some r := by
    intro s r
    cases s with
    | none => rfl
    | some prev => rfl
  have hnext : ∀ s p r, id s = some p →
      ((∀ e ∈ (pveStep s r).1, e.type ≠ "deleted") ↔ ¬ (p.present = true ∧ r.present = false)) := by
    rintro _ p r rfl
    exact pveChange_deleted_iff
  exact forall_walk_iff pveStep id hlast hfirst hnext rows none

theorem source_adTransitions (lowerCase : String → String) (rows : List ProbeRow) :
    ∀ e ∈ adTransitions lowerCase rows, e.source = .ad := by
  refine forall_walk (fun prev row e he => ?_) rows none
  cases prev with
  | none =>
    unfold adStep at he
    dsimp only at he
    split at he
    · cases he
    · rw [List.mem_singleton.mp he]
  | some prev =>
    simp only [adStep, adChange, List.mem_append, List.mem_flatMap, List.mem_map] at he
    rcases he with (⟨p, _, he⟩ | ⟨p, _, rfl⟩) | ⟨p, _, rfl⟩
    · split at he
      · simp only [adObjectChange, List.mem_append] at he
        rcases he with (he | he) | he
        · split_ifs at he <;> simp_all
        · split_ifs at he <;> simp_all
        · split_ifs at he <;> simp_all
      · cases he
    · rfl
    · rfl

theorem source_entraTransitions (minutes : Nat) (rows : List ProbeRow) :
    ∀ e ∈ entraTransitions minutes rows, e.source = .entra := by
  refine forall_walk (fun s row e he => ?_) rows ({} : EntraState)
  unfold entraStep at he
  dsimp only at he
  split at he
  · cases he
  · simp only [entraChange, List.mem_append] at he
    rcases he with (((he | he) | he) | he) | he
    · split_ifs at he <;> simp_all
    · split_ifs at he <;> simp_all
    · split_ifs at he <;> simp_all
    · unfold syncPending at he
      split at he
      · cases he
      · split_ifs at he <;> simp_all
    · obtain ⟨m, _, hm⟩ := List.mem_filterMap.mp he
      split at hm
      · cases hm
      · split_ifs at hm
        cases hm
        rfl

theorem source_intuneTransitions (rows : List ProbeRow) : ∀ e ∈ intuneTransitions rows, e.source = .intune := by
  refine forall_walk (fun prev row e he => ?_) rows none
  cases prev with
  | none =>
    simp only [intuneStep] at he
    split at he
    · cases he
    · rw [List.mem_singleton.mp he]
      rfl
  | some prev =>
    simp only [intuneStep, intuneChange] at he
    split at he
    · rw [List.mem_singleton.mp he]
    · rw [List.mem_singleton.mp he]
      rfl
    · unfold complianceChange at he
      split at he
      · split_ifs at he <;> simp_all
      · cases he

theorem mem_pveTransitions_of_timeline {lowerCase : String → String} {probes : List ProbeRow} {e : Event}
    (h : e ∈ buildTimeline lowerCase rows probes) (hsource : e.source = .pve) : e ∈ pveTransitions rows := by
  unfold buildTimeline at h
  rw [List.mem_mergeSort, List.mem_append, List.mem_append, List.mem_append] at h
  rcases h with ((h | h) | h) | h
  · exact h
  · rw [source_adTransitions lowerCase probes e h] at hsource
    cases hsource
  · rw [source_entraTransitions 45 probes e h] at hsource
    cases hsource
  · rw [source_intuneTransitions probes e h] at hsource
    cases hsource

end Detector

section Collector
variable {digest : Json → String} {input : SweepInput} {r : PveSnapshot}

theorem present_of_mem_sweep (h : r ∈ (sweep (probePve digest) input).snapshots) : r.present = true := by
  obtain ⟨v, _, rfl⟩ := List.mem_map.mp h
  unfold Visit.snapshot
  split
  · rfl
  · rfl

end Collector

/-- The machine is listed and in scope. -/
def Observed (input : SweepInput) (vmid : Int) : Prop := ∃ v ∈ input.visits, v.vm.vmid = vmid

/-- The list of machines was read and the machine is not in it. -/
def Missing (input : SweepInput) (vmid : Int) : Prop :=
  ∃ vms, input.ctx.listPveVms = .ok vms ∧ ∀ vm ∈ vms, vm.vmid ≠ vmid

section Histories
variable (digest : Json → String) (lowerCase : String → String) (history : List SweepInput)

def snapshotsOf (vmid : Int) : List PveSnapshot :=
  history.flatMap fun input => (sweep (probePve digest) input).snapshots.filter fun r => r.vmid = vmid

/-- The timeline over the rows of the machine. -/
def timelineOf (vmid : Int) : List Event :=
  buildTimeline lowerCase (snapshotsOf digest history vmid) (rowsOf (probePve digest) vmid history)

/-- The sweep `t` records that the machine is gone, and the timeline says so; once it is back
in a later sweep the timeline says that too. -/
def RecordsDeletion (vmid : Int) (t : SweepInput) (after : List SweepInput) : Prop :=
  ∃ r ∈ (sweep (probePve digest) t).snapshots, r.vmid = vmid ∧ r.present = false ∧
    (∃ e ∈ timelineOf digest lowerCase history vmid, e.source = .pve ∧ e.type = "deleted" ∧ e.atTime = r.checkedAt) ∧
    ∀ u ∈ after, Observed u vmid → ∃ e ∈ timelineOf digest lowerCase history vmid,
      e.source = .pve ∧ e.type ≠ "deleted" ∧
        ∃ q ∈ snapshotsOf digest after vmid, q.present = true ∧ e.atTime = q.checkedAt

/-- Machines that leave are recorded as deleted; one whose configuration merely could not be
read is not, and one that stays in every list has no deletion in its timeline. -/
structure DeletionsRecorded : Prop where
  left : ∀ {before s t after vmid}, history = before ++ s :: t :: after → Observed s vmid → Missing t vmid →
    RecordsDeletion digest lowerCase history vmid t after
  failed : ∀ input ∈ history, ∀ v ∈ input.visits, ∀ raised, v.ctx.fetchPveConfig v.vm.vmid v.node = .error raised →
    ∀ r ∈ (sweep (probePve digest) input).snapshots, r.vmid = v.vm.vmid → r.present = true
  kept : ∀ vmid, (∀ input ∈ history, ¬ Missing input vmid) →
    ∀ e ∈ timelineOf digest lowerCase history vmid, e.source = .pve → e.type ≠ "deleted"

/-- No machine that one sweep observes is missing from the next list. -/
def NoneLeaves : Prop :=
  ∀ before s t after vmid, history = before ++ s :: t :: after → Observed s vmid → ¬ Missing t vmid

variable {digest lowerCase history}

theorem no_deletion_in_timeline (vmid : Int) :
    ∀ e ∈ pveTransitions (snapshotsOf digest history vmid), e.type ≠ "deleted" := by
  rw [pveTransitions_deleted_iff]
  have hpresent : ∀ r ∈ snapshotsOf digest history vmid, r.present = true := by
    intro r hr
    obtain ⟨input, _, hmem⟩ := List.mem_flatMap.mp hr
    exact present_of_mem_sweep (List.mem_filter.mp hmem).1
  rw [List.isChain_iff_getElem]
  rintro i hi ⟨_, hgone⟩
  rw [hpresent _ (List.getElem_mem _)] at hgone
  cases hgone

theorem not_recordsDeletion {vmid : Int} {t : SweepInput} {after : List SweepInput} :
    ¬ RecordsDeletion digest lowerCase history vmid t after := by
  rintro ⟨r, hr, _, habsent, _⟩
  rw [present_of_mem_sweep hr] at habsent
  cases habsent

variable (digest lowerCase history) in
theorem deletions_recorded_iff : DeletionsRecorded digest lowerCase history ↔ NoneLeaves history := by
  constructor
  · intro h before s t after vmid hhistory hobserved hmissing
    exact not_recordsDeletion (h.left hhistory hobserved hmissing)
  · intro h
    refine ⟨fun hhistory hobserved hmissing => absurd hmissing (h _ _ _ _ _ hhistory hobserved), ?_, ?_⟩
    · intro input _ v _ raised _ r hr _
      exact present_of_mem_sweep hr
    · intro vmid _ e he hsource
      exact no_deletion_in_timeline vmid e (mem_pveTransitions_of_timeline he hsource)

end Histories

def listing (vms : List VmEntry) : SweepInput where
  searchOus := []
  ctx := {
    listPveVms := .ok vms
    fetchPveConfig := fun _ _ => .ok (.obj [])
    fetchGuestDetails := fun _ _ => .ok none
    adSearch := fun _ _ => .ok []
    graphFindEntraDevice := fun _ => .ok []
    graphFindIntuneDevice := fun _ => .ok []
    graphFindEntraDeviceByDeviceId := fun _ => .ok []
    snapshotNow := fun _ => 0
    probeNow := fun _ => 0 }

/-- The only machine is removed between two sweeps. -/
theorem removed_not_recorded :
    ¬ DeletionsRecorded (fun _ => "") id [listing [{ vmid := 100, tags := some "autopilot" }], listing []] ∧
      (sweep (probePve fun _ => "") (listing [])).snapshots = [] := by
  refine ⟨fun h => ?_, rfl⟩
  have hobserved : Observed (listing [{ vmid := 100, tags := some "autopilot" }]) 100 :=
    ⟨_, List.mem_singleton_self _, rfl⟩
  exact not_recordsDeletion (h.left (rfl : _ = [] ++ _ :: _ :: []) hobserved ⟨[], rfl, fun _ h => nomatch h⟩)

end ProxmoxVEAutopilot.Monitor
