import ProxmoxVEAutopilot.Foundation.Walk
import ProxmoxVEAutopilot.Monitor.Timeline

/-!
# Gains and losses of the directories

The Intune and the Entra detector report when a match appears and when it goes. The Entra
detector says nothing of a match that the first row already has.
-/

namespace ProxmoxVEAutopilot.Monitor

open Foundation
set_option autoImplicit false

section Marks

/-- A gain, a loss or neither, by the type of the event. -/
def mark (gain loss : String) (e : Event) : Option Bool :=
  if e.type = gain then some true else if e.type = loss then some false else none

variable {gain loss : String} {events : List Event}

theorem marks_of_other (h : ∀ e ∈ events, e.type ≠ gain ∧ e.type ≠ loss) : events.filterMap (mark gain loss) = [] := by
  refine List.filterMap_eq_nil_iff.mpr fun e he => ?_
  obtain ⟨hgain, hloss⟩ := h e he
  unfold mark
  rw [if_neg hgain, if_neg hloss]

end Marks

section Intune

def ProbeRow.inIntune (row : ProbeRow) : Bool := !row.intuneMatches.isEmpty

def enrolments (events : List Event) : List Bool := events.filterMap (mark "enrolled" "unenrolled")

theorem enrolments_complianceChange (atTime : Time) (before after : Option String) :
    enrolments (complianceChange atTime before after) = [] := by
  refine marks_of_other fun e he => ?_
  unfold complianceChange at he
  split at he
  · split at he
    · rw [List.mem_singleton.mp he]
      exact ⟨by simp, by simp⟩
    · cases he
  · cases he

theorem toggles_intuneChange (prev row : ProbeRow) :
    Toggles prev.inIntune (enrolments (intuneChange prev row)) row.inIntune := by
  unfold intuneChange ProbeRow.inIntune
  cases hbefore : prev.intuneMatches with
  | nil =>
    cases hafter : row.intuneMatches with
    | nil =>
      rw [enrolments_complianceChange]
      exact rfl
    | cons device devices => exact ⟨rfl, rfl⟩
  | cons device devices =>
    cases hafter : row.intuneMatches with
    | nil => exact ⟨rfl, rfl⟩
    | cons device' devices' =>
      dsimp only
      rw [enrolments_complianceChange]
      exact rfl

theorem toggles_intuneStep (prev : Option ProbeRow) (row : ProbeRow) :
    Toggles (prev.any ProbeRow.inIntune) (enrolments (intuneStep prev row).1)
      ((intuneStep prev row).2.any ProbeRow.inIntune) := by
  cases prev with
  | none =>
    unfold intuneStep ProbeRow.inIntune
    cases hmatches : row.intuneMatches with
    | nil => simp [enrolments, Toggles, hmatches]
    | cons device devices => simp [enrolments, Toggles, hmatches, mark, enrolled]
  | some prev => exact toggles_intuneChange prev row

theorem intune_toggles (rows : List ProbeRow) :
    Toggles false (enrolments (intuneTransitions rows)) (rows.getLast?.any ProbeRow.inIntune) := by
  have hwalk : Toggles false (enrolments (intuneTransitions rows))
      ((rows.foldl (fun s r => (intuneStep s r).2) none).any ProbeRow.inIntune) :=
    toggles_walk _ _ (fun _ => True) (fun _ _ => trivial) (fun s r _ => toggles_intuneStep s r) rows none trivial
  have hlast : rows.foldl (fun s r => (intuneStep s r).2) none = (rows.getLast?).or none :=
    foldl_last id (fun s r => by cases s <;> rfl) rows none
  rwa [hlast, Option.or_none] at hwalk

theorem intune_balanced (rows : List ProbeRow) :
    Balanced (enrolments (intuneTransitions rows)) (rows.getLast?.any ProbeRow.inIntune) :=
  (intune_toggles rows).balanced_iff.mpr rfl

end Intune

section Entra
variable {syncWindowMinutes : Nat}

def ProbeRow.inEntra (row : ProbeRow) : Bool := row.entraMatches.any isServerAd

def hybridJoins (events : List Event) : List Bool := events.filterMap (mark "hybrid-synced" "hybrid-lost")

theorem hybridJoins_append (events others : List Event) :
    hybridJoins (events ++ others) = hybridJoins events ++ hybridJoins others := List.filterMap_append

theorem type_syncPending {s : EntraState} {adFirstSeen : Option Time} {row : ProbeRow} :
    ∀ e ∈ syncPending syncWindowMinutes s adFirstSeen row, e.type = "sync-pending" := by
  intro e he
  unfold syncPending at he
  split at he
  · cases he
  · split at he
    · rw [List.mem_singleton.mp he]
    · cases he

theorem type_brokenLinks {row : ProbeRow} : ∀ e ∈ brokenLinks row, e.type = "link-broken" := by
  intro e he
  obtain ⟨device, _, hdevice⟩ := List.mem_filterMap.mp he
  split at hdevice
  · cases hdevice
  · split at hdevice
    · rw [← Option.some.inj hdevice]
    · cases hdevice

theorem hybridJoins_syncPending (s : EntraState) (adFirstSeen : Option Time) (row : ProbeRow) :
    hybridJoins (syncPending syncWindowMinutes s adFirstSeen row) = [] := by
  refine marks_of_other fun e he => ?_
  rw [type_syncPending e he]
  exact ⟨by simp, by simp⟩

theorem hybridJoins_brokenLinks (row : ProbeRow) : hybridJoins (brokenLinks row) = [] := by
  refine marks_of_other fun e he => ?_
  rw [type_brokenLinks e he]
  exact ⟨by simp, by simp⟩

theorem hybridJoins_replaced {p : Prop} [Decidable p] {atTime : Time} {summary : String} {details : Details} :
    hybridJoins (if p then [⟨atTime, .entra, "replacement", .replacement, summary, details⟩] else []) = [] := by
  split
  · simp [hybridJoins, mark]
  · rfl

theorem hybridJoins_entraChange (prev row : ProbeRow) : hybridJoins (entraChange prev row) =
    if prev.inEntra = row.inEntra then [] else [row.inEntra] := by
  unfold entraChange
  dsimp only
  rw [hybridJoins_append, hybridJoins_append]
  refine (congrArg (_ ++ ·) hybridJoins_replaced).trans ?_
  unfold ProbeRow.inEntra
  cases prev.entraMatches.any isServerAd <;> cases row.entraMatches.any isServerAd <;> simp [hybridJoins, mark]

theorem prev_entraStep (s : EntraState) (row : ProbeRow) :
    (entraStep syncWindowMinutes s row).2.prev = some row := by
  unfold entraStep
  cases s.prev <;> rfl

theorem toggles_entraStep {s : EntraState} {prev : ProbeRow} (hprev : s.prev = some prev) (row : ProbeRow) :
    Toggles prev.inEntra (hybridJoins (entraStep syncWindowMinutes s row).1) row.inEntra := by
  unfold entraStep
  rw [hprev]
  dsimp only
  rw [hybridJoins_append, hybridJoins_append, hybridJoins_entraChange, hybridJoins_syncPending,
    hybridJoins_brokenLinks, List.append_nil, List.append_nil]
  exact toggles_change

theorem entra_toggles (first : ProbeRow) (rows : List ProbeRow) :
    Toggles first.inEntra (hybridJoins (entraTransitions syncWindowMinutes (first :: rows)))
      ((first :: rows).getLast?.any ProbeRow.inEntra) := by
  set start := (entraStep syncWindowMinutes {} first).2 with hstart
  have hfirst : start.prev = some first := prev_entraStep {} first
  have hstep : ∀ (s : EntraState) (row : ProbeRow), s.prev.isSome = true →
      Toggles (s.prev.any ProbeRow.inEntra) (hybridJoins (entraStep syncWindowMinutes s row).1)
        ((entraStep syncWindowMinutes s row).2.prev.any ProbeRow.inEntra) := by
    intro s row hs
    obtain ⟨prev, hprev⟩ := Option.isSome_iff_exists.mp hs
    rw [hprev, prev_entraStep]
    exact toggles_entraStep hprev row
  have hready : ∀ (s : EntraState) (row : ProbeRow), (entraStep syncWindowMinutes s row).2.prev.isSome = true := by
    intro s row
    rw [prev_entraStep]
    rfl
  have hwalk := toggles_walk _ _ _ hready hstep rows start (hready {} first)
  have hlast : (rows.foldl (fun s r => (entraStep syncWindowMinutes s r).2) start).prev = (rows.getLast?).or start.prev :=
    foldl_last EntraState.prev prev_entraStep rows start
  rw [hlast, hfirst] at hwalk
  rw [Option.or_some] at hwalk
  rw [List.getLast?_cons]
  exact hwalk

theorem hybridJoins_balanced_iff (rows : List ProbeRow) :
    Balanced (hybridJoins (entraTransitions syncWindowMinutes rows)) (rows.getLast?.any ProbeRow.inEntra) ↔
      rows.head?.any ProbeRow.inEntra = false := by
  cases rows with
  | nil => exact iff_of_true ⟨.nil, fun _ h => (nomatch h), iff_of_false (fun h => nomatch h) fun h => nomatch h⟩ rfl
  | cons first rows => exact (entra_toggles first rows).balanced_iff

def syncPendings (events : List Event) : Nat := events.countP fun e => e.type = "sync-pending"

theorem syncPendings_other {events : List Event} (h : ∀ e ∈ events, e.type ≠ "sync-pending") : syncPendings events = 0 := by
  refine List.countP_eq_zero.mpr fun e he => ?_
  rw [decide_eq_true_eq]
  exact h e he

theorem syncPendings_entraChange (prev row : ProbeRow) : syncPendings (entraChange prev row) = 0 := by
  refine syncPendings_other fun e he => ?_
  unfold entraChange at he
  dsimp only at he
  rcases List.mem_append.mp he with he | he
  · rcases List.mem_append.mp he with he | he
    · split at he
      · rw [List.mem_singleton.mp he]
        simp
      · cases he
    · split at he
      · rw [List.mem_singleton.mp he]
        simp
      · cases he
  · split at he
    · rw [List.mem_singleton.mp he]
      simp
    · cases he

theorem syncPendings_brokenLinks (row : ProbeRow) : syncPendings (brokenLinks row) = 0 := by
  refine syncPendings_other fun e he => ?_
  rw [type_brokenLinks e he]
  simp

theorem syncPendings_syncPending (s : EntraState) (adFirstSeen : Option Time) (row : ProbeRow) :
    syncPendings (syncPending syncWindowMinutes s adFirstSeen row) + s.emittedSyncPending.toNat ≤
      (s.emittedSyncPending || !(syncPending syncWindowMinutes s adFirstSeen row).isEmpty).toNat := by
  unfold syncPending
  split
  · simp [syncPendings]
  · split
    · rename_i hpending
      obtain ⟨⟨hnot, _⟩, _⟩ : (_ ∧ _) ∧ _ := by simpa using hpending
      simp [syncPendings, hnot]
    · simp [syncPendings]

theorem syncPendings_entraStep (s : EntraState) (row : ProbeRow) :
    syncPendings (entraStep syncWindowMinutes s row).1 + s.emittedSyncPending.toNat ≤
      (entraStep syncWindowMinutes s row).2.emittedSyncPending.toNat := by
  unfold entraStep
  cases s.prev with
  | none => exact Nat.le_of_eq (Nat.zero_add _)
  | some prev =>
    have happend : ∀ events others : List Event, syncPendings (events ++ others) = syncPendings events + syncPendings others :=
      fun _ _ => List.countP_append
    dsimp only
    rw [happend, happend, syncPendings_entraChange, syncPendings_brokenLinks, Nat.zero_add, Nat.add_zero]
    exact syncPendings_syncPending s _ row

theorem syncPendings_le_one (rows : List ProbeRow) : syncPendings (entraTransitions syncWindowMinutes rows) ≤ 1 := by
  have hwalk : syncPendings (entraTransitions syncWindowMinutes rows) + false.toNat ≤
      (rows.foldl (fun s r => (entraStep syncWindowMinutes s r).2) {}).emittedSyncPending.toNat :=
    countP_walk_le _ (fun s : EntraState => s.emittedSyncPending.toNat) syncPendings_entraStep rows {}
  exact (Nat.le_add_right _ _).trans (hwalk.trans (Bool.toNat_le _))

end Entra

/-- Gains and losses of both directories alternate from a gain on and end as the last row is,
and sync-pending is reported at most once. -/
structure LogsBalance (syncWindowMinutes : Nat) (rows : List ProbeRow) : Prop where
  intune : Balanced (enrolments (intuneTransitions rows)) (rows.getLast?.any ProbeRow.inIntune)
  entra : Balanced (hybridJoins (entraTransitions syncWindowMinutes rows)) (rows.getLast?.any ProbeRow.inEntra)
  pending : syncPendings (entraTransitions syncWindowMinutes rows) ≤ 1

theorem logs_balance_iff (syncWindowMinutes : Nat) (rows : List ProbeRow) :
    LogsBalance syncWindowMinutes rows ↔ rows.head?.any ProbeRow.inEntra = false :=
  ⟨fun h => (hybridJoins_balanced_iff rows).mp h.entra,
    fun h => ⟨intune_balanced rows, (hybridJoins_balanced_iff rows).mpr h, syncPendings_le_one rows⟩⟩

def seenRow (checkedAt : Time) (adMatches : List AdMatch) (entraMatches : List EntraDevice) : ProbeRow where
  vmid := 100
  checkedAt := checkedAt
  vmName := none
  winName := none
  serial := none
  uuid := none
  osBuild := none
  dsregStatus := .null
  adFound := !adMatches.isEmpty
  adMatchCount := adMatches.length
  adMatches := adMatches
  entraFound := !entraMatches.isEmpty
  entraMatchCount := entraMatches.length
  entraMatches := entraMatches
  intuneFound := false
  intuneMatchCount := 0
  intuneMatches := []
  probeErrors := {}

def hybridDevice : EntraDevice where
  id := some "device"
  trustType := some "ServerAd"

/-- A join that the first row has is never reported, and its loss is a loss without a gain. -/
theorem known_join_is_not_balanced : ¬ LogsBalance 45 [seenRow 0 [] [hybridDevice]] ∧
    ¬ LogsBalance 45 [seenRow 0 [] [hybridDevice], seenRow 60 [] []] := by
  constructor
  · intro h
    exact absurd (h.entra.ends.mpr rfl) (by decide)
  · intro h
    exact absurd (h.entra.first false rfl) (by decide)

end ProxmoxVEAutopilot.Monitor
