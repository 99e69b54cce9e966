import ProxmoxVEAutopilot.TsEngine.Turns
import ProxmoxVEAutopilot.TsEngine.Progress

/-!
# Runs whose steps all get through

No step of such a run is refused for good, so asking often enough for every step, in any
order of phases and agents, completes the run in the one state its steps decide.
-/

namespace ProxmoxVEAutopilot.TsEngine

open Foundation
set_option autoImplicit false

/-- Between two passes of a run in which no step fails for good. -/
structure Steady (W : World) (db : RunDb) : Prop where
  idle : Idle db
  succeeds : ∀ m ∈ db.fates W, m.1 ≠ .failed
  isOpen : (∃ r ∈ db.steps.rows, r.state = .pending) → db.run.state.isOpen = true
  done : (∀ r ∈ db.steps.rows, r.state ≠ .pending) → db.run.state = .done

/-- The agent asks for the phase of the step and can do its kind. -/
def Poll.serves (p : Poll) (r : PlanStep) : Prop :=
  r.inPhase p.agent.phase = true ∧ supports (supportedKindsForNext p.ask) r = true

instance (p : Poll) (r : PlanStep) : Decidable (p.serves r) := inferInstanceAs (Decidable (_ ∧ _))

/-- Every step is asked for. -/
def Covers (sweep : List Poll) (db : RunDb) : Prop := ∀ r ∈ db.steps.rows, ∃ p ∈ sweep, p.serves r

instance (sweep : List Poll) (db : RunDb) : Decidable (Covers sweep db) :=
  inferInstanceAs (Decidable (∀ r ∈ db.steps.rows, ∃ p ∈ sweep, p.serves r))

section Steady
variable {W : World} {db db' : RunDb} {p : Poll} {r s : PlanStep}

theorem not_failed_of_fates (h : ∀ m ∈ db.fates W, m.1 ≠ .failed) (hr : r ∈ db.steps.rows) :
    r.state ≠ .failed := by
  intro hfailed
  have hne : r.state ≠ .pending := by simp [hfailed]
  refine h (r.fate W) (List.mem_map_of_mem hr) ?_
  rw [PlanStep.fate_of_ne hne]
  exact hfailed

theorem Idle.unfinished_iff (h : Idle db) (hr : r ∈ db.steps.rows) :
    r.unfinished = true ↔ r.state = .pending := by
  obtain ⟨hrunning, hawaiting⟩ := h r hr
  simp [PlanStep.unfinished, hrunning, hawaiting]

theorem exists_lowestPending (h : ∃ r ∈ db.steps.rows, r.state = .pending) :
    ∃ s, LowestPending db s := by
  obtain ⟨r, hr, hpending⟩ := h
  obtain ⟨s, hs⟩ := Option.isSome_iff_exists.mp
    (List.find?_isSome (p := fun q : PlanStep => q.state == .pending) |>.mpr ⟨r, hr, by simp [hpending]⟩)
  obtain ⟨hstate, before, after, hrows, hbefore⟩ := List.find?_eq_some_iff_append.mp hs
  refine ⟨s, List.mem_of_find?_eq_some hs, by simpa using hstate, fun q hq hpending => ?_⟩
  have hordered := db.steps.ordinals
  rw [hrows] at hq hordered
  rcases List.mem_append.mp hq with hmem | hmem
  · have := hbefore q hmem
    simp [hpending] at this
  · rcases List.mem_cons.mp hmem with rfl | hmem
    · exact Nat.le_refl _
    · exact Nat.le_of_lt ((List.pairwise_cons.mp (List.pairwise_append.mp hordered).2.1).1 q hmem)

/-- Idle rows none of which failed keep no one from the first pending one. -/
theorem Steady.exists_claim (h : Steady W db) (hs : LowestPending db s) (hserves : p.serves s) :
    ∃ r, nextClaim db p.request = some r := by
  refine exists_nextClaim (h.isOpen ⟨s, hs.mem, hs.pending⟩) hs.mem ?_
  have hclear : ∀ prev ∈ db.steps.rows, prev.plan.ordinal < s.plan.ordinal →
      blocks p.request prev = false := by
    intro prev hprev hlt
    obtain ⟨hrunning, hawaiting⟩ := h.idle prev hprev
    have hfailed := not_failed_of_fates h.succeeds hprev
    have hpending : prev.state ≠ .pending := fun hp => by
      have := hs.lowest prev hprev hp
      omega
    simp [blocks, hrunning, hawaiting, hfailed, hpending]
  simp only [claimable, Bool.and_eq_true, beq_iff_eq, Bool.not_eq_true', List.any_eq_false]
  refine ⟨⟨⟨hs.pending, hserves.1⟩, hserves.2⟩, fun prev hprev => ?_⟩
  by_cases hlt : prev.plan.ordinal < s.plan.ordinal
  · simp [hclear prev hprev hlt]
  · simp [hlt]

/-- The run stays open while a step is pending and is done after the last. -/
theorem Moved.run_cases (h : Moved W db r db') (hr : r ∈ db.steps.rows) (hidle : Idle db')
    (hsound : ∀ q ∈ db'.steps.rows, q.state ≠ .failed) :
    ((∃ q ∈ db'.steps.rows, q.state = .pending) → db'.run.state.isOpen = true) ∧
      ((∀ q ∈ db'.steps.rows, q.state ≠ .pending) → db'.run.state = .done) := by
  obtain ⟨prog, hsteps, hstate, _⟩ := h.steps
  have hmem : r.withProgress prog ∈ db'.steps.rows := by
    rw [hsteps]
    exact PlanTable.mem_set.mpr ⟨r, hr, by rw [if_pos rfl]⟩
  have hnext : nextRunState db'.steps r.id = nextRunState db.steps r.id := by
    rw [hsteps, nextRunState_set]
  rw [h.run, endRunState]
  cases hend : r.endState (W r.id (r.attempt + 1)).verdict with
  | pending => exact ⟨fun _ => rfl, fun hall => absurd (hstate.trans hend) (hall _ hmem)⟩
  | failed => exact absurd (hstate.trans hend) (hsound _ hmem)
  | running => exact absurd (hstate.trans hend) (hidle _ hmem).1
  | awaitingReboot => exact absurd (hstate.trans hend) (hidle _ hmem).2
  | done | skipped =>
    dsimp only
    rw [← hnext]
    have hself : (r.withProgress prog).unfinished = false := by
      simp [PlanStep.unfinished, PlanStep.withProgress, hstate, hend]
    rcases nextRunState_cases db'.steps r.id with ⟨hqueued, s, hs, _, hun⟩ | ⟨hdone, hall⟩
    · rw [hqueued]
      exact ⟨fun _ => rfl, fun hnone => absurd ((hidle.unfinished_iff hs).mp hun) (hnone s hs)⟩
    · rw [hdone]
      refine ⟨fun hsome => ?_, fun _ => rfl⟩
      obtain ⟨q, hq, hpending⟩ := hsome
      have hun := (hidle.unfinished_iff hq).mpr hpending
      by_cases hid : q.id = r.id
      · rw [db'.steps.eq_of_id hq hmem hid, hself] at hun
        cases hun
      · rw [hall q hq hid] at hun
        cases hun

theorem turn_steady (p : Poll) (h : Steady W db) : Steady W (turn W db p) := by
  have hidle := turn_idle W p h.idle
  have hsucceeds : ∀ m ∈ (turn W db p).fates W, m.1 ≠ .failed := by
    rw [(turn_fates W p h.idle).1]
    exact h.succeeds
  rcases turn_cases W p h.idle with ⟨_, heq⟩ | ⟨r, hclaim, hmoved⟩
  · rwa [heq]
  · obtain ⟨hopen, hdone⟩ := hmoved.run_cases (nextClaim_spec hclaim).2.1 hidle
      fun q hq => not_failed_of_fates hsucceeds hq
    exact ⟨hidle, hsucceeds, hopen, hdone⟩

theorem turn_rows (p : Poll) (hidle : Idle db) (hr : r ∈ (turn W db p).steps.rows) :
    ∃ q ∈ db.steps.rows, ∃ prog, q.withProgress prog = r := by
  rcases turn_cases W p hidle with ⟨_, heq⟩ | ⟨_, _, ⟨prog, hsteps, _⟩, _, _⟩
  · rw [heq] at hr
    exact ⟨r, hr, r.toStepProgress, r.withProgress_self⟩
  · rw [hsteps] at hr
    obtain ⟨q, hq, hprog⟩ := PlanTable.mem_set.mp hr
    exact ⟨q, hq, _, hprog⟩

theorem Covers.turn {sweep : List Poll} (h : Covers sweep db) (hidle : Idle db) (p : Poll) :
    Covers sweep (turn W db p) := by
  intro r hr
  obtain ⟨q, hq, prog, rfl⟩ := turn_rows p hidle hr
  exact h q hq

theorem turn_work_le (p : Poll) (hidle : Idle db) : (turn W db p).work W ≤ db.work W := by
  rcases turn_cases W p hidle with ⟨_, heq⟩ | ⟨r, hclaim, hmoved⟩
  · rw [heq]
  · have := hmoved.work (nextClaim_spec hclaim).2.1 (nextClaim_spec hclaim).2.2.1
    omega

theorem turns_work_le (polls : List Poll) (hidle : Idle db) :
    (polls.foldl (turn W) db).work W ≤ db.work W :=
  (foldl_invariant (G := fun s => Idle s ∧ s.work W ≤ db.work W)
    (fun _ p hs => ⟨turn_idle W p hs.1, (turn_work_le p hs.1).trans hs.2⟩)
    ⟨hidle, Nat.le_refl _⟩).2

/-- A sweep that asks for the first pending step makes an attempt. -/
theorem sweep_work {sweep : List Poll} (h : Steady W db) (hs : LowestPending db s)
    (hasked : ∃ p ∈ sweep, p.serves s) : (sweep.foldl (turn W) db).work W < db.work W := by
  induction sweep with
  | nil => simp at hasked
  | cons p sweep ih =>
    rw [List.foldl_cons]
    rcases turn_cases W p h.idle with ⟨hnone, heq⟩ | ⟨r, hclaim, hmoved⟩
    · obtain ⟨q, hq, hserves⟩ := hasked
      rcases List.mem_cons.mp hq with rfl | hq
      · obtain ⟨r, hr⟩ := h.exists_claim hs hserves
        rw [hnone] at hr
        cases hr
      · rw [heq]
        exact ih ⟨q, hq, hserves⟩
    · have hwork := hmoved.work (nextClaim_spec hclaim).2.1 (nextClaim_spec hclaim).2.2.1
      have hle := turns_work_le (W := W) sweep (turn_idle W p h.idle)
      omega

theorem work_pos_of_pending (hr : r ∈ db.steps.rows) (hpending : r.state = .pending) :
    0 < db.work W :=
  Nat.lt_of_lt_of_le (PlanStep.work_pos hpending)
    (List.single_le_sum (fun _ _ => Nat.zero_le _) _ (List.mem_map_of_mem hr))

theorem settled_of_not_pending (h : ∀ r ∈ db.steps.rows, r.state ≠ .pending) :
    db.marks = db.fates W ∧ db.work W = 0 := by
  constructor
  · exact List.map_congr_left fun r hr => (PlanStep.fate_of_ne (h r hr)).symm
  · refine List.sum_eq_zero fun n hn => ?_
    obtain ⟨r, hr, rfl⟩ := List.mem_map.mp hn
    exact PlanStep.work_of_ne (h r hr)

theorem Steady.completes (h : Steady W db) {sweeps : List (List Poll)}
    (hcovers : ∀ sweep ∈ sweeps, Covers sweep db) (hlong : db.work W ≤ sweeps.length) :
    Steady W (sweeps.flatten.foldl (turn W) db) ∧
      ∀ r ∈ (sweeps.flatten.foldl (turn W) db).steps.rows, r.state ≠ .pending := by
  have hsteady : ∀ (polls : List Poll) (s : RunDb),
      Steady W s ∧ (∀ sweep ∈ sweeps, Covers sweep s) →
      Steady W (polls.foldl (turn W) s) ∧
        ∀ sweep ∈ sweeps, Covers sweep (polls.foldl (turn W) s) := by
    intro polls s hs
    refine foldl_invariant (G := fun s => Steady W s ∧ ∀ sweep ∈ sweeps, Covers sweep s) ?_ hs
    exact fun s p hs => ⟨turn_steady p hs.1, fun sweep hsweep => (hs.2 sweep hsweep).turn hs.1.idle p⟩
  refine ⟨(hsteady _ db ⟨h, hcovers⟩).1, ?_⟩
  refine rest_of_sweeps (G := fun s => Steady W s ∧ ∀ sweep ∈ sweeps, Covers sweep s)
    (R := fun s => ∀ r ∈ s.steps.rows, r.state ≠ .pending) (w := fun s => s.work W)
    (fun s sweep _ => hsteady sweep s) ?_ ?_ ?_ ⟨h, hcovers⟩ (.inl hlong)
  · intro s sweep _ hs hrest r hr hpending
    have hpos := work_pos_of_pending (W := W) hr hpending
    have hle := turns_work_le (W := W) sweep hs.1.idle
    rw [(settled_of_not_pending hrest).2] at hle
    omega
  · intro s sweep hsweep hs hrest
    push Not at hrest
    obtain ⟨low, hlow⟩ := exists_lowestPending hrest
    exact sweep_work hs.1 hlow (hs.2 sweep hsweep low hlow.mem)
  · intro s _ hzero r hr hpending
    have := work_pos_of_pending (W := W) hr hpending
    omega

end Steady

theorem Created.claimCount {db : RunDb} (h : Created db) : db.claimCount = 0 := by
  obtain ⟨ids, versionId, version, target, vars, createdBy, now, h⟩ := h
  unfold createRunFromVersion at h
  dsimp only at h
  split at h
  · cases h
  · cases h
    rfl

theorem Initial.idle {db : RunDb} (h : Initial db) : Idle db := by
  intro r hr
  obtain ⟨s, hs, hp⟩ := h.progress r hr
  have hstate : r.state = s := by rw [hp]
  rcases hs with rfl | rfl <;> simp [hstate]

/-- Whoever asks when, the steps end where the work on them decides and every attempt is
handed out once; asking for each step as often as there are attempts completes the run. -/
theorem turns_confluent {db₀ : RunDb} (hcreated : Created db₀) (W : World) :
    (∀ polls : List Poll,
      (polls.foldl (turn W) db₀).fates W = db₀.fates W ∧
      (polls.foldl (turn W) db₀).work W + (polls.foldl (turn W) db₀).claimCount =
        db₀.work W) ∧
    ((∃ r ∈ db₀.steps.rows, r.state = .pending) → (∀ m ∈ db₀.fates W, m.1 ≠ .failed) →
      ∀ sweeps : List (List Poll), (∀ sweep ∈ sweeps, Covers sweep db₀) →
        db₀.work W ≤ sweeps.length →
          (sweeps.flatten.foldl (turn W) db₀).run.state = .done ∧
          (sweeps.flatten.foldl (turn W) db₀).marks = db₀.fates W ∧
          (sweeps.flatten.foldl (turn W) db₀).claimCount = db₀.work W) := by
  have hidle := hcreated.initial.idle
  have hall : ∀ polls : List Poll,
      (polls.foldl (turn W) db₀).fates W = db₀.fates W ∧
      (polls.foldl (turn W) db₀).work W + (polls.foldl (turn W) db₀).claimCount =
        db₀.work W := by
    intro polls
    obtain ⟨_, hfates, hwork⟩ := turns_fates W polls hidle
    rw [hcreated.claimCount] at hwork
    exact ⟨hfates, hwork⟩
  refine ⟨hall, fun hsome hsucceeds sweeps hcovers hlong => ?_⟩
  have hsteady : Steady W db₀ := by
    refine ⟨hidle, hsucceeds, fun _ => ?_, fun hnone => ?_⟩
    · rw [hcreated.initial.queued]
      rfl
    · obtain ⟨r, hr, hpending⟩ := hsome
      exact absurd hpending (hnone r hr)
  obtain ⟨hend, hrest⟩ := hsteady.completes hcovers hlong
  obtain ⟨hmarks, hwork⟩ := settled_of_not_pending (W := W) hrest
  obtain ⟨hfates, hcount⟩ := hall sweeps.flatten
  rw [hwork, Nat.zero_add] at hcount
  exact ⟨hend.done hrest, hmarks.trans hfates, hcount⟩

def imageStep : Node :=
  { id := 1, parentId := none, position := 0, nodeType := .step "apply_image", name := "Image"
    phase := "winpe", retryCount := 1 }

def agentStep : Node :=
  { id := 2, parentId := none, position := 1, nodeType := .step "install_qga", name := "Agent"
    phase := "full_os", rebootBehavior := .required }

def imageRun : RunDb := createdFrom [imageStep, agentStep] rfl

def firstAttemptFails : World :=
  fun id attempt => { verdict := if id = 1 ∧ attempt = 1 then .failed else .success }

def bothPhases : List Poll :=
  [{ agent := { agentId := "agent", phase := "full_os" } }, { agent := { agentId := "pe", phase := "winpe" } }]

theorem imageRun_completes :
    ([bothPhases, bothPhases, bothPhases].flatten.foldl (turn firstAttemptFails) imageRun).run.state =
        .done ∧
      ([bothPhases, bothPhases, bothPhases].flatten.foldl (turn firstAttemptFails) imageRun).marks =
        imageRun.fates firstAttemptFails ∧
      ([bothPhases, bothPhases, bothPhases].flatten.foldl (turn firstAttemptFails) imageRun).claimCount =
        imageRun.work firstAttemptFails :=
  (turns_confluent (created_createdFrom _ rfl) firstAttemptFails).2 (by decide) (by decide) _
    (by decide) (by decide)

end ProxmoxVEAutopilot.TsEngine
