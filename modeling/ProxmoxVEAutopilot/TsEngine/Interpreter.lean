import ProxmoxVEAutopilot.TsEngine.Schedules

/-!
# The engine interprets its plan

Agents each of whose requests serves every step of a run, so that its plan has one phase,
interpret the plan: one step after the other, each with its retries, up to the first that
fails for good. A run that may go on behind a failed step does not, since no step behind
one is handed out.
-/

namespace ProxmoxVEAutopilot.TsEngine

open Foundation
set_option autoImplicit false

/-- The state of a run at a step that failed for good, `rest` being the steps behind it. -/
def stopState (r : PlanStep) (rest : List PlanStep) : RunState :=
  if !r.plan.continueOnError then .failed
  else if rest.any PlanStep.unfinished then .queued else .done

/-- The plan from its first row on. -/
def interpret (W : World) : List PlanStep → RunState × List Mark
  | [] => (.done, [])
  | r :: rest =>
    if (r.fate W).1 = .failed then (stopState r rest, r.fate W :: rest.map PlanStep.mark)
    else ((interpret W rest).1, r.fate W :: (interpret W rest).2)

def PlanStep.passed (r : PlanStep) : Bool := r.state == .done || r.state == .skipped

/-- All steps are over. -/
structure Ended (db : RunDb) : Prop where
  passed : ∀ r ∈ db.steps.rows, r.passed = true
  run : db.run.state = .done

/-- The rows around the one the run is at. -/
structure At (db : RunDb) (before : List PlanStep) (r : PlanStep) (rest : List PlanStep) : Prop where
  rows : db.steps.rows = before ++ r :: rest
  passed : ∀ q ∈ before, q.passed = true

/-- The run is at a step that failed for good. -/
def Stopped (db : RunDb) : Prop :=
  ∃ before r rest, At db before r rest ∧ r.state = .failed ∧ db.run.state = stopState r rest

def Going (db : RunDb) : Prop :=
  ∃ before r rest, At db before r rest ∧ r.state = .pending ∧
    (∀ q ∈ rest, q.passed = true ∨ q.state = .pending) ∧ db.run.state.isOpen = true

section Interpret
variable {W : World} {r : PlanStep}

theorem PlanStep.passed_iff : r.passed = true ↔ r.state = .done ∨ r.state = .skipped := by
  simp [passed]

theorem PlanStep.fate_of_passed (h : r.passed = true) : r.fate W = r.mark := by
  refine fate_of_ne fun hpending => ?_
  rcases passed_iff.mp h with hs | hs <;> simp [hs] at hpending

theorem PlanStep.not_failed_of_passed (h : r.passed = true) : (r.fate W).1 ≠ .failed := by
  rw [fate_of_passed h]
  intro hfailed
  rcases passed_iff.mp h with hs | hs <;> exact absurd (hs.symm.trans hfailed) (by simp)

theorem PlanStep.unfinished_of_passed (h : r.passed = true) : r.unfinished = false := by
  rcases passed_iff.mp h with hs | hs <;> simp [unfinished, hs]

theorem interpret_append {before : List PlanStep} (hpassed : ∀ q ∈ before, q.passed = true)
    (rows : List PlanStep) :
    interpret W (before ++ rows) =
      ((interpret W rows).1, before.map PlanStep.mark ++ (interpret W rows).2) := by
  induction before with
  | nil => rfl
  | cons q before ih =>
    have hq := hpassed q List.mem_cons_self
    have hrest := ih fun s hs => hpassed s (List.mem_cons_of_mem _ hs)
    rw [List.cons_append, interpret, if_neg (PlanStep.not_failed_of_passed hq), hrest,
      PlanStep.fate_of_passed hq]
    rfl

theorem interpret_passed {rows : List PlanStep} (hpassed : ∀ q ∈ rows, q.passed = true) :
    interpret W rows = (.done, rows.map PlanStep.mark) := by
  have h := interpret_append (W := W) hpassed []
  rw [List.append_nil] at h
  rw [h]
  simp [interpret]

theorem exists_first_pending {rows : List PlanStep}
    (h : ∀ q ∈ rows, q.passed = true ∨ q.state = .pending) :
    (∀ q ∈ rows, q.passed = true) ∨
      ∃ before r rest, rows = before ++ r :: rest ∧ (∀ q ∈ before, q.passed = true) ∧
        r.state = .pending ∧ ∀ q ∈ rest, q.passed = true ∨ q.state = .pending := by
  induction rows with
  | nil => exact .inl fun q hq => by simp at hq
  | cons q rows ih =>
    rcases h q List.mem_cons_self with hq | hq
    · rcases ih fun s hs => h s (List.mem_cons_of_mem _ hs) with hall | ⟨before, r, rest, rfl, hbefore, hr⟩
      · exact .inl (List.forall_mem_cons.mpr ⟨hq, hall⟩)
      · exact .inr ⟨q :: before, r, rest, rfl, List.forall_mem_cons.mpr ⟨hq, hbefore⟩, hr⟩
    · exact .inr ⟨[], q, rows, rfl, fun s hs => by simp at hs, hq,
        fun s hs => h s (List.mem_cons_of_mem _ hs)⟩

end Interpret

section Turn
variable {W : World} {db db' : RunDb} {p : Poll} {r s : PlanStep} {before rest : List PlanStep}

theorem At.mem (h : At db before r rest) : r ∈ db.steps.rows := by
  rw [h.rows]
  exact List.mem_append.mpr (.inr List.mem_cons_self)

theorem At.ordinals (h : At db before r rest) :
    (∀ q ∈ before, q.plan.ordinal < r.plan.ordinal) ∧ ∀ q ∈ rest, r.plan.ordinal < q.plan.ordinal := by
  have hordered := db.steps.ordinals
  rw [h.rows, List.pairwise_append] at hordered
  exact ⟨fun q hq => hordered.2.2 q hq r List.mem_cons_self, (List.pairwise_cons.mp hordered.2.1).1⟩

theorem At.le_of_pending (h : At db before r rest) (hs : s ∈ db.steps.rows) (hpending : s.state = .pending) :
    s = r ∨ r.plan.ordinal < s.plan.ordinal := by
  rw [h.rows] at hs
  rcases List.mem_append.mp hs with hmem | hmem
  · rcases PlanStep.passed_iff.mp (h.passed s hmem) with hstate | hstate <;>
      simp [hpending] at hstate
  · rcases List.mem_cons.mp hmem with rfl | hmem
    · exact .inl rfl
    · exact .inr (h.ordinals.2 s hmem)

theorem Stopped.nextClaim_none (h : Stopped db) (hserves : ∀ r ∈ db.steps.rows, p.serves r) :
    nextClaim db p.request = none := by
  obtain ⟨before, r, rest, hat, hfailed, _⟩ := h
  by_contra hsome
  obtain ⟨s, hs⟩ := Option.ne_none_iff_exists'.mp hsome
  obtain ⟨_, hmem, hpending, _, _, hclear⟩ := nextClaim_spec hs
  rcases hat.le_of_pending hmem hpending with rfl | hlt
  · rw [hpending] at hfailed
    cases hfailed
  · have hblocks := hclear r hat.mem hlt
    have hphase : r.inPhase p.request.phase = true := (hserves r hat.mem).1
    simp [blocks, hphase, hfailed] at hblocks

theorem Ended.nextClaim_none (h : Ended db) : nextClaim db p.request = none := by
  unfold nextClaim
  rw [h.run]
  rfl

theorem At.nextClaim (h : At db before r rest) (hpending : r.state = .pending)
    (hopen : db.run.state.isOpen = true) (hserves : p.serves r) :
    nextClaim db p.request = some r := by
  have hclaim : claimable db.steps.rows p.request r = true := by
    simp only [claimable, Bool.and_eq_true, beq_iff_eq, Bool.not_eq_true', List.any_eq_false]
    refine ⟨⟨⟨hpending, hserves.1⟩, hserves.2⟩, fun prev hprev => ?_⟩
    rintro ⟨hlt, hblocks⟩
    have hlt := of_decide_eq_true hlt
    rw [h.rows] at hprev
    rcases List.mem_append.mp hprev with hmem | hmem
    · rcases PlanStep.passed_iff.mp (h.passed prev hmem) with hs | hs <;> simp [blocks, hs] at hblocks
    · rcases List.mem_cons.mp hmem with rfl | hmem
      · exact absurd hlt (Nat.lt_irrefl _)
      · exact absurd (h.ordinals.2 prev hmem) (Nat.lt_asymm hlt)
  obtain ⟨s, hs⟩ := exists_nextClaim hopen h.mem hclaim
  obtain ⟨_, hmem, hspending, _⟩ := nextClaim_spec hs
  rcases h.le_of_pending hmem hspending with rfl | hlt
  · exact hs
  · exact absurd (nextClaim_le hs h.mem hclaim) (Nat.not_le_of_lt hlt)

theorem At.nextRunState (h : At db before r rest) :
    nextRunState db.steps r.id = if rest.any PlanStep.unfinished then .queued else .done := by
  have hids := db.steps.ids
  rw [h.rows, List.map_append, List.map_cons, List.nodup_append, List.nodup_cons] at hids
  have hbefore : (before.any fun q => q.id != r.id && q.unfinished) = false :=
    List.any_eq_false.mpr fun q hq => by simp [PlanStep.unfinished_of_passed (h.passed q hq)]
  have hrest : (rest.any fun q => q.id != r.id && q.unfinished) = rest.any PlanStep.unfinished := by
    rw [Bool.eq_iff_iff, List.any_eq_true, List.any_eq_true]
    refine exists_congr fun q => and_congr_right fun hq => ?_
    have hid : q.id ≠ r.id := fun hid => hids.2.1.1 (List.mem_map.mpr ⟨q, hq, hid⟩)
    simp [hid]
  unfold TsEngine.nextRunState
  rw [h.rows, List.any_append, List.any_cons, hbefore, hrest]
  simp

/-- A pass at a pending step leaves the run at it, behind it or stopped by it, and what
is left of the plan means what it meant. -/
theorem turn_going (h : Going db) (hserves : ∀ r ∈ db.steps.rows, p.serves r) :
    (Going (turn W db p) ∨ Ended (turn W db p) ∨ Stopped (turn W db p)) ∧
      interpret W (turn W db p).steps.rows = interpret W db.steps.rows ∧
      (turn W db p).work W < db.work W := by
  obtain ⟨before, r, rest, hat, hpending, hrest, hopen⟩ := h
  have hmoved := turn_some (W := W) (hat.nextClaim hpending hopen (hserves r hat.mem))
  generalize turn W db p = db' at hmoved ⊢
  obtain ⟨prog, hsteps, hstate, hattempt⟩ := hmoved.steps
  have hrows : db'.steps.rows = before ++ r.withProgress prog :: rest := by
    rw [hsteps, PlanTable.set_rows_split hat.rows]
  have hat' : At db' before (r.withProgress prog) rest := ⟨hrows, hat.passed⟩
  refine ⟨?_, ?_, ?_⟩
  · have hrun := hmoved.run
    cases hend : r.endState (W r.id (r.attempt + 1)).verdict with
    | pending =>
      rw [endRunState, hend] at hrun
      exact .inl ⟨before, _, rest, hat', hstate.trans hend, hrest, by rw [hrun]; rfl⟩
    | failed =>
      rw [endRunState, hend] at hrun
      refine .inr (.inr ⟨before, _, rest, hat', hstate.trans hend, ?_⟩)
      rw [hrun, hat.nextRunState, stopState]
      cases hcoe : r.plan.continueOnError <;> simp [hcoe]
    | running | awaitingReboot =>
      revert hend
      unfold PlanStep.endState
      split <;> first | (intro h; cases h) | (split <;> (intro h; cases h))
    | done | skipped =>
      rw [endRunState, hend] at hrun
      have hpassed : (r.withProgress prog).passed = true :=
        PlanStep.passed_iff.mpr (by simp [PlanStep.withProgress, hstate, hend])
      have hbefore : ∀ q ∈ before ++ [r.withProgress prog], q.passed = true := by
        intro q hq
        rcases List.mem_append.mp hq with hq | hq
        · exact hat.passed q hq
        · rw [List.mem_singleton.mp hq]
          exact hpassed
      have hsplit : db'.steps.rows = (before ++ [r.withProgress prog]) ++ rest := by
        rw [hrows, List.append_assoc]
        rfl
      dsimp only at hrun
      rcases exists_first_pending hrest with hall | ⟨mid, s, tail, rfl, hmid, hspending, htail⟩
      · refine .inr (.inl ⟨fun q hq => ?_, ?_⟩)
        · rw [hsplit] at hq
          exact (List.mem_append.mp hq).elim (hbefore q) (hall q)
        · rw [hrun, hat.nextRunState, if_neg]
          simp only [Bool.not_eq_true, List.any_eq_false]
          exact fun q hq => PlanStep.unfinished_of_passed (hall q hq)
      · refine .inl ⟨before ++ [r.withProgress prog] ++ mid, s, tail, ⟨?_, ?_⟩, hspending, htail, ?_⟩
        · rw [hsplit, List.append_assoc _ mid]
        · exact fun q hq => (List.mem_append.mp hq).elim (hbefore q) (hmid q)
        · rw [hrun, hat.nextRunState, if_pos]
          · rfl
          · exact List.any_eq_true.mpr ⟨s, by simp, by simp [PlanStep.unfinished, hspending]⟩
  · rw [hrows, hat.rows, interpret_append hat.passed, interpret_append hat.passed, interpret, interpret,
      PlanStep.fate_attempt hpending hstate hattempt]
    rfl
  · have := hmoved.work hat.mem hpending
    omega

theorem Stopped.interpret_eq (h : Stopped db) :
    interpret W db.steps.rows = (db.run.state, db.marks) := by
  obtain ⟨before, r, rest, hat, hfailed, hrun⟩ := h
  have hfate : r.fate W = r.mark := PlanStep.fate_of_ne (by simp [hfailed])
  have hstop : (r.fate W).1 = .failed := by rw [hfate]; exact hfailed
  rw [RunDb.marks, hat.rows, interpret_append hat.passed, interpret, if_pos hstop, hrun, hfate,
    List.map_append, List.map_cons]

theorem Ended.interpret_eq (h : Ended db) :
    interpret W db.steps.rows = (db.run.state, db.marks) := by
  rw [interpret_passed h.passed, h.run]
  rfl

/-- Between two passes of agents each of which can do every step. -/
structure Interpreting (W : World) (polls : List Poll) (plan : List PlanStep) (db : RunDb) : Prop where
  idle : Idle db
  place : Going db ∨ Ended db ∨ Stopped db
  serves : ∀ p ∈ polls, ∀ r ∈ db.steps.rows, p.serves r
  meaning : interpret W db.steps.rows = interpret W plan

theorem turn_interpreting {polls : List Poll} {plan : List PlanStep}
    (h : Interpreting W polls plan db) (hp : p ∈ polls) :
    Interpreting W polls plan (turn W db p) ∧
      (Ended db ∨ Stopped db → turn W db p = db) ∧
      (Going db → (turn W db p).work W < db.work W) := by
  have hserves := h.serves p hp
  have hhalted : Ended db ∨ Stopped db → turn W db p = db := by
    rintro (hend | hstop)
    · exact turn_none h.idle hend.nextClaim_none
    · exact turn_none h.idle (hstop.nextClaim_none hserves)
  refine ⟨⟨turn_idle W p h.idle, ?_, ?_, ?_⟩, hhalted, fun hgoing => ?_⟩
  · rcases h.place with hgoing | hrest
    · exact (turn_going hgoing hserves).1
    · rw [hhalted hrest]
      exact .inr hrest
  · intro p' hp' r hr
    obtain ⟨q, hq, prog, rfl⟩ := turn_rows p h.idle hr
    exact h.serves p' hp' q hq
  · rcases h.place with hgoing | hrest
    · exact (turn_going hgoing hserves).2.1.trans h.meaning
    · rw [hhalted hrest]
      exact h.meaning
  · exact (turn_going hgoing hserves).2.2

end Turn

theorem Initial.place {db : RunDb} (h : Initial db) (hsome : ∃ r ∈ db.steps.rows, r.state = .pending) :
    Going db := by
  have hrows : ∀ q ∈ db.steps.rows, q.passed = true ∨ q.state = .pending := by
    intro q hq
    obtain ⟨s, hs, hp⟩ := h.progress q hq
    have hstate : q.state = s := by rw [hp]
    rcases hs with rfl | rfl
    · exact .inr hstate
    · exact .inl (PlanStep.passed_iff.mpr (.inr hstate))
  rcases exists_first_pending hrows with hall | ⟨before, r, rest, hsplit, hbefore, hpending, hrest⟩
  · obtain ⟨r, hr, hpending⟩ := hsome
    rcases PlanStep.passed_iff.mp (hall r hr) with hs | hs <;> simp [hpending] at hs
  · exact ⟨before, r, rest, ⟨hsplit, hbefore⟩, hpending, hrest, by rw [h.queued]; rfl⟩

/-- Where every request serves every step (one phase), any agents that ask often enough bring a
run to where its plan interpreted step by step ends. -/
theorem turns_interpret {db₀ : RunDb} (hcreated : Created db₀) (W : World) {polls : List Poll}
    (hsome : ∃ r ∈ db₀.steps.rows, r.state = .pending)
    (hserves : ∀ p ∈ polls, ∀ r ∈ db₀.steps.rows, p.serves r)
    (hlong : db₀.work W ≤ polls.length) :
    interpret W db₀.steps.rows =
      ((polls.foldl (turn W) db₀).run.state, (polls.foldl (turn W) db₀).marks) := by
  have hstart : Interpreting W polls db₀.steps.rows db₀ :=
    ⟨hcreated.initial.idle, .inl (hcreated.initial.place hsome), hserves, rfl⟩
  have hend : Interpreting W polls db₀.steps.rows (polls.foldl (turn W) db₀) :=
    foldl_invariant_of_mem (G := Interpreting W polls db₀.steps.rows)
      (fun _ _ hp hs => (turn_interpreting hs hp).1) hstart
  have hrest : Ended (polls.foldl (turn W) db₀) ∨ Stopped (polls.foldl (turn W) db₀) := by
    have hsweeps : (polls.map fun p => [p]).flatten = polls := by
      rw [← List.flatMap_def, List.flatMap_singleton']
    have hone : ∀ sweep ∈ polls.map (fun p => [p]), ∃ p ∈ polls, [p] = sweep := fun _ h => List.mem_map.mp h
    rw [← hsweeps]
    refine rest_of_sweeps (G := Interpreting W polls db₀.steps.rows)
      (R := fun s => Ended s ∨ Stopped s) (w := fun s => s.work W)
      ?_ ?_ ?_ ?_ hstart (.inl (by rwa [List.length_map]))
    · intro s sweep hsweep hs
      obtain ⟨p, hp, rfl⟩ := hone sweep hsweep
      exact (turn_interpreting hs hp).1
    · intro s sweep hsweep hs hrest
      obtain ⟨p, hp, rfl⟩ := hone sweep hsweep
      rw [List.foldl_cons, (turn_interpreting hs hp).2.1 hrest]
      exact hrest
    · intro s sweep hsweep hs hrest
      obtain ⟨p, hp, rfl⟩ := hone sweep hsweep
      exact (turn_interpreting hs hp).2.2 (hs.place.resolve_right hrest)
    · intro s hs hzero
      refine hs.place.resolve_left ?_
      rintro ⟨before, r, rest, hat, hpending, _⟩
      have := work_pos_of_pending (W := W) hat.mem hpending
      omega
  rw [← hend.meaning]
  exact hrest.elim Ended.interpret_eq Stopped.interpret_eq

def fullOsPoll : Poll := { agent := { agentId := "agent", phase := "full_os" } }

def firstFails : World := fun id _ => { verdict := if id = 1 then .failed else .success }

theorem optionalRun_interpreted :
    interpret firstFails optionalRun.steps.rows =
      (([fullOsPoll, fullOsPoll].foldl (turn firstFails) optionalRun).run.state,
        ([fullOsPoll, fullOsPoll].foldl (turn firstFails) optionalRun).marks) :=
  turns_interpret (created_createdFrom _ rfl) firstFails (by decide) (by decide) (by decide)

end ProxmoxVEAutopilot.TsEngine
