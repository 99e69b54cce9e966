import ProxmoxVEAutopilot.Onboarding.Launch
import ProxmoxVEAutopilot.Foundation.Runs

/-!
# One launch for each time the row is in progress

The status gate is a read without a lock. While one launch is between that read and its
end, no other launch may pass the gate; then each era of the row has one provision request.
-/

namespace ProxmoxVEAutopilot.Onboarding.Launch

open Foundation (Json Replays)

set_option autoImplicit false

def Phase.isOpen : Phase → Bool
  | .read _ _ | .tracked _ | .kicked _ => true
  | .waiting | .launched _ | .rowMissing _ | .kickFailed | .refused => false

def Phase.beforeKick : Phase → Bool
  | .read _ _ | .tracked _ => true
  | .waiting | .kicked _ | .launched _ | .rowMissing _ | .kickFailed | .refused => false

def World.inProgress {τ : Type} (w : World τ) : Prop := w.row.map Row.status = some "in_progress"

instance {τ : Type} (w : World τ) : Decidable w.inProgress := inferInstanceAs (Decidable (_ = _))

section Claim
variable {τ : Type} [DecidableEq τ] (ownerSub : String)

/-- What is promised of the `events`: one successful request in each era, whose run id the launch
leaves in the row it finds, until a put or a delete; and nothing of a launch whose request fails. -/
structure LaunchesOnce (w : World τ) (events : List (Event τ)) : Prop where
  once : ((w.run ownerSub events).kicks.map Kick.era).Nodup
  recorded : ∀ (before after : List (Event τ)) (t : τ) (p : Plan), events = before ++ .finish t :: after →
    (w.run ownerSub before).phase t = .kicked p → (w.run ownerSub before).row ≠ none →
    (∀ e ∈ after, e.launch ≠ none) →
      (w.run ownerSub events).row.bind Row.launchedRunId = some p.runId
  rolledBack : ∀ (before after : List (Event τ)) (e : Event τ) (t : τ), events = before ++ e :: after →
    e.launch = some t → (w.run ownerSub events).phase t = .kickFailed →
      (w.run ownerSub (before ++ [e])).row = (w.run ownerSub before).row ∧
        (w.run ownerSub (before ++ [e])).tracking = (w.run ownerSub before).tracking

/-- A launch finds the row in progress only when no other launch that did so is still open. -/
def Alone (w : World τ) : Event τ → Prop
  | .read _ _ => w.inProgress → ∀ u, (w.phase u).isOpen = false
  | .put _ _ _ | .delete | .track _ _ | .kick _ _ | .finish _ => True

instance [Fintype τ] (w : World τ) : ∀ e, Decidable (Alone w e)
  | .read _ _ => inferInstanceAs (Decidable (_ → ∀ u, (w.phase u).isOpen = false))
  | .put _ _ _ | .delete | .track _ _ | .kick _ _ | .finish _ => isTrue trivial

end Claim

namespace World
variable {τ : Type} {w : World τ}

structure Single (w : World τ) : Prop where
  single : ∀ t u, (w.phase t).isOpen → (w.phase u).isOpen → t = u
  once : (w.kicks.map Kick.era).Nodup
  past : ∀ k ∈ w.kicks, k.era ≤ w.era
  fresh : ∀ t, (w.phase t).beforeKick → ∀ k ∈ w.kicks, k.era < w.era
  settled : ∀ k ∈ w.kicks, k.era = w.era → w.inProgress → ∃ t, (w.phase t).isOpen ∧ (w.phase t).beforeKick = false

theorem single_start (row : Option Row) (tracking : Install.Db) : ({ row := row, tracking := tracking } : World τ).Single where
  single := nofun
  once := .nil
  past := nofun
  fresh := nofun
  settled := nofun

theorem isOpen_of_beforeKick {p : Phase} (h : p.beforeKick = true) : p.isOpen = true := by
  cases p <;> first | rfl | cases h

theorem Single.setRow (h : w.Single) {row : Option Row}
    (hrow : row.map Row.status = some "in_progress" → w.inProgress) : Single { w with row := row } where
  single := h.single
  once := h.once
  past := h.past
  fresh := h.fresh
  settled k hk hera hprogress := h.settled k hk hera (hrow hprogress)

/-- A new era has no request yet. -/
theorem Single.newEra (h : w.Single) (row : Option Row) : Single { w with row := row, era := w.era + 1 } where
  single := h.single
  once := h.once
  past k hk := (h.past k hk).trans (Nat.le_succ _)
  fresh _ _ k hk := Nat.lt_succ_of_le (h.past k hk)
  settled k hk hera := absurd (h.past k hk) (by change k.era = w.era + 1 at hera; omega)

theorem Single.put (h : w.Single) (patch : Patch) (ifMatch : Option Int) (now : Int) :
    (w.put patch ifMatch now).Single := by
  unfold World.put
  split
  · split
    · split
      · exact h
      · dsimp only
        split
        · exact h.newEra _
        · rename_i hstatus
          exact h.setRow fun hprogress => absurd (Option.some.inj hprogress) hstatus
    · rename_i row hrow
      split
      · exact h
      · split
        · exact h.newEra _
        · rename_i hstatus
          refine h.setRow fun hprogress => ?_
          have hupdate : (patch.status.getD row.status) = "in_progress" := Option.some.inj hprogress
          cases hpatch : patch.status with
          | none =>
            rw [hpatch] at hupdate
            simpa [World.inProgress, hrow] using hupdate
          | some status =>
            rw [hpatch] at hupdate
            exact absurd (hpatch.trans (congrArg some hupdate)) hstatus
  · exact h

theorem Single.none_settled (h : w.Single) {t : τ} (ht : (w.phase t).beforeKick = true) {P : Prop} :
    ∀ k ∈ w.kicks, k.era = w.era → P :=
  fun k hk hera => absurd (h.fresh t ht k hk) (by omega)

variable [DecidableEq τ]

theorem goTo_phase (t u : τ) (p : Phase) : (w.goTo t p).phase u = if u = t then p else w.phase u := by
  simp [World.goTo, Function.update_apply]

theorem Single.goTo (h : w.Single) {t : τ} {p : Phase}
    (hopen : p.isOpen = true → ∀ u, (w.phase u).isOpen → u = t)
    (hbefore : p.beforeKick = true → ∀ k ∈ w.kicks, k.era < w.era)
    (hsettled : ∀ k ∈ w.kicks, k.era = w.era → w.inProgress → ∃ u, u ≠ t ∧ (w.phase u).isOpen ∧ (w.phase u).beforeKick = false) :
    (w.goTo t p).Single where
  single a b ha hb := by
    rw [goTo_phase] at ha hb
    split at ha <;> split at hb
    · rename_i heqa heqb
      exact heqa.trans heqb.symm
    · rename_i heq _
      exact heq.trans (hopen ha b hb).symm
    · rename_i heq
      exact (hopen hb a ha).trans heq.symm
    · exact h.single a b ha hb
  once := h.once
  past := h.past
  fresh a ha := by
    rw [goTo_phase] at ha
    split at ha
    · exact hbefore ha
    · exact h.fresh a ha
  settled k hk hera hprogress := by
    obtain ⟨u, hne, hu⟩ := hsettled k hk hera hprogress
    exact ⟨u, by rwa [goTo_phase, if_neg hne]⟩

variable (ownerSub : String)

theorem Single.read (h : w.Single) (t : τ) (started : Int)
    (halone : w.inProgress → ∀ u, (w.phase u).isOpen = false) : (w.read t started).Single := by
  have hother : ∀ k ∈ w.kicks, k.era = w.era → w.inProgress →
      ∃ u, u ≠ t ∧ (w.phase u).isOpen ∧ (w.phase u).beforeKick = false := by
    intro k hk hera hprogress
    obtain ⟨u, hu, -⟩ := h.settled k hk hera hprogress
    rw [halone hprogress u] at hu
    cases hu
  unfold World.read
  split
  · exact h.goTo nofun nofun hother
  · rename_i row hrow
    split
    · rename_i hstatus
      have hprogress : w.inProgress := by simp [World.inProgress, hrow, hstatus]
      refine h.goTo (fun _ u hu => ?_) (fun _ k hk => ?_) hother
      · rw [halone hprogress u] at hu
        cases hu
      · refine lt_of_le_of_ne (h.past k hk) fun hera => ?_
        obtain ⟨u, -, hu, -⟩ := hother k hk hera hprogress
        rw [halone hprogress u] at hu
        cases hu
    · exact h.goTo nofun nofun hother

theorem Single.track (h : w.Single) {t : τ} {row : Row} {started : Int} (hphase : w.phase t = .read row started)
    (seconds : Nat) : (w.track ownerSub t row started seconds).Single := by
  have hbefore : (w.phase t).beforeKick = true := by rw [hphase]; rfl
  have hself : ∀ u, (w.phase u).isOpen → u = t := fun u hu => h.single u t hu (isOpen_of_beforeKick hbefore)
  have hnone := fun k hk hera (_ : w.inProgress) => h.none_settled hbefore
    (P := ∃ u, u ≠ t ∧ (w.phase u).isOpen ∧ (w.phase u).beforeKick = false) k hk hera
  unfold World.track
  split
  · exact h.goTo nofun nofun hnone
  · split
    · exact h.goTo (fun _ => hself) (fun _ => h.fresh t hbefore) hnone
    · exact h.goTo nofun nofun hnone

theorem Single.kick (h : w.Single) {t : τ} {p : Plan} (hphase : w.phase t = .tracked p) (succeeds : Bool) :
    (w.kick t p succeeds).Single := by
  have hbefore : (w.phase t).beforeKick = true := by rw [hphase]; rfl
  have hself : ∀ u, (w.phase u).isOpen → u = t := fun u hu => h.single u t hu (isOpen_of_beforeKick hbefore)
  have hnone := fun k hk hera (_ : w.inProgress) => h.none_settled hbefore
    (P := ∃ u, u ≠ t ∧ (w.phase u).isOpen ∧ (w.phase u).beforeKick = false) k hk hera
  unfold World.kick
  split
  · have hnext : (w.goTo t (.kicked p)).Single := h.goTo (fun _ => hself) nofun hnone
    refine ⟨hnext.single, List.nodup_cons.mpr ⟨fun hmem => ?_, h.once⟩, ?_, fun u hu => ?_, fun _ _ _ _ => ⟨t, ?_⟩⟩
    · obtain ⟨k, hk, hera⟩ := List.mem_map.mp hmem
      have hlt := h.fresh t hbefore k hk
      exact absurd hera (by simp only; omega)
    · rintro k (_ | ⟨_, hk⟩)
      · exact Nat.le_refl _
      · exact h.past k hk
    · -- The one open launch has sent its request.
      exfalso
      change ((w.goTo t (.kicked p)).phase u).beforeKick = true at hu
      rw [goTo_phase] at hu
      split at hu
      · cases hu
      · rename_i hne
        exact hne (hself u (isOpen_of_beforeKick hu))
    · change ((w.goTo t (.kicked p)).phase t).isOpen = true ∧ ((w.goTo t (.kicked p)).phase t).beforeKick = false
      rw [goTo_phase, if_pos rfl]
      exact ⟨rfl, rfl⟩
  · exact h.goTo nofun nofun hnone

theorem Single.finish (h : w.Single) {t : τ} {p : Plan} (hphase : w.phase t = .kicked p) : (w.finish t p).Single := by
  have hopen : (w.phase t).isOpen = true := by rw [hphase]; rfl
  have hnobody : ∀ u, u ≠ t → (w.phase u).isOpen = false := by
    intro u hne
    by_contra hu
    exact hne (h.single u t (by simpa using hu) hopen)
  -- The row is gone or launched, so nothing has to be settled.
  have hended : ∀ (q : Phase) (row : Option Row) (tracking : Install.Db), q.isOpen = false →
      row.map Row.status ≠ some "in_progress" →
        Single { w.goTo t q with row := row, tracking := tracking } := by
    intro q row tracking hq hrow
    have hphases : ∀ u, ((w.goTo t q).phase u).isOpen = false := by
      intro u
      rw [goTo_phase]
      split
      · exact hq
      · exact hnobody u (by assumption)
    refine ⟨fun a b ha => ?_, h.once, h.past, fun a ha => ?_, fun k hk hera hprogress => absurd hprogress hrow⟩
    · rw [hphases a] at ha
      cases ha
    · have hclosed := hphases a
      rw [isOpen_of_beforeKick ha] at hclosed
      cases hclosed
  unfold World.finish
  split
  · rename_i hrow
    exact hended (.rowMissing p) w.row w.tracking rfl (by simp [hrow])
  · exact hended (.launched p) _ _ rfl (by simp)

theorem Single.exec (h : w.Single) {e : Event τ} (halone : Alone w e) : (w.exec ownerSub e).Single := by
  cases e with
  | put patch ifMatch now => exact h.put patch ifMatch now
  | delete => exact h.setRow nofun
  | read t started =>
    dsimp only [World.exec]
    split
    · exact h.read t started halone
    · exact h
  | track t seconds =>
    dsimp only [World.exec]
    split
    · exact h.track ownerSub (by assumption) seconds
    · exact h
  | kick t succeeds =>
    dsimp only [World.exec]
    split
    · exact h.kick (by assumption) succeeds
    · exact h
  | finish t =>
    dsimp only [World.exec]
    split
    · exact h.finish (by assumption)
    · exact h

section Recorded

/-- The row is launched with the run id, and no launch is open. -/
structure Recorded (runId : String) (w : World τ) : Prop where
  status : w.row.map Row.status = some "launched"
  runId : w.row.bind Row.launchedRunId = some runId
  closed : ∀ u, (w.phase u).isOpen = false

theorem Recorded.refuse {runId : String} (h : Recorded runId w) (t : τ) : Recorded runId (w.goTo t .refused) := by
  refine ⟨h.status, h.runId, fun u => ?_⟩
  rw [goTo_phase]
  split
  · rfl
  · exact h.closed u

theorem Recorded.exec {runId : String} (h : Recorded runId w) {e : Event τ} (he : e.launch ≠ none) :
    Recorded runId (w.exec ownerSub e) := by
  have hclosed : ∀ {u : τ} {p : Phase}, w.phase u = p → p.isOpen = false := fun hu => hu ▸ h.closed _
  cases e with
  | put patch ifMatch now => exact absurd rfl he
  | delete => exact absurd rfl he
  | read t started =>
    dsimp only [World.exec]
    split
    · unfold World.read
      split
      · exact h.refuse t
      · rename_i row hrow
        have hstatus : row.status = "launched" := by simpa [hrow] using h.status
        rw [if_neg (by rw [hstatus]; decide)]
        exact h.refuse t
    · exact h
  | track t seconds =>
    dsimp only [World.exec]
    split
    · cases hclosed (by assumption)
    · exact h
  | kick t succeeds =>
    dsimp only [World.exec]
    split
    · cases hclosed (by assumption)
    · exact h
  | finish t =>
    dsimp only [World.exec]
    split
    · cases hclosed (by assumption)
    · exact h

theorem Recorded.run {runId : String} {events : List (Event τ)} : ∀ {w : World τ}, Recorded runId w →
    (∀ e ∈ events, e.launch ≠ none) → Recorded runId (w.run ownerSub events) := by
  induction events with
  | nil => exact fun h _ => h
  | cons e events ih =>
    exact fun h he => ih (h.exec ownerSub (he e List.mem_cons_self)) fun e' he' => he e' (List.mem_cons_of_mem _ he')

theorem Single.recorded (h : w.Single) {t : τ} {p : Plan} (hphase : w.phase t = .kicked p) (hrow : w.row ≠ none) :
    Recorded p.runId (w.exec ownerSub (.finish t)) := by
  obtain ⟨row, hrow⟩ := Option.ne_none_iff_exists'.mp hrow
  have hopen : (w.phase t).isOpen = true := by rw [hphase]; rfl
  have hexec : w.exec ownerSub (.finish t) = w.finish t p := by simp only [World.exec, hphase]
  have hfinish : (w.finish t p).row = some { row with launchedRunId := some p.runId, status := "launched", updatedAt := p.started } ∧
      (w.finish t p).phase = (w.goTo t (.launched p)).phase := by
    unfold World.finish
    rw [hrow]
    exact ⟨rfl, rfl⟩
  rw [hexec]
  refine ⟨by simp [hfinish.1], by simp [hfinish.1], fun u => ?_⟩
  rw [hfinish.2, goTo_phase]
  split
  · rfl
  · rename_i hne
    by_contra hu
    exact hne (h.single u t (by simpa using hu) hopen)

end Recorded

section RolledBack

theorem unchanged_exec {e : Event τ} {t : τ} (he : e.launch = some t) :
    ((w.exec ownerSub e).row = w.row ∧ (w.exec ownerSub e).tracking = w.tracking) ∨
      ∃ p, (w.exec ownerSub e).phase t = .launched p := by
  cases e with
  | put patch ifMatch now => cases he
  | delete => cases he
  | read u started =>
    dsimp only [World.exec, World.read]
    split
    · split
      · exact .inl ⟨rfl, rfl⟩
      · split <;> exact .inl ⟨rfl, rfl⟩
    · exact .inl ⟨rfl, rfl⟩
  | track u seconds =>
    dsimp only [World.exec, World.track]
    split
    · split
      · exact .inl ⟨rfl, rfl⟩
      · split <;> exact .inl ⟨rfl, rfl⟩
    · exact .inl ⟨rfl, rfl⟩
  | kick u succeeds =>
    dsimp only [World.exec, World.kick]
    split
    · split <;> exact .inl ⟨rfl, rfl⟩
    · exact .inl ⟨rfl, rfl⟩
  | finish u =>
    obtain rfl : u = t := Option.some.inj he
    dsimp only [World.exec, World.finish]
    split
    · split
      · exact .inl ⟨rfl, rfl⟩
      · exact .inr ⟨_, Function.update_self _ _ _⟩
    · exact .inl ⟨rfl, rfl⟩

theorem launched_exec {t : τ} {p : Plan} (h : w.phase t = .launched p) (e : Event τ) :
    (w.exec ownerSub e).phase t = .launched p := by
  have hgoTo : ∀ {u q}, w.phase u ≠ .launched p → (w.goTo u q).phase t = .launched p := by
    intro u q hu
    rw [goTo_phase, if_neg fun heq : t = u => hu (heq ▸ h), h]
  cases e with
  | put patch ifMatch now =>
    dsimp only [World.exec, World.put]
    split
    · split
      · split <;> exact h
      · split <;> exact h
    · exact h
  | delete => exact h
  | read u started =>
    dsimp only [World.exec, World.read]
    split
    · rename_i hphase
      have hu : w.phase u ≠ .launched p := by rw [hphase]; nofun
      split
      · exact hgoTo hu
      · split <;> exact hgoTo hu
    · exact h
  | track u seconds =>
    dsimp only [World.exec, World.track]
    split
    · rename_i hphase
      have hu : w.phase u ≠ .launched p := by rw [hphase]; nofun
      split
      · exact hgoTo hu
      · split <;> exact hgoTo hu
    · exact h
  | kick u succeeds =>
    dsimp only [World.exec, World.kick]
    split
    · rename_i hphase
      have hu : w.phase u ≠ .launched p := by rw [hphase]; nofun
      split <;> exact hgoTo hu
    · exact h
  | finish u =>
    dsimp only [World.exec, World.finish]
    split
    · rename_i hphase
      have hu : w.phase u ≠ .launched p := by rw [hphase]; nofun
      split <;> exact hgoTo hu
    · exact h

theorem launched_run {t : τ} {p : Plan} {events : List (Event τ)} : ∀ {w : World τ}, w.phase t = .launched p →
    (w.run ownerSub events).phase t = .launched p := by
  induction events with
  | nil => exact fun h => h
  | cons e events ih => exact fun h => ih (launched_exec ownerSub h e)

end RolledBack

end World

section Main
variable {τ : Type} [DecidableEq τ] (ownerSub : String)

theorem run_append (w : World τ) (before after : List (Event τ)) :
    w.run ownerSub (before ++ after) = (w.run ownerSub before).run ownerSub after := List.foldl_append

theorem single_run {events : List (Event τ)} : ∀ {w : World τ}, w.Single →
    Replays Alone (fun w e => w.exec ownerSub e) w events → (w.run ownerSub events).Single := by
  induction events with
  | nil => exact fun h _ => h
  | cons e events ih => exact fun h halone => ih (h.exec ownerSub halone.1) halone.2

theorem launches_once (row : Option Row) (tracking : Install.Db) (events : List (Event τ))
    (h : Replays Alone (fun w e => w.exec ownerSub e) { row := row, tracking := tracking } events) :
    LaunchesOnce ownerSub { row := row, tracking := tracking } events := by
  have hstart := World.single_start (τ := τ) row tracking
  refine ⟨(single_run ownerSub hstart h).once, ?_, ?_⟩
  · rintro before after t p rfl hphase hrow hafter
    have hbefore := single_run ownerSub hstart (Foundation.replays_append.mp h).1
    rw [run_append]
    exact ((hbefore.recorded ownerSub hphase hrow).run ownerSub hafter).runId
  · rintro before after e t rfl he hfailed
    rw [run_append] at hfailed ⊢
    rcases World.unchanged_exec ownerSub he with hsame | ⟨p, hlaunched⟩
    · exact hsame
    · exact absurd ((World.launched_run ownerSub hlaunched).symm.trans hfailed) nofun

end Main

section Examples

def wizardRow : Row where
  status := "in_progress"
  currentStep := "review"
  persona := some "lab"
  answers := [("identity", .obj [("mode", .str "workgroup")])]
  launchedRunId := none
  createdAt := 0
  updatedAt := 0

/-- The second launch reads a row that is launched. -/
theorem second_launch_is_refused : LaunchesOnce (τ := Bool) "alice" { row := some wizardRow, tracking := ⟨[], []⟩ }
    [.read true 1, .track true 100, .kick true true, .finish true, .read false 2, .track false 101] :=
  launches_once "alice" (some wizardRow) ⟨[], []⟩ _ (by decide +kernel)

/-- Both launches pass the gate before either has set the row to launched. -/
theorem double_click_provisions_twice :
    ¬ LaunchesOnce (τ := Bool) "alice" { row := some wizardRow, tracking := ⟨[], []⟩ }
      [.read true 1, .read false 1, .track true 100, .track false 101, .kick true true, .kick false true] := by
  intro h
  have honce := h.once
  revert honce
  decide +kernel

end Examples

end ProxmoxVEAutopilot.Onboarding.Launch
