import ProxmoxVEAutopilot.CloudDeletes.Evidence

/-!
# A deletion job ends

A verification sleeps longer and longer up to a cap, so its budget pays for a fixed number
of polls. Every event that does anything brings the job nearer to its end, and there is
always one until it is done. With all calls answered and all rows taken, every item of a
job that is done is in a final state.
-/

namespace ProxmoxVEAutopilot.CloudDeletes

open Foundation
set_option autoImplicit false

section Delays

/-- The sleep before a poll, counted from zero. -/
def delayAt (s : Source) : Nat → Rat
  | 0 => 2
  | k + 1 => nextDelay s (delayAt s k)

def sleptFor (s : Source) : Nat → Rat
  | 0 => 0
  | k + 1 => sleptFor s k + delayAt s k

def maxAttempts : Source → Nat
  | .pve => 16
  | .autopilot => 124
  | .intune => 14
  | .entra => 14

theorem delayAt_pos (s : Source) (k : Nat) : 0 < delayAt s k := by
  induction k with
  | zero =>
    unfold delayAt
    norm_num
  | succ k ih =>
    unfold delayAt nextDelay
    split <;> (apply lt_min <;> linarith)

theorem sleptFor_mono (s : Source) {j k : Nat} (h : j ≤ k) : sleptFor s j ≤ sleptFor s k := by
  induction h with
  | refl => exact le_refl _
  | step _ ih =>
    have := delayAt_pos s
    exact ih.trans (le_add_of_nonneg_right (le_of_lt (this _)))

theorem delayAt_pve (k : Nat) : delayAt .pve (k + 5) = 15 := by
  induction k with
  | zero => norm_num [delayAt, nextDelay]
  | succ k ih =>
    rw [show k + 1 + 5 = k + 5 + 1 by omega, delayAt, ih]
    norm_num [nextDelay]

theorem delayAt_graph {s : Source} (h : s ≠ .pve) (k : Nat) : delayAt s (k + 5) = 60 := by
  have hnext : ∀ d, nextDelay s d = min (d * 2) 60 := by
    intro d
    cases s <;> first | exact absurd rfl h | rfl
  induction k with
  | zero => norm_num [delayAt, hnext]
  | succ k ih =>
    rw [show k + 1 + 5 = k + 5 + 1 by omega, delayAt, ih, hnext]
    norm_num

theorem sleptFor_pve (k : Nat) : sleptFor .pve (k + 5) = 211 / 8 + 15 * k := by
  induction k with
  | zero => norm_num [sleptFor, delayAt, nextDelay]
  | succ k ih =>
    rw [show k + 1 + 5 = k + 5 + 1 by omega, sleptFor, ih, delayAt_pve]
    push_cast
    ring

theorem sleptFor_graph {s : Source} (h : s ≠ .pve) (k : Nat) : sleptFor s (k + 5) = 62 + 60 * k := by
  have hnext : ∀ d, nextDelay s d = min (d * 2) 60 := by
    intro d
    cases s <;> first | exact absurd rfl h | rfl
  induction k with
  | zero => norm_num [sleptFor, delayAt, hnext]
  | succ k ih =>
    rw [show k + 1 + 5 = k + 5 + 1 by omega, sleptFor, ih, delayAt_graph h]
    push_cast
    ring

theorem budget_le_sleptFor (s : Source) : budget s ≤ sleptFor s (maxAttempts s) := by
  cases s with
  | pve =>
    rw [maxAttempts, show 16 = 11 + 5 by rfl, sleptFor_pve, budget]
    norm_num
  | autopilot =>
    rw [maxAttempts, show 124 = 119 + 5 by rfl, sleptFor_graph (by simp), budget]
    norm_num
  | intune =>
    rw [maxAttempts, show 14 = 9 + 5 by rfl, sleptFor_graph (by simp), budget]
    norm_num
  | entra =>
    rw [maxAttempts, show 14 = 9 + 5 by rfl, sleptFor_graph (by simp), budget]
    norm_num

end Delays

section Polls
variable {item : Item} {clock : Clock} {dbUp : Bool} {reply : Reply} {repr : String → String} {now : Rat}

/-- What a verification has slept, and how often it polled. -/
def VerifyPc.Paced (s : Source) (now : Rat) : VerifyPc → Prop
  | .sleeping p => p.attempts < maxAttempts s ∧ p.delay = delayAt s p.attempts ∧
      p.deadline - budget s + sleptFor s (p.attempts + 1) ≤ p.wakeAt
  | .asking p => 0 < p.attempts ∧ p.attempts ≤ maxAttempts s ∧ p.delay = delayAt s (p.attempts - 1) ∧
      p.deadline - budget s + sleptFor s p.attempts ≤ now
  | _ => True

def VerifyPc.rank (s : Source) : VerifyPc → Nat
  | .created => 2 * maxAttempts s + 1
  | .sleeping p => 2 * (maxAttempts s - p.attempts)
  | .asking p => 2 * (maxAttempts s - p.attempts) + 1
  | .returned | .raised => 0

def VerifyPc.Polled (s : Source) (count : Nat) : VerifyPc → Prop
  | .created => count = 0
  | .sleeping p | .asking p => count = p.attempts
  | .returned | .raised => count ≤ maxAttempts s

theorem VerifyPc.Paced.later {s : Source} {now now' : Rat} {pc : VerifyPc} (h : pc.Paced s now) (hle : now ≤ now') :
    pc.Paced s now' := by
  cases pc with
  | asking p => exact ⟨h.1, h.2.1, h.2.2.1, h.2.2.2.trans hle⟩
  | _ => exact h

theorem paced_start (item : Item) (clock : Clock) : (startVerify repr item clock).pc.Paced item.source clock.loop := by
  unfold startVerify
  split
  · trivial
  · refine ⟨?_, rfl, ?_⟩
    · cases item.source <;> simp [maxAttempts]
    · change clock.loop + budget item.source - budget item.source + (sleptFor item.source 0 + delayAt item.source 0) ≤
        clock.loop + 2
      unfold sleptFor delayAt
      linarith

theorem paced_again {p : Polling} {item' : Item} (hsource : item'.source = item.source)
    (hpaced : (VerifyPc.asking p).Paced item.source now) (hnow : now ≤ clock.loop) (hbefore : clock.loop < p.deadline) :
    (again item' p clock).pc.Paced item.source clock.loop := by
  obtain ⟨hpos, hmax, hdelay, hslept⟩ := hpaced
  have hdelayed : nextDelay item'.source p.delay = delayAt item.source p.attempts := by
    rw [hsource, hdelay]
    obtain ⟨k, hk⟩ : ∃ k, p.attempts = k + 1 := ⟨p.attempts - 1, by omega⟩
    rw [hk]
    rfl
  refine ⟨?_, hdelayed, ?_⟩
  · change p.attempts < maxAttempts item.source
    by_contra hnot
    have hle := sleptFor_mono item.source (Nat.le_of_not_lt hnot)
    have hbudget := budget_le_sleptFor item.source
    linarith
  · change p.deadline - budget item.source + (sleptFor item.source p.attempts + delayAt item.source p.attempts) ≤
      clock.loop + nextDelay item'.source p.delay
    rw [hdelayed]
    linarith

/-- A turn of a verification: what it asks, and what is left to do. -/
structure Nearer (s : Source) (pc : VerifyPc) (t : Turn VerifyPc) (now : Rat) : Prop where
  paced : t.pc.Paced s now
  rank : t.pc.rank s < pc.rank s
  polled : ∀ count, pc.Polled s count → t.pc.Polled s (count + t.asks.toList.length)

theorem nearer_verified {p : Polling} {s : Source} {item' : Item} {d : Deletion} (hmax : p.attempts ≤ maxAttempts s) :
    Nearer s (.asking p) (verified item' d clock dbUp) now := by
  cases dbUp with
  | false => exact ⟨trivial, Nat.succ_pos _, fun count hcount => le_of_eq_of_le hcount hmax⟩
  | true => exact ⟨trivial, Nat.succ_pos _, fun count hcount => le_of_eq_of_le hcount hmax⟩

theorem nearer_again {p : Polling} {item' : Item} (hsource : item'.source = item.source)
    (hpaced : (VerifyPc.asking p).Paced item.source now) (hnow : now ≤ clock.loop) (hbefore : clock.loop < p.deadline) :
    Nearer item.source (.asking p) (again item' p clock) clock.loop :=
  ⟨paced_again hsource hpaced hnow hbefore, Nat.lt_succ_self _, fun _ hcount => hcount⟩

theorem verifyTurn_nearer {pc : VerifyPc} {t : Turn VerifyPc} (hpaced : pc.Paced item.source now)
    (hnow : now ≤ clock.loop) (h : verifyTurn repr item pc reply clock dbUp = some t) :
    Nearer item.source pc t clock.loop := by
  have hlist : ∀ {p : Polling} {stillThere : Bool}, pc = .asking p →
      Nearer item.source pc (listAnswered item p stillThere clock dbUp) clock.loop := by
    rintro p stillThere rfl
    unfold listAnswered
    dsimp only
    split
    · exact nearer_verified hpaced.2.1
    split
    · exact nearer_verified hpaced.2.1
    · rename_i hbefore
      refine nearer_again ?_ hpaced hnow (lt_of_not_ge hbefore)
      rfl
  unfold verifyTurn at h
  split at h
  · cases h
    refine ⟨paced_start item clock, ?_, fun count hcount => ?_⟩
    · unfold startVerify
      split
      · exact Nat.succ_pos _
      · exact Nat.lt_succ_self _
    · unfold startVerify
      split
      · exact le_of_eq_of_le hcount (Nat.zero_le _)
      · exact hcount
  · split at h
    · rename_i p hwake
      cases h
      obtain ⟨hlt, hdelay, hslept⟩ := hpaced
      have hpaced' : (attempt item p clock).pc.Paced item.source clock.loop := by
        unfold attempt
        dsimp only
        split <;> exact ⟨Nat.succ_pos _, hlt, hdelay, hslept.trans hwake⟩
      have hrank : (attempt item p clock).pc.rank item.source < (VerifyPc.sleeping p).rank item.source := by
        unfold attempt
        dsimp only
        split <;> (simp only [VerifyPc.rank]; omega)
      refine ⟨hpaced', hrank, fun count hcount => ?_⟩
      unfold attempt
      dsimp only
      split <;> exact congrArg (· + 1) hcount
    · cases h
  · rename_i p _
    split at h
    · cases h
      exact hlist rfl
    · cases h
      exact hlist rfl
    · cases h
    · cases h
      unfold getAnswered
      split
      · exact nearer_verified hpaced.2.1
      split
      · exact nearer_verified hpaced.2.1
      · rename_i hbefore
        exact nearer_again rfl hpaced hnow (lt_of_not_ge hbefore)
    · cases h
      exact ⟨trivial, Nat.succ_pos _, fun count hcount => le_of_eq_of_le hcount hpaced.2.1⟩
    · cases h
  · cases h

def DeletePc.rank : DeletePc → Nat
  | created => 4
  | stopping => 3
  | pausing => 2
  | destroying => 1
  | asked => 1
  | returned | raised => 0

theorem deleteTurn_nearer {pc : DeletePc} {t : Turn DeletePc} (h : deleteTurn item pc reply clock dbUp = some t) :
    t.pc.rank < pc.rank := by
  have hended : ∀ {item' : Item} {d : Deletion}, (ended DeletePc.returned .raised dbUp item' d).pc.rank = 0 := by
    intro item' d
    cases dbUp <;> rfl
  unfold deleteTurn at h
  split at h
  · cases h
    unfold startDelete
    dsimp only
    split <;> simp [DeletePc.rank]
  · cases h
    simp [DeletePc.rank]
  · cases h
    simp [DeletePc.rank]
  · cases h
    simp [DeletePc.rank]
  · cases h
    simp [DeletePc.rank]
  · cases h
    rw [hended]
    exact Nat.succ_pos _
  · cases h
    unfold deleteAnswered
    dsimp only
    repeat' split
    all_goals first | (rw [hended]; exact Nat.succ_pos _) | exact Nat.succ_pos _
  · cases h
    exact Nat.succ_pos _
  · cases h

end Polls

section Runs
variable {n : Nat} {job job' : Job n} {s : Step n} {repr : String → String} {cut : Nat}

def Job.polls (job : Job n) (i : Fin n) : Nat :=
  (job.log.filter fun e => e.slot = i ∧ e.call.deletes = false ∧ e.answer = none).length

structure Ongoing (job : Job n) : Prop where
  paced : ∀ i pc, (job.slots i).ver = some pc → pc.Paced (job.source i) job.now
  unpolled : ∀ i, (job.slots i).ver = none → job.polls i = 0
  polled : ∀ i pc, (job.slots i).ver = some pc → pc.Polled (job.source i) (job.polls i)
  begun : ∀ source rest, job.runner = .waiting source rest → ∀ i, job.of source i → (job.slots i).del ≠ none
  finished : job.state = .done ↔ job.runner = .returned ∨ job.runner = .raised
  watched : ∀ i, (job.slots i).del = some .returned → (job.slots i).item.state = .verifying →
    (job.slots i).ver ≠ none ∨ (∃ rest, job.runner = .waiting (job.source i) rest) ∨ job.runner = .raised
  reported : ∀ i, (job.slots i).ver = some .returned → (job.slots i).item.state.final = true
  closed : job.runner = .returned → ∀ i pc, (job.slots i).ver = some pc → pc.over = true

theorem deleteTurn_asks {item : Item} {pc : DeletePc} {reply : Reply} {clock : Clock} {dbUp : Bool}
    {t : Turn DeletePc} (h : deleteTurn item pc reply clock dbUp = some t) :
    ∀ c, t.asks = some c → c.deletes = true := by
  intro c hc
  have hended : ∀ (item : Item) (d : Deletion), (ended DeletePc.returned .raised dbUp item d).asks = none :=
    fun _ _ => rfl
  unfold deleteTurn at h
  split at h
  · cases h
    unfold startDelete at hc
    dsimp only at hc
    split at hc <;> (cases hc; rfl)
  · cases h
    cases hc
  · cases h
    cases hc
    rfl
  · cases h
    cases hc
    rfl
  · cases h
    cases hc
  · cases h
    rw [hended] at hc
    cases hc
  · cases h
    unfold deleteAnswered at hc
    dsimp only at hc
    repeat' split at hc
    all_goals first | (rw [hended] at hc; cases hc) | cases hc
  · cases h
    cases hc
  · cases h

theorem polls_append {new : List (Entry n)} (hlog : job'.log = job.log ++ new) (j : Fin n) :
    job'.polls j = job.polls j +
      (new.filter fun e => e.slot = j ∧ e.call.deletes = false ∧ e.answer = none).length := by
  unfold Job.polls
  rw [hlog, List.filter_append, List.length_append]

theorem polls_noting {π : Type} {i : Fin n} {call : Option Call} {reply : Reply} {t : Turn π} (j : Fin n) :
    ((noting job i call reply t).filter fun e => e.slot = j ∧ e.call.deletes = false ∧ e.answer = none).length =
      if j = i ∧ t.asks.any (fun c => c.deletes = false) then 1 else 0 := by
  have hanswered : (call.map fun c => (⟨i, job.source i, c, some reply⟩ : Entry n)).toList.filter
      (fun e => e.slot = j ∧ e.call.deletes = false ∧ e.answer = none) = [] := by
    refine List.filter_eq_nil_iff.mpr fun e he => ?_
    obtain ⟨c, _, rfl⟩ := Option.map_eq_some_iff.mp (Option.mem_toList.mp he)
    simp
  unfold noting
  rw [List.filter_append, hanswered, List.nil_append]
  cases t.asks with
  | none => simp
  | some c =>
    by_cases hj : j = i
    · subst hj
      by_cases hc : c.deletes = false <;> simp [hc]
    · have hslot : i ≠ j := fun heq => hj heq.symm
      simp [hj, hslot]

theorem Ordered.waits (h : Ordered job cut) {i : Fin n} {pc : DeletePc} (hdel : (job.slots i).del = some pc)
    (hlive : pc ≠ .returned) : (∃ rest, job.runner = .waiting (job.source i) rest) ∨ job.runner = .raised := by
  have horder := h.phased.order_eq hdel hlive
  have hlt := (job.source i).order_lt
  have hcreated := h.runner.ne_created (i := i) (by simp [hdel])
  have hrunner := h.runner
  unfold RunnerAt at hrunner
  cases hrun : job.runner with
  | created => exact absurd hrun hcreated
  | waiting source rest =>
    rw [hrun] at hrunner
    have heq := Source.order_injective (horder.trans hrunner.1)
    exact .inl ⟨rest, by rw [heq]⟩
  | verifying =>
    rw [hrun] at hrunner
    omega
  | returned =>
    rw [hrun] at hrunner
    omega
  | raised => exact .inr rfl

theorem ongoing_deleted (h : Ordered job cut) (hg : Ongoing job) (hnow : job.now ≤ s.clock.loop) {i : Fin n}
    {pc : DeletePc} {reply : Reply} {t : Turn DeletePc} (hdel : (job.slots i).del = some pc)
    (hturn : deleteTurn (job.slots i).item pc reply s.clock s.dbUp = some t) :
    Ongoing { job.deleted i pc reply t with now := s.clock.loop } := by
  obtain ⟨hkey, hcase, _⟩ := deleteTurn_cases (h.fits i pc hdel) hturn
  have hlive := hcase.live.1
  have ht := deleted_turned hkey pc reply s.clock.loop
  have hself : (job.deleted i pc reply t).slots i = _ := deleted_self i pc reply t
  have hver : ∀ j, ((job.deleted i pc reply t).slots j).ver = (job.slots j).ver := deleted_ver i pc reply t
  have hpolls : ∀ j, (job.deleted i pc reply t).polls j = job.polls j := by
    intro j
    have hasks : t.asks.any (fun c => c.deletes = false) = false := by
      cases hc : t.asks with
      | none => rfl
      | some c => simp [deleteTurn_asks hturn c hc]
    rw [polls_append deleted_log, polls_noting, hasks]
    simp
  refine ⟨fun j pc' hj => ?_, fun j hj => ?_, fun j pc' hj => ?_, fun source rest hrunner j hj => ?_, hg.finished,
    fun j hj hverifying => ?_, fun j hreturned => ?_, fun hreturned j pc' hj => ?_⟩
  · rw [ht.source]
    exact (hg.paced j pc' ((hver j).symm.trans hj)).later hnow
  · exact (hpolls j).trans (hg.unpolled j ((hver j).symm.trans hj))
  · rw [ht.source]
    change pc'.Polled (job.source j) ((job.deleted i pc reply t).polls j)
    rw [hpolls]
    exact hg.polled j pc' ((hver j).symm.trans hj)
  · by_cases heq : j = i
    · change ((job.deleted i pc reply t).slots j).del ≠ none
      rw [heq, hself]
      simp
    · rw [ht.others j heq]
      exact hg.begun source rest hrunner j ((ht.source j).symm.trans hj)
  · rw [ht.source]
    by_cases heq : j = i
    · subst heq
      exact .inr (h.waits hdel hlive)
    · rw [ht.others j heq] at hj hverifying ⊢
      exact hg.watched j hj hverifying
  · have hj := (hver j).symm.trans hreturned
    have heq : j ≠ i := by
      intro heq
      rw [heq, h.phased.ver_eq_none hdel hlive] at hj
      cases hj
    rw [ht.others j heq]
    exact hg.reported j hj
  · exact hg.closed hreturned j pc' ((hver j).symm.trans hj)

theorem ongoing_verified (hg : Ongoing job) (hnow : job.now ≤ s.clock.loop) {i : Fin n}
    {pc : VerifyPc} {reply : Reply} {t : Turn VerifyPc} (hver : (job.slots i).ver = some pc)
    (hturn : verifyTurn repr (job.slots i).item pc reply s.clock s.dbUp = some t) :
    Ongoing { job.verified i pc reply t with now := s.clock.loop } := by
  obtain ⟨hkey, hcase⟩ := verifyTurn_cases hturn
  have hnearer := verifyTurn_nearer (hg.paced i pc hver) hnow hturn
  have ht := verified_turned hkey pc reply s.clock.loop
  have hself : (job.verified i pc reply t).slots i = _ := verified_self i pc reply t
  have hdel : ∀ j, ((job.verified i pc reply t).slots j).del = (job.slots j).del := verified_del i pc reply t
  have hpolls : ∀ j, (job.verified i pc reply t).polls j = job.polls j + if j = i then t.asks.toList.length else 0 := by
    intro j
    rw [polls_append verified_log, polls_noting]
    cases hc : t.asks with
    | none => simp
    | some c => simp [verifyTurn_asks hturn c hc]
  refine ⟨fun j pc' hj => ?_, fun j hj => ?_, fun j pc' hj => ?_, fun source rest hrunner j hj hnone => ?_, hg.finished,
    fun j hj hverifying => ?_, fun j hj => ?_, fun hreturned j pc' hj => ?_⟩
  · rw [ht.source]
    by_cases heq : j = i
    · subst heq
      change ((job.verified j pc reply t).slots j).ver = some pc' at hj
      rw [hself] at hj
      rw [← Option.some.inj hj]
      exact hnearer.paced
    · rw [ht.others j heq] at hj
      exact (hg.paced j pc' hj).later hnow
  · have heq : j ≠ i := by
      rintro rfl
      change ((job.verified j pc reply t).slots j).ver = none at hj
      rw [hself] at hj
      cases hj
    rw [ht.others j heq] at hj
    refine (hpolls j).trans ?_
    rw [if_neg heq]
    exact hg.unpolled j hj
  · rw [ht.source]
    change pc'.Polled (job.source j) ((job.verified i pc reply t).polls j)
    rw [hpolls]
    by_cases heq : j = i
    · subst heq
      change ((job.verified j pc reply t).slots j).ver = some pc' at hj
      rw [hself] at hj
      rw [← Option.some.inj hj, if_pos rfl]
      exact hnearer.polled _ (hg.polled j pc hver)
    · rw [ht.others j heq] at hj
      rw [if_neg heq]
      exact hg.polled j pc' hj
  · exact hg.begun source rest hrunner j ((ht.source j).symm.trans hj) ((hdel j).symm.trans hnone)
  · rw [ht.source]
    by_cases heq : j = i
    · change ((job.verified i pc reply t).slots j).ver ≠ none ∨ _
      rw [heq, hself]
      exact .inl (by simp)
    · rw [ht.others j heq] at hverifying ⊢
      exact hg.watched j ((hdel j).symm.trans hj) hverifying
  · by_cases heq : j = i
    · subst heq
      change ((job.verified j pc reply t).slots j).ver = _ at hj
      change ((job.verified j pc reply t).slots j).item.state.final = true
      rw [hself] at hj ⊢
      have hpc := Option.some.inj hj
      cases hcase with
      | going _ _ hover =>
        rw [hpc] at hover
        cases hover
      | refused _ _ _ _ _ hstate =>
        change t.item.state.final = true
        rw [hstate]
        rfl
      | settled _ hfinal => exact hfinal
      | lost _ _ _ _ _ hraised =>
        rw [hpc] at hraised
        cases hraised
    · rw [ht.others j heq] at hj ⊢
      exact hg.reported j hj
  · by_cases heq : j = i
    · have hover := hg.closed hreturned i pc hver
      rw [hcase.live] at hover
      cases hover
    · rw [ht.others j heq] at hj
      exact hg.closed hreturned j pc' hj

/-- How the loop over the sources comes to its next await. -/
inductive Landed (job : Job n) (clock : Clock) (sources : List Source) : Job n → Prop where
  | waiting {source : Source} {rest : List Source} : rest.length < sources.length →
      Landed job clock sources { job.spawnDeletes source with runner := .waiting source rest }
  | verifying : Landed job clock sources { job with runner := .verifying }
  | returned : (∀ i, (job.slots i).ver = none) → Landed job clock sources (job.finish .returned clock)

theorem launch_landed (job : Job n) (clock : Clock) (sources : List Source) :
    Landed job clock sources (job.launch clock sources) := by
  induction sources with
  | nil =>
    unfold Job.launch
    split
    · exact .verifying
    · rename_i hnone
      refine .returned fun i => ?_
      by_contra hver
      exact hnone ⟨i, Option.isSome_iff_ne_none.mpr hver⟩
  | cons source rest ih =>
    unfold Job.launch
    split
    · exact .waiting (Nat.lt_succ_self _)
    · generalize job.launch clock rest = job' at ih
      cases ih with
      | waiting hlt => exact .waiting (Nat.lt_succ_of_lt hlt)
      | verifying => exact .verifying
      | returned hnone => exact .returned hnone

/-- How the runner comes to its next await. -/
inductive Ran (job : Job n) (clock : Clock) : Job n → Prop where
  | unchanged : Ran job clock job
  | began {job' : Job n} : job.runner = .created →
      Landed { job with state := .running } clock Source.all job' → Ran job clock job'
  | advanced {source : Source} {rest : List Source} {job' : Job n} : job.runner = .waiting source rest →
      (∀ i, job.of source i → (job.slots i).del = some .returned) →
      Landed (job.spawnVerifies source) clock rest job' → Ran job clock job'
  | failed {i : Fin n} {source : Source} {rest : List Source} : job.runner = .waiting source rest →
      (job.slots i).del = some .raised → Ran job clock (job.finish .raised clock)
  | ended : job.runner = .verifying → (∀ i pc, (job.slots i).ver = some pc → pc.over = true) →
      Ran job clock (job.finish .returned clock)

theorem ranUp_ran (job : Job n) (clock : Clock) : Ran job clock (job.ranUp clock) := by
  unfold Job.ranUp
  split
  · exact .began ‹_› (launch_landed _ clock _)
  · split
    · rename_i hraised
      obtain ⟨i, _, hdel⟩ := hraised
      exact .failed ‹_› hdel
    split
    · exact .advanced ‹_› ‹_› (launch_landed _ clock _)
    · exact .unchanged
  · split
    · rename_i hall
      refine .ended ‹_› fun i pc hpc => ?_
      have := hall i
      rw [hpc] at this
      exact this
    · exact .unchanged
  · exact .unchanged
  · exact .unchanged

theorem Landed.ver {clock : Clock} {sources : List Source} (h : Landed job clock sources job') (i : Fin n) :
    (job'.slots i).ver = (job.slots i).ver := by
  cases h with
  | waiting =>
    unfold Job.spawnDeletes
    dsimp only
    split <;> rfl
  | verifying => rfl
  | returned => rfl

theorem Landed.begun {clock : Clock} {sources : List Source} (h : Landed job clock sources job') {source : Source}
    {rest : List Source} (hrunner : job'.runner = .waiting source rest) {i : Fin n} (hi : job'.of source i) :
    (job'.slots i).del ≠ none := by
  cases h with
  | @waiting source' rest' =>
    obtain ⟨rfl, _⟩ := Runner.waiting.inj hrunner
    change ((job.spawnDeletes source').slots i).item.source = source' at hi
    change ((job.spawnDeletes source').slots i).del ≠ none
    unfold Job.spawnDeletes at hi ⊢
    dsimp only at hi ⊢
    split
    · simp
    · rename_i hnot
      rw [if_neg hnot] at hi
      exact absurd hi hnot
  | verifying => cases hrunner
  | returned => cases hrunner

theorem Landed.finished {clock : Clock} {sources : List Source} (h : Landed job clock sources job')
    (hstate : job.state ≠ .done) : job'.state = .done ↔ job'.runner = .returned ∨ job'.runner = .raised := by
  cases h with
  | waiting => exact ⟨fun hdone => absurd hdone hstate, fun hover => by rcases hover with hover | hover <;> cases hover⟩
  | verifying => exact ⟨fun hdone => absurd hdone hstate, fun hover => by rcases hover with hover | hover <;> cases hover⟩
  | returned => exact ⟨fun _ => .inl rfl, fun _ => rfl⟩

theorem Landed.closed {clock : Clock} {sources : List Source} (h : Landed job clock sources job')
    (hreturned : job'.runner = .returned) (i : Fin n) : (job'.slots i).ver = none := by
  cases h with
  | waiting => cases hreturned
  | verifying => cases hreturned
  | returned hnone => exact hnone i

theorem Spawned.ver_cases {slot slot' : Slot} (h : Spawned slot slot') :
    slot'.ver = slot.ver ∨ slot.ver = none ∧ slot'.ver = some .created := by
  cases h with
  | kept => exact .inl rfl
  | delete => exact .inl rfl
  | verify _ hnone => exact .inr ⟨hnone, rfl⟩

theorem Spawned.returned {slot slot' : Slot} (h : Spawned slot slot') (hdel : slot'.del = some .returned) :
    slot.del = some .returned := by
  cases h with
  | kept => exact hdel
  | delete => cases hdel
  | verify hreturned => exact hreturned

theorem Spawned.ver_kept {slot slot' : Slot} (h : Spawned slot slot') (hver : slot.ver ≠ none) : slot'.ver ≠ none := by
  rcases h.ver_cases with hsame | ⟨hnone, _⟩
  · rw [hsame]
    exact hver
  · exact absurd hnone hver

theorem Ran.watched {clock : Clock} (hran : Ran job clock job') (hat : RunnerAt job cut) {i : Fin n}
    (hslot : Spawned (job.slots i) (job'.slots i)) (hdel : (job.slots i).del = some .returned)
    (hverifying : (job.slots i).item.state = .verifying)
    (hwatched : (job.slots i).ver ≠ none ∨ (∃ rest, job.runner = .waiting (job.source i) rest) ∨ job.runner = .raised) :
    (job'.slots i).ver ≠ none ∨ (∃ rest, job'.runner = .waiting (job'.source i) rest) ∨ job'.runner = .raised := by
  cases hran with
  | unchanged => exact hwatched
  | began hrunner =>
    have hcreated := hat.ne_created (i := i) (by simp [hdel])
    exact absurd hrunner hcreated
  | @advanced source rest _ hrunner _ hlanded =>
    by_cases hi : job.of source i
    · refine .inl ?_
      rw [hlanded.ver i]
      unfold Job.spawnVerifies
      dsimp only
      rw [if_pos ⟨hi, hverifying⟩]
      simp
    · rcases hwatched with hne | ⟨rest', hwaiting⟩ | hraised
      · exact .inl (hslot.ver_kept hne)
      · rw [hrunner] at hwaiting
        exact absurd (Runner.waiting.inj hwaiting).1.symm hi
      · rw [hrunner] at hraised
        cases hraised
  | failed => exact .inr (.inr rfl)
  | ended hrunner =>
    rcases hwatched with hne | ⟨rest', hwaiting⟩ | hraised
    · exact .inl (hslot.ver_kept hne)
    · rw [hrunner] at hwaiting
      cases hwaiting
    · rw [hrunner] at hraised
      cases hraised

theorem ongoing_ran (h : Ordered job cut) (hg : Ongoing job) {clock : Clock} (hnow : job.now ≤ clock.loop) :
    Ongoing { job.ranUp clock with now := clock.loop } := by
  obtain ⟨_, _, _, hl⟩ := ranUp_launched clock h.phased h.runner h.bound
  have hran := ranUp_ran job clock
  generalize job.ranUp clock = job' at hl hran ⊢
  have hitem : ∀ i, (job'.slots i).item = (job.slots i).item := fun i => (hl.slots i).item
  have hsource : ∀ i, job'.source i = job.source i := fun i => congrArg Item.source (hitem i)
  have hpolls : ∀ i, job'.polls i = job.polls i := by
    intro i
    unfold Job.polls
    rw [hl.log]
  refine ⟨fun i pc hpc => ?_, fun i hnone => ?_, fun i pc hpc => ?_, fun source rest hrunner i hi => ?_, ?_,
    fun i hdel hverifying => ?_, fun i hreturned => ?_, fun hreturned i pc hpc => ?_⟩
  · change (job'.slots i).ver = some pc at hpc
    change pc.Paced (job'.source i) clock.loop
    rw [hsource]
    rcases (hl.slots i).ver_cases with hsame | ⟨_, hcreated⟩
    · rw [hsame] at hpc
      exact (hg.paced i pc hpc).later hnow
    · rw [hcreated] at hpc
      rw [← Option.some.inj hpc]
      trivial
  · refine (hpolls i).trans (hg.unpolled i ?_)
    rcases (hl.slots i).ver_cases with hsame | ⟨hbefore, _⟩
    · exact hsame.symm.trans hnone
    · exact hbefore
  · change (job'.slots i).ver = some pc at hpc
    change pc.Polled (job'.source i) (job'.polls i)
    rw [hsource, hpolls]
    rcases (hl.slots i).ver_cases with hsame | ⟨hbefore, hcreated⟩
    · rw [hsame] at hpc
      exact hg.polled i pc hpc
    · rw [hcreated] at hpc
      rw [← Option.some.inj hpc]
      exact hg.unpolled i hbefore
  · change job'.runner = .waiting source rest at hrunner
    cases hran with
    | unchanged => exact hg.begun source rest hrunner i hi
    | began _ hlanded => exact hlanded.begun hrunner hi
    | advanced _ _ hlanded => exact hlanded.begun hrunner hi
    | failed => cases hrunner
    | ended => cases hrunner
  · change job'.state = .done ↔ job'.runner = .returned ∨ job'.runner = .raised
    cases hran with
    | unchanged => exact hg.finished
    | began _ hlanded => exact hlanded.finished (by simp)
    | advanced hrunner _ hlanded =>
      refine hlanded.finished fun hdone => ?_
      rcases hg.finished.mp hdone with hover | hover <;> (rw [hrunner] at hover; cases hover)
    | failed => exact ⟨fun _ => .inr rfl, fun _ => rfl⟩
    | ended => exact ⟨fun _ => .inl rfl, fun _ => rfl⟩
  · change (job'.slots i).del = _ at hdel
    change (job'.slots i).item.state = _ at hverifying
    rw [hitem] at hverifying
    have hbefore := (hl.slots i).returned hdel
    exact hran.watched h.runner (hl.slots i) hbefore hverifying (hg.watched i hbefore hverifying)
  · change (job'.slots i).ver = _ at hreturned
    change (job'.slots i).item.state.final = true
    rw [hitem]
    rcases (hl.slots i).ver_cases with hsame | ⟨_, hcreated⟩
    · exact hg.reported i (hsame.symm.trans hreturned)
    · rw [hcreated] at hreturned
      cases hreturned
  · change job'.runner = .returned at hreturned
    change (job'.slots i).ver = some pc at hpc
    cases hran with
    | unchanged => exact hg.closed hreturned i pc hpc
    | began _ hlanded =>
      rw [hlanded.closed hreturned i] at hpc
      cases hpc
    | advanced _ _ hlanded =>
      rw [hlanded.closed hreturned i] at hpc
      cases hpc
    | failed => cases hreturned
    | ended _ hall => exact hall i pc hpc

theorem start_ongoing (items : List Item) : Ongoing (start items) where
  paced := fun _ _ hver => by cases hver
  unpolled := fun _ _ => rfl
  polled := fun _ _ hver => by cases hver
  begun := fun _ _ hrunner => by cases hrunner
  finished := by
    constructor
    · intro hdone
      cases hdone
    · intro hover
      rcases hover with hover | hover <;> cases hover
  watched := fun _ hdel => by cases hdel
  reported := fun _ hver => by cases hver
  closed := fun hrunner => by cases hrunner

theorem exec_cases (repr : String → String) (job : Job n) (s : Step n) :
    exec repr job s = job ∨ job.now ≤ s.clock.loop := by
  by_cases hearly : s.clock.loop < job.now
  · exact .inl (if_pos hearly)
  · exact .inr (le_of_not_gt hearly)

theorem exec_ongoing (repr : String → String) (s : Step n) (h : Ordered job cut) (hg : Ongoing job) :
    Ongoing (exec repr job s) := by
  rcases exec_cases repr job s with hsame | hnow
  · rw [hsame]
    exact hg
  have heffect := exec_effect repr job s
  generalize exec repr job s = job' at heffect
  cases heffect with
  | unchanged => exact hg
  | deleted hdel hturn => exact ongoing_deleted h hg hnow hdel hturn
  | verified hver hturn => exact ongoing_verified hg hnow hver hturn
  | ran => exact ongoing_ran h hg hnow

open scoped BigOperators

def Runner.rank : Runner → Nat
  | created => 6
  | waiting _ rest => rest.length + 2
  | verifying => 1
  | returned | raised => 0

def Slot.rank (slot : Slot) : Nat :=
  slot.del.elim 5 DeletePc.rank +
    slot.ver.elim (2 * maxAttempts slot.item.source + 2) (VerifyPc.rank slot.item.source)

def Job.rank (job : Job n) : Nat := job.runner.rank + ∑ i, (job.slots i).rank

/-- Nothing but the clock has moved. -/
def Idle (repr : String → String) (job : Job n) (s : Step n) : Prop :=
  exec repr job s = { job with now := (exec repr job s).now }

instance (repr : String → String) (job : Job n) (s : Step n) : Decidable (Idle repr job s) :=
  inferInstanceAs (Decidable (_ = _))

theorem rank_lt {i : Fin n} (hrunner : job'.runner = job.runner) (hothers : ∀ j, j ≠ i → job'.slots j = job.slots j)
    (hi : (job'.slots i).rank < (job.slots i).rank) : job'.rank < job.rank := by
  unfold Job.rank
  rw [hrunner]
  apply Nat.add_lt_add_left
  apply Finset.sum_lt_sum
  · intro j _
    by_cases hj : j = i
    · rw [hj]
      exact Nat.le_of_lt hi
    · rw [hothers j hj]
  · exact ⟨i, Finset.mem_univ i, hi⟩

theorem Spawned.rank_le {slot slot' : Slot} (h : Spawned slot slot') : slot'.rank ≤ slot.rank := by
  unfold Slot.rank
  cases h with
  | kept => exact Nat.le_refl _
  | delete hnone =>
    rw [hnone]
    apply Nat.add_le_add_right
    simp [DeletePc.rank]
  | verify _ hnone =>
    rw [hnone]
    apply Nat.add_le_add_left
    simp [VerifyPc.rank]

theorem Landed.rank_lt {clock : Clock} {sources : List Source} (h : Landed job clock sources job') :
    job'.runner.rank < sources.length + 2 := by
  cases h with
  | waiting hlt =>
    change _ + 2 < _ + 2
    omega
  | verifying =>
    change 1 < _
    omega
  | returned =>
    change 0 < _
    omega

theorem ran_rank {clock : Clock} (h : Ran job clock job') (hslots : ∀ i, Spawned (job.slots i) (job'.slots i)) :
    job' = job ∨ job'.rank < job.rank := by
  have hsum : ∑ i, (job'.slots i).rank ≤ ∑ i, (job.slots i).rank := Finset.sum_le_sum fun i _ => (hslots i).rank_le
  have hlower : job'.runner.rank < job.runner.rank → job'.rank < job.rank := by
    intro hlt
    unfold Job.rank
    omega
  cases h with
  | unchanged => exact .inl rfl
  | began hrunner hlanded =>
    refine .inr (hlower ?_)
    rw [hrunner]
    exact hlanded.rank_lt
  | advanced hrunner _ hlanded =>
    refine .inr (hlower ?_)
    rw [hrunner]
    exact hlanded.rank_lt
  | failed hrunner =>
    refine .inr (hlower ?_)
    rw [hrunner]
    exact Nat.succ_pos _
  | ended hrunner =>
    refine .inr (hlower ?_)
    rw [hrunner]
    exact Nat.succ_pos _

theorem exec_rank (repr : String → String) (s : Step n) (h : Ordered job cut) (hg : Ongoing job) :
    Idle repr job s ∨ (exec repr job s).rank < job.rank := by
  unfold Idle
  rcases exec_cases repr job s with hsame | hnow
  · rw [hsame]
    exact .inl rfl
  have heffect := exec_effect repr job s
  generalize exec repr job s = job' at heffect
  cases heffect with
  | unchanged => exact .inl rfl
  | @deleted i pc reply t hdel hturn =>
    right
    obtain ⟨hkey, hcase, _⟩ := deleteTurn_cases (h.fits i pc hdel) hturn
    refine @rank_lt n job _ i rfl (fun j hj => Function.update_of_ne hj _ _) ?_
    change ((job.deleted i pc reply t).slots i).rank < _
    rw [show (job.deleted i pc reply t).slots i = { job.slots i with item := t.item, del := some t.pc } from
      Function.update_self _ _ _]
    unfold Slot.rank
    dsimp only
    rw [hdel, h.phased.ver_eq_none hdel hcase.live.1, Item.source_of_key hkey]
    exact Nat.add_lt_add_right (deleteTurn_nearer hturn) _
  | @verified i pc reply t hver hturn =>
    right
    obtain ⟨hkey, _⟩ := verifyTurn_cases hturn
    refine @rank_lt n job _ i rfl (fun j hj => Function.update_of_ne hj _ _) ?_
    change ((job.verified i pc reply t).slots i).rank < _
    rw [show (job.verified i pc reply t).slots i = { job.slots i with item := t.item, ver := some t.pc } from
      Function.update_self _ _ _]
    unfold Slot.rank
    dsimp only
    rw [hver, Item.source_of_key hkey]
    exact Nat.add_lt_add_left (verifyTurn_nearer (hg.paced i pc hver) hnow hturn).rank _
  | ran =>
    obtain ⟨_, _, _, hl⟩ := ranUp_launched s.clock h.phased h.runner h.bound
    rcases ran_rank (ranUp_ran job s.clock) hl.slots with hsame | hlt
    · rw [hsame]
      exact .inl rfl
    · exact .inr hlt

/-- The calls are answered and the rows are taken; the exception of a call to Proxmox is an answer. -/
def Step.Answered (source : Fin n → Source) (s : Step n) : Prop :=
  s.dbUp = true ∧ ∀ i e, s.event = .delete i (.raised e) ∨ s.event = .verify i (.raised e) → source i = .pve

theorem deleteTurn_live (item : Item) (clock : Clock) {pc : DeletePc} (hpc : pc ≠ .returned ∧ pc ≠ .raised) :
    ∃ reply t, deleteTurn item pc reply clock true = some t ∧ ∀ e, reply ≠ .raised e := by
  cases pc with
  | created => exact ⟨.started, _, rfl, by simp⟩
  | stopping => exact ⟨.done, _, rfl, by simp⟩
  | pausing => exact ⟨.slept, _, rfl, by simp⟩
  | destroying => exact ⟨.done, _, rfl, by simp⟩
  | asked => exact ⟨.status 204 "", _, rfl, by simp⟩
  | returned => exact absurd rfl hpc.1
  | raised => exact absurd rfl hpc.2

theorem verifyTurn_live (repr : String → String) (item : Item) (now : Rat) {pc : VerifyPc} (hpc : pc.over = false) :
    ∃ reply clock t, now ≤ clock.loop ∧ verifyTurn repr item pc reply clock true = some t ∧ ∀ e, reply ≠ .raised e := by
  cases pc with
  | created => exact ⟨.started, ⟨now, ""⟩, _, le_refl now, rfl, by simp⟩
  | sleeping p =>
    have hwake : verifyTurn repr item (.sleeping p) .slept ⟨max now p.wakeAt, ""⟩ true =
        some (attempt item p ⟨max now p.wakeAt, ""⟩) := if_pos (le_max_right now p.wakeAt)
    exact ⟨.slept, _, _, le_max_left now p.wakeAt, hwake, by simp⟩
  | asking p =>
    cases hsource : item.source with
    | pve =>
      have hturn : verifyTurn repr item (.asking p) (.listing []) ⟨now, ""⟩ true ≠ none := by
        unfold verifyTurn
        rw [hsource]
        simp
      obtain ⟨t, ht⟩ := Option.ne_none_iff_exists'.mp hturn
      exact ⟨.listing [], _, t, le_refl now, ht, by simp⟩
    | _ =>
      have hturn : verifyTurn repr item (.asking p) (.status 404 "") ⟨now, ""⟩ true ≠ none := by
        unfold verifyTurn
        rw [hsource]
        simp
      obtain ⟨t, ht⟩ := Option.ne_none_iff_exists'.mp hturn
      exact ⟨.status 404 "", _, t, le_refl now, ht, by simp⟩
  | returned => cases hpc
  | raised => cases hpc

theorem delete_not_idle {i : Fin n} {pc : DeletePc} {reply : Reply} {clock : Clock} {dbUp : Bool} {t : Turn DeletePc}
    (hnow : job.now ≤ clock.loop) (hdel : (job.slots i).del = some pc)
    (hturn : deleteTurn (job.slots i).item pc reply clock dbUp = some t) :
    ¬ Idle repr job ⟨.delete i reply, clock, dbUp⟩ := by
  have hexec : exec repr job ⟨.delete i reply, clock, dbUp⟩ = { job.deleted i pc reply t with now := clock.loop } := by
    unfold exec
    rw [if_neg (not_lt_of_ge hnow)]
    dsimp only
    rw [hdel, Option.bind_some, hturn]
    rfl
  intro hidle
  unfold Idle at hidle
  rw [hexec] at hidle
  have hslot := congrArg (fun job' : Job n => (job'.slots i).del) hidle
  change ((job.deleted i pc reply t).slots i).del = (job.slots i).del at hslot
  rw [show (job.deleted i pc reply t).slots i = { job.slots i with item := t.item, del := some t.pc } from
    Function.update_self _ _ _, hdel] at hslot
  have hlt := deleteTurn_nearer hturn
  rw [Option.some.inj hslot] at hlt
  exact lt_irrefl _ hlt

theorem verify_not_idle (hg : Ongoing job) {i : Fin n} {pc : VerifyPc} {reply : Reply} {clock : Clock} {dbUp : Bool}
    {t : Turn VerifyPc} (hnow : job.now ≤ clock.loop) (hver : (job.slots i).ver = some pc)
    (hturn : verifyTurn repr (job.slots i).item pc reply clock dbUp = some t) :
    ¬ Idle repr job ⟨.verify i reply, clock, dbUp⟩ := by
  have hexec : exec repr job ⟨.verify i reply, clock, dbUp⟩ = { job.verified i pc reply t with now := clock.loop } := by
    unfold exec
    rw [if_neg (not_lt_of_ge hnow)]
    dsimp only
    rw [hver, Option.bind_some, hturn]
    rfl
  intro hidle
  unfold Idle at hidle
  rw [hexec] at hidle
  have hslot := congrArg (fun job' : Job n => (job'.slots i).ver) hidle
  change ((job.verified i pc reply t).slots i).ver = (job.slots i).ver at hslot
  rw [show (job.verified i pc reply t).slots i = { job.slots i with item := t.item, ver := some t.pc } from
    Function.update_self _ _ _, hver] at hslot
  have hlt := (verifyTurn_nearer (hg.paced i pc hver) hnow hturn).rank
  rw [Option.some.inj hslot] at hlt
  exact lt_irrefl _ hlt

theorem runner_not_idle {clock : Clock} (hnow : job.now ≤ clock.loop)
    (hne : (job.ranUp clock).runner ≠ job.runner) : ¬ Idle repr job ⟨.runner, clock, true⟩ := by
  have hexec : exec repr job ⟨.runner, clock, true⟩ = { job.ranUp clock with now := clock.loop } := by
    unfold exec
    rw [if_neg (not_lt_of_ge hnow)]
  intro hidle
  unfold Idle at hidle
  rw [hexec] at hidle
  have hrunner := congrArg (fun job' : Job n => job'.runner) hidle
  exact hne hrunner

theorem exists_step (repr : String → String) (source : Fin n → Source) (hg : Ongoing job)
    (hdone : job.state ≠ .done) : ∃ s, Step.Answered source s ∧ ¬ Idle repr job s := by
  have hdelete : ∀ i pc, (job.slots i).del = some pc → pc ≠ .returned → pc ≠ .raised →
      ∃ s, Step.Answered source s ∧ ¬ Idle repr job s := by
    intro i pc hdel hreturned hraised
    obtain ⟨reply, t, hturn, hreply⟩ := deleteTurn_live (job.slots i).item ⟨job.now, ""⟩ ⟨hreturned, hraised⟩
    refine ⟨⟨.delete i reply, ⟨job.now, ""⟩, true⟩, ⟨rfl, fun j e hevent => ?_⟩,
      delete_not_idle (le_refl _) hdel hturn⟩
    rcases hevent with hevent | hevent
    · exact absurd (Event.delete.inj hevent).2 (hreply e)
    · cases hevent
  have hrunner : (job.ranUp ⟨job.now, ""⟩).runner ≠ job.runner → ∃ s, Step.Answered source s ∧ ¬ Idle repr job s := by
    intro hne
    refine ⟨⟨.runner, ⟨job.now, ""⟩, true⟩, ⟨rfl, fun j e hevent => ?_⟩, runner_not_idle (le_refl _) hne⟩
    rcases hevent with hevent | hevent <;> cases hevent
  have hlanded : ∀ {job₀ : Job n} {sources : List Source}, job.ranUp ⟨job.now, ""⟩ = job₀.launch ⟨job.now, ""⟩ sources →
      job.runner.rank = sources.length + 2 → (job.ranUp ⟨job.now, ""⟩).runner ≠ job.runner := by
    intro job₀ sources hran hrank heq
    have hlt := (launch_landed job₀ ⟨job.now, ""⟩ sources).rank_lt
    rw [← hran, heq, hrank] at hlt
    exact lt_irrefl _ hlt
  have hunfold : job.ranUp ⟨job.now, ""⟩ = job.ranUp ⟨job.now, ""⟩ := rfl
  conv_rhs at hunfold => unfold Job.ranUp
  cases hrun : job.runner with
  | created =>
    rw [hrun] at hunfold
    refine hrunner (hlanded hunfold ?_)
    rw [hrun]
    rfl
  | waiting s rest =>
    rw [hrun] at hunfold
    dsimp only at hunfold
    by_cases hraised : ∃ i, job.of s i ∧ (job.slots i).del = some .raised
    · rw [if_pos hraised] at hunfold
      refine hrunner ?_
      rw [hunfold, hrun]
      simp [Job.finish]
    rw [if_neg hraised] at hunfold
    by_cases hreturned : ∀ i, job.of s i → (job.slots i).del = some .returned
    · rw [if_pos hreturned] at hunfold
      refine hrunner (hlanded hunfold ?_)
      rw [hrun]
      rfl
    · -- a delete of this source is still at work
      push Not at hreturned
      obtain ⟨i, hi, hnot⟩ := hreturned
      obtain ⟨pc, hpc⟩ := Option.ne_none_iff_exists'.mp (hg.begun s rest hrun i hi)
      refine hdelete i pc hpc (fun heq => hnot ?_) fun heq => hraised ⟨i, hi, ?_⟩
      · rw [hpc, heq]
      · rw [hpc, heq]
  | verifying =>
    rw [hrun] at hunfold
    dsimp only at hunfold
    by_cases hall : ∀ i, (job.slots i).ver.all VerifyPc.over
    · rw [if_pos hall] at hunfold
      refine hrunner ?_
      rw [hunfold, hrun]
      simp [Job.finish]
    · push Not at hall
      obtain ⟨i, hi⟩ := hall
      cases hver : (job.slots i).ver with
      | none =>
        rw [hver] at hi
        exact absurd rfl hi
      | some pc =>
        rw [hver] at hi
        have hover : pc.over = false := by simpa using hi
        obtain ⟨reply, clock, t, hnow, hturn, hreply⟩ := verifyTurn_live repr (job.slots i).item job.now hover
        refine ⟨⟨.verify i reply, clock, true⟩, ⟨rfl, fun j e hevent => ?_⟩, verify_not_idle hg hnow hver hturn⟩
        rcases hevent with hevent | hevent
        · cases hevent
        · exact absurd (Event.verify.inj hevent).2 (hreply e)
  | returned => exact absurd (hg.finished.mpr (.inl hrun)) hdone
  | raised => exact absurd (hg.finished.mpr (.inr hrun)) hdone

/-- No task and no runner has come to an exception. -/
structure Unfailed (job : Job n) : Prop where
  deletes : ∀ i, (job.slots i).del ≠ some .raised
  verifies : ∀ i, (job.slots i).ver ≠ some .raised
  runner : job.runner ≠ .raised

theorem deleteTurn_raised {item : Item} {pc : DeletePc} {reply : Reply} {clock : Clock} {t : Turn DeletePc}
    (h : deleteTurn item pc reply clock true = some t) (hraised : t.pc = .raised) :
    pc = .asked ∧ ∃ e, reply = .raised e := by
  unfold deleteTurn at h
  split at h
  · cases h
    unfold startDelete at hraised
    dsimp only at hraised
    split at hraised <;> cases hraised
  · cases h
    cases hraised
  · cases h
    cases hraised
  · cases h
    cases hraised
  · cases h
    cases hraised
  · cases h
    cases hraised
  · cases h
    unfold deleteAnswered at hraised
    dsimp only at hraised
    repeat' split at hraised
    all_goals cases hraised
  · rename_i e
    exact ⟨rfl, e, rfl⟩
  · cases h

theorem verifyTurn_raised {item : Item} {pc : VerifyPc} {reply : Reply} {clock : Clock} {t : Turn VerifyPc}
    (h : verifyTurn repr item pc reply clock true = some t) (hraised : t.pc = .raised) :
    item.source ≠ .pve ∧ ∃ e, reply = .raised e := by
  unfold verifyTurn at h
  split at h
  · cases h
    unfold startVerify at hraised
    split at hraised <;> cases hraised
  · split at h
    · cases h
      unfold attempt at hraised
      dsimp only at hraised
      split at hraised <;> cases hraised
    · cases h
  · split at h
    · cases h
      unfold listAnswered at hraised
      dsimp only at hraised
      repeat' split at hraised
      all_goals cases hraised
    · cases h
      unfold listAnswered at hraised
      dsimp only at hraised
      repeat' split at hraised
      all_goals cases hraised
    · cases h
    · cases h
      unfold getAnswered at hraised
      dsimp only at hraised
      repeat' split at hraised
      all_goals cases hraised
    · rename_i e hsource
      exact ⟨hsource, e, rfl⟩
    · cases h
  · cases h

theorem exec_unfailed (repr : String → String) (h : Ordered job cut) (hu : Unfailed job)
    (hs : s.Answered job.source) : Unfailed (exec repr job s) := by
  obtain ⟨hdb, hanswered⟩ := hs
  have heffect := exec_effect repr job s
  generalize exec repr job s = job' at heffect
  cases heffect with
  | unchanged => exact hu
  | @deleted i pc reply t hdel hturn hevent =>
    have hself : (job.deleted i pc reply t).slots i = { job.slots i with item := t.item, del := some t.pc } :=
      Function.update_self _ _ _
    have hother : ∀ {j}, j ≠ i → (job.deleted i pc reply t).slots j = job.slots j :=
      fun hj => Function.update_of_ne hj _ _
    rw [hdb] at hturn
    refine ⟨fun j hj => ?_, fun j hj => ?_, hu.runner⟩
    · change ((job.deleted i pc reply t).slots j).del = _ at hj
      by_cases heq : j = i
      · subst heq
        rw [hself] at hj
        obtain ⟨rfl, e, rfl⟩ := deleteTurn_raised hturn (Option.some.inj hj)
        exact h.fits j .asked hdel (hanswered j e (.inl hevent))
      · rw [hother heq] at hj
        exact hu.deletes j hj
    · change ((job.deleted i pc reply t).slots j).ver = _ at hj
      by_cases heq : j = i
      · rw [heq, hself] at hj
        exact hu.verifies i hj
      · rw [hother heq] at hj
        exact hu.verifies j hj
  | @verified i pc reply t hver hturn hevent =>
    have hself : (job.verified i pc reply t).slots i = { job.slots i with item := t.item, ver := some t.pc } :=
      Function.update_self _ _ _
    have hother : ∀ {j}, j ≠ i → (job.verified i pc reply t).slots j = job.slots j :=
      fun hj => Function.update_of_ne hj _ _
    rw [hdb] at hturn
    refine ⟨fun j hj => ?_, fun j hj => ?_, hu.runner⟩
    · change ((job.verified i pc reply t).slots j).del = _ at hj
      by_cases heq : j = i
      · rw [heq, hself] at hj
        exact hu.deletes i hj
      · rw [hother heq] at hj
        exact hu.deletes j hj
    · change ((job.verified i pc reply t).slots j).ver = _ at hj
      by_cases heq : j = i
      · subst heq
        rw [hself] at hj
        obtain ⟨hsource, e, rfl⟩ := verifyTurn_raised hturn (Option.some.inj hj)
        exact hsource (hanswered j e (.inr hevent))
      · rw [hother heq] at hj
        exact hu.verifies j hj
  | ran =>
    obtain ⟨_, _, _, hl⟩ := ranUp_launched s.clock h.phased h.runner h.bound
    have hran := ranUp_ran job s.clock
    generalize job.ranUp s.clock = job' at hl hran
    refine ⟨fun i hdel => ?_, fun i hver => ?_, fun hrunner => ?_⟩
    · change (job'.slots i).del = _ at hdel
      have hspawned := hl.slots i
      generalize job'.slots i = slot at hspawned hdel
      cases hspawned with
      | kept => exact hu.deletes i hdel
      | delete => cases hdel
      | verify => exact hu.deletes i hdel
    · change (job'.slots i).ver = _ at hver
      rcases (hl.slots i).ver_cases with hsame | ⟨_, hcreated⟩
      · exact hu.verifies i (hsame.symm.trans hver)
      · rw [hcreated] at hver
        cases hver
    · change job'.runner = _ at hrunner
      have hlanded : ∀ {job₀ : Job n} {sources : List Source}, ¬ Landed job₀ s.clock sources job' := by
        intro job₀ sources hlanded
        cases hlanded <;> cases hrunner
      cases hran with
      | unchanged => exact hu.runner hrunner
      | began _ h => exact hlanded h
      | advanced _ _ h => exact hlanded h
      | failed _ hdel => exact hu.deletes _ hdel
      | ended => cases hrunner

/-- Every item of a job that came to its end without an exception has come to its own. -/
theorem final_of_done (h : Ordered job cut) (hg : Ongoing job) (he : Evident job) (hu : Unfailed job)
    (hdone : job.state = .done) (i : Fin n) :
    (job.slots i).item.state.final = true ∧ ∃ d, job.rowsOf i = [d] ∧ d.Tells (job.slots i).item.state := by
  have hreturned : job.runner = .returned := (hg.finished.mp hdone).resolve_right hu.runner
  have hcut : cut = 4 := by
    have hat := h.runner
    unfold RunnerAt at hat
    rw [hreturned] at hat
    exact hat
  have hdel := h.phased.passed i (by rw [hcut]; exact (job.source i).order_lt)
  have hfinal : (job.slots i).item.state.final = true := by
    refine ((he.settled i).passed hdel).resolve_left fun hverifying => ?_
    rcases hg.watched i hdel hverifying with hver | ⟨rest, hwaiting⟩ | hraised
    · obtain ⟨pc, hpc⟩ := Option.ne_none_iff_exists'.mp hver
      have hover := hg.closed hreturned i pc hpc
      cases pc with
      | returned =>
        have := hg.reported i hpc
        rw [hverifying] at this
        cases this
      | raised => exact hu.verifies i hpc
      | _ => cases hover
    · rw [hreturned] at hwaiting
      cases hwaiting
    · exact hu.runner hraised
  refine ⟨hfinal, ((he.settled i).written hfinal).resolve_left fun hlost => ?_⟩
  rcases hlost.2 with hraised | hraised
  · exact hu.deletes i hraised
  · exact hu.verifies i hraised

theorem polls_le (hg : Ongoing job) (i : Fin n) : job.polls i ≤ maxAttempts (job.source i) := by
  cases hver : (job.slots i).ver with
  | none =>
    rw [hg.unpolled i hver]
    exact Nat.zero_le _
  | some pc =>
    have hpaced := hg.paced i pc hver
    have hpolled := hg.polled i pc hver
    cases pc with
    | created => exact le_of_eq_of_le hpolled (Nat.zero_le _)
    | sleeping p => exact le_of_eq_of_le hpolled (Nat.le_of_lt hpaced.1)
    | asking p => exact le_of_eq_of_le hpolled hpaced.2.1
    | returned => exact hpolled
    | raised => exact hpolled

def busy (repr : String → String) : Job n → List (Step n) → Nat
  | _, [] => 0
  | job, s :: steps => (if Idle repr job s then 0 else 1) + busy repr (exec repr job s) steps

theorem busy_le (repr : String → String) (steps : List (Step n)) :
    ∀ {job : Job n}, (∃ cut, Ordered job cut) → Ongoing job →
      busy repr job steps + (steps.foldl (exec repr) job).rank ≤ job.rank := by
  induction steps with
  | nil =>
    intro job _ _
    exact Nat.le_of_eq (Nat.zero_add _)
  | cons s steps ih =>
    intro job h hg
    obtain ⟨cut, ho⟩ := h
    have hrest := ih (exec_ordered repr s ⟨cut, ho⟩) (exec_ongoing repr s ho hg)
    have hstep : (if Idle repr job s then 0 else 1) + (exec repr job s).rank ≤ job.rank := by
      by_cases hidle : Idle repr job s
      · have hrank : (exec repr job s).rank = job.rank := by
          unfold Idle at hidle
          rw [hidle]
          rfl
        rw [if_pos hidle, hrank]
        omega
      · have := (exec_rank repr s ho hg).resolve_left hidle
        rw [if_neg hidle]
        omega
    rw [busy, List.foldl_cons]
    omega

/-- Over every run of a job: only so many steps do anything, and while the job is not done
there is one that does; an object is polled a bounded number of times; and the job, once
done with all calls answered and all rows taken, leaves each item in a final state, with
one row that says so. -/
theorem job_ends (repr : String → String) (targets pveSerials : List String)
    (listing : String → Except String (List Vm))
    (steps : List (Step (cloudDelete targets pveSerials listing).length)) :
    let items := cloudDelete targets pveSerials listing
    let job := steps.foldl (exec repr) (start items)
    let source := fun i => (items.get i).source
    busy repr (start items) steps ≤ 6 + ∑ i, (2 * maxAttempts (source i) + 7) ∧
    (job.state ≠ .done → ∃ s, Step.Answered source s ∧ ¬ Idle repr job s) ∧
    (∀ i, job.polls i ≤ maxAttempts (source i)) ∧
    (job.state = .done → (∀ s ∈ steps, Step.Answered source s) →
      ∀ i, (job.slots i).item.state.final = true ∧ ∃ d, job.rowsOf i = [d] ∧ d.Tells (job.slots i).item.state) := by
  intro items job source
  have hordered := @run_ordered repr items
  have hongoing : Ongoing job := by
    refine (foldl_invariant (G := fun job : Job _ => (∃ cut, Ordered job cut) ∧ Ongoing job) ?_
      ⟨⟨0, start_ordered items⟩, start_ongoing items⟩).2
    intro job s h
    obtain ⟨⟨cut, ho⟩, hg⟩ := h
    exact ⟨exec_ordered repr s ⟨cut, ho⟩, exec_ongoing repr s ho hg⟩
  have hsource : ∀ i, job.source i = source i := fun i => Item.source_of_key ((hordered steps).2 i)
  refine ⟨?_, fun hdone => exists_step repr source hongoing hdone, fun i => ?_, fun hdone hanswered => ?_⟩
  · have hle := busy_le repr steps ⟨0, start_ordered items⟩ (start_ongoing items)
    have hrank : (start items).rank = 6 + ∑ i, (5 + (2 * maxAttempts (source i) + 2)) := rfl
    have hsum : ∑ i, (5 + (2 * maxAttempts (source i) + 2)) = ∑ i, (2 * maxAttempts (source i) + 7) :=
      Finset.sum_congr rfl fun i _ => by omega
    rw [hrank, hsum] at hle
    omega
  · rw [← hsource]
    exact polls_le hongoing i
  · have hunfailed : Unfailed job := by
      refine (foldl_invariant_of_mem (G := fun job : Job _ => (∃ cut, Ordered job cut) ∧
        (∀ i, job.source i = source i) ∧ Unfailed job) ?_ ⟨⟨0, start_ordered items⟩, fun _ => rfl, ?_⟩).2.2
      · intro job s hs h
        obtain ⟨⟨cut, ho⟩, hsources, hu⟩ := h
        refine ⟨exec_ordered repr s ⟨cut, ho⟩, fun i => ?_, exec_unfailed repr ho hu ?_⟩
        · exact (Item.source_of_key (exec_key repr s i ⟨cut, ho⟩)).trans (hsources i)
        · rw [show job.source = source from funext hsources]
          exact hanswered s hs
      · constructor
        · intro i hdel
          cases hdel
        · intro i hver
          cases hver
        · intro hrunner
          cases hrunner
    obtain ⟨⟨cut, ho⟩, _⟩ := hordered steps
    exact final_of_done ho hongoing (run_evident repr targets pveSerials listing steps) hunfailed hdone

end Runs

end ProxmoxVEAutopilot.CloudDeletes
