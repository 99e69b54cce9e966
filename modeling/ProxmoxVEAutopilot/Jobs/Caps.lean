import ProxmoxVEAutopilot.Foundation.Lists
import ProxmoxVEAutopilot.Jobs.Queue

/-!
# Concurrency caps

Only the commit of a claim makes a job of a type running, and it needs the advisory lock
of the type. So the count a claim read can only fall until it commits, and a job that
left `pending` never comes back to it.
-/

namespace ProxmoxVEAutopilot.Jobs

open Foundation
set_option autoImplicit false

section Rows

/-- What one step may do to a row; only a `claimable` row becomes running. -/
structure Evolves (claimable : Prop) (j j' : Job) : Prop where
  id : j'.id = j.id
  jobType : j'.jobType = j.jobType
  status : j'.status = j.status ∨ j.status ≠ .pending ∧ j'.status.final = true ∨
    claimable ∧ j.status = .pending ∧ j'.status = .running

variable {p : Prop} {j j' : Job}

theorem Evolves.refl (p : Prop) (j : Job) : Evolves p j j := ⟨rfl, rfl, .inl rfl⟩

theorem Evolves.pending (h : Evolves p j j') (hp : ¬ p) (hj : j.status = .pending) :
    j'.status = .pending := by
  rcases h.status with heq | ⟨hne, _⟩ | ⟨hclaim, _⟩
  · rw [heq, hj]
  · exact absurd hj hne
  · exact absurd hclaim hp

theorem Evolves.final (h : Evolves p j j') (hj : j.status.final = true) : j'.status.final = true := by
  rcases h.status with heq | ⟨_, hfinal⟩ | ⟨_, hpending, _⟩
  · rw [heq, hj]
  · exact hfinal
  · rw [hpending] at hj
    cases hj

theorem Evolves.not_pending (h : Evolves p j j') (hj : j.status ≠ .pending) : j'.status ≠ .pending := by
  rcases h.status with heq | ⟨_, hfinal⟩ | ⟨_, hpending, _⟩
  · rw [heq]
    exact hj
  · intro hpending
    rw [hpending] at hfinal
    cases hfinal
  · exact absurd hpending hj

theorem Call.update_evolves (c : Call) (j : Job) : Evolves False j (c.update j) := by
  cases c with
  | enqueue | updateJobTypeLimit => exact .refl _ _
  | touchHeartbeat | requestKill =>
    simp only [Call.update]
    split
    · exact ⟨rfl, rfl, .inl rfl⟩
    · exact .refl _ _
  | finalizeJob id exitCode now =>
    simp only [Call.update]
    split
    · rename_i hrow
      refine ⟨rfl, rfl, .inr (.inl ⟨by simp [hrow.2], ?_⟩)⟩
      by_cases hzero : exitCode = 0 <;> simp [hzero, JobStatus.final]
    · exact .refl _ _
  | reapStaleRunningJobs cutoff now =>
    simp only [Call.update]
    split
    · rename_i hrow
      exact ⟨rfl, rfl, .inr (.inl ⟨by simp [hrow.1], rfl⟩)⟩
    · exact .refl _ _
  | completeInterruptedProvisionWinpeJobsForRun runId now =>
    simp only [Call.update]
    split
    · rename_i hrow
      refine ⟨rfl, rfl, .inr (.inl ⟨?_, rfl⟩)⟩
      rcases hrow.2.1 with hstatus | hstatus <;> simp [hstatus]
    · exact .refl _ _

theorem Scan.claim_evolves (c : Scan) (job : JobId) (j : Job) : Evolves (j.id = job) j (c.claim job j) := by
  unfold Scan.claim
  split
  · rename_i hrow
    exact ⟨rfl, rfl, .inr (.inr ⟨hrow.1, hrow.2, rfl⟩)⟩
  · exact .refl _ _

theorem Scan.claim_of_ne (c : Scan) {job : JobId} {j : Job} (h : j.id ≠ job) : c.claim job j = j := by
  simp [Scan.claim, h]

end Rows

section Tables
variable {jobs : List Job} {f : Job → Job} {p : Job → Prop}

theorem map_id_of_evolves (h : ∀ j, Evolves (p j) j (f j)) : (jobs.map f).map Job.id = jobs.map Job.id := by
  rw [List.map_map]
  apply List.map_congr_left
  intro j _
  exact (h j).id

theorem runningCount_map_le {jobType : String} (h : ∀ j, Evolves (p j) j (f j))
    (hp : ∀ j ∈ jobs, j.jobType = jobType → ¬ p j) :
    runningCount (jobs.map f) jobType ≤ runningCount jobs jobType := by
  unfold runningCount
  rw [List.countP_map]
  apply List.countP_mono_left
  intro j hj hrun
  simp only [Function.comp_apply, Bool.and_eq_true, beq_iff_eq] at hrun ⊢
  have htype : j.jobType = jobType := by rw [← (h j).jobType, hrun.1]
  refine ⟨htype, ?_⟩
  rcases (h j).status with heq | ⟨_, hfinal⟩ | ⟨hclaim, _⟩
  · rw [← heq, hrun.2]
  · rw [hrun.2] at hfinal
    cases hfinal
  · exact absurd hclaim (hp j hj htype)

theorem runningCount_claim_le (c : Scan) (job : JobId) (jobType : String)
    (hids : (jobs.map Job.id).Nodup) :
    runningCount (jobs.map (c.claim job)) jobType ≤ runningCount jobs jobType + 1 := by
  induction jobs with
  | nil => simp [runningCount]
  | cons j rest ih =>
    simp only [List.map_cons, List.nodup_cons] at hids
    by_cases hid : j.id = job
    · have hrest : rest.map (c.claim job) = rest := by
        conv_rhs => rw [← List.map_id rest]
        apply List.map_congr_left
        intro r hr
        apply c.claim_of_ne
        intro heq
        apply hids.1
        rw [hid, ← heq]
        exact List.mem_map_of_mem hr
      simp only [runningCount, List.map_cons, List.countP_cons, hrest]
      split <;> split <;> omega
    · have hrest := ih hids.2
      simp only [runningCount, List.map_cons, List.countP_cons, c.claim_of_ne hid] at hrest ⊢
      omega

end Tables

section Protocol
variable {τ : Type} (hashtext : String → Int)

/-- What a step of `t` leaves to the others. -/
structure Guar (q : Queue τ) (t : τ) (q' : Queue τ) : Prop where
  advisory : ∀ k u, u ≠ t → q.advisory k = some u → q'.advisory k = some u
  rows : ∀ id u, u ≠ t → q.rows id = some u → q'.rows id = some u
  running : ∀ jobType, runningCount q'.jobs jobType ≤ runningCount q.jobs jobType ∨
    q.advisory (hashtext jobType) = some t
  kept : ∀ j ∈ q.jobs, ∃ j' ∈ q'.jobs, Evolves (q.rows j.id = some t) j j'

def HoldsType (q : Queue τ) (t : τ) (c : Scan) : Prop := q.advisory (hashtext c.jobType) = some t

/-- The claim holds a pending job of a type that is under its cap. -/
structure HoldsJob (q : Queue τ) (t : τ) (c : Scan) (cap : Int) (job : JobId) : Prop where
  type : HoldsType hashtext q t c
  under : (runningCount q.jobs c.jobType : Int) < cap
  row : q.rows job = some t
  pending : ∃ j ∈ q.jobs, j.id = job ∧ j.jobType = c.jobType ∧ j.status = .pending

def Local (q : Queue τ) (t : τ) : Pc → Prop
  | .idle | .scanning .. => True
  | .locked c | .capRead c _ => HoldsType hashtext q t c
  | .underCap c cap => HoldsType hashtext q t c ∧ (runningCount q.jobs c.jobType : Int) < cap
  | .picked c cap job | .updated c cap job => HoldsJob hashtext q t c cap job

/-- Claimed jobs were claimed once and are not pending. -/
structure Sound (q : Queue τ) : Prop where
  ids : (q.jobs.map Job.id).Nodup
  once : (q.granted.map Granted.job).Nodup
  left : ∀ g ∈ q.granted, ∃ j ∈ q.jobs, j.id = g.job ∧ j.status ≠ .pending

variable {hashtext} {q q' : Queue τ} {t u : τ} {c : Scan} {cap : Int} {job : JobId}

theorem Guar.refl (q : Queue τ) (t : τ) : Guar hashtext q t q :=
  ⟨fun _ _ _ h => h, fun _ _ _ h => h, fun _ => .inl (Nat.le_refl _),
    fun j hj => ⟨j, hj, .refl _ _⟩⟩

theorem Guar.acquireAdvisory {k : Int} (h : q.advisory.Available k t) :
    Guar hashtext q t { q with advisory := q.advisory.acquire k t } :=
  ⟨fun _ _ _ hj => Locks.acquire_keeps h hj, fun _ _ _ h => h, fun _ => .inl (Nat.le_refl _),
    fun j hj => ⟨j, hj, .refl _ _⟩⟩

theorem Guar.acquireRow (h : q.rows.Available job t) :
    Guar hashtext q t { q with rows := q.rows.acquire job t } :=
  ⟨fun _ _ _ h => h, fun _ _ _ hj => Locks.acquire_keeps h hj, fun _ => .inl (Nat.le_refl _),
    fun j hj => ⟨j, hj, .refl _ _⟩⟩

theorem HoldsType.stable (h : HoldsType hashtext q u c) (hne : u ≠ t) (hg : Guar hashtext q t q') :
    HoldsType hashtext q' u c :=
  hg.advisory _ _ hne h

theorem HoldsType.running_le (h : HoldsType hashtext q u c) (hne : u ≠ t) (hg : Guar hashtext q t q') :
    runningCount q'.jobs c.jobType ≤ runningCount q.jobs c.jobType := by
  rcases hg.running c.jobType with hle | hlock
  · exact hle
  · rw [h] at hlock
    exact absurd (Option.some.inj hlock) hne

theorem HoldsJob.stable (h : HoldsJob hashtext q u c cap job) (hne : u ≠ t)
    (hg : Guar hashtext q t q') : HoldsJob hashtext q' u c cap job := by
  have hle := h.type.running_le hne hg
  have hunder := h.under
  refine ⟨h.type.stable hne hg, by omega, hg.rows _ _ hne h.row, ?_⟩
  obtain ⟨j, hj, rfl, htype, hpending⟩ := h.pending
  obtain ⟨j', hj', hev⟩ := hg.kept j hj
  refine ⟨j', hj', hev.id, hev.jobType.trans htype, hev.pending ?_ hpending⟩
  rw [h.row]
  intro heq
  exact hne (Option.some.inj heq)

theorem local_stable {pc : Pc} (h : Local hashtext q u pc) (hne : u ≠ t) (hg : Guar hashtext q t q') :
    Local hashtext q' u pc := by
  cases pc with
  | idle => trivial
  | scanning => trivial
  | locked c => exact HoldsType.stable h hne hg
  | capRead c cap => exact HoldsType.stable h hne hg
  | underCap c cap =>
    have hle := HoldsType.running_le h.1 hne hg
    have hunder := h.2
    exact ⟨HoldsType.stable h.1 hne hg, by omega⟩
  | picked c cap job => exact HoldsJob.stable h hne hg
  | updated c cap job => exact HoldsJob.stable h hne hg

theorem Sound.of_kept (h : Sound q) (hids : (q'.jobs.map Job.id).Nodup)
    (hkept : ∀ j ∈ q.jobs, ∃ p, ∃ j' ∈ q'.jobs, Evolves p j j') (hgranted : q'.granted = q.granted) :
    Sound q' := by
  refine ⟨hids, hgranted ▸ h.once, ?_⟩
  intro g hg
  rw [hgranted] at hg
  obtain ⟨j, hj, hid, hstatus⟩ := h.left g hg
  obtain ⟨p, j', hj', hev⟩ := hkept j hj
  exact ⟨j', hj', hev.id.trans hid, hev.not_pending hstatus⟩

theorem call_cases {c : Call} (h : q.call c = some q') :
    (∃ jobs limits, q' = { q with jobs := jobs, limits := limits }) ∧
    (q'.jobs = q.jobs.map c.update ∨
      ∃ j : Job, j.id ∉ q.jobs.map Job.id ∧ j.status = .pending ∧ q'.jobs = q.jobs ++ [j]) := by
  cases c with
  | enqueue id jobType runId now =>
    simp only [Queue.call] at h
    split at h
    · cases h
    · rename_i hid
      cases h
      exact ⟨⟨_, _, rfl⟩, .inr ⟨_, hid, rfl, rfl⟩⟩
  | updateJobTypeLimit jobType maxConcurrent =>
    simp only [Queue.call] at h
    split at h
    · cases h
    · cases h
      refine ⟨⟨_, _, rfl⟩, .inl ?_⟩
      exact (List.map_id q.jobs).symm
  | requestKill id =>
    simp only [Queue.call] at h
    split at h
    · cases h
    · cases h
      exact ⟨⟨_, _, rfl⟩, .inl rfl⟩
  | touchHeartbeat | finalizeJob | reapStaleRunningJobs |
      completeInterruptedProvisionWinpeJobsForRun =>
    simp only [Queue.call] at h
    cases h
    exact ⟨⟨_, _, rfl⟩, .inl rfl⟩

theorem call_step {c : Call} (h : q.call c = some q') (hs : Sound q) :
    Sound q' ∧ Guar hashtext q t q' := by
  obtain ⟨⟨jobs, limits, rfl⟩, hjobs⟩ := call_cases h
  have hkept : ∀ j ∈ q.jobs, ∃ j' ∈ jobs, Evolves False j j' := by
    intro j hj
    rcases hjobs with rfl | ⟨new, _, _, rfl⟩
    · exact ⟨_, List.mem_map_of_mem hj, c.update_evolves j⟩
    · exact ⟨j, List.mem_append_left _ hj, .refl _ _⟩
  have hids : (jobs.map Job.id).Nodup := by
    rcases hjobs with rfl | ⟨new, hnew, _, rfl⟩
    · rw [map_id_of_evolves c.update_evolves]
      exact hs.ids
    · apply nodup_map_snoc hs.ids
      intro j hj heq
      exact hnew (heq ▸ List.mem_map_of_mem hj)
  have hrunning : ∀ jobType, runningCount jobs jobType ≤ runningCount q.jobs jobType := by
    intro jobType
    rcases hjobs with rfl | ⟨new, _, hpending, rfl⟩
    · exact runningCount_map_le c.update_evolves fun _ _ _ h => h
    · simp [runningCount, hpending]
  refine ⟨hs.of_kept hids (fun j hj => ⟨_, hkept j hj⟩) rfl, ?_⟩
  refine ⟨fun _ _ _ h => h, fun _ _ _ h => h, fun jobType => .inl (hrunning jobType), ?_⟩
  intro j hj
  obtain ⟨j', hj', hev⟩ := hkept j hj
  exact ⟨j', hj', hev.id, hev.jobType, hev.status.imp_right (.imp_right fun h => h.1.elim)⟩

theorem oldestPending_some {jobs : List Job} {jobType : String} {locked : JobId → Bool}
    (h : oldestPending jobs jobType locked = some job) :
    locked job = false ∧ ∃ j ∈ jobs, j.id = job ∧ j.jobType = jobType ∧ j.status = .pending := by
  unfold oldestPending at h
  obtain ⟨j, hfind, rfl⟩ := Option.map_eq_some_iff.mp h
  have hmem := List.mem_of_find?_eq_some hfind
  rw [List.mem_insertionSort, pendingOf, List.mem_filter] at hmem
  have hfree := List.find?_some hfind
  simp only [Bool.and_eq_true, beq_iff_eq] at hmem
  exact ⟨by simpa using hfree, j, hmem.1, rfl, hmem.2.1, hmem.2.2⟩

variable [DecidableEq τ]

theorem Guar.release (q : Queue τ) (t : τ) : Guar hashtext q t (q.release t) :=
  ⟨fun _ _ hu h => Locks.release_keeps h hu, fun _ _ hu h => Locks.release_keeps h hu,
    fun _ => .inl (Nat.le_refl _), fun j hj => ⟨j, hj, .refl _ _⟩⟩

theorem commit_step (h : HoldsJob hashtext q t c cap job) (hs : Sound q) :
    Sound (q.commitClaim t c job) ∧ Guar hashtext q t (q.commitClaim t c job) := by
  obtain ⟨j, hj, rfl, htype, hpending⟩ := h.pending
  have hunique : ∀ k ∈ q.jobs, k.id = j.id → k = j := by
    intro k hk hid
    exact List.inj_on_of_nodup_map hs.ids hk hj hid
  have hkept : ∀ k ∈ q.jobs, Evolves (k.id = j.id) k (c.claim j.id k) :=
    fun k _ => c.claim_evolves j.id k
  constructor
  · refine ⟨?_, ?_, ?_⟩
    · simp only [Queue.commitClaim]
      rw [map_id_of_evolves (c.claim_evolves j.id)]
      exact hs.ids
    · apply nodup_map_snoc hs.once
      -- A job that was claimed before is not pending.
      intro g hg heq
      obtain ⟨k, hk, hid, hstatus⟩ := hs.left g hg
      rw [hunique k hk (hid.trans heq)] at hstatus
      exact hstatus hpending
    · intro g hg
      rcases List.mem_append.mp hg with hg | hg
      · obtain ⟨k, hk, hid, hstatus⟩ := hs.left g hg
        exact ⟨_, List.mem_map_of_mem hk, (hkept k hk).id.trans hid, (hkept k hk).not_pending hstatus⟩
      · rw [List.mem_singleton.mp hg]
        refine ⟨_, List.mem_map_of_mem hj, (hkept j hj).id, ?_⟩
        simp [Scan.claim, hpending]
  · refine ⟨fun _ _ hu h => Locks.release_keeps h hu, fun _ _ hu h => Locks.release_keeps h hu, ?_, ?_⟩
    · intro jobType
      by_cases hsame : jobType = c.jobType
      · right
        rw [hsame]
        exact h.type
      · left
        apply runningCount_map_le (c.claim_evolves j.id)
        intro k hk hktype hid
        apply hsame
        rw [← hktype, hunique k hk hid, htype]
    · intro k hk
      refine ⟨_, List.mem_map_of_mem hk, (hkept k hk).id, (hkept k hk).jobType, ?_⟩
      refine (hkept k hk).status.imp_right (.imp_right fun hclaim => ⟨?_, hclaim.2⟩)
      rw [hclaim.1]
      exact h.row

theorem statement_step {busy : List JobId} {pc pc' : Pc}
    (h : q.statement hashtext t busy pc = some (q', pc')) (hs : Sound q) (hl : Local hashtext q t pc) :
    Sound q' ∧ Local hashtext q' t pc' ∧ Guar hashtext q t q' := by
  cases pc with
  | idle => cases h
  | scanning workerId now tried rest =>
    cases rest with
    | nil =>
      cases h
      exact ⟨⟨hs.ids, hs.once, hs.left⟩, trivial, .release q t⟩
    | cons jobType rest =>
      simp only [Queue.statement] at h
      split at h
      · rename_i havailable
        cases h
        exact ⟨⟨hs.ids, hs.once, hs.left⟩, Locks.acquire_self _ _ _,
          .acquireAdvisory havailable⟩
      · cases h
  | locked c =>
    cases h
    exact ⟨hs, hl, .refl q t⟩
  | capRead c cap =>
    simp only [Queue.statement] at h
    split at h
    · cases h
      exact ⟨hs, trivial, .refl q t⟩
    · rename_i hunder
      cases h
      exact ⟨hs, ⟨hl, by omega⟩, .refl q t⟩
  | underCap c cap =>
    simp only [Queue.statement] at h
    split at h
    · cases h
      exact ⟨hs, trivial, .refl q t⟩
    · rename_i job hpick
      cases h
      obtain ⟨hfree, hpending⟩ := oldestPending_some hpick
      have havailable : q.rows.Available job t := by
        unfold Locks.Available
        cases hrow : q.rows job with
        | none => exact .inl rfl
        | some u =>
          rw [hrow] at hfree
          simp only [Bool.or_eq_false_iff, Option.any_some, decide_eq_false_iff_not, not_not] at hfree
          exact .inr (congrArg some hfree.2)
      exact ⟨⟨hs.ids, hs.once, hs.left⟩,
        ⟨hl.1, hl.2, Locks.acquire_self _ _ _, hpending⟩, .acquireRow havailable⟩
  | picked c cap job =>
    simp only [Queue.statement] at h
    split at h
    · cases h
      exact ⟨hs, hl, .refl q t⟩
    · cases h
      exact ⟨hs, trivial, .refl q t⟩
  | updated c cap job =>
    cases h
    obtain ⟨hsound, hguar⟩ := commit_step hl hs
    exact ⟨hsound, trivial, hguar⟩

theorem act_step {pc pc' : Pc} (hs : Sound q) (hl : Local hashtext q t pc)
    (h : Act hashtext q t pc q' pc') :
    Sound q' ∧ Local hashtext q' t pc' ∧ Guar hashtext q t q' := by
  obtain ⟨a, h⟩ := h
  cases a with
  | statement busy =>
    have h' : q.statement hashtext t busy pc = some (q', pc') := by cases pc <;> exact h
    exact statement_step h' hs hl
  | abort =>
    have h' : (q.release t, Pc.idle) = (q', pc') := by cases pc <;> exact Option.some.inj h
    cases h'
    exact ⟨⟨hs.ids, hs.once, hs.left⟩, trivial, .release q t⟩
  | claimNextJob workerId now =>
    cases pc with
    | idle =>
      cases h
      exact ⟨hs, trivial, .refl q t⟩
    | _ => cases h
  | call c =>
    cases pc with
    | idle =>
      obtain ⟨q'', hcall, heq⟩ := Option.map_eq_some_iff.mp h
      cases heq
      obtain ⟨hsound, hguar⟩ : Sound q' ∧ Guar hashtext q t q' := call_step hcall hs
      exact ⟨hsound, trivial, hguar⟩
    | _ => cases h

end Protocol

section Runs
variable {τ : Type} {w w' : Queue τ × (τ → Pc)} {ts : List τ} {hashtext : String → Int}

theorem Quiet.sound (h : Quiet w) : Sound w.1 := by
  refine ⟨h.ids, ?_, ?_⟩ <;> simp [h.noGrants]

theorem Quiet.local (h : Quiet w) (t : τ) : Local hashtext w.1 t (w.2 t) := by
  rw [h.idle t]
  trivial

variable [DecidableEq τ]

theorem run_sound (hs : Sound w.1) (hl : ∀ t, Local hashtext w.1 t (w.2 t))
    (hrun : Run (Interleave (Act hashtext)) w ts w') :
    Sound w'.1 ∧ ∀ t, Local hashtext w'.1 t (w'.2 t) := by
  refine Run.interleaving (Guar hashtext) Sound (Local hashtext) ?_ ?_ hrun hs hl
  · intro q t pc q' pc' hs hl hact
    exact act_step hs hl hact
  · intro q t q' u pc _ hne hguar hl
    exact local_stable hl hne hguar

theorem finished_stays (hs : Sound w.1) (hl : ∀ t, Local hashtext w.1 t (w.2 t))
    (hrun : Run (Interleave (Act hashtext)) w ts w') {job : JobId}
    (hj : ∃ j ∈ w.1.jobs, j.id = job ∧ j.status.final = true) :
    ∃ j ∈ w'.1.jobs, j.id = job ∧ j.status.final = true := by
  induction hrun with
  | nil => exact hj
  | snoc hprefix hstep ih =>
    obtain ⟨hs', hl'⟩ := run_sound hs hl hprefix
    obtain ⟨q', pc', hact, rfl⟩ := hstep
    obtain ⟨_, _, hguar⟩ := act_step hs' (hl' _) hact
    obtain ⟨j, hmem, hid, hfinal⟩ := ih
    obtain ⟨j', hmem', hev⟩ := hguar.kept j hmem
    exact ⟨j', hmem', hev.id.trans hid, hev.final hfinal⟩

/-- In every interleaving: a claim that commits leaves its type within the cap it read, no job
is claimed twice, and a finished job stays finished. -/
theorem claims_respect_caps (hw : Quiet w) (hrun : Run (Interleave (Act hashtext)) w ts w') :
    (∀ t c cap job, w'.2 t = .updated c cap job →
      (runningCount (w'.1.commitClaim t c job).jobs c.jobType : Int) ≤ cap) ∧
    (w'.1.granted.map Granted.job).Nodup ∧
    ∀ j ∈ w'.1.jobs, j.status.final = true → ∀ us w'', Run (Interleave (Act hashtext)) w' us w'' →
      ∀ j' ∈ w''.1.jobs, j'.id = j.id → j'.status ≠ .pending ∧ j'.status ≠ .running := by
  obtain ⟨hs, hl⟩ := run_sound hw.sound hw.local hrun
  refine ⟨?_, hs.once, ?_⟩
  · intro t c cap job hpc
    have hjob := hl t
    rw [hpc] at hjob
    have hle := runningCount_claim_le c job c.jobType hs.ids
    have hunder := HoldsJob.under hjob
    simp only [Queue.commitClaim]
    omega
  · intro j hj hfinal us w'' hlater j' hj' hid
    obtain ⟨k, hk, hkid, hkfinal⟩ := finished_stays hs hl hlater ⟨j, hj, rfl, hfinal⟩
    have hs'' := (run_sound hs hl hlater).1
    have hsame : j' = k := List.inj_on_of_nodup_map hs''.ids hj' hk (hid.trans hkid.symm)
    rw [hsame]
    constructor
    · intro hstatus
      rw [hstatus] at hkfinal
      cases hkfinal
    · intro hstatus
      rw [hstatus] at hkfinal
      cases hkfinal

end Runs

def twoBuilds : Queue Nat × (Nat → Pc) :=
  ({ jobs :=
      [{ id := "a", jobType := "build_template", createdAt := 0 },
        { id := "b", jobType := "build_template", createdAt := 1 }]
     limits := fun jobType => defaultLimits.lookup jobType
     advisory := fun _ => none
     rows := fun _ => none
     granted := [] }, fun _ => .idle)

def firstWorkerClaims : List (Nat × Action) :=
  [(0, .claimNextJob "builder-0" 2), (1, .claimNextJob "builder-1" 2), (0, .statement []),
    (0, .statement []), (0, .statement []), (0, .statement []), (0, .statement [])]

def hashByLength (s : String) : Int := s.toList.length

def firstWorkerAboutToCommit : Queue Nat × (Nat → Pc) :=
  (replay hashByLength twoBuilds firstWorkerClaims).get (by decide)

theorem one_template_build_at_a_time :
    ∃ c, firstWorkerAboutToCommit.2 0 = .updated c 1 "a" ∧
      (runningCount (firstWorkerAboutToCommit.1.commitClaim 0 c "a").jobs c.jobType : Int) ≤ 1 := by
  have hquiet : Quiet twoBuilds := by
    constructor <;> simp [twoBuilds]
  have hrun : Run (Interleave (Act hashByLength)) twoBuilds (firstWorkerClaims.map Prod.fst)
      firstWorkerAboutToCommit := run_of_replay hashByLength (Option.some_get _).symm
  have hpc : firstWorkerAboutToCommit.2 0 =
      .updated ⟨"builder-0", 2, [], "build_template", []⟩ 1 "a" := rfl
  exact ⟨_, hpc, (claims_respect_caps hquiet hrun).1 0 _ 1 "a" hpc⟩

end ProxmoxVEAutopilot.Jobs
