import ProxmoxVEAutopilot.Foundation.Interleaving
import ProxmoxVEAutopilot.TsEngine.Moves

/-!
# Claims and reports as concurrent transactions

READ COMMITTED: every statement reads the rows committed when it starts, a row stays
locked from its first lock or write to the end of the transaction, and a `SELECT` that
locks a row changed since its snapshot checks the newest version again. Writes of a
transaction become visible when it commits, so they are applied there. What a claim returns
it reads in a transaction after that.
-/

namespace ProxmoxVEAutopilot.TsEngine

open Foundation
set_option autoImplicit false

inductive Resource where
  | step (id : Uuid)
  | run
deriving DecidableEq, Repr

structure Report where
  stepId : Uuid
  agentId : String
  status : Status
  message : Option String
  data : Json

/-- A committed claim: the rows its `SELECT` read and the version of the claimed row when
its lock was taken. -/
structure Grant where
  request : ClaimRequest
  snapshot : List PlanStep
  locked : PlanStep

/-- The attempt that the claim wrote. -/
def Grant.attempt (g : Grant) : Nat := g.locked.attempt + 1

/-- What a claim returned: the row that it read back. -/
structure Returned where
  grant : Grant
  row : PlanStep

/-- Where a transaction stands. `scanning` holds the snapshot of the `SELECT` and the
sorted rows it has not tried to lock; `stepLocked` the newest version of the row whose
lock it got; `claimed` is between the commit and the second `SELECT`. -/
inductive Tx where
  | idle
  | scanning (q : ClaimRequest) (snapshot rest : List PlanStep)
  | stepLocked (q : ClaimRequest) (snapshot : List PlanStep) (r : PlanStep) (rest : List PlanStep)
  | granted (q : ClaimRequest) (snapshot : List PlanStep) (r : PlanStep)
  | claimed (g : Grant)
  | read (c : Report) (r : PlanStep)
  | decided (c : Report) (r : PlanStep) (o : Outcome) (now : Time)
  | stepHeld (c : Report) (r : PlanStep) (o : Outcome) (now : Time)
  | bothHeld (c : Report) (r : PlanStep) (o : Outcome) (now : Time)

structure Shared (τ : Type) where
  db : RunDb
  locks : Locks Resource τ
  grants : List Grant
  returned : List Returned

/-- The rows that pass the `WHERE` clause in the snapshot, by ordinal. -/
def candidates (db : RunDb) (q : ClaimRequest) : List PlanStep :=
  if db.run.state.isOpen then db.steps.rows.filter (claimable db.steps.rows q) else []

/-- The `WHERE` clause on the newest versions of the locked rows. -/
def rechecks (run : RunRow) (q : ClaimRequest) (r : PlanStep) : Bool :=
  run.state.isOpen && r.state == .pending && r.inPhase q.phase && supports q.supportedKinds r

variable {τ : Type}

def Shared.acquire (s : Shared τ) (k : Resource) (t : τ) : Shared τ :=
  { s with locks := s.locks.acquire k t }

def Shared.release [DecidableEq τ] (s : Shared τ) (t : τ) : Shared τ := { s with locks := s.locks.release t }

def Shared.commit [DecidableEq τ] (s : Shared τ) (t : τ) (db : RunDb) : Shared τ :=
  { s with db := db, locks := s.locks.release t }

inductive TxStep [DecidableEq τ] : Shared τ → τ → Tx → Shared τ → Tx → Prop where
  | claimBegin {s : Shared τ} {t : τ} (q : ClaimRequest) :
      TxStep s t .idle s (.scanning q s.db.steps.rows (candidates s.db q))
  | skipStep {s : Shared τ} {t u : τ} {q : ClaimRequest} {snapshot rest : List PlanStep} {r : PlanStep} :
      s.locks (.step r.id) = some u → u ≠ t →
      TxStep s t (.scanning q snapshot (r :: rest)) s (.scanning q snapshot rest)
  | lockStep {s : Shared τ} {t : τ} {q : ClaimRequest} {snapshot rest : List PlanStep} {r v : PlanStep} :
      s.locks.Available (.step r.id) t → v ∈ s.db.steps.rows → v.id = r.id →
      TxStep s t (.scanning q snapshot (r :: rest)) (s.acquire (.step r.id) t)
        (.stepLocked q snapshot v rest)
  | skipRun {s : Shared τ} {t u : τ} {q : ClaimRequest} {snapshot rest : List PlanStep} {v : PlanStep} :
      s.locks .run = some u → u ≠ t →
      TxStep s t (.stepLocked q snapshot v rest) s (.scanning q snapshot rest)
  | lockRun {s : Shared τ} {t : τ} {q : ClaimRequest} {snapshot rest : List PlanStep} {v : PlanStep} :
      s.locks.Available .run t →
      TxStep s t (.stepLocked q snapshot v rest) (s.acquire .run t)
        (if rechecks s.db.run q v then .granted q snapshot v else .scanning q snapshot rest)
  | noRow {s : Shared τ} {t : τ} {q : ClaimRequest} {snapshot : List PlanStep} :
      TxStep s t (.scanning q snapshot []) (s.release t) .idle
  | claimCommit {s : Shared τ} {t : τ} {q : ClaimRequest} {snapshot : List PlanStep} {v : PlanStep}
      (now : Time) :
      TxStep s t (.granted q snapshot v)
        { s.commit t (s.db.claimRow v q now) with grants := s.grants ++ [⟨q, snapshot, v⟩] }
        (.claimed ⟨q, snapshot, v⟩)
  | readBack {s : Shared τ} {t : τ} {g : Grant} {r : PlanStep} :
      r ∈ s.db.steps.rows → r.id = g.locked.id →
      TxStep s t (.claimed g) { s with returned := s.returned ++ [⟨g, r⟩] } .idle
  | completeRead {s : Shared τ} {t : τ} {r : PlanStep} (c : Report) :
      r ∈ s.db.steps.rows → r.id = c.stepId → TxStep s t .idle s (.read c r)
  | completeDecide {s : Shared τ} {t : τ} {c : Report} {r : PlanStep} {o : Outcome} (now : Time) :
      lateFailure r c.status = false → outcome s.db.steps r c.status now = .ok o →
      TxStep s t (.read c r) s (.decided c r o now)
  | completeLockStep {s : Shared τ} {t : τ} {c : Report} {r : PlanStep} {o : Outcome} {now : Time} :
      s.locks.Available (.step r.id) t →
      TxStep s t (.decided c r o now) (s.acquire (.step r.id) t) (.stepHeld c r o now)
  | completeLockRun {s : Shared τ} {t : τ} {c : Report} {r : PlanStep} {o : Outcome} {now : Time} :
      s.locks.Available .run t →
      TxStep s t (.stepHeld c r o now) (s.acquire .run t) (.bothHeld c r o now)
  | completeCommit {s : Shared τ} {t : τ} {c : Report} {r : PlanStep} {o : Outcome} {now : Time} :
      TxStep s t (.bothHeld c r o now)
        (s.commit t (s.db.completeRow r o c.agentId c.status c.message c.data now)) .idle
  | ignored {s : Shared τ} {t : τ} {c : Report} {r : PlanStep} (e : Event) :
      lateFailure r c.status = true → TxStep s t (.read c r) (s.commit t (s.db.appendEvent e)) .idle
  | abort {s : Shared τ} {t : τ} {tx : Tx} : TxStep s t tx (s.release t) .idle

def PlanStep.key (r : PlanStep) : Uuid × FlatStep := (r.id, r.plan)

def RunningClaimed (rows : List PlanStep) : Prop :=
  ∀ r ∈ rows, r.state = .running → ∃ agentId, r.claimedBy = some agentId

/-- What a transaction leaves to the others: the plan, the rows it has not locked, their locks
and their claims. -/
structure Guarantees (s : Shared τ) (t : τ) (s' : Shared τ) : Prop where
  keys : s'.db.steps.rows.map PlanStep.key = s.db.steps.rows.map PlanStep.key
  rows : ∀ r ∈ s.db.steps.rows, s.locks (.step r.id) ≠ some t → r ∈ s'.db.steps.rows
  locks : ∀ k u, u ≠ t → s.locks k = some u → s'.locks k = some u
  grants : ∀ g ∈ s.grants, g ∈ s'.grants

structure Snapshot (s : Shared τ) (snapshot : List PlanStep) : Prop where
  keys : snapshot.map PlanStep.key = s.db.steps.rows.map PlanStep.key
  claimed : RunningClaimed snapshot

def Unblocked (q : ClaimRequest) (snapshot : List PlanStep) (r : PlanStep) : Prop :=
  ∀ prev ∈ snapshot, prev.plan.ordinal < r.plan.ordinal → blocks q prev = false

/-- The rows left to try are rows of the snapshot that passed its `WHERE` clause. -/
def Scans (q : ClaimRequest) (snapshot rest : List PlanStep) : Prop :=
  ∀ r ∈ rest, r ∈ snapshot ∧ Unblocked q snapshot r

def Local (s : Shared τ) (t : τ) : Tx → Prop
  | .scanning q snapshot rest => Snapshot s snapshot ∧ Scans q snapshot rest
  | .stepLocked q snapshot r rest =>
    Snapshot s snapshot ∧ Scans q snapshot rest ∧ Unblocked q snapshot r ∧
      r ∈ s.db.steps.rows ∧ s.locks (.step r.id) = some t
  | .granted q snapshot r =>
    Snapshot s snapshot ∧ Unblocked q snapshot r ∧ r ∈ s.db.steps.rows ∧
      s.locks (.step r.id) = some t ∧ r.state = .pending
  | .claimed g => g ∈ s.grants
  | .stepHeld _ r _ _ => s.locks (.step r.id) = some t
  | .bothHeld _ r _ _ => s.locks (.step r.id) = some t
  | _ => True

/-- A grant that kept to the rules. -/
structure Grant.Fair (g : Grant) : Prop where
  read : ∃ r ∈ g.snapshot, r.id = g.locked.id
  pending : g.locked.state = .pending
  unblocked : Unblocked g.request g.snapshot g.locked
  claimed : RunningClaimed g.snapshot

structure SharedInv (s : Shared τ) : Prop where
  claimed : RunningClaimed s.db.steps.rows
  fair : ∀ g ∈ s.grants, g.Fair
  complete : ∀ g ∈ s.grants, g.snapshot.map PlanStep.key = s.db.steps.rows.map PlanStep.key
  attempts : ∀ g ∈ s.grants, ∀ r ∈ s.db.steps.rows, r.id = g.locked.id → g.attempt ≤ r.attempt
  distinct : s.grants.Pairwise fun g h => ¬ (g.locked.id = h.locked.id ∧ g.attempt = h.attempt)
  returned : ∀ x ∈ s.returned, x.grant ∈ s.grants ∧ x.row.id = x.grant.locked.id

theorem map_key_set (t : PlanTable) (id : Uuid) (f : StepProgress → StepProgress) :
    (t.set id f).rows.map PlanStep.key = t.rows.map PlanStep.key := by
  simp [PlanTable.set, PlanTable.update, PlanStep.key, Function.comp_def]

theorem exists_row_of_keys {xs ys : List PlanStep} (h : xs.map PlanStep.key = ys.map PlanStep.key)
    {r : PlanStep} (hr : r ∈ xs) : ∃ v ∈ ys, v.id = r.id ∧ v.plan = r.plan := by
  have hmem : r.key ∈ ys.map PlanStep.key := h ▸ List.mem_map_of_mem hr
  obtain ⟨v, hv, hkey⟩ := List.mem_map.mp hmem
  simp only [PlanStep.key, Prod.mk.injEq] at hkey
  exact ⟨v, hv, hkey.1, hkey.2⟩

theorem Guarantees.refl (s : Shared τ) (t : τ) : Guarantees s t s :=
  ⟨rfl, fun _ hr _ => hr, fun _ _ _ h => h, fun _ hg => hg⟩

theorem Guarantees.acquire {s : Shared τ} {t : τ} {k : Resource} (h : s.locks.Available k t) :
    Guarantees s t (s.acquire k t) :=
  ⟨rfl, fun _ hr _ => hr, fun _ _ _ hj => Locks.acquire_keeps h hj, fun _ hg => hg⟩

theorem Guarantees.release [DecidableEq τ] (s : Shared τ) (t : τ) : Guarantees s t (s.release t) :=
  ⟨rfl, fun _ hr _ => hr, fun _ _ hu hj => Locks.release_keeps hj hu, fun _ hg => hg⟩

theorem Guarantees.commit [DecidableEq τ] {s s' : Shared τ} {t : τ} {id : Uuid} {f : StepProgress → StepProgress}
    (hlock : s.locks (.step id) = some t) (hsteps : s'.db.steps = s.db.steps.set id f)
    (hlocks : s'.locks = s.locks.release t) (hgrants : ∀ g ∈ s.grants, g ∈ s'.grants) : Guarantees s t s' := by
  refine ⟨?_, fun r hr hno => ?_, fun k u hu hk => ?_, hgrants⟩
  · rw [hsteps, map_key_set]
  · rw [hsteps]
    refine PlanTable.mem_set_of_ne hr fun hid => ?_
    rw [hid] at hno
    exact hno hlock
  · rw [hlocks]
    exact Locks.release_keeps hk hu

theorem Snapshot.stable {s s' : Shared τ} {t : τ} {snapshot : List PlanStep}
    (hguar : Guarantees s t s') (h : Snapshot s snapshot) : Snapshot s' snapshot :=
  ⟨h.keys.trans hguar.keys.symm, h.claimed⟩

theorem Local.stable {s s' : Shared τ} {t u : τ} {tx : Tx} (hu : u ≠ t)
    (hguar : Guarantees s t s') (h : Local s u tx) : Local s' u tx := by
  have hrow : ∀ {r : PlanStep}, r ∈ s.db.steps.rows → s.locks (.step r.id) = some u →
      r ∈ s'.db.steps.rows := by
    intro r hr hlock
    refine hguar.rows r hr ?_
    rw [hlock]
    simpa using hu
  cases tx with
  | idle => trivial
  | scanning q snapshot rest => exact ⟨h.1.stable hguar, h.2⟩
  | stepLocked q snapshot r rest =>
    obtain ⟨hsnap, hscans, hfree, hr, hlock⟩ := h
    exact ⟨hsnap.stable hguar, hscans, hfree, hrow hr hlock, hguar.locks _ _ hu hlock⟩
  | granted q snapshot r =>
    obtain ⟨hsnap, hfree, hr, hlock, hpending⟩ := h
    exact ⟨hsnap.stable hguar, hfree, hrow hr hlock, hguar.locks _ _ hu hlock, hpending⟩
  | claimed g => exact hguar.grants g h
  | read c r => trivial
  | decided c r o now => trivial
  | stepHeld c r o now => exact hguar.locks _ _ hu h
  | bothHeld c r o now => exact hguar.locks _ _ hu h

theorem candidates_scans {db : RunDb} (q : ClaimRequest) :
    Scans q db.steps.rows (candidates db q) := by
  intro r hr
  unfold candidates at hr
  split at hr
  · obtain ⟨hr, hclaim⟩ := List.mem_filter.mp hr
    refine ⟨hr, fun prev hprev hlt => ?_⟩
    simp only [claimable, Bool.and_eq_true, Bool.not_eq_true', List.any_eq_false] at hclaim
    simpa [hlt] using hclaim.2 prev hprev
  · simp at hr

section Commit
variable {s : Shared τ}

theorem SharedInv.frame {s' : Shared τ} (h : SharedInv s) (hsteps : s'.db.steps = s.db.steps)
    (hgrants : s'.grants = s.grants) (hreturned : s'.returned = s.returned) : SharedInv s' := by
  refine ⟨?_, ?_, ?_, ?_, ?_, ?_⟩
  · rw [hsteps]
    exact h.claimed
  · rw [hgrants]
    exact h.fair
  · rw [hgrants, hsteps]
    exact h.complete
  · rw [hgrants, hsteps]
    exact h.attempts
  · rw [hgrants]
    exact h.distinct
  · rw [hreturned, hgrants]
    exact h.returned

theorem runningClaimed_set {t : PlanTable} {id : Uuid} {f : StepProgress → StepProgress}
    (h : RunningClaimed t.rows)
    (hf : ∀ p, (f p).state = .running → ∃ agentId, (f p).claimedBy = some agentId) :
    RunningClaimed (t.set id f).rows := by
  intro r hr hrunning
  obtain ⟨q, hq, rfl⟩ := PlanTable.mem_set.mp hr
  by_cases hid : q.id = id
  · rw [if_pos hid] at hrunning ⊢
    exact hf _ hrunning
  · rw [if_neg hid] at hrunning ⊢
    exact h q hq hrunning

theorem attempts_set {t : PlanTable} {id : Uuid} {f : StepProgress → StepProgress} {grants : List Grant}
    (h : ∀ g ∈ grants, ∀ r ∈ t.rows, r.id = g.locked.id → g.attempt ≤ r.attempt)
    (hf : ∀ p : StepProgress, p.attempt ≤ (f p).attempt) :
    ∀ g ∈ grants, ∀ r ∈ (t.set id f).rows, r.id = g.locked.id → g.attempt ≤ r.attempt := by
  intro g hg r hr hid
  obtain ⟨q, hq, rfl⟩ := PlanTable.mem_set.mp hr
  have hle := h g hg q hq hid
  split
  · exact Nat.le_trans hle (hf _)
  · exact hle

theorem SharedInv.complete_commit {s' : Shared τ} {id : Uuid} {o : Outcome} {status : Status}
    {message : Option String} {r : PlanStep} {now : Time} {t : PlanTable}
    (h : SharedInv s) (ho : outcome t r status now = .ok o)
    (hsteps : s'.db.steps = s.db.steps.set id (completedProgress o status message))
    (hgrants : s'.grants = s.grants) (hreturned : s'.returned = s.returned) : SharedInv s' := by
  refine ⟨?_, ?_, ?_, ?_, ?_, ?_⟩
  · rw [hsteps]
    refine runningClaimed_set h.claimed fun p hrunning => ?_
    have hrunning : o.stepState = .running := hrunning
    rcases outcome_cases ho with ⟨_, rfl⟩ | ⟨_, _, rfl⟩ | ⟨_, rfl⟩ | ⟨_, _, rfl⟩ | ⟨_, _, rfl⟩ <;>
      cases hrunning
  · rw [hgrants]
    exact h.fair
  · rw [hgrants, hsteps, map_key_set]
    exact h.complete
  · rw [hgrants, hsteps]
    exact attempts_set h.attempts fun p => Nat.le_refl _
  · rw [hgrants]
    exact h.distinct
  · rw [hreturned, hgrants]
    exact h.returned

theorem SharedInv.claim_commit {s' : Shared τ} {q : ClaimRequest} {snapshot : List PlanStep}
    {v : PlanStep} {now : Time} (h : SharedInv s) (hsnap : Snapshot s snapshot)
    (hfree : Unblocked q snapshot v) (hv : v ∈ s.db.steps.rows) (hpending : v.state = .pending)
    (hsteps : s'.db.steps = s.db.steps.set v.id (claimedProgress q now))
    (hgrants : s'.grants = s.grants ++ [⟨q, snapshot, v⟩]) (hreturned : s'.returned = s.returned) :
    SharedInv s' := by
  refine ⟨?_, ?_, ?_, ?_, ?_, ?_⟩
  · rw [hsteps]
    exact runningClaimed_set h.claimed fun p _ => ⟨q.agentId, rfl⟩
  · rw [hgrants]
    simp only [List.mem_append, List.mem_singleton]
    rintro g (hg | rfl)
    · exact h.fair g hg
    · obtain ⟨r, hr, hid, _⟩ := exists_row_of_keys hsnap.keys.symm hv
      exact ⟨⟨r, hr, hid⟩, hpending, hfree, hsnap.claimed⟩
  · rw [hgrants, hsteps, map_key_set]
    simp only [List.mem_append, List.mem_singleton]
    rintro g (hg | rfl)
    · exact h.complete g hg
    · exact hsnap.keys
  · rw [hgrants, hsteps]
    simp only [List.mem_append, List.mem_singleton]
    rintro g (hg | rfl)
    · exact attempts_set h.attempts (fun p => Nat.le_succ _) g hg
    · intro r hr hid
      obtain ⟨p, hp, rfl⟩ := PlanTable.mem_set.mp hr
      have hpv : p = v := s.db.steps.eq_of_id hp hv hid
      subst hpv
      rw [if_pos rfl]
      exact Nat.le_refl _
  · rw [hgrants, List.pairwise_append]
    refine ⟨h.distinct, List.pairwise_singleton _ _, ?_⟩
    rintro g hg _ hlast ⟨hid, hattempt⟩
    rw [List.mem_singleton.mp hlast] at hid hattempt
    have hle := h.attempts g hg v hv hid.symm
    rw [hattempt] at hle
    exact absurd hle (Nat.not_succ_le_self _)
  · rw [hreturned, hgrants]
    exact fun x hx => ⟨List.mem_append_left _ (h.returned x hx).1, (h.returned x hx).2⟩

theorem SharedInv.read_back {g : Grant} {r : PlanStep} (h : SharedInv s) (hg : g ∈ s.grants) (hid : r.id = g.locked.id) :
    SharedInv { s with returned := s.returned ++ [⟨g, r⟩] } := by
  refine ⟨h.claimed, h.fair, h.complete, h.attempts, h.distinct, ?_⟩
  simp only [List.mem_append, List.mem_singleton]
  rintro x (hx | rfl)
  · exact h.returned x hx
  · exact ⟨hg, hid⟩

end Commit

def Decided : Tx → Prop
  | .decided c r o now => ∃ t, outcome t r c.status now = .ok o
  | .stepHeld c r o now => ∃ t, outcome t r c.status now = .ok o
  | .bothHeld c r o now => ∃ t, outcome t r c.status now = .ok o
  | _ => True

theorem TxStep.own [DecidableEq τ] {s s' : Shared τ} {t : τ} {tx tx' : Tx} (hs : SharedInv s)
    (hl : Local s t tx ∧ Decided tx) (h : TxStep s t tx s' tx') :
    SharedInv s' ∧ (Local s' t tx' ∧ Decided tx') ∧ Guarantees s t s' := by
  cases h with
  | claimBegin q =>
    exact ⟨hs, ⟨⟨⟨rfl, hs.claimed⟩, candidates_scans q⟩, trivial⟩, .refl s t⟩
  | skipStep =>
    obtain ⟨⟨hsnap, hscans⟩, _⟩ := hl
    exact ⟨hs, ⟨⟨hsnap, fun r hr => hscans r (List.mem_cons_of_mem _ hr)⟩, trivial⟩, .refl s t⟩
  | @lockStep q snapshot rest r v havail hv hid =>
    obtain ⟨⟨hsnap, hscans⟩, _⟩ := hl
    obtain ⟨hr, hfree⟩ := hscans r List.mem_cons_self
    obtain ⟨v', hv', hid', hplan⟩ := exists_row_of_keys hsnap.keys hr
    rw [s.db.steps.eq_of_id hv' hv (hid'.trans hid.symm)] at hplan
    have hfree' : Unblocked q snapshot v := by
      unfold Unblocked
      rw [hplan]
      exact hfree
    refine ⟨hs.frame rfl rfl rfl, ⟨⟨hsnap.stable (.acquire havail), ?_, hfree', hv, ?_⟩, trivial⟩,
      .acquire havail⟩
    · exact fun r hr => hscans r (List.mem_cons_of_mem _ hr)
    · rw [hid]
      exact Locks.acquire_self _ _ _
  | skipRun =>
    obtain ⟨⟨hsnap, hscans, _⟩, _⟩ := hl
    exact ⟨hs, ⟨⟨hsnap, hscans⟩, trivial⟩, .refl s t⟩
  | @lockRun q snapshot rest v havail =>
    obtain ⟨⟨hsnap, hscans, hfree, hv, hlock⟩, _⟩ := hl
    have hsnap' := hsnap.stable (.acquire havail)
    refine ⟨hs.frame rfl rfl rfl, ?_, .acquire havail⟩
    split
    · rename_i hcheck
      simp only [rechecks, Bool.and_eq_true, beq_iff_eq] at hcheck
      exact ⟨⟨hsnap', hfree, hv, Locks.acquire_keeps havail hlock, hcheck.1.1.2⟩, trivial⟩
    · exact ⟨⟨hsnap', hscans⟩, trivial⟩
  | noRow => exact ⟨hs.frame rfl rfl rfl, ⟨trivial, trivial⟩, .release s t⟩
  | claimCommit now =>
    obtain ⟨⟨hsnap, hfree, hv, hlock, hpending⟩, _⟩ := hl
    exact ⟨hs.claim_commit hsnap hfree hv hpending rfl rfl rfl, ⟨List.mem_append_right _ List.mem_cons_self, trivial⟩,
      .commit hlock rfl rfl fun _ hg => List.mem_append_left _ hg⟩
  | readBack hr hid =>
    exact ⟨hs.read_back hl.1 hid, ⟨trivial, trivial⟩, ⟨rfl, fun _ hr _ => hr, fun _ _ _ hj => hj, fun _ hg => hg⟩⟩
  | completeRead => exact ⟨hs, ⟨trivial, trivial⟩, .refl s t⟩
  | completeDecide now _ ho => exact ⟨hs, ⟨trivial, s.db.steps, ho⟩, .refl s t⟩
  | completeLockStep havail =>
    exact ⟨hs.frame rfl rfl rfl, ⟨Locks.acquire_self _ _ _, hl.2⟩, .acquire havail⟩
  | completeLockRun havail =>
    exact ⟨hs.frame rfl rfl rfl, ⟨Locks.acquire_keeps havail hl.1, hl.2⟩, .acquire havail⟩
  | completeCommit =>
    obtain ⟨hlock, table, ho⟩ := hl
    exact ⟨hs.complete_commit ho rfl rfl rfl, ⟨trivial, trivial⟩, .commit hlock rfl rfl fun _ hg => hg⟩
  | ignored e _ =>
    exact ⟨hs.frame rfl rfl rfl, ⟨trivial, trivial⟩,
      ⟨rfl, fun _ hr _ => hr, fun _ _ hu hj => Locks.release_keeps hj hu, fun _ hg => hg⟩⟩
  | abort => exact ⟨hs.frame rfl rfl rfl, ⟨trivial, trivial⟩, .release s t⟩

theorem exec_runningClaimed {db : RunDb} (c : Call) (h : RunningClaimed db.steps.rows) :
    RunningClaimed (exec db c).steps.rows := by
  intro r hr hrunning
  obtain ⟨q, hq, p, hmove, rfl⟩ := mem_exec_rows hr
  cases hmove with
  | keep => exact h q hq hrunning
  | claimed => exact ⟨_, rfl⟩
  | completed _ _ ho =>
    rcases outcome_cases ho with ⟨_, rfl⟩ | ⟨_, _, rfl⟩ | ⟨_, rfl⟩ | ⟨_, _, rfl⟩ | ⟨_, _, rfl⟩ <;>
      cases hrunning
  | rebooted => cases hrunning
  | requeued => cases hrunning
  | marked => cases hrunning

theorem Initial.runningClaimed {db : RunDb} (h : Initial db) : RunningClaimed db.steps.rows := by
  intro r hr hrunning
  obtain ⟨s, hs, hp⟩ := h.progress r hr
  have hstate : r.state = s := by rw [hp]
  rcases hs with rfl | rfl <;> simp [hstate] at hrunning

/-- No transaction is under way and nothing is locked. -/
def atRest (τ : Type) (db : RunDb) : Shared τ × (τ → Tx) :=
  (⟨db, fun _ => none, [], []⟩, fun _ => .idle)

theorem blocks_eq_false {q : ClaimRequest} {prev : PlanStep} (h : blocks q prev = false)
    (hphase : prev.inPhase q.phase = true)
    (hclaimed : prev.state = .running → ∃ agentId, prev.claimedBy = some agentId) :
    prev.state = .done ∨ prev.state = .skipped ∨
      (q.allowRunning = true ∧ prev.state = .running ∧ prev.claimedBy = some q.agentId) := by
  cases hstate : prev.state with
  | done => exact .inl rfl
  | skipped => exact .inr (.inl rfl)
  | running =>
    obtain ⟨agentId, hagent⟩ := hclaimed hstate
    simp [blocks, hphase, hstate, hagent] at h
    exact .inr (.inr ⟨h.1, rfl, by rw [hagent, h.2]⟩)
  | pending => simp [blocks, hphase, hstate] at h
  | awaitingReboot => simp [blocks, hphase, hstate] at h
  | failed => simp [blocks, hphase, hstate] at h

section ReadBack
variable [DecidableEq τ] {s s' : Shared τ} {t : τ} {tx tx' : Tx} {w w' : Shared τ × (τ → Tx)} {ts : List τ}

/-- A claim is committed while another one of the same step is still to be read back. -/
def Overtakes (w : Shared τ × (τ → Tx)) (t : τ) (w' : Shared τ × (τ → Tx)) : Prop :=
  ∃ g u h, w'.2 t = .claimed g ∧ u ≠ t ∧ w.2 u = .claimed h ∧ h.locked.id = g.locked.id

def OrderlyStep (w : Shared τ × (τ → Tx)) (t : τ) (w' : Shared τ × (τ → Tx)) : Prop :=
  Interleave TxStep w t w' ∧ ¬ Overtakes w t w'

/-- What a step is to the claims that are to be read back. -/
inductive ClaimMove (s : Shared τ) : Tx → Shared τ → Tx → Prop where
  | other {tx tx' : Tx} {s' : Shared τ} : (∀ g, tx' ≠ .claimed g) → s'.returned = s.returned →
      (∀ r' ∈ s'.db.steps.rows, ∃ r ∈ s.db.steps.rows, r.id = r'.id ∧ r.attempt = r'.attempt) →
      ClaimMove s tx s' tx'
  | committed {q : ClaimRequest} {snapshot : List PlanStep} {v : PlanStep} {now : Time} {s' : Shared τ} :
      s'.db.steps = s.db.steps.set v.id (claimedProgress q now) → s'.returned = s.returned →
      ClaimMove s (.granted q snapshot v) s' (.claimed ⟨q, snapshot, v⟩)
  | readBack {g : Grant} {r : PlanStep} : r ∈ s.db.steps.rows → r.id = g.locked.id →
      ClaimMove s (.claimed g) { s with returned := s.returned ++ [⟨g, r⟩] } .idle

theorem TxStep.claimMove (h : TxStep s t tx s' tx') : ClaimMove s tx s' tx' := by
  have hsame : ∀ r' ∈ s.db.steps.rows, ∃ r ∈ s.db.steps.rows, r.id = r'.id ∧ r.attempt = r'.attempt :=
    fun r hr => ⟨r, hr, rfl, rfl⟩
  cases h with
  | claimCommit => exact .committed rfl rfl
  | readBack hr hid => exact .readBack hr hid
  | completeCommit =>
    refine .other (fun _ h => by cases h) rfl fun r' hr' => ?_
    obtain ⟨r, hr, rfl⟩ := PlanTable.mem_set.mp hr'
    refine ⟨r, hr, ?_⟩
    split <;> exact ⟨rfl, rfl⟩
  | lockRun =>
    refine .other (fun _ h => ?_) rfl hsame
    split at h <;> cases h
  | _ => exact .other (fun _ h => by cases h) rfl hsame

/-- Claims that are to be read back are of different steps, and the row still has the attempt that
the claim wrote, which is later than those returned. -/
structure InOrder (w : Shared τ × (τ → Tx)) : Prop where
  apart : ∀ t u g h, t ≠ u → w.2 t = .claimed g → w.2 u = .claimed h → g.locked.id ≠ h.locked.id
  current : ∀ t g, w.2 t = .claimed g → ∀ r ∈ w.1.db.steps.rows, r.id = g.locked.id → r.attempt = g.attempt
  ahead : ∀ t g, w.2 t = .claimed g → ∀ x ∈ w.1.returned, x.row.id = g.locked.id → x.row.attempt < g.attempt
  below : ∀ x ∈ w.1.returned, ∀ r ∈ w.1.db.steps.rows, r.id = x.row.id → x.row.attempt ≤ r.attempt
  rising : w.1.returned.Pairwise fun x y => x.row.id = y.row.id → x.row.attempt < y.row.attempt

theorem claimed_update {place : τ → Tx} {u : τ} {g : Grant} (h : Function.update place t tx' u = .claimed g) :
    (u = t ∧ tx' = .claimed g) ∨ u ≠ t ∧ place u = .claimed g := by
  by_cases hut : u = t
  · rw [hut, Function.update_self] at h
    exact .inl ⟨hut, h⟩
  · rw [Function.update_of_ne hut] at h
    exact .inr ⟨hut, h⟩

theorem InOrder.other (h : InOrder w) (hplace : ∀ g, tx' ≠ .claimed g) (hreturned : s'.returned = w.1.returned)
    (hrows : ∀ r' ∈ s'.db.steps.rows, ∃ r ∈ w.1.db.steps.rows, r.id = r'.id ∧ r.attempt = r'.attempt) :
    InOrder (s', Function.update w.2 t tx') := by
  have hclaimed : ∀ u g, Function.update w.2 t tx' u = .claimed g → w.2 u = .claimed g := fun u g hu =>
    (claimed_update hu).elim (fun hown => absurd hown.2 (hplace g)) And.right
  refine ⟨fun t' u g g' hne ht hu => h.apart t' u g g' hne (hclaimed _ _ ht) (hclaimed _ _ hu), fun u g hu r' hr' hid => ?_,
    fun u g hu x hx => ?_, fun x hx r' hr' hid => ?_, ?_⟩
  · obtain ⟨r, hr, hrid, hattempt⟩ := hrows r' hr'
    rw [← hattempt]
    exact h.current u g (hclaimed u g hu) r hr (hrid.trans hid)
  · rw [hreturned] at hx
    exact h.ahead u g (hclaimed u g hu) x hx
  · rw [hreturned] at hx
    obtain ⟨r, hr, hrid, hattempt⟩ := hrows r' hr'
    rw [← hattempt]
    exact h.below x hx r hr (hrid.trans hid)
  · rw [hreturned]
    exact h.rising

theorem InOrder.committed (h : InOrder w) {q : ClaimRequest} {snapshot : List PlanStep} {v : PlanStep} {now : Time}
    (hv : v ∈ w.1.db.steps.rows) (hsteps : s'.db.steps = w.1.db.steps.set v.id (claimedProgress q now))
    (hreturned : s'.returned = w.1.returned) (halone : ∀ u h, u ≠ t → w.2 u = .claimed h → h.locked.id ≠ v.id) :
    InOrder (s', Function.update w.2 t (.claimed ⟨q, snapshot, v⟩)) := by
  have hclaimed : ∀ u g, Function.update w.2 t (.claimed ⟨q, snapshot, v⟩) u = .claimed g →
      (u = t ∧ g = ⟨q, snapshot, v⟩) ∨ u ≠ t ∧ w.2 u = .claimed g := fun u g hu =>
    (claimed_update hu).imp_left fun hown => ⟨hown.1, (Tx.claimed.inj hown.2).symm⟩
  have hrows : ∀ r' ∈ s'.db.steps.rows, ∃ r ∈ w.1.db.steps.rows, r.id = r'.id ∧
      r'.attempt = if r.id = v.id then r.attempt + 1 else r.attempt := by
    intro r' hr'
    rw [hsteps] at hr'
    obtain ⟨r, hr, rfl⟩ := PlanTable.mem_set.mp hr'
    refine ⟨r, hr, ?_⟩
    split <;> exact ⟨rfl, rfl⟩
  refine ⟨fun t' u g g' hne ht hu => ?_, fun u g hu r' hr' hid => ?_, fun u g hu x hx hid => ?_,
    fun x hx r' hr' hid => ?_, ?_⟩
  · rcases hclaimed t' g ht with ⟨ht', hg⟩ | ⟨ht', ht⟩
    · rcases hclaimed u g' hu with ⟨hu', _⟩ | ⟨hu', hu⟩
      · exact absurd (ht'.trans hu'.symm) hne
      · rw [hg]
        exact (halone u g' hu' hu).symm
    · rcases hclaimed u g' hu with ⟨_, hg⟩ | ⟨_, hu⟩
      · rw [hg]
        exact halone t' g ht' ht
      · exact h.apart t' u g g' hne ht hu
  · obtain ⟨r, hr, hrid, hattempt⟩ := hrows r' hr'
    rcases hclaimed u g hu with ⟨_, rfl⟩ | ⟨hut, hu⟩
    · have hrv : r = v := w.1.db.steps.eq_of_id hr hv (hrid.trans hid)
      rw [hattempt, hrv, if_pos rfl]
      rfl
    · have hne := halone u g hut hu
      rw [hattempt, if_neg (fun heq => hne (hid.symm.trans (hrid.symm.trans heq)))]
      exact h.current u g hu r hr (hrid.trans hid)
  · rw [hreturned] at hx
    rcases hclaimed u g hu with ⟨_, rfl⟩ | ⟨_, hu⟩
    · exact Nat.lt_succ_of_le (h.below x hx v hv hid.symm)
    · exact h.ahead u g hu x hx hid
  · rw [hreturned] at hx
    obtain ⟨r, hr, hrid, hattempt⟩ := hrows r' hr'
    have hle := h.below x hx r hr (hrid.trans hid)
    rw [hattempt]
    split <;> omega
  · rw [hreturned]
    exact h.rising

theorem InOrder.readBack (h : InOrder w) {g : Grant} {r : PlanStep} (ht : w.2 t = .claimed g)
    (hr : r ∈ w.1.db.steps.rows) (hid : r.id = g.locked.id) :
    InOrder ({ w.1 with returned := w.1.returned ++ [⟨g, r⟩] }, Function.update w.2 t .idle) := by
  have hclaimed : ∀ u g, Function.update w.2 t .idle u = .claimed g → u ≠ t ∧ w.2 u = .claimed g := fun u g hu =>
    (claimed_update hu).resolve_left fun hown => by cases hown.2
  refine ⟨fun t' u g g' hne ht hu => h.apart t' u g g' hne (hclaimed _ _ ht).2 (hclaimed _ _ hu).2,
    fun u g hu => h.current u g (hclaimed u g hu).2, fun u g' hu x hx hxid => ?_, fun x hx r' hr' hrid => ?_, ?_⟩
  · obtain ⟨hut, hu⟩ := hclaimed u g' hu
    rcases List.mem_append.mp hx with hx | hx
    · exact h.ahead u g' hu x hx hxid
    · rw [List.mem_singleton.mp hx] at hxid
      exact absurd (hid.symm.trans hxid) (h.apart t u g g' (Ne.symm hut) ht hu)
  · rcases List.mem_append.mp hx with hx | hx
    · exact h.below x hx r' hr' hrid
    · rw [List.mem_singleton.mp hx] at hrid ⊢
      rw [w.1.db.steps.eq_of_id hr' hr hrid]
  · change (w.1.returned ++ [Returned.mk g r]).Pairwise _
    rw [List.pairwise_append]
    refine ⟨h.rising, List.pairwise_singleton _ _, fun x hx y hy hxy => ?_⟩
    rw [List.mem_singleton.mp hy] at hxy ⊢
    have hlt := h.ahead t g ht x hx (hxy.trans hid)
    rwa [← h.current t g ht r hr hid] at hlt

theorem OrderlyStep.inOrder (hstep : OrderlyStep w t w') (h : InOrder w) (hl : Local w.1 t (w.2 t)) : InOrder w' := by
  obtain ⟨⟨s', tx', hstep, rfl⟩, hovertakes⟩ := hstep
  have hmove := hstep.claimMove
  generalize hplace : w.2 t = tx at hmove hl
  cases hmove with
  | other hnot hreturned hrows => exact h.other hnot hreturned hrows
  | @committed q snapshot v now _ hsteps hreturned =>
    refine h.committed hl.2.2.1 hsteps hreturned fun u g hu hclaimed hid => hovertakes ?_
    unfold Overtakes
    exact ⟨⟨q, snapshot, v⟩, u, g, Function.update_self _ _ _, hu, hclaimed, hid⟩
  | readBack hr hid => exact h.readBack hplace hr hid

/-- What holds in every state reached, whatever the interleaving. -/
def Consistent (w : Shared τ × (τ → Tx)) : Prop := SharedInv w.1 ∧ ∀ t, Local w.1 t (w.2 t) ∧ Decided (w.2 t)

theorem Consistent.run (hrun : Run (Interleave TxStep) w ts w') (h : Consistent w) : Consistent w' :=
  Run.interleaving Guarantees SharedInv (fun s t tx => Local s t tx ∧ Decided tx)
    (fun _ _ _ _ _ hs hl hstep => hstep.own hs hl)
    (fun _ _ _ _ _ _ hu hguar hl => ⟨hl.1.stable hu hguar, hl.2⟩) hrun h.1 h.2

theorem run_inOrder (hrun : Run OrderlyStep w ts w') (hc : Consistent w) (h : InOrder w) : InOrder w' := by
  refine (hrun.invariant (P := fun w => Consistent w ∧ InOrder w) (fun w t w' h hstep => ?_) ⟨hc, h⟩).2
  exact ⟨h.1.run (.single hstep.1), hstep.inOrder h.2 (h.1.2 t).1⟩

omit [DecidableEq τ] in
theorem consistent_atRest {db₀ : RunDb} (hcreated : Created db₀) (before : List Call) :
    Consistent (atRest τ (before.foldl exec db₀)) := by
  have hclaimed : RunningClaimed (before.foldl exec db₀).steps.rows :=
    List.foldlRecOn (motive := fun db : RunDb => RunningClaimed db.steps.rows) before exec
      hcreated.initial.runningClaimed fun _ hdb c _ => exec_runningClaimed c hdb
  exact ⟨⟨hclaimed, by simp [atRest], by simp [atRest], by simp [atRest], by simp [atRest], by simp [atRest]⟩,
    fun _ => ⟨trivial, trivial⟩⟩

omit [DecidableEq τ] in
theorem inOrder_atRest (db : RunDb) : InOrder (atRest τ db) :=
  ⟨fun _ _ _ _ _ ht => (by cases ht), fun _ _ ht => (by cases ht), fun _ _ ht => (by cases ht),
    fun _ hx => (by cases hx), .nil⟩

theorem read_back_alike (hc : Consistent w) {u : τ} {g h : Grant} (hne : u ≠ t) (ht : w.2 t = .claimed g)
    (hu : w.2 u = .claimed h) (hid : h.locked.id = g.locked.id) :
    ∃ w' r, Run (Interleave TxStep) w [t, u] w' ∧ w'.1.returned = w.1.returned ++ [⟨g, r⟩, ⟨h, r⟩] := by
  have hgrant : g ∈ w.1.grants := by
    have hl := (hc.2 t).1
    rw [ht] at hl
    exact hl
  obtain ⟨r, hr, hrid⟩ := (hc.1.fair g hgrant).read
  obtain ⟨v, hv, hvr, _⟩ := exists_row_of_keys (hc.1.complete g hgrant) hr
  have hvid : v.id = g.locked.id := hvr.trans hrid
  have hfirst := (Run.nil w).snoc (Interleave.of_step (t := t) (TxStep.readBack hv hvid) ht)
  have hsecond := hfirst.snoc (Interleave.of_step (t := u)
    (TxStep.readBack (s := { w.1 with returned := w.1.returned ++ [⟨g, v⟩] }) hv (hvid.trans hid.symm))
      ((Function.update_of_ne hne _ _).trans hu))
  refine ⟨_, v, hsecond, ?_⟩
  simp

/-- No two claims returned the same step with the same attempt. -/
def Shared.Exclusive (s : Shared τ) : Prop :=
  s.returned.Pairwise fun x y => ¬ (x.row.id = y.row.id ∧ x.row.attempt = y.row.attempt)

omit [DecidableEq τ] in
theorem InOrder.exclusive (h : InOrder w) : w.1.Exclusive :=
  h.rising.imp fun hlt heq => absurd (hlt heq.1) (by omega)

theorem Overtakes.not_exclusive (h : Overtakes w t w') (hstep : Interleave TxStep w t w') (hc : Consistent w') :
    ∃ us w'', Run (Interleave TxStep) w' us w'' ∧ ¬ w''.1.Exclusive := by
  obtain ⟨s', tx', _, rfl⟩ := hstep
  obtain ⟨g, u, g', ht, hne, hu, hid⟩ := h
  obtain ⟨w'', r, hrun, hreturned⟩ := read_back_alike hc hne ht ((Function.update_of_ne hne _ _).trans hu) hid
  refine ⟨_, w'', hrun, fun hexclusive => ?_⟩
  unfold Shared.Exclusive at hexclusive
  rw [hreturned, List.pairwise_append] at hexclusive
  simp at hexclusive

theorem run_not_overtaking (hrun : Run (Interleave TxStep) w ts w') (hts : ∀ u ∈ ts, u = t)
    (halone : ∀ u g, u ≠ t → w.2 u ≠ .claimed g) :
    Run OrderlyStep w ts w' ∧ ∀ u g, u ≠ t → w'.2 u ≠ .claimed g := by
  induction hrun with
  | nil => exact ⟨.nil _, halone⟩
  | @snoc _ _ us i _ hstep ih =>
    obtain ⟨hrun, halone⟩ := ih fun u hu => hts u (List.mem_append_left _ hu)
    have hi : i = t := hts i (List.mem_append_right _ List.mem_cons_self)
    subst hi
    refine ⟨hrun.snoc ⟨hstep, fun hovertakes => ?_⟩, fun u g hu => ?_⟩
    · obtain ⟨_, u, g, _, hu, hclaimed, _⟩ := hovertakes
      exact halone u g hu hclaimed
    · obtain ⟨s', tx', _, rfl⟩ := hstep
      simpa only [Function.update_of_ne hu] using halone u g hu

/-! ### One call at a time -/

/-- What is shared while nothing is locked. -/
def Shared.free (τ : Type) (db : RunDb) (grants : List Grant) (returned : List Returned) : Shared τ :=
  ⟨db, fun _ => none, grants, returned⟩

theorem Shared.free_release (db db' : RunDb) (grants : List Grant) (returned : List Returned) (a b : Resource) :
    (((free τ db grants returned).acquire a t).acquire b t).commit t db' = free τ db' grants returned := by
  unfold free acquire commit
  congr 1
  funext k
  simp only [Locks.release, Locks.acquire, Function.update_apply]
  grind

theorem candidates_cons {db : RunDb} {q : ClaimRequest} {r : PlanStep} (h : nextClaim db q = some r) :
    db.run.state.isOpen = true ∧ r ∈ db.steps.rows ∧ claimable db.steps.rows q r = true ∧
      ∃ rest, candidates db q = r :: rest := by
  unfold nextClaim at h
  split at h
  · rename_i hopen
    obtain ⟨hclaim, as, bs, hrows, hnot⟩ := List.find?_eq_some_iff_append.mp h
    refine ⟨hopen, List.mem_of_find?_eq_some h, hclaim, bs.filter (claimable db.steps.rows q), ?_⟩
    have has : as.filter (claimable db.steps.rows q) = [] :=
      List.filter_eq_nil_iff.mpr fun a ha => by simpa using hnot a ha
    unfold candidates
    rw [if_pos hopen]
    conv_lhs => rw [hrows]
    rw [List.filter_append, ← hrows, has, List.nil_append, List.filter_cons_of_pos hclaim]
  · cases h

section Alone
variable {db : RunDb} (grants : List Grant) (returned : List Returned) (place : τ → Tx)

theorem run_snoc {place : τ → Tx} {us : List τ} (hrun : Run (Interleave TxStep) w us (s, Function.update place t tx))
    (h : TxStep s t tx s' tx') : Run (Interleave TxStep) w (us ++ [t]) (s', Function.update place t tx') := by
  have hnext := hrun.snoc (Interleave.of_step (t := t) h (Function.update_self _ _ _))
  rwa [Function.update_idem] at hnext

/-- A claim that no other transaction disturbs commits what `claimNextStep` writes. -/
theorem run_claim {q : ClaimRequest} {r : PlanStep} (now : Time) (ht : place t = .idle)
    (hnext : nextClaim db q = some r) :
    Run (Interleave TxStep) (.free τ db grants returned, place) [t, t, t, t]
      (.free τ (db.claimRow r q now) (grants ++ [⟨q, db.steps.rows, r⟩]) returned,
        Function.update place t (.claimed ⟨q, db.steps.rows, r⟩)) := by
  obtain ⟨hopen, hr, hclaim, rest, hrest⟩ := candidates_cons hnext
  have hcheck : rechecks ((Shared.free τ db grants returned).acquire (.step r.id) t).db.run q r = true := by
    simp only [claimable, Bool.and_eq_true] at hclaim
    simp only [rechecks, Bool.and_eq_true]
    exact ⟨⟨⟨hopen, hclaim.1.1.1⟩, hclaim.1.1.2⟩, hclaim.1.2⟩
  have hbegin : TxStep (.free τ db grants returned) t .idle (.free τ db grants returned)
      (.scanning q db.steps.rows (r :: rest)) := hrest ▸ TxStep.claimBegin q
  have hscan := Run.single (Interleave.of_step (w := (Shared.free τ db grants returned, place)) hbegin ht)
  have hlock := run_snoc hscan (.lockStep (.inl rfl) hr rfl)
  have hboth := run_snoc hlock (.lockRun (.inl rfl))
  rw [if_pos hcheck] at hboth
  have hcommit := run_snoc hboth (.claimCommit now)
  rw [Shared.free_release] at hcommit
  exact hcommit

/-- Read back before anything else happens, its answer is that of `claimNextStep`. -/
theorem run_claimNextStep {q : ClaimRequest} {r row : PlanStep} {now : Time} {db' : RunDb} (ht : place t = .idle)
    (hnext : nextClaim db q = some r) (h : claimNextStep db q now = (db', some row)) :
    Run (Interleave TxStep) (.free τ db grants returned, place) [t, t, t, t, t]
      (.free τ db' (grants ++ [⟨q, db.steps.rows, r⟩]) (returned ++ [⟨⟨q, db.steps.rows, r⟩, row⟩]), place) := by
  simp only [claimNextStep, hnext, Prod.mk.injEq, Option.some.injEq] at h
  obtain ⟨rfl, rfl⟩ := h
  have hr : r.withProgress (claimedProgress q now r.toStepProgress) ∈ (db.claimRow r q now).steps.rows :=
    PlanTable.mem_set.mpr ⟨r, (candidates_cons hnext).2.1, by rw [if_pos rfl]⟩
  have hread := run_snoc (run_claim grants returned place now ht hnext) (.readBack hr rfl)
  rw [← ht, Function.update_eq_self] at hread
  exact hread

/-- A report that no other transaction disturbs writes what `completeStep` writes. -/
theorem run_complete {c : Report} {r : PlanStep} {o : Outcome} {now : Time} (ht : place t = .idle)
    (hr : db.steps.get? c.stepId = some r) (hlate : lateFailure r c.status = false)
    (ho : outcome db.steps r c.status now = .ok o) :
    Run (Interleave TxStep) (.free τ db grants returned, place) [t, t, t, t, t]
      (.free τ (db.completeRow r o c.agentId c.status c.message c.data now) grants returned, place) := by
  obtain ⟨hr, hid⟩ := PlanTable.get?_eq_some.mp hr
  have hread := Run.single (Interleave.of_step (w := (Shared.free τ db grants returned, place))
    (TxStep.completeRead c hr hid) ht)
  have hdecided := run_snoc hread (.completeDecide now hlate ho)
  have hheld := run_snoc (run_snoc hdecided (.completeLockStep (.inl rfl))) (.completeLockRun (.inl rfl))
  have hcommit := run_snoc hheld .completeCommit
  rw [Shared.free_release, ← ht, Function.update_eq_self] at hcommit
  exact hcommit

end Alone

/-- Whatever the interleaving, committed claims are distinct attempts of steps that were pending
when they were locked, in the rows a claim read every earlier step of its phase was out of the
way, and what it returns is the step that it claimed. The attempt is read after the commit: no
two claims return the same one as long as no claim overtakes another of its step, and after one
that does two can. -/
theorem claims_exclusive_of_orderly {db₀ : RunDb} (hcreated : Created db₀) (before : List Call) :
    (∀ (ts : List τ) (w : Shared τ × (τ → Tx)),
      Run (Interleave TxStep) (atRest τ (before.foldl exec db₀)) ts w →
      (w.1.grants.Pairwise fun g h => ¬ (g.locked.id = h.locked.id ∧ g.attempt = h.attempt)) ∧
      ∀ x ∈ w.1.returned, x.grant ∈ w.1.grants ∧ x.row.id = x.grant.locked.id ∧ x.grant.locked.state = .pending ∧
        x.grant.snapshot.map PlanStep.key = w.1.db.steps.rows.map PlanStep.key ∧
        ∀ prev ∈ x.grant.snapshot, prev.plan.ordinal < x.grant.locked.plan.ordinal →
          prev.inPhase x.grant.request.phase = true →
          prev.state = .done ∨ prev.state = .skipped ∨
            (x.grant.request.allowRunning = true ∧ prev.state = .running ∧
              prev.claimedBy = some x.grant.request.agentId)) ∧
    (∀ (ts : List τ) (w : Shared τ × (τ → Tx)),
      Run OrderlyStep (atRest τ (before.foldl exec db₀)) ts w → w.1.Exclusive) ∧
    ∀ (ts : List τ) (w w' : Shared τ × (τ → Tx)) (t : τ),
      Run OrderlyStep (atRest τ (before.foldl exec db₀)) ts w → Interleave TxStep w t w' →
      Overtakes w t w' → ∃ us w'', Run (Interleave TxStep) w' us w'' ∧ ¬ w''.1.Exclusive := by
  have hrest : Consistent (atRest τ (before.foldl exec db₀)) := consistent_atRest hcreated before
  refine ⟨fun ts w hrun => ?_, fun ts w hrun => ?_, fun ts w w' t hrun hstep hovertakes => ?_⟩
  · obtain ⟨hinv, _⟩ := hrest.run hrun
    refine ⟨hinv.distinct, fun x hx => ?_⟩
    obtain ⟨hgrant, hid⟩ := hinv.returned x hx
    have hfair := hinv.fair _ hgrant
    refine ⟨hgrant, hid, hfair.pending, hinv.complete _ hgrant, fun prev hprev hlt hphase => ?_⟩
    exact blocks_eq_false (hfair.unblocked prev hprev hlt) hphase (hfair.claimed prev hprev)
  · exact (run_inOrder hrun hrest (inOrder_atRest _)).exclusive
  · have hall : Run (Interleave TxStep) _ _ w' := (hrun.mono fun _ _ _ h => h.1).snoc hstep
    exact hovertakes.not_exclusive hstep (hrest.run hall)

end ReadBack

/-! ### A report sent again -/

def retriedStep : Node :=
  { id := 1, parentId := none, position := 0, nodeType := .step "install_package", name := "Install"
    phase := "full_os", retryCount := 2 }

def retriedRun : RunDb := createdFrom [retriedStep] rfl

def retriedRow : PlanStep := retriedRun.steps.rows.head (by decide)

def agentClaim (agentId : String) : ClaimRequest := { phase := "full_os", agentId }

def firstReport : Report :=
  { stepId := retriedRow.id, agentId := "agent-b", status := .failed, message := none, data := .obj [] }

/-- Agent B claims the step, and its attempt fails. -/
def firstAttempt : List Call :=
  [⟨.claim (agentClaim "agent-b"), 1⟩, ⟨.complete retriedRow.id "agent-b" .failed none (.obj []), 2⟩]

def retriedDb : RunDb := firstAttempt.foldl exec retriedRun

def openRow (n : Nat) : PlanStep := retriedRow.withProgress { attempt := n, startedAt := some 1 }

def secondRow : PlanStep := (openRow 1).withProgress (claimedProgress (agentClaim "agent-a") 3 (openRow 1).toStepProgress)

def secondDb : RunDb := retriedDb.claimRow (openRow 1) (agentClaim "agent-a") 3

def secondFailure : Outcome := ⟨.pending, .running "full_os", none, .warning⟩

def secondFailed : RunDb := secondDb.completeRow secondRow secondFailure "agent-b" .failed none (.obj []) 4

def thirdRow : PlanStep := (openRow 2).withProgress (claimedProgress (agentClaim "agent-b") 5 (openRow 2).toStepProgress)

def thirdDb : RunDb := secondFailed.claimRow (openRow 2) (agentClaim "agent-b") 5

theorem second_claim : claimNextStep retriedDb (agentClaim "agent-a") 3 = (secondDb, some secondRow) := rfl

theorem nextClaim_retriedDb : nextClaim retriedDb (agentClaim "agent-a") = some (openRow 1) := rfl

theorem get?_secondDb : secondDb.steps.get? firstReport.stepId = some secondRow := rfl

theorem outcome_secondDb : outcome secondDb.steps secondRow .failed 4 = .ok secondFailure := rfl

theorem nextClaim_secondFailed : nextClaim secondFailed (agentClaim "agent-b") = some (openRow 2) := rfl

theorem third_claim : claimNextStep secondFailed (agentClaim "agent-b") 5 = (thirdDb, some thirdRow) := rfl

/-- Agent A has its answer before the report is sent again. -/
theorem attempts_returned_in_order :
    ∃ (ts : List Bool) (w : Shared Bool × (Bool → Tx)),
      Run OrderlyStep (atRest Bool (firstAttempt.foldl exec retriedRun)) ts w ∧
      w.1.returned.map (fun x => (x.grant.request.agentId, x.row.attempt)) = [("agent-a", 2), ("agent-b", 3)] ∧
      w.1.Exclusive := by
  have hnone : ∀ {t : Bool} (u : Bool) (g : Grant), u ≠ t → (fun _ => Tx.idle : Bool → Tx) u ≠ .claimed g :=
    fun _ _ _ h => by cases h
  have hclaimed := run_claimNextStep (t := true) [] [] (fun _ => .idle) rfl nextClaim_retriedDb second_claim
  have hsecond := (run_not_overtaking (t := true) hclaimed (by simp) hnone).1
  have hfailed := hsecond.trans (run_not_overtaking (t := false)
    (run_complete (t := false) (c := firstReport) _ _ _ rfl get?_secondDb rfl outcome_secondDb) (by simp) hnone).1
  have hthird := hfailed.trans (run_not_overtaking (t := false)
    (run_claimNextStep (t := false) _ _ _ rfl nextClaim_secondFailed third_claim) (by simp) hnone).1
  exact ⟨_, _, hthird, rfl,
    (claims_exclusive_of_orderly (created_createdFrom [retriedStep] rfl) firstAttempt).2.1 _ _ hthird⟩

/-- The report is sent again before agent A reads its claim back, and both agents get the third
attempt. -/
theorem late_read_back_repeats_attempt :
    Created retriedRun ∧ ∃ (ts : List Bool) (w : Shared Bool × (Bool → Tx)),
      Run (Interleave TxStep) (atRest Bool (firstAttempt.foldl exec retriedRun)) ts w ∧
      w.1.returned.map (fun x => (x.grant.request.agentId, x.row.attempt)) = [("agent-a", 3), ("agent-b", 3)] ∧
      ¬ w.1.Exclusive := by
  have hsecond := run_claim (t := true) [] [] (fun _ => .idle) 3 rfl nextClaim_retriedDb
  have hfailed := hsecond.trans (run_complete (t := false) (c := firstReport) _ _ _ rfl get?_secondDb rfl outcome_secondDb)
  have hthird := hfailed.trans (run_claim (t := false) _ _ _ 5 rfl nextClaim_secondFailed)
  have hmem : thirdRow ∈ thirdDb.steps.rows := List.mem_cons_self
  have hanswer := hthird.snoc (Interleave.of_step (t := true) (TxStep.readBack (r := thirdRow) hmem rfl) rfl)
  have hboth := hanswer.snoc (Interleave.of_step (t := false) (TxStep.readBack (r := thirdRow) hmem rfl) rfl)
  refine ⟨created_createdFrom [retriedStep] rfl, _, _, hboth, rfl, fun hexclusive => ?_⟩
  exact (List.pairwise_cons.mp hexclusive).1 _ List.mem_cons_self ⟨rfl, rfl⟩

end ProxmoxVEAutopilot.TsEngine
