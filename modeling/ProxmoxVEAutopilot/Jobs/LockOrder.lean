import ProxmoxVEAutopilot.Jobs.Caps

/-!
# The order of the advisory locks

A claim takes the locks of its candidate types in the order of its own snapshot and keeps
those of the full types. Two snapshots can order two types differently, and then two
claims can wait for each other. They cannot when the snapshots of all claims in progress
fit one ranking of the locks.
-/

namespace ProxmoxVEAutopilot.Jobs

open Foundation
set_option autoImplicit false

section Order
variable (hashtext : String → Int)

/-- Every key that is new at its place ranks above the keys before it. -/
def Ascending (rank : Int → Nat) : List Int → List Int → Prop
  | _, [] => True
  | seen, k :: rest => (k ∈ seen ∨ ∀ h ∈ seen, rank h < rank k) ∧ Ascending rank (seen ++ [k]) rest

theorem Ascending.lt {rank : Int → Nat} {before : List Int} {k : Int} {after : List Int} :
    ∀ {seen : List Int}, Ascending rank seen (before ++ k :: after) → k ∉ seen ++ before →
      ∀ h ∈ seen ++ before, rank h < rank k := by
  induction before with
  | nil =>
    intro seen hasc hk h hh
    rw [List.append_nil] at hk hh
    rcases hasc.1 with hmem | hlt
    · exact absurd hmem hk
    · exact hlt h hh
  | cons b before ih =>
    intro seen hasc hk h hh
    have heq : seen ++ b :: before = (seen ++ [b]) ++ before := by simp
    rw [heq] at hk hh
    exact ih hasc.2 hk h hh

/-- The keys a claim has taken or is still to take, in the order of its snapshot. -/
def Pc.order : Pc → List Int
  | .idle => []
  | .scanning _ _ tried rest => (tried ++ rest).map hashtext
  | .locked c | .capRead c _ | .underCap c _ | .picked c _ _ | .updated c _ _ =>
    (c.tried ++ c.jobType :: c.rest).map hashtext

def Pc.taken : Pc → List Int
  | .idle => []
  | .scanning _ _ tried _ => tried.map hashtext
  | .locked c | .capRead c _ | .underCap c _ | .picked c _ _ | .updated c _ _ =>
    (c.tried ++ [c.jobType]).map hashtext

def Pc.asks? : Pc → Option Int
  | .scanning _ _ _ (jobType :: _) => some (hashtext jobType)
  | _ => none

theorem Pc.order_of_asks {pc : Pc} {k : Int} (h : pc.asks? hashtext = some k) :
    ∃ after, pc.order hashtext = pc.taken hashtext ++ k :: after := by
  cases pc with
  | scanning workerId now tried rest =>
    cases rest with
    | nil => cases h
    | cons jobType rest =>
      cases h
      exact ⟨rest.map hashtext, by simp [Pc.order, Pc.taken]⟩
  | _ => cases h

variable {τ : Type}

def Waits (w : Queue τ × (τ → Pc)) (t u : τ) : Prop :=
  ∃ k, (w.2 t).asks? hashtext = some k ∧ w.1.advisory k = some u ∧ u ≠ t

/-- Claims that wait for each other, directly or around a longer cycle. -/
def Deadlocked (w : Queue τ × (τ → Pc)) : Prop := ∃ t, Relation.TransGen (Waits hashtext w) t t

/-- A claim holds the locks it has taken. -/
def HoldsTaken (q : Queue τ) (t : τ) (pc : Pc) : Prop :=
  ∀ k, q.advisory k = some t ↔ k ∈ pc.taken hashtext

/-- The claims in progress fit one ranking of the locks. -/
def Ranked (w : Queue τ × (τ → Pc)) : Prop :=
  ∃ rank : Int → Nat, ∀ t, Ascending rank [] ((w.2 t).order hashtext)

variable {hashtext} {w : Queue τ × (τ → Pc)}

theorem not_deadlocked_of_ranked (hheld : ∀ t, HoldsTaken hashtext w.1 t (w.2 t))
    (hrank : Ranked hashtext w) : ¬ Deadlocked hashtext w := by
  obtain ⟨rank, hasc⟩ := hrank
  intro ⟨t, hcycle⟩
  refine not_transGen_self_of_rank (fun t => rank (((w.2 t).asks? hashtext).getD 0)) ?_ t hcycle
  intro t u v ⟨k, hasks, hk, _⟩ ⟨k', hasks', hk', hne⟩
  simp only [hasks, hasks', Option.getD_some]
  obtain ⟨after, horder⟩ := Pc.order_of_asks hashtext hasks'
  have hu := hasc u
  rw [horder] at hu
  apply hu.lt
  · intro hmem
    rw [List.nil_append] at hmem
    have hself := (hheld u k').mpr hmem
    rw [hk'] at hself
    exact hne (Option.some.inj hself)
  · rw [List.nil_append]
    exact (hheld u k).mp hk

end Order

section Steps
variable {τ : Type} [DecidableEq τ] {hashtext : String → Int} {q q' : Queue τ} {t : τ} {pc pc' : Pc}

def OthersHold (q : Queue τ) (t : τ) (q' : Queue τ) : Prop :=
  ∀ k u, u ≠ t → (q'.advisory k = some u ↔ q.advisory k = some u)

theorem othersHold_release (q : Queue τ) (t : τ) : OthersHold q t (q.release t) := by
  intro k u hne
  simp only [Queue.release, Locks.release_eq_some]
  exact ⟨fun h => h.1, fun h => ⟨h, hne⟩⟩

theorem holdsTaken_release (q : Queue τ) (t : τ) : HoldsTaken hashtext (q.release t) t .idle := by
  intro k
  simp [Queue.release, Locks.release_eq_some, Pc.taken]

theorem statement_locks {busy : List JobId} (h : q.statement hashtext t busy pc = some (q', pc'))
    (hl : HoldsTaken hashtext q t pc) : HoldsTaken hashtext q' t pc' ∧ OthersHold q t q' := by
  have hsame : OthersHold q t q := fun _ _ _ => Iff.rfl
  cases pc with
  | idle => cases h
  | scanning workerId now tried rest =>
    cases rest with
    | nil =>
      cases h
      exact ⟨holdsTaken_release q t, othersHold_release q t⟩
    | cons jobType rest =>
      simp only [Queue.statement] at h
      split at h
      · rename_i havailable
        cases h
        constructor
        · intro k
          have hk := hl k
          simp only [Pc.taken, List.map_append, List.map_cons, List.map_nil, List.mem_append,
            List.mem_singleton] at hk ⊢
          rw [Locks.acquire_eq_some havailable, hk]
          tauto
        · intro k u hne
          simp only [Locks.acquire_eq_some havailable]
          exact or_iff_right fun h => hne h.2
      · cases h
  | locked c =>
    cases h
    exact ⟨hl, hsame⟩
  | capRead c cap =>
    simp only [Queue.statement] at h
    split at h <;> cases h <;> exact ⟨hl, hsame⟩
  | underCap c cap =>
    simp only [Queue.statement] at h
    split at h <;> cases h <;> exact ⟨hl, hsame⟩
  | picked c cap job =>
    simp only [Queue.statement] at h
    split at h <;> cases h <;> exact ⟨hl, hsame⟩
  | updated c cap job =>
    cases h
    exact ⟨holdsTaken_release q t, othersHold_release q t⟩

omit [DecidableEq τ] in
theorem call_advisory {c : Call} (h : q.call c = some q') : q'.advisory = q.advisory := by
  obtain ⟨⟨jobs, limits, rfl⟩, _⟩ := call_cases h
  rfl

theorem act_locks (h : Act hashtext q t pc q' pc') (hl : HoldsTaken hashtext q t pc) :
    HoldsTaken hashtext q' t pc' ∧ OthersHold q t q' := by
  obtain ⟨a, h⟩ := h
  cases a with
  | statement busy =>
    have h' : q.statement hashtext t busy pc = some (q', pc') := by cases pc <;> exact h
    exact statement_locks h' hl
  | abort =>
    have h' : (q.release t, Pc.idle) = (q', pc') := by cases pc <;> exact Option.some.inj h
    cases h'
    exact ⟨holdsTaken_release q t, othersHold_release q t⟩
  | claimNextJob workerId now =>
    cases pc with
    | idle =>
      cases h
      exact ⟨hl, fun _ _ _ => Iff.rfl⟩
    | _ => cases h
  | call c =>
    cases pc with
    | idle =>
      obtain ⟨q'', hcall, heq⟩ := Option.map_eq_some_iff.mp h
      cases heq
      have hadvisory := call_advisory hcall
      refine ⟨?_, ?_⟩
      · intro k
        rw [hadvisory]
        exact hl k
      · intro k u _
        rw [hadvisory]
    | _ => cases h

theorem statement_order {busy : List JobId} (h : q.statement hashtext t busy pc = some (q', pc')) :
    pc' = .idle ∨ pc'.order hashtext = pc.order hashtext := by
  cases pc with
  | idle => cases h
  | scanning workerId now tried rest =>
    cases rest with
    | nil =>
      cases h
      exact .inl rfl
    | cons jobType rest =>
      simp only [Queue.statement] at h
      split at h
      · cases h
        exact .inr rfl
      · cases h
  | locked c =>
    cases h
    exact .inr rfl
  | capRead c cap | underCap c cap | picked c cap job =>
    simp only [Queue.statement] at h
    split at h <;> cases h <;> simp [Scan.next, Pc.order]
  | updated c cap job =>
    cases h
    exact .inl rfl

theorem act_order (h : Act hashtext q t pc q' pc') :
    pc' = .idle ∨ pc'.order hashtext = pc.order hashtext ∨
      pc = .idle ∧ pc'.order hashtext = (candidateTypes q.jobs).map hashtext := by
  obtain ⟨a, h⟩ := h
  cases a with
  | statement busy =>
    have h' : q.statement hashtext t busy pc = some (q', pc') := by cases pc <;> exact h
    rcases statement_order h' with hidle | horder
    · exact .inl hidle
    · exact .inr (.inl horder)
  | abort =>
    have h' : (q.release t, Pc.idle) = (q', pc') := by cases pc <;> exact Option.some.inj h
    cases h'
    exact .inl rfl
  | claimNextJob workerId now =>
    cases pc with
    | idle =>
      cases h
      exact .inr (.inr ⟨rfl, by simp [Pc.order]⟩)
    | _ => cases h
  | call c =>
    cases pc with
    | idle =>
      obtain ⟨q'', _, heq⟩ := Option.map_eq_some_iff.mp h
      cases heq
      exact .inl rfl
    | _ => cases h

end Steps

section Runs
variable {τ : Type} [DecidableEq τ] (hashtext : String → Int) {w w' : Queue τ × (τ → Pc)} {ts : List τ}

/-- The snapshot `t` would take now fits one ranking of the locks with the snapshots of the
claims in progress. -/
def SnapshotAgrees (w : Queue τ × (τ → Pc)) (t : τ) : Prop :=
  ∃ rank : Int → Nat, Ascending rank [] ((candidateTypes w.1.jobs).map hashtext) ∧
    ∀ u, u ≠ t → Ascending rank [] ((w.2 u).order hashtext)

/-- A step that takes no snapshot, or one that agrees. -/
def AgreeingStep (w : Queue τ × (τ → Pc)) (t : τ) (w' : Queue τ × (τ → Pc)) : Prop :=
  Interleave (Act hashtext) w t w' ∧ (w.2 t = .idle → w'.2 t ≠ .idle → SnapshotAgrees hashtext w t)

variable {hashtext}

omit [DecidableEq τ] in
theorem Quiet.holdsTaken (h : Quiet w) (t : τ) : HoldsTaken hashtext w.1 t (w.2 t) := by
  intro k
  rw [h.noLocks k, h.idle t]
  simp [Pc.taken]

theorem run_holdsTaken (hl : ∀ t, HoldsTaken hashtext w.1 t (w.2 t))
    (hrun : Run (Interleave (Act hashtext)) w ts w') (t : τ) : HoldsTaken hashtext w'.1 t (w'.2 t) := by
  refine (Run.interleaving OthersHold (fun _ => True) (HoldsTaken hashtext) ?_ ?_ hrun trivial hl).2 t
  · intro q t pc q' pc' _ hl hact
    obtain ⟨hheld, hothers⟩ := act_locks hact hl
    exact ⟨trivial, hheld, hothers⟩
  · intro q t q' u pc _ hne hothers hl k
    rw [hothers k u hne]
    exact hl k

omit [DecidableEq τ] in
theorem Quiet.ranked (h : Quiet w) : Ranked hashtext w := by
  refine ⟨fun _ => 0, fun t => ?_⟩
  rw [h.idle t]
  trivial

theorem ranked_step {t : τ} (hstep : AgreeingStep hashtext w t w') (hw : Ranked hashtext w) :
    Ranked hashtext w' := by
  obtain ⟨⟨q', pc', hact, rfl⟩, hagree⟩ := hstep
  simp only [Function.update_self] at hagree
  -- One ranking for the other claims and for the order `t` has after the step.
  have hnew : ∃ rank : Int → Nat, Ascending rank [] (pc'.order hashtext) ∧
      ∀ u, u ≠ t → Ascending rank [] ((w.2 u).order hashtext) := by
    obtain ⟨rank, hasc⟩ := hw
    by_cases hpc' : pc' = .idle
    · rw [hpc']
      exact ⟨rank, trivial, fun u _ => hasc u⟩
    · rcases act_order hact with hend | hsame | ⟨hpc, horder⟩
      · exact absurd hend hpc'
      · rw [hsame]
        exact ⟨rank, hasc t, fun u _ => hasc u⟩
      · rw [horder]
        exact hagree hpc hpc'
  obtain ⟨rank, hown, hothers⟩ := hnew
  refine ⟨rank, fun u => ?_⟩
  by_cases hu : u = t
  · subst hu
    simpa using hown
  · simpa [Function.update_of_ne hu] using hothers u hu

/-- In every run whose snapshots agree with the claims in progress, no state is deadlocked. -/
theorem no_deadlock_of_agreeing_snapshots (hw : Quiet w) (hrun : Run (AgreeingStep hashtext) w ts w') :
    ¬ Deadlocked hashtext w' := by
  have hplain : Run (Interleave (Act hashtext)) w ts w' := hrun.mono fun _ _ _ h => h.1
  have hranked : Ranked hashtext w' :=
    hrun.invariant (fun _ _ _ hr hstep => ranked_step hstep hr) hw.ranked
  exact not_deadlocked_of_ranked (run_holdsTaken hw.holdsTaken hplain) hranked

end Runs

def bothScanning : Queue Nat × (Nat → Pc) :=
  (twoBuilds.1, Function.update (Function.update twoBuilds.2
    0 (.scanning "builder-0" 2 [] ["build_template"])) 1 (.scanning "builder-1" 2 [] ["build_template"]))

theorem one_type_never_deadlocks :
    ∃ w' : Queue Nat × (Nat → Pc), Run (AgreeingStep hashByLength) twoBuilds [0, 1, 0] w' ∧
      Waits hashByLength w' 1 0 ∧ ¬ Deadlocked hashByLength w' := by
  have hquiet : Quiet twoBuilds := by
    constructor <;> simp [twoBuilds]
  have htypes : candidateTypes twoBuilds.1.jobs = ["build_template"] := by decide
  have hfirst : SnapshotAgrees hashByLength twoBuilds 0 := by
    refine ⟨fun _ => 0, ?_, fun u _ => trivial⟩
    simp [htypes, Ascending]
  have hsecond : SnapshotAgrees hashByLength (twoBuilds.1, Function.update twoBuilds.2
      0 (.scanning "builder-0" 2 [] ["build_template"])) 1 := by
    refine ⟨fun _ => 0, ?_, fun u _ => ?_⟩
    · simp [htypes, Ascending]
    · by_cases hu : u = 0
      · simp [hu, Pc.order, Ascending]
      · simp [hu, twoBuilds, Pc.order, Ascending]
  have h0 : AgreeingStep hashByLength twoBuilds 0 (twoBuilds.1, Function.update twoBuilds.2
      0 (.scanning "builder-0" 2 [] ["build_template"])) :=
    ⟨⟨_, _, ⟨.claimNextJob "builder-0" 2, rfl⟩, by rw [htypes]⟩, fun _ _ => hfirst⟩
  have h1 : AgreeingStep hashByLength (twoBuilds.1, Function.update twoBuilds.2
      0 (.scanning "builder-0" 2 [] ["build_template"])) 1 bothScanning :=
    ⟨⟨_, _, ⟨.claimNextJob "builder-1" 2, rfl⟩, by rw [htypes]; rfl⟩, fun _ _ => hsecond⟩
  have h2 : AgreeingStep hashByLength bothScanning 0
      ({ twoBuilds.1 with advisory := twoBuilds.1.advisory.acquire 14 0 }, Function.update bothScanning.2
        0 (.locked ⟨"builder-0", 2, [], "build_template", []⟩)) :=
    ⟨⟨_, _, ⟨.statement [], rfl⟩, rfl⟩, fun hidle => by cases hidle⟩
  have hrun := ((Run.single h0).trans (Run.single h1)).trans (Run.single h2)
  exact ⟨_, hrun, ⟨14, rfl, rfl, by decide⟩, no_deadlock_of_agreeing_snapshots hquiet hrun⟩

def twoFullTypes : Queue Nat × (Nat → Pc) :=
  ({ jobs :=
      [{ id := "iso-0", jobType := "cloudosd_build_iso", status := .running, createdAt := 0 },
        { id := "template-1", jobType := "build_template", createdAt := 1 },
        { id := "iso-2", jobType := "cloudosd_build_iso", createdAt := 2 },
        { id := "template-3", jobType := "build_template", createdAt := 3 }]
     limits := fun jobType => defaultLimits.lookup jobType
     advisory := fun _ => none
     rows := fun _ => none
     granted := [] }, fun _ => .idle)

/-- Worker 0 takes its snapshot before and worker 1 after worker 2 claims `template-1`; then
both find their first type full and go on to the other. -/
def crossedSnapshots : List (Nat × Action) :=
  [(0, .claimNextJob "builder-0" 4), (2, .claimNextJob "builder-2" 4), (2, .statement []),
    (2, .statement []), (2, .statement []), (2, .statement []), (2, .statement []),
    (2, .statement []), (1, .claimNextJob "builder-1" 5), (0, .statement []), (0, .statement []),
    (0, .statement []), (1, .statement []), (1, .statement []), (1, .statement [])]

theorem crossed_snapshots_deadlock :
    ¬ ∀ (hashtext : String → Int) (w w' : Queue Nat × (Nat → Pc)) (ts : List Nat), Quiet w →
      Run (Interleave (Act hashtext)) w ts w' → ¬ Deadlocked hashtext w' := by
  intro h
  have hquiet : Quiet twoFullTypes := by
    constructor <;> simp [twoFullTypes]
  have hsome : (replay hashByLength twoFullTypes crossedSnapshots).isSome = true := by decide
  have hrun := run_of_replay hashByLength (Option.some_get hsome).symm
  apply h hashByLength _ _ _ hquiet hrun
  have h01 : Waits hashByLength ((replay hashByLength twoFullTypes crossedSnapshots).get hsome) 0 1 :=
    ⟨18, rfl, rfl, by decide⟩
  have h10 : Waits hashByLength ((replay hashByLength twoFullTypes crossedSnapshots).get hsome) 1 0 :=
    ⟨14, rfl, rfl, by decide⟩
  exact ⟨0, .tail (.single h01) h10⟩

end ProxmoxVEAutopilot.Jobs
