import ProxmoxVEAutopilot.Foundation.Runs
import ProxmoxVEAutopilot.Lifecycle.Observe

/-!
# Observers at the same time

Each observation is a transaction of its own: it reads the row without a lock and commits
its writes later. A flag that another observer stored in between is written over.
-/

namespace ProxmoxVEAutopilot.Lifecycle

open Foundation
set_option autoImplicit false

/-- An open transaction: what it observes, the row that it read, and how many observations had
been committed by then. -/
structure Reading where
  observation : Observation
  existing : Option Current
  after : Nat

/-- The tables, what was committed to them, and the open transactions. -/
structure Observers (τ : Type) where
  db : LifecycleDb := {}
  committed : List Observation := []
  reading : τ → Option Reading := fun _ => none

inductive ObserverAction where
  | read (o : Observation)
  | write

/-- What the transaction could read of its machine. -/
def Reading.seen (r : Reading) (committed : List Observation) : List Observation :=
  ofKey r.observation.identityKey (committed.take r.after)

/-- What others have committed of its machine since it read. -/
def Reading.missed (r : Reading) (committed : List Observation) : List Observation :=
  ofKey r.observation.identityKey (committed.drop r.after)

section Observers
variable {τ : Type} [DecidableEq τ]

def Observers.act (w : Observers τ) (t : τ) (a : ObserverAction) : Option (Observers τ) :=
  match w.reading t, a with
  | none, .read o =>
    some { w with reading := Function.update w.reading t (some ⟨o, w.db.current o.identityKey, w.committed.length⟩) }
  | some r, .write =>
    some { db := record r.existing r.observation w.db
           committed := w.committed ++ [r.observation]
           reading := Function.update w.reading t none }
  | _, _ => none

omit [DecidableEq τ] in
/-- Each row has the flags of the committed observations of its machine, and their state. -/
def EvidenceKept (w : Observers τ) : Prop :=
  ∀ key, ofKey key w.committed ≠ [] → ∃ row, w.db.current key = some row ∧
    row.flags = reported (ofKey key w.committed) ∧
    (row.flags.any = true → ∀ explicitWorkgroup, row.state = stateFromEvidence row.flags explicitWorkgroup)

omit [DecidableEq τ] in
/-- Every observation of the machine that the transaction missed reports only flags that the
transaction reports too, or that an observation it could read had reported. -/
def NothingNewer (w : Observers τ) (t : τ) : Prop :=
  ∀ r, w.reading t = some r → ∀ o ∈ r.missed w.committed,
    o.flags.Le (r.observation.flags.or (reported (r.seen w.committed)))

/-- A step that writes over no news. -/
def CarefulStep (w : Observers τ) (x : τ × ObserverAction) (w' : Observers τ) : Prop :=
  w.act x.1 x.2 = some w' ∧ (x.2 = .write → NothingNewer w x.1)

/-- The row that was read is that of the observations committed by then. -/
structure Reading.Faithful (r : Reading) (committed : List Observation) : Prop where
  after : r.after ≤ committed.length
  absent : r.existing = none → r.seen committed = []
  flags : ∀ row, r.existing = some row → r.seen committed ≠ [] ∧ row.flags = reported (r.seen committed)

structure InStep (w : Observers τ) : Prop where
  merged : Merged w.committed w.db
  faithful : ∀ t r, w.reading t = some r → r.Faithful w.committed

variable {w w' : Observers τ} {t : τ} {r : Reading}

theorem Flags.le_or_left (a b : Flags) : a.Le (a.or b) := by
  unfold Flags.Le
  rw [← Flags.or_assoc, Flags.or_self]

theorem Flags.Le.trans {a b c : Flags} (hab : a.Le b) (hbc : b.Le c) : a.Le c := by
  unfold Flags.Le at *
  rw [← hbc, ← Flags.or_assoc, hab]

theorem Flags.or_le {a b c : Flags} (ha : a.Le c) (hb : b.Le c) : (a.or b).Le c := by
  unfold Flags.Le at *
  rw [Flags.or_assoc, hb, ha]

theorem reported_append (os os' : List Observation) :
    reported (os ++ os') = (reported os).or (reported os') := by
  simp [reported, Flags.or]

theorem reported_le {os : List Observation} {flags : Flags} (h : ∀ o ∈ os, o.flags.Le flags) :
    (reported os).Le flags := by
  induction os with
  | nil => simp [Flags.Le, Flags.or, reported]
  | cons o os ih =>
    have hcons : reported (o :: os) = o.flags.or (reported os) := by simp [reported, Flags.or]
    rw [hcons]
    exact Flags.or_le (h o List.mem_cons_self) (ih fun o' ho' => h o' (List.mem_cons_of_mem _ ho'))

theorem flags_le_reported {os : List Observation} {o : Observation} (h : o ∈ os) : o.flags.Le (reported os) := by
  obtain ⟨before, after, rfl⟩ := List.append_of_mem h
  have hsplit : reported (before ++ o :: after) = o.flags.or (reported (before ++ after)) := by
    rw [← reported_snoc]
    exact reported_congr fun o' => by simp [or_left_comm, or_comm]
  rw [hsplit]
  exact Flags.le_or_left _ _

namespace Reading

theorem seen_append_missed (r : Reading) (committed : List Observation) :
    r.seen committed ++ r.missed committed = ofKey r.observation.identityKey committed := by
  unfold seen missed ofKey
  rw [← List.filter_append, List.take_append_drop]

theorem Faithful.snoc {committed : List Observation} (h : r.Faithful committed) (o : Observation) :
    r.Faithful (committed ++ [o]) := by
  have hseen : r.seen (committed ++ [o]) = r.seen committed := by
    unfold seen
    rw [List.take_append_of_le_length h.after]
  refine ⟨h.after.trans (by simp), ?_, ?_⟩
  · rw [hseen]
    exact h.absent
  · rw [hseen]
    exact h.flags

theorem Faithful.merged {committed : List Observation} (h : r.Faithful committed) :
    r.observation.merged r.existing = r.observation.flags.or (reported (r.seen committed)) := by
  cases hrow : r.existing with
  | none =>
    rw [h.absent hrow]
    simp [Observation.merged, Flags.or]
  | some row =>
    rw [← (h.flags row hrow).2]
    rfl

end Reading

theorem InStep.read (h : InStep w) (o : Observation) :
    InStep { w with
      reading := Function.update w.reading t (some ⟨o, w.db.current o.identityKey, w.committed.length⟩) } := by
  refine ⟨h.merged, fun u r hu => ?_⟩
  by_cases hut : u = t
  · subst hut
    simp only [Function.update_self, Option.some.injEq] at hu
    subst hu
    have hseen : Reading.seen ⟨o, w.db.current o.identityKey, w.committed.length⟩ w.committed =
        ofKey o.identityKey w.committed := by
      simp [Reading.seen]
    refine ⟨Nat.le_refl _, fun hnone => ?_, fun row hrow => ?_⟩
    · rw [hseen]
      exact (h.merged.absent _).mp hnone
    · rw [hseen]
      refine ⟨fun hempty => ?_, h.merged.flags _ row hrow⟩
      have hnone := (h.merged.absent _).mpr hempty
      rw [show w.db.current o.identityKey = some row from hrow] at hnone
      cases hnone
  · simp only [Function.update_of_ne hut] at hu
    exact h.faithful u r hu

theorem InStep.write (h : InStep w) (hreading : w.reading t = some r) (hnewer : NothingNewer w t) :
    InStep { db := record r.existing r.observation w.db
             committed := w.committed ++ [r.observation]
             reading := Function.update w.reading t none } := by
  have hfaithful := h.faithful t r hreading
  have hall := r.seen_append_missed w.committed
  refine ⟨h.merged.record ?_ ?_, ?_⟩
  · intro row hrow
    obtain ⟨hsome, hflags⟩ := hfaithful.flags row hrow
    cases hnow : w.db.current r.observation.identityKey with
    | none =>
      rw [(h.merged.absent _).mp hnow] at hall
      exact absurd (List.append_eq_nil_iff.mp hall).1 hsome
    | some now =>
      refine ⟨now, rfl, ?_⟩
      rw [h.merged.flags _ now hnow, ← hall, reported_append, hflags]
      exact Flags.le_or_left _ _
  · intro now hnow
    rw [h.merged.flags _ now hnow, ← hall, reported_append, hfaithful.merged]
    refine Flags.or_le ?_ (reported_le (hnewer r hreading))
    rw [Flags.or_comm]
    exact Flags.le_or_left _ _
  · intro u r' hu
    have hut : u ≠ t := by
      intro heq
      subst heq
      simp at hu
    simp only [Function.update_of_ne hut] at hu
    exact (h.faithful u r' hu).snoc _

theorem act_cases {a : ObserverAction} (h : w.act t a = some w') :
    (∃ o, a = .read o ∧ w' = { w with
        reading := Function.update w.reading t (some ⟨o, w.db.current o.identityKey, w.committed.length⟩) }) ∨
      ∃ r, a = .write ∧ w.reading t = some r ∧
        w' = { db := record r.existing r.observation w.db
               committed := w.committed ++ [r.observation]
               reading := Function.update w.reading t none } := by
  unfold Observers.act at h
  split at h
  · rename_i o _
    exact .inl ⟨o, rfl, (Option.some.inj h).symm⟩
  · rename_i r hreading
    exact .inr ⟨r, rfl, hreading, (Option.some.inj h).symm⟩
  · cases h

theorem InStep.step {x : τ × ObserverAction} (h : InStep w) (hstep : CarefulStep w x w') : InStep w' := by
  obtain ⟨hact, hnewer⟩ := hstep
  rcases act_cases hact with ⟨o, _, hw⟩ | ⟨r, hwrite, hreading, hw⟩
  · rw [hw]
    exact h.read o
  · rw [hw]
    exact h.write hreading (hnewer hwrite)

omit [DecidableEq τ] in
theorem InStep.kept (h : InStep w) : EvidenceKept w := by
  intro key hsome
  cases hrow : w.db.current key with
  | none => exact absurd ((h.merged.absent key).mp hrow) hsome
  | some row =>
    refine ⟨row, rfl, h.merged.flags key row hrow, ?_⟩
    intro hany explicitWorkgroup
    rw [h.merged.state key row hrow hany]
    exact stateFromEvidence_of_any hany _ _

omit [DecidableEq τ] in
theorem inStep_empty : InStep ({} : Observers τ) :=
  ⟨merged_empty, fun _ _ hreading => (by cases hreading)⟩

theorem run_inStep {xs : List (τ × ObserverAction)} (hrun : Run CarefulStep {} xs w) : InStep w :=
  hrun.invariant (fun _ _ _ hw hstep => hw.step hstep) inStep_empty

/-- A write that keeps the evidence has missed nothing new. -/
theorem InStep.nothingNewer (h : InStep w) (hact : w.act t .write = some w') (hkept : EvidenceKept w') :
    NothingNewer w t := by
  intro r hreading o ho
  rcases act_cases hact with ⟨_, hread, _⟩ | ⟨r', _, hreading', hw⟩
  · cases hread
  · obtain rfl : r = r' := Option.some.inj (hreading.symm.trans hreading')
    subst hw
    have hkey : ofKey r.observation.identityKey (w.committed ++ [r.observation]) = _ := ofKey_snoc_self rfl
    obtain ⟨row, hrow, hflags, _⟩ := hkept r.observation.identityKey (by simp [hkey])
    rw [record_current_self rfl] at hrow
    cases hrow
    rw [hkey, reported_snoc] at hflags
    have hmerged := (h.faithful t r hreading).merged
    have hle : o.flags.Le (reported (ofKey r.observation.identityKey w.committed)) := by
      rw [← r.seen_append_missed]
      exact flags_le_reported (List.mem_append_right _ ho)
    rw [← hmerged, show r.observation.merged r.existing = _ from hflags, Flags.or_comm]
    exact hle.trans (Flags.le_or_left _ _)

/-- In every interleaving in which no write has missed news, no evidence is lost in any state
reached; and the first write that has missed some loses it. -/
theorem evidence_kept_of_careful :
    (∀ (xs : List (τ × ObserverAction)) (w : Observers τ), Run CarefulStep {} xs w → EvidenceKept w) ∧
    ∀ (xs : List (τ × ObserverAction)) (w w' : Observers τ) (t : τ), Run CarefulStep {} xs w →
      w.act t .write = some w' → (EvidenceKept w' ↔ NothingNewer w t) := by
  refine ⟨fun xs w hrun => (run_inStep hrun).kept, fun xs w w' t hrun hact => ?_⟩
  exact ⟨(run_inStep hrun).nothingNewer hact,
    fun hnewer => ((run_inStep hrun).step (x := (t, .write)) ⟨hact, fun _ => hnewer⟩).kept⟩

/-- An observation with nothing in between is careful, and is `observe`. -/
theorem run_observe (w : Observers τ) (hidle : w.reading t = none) (o : Observation) :
    Run CarefulStep w [(t, .read o), (t, .write)]
      { w with db := observe w.db o, committed := w.committed ++ [o] } := by
  have hread : CarefulStep w (t, .read o)
      { w with
        reading := Function.update w.reading t (some ⟨o, w.db.current o.identityKey, w.committed.length⟩) } := by
    refine ⟨?_, fun h => by cases h⟩
    simp [Observers.act, hidle]
  have hwrite : CarefulStep
      { w with
        reading := Function.update w.reading t (some ⟨o, w.db.current o.identityKey, w.committed.length⟩) }
      (t, .write) { w with db := observe w.db o, committed := w.committed ++ [o] } := by
    constructor
    · have hreading : Function.update w.reading t none = w.reading := by
        rw [← hidle]
        exact Function.update_eq_self t w.reading
      simp [Observers.act, observe, hreading]
    · intro _ r hreading o' ho'
      simp only [Function.update_self, Option.some.injEq] at hreading
      subst hreading
      simp [Reading.missed, ofKey] at ho'
  exact (Run.single hread).snoc hwrite

end Observers

def entraReport : Observation :=
  observeFromAgentHeartbeat "agent-pc1" 1 { serialNumber := some "PC-1" } none (some true) .null

def registration : Observation :=
  (observeAutopilotRegistration 2 (some 101) (some "PC-1") (some "PC1") true (.obj [("serial", .str "PC-1")])).get rfl

theorem one_after_the_other_keeps_both :
    ∃ w : Observers Nat, Run CarefulStep {}
        [(0, .read entraReport), (0, .write), (1, .read registration), (1, .write)] w ∧
      (w.db.current "serial:pc1").map Current.flags = some { autopilotRegistered := true, entraJoined := true } ∧
      EvidenceKept w := by
  have hrun := (run_observe (t := (0 : Nat)) {} rfl entraReport).trans (run_observe (t := 1) _ rfl registration)
  exact ⟨_, hrun, by decide +kernel, evidence_kept_of_careful.1 _ _ hrun⟩

def overlapping : List (Nat × ObserverAction) :=
  [(0, .read entraReport), (1, .read registration), (0, .write), (1, .write)]

def overlapped : Observers Nat :=
  (overlapping.foldlM (fun w x => Observers.act w x.1 x.2) {}).get rfl

theorem overlapping_observers_lose_a_flag :
    ¬ ∀ (w : Observers Nat) (xs : List (Nat × ObserverAction)),
      Run (fun w x w' => Observers.act w x.1 x.2 = some w') {} xs w → (∀ t, w.reading t = none) →
      EvidenceKept w := by
  intro h
  have hrun : Run (fun w x w' => Observers.act w x.1 x.2 = some w') {} overlapping overlapped :=
    Run.of_foldlM (Option.some_get _).symm
  have hidle : ∀ t, overlapped.reading t = none
    | 0 | 1 | _ + 2 => rfl
  obtain ⟨row, hrow, hflags, _⟩ := h overlapped overlapping hrun hidle "serial:pc1" (by decide +kernel)
  have hstored : (overlapped.db.current "serial:pc1").map Current.flags = some { autopilotRegistered := true } := by
    decide +kernel
  have hreported : reported (ofKey "serial:pc1" overlapped.committed) =
      { autopilotRegistered := true, entraJoined := true } := by
    decide +kernel
  rw [hrow, Option.map_some, hflags, hreported] at hstored
  cases hstored

end ProxmoxVEAutopilot.Lifecycle
