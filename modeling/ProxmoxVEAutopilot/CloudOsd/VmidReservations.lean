import ProxmoxVEAutopilot.CloudOsd.Runs
import ProxmoxVEAutopilot.Foundation.Runs

/-!
# VMID reservations

A provision batch chooses the VMIDs of its runs under an advisory lock: it reads those of the
active runs, asks Proxmox for the others and commits one run after the other. A run keeps its
VMID from other batches until it is over.
-/

namespace ProxmoxVEAutopilot.CloudOsd.Vmids

open Foundation
set_option autoImplicit false

section Candidates

/-- The loop of `_cloudosd_candidate_vmids`; `fuel` bounds how far it goes. -/
def candidatesFrom : Nat → Nat → List Int → Int → List Int
  | 0, _, _, _ => []
  | _ + 1, 0, _, _ => []
  | fuel + 1, count + 1, used, candidate =>
    if candidate ∈ used then candidatesFrom fuel (count + 1) used (candidate + 1)
    else candidate :: candidatesFrom fuel count (candidate :: used) (candidate + 1)

/-- The VMIDs that are not to be had; a listing that fails names none. -/
def usedVmids (reserved : List Int) (listing : Option (List (Option Int))) : List Int :=
  match listing with
  | none => reserved
  | some vms => reserved ++ vms.filterMap id

/-- `_cloudosd_candidate_vmids`, `first` being the answer of `/cluster/nextid`. -/
def candidateVmids (count : Nat) (first : Int) (reserved : List Int) (listing : Option (List (Option Int))) :
    List Int :=
  let used := usedVmids reserved listing
  candidatesFrom (count + used.length) count used first

variable {fuel count : Nat} {used : List Int} {candidate : Int}

theorem length_filter_succ (used : List Int) (candidate : Int) :
    (used.filter (candidate + 1 ≤ ·)).length + used.count candidate = (used.filter (candidate ≤ ·)).length := by
  induction used with
  | nil => rfl
  | cons v used ih =>
    rcases Int.lt_trichotomy v candidate with hlt | heq | hgt
    · rw [List.filter_cons_of_neg (by simp; omega), List.filter_cons_of_neg (by simp; omega),
        List.count_cons_of_ne (by omega)]
      exact ih
    · subst heq
      rw [List.filter_cons_of_neg (by simp), List.filter_cons_of_pos (by simp), List.count_cons_self, List.length_cons]
      omega
    · rw [List.filter_cons_of_pos (by simp; omega), List.filter_cons_of_pos (by simp; omega),
        List.count_cons_of_ne (by omega), List.length_cons, List.length_cons]
      omega

/-- What the loop is for: the first ids from a candidate on that are not used. -/
structure Least (count : Nat) (used : List Int) (first : Int) (vmids : List Int) : Prop where
  length : vmids.length = count
  sorted : vmids.Pairwise (· < ·)
  free : ∀ v ∈ vmids, first ≤ v ∧ v ∉ used
  least : ∀ v, first ≤ v → v ∉ used → v ∈ vmids ∨ ∀ u ∈ vmids, u < v

theorem candidatesFrom_least (fuel : Nat) : ∀ {count : Nat} {used : List Int} {candidate : Int},
    count + (used.filter (candidate ≤ ·)).length ≤ fuel →
      Least count used candidate (candidatesFrom fuel count used candidate) := by
  induction fuel with
  | zero =>
    intro count used candidate hfuel
    have hcount : count = 0 := by omega
    subst hcount
    exact ⟨rfl, .nil, fun v hv => (by cases hv), fun v _ _ => .inr fun u hu => (by cases hu)⟩
  | succ fuel ih =>
    intro count used candidate hfuel
    cases count with
    | zero => exact ⟨rfl, .nil, fun v hv => (by cases hv), fun v _ _ => .inr fun u hu => (by cases hu)⟩
    | succ count =>
      have hsucc := length_filter_succ used candidate
      unfold candidatesFrom
      by_cases hused : candidate ∈ used
      · rw [if_pos hused]
        have hpos := List.count_pos_iff.mpr hused
        obtain ⟨hlength, hsorted, hfree, hleast⟩ := @ih (count + 1) used (candidate + 1) (by omega)
        refine ⟨hlength, hsorted, fun v hv => ?_, fun v hle hv => ?_⟩
        · obtain ⟨hle, hnot⟩ := hfree v hv
          exact ⟨by omega, hnot⟩
        · have hne : v ≠ candidate := fun heq => hv (heq ▸ hused)
          exact hleast v (by omega) hv
      · rw [if_neg hused]
        have hcons : ((candidate :: used).filter (candidate + 1 ≤ ·)).length = (used.filter (candidate + 1 ≤ ·)).length := by
          rw [List.filter_cons_of_neg (by simp)]
        obtain ⟨hlength, hsorted, hfree, hleast⟩ := @ih count (candidate :: used) (candidate + 1) (by omega)
        refine ⟨?_, ?_, fun v hv => ?_, fun v hle hv => ?_⟩
        · rw [List.length_cons, hlength]
        · refine List.pairwise_cons.mpr ⟨fun v hv => ?_, hsorted⟩
          have := (hfree v hv).1
          omega
        · rcases List.mem_cons.mp hv with rfl | hv
          · exact ⟨Int.le_refl _, hused⟩
          · obtain ⟨hle, hnot⟩ := hfree v hv
            exact ⟨by omega, fun hmem => hnot (List.mem_cons_of_mem _ hmem)⟩
        · by_cases heq : v = candidate
          · exact .inl (heq ▸ List.mem_cons_self)
          · have hnot : v ∉ candidate :: used := by
              intro hmem
              rcases List.mem_cons.mp hmem with hmem | hmem
              · exact heq hmem
              · exact hv hmem
            rcases hleast v (by omega) hnot with hmem | hlt
            · exact .inl (List.mem_cons_of_mem _ hmem)
            · refine .inr fun u hu => ?_
              rcases List.mem_cons.mp hu with rfl | hu
              · omega
              · exact hlt u hu

/-- The loop ends, with the least free VMIDs from the next id of the cluster on. -/
theorem candidateVmids_least (count : Nat) (first : Int) (reserved : List Int) (listing : Option (List (Option Int))) :
    Least count (usedVmids reserved listing) first (candidateVmids count first reserved listing) := by
  apply candidatesFrom_least
  have := List.length_filter_le (fun v => decide (first ≤ v)) (usedVmids reserved listing)
  omega

theorem mem_usedVmids {reserved : List Int} {v : Int} (listing : Option (List (Option Int))) (h : v ∈ reserved) :
    v ∈ usedVmids reserved listing := by
  unfold usedVmids
  cases listing with
  | none => exact h
  | some vms => exact List.mem_append.mpr (.inl h)

end Candidates

section Batches

/-- What a reservation is read from. -/
structure Row where
  state : CloudState
  requestedVmid : Option Int
deriving DecidableEq, Repr

/-- `state NOT IN (…)`. -/
def Row.active (row : Row) : Bool := decide (row.state.text ∉ ["complete", "failed", "cancelled", "canceled"])

def Row.takenUp (row : Row) (state : CloudState) : Bool := !row.active && { row with state := state }.active

def activeReservedVmids (rows : List Row) : List Int :=
  ((rows.filter Row.active).filterMap Row.requestedVmid).filter (· ≠ 0)

/-- Where `_start_cloudosd_provision_batch` stands; `creating` holds the VMIDs of the runs that
are not yet committed. -/
inductive Batch where
  | waiting (count : Nat)
  | locked (count : Nat)
  | reserving (count : Nat) (reserved : List Int)
  | creating (vmids : List Int)
  | ended
deriving DecidableEq, Repr

def Batch.holds : Batch → Bool
  | waiting _ | ended => false
  | _ => true

/-- `raised` are the runs that someone else made, or took up again after their end. -/
structure System where
  rows : List Row
  holder : Option Nat := none
  batches : Nat → Batch
  raised : List Nat := []

inductive Event where
  | lock (b : Nat)
  | readReserved (b : Nat)
  | choose (b : Nat) (first : Int) (listing : Option (List (Option Int)))
  | create (b : Nat)
  -- the `finally`, whatever the batch came to; also the end of its connection
  | unlock (b : Nat)
  -- `POST /runs`
  | createElsewhere (requestedVmid : Option Int)
  | move (run : Nat) (state : CloudState)
deriving DecidableEq, Repr

namespace System

def set (w : System) (b : Nat) (batch : Batch) : System := { w with batches := Function.update w.batches b batch }

def exec (w : System) : Event → System
  | .lock b =>
    match w.batches b, w.holder with
    | .waiting count, none => { w.set b (.locked count) with holder := some b }
    | _, _ => w
  | .readReserved b =>
    match w.batches b with
    | .locked count => w.set b (.reserving count (activeReservedVmids w.rows))
    | _ => w
  | .choose b first listing =>
    match w.batches b with
    | .reserving count reserved => w.set b (.creating (candidateVmids count first reserved listing))
    | _ => w
  | .create b =>
    match w.batches b with
    | .creating (v :: vmids) => { w.set b (.creating vmids) with rows := w.rows ++ [⟨.created, some v⟩] }
    | _ => w
  | .unlock b => { w.set b .ended with holder := if w.holder = some b then none else w.holder }
  | .createElsewhere requestedVmid =>
    { w with rows := w.rows ++ [⟨.created, requestedVmid⟩], raised := w.raised ++ [w.rows.length] }
  | .move i state =>
    { w with
      rows := w.rows.modify i fun row => { row with state := state }
      raised := if (w.rows[i]?).any (·.takenUp state) then w.raised ++ [i] else w.raised }

def start (rows : List Row) (count : Nat → Nat) : System := { rows := rows, batches := fun b => .waiting (count b) }

end System

variable {rows : List Row} {w : System} {b : Nat}

theorem mem_activeReservedVmids {i : Nat} {row : Row} (hrow : rows[i]? = some row) (hactive : row.active = true)
    {v : Int} (hv : row.requestedVmid = some v) (hne : v ≠ 0) : v ∈ activeReservedVmids rows := by
  unfold activeReservedVmids
  apply List.mem_filter.mpr
  refine ⟨List.mem_filterMap.mpr ⟨row, List.mem_filter.mpr ⟨List.mem_of_getElem? hrow, hactive⟩, hv⟩, ?_⟩
  simpa using hne

/-- An active run other than the `raised` ones that has the VMID. -/
def System.Taken (w : System) (v : Int) (i : Nat) : Prop :=
  i ∉ w.raised ∧ ∃ row, w.rows[i]? = some row ∧ row.active = true ∧ row.requestedVmid = some v

/-- Only the batch that holds the lock knows of reservations, and what it knows stays true. -/
structure Reserving (n : Nat) (w : System) : Prop where
  locked : ∀ b, (w.batches b).holds = true ↔ w.holder = some b
  read : ∀ b count reserved, w.batches b = .reserving count reserved →
    ∀ v i, v ≠ 0 → w.Taken v i → v ∈ reserved
  chosen : ∀ b vmids, w.batches b = .creating vmids → vmids.Nodup ∧ ∀ v ∈ vmids, v ≠ 0 → ∀ i, ¬ w.Taken v i
  apart : ∀ i j v, i < j → n ≤ j → v ≠ 0 → w.Taken v i → ¬ w.Taken v j

theorem Reserving.of_rows {n : Nat} (h : Reserving n w) {w' : System} {b : Nat} (hrows : w'.rows = w.rows)
    (hraised : w'.raised = w.raised) (hothers : ∀ c, c ≠ b → w'.batches c = w.batches c)
    (hlocked : ∀ c, (w'.batches c).holds = true ↔ w'.holder = some c)
    (hread : ∀ count reserved, w'.batches b = .reserving count reserved → ∀ v i, v ≠ 0 → w.Taken v i → v ∈ reserved)
    (hchosen : ∀ vmids, w'.batches b = .creating vmids →
      vmids.Nodup ∧ ∀ v ∈ vmids, v ≠ 0 → ∀ i, ¬ w.Taken v i) : Reserving n w' := by
  have htaken : ∀ v i, w'.Taken v i ↔ w.Taken v i := by
    intro v i
    unfold System.Taken
    rw [hrows, hraised]
  refine ⟨hlocked, fun c count reserved hc v i hne ht => ?_, fun c vmids hc => ?_, fun i j v hlt hle hne hi hj => ?_⟩
  · rw [htaken] at ht
    by_cases heq : c = b
    · rw [heq] at hc
      exact hread count reserved hc v i hne ht
    · rw [hothers c heq] at hc
      exact h.read c count reserved hc v i hne ht
  · by_cases heq : c = b
    · rw [heq] at hc
      obtain ⟨hnodup, hfree⟩ := hchosen vmids hc
      exact ⟨hnodup, fun v hv hne i ht => hfree v hv hne i ((htaken v i).mp ht)⟩
    · rw [hothers c heq] at hc
      obtain ⟨hnodup, hfree⟩ := h.chosen c vmids hc
      exact ⟨hnodup, fun v hv hne i ht => hfree v hv hne i ((htaken v i).mp ht)⟩
  · exact h.apart i j v hlt hle hne ((htaken v i).mp hi) ((htaken v j).mp hj)

theorem Reserving.of_taken {n : Nat} (h : Reserving n w) {w' : System} (hbatches : w'.batches = w.batches)
    (hholder : w'.holder = w.holder) (htaken : ∀ v i, w'.Taken v i → w.Taken v i) : Reserving n w' := by
  refine ⟨fun c => ?_, fun c count reserved hc v i hne ht => ?_, fun c vmids hc => ?_,
    fun i j v hlt hle hne hi hj => h.apart i j v hlt hle hne (htaken v i hi) (htaken v j hj)⟩
  · rw [hbatches, hholder]
    exact h.locked c
  · rw [hbatches] at hc
    exact h.read c count reserved hc v i hne (htaken v i ht)
  · rw [hbatches] at hc
    obtain ⟨hnodup, hfree⟩ := h.chosen c vmids hc
    exact ⟨hnodup, fun v hv hne i ht => hfree v hv hne i (htaken v i ht)⟩

@[simp] theorem System.set_batches_self (w : System) (b : Nat) (batch : Batch) :
    (w.set b batch).batches b = batch := Function.update_self _ _ _

theorem System.set_batches_ne (w : System) {b c : Nat} (hc : c ≠ b) (batch : Batch) :
    (w.set b batch).batches c = w.batches c := Function.update_of_ne hc _ _

section Steps
variable {n : Nat}

theorem Reserving.goes (h : Reserving n w) {batch : Batch} (hholds : (w.batches b).holds = true)
    (hbatch : batch.holds = true) (c : Nat) : ((w.set b batch).batches c).holds = true ↔ w.holder = some c := by
  by_cases hc : c = b
  · rw [hc, w.set_batches_self, ← h.locked b, hholds, hbatch]
  · rw [w.set_batches_ne hc]
    exact h.locked c

theorem Reserving.idle (h : Reserving n w) (hholds : (w.batches b).holds = true) {c : Nat} (hc : c ≠ b) :
    (w.batches c).holds = false := by
  by_contra hother
  have hholder := (h.locked c).mp (by simpa using hother)
  rw [(h.locked b).mp hholds] at hholder
  exact hc (Option.some.inj hholder).symm

theorem lock_reserving (h : Reserving n w) {count : Nat} (hholder : w.holder = none) :
    Reserving n { w.set b (.locked count) with holder := some b } := by
  refine h.of_rows rfl rfl (fun c hc => w.set_batches_ne hc _) (fun c => ?_) (fun _ _ heq => ?_) fun _ heq => ?_
  · change ((w.set b (.locked count)).batches c).holds = true ↔ some b = some c
    by_cases hc : c = b
    · rw [hc, w.set_batches_self]
      simp [Batch.holds]
    · rw [w.set_batches_ne hc, h.locked c, hholder]
      constructor
      · intro hnone
        cases hnone
      · intro hsome
        exact absurd (Option.some.inj hsome).symm hc
  · change (w.set b (.locked count)).batches b = _ at heq
    rw [w.set_batches_self] at heq
    cases heq
  · change (w.set b (.locked count)).batches b = _ at heq
    rw [w.set_batches_self] at heq
    cases heq

theorem readReserved_reserving (h : Reserving n w) {count : Nat} (hbatch : w.batches b = .locked count) :
    Reserving n (w.set b (.reserving count (activeReservedVmids w.rows))) := by
  refine h.of_rows rfl rfl (fun c hc => w.set_batches_ne hc _) (h.goes (by rw [hbatch]; rfl) rfl)
    (fun count' reserved heq v i hne ht => ?_) fun _ heq => ?_
  · rw [w.set_batches_self] at heq
    obtain ⟨_, row, hrow, hactive, hv⟩ := ht
    rw [← (Batch.reserving.inj heq).2]
    exact mem_activeReservedVmids hrow hactive hv hne
  · rw [w.set_batches_self] at heq
    cases heq

theorem choose_reserving (h : Reserving n w) {count : Nat} {reserved : List Int}
    (hbatch : w.batches b = .reserving count reserved) (first : Int) (listing : Option (List (Option Int))) :
    Reserving n (w.set b (.creating (candidateVmids count first reserved listing))) := by
  refine h.of_rows rfl rfl (fun c hc => w.set_batches_ne hc _) (h.goes (by rw [hbatch]; rfl) rfl)
    (fun _ _ heq => ?_) fun vmids heq => ?_
  · rw [w.set_batches_self] at heq
    cases heq
  · rw [w.set_batches_self] at heq
    have hleast := candidateVmids_least count first reserved listing
    rw [Batch.creating.inj heq] at hleast
    refine ⟨hleast.sorted.imp fun hlt => ne_of_lt hlt, fun v hv hne i ht => ?_⟩
    exact (hleast.free v hv).2 (mem_usedVmids listing (h.read b count reserved hbatch v i hne ht))

theorem taken_of_create {v u : Int} {vmids : List Int} {i : Nat}
    (ht : System.Taken { w.set b (.creating vmids) with rows := w.rows ++ [⟨.created, some v⟩] } u i) :
    w.Taken u i ∨ u = v ∧ i = w.rows.length := by
  obtain ⟨hraised, row, hrow, hactive, hu⟩ := ht
  change (w.rows ++ [⟨.created, some v⟩])[i]? = some row at hrow
  by_cases hi : i < w.rows.length
  · rw [List.getElem?_append_left hi] at hrow
    exact .inl ⟨hraised, row, hrow, hactive, hu⟩
  · rw [List.getElem?_append_right (Nat.le_of_not_lt hi), List.getElem?_singleton] at hrow
    split at hrow
    · cases hrow
      exact .inr ⟨(Option.some.inj hu).symm, by omega⟩
    · cases hrow

theorem create_reserving (h : Reserving n w) {v : Int} {vmids : List Int}
    (hbatch : w.batches b = .creating (v :: vmids)) :
    Reserving n { w.set b (.creating vmids) with rows := w.rows ++ [⟨.created, some v⟩] } := by
  have hholds : (w.batches b).holds = true := by
    rw [hbatch]
    rfl
  obtain ⟨hnodup, hfree⟩ := h.chosen b (v :: vmids) hbatch
  obtain ⟨hnew, hnodup⟩ := List.nodup_cons.mp hnodup
  refine ⟨h.goes hholds rfl, fun c count reserved hc => ?_, fun c vmids' hc => ?_, fun i j u hlt hle hne hi hj => ?_⟩
  · change (w.set b (.creating vmids)).batches c = _ at hc
    by_cases heq : c = b
    · rw [heq, w.set_batches_self] at hc
      cases hc
    · rw [w.set_batches_ne heq] at hc
      have hidle := h.idle hholds heq
      rw [hc] at hidle
      cases hidle
  · change (w.set b (.creating vmids)).batches c = _ at hc
    by_cases heq : c = b
    · rw [heq, w.set_batches_self] at hc
      rw [← Batch.creating.inj hc]
      refine ⟨hnodup, fun u hu hne i ht => ?_⟩
      rcases taken_of_create ht with ht | ⟨rfl, _⟩
      · exact hfree u (List.mem_cons_of_mem _ hu) hne i ht
      · exact hnew hu
    · rw [w.set_batches_ne heq] at hc
      have hidle := h.idle hholds heq
      rw [hc] at hidle
      cases hidle
  · rcases taken_of_create hi with hi' | ⟨_, hlength⟩
    · rcases taken_of_create hj with hj' | ⟨hu, _⟩
      · exact h.apart i j u hlt hle hne hi' hj'
      · exact hfree u (List.mem_cons.mpr (.inl hu)) hne i hi'
    · rcases taken_of_create hj with ⟨_, row, hrow, _⟩ | ⟨_, hlast⟩
      · have := (List.getElem?_eq_some_iff.mp hrow).1
        omega
      · omega

theorem unlock_reserving (h : Reserving n w) (b : Nat) :
    Reserving n { w.set b .ended with holder := if w.holder = some b then none else w.holder } := by
  refine h.of_rows rfl rfl (fun c hc => w.set_batches_ne hc _) (fun c => ?_) (fun _ _ heq => ?_) fun _ heq => ?_
  · change ((w.set b .ended).batches c).holds = true ↔ (if w.holder = some b then none else w.holder) = some c
    by_cases hc : c = b
    · rw [hc, w.set_batches_self]
      split
      · simp [Batch.holds]
      · rename_i hnot
        simp [Batch.holds, hnot]
    · rw [w.set_batches_ne hc, h.locked c]
      split
      · rename_i hholder
        rw [hholder]
        constructor
        · intro hsome
          exact absurd (Option.some.inj hsome).symm hc
        · intro hnone
          cases hnone
      · exact Iff.rfl
  · change (w.set b .ended).batches b = _ at heq
    rw [w.set_batches_self] at heq
    cases heq
  · change (w.set b .ended).batches b = _ at heq
    rw [w.set_batches_self] at heq
    cases heq

theorem taken_of_move {k i : Nat} {state : CloudState} {v : Int} (ht : (w.exec (.move k state)).Taken v i) :
    w.Taken v i := by
  obtain ⟨hraised, row, hrow, hactive, hv⟩ := ht
  change i ∉ (if (w.rows[k]?).any (·.takenUp state) then w.raised ++ [k] else w.raised) at hraised
  change (w.rows.modify k fun row => { row with state := state })[i]? = some row at hrow
  have hnot : i ∉ w.raised := by
    intro hmem
    refine hraised ?_
    split
    · exact List.mem_append.mpr (.inl hmem)
    · exact hmem
  rw [List.getElem?_modify] at hrow
  obtain ⟨old, hold, hrow⟩ := Option.map_eq_some_iff.mp hrow
  by_cases heq : k = i
  · subst heq
    rw [if_pos rfl] at hrow
    subst hrow
    refine ⟨hnot, old, hold, ?_, hv⟩
    by_contra hended
    have hup : old.takenUp state = true := by
      unfold Row.takenUp
      rw [hactive, Bool.and_true, Bool.eq_false_iff.mpr hended]
      rfl
    refine hraised ?_
    rw [hold, Option.any_some, if_pos hup]
    exact List.mem_append.mpr (.inr (List.mem_singleton_self k))
  · rw [if_neg heq] at hrow
    subst hrow
    exact ⟨hnot, old, hold, hactive, hv⟩

theorem taken_of_createElsewhere {requestedVmid : Option Int} {i : Nat} {v : Int}
    (ht : (w.exec (.createElsewhere requestedVmid)).Taken v i) : w.Taken v i := by
  obtain ⟨hraised, row, hrow, hactive, hv⟩ := ht
  change i ∉ w.raised ++ [w.rows.length] at hraised
  change (w.rows ++ [⟨.created, requestedVmid⟩])[i]? = some row at hrow
  have hne : i ≠ w.rows.length := fun heq => hraised (List.mem_append.mpr (.inr (List.mem_singleton.mpr heq)))
  have hlt := (List.getElem?_eq_some_iff.mp hrow).1
  rw [List.length_append, List.length_singleton] at hlt
  rw [List.getElem?_append_left (by omega)] at hrow
  exact ⟨fun hmem => hraised (List.mem_append.mpr (.inl hmem)), row, hrow, hactive, hv⟩

theorem exec_reserving (h : Reserving n w) (e : Event) : Reserving n (w.exec e) := by
  cases e with
  | lock b =>
    unfold System.exec
    dsimp only
    split
    · exact lock_reserving h ‹_›
    · exact h
  | readReserved b =>
    unfold System.exec
    dsimp only
    split
    · exact readReserved_reserving h ‹_›
    · exact h
  | choose b first listing =>
    unfold System.exec
    dsimp only
    split
    · exact choose_reserving h ‹_› first listing
    · exact h
  | create b =>
    unfold System.exec
    dsimp only
    split
    · exact create_reserving h ‹_›
    · exact h
  | unlock b => exact unlock_reserving h b
  | createElsewhere requestedVmid => exact h.of_taken rfl rfl fun _ _ ht => taken_of_createElsewhere ht
  | move k state => exact h.of_taken rfl rfl fun _ _ ht => taken_of_move ht

end Steps

theorem start_reserving (rows : List Row) (count : Nat → Nat) : Reserving rows.length (System.start rows count) := by
  refine ⟨fun b => ?_, fun b _ _ hbatch => (by cases hbatch), fun b _ hbatch => (by cases hbatch),
    fun i j v hlt hle _ _ hj => ?_⟩
  · constructor
    · intro hholds
      cases hholds
    · intro hholder
      cases hholder
  · obtain ⟨_, row, hrow, _⟩ := hj
    have := (List.getElem?_eq_some_iff.mp hrow).1
    change j < rows.length at this
    omega

/-- Whatever the batches, the other writers and broken connections come to: the lock is with
a batch at work, and of two active runs with one VMID the later one was there before, or one
of them was made, or taken up again after its end, by someone else. -/
theorem batches_apart (rows : List Row) (count : Nat → Nat) (events : List Event) :
    let w := events.foldl System.exec (System.start rows count)
    (∀ b, w.holder = some b ↔ (w.batches b).holds = true) ∧
    ∀ i j r s v, i < j → rows.length ≤ j → w.rows[i]? = some r → w.rows[j]? = some s →
      r.active = true → s.active = true → v ≠ 0 → r.requestedVmid = some v → s.requestedVmid = some v →
        i ∈ w.raised ∨ j ∈ w.raised := by
  intro w
  have h : Reserving rows.length w := by
    apply foldl_invariant (G := Reserving rows.length) ?_ (start_reserving rows count)
    intro w e h
    exact exec_reserving h e
  refine ⟨fun b => (h.locked b).symm, fun i j r s v hlt hle hr hs hactive hactive' hne hv hv' => ?_⟩
  by_contra hnot
  rw [not_or] at hnot
  exact h.apart i j v hlt hle hne ⟨hnot.1, r, hr, hactive, hv⟩ ⟨hnot.2, s, hs, hactive', hv'⟩

example :
    (([.lock 0, .lock 1, .readReserved 0, .choose 0 100 (some [some 101]), .create 0, .create 0, .unlock 0, .lock 1,
      .readReserved 1, .choose 1 100 none, .create 1] : List Event).foldl System.exec
        (System.start [] fun _ => 2)).rows.map Row.requestedVmid = [some 100, some 102, some 101] := rfl

end Batches

end ProxmoxVEAutopilot.CloudOsd.Vmids
