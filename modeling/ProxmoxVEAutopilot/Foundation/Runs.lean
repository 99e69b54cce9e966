import Mathlib

/-!
# Finite runs of a labelled machine

`step s i t` is one move with label `i`. Every safety proof below is a step lemma
fed to `Run.invariant`; concrete runs are replayed by evaluation.
-/

namespace ProxmoxVEAutopilot.Foundation

set_option autoImplicit false

universe u v
variable {σ : Type u} {ι : Type v}

/-- The labels `is`, taken in order, lead from the first state to the last. -/
inductive Run (step : σ → ι → σ → Prop) : σ → List ι → σ → Prop where
  | nil (s : σ) : Run step s [] s
  | snoc {s t u : σ} {is : List ι} {i : ι} :
      Run step s is t → step t i u → Run step s (is ++ [i]) u

namespace Run
variable {step : σ → ι → σ → Prop} {s t u : σ} {is js : List ι} {i : ι}

theorem single (h : step s i t) : Run step s [i] t := by
  simpa using Run.snoc (Run.nil s) h

theorem trans (hst : Run step s is t) (htu : Run step t js u) : Run step s (is ++ js) u := by
  induction htu with
  | nil => simpa using hst
  | snoc _ hstep ih => simpa only [List.append_assoc] using ih.snoc hstep

theorem invariant {P : σ → Prop} (preserved : ∀ s i t, P s → step s i t → P t)
    (h : Run step s is t) (hs : P s) : P t := by
  induction h with
  | nil => exact hs
  | snoc _ hstep ih => exact preserved _ _ _ ih hstep

/-- A step of a reachable state may use the invariant of that state. -/
theorem mono {step' : σ → ι → σ → Prop} (weaken : ∀ s i t, step s i t → step' s i t)
    (h : Run step s is t) : Run step' s is t := by
  induction h with
  | nil => exact .nil _
  | snoc _ hstep ih => exact ih.snoc (weaken _ _ _ hstep)

end Run

/-- A deterministic move `exec` taken only where `guard` allows it. -/
def Guarded (guard : σ → ι → Prop) (exec : σ → ι → σ) (s : σ) (i : ι) (t : σ) : Prop :=
  guard s i ∧ exec s i = t

/-- Every label of the list is allowed where it is taken. -/
def Replays (guard : σ → ι → Prop) (exec : σ → ι → σ) : σ → List ι → Prop
  | _, [] => True
  | s, i :: is => guard s i ∧ Replays guard exec (exec s i) is

instance decidableReplays (guard : σ → ι → Prop) (exec : σ → ι → σ)
    [∀ s i, Decidable (guard s i)] : ∀ s is, Decidable (Replays guard exec s is)
  | _, [] => isTrue trivial
  | s, i :: is =>
    have := decidableReplays guard exec (exec s i) is
    inferInstanceAs (Decidable (_ ∧ _))

/-- A guard may be replaced by one that it implies in the states that are reached. -/
theorem Replays.mono {guard guard' : σ → ι → Prop} {exec : σ → ι → σ} {P : σ → Prop}
    (preserved : ∀ s i, P s → P (exec s i)) (weaken : ∀ s i, P s → guard s i → guard' s i)
    {is : List ι} : ∀ {s : σ}, P s → Replays guard exec s is → Replays guard' exec s is := by
  induction is with
  | nil => exact fun _ _ => trivial
  | cons i is ih => exact fun hs h => ⟨weaken _ _ hs h.1, ih (preserved _ _ hs) h.2⟩

theorem replays_congr {guard guard' : σ → ι → Prop} {exec : σ → ι → σ} {P : σ → Prop}
    (agree : ∀ s i, P s → (guard s i ↔ guard' s i)) (preserved : ∀ s i, P s → guard s i → P (exec s i)) {is : List ι} :
    ∀ {s : σ}, P s → (Replays guard exec s is ↔ Replays guard' exec s is) := by
  induction is with
  | nil => exact fun _ => Iff.rfl
  | cons i is ih =>
    intro s hs
    unfold Replays
    rw [agree s i hs]
    exact and_congr_right fun hguard => ih (preserved s i hs ((agree s i hs).mpr hguard))

theorem replays_append {guard : σ → ι → Prop} {exec : σ → ι → σ} {is js : List ι} : ∀ {s : σ},
    Replays guard exec s (is ++ js) ↔ Replays guard exec s is ∧ Replays guard exec (is.foldl exec s) js := by
  induction is with
  | nil => exact fun {s} => ⟨fun h => ⟨trivial, h⟩, fun h => h.2⟩
  | cons i is ih =>
    intro s
    rw [List.cons_append, List.foldl_cons]
    exact ⟨fun ⟨hi, hrest⟩ => ⟨⟨hi, (ih.mp hrest).1⟩, (ih.mp hrest).2⟩,
      fun ⟨⟨hi, his⟩, hjs⟩ => ⟨hi, ih.mpr ⟨his, hjs⟩⟩⟩

theorem Run.of_replays {guard : σ → ι → Prop} {exec : σ → ι → σ} {is : List ι} :
    ∀ {s : σ}, Replays guard exec s is → Run (Guarded guard exec) s is (is.foldl exec s) := by
  induction is with
  | nil => exact fun {s} _ => .nil s
  | cons i is ih =>
    intro s h
    exact (Run.single ⟨h.1, rfl⟩).trans (ih h.2)

theorem Run.of_foldlM {σ : Type u} {exec : σ → ι → Option σ} {is : List ι} :
    ∀ {s t : σ}, is.foldlM exec s = some t → Run (fun s i t => exec s i = some t) s is t := by
  induction is with
  | nil =>
    intro s t h
    cases h
    exact .nil s
  | cons i is ih =>
    intro s t h
    rw [List.foldlM_cons] at h
    obtain ⟨r, hexec, hrest⟩ := Option.bind_eq_some_iff.mp h
    exact (Run.single hexec).trans (ih hrest)

section Along
variable (good : σ → σ → Prop) (exec : σ → ι → σ)

/-- In the execution of `is`, every state stands to every later one as `good` says. -/
def Along (s : σ) (is : List ι) : Prop :=
  ∀ js ks, js ++ ks <+: is → good (js.foldl exec s) ((js ++ ks).foldl exec s)

variable {good exec}

theorem along_nil {s : σ} (hrefl : good s s) : Along good exec s [] := by
  intro js ks hjs
  obtain ⟨rfl, rfl⟩ : js = [] ∧ ks = [] := by simpa using hjs
  exact hrefl

theorem along_cons {s : σ} {i : ι} {is : List ι} (hrefl : good s s)
    (htrans : ∀ a b c, good a b → good b c → good a c) : Along good exec s (i :: is) ↔
      good s (exec s i) ∧ Along good exec (exec s i) is := by
  constructor
  · intro h
    refine ⟨h [] [i] (by simp), fun js ks hjs => ?_⟩
    exact h (i :: js) ks (by simpa using hjs)
  · intro ⟨hstep, hrest⟩ js ks hjs
    cases js with
    | cons j js =>
      obtain ⟨rfl, htail⟩ : j = i ∧ js ++ ks <+: is := by
        simpa only [List.cons_append, List.cons_prefix_cons] using hjs
      exact hrest js ks htail
    | nil =>
      cases ks with
      | nil => exact hrefl
      | cons k ks =>
        obtain ⟨rfl, htail⟩ : k = i ∧ ks <+: is := by simpa using hjs
        exact htrans _ _ _ hstep (hrest [] ks htail)

/-- Where `ok` says exactly which moves are good, the good executions are those whose
moves are all `ok`. -/
theorem along_iff_replays {ok : σ → ι → Prop} {P : σ → Prop} (hrefl : ∀ s, P s → good s s)
    (htrans : ∀ a b c, good a b → good b c → good a c)
    (exact : ∀ s i, P s → (good s (exec s i) ↔ ok s i))
    (preserved : ∀ s i, P s → ok s i → P (exec s i)) {is : List ι} :
    ∀ {s : σ}, P s → (Along good exec s is ↔ Replays ok exec s is) := by
  induction is with
  | nil => exact fun hs => ⟨fun _ => trivial, fun _ => along_nil (hrefl _ hs)⟩
  | cons i is ih =>
    intro s hs
    rw [along_cons (hrefl s hs) htrans, exact s i hs]
    constructor
    · exact fun ⟨hok, hrest⟩ => ⟨hok, (ih (preserved s i hs hok)).mp hrest⟩
    · exact fun ⟨hok, hrest⟩ => ⟨hok, (ih (preserved s i hs hok)).mpr hrest⟩

end Along

end ProxmoxVEAutopilot.Foundation

/-!
## Sweeps over a list of work

Moves that never undo work, taken in rounds of which each gets something done as long as
there is something to do. Enough rounds leave nothing.
-/

namespace ProxmoxVEAutopilot.Foundation

set_option autoImplicit false

universe u v

section Sweeps
variable {σ : Type u} {ι : Type v} {f : σ → ι → σ} {G R : σ → Prop} {w : σ → Nat}

theorem foldl_invariant (hgood : ∀ s i, G s → G (f s i)) {is : List ι} :
    ∀ {s : σ}, G s → G (is.foldl f s) := by
  induction is with
  | nil => exact id
  | cons i is ih => exact fun hs => ih (hgood _ i hs)

theorem foldl_invariant_of_mem {is : List ι} (hgood : ∀ s, ∀ i ∈ is, G s → G (f s i)) :
    ∀ {s : σ}, G s → G (is.foldl f s) := by
  induction is with
  | nil => exact id
  | cons i is ih =>
    exact fun hs => ih (fun s j hj => hgood s j (List.mem_cons_of_mem _ hj))
      (hgood _ i List.mem_cons_self hs)

/-- As many sweeps as there is w bring the system to R. -/
theorem rest_of_sweeps {sweeps : List (List ι)}
    (hgood : ∀ s, ∀ sweep ∈ sweeps, G s → G (sweep.foldl f s))
    (hrest : ∀ s, ∀ sweep ∈ sweeps, G s → R s → R (sweep.foldl f s))
    (hwork : ∀ s, ∀ sweep ∈ sweeps, G s → ¬ R s → w (sweep.foldl f s) < w s)
    (hzero : ∀ s, G s → w s = 0 → R s) :
    ∀ {s : σ}, G s → w s ≤ sweeps.length ∨ R s →
      R (sweeps.flatten.foldl f s) := by
  induction sweeps with
  | nil => exact fun hs h => h.elim (fun h => hzero _ hs (Nat.le_zero.mp h)) id
  | cons sweep sweeps ih =>
    intro s hs h
    have hmem : sweep ∈ sweep :: sweeps := List.mem_cons_self
    rw [List.flatten_cons, List.foldl_append]
    refine ih (fun s t ht => hgood s t (List.mem_cons_of_mem _ ht))
      (fun s t ht => hrest s t (List.mem_cons_of_mem _ ht))
      (fun s t ht => hwork s t (List.mem_cons_of_mem _ ht)) (hgood s sweep hmem hs) ?_
    by_cases hr : R s
    · exact .inr (hrest s sweep hmem hs hr)
    · have hlt := hwork s sweep hmem hs hr
      have hlong := h.resolve_right hr
      rw [List.length_cons] at hlong
      exact .inl (by omega)

end Sweeps

end ProxmoxVEAutopilot.Foundation
