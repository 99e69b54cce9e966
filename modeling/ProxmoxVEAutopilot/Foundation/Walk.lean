import Mathlib

/-!
# Walks over rows

A walk reads rows in order, keeps a state and emits events. Most detectors only look at
the row before, so what they emit can be read off consecutive pairs.
-/

namespace ProxmoxVEAutopilot.Foundation

set_option autoImplicit false

universe u v w
variable {σ : Type u} {ρ : Type v} {ε : Type w}

/-- All events of the rows, from state `s` on. -/
def walk (step : σ → ρ → List ε × σ) : σ → List ρ → List ε
  | _, [] => []
  | s, r :: rows => (step s r).1 ++ walk step (step s r).2 rows

/-- The events of each row apart. -/
def walkRows (step : σ → ρ → List ε × σ) : σ → List ρ → List (List ε)
  | _, [] => []
  | s, r :: rows => (step s r).1 :: walkRows step (step s r).2 rows

theorem flatten_walkRows (step : σ → ρ → List ε × σ) (rows : List ρ) :
    ∀ s, (walkRows step s rows).flatten = walk step s rows := by
  induction rows with
  | nil => exact fun _ => rfl
  | cons r rows ih =>
    intro s
    unfold walkRows walk
    rw [List.flatten_cons, ih]

theorem forall_walk {step : σ → ρ → List ε × σ} {good : ε → Prop} (h : ∀ s r, ∀ e ∈ (step s r).1, good e)
    (rows : List ρ) : ∀ s, ∀ e ∈ walk step s rows, good e := by
  induction rows with
  | nil =>
    intro s e he
    cases he
  | cons r rows ih =>
    intro s e he
    rcases List.mem_append.mp he with he | he
    · exact h s r e he
    · exact ih _ e he

/-- Where the state remembers the last row and a row after it is good if and only if the pair
is, all events are good if and only if all consecutive pairs are. -/
theorem forall_walk_iff (step : σ → ρ → List ε × σ) (last : σ → Option ρ) {good : ε → Prop}
    {R : ρ → ρ → Prop} (hlast : ∀ s r, last (step s r).2 = some r)
    (hfirst : ∀ s r, last s = none → ∀ e ∈ (step s r).1, good e)
    (hnext : ∀ s p r, last s = some p → ((∀ e ∈ (step s r).1, good e) ↔ R p r)) (rows : List ρ) :
    ∀ s, (∀ e ∈ walk step s rows, good e) ↔ ((last s).toList ++ rows).IsChain R := by
  induction rows with
  | nil =>
    intro s
    cases last s with
    | none => simp [walk]
    | some p => simp [walk]
  | cons r rows ih =>
    intro s
    have hrest := ih (step s r).2
    rw [hlast s r] at hrest
    have hsplit : (∀ e ∈ walk step s (r :: rows), good e) ↔
        (∀ e ∈ (step s r).1, good e) ∧ ∀ e ∈ walk step (step s r).2 rows, good e := by
      simp only [walk, List.mem_append]
      constructor
      · exact fun h => ⟨fun e he => h e (.inl he), fun e he => h e (.inr he)⟩
      · exact fun h e he => he.elim (h.1 e) (h.2 e)
    rw [hsplit, hrest]
    cases hp : last s with
    | none => simpa using fun _ => hfirst s r hp
    | some p =>
      rw [hnext s p r hp]
      simp

theorem isChain_and_iff {R S : ρ → ρ → Prop} {rows : List ρ} :
    rows.IsChain (fun a b => R a b ∧ S a b) ↔ rows.IsChain R ∧ rows.IsChain S := by
  simp only [List.isChain_iff_getElem]
  constructor
  · exact fun h => ⟨fun i hi => (h i hi).1, fun i hi => (h i hi).2⟩
  · exact fun h i hi => ⟨h.1 i hi, h.2 i hi⟩

end ProxmoxVEAutopilot.Foundation

/-!
## Gains and losses

A condition that is gained and lost, followed through the marks of a log: `true` for a gain,
`false` for a loss. Each mark turns the condition over.
-/

namespace ProxmoxVEAutopilot.Foundation

set_option autoImplicit false

/-- From `on`, the marks turn the condition over one by one and leave it as `last`. -/
def Toggles : Bool → List Bool → Bool → Prop
  | on, [], last => on = last
  | on, mark :: marks, last => mark = !on ∧ Toggles mark marks last

variable {on mid last : Bool} {marks others : List Bool}

theorem Toggles.append : ∀ {on : Bool}, Toggles on marks mid → Toggles mid others last →
    Toggles on (marks ++ others) last := by
  induction marks with
  | nil =>
    intro on h h'
    rw [show on = mid from h]
    exact h'
  | cons mark marks ih => exact fun h h' => ⟨h.1, ih h.2 h'⟩

/-- The mark of the change from `on` to `last`, if there is one. -/
theorem toggles_change : Toggles on (if on = last then [] else [last]) last := by
  cases on <;> cases last <;> simp [Toggles]

theorem Toggles.isChain : ∀ {on : Bool}, Toggles on marks last → (on :: marks).IsChain (· ≠ ·) := by
  induction marks with
  | nil => exact fun _ => .singleton _
  | cons mark marks ih =>
    intro on h
    refine .cons_cons ?_ (ih h.2)
    rw [h.1]
    exact (Bool.not_ne_self on).symm

theorem Toggles.getLast? : ∀ {on : Bool}, Toggles on marks last → marks.getLast?.getD on = last := by
  induction marks with
  | nil => exact fun h => h
  | cons mark marks ih =>
    intro on h
    rw [List.getLast?_cons, Option.getD_some]
    exact ih h.2

/-- Marks that alternate, begin with a gain and end as the condition does. -/
structure Balanced (marks : List Bool) (last : Bool) : Prop where
  alternate : marks.IsChain (· ≠ ·)
  first : ∀ mark, marks.head? = some mark → mark = true
  ends : marks.getLast? = some true ↔ last = true

/-- Marks are balanced exactly if the condition did not hold before them, or they are no marks
of a condition that never held. -/
theorem Toggles.balanced_iff (h : Toggles on marks last) : Balanced marks last ↔ on = false := by
  constructor
  · intro hbalanced
    cases marks with
    | nil =>
      have hlast : last ≠ true := fun htrue => nomatch hbalanced.ends.mpr htrue
      rw [show on = last from h]
      exact Bool.eq_false_iff.mpr hlast
    | cons mark marks =>
      have hmark : mark = true := hbalanced.first mark rfl
      have hflip : mark = !on := h.1
      rw [hmark] at hflip
      exact (Bool.not_eq_true' on).mp hflip.symm
  · rintro rfl
    refine ⟨h.isChain.tail, fun mark hmark => ?_, ?_⟩
    · cases marks with
      | nil => cases hmark
      | cons head marks =>
        cases hmark
        exact h.1
    · have hends := h.getLast?
      rw [← hends]
      cases marks.getLast? <;> simp

section Walks
universe u v w
variable {σ : Type u} {ρ : Type v} {ε : Type w} {step : σ → ρ → List ε × σ}

/-- If every step from a ready state marks how its condition changes, the walk does. -/
theorem toggles_walk (mark : ε → Option Bool) (holds : σ → Bool) (ready : σ → Prop) (hready : ∀ s r, ready (step s r).2)
    (hstep : ∀ s r, ready s → Toggles (holds s) ((step s r).1.filterMap mark) (holds (step s r).2)) (rows : List ρ) :
    ∀ s, ready s →
      Toggles (holds s) ((walk step s rows).filterMap mark) (holds (rows.foldl (fun s r => (step s r).2) s)) := by
  induction rows with
  | nil => exact fun s _ => rfl
  | cons r rows ih =>
    intro s hs
    unfold walk
    rw [List.filterMap_append]
    exact (hstep s r hs).append (ih (step s r).2 (hready s r))

theorem foldl_last (last : σ → Option ρ) (hlast : ∀ s r, last (step s r).2 = some r) (rows : List ρ) :
    ∀ s, last (rows.foldl (fun s r => (step s r).2) s) = (rows.getLast?).or (last s) := by
  induction rows with
  | nil => exact fun s => rfl
  | cons r rows ih =>
    intro s
    rw [List.foldl_cons, ih, hlast, List.getLast?_cons]
    cases rows.getLast? <;> rfl

/-- Events that each step counts against a budget that only grows. -/
theorem countP_walk_le (p : ε → Bool) (spent : σ → Nat)
    (hstep : ∀ s r, (step s r).1.countP p + spent s ≤ spent (step s r).2) (rows : List ρ) :
    ∀ s, (walk step s rows).countP p + spent s ≤ spent (rows.foldl (fun s r => (step s r).2) s) := by
  induction rows with
  | nil => exact fun s => Nat.le_of_eq (Nat.zero_add _)
  | cons r rows ih =>
    intro s
    unfold walk
    rw [List.countP_append]
    have hfirst := hstep s r
    have hrest := ih (step s r).2
    rw [List.foldl_cons]
    omega

end Walks

end ProxmoxVEAutopilot.Foundation
