import Mathlib

/-!
# Two runs

Two computations that may raise, compared: both raise the same exception, or both return and
what they return is related. The relation passes through sequencing and through loops.
-/

namespace ProxmoxVEAutopilot.Foundation

set_option autoImplicit false

variable {ε α β γ δ τ : Type}

inductive Both (R : α → β → Prop) : Except ε α → Except ε β → Prop where
  | ok {a : α} {b : β} (h : R a b) : Both R (.ok a) (.ok b)
  | error (e : ε) : Both R (.error e) (.error e)

namespace Both
variable {R : α → β → Prop} {S : γ → δ → Prop} {x : Except ε α} {y : Except ε β}

theorem refl (x : Except ε α) : Both Eq x x := by
  cases x with
  | ok a => exact .ok rfl
  | error e => exact .error e

theorem eq {x y : Except ε α} (h : Both Eq x y) : x = y := by
  cases h with
  | ok h => rw [h]
  | error e => rfl

theorem mono {T : α → β → Prop} (h : Both R x y) (himp : ∀ a b, R a b → T a b) : Both T x y := by
  cases h with
  | ok h => exact .ok (himp _ _ h)
  | error e => exact .error e

theorem bind {f : α → Except ε γ} {g : β → Except ε δ} (h : Both R x y) (hf : ∀ a b, R a b → Both S (f a) (g b)) :
    Both S (x >>= f) (y >>= g) := by
  cases h with
  | ok h => exact hf _ _ h
  | error e => exact .error e

theorem same {x : Except ε τ} {f : τ → Except ε γ} {g : τ → Except ε δ} (hf : ∀ a, Both S (f a) (g a)) :
    Both S (x >>= f) (x >>= g) := (refl x).bind fun a _ h => h ▸ hf a

theorem map {f : α → γ} {g : β → δ} (h : Both R x y) (hf : ∀ a b, R a b → S (f a) (g b)) :
    Both S (x.map f) (y.map g) := by
  cases h with
  | ok h => exact .ok (hf _ _ h)
  | error e => exact .error e

theorem mapError {ε' : Type} (h : Both R x y) (f : ε → ε') : Both R (x.mapError f) (y.mapError f) := by
  cases h with
  | ok h => exact .ok h
  | error e => exact .error (f e)

theorem foldlM {f : α → τ → Except ε α} {g : β → τ → Except ε β}
    (hstep : ∀ a b t, R a b → Both R (f a t) (g b t)) {ts : List τ} {a : α} {b : β} (h : R a b) :
    Both R (ts.foldlM f a) (ts.foldlM g b) := by
  induction ts generalizing a b with
  | nil => exact .ok h
  | cons t ts ih =>
    rw [List.foldlM_cons, List.foldlM_cons]
    exact (hstep a b t h).bind fun _ _ => ih

end Both

end ProxmoxVEAutopilot.Foundation
