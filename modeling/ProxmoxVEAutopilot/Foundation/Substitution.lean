import Mathlib

/-!
# Replacing every match

`re.sub` over a matcher given as a function: at each position the match is replaced and
the search goes on behind it, or one letter is kept.
-/

namespace ProxmoxVEAutopilot.Foundation

set_option autoImplicit false

variable {α : Type*} (find : List α → Option (List α × List α))

/-- `find` gives what a match at the start is replaced with and what stands behind it. -/
def subWithin : Nat → List α → List α
  | 0, s => s
  | _ + 1, [] => []
  | n + 1, c :: s =>
    match find (c :: s) with
    | some (text, rest) => text ++ subWithin n rest
    | none => c :: subWithin n s

def sub (s : List α) : List α := subWithin find s.length s

/-- No match is empty. -/
def Consumes : Prop := ∀ c s text rest, find (c :: s) = some (text, rest) → rest.length ≤ s.length

@[simp] theorem sub_nil : sub find [] = [] := rfl

variable {find}

theorem subWithin_eq_sub (hfind : Consumes find) {n : Nat} {s : List α} (hlen : s.length ≤ n) :
    subWithin find n s = sub find s := by
  -- both sides by induction on their bound, for texts of every length within it
  have key : ∀ n m : Nat, ∀ s : List α, s.length ≤ n → s.length ≤ m →
      subWithin find n s = subWithin find m s := by
    intro n
    induction n with
    | zero =>
      intro m s hn _
      rw [List.length_eq_zero_iff.mp (Nat.le_zero.mp hn)]
      cases m <;> rfl
    | succ n ih =>
      intro m s hn hm
      cases s with
      | nil => cases m <;> rfl
      | cons c s =>
        cases m with
        | zero => exact absurd hm (by simp)
        | succ m =>
          simp only [List.length_cons, Nat.add_le_add_iff_right] at hn hm
          simp only [subWithin]
          split
          · rename_i text rest hmatch
            have hrest := hfind c s text rest hmatch
            rw [ih m rest (hrest.trans hn) (hrest.trans hm)]
          · rw [ih m s hn hm]
  exact key n s.length s hlen le_rfl

theorem sub_some (hfind : Consumes find) {s text rest : List α} (hne : s ≠ [])
    (h : find s = some (text, rest)) : sub find s = text ++ sub find rest := by
  cases s with
  | nil => exact absurd rfl hne
  | cons c s =>
    have hstep : sub find (c :: s) = text ++ subWithin find s.length rest := by
      simp only [sub, List.length_cons, subWithin, h]
    rw [hstep, subWithin_eq_sub hfind (hfind c s text rest h)]

theorem sub_none {c : α} {s : List α} (h : find (c :: s) = none) :
    sub find (c :: s) = c :: sub find s := by
  simp only [sub, List.length_cons, subWithin, h]

/-- `s.replace(old, new)` of an `old` that is not empty. -/
def replaceAll (s old new : String) : String :=
  String.ofList (sub (fun s => if old.toList.isPrefixOf s then some (new.toList, s.drop old.toList.length) else none)
    s.toList)

end ProxmoxVEAutopilot.Foundation
