import Mathlib

/-!
# JSON values under Python's rules

Values as `json.loads` leaves them. Numbers keep the int/float distinction of the
parser; a float is the exact rational it denotes. Objects are association lists with
one entry per key.
-/

namespace ProxmoxVEAutopilot.Foundation

set_option autoImplicit false

inductive Json where
  | null
  | bool (b : Bool)
  | int (n : Int)
  | float (q : Rat)
  | str (s : String)
  | arr (xs : List Json)
  | obj (fields : List (String × Json))
deriving Repr

namespace Json

instance : Inhabited Json := ⟨.null⟩

-- The handler for `DecidableEq` does not cover nested inductive types.
mutual

def decEq : (a b : Json) → Decidable (a = b)
  | null, null => isTrue rfl
  | bool a, bool b => decidable_of_iff (a = b) (by simp)
  | int a, int b => decidable_of_iff (a = b) (by simp)
  | float a, float b => decidable_of_iff (a = b) (by simp)
  | str a, str b => decidable_of_iff (a = b) (by simp)
  | arr a, arr b =>
    have := decEqList a b
    decidable_of_iff (a = b) (by simp)
  | obj a, obj b =>
    have := decEqFields a b
    decidable_of_iff (a = b) (by simp)
  | null, bool _ | null, int _ | null, float _ | null, str _ | null, arr _ | null, obj _
  | bool _, null | bool _, int _ | bool _, float _ | bool _, str _ | bool _, arr _ | bool _, obj _
  | int _, null | int _, bool _ | int _, float _ | int _, str _ | int _, arr _ | int _, obj _
  | float _, null | float _, bool _ | float _, int _ | float _, str _ | float _, arr _ | float _, obj _
  | str _, null | str _, bool _ | str _, int _ | str _, float _ | str _, arr _ | str _, obj _
  | arr _, null | arr _, bool _ | arr _, int _ | arr _, float _ | arr _, str _ | arr _, obj _
  | obj _, null | obj _, bool _ | obj _, int _ | obj _, float _ | obj _, str _ | obj _, arr _ =>
    isFalse (by simp)

def decEqList : (xs ys : List Json) → Decidable (xs = ys)
  | [], [] => isTrue rfl
  | x :: xs, y :: ys =>
    have := decEq x y
    have := decEqList xs ys
    decidable_of_iff (x = y ∧ xs = ys) (by simp)
  | [], _ :: _ | _ :: _, [] => isFalse (by simp)

def decEqFields : (fs gs : List (String × Json)) → Decidable (fs = gs)
  | [], [] => isTrue rfl
  | (k, v) :: fs, (l, w) :: gs =>
    have := decEq v w
    have := decEqFields fs gs
    decidable_of_iff ((k = l ∧ v = w) ∧ fs = gs) (by simp)
  | [], _ :: _ | _ :: _, [] => isFalse (by simp)

end
instance : DecidableEq Json := decEq

/-- Python's `bool(value)`. -/
def truthy : Json → Bool
  | null => false
  | bool b => b
  | int n => n != 0
  | float q => q != 0
  | str s => s != ""
  | arr xs => !xs.isEmpty
  | obj fields => !fields.isEmpty

/-- The number a value counts as in `==`: `True` is 1 and `1` is `1.0`. -/
def numeric? : Json → Option Rat
  | bool b => some (if b then 1 else 0)
  | int n => some n
  | float q => some q
  | _ => none

mutual

def pyEq : Json → Json → Bool
  | null, null => true
  | str s, str t => s == t
  | arr xs, arr ys => pyEqList xs ys
  | obj fs, obj gs => fs.length == gs.length && pyEqFields fs gs
  | a, b =>
    match a.numeric?, b.numeric? with
    | some p, some q => p == q
    | _, _ => false

def pyEqList : List Json → List Json → Bool
  | [], [] => true
  | x :: xs, y :: ys => pyEq x y && pyEqList xs ys
  | _, _ => false

/-- Dict equality ignores the order of the keys. -/
def pyEqFields : List (String × Json) → List (String × Json) → Bool
  | [], _ => true
  | (k, v) :: rest, gs =>
    (match gs.lookup k with
      | some w => pyEq v w
      | none => false) && pyEqFields rest gs

end

mutual

def depth : Json → Nat
  | arr xs => depthList xs + 1
  | obj fields => depthFields fields + 1
  | _ => 1

def depthList : List Json → Nat
  | [] => 0
  | x :: xs => max x.depth (depthList xs)

def depthFields : List (String × Json) → Nat
  | [] => 0
  | (_, v) :: rest => max v.depth (depthFields rest)

end

theorem depth_pos (j : Json) : 0 < j.depth := by
  cases j <;> simp [depth]

theorem depth_le_of_mem {xs : List Json} {x : Json} (h : x ∈ xs) : x.depth ≤ depthList xs := by
  induction xs with
  | nil => simp at h
  | cons y ys ih =>
    rcases List.mem_cons.mp h with rfl | h
    · simp [depthList]
    · have := ih h
      simp only [depthList]
      omega

theorem depth_le_of_lookup {fields : List (String × Json)} {k : String} {v : Json}
    (h : fields.lookup k = some v) : v.depth ≤ depthFields fields := by
  induction fields with
  | nil => simp at h
  | cons p rest ih =>
    obtain ⟨key, w⟩ := p
    simp only [List.lookup_cons] at h
    simp only [depthFields]
    split at h
    · cases h
      omega
    · have := ih h
      omega

/-- `value.get(key)` on a dict; anything else has no keys. -/
def get? (j : Json) (key : String) : Option Json :=
  match j with
  | obj fields => fields.lookup key
  | _ => none

end Json

end ProxmoxVEAutopilot.Foundation
