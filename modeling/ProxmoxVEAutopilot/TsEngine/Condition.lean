import ProxmoxVEAutopilot.Foundation.Lists
import ProxmoxVEAutopilot.TsEngine.Plan

/-!
# The condition dialect

`_eval_condition` recurses on the decoded JSON. The recursion is written on a
budget; `evalCondition_fuel` shows that any budget from the depth of the condition on
gives the same answer, and `evaluateCondition` starts with that depth.
-/

namespace ProxmoxVEAutopilot.TsEngine

open Foundation
set_option autoImplicit false

/-- `unsupported` is the `ValueError` of the dialect, `malformed` any exception of an
operand with the wrong type. -/
inductive ConditionError where
  | unsupported (condition : Json)
  | malformed
  | budget

abbrev CondResult := Except ConditionError (Bool × String)

def splitDots : List Char → List (List Char)
  | [] => [[]]
  | c :: cs =>
    if c = '.' then [] :: splitDots cs
    else match splitDots cs with
      | [] => [[c]]
      | part :: parts => (c :: part) :: parts

def pathParts (path : String) : List String := (splitDots path.toList).map String.ofList

/-- `_resolve_path`; Python's `None` is JSON `null`. -/
def resolvePath (current : Json) : List String → Json
  | [] => current
  | part :: rest =>
    match current.get? part with
    | some value => resolvePath value rest
    | none => .null

/-- Evaluating `for child in value`. -/
def evalChildren (eval : Json → CondResult) : Json → Except ConditionError (List (Bool × String))
  | .arr xs => xs.mapM eval
  | .obj fields => fields.mapM fun field => eval (.str field.1)
  | .str s => s.toList.mapM fun c => eval (.str (String.singleton c))
  | _ => .error .malformed

/-- A path operand; `.split` exists on strings only. -/
def asPath : Json → Except ConditionError String
  | .str s => .ok s
  | _ => .error .malformed

/-- `path, expected = value`. -/
def unpackPair : Json → Except ConditionError (String × Json)
  | .arr [path, expected] => (asPath path).map fun p => (p, expected)
  | .obj [(path, _), (expected, _)] => .ok (path, .str expected)
  | .str s =>
    match s.toList with
    | [a, b] => .ok (String.singleton a, .str (String.singleton b))
    | _ => .error .malformed
  | _ => .error .malformed

def isNull : Json → Bool
  | .null => true
  | _ => false

def evalCondition (context : Json) : Nat → Json → CondResult
  | 0, _ => .error .budget
  | fuel + 1, condition =>
    if !condition.truthy then .ok (true, "empty")
    else match condition with
      | .obj fields =>
        match fields.lookup "all" with
        | some children =>
          (evalChildren (evalCondition context fuel) children).map fun rs => (rs.all Prod.fst, "all")
        | none =>
        match fields.lookup "any" with
        | some children =>
          (evalChildren (evalCondition context fuel) children).map fun rs => (rs.any Prod.fst, "any")
        | none =>
        match fields.lookup "not" with
        | some child => (evalCondition context fuel child).map fun r => (!r.1, "not")
        | none =>
        match fields.lookup "exists" with
        | some path =>
          (asPath path).map fun p => (!isNull (resolvePath context (pathParts p)), "exists:" ++ p)
        | none =>
        match fields.lookup "eq" with
        | some operands =>
          (unpackPair operands).map fun q =>
            ((resolvePath context (pathParts q.1)).pyEq q.2, "eq:" ++ q.1)
        | none =>
        match fields.lookup "ne" with
        | some operands =>
          (unpackPair operands).map fun q =>
            (!(resolvePath context (pathParts q.1)).pyEq q.2, "ne:" ++ q.1)
        | none => .error (.unsupported condition)
      | _ => .error (.unsupported condition)

def orEmpty (value : Json) : Json := if value.truthy then value else .obj []

def evaluateCondition (condition vars target : Json) : Except ConditionError ConditionResult :=
  let context := Json.obj [("variables", orEmpty vars), ("target", orEmpty target)]
  (evalCondition context (orEmpty condition).depth (orEmpty condition)).map fun r => ⟨r.1, r.2⟩

theorem evalChildren_congr {f g : Json → CondResult} {n : Nat} {value : Json}
    (hvalue : value.depth ≤ n) (h : ∀ child, child.depth ≤ n → f child = g child) :
    evalChildren f value = evalChildren g value := by
  cases value with
  | arr xs =>
    simp only [Json.depth] at hvalue
    apply mapM_congr
    intro x hx
    have := Json.depth_le_of_mem hx
    exact h x (by omega)
  | obj fields =>
    apply mapM_congr
    intro field _
    exact h _ (by simp only [Json.depth] at hvalue ⊢; omega)
  | str s =>
    apply mapM_congr
    intro c _
    exact h _ (by simpa [Json.depth] using hvalue)
  | _ => rfl

/-- Any budget from the depth of the condition on gives the same result. -/
theorem evalCondition_fuel (context : Json) (m n : Nat) :
    ∀ condition : Json, condition.depth ≤ m → condition.depth ≤ n →
      evalCondition context m condition = evalCondition context n condition := by
  induction m generalizing n with
  | zero =>
    intro condition hm
    have := condition.depth_pos
    omega
  | succ m ih =>
    intro condition hm hn
    cases n with
    | zero =>
      have := condition.depth_pos
      omega
    | succ n =>
      have hsmaller : ∀ fields k v, condition = .obj fields → fields.lookup k = some v →
          v.depth ≤ min m n := by
        intro fields k v hc hv
        subst hc
        have := Json.depth_le_of_lookup hv
        simp only [Json.depth] at hm hn
        omega
      have hagree : ∀ child : Json, child.depth ≤ min m n →
          evalCondition context m child = evalCondition context n child :=
        fun child hc => ih n child (by omega) (by omega)
      cases condition with
      | obj fields =>
        simp only [evalCondition]
        split
        · rfl
        · cases hall : fields.lookup "all" with
          | some v =>
            simp only [evalChildren_congr (hsmaller fields _ v rfl hall) hagree]
          | none =>
            cases hany : fields.lookup "any" with
            | some v =>
              simp only [evalChildren_congr (hsmaller fields _ v rfl hany) hagree]
            | none =>
              cases hnot : fields.lookup "not" with
              | some v => simp only [hagree v (hsmaller fields _ v rfl hnot)]
              | none => rfl
      | _ => rfl

/-- Conditions the dialect accepts: each dict is read by its first known operator. -/
inductive WellFormed : Json → Prop where
  | empty {c : Json} : c.truthy = false → WellFormed c
  | all {fields : List (String × Json)} {xs : List Json} :
      fields.lookup "all" = some (.arr xs) → (∀ x ∈ xs, WellFormed x) → WellFormed (.obj fields)
  | any {fields : List (String × Json)} {xs : List Json} :
      fields.lookup "all" = none → fields.lookup "any" = some (.arr xs) →
      (∀ x ∈ xs, WellFormed x) → WellFormed (.obj fields)
  | not {fields : List (String × Json)} {c : Json} :
      fields.lookup "all" = none → fields.lookup "any" = none →
      fields.lookup "not" = some c → WellFormed c → WellFormed (.obj fields)
  | exists {fields : List (String × Json)} {path : String} :
      fields.lookup "all" = none → fields.lookup "any" = none → fields.lookup "not" = none →
      fields.lookup "exists" = some (.str path) → WellFormed (.obj fields)
  | eq {fields : List (String × Json)} {path : String} {expected : Json} :
      fields.lookup "all" = none → fields.lookup "any" = none → fields.lookup "not" = none →
      fields.lookup "exists" = none →
      fields.lookup "eq" = some (.arr [.str path, expected]) → WellFormed (.obj fields)
  | ne {fields : List (String × Json)} {path : String} {expected : Json} :
      fields.lookup "all" = none → fields.lookup "any" = none → fields.lookup "not" = none →
      fields.lookup "exists" = none → fields.lookup "eq" = none →
      fields.lookup "ne" = some (.arr [.str path, expected]) → WellFormed (.obj fields)

theorem truthy_obj_of_lookup {fields : List (String × Json)} {k : String} {v : Json}
    (h : fields.lookup k = some v) : (Json.obj fields).truthy = true := by
  cases fields with
  | nil => simp at h
  | cons => rfl

theorem exists_succ_of_depth_le {c : Json} {fuel : Nat} (h : c.depth ≤ fuel) : ∃ n, fuel = n + 1 := by
  have := c.depth_pos
  exact ⟨fuel - 1, by omega⟩

theorem mapM_children_ok {context : Json} {fields : List (String × Json)} {k : String}
    {xs : List Json} {fuel : Nat} (hk : fields.lookup k = some (.arr xs))
    (hfuel : (Json.obj fields).depth ≤ fuel + 1)
    (ih : ∀ x ∈ xs, ∀ n, x.depth ≤ n → ∃ r, evalCondition context n x = .ok r) :
    ∃ rs, xs.mapM (evalCondition context fuel) = .ok rs := by
  apply mapM_ok
  intro x hx
  have hd := Json.depth_le_of_lookup hk
  have hxs := Json.depth_le_of_mem hx
  simp only [Json.depth] at hfuel hd
  exact ih x hx fuel (by omega)

theorem evalCondition_ok (context : Json) {c : Json} (hc : WellFormed c) :
    ∀ fuel, c.depth ≤ fuel → ∃ r, evalCondition context fuel c = .ok r := by
  induction hc with
  | empty hfalsy =>
    intro fuel hfuel
    obtain ⟨n, rfl⟩ := exists_succ_of_depth_le hfuel
    simp [evalCondition, hfalsy]
  | all hall _ ih =>
    intro fuel hfuel
    obtain ⟨n, rfl⟩ := exists_succ_of_depth_le hfuel
    obtain ⟨rs, hrs⟩ := mapM_children_ok hall hfuel ih
    simp [evalCondition, truthy_obj_of_lookup hall, hall, evalChildren, hrs, Except.map]
  | any hall hany _ ih =>
    intro fuel hfuel
    obtain ⟨n, rfl⟩ := exists_succ_of_depth_le hfuel
    obtain ⟨rs, hrs⟩ := mapM_children_ok hany hfuel ih
    simp [evalCondition, truthy_obj_of_lookup hany, hall, hany, evalChildren, hrs, Except.map]
  | not hall hany hnot _ ih =>
    intro fuel hfuel
    obtain ⟨n, rfl⟩ := exists_succ_of_depth_le hfuel
    have hd := Json.depth_le_of_lookup hnot
    simp only [Json.depth] at hfuel
    obtain ⟨r, hr⟩ := ih n (by omega)
    simp [evalCondition, truthy_obj_of_lookup hnot, hall, hany, hnot, hr, Except.map]
  | «exists» hall hany hnot hex =>
    intro fuel hfuel
    obtain ⟨n, rfl⟩ := exists_succ_of_depth_le hfuel
    simp [evalCondition, truthy_obj_of_lookup hex, hall, hany, hnot, hex, asPath, Except.map]
  | eq hall hany hnot hex heq =>
    intro fuel hfuel
    obtain ⟨n, rfl⟩ := exists_succ_of_depth_le hfuel
    simp [evalCondition, truthy_obj_of_lookup heq, hall, hany, hnot, hex, heq, unpackPair,
      asPath, Except.map]
  | ne hall hany hnot hex heq hne =>
    intro fuel hfuel
    obtain ⟨n, rfl⟩ := exists_succ_of_depth_le hfuel
    simp [evalCondition, truthy_obj_of_lookup hne, hall, hany, hnot, hex, heq, hne, unpackPair,
      asPath, Except.map]

theorem evaluateCondition_ok {c : Json} (hc : WellFormed c) (vars target : Json) :
    ∃ r, evaluateCondition c vars target = .ok r := by
  have hor : WellFormed (orEmpty c) := by
    unfold orEmpty
    split
    · exact hc
    · exact .empty rfl
  obtain ⟨r, hr⟩ := evalCondition_ok
    (Json.obj [("variables", orEmpty vars), ("target", orEmpty target)]) hor _ (Nat.le_refl _)
  exact ⟨⟨r.1, r.2⟩, by simp only [evaluateCondition, hr, Except.map]⟩

def Matches (c vars target : Json) : Prop :=
  ∃ r, evaluateCondition c vars target = .ok r ∧ r.matched = true

end ProxmoxVEAutopilot.TsEngine
