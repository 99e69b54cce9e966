import ProxmoxVEAutopilot.Foundation.Json

/-!
# Scrubbing of JSON values

A scrubber walks a value and takes away what stands under the keys it calls secret: it
drops them, or leaves one fixed text in their place. Everything else stays at its path.
-/

namespace ProxmoxVEAutopilot.Foundation

set_option autoImplicit false

namespace Json

inductive Step where
  | key (k : String)
  | index (i : Nat)
deriving DecidableEq, Repr

def at? : Json → List Step → Option Json
  | j, [] => some j
  | .obj fields, .key k :: rest => (fields.lookup k).bind (at? · rest)
  | .arr xs, .index i :: rest => xs[i]?.bind (at? · rest)
  | _, _ => none

@[simp]
theorem at?_nil (j : Json) : j.at? [] = some j := by
  unfold at?
  rfl

/-- A value without values inside. -/
def Leaf : Json → Prop
  | .arr _ | .obj _ => False
  | _ => True

end Json

/-- `mask` is the text that stands for a secret, or none where its key goes too; `wire`
says that booleans are sent as 0 and 1. -/
structure Scrubber where
  secret : String → Bool
  mask : Option String
  wire : Bool

namespace Scrubber

open Json (Step)

variable (p : Scrubber)

mutual

def scrub : Json → Json
  | .obj fields => .obj (scrubFields fields)
  | .arr xs => .arr (scrubList xs)
  | .bool b => if p.wire then .int (if b then 1 else 0) else .bool b
  | j => j

def scrubList : List Json → List Json
  | [] => []
  | x :: xs => scrub x :: scrubList xs

def scrubFields : List (String × Json) → List (String × Json)
  | [] => []
  | (k, v) :: rest =>
    if p.secret k then
      match p.mask with
      | some text => (k, .str text) :: scrubFields rest
      | none => scrubFields rest
    else (k, scrub v) :: scrubFields rest

end

/-- The path meets a secret key. -/
def Guarded (path : List Step) : Prop := ∃ k, .key k ∈ path ∧ p.secret k = true

/-- A leaf as it is sent. -/
def wired : Json → Json
  | .bool b => if p.wire then .int (if b then 1 else 0) else .bool b
  | j => j

theorem scrub_leaf {j : Json} (h : j.Leaf) : p.scrub j = p.wired j := by
  cases j <;> simp_all [scrub, wired, Json.Leaf]

theorem scrubList_eq (xs : List Json) : p.scrubList xs = xs.map p.scrub := by
  induction xs with
  | nil => rfl
  | cons x xs ih => rw [scrubList, ih, List.map_cons]

theorem scrub_arr (xs : List Json) : p.scrub (.arr xs) = .arr (xs.map p.scrub) := by
  rw [scrub, scrubList_eq]

theorem lookup_scrubFields (fields : List (String × Json)) (k : String) :
    (p.scrubFields fields).lookup k =
      if p.secret k then (fields.lookup k).bind fun _ => p.mask.map .str
      else (fields.lookup k).map p.scrub := by
  induction fields with
  | nil => simp [scrubFields]
  | cons field rest ih =>
    obtain ⟨l, v⟩ := field
    rw [scrubFields]
    by_cases hkey : k = l
    · subst hkey
      cases hsecret : p.secret k with
      | false => simp
      | true =>
        cases hmask : p.mask with
        | some text => simp
        | none => simpa [hsecret, hmask] using ih
    · have hhead : ∀ w, ((l, w) :: p.scrubFields rest).lookup k = (p.scrubFields rest).lookup k := by
        intro w
        rw [List.lookup_cons, beq_eq_false_iff_ne.mpr hkey]
      have hskip : ((l, v) :: rest).lookup k = rest.lookup k := by
        rw [List.lookup_cons, beq_eq_false_iff_ne.mpr hkey]
      rw [hskip, ← ih]
      cases p.secret l with
      | false => exact hhead _
      | true =>
        cases p.mask with
        | some text => exact hhead _
        | none => rfl

/-- Where no secret key is met, the scrubbed value has the scrubbed part at the same path,
and nothing where the value has nothing. -/
theorem at?_scrub {path : List Step} (h : ¬ p.Guarded path) (j : Json) :
    (p.scrub j).at? path = (j.at? path).map p.scrub := by
  induction path generalizing j with
  | nil => simp
  | cons step rest ih =>
    have hrest : ¬ p.Guarded rest := by
      rintro ⟨k, hmem, hk⟩
      exact h ⟨k, List.mem_cons_of_mem _ hmem, hk⟩
    cases step with
    | key k =>
      have hk : ¬ p.secret k = true := fun hk => h ⟨k, List.mem_cons_self, hk⟩
      cases j with
      | obj fields =>
        simp only [scrub, Json.at?, lookup_scrubFields, if_neg hk]
        cases fields.lookup k with
        | none => rfl
        | some v => exact ih hrest v
      | bool b => cases hwire : p.wire <;> simp [scrub, Json.at?, hwire]
      | _ => simp [scrub, Json.at?]
    | index i =>
      cases j with
      | arr xs =>
        simp only [scrub_arr, Json.at?, List.getElem?_map]
        cases xs[i]? with
        | none => rfl
        | some x => exact ih hrest x
      | bool b => cases hwire : p.wire <;> simp [scrub, Json.at?, hwire]
      | _ => simp [scrub, Json.at?]

/-- Past a secret key there is nothing, and at it the mask or nothing. -/
theorem at?_scrub_guarded {path : List Step} (h : p.Guarded path) (j : Json) :
    (p.scrub j).at? path = none ∨ (p.scrub j).at? path = p.mask.map .str := by
  induction path generalizing j with
  | nil => obtain ⟨k, hmem, -⟩ := h; cases hmem
  | cons step rest ih =>
    cases step with
    | key k =>
      cases j with
      | obj fields =>
        simp only [scrub, Json.at?, lookup_scrubFields]
        by_cases hk : p.secret k = true
        · rw [if_pos hk]
          cases fields.lookup k <;> cases p.mask <;> cases rest <;> simp [Json.at?]
        · have hrest : p.Guarded rest := by
            obtain ⟨l, hmem, hl⟩ := h
            rcases List.mem_cons.mp hmem with heq | hmem
            · cases heq
              exact absurd hl hk
            · exact ⟨l, hmem, hl⟩
          rw [if_neg hk]
          cases fields.lookup k with
          | none => exact .inl rfl
          | some v => exact ih hrest v
      | bool b => left; cases hwire : p.wire <;> simp [scrub, Json.at?, hwire]
      | _ => left; simp [scrub, Json.at?]
    | index i =>
      have hrest : p.Guarded rest := by
        obtain ⟨l, hmem, hl⟩ := h
        rcases List.mem_cons.mp hmem with heq | hmem
        · cases heq
        · exact ⟨l, hmem, hl⟩
      cases j with
      | arr xs =>
        simp only [scrub_arr, Json.at?, List.getElem?_map]
        cases xs[i]? with
        | none => exact .inl rfl
        | some x => exact ih hrest x
      | bool b => left; cases hwire : p.wire <;> simp [scrub, Json.at?, hwire]
      | _ => left; simp [scrub, Json.at?]

mutual

theorem scrub_scrub : ∀ j : Json, p.scrub (p.scrub j) = p.scrub j
  | .obj fields => by
    simp only [scrub]
    rw [scrubFields_scrubFields fields]
  | .arr xs => by
    simp only [scrub]
    rw [scrubList_scrubList xs]
  | .bool b => by cases hwire : p.wire <;> simp [scrub, hwire]
  | .null => by simp [scrub]
  | .int n => by simp [scrub]
  | .float q => by simp [scrub]
  | .str s => by simp [scrub]

theorem scrubList_scrubList : ∀ xs : List Json, p.scrubList (p.scrubList xs) = p.scrubList xs
  | [] => rfl
  | x :: xs => by
    simp only [scrubList]
    rw [scrub_scrub x, scrubList_scrubList xs]

theorem scrubFields_scrubFields : ∀ fields : List (String × Json),
    p.scrubFields (p.scrubFields fields) = p.scrubFields fields
  | [] => rfl
  | (k, v) :: rest => by
    have hrest := scrubFields_scrubFields rest
    have hv := scrub_scrub v
    simp only [scrubFields]
    cases hsecret : p.secret k <;> cases hmask : p.mask <;>
      simp_all [scrubFields]

end

mutual

/-- The same value up to what stands under secret keys. -/
def Alike : Json → Json → Prop
  | .obj fs, .obj gs => AlikeFields fs gs
  | .arr xs, .arr ys => AlikeList xs ys
  | a, b => a = b

def AlikeList : List Json → List Json → Prop
  | [], [] => True
  | x :: xs, y :: ys => Alike x y ∧ AlikeList xs ys
  | _, _ => False

def AlikeFields : List (String × Json) → List (String × Json) → Prop
  | [], [] => True
  | (k, v) :: fs, (l, w) :: gs => k = l ∧ (p.secret k = true ∨ Alike v w) ∧ AlikeFields fs gs
  | _, _ => False

end

mutual

theorem scrub_alike : ∀ {v w : Json}, p.Alike v w → p.scrub v = p.scrub w
  | .obj fs, .obj gs, h => by
    simp only [scrub]
    rw [scrubFields_alike (by simpa only [Alike] using h)]
  | .arr xs, .arr ys, h => by
    simp only [scrub]
    rw [scrubList_alike (by simpa only [Alike] using h)]
  | .obj _, .null, h | .obj _, .bool _, h | .obj _, .int _, h | .obj _, .float _, h
  | .obj _, .str _, h | .obj _, .arr _, h | .arr _, .null, h | .arr _, .bool _, h
  | .arr _, .int _, h | .arr _, .float _, h | .arr _, .str _, h | .arr _, .obj _, h
  | .null, _, h | .bool _, _, h | .int _, _, h | .float _, _, h | .str _, _, h => by
    simp only [Alike] at h
    rw [h]

theorem scrubList_alike : ∀ {xs ys : List Json}, p.AlikeList xs ys → p.scrubList xs = p.scrubList ys
  | [], [], _ => rfl
  | x :: xs, y :: ys, h => by
    obtain ⟨hx, hxs⟩ : p.Alike x y ∧ p.AlikeList xs ys := by simpa only [AlikeList] using h
    rw [scrubList, scrubList, scrub_alike hx, scrubList_alike hxs]
  | [], _ :: _, h | _ :: _, [], h => by simp only [AlikeList] at h

theorem scrubFields_alike : ∀ {fs gs : List (String × Json)},
    p.AlikeFields fs gs → p.scrubFields fs = p.scrubFields gs
  | [], [], _ => rfl
  | (k, v) :: fs, (l, w) :: gs, h => by
    obtain ⟨rfl, hv, hrest⟩ : k = l ∧ (p.secret k = true ∨ p.Alike v w) ∧ p.AlikeFields fs gs := by
      simpa only [AlikeFields] using h
    rw [scrubFields, scrubFields, scrubFields_alike hrest]
    rcases hv with hsecret | hv
    · simp only [hsecret, if_true]
    · rw [scrub_alike hv]
  | [], _ :: _, h | _ :: _, [], h => by simp only [AlikeFields] at h

end

end Scrubber

end ProxmoxVEAutopilot.Foundation
