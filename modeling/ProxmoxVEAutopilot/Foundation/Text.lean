import ProxmoxVEAutopilot.Foundation.Json

/-!
# Texts

Trimming, the string operations the source uses, with Python's notion of white space, and
`int`.

## Trimming a list

The ends of a list without the elements of a kind.
-/

namespace ProxmoxVEAutopilot.Foundation

set_option autoImplicit false

section Trim
variable {α : Type*} {p q : α → Bool} {l : List α}

def trimmed (p : α → Bool) (l : List α) : List α := ((l.dropWhile p).reverse.dropWhile p).reverse

theorem dropWhile_dropWhile_of_imp (h : ∀ a, q a = true → p a = true) (l : List α) :
    (l.dropWhile p).dropWhile q = l.dropWhile p := by
  rw [List.dropWhile_eq_self_iff]
  intro hpos hq
  exact List.dropWhile_eq_self_iff.mp (List.dropWhile_idempotent p l) hpos (h _ hq)

theorem trimmed_isPrefix (p : α → Bool) (l : List α) : trimmed p l <+: l.dropWhile p := by
  unfold trimmed
  rw [← List.reverse_suffix, List.reverse_reverse]
  exact List.dropWhile_suffix _

theorem dropWhile_trimmed (h : ∀ a, q a = true → p a = true) (l : List α) :
    (trimmed p l).dropWhile q = trimmed p l := by
  rw [List.dropWhile_eq_self_iff]
  intro hpos
  have hstart := trimmed_isPrefix p l
  have hkept : 0 < (l.dropWhile p).length := Nat.lt_of_lt_of_le hpos hstart.length_le
  have hhead := List.dropWhile_eq_self_iff.mp (dropWhile_dropWhile_of_imp h l) hkept
  rwa [← hstart.getElem hpos] at hhead

theorem trimmed_trimmed (h : ∀ a, q a = true → p a = true) (l : List α) :
    trimmed q (trimmed p l) = trimmed p l := by
  change (((trimmed p l).dropWhile q).reverse.dropWhile q).reverse = trimmed p l
  rw [dropWhile_trimmed h]
  unfold trimmed
  rw [List.reverse_reverse, dropWhile_dropWhile_of_imp h]

theorem mem_trimmed {a : α} {l : List α} (ha : a ∈ l) (h : p a = false) : a ∈ trimmed p l := by
  have hrest : ∀ {l : List α}, a ∈ l → a ∈ l.dropWhile p := by
    intro l hl
    rw [← List.takeWhile_append_dropWhile (p := p) (l := l)] at hl
    refine (List.mem_append.mp hl).resolve_left fun hleading => ?_
    rw [List.mem_takeWhile_imp hleading] at h
    cases h
  exact List.mem_reverse.mpr (hrest (List.mem_reverse.mpr (hrest ha)))

theorem of_mem_trimmed {a : α} {l : List α} (h : a ∈ trimmed p l) : a ∈ l :=
  (List.dropWhile_suffix p).subset ((trimmed_isPrefix p l).subset h)

theorem trimmed_of_ends (hhead : ∀ a ∈ l.head?, p a = false) (hlast : ∀ a ∈ l.getLast?, p a = false) :
    trimmed p l = l := by
  have hstart : l.dropWhile p = l := by
    rw [List.dropWhile_eq_self_iff]
    intro hpos
    rw [hhead _ (by rw [List.head?_eq_getElem?, List.getElem?_eq_getElem hpos]; rfl)]
    exact Bool.false_ne_true
  have hend : l.reverse.dropWhile p = l.reverse := by
    rw [List.dropWhile_eq_self_iff]
    intro hpos
    rw [hlast _ (by rw [← List.head?_reverse, List.head?_eq_getElem?, List.getElem?_eq_getElem hpos]; rfl)]
    exact Bool.false_ne_true
  unfold trimmed
  rw [hstart, hend, List.reverse_reverse]

theorem head_of_trimmed (h : trimmed p l = l) : ∀ a ∈ l.head?, p a = false := by
  have hstart : l.dropWhile p = l := by
    have hwhole := trimmed_isPrefix p l
    rw [h] at hwhole
    exact (hwhole.eq_of_length_le (List.dropWhile_suffix p).length_le).symm
  intro a ha
  rw [← hstart] at ha
  exact Bool.eq_false_iff.mpr fun hp => by
    have := List.head?_dropWhile_not p l
    rw [ha] at this
    simp [hp] at this

theorem dropWhile_append_kept {c : α} (hc : p c = false) (xs ys : List α) :
    (xs ++ c :: ys).dropWhile p = xs.dropWhile p ++ c :: ys := by
  rw [List.dropWhile_append, List.dropWhile_cons_of_neg (by simp [hc])]
  split
  · rename_i hempty
    rw [List.isEmpty_iff.mp hempty, List.nil_append]
  · rfl

theorem trimmed_middle {c : α} (hc : p c = false) (xs ys : List α) :
    trimmed p (xs ++ c :: ys) = xs.dropWhile p ++ c :: (ys.reverse.dropWhile p).reverse := by
  unfold trimmed
  rw [dropWhile_append_kept hc, List.reverse_append, List.reverse_cons, List.append_assoc, List.singleton_append,
    dropWhile_append_kept hc, List.reverse_append, List.reverse_cons, List.reverse_reverse, List.append_assoc,
    List.singleton_append]

theorem trimmed_reverse (p : α → Bool) (l : List α) : trimmed p l.reverse = (trimmed p l).reverse := by
  by_cases hkept : ∃ c ∈ l, p c = false
  · obtain ⟨c, hmem, hc⟩ := hkept
    obtain ⟨xs, ys, rfl⟩ := List.append_of_mem hmem
    rw [trimmed_middle hc, List.reverse_append, List.reverse_cons, List.append_assoc, List.singleton_append,
      trimmed_middle hc, List.reverse_append, List.reverse_cons, List.append_assoc, List.singleton_append,
      List.reverse_reverse, List.reverse_reverse]
  · have hall : ∀ c ∈ l, p c = true := fun c hc => by
      cases hp : p c with
      | true => rfl
      | false => exact absurd ⟨c, hc, hp⟩ hkept
    have hnil : l.dropWhile p = [] := List.dropWhile_eq_nil_iff.mpr hall
    have hnil' : l.reverse.dropWhile p = [] :=
      List.dropWhile_eq_nil_iff.mpr fun c hc => hall c (List.mem_reverse.mp hc)
    unfold trimmed
    rw [hnil, hnil']
    rfl

theorem trimmed_dropWhile (p : α → Bool) (l : List α) : trimmed p (l.dropWhile p) = trimmed p l := by
  unfold trimmed
  rw [dropWhile_dropWhile_of_imp fun _ h => h]

theorem trimmed_reverse_dropWhile (p : α → Bool) (l : List α) :
    trimmed p (l.reverse.dropWhile p).reverse = trimmed p l := by
  rw [trimmed_reverse, trimmed_dropWhile, trimmed_reverse, List.reverse_reverse]

end Trim

end ProxmoxVEAutopilot.Foundation

/-!
## String operations
-/

namespace ProxmoxVEAutopilot.Foundation

set_option autoImplicit false

def isSpace (c : Char) : Bool :=
  let n := c.toNat
  (9 ≤ n && n ≤ 13) || (28 ≤ n && n ≤ 32) || n == 0x85 || n == 0xA0 || n == 0x1680 ||
    (0x2000 ≤ n && n ≤ 0x200A) || n == 0x2028 || n == 0x2029 || n == 0x202F || n == 0x205F ||
    n == 0x3000

def strip (s : String) : String :=
  String.ofList (((s.toList.dropWhile isSpace).reverse.dropWhile isSpace).reverse)

theorem strip_strip (s : String) : strip (strip s) = strip s := by
  unfold strip
  rw [String.toList_ofList]
  exact congrArg String.ofList (trimmed_trimmed (fun _ h => h) s.toList)

theorem strip_ne_empty {s : String} {c : Char} (hc : c ∈ s.toList) (h : isSpace c = false) : strip s ≠ "" := by
  intro hempty
  have hnil : trimmed isSpace s.toList = [] := by
    rw [← String.toList_ofList (l := trimmed isSpace s.toList)]
    exact congrArg String.toList hempty
  exact List.ne_nil_of_mem (mem_trimmed hc h) hnil

/-- `value or None` for a text. -/
def given (s : Option String) : Option String := s.filter (· ≠ "")

def orElse (first second : Option String) : Option String := (given first).or second

/-- `str.lower()` up to the letters that stay outside ASCII, which the source compares with
nothing: besides the Latin capitals the Kelvin sign and the dotted I have an ASCII lower case. -/
def lower (s : String) : String :=
  String.ofList (s.toList.flatMap fun c =>
    if c.toNat = 0x212A then ['k']
    else if c.toNat = 0x130 then ['i', Char.ofNat 0x307]
    else [c.toLower])

theorem lower_append (s t : String) : lower (s ++ t) = lower s ++ lower t := by
  unfold lower
  rw [String.toList_append, List.flatMap_append, String.ofList_append]

theorem toLower_digit {c : Char} (h : c.isDigit = true) : c.toLower = c := by
  have hrange : 48 ≤ c.toNat ∧ c.toNat ≤ 57 := by simpa [Char.isDigit, UInt32.le_iff_toNat_le] using h
  refine Char.toLower_eq_of_not_isUpper ?_
  simp only [Char.isUpper, decide_eq_true_eq, UInt32.le_iff_toNat_le]
  intro h
  exact absurd (Nat.le_trans h.1 hrange.2) (by decide)

theorem lower_ascii {cs : List Char} (h : ∀ c ∈ cs, c.toNat < 128) :
    lower (String.ofList cs) = String.ofList (cs.map Char.toLower) := by
  have hone : ∀ c ∈ cs, (if c.toNat = 0x212A then ['k']
      else if c.toNat = 0x130 then ['i', Char.ofNat 0x307] else [c.toLower]) = [c.toLower] := by
    intro c hc
    have hascii := h c hc
    rw [if_neg (by omega), if_neg (by omega)]
  unfold lower
  rw [String.toList_ofList, List.flatMap_congr hone, List.map_eq_flatMap]

theorem lower_digits {digits : String} (h : ∀ c ∈ digits.toList, c.isDigit = true) : lower digits = digits := by
  have hascii : ∀ c ∈ digits.toList, c.toNat < 128 := by
    intro c hc
    have hrange : 48 ≤ c.toNat ∧ c.toNat ≤ 57 := by
      simpa [Char.isDigit, UInt32.le_iff_toNat_le] using h c hc
    omega
  have hlower := lower_ascii hascii
  rwa [List.map_congr_left fun c hc => toLower_digit (h c hc), List.map_id', String.ofList_toList] at hlower

theorem lower_eq_empty (s : String) : lower s = "" ↔ s = "" := by
  refine ⟨fun h => ?_, fun h => by rw [h]; rfl⟩
  have hnil : s.toList.flatMap (fun c => if c.toNat = 0x212A then ['k']
      else if c.toNat = 0x130 then ['i', Char.ofNat 0x307] else [c.toLower]) = [] := by
    rw [← String.toList_ofList (l := s.toList.flatMap _)]
    exact congrArg String.toList h
  rw [List.flatMap_eq_nil_iff] at hnil
  refine String.toList_inj.mp (List.eq_nil_iff_forall_not_mem.mpr fun c hc => ?_)
  have hone := hnil c hc
  split at hone
  · cases hone
  · split at hone <;> cases hone

end ProxmoxVEAutopilot.Foundation

/-!
## Python's `int`

What `int(value)` makes of a JSON value.
-/

namespace ProxmoxVEAutopilot.Foundation

set_option autoImplicit false

/-- Digits, with single underscores between them. -/
def digits (value : Nat) : List Char → Option Nat
  | [] => some value
  | '_' :: c :: rest => if c.isDigit then digits (10 * value + (c.toNat - 48)) rest else none
  | c :: rest => if c.isDigit then digits (10 * value + (c.toNat - 48)) rest else none

def natural : List Char → Option Nat
  | [] => none
  | c :: rest => if c.isDigit then digits (c.toNat - 48) rest else none

/-- `int` of a text, without the decimal digits outside ASCII. -/
def intOfText (s : String) : Option Int :=
  match (strip s).toList with
  | '-' :: rest => (natural rest).map fun n => - (n : Int)
  | '+' :: rest => (natural rest).map fun n => (n : Int)
  | chars => (natural chars).map fun n => (n : Int)

/-- `int(value)`, none where it raises. -/
def pyInt : Json → Option Int
  | .int n => some n
  | .bool b => some (if b then 1 else 0)
  | .float q => some (q.num.tdiv q.den)
  | .str s => intOfText s
  | _ => none

end ProxmoxVEAutopilot.Foundation
