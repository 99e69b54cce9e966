import ProxmoxVEAutopilot.Foundation.KeyOrder
import ProxmoxVEAutopilot.Foundation.Bytes

/-!
# JSON texts

`json.dumps` with `ensure_ascii`, in the separators it is given, and `json.loads`. What is
written is read back, whatever follows it, so a text stands for one value only.
-/

namespace ProxmoxVEAutopilot.Foundation.JsonText

set_option autoImplicit false

/-! ### Runs of characters -/

/-- The reader of a run of such characters stops here. -/
def Stops (p : Char → Bool) (rest : List Char) : Prop := ∀ c ∈ rest.head?, p c = false

theorem takeWhile_run {p : Char → Bool} {run rest : List Char} (hrun : ∀ c ∈ run, p c = true) (hrest : Stops p rest) :
    (run ++ rest).takeWhile p = run := by
  rw [List.takeWhile_append_of_pos hrun]
  cases rest with
  | nil => simp
  | cons c rest => rw [List.takeWhile_cons_of_neg (by simp [hrest c rfl]), List.append_nil]

theorem dropWhile_run {p : Char → Bool} {run rest : List Char} (hrun : ∀ c ∈ run, p c = true) (hrest : Stops p rest) :
    (run ++ rest).dropWhile p = rest := by
  rw [List.dropWhile_append_of_pos hrun]
  cases rest with
  | nil => rfl
  | cons c rest => rw [List.dropWhile_cons_of_neg (by simp [hrest c rfl])]

/-! ### Strings -/

def hex4 (unit : Nat) : List Char :=
  [(unit / 4096 % 16).digitChar, (unit / 256 % 16).digitChar, (unit / 16 % 16).digitChar, (unit % 16).digitChar]

/-- `ESCAPE_ASCII`: what is not between a blank and a tilde is written as its UTF-16 units. -/
def escape (c : Char) : List Char :=
  if c = '"' then ['\\', '"']
  else if c = '\\' then ['\\', '\\']
  else if c = '\n' then ['\\', 'n']
  else if c = '\r' then ['\\', 'r']
  else if c = '\t' then ['\\', 't']
  else if c = '\x0c' then ['\\', 'f']
  else if c = '\x08' then ['\\', 'b']
  else if 0x20 ≤ c.toNat ∧ c.toNat ≤ 0x7e then [c]
  else (utf16Units c).flatMap fun unit => '\\' :: 'u' :: hex4 unit

def quoted (s : String) : List Char := '"' :: s.toList.flatMap escape ++ ['"']

def hexValue (c : Char) : Option Nat :=
  if c.isDigit then some (c.toNat - 48)
  else if 'a' ≤ c ∧ c ≤ 'f' then some (c.toNat - 87)
  else if 'A' ≤ c ∧ c ≤ 'F' then some (c.toNat - 55)
  else none

def unhex4 (a b c d : Char) : Option Nat := do
  let a ← hexValue a
  let b ← hexValue b
  let c ← hexValue c
  let d ← hexValue d
  some (4096 * a + 256 * b + 16 * c + d)

def unescape (c : Char) : Option Char :=
  if c = '"' ∨ c = '\\' ∨ c = '/' then some c
  else if c = 'n' then some '\n'
  else if c = 'r' then some '\r'
  else if c = 't' then some '\t'
  else if c = 'f' then some '\x0c'
  else if c = 'b' then some '\x08'
  else none

def pushUnits (units : List Nat) (read : List Nat × List Char) : List Nat × List Char := (units ++ read.1, read.2)

/-- Up to the closing quote, as UTF-16 units: escapes of surrogates are joined afterwards. -/
def readUnits : List Char → Option (List Nat × List Char)
  | [] => none
  | '"' :: rest => some ([], rest)
  | '\\' :: 'u' :: a :: b :: c :: d :: rest =>
    (unhex4 a b c d).bind fun unit => (readUnits rest).map (pushUnits [unit])
  | '\\' :: c :: rest => (unescape c).bind fun c => (readUnits rest).map (pushUnits (utf16Units c))
  | c :: rest => if c.toNat < 0x20 then none else (readUnits rest).map (pushUnits (utf16Units c))

/-- A string after its opening quote; none also where a surrogate stands alone. -/
def readString (s : List Char) : Option (String × List Char) :=
  (readUnits s).bind fun read => (decodeUnits read.1).map fun chars => (String.ofList chars, read.2)

theorem hexValue_digitChar {n : Nat} (h : n < 16) : hexValue n.digitChar = some n := by
  have hall : ∀ n < 16, hexValue n.digitChar = some n := by decide
  exact hall n h

theorem readUnits_hex4 {unit : Nat} (h : unit < 0x10000) (rest : List Char) :
    readUnits ('\\' :: 'u' :: hex4 unit ++ rest) = (readUnits rest).map (pushUnits [unit]) := by
  have hdigit : ∀ n, hexValue (n % 16).digitChar = some (n % 16) := fun n => hexValue_digitChar (Nat.mod_lt n (by decide))
  have hunhex : unhex4 (unit / 4096 % 16).digitChar (unit / 256 % 16).digitChar (unit / 16 % 16).digitChar
      (unit % 16).digitChar = some unit := by
    unfold unhex4
    rw [hdigit, hdigit, hdigit, hdigit]
    refine congrArg some ?_
    omega
  simp only [hex4, List.cons_append, List.nil_append, readUnits, hunhex, Option.bind_some]

theorem readUnits_units {units : List Nat} (h : ∀ u ∈ units, u < 0x10000) (rest : List Char) :
    readUnits ((units.flatMap fun unit => '\\' :: 'u' :: hex4 unit) ++ rest) =
      (readUnits rest).map (pushUnits units) := by
  induction units with
  | nil => cases hread : readUnits rest <;> simp [hread, pushUnits]
  | cons u units ih =>
    rw [List.flatMap_cons, List.append_assoc, readUnits_hex4 (h u (List.mem_cons_self ..)),
      ih fun v hv => h v (List.mem_cons_of_mem u hv), Option.map_map]
    congr 1

theorem readUnits_plain {c : Char} (hquote : c ≠ '"') (hback : c ≠ '\\') (hcontrol : 0x20 ≤ c.toNat) (rest : List Char) :
    readUnits (c :: rest) = (readUnits rest).map (pushUnits (utf16Units c)) := by
  rw [readUnits]
  · rw [if_neg (by omega)]
  · exact hquote
  · exact fun _ _ _ _ _ h _ => hback h
  · exact fun _ _ h _ => hback h

theorem readUnits_escape (c : Char) (rest : List Char) :
    readUnits (escape c ++ rest) = (readUnits rest).map (pushUnits (utf16Units c)) := by
  unfold escape
  by_cases hquote : c = '"'
  · subst hquote; rfl
  by_cases hback : c = '\\'
  · subst hback; rfl
  by_cases hn : c = '\n'
  · subst hn; rfl
  by_cases hr : c = '\r'
  · subst hr; rfl
  by_cases ht : c = '\t'
  · subst ht; rfl
  by_cases hf : c = '\x0c'
  · subst hf; rfl
  by_cases hb : c = '\x08'
  · subst hb; rfl
  rw [if_neg hquote, if_neg hback, if_neg hn, if_neg hr, if_neg ht, if_neg hf, if_neg hb]
  by_cases hplain : 0x20 ≤ c.toNat ∧ c.toNat ≤ 0x7e
  · rw [if_pos hplain]
    exact readUnits_plain hquote hback hplain.1 rest
  · rw [if_neg hplain]
    exact readUnits_units (fun u hu => unit_lt hu) rest

theorem readString_quoted (s : String) (rest : List Char) :
    readString (s.toList.flatMap escape ++ '"' :: rest) = some (s, rest) := by
  have hread : ∀ chars : List Char,
      readUnits (chars.flatMap escape ++ '"' :: rest) = some (chars.flatMap utf16Units, rest) := by
    intro chars
    induction chars with
    | nil => rfl
    | cons c chars ih =>
      rw [List.flatMap_cons, List.append_assoc, readUnits_escape, ih]
      rfl
  unfold readString
  rw [hread, Option.bind_some, decodeUnits_utf16Units, Option.map_some, String.ofList_toList]

/-! ### Numbers -/

/-- The parts of a float's text: `-12.5e+30`, without a fraction or without an exponent, not without
both. -/
structure FloatText where
  negative : Bool
  whole : Nat
  fraction : List Char
  exponent : Option (Char × List Char)
  fraction_digits : ∀ c ∈ fraction, c.isDigit = true
  exponent_digits : ∀ e ∈ exponent, (e.1 = '+' ∨ e.1 = '-') ∧ e.2 ≠ [] ∧ ∀ c ∈ e.2, c.isDigit = true
  isFloat : fraction ≠ [] ∨ exponent ≠ none

def signed (negative : Bool) (text : List Char) : List Char := if negative then '-' :: text else text

def FloatText.fractionText (t : FloatText) : List Char := if t.fraction = [] then [] else '.' :: t.fraction

def FloatText.exponentText (t : FloatText) : List Char :=
  match t.exponent with
  | some (sign, ds) => 'e' :: sign :: ds
  | none => []

def FloatText.text (t : FloatText) : List Char :=
  signed t.negative (Nat.toDigits 10 t.whole) ++ (t.fractionText ++ t.exponentText)

/-- `repr` and `float`: a float is read from its text. -/
structure Floats where
  repr : Rat → FloatText
  parse : List Char → Rat
  parse_repr : ∀ q, parse (repr q).text = q

/-- What may go on with a number. -/
def inNumber (c : Char) : Bool := c.isDigit || c = '.' || c = 'e' || c = 'E'

def scanNat : List Char → Option (List Char × List Char)
  | [] => none
  | c :: rest =>
    if c = '0' then some ([c], rest)
    else if c.isDigit then some ((c :: rest).takeWhile Char.isDigit, (c :: rest).dropWhile Char.isDigit)
    else none

def scanInt : List Char → Option (List Char × List Char)
  | '-' :: rest => (scanNat rest).map fun read => ('-' :: read.1, read.2)
  | s => scanNat s

def scanFraction : List Char → List Char × List Char
  | '.' :: rest =>
    if rest.takeWhile Char.isDigit = [] then ([], '.' :: rest)
    else ('.' :: rest.takeWhile Char.isDigit, rest.dropWhile Char.isDigit)
  | s => ([], s)

def scanSign : List Char → List Char × List Char
  | '+' :: rest => (['+'], rest)
  | '-' :: rest => (['-'], rest)
  | s => ([], s)

def scanExponent : List Char → List Char × List Char
  | [] => ([], [])
  | c :: rest =>
    let sign := scanSign rest
    if (c = 'e' ∨ c = 'E') ∧ sign.2.takeWhile Char.isDigit ≠ [] then
      (c :: sign.1 ++ sign.2.takeWhile Char.isDigit, sign.2.dropWhile Char.isDigit)
    else ([], c :: rest)

def intOf : List Char → Int
  | '-' :: ds => - (Nat.ofDigitChars 10 ds 0 : Nat)
  | ds => (Nat.ofDigitChars 10 ds 0 : Nat)

/-- `NUMBER_RE`: a number with a fraction or an exponent is a float. -/
def readNumber (floats : Floats) (s : List Char) : Option (Json × List Char) :=
  (scanInt s).map fun whole =>
    let fraction := scanFraction whole.2
    let exponent := scanExponent fraction.2
    (if fraction.1 ++ exponent.1 = [] then .int (intOf whole.1)
      else .float (floats.parse (whole.1 ++ (fraction.1 ++ exponent.1))), exponent.2)

theorem toDigits_digits (n : Nat) : ∀ c ∈ Nat.toDigits 10 n, c.isDigit = true := fun _ hc =>
  Nat.isDigit_of_mem_toDigits (by decide) (by decide) hc

theorem toDigits_zero_head {n : Nat} {ds : List Char} (h : Nat.toDigits 10 n = '0' :: ds) : ds = [] ∧ n = 0 := by
  induction n using Nat.strong_induction_on generalizing ds with
  | _ n ih =>
    by_cases hsmall : n < 10
    · rw [Nat.toDigits_of_lt_base hsmall] at h
      obtain ⟨hdigit, rfl⟩ := List.cons.inj h
      have hall : ∀ n < 10, n.digitChar = '0' → n = 0 := by decide
      exact ⟨rfl, hall n hsmall hdigit⟩
    · rw [Nat.toDigits_of_base_le (by decide) (by omega)] at h
      have hne : Nat.toDigits 10 (n / 10) ≠ [] := Nat.toDigits_ne_nil
      obtain ⟨c, cs, hcs⟩ := List.exists_cons_of_ne_nil hne
      rw [hcs, List.cons_append] at h
      obtain ⟨rfl, -⟩ := List.cons.inj h
      have hzero := (ih (n / 10) (by omega) hcs).2
      omega

theorem stops_of_inNumber {rest : List Char} (h : Stops inNumber rest) : Stops Char.isDigit rest := by
  intro c hc
  have hnumber := h c hc
  unfold inNumber at hnumber
  simp only [Bool.or_eq_false_iff] at hnumber
  exact hnumber.1.1.1

theorem scanNat_toDigits (n : Nat) {rest : List Char} (hrest : Stops Char.isDigit rest) :
    scanNat (Nat.toDigits 10 n ++ rest) = some (Nat.toDigits 10 n, rest) := by
  have hdigits := toDigits_digits n
  have htake := takeWhile_run hdigits hrest
  have hdrop := dropWhile_run hdigits hrest
  have hne : Nat.toDigits 10 n ≠ [] := Nat.toDigits_ne_nil
  obtain ⟨c, cs, hcs⟩ := List.exists_cons_of_ne_nil hne
  rw [hcs, List.cons_append] at htake hdrop ⊢
  rw [scanNat]
  by_cases hzero : c = '0'
  · subst hzero
    obtain ⟨rfl, -⟩ := toDigits_zero_head hcs
    rw [if_pos rfl, List.nil_append]
  · have hdigit : c.isDigit = true := hdigits c (by rw [hcs]; exact List.mem_cons_self ..)
    rw [if_neg hzero, if_pos hdigit, htake, hdrop]

theorem scanInt_signed (negative : Bool) (n : Nat) {rest : List Char} (hrest : Stops Char.isDigit rest) :
    scanInt (signed negative (Nat.toDigits 10 n) ++ rest) = some (signed negative (Nat.toDigits 10 n), rest) := by
  cases negative with
  | true =>
    unfold signed
    rw [if_pos rfl, List.cons_append, scanInt, scanNat_toDigits n hrest, Option.map_some]
  | false =>
    unfold signed
    rw [if_neg (by decide)]
    have hne : Nat.toDigits 10 n ≠ [] := Nat.toDigits_ne_nil
    obtain ⟨c, cs, hcs⟩ := List.exists_cons_of_ne_nil hne
    have hdigit : c.isDigit = true := toDigits_digits n c (by rw [hcs]; exact List.mem_cons_self ..)
    rw [← scanNat_toDigits n hrest, hcs, List.cons_append, scanInt]
    rintro _ ⟨rfl⟩
    exact absurd hdigit (by decide)

theorem scanFraction_stops {rest : List Char} (h : Stops (· = '.') rest) : scanFraction rest = ([], rest) := by
  unfold scanFraction
  split
  · exact absurd (h '.' rfl) (by decide)
  · rfl

theorem scanExponent_stops {rest : List Char} (h : Stops (fun c => c = 'e' || c = 'E') rest) :
    scanExponent rest = ([], rest) := by
  cases rest with
  | nil => rfl
  | cons c rest =>
    have hc := h c rfl
    simp only [Bool.or_eq_false_iff, decide_eq_false_iff_not] at hc
    rw [scanExponent, if_neg]
    rintro ⟨hletter, -⟩
    exact hletter.elim hc.1 hc.2

theorem scanFraction_text (t : FloatText) {rest : List Char} (hrest : Stops inNumber rest) :
    scanFraction (t.fractionText ++ (t.exponentText ++ rest)) = (t.fractionText, t.exponentText ++ rest) := by
  have hstops : Stops (fun c => c.isDigit || c = '.') (t.exponentText ++ rest) := by
    unfold FloatText.exponentText
    cases t.exponent with
    | some e =>
      rintro c ⟨rfl⟩
      decide
    | none =>
      intro c hc
      have hnumber := hrest c hc
      unfold inNumber at hnumber
      simp only [Bool.or_eq_false_iff] at hnumber ⊢
      exact hnumber.1.1
  unfold FloatText.fractionText
  by_cases hfraction : t.fraction = []
  · rw [if_pos hfraction, List.nil_append]
    refine scanFraction_stops fun c hc => ?_
    have hdot := hstops c hc
    rw [Bool.or_eq_false_iff] at hdot
    exact hdot.2
  · have hdigits : Stops Char.isDigit (t.exponentText ++ rest) := by
      intro c hc
      have hdot := hstops c hc
      rw [Bool.or_eq_false_iff] at hdot
      exact hdot.1
    rw [if_neg hfraction, List.cons_append, scanFraction, takeWhile_run t.fraction_digits hdigits,
      dropWhile_run t.fraction_digits hdigits, if_neg hfraction]

theorem scanExponent_text (t : FloatText) {rest : List Char} (hrest : Stops inNumber rest) :
    scanExponent (t.exponentText ++ rest) = (t.exponentText, rest) := by
  have hdigits := t.exponent_digits
  unfold FloatText.exponentText
  cases hexponent : t.exponent with
  | none =>
    refine scanExponent_stops fun c hc => ?_
    have hnumber := hrest c hc
    unfold inNumber at hnumber
    simp only [Bool.or_eq_false_iff] at hnumber ⊢
    exact ⟨hnumber.1.2, hnumber.2⟩
  | some e =>
    obtain ⟨sign, ds⟩ := e
    obtain ⟨hsign, hne, hds⟩ := hdigits (sign, ds) hexponent
    have hread : scanSign (sign :: (ds ++ rest)) = ([sign], ds ++ rest) := by
      rcases hsign with rfl | rfl <;> rfl
    have hstops := stops_of_inNumber hrest
    dsimp only at hne hds ⊢
    rw [List.cons_append, List.cons_append, scanExponent, hread]
    dsimp only
    rw [takeWhile_run hds hstops, dropWhile_run hds hstops, if_pos ⟨.inl rfl, hne⟩]
    rfl

theorem readNumber_float (floats : Floats) (q : Rat) {rest : List Char} (hrest : Stops inNumber rest) :
    readNumber floats ((floats.repr q).text ++ rest) = some (.float q, rest) := by
  have hparse := floats.parse_repr q
  generalize floats.repr q = t at hparse
  have hstops : Stops Char.isDigit (t.fractionText ++ (t.exponentText ++ rest)) := by
    unfold FloatText.fractionText FloatText.exponentText
    split
    · cases t.exponent with
      | some e =>
        rintro c ⟨rfl⟩
        decide
      | none => exact stops_of_inNumber hrest
    · rintro c ⟨rfl⟩
      decide
  have hne : t.fractionText ++ t.exponentText ≠ [] := by
    unfold FloatText.fractionText FloatText.exponentText
    rcases t.isFloat with hfraction | hexponent
    · rw [if_neg hfraction]
      simp
    · obtain ⟨e, he⟩ := Option.ne_none_iff_exists'.mp hexponent
      simp [he]
  unfold readNumber
  unfold FloatText.text at hparse ⊢
  rw [List.append_assoc, List.append_assoc, scanInt_signed t.negative t.whole hstops, Option.map_some]
  dsimp only
  rw [scanFraction_text t hrest]
  dsimp only
  rw [scanExponent_text t hrest, if_neg hne, hparse]

theorem intOf_digits (n : Nat) : intOf (Nat.toDigits 10 n) = n := by
  have hne : Nat.toDigits 10 n ≠ [] := Nat.toDigits_ne_nil
  obtain ⟨c, cs, hcs⟩ := List.exists_cons_of_ne_nil hne
  have hdigit : c.isDigit = true := toDigits_digits n c (by rw [hcs]; exact List.mem_cons_self ..)
  unfold intOf
  split
  · rename_i ds hminus
    rw [hcs] at hminus
    obtain ⟨rfl, -⟩ := List.cons.inj hminus
    exact absurd hdigit (by decide)
  · rw [Nat.ofDigitChars_ten_toDigits]

theorem intText_signed (n : Int) : (toString n).toList = signed (n < 0) (Nat.toDigits 10 n.natAbs) := by
  cases n with
  | ofNat n => exact Nat.toList_repr
  | negSucc n =>
    change ("-" ++ Nat.repr (n + 1)).toList = _
    rw [String.toList_append, Nat.toList_repr, decide_eq_true (Int.negSucc_lt_zero n)]
    rfl

theorem intOf_signed (n : Int) : intOf (signed (n < 0) (Nat.toDigits 10 n.natAbs)) = n := by
  unfold signed
  split
  · rename_i hnegative
    rw [intOf, Nat.ofDigitChars_ten_toDigits]
    simp only [decide_eq_true_eq] at hnegative
    omega
  · rename_i hnegative
    rw [intOf_digits]
    simp only [decide_eq_true_eq] at hnegative
    omega

theorem readNumber_int (floats : Floats) (n : Int) {rest : List Char} (hrest : Stops inNumber rest) :
    readNumber floats ((toString n).toList ++ rest) = some (.int n, rest) := by
  have hdot : Stops (· = '.') rest := by
    intro c hc
    have hnumber := hrest c hc
    unfold inNumber at hnumber
    simp only [Bool.or_eq_false_iff] at hnumber
    exact hnumber.1.1.2
  have hletter : Stops (fun c => c = 'e' || c = 'E') rest := by
    intro c hc
    have hnumber := hrest c hc
    unfold inNumber at hnumber
    simp only [Bool.or_eq_false_iff] at hnumber ⊢
    exact ⟨hnumber.1.2, hnumber.2⟩
  unfold readNumber
  rw [intText_signed, scanInt_signed _ _ (stops_of_inNumber hrest), Option.map_some]
  dsimp only
  rw [scanFraction_stops hdot]
  dsimp only
  rw [scanExponent_stops hletter, intOf_signed]
  rfl

/-! ### Values -/

section

variable (floats : Floats)

/-- What follows a separator: nothing, or a blank. -/
def gap (spaced : Bool) : List Char := if spaced then [' '] else []

mutual

/-- `json.dumps(value)`; `spaced` where the separators are `", "` and `": "`, not `","` and `":"`. -/
def text (spaced : Bool) : Json → List Char
  | .null => ['n', 'u', 'l', 'l']
  | .bool true => ['t', 'r', 'u', 'e']
  | .bool false => ['f', 'a', 'l', 's', 'e']
  | .int n => (toString n).toList
  | .float q => (floats.repr q).text
  | .str s => quoted s
  | .arr [] => ['[', ']']
  | .arr (x :: xs) => '[' :: (text spaced x ++ textItems spaced xs)
  | .obj [] => ['\x7b', '\x7d']
  | .obj ((k, v) :: fields) => '\x7b' :: (quoted k ++ (':' :: gap spaced ++ (text spaced v ++ textFields spaced fields)))

def textItems (spaced : Bool) : List Json → List Char
  | [] => [']']
  | x :: xs => ',' :: gap spaced ++ (text spaced x ++ textItems spaced xs)

def textFields (spaced : Bool) : List (String × Json) → List Char
  | [] => ['\x7d']
  | (k, v) :: fields =>
    ',' :: gap spaced ++ (quoted k ++ (':' :: gap spaced ++ (text spaced v ++ textFields spaced fields)))

end

def isBlank (c : Char) : Bool := c = ' ' || c = '\t' || c = '\n' || c = '\r'

/-- A dict built from its pairs in turn. -/
def setKey (fields : List (String × Json)) (pair : String × Json) : List (String × Json) :=
  if pair.1 ∈ fields.map Prod.fst then fields.map fun p => if p.1 = pair.1 then pair else p else fields ++ [pair]

def dictOf (pairs : List (String × Json)) : Json := .obj (pairs.foldl setKey [])

/-- The rest of a word whose first letter was read. -/
def readWord (word : List Char) (value : Json) (s : List Char) : Option (Json × List Char) :=
  if word.isPrefixOf s then some (value, s.drop word.length) else none

/-- What an array has after an element: more of them, or its end. -/
def afterItem (x : Json) (more : List Char → Option (List Json × List Char)) (s : List Char) :
    Option (List Json × List Char) :=
  match s.dropWhile isBlank with
  | ',' :: rest => (more (rest.dropWhile isBlank)).map fun read => (x :: read.1, read.2)
  | ']' :: rest => some ([x], rest)
  | _ => none

def afterField (field : String × Json) (more : List Char → Option (List (String × Json) × List Char))
    (s : List Char) : Option (List (String × Json) × List Char) :=
  match s.dropWhile isBlank with
  | ',' :: rest => (more (rest.dropWhile isBlank)).map fun read => (field :: read.1, read.2)
  | '\x7d' :: rest => some ([field], rest)
  | _ => none

/-- A key with its colon. -/
def readKey : List Char → Option (String × List Char)
  | '"' :: rest =>
    (readString rest).bind fun key =>
      match key.2.dropWhile isBlank with
      | ':' :: rest => some (key.1, rest.dropWhile isBlank)
      | _ => none
  | _ => none

mutual

/-- Without `NaN` and the infinities. -/
def readValue : Nat → List Char → Option (Json × List Char)
  | 0, _ => none
  | _ + 1, [] => none
  | n + 1, c :: rest =>
    if c = '"' then (readString rest).map fun read => (.str read.1, read.2)
    else if c = '[' then
      let items := rest.dropWhile isBlank
      if items.head? = some ']' then some (.arr [], items.tail)
      else (readItems n items).map fun read => (.arr read.1, read.2)
    else if c = '\x7b' then
      let fields := rest.dropWhile isBlank
      if fields.head? = some '\x7d' then some (.obj [], fields.tail)
      else (readFields n fields).map fun read => (dictOf read.1, read.2)
    else if c = 'n' then readWord ['u', 'l', 'l'] .null rest
    else if c = 't' then readWord ['r', 'u', 'e'] (.bool true) rest
    else if c = 'f' then readWord ['a', 'l', 's', 'e'] (.bool false) rest
    else readNumber floats (c :: rest)

def readItems : Nat → List Char → Option (List Json × List Char)
  | 0, _ => none
  | n + 1, s => (readValue n s).bind fun read => afterItem read.1 (readItems n) read.2

def readFields : Nat → List Char → Option (List (String × Json) × List Char)
  | 0, _ => none
  | n + 1, s =>
    (readKey s).bind fun key => (readValue n key.2).bind fun read => afterField (key.1, read.1) (readFields n) read.2

end

/-- `json.loads`; none where it raises. -/
def loads (s : List Char) : Option Json :=
  (readValue floats (s.length + 1) (s.dropWhile isBlank)).bind fun read =>
    if read.2.dropWhile isBlank = [] then some read.1 else none

/-! ### What is written is read back -/

theorem blanks_gap (spaced : Bool) {c : Char} (hc : isBlank c = false) (s : List Char) :
    (gap spaced ++ c :: s).dropWhile isBlank = c :: s := by
  cases spaced with
  | true =>
    change ([' '] ++ c :: s).dropWhile isBlank = c :: s
    rw [List.singleton_append, List.dropWhile_cons_of_pos (by decide), List.dropWhile_cons_of_neg (by simp [hc])]
  | false =>
    change (c :: s).dropWhile isBlank = c :: s
    rw [List.dropWhile_cons_of_neg (by simp [hc])]

theorem signed_head (negative : Bool) (n : Nat) :
    ∃ c cs, signed negative (Nat.toDigits 10 n) = c :: cs ∧ (c.isDigit = true ∨ c = '-') := by
  have hne : Nat.toDigits 10 n ≠ [] := Nat.toDigits_ne_nil
  obtain ⟨c, cs, hcs⟩ := List.exists_cons_of_ne_nil hne
  cases negative with
  | true => exact ⟨'-', _, rfl, .inr rfl⟩
  | false => exact ⟨c, cs, hcs, .inl (toDigits_digits n c (by rw [hcs]; exact List.mem_cons_self ..))⟩

/-- The marks a value begins with that is not a number. -/
def isMark (c : Char) : Bool := c = '"' || c = '[' || c = '\x7b' || c = 'n' || c = 't' || c = 'f'

theorem number_head {c : Char} (h : c.isDigit = true ∨ c = '-') :
    isMark c = false ∧ isBlank c = false ∧ c ≠ ']' := by
  rcases h with h | rfl
  · have hrange := h
    unfold Char.isDigit at hrange
    refine ⟨?_, ?_, ?_⟩
    · cases hmark : isMark c with
      | false => rfl
      | true =>
        unfold isMark at hmark
        simp only [Bool.or_eq_true, decide_eq_true_eq] at hmark
        rcases hmark with (((((rfl | rfl) | rfl) | rfl) | rfl) | rfl) <;> exact absurd h (by decide)
    · cases hblank : isBlank c with
      | false => rfl
      | true =>
        unfold isBlank at hblank
        simp only [Bool.or_eq_true, decide_eq_true_eq] at hblank
        rcases hblank with (((rfl | rfl) | rfl) | rfl) <;> exact absurd h (by decide)
    · rintro rfl
      exact absurd h (by decide)
  · decide

theorem readValue_number {c : Char} (h : isMark c = false) (n : Nat) (rest : List Char) :
    readValue floats (n + 1) (c :: rest) = readNumber floats (c :: rest) := by
  unfold isMark at h
  simp only [Bool.or_eq_false_iff, decide_eq_false_iff_not] at h
  obtain ⟨⟨⟨⟨⟨hquote, hbracket⟩, hbrace⟩, hn⟩, ht⟩, hf⟩ := h
  rw [readValue, if_neg hquote, if_neg hbracket, if_neg hbrace, if_neg hn, if_neg ht, if_neg hf]

theorem text_head (spaced : Bool) (j : Json) :
    ∃ c cs, text floats spaced j = c :: cs ∧ isBlank c = false ∧ c ≠ ']' := by
  cases j with
  | null => exact ⟨_, _, rfl, by decide, by decide⟩
  | bool b => cases b <;> exact ⟨_, _, rfl, by decide, by decide⟩
  | int n =>
    obtain ⟨c, cs, hcs, hc⟩ := signed_head (n < 0) n.natAbs
    exact ⟨c, cs, (intText_signed n).trans hcs, (number_head hc).2⟩
  | float q =>
    obtain ⟨c, cs, hcs, hc⟩ := signed_head (floats.repr q).negative (floats.repr q).whole
    refine ⟨c, cs ++ ((floats.repr q).fractionText ++ (floats.repr q).exponentText), ?_, (number_head hc).2⟩
    rw [text, FloatText.text, hcs, List.cons_append]
  | str s => exact ⟨_, _, rfl, by decide, by decide⟩
  | arr xs => cases xs <;> exact ⟨_, _, rfl, by decide, by decide⟩
  | obj fields => cases fields <;> exact ⟨_, _, rfl, by decide, by decide⟩

theorem readKey_quoted (spaced : Bool) (k : String) {c : Char} (hc : isBlank c = false) (s : List Char) :
    readKey (quoted k ++ (':' :: gap spaced ++ c :: s)) = some (k, c :: s) := by
  have hkey : quoted k ++ (':' :: gap spaced ++ c :: s) =
      '"' :: (k.toList.flatMap escape ++ '"' :: (':' :: gap spaced ++ c :: s)) := by
    simp [quoted]
  rw [hkey, readKey, readString_quoted, Option.bind_some]
  dsimp only
  rw [List.cons_append, List.dropWhile_cons_of_neg (by decide)]
  change some (k, (gap spaced ++ c :: s).dropWhile isBlank) = some (k, c :: s)
  rw [blanks_gap spaced hc]

theorem dictOf_keyed {pairs : List (String × Json)} (h : (pairs.map Prod.fst).Nodup) : dictOf pairs = .obj pairs := by
  have hfold : ∀ (pairs seen : List (String × Json)), ((seen ++ pairs).map Prod.fst).Nodup →
      pairs.foldl setKey seen = seen ++ pairs := by
    intro pairs
    induction pairs with
    | nil => intro seen _; rw [List.foldl_nil, List.append_nil]
    | cons p pairs ih =>
      intro seen hseen
      have hnew : p.1 ∉ seen.map Prod.fst := by
        rw [List.map_append, List.map_cons] at hseen
        intro hold
        exact (List.nodup_append.mp hseen).2.2 p.1 hold p.1 (List.mem_cons_self ..) rfl
      rw [List.foldl_cons, setKey, if_neg hnew, ih, List.append_assoc, List.singleton_append]
      rwa [List.append_assoc, List.singleton_append]
  unfold dictOf
  rw [hfold pairs [] h, List.nil_append]

theorem blanks_text (spaced gapped : Bool) (j : Json) (s : List Char) :
    (gap gapped ++ (text floats spaced j ++ s)).dropWhile isBlank = text floats spaced j ++ s := by
  obtain ⟨c, cs, hcs, hblank, -⟩ := text_head floats spaced j
  rw [hcs, List.cons_append]
  exact blanks_gap gapped hblank _

theorem text_not_end (spaced : Bool) (j : Json) (s : List Char) : (text floats spaced j ++ s).head? ≠ some ']' := by
  obtain ⟨c, cs, hcs, -, hend⟩ := text_head floats spaced j
  rw [hcs]
  exact fun h => hend (Option.some.inj h)

theorem blanks_quoted (gapped : Bool) (k : String) (s : List Char) :
    (gap gapped ++ (quoted k ++ s)).dropWhile isBlank = quoted k ++ s :=
  blanks_gap gapped (c := '"') (by decide) _

theorem stops_items (spaced : Bool) (xs : List Json) (rest : List Char) :
    Stops inNumber (textItems floats spaced xs ++ rest) := by
  cases xs <;> (rintro c ⟨rfl⟩; decide)

theorem stops_fields (spaced : Bool) (fields : List (String × Json)) (rest : List Char) :
    Stops inNumber (textFields floats spaced fields ++ rest) := by
  cases fields <;> (rintro c ⟨rfl⟩; decide)

theorem readItems_cons {n : Nat} {x : Json} {xs : List Json} {s rest t : List Char}
    (hvalue : readValue floats n s = some (x, t)) (hmore : afterItem x (readItems floats n) t = some (x :: xs, rest)) :
    readItems floats (n + 1) s = some (x :: xs, rest) := by
  rw [readItems, hvalue, Option.bind_some]
  exact hmore

theorem readFields_cons (spaced : Bool) {n : Nat} {k : String} {v : Json} {fields : List (String × Json)}
    {s rest : List Char} (hvalue : readValue floats n (text floats spaced v ++ s) = some (v, s))
    (hmore : afterField (k, v) (readFields floats n) s = some ((k, v) :: fields, rest)) :
    readFields floats (n + 1) (quoted k ++ (':' :: gap spaced ++ (text floats spaced v ++ s))) =
      some ((k, v) :: fields, rest) := by
  obtain ⟨c, cs, hcs, hblank, -⟩ := text_head floats spaced v
  have hkey := readKey_quoted spaced k hblank (cs ++ s)
  rw [← List.cons_append, ← hcs] at hkey
  rw [readFields, hkey, Option.bind_some, hvalue, Option.bind_some]
  exact hmore

theorem one_le_items (spaced : Bool) (xs : List Json) : 1 ≤ (textItems floats spaced xs).length := by
  cases xs <;> (rw [textItems]; simp)

theorem one_le_fields (spaced : Bool) (fields : List (String × Json)) :
    1 ≤ (textFields floats spaced fields).length := by
  cases fields <;> (rw [textFields]; simp)

theorem one_le_text (spaced : Bool) (j : Json) : 1 ≤ (text floats spaced j).length := by
  obtain ⟨c, cs, hcs, -⟩ := text_head floats spaced j
  rw [hcs]
  simp

mutual

theorem readValue_text (spaced : Bool) : ∀ (j : Json) (n : Nat) (rest : List Char), j.Keyed →
    (text floats spaced j).length < n → Stops inNumber rest →
      readValue floats n (text floats spaced j ++ rest) = some (j, rest)
  | .null, n + 1, rest, _, _, _ => by simp [text, readValue, readWord]
  | .bool true, n + 1, rest, _, _, _ => by simp [text, readValue, readWord]
  | .bool false, n + 1, rest, _, _, _ => by simp [text, readValue, readWord]
  | .int i, n + 1, rest, _, _, hrest => by
    obtain ⟨c, cs, hcs, hc⟩ := signed_head (i < 0) i.natAbs
    have hread := readNumber_int floats i hrest
    rw [intText_signed, hcs] at hread
    rw [text, intText_signed, hcs, List.cons_append, readValue_number floats (number_head hc).1]
    exact hread
  | .float q, n + 1, rest, _, _, hrest => by
    obtain ⟨c, cs, hcs, hc⟩ := signed_head (floats.repr q).negative (floats.repr q).whole
    have hread := readNumber_float floats q hrest
    rw [FloatText.text, hcs] at hread
    rw [text, FloatText.text, hcs, List.cons_append, List.cons_append, readValue_number floats (number_head hc).1]
    exact hread
  | .str s, n + 1, rest, _, _, _ => by
    have htext : text floats spaced (.str s) ++ rest = '"' :: (s.toList.flatMap escape ++ '"' :: rest) := by
      simp [text, quoted]
    rw [htext, readValue, if_pos rfl, readString_quoted, Option.map_some]
  | .arr [], n + 1, rest, _, _, _ => by simp [text, readValue, isBlank]
  | .arr (x :: xs), n + 1, rest, hkeyed, hn, _ => by
    rw [text, List.length_cons, List.length_append] at hn
    have hx := one_le_text floats spaced x
    have hxs := one_le_items floats spaced xs
    obtain ⟨m, rfl⟩ : ∃ m, n = m + 1 := ⟨n - 1, by omega⟩
    have hvalue := readValue_text spaced x m (textItems floats spaced xs ++ rest) hkeyed.1
      (by omega) (stops_items floats spaced xs rest)
    have hmore := readItems_text spaced xs m rest hkeyed.2 (by omega) x
    have hblanks := blanks_text floats spaced false x (textItems floats spaced xs ++ rest)
    have hend := text_not_end floats spaced x (textItems floats spaced xs ++ rest)
    rw [gap, if_neg (by decide), List.nil_append] at hblanks
    rw [text, List.cons_append, readValue, if_neg (by decide), if_pos rfl, List.append_assoc, hblanks, if_neg hend,
      readItems_cons floats hvalue hmore, Option.map_some]
  | .obj [], n + 1, rest, _, _, _ => by simp [text, readValue, isBlank]
  | .obj ((k, v) :: fields), n + 1, rest, hkeyed, hn, _ => by
    have htext : text floats spaced (.obj ((k, v) :: fields)) ++ rest = '\x7b' ::
        (quoted k ++ (':' :: gap spaced ++ (text floats spaced v ++ (textFields floats spaced fields ++ rest)))) := by
      simp [text]
    rw [text, List.length_cons, List.length_append, List.length_append, List.length_append] at hn
    have hv := one_le_text floats spaced v
    have hfields := one_le_fields floats spaced fields
    obtain ⟨m, rfl⟩ : ∃ m, n = m + 1 := ⟨n - 1, by omega⟩
    have hvalue := readValue_text spaced v m (textFields floats spaced fields ++ rest) hkeyed.2.1
      (by omega) (stops_fields floats spaced fields rest)
    have hmore := readFields_text spaced fields m rest hkeyed.2.2 (by omega) (k, v)
    have hblanks := blanks_quoted false k
      (':' :: gap spaced ++ (text floats spaced v ++ (textFields floats spaced fields ++ rest)))
    rw [gap, if_neg (by decide), List.nil_append] at hblanks
    rw [htext, readValue, if_neg (by decide), if_neg (by decide), if_pos rfl]
    dsimp only
    rw [hblanks, if_neg (by rintro ⟨⟩), readFields_cons floats spaced hvalue hmore, Option.map_some, dictOf_keyed hkeyed.1]

theorem readItems_text (spaced : Bool) : ∀ (xs : List Json) (n : Nat) (rest : List Char), Json.KeyedList xs →
    (textItems floats spaced xs).length ≤ n → ∀ x,
      afterItem x (readItems floats n) (textItems floats spaced xs ++ rest) = some (x :: xs, rest)
  | [], n, rest, _, _, x => by simp [textItems, afterItem, isBlank]
  | y :: ys, n, rest, hkeyed, hn, x => by
    rw [textItems, List.length_append, List.length_append, List.length_cons] at hn
    have hy := one_le_text floats spaced y
    have hys := one_le_items floats spaced ys
    obtain ⟨m, rfl⟩ : ∃ m, n = m + 1 := ⟨n - 1, by omega⟩
    have hvalue := readValue_text spaced y m (textItems floats spaced ys ++ rest) hkeyed.1
      (by omega) (stops_items floats spaced ys rest)
    have hmore := readItems_text spaced ys m rest hkeyed.2 (by omega) y
    have hitems : textItems floats spaced (y :: ys) ++ rest =
        ',' :: (gap spaced ++ (text floats spaced y ++ (textItems floats spaced ys ++ rest))) := by
      simp [textItems]
    rw [hitems, afterItem, List.dropWhile_cons_of_neg (by decide)]
    change ((readItems floats (m + 1) (List.dropWhile isBlank _)).map _) = _
    rw [blanks_text, readItems_cons floats hvalue hmore, Option.map_some]

theorem readFields_text (spaced : Bool) : ∀ (fields : List (String × Json)) (n : Nat) (rest : List Char),
    Json.KeyedFields fields → (textFields floats spaced fields).length ≤ n → ∀ p,
      afterField p (readFields floats n) (textFields floats spaced fields ++ rest) = some (p :: fields, rest)
  | [], n, rest, _, _, p => by simp [textFields, afterField, isBlank]
  | (k, v) :: fields, n, rest, hkeyed, hn, p => by
    rw [textFields, List.length_append, List.length_append, List.length_append, List.length_append,
      List.length_cons] at hn
    have hv := one_le_text floats spaced v
    have hfields := one_le_fields floats spaced fields
    obtain ⟨m, rfl⟩ : ∃ m, n = m + 1 := ⟨n - 1, by omega⟩
    have hvalue := readValue_text spaced v m (textFields floats spaced fields ++ rest) hkeyed.1
      (by omega) (stops_fields floats spaced fields rest)
    have hmore := readFields_text spaced fields m rest hkeyed.2 (by omega) (k, v)
    have hrest : textFields floats spaced ((k, v) :: fields) ++ rest = ',' :: (gap spaced ++ (quoted k ++
        (':' :: gap spaced ++ (text floats spaced v ++ (textFields floats spaced fields ++ rest))))) := by
      simp [textFields]
    rw [hrest, afterField, List.dropWhile_cons_of_neg (by decide)]
    change ((readFields floats (m + 1) (List.dropWhile isBlank _)).map _) = _
    rw [blanks_quoted, readFields_cons floats spaced hvalue hmore, Option.map_some]

end

theorem loads_text (spaced : Bool) {j : Json} (h : j.Keyed) : loads floats (text floats spaced j) = some j := by
  have hblanks := blanks_text floats spaced false j []
  have hread := readValue_text floats spaced j _ [] h (Nat.lt_succ_self _) (by rintro c ⟨⟩)
  rw [gap, if_neg (by decide), List.nil_append, List.append_nil] at hblanks
  rw [List.append_nil] at hread
  unfold loads
  rw [hblanks, hread, Option.bind_some, List.dropWhile_nil, if_pos rfl]

theorem text_injective (spaced : Bool) {a b : Json} (ha : a.Keyed) (hb : b.Keyed)
    (h : text floats spaced a = text floats spaced b) : a = b := by
  have hloads := loads_text floats spaced ha
  rw [h, loads_text floats spaced hb] at hloads
  exact (Option.some.inj hloads).symm

end

end ProxmoxVEAutopilot.Foundation.JsonText
