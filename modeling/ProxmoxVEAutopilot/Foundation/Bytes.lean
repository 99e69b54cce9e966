import Mathlib

/-!
# Bytes

Texts and numbers as bytes, and readers of them. A reader takes what it wants from the front
of its bytes; `Reads` says that it takes exactly the given ones, whatever follows.
-/

namespace ProxmoxVEAutopilot.Foundation

set_option autoImplicit false

section Utf8

def utf8 (s : String) : List UInt8 := s.toList.flatMap String.utf8EncodeChar

def decodeUtf8 (bytes : List UInt8) : Option String := String.fromUTF8? bytes.toByteArray

theorem decodeUtf8_utf8 (s : String) : decodeUtf8 (utf8 s) = some s := by
  have hbytes : (utf8 s).toByteArray = s.toByteArray := String.utf8Encode_toList
  unfold decodeUtf8 String.fromUTF8?
  rw [hbytes, dif_pos s.isValidUTF8]
  rfl

theorem utf8_injective {s t : String} (h : utf8 s = utf8 t) : s = t := by
  have hdecoded := decodeUtf8_utf8 s
  rw [h, decodeUtf8_utf8] at hdecoded
  exact (Option.some.inj hdecoded).symm

theorem zero_not_mem_utf8EncodeChar {c : Char} (h : c ≠ Char.ofNat 0) : 0 ∉ String.utf8EncodeChar c := by
  have hbyte : ∀ n, 0 < n → n < 256 → (0 : UInt8) ≠ UInt8.ofNat n := by
    intro n hpos hlt heq
    have hvalue := congrArg UInt8.toNat heq
    rw [UInt8.toNat_ofNat] at hvalue
    change 0 = n % 256 at hvalue
    omega
  have hpos : 0 < c.val.toNat := by
    refine Nat.pos_of_ne_zero fun hzero => h ?_
    exact Char.ext (UInt32.toNat_inj.mp hzero)
  unfold String.utf8EncodeChar
  dsimp only
  split
  · simp only [List.mem_singleton]
    exact hbyte _ hpos (by omega)
  split
  · simp only [List.mem_cons, List.not_mem_nil, or_false, not_or]
    exact ⟨hbyte _ (by omega) (by omega), hbyte _ (by omega) (by omega)⟩
  split
  · simp only [List.mem_cons, List.not_mem_nil, or_false, not_or]
    exact ⟨hbyte _ (by omega) (by omega), hbyte _ (by omega) (by omega), hbyte _ (by omega) (by omega)⟩
  · simp only [List.mem_cons, List.not_mem_nil, or_false, not_or]
    exact ⟨hbyte _ (by omega) (by omega), hbyte _ (by omega) (by omega), hbyte _ (by omega) (by omega),
      hbyte _ (by omega) (by omega)⟩

theorem zero_not_mem_utf8 {s : String} (h : Char.ofNat 0 ∉ s.toList) : 0 ∉ utf8 s := by
  intro hzero
  obtain ⟨c, hc, hbyte⟩ := List.mem_flatMap.mp hzero
  exact zero_not_mem_utf8EncodeChar (fun heq => h (heq ▸ hc)) hbyte

theorem utf8_eq_nil {s : String} : utf8 s = [] ↔ s = "" := by
  constructor
  · intro h
    exact utf8_injective h
  · rintro rfl
    rfl

end Utf8

section Numbers

/-- The last `k` digits of `n` to the base 256, from the highest on. -/
def bigEndian : Nat → Nat → List UInt8
  | 0, _ => []
  | k + 1, n => bigEndian k (n / 256) ++ [UInt8.ofNat n]

def bigEndianValue (bytes : List UInt8) : Nat := bytes.foldl (fun value b => value * 256 + b.toNat) 0

def littleEndian (k n : Nat) : List UInt8 := (bigEndian k n).reverse

theorem length_bigEndian (k : Nat) : ∀ n, (bigEndian k n).length = k := by
  induction k with
  | zero => exact fun _ => rfl
  | succ k ih =>
    intro n
    unfold bigEndian
    rw [List.length_append, ih]
    rfl

theorem bigEndianValue_bigEndian (k : Nat) : ∀ {n}, n < 256 ^ k → bigEndianValue (bigEndian k n) = n := by
  induction k with
  | zero =>
    intro n hn
    rw [pow_zero] at hn
    obtain rfl : n = 0 := by omega
    rfl
  | succ k ih =>
    intro n hn
    have hhigh : n / 256 < 256 ^ k := by
      rw [Nat.div_lt_iff_lt_mul (by omega), ← pow_succ]
      exact hn
    have hlow : (UInt8.ofNat n).toNat = n % 256 := UInt8.toNat_ofNat
    have hvalue : bigEndianValue (bigEndian k (n / 256)) = n / 256 := ih hhigh
    unfold bigEndian
    unfold bigEndianValue at hvalue ⊢
    rw [List.foldl_append, hvalue, List.foldl_cons, List.foldl_nil, hlow]
    omega

end Numbers

section Readers

abbrev Reader (α : Type) := StateT (List UInt8) Option α

def taking (n : Nat) : Reader (List UInt8) := fun bytes =>
  if n ≤ bytes.length then some (bytes.take n, bytes.drop n) else none

def readBig (k : Nat) : Reader Nat := do
  let bytes ← taking k
  pure (bigEndianValue bytes)

/-- Bytes that stand after their number in two bytes. -/
def counted : Reader (List UInt8) := do
  let n ← readBig 2
  taking n

def times {α : Type} (r : Reader α) : Nat → Reader (List α)
  | 0 => pure []
  | n + 1 => do
    let a ← r
    let rest ← times r n
    pure (a :: rest)

def Reads {α : Type} (r : Reader α) (bytes : List UInt8) (a : α) : Prop := ∀ rest, r (bytes ++ rest) = some (a, rest)

variable {α β : Type} {r : Reader α} {bytes more : List UInt8} {a : α} {b : β}

theorem Reads.pure : Reads (pure a : Reader α) [] a := fun _ => rfl

theorem Reads.bind {k : α → Reader β} (hr : Reads r bytes a) (hk : Reads (k a) more b) :
    Reads (r >>= k) (bytes ++ more) b := by
  intro rest
  rw [List.append_assoc]
  change (r (bytes ++ (more ++ rest))).bind (fun x => k x.1 x.2) = some (b, rest)
  rw [hr]
  exact hk rest

theorem Reads.taking (bytes : List UInt8) : Reads (taking bytes.length) bytes bytes := by
  intro rest
  unfold Foundation.taking
  rw [if_pos (by rw [List.length_append]; omega), List.take_left, List.drop_left]

theorem Reads.map {f : α → β} (hr : Reads r bytes a) : Reads (do let x ← r; Pure.pure (f x)) bytes (f a) := by
  have h : Reads (r >>= fun x => Pure.pure (f x)) (bytes ++ []) (f a) := Reads.bind hr (fun _ => rfl)
  rwa [List.append_nil] at h

theorem Reads.big {k n : Nat} (hn : n < 256 ^ k) : Reads (readBig k) (bigEndian k n) n := by
  have htaken : Reads (Foundation.taking k) (bigEndian k n) (bigEndian k n) := by
    have h := Reads.taking (bigEndian k n)
    rwa [length_bigEndian] at h
  have hread : Reads (readBig k) (bigEndian k n) (bigEndianValue (bigEndian k n)) := htaken.map
  rwa [bigEndianValue_bigEndian k hn] at hread

theorem Reads.counted {bytes : List UInt8} (h : bytes.length < 65536) :
    Reads counted (bigEndian 2 bytes.length ++ bytes) bytes :=
  (Reads.big (by omega)).bind (Reads.taking bytes)

theorem Reads.times {pieces : List (List UInt8)} {as : List α}
    (h : List.Forall₂ (fun piece a => Reads r piece a) pieces as) : Reads (times r as.length) pieces.flatten as := by
  induction h with
  | nil => exact Reads.pure
  | cons hpiece _ ih =>
    rw [List.flatten_cons]
    exact hpiece.bind ih.map

/-- One reader up to the end, `fuel` times at most. -/
def readWithin (r : Reader α) : Nat → List UInt8 → Option (List α)
  | _, [] => some []
  | 0, _ :: _ => none
  | fuel + 1, b :: bytes => (r (b :: bytes)).bind fun read => (readWithin r fuel read.2).map (read.1 :: ·)

/-- A reader that takes something each time needs no more turns than there are bytes. -/
def readAll (r : Reader α) (bytes : List UInt8) : Option (List α) := readWithin r bytes.length bytes

theorem readWithin_pieces {pieces : List (List UInt8)} {as : List α}
    (h : List.Forall₂ (fun piece a => Reads r piece a) pieces as) (hne : ∀ piece ∈ pieces, piece ≠ []) :
    ∀ {fuel : Nat}, pieces.flatten.length ≤ fuel → readWithin r fuel pieces.flatten = some as := by
  induction h with
  | nil =>
    intro fuel _
    cases fuel <;> rfl
  | @cons piece a pieces as hpiece _ ih =>
    intro fuel hfuel
    obtain ⟨b, bytes, rfl⟩ := List.exists_cons_of_ne_nil (hne piece (List.mem_cons_self ..))
    have hread := hpiece pieces.flatten
    rw [List.flatten_cons, List.cons_append] at hfuel ⊢
    rw [List.length_cons, List.length_append] at hfuel
    obtain ⟨fuel, rfl⟩ : ∃ n, fuel = n + 1 := ⟨fuel - 1, by omega⟩
    have hrest := ih (fun piece hp => hne piece (List.mem_cons_of_mem _ hp)) (show pieces.flatten.length ≤ fuel by omega)
    rw [List.cons_append] at hread
    simp only [readWithin, hread, Option.bind_some, hrest, Option.map_some]

theorem readAll_pieces {pieces : List (List UInt8)} {as : List α}
    (h : List.Forall₂ (fun piece a => Reads r piece a) pieces as) (hne : ∀ piece ∈ pieces, piece ≠ []) :
    readAll r pieces.flatten = some as := readWithin_pieces h hne le_rfl

end Readers

end ProxmoxVEAutopilot.Foundation

/-!
## UTF-16

Texts as pairs of bytes, the low one first. Characters beyond the basic plane take two units.
-/

namespace ProxmoxVEAutopilot.Foundation

set_option autoImplicit false

def utf16Units (c : Char) : List Nat :=
  if c.toNat < 0x10000 then [c.toNat]
  else [0xD800 + (c.toNat - 0x10000) / 0x400, 0xDC00 + (c.toNat - 0x10000) % 0x400]

/-- `s.encode("utf-16-le")` -/
def utf16le (s : String) : List UInt8 := (s.toList.flatMap utf16Units).flatMap (littleEndian 2)

def unitsOf : List UInt8 → Option (List Nat)
  | [] => some []
  | [_] => none
  | a :: b :: rest => (unitsOf rest).map ((a.toNat + 256 * b.toNat) :: ·)

/-- A unit that is a character of its own. -/
def isWhole (unit : Nat) : Bool := unit < 0xD800 || 0xE000 ≤ unit

def decodeUnits : List Nat → Option (List Char)
  | [] => some []
  | [u] => if isWhole u then some [Char.ofNat u] else none
  | u :: v :: rest =>
    if isWhole u then (decodeUnits (v :: rest)).map (Char.ofNat u :: ·)
    else if u < 0xDC00 ∧ 0xDC00 ≤ v ∧ v < 0xE000 then
      (decodeUnits rest).map (Char.ofNat (0x10000 + (u - 0xD800) * 0x400 + (v - 0xDC00)) :: ·)
    else none

def decodeUtf16le (bytes : List UInt8) : Option String := ((unitsOf bytes).bind decodeUnits).map String.ofList

theorem scalar (c : Char) : c.toNat < 0xD800 ∨ 0xDFFF < c.toNat ∧ c.toNat < 0x110000 := c.valid

theorem unit_lt {c : Char} {u : Nat} (h : u ∈ utf16Units c) : u < 0x10000 := by
  have hscalar := scalar c
  unfold utf16Units at h
  split at h
  · rename_i hsmall
    rwa [List.mem_singleton.mp h]
  · simp only [List.mem_cons, List.not_mem_nil, or_false] at h
    rcases h with h | h <;> omega

theorem unitsOf_littleEndian (units : List Nat) (h : ∀ u ∈ units, u < 0x10000) :
    unitsOf (units.flatMap (littleEndian 2)) = some units := by
  induction units with
  | nil => rfl
  | cons u units ih =>
    have hu := h u (List.mem_cons_self ..)
    have hbytes : littleEndian 2 u = [UInt8.ofNat u, UInt8.ofNat (u / 256)] := rfl
    have hlow : (UInt8.ofNat u).toNat = u % 256 := UInt8.toNat_ofNat
    have hhigh : (UInt8.ofNat (u / 256)).toNat = u / 256 % 256 := UInt8.toNat_ofNat
    have hvalue : u % 256 + 256 * (u / 256 % 256) = u := by omega
    rw [List.flatMap_cons, hbytes]
    simp only [List.cons_append, List.nil_append, unitsOf, ih fun v hv => h v (List.mem_cons_of_mem _ hv),
      Option.map_some, hlow, hhigh, hvalue]

theorem decodeUnits_cons {c : Char} {units : List Nat} :
    decodeUnits (utf16Units c ++ units) = (decodeUnits units).map (c :: ·) := by
  have hscalar := scalar c
  unfold utf16Units
  split
  · have hwhole : isWhole c.toNat = true := by
      unfold isWhole
      simp only [Bool.or_eq_true, decide_eq_true_eq]
      omega
    cases units with
    | nil => simp [decodeUnits, hwhole]
    | cons v rest => simp [decodeUnits, hwhole]
  · have hhigh : isWhole (0xD800 + (c.toNat - 0x10000) / 0x400) = false := by
      unfold isWhole
      simp only [Bool.or_eq_false_iff, decide_eq_false_iff_not]
      omega
    have hvalue : 0x10000 + (0xD800 + (c.toNat - 0x10000) / 0x400 - 0xD800) * 0x400 +
        (0xDC00 + (c.toNat - 0x10000) % 0x400 - 0xDC00) = c.toNat := by omega
    simp only [List.cons_append, List.nil_append, decodeUnits]
    rw [if_neg (by simp [hhigh]), if_pos (by omega), hvalue, Char.ofNat_toNat]

theorem decodeUnits_utf16Units (chars : List Char) : decodeUnits (chars.flatMap utf16Units) = some chars := by
  induction chars with
  | nil => rfl
  | cons c chars ih => rw [List.flatMap_cons, decodeUnits_cons, ih, Option.map_some]

theorem decodeUtf16le_utf16le (s : String) : decodeUtf16le (utf16le s) = some s := by
  have hunits : ∀ u ∈ s.toList.flatMap utf16Units, u < 0x10000 := by
    intro u hu
    obtain ⟨c, _, hc⟩ := List.mem_flatMap.mp hu
    exact unit_lt hc
  unfold decodeUtf16le utf16le
  rw [unitsOf_littleEndian _ hunits, Option.bind_some, decodeUnits_utf16Units, Option.map_some, String.ofList_toList]

end ProxmoxVEAutopilot.Foundation
