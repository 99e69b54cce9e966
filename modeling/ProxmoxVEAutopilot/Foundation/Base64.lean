import ProxmoxVEAutopilot.Foundation.Bytes

/-!
# Base64

Three bytes as four letters of an alphabet, and the reader of `binascii.a2b_base64`: it skips
what is no letter, stops behind a padding that fills its quad, and refuses an open quad.
-/

namespace ProxmoxVEAutopilot.Foundation

set_option autoImplicit false

/-- Sixty-four letters, with the number of each; the padding is none of them. -/
structure Alphabet where
  letter : Nat → Char
  value : Char → Option Nat
  value_letter : ∀ n, n < 64 → value (letter n) = some n
  letter_ne_pad : ∀ n, n < 64 → letter n ≠ '='

def letters : String := "ABCDEFGHIJKLMNOPQRSTUVWXYZabcdefghijklmnopqrstuvwxyz0123456789"

def alphabetOf (extra : List Char) : List Char := letters.toList ++ extra

def standardLetters : List Char := alphabetOf ['+', '/']

def urlsafeLetters : List Char := alphabetOf ['-', '_']

def letterOf (alphabet : List Char) (n : Nat) : Char := alphabet.getD n 'A'

def valueOf (alphabet : List Char) (c : Char) : Option Nat := alphabet.idxOf? c

def standard : Alphabet where
  letter := letterOf standardLetters
  value := valueOf standardLetters
  value_letter := by decide +kernel
  letter_ne_pad := by decide +kernel

def urlsafe : Alphabet where
  letter := letterOf urlsafeLetters
  value := valueOf urlsafeLetters
  value_letter := by decide +kernel
  letter_ne_pad := by decide +kernel

namespace Alphabet

variable (alphabet : Alphabet)

def encodeBare : List UInt8 → List Char
  | [] => []
  | [a] => [alphabet.letter (a.toNat / 4), alphabet.letter (a.toNat % 4 * 16)]
  | [a, b] => [
      alphabet.letter (a.toNat / 4), alphabet.letter (a.toNat % 4 * 16 + b.toNat / 16),
      alphabet.letter (b.toNat % 16 * 4)]
  | a :: b :: c :: rest =>
    alphabet.letter (a.toNat / 4) :: alphabet.letter (a.toNat % 4 * 16 + b.toNat / 16) ::
      alphabet.letter (b.toNat % 16 * 4 + c.toNat / 64) :: alphabet.letter (c.toNat % 64) :: encodeBare rest

def padding (length : Nat) : List Char := List.replicate ((4 - length % 4) % 4) '='

def encode (bytes : List UInt8) : List Char :=
  alphabet.encodeBare bytes ++ padding (alphabet.encodeBare bytes).length

/-- `quad` letters of the open quad are read, `left` are their bits that fill no byte yet. -/
def decodeFrom (quad left pads : Nat) : List Char → Option (List UInt8)
  | [] => if quad = 0 then some [] else none
  | c :: s =>
    if c = '=' then
      if 2 ≤ quad ∧ 4 ≤ quad + (pads + 1) then some []
      else decodeFrom quad left (if 2 ≤ quad then pads + 1 else pads) s
    else
      match alphabet.value c with
      | none => decodeFrom quad left pads s
      | some v =>
        match quad with
        | 0 => decodeFrom 1 v 0 s
        | 1 => (decodeFrom 2 (v % 16) 0 s).map (UInt8.ofNat (left * 4 + v / 16) :: ·)
        | 2 => (decodeFrom 3 (v % 4) 0 s).map (UInt8.ofNat (left * 16 + v / 4) :: ·)
        | _ => (decodeFrom 0 0 0 s).map (UInt8.ofNat (left * 64 + v) :: ·)

def decode (s : List Char) : Option (List UInt8) := alphabet.decodeFrom 0 0 0 s

variable {alphabet}

section Letters
variable {n left pads : Nat} {s : List Char}

theorem decodeFrom_first (hn : n < 64) :
    alphabet.decodeFrom 0 left pads (alphabet.letter n :: s) = alphabet.decodeFrom 1 n 0 s := by
  simp only [decodeFrom, if_neg (alphabet.letter_ne_pad n hn), alphabet.value_letter n hn]

theorem decodeFrom_second (hn : n < 64) :
    alphabet.decodeFrom 1 left pads (alphabet.letter n :: s) =
      (alphabet.decodeFrom 2 (n % 16) 0 s).map (UInt8.ofNat (left * 4 + n / 16) :: ·) := by
  simp only [decodeFrom, if_neg (alphabet.letter_ne_pad n hn), alphabet.value_letter n hn]

theorem decodeFrom_third (hn : n < 64) :
    alphabet.decodeFrom 2 left pads (alphabet.letter n :: s) =
      (alphabet.decodeFrom 3 (n % 4) 0 s).map (UInt8.ofNat (left * 16 + n / 4) :: ·) := by
  simp only [decodeFrom, if_neg (alphabet.letter_ne_pad n hn), alphabet.value_letter n hn]

theorem decodeFrom_fourth (hn : n < 64) :
    alphabet.decodeFrom 3 left pads (alphabet.letter n :: s) =
      (alphabet.decodeFrom 0 0 0 s).map (UInt8.ofNat (left * 64 + n) :: ·) := by
  simp only [decodeFrom, if_neg (alphabet.letter_ne_pad n hn), alphabet.value_letter n hn]

theorem decodeFrom_padding {quad : Nat} (hquad : quad = 2 ∨ quad = 3) :
    alphabet.decodeFrom quad left 0 (List.replicate (4 - quad) '=' ++ s) = some [] := by
  rcases hquad with rfl | rfl
  · change alphabet.decodeFrom 2 left 0 ('=' :: '=' :: s) = some []
    simp [decodeFrom]
  · change alphabet.decodeFrom 3 left 0 ('=' :: s) = some []
    simp [decodeFrom]

end Letters

theorem ofNat_eq {n : Nat} {b : UInt8} (h : n = b.toNat) : UInt8.ofNat n = b := by
  rw [h, UInt8.ofNat_toNat]

theorem decode_encode (bytes : List UInt8) : alphabet.decode (alphabet.encode bytes) = some bytes := by
  unfold decode encode
  fun_induction encodeBare alphabet bytes with
  | case1 => rfl
  | case2 a =>
    have ha := a.toNat_lt
    change alphabet.decodeFrom 0 0 0 (_ :: _ :: (List.replicate (4 - 2) '=' ++ [])) = _
    rw [decodeFrom_first (by omega), decodeFrom_second (by omega), decodeFrom_padding (.inl rfl)]
    exact congrArg some (congrArg (· :: []) (ofNat_eq (by omega)))
  | case3 a b =>
    have ha := a.toNat_lt
    have hb := b.toNat_lt
    change alphabet.decodeFrom 0 0 0 (_ :: _ :: _ :: (List.replicate (4 - 3) '=' ++ [])) = _
    rw [decodeFrom_first (by omega), decodeFrom_second (by omega), decodeFrom_third (by omega),
      decodeFrom_padding (.inr rfl)]
    have hfirst : UInt8.ofNat (a.toNat / 4 * 4 + (a.toNat % 4 * 16 + b.toNat / 16) / 16) = a := ofNat_eq (by omega)
    have hsecond : UInt8.ofNat ((a.toNat % 4 * 16 + b.toNat / 16) % 16 * 16 + b.toNat % 16 * 4 / 4) = b :=
      ofNat_eq (by omega)
    rw [hfirst, hsecond]
    rfl
  | case4 a b c rest ih =>
    have ha := a.toNat_lt
    have hb := b.toNat_lt
    have hc := c.toNat_lt
    have hlength : padding ((alphabet.encodeBare rest).length + 1 + 1 + 1 + 1) =
        padding (alphabet.encodeBare rest).length := by
      unfold padding
      rw [show ((alphabet.encodeBare rest).length + 1 + 1 + 1 + 1) % 4 = (alphabet.encodeBare rest).length % 4 by omega]
    simp only [List.length_cons, List.cons_append, hlength]
    rw [decodeFrom_first (by omega), decodeFrom_second (by omega), decodeFrom_third (by omega),
      decodeFrom_fourth (by omega), ih]
    have hfirst : UInt8.ofNat (a.toNat / 4 * 4 + (a.toNat % 4 * 16 + b.toNat / 16) / 16) = a := ofNat_eq (by omega)
    have hsecond : UInt8.ofNat ((a.toNat % 4 * 16 + b.toNat / 16) % 16 * 16 + (b.toNat % 16 * 4 + c.toNat / 64) / 4) =
        b := ofNat_eq (by omega)
    have hthird : UInt8.ofNat ((b.toNat % 16 * 4 + c.toNat / 64) % 4 * 64 + c.toNat % 64) = c := ofNat_eq (by omega)
    rw [hfirst, hsecond, hthird]
    rfl

theorem mem_encodeBare {bytes : List UInt8} {c : Char} (h : c ∈ alphabet.encodeBare bytes) :
    ∃ n, n < 64 ∧ c = alphabet.letter n := by
  fun_induction encodeBare alphabet bytes with
  | case1 => cases h
  | case2 a =>
    have ha := a.toNat_lt
    simp only [List.mem_cons, List.not_mem_nil, or_false] at h
    rcases h with h | h
    · exact ⟨_, by omega, h⟩
    · exact ⟨_, by omega, h⟩
  | case3 a b =>
    have ha := a.toNat_lt
    have hb := b.toNat_lt
    simp only [List.mem_cons, List.not_mem_nil, or_false] at h
    rcases h with h | h | h
    · exact ⟨_, by omega, h⟩
    · exact ⟨_, by omega, h⟩
    · exact ⟨_, by omega, h⟩
  | case4 a b c' rest ih =>
    have ha := a.toNat_lt
    have hb := b.toNat_lt
    have hc := c'.toNat_lt
    simp only [List.mem_cons] at h
    rcases h with h | h | h | h | h
    · exact ⟨_, by omega, h⟩
    · exact ⟨_, by omega, h⟩
    · exact ⟨_, by omega, h⟩
    · exact ⟨_, by omega, h⟩
    · exact ih h

end Alphabet

end ProxmoxVEAutopilot.Foundation
