import Mathlib

/-!
# Dotted numbers

Python's digits, and lists of numbers that are compared as if zeros followed them.
-/

namespace ProxmoxVEAutopilot.Foundation

set_option autoImplicit false

section Digits

/-- The code points of the decimal zeros of Unicode 15; the other nine digits follow each one. -/
def zeros : List Nat :=
  [0x30, 0x660, 0x6F0, 0x7C0, 0x966, 0x9E6, 0xA66, 0xAE6, 0xB66, 0xBE6, 0xC66, 0xCE6, 0xD66, 0xDE6, 0xE50, 0xED0,
    0xF20, 0x1040, 0x1090, 0x17E0, 0x1810, 0x1946, 0x19D0, 0x1A80, 0x1A90, 0x1B50, 0x1BB0, 0x1C40, 0x1C50, 0xA620,
    0xA8D0, 0xA900, 0xA9D0, 0xA9F0, 0xAA50, 0xABF0, 0xFF10, 0x104A0, 0x10D30, 0x11066, 0x110F0, 0x11136, 0x111D0,
    0x112F0, 0x11450, 0x114D0, 0x11650, 0x116C0, 0x11730, 0x118E0, 0x11950, 0x11C50, 0x11D50, 0x11DA0, 0x11F50,
    0x16A60, 0x16AC0, 0x16B50, 0x1D7CE, 0x1D7D8, 0x1D7E2, 0x1D7EC, 0x1D7F6, 0x1E140, 0x1E2F0, 0x1E4F0, 0x1E950,
    0x1FBF0]

/-- The value of a decimal digit, one that `\d` matches. -/
def decimal? (c : Char) : Option Nat :=
  (zeros.find? fun first => first ≤ c.toNat && c.toNat < first + 10).map (c.toNat - ·)

/-- Superscripts, circled digits and the like: digits for `isdigit`, but not for `int`. -/
def otherDigits : List (Nat × Nat) :=
  [(0xB2, 0xB3), (0xB9, 0xB9), (0x1369, 0x1371), (0x19DA, 0x19DA), (0x2070, 0x2070), (0x2074, 0x2079),
    (0x2080, 0x2089), (0x2460, 0x2468), (0x2474, 0x247C), (0x2488, 0x2490), (0x24EA, 0x24EA), (0x24F5, 0x24FD),
    (0x24FF, 0x24FF), (0x2776, 0x277E), (0x2780, 0x2788), (0x278A, 0x2792), (0x10A40, 0x10A43), (0x10E60, 0x10E68),
    (0x11052, 0x1105A), (0x1F100, 0x1F10A)]

def isDigitChar (c : Char) : Bool :=
  (decimal? c).isSome || otherDigits.any fun range => range.1 ≤ c.toNat && c.toNat ≤ range.2

/-- `str.isdigit()` -/
def isDigits (cs : List Char) : Bool := cs ≠ [] && cs.all isDigitChar

/-- `int` of digits, none where it raises: it reads decimal ones only, and no more than 4300. -/
def intOfDigits (cs : List Char) : Option Nat :=
  if 4300 < cs.length then none else (cs.mapM decimal?).map fun ds => ds.foldl (fun n d => 10 * n + d) 0

end Digits

section Padded
variable {xs ys : List Nat} {n : Nat}

def pad (n : Nat) (xs : List Nat) : List Nat := xs ++ List.replicate (n - xs.length) 0

/-- The numbers with zeros after them. -/
def entries (xs : List Nat) : Nat → Nat := fun i => xs.getD i 0

theorem length_pad (h : xs.length ≤ n) : (pad n xs).length = n := by
  rw [pad, List.length_append, List.length_replicate]
  omega

theorem getElem_pad {i : Nat} (hi : i < (pad n xs).length) : (pad n xs)[i] = entries xs i := by
  unfold pad entries at *
  rw [List.getD_eq_getElem?_getD, List.getElem_append]
  split
  · rename_i hlt
    rw [List.getElem?_eq_getElem hlt, Option.getD_some]
  · rename_i hge
    rw [List.getElem?_eq_none (Nat.le_of_not_lt hge), List.getElem_replicate, Option.getD_none]

theorem entries_of_length_le {i : Nat} (h : xs.length ≤ i) : entries xs i = 0 := by
  unfold entries
  rw [List.getD_eq_getElem?_getD, List.getElem?_eq_none h, Option.getD_none]

theorem entries_append_zeros (xs : List Nat) (k : Nat) : entries (xs ++ List.replicate k 0) = entries xs := by
  funext i
  unfold entries
  rw [List.getD_eq_getElem?_getD, List.getD_eq_getElem?_getD, List.getElem?_append]
  split
  · rfl
  · rename_i hge
    rw [List.getElem?_replicate, List.getElem?_eq_none (Nat.le_of_not_lt hge)]
    split <;> rfl

theorem pad_lt_pad (hxs : xs.length ≤ n) (hys : ys.length ≤ n) :
    pad n xs < pad n ys ↔ toLex (entries xs) < toLex (entries ys) := by
  rw [List.lt_iff_exists]
  constructor
  · rintro (⟨_, hlength⟩ | ⟨i, hi, hi', heq, hlt⟩)
    · rw [length_pad hxs, length_pad hys] at hlength
      exact absurd hlength (Nat.lt_irrefl n)
    · refine ⟨i, fun j hj => ?_, ?_⟩
      · have hj' := heq j hj
        rwa [getElem_pad, getElem_pad] at hj'
      · rwa [getElem_pad, getElem_pad] at hlt
  · rintro ⟨i, heq, hlt⟩
    have hi : i < n := by
      by_contra hge
      have hzero : entries ys i = 0 := entries_of_length_le (by omega)
      exact Nat.not_lt_zero _ (Nat.lt_of_lt_of_eq hlt hzero)
    refine .inr ⟨i, by rwa [length_pad hxs], by rwa [length_pad hys], fun j hj => ?_, ?_⟩
    · rw [getElem_pad, getElem_pad]
      exact heq j hj
    · rwa [getElem_pad, getElem_pad]

end Padded

end ProxmoxVEAutopilot.Foundation
