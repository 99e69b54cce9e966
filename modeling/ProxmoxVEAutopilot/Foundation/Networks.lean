import Mathlib

/-!
# IP networks

A network is an address and a prefix length. The test of its four end points finds out
whether two networks have an address in common.
-/

namespace ProxmoxVEAutopilot.Foundation.Ip

set_option autoImplicit false

inductive Version where
  | v4
  | v6
deriving DecidableEq, Repr

def Version.width : Version → Nat
  | .v4 => 32
  | .v6 => 128

section Masks
variable (width : Nat)

def allOnes : Nat := 2 ^ width - 1

def netmask (prefixLen : Nat) : Nat := allOnes width ^^^ (allOnes width >>> prefixLen)

def hostmask (prefixLen : Nat) : Nat := netmask width prefixLen ^^^ allOnes width

variable {width} {p q : Nat}

theorem testBit_netmask (hp : p ≤ width) (i : Nat) :
    (netmask width p).testBit i = decide (width - p ≤ i ∧ i < width) := by
  unfold netmask allOnes
  rw [Nat.testBit_xor, Nat.testBit_shiftRight, Nat.testBit_two_pow_sub_one, Nat.testBit_two_pow_sub_one]
  by_cases hi : i < width
  · by_cases hpi : p + i < width
    · have hlow : ¬ width - p ≤ i := by omega
      simp [hi, hpi, hlow]
    · have hhigh : width - p ≤ i := by omega
      simp [hi, hpi, hhigh]
  · have hpi : ¬ p + i < width := by omega
    simp [hi, hpi]

theorem testBit_hostmask (hp : p ≤ width) (i : Nat) :
    (hostmask width p).testBit i = decide (i < width - p) := by
  unfold hostmask
  rw [Nat.testBit_xor, testBit_netmask hp, allOnes, Nat.testBit_two_pow_sub_one]
  by_cases hi : i < width
  · by_cases hhost : i < width - p
    · have hhigh : ¬ width - p ≤ i := by omega
      simp only [hi, hhost, hhigh, false_and, decide_false, decide_true, Bool.false_bne]
    · have hhigh : width - p ≤ i := by omega
      simp [hi, hhost, hhigh]
  · have hhost : ¬ i < width - p := by omega
    simp [hi, hhost]

/-- Of two masks the shorter one decides. -/
theorem netmask_and (hpq : p ≤ q) (hq : q ≤ width) :
    netmask width q &&& netmask width p = netmask width p := by
  apply Nat.eq_of_testBit_eq
  intro i
  rw [Nat.testBit_and, testBit_netmask hq, testBit_netmask (Nat.le_trans hpq hq), ← Bool.decide_and]
  congr 1
  apply propext
  omega

theorem hostmask_and_netmask (hp : p ≤ width) : hostmask width p &&& netmask width p = 0 := by
  apply Nat.eq_of_testBit_eq
  intro i
  rw [Nat.testBit_and, testBit_hostmask hp, testBit_netmask hp, ← Bool.decide_and, Nat.zero_testBit]
  apply decide_eq_false
  omega

theorem hostmask_lt : hostmask width p < 2 ^ width := by
  have hones : allOnes width < 2 ^ width := Nat.sub_lt (Nat.two_pow_pos width) Nat.one_pos
  unfold hostmask netmask
  exact Nat.xor_lt_two_pow (Nat.xor_lt_two_pow hones (Nat.lt_of_le_of_lt (Nat.shiftRight_le _ _) hones)) hones

end Masks

structure Address where
  version : Version
  value : Nat
  bounded : value < 2 ^ version.width

structure Network where
  version : Version
  networkAddress : Nat
  prefixLen : Nat
  bounded : networkAddress < 2 ^ version.width
  fits : prefixLen ≤ version.width
  /-- No host bits. -/
  masked : networkAddress &&& netmask version.width prefixLen = networkAddress

namespace Network

/-- The network an address lies in. -/
def ofAddress (a : Address) (prefixLen : Nat) (fits : prefixLen ≤ a.version.width) : Network where
  version := a.version
  networkAddress := a.value &&& netmask a.version.width prefixLen
  prefixLen := prefixLen
  bounded := Nat.lt_of_le_of_lt Nat.and_le_left a.bounded
  fits := fits
  masked := by rw [Nat.and_assoc, Nat.and_self]

section Overlap
variable (m n : Network)

def contains (a : Address) : Bool :=
  a.version == n.version && (a.value &&& netmask n.version.width n.prefixLen) == n.networkAddress

def first : Address := ⟨n.version, n.networkAddress, n.bounded⟩

/-- `broadcast_address`. -/
def broadcast : Address :=
  ⟨n.version, n.networkAddress ||| hostmask n.version.width n.prefixLen, Nat.or_lt_two_pow n.bounded hostmask_lt⟩

def overlaps : Bool :=
  n.contains m.first || n.contains m.broadcast || m.contains n.first || m.contains n.broadcast

def addresses : Set Address := {a | n.contains a = true}

variable {m n}

theorem contains_iff {a : Address} : n.contains a = true ↔
    a.version = n.version ∧ a.value &&& netmask n.version.width n.prefixLen = n.networkAddress := by
  simp [contains]

theorem first_mem : n.first ∈ n.addresses := contains_iff.mpr ⟨rfl, n.masked⟩

theorem broadcast_mem : n.broadcast ∈ n.addresses := by
  refine contains_iff.mpr ⟨rfl, ?_⟩
  show (n.networkAddress ||| hostmask n.version.width n.prefixLen) &&& netmask n.version.width n.prefixLen = _
  rw [Nat.and_or_distrib_right, hostmask_and_netmask n.fits, Nat.or_zero, n.masked]

/-- The longer of two networks with a common address begins in the other. -/
theorem first_mem_of_common {a : Address} (hm : a ∈ m.addresses) (hn : a ∈ n.addresses)
    (hle : n.prefixLen ≤ m.prefixLen) : m.first ∈ n.addresses := by
  obtain ⟨hmv, hma⟩ := contains_iff.mp hm
  obtain ⟨hnv, hna⟩ := contains_iff.mp hn
  have hversion : m.version = n.version := hmv.symm.trans hnv
  refine contains_iff.mpr ⟨hversion, ?_⟩
  have hfits : m.prefixLen ≤ n.version.width := hversion ▸ m.fits
  calc m.networkAddress &&& netmask n.version.width n.prefixLen
      = (a.value &&& netmask n.version.width m.prefixLen) &&& netmask n.version.width n.prefixLen := by
        rw [← hma, hversion]
    _ = a.value &&& netmask n.version.width n.prefixLen := by rw [Nat.and_assoc, netmask_and hle hfits]
    _ = n.networkAddress := hna

theorem overlaps_iff : m.overlaps n = true ↔ ¬ Disjoint m.addresses n.addresses := by
  rw [Set.not_disjoint_iff]
  constructor
  · intro h
    simp only [overlaps, Bool.or_eq_true] at h
    rcases h with ((h | h) | h) | h
    · exact ⟨m.first, first_mem, h⟩
    · exact ⟨m.broadcast, broadcast_mem, h⟩
    · exact ⟨n.first, h, first_mem⟩
    · exact ⟨n.broadcast, h, broadcast_mem⟩
  · intro ⟨a, hm, hn⟩
    simp only [overlaps, Bool.or_eq_true]
    rcases Nat.le_total n.prefixLen m.prefixLen with hle | hle
    · exact .inl (.inl (.inl (first_mem_of_common hm hn hle)))
    · exact .inl (.inr (first_mem_of_common hn hm hle))

end Overlap

end Network

/-!
## Texts of IP networks

Which texts Python's `ipaddress` reads as an address or as a network, and as which one.
-/

section Numbers
variable {base : Nat}

/-- The number with these digits, the first one highest. -/
def number (digits : List (Fin base)) : Nat := digits.foldl (fun n d => base * n + d) 0

theorem number_lt (digits : List (Fin base)) : number digits < base ^ digits.length := by
  induction digits using List.reverseRecOn with
  | nil => exact Nat.one_pos
  | append_singleton digits d ih =>
    have hlast : number (digits ++ [d]) = base * number digits + d := by
      simp [number, List.foldl_append]
    rw [hlast, List.length_append, List.length_singleton, Nat.pow_succ']
    calc base * number digits + d < base * number digits + base := Nat.add_lt_add_left d.isLt _
      _ = base * (number digits + 1) := (Nat.mul_succ _ _).symm
      _ ≤ base * base ^ digits.length := Nat.mul_le_mul_left _ ih

def isHexDigit (c : Char) : Bool :=
  c.isDigit || ('a' ≤ c && c ≤ 'f') || ('A' ≤ c && c ≤ 'F')

def digit (c : Char) : Fin 10 := Fin.ofNat 10 (c.toNat - '0'.toNat)

def hexDigit (c : Char) : Fin 16 :=
  if c.isDigit then Fin.ofNat 16 (c.toNat - '0'.toNat)
  else if 'a' ≤ c then Fin.ofNat 16 (c.toNat - 'a'.toNat + 10)
  else Fin.ofNat 16 (c.toNat - 'A'.toNat + 10)

/-- `isascii() and isdigit()`. -/
def areDigits (s : List Char) : Bool := s ≠ [] && s.all Char.isDigit

end Numbers

section Addresses

def parseOctet (s : List Char) : Option (Fin 256) :=
  if areDigits s && s.length ≤ 3 && (s == ['0'] || s.head? != some '0') then
    if h : number (s.map digit) < 256 then some ⟨number (s.map digit), h⟩ else none
  else none

def ipv4FromString (s : List Char) : Option (Fin (2 ^ 32)) :=
  if (s.splitOn '.').length ≠ 4 then none
  else ((s.splitOn '.').mapM parseOctet).bind fun octets =>
    if h : octets.length = 4 then some ⟨number octets, by simpa [h] using number_lt octets⟩ else none

theorem hextet_lt {s : List Char} (h : s.length ≤ 4) : number (s.map hexDigit) < 2 ^ 16 := by
  have hlt := number_lt (s.map hexDigit)
  rw [List.length_map] at hlt
  exact Nat.lt_of_lt_of_le hlt (Nat.pow_le_pow_right (by decide) h)

def parseHextet (s : List Char) : Option (Fin (2 ^ 16)) :=
  if h : s.all isHexDigit = true ∧ s.length ≤ 4 ∧ s ≠ [] then
    some ⟨number (s.map hexDigit), hextet_lt h.2.1⟩
  else none

/-- A part between colons; an empty one is `none`. -/
def parsePart (s : List Char) : Option (Option (Fin (2 ^ 16))) :=
  if s = [] then some none else (parseHextet s).map some

/-- The parts of the text, an IPv4 suffix as two of them. -/
def hextets (s : List Char) : Option (List (Option (Fin (2 ^ 16)))) :=
  let parts := s.splitOn ':'
  if parts.length < 3 then none
  else if '.' ∈ parts.getLastD [] then
    (parts.dropLast.mapM parsePart).bind fun groups => (ipv4FromString (parts.getLastD [])).map fun ip =>
      groups ++ [some (Fin.ofNat _ (ip >>> 16)), some (Fin.ofNat _ ip)]
  else parts.mapM parsePart

/-- The places of a `::`, the end points disregarded. -/
def skips {α : Type} (parts : List (Option α)) : List Nat :=
  (List.range parts.length).filter fun i =>
    1 ≤ i && i + 1 < parts.length && (parts.getD i none).isNone

theorem filled_lt {hi lo : List (Fin (2 ^ 16))} (h : hi.length + lo.length < 8) :
    number (hi ++ List.replicate (8 - (hi.length + lo.length)) 0 ++ lo) < 2 ^ 128 := by
  have hlt := number_lt (hi ++ List.replicate (8 - (hi.length + lo.length)) 0 ++ lo)
  have hlength : (hi ++ List.replicate (8 - (hi.length + lo.length)) 0 ++ lo).length = 8 := by
    simp only [List.length_append, List.length_replicate]
    omega
  rw [hlength, ← Nat.pow_mul] at hlt
  exact hlt

def ipv6FromParts (parts : List (Option (Fin (2 ^ 16)))) : Option (Fin (2 ^ 128)) :=
  if 9 < parts.length then none
  else
    match skips parts with
    | [] =>
      if h : parts.length = 8 ∧ parts.reduceOption.length = 8 then
        some ⟨number parts.reduceOption, by simpa [h.2, ← Nat.pow_mul] using number_lt parts.reduceOption⟩
      else none
    | [i] =>
      let hi := parts.take i
      let lo := parts.drop (i + 1)
      if hi.head? = some none ∧ hi.length ≠ 1 then none
      else if lo.getLast? = some none ∧ lo.length ≠ 1 then none
      else if h : hi.reduceOption.length + lo.reduceOption.length < 8 then
        some ⟨_, filled_lt h⟩
      else none
    | _ => none

/-- `_split_scope_id`. -/
def withoutScope (s : List Char) : Option (List Char) :=
  match s.dropWhile (· ≠ '%') with
  | [] => some s
  | _ :: scope => if scope = [] ∨ '%' ∈ scope then none else some (s.takeWhile (· ≠ '%'))

def ipv4Address (s : List Char) : Option Address :=
  (ipv4FromString s).map fun ip => ⟨.v4, ip.val, ip.isLt⟩

def ipv6Address (s : List Char) : Option Address :=
  if '/' ∈ s then none
  else ((withoutScope s).bind hextets).bind fun parts => (ipv6FromParts parts).map fun ip => ⟨.v6, ip.val, ip.isLt⟩

def ipAddress (text : String) : Option Address :=
  (ipv4Address text.toList).or (ipv6Address text.toList)

end Addresses

section Networks

/-- `int` reads no more than so many digits. -/
def maxDigits : Nat := 4300

def prefixFromPrefixString (width : Nat) (s : List Char) : Option (Fin (width + 1)) :=
  if areDigits s && s.length ≤ maxDigits then
    if h : number (s.map digit) < width + 1 then some ⟨number (s.map digit), h⟩ else none
  else none

def countRighthandZeroBits (number : Nat) : Nat → Nat
  | 0 => 0
  | bits + 1 => if number % 2 = 1 then 0 else countRighthandZeroBits (number / 2) bits + 1

def prefixFromIpInt (width ip : Nat) : Option (Fin (width + 1)) :=
  let zeros := countRighthandZeroBits ip width
  if ip >>> zeros = 2 ^ (width - zeros) - 1 then some ⟨width - zeros, by omega⟩ else none

/-- A netmask, or else a hostmask. -/
def prefixFromIpString (s : List Char) : Option (Fin 33) :=
  (ipv4FromString s).bind fun ip => (prefixFromIpInt 32 ip).or (prefixFromIpInt 32 (ip.val ^^^ allOnes 32))

def makeNetmask (version : Version) (mask : List Char) : Option (Fin (version.width + 1)) :=
  match version with
  | .v4 => (prefixFromPrefixString 32 mask).or (prefixFromIpString mask)
  | .v6 => prefixFromPrefixString 128 mask

def networkOf (a : Address) (mask : Option (List Char)) : Option Network :=
  match mask with
  | none => some (.ofAddress a a.version.width le_rfl)
  | some mask => (makeNetmask a.version mask).map fun p => .ofAddress a p.val (Nat.le_of_lt_succ p.isLt)

/-- `ip_network(text, strict=False)`. -/
def ipNetwork (text : String) : Option Network :=
  match text.toList.splitOn '/' with
  | [addr] => ((ipv4Address addr).bind fun a => networkOf a none).or ((ipv6Address addr).bind fun a => networkOf a none)
  | [addr, mask] =>
    ((ipv4Address addr).bind fun a => networkOf a (some mask)).or
      ((ipv6Address addr).bind fun a => networkOf a (some mask))
  | _ => none

end Networks

end ProxmoxVEAutopilot.Foundation.Ip
