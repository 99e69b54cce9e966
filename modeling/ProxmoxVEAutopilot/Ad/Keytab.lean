import ProxmoxVEAutopilot.Foundation.Bytes
import ProxmoxVEAutopilot.Foundation.Lists

/-!
# The keytab of the monitor account

`write_keytab` stores two entries of the principal, one for each AES key. The numbers in front
of the pieces have fixed widths, and `struct.pack` raises where one does not fit.
-/

namespace ProxmoxVEAutopilot.Ad

open Foundation
set_option autoImplicit false

/-- `struct.pack` of a number into `width` bytes, the high one first. -/
def pack (width n : Nat) : Except String (List UInt8) :=
  if n < 256 ^ width then .ok (bigEndian width n) else .error "struct.error"

def pCounted (data : List UInt8) : Except String (List UInt8) := do
  let length ← pack 2 data.length
  pure (length ++ data)

/-- Everything behind the length of the entry. -/
def keytabBody (principalParts : List String) (realm : String) (nameType timestamp kvno enctype : Nat)
    (key : List UInt8) : Except String (List UInt8) := do
  let components ← principalParts.mapM fun p => pCounted (utf8 p)
  let count ← pack 2 principalParts.length
  let realm ← pCounted (utf8 realm)
  let nameType ← pack 4 nameType
  let timestamp ← pack 4 timestamp
  let narrow ← pack 1 (kvno % 256)
  let enctype ← pack 2 enctype
  let key ← pCounted key
  let wide ← pack 4 kvno
  pure (count ++ (realm ++ (components.flatten ++ (nameType ++ (timestamp ++ (narrow ++ (enctype ++ (key ++ wide))))))))

def buildKeytabEntry (principalParts : List String) (realm : String) (nameType timestamp kvno enctype : Nat)
    (key : List UInt8) : Except String (List UInt8) := do
  let body ← keytabBody principalParts realm nameType timestamp kvno enctype key
  let length ← pack 4 body.length
  pure (length ++ body)

def krb5NtPrincipal : Nat := 1

def enctypeAes256 : Nat := 18

def enctypeAes128 : Nat := 17

/-- `principal.split("/")` -/
def principalParts (principal : String) : List String := (principal.toList.splitOn '/').map String.ofList

/-- The bytes that end up in the file, with the clock at `timestamp`. -/
def writeKeytab (principal realm : String) (timestamp kvno : Nat) (aes256Key aes128Key : List UInt8) :
    Except String (List UInt8) := do
  let first ← buildKeytabEntry (principalParts principal) realm krb5NtPrincipal timestamp kvno enctypeAes256 aes256Key
  let second ← buildKeytabEntry (principalParts principal) realm krb5NtPrincipal timestamp kvno enctypeAes128 aes128Key
  pure ([5, 2] ++ (first ++ second))

section Written
variable {parts : List String} {realm : String} {nameType timestamp kvno enctype : Nat} {key : List UInt8}

theorem pack_of_lt {width n : Nat} (h : n < 256 ^ width) : pack width n = .ok (bigEndian width n) := if_pos h

def counting (data : List UInt8) : List UInt8 := bigEndian 2 data.length ++ data

theorem pCounted_of_lt {data : List UInt8} (h : data.length < 65536) : pCounted data = .ok (counting data) := by
  unfold pCounted
  rw [pack_of_lt (by omega)]
  rfl

def bodyBytes (parts : List String) (realm : String) (nameType timestamp kvno enctype : Nat) (key : List UInt8) :
    List UInt8 :=
  bigEndian 2 parts.length ++ (counting (utf8 realm) ++ ((parts.map fun p => counting (utf8 p)).flatten ++
    (bigEndian 4 nameType ++ (bigEndian 4 timestamp ++ (bigEndian 1 (kvno % 256) ++ (bigEndian 2 enctype ++
      (counting key ++ bigEndian 4 kvno)))))))

/-- What fits into its width. -/
structure Fits (parts : List String) (realm : String) (nameType timestamp kvno enctype : Nat) (key : List UInt8) :
    Prop where
  count : parts.length < 65536
  parts : ∀ p ∈ parts, (utf8 p).length < 65536
  realm : (utf8 realm).length < 65536
  nameType : nameType < 4294967296
  timestamp : timestamp < 4294967296
  kvno : kvno < 4294967296
  enctype : enctype < 65536
  key : key.length < 65536

theorem keytabBody_ok (h : Fits parts realm nameType timestamp kvno enctype key) :
    keytabBody parts realm nameType timestamp kvno enctype key =
      .ok (bodyBytes parts realm nameType timestamp kvno enctype key) := by
  have hparts : parts.mapM (fun p => pCounted (utf8 p)) = .ok (parts.map fun p => counting (utf8 p)) := by
    have hcongr := mapM_congr (f := fun p => pCounted (utf8 p)) (g := fun p => .ok (counting (utf8 p)))
      fun p hp => pCounted_of_lt (h.parts p hp)
    rw [hcongr]
    exact List.mapM_pure
  unfold keytabBody
  rw [hparts, pack_of_lt (show parts.length < 256 ^ 2 from h.count), pCounted_of_lt h.realm,
    pack_of_lt (show nameType < 256 ^ 4 from h.nameType), pack_of_lt (show timestamp < 256 ^ 4 from h.timestamp),
    pack_of_lt (show kvno % 256 < 256 ^ 1 by omega), pack_of_lt (show enctype < 256 ^ 2 from h.enctype),
    pCounted_of_lt h.key, pack_of_lt (show kvno < 256 ^ 4 from h.kvno)]
  rfl

theorem keytabBody_count (h : 65536 ≤ parts.length) :
    ∀ body, keytabBody parts realm nameType timestamp kvno enctype key ≠ .ok body := by
  intro body hbody
  unfold keytabBody at hbody
  obtain ⟨components, _, hrest⟩ := bind_ok.mp hbody
  obtain ⟨count, hcount, _⟩ := bind_ok.mp hrest
  unfold pack at hcount
  rw [if_neg (by omega)] at hcount
  cases hcount

end Written

/-!
## Reading the keytab back

The format of version 0x0502: records behind a signed length, of which a negative one is a
hole; the wide key version is there where the record has room for it, and overrides the
narrow one unless it is zero.
-/

structure KeytabEntry where
  components : List (List UInt8)
  realm : List UInt8
  nameType : Nat
  timestamp : Nat
  kvno : Nat
  enctype : Nat
  key : List UInt8
deriving DecidableEq

/-- Four bytes more, or none. -/
def wideKvno : Reader Nat := fun bytes => if 4 ≤ bytes.length then readBig 4 bytes else some (0, bytes)

def readEntry : Reader KeytabEntry := do
  let count ← readBig 2
  let realm ← counted
  let components ← times counted count
  let nameType ← readBig 4
  let timestamp ← readBig 4
  let narrow ← readBig 1
  let enctype ← readBig 2
  let key ← counted
  let wide ← wideKvno
  pure ⟨components, realm, nameType, timestamp, if wide ≠ 0 then wide else narrow, enctype, key⟩

/-- The entry of a record; what the record holds behind it is skipped. -/
def withinRecord (record : List UInt8) : Reader (Option KeytabEntry) := fun rest =>
  (readEntry record).map fun read => (some read.1, rest)

def readPresent (length : Nat) : Reader (Option KeytabEntry) := do
  let record ← taking length
  if length = 0 then pure none else withinRecord record

def readHole (length : Nat) : Reader (Option KeytabEntry) := do
  let _ ← taking length
  pure none

/-- The signed length of a record, and the record. -/
def readRecord : Reader (Option KeytabEntry) := do
  let length ← readBig 4
  if length < 2 ^ 31 then readPresent length else readHole (2 ^ 32 - length)

/-- The entries of the file; holes have none. -/
def readKeytab : List UInt8 → Option (List KeytabEntry)
  | 5 :: 2 :: bytes => (readAll readRecord bytes).map List.reduceOption
  | _ => none

section Entries
variable {parts : List String} {realm : String} {nameType timestamp kvno enctype : Nat} {key : List UInt8}

def entryOf (parts : List String) (realm : String) (nameType timestamp kvno enctype : Nat) (key : List UInt8) :
    KeytabEntry := ⟨parts.map utf8, utf8 realm, nameType, timestamp, kvno, enctype, key⟩

theorem reads_components (h : ∀ p ∈ parts, (utf8 p).length < 65536) :
    Reads (times counted parts.length) ((parts.map fun p => counting (utf8 p)).flatten) (parts.map utf8) := by
  have hpieces : List.Forall₂ (fun piece a => Reads counted piece a) (parts.map fun p => counting (utf8 p))
      (parts.map utf8) := by
    rw [List.forall₂_map_left_iff, List.forall₂_map_right_iff]
    exact List.forall₂_same.mpr fun p hp => Reads.counted (h p hp)
  have htimes := Reads.times hpieces
  rwa [List.length_map] at htimes

theorem reads_wideKvno {n : Nat} (h : n < 4294967296) : Reads wideKvno (bigEndian 4 n) n := by
  intro rest
  unfold wideKvno
  rw [if_pos (by rw [List.length_append, length_bigEndian]; omega)]
  exact Reads.big (by omega) rest

theorem reads_entry (h : Fits parts realm nameType timestamp kvno enctype key) :
    Reads readEntry (bodyBytes parts realm nameType timestamp kvno enctype key)
      (entryOf parts realm nameType timestamp kvno enctype key) := by
  have hkvno : (if kvno ≠ 0 then kvno else kvno % 256) = kvno := by
    split
    · rfl
    · omega
  unfold readEntry bodyBytes
  refine (Reads.big h.count).bind ?_
  refine (Reads.counted h.realm).bind ?_
  refine (reads_components h.parts).bind ?_
  refine (Reads.big h.nameType).bind ?_
  refine (Reads.big h.timestamp).bind ?_
  refine (Reads.big (show kvno % 256 < 256 ^ 1 by omega)).bind ?_
  refine (Reads.big h.enctype).bind ?_
  refine (Reads.counted h.key).bind ?_
  have hwide := (reads_wideKvno h.kvno).map (f := fun wide => KeytabEntry.mk (parts.map utf8) (utf8 realm) nameType
    timestamp (if wide ≠ 0 then wide else kvno % 256) enctype key)
  rw [hkvno] at hwide
  exact hwide

def recordBytes (parts : List String) (realm : String) (nameType timestamp kvno enctype : Nat) (key : List UInt8) :
    List UInt8 :=
  bigEndian 4 (bodyBytes parts realm nameType timestamp kvno enctype key).length ++
    bodyBytes parts realm nameType timestamp kvno enctype key

theorem recordBytes_ne_nil : recordBytes parts realm nameType timestamp kvno enctype key ≠ [] := by
  refine List.ne_nil_of_length_pos ?_
  unfold recordBytes
  rw [List.length_append, length_bigEndian]
  omega

theorem reads_record (h : Fits parts realm nameType timestamp kvno enctype key)
    (hlength : (bodyBytes parts realm nameType timestamp kvno enctype key).length < 2 ^ 31) :
    Reads readRecord (recordBytes parts realm nameType timestamp kvno enctype key)
      (some (entryOf parts realm nameType timestamp kvno enctype key)) := by
  have hentry := reads_entry h []
  rw [List.append_nil] at hentry
  have hpositive : (bodyBytes parts realm nameType timestamp kvno enctype key).length ≠ 0 := by
    unfold bodyBytes
    rw [List.length_append, length_bigEndian]
    omega
  have hpresent : Reads (readPresent (bodyBytes parts realm nameType timestamp kvno enctype key).length)
      (bodyBytes parts realm nameType timestamp kvno enctype key)
      (some (entryOf parts realm nameType timestamp kvno enctype key)) := by
    have hwithin : Reads (withinRecord (bodyBytes parts realm nameType timestamp kvno enctype key)) []
        (some (entryOf parts realm nameType timestamp kvno enctype key)) := by
      intro rest
      unfold withinRecord
      rw [hentry]
      rfl
    have hbind := (Reads.taking (bodyBytes parts realm nameType timestamp kvno enctype key)).bind
      (k := fun record => if (bodyBytes parts realm nameType timestamp kvno enctype key).length = 0 then pure none
        else withinRecord record) (by rw [if_neg hpositive]; exact hwithin)
    rwa [List.append_nil] at hbind
  unfold readRecord recordBytes
  refine (Reads.big (by omega)).bind ?_
  rw [if_pos hlength]
  exact hpresent

theorem readKeytab_two {first second : List UInt8} {entry other : KeytabEntry} (hne : first ≠ []) (hne' : second ≠ [])
    (hfirst : Reads readRecord first (some entry)) (hsecond : Reads readRecord second (some other)) :
    readKeytab ([5, 2] ++ (first ++ second)) = some [entry, other] := by
  have hall : readAll readRecord [first, second].flatten = some [some entry, some other] := by
    refine readAll_pieces (.cons hfirst (.cons hsecond .nil)) fun piece hpiece => ?_
    rcases List.mem_cons.mp hpiece with rfl | hpiece
    · exact hne
    · rw [List.mem_singleton.mp hpiece]
      exact hne'
  rw [List.flatten_cons, List.flatten_cons, List.flatten_nil, List.append_nil] at hall
  change (readAll readRecord (first ++ second)).map List.reduceOption = some [entry, other]
  rw [hall]
  rfl

end Entries

section RoundTrip

/-- The parts of a keytab's record that have no bound of their own in the file format. -/
structure Storable (principal realm : String) (timestamp kvno : Nat) (key : List UInt8) : Prop where
  components : ∀ p ∈ principalParts principal, (utf8 p).length < 65536
  realm : (utf8 realm).length < 65536
  timestamp : timestamp < 2 ^ 32
  kvno : kvno < 2 ^ 32
  key : key.length < 65536

/-- The file holds the two entries of the principal and nothing else. -/
def ReadsBack (principal realm : String) (timestamp kvno : Nat) (aes256Key aes128Key : List UInt8) : Prop :=
  ∃ bytes, writeKeytab principal realm timestamp kvno aes256Key aes128Key = .ok bytes ∧
    readKeytab bytes = some [
      entryOf (principalParts principal) realm krb5NtPrincipal timestamp kvno 18 aes256Key,
      entryOf (principalParts principal) realm krb5NtPrincipal timestamp kvno 17 aes128Key]

variable {principal realm : String} {timestamp kvno : Nat} {key : List UInt8}

theorem Storable.fits (h : Storable principal realm timestamp kvno key)
    (hcount : (principalParts principal).length < 65536) (enctype : Nat) (henctype : enctype < 65536) :
    Fits (principalParts principal) realm krb5NtPrincipal timestamp kvno enctype key where
  count := hcount
  parts := h.components
  realm := h.realm
  nameType := by decide
  timestamp := h.timestamp
  kvno := h.kvno
  enctype := henctype
  key := h.key

theorem buildKeytabEntry_ok {parts : List String} {nameType enctype : Nat}
    (h : Fits parts realm nameType timestamp kvno enctype key)
    (hlength : (bodyBytes parts realm nameType timestamp kvno enctype key).length < 2 ^ 31) :
    buildKeytabEntry parts realm nameType timestamp kvno enctype key =
      .ok (recordBytes parts realm nameType timestamp kvno enctype key) := by
  unfold buildKeytabEntry
  rw [keytabBody_ok h]
  change (do
    let length ← pack 4 (bodyBytes parts realm nameType timestamp kvno enctype key).length
    pure (length ++ bodyBytes parts realm nameType timestamp kvno enctype key)) = _
  rw [pack_of_lt (by omega)]
  rfl

theorem keytab_reads_back {aes256Key aes128Key : List UInt8}
    (h256 : Storable principal realm timestamp kvno aes256Key)
    (h128 : Storable principal realm timestamp kvno aes128Key) (hcount : (principalParts principal).length < 65536)
    (hlength256 : (bodyBytes (principalParts principal) realm krb5NtPrincipal timestamp kvno enctypeAes256
      aes256Key).length < 2 ^ 31)
    (hlength128 : (bodyBytes (principalParts principal) realm krb5NtPrincipal timestamp kvno enctypeAes128
      aes128Key).length < 2 ^ 31) : ReadsBack principal realm timestamp kvno aes256Key aes128Key := by
  have hfits256 := h256.fits hcount enctypeAes256 (by decide)
  have hfits128 := h128.fits hcount enctypeAes128 (by decide)
  refine ⟨_, ?_, readKeytab_two recordBytes_ne_nil recordBytes_ne_nil (reads_record hfits256 hlength256)
    (reads_record hfits128 hlength128)⟩
  unfold writeKeytab
  rw [buildKeytabEntry_ok hfits256 hlength256, buildKeytabEntry_ok hfits128 hlength128]
  rfl

theorem writeKeytab_count {aes256Key aes128Key : List UInt8} (h : 65536 ≤ (principalParts principal).length) :
    ∀ bytes, writeKeytab principal realm timestamp kvno aes256Key aes128Key ≠ .ok bytes := by
  intro bytes hbytes
  unfold writeKeytab at hbytes
  obtain ⟨first, hfirst, _⟩ := bind_ok.mp hbytes
  unfold buildKeytabEntry at hfirst
  obtain ⟨body, hbody, _⟩ := bind_ok.mp hfirst
  exact keytabBody_count h body hbody

theorem splitOn_slashes (n : Nat) : ((List.replicate n '/').splitOn '/') = List.replicate (n + 1) [] := by
  induction n with
  | zero => rfl
  | succ n ih =>
    rw [List.replicate_succ, List.splitOn_cons_eq_if_modifyHead, ih]
    rfl

def slashes : String := String.ofList (List.replicate 65535 '/')

theorem principalParts_slashes : principalParts slashes = List.replicate 65536 "" := by
  unfold principalParts slashes
  rw [String.toList_ofList, splitOn_slashes]
  exact List.map_replicate

/-- 65536 components, all of them empty. -/
theorem slashes_not_stored : Storable slashes "" 0 1 [] ∧ ¬ ReadsBack slashes "" 0 1 [] [] := by
  constructor
  · refine ⟨fun p hp => ?_, by decide, by decide, by decide, by decide⟩
    rw [principalParts_slashes] at hp
    rw [List.eq_of_mem_replicate hp]
    decide
  · rintro ⟨bytes, hbytes, _⟩
    have hcount : (principalParts slashes).length = 65536 :=
      (congrArg List.length principalParts_slashes).trans List.length_replicate
    exact writeKeytab_count hcount.ge bytes hbytes

def aes256 : List UInt8 := List.replicate 32 7

def aes128 : List UInt8 := List.replicate 16 9

/-- A key version beyond one byte. -/
theorem host_reads_back : ReadsBack "host/apmon.home.gell.one" "HOME.GELL.ONE" 1700000000 300 aes256 aes128 :=
  keytab_reads_back ⟨by decide +kernel, by decide +kernel, by decide, by decide, by decide⟩
    ⟨by decide +kernel, by decide +kernel, by decide, by decide, by decide⟩ (by decide +kernel) (by decide +kernel)
    (by decide +kernel)

end RoundTrip

end ProxmoxVEAutopilot.Ad
