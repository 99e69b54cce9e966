import ProxmoxVEAutopilot.Foundation.Base64
import ProxmoxVEAutopilot.Foundation.Json
import ProxmoxVEAutopilot.Foundation.Text

/-!
# Bearer tokens of the WinPE agent

A token is the base64 of its payload, a dot, and the base64 of the keyed digest of what stands
in front of the dot. The digest and the JSON module are parameters; the clock counts whole
seconds, as the code reads it.
-/

namespace ProxmoxVEAutopilot.WinPe

open Foundation
set_option autoImplicit false

/-- The calls into `hmac` and `json`. -/
structure Libraries where
  /-- `hmac.new(key, message, sha256).digest()` -/
  digest : List UInt8 → List UInt8 → List UInt8
  /-- `json.dumps(value, separators=(",", ":"), sort_keys=True)` -/
  dumps : Json → String
  /-- `json.loads(data)`; none where it raises. -/
  loads : List UInt8 → Option Json

/-- What `verify` and `sign` raise. -/
inductive Fault where
  | tokenInvalid (message : String)
  | tokenExpired (message : String)
  | tokenSecretMissing
  | unicodeEncodeError
  | attributeError
  /-- A `ValueError`, `TypeError` or `OverflowError` of `int`. -/
  | intError
deriving DecidableEq, Repr

def Fault.isTokenError : Fault → Bool
  | tokenInvalid _ | tokenExpired _ | tokenSecretMissing => true
  | _ => false

def isAscii (s : String) : Bool := s.toList.all fun c => c.toNat < 128

/-- `s.encode("ascii")` -/
def encodeAscii (s : String) : Except Fault (List UInt8) :=
  if isAscii s then .ok (utf8 s) else .error .unicodeEncodeError

def b64url (b : List UInt8) : String :=
  String.ofList ((urlsafe.encode b).reverse.dropWhile fun c => c == '=').reverse

/-- `translate(b"-_", b"+/")` -/
def toStandard (c : Char) : Char := if c = '-' then '+' else if c = '_' then '/' else c

/-- `_b64url_decode`; none where it raises. -/
def b64urlDecode (s : String) : Option (List UInt8) :=
  if isAscii s then standard.decode ((s.toList ++ Alphabet.padding s.toList.length).map toStandard) else none

/-- `s.rsplit(".", 1)`, none where it gives a single piece. -/
def rsplitDot (s : String) : Option (String × String) :=
  match s.toList.reverse.dropWhile fun c => c ≠ '.' with
  | [] => none
  | _ :: head => some (String.ofList head.reverse,
      String.ofList (s.toList.reverse.takeWhile fun c => c ≠ '.').reverse)

/-- `_secret()` with the environment variable. -/
def secretKey (secret : Option String) : Except Fault (List UInt8) :=
  match secret with
  | none => .error .tokenSecretMissing
  | some s => if s = "" then .error .tokenSecretMissing else .ok (utf8 s)

inductive RunId where
  | number (n : Int)
  | text (s : String)
deriving DecidableEq, Repr

def RunId.json : RunId → Json
  | number n => .int n
  | text s => .str s

def payloadOf (runId : RunId) (exp : Int) : Json := .obj [("exp", .int exp), ("run_id", runId.json)]

section Calls
variable (lib : Libraries) (secret : Option String) (now : Int)

def headOf (payload : Json) : String := b64url (utf8 (lib.dumps payload))

def sign (runId : RunId) (ttlSeconds : Int) : Except Fault String := do
  let head := headOf lib (payloadOf runId (now + ttlSeconds))
  let key ← secretKey secret
  let message ← encodeAscii head
  pure (head ++ "." ++ b64url (lib.digest key message))

/-- `verify` behind the signature. -/
def checkPayload (payload : Json) : Except Fault Json :=
  match payload with
  | .obj fields =>
    match pyInt ((fields.lookup "exp").getD (.int 0)) with
    | none => .error .intError
    | some exp =>
      if exp < now then .error (.tokenExpired "token expired")
      else if (fields.lookup "run_id").isNone then .error (.tokenInvalid "payload missing run_id")
      else .ok payload
  | _ => .error .attributeError

def verify (token : String) : Except Fault Json :=
  match rsplitDot token with
  | none => .error (.tokenInvalid "malformed token")
  | some (head, sigB64) => do
    let key ← secretKey secret
    let message ← encodeAscii head
    match b64urlDecode sigB64 with
    | none => .error (.tokenInvalid "malformed signature")
    | some actual =>
      if lib.digest key message ≠ actual then .error (.tokenInvalid "signature mismatch")
      else
        match (b64urlDecode head).bind lib.loads with
        | none => .error (.tokenInvalid "malformed payload")
        | some payload => checkPayload now payload

end Calls

section Letters
variable {bytes : List UInt8} {c : Char}

theorem toStandard_letter : ∀ n < 64, toStandard (urlsafe.letter n) = standard.letter n := by decide +kernel

theorem map_encodeBare (bytes : List UInt8) :
    (urlsafe.encodeBare bytes).map toStandard = standard.encodeBare bytes := by
  fun_induction Alphabet.encodeBare urlsafe bytes with
  | case1 => rfl
  | case2 a =>
    have ha := a.toNat_lt
    simp only [List.map_cons, List.map_nil, Alphabet.encodeBare, toStandard_letter (a.toNat / 4) (by omega),
      toStandard_letter (a.toNat % 4 * 16) (by omega)]
  | case3 a b =>
    have ha := a.toNat_lt
    have hb := b.toNat_lt
    simp only [List.map_cons, List.map_nil, Alphabet.encodeBare, toStandard_letter (a.toNat / 4) (by omega),
      toStandard_letter (a.toNat % 4 * 16 + b.toNat / 16) (by omega), toStandard_letter (b.toNat % 16 * 4) (by omega)]
  | case4 a b c rest ih =>
    have ha := a.toNat_lt
    have hb := b.toNat_lt
    have hc := c.toNat_lt
    simp only [List.map_cons, Alphabet.encodeBare, ih, toStandard_letter (a.toNat / 4) (by omega),
      toStandard_letter (a.toNat % 4 * 16 + b.toNat / 16) (by omega),
      toStandard_letter (b.toNat % 16 * 4 + c.toNat / 64) (by omega), toStandard_letter (c.toNat % 64) (by omega)]

theorem encodeBare_letter (h : c ∈ urlsafe.encodeBare bytes) : c ≠ '=' ∧ c ≠ '.' ∧ c.toNat < 128 := by
  obtain ⟨n, hn, rfl⟩ := urlsafe.mem_encodeBare h
  have hall : ∀ n < 64, urlsafe.letter n ≠ '=' ∧ urlsafe.letter n ≠ '.' ∧ (urlsafe.letter n).toNat < 128 := by
    decide +kernel
  exact hall n hn

theorem toList_b64url (bytes : List UInt8) : (b64url bytes).toList = urlsafe.encodeBare bytes := by
  have hpads : ∀ c ∈ (Alphabet.padding (urlsafe.encodeBare bytes).length).reverse, (c == '=') = true := fun c hc =>
    beq_iff_eq.mpr (List.eq_of_mem_replicate (List.mem_reverse.mp hc))
  have hletters : (urlsafe.encodeBare bytes).reverse.dropWhile (fun c => c == '=') = (urlsafe.encodeBare bytes).reverse := by
    rw [List.dropWhile_eq_self_iff]
    intro hpos heq
    exact (encodeBare_letter (List.mem_reverse.mp (List.getElem_mem hpos))).1 (beq_iff_eq.mp heq)
  unfold b64url Alphabet.encode
  rw [String.toList_ofList, List.reverse_append, List.dropWhile_append_of_pos hpads, hletters, List.reverse_reverse]

theorem isAscii_b64url (bytes : List UInt8) : isAscii (b64url bytes) = true := by
  unfold isAscii
  rw [toList_b64url]
  exact List.all_eq_true.mpr fun c hc => decide_eq_true (encodeBare_letter hc).2.2

theorem b64urlDecode_b64url (bytes : List UInt8) : b64urlDecode (b64url bytes) = some bytes := by
  have hlength : (urlsafe.encodeBare bytes).length = (standard.encodeBare bytes).length := by
    rw [← map_encodeBare, List.length_map]
  have hpads : ∀ n, (Alphabet.padding n).map toStandard = Alphabet.padding n := fun n => List.map_replicate
  unfold b64urlDecode
  rw [if_pos (isAscii_b64url bytes), toList_b64url, List.map_append, map_encodeBare, hpads, hlength]
  exact Alphabet.decode_encode bytes

theorem rsplitDot_append {head sig : String} (hsig : '.' ∉ sig.toList) :
    rsplitDot (head ++ "." ++ sig) = some (head, sig) := by
  have hreverse : (head ++ "." ++ sig).toList.reverse = sig.toList.reverse ++ '.' :: head.toList.reverse := by
    rw [String.toList_append, String.toList_append, List.reverse_append, List.reverse_append]
    rfl
  have hfree : ∀ c ∈ sig.toList.reverse, (decide (c ≠ '.')) = true := fun c hc =>
    decide_eq_true fun heq => hsig (heq ▸ List.mem_reverse.mp hc)
  have hdot : ¬ (decide ('.' ≠ '.')) = true := by decide
  have hdrop : (sig.toList.reverse ++ '.' :: head.toList.reverse).dropWhile (fun c => decide (c ≠ '.')) =
      '.' :: head.toList.reverse := by
    rw [List.dropWhile_append_of_pos hfree]
    exact List.dropWhile_cons_of_neg (p := fun c => decide (c ≠ '.')) hdot
  have hstop : ('.' :: head.toList.reverse).takeWhile (fun c => decide (c ≠ '.')) = [] :=
    List.takeWhile_cons_of_neg (p := fun c => decide (c ≠ '.')) hdot
  have htake : (sig.toList.reverse ++ '.' :: head.toList.reverse).takeWhile (fun c => decide (c ≠ '.')) =
      sig.toList.reverse := by
    rw [List.takeWhile_append_of_pos hfree, hstop, List.append_nil]
  unfold rsplitDot
  rw [hreverse, hdrop, htake]
  simp only [List.reverse_reverse, String.ofList_toList]

theorem dot_not_mem_b64url (bytes : List UInt8) : '.' ∉ (b64url bytes).toList := by
  rw [toList_b64url]
  exact fun h => (encodeBare_letter h).2.1 rfl

end Letters

/-!
## What a token check ends in

A signed token verifies until it expires. Of any other text the check raises an error of its
own, except that a head with letters outside ASCII escapes it.
-/

/-- The payloads that `sign` was called for, and the library calls they need. -/
structure Signing where
  lib : Libraries
  secret : String
  log : List (RunId × Int)

section Checks
variable (s : Signing)

/-- `json.loads` reads back what `json.dumps` wrote of a signed payload. -/
def Signing.ReadsBack : Prop :=
  ∀ entry ∈ s.log, s.lib.loads (utf8 (s.lib.dumps (payloadOf entry.1 entry.2))) = some (payloadOf entry.1 entry.2)

/-- The head is that of a signed payload. -/
def Signing.Signed (head : String) (payload : Json) : Prop :=
  ∃ entry ∈ s.log, payload = payloadOf entry.1 entry.2 ∧ head = headOf s.lib payload

/-- A text with the digest of its head has the head of a signed payload. -/
def Signing.Unforged (token : String) : Prop :=
  ∀ head sig, rsplitDot token = some (head, sig) →
    b64urlDecode sig = some (s.lib.digest (utf8 s.secret) (utf8 head)) → ∃ payload, s.Signed head payload

/-- The check returns a signed payload or raises an error of its own. -/
def Signing.Refuses (now : Int) (token : String) : Prop :=
  match verify s.lib (some s.secret) now token with
  | .ok payload => ∃ head sig, rsplitDot token = some (head, sig) ∧ s.Signed head payload
  | .error fault => fault.isTokenError = true

/-- The token of the call, which verifies until its expiry and is expired from then on. -/
def Signing.Verifies (runId : RunId) (ttlSeconds signedAt : Int) : Prop :=
  ∃ token, sign s.lib (some s.secret) signedAt runId ttlSeconds = .ok token ∧ ∀ now,
    (now ≤ signedAt + ttlSeconds →
      verify s.lib (some s.secret) now token = .ok (payloadOf runId (signedAt + ttlSeconds))) ∧
    (signedAt + ttlSeconds < now →
      verify s.lib (some s.secret) now token = .error (.tokenExpired "token expired"))

variable {s}

theorem secretKey_some {secret : String} (h : secret ≠ "") : secretKey (some secret) = .ok (utf8 secret) := if_neg h

theorem encodeAscii_ok {text : String} (h : isAscii text = true) : encodeAscii text = .ok (utf8 text) := if_pos h

theorem checkPayload_payloadOf (now : Int) (runId : RunId) (exp : Int) : checkPayload now (payloadOf runId exp) =
    if exp < now then .error (.tokenExpired "token expired") else .ok (payloadOf runId exp) := by
  have hexp : pyInt (([("exp", .int exp), ("run_id", runId.json)] : List (String × Json)).lookup "exp" |>.getD (.int 0)) =
      some exp := rfl
  have hrun : (([("exp", .int exp), ("run_id", runId.json)] : List (String × Json)).lookup "run_id").isNone = false := rfl
  unfold payloadOf checkPayload
  simp only [hexp, hrun, Bool.false_eq_true, if_false]

theorem verify_split {head sig token : String} {now : Int} (hsecret : s.secret ≠ "")
    (htoken : rsplitDot token = some (head, sig)) :
    verify s.lib (some s.secret) now token = (encodeAscii head).bind fun message =>
      match b64urlDecode sig with
      | none => .error (.tokenInvalid "malformed signature")
      | some actual =>
        if s.lib.digest (utf8 s.secret) message ≠ actual then .error (.tokenInvalid "signature mismatch")
        else
          match (b64urlDecode head).bind s.lib.loads with
          | none => .error (.tokenInvalid "malformed payload")
          | some payload => checkPayload now payload := by
  unfold verify
  rw [htoken, secretKey_some hsecret]
  rfl

theorem verify_signed {head sig token : String} {payload : Json} {now : Int} (hsecret : s.secret ≠ "")
    (hjson : s.ReadsBack) (htoken : rsplitDot token = some (head, sig)) (hsigned : s.Signed head payload)
    (hsig : b64urlDecode sig = some (s.lib.digest (utf8 s.secret) (utf8 head))) :
    verify s.lib (some s.secret) now token = checkPayload now payload := by
  obtain ⟨entry, hentry, rfl, rfl⟩ := hsigned
  have hread : (b64urlDecode (headOf s.lib (payloadOf entry.1 entry.2))).bind s.lib.loads =
      some (payloadOf entry.1 entry.2) := by
    unfold headOf
    rw [b64urlDecode_b64url]
    exact hjson entry hentry
  have hascii : isAscii (headOf s.lib (payloadOf entry.1 entry.2)) = true := isAscii_b64url _
  rw [verify_split hsecret htoken, encodeAscii_ok hascii]
  simp only [Except.bind, hsig, hread, ne_eq, not_true_eq_false, if_false]

theorem sign_ok {runId : RunId} {ttlSeconds signedAt : Int} (hsecret : s.secret ≠ "") :
    sign s.lib (some s.secret) signedAt runId ttlSeconds =
      let head := headOf s.lib (payloadOf runId (signedAt + ttlSeconds))
      .ok (head ++ "." ++ b64url (s.lib.digest (utf8 s.secret) (utf8 head))) := by
  have hascii : isAscii (headOf s.lib (payloadOf runId (signedAt + ttlSeconds))) = true := isAscii_b64url _
  unfold sign
  rw [secretKey_some hsecret]
  dsimp only [bind, Except.bind]
  rw [encodeAscii_ok hascii]
  rfl

theorem verifies {runId : RunId} {ttlSeconds signedAt : Int} (hsecret : s.secret ≠ "") (hjson : s.ReadsBack)
    (hlog : (runId, signedAt + ttlSeconds) ∈ s.log) : s.Verifies runId ttlSeconds signedAt := by
  have hsigned : s.Signed (headOf s.lib (payloadOf runId (signedAt + ttlSeconds)))
      (payloadOf runId (signedAt + ttlSeconds)) := ⟨_, hlog, rfl, rfl⟩
  refine ⟨_, sign_ok hsecret, fun now => ?_⟩
  have hcheck := @verify_signed s _ _ _ _ now hsecret hjson (rsplitDot_append (dot_not_mem_b64url _)) hsigned
    (b64urlDecode_b64url _)
  rw [checkPayload_payloadOf] at hcheck
  refine ⟨fun hnow => ?_, fun hnow => ?_⟩
  · rw [hcheck, if_neg (by omega)]
  · rw [hcheck, if_pos hnow]

theorem refuses_of_ascii {head sig token : String} {now : Int} (hsecret : s.secret ≠ "") (hjson : s.ReadsBack)
    (hunforged : s.Unforged token) (htoken : rsplitDot token = some (head, sig)) (hascii : isAscii head = true) :
    s.Refuses now token := by
  by_cases hsig : b64urlDecode sig = some (s.lib.digest (utf8 s.secret) (utf8 head))
  · obtain ⟨payload, hsigned⟩ := hunforged head sig htoken hsig
    have hcheck : verify s.lib (some s.secret) now token = checkPayload now payload :=
      verify_signed hsecret hjson htoken hsigned hsig
    have hgiven := hsigned
    obtain ⟨entry, _, rfl, _⟩ := hgiven
    rw [checkPayload_payloadOf] at hcheck
    unfold Signing.Refuses
    rw [hcheck]
    by_cases hexpired : entry.2 < now
    · rw [if_pos hexpired]
      rfl
    · rw [if_neg hexpired]
      exact ⟨head, sig, htoken, hsigned⟩
  · unfold Signing.Refuses
    rw [verify_split hsecret htoken, encodeAscii_ok hascii]
    dsimp only [Except.bind]
    cases hdecoded : b64urlDecode sig with
    | none => rfl
    | some actual =>
      have hne : s.lib.digest (utf8 s.secret) (utf8 head) ≠ actual := fun heq => hsig (heq ▸ hdecoded)
      dsimp only
      rw [if_pos hne]
      rfl

/-- Of a text nobody forged the check refuses exactly when its head is ASCII. -/
theorem refuses_iff {now : Int} {token : String} (hsecret : s.secret ≠ "") (hjson : s.ReadsBack)
    (hunforged : s.Unforged token) :
    s.Refuses now token ↔ (rsplitDot token).all (fun parts => isAscii parts.1) = true := by
  cases htoken : rsplitDot token with
  | none =>
    refine iff_of_true ?_ rfl
    unfold Signing.Refuses verify
    rw [htoken]
    rfl
  | some parts =>
    obtain ⟨head, sig⟩ := parts
    refine ⟨fun h => ?_, fun h => refuses_of_ascii hsecret hjson hunforged htoken h⟩
    cases hascii : isAscii head with
    | true => exact hascii
    | false =>
      have hraised : encodeAscii head = .error .unicodeEncodeError := if_neg (by rw [hascii]; decide)
      unfold Signing.Refuses at h
      rw [verify_split hsecret htoken, hraised] at h
      cases h

end Checks

/-- Signed tokens verify until they expire, and any other text is refused cleanly exactly when
its head is ASCII or it has no dot. -/
theorem tokens_checked (s : Signing) (hsecret : s.secret ≠ "") (hjson : s.ReadsBack) :
    (∀ runId ttlSeconds signedAt, (runId, signedAt + ttlSeconds) ∈ s.log → s.Verifies runId ttlSeconds signedAt) ∧
      ∀ token, s.Unforged token → ∀ now,
        (s.Refuses now token ↔ (rsplitDot token).all (fun parts => isAscii parts.1) = true) :=
  ⟨fun _ _ _ hlog => verifies hsecret hjson hlog, fun _ hunforged _ => refuses_iff hsecret hjson hunforged⟩

def run42 : Signing where
  lib := {
    digest := fun _ message =>
      if message = utf8 "eyJleHAiOjE2MCwicnVuX2lkIjo0Mn0" then
        [30, 147, 168, 131, 206, 62, 216, 226, 87, 196, 219, 119, 0, 204, 132, 180,
          193, 18, 115, 7, 97, 89, 201, 118, 127, 247, 84, 92, 82, 64, 238, 119]
      else List.replicate 32 0
    dumps := fun _ => "\x7b\"exp\":160,\"run_id\":42\x7d"
    loads := fun data =>
      if data = utf8 "\x7b\"exp\":160,\"run_id\":42\x7d" then some (payloadOf (.number 42) 160) else none }
  secret := "test-secret"
  log := [(.number 42, 160)]

theorem run42_checked : run42.Verifies (.number 42) 60 100 ∧ run42.Refuses 100 "eyJleHAiOjE2MCwicnVuX2lkIjo0Mn0.AA" := by
  have hjson : run42.ReadsBack := by
    intro entry hentry
    obtain rfl := List.mem_singleton.mp hentry
    dsimp only [run42]
    rw [if_pos rfl]
  have hunforged : run42.Unforged "eyJleHAiOjE2MCwicnVuX2lkIjo0Mn0.AA" := by
    intro head sig hsplit hsig
    have hparts : rsplitDot "eyJleHAiOjE2MCwicnVuX2lkIjo0Mn0.AA" = some ("eyJleHAiOjE2MCwicnVuX2lkIjo0Mn0", "AA") := by
      decide +kernel
    rw [hparts] at hsplit
    obtain ⟨rfl, rfl⟩ := Prod.mk.inj (Option.some.inj hsplit)
    exact absurd hsig (by decide +kernel)
  have hchecked := tokens_checked run42 (by decide) hjson
  exact ⟨hchecked.1 (.number 42) 60 100 (List.mem_singleton_self _),
    (hchecked.2 _ hunforged 100).mpr (by decide +kernel)⟩

/-- A text that nobody signed, with a letter outside ASCII in its head. -/
theorem foreign_head_escapes : run42.Unforged "caf\u00e9.AA" ∧ ¬ run42.Refuses 100 "caf\u00e9.AA" := by
  have hparts : rsplitDot "caf\u00e9.AA" = some ("caf\u00e9", "AA") := by decide +kernel
  constructor
  · intro head sig hsplit hsig
    rw [hparts] at hsplit
    obtain ⟨rfl, rfl⟩ := Prod.mk.inj (Option.some.inj hsplit)
    exact absurd hsig (by decide +kernel)
  · intro h
    have hraised : encodeAscii "caf\u00e9" = .error .unicodeEncodeError := if_neg (by decide +kernel)
    unfold Signing.Refuses at h
    rw [verify_split (by decide) hparts, hraised] at h
    cases h

end ProxmoxVEAutopilot.WinPe
