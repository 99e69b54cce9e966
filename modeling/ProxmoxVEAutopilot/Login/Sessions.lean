import Mathlib.Data.List.Infix
import ProxmoxVEAutopilot.Foundation.Text
import ProxmoxVEAutopilot.Login.SafeNext

/-!
# Sessions

A session is a signed cookie that stays with the browser: whatever was issued once may come
back, more than once and in any order. Only a sign-in puts a user into it.
-/

namespace ProxmoxVEAutopilot.Login.Sessions

open Foundation
set_option autoImplicit false

section Model

/-- The environment and what `_load_proxmox_config` reads. -/
structure Settings where
  envMode : Option String := none
  envRedirectUri : Option String := none
  envLocalAuth : Option String := none
  authMode : Option String := none
  authRedirectUri : String := "https://autopilot.gell.one/auth/callback"
  tenantId : String := ""
  clientId : String := ""
  clientSecret : String := ""
  adminGroupId : Option String := none

structure AuthConfig where
  mode : String
  requestedMode : String
  entraConfigured : Bool
  localEnabled : Bool
  tenantId : String
  clientId : String
  clientSecret : String
  redirectUri : String
  adminGroupId : Option String

/-- `a or b` of two texts -/
def orText (a b : Option String) : Option String := if a = none ∨ a = some "" then b else a

def authConfig (s : Settings) : AuthConfig :=
  let asked := lower (strip ((orText (orText s.envMode s.authMode) (some "auto")).getD "auto"))
  let requested := if asked ∈ ["auto", "entra", "local"] then asked else "auto"
  let entraConfigured := decide (s.tenantId ≠ "" ∧ s.clientId ≠ "")
  let active := if requested = "auto" then (if entraConfigured then "entra" else "local") else requested
  { mode := active
    requestedMode := requested
    entraConfigured := entraConfigured
    localEnabled := decide (active = "local")
    tenantId := s.tenantId
    clientId := s.clientId
    clientSecret := s.clientSecret
    redirectUri := (orText s.envRedirectUri (some s.authRedirectUri)).getD ""
    adminGroupId := orText s.adminGroupId none }

/-- The switch of `auth_local_start`; the configuration always says whether it is enabled. -/
def localEnabled (s : Settings) : Bool :=
  match s.envLocalAuth with
  | some value => decide (lower (strip value) ∈ ["1", "true", "yes", "on"])
  | none => (authConfig s).localEnabled

structure Claims where
  sub : Option String := none
  oid : Option String := none
  name : Option String := none
  preferredUsername : Option String := none
  email : Option String := none
  groups : List String := []
  tid : Option String := none

structure User where
  sub : Option String := none
  oid : Option String := none
  name : Option String := none
  email : Option String := none
  upn : Option String := none
  groups : List String := []
  tid : Option String := none
  provider : Option String := none

def userFromClaims (c : Claims) : User where
  sub := c.sub
  oid := c.oid
  name := orText c.name c.preferredUsername
  email := orText c.email c.preferredUsername
  upn := c.preferredUsername
  groups := c.groups
  tid := c.tid

def localOperator : User where
  sub := some "local-operator"
  name := some "Local Operator"
  email := some ""
  provider := some "local"

def isAuthorized (u : User) (adminGroupId : Option String) : Bool :=
  match adminGroupId with
  | none => true
  | some group => group = "" || u.groups.contains group

structure Session where
  user : Option User := none
  oidcState : Option String := none
  oidcVerifier : Option String := none
  oidcNext : Option (List Char) := none

/-- An answer of `exchange_code_for_token`; one without `id_token` is still an answer. -/
inductive Exchange where
  | token (idToken : Option String)
  | httpException (detail : String)
  | raised

/-- Entra and the library that checks its tokens, at any time. -/
structure Entra where
  exchangeCodeForToken : Nat → AuthConfig → String → Option String → Exchange
  validateIdToken : Nat → String → AuthConfig → Except String Claims

inductive Page where
  | login
  -- with the secrets that are drawn for it
  | loginStart (next : List Char) (state verifier : String)
  | localStart (next : List Char)
  | callback (code state error errorDescription : String)
  | logout
  | other (path query : List Char) (acceptsJson fromTargetHost : Bool)

/-- `cookie` is one of the sessions that were issued. -/
structure Request where
  cookie : Option Nat
  now : Nat
  settings : Settings
  page : Page

inductive Response where
  | shown
  | redirect (url : List Char)
  | loginError (message : String) (next : List Char)
  | entraNotConfigured
  | authorize (config : AuthConfig) (state verifier : String)
  | handled
  | unauthorized
  | toLogin (next : List Char)
  | serverError

def exemptPrefixes : List String :=
  ["/auth/", "/healthz", "/api/version", "/api/setup/v1/", "/api/qga/recovery-script.ps1",
    "/api/qga/recovery-command.txt", "/winpe/", "/osd/client/", "/osd/v2/", "/api/osd/v2/ubuntu/",
    "/api/agent/v1/", "/api/runs/", "/static/", "/files/", "/favicon.ico"]

def exemptExact : List String := ["/setup", "/files"]

def startsWith (path : List Char) (start : String) : Bool := start.toList.isPrefixOf path

def endsWith (path : List Char) (tail : String) : Bool := tail.toList.isSuffixOf path

/-- `len(path.rstrip("/").split("/"))` -/
def segments (path : List Char) : Nat := (path.reverse.dropWhile (· = '/')).count '/' + 1

def isCloudosdExempt (path : List Char) : Bool :=
  startsWith path "/api/cloudosd/pe/" || startsWith path "/api/cloudosd/assets/" ||
    (startsWith path "/api/cloudosd/cache/" && decide ("/download/".toList <:+: path)) ||
    (startsWith path "/api/cloudosd/runs/" &&
      (segments path = 5 || endsWith path "/identity" || endsWith path "/events"))

def isOsdeployExempt (path : List Char) : Bool :=
  startsWith path "/api/osdeploy/v1/pe/" ||
    (startsWith path "/api/osdeploy/v1/runs/" && (endsWith path "/identity" || endsWith path "/events"))

/-- `is_exempt_request` -/
def isExempt (path : List Char) (fromTargetHost : Bool) : Bool :=
  exemptExact.any (fun exact => exact.toList = path) || exemptPrefixes.any (startsWith path) ||
    isCloudosdExempt path || isOsdeployExempt path ||
    (startsWith path "/api/osdeploy/v1/runs/" && segments path = 6 && fromTargetHost)

variable (refuses : List Char → Bool) (entra : Entra)

def authCallback (s : Session) (now : Nat) (settings : Settings) (code state error errorDescription : String) :
    Session × Response :=
  let next := safeNextUrl refuses (s.oidcNext.getD ['/'])
  let waiting := { s with oidcNext := none }
  if error ≠ "" then (waiting, .loginError s!"Sign-in cancelled ({error}): {errorDescription}" next)
  else
    let popped := { waiting with oidcState := none, oidcVerifier := none }
    if code = "" ∨ s.oidcState = none ∨ s.oidcState = some "" ∨ s.oidcState ≠ some state then
      (popped, .loginError "Sign-in flow got out of sync. Please try again." next)
    else
      let cfg := authConfig settings
      match entra.exchangeCodeForToken now cfg code s.oidcVerifier with
      -- nothing is answered by the handler, and the cookie stays as it was
      | .raised => (s, .serverError)
      | .httpException detail => (popped, .loginError s!"Token exchange failed: {detail}" next)
      | .token idToken =>
        if idToken = none ∨ idToken = some "" then
          (popped, .loginError ("Token response didn't include an id_token — confirm the " ++
            "app reg has 'ID tokens' enabled.") next)
        else
          match entra.validateIdToken now (idToken.getD "") cfg with
          | .error e => (popped, .loginError s!"Token validation failed: {e}" next)
          | .ok claims =>
            let user := userFromClaims claims
            if isAuthorized user cfg.adminGroupId then ({ popped with user := some user }, .redirect next)
            else
              let who := (orText (orText user.email user.upn) (some "this user")).getD ""
              (popped, .loginError (s!"{who} signed in but isn't a member of the required " ++
                "admin group. Ask an admin to add them.") next)

/-- What a request makes of the session it presents: `_require_auth` and the pages under
`/auth/`. No other handler writes to a session. -/
def respond (bypass : Bool) (s : Session) (r : Request) : Session × Response :=
  match r.page with
  | .login => (s, .shown)
  | .loginStart next state verifier =>
    let cfg := authConfig r.settings
    if cfg.entraConfigured then
      ({ s with
          oidcState := some state, oidcVerifier := some verifier, oidcNext := some (safeNextUrl refuses next) },
        .authorize cfg state verifier)
    else (s, .entraNotConfigured)
  | .localStart next =>
    if localEnabled r.settings then
      ({ s with user := some localOperator }, .redirect (safeNextUrl refuses next))
    else (s, .loginError "Local operator sign-in is not enabled." (safeNextUrl refuses next))
  | .callback code state error errorDescription =>
    authCallback refuses entra s r.now r.settings code state error errorDescription
  | .logout => ({}, .redirect ['/'])
  | .other path query acceptsJson fromTargetHost =>
    if bypass || isExempt path fromTargetHost || s.user.isSome then (s, .handled)
    else if startsWith path "/api/" || acceptsJson then (s, .unauthorized)
    else (s, .toLogin (if query = [] then path else path ++ '?' :: query))

/-- The session that the middleware reads from a cookie. -/
def presented (issued : List Session) (r : Request) : Session := (r.cookie.bind fun i => issued[i]?).getD {}

/-- All sessions that were signed so far. -/
def serve (bypass : Bool) (issued : List Session) (r : Request) : List Session :=
  issued ++ [(respond refuses entra bypass (presented issued r) r).1]

end Model

section Provenance
variable (refuses : List Char → Bool) (entra : Entra)

def Began (history : List Request) (next : List Char) (state verifier : String) : Prop :=
  ∃ q ∈ history, q.page = .loginStart next state verifier ∧ (authConfig q.settings).entraConfigured = true

/-- After the history the request signs the user in: local sign-in is enabled, or it brings the state of a
login that was begun, Entra gives a token for its code and the verifier of that very login, and the claims
of the token are valid and name an authorized user. -/
def SignsIn (history : List Request) (r : Request) (u : User) : Prop :=
  match r.page with
  | .localStart _ => localEnabled r.settings = true ∧ u = localOperator
  | .callback code state _ _ =>
    let cfg := authConfig r.settings
    code ≠ "" ∧ state ≠ "" ∧ ∃ next verifier, Began history next state verifier ∧
      ∃ idToken claims, idToken ≠ "" ∧
        entra.exchangeCodeForToken r.now cfg code (some verifier) = .token (some idToken) ∧
        entra.validateIdToken r.now idToken cfg = .ok claims ∧ u = userFromClaims claims ∧
        isAuthorized u cfg.adminGroupId = true
  | _ => False

/-- Some request of the history signed the user in. -/
def Earned (history : List Request) (u : User) : Prop :=
  ∃ before r after, history = before ++ r :: after ∧ SignsIn entra before r u

/-- What is in a session, and where it comes from. -/
structure Grounded (history : List Request) (s : Session) : Prop where
  user : ∀ u, s.user = some u → Earned entra history u
  state : ∀ state, s.oidcState = some state →
    ∃ next verifier, s.oidcVerifier = some verifier ∧ Began history next state verifier
  next : ∀ url, s.oidcNext = some url →
    ∃ next state verifier, url = safeNextUrl refuses next ∧ Began history next state verifier

variable {refuses entra} {history : List Request} {r : Request} {s : Session} {bypass : Bool}

theorem Began.later {next : List Char} {state verifier : String} (h : Began history next state verifier) :
    Began (history ++ [r]) next state verifier := by
  obtain ⟨q, hq, hpage⟩ := h
  exact ⟨q, List.mem_append.mpr (.inl hq), hpage⟩

theorem Earned.later {u : User} (h : Earned entra history u) : Earned entra (history ++ [r]) u := by
  obtain ⟨before, q, after, rfl, hsigns⟩ := h
  exact ⟨before, q, after ++ [r], by simp, hsigns⟩

theorem Grounded.later (h : Grounded refuses entra history s) : Grounded refuses entra (history ++ [r]) s := by
  refine ⟨fun u hu => (h.user u hu).later, fun state hstate => ?_, fun url hurl => ?_⟩
  · obtain ⟨next, verifier, hverifier, hbegan⟩ := h.state state hstate
    exact ⟨next, verifier, hverifier, hbegan.later⟩
  · obtain ⟨next, state, verifier, heq, hbegan⟩ := h.next url hurl
    exact ⟨next, state, verifier, heq, hbegan.later⟩

theorem grounded_empty : Grounded refuses entra history {} := by
  constructor
  · intro u hu
    cases hu
  · intro state hstate
    cases hstate
  · intro url hurl
    cases hurl

theorem Grounded.waiting (h : Grounded refuses entra history s) :
    Grounded refuses entra history { s with oidcNext := none } :=
  ⟨h.user, h.state, fun _ hurl => by cases hurl⟩

theorem Grounded.popped (h : Grounded refuses entra history s) :
    Grounded refuses entra history { s with oidcNext := none, oidcState := none, oidcVerifier := none } := by
  refine ⟨h.user, ?_, ?_⟩
  · intro state hstate
    cases hstate
  · intro url hurl
    cases hurl

theorem callback_grounded {code state error errorDescription : String} (h : Grounded refuses entra history s)
    (hpage : r.page = .callback code state error errorDescription) :
    Grounded refuses entra (history ++ [r])
      (authCallback refuses entra s r.now r.settings code state error errorDescription).1 := by
  unfold authCallback
  dsimp only
  split
  · exact h.waiting.later
  split
  · exact h.popped.later
  rename_i hsync
  rw [not_or, not_or, not_or, not_not] at hsync
  obtain ⟨hcode, _, hempty, hstate⟩ := hsync
  obtain ⟨next, verifier, hverifier, hbegan⟩ := h.state state hstate
  rw [hverifier]
  split
  · exact h.later
  · exact h.popped.later
  rename_i idToken htoken
  split
  · exact h.popped.later
  rename_i hid
  obtain ⟨id, rfl⟩ : ∃ id, idToken = some id := by
    cases idToken with
    | none => exact absurd (.inl rfl) hid
    | some id => exact ⟨id, rfl⟩
  split
  · exact h.popped.later
  rename_i claims hclaims
  split
  · rename_i hauthorized
    have hsigns : SignsIn entra history r (userFromClaims claims) := by
      unfold SignsIn
      rw [hpage]
      refine ⟨hcode, fun heq => hempty (heq ▸ hstate), next, verifier, hbegan, id, claims, fun heq => ?_, htoken,
        hclaims, rfl, hauthorized⟩
      exact hid (.inr (congrArg some heq))
    refine ⟨fun u hu => ?_, fun _ hstate => (by cases hstate), fun _ hurl => (by cases hurl)⟩
    cases hu
    exact ⟨history, r, [], rfl, hsigns⟩
  · exact h.popped.later

theorem respond_grounded (h : Grounded refuses entra history s) :
    Grounded refuses entra (history ++ [r]) (respond refuses entra bypass s r).1 := by
  unfold respond
  split
  · exact h.later
  · rename_i next state verifier hpage
    dsimp only
    split
    · rename_i hconfigured
      have hbegan : Began (history ++ [r]) next state verifier :=
        ⟨r, List.mem_append.mpr (.inr (List.mem_singleton.mpr rfl)), hpage, hconfigured⟩
      refine ⟨h.later.user, fun state' hstate => ?_, fun url hurl => ?_⟩
      · cases hstate
        exact ⟨next, verifier, rfl, hbegan⟩
      · cases hurl
        exact ⟨next, state, verifier, rfl, hbegan⟩
    · exact h.later
  · rename_i next hpage
    split
    · rename_i henabled
      have hsigns : SignsIn entra history r localOperator := by
        unfold SignsIn
        rw [hpage]
        exact ⟨henabled, rfl⟩
      refine ⟨fun u hu => ?_, h.later.state, h.later.next⟩
      cases hu
      exact ⟨history, r, [], rfl, hsigns⟩
    · exact h.later
  · rename_i hpage
    exact callback_grounded h hpage
  · exact grounded_empty
  · split
    · exact h.later
    · split <;> exact h.later

theorem presented_grounded {issued : List Session} (h : ∀ s ∈ issued, Grounded refuses entra history s) (r : Request) :
    Grounded refuses entra history (presented issued r) := by
  unfold presented
  cases hcookie : r.cookie.bind fun i => issued[i]? with
  | none => exact grounded_empty
  | some s =>
    obtain ⟨i, _, hi⟩ := Option.bind_eq_some_iff.mp hcookie
    exact h s (List.mem_of_getElem? hi)

theorem issued_grounded (requests : List Request) :
    ∀ s ∈ requests.foldl (serve refuses entra bypass) [], Grounded refuses entra requests s := by
  induction requests using List.reverseRecOn with
  | nil =>
    intro s hs
    cases hs
  | append_singleton requests r ih =>
    rw [List.foldl_concat]
    intro s hs
    rcases List.mem_append.mp hs with hs | hs
    · exact (ih s hs).later
    · rw [List.mem_singleton.mp hs]
      exact respond_grounded (presented_grounded ih r)

theorem safeNextUrl_root : safeNextUrl refuses ['/'] = ['/'] := by
  apply safeNextUrl_plain
  refine ⟨⟨[], rfl, by simp⟩, fun c hc => ?_⟩
  rw [List.mem_singleton.mp hc]
  decide

theorem safeNextUrl_safeNextUrl (value : List Char) :
    safeNextUrl refuses (safeNextUrl refuses value) = safeNextUrl refuses value := by
  by_cases haccepted : value ≠ [] ∧ Accepted (UrlSplit.cleaned value)
  · have hsame : safeNextUrl refuses value = value := by
      rw [safeNextUrl_eq, if_pos haccepted]
    rw [hsame, hsame]
  · have hroot : safeNextUrl refuses value = ['/'] := by
      rw [safeNextUrl_eq, if_neg haccepted]
    rw [hroot, safeNextUrl_root]

theorem callback_redirect {now : Nat} {settings : Settings} {code state error errorDescription : String}
    {url : List Char} (h : Grounded refuses entra history s)
    (hanswer : (authCallback refuses entra s now settings code state error errorDescription).2 = .redirect url) :
    url = ['/'] ∨ ∃ next state verifier, url = safeNextUrl refuses next ∧ Began history next state verifier := by
  have hurl : url = safeNextUrl refuses (s.oidcNext.getD ['/']) := by
    unfold authCallback at hanswer
    dsimp only at hanswer
    repeat' split at hanswer
    all_goals cases hanswer
    rfl
  cases hnext : s.oidcNext with
  | none =>
    rw [hurl, hnext]
    exact .inl safeNextUrl_root
  | some given =>
    obtain ⟨next, state', verifier, rfl, hbegan⟩ := h.next given hnext
    rw [hurl, hnext]
    exact .inr ⟨next, state', verifier, safeNextUrl_safeNextUrl next, hbegan⟩

variable (refuses entra bypass) in
/-- Whatever cookies are presented in whatever order: a session holds a user only if an earlier request
signed that user in, no other page is handled without one, and the redirect after a sign-in leads where a
login asked for, as far as that is safe. -/
theorem signIns_earned (requests : List Request) (r : Request) :
    let issued := requests.foldl (serve refuses entra bypass) []
    let answer := (respond refuses entra bypass (presented issued r) r).2
    (∀ s ∈ issued, ∀ u, s.user = some u → Earned entra requests u) ∧
    (answer = .handled → bypass = true ∨
      (∃ path query acceptsJson fromTargetHost, r.page = .other path query acceptsJson fromTargetHost ∧
        isExempt path fromTargetHost = true) ∨
      ∃ u, (presented issued r).user = some u ∧ Earned entra requests u) ∧
    ∀ url, answer = .redirect url → url = ['/'] ∨ ∃ next, url = safeNextUrl refuses next ∧
      (r.page = .localStart next ∨ ∃ state verifier, Began requests next state verifier) := by
  intro issued answer
  have hissued : ∀ s ∈ issued, Grounded refuses entra requests s := issued_grounded requests
  have hpresented : Grounded refuses entra requests (presented issued r) := presented_grounded hissued r
  have hanswer : answer = (respond refuses entra bypass (presented issued r) r).2 := rfl
  unfold respond at hanswer
  refine ⟨fun s hs => (hissued s hs).user, fun hhandled => ?_, fun url hurl => ?_⟩
  · rw [hhandled] at hanswer
    split at hanswer
    · cases hanswer
    · dsimp only at hanswer
      split at hanswer <;> cases hanswer
    · split at hanswer <;> cases hanswer
    · unfold authCallback at hanswer
      dsimp only at hanswer
      repeat' split at hanswer
      all_goals cases hanswer
    · cases hanswer
    · rename_i path query acceptsJson fromTargetHost hpage
      split at hanswer
      · rename_i hadmitted
        rw [Bool.or_eq_true, Bool.or_eq_true] at hadmitted
        rcases hadmitted with (hbypass | hexempt) | hsome
        · exact .inl hbypass
        · exact .inr (.inl ⟨path, query, acceptsJson, fromTargetHost, hpage, hexempt⟩)
        · obtain ⟨u, hu⟩ := Option.isSome_iff_exists.mp hsome
          exact .inr (.inr ⟨u, hu, hpresented.user u hu⟩)
      · split at hanswer <;> cases hanswer
  · rw [hurl] at hanswer
    split at hanswer
    · cases hanswer
    · dsimp only at hanswer
      split at hanswer <;> cases hanswer
    · rename_i next hpage
      split at hanswer
      · cases hanswer
        exact .inr ⟨next, rfl, .inl hpage⟩
      · cases hanswer
    · refine (callback_redirect hpresented hanswer.symm).imp_right fun hbegan => ?_
      obtain ⟨next, state, verifier, heq, hbegan⟩ := hbegan
      exact ⟨next, heq, .inr ⟨state, verifier, hbegan⟩⟩
    · cases hanswer
      exact .inl rfl
    · repeat' split at hanswer
      all_goals cases hanswer

/-- A login with Entra, its callback, and the callback once more with the cookie of the login. -/
example :
    let entra : Entra := ⟨fun _ _ _ _ => .token (some "jwt"), fun _ _ _ => .ok { sub := some "ann" }⟩
    let settings : Settings := { tenantId := "t", clientId := "c" }
    let callback : Request := ⟨some 0, 1, settings, .callback "code" "s" "" ""⟩
    (([⟨none, 0, settings, .loginStart "/vms".toList "s" "v"⟩, callback, callback] : List Request).foldl
      (serve (fun _ => false) entra false) []).map (fun s => s.user.isSome) = [false, true, true] := by
  decide +kernel

end Provenance

end ProxmoxVEAutopilot.Login.Sessions
