import ProxmoxVEAutopilot.Foundation.Json
import ProxmoxVEAutopilot.Foundation.Runs

/-!
# The requests that put the onboarding state

The endpoint takes the passwords out of the patch and saves them to the vault, reads the
row, and hands the patch to the store, which validates it and writes the row. Other requests
for the same row go on in between.
-/

namespace ProxmoxVEAutopilot.Onboarding.Requests

open Foundation (Json)

set_option autoImplicit false

/-- What the code may raise; the endpoint answers for the first two. -/
inductive Raised where
  | valueError (detail : String)
  | staleEtag (detail : String)
  | other
deriving DecidableEq

section Dicts

/-- A Python dict; its keys need not be texts. -/
abbrev Dict := List (Json × Json)

def hashable : Json → Bool
  | .arr _ | .obj _ => false
  | _ => true

def wrongLength (i n : Nat) : Raised :=
  .valueError s!"dictionary update sequence element #{i} has length {n}; 2 is required"

/-- An element of a sequence that `dict` takes for a key and a value. -/
def pairOf (i : Nat) : Json → Except Raised (Json × Json)
  | .arr [key, value] => if hashable key then .ok (key, value) else .error .other
  | .arr xs => .error (wrongLength i xs.length)
  | .str s =>
    match s.toList with
    | [key, value] => .ok (.str (String.singleton key), .str (String.singleton value))
    | cs => .error (wrongLength i cs.length)
  | .obj [(key, _), (value, _)] => .ok (.str key, .str value)
  | .obj fields => .error (wrongLength i fields.length)
  | _ => .error .other

def setItem (d : Dict) (key value : Json) : Dict :=
  if d.any fun item => item.1.pyEq key then d.map fun item => if item.1.pyEq key then (item.1, value) else item
  else d ++ [(key, value)]

def getItem (d : Dict) (key : String) : Option Json := (d.find? fun item => item.1 = .str key).map Prod.snd

/-- `d.update(value)`. -/
def update (d : Dict) : Json → Except Raised Dict
  | .obj fields => .ok (fields.foldl (fun d f => setItem d (.str f.1) f.2) d)
  | .arr xs => (xs.zipIdx.mapM fun x => pairOf x.2 x.1).map fun items => items.foldl (fun d f => setItem d f.1 f.2) d
  | .str s => if s = "" then .ok d else .error (wrongLength 0 1)
  | _ => .error .other

/-- `dict(value or {})`. -/
def dictOf (value : Option Json) : Except Raised Dict :=
  match value with
  | none => .ok []
  | some value => if value.truthy then update [] value else .ok []

end Dicts

/-- The keys of a patch that anything reads. -/
structure Patch where
  identity : Option Json := none
  answers : Option Json := none
  status : Option Json := none
  currentStep : Option Json := none
  persona : Option Json := none
  launchedRunId : Option Json := none

structure Request where
  patch : Patch
  ifMatch : Option String := none

/-- A row of `onboarding_state`; what the answers are depends on who has it. -/
structure Row (α : Type) where
  status : String
  currentStep : String
  persona : Option String
  answers : α
  launchedRunId : Option String
  createdAt : Int
  updatedAt : Int
deriving DecidableEq

/-- Python's `str`, `repr`, `json.loads` and `isoformat`; and what psycopg and the server make of
a value given for a text column, in `VALUES` and in `COALESCE`, and of a value given as `Jsonb`. -/
structure Runtime where
  str : Json → String
  repr : String → String
  loads : String → Except Raised Json
  isoformat : Int → String
  insertText : Json → Option (Option String)
  coalesceText : Json → Option (Option String)
  jsonb : Json → Option Json
  jsonbDict : Dict → Option Json

section Intake

abbrev Vault := List (String × Json)

/-- The vault's lines are replaced in place, or added at the end. -/
def saveVault (vault : Vault) (update : String × Json) : Vault :=
  if vault.any fun line => line.1 = update.1 then vault.map fun line => if line.1 = update.1 then update else line
  else vault ++ [update]

/-- `raw_key, ref_key, vault_key`. -/
def intakeKeys (ownerSub : String) : List (String × String × String) :=
  [("ad_join_password", "ad_join_password_ref", "onboarding/" ++ ownerSub ++ "/ad_join_password"),
    ("local_admin_password", "local_admin_password_ref", "onboarding/" ++ ownerSub ++ "/local_admin_password")]

/-- Neither missing, nor null, nor empty. -/
def given : Option Json → Option Json
  | none | some .null | some (.str "") => none
  | some raw => some raw

structure Intake where
  identity : Dict
  saves : List (String × Json) := []

def intakeKey (out : Intake) (keys : String × String × String) : Intake :=
  let raw := getItem out.identity keys.1
  let identity := out.identity.filter fun item => item.1 ≠ .str keys.1
  match given raw with
  | none => { out with identity := identity }
  | some raw =>
    { identity := setItem identity (.str keys.2.1) (.str ("vault:" ++ keys.2.2))
      saves := out.saves ++ [(keys.2.2, raw)] }

/-- `_intake_secrets`: the identity that takes the place of the patch's, which `put_state` never
reads, and the saves to the vault. -/
def intakeSecrets (ownerSub : String) (patch : Patch) : Except Raised Intake :=
  (dictOf patch.identity).map fun identity => (intakeKeys ownerSub).foldl intakeKey { identity := identity }

end Intake

section Store
variable (rt : Runtime)

def etagFor (updatedAt : Int) : String := "W/\"" ++ rt.isoformat updatedAt ++ "\""

structure RowDict where
  row : Row Json
  etag : String

def decodeAnswers : Json → Except Raised Json
  | .str s => rt.loads s
  | value => .ok value

def rowToDict (row : Row Json) : Except Raised RowDict :=
  (decodeAnswers rt row.answers).map fun answers =>
    { row := { row with answers := answers }, etag := etagFor rt row.updatedAt }

def validStatuses : List String := ["pending", "in_progress", "launched", "complete", "aborted"]

def validPersonas : List String := ["lab", "msp", "corp"]

/-- `value not in valid`; a list or a dict has no hash. -/
def member (message : String) (valid : List String) (value : Json) : Except Raised Unit :=
  match value with
  | .str s => if s ∈ valid then .ok () else .error (.valueError (message ++ rt.str value))
  | .arr _ | .obj _ => .error .other
  | _ => .error (.valueError (message ++ rt.str value))

def validate (patch : Patch) : Except Raised Unit := do
  match patch.status with
    | none => pure ()
    | some value => member rt "invalid status: " validStatuses value
  match patch.persona with
    | none | some .null => pure ()
    | some value => member rt "invalid persona: " validPersonas value

def checkEtag (row : Option (Row Json)) (ifMatch : Option String) : Except Raised Unit :=
  match row, ifMatch with
  | none, none | some _, none => .ok ()
  | none, some _ => .error (.staleEtag "row does not exist; if_match must be None")
  | some row, some m =>
    if m = etagFor rt row.updatedAt then .ok ()
    else .error (.staleEtag ("if_match=" ++ rt.repr m ++ " but current=" ++ rt.repr (etagFor rt row.updatedAt)))

/-- The text of a value that `validate` has let through. -/
def textOf : Option Json → Option String
  | some (.str s) => some s
  | _ => none

def orRaise {α : Type} : Option α → Except Raised α
  | none => .error .other
  | some a => .ok a

/-- A value of the `INSERT`, with the default of `patch.get`. -/
def insertOr (default : Option String) (value : Option Json) : Except Raised (Option String) :=
  match value with
  | none => .ok default
  | some value => orRaise (rt.insertText value)

/-- The `INSERT`; `current_step` is not null. -/
def insertRow (now : Int) (patch : Patch) : Except Raised (Row Json) := do
  let step ← insertOr rt (some "welcome") patch.currentStep
  let step ← orRaise step
  let answers ← orRaise (rt.jsonb (patch.answers.getD (.obj [])))
  let runId ← insertOr rt none patch.launchedRunId
  pure {
    status := (textOf patch.status).getD "in_progress"
    currentStep := step
    persona := textOf patch.persona
    answers := answers
    launchedRunId := runId
    createdAt := now
    updatedAt := now }

/-- `COALESCE(value, column)`. -/
def coalesce (value : Option Json) : Except Raised (Option String) :=
  match value with
  | none => .ok none
  | some value => orRaise (rt.coalesceText value)

def mergeAnswers (old : Json) (answers : Option Json) : Except Raised Dict := do
  let merged ← dictOf (some old)
  match answers with
    | none => pure merged
    | some value => update merged value

def updateRow (now : Int) (patch : Patch) (row : Row Json) : Except Raised (Row Json) := do
  let answers ← mergeAnswers row.answers patch.answers
  let step ← coalesce rt patch.currentStep
  let answers ← orRaise (rt.jsonbDict answers)
  let runId ← coalesce rt patch.launchedRunId
  pure { row with
    status := (textOf patch.status).getD row.status
    currentStep := step.getD row.currentStep
    persona := (textOf patch.persona).or row.persona
    answers := answers
    launchedRunId := runId.or row.launchedRunId
    updatedAt := now }

/-- Before anything is written. -/
def checks (row : Option (Row Json)) (request : Request) : Except Raised Unit := do
  validate rt request.patch
  checkEtag rt row request.ifMatch

/-- The statement that writes the row. `raced`: another request has inserted the row after the
`SELECT … FOR UPDATE` found none. -/
def statement (now : Int) (raced : Bool) (row : Option (Row Json)) (patch : Patch) : Except Raised (Row Json) :=
  match row with
  | none => if raced then .error .other else insertRow rt now patch
  | some row => updateRow rt now patch row

def written (now : Int) (raced : Bool) (row : Option (Row Json)) (request : Request) : Except Raised (Row Json) := do
  checks rt row request
  statement rt now raced row request.patch

/-- `put_state`: the row that is stored at the end, and what is returned or raised. The commit
comes before the row is read back. -/
def putState (now : Int) (raced : Bool) (row : Option (Row Json)) (request : Request) :
    Option (Row Json) × Except Raised RowDict :=
  match written rt now raced row request with
  | .error e => (row, .error e)
  | .ok new => (some new, rowToDict rt new)

end Store

section Answers

structure Scrubbed where
  answers : Dict
  identity : Dict

structure Body where
  row : Row Scrubbed
  etag : String

def refState (ref : Json) (isSet : Bool) : Json := .obj [("ref", ref), ("is_set", .bool isSet)]

def scrubRef (identity : Dict) (key : String) : Dict :=
  match getItem identity key with
  | some (.obj _) => identity
  | some (.str ref) =>
    if "vault:".toList.isPrefixOf ref.toList then setItem identity (.str key) (refState (.str ref) true)
    else setItem identity (.str key) (refState .null (ref != ""))
  | some ref => setItem identity (.str key) (refState .null ref.truthy)
  | none => setItem identity (.str key) (refState .null false)

/-- `_scrub_for_client`; the identity stands beside the answers it belongs to. -/
def scrubForClient (dict : RowDict) : Except Raised Body := do
  let answers ← dictOf (some dict.row.answers)
  let identity ← dictOf (getItem answers "identity")
  let identity := ["ad_join_password_ref", "local_admin_password_ref"].foldl scrubRef identity
  pure {
    row := { dict.row with answers := { answers := answers.filter fun item => item.1 ≠ .str "identity", identity := identity } }
    etag := dict.etag }

inductive Answer where
  | ok (body : Body)
  | badRequest (detail : String)
  | conflict (detail : String)
  | preconditionRequired
  | internalError

/-- 400, 409 or 428. -/
def Answer.refused : Answer → Bool
  | .badRequest _ | .conflict _ | .preconditionRequired => true
  | .ok _ | .internalError => false

def answerOf : Except Raised RowDict → Answer
  | .error (.valueError detail) => .badRequest detail
  | .error (.staleEtag detail) => .conflict detail
  | .error .other => .internalError
  | .ok dict =>
    match scrubForClient dict with
    | .ok body => .ok body
    | .error _ => .internalError

end Answers

section Requests

/-- Where a request stands. Its transaction, and so its `now()`, starts with the first `SELECT`;
`stored` when its row was committed. -/
inductive Phase where
  | waiting
  | sanitized
  | looked (now : Int)
  | answered (answer : Answer) (stored : Bool)

structure World (τ : Type) where
  row : Option (Row Json) := none
  vault : Vault := []
  clock : Int := 0
  phase : τ → Phase := fun _ => .waiting

inductive Event (τ : Type) where
  | tick
  | intake (t : τ)
  | look (t : τ)
  | put (t : τ) (raced : Bool)

def Event.request {τ : Type} : Event τ → Option τ
  | .tick => none
  | .intake t | .look t | .put t _ => some t

variable {τ : Type} [DecidableEq τ] (rt : Runtime) (ownerSub : String) (request : τ → Request)

namespace World

def goTo (w : World τ) (t : τ) (p : Phase) : World τ := { w with phase := Function.update w.phase t p }

def intake (w : World τ) (t : τ) : World τ :=
  match intakeSecrets ownerSub (request t).patch with
  | .error _ => w.goTo t (.answered .internalError false)
  | .ok out => { w.goTo t .sanitized with vault := out.saves.foldl saveVault w.vault }

def look (w : World τ) (t : τ) : World τ :=
  match w.row with
  | none => w.goTo t (.looked w.clock)
  | some row =>
    match rowToDict rt row with
    | .error _ => w.goTo t (.answered .internalError false)
    | .ok _ =>
      if (request t).ifMatch.isNone then w.goTo t (.answered .preconditionRequired false)
      else w.goTo t (.looked w.clock)

def put (w : World τ) (t : τ) (now : Int) (raced : Bool) : World τ :=
  let r := putState rt now raced w.row (request t)
  { w.goTo t (.answered (answerOf r.2) (written rt now raced w.row (request t)).isOk) with row := r.1 }

/-- A step that is not the next one of its request changes nothing. -/
def exec (w : World τ) : Event τ → World τ
  | .tick => { w with clock := w.clock + 1 }
  | .intake t =>
    match w.phase t with
    | .waiting => w.intake ownerSub request t
    | _ => w
  | .look t =>
    match w.phase t with
    | .sanitized => w.look rt request t
    | _ => w
  | .put t raced =>
    match w.phase t with
    | .looked now => w.put rt request t now raced
    | _ => w

def run (w : World τ) (events : List (Event τ)) : World τ :=
  events.foldl (fun w e => w.exec rt ownerSub request e) w

end World

end Requests

end ProxmoxVEAutopilot.Onboarding.Requests
