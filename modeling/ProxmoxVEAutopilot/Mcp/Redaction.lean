import ProxmoxVEAutopilot.Foundation.Json
import ProxmoxVEAutopilot.Foundation.Markers
import ProxmoxVEAutopilot.Foundation.Substitution
import ProxmoxVEAutopilot.Foundation.Text

/-!
# Redaction of MCP answers

What leaves through the MCP endpoint is converted to JSON values, then redacted: dict keys
that look secret lose their value, and in texts what follows a marker is replaced.
-/

namespace ProxmoxVEAutopilot.Mcp

open Foundation (Json isSpace sub)

set_option autoImplicit false

/-! ### The two regular expressions -/

/-- Two letters match each other under `re.I` if they agree here. -/
def fold (c : Char) : Char :=
  if c.toNat = 0x212A then 'k'
  else if c.toNat = 0x130 ∨ c.toNat = 0x131 then 'i'
  else if c.toNat = 0x17F then 's'
  else c.toLower

/-- Some part of the text matches `SECRET_KEY_RE`. -/
def secretKey (key : String) : Bool :=
  let text := String.ofList (key.toList.map fold)
  ["password", "secret", "token", "authorization", "apikey", "api_key", "api-key",
    "privatekey", "private_key", "private-key"].any fun word => Foundation.contains word text

/-- What `[^\\s&]` leaves out. The pattern is a raw string: its class names the backslash and
the letter s, and white space is in. -/
def isStop (c : Char) : Bool := fold c == 's' || c == '\\' || c == '&'

/-- The word at the start, as it is spelled there, and what stands behind it. -/
def keyword? (word : String) (s : List Char) : Option (List Char × List Char) :=
  if (s.take word.length).map fold = word.toList
    then some (s.take word.length, s.drop word.length) else none

/-- The second group after `first`, all it can get. -/
def covered (first : List Char) : List Char → Option (List Char × List Char)
  | [] => none
  | c :: s => if isStop c then none else some (first, (c :: s).dropWhile (!isStop ·))

/-- `bearer\s+` and the second group. If nothing is left for the group, the first gives up a
space, unless it has just one. -/
def bearerAt (s : List Char) : Option (List Char × List Char) :=
  match keyword? "bearer" s with
  | none => none
  | some (word, behind) =>
    let spaces := behind.takeWhile isSpace
    let rest := behind.dropWhile isSpace
    match spaces with
    | [] => none
    | [_] => covered (word ++ spaces) rest
    | _ => (covered (word ++ spaces) rest).or (some (word ++ spaces.dropLast, rest))

def assignedAt (word : String) (s : List Char) : Option (List Char × List Char) :=
  match keyword? word s with
  | none => none
  | some (first, rest) => covered first rest

/-- A match of `SECRET_VALUE_RE` at the start: its first group and what stands behind it. -/
def secretAt (s : List Char) : Option (List Char × List Char) :=
  (bearerAt s).or <| (assignedAt "token=" s).or <| (assignedAt "password=" s).or <| assignedAt "secret=" s

def redactedText : List Char := "[redacted]".toList

/-- `SECRET_VALUE_RE.sub`. -/
def redactSecrets (s : List Char) : List Char :=
  sub (fun t => (secretAt t).map fun m => (m.1 ++ redactedText, m.2)) s

/-! ### Values -/

/-- What a tool returns. The first three carry what the conversion makes of them; a set is
given in its listing order. -/
inductive Value where
  | moment (isoformat : String)
  | decimal (asFloat : Rat)
  | uuid (text : String)
  | bytes (decoded : String)
  | null
  | bool (b : Bool)
  | int (n : Int)
  | float (q : Rat)
  | text (s : String)
  | dict (entries : List (String × Value))
  | seq (items : List Value)

mutual

def jsonable : Value → Json
  | .moment s | .uuid s | .bytes s | .text s => .str s
  | .decimal q | .float q => .float q
  | .null => .null
  | .bool b => .bool b
  | .int n => .int n
  | .dict entries => .obj (jsonableEntries entries)
  | .seq items => .arr (jsonableItems items)

def jsonableEntries : List (String × Value) → List (String × Json)
  | [] => []
  | (key, item) :: entries => (key, jsonable item) :: jsonableEntries entries

def jsonableItems : List Value → List Json
  | [] => []
  | item :: items => jsonable item :: jsonableItems items

end

def maxString : Nat := 12000

def redactText (s : String) : String :=
  let text := redactSecrets s.toList
  if text.length > maxString then String.ofList (text.take maxString ++ "...[truncated]".toList)
  else String.ofList text

mutual

/-- `redact` behind the conversion, which changes nothing in a converted value. -/
def redactJson : Json → Json
  | .obj fields => .obj (redactFields fields)
  | .arr items => .arr (redactItems items)
  | .str s => .str (redactText s)
  | value => value

def redactFields : List (String × Json) → List (String × Json)
  | [] => []
  | (key, item) :: fields =>
    (key, if secretKey key then .str "[redacted]" else redactJson item) :: redactFields fields

def redactItems : List Json → List Json
  | [] => []
  | item :: items => redactJson item :: redactItems items

end

def redact (value : Value) : Json := redactJson (jsonable value)

/-! ### The answers -/

/-- An exception of a tool: `HTTPException`, or another by its text and the name of its class. -/
inductive Raised where
  | http (statusCode : Int) (detail : Value)
  | other (text type : String)

def normalizeException : Raised → Json
  | .http statusCode detail =>
    .obj [("error", .bool true), ("status_code", .int statusCode), ("detail", redact detail)]
  | .other text type =>
    .obj [("error", .bool true), ("detail", redact (.text text)), ("type", .str type)]

/-- `dumps` is `json.dumps` with sorted keys. -/
def toolTextResult (dumps : Json → String) (payload : Value) (isError : Bool) : Json :=
  let structured := redact payload
  .obj [
    ("content", .arr [.obj [("type", .str "text"), ("text", .str (dumps structured))]]),
    ("structuredContent", structured),
    ("isError", .bool isError)]

end ProxmoxVEAutopilot.Mcp
