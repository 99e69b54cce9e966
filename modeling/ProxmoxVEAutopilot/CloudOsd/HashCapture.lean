import ProxmoxVEAutopilot.CloudOsd.DomainJoinExecutor
import ProxmoxVEAutopilot.Foundation.Base64
import ProxmoxVEAutopilot.Foundation.Lines

/-!
# Capture of the hardware hash

The guest prints the serial and the hash behind a marker each. A host that wraps its output
breaks the line of the hash; the pieces that do not open with a marker are put together again.
-/

namespace ProxmoxVEAutopilot.CloudOsd

open Foundation TsEngine
set_option autoImplicit false

def serialMarker : List Char := "SERIAL=".toList

def hashMarker : List Char := "HASH=".toList

/-- The local variables of the loop. -/
structure HashReading where
  serial : List Char := []
  hashParts : List (List Char) := []
  inHash : Bool := false
deriving DecidableEq, Repr

def HashReading.hash (r : HashReading) : List Char := r.hashParts.flatten

/-- The loop body behind `line = raw_line.strip()`. -/
def HashReading.take (r : HashReading) (line : List Char) : HashReading :=
  if serialMarker <+: line then
    { r with serial := trimmed isSpace (line.drop serialMarker.length), inHash := false }
  else if hashMarker <+: line then
    { r with hashParts := [trimmed isSpace (line.drop hashMarker.length)], inHash := true }
  else if r.inHash ∧ line ≠ [] then { r with hashParts := r.hashParts ++ [line] }
  else r

def readHashOutput (output : List Char) : HashReading :=
  (splitlines output).foldl (fun r rawLine => r.take (trimmed isSpace rawLine)) {}

def parseHashOutput (result : ExecResult) : String × String :=
  let r := readHashOutput result.outData.toList
  (String.ofList r.serial, String.ofList r.hash)

structure HashCandidate where
  runId : Nat
  vmid : Option Int
  node : Option String
  vmName : String
  groupTag : String := ""
deriving DecidableEq

/-- The arguments of `persist_hash`. -/
structure HashRow where
  vmid : Int
  serial : String
  productId : String := ""
  hardwareHash : String
  groupTag : String
deriving DecidableEq, Repr

/-- What the calls that leave the process answer: an error is a raised exception. -/
structure HashAnswers where
  resolvedNode : Except String (Option String)
  guestExec : Except String ExecResult
  persistHash : HashRow → Except String Unit

inductive HashStatus where
  | captured
  | failed
  | unreachable
  | noNode
deriving DecidableEq, Repr

/-- What `execute_hash_capture_for_run` returns, the rows it hands to `persist_hash` and its writes. -/
structure HashOutcome where
  status : HashStatus
  error : Option String := none
  persisted : List HashRow := []
  actions : List Action := []

def minHardwareHashLength : Nat := 512

def hashProblem (serial hardwareHash : String) : String :=
  if serial = "" then "no serial in guest output"
  else if hardwareHash = "" then "no hardware hash in guest output"
  else if hardwareHash.toList.length < minHardwareHashLength then
    "hardware hash is " ++ toString hardwareHash.toList.length ++ " chars, expected at least " ++
      toString minHardwareHashLength ++ " (truncated capture)"
  else ""

def hashEvent (now : Time) (eventType severity message : String) (data : List (String × Json)) : Action :=
  .appendEvent {
    phase := "full_os"
    eventType := eventType
    severity := severity
    message := some message
    data := .obj data } now

section Execution
variable (now : Time) (candidate : HashCandidate) (answers : HashAnswers)

/-- The end of `execute_hash_capture_for_run`, with a usable hash. -/
def persistCapture (serial hardwareHash : String) : HashOutcome :=
  match candidate.vmid with
  | none =>
    let raised := "int() argument must be a string, a bytes-like object or a real number, not 'NoneType'"
    { status := .failed, error := some ("persist failed: " ++ cut 150 raised) }
  | some vmid =>
    let row : HashRow := {
      vmid := vmid
      serial := serial
      hardwareHash := hardwareHash
      groupTag := candidate.groupTag }
    match answers.persistHash row with
    | .error raised => { status := .failed, error := some ("persist failed: " ++ cut 150 raised), persisted := [row] }
    | .ok () =>
      let data := [("vmid", vmidJson candidate.vmid), ("serial", .str serial)]
      let done := .markDone ["capture_autopilot_hash"] "cloudosd-hash-capture"
        (some "Server-side Autopilot hardware-hash capture completed") (.obj data)
      { status := .captured
        persisted := [row]
        actions := [
          .engine { op := done, now := now },
          hashEvent now "autopilot_hash_captured" "info" ("Captured Autopilot hardware hash for " ++
            (given (some candidate.vmName)).getD (candidate.vmid.elim "None" toString)) data] }

def captureFrom (result : ExecResult) : HashOutcome :=
  let read := parseHashOutput result
  let problem := hashProblem read.1 read.2
  if problem ≠ "" then
    let err := cut 300 ((given (some result.errData)).getD result.outData)
    { status := .failed
      error := some problem
      actions := [hashEvent now "autopilot_hash_capture_failed" "warning"
        ("Could not read a usable hardware hash from guest: " ++ problem)
        [("error", .str err), ("problem", .str problem), ("vmid", vmidJson candidate.vmid)]] }
  else persistCapture now candidate answers read.1 read.2

def captureOnNode : HashOutcome :=
  match answers.guestExec with
  | .error raised => { status := .unreachable, error := some (cut 200 raised) }
  | .ok result => captureFrom now candidate answers result

def executeHashCaptureForRun : Except String HashOutcome :=
  match given candidate.node with
  | some _ => .ok (captureOnNode now candidate answers)
  | none => answers.resolvedNode.map fun node =>
    if (given node).isNone then { status := .noNode } else captureOnNode now candidate answers

end Execution

end ProxmoxVEAutopilot.CloudOsd
