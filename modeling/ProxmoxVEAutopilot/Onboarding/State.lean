import ProxmoxVEAutopilot.Foundation.Json
import ProxmoxVEAutopilot.Foundation.Runs

/-!
# The onboarding row of one owner

`put_state` is one transaction: it fixes `now()` where it starts, locks the row if there is one
and writes. Clients send the etag of the row they last read. A row's etag is its `updated_at`.
-/

namespace ProxmoxVEAutopilot.Onboarding

open Foundation
set_option autoImplicit false

section Row

structure Row where
  status : String
  currentStep : String
  persona : Option String
  answers : List (String × Json)
  launchedRunId : Option String
  createdAt : Int
  updatedAt : Int
deriving DecidableEq

/-- A patch whose texts are texts and whose answers are an object. -/
structure Patch where
  status : Option String := none
  currentStep : Option String := none
  persona : Option String := none
  answers : Option (List (String × Json)) := none
  launchedRunId : Option String := none
deriving DecidableEq

def validStatuses : List String := ["pending", "in_progress", "launched", "complete", "aborted"]

def validPersonas : List String := ["lab", "msp", "corp"]

def Patch.valid (patch : Patch) : Bool :=
  patch.status.all (· ∈ validStatuses) && patch.persona.all (· ∈ validPersonas)

def mergeAnswers (old new : List (String × Json)) : List (String × Json) :=
  old.filter (fun field => field.1 ∉ new.map Prod.fst) ++ new

def Patch.insert (patch : Patch) (now : Int) : Row where
  status := patch.status.getD "in_progress"
  currentStep := patch.currentStep.getD "welcome"
  persona := patch.persona
  answers := patch.answers.getD []
  launchedRunId := patch.launchedRunId
  createdAt := now
  updatedAt := now

def Patch.update (patch : Patch) (now : Int) (row : Row) : Row :=
  { row with
    status := patch.status.getD row.status
    currentStep := patch.currentStep.getD row.currentStep
    persona := patch.persona.or row.persona
    answers := mergeAnswers row.answers (patch.answers.getD [])
    launchedRunId := patch.launchedRunId.or row.launchedRunId
    updatedAt := now }

end Row

section Puts

/-- A row as one put has left it; `number` tells versions apart. -/
structure Version where
  number : Nat
  row : Row
deriving DecidableEq

def Version.etag (version : Version) : Int := version.row.updatedAt

/-- What the client had read when it sent a put, and the patch of the put. -/
structure Sent where
  read : Option Version
  patch : Patch
  now : Int

def Sent.ifMatch (sent : Sent) : Option Int := sent.read.map Version.etag

inductive Phase where
  | idle
  | started (sent : Sent)
  /-- The `SELECT … FOR UPDATE` has given `existing`. -/
  | selected (sent : Sent) (existing : Option Version)

/-- How a put ends: it is applied to a version and leaves another one, or it raises. -/
inductive Outcome where
  | accepted (base : Option Version) (result : Version)
  | staleEtag
  | valueError
  | uniqueViolation

structure Entry where
  read : Option Version
  outcome : Outcome

structure Client where
  lastRead : Option Version := none
  phase : Phase := .idle

structure World (τ : Type) where
  row : Option Version := none
  lock : Option τ := none
  clock : Int := 0
  client : τ → Client := fun _ => {}
  log : List Entry := []

inductive Event (τ : Type) where
  | tick
  | read (t : τ)
  | start (t : τ) (patch : Patch)
  | select (t : τ)
  | write (t : τ)

variable {τ : Type} [DecidableEq τ]

def World.setClient (w : World τ) (t : τ) (client : Client) : World τ :=
  { w with client := Function.update w.client t client }

/-- The put of the client ends with the outcome. -/
def World.finish (w : World τ) (t : τ) (read lastRead : Option Version) (outcome : Outcome) : World τ :=
  { w.setClient t ⟨lastRead, .idle⟩ with log := w.log ++ [⟨read, outcome⟩] }

def Sent.result (sent : Sent) : Option Version → Version
  | none => ⟨0, sent.patch.insert sent.now⟩
  | some base => ⟨base.number + 1, sent.patch.update sent.now base.row⟩

/-- A move that is not possible leaves the world as it is: a client does one thing at a time,
and a `SELECT … FOR UPDATE` waits for the lock. A commit takes time. -/
def exec (w : World τ) : Event τ → World τ
  | .tick => { w with clock := w.clock + 1 }
  | .read t =>
    match (w.client t).phase with
    | .idle => w.setClient t ⟨w.row, .idle⟩
    | _ => w
  | .start t patch =>
    let client := w.client t
    match client.phase with
    | .idle =>
      if patch.valid then w.setClient t ⟨client.lastRead, .started ⟨client.lastRead, patch, w.clock⟩⟩
      else w.finish t client.lastRead client.lastRead .valueError
    | _ => w
  | .select t =>
    let client := w.client t
    match client.phase with
    | .started sent =>
      match w.row with
      | none =>
        if sent.ifMatch.isSome then w.finish t sent.read client.lastRead .staleEtag
        else w.setClient t ⟨client.lastRead, .selected sent none⟩
      | some version =>
        if w.lock.isSome then w
        else if sent.ifMatch.isSome ∧ sent.ifMatch ≠ some version.etag then
          w.finish t sent.read client.lastRead .staleEtag
        else { w.setClient t ⟨client.lastRead, .selected sent (some version)⟩ with lock := some t }
    | _ => w
  | .write t =>
    let client := w.client t
    match client.phase with
    | .selected sent none =>
      match w.row with
      | none =>
        let result := sent.result none
        { w.finish t sent.read (some result) (.accepted none result) with
          row := some result, clock := w.clock + 1 }
      | some _ => w.finish t sent.read client.lastRead .uniqueViolation
    | .selected sent (some base) =>
      let result := sent.result (some base)
      { w.finish t sent.read (some result) (.accepted (some base) result) with
        row := some result, lock := none, clock := w.clock + 1 }
    | _ => w

end Puts

end ProxmoxVEAutopilot.Onboarding
