import ProxmoxVEAutopilot.Foundation.Text

/-!
# A deletion job

`cloud_delete` turns form targets and the virtual machines of serials into items, one for
each object. `_run_cloud_delete` deletes them source by source and verifies in the
background. All of it runs on one event loop: nothing happens between two awaits of a task,
anything may happen while it awaits.
-/

namespace ProxmoxVEAutopilot.CloudDeletes

open Foundation
set_option autoImplicit false

inductive Source where
  | pve
  | intune
  | autopilot
  | entra
deriving DecidableEq, Repr

namespace Source

def text : Source → String
  | pve => "pve"
  | intune => "intune"
  | autopilot => "autopilot"
  | entra => "entra"

def order : Source → Nat
  | pve => 0
  | intune => 1
  | autopilot => 2
  | entra => 3

def all : List Source := [pve, intune, autopilot, entra]

def ofText? (text : String) : Option Source := all.find? fun s => s.text == text

theorem order_injective {s t : Source} (h : s.order = t.order) : s = t := by
  cases s <;> cases t <;> first | rfl | cases h

end Source

inductive ItemState where
  | pending
  | deleting
  | verifying
  | deleted
  | unverified
  | error
deriving DecidableEq, Repr

structure Item where
  source : Source
  objectId : String
  serial : String := ""
  displayName : String := ""
  state : ItemState := .pending
  message : String := ""
  startedAt : Option String := none
  finishedAt : Option String := none
deriving DecidableEq, Repr

def Item.key (item : Item) : Source × String := (item.source, item.objectId)

section Targets

/-- `raw.split(":", 1)` of a text with a colon. -/
def splitColon (raw : String) : Option (String × String) :=
  if ':' ∈ raw.toList then
    some (String.ofList (raw.toList.takeWhile (· != ':')),
      String.ofList (raw.toList.dropWhile (· != ':')).tail)
  else none

/-- What a form target names; virtual machines are not named by targets. -/
def parseTarget (raw : String) : Option (Source × String) := do
  let (source, objectId) ← splitColon raw
  let source ← Source.ofText? source
  if objectId = "" ∨ source = .pve then none else some (source, objectId)

structure Vm where
  vmid : Int
  name : String := ""
  tags : String := ""
  template : Bool := false
deriving DecidableEq, Repr

def Vm.tagged (vm : Vm) : Bool := (vm.tags.toList.splitOn ';').contains "autopilot".toList

/-- `_pve_autopilot_vms_by_serial`; of several machines with one name the last counts. -/
def pveAutopilotVmsBySerial (listing : Except String (List Vm)) : String → Option Vm :=
  match listing with
  | .error _ => fun _ => none
  | .ok vms => vms.foldl (fun out vm =>
      if vm.template || !vm.tagged || vm.name = "" then out
      else Function.update out vm.name (some vm)) fun _ => none

def findPveVmBySerial (listing : Except String (List Vm)) (serial : String) : Option Vm :=
  if serial = "" then none else pveAutopilotVmsBySerial listing serial

/-- `if key in seen: continue`. -/
def addItem (parsed : List Item) (item : Item) : List Item :=
  if item.key ∈ parsed.map Item.key then parsed else parsed ++ [item]

def targetItem (target : Source × String) : Item := { source := target.1, objectId := target.2 }

def pveItem (serial : String) (vm : Vm) : Item where
  source := .pve
  objectId := toString vm.vmid
  serial := serial
  displayName := "VM " ++ toString vm.vmid ++ " (" ++ vm.name ++ ")"

def uniqueSerials (pveSerials : List String) : List String :=
  ((pveSerials.filter (· ≠ "")).dedup).insertionSort (· ≤ ·)

/-- The items of the job that `cloud_delete` starts; `listing` is what Proxmox answers while
the machine of a serial is looked up. -/
def cloudDelete (targets pveSerials : List String) (listing : String → Except String (List Vm)) :
    List Item :=
  let parsed := (targets.filterMap parseTarget).map targetItem
  let vms := (uniqueSerials pveSerials).filterMap fun serial =>
    (findPveVmBySerial (listing serial) serial).map (pveItem serial)
  ((parsed ++ vms).foldl addItem []).insertionSort fun a b => a.source.order ≤ b.source.order

end Targets

section Tasks

/-- The clocks as a task reads them when it is taken up. -/
structure Clock where
  loop : Rat
  utc : String := ""

inductive Call where
  | stop
  | destroy
  | delete
  | list
  | get
deriving DecidableEq, Repr

/-- `started` takes up a task for the first time, `raised` is any exception of the call. -/
inductive Reply where
  | started
  | slept
  | done
  | status (code : Nat) (text : String)
  | listing (vmids : List Int)
  | raised (e : String)
deriving DecidableEq, Repr

/-- A row of `deletions`. -/
structure Deletion where
  source : Source
  objectId : String
  serial : String
  displayName : String
  status : String
  message : String
deriving DecidableEq, Repr

def Deletion.key (d : Deletion) : Source × String := (d.source, d.objectId)

def Item.deletion (item : Item) (status message : String) : Deletion :=
  ⟨item.source, item.objectId, item.serial, item.displayName, status, message⟩

/-- Where `_delete_item` stands. -/
inductive DeletePc where
  | created
  | stopping
  | pausing
  | destroying
  | asked
  | returned
  | raised
deriving DecidableEq, Repr

structure Polling where
  delay : Rat
  attempts : Nat
  deadline : Rat
  wakeAt : Rat
deriving DecidableEq

/-- Where `_verify_item` stands. -/
inductive VerifyPc where
  | created
  | sleeping (p : Polling)
  | asking (p : Polling)
  | returned
  | raised
deriving DecidableEq

/-- What a task does up to its next await. -/
structure Turn (π : Type) where
  item : Item
  pc : π
  asks : Option Call := none
  record : Option Deletion := none

def textTake (n : Nat) (s : String) : String := String.ofList (s.toList.take n)

/-- An insert that fails is an exception of the task. -/
def ended {π : Type} (returned raised : π) (dbUp : Bool) (item : Item) (d : Deletion) : Turn π where
  item := item
  pc := if dbUp then returned else raised
  record := if dbUp then some d else none

/-- `_delete_item` up to its first request. `_load_proxmox_config` is read outside the `try` for a
virtual machine and taken not to raise. -/
def startDelete (item : Item) (clock : Clock) : Turn DeletePc :=
  let item := { item with state := .deleting, startedAt := some clock.utc }
  match item.source with
  | .pve => { item := item, pc := .stopping, asks := some .stop }
  | _ => { item := item, pc := .asked, asks := some .delete }

/-- `_delete_item` behind the reply to the DELETE. -/
def deleteAnswered (item : Item) (code : Nat) (err : String) (clock : Clock) (dbUp : Bool) :
    Turn DeletePc :=
  if code = 404 then
    ended .returned .raised dbUp
      { item with state := .deleted, message := "already gone (404)", finishedAt := some clock.utc }
      (item.deletion "ok" "already gone")
  else if 200 ≤ code ∧ code < 300 then
    { item := { item with
        state := .verifying
        message := "DELETE returned " ++ toString code ++ ", verifying…" }
      pc := .returned }
  else if code = 400 then
    { item := { item with
        state := .verifying
        message := "DELETE returned 400 (likely pending from prior request: " ++ textTake 120 err ++
          "); verifying…" }
      pc := .returned }
  else
    let message := "HTTP " ++ toString code ++ ": " ++ textTake 400 err
    ended .returned .raised dbUp { item with state := .error, message := message }
      (item.deletion "error" message)

/-- `_delete_item` from one await to the next; none where the reply is not one to it. -/
def deleteTurn (item : Item) (pc : DeletePc) (reply : Reply) (clock : Clock) (dbUp : Bool) :
    Option (Turn DeletePc) :=
  match pc, reply with
  | .created, .started => some (startDelete item clock)
  | .stopping, .done => some { item := item, pc := .pausing }
  -- a failed stop leaves the `try` before its sleep
  | .stopping, .raised _ => some { item := item, pc := .destroying, asks := some .destroy }
  | .pausing, .slept => some { item := item, pc := .destroying, asks := some .destroy }
  | .destroying, .done =>
    some { item := { item with state := .verifying, message := "delete submitted, verifying…" }
           pc := .returned }
  | .destroying, .raised e =>
    let message := "Proxmox delete failed: " ++ textTake 400 e
    some (ended .returned .raised dbUp { item with state := .error, message := message }
      (item.deletion "error" message))
  | .asked, .status code err => some (deleteAnswered item code err clock dbUp)
  | .asked, .raised _ => some { item := item, pc := .raised }
  | _, _ => none

/-- `_VERIFY_MAX_SECONDS`, and the three minutes of a virtual machine. -/
def budget : Source → Rat
  | .pve => 180
  | .autopilot => 7200
  | .intune => 600
  | .entra => 600

def nextDelay (source : Source) (delay : Rat) : Rat :=
  match source with
  | .pve => min (delay * (3 / 2)) 15
  | _ => min (delay * 2) 60

/-- `int(budget - (deadline - time()))`. -/
def elapsed (source : Source) (p : Polling) (clock : Clock) : Int :=
  let q := budget source - (p.deadline - clock.loop)
  q.num.tdiv q.den

def attemptMessage (source : Source) (p : Polling) (clock : Clock) : String :=
  "verifying… attempt " ++ toString p.attempts ++ ", " ++ toString (elapsed source p clock) ++ "s elapsed"

variable (repr : String → String)

/-- `_verify_item` up to its first `sleep`. `_load_proxmox_config` is read outside the `try` here
too. -/
def startVerify (item : Item) (clock : Clock) : Turn VerifyPc :=
  if item.source = .pve ∧ intOfText item.objectId = none then
    { item := { item with state := .error, message := "invalid VMID " ++ repr item.objectId }, pc := .returned }
  else
    { item := item, pc := .sleeping ⟨2, 0, clock.loop + budget item.source, clock.loop + 2⟩ }

/-- The request of the next attempt; the message of a virtual machine waits for the reply. -/
def attempt (item : Item) (p : Polling) (clock : Clock) : Turn VerifyPc :=
  let p := { p with attempts := p.attempts + 1 }
  match item.source with
  | .pve => { item := item, pc := .asking p, asks := some .list }
  | source =>
    { item := { item with message := attemptMessage source p clock }, pc := .asking p, asks := some .get }

/-- Back to the head of the loop. -/
def again (item : Item) (p : Polling) (clock : Clock) : Turn VerifyPc :=
  let delay := nextDelay item.source p.delay
  { item := item, pc := .sleeping { p with delay := delay, wakeAt := clock.loop + delay } }

/-- The end of a verification: the time of the end is only noted when the row was written. -/
def verified (item : Item) (d : Deletion) (clock : Clock) (dbUp : Bool) : Turn VerifyPc :=
  ended .returned .raised dbUp
    (if dbUp then { item with finishedAt := some clock.utc } else item) d

/-- `str(target_vmid)`. -/
def Item.targetId (item : Item) : String :=
  match intOfText item.objectId with
  | some vmid => toString vmid
  | none => item.objectId

/-- The row of a virtual machine that was verified. -/
def Item.vmDeletion (item : Item) (message : String) : Deletion :=
  ⟨item.source, item.targetId, item.serial, item.displayName, "ok", message⟩

/-- `_verify_pve_item` behind the reply; a failed listing counts as the machine gone. -/
def listAnswered (item : Item) (p : Polling) (stillThere : Bool) (clock : Clock) (dbUp : Bool) :
    Turn VerifyPc :=
  if !stillThere then
    verified { item with
      state := .deleted
      message := "VM removed, verified after " ++ toString p.attempts ++ " attempt(s)" } (item.vmDeletion "")
      clock dbUp
  else if p.deadline ≤ clock.loop then
    let message := "VM still present in node listing after " ++ toString p.attempts ++ " attempt(s)"
    verified { item with state := .unverified, message := message } (item.vmDeletion message) clock dbUp
  else again { item with message := attemptMessage .pve p clock } p clock

/-- `_verify_item` behind the reply to the GET. -/
def getAnswered (item : Item) (p : Polling) (code : Nat) (clock : Clock) (dbUp : Bool) : Turn VerifyPc :=
  if code = 404 then
    verified { item with
      state := .deleted
      message := "verified 404 after " ++ toString p.attempts ++ " attempt(s)" } (item.deletion "ok" "")
      clock dbUp
  else if p.deadline ≤ clock.loop then
    let message := "delete accepted but GET still returned " ++ toString code ++ " after " ++
      toString p.attempts ++ " attempt(s) over " ++ toString (budget item.source).num ++ "s"
    verified { item with state := .unverified, message := message } (item.deletion "ok" message) clock dbUp
  else again item p clock

/-- `_verify_item` from one await to the next; no sleep ends early. -/
def verifyTurn (item : Item) (pc : VerifyPc) (reply : Reply) (clock : Clock) (dbUp : Bool) :
    Option (Turn VerifyPc) :=
  match pc, reply with
  | .created, .started => some (startVerify repr item clock)
  | .sleeping p, .slept => if p.wakeAt ≤ clock.loop then some (attempt item p clock) else none
  | .asking p, reply =>
    match item.source, reply with
    | .pve, .listing vmids =>
      some (listAnswered item p ((intOfText item.objectId).any (· ∈ vmids)) clock dbUp)
    | .pve, .raised _ => some (listAnswered item p false clock dbUp)
    | .pve, _ => none
    | _, .status code _ => some (getAnswered item p code clock dbUp)
    | _, .raised _ => some { item := item, pc := .raised }
    | _, _ => none
  | _, _ => none

end Tasks

section Loop

structure Slot where
  item : Item
  del : Option DeletePc := none
  ver : Option VerifyPc := none
deriving DecidableEq

/-- Where `_run_cloud_delete` stands: `waiting` for the deletes of a source, `verifying` for
all verifications. -/
inductive Runner where
  | created
  | waiting (source : Source) (rest : List Source)
  | verifying
  | returned
  | raised
deriving DecidableEq, Repr

inductive JobState where
  | pending
  | running
  | done
deriving DecidableEq, Repr

/-- A request when it is made, with its reply when it is answered. -/
structure Entry (n : Nat) where
  slot : Fin n
  source : Source
  call : Call
  answer : Option Reply := none
deriving DecidableEq

structure Job (n : Nat) where
  slots : Fin n → Slot
  runner : Runner := .created
  state : JobState := .pending
  finishedAt : Option String := none
  now : Rat := 0
  records : List Deletion := []
  log : List (Entry n) := []
deriving DecidableEq

def start (items : List Item) : Job items.length where
  slots := fun i => { item := items.get i }

def DeletePc.call : DeletePc → Option Call
  | stopping => some .stop
  | destroying => some .destroy
  | asked => some .delete
  | _ => none

def VerifyPc.call (source : Source) : VerifyPc → Option Call
  | asking _ => some (if source = .pve then .list else .get)
  | _ => none

def VerifyPc.over : VerifyPc → Bool
  | returned | raised => true
  | _ => false

inductive Event (n : Nat) where
  | delete (i : Fin n) (reply : Reply)
  | verify (i : Fin n) (reply : Reply)
  | runner
deriving DecidableEq, Repr

/-- `dbUp` tells whether an insert into `deletions` would go through. -/
structure Step (n : Nat) where
  event : Event n
  clock : Clock
  dbUp : Bool := true

variable {n : Nat}

namespace Job

/-- The requests and replies of a turn, and the row it writes. -/
def noted {π : Type} (job : Job n) (i : Fin n) (call : Option Call) (reply : Reply) (t : Turn π) : Job n :=
  let source := (job.slots i).item.source
  { job with
    records := job.records ++ t.record.toList
    log := job.log ++ (call.map fun c => ⟨i, source, c, some reply⟩).toList ++
      (t.asks.map fun c => ⟨i, source, c, none⟩).toList }

def deleted (job : Job n) (i : Fin n) (pc : DeletePc) (reply : Reply) (t : Turn DeletePc) : Job n :=
  { job.noted i pc.call reply t with
    slots := Function.update job.slots i { job.slots i with item := t.item, del := some t.pc } }

def verified (job : Job n) (i : Fin n) (pc : VerifyPc) (reply : Reply) (t : Turn VerifyPc) : Job n :=
  { job.noted i (pc.call (job.slots i).item.source) reply t with
    slots := Function.update job.slots i { job.slots i with item := t.item, ver := some t.pc } }

def of (job : Job n) (s : Source) (i : Fin n) : Prop := (job.slots i).item.source = s

instance (job : Job n) (s : Source) (i : Fin n) : Decidable (job.of s i) := inferInstanceAs (Decidable (_ = _))

/-- The `finally` of `_run_cloud_delete`. -/
def finish (job : Job n) (runner : Runner) (clock : Clock) : Job n :=
  { job with runner := runner, state := .done, finishedAt := some clock.utc }

def spawnDeletes (job : Job n) (s : Source) : Job n :=
  { job with slots := fun i => if job.of s i then { job.slots i with del := some .created } else job.slots i }

def spawnVerifies (job : Job n) (s : Source) : Job n :=
  { job with
    slots := fun i =>
      if job.of s i ∧ (job.slots i).item.state = .verifying then { job.slots i with ver := some .created }
      else job.slots i }

/-- The loop over the sources up to the next await. -/
def launch (clock : Clock) : List Source → Job n → Job n
  | [], job =>
    if ∃ i, (job.slots i).ver.isSome then { job with runner := .verifying } else job.finish .returned clock
  | s :: rest, job =>
    if ∃ i, job.of s i then { job.spawnDeletes s with runner := .waiting s rest } else launch clock rest job

def ranUp (job : Job n) (clock : Clock) : Job n :=
  match job.runner with
  | .created => launch clock Source.all { job with state := .running }
  | .waiting s rest =>
    -- the exception of one delete is that of `gather`, whatever the others come to
    if ∃ i, job.of s i ∧ (job.slots i).del = some .raised then job.finish .raised clock
    else if ∀ i, job.of s i → (job.slots i).del = some .returned then launch clock rest (job.spawnVerifies s)
    else job
  | .verifying =>
    if ∀ i, (job.slots i).ver.all VerifyPc.over then job.finish .returned clock else job
  | .returned | .raised => job

end Job

variable (repr : String → String)

/-- An event that does not fit where its task stands changes nothing. -/
def exec (job : Job n) (s : Step n) : Job n :=
  if s.clock.loop < job.now then job
  else
    match s.event with
    | .delete i reply =>
      match (job.slots i).del.bind fun pc =>
        (deleteTurn (job.slots i).item pc reply s.clock s.dbUp).map fun t => (pc, t) with
      | none => job
      | some (pc, t) => { job.deleted i pc reply t with now := s.clock.loop }
    | .verify i reply =>
      match (job.slots i).ver.bind fun pc =>
        (verifyTurn repr (job.slots i).item pc reply s.clock s.dbUp).map fun t => (pc, t) with
      | none => job
      | some (pc, t) => { job.verified i pc reply t with now := s.clock.loop }
    | .runner => { job.ranUp s.clock with now := s.clock.loop }

end Loop

end ProxmoxVEAutopilot.CloudDeletes
