import ProxmoxVEAutopilot.Foundation.Coroutines
import ProxmoxVEAutopilot.Foundation.Json

/-!
# The live hub of the web process

One event loop runs the connection of every browser and the collector tasks. The loop
may take up any task whose await has its reply; nothing else runs until that task awaits
again. A message is a dict; a send replies with the exception the socket or `json.dumps`
raised, if any.
-/

namespace ProxmoxVEAutopilot.Live

open Foundation (Coroutine Json)
open Foundation.Coroutine (await catching forEach ofExcept state update)

set_option autoImplicit false

abbrev Message := List (String × Json)

structure Clocks where
  monotonic : Rat := 0
  utc : String := ""

/-- `LiveHub`, with the subscriptions of its clients and the clocks of the process. -/
structure Hub (τ : Type) where
  clients : List τ := []
  topics : τ → Finset String := fun _ => ∅
  vmids : τ → Finset Int := fun _ => ∅
  collectorTask : Option Nat := none
  version : Nat := 0
  collectorStarts : Nat := 0
  lastQgaAt : Rat := 0
  clocks : Clocks := {}

inductive Request (τ : Type) where
  | send (client : τ) (message : Message)
  | snapshots (topics : Finset String) (vmids : Finset Int)
  | patches (topics : Finset String) (vmids : Finset Int) (includeQga : Bool)
  | refresh (scope : String)
  | qgaProbe (vmid : Int)
  | screenshot (vmid : Int) (fmt : String)

/-- An ordinary exception is its text. -/
abbrev Handler (τ α : Type) := Coroutine (Hub τ) (Request τ) String Json α

inductive Loaded where
  | value (j : Json)
  | decodeError
  | raised (error : String)

/-- What the hub takes from Python: `json.loads`, `str`, `int`, `str.isdigit`, and the order
in which a set lists its members. -/
structure Python (τ : Type) where
  loads : String → Loaded
  str : Json → String
  int : Json → Except String Int
  isDigit : String → Bool
  listed : List τ → List τ

section Dicts

def field (message : Message) (key : String) : Json := (message.lookup key).getD .null

def assign (message : Message) (key : String) (value : Json) : Message :=
  if message.any fun f => f.1 = key then message.map fun f => if f.1 = key then (key, value) else f
  else message ++ [(key, value)]

def setDefault (message : Message) (key : String) (value : Json) : Message :=
  if message.any fun f => f.1 = key then message else message ++ [(key, value)]

def asDict : Json → Except String Message
  | .obj fields => .ok fields
  | _ => .error "not a dict"

/-- `for x in value`. -/
def iterate : Json → Except String (List Json)
  | .arr xs => .ok xs
  | .obj fields => .ok (fields.map fun f => .str f.1)
  | .str s => .ok (s.toList.map fun c => .str (String.singleton c))
  | _ => .error "not iterable"

/-- `value or default`. -/
def orElse (value default : Json) : Json := if value.truthy then value else default

end Dicts

section Coroutines
variable {τ : Type}

def send (client : τ) (message : Message) : Handler τ Unit := do
  let _ ← await (.send client message)

/-- `topic and client.topics and topic not in client.topics`; a list or a dict has no hash. -/
def skips (topic : Json) (topics : Finset String) : Except String Bool :=
  if topic.truthy && topics ≠ ∅ then
    match topic with
    | .str s => .ok (s ∉ topics)
    | .arr _ | .obj _ => .error "unhashable type"
    | _ => .ok true
  else .ok false

/-- The body of the loop of `broadcast`. -/
def foundDead (message : Message) (client : τ) : Handler τ Bool := do
  let hub ← state
  let skipped ← ofExcept (skips (field message "topic") (hub.topics client))
  if skipped then pure false
  else catching (do send client message; pure false) fun _ => pure true

def deadAmong (message : Message) : List τ → Handler τ (List τ)
  | [] => pure []
  | client :: rest => do
    let dead ← foundDead message client
    let others ← deadAmong message rest
    pure (if dead then client :: others else others)

variable [DecidableEq τ] (py : Python τ)

def discard (client : τ) (hub : Hub τ) : Hub τ := { hub with clients := hub.clients.filter (· ≠ client) }

def broadcast (message : Message) : Handler τ Unit := do
  let hub ← state
  let dead ← deadAmong message (py.listed hub.clients)
  update fun hub => dead.foldl (fun hub client => discard client hub) hub

def nextVersion : Handler τ Json := do
  update fun hub => { hub with version := hub.version + 1 }
  let hub ← state
  pure (.int hub.version)

/-- `self.version += 1; message.setdefault("version", self.version)`. -/
def versioned (message : Json) : Handler τ Message := do
  let version ← nextVersion
  let fields ← ofExcept (asDict message)
  pure (setDefault fields "version" version)

def utcNowIso : Handler τ Json := do
  let hub ← state
  pure (.str hub.clocks.utc)

def hello (client : τ) : Handler τ Unit := do
  let now ← utcNowIso
  send client [("type", .str "hello"), ("schema_version", .int 1), ("server_time", now)]

def subscribe (client : τ) (message : Message) : Handler τ Unit := do
  let topics ← ofExcept (iterate (orElse (field message "topics") (.arr [])))
  let topics := ((topics.filter Json.truthy).map py.str).toFinset
  update fun hub => { hub with topics := Function.update hub.topics client topics }
  let vmids ← ofExcept (iterate (orElse (field message "vmids") (.arr [])))
  let vmids ← ofExcept ((vmids.filter fun v => py.isDigit (py.str v)).mapM py.int)
  update fun hub => { hub with vmids := Function.update hub.vmids client vmids.toFinset }
  let reply ← await (.snapshots topics vmids.toFinset)
  let snapshots ← ofExcept (iterate reply)
  forEach (fun snapshot => do
    let message ← versioned snapshot
    send client message) snapshots

def refresh (client : τ) (message : Message) : Handler τ Unit := do
  let scope := py.str (orElse (field message "scope") (.str "fleet"))
  let now ← utcNowIso
  let version ← nextVersion
  broadcast py [("type", .str "event"), ("topic", .str (if scope = "fleet" then "fleet" else scope)),
    ("event", .str (if scope = "fleet" then "sweep_started" else "refresh_started")),
    ("scope", .str scope), ("generated_at", now), ("version", version)]
  let reply ← catching (do let events ← await (.refresh scope); pure (some events)) fun detail => do
    send client [("type", .str "error"), ("correlation_id", field message "correlation_id"),
      ("error", .str "refresh_failed"), ("detail", .str detail)]
    pure none
  match reply with
  | none => pure ()
  | some events => do
    let events ← ofExcept (iterate events)
    forEach (fun event => do
      let message ← versioned event
      broadcast py message) events

def qgaProbe (client : τ) (message : Message) : Handler τ Unit :=
  catching
    (do
      let vmid ← ofExcept (py.int (field message "vmid"))
      let result ← await (.qgaProbe vmid)
      let now ← utcNowIso
      send client [("type", .str "event"), ("topic", .str "fleet"), ("event", .str "qga_probe.result"),
        ("correlation_id", field message "correlation_id"), ("vmid", .int vmid), ("result", result),
        ("generated_at", now)])
    fun detail => send client [("type", .str "error"), ("topic", .str "fleet"),
      ("correlation_id", field message "correlation_id"), ("error", .str "qga_probe_failed"),
      ("detail", .str detail)]

def screenshot (client : τ) (message : Message) : Handler τ Unit :=
  catching
    (do
      let vmid ← ofExcept (py.int (field message "vmid"))
      let fmt := py.str (orElse (field message "format") (.str "png"))
      let reply ← await (.screenshot vmid fmt)
      let result ← ofExcept (asDict reply)
      send client (result.foldl (fun message f => assign message f.1 f.2)
        [("type", .str "screenshot.result"), ("topic", .str "fleet"),
          ("correlation_id", field message "correlation_id")]))
    fun detail => send client [("type", .str "error"), ("topic", .str "fleet"),
      ("correlation_id", field message "correlation_id"), ("error", .str "screenshot_failed"),
      ("detail", .str detail)]

def unknown (client : τ) (message : Message) : Handler τ Unit :=
  send client [("type", .str "error"), ("correlation_id", field message "correlation_id"),
    ("error", .str "unknown_message_type"), ("detail", .str (py.str (field message "type")))]

def handleMessage (client : τ) (raw : String) : Handler τ Unit :=
  match py.loads raw with
  | .decodeError =>
    send client [("type", .str "error"), ("error", .str "invalid_json"),
      ("detail", .str "message is not valid JSON")]
  | .raised error => .raised error
  | .value value => do
    let message ← ofExcept (asDict value)
    let msgType := field message "type"
    if msgType = .str "subscribe" then subscribe py client message
    else if msgType = .str "refresh" then refresh py client message
    else if msgType = .str "qga_probe" then qgaProbe py client message
    else if msgType = .str "screenshot.request" then screenshot py client message
    else unknown py client message

end Coroutines

section Collector
variable {τ : Type} [DecidableEq τ] (py : Python τ) (qgaIntervalSeconds : Option Rat)

def Hub.allTopics (hub : Hub τ) : Finset String := hub.clients.foldl (fun seen c => seen ∪ hub.topics c) ∅

def Hub.allVmids (hub : Hub τ) : Finset Int := hub.clients.foldl (fun seen c => seen ∪ hub.vmids c) ∅

def Hub.qgaDue (hub : Hub τ) : Bool :=
  match qgaIntervalSeconds with
  | none => false
  | some seconds => seconds ≤ hub.clocks.monotonic - hub.lastQgaAt

def Hub.markQga (hub : Hub τ) : Hub τ :=
  if hub.qgaDue qgaIntervalSeconds then { hub with lastQgaAt := hub.clocks.monotonic } else hub

def patchClients (topics : Finset String) (vmids : Finset Int) (includeQga : Bool) : Handler τ Unit :=
  if topics = ∅ then pure ()
  else
    catching
      (do
        let reply ← await (.patches topics vmids includeQga)
        let messages ← ofExcept (iterate reply)
        forEach (fun message => do
          let message ← versioned message
          broadcast py message) messages)
      fun detail => do
        let now ← utcNowIso
        broadcast py [("type", .str "error"), ("error", .str "collector_failed"), ("detail", .str detail),
          ("generated_at", now)]

def heartbeat : Handler τ Unit := do
  let version ← nextVersion
  let now ← utcNowIso
  broadcast py [("type", .str "heartbeat"), ("version", version), ("server_time", now)]

/-- One round of `_collector_loop` after its sleep, when there are clients. -/
def collectorTurn : Handler τ Unit := do
  let hub ← state
  update (Hub.markQga qgaIntervalSeconds)
  patchClients py hub.allTopics hub.allVmids (hub.qgaDue qgaIntervalSeconds)
  heartbeat py

end Collector

section EventLoop

/-- Where `connect` of a client stands. `refused`: `accept` or the hello raised, so that the
`finally` was never reached. -/
inductive Connection (τ : Type) where
  | idle
  | accepting
  | greeting (rest : Handler τ Unit)
  | ensuring
  | receiving
  | handling (rest : Handler τ Unit)
  | refused
  | closed

/-- `_ensure_collector` has returned. -/
def Connection.passed {τ : Type} : Connection τ → Bool
  | .receiving | .handling _ | .closed => true
  | .idle | .accepting | .greeting _ | .ensuring | .refused => false

inductive Collector (τ : Type) where
  | created
  | sleeping
  | working (rest : Handler τ Unit)
  | finished

/-- `Task.done()`. -/
def Collector.done {τ : Type} : Collector τ → Bool
  | .finished => true
  | .created | .sleeping | .working _ => false

structure World (τ : Type) where
  hub : Hub τ := {}
  connection : τ → Connection τ := fun _ => .idle
  collectors : List (Collector τ) := []

/-- A reply of an await, a call of `connect`, or a change of the clocks. -/
inductive Event (τ : Type) where
  | connect (client : τ)
  | accepted (client : τ) (reply : Except String Unit)
  | ensure (client : τ)
  | received (client : τ) (reply : Except String String)
  | replied (client : τ) (reply : Except String Json)
  | started (task : Nat)
  | woken (task : Nat)
  | collected (task : Nat) (reply : Except String Json)
  | tick (clocks : Clocks)

namespace World
variable {τ : Type} [DecidableEq τ] (w : World τ)

def place (client : τ) (c : Connection τ) : World τ := { w with connection := Function.update w.connection client c }

def accept (client : τ) : World τ := { w with hub := { w.hub with clients := client :: w.hub.clients } }

/-- `connect` up to the end of the hello. -/
def greet (client : τ) (c : Handler τ Unit) : World τ :=
  let r := c.advance w.hub
  let w := { w with hub := r.1 }
  match r.2 with
  | .returned _ => w.place client .ensuring
  | .raised _ => w.place client .refused
  | rest => w.place client (.greeting rest)

def close (client : τ) : World τ := ({ w with hub := discard client w.hub } : World τ).place client .closed

/-- The body of the receive loop; an exception leaves it by way of the `finally`. -/
def handle (client : τ) (c : Handler τ Unit) : World τ :=
  let r := c.advance w.hub
  let w := { w with hub := r.1 }
  match r.2 with
  | .returned _ => w.place client .receiving
  | .raised _ => w.close client
  | rest => w.place client (.handling rest)

/-- `self.collector_task is None or self.collector_task.done()`. -/
def collectorDone : Bool :=
  match w.hub.collectorTask with
  | none => true
  | some task => (w.collectors[task]?.map Collector.done).getD true

/-- There is no await under the lock, so nobody ever waits for it. -/
def ensureCollector : World τ :=
  if w.collectorDone then
    { w with
      hub :=
        { w.hub with
          collectorStarts := w.hub.collectorStarts + 1
          collectorTask := some w.collectors.length }
      collectors := w.collectors ++ [.created] }
  else w

def setCollector (task : Nat) (c : Collector τ) : World τ := { w with collectors := w.collectors.set task c }

/-- `while self.clients:` -/
def loopHead (task : Nat) : World τ :=
  w.setCollector task (if w.hub.clients = [] then .finished else .sleeping)

def collect (task : Nat) (c : Handler τ Unit) : World τ :=
  let r := c.advance w.hub
  let w := { w with hub := r.1 }
  match r.2 with
  | .returned _ => w.loopHead task
  | .raised _ => w.setCollector task .finished
  | rest => w.setCollector task (.working rest)

variable (py : Python τ) (qgaIntervalSeconds : Option Rat)

/-- An event that does not fit where its task stands changes nothing. -/
def exec : Event τ → World τ
  | .connect client =>
    match w.connection client with
    | .idle => w.place client .accepting
    | _ => w
  | .accepted client reply =>
    match w.connection client, reply with
    | .accepting, .ok _ => (w.accept client).greet client (hello client)
    | .accepting, .error _ => w.place client .refused
    | _, _ => w
  | .ensure client =>
    match w.connection client with
    | .ensuring => w.ensureCollector.place client .receiving
    | _ => w
  | .received client reply =>
    match w.connection client, reply with
    | .receiving, .ok raw => w.handle client (handleMessage py client raw)
    | .receiving, .error _ => w.close client
    | _, _ => w
  | .replied client reply =>
    match w.connection client with
    | .greeting (.awaiting _ next) => w.greet client (next reply)
    | .handling (.awaiting _ next) => w.handle client (next reply)
    | _ => w
  | .started task =>
    match w.collectors[task]? with
    | some .created => w.loopHead task
    | _ => w
  | .woken task =>
    match w.collectors[task]? with
    | some .sleeping =>
      if w.hub.clients = [] then w.setCollector task .finished
      else w.collect task (collectorTurn py qgaIntervalSeconds)
    | _ => w
  | .collected task reply =>
    match w.collectors[task]? with
    | some (.working (.awaiting _ next)) => w.collect task (next reply)
    | _ => w
  | .tick clocks => { w with hub := { w.hub with clocks := clocks } }

def run (events : List (Event τ)) : World τ := events.foldl (fun w e => w.exec py qgaIntervalSeconds e) {}

end World

end EventLoop

end ProxmoxVEAutopilot.Live
