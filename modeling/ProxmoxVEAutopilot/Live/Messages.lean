import ProxmoxVEAutopilot.Foundation.Coroutines
import ProxmoxVEAutopilot.Live.Hub

/-!
# What a message comes to

Where sends succeed, a handler ends with an exception only over a frame that is no dict or
no subscription, and over snapshots or events that are not what the hub takes them for.
-/

namespace ProxmoxVEAutopilot.Live

open Foundation (Coroutine Json)
open Foundation.Coroutine (await catching forEach ofExcept state update Ends Sound)

set_option autoImplicit false

variable {τ : Type}

section Replies

/-- What the handlers of the hub come to. -/
structure Outcomes where
  snapshots : Finset String → Finset Int → Except String Json
  refresh : String → Except String Json
  qgaProbe : Int → Except String Json
  screenshot : Int → String → Except String Json

def Outcomes.allows (o : Outcomes) : Request τ → Except String Json → Prop
  | .send _ _, reply => ∃ value, reply = .ok value
  | .snapshots topics vmids, reply => reply = o.snapshots topics vmids
  | .patches _ _ _, _ => True
  | .refresh scope, reply => reply = o.refresh scope
  | .qgaProbe vmid, reply => reply = o.qgaProbe vmid
  | .screenshot vmid fmt, reply => reply = o.screenshot vmid fmt

def SendsSucceed (allowed : Request τ → Except String Json → Prop) : Prop :=
  ∀ client message reply, allowed (.send client message) reply → ∃ value, reply = .ok value

theorem Outcomes.sendsSucceed (o : Outcomes) : SendsSucceed (o.allows : Request τ → _) := fun _ _ _ h => h

/-- Python can look the topic up in a set, or does not try to. -/
def Hashable (topic : Json) : Prop :=
  topic.truthy = true → (∀ values, topic ≠ .arr values) ∧ ∀ fields, topic ≠ .obj fields

theorem hashable_str (s : String) : Hashable (.str s) := fun _ => ⟨fun _ => nofun, fun _ => nofun⟩

def SnapshotsFine (reply : Except String Json) : Prop :=
  ∃ value messages, reply = .ok value ∧ iterate value = .ok messages ∧ ∀ m ∈ messages, ∃ fields, m = .obj fields

def EventsFine (reply : Except String Json) : Prop :=
  ∀ value, reply = .ok value → ∃ messages, iterate value = .ok messages ∧
    ∀ m ∈ messages, ∃ fields, m = .obj fields ∧ Hashable (field fields "topic")

theorem skips_ok {topic : Json} (h : Hashable topic) (topics : Finset String) : ∃ b, skips topic topics = .ok b := by
  unfold skips
  split
  · rename_i hasked
    obtain ⟨harr, hobj⟩ := h (Bool.and_eq_true_iff.mp hasked).1
    cases topic with
    | arr values => exact absurd rfl (harr values)
    | obj fields => exact absurd rfl (hobj fields)
    | _ => exact ⟨_, rfl⟩
  · exact ⟨false, rfl⟩

theorem skips_error {topic : Json} (h : ¬ Hashable topic) {topics : Finset String} (hne : topics ≠ ∅) :
    ∃ e, skips topic topics = .error e := by
  unfold Hashable at h
  push Not at h
  obtain ⟨htruthy, hkind⟩ := h
  unfold skips
  rw [if_pos (by simp [htruthy, hne])]
  cases topic with
  | arr values => exact ⟨_, rfl⟩
  | obj fields => exact ⟨_, rfl⟩
  | _ =>
    obtain ⟨fields, hfields⟩ := hkind (fun values => nofun)
    cases hfields

theorem field_setDefault {message : Message} {key other : String} {value : Json} (hne : other ≠ key) :
    field (setDefault message key value) other = field message other := by
  unfold setDefault field
  split
  · rfl
  · rw [List.lookup_append]
    simp [List.lookup, beq_eq_false_iff_ne.mpr hne]

end Replies

section Sound
variable {allowed : Request τ → Except String Json → Prop}

/-- What a handler does to the hub while sends succeed: nobody is taken away, and only the
subscription of its own client changes. -/
structure Keeps (own : τ → Prop) (hub hub' : Hub τ) : Prop where
  clients : hub'.clients = hub.clients
  others : ∀ client, ¬ own client → hub'.topics client = hub.topics client ∧ hub'.vmids client = hub.vmids client

variable {own : τ → Prop}

theorem Keeps.refl (own : τ → Prop) (hub : Hub τ) : Keeps own hub hub := ⟨rfl, fun _ _ => ⟨rfl, rfl⟩⟩

theorem Keeps.trans {a b c : Hub τ} (hab : Keeps own a b) (hbc : Keeps own b c) : Keeps own a c :=
  ⟨hbc.clients.trans hab.clients, fun client hother =>
    ⟨(hbc.others client hother).1.trans (hab.others client hother).1,
      (hbc.others client hother).2.trans (hab.others client hother).2⟩⟩

/-- A handler that ends like this. -/
abbrev Tame {α : Type} (allowed : Request τ → Except String Json → Prop) (own : τ → Prop)
    (post : Except String α → Prop) (c : Handler τ α) : Prop := c.Sound allowed (Keeps own) post

theorem tame_send (hsends : SendsSucceed allowed) (client : τ) (message : Message) :
    Tame allowed own (· = .ok ()) (send client message) := by
  refine Sound.await_bind (fun _ _ => .pure rfl) fun e he => ?_
  obtain ⟨value, h⟩ := hsends client message _ he
  cases h

theorem tame_foundDead (hsends : SendsSucceed allowed) (message : Message) (client : τ) :
    Tame allowed own (fun x => x = .ok false ∨ ¬ Hashable (field message "topic") ∧ ∃ e, x = .error e)
      (foundDead message client) := by
  refine Sound.state_bind (Keeps.refl own) fun hub => Sound.ofExcept_bind (fun skipped _ => ?_) fun e he => ?_
  · cases skipped with
    | true => exact .pure (.inl rfl)
    | false =>
      have hsent : Tame allowed own (· = .ok false) (do send client message; pure false : Handler τ Bool) :=
        (tame_send hsends client message).bind (fun _ _ => .pure rfl) fun e he => by cases he
      exact hsent.catching (fun _ h => .inl h) fun e he => by cases he
  · refine .inr ⟨fun hhashable => ?_, e, rfl⟩
    obtain ⟨b, hb⟩ := skips_ok hhashable (hub.topics client)
    rw [hb] at he
    cases he

theorem tame_deadAmong (hsends : SendsSucceed allowed) (message : Message) (clients : List τ) :
    Tame allowed own (fun x => x = .ok [] ∨ ¬ Hashable (field message "topic") ∧ ∃ e, x = .error e)
      (deadAmong message clients) := by
  induction clients with
  | nil => exact .pure (.inl rfl)
  | cons client rest ih =>
    refine (tame_foundDead hsends message client).bind (fun dead hdead => ?_) fun e he => ?_
    · refine ih.bind (fun others hothers => .pure (.inl ?_)) fun e he => ?_
      · obtain rfl : dead = false := hdead.elim (fun h => by cases h; rfl) fun h => by obtain ⟨-, _, h⟩ := h; cases h
        exact hothers.elim id fun h => by obtain ⟨-, _, h⟩ := h; cases h
      · exact he.imp (fun h => by cases h) fun h => ⟨h.1, e, rfl⟩
    · exact he.imp (fun h => by cases h) fun h => ⟨h.1, e, rfl⟩

variable [DecidableEq τ] (py : Python τ)

theorem tame_broadcast (hsends : SendsSucceed allowed) (message : Message) :
    Tame allowed own (fun x => x = .ok () ∨ ¬ Hashable (field message "topic") ∧ ∃ e, x = .error e)
      (broadcast py message) := by
  refine Sound.state_bind (Keeps.refl own) fun hub => ?_
  refine (tame_deadAmong hsends message _).bind (fun dead hdead => ?_) fun e he => ?_
  · obtain rfl : dead = [] := hdead.elim (fun h => by cases h; rfl) fun h => by obtain ⟨-, _, h⟩ := h; cases h
    exact Sound.update_bind (Keeps.refl own) (.pure (.inl rfl))
  · exact he.imp (fun h => by cases h) fun h => ⟨h.1, e, rfl⟩

omit [DecidableEq τ]

theorem tame_nextVersion : Tame allowed own (fun x => ∃ version, x = .ok version) (nextVersion : Handler τ Json) := by
  refine Sound.update_bind (fun _ => ⟨rfl, fun _ _ => ⟨rfl, rfl⟩⟩) ?_
  exact Sound.state_bind (Keeps.refl own) fun _ => .pure ⟨_, rfl⟩

theorem tame_versioned (fields : Message) :
    Tame allowed own (fun x => ∃ version, x = .ok (setDefault fields "version" version))
      (versioned (.obj fields) : Handler τ Message) := by
  refine tame_nextVersion.bind (fun version _ => ?_) fun e he => by obtain ⟨_, h⟩ := he; cases h
  exact Sound.ofExcept_bind (fun message h => by cases h; exact .pure ⟨version, rfl⟩) fun e he => by cases he

theorem tame_utcNowIso : Tame allowed own (fun x => ∃ now, x = .ok now) (utcNowIso : Handler τ Json) :=
  Sound.state_bind (Keeps.refl own) fun _ => .pure ⟨_, rfl⟩

end Sound

section Handlers
variable {allowed : Request τ → Except String Json → Prop} {own : τ → Prop} (py : Python τ)

def Subscribes (message : Message) (topics : Finset String) (vmids : Finset Int) : Prop :=
  ∃ listedTopics listedVmids ids,
    iterate (orElse (field message "topics") (.arr [])) = .ok listedTopics ∧
    iterate (orElse (field message "vmids") (.arr [])) = .ok listedVmids ∧
    (listedVmids.filter fun v => py.isDigit (py.str v)).mapM py.int = .ok ids ∧
    topics = ((listedTopics.filter Json.truthy).map py.str).toFinset ∧ vmids = ids.toFinset

def scopeOf (message : Message) : String := py.str (orElse (field message "scope") (.str "fleet"))

/-- A frame that no handler raises over, and replies that it does not raise over. -/
def Handled (allowed : Request τ → Except String Json → Prop) (raw : String) : Prop :=
  py.loads raw = .decodeError ∨
  ∃ message, py.loads raw = .value (.obj message) ∧
    (field message "type" = .str "subscribe" → ∃ topics vmids, Subscribes py message topics vmids ∧
      ∀ reply, allowed (.snapshots topics vmids) reply → SnapshotsFine reply) ∧
    (field message "type" = .str "refresh" → ∀ reply, allowed (.refresh (scopeOf py message)) reply → EventsFine reply)

variable {py}

theorem tame_answered (hsends : SendsSucceed allowed) {c : Handler τ Unit} {client : τ} {answer : String → Message}
    (h : Tame allowed own (fun _ => True) c) :
    Tame allowed own (· = .ok ()) (catching c fun e => send client (answer e)) :=
  h.catching (fun _ _ => rfl) fun _ _ => tame_send hsends client _

theorem tame_qgaProbe (hsends : SendsSucceed allowed) (client : τ) (message : Message) :
    Tame allowed own (· = .ok ()) (qgaProbe py client message) := by
  refine tame_answered hsends (Sound.ofExcept_bind (fun vmid _ => ?_) fun _ _ => trivial)
  refine Sound.await_bind (fun result _ => ?_) fun _ _ => trivial
  refine tame_utcNowIso.bind (fun now _ => ?_) fun _ _ => trivial
  exact (tame_send hsends client _).mono fun _ _ => trivial

theorem tame_screenshot (hsends : SendsSucceed allowed) (client : τ) (message : Message) :
    Tame allowed own (· = .ok ()) (screenshot py client message) := by
  refine tame_answered hsends (Sound.ofExcept_bind (fun vmid _ => ?_) fun _ _ => trivial)
  refine Sound.await_bind (fun reply _ => Sound.ofExcept_bind (fun result _ => ?_) fun _ _ => trivial) fun _ _ => trivial
  exact (tame_send hsends client _).mono fun _ _ => trivial

variable [DecidableEq τ]

theorem tame_subscribe (hsends : SendsSucceed allowed) {client : τ} (hown : own client) {message : Message}
    {topics : Finset String} {vmids : Finset Int} (h : Subscribes py message topics vmids)
    (hfine : ∀ reply, allowed (.snapshots topics vmids) reply → SnapshotsFine reply) :
    Tame allowed own (· = .ok ()) (subscribe py client message) := by
  obtain ⟨listedTopics, listedVmids, ids, htopics, hvmids, hids, rfl, rfl⟩ := h
  have hne : ∀ {other : τ}, ¬ own other → other ≠ client := by
    rintro other hother rfl
    exact hother hown
  refine Sound.ofExcept_ok htopics (Sound.update_bind (fun hub => ?_) ?_)
  · exact ⟨rfl, fun other hother => ⟨Function.update_of_ne (hne hother) _ _, rfl⟩⟩
  refine Sound.ofExcept_ok hvmids (Sound.ofExcept_ok hids (Sound.update_bind (fun hub => ?_) ?_))
  · exact ⟨rfl, fun other hother => ⟨rfl, Function.update_of_ne (hne hother) _ _⟩⟩
  refine Sound.await_bind (fun reply hreply => ?_) fun e he => ?_
  · obtain ⟨value, snapshots, heq, hsnapshots, hdicts⟩ := hfine _ hreply
    cases heq
    refine Sound.ofExcept_ok hsnapshots (Sound.forEach rfl fun snapshot hsnapshot => ?_)
    obtain ⟨fields, rfl⟩ := hdicts snapshot hsnapshot
    refine (tame_versioned fields).bind (fun _ _ => tame_send hsends client _) fun e he => ?_
    obtain ⟨_, h⟩ := he
    cases h
  · obtain ⟨_, _, h, -, -⟩ := hfine _ he
    cases h

theorem tame_events (hsends : SendsSucceed allowed) {events : List Json}
    (h : ∀ m ∈ events, ∃ fields, m = .obj fields ∧ Hashable (field fields "topic")) :
    Tame allowed own (· = .ok ()) (forEach (fun event => do
      let message ← versioned event
      broadcast py message) events) := by
  refine Sound.forEach rfl fun event hevent => ?_
  obtain ⟨fields, rfl, hhashable⟩ := h event hevent
  refine (tame_versioned fields).bind (fun message hmessage => ?_) fun e he => by obtain ⟨_, h⟩ := he; cases h
  refine (tame_broadcast py hsends message).mono fun x hx => hx.resolve_right fun hraised => hraised.1 ?_
  obtain ⟨version, heq⟩ := hmessage
  cases heq
  rwa [field_setDefault (by decide)]

theorem tame_refresh (hsends : SendsSucceed allowed) (client : τ) {message : Message}
    (hfine : ∀ reply, allowed (.refresh (scopeOf py message)) reply → EventsFine reply) :
    Tame allowed own (· = .ok ()) (refresh py client message) := by
  refine tame_utcNowIso.bind (fun now _ => ?_) fun e he => by obtain ⟨_, h⟩ := he; cases h
  refine tame_nextVersion.bind (fun version _ => ?_) fun e he => by obtain ⟨_, h⟩ := he; cases h
  refine (tame_broadcast py hsends _).bind (fun _ _ => ?_) fun e he => ?_
  · have hreply : Tame allowed own (fun x => ∃ reply, x = .ok reply ∧
        ∀ events, reply = some events → allowed (.refresh (scopeOf py message)) (.ok events))
        (catching (do let events ← await (.refresh (scopeOf py message)); pure (some events)) fun detail => do
          send client [("type", .str "error"), ("correlation_id", field message "correlation_id"),
            ("error", .str "refresh_failed"), ("detail", .str detail)]
          pure none : Handler τ (Option Json)) := by
      have hawaited : Tame allowed own (fun x => ∀ reply, x = .ok reply →
          ∀ events, reply = some events → allowed (.refresh (scopeOf py message)) (.ok events))
          (do let events ← await (.refresh (scopeOf py message)); pure (some events) : Handler τ (Option Json)) := by
        refine Sound.await_bind (fun events hevents => .pure ?_) fun e _ _ h => by cases h
        intro reply hreply found hfound
        cases hreply
        cases hfound
        exact hevents
      refine hawaited.catching (fun reply h => ⟨reply, rfl, h reply rfl⟩) fun e _ => ?_
      refine (tame_send hsends client _).bind (fun _ _ => .pure ⟨none, rfl, fun events h => by cases h⟩) ?_
      exact fun e he => by cases he
    refine hreply.bind (fun reply hreply => ?_) fun e he => by obtain ⟨_, h, -⟩ := he; cases h
    obtain ⟨_, heq, hallowed⟩ := hreply
    cases heq
    cases reply with
    | none => exact .pure rfl
    | some events =>
      obtain ⟨listed, hlisted, hevents⟩ := hfine _ (hallowed events rfl) events rfl
      exact Sound.ofExcept_ok hlisted (tame_events hsends hevents)
  · exact he.elim (fun h => by cases h) fun hraised => absurd (hashable_str _) hraised.1

variable (own) in
theorem tame_handleMessage (hsends : SendsSucceed allowed) {client : τ} (hown : own client) {raw : String}
    (h : Handled py allowed raw) : Tame allowed own (· = .ok ()) (handleMessage py client raw) := by
  unfold handleMessage
  rcases h with hdecode | ⟨message, hloads, hsubscribe, hrefresh⟩
  · rw [hdecode]
    exact tame_send hsends client _
  · rw [hloads]
    refine Sound.ofExcept_ok rfl ?_
    dsimp only
    split
    · rename_i htype
      obtain ⟨topics, vmids, hsubscribes, hfine⟩ := hsubscribe htype
      exact tame_subscribe hsends hown hsubscribes hfine
    split
    · rename_i htype
      exact tame_refresh hsends client (hrefresh htype)
    split
    · exact tame_qgaProbe hsends client message
    split
    · exact tame_screenshot hsends client message
    · exact tame_send hsends client _

end Handlers

section Collector
variable {allowed : Request τ → Except String Json → Prop} {own : τ → Prop} [DecidableEq τ] (py : Python τ)

theorem tame_anyBroadcast (hsends : SendsSucceed allowed) (message : Message) :
    Tame allowed own (fun _ => True) (broadcast py message) :=
  (tame_broadcast py hsends message).mono fun _ _ => trivial

omit [DecidableEq τ] in
theorem tame_anyVersioned (message : Json) : Tame allowed own (fun _ => True) (versioned message : Handler τ Message) :=
  tame_nextVersion.bind (fun _ _ => Sound.ofExcept_bind (fun _ _ => .pure trivial) fun _ _ => trivial) fun _ _ => trivial

theorem tame_patchClients (hsends : SendsSucceed allowed) (topics : Finset String) (vmids : Finset Int)
    (includeQga : Bool) : Tame allowed own (fun _ => True) (patchClients py topics vmids includeQga) := by
  unfold patchClients
  split
  · exact .pure trivial
  · refine Sound.catching (?_ : Tame allowed own (fun _ => True) _) (fun _ _ => trivial) fun e _ => ?_
    · refine Sound.await_bind (fun reply _ => Sound.ofExcept_bind (fun messages _ => ?_) fun _ _ => trivial)
        fun _ _ => trivial
      refine Sound.forEach trivial fun message _ => (tame_anyVersioned message).bind (fun _ _ => ?_) fun _ _ => trivial
      exact tame_anyBroadcast py hsends _
    · exact tame_utcNowIso.bind (fun _ _ => tame_anyBroadcast py hsends _) fun _ _ => trivial

theorem tame_collectorTurn (hsends : SendsSucceed allowed) (qgaIntervalSeconds : Option Rat) :
    Tame allowed own (fun _ => True) (collectorTurn py qgaIntervalSeconds) := by
  refine Sound.state_bind (Keeps.refl own) fun hub => Sound.update_bind (fun hub => ?_) ?_
  · unfold Hub.markQga
    split
    · exact ⟨rfl, fun _ _ => ⟨rfl, rfl⟩⟩
    · exact Keeps.refl own hub
  · refine (tame_patchClients py hsends _ _ _).bind (fun _ _ => ?_) fun _ _ => trivial
    refine tame_nextVersion.bind (fun _ _ => ?_) fun _ _ => trivial
    exact tame_utcNowIso.bind (fun _ _ => tame_anyBroadcast py hsends _) fun _ _ => trivial

end Collector

end ProxmoxVEAutopilot.Live
