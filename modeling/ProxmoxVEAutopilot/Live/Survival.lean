import ProxmoxVEAutopilot.Foundation.Runs
import ProxmoxVEAutopilot.Live.Messages

/-!
# Connections that survive

A message is handled in every state of the hub exactly where neither its frame nor what its
handler comes to makes the hub raise. Over whole runs of the loop such messages keep every
connection and its subscription until its client is gone.
-/

namespace ProxmoxVEAutopilot.Live

open Foundation (Coroutine Json Replays replays_append)
open Foundation.Coroutine (await catching forEach ofExcept state update Ends Sound ends_bind thenEnds)

set_option autoImplicit false

variable {τ : Type}

section Answered
variable (py : Python τ) (raw : String)

/-- A request whose fields are what the hub converts them to. -/
def WellFormed : Prop :=
  ∃ message, py.loads raw = .value (.obj message) ∧
    (field message "type" = .str "subscribe" ∧ (∃ topics vmids, Subscribes py message topics vmids) ∨
      field message "type" = .str "refresh" ∨
      (field message "type" = .str "qga_probe" ∨ field message "type" = .str "screenshot.request") ∧
        ∃ vmid, py.int (field message "vmid") = .ok vmid)

def AnswersError (client : τ) (asked : List (Request τ)) : Prop :=
  ∃ message, .send client message ∈ asked ∧ field message "type" = .str "error"

variable {py raw} {o : Outcomes} {post : Except String Unit → Hub τ → List (Request τ) → Prop}
variable {client : τ} {message : Message} {hub : Hub τ} {asked : List (Request τ)}

theorem ends_send :
    Ends o.allows post (send client message) hub asked ↔ ∀ hub', post (.ok ()) hub' (asked ++ [.send client message]) := by
  constructor
  · intro h hub'
    exact h (.ok .null) ⟨.null, rfl⟩ hub'
  · rintro h reply ⟨value, rfl⟩ hub'
    exact h hub'

theorem answersError_send (hub : Hub τ) (fields : Message) :
    Ends o.allows (fun _ _ asked => AnswersError client asked)
      (send client (("type", .str "error") :: fields)) hub [] :=
  ends_send.mpr fun _ => ⟨_, List.mem_cons_self, rfl⟩

theorem answersError_catching {c : Handler τ Unit} {fields : String → Message} {e : String}
    (hraised : c = .raised e) :
    Ends o.allows (fun _ _ asked => AnswersError client asked)
      (catching c fun e => send client (("type", .str "error") :: fields e)) hub [] := by
  rw [hraised]
  exact answersError_send hub _

variable [DecidableEq τ]

theorem ends_answersError (h : Handled py o.allows raw) (hmalformed : ¬ WellFormed py raw) (hub : Hub τ) :
    Ends o.allows (fun _ _ asked => AnswersError client asked) (handleMessage py client raw) hub [] := by
  have hraised : ∀ {message : Message} {k : Int → Handler τ Unit},
      (∀ vmid, py.int (field message "vmid") ≠ .ok vmid) →
        ∃ e, (ofExcept (py.int (field message "vmid")) >>= k) = (.raised e : Handler τ Unit) := by
    intro message k hnone
    cases hint : py.int (field message "vmid") with
    | ok vmid => exact absurd hint (hnone vmid)
    | error e => exact ⟨e, rfl⟩
  unfold handleMessage
  rcases h with hdecode | ⟨message, hloads, hsubscribe, -⟩
  · rw [hdecode]
    exact answersError_send hub _
  · rw [hloads]
    change Ends o.allows _ (if _ then _ else _) hub []
    split
    · rename_i htype
      obtain ⟨topics, vmids, hsubscribes, -⟩ := hsubscribe htype
      exact absurd ⟨message, hloads, .inl ⟨htype, topics, vmids, hsubscribes⟩⟩ hmalformed
    split
    · rename_i htype
      exact absurd ⟨message, hloads, .inr (.inl htype)⟩ hmalformed
    split
    · rename_i htype
      obtain ⟨e, he⟩ := hraised fun vmid hvmid =>
        hmalformed ⟨message, hloads, .inr (.inr ⟨.inl htype, vmid, hvmid⟩)⟩
      exact answersError_catching he
    split
    · rename_i htype
      obtain ⟨e, he⟩ := hraised fun vmid hvmid =>
        hmalformed ⟨message, hloads, .inr (.inr ⟨.inr htype, vmid, hvmid⟩)⟩
      exact answersError_catching he
    · exact answersError_send hub _

end Answered

section Exact
variable [DecidableEq τ] {py : Python τ} {o : Outcomes} {client : τ} {message : Message} {hub : Hub τ}
variable {asked : List (Request τ)} {post : Except String Unit → Hub τ → List (Request τ) → Prop}

theorem ends_broadcast_none (hlisted : ∀ clients, (py.listed clients).Perm clients) (hnone : hub.clients = [])
    (h : Ends o.allows post (broadcast py message) hub asked) : post (.ok ()) hub asked := by
  have hempty : py.listed hub.clients = [] := by
    rw [hnone]
    exact List.perm_nil.mp (hlisted [])
  change Ends o.allows post (deadAmong message (py.listed hub.clients) >>= _) hub asked at h
  rw [hempty] at h
  exact h

/-- One client, with a subscription. -/
structure Alone (client : τ) (hub : Hub τ) : Prop where
  clients : hub.clients = [client]
  topics : hub.topics client ≠ ∅

theorem hashable_of_ends_broadcast (hlisted : ∀ clients, (py.listed clients).Perm clients) (halone : Alone client hub)
    (h : Ends o.allows post (broadcast py message) hub asked) (hpost : ∀ e hub asked, ¬ post (.error e) hub asked) :
    Hashable (field message "topic") ∧ ∃ asked, post (.ok ()) hub asked := by
  have hone : py.listed hub.clients = [client] := by
    rw [halone.clients]
    exact List.perm_singleton.mp (hlisted [client])
  change Ends o.allows post (deadAmong message (py.listed hub.clients) >>= _) hub asked at h
  rw [hone] at h
  by_cases hhashable : Hashable (field message "topic")
  · refine ⟨hhashable, ?_⟩
    obtain ⟨skipped, hskips⟩ := skips_ok hhashable (hub.topics client)
    unfold deadAmong foundDead at h
    change Ends o.allows post (((ofExcept (skips (field message "topic") (hub.topics client)) >>= _) >>= _) >>= _)
      hub asked at h
    rw [hskips] at h
    cases skipped with
    | true => exact ⟨asked, h⟩
    | false =>
      have hsent : post (.ok ()) hub (asked ++ [.send client message]) := h (.ok .null) ⟨.null, rfl⟩ hub
      exact ⟨_, hsent⟩
  · obtain ⟨e, hskips⟩ := skips_error hhashable halone.topics
    unfold deadAmong foundDead at h
    change Ends o.allows post (((ofExcept (skips (field message "topic") (hub.topics client)) >>= _) >>= _) >>= _)
      hub asked at h
    rw [hskips] at h
    exact absurd h (hpost e hub asked)

omit [DecidableEq τ] in
theorem not_thenEnds_error {k : Unit → Handler τ Unit} (e : String) (hub : Hub τ) (asked : List (Request τ)) :
    ¬ thenEnds o.allows (fun x _ _ => x = .ok ()) k (.error e) hub asked := nofun

omit [DecidableEq τ] in
theorem dict_of_ends_versioned {m : Json} {k : Message → Handler τ Unit}
    (h : Ends o.allows post (versioned m >>= k) hub asked) (hpost : ∀ e hub asked, ¬ post (.error e) hub asked) :
    ∃ fields, m = .obj fields ∧ Ends o.allows post (k (setDefault fields "version" (.int (hub.version + 1))))
      { hub with version := hub.version + 1 } asked := by
  cases m with
  | obj fields => exact ⟨fields, rfl, h⟩
  | _ => exact absurd h (hpost _ _ _)

theorem events_of_ends (hlisted : ∀ clients, (py.listed clients).Perm clients) {events : List Json} :
    ∀ {hub : Hub τ} {asked : List (Request τ)}, Alone client hub →
      Ends o.allows (fun x _ _ => x = .ok ()) (forEach (fun event => do
        let message ← versioned event
        broadcast py message) events) hub asked →
      ∀ m ∈ events, ∃ fields, m = .obj fields ∧ Hashable (field fields "topic") := by
  induction events with
  | nil => exact fun _ _ m hm => by cases hm
  | cons event events ih =>
    intro hub asked halone h
    change Ends o.allows _ ((versioned event >>= fun message => broadcast py message) >>= fun _ => forEach _ events)
      hub asked at h
    rw [ends_bind] at h
    obtain ⟨fields, rfl, hbroadcast⟩ := dict_of_ends_versioned h not_thenEnds_error
    have hstill : Alone client { hub with version := hub.version + 1 } := ⟨halone.clients, halone.topics⟩
    obtain ⟨hhashable, asked', hrest⟩ := hashable_of_ends_broadcast hlisted hstill hbroadcast not_thenEnds_error
    rw [field_setDefault (by decide)] at hhashable
    intro m hm
    rcases List.mem_cons.mp hm with rfl | hm
    · exact ⟨fields, rfl, hhashable⟩
    · exact ih hstill hrest m hm

omit [DecidableEq τ] in
theorem snapshots_of_ends {snapshots : List Json} :
    ∀ {hub : Hub τ} {asked : List (Request τ)},
      Ends o.allows (fun x _ _ => x = .ok ()) (forEach (fun snapshot => do
        let message ← versioned snapshot
        send client message) snapshots) hub asked →
      ∀ m ∈ snapshots, ∃ fields, m = .obj fields := by
  induction snapshots with
  | nil => exact fun _ m hm => by cases hm
  | cons snapshot snapshots ih =>
    intro hub asked h
    change Ends o.allows _ ((versioned snapshot >>= fun message => send client message) >>= fun _ => forEach _ snapshots)
      hub asked at h
    rw [ends_bind] at h
    obtain ⟨fields, rfl, hsend⟩ := dict_of_ends_versioned h not_thenEnds_error
    intro m hm
    rcases List.mem_cons.mp hm with rfl | hm
    · exact ⟨fields, rfl⟩
    · exact ih (ends_send.mp hsend hub) m hm

omit [DecidableEq τ] in
theorem ok_of_ends {α : Type} {x : Except String α} {k : α → Handler τ Unit}
    (h : Ends o.allows (fun x _ _ => x = .ok ()) (ofExcept x >>= k) hub asked) :
    ∃ a, x = .ok a ∧ Ends o.allows (fun x _ _ => x = .ok ()) (k a) hub asked := by
  cases x with
  | ok a => exact ⟨a, rfl, h⟩
  | error e => cases h

theorem subscribes_of_ends (h : Ends o.allows (fun x _ _ => x = .ok ()) (subscribe py client message) hub asked) :
    ∃ topics vmids, Subscribes py message topics vmids ∧ SnapshotsFine (o.snapshots topics vmids) := by
  obtain ⟨listedTopics, htopics, h⟩ := ok_of_ends h
  obtain ⟨listedVmids, hvmids, h⟩ := ok_of_ends h
  obtain ⟨ids, hids, h⟩ := ok_of_ends h
  refine ⟨_, _, ⟨listedTopics, listedVmids, ids, htopics, hvmids, hids, rfl, rfl⟩, ?_⟩
  obtain ⟨value, hvalue, h⟩ := ok_of_ends (h _ rfl {})
  obtain ⟨snapshots, hsnapshots, h⟩ := ok_of_ends h
  exact ⟨value, snapshots, hvalue, hsnapshots, snapshots_of_ends h⟩

theorem eventsFine_of_ends (hlisted : ∀ clients, (py.listed clients).Perm clients)
    (h : Ends o.allows (fun x _ _ => x = .ok ()) (refresh py client message) {} []) :
    EventsFine (o.refresh (scopeOf py message)) := by
  change Ends o.allows _ (broadcast py _ >>= _) { ({} : Hub τ) with version := 1 } [] at h
  rw [ends_bind] at h
  have hawait := ends_broadcast_none hlisted rfl h
  intro value hvalue
  have hreply := hawait (.ok value) hvalue.symm
    { clients := [client], topics := fun _ => {""} }
  obtain ⟨events, hevents, hrest⟩ := ok_of_ends hreply
  exact ⟨events, hevents, events_of_ends hlisted ⟨rfl, Finset.singleton_ne_empty _⟩ hrest⟩

theorem handled_of_ends (hlisted : ∀ clients, (py.listed clients).Perm clients) {raw : String}
    (h : Ends o.allows (fun x _ _ => x = .ok ()) (handleMessage py client raw) {} []) : Handled py o.allows raw := by
  unfold handleMessage at h
  cases hloads : py.loads raw with
  | decodeError => exact .inl hloads
  | raised e =>
    rw [hloads] at h
    cases h
  | value value =>
    rw [hloads] at h
    obtain ⟨message, hdict, h⟩ := ok_of_ends h
    refine .inr ⟨message, ?_, fun htype => ?_, fun htype => ?_⟩
    · cases value with
      | obj fields =>
        cases hdict
        exact hloads
      | _ => cases hdict
    · dsimp only at h
      rw [if_pos htype] at h
      obtain ⟨topics, vmids, hsubscribes, hfine⟩ := subscribes_of_ends h
      refine ⟨topics, vmids, hsubscribes, ?_⟩
      rintro _ rfl
      exact hfine
    · dsimp only at h
      rw [if_neg (by rw [htype]; decide), if_pos htype] at h
      rintro _ rfl
      exact eventsFine_of_ends hlisted h

theorem handled_iff (hlisted : ∀ clients, (py.listed clients).Perm clients) (raw : String) :
    (∀ hub, Ends o.allows (fun x _ asked => x = .ok () ∧ (¬ WellFormed py raw → AnswersError client asked))
      (handleMessage py client raw) hub []) ↔ Handled py o.allows raw := by
  constructor
  · intro h
    exact handled_of_ends hlisted ((h {}).mono fun _ _ _ hx => hx.1)
  · intro h hub
    have hreturns := @Sound.ends _ _ _ _ _ _ _ _ _
      (tame_handleMessage (· = client) o.sendsSucceed rfl h) hub []
    by_cases hwell : WellFormed py raw
    · exact hreturns.mono fun x _ _ hx => ⟨hx, fun hnot => absurd hwell hnot⟩
    · exact (hreturns.and (ends_answersError h hwell hub)).mono fun x _ _ hx => ⟨hx.1, fun _ => hx.2⟩

end Exact

section Connections

/-- Sends succeed, and the handlers come to what the hub takes their replies for. -/
def fine : Request τ → Except String Json → Prop
  | .send _ _, reply => ∃ value, reply = .ok value
  | .snapshots _ _, reply => SnapshotsFine reply
  | .refresh _, reply => EventsFine reply
  | _, _ => True

theorem fine_sends : SendsSucceed (fine : Request τ → _) := fun _ _ _ h => h

def Connection.listening : Connection τ → Prop
  | .receiving | .handling _ => True
  | _ => False

def Connection.present : Connection τ → Prop
  | .greeting _ | .ensuring | .receiving | .handling _ => True
  | _ => False

theorem Connection.listening.present {c : Connection τ} (h : c.listening) : c.present := by
  cases c <;> first | exact h | trivial

def Event.client : Event τ → Option τ
  | .connect client | .accepted client _ | .ensure client | .received client _ | .replied client _ => some client
  | _ => none

def World.Meets (py : Python τ) (w : World τ) : Event τ → Prop
  | .received client reply => ∀ raw, reply = .ok raw → w.connection client = .receiving → Handled py fine raw
  | .replied client reply => ∀ r next,
      (w.connection client = .greeting (.awaiting r next) ∨ w.connection client = .handling (.awaiting r next)) →
        fine r reply
  | .collected task reply => ∀ r next, w.collectors[task]? = some (.working (.awaiting r next)) → fine r reply
  | _ => True

/-- A connection is closed by its client, and in between it has the subscription that its client
gave it. -/
def World.Survives (w : World τ) (e : Event τ) (w' : World τ) : Prop :=
  ∀ client, (w.connection client).listening → (∀ error, e ≠ .received client (.error error)) →
    (w'.connection client).listening ∧ client ∈ w'.hub.clients ∧
      (e.client ≠ some client →
        w'.hub.topics client = w.hub.topics client ∧ w'.hub.vmids client = w.hub.vmids client)

abbrev TameConnection (client : τ) : Connection τ → Prop
  | .greeting c => Tame fine (fun _ => False) (· = .ok ()) c
  | .handling c => Tame fine (· = client) (· = .ok ()) c
  | _ => True

abbrev TameCollector : Collector τ → Prop
  | .working c => Tame fine (fun _ => False) (fun _ => True) c
  | _ => True

structure World.Settled (w : World τ) : Prop where
  connections : ∀ client, TameConnection client (w.connection client)
  collectors : ∀ c ∈ w.collectors, TameCollector c
  listed : ∀ client, (w.connection client).present → client ∈ w.hub.clients

/-- What an event does: to the hub and the collectors, or to a connection as well. -/
structure World.MovesTo (w : World τ) (e : Event τ) (w' : World τ) : Prop where
  collectors : ∀ c ∈ w'.collectors, TameCollector c
  others : ∀ client, e.client ≠ some client → w'.connection client = w.connection client ∧
    w'.hub.topics client = w.hub.topics client ∧ w'.hub.vmids client = w.hub.vmids client ∧
    (client ∈ w.hub.clients → client ∈ w'.hub.clients)
  self : ∀ client, e.client = some client → TameConnection client (w'.connection client) ∧
    ((w'.connection client).present → client ∈ w'.hub.clients) ∧
    ((w.connection client).listening → (w'.connection client).listening ∨ ∃ error, e = .received client (.error error))

namespace World.MovesTo
variable {w w' : World τ} {e : Event τ}

theorem settled (h : w.MovesTo e w') (hw : w.Settled) : w'.Settled := by
  refine ⟨fun client => ?_, h.collectors, fun client hpresent => ?_⟩
  · by_cases hself : e.client = some client
    · exact (h.self client hself).1
    · rw [(h.others client hself).1]
      exact hw.connections client
  · by_cases hself : e.client = some client
    · exact (h.self client hself).2.1 hpresent
    · obtain ⟨hsame, -, -, hmem⟩ := h.others client hself
      rw [hsame] at hpresent
      exact hmem (hw.listed client hpresent)

theorem survives (h : w.MovesTo e w') (hw : w.Settled) : w.Survives e w' := by
  intro client hlistening hopen
  by_cases hself : e.client = some client
  · obtain ⟨-, hpresent, hstays⟩ := h.self client hself
    have hstill : (w'.connection client).listening := (hstays hlistening).resolve_right fun ⟨error, he⟩ => hopen error he
    exact ⟨hstill, hpresent hstill.present, fun hne => absurd hself hne⟩
  · obtain ⟨hsame, htopics, hvmids, hmem⟩ := h.others client hself
    refine ⟨?_, hmem (hw.listed client hlistening.present), fun _ => ⟨htopics, hvmids⟩⟩
    rw [hsame]
    exact hlistening

end World.MovesTo

section Moves
variable {w : World τ} {e : Event τ} {client : τ}

theorem Keeps.to {own : τ → Prop} {hub hub' : Hub τ} (h : Keeps own hub hub') {other : τ} (hother : ¬ own other) :
    hub'.topics other = hub.topics other ∧ hub'.vmids other = hub.vmids other ∧
      (other ∈ hub.clients → other ∈ hub'.clients) :=
  ⟨(h.others other hother).1, (h.others other hother).2, fun hmem => h.clients ▸ hmem⟩

theorem movesTo_hub (hw : w.Settled) {hub' : Hub τ} {collectors' : List (Collector τ)}
    (hkeeps : Keeps (fun _ => False) w.hub hub') (hcollectors : ∀ c ∈ collectors', TameCollector c) :
    w.MovesTo e { w with hub := hub', collectors := collectors' } :=
  ⟨hcollectors, fun _ _ => ⟨rfl, hkeeps.to id⟩, fun client _ => ⟨hw.connections client,
    fun hpresent => hkeeps.clients ▸ hw.listed client hpresent, .inl⟩⟩

theorem tame_set (hw : w.Settled) (task : Nat) {c : Collector τ} (hc : TameCollector c) :
    ∀ c' ∈ w.collectors.set task c, TameCollector c' := by
  intro c' hc'
  rcases List.mem_or_eq_of_mem_set hc' with hold | rfl
  · exact hw.collectors c' hold
  · exact hc

theorem movesTo_collect (hw : w.Settled) (task : Nat) {c : Handler τ Unit}
    (hc : Tame fine (fun _ => False) (fun _ => True) c) : w.MovesTo e (w.collect task c) := by
  obtain ⟨hkeeps, hrest⟩ := hc.advance (Keeps.refl _) Keeps.trans w.hub
  have hset : ∀ collector : Collector τ, TameCollector collector →
      w.MovesTo e (({ w with hub := (c.advance w.hub).1 } : World τ).setCollector task collector) :=
    fun collector hcollector => movesTo_hub hw hkeeps (tame_set hw task hcollector)
  unfold World.collect
  dsimp only
  cases hadvance : (c.advance w.hub).2 with
  | returned a =>
    dsimp only
    unfold World.loopHead
    exact hset _ (by split <;> trivial)
  | raised error => exact hset .finished trivial
  | updating f next =>
    rw [hadvance] at hrest
    exact hset (.working _) hrest
  | awaiting r next =>
    rw [hadvance] at hrest
    exact hset (.working _) hrest

theorem tame_hello {own : τ → Prop} (client : τ) : Tame fine own (· = .ok ()) (hello client) :=
  tame_utcNowIso.bind (fun _ _ => tame_send fine_sends client _) fun e he => by obtain ⟨_, h⟩ := he; cases h

theorem movesTo_same (hw : w.Settled) : w.MovesTo e w := movesTo_hub hw (Keeps.refl _ _) hw.collectors

variable [DecidableEq τ]

theorem movesTo_place (he : e.client = some client) {hub' : Hub τ} {collectors' : List (Collector τ)}
    {conn : Connection τ} (hcollectors : ∀ c ∈ collectors', TameCollector c)
    (hothers : ∀ other, other ≠ client → hub'.topics other = w.hub.topics other ∧ hub'.vmids other = w.hub.vmids other ∧
      (other ∈ w.hub.clients → other ∈ hub'.clients))
    (htame : TameConnection client conn) (hpresent : conn.present → client ∈ hub'.clients)
    (hstays : (w.connection client).listening → conn.listening ∨ ∃ error, e = .received client (.error error)) :
    w.MovesTo e (({ w with hub := hub', collectors := collectors' } : World τ).place client conn) := by
  refine ⟨hcollectors, fun other hother => ?_, fun self hself => ?_⟩
  · have hne : other ≠ client := fun heq => hother (heq ▸ he)
    exact ⟨Function.update_of_ne hne _ _, hothers other hne⟩
  · obtain rfl : self = client := Option.some.inj (hself.symm.trans he)
    unfold World.place
    simp only [Function.update_self]
    exact ⟨htame, hpresent, hstays⟩

theorem movesTo_handle (hw : w.Settled) (he : e.client = some client) (hlistening : (w.connection client).listening)
    {c : Handler τ Unit} (hc : Tame fine (· = client) (· = .ok ()) c) : w.MovesTo e (w.handle client c) := by
  obtain ⟨hkeeps, hrest⟩ := hc.advance (Keeps.refl _) Keeps.trans w.hub
  have hmem : client ∈ (c.advance w.hub).1.clients := hkeeps.clients ▸ hw.listed client hlistening.present
  have hplace : ∀ conn : Connection τ, TameConnection client conn → conn.listening →
      w.MovesTo e (({ w with hub := (c.advance w.hub).1 } : World τ).place client conn) :=
    fun conn htame hconn => movesTo_place he hw.collectors (fun other hother => hkeeps.to hother) htame
      (fun _ => hmem) fun _ => .inl hconn
  unfold World.handle
  dsimp only
  cases hadvance : (c.advance w.hub).2 with
  | returned a => exact hplace .receiving trivial trivial
  | raised error =>
    rw [hadvance] at hrest
    cases hrest
  | updating f next =>
    rw [hadvance] at hrest
    exact hplace (.handling _) hrest trivial
  | awaiting r next =>
    rw [hadvance] at hrest
    exact hplace (.handling _) hrest trivial

theorem movesTo_greet (hw : w.Settled) (he : e.client = some client) (hnot : ¬ (w.connection client).listening)
    (hub : Hub τ) (hmem : client ∈ hub.clients)
    (hothers : ∀ other, other ≠ client → hub.topics other = w.hub.topics other ∧ hub.vmids other = w.hub.vmids other ∧
      (other ∈ w.hub.clients → other ∈ hub.clients))
    {c : Handler τ Unit} (hc : Tame fine (fun _ => False) (· = .ok ()) c) :
    w.MovesTo e (({ w with hub := hub } : World τ).greet client c) := by
  obtain ⟨hkeeps, hrest⟩ := hc.advance (Keeps.refl _) Keeps.trans hub
  have hplace : ∀ conn : Connection τ, TameConnection client conn →
      w.MovesTo e (({ w with hub := (c.advance hub).1 } : World τ).place client conn) := by
    intro conn htame
    refine movesTo_place he hw.collectors (fun other hother => ?_) htame (fun _ => hkeeps.clients ▸ hmem)
      fun hlistening => absurd hlistening hnot
    obtain ⟨htopics, hvmids, hkept⟩ := hothers other hother
    obtain ⟨htopics', hvmids', hkept'⟩ := hkeeps.to id
    exact ⟨htopics'.trans htopics, hvmids'.trans hvmids, fun h => hkept' (hkept h)⟩
  unfold World.greet
  dsimp only
  cases hadvance : (c.advance hub).2 with
  | returned a => exact hplace .ensuring trivial
  | raised error =>
    rw [hadvance] at hrest
    cases hrest
  | updating f next =>
    rw [hadvance] at hrest
    exact hplace (.greeting _) hrest
  | awaiting r next =>
    rw [hadvance] at hrest
    exact hplace (.greeting _) hrest

theorem exec_movesTo {py : Python τ} {qgaIntervalSeconds : Option Rat} (hw : w.Settled) (hmeets : w.Meets py e) :
    w.MovesTo e (w.exec py qgaIntervalSeconds e) := by
  have hsame : w.MovesTo e w := movesTo_same hw
  have hothers : ∀ client other, other ≠ client → w.hub.topics other = w.hub.topics other ∧
      w.hub.vmids other = w.hub.vmids other ∧ (other ∈ w.hub.clients → other ∈ w.hub.clients) :=
    fun _ _ _ => ⟨rfl, rfl, id⟩
  cases e with
  | connect client =>
    unfold World.exec
    dsimp only
    split
    · rename_i hidle
      refine movesTo_place rfl hw.collectors (hothers client) trivial (fun h => h.elim) fun h => ?_
      rw [hidle] at h
      exact h.elim
    · exact hsame
  | accepted client reply =>
    unfold World.exec
    dsimp only
    split
    · rename_i haccepting
      have hclients : ∀ other, other ≠ client → other ∈ w.hub.clients → other ∈ client :: w.hub.clients :=
        fun _ _ => List.mem_cons_of_mem _
      refine movesTo_greet hw rfl (fun h => ?_) { w.hub with clients := client :: w.hub.clients } List.mem_cons_self
        (fun other hother => ⟨rfl, rfl, hclients other hother⟩) (tame_hello client)
      rw [haccepting] at h
      exact h
    · rename_i haccepting
      refine movesTo_place rfl hw.collectors (hothers client) trivial (fun h => h.elim) fun h => ?_
      rw [haccepting] at h
      exact h.elim
    · exact hsame
  | ensure client =>
    unfold World.exec
    dsimp only
    split
    · rename_i hensuring
      have hmem : client ∈ w.hub.clients := by
        refine hw.listed client ?_
        rw [hensuring]
        trivial
      unfold World.ensureCollector
      split
      · refine movesTo_place rfl ?_ (hothers client) trivial (fun _ => hmem) fun _ => .inl trivial
        intro c hc
        rcases List.mem_append.mp hc with hc | hc
        · exact hw.collectors c hc
        · rw [List.mem_singleton.mp hc]
          trivial
      · exact movesTo_place rfl hw.collectors (hothers client) trivial (fun _ => hmem) fun _ => .inl trivial
    · exact hsame
  | received client reply =>
    unfold World.exec
    dsimp only
    split
    · rename_i raw hreceiving
      have htame : Tame fine (· = client) (· = .ok ()) (handleMessage py client raw) :=
        tame_handleMessage (· = client) fine_sends rfl (hmeets raw rfl hreceiving)
      refine movesTo_handle hw rfl ?_ htame
      rw [hreceiving]
      trivial
    · rename_i error hreceiving
      refine movesTo_place rfl hw.collectors (fun other hother => ⟨rfl, rfl, fun hmem => ?_⟩) trivial
        (fun h => h.elim) fun _ => .inr ⟨error, rfl⟩
      exact List.mem_filter.mpr ⟨hmem, decide_eq_true hother⟩
    · exact hsame
  | replied client reply =>
    have hconnection := hw.connections client
    unfold World.exec
    dsimp only
    split
    · rename_i r next hgreeting
      rw [hgreeting] at hconnection
      refine movesTo_greet hw rfl (fun h => ?_) w.hub (hw.listed client ?_) (hothers client)
        (hconnection reply (hmeets r next (.inl hgreeting)))
      · rw [hgreeting] at h
        exact h
      · rw [hgreeting]
        trivial
    · rename_i r next hhandling
      rw [hhandling] at hconnection
      refine movesTo_handle hw rfl ?_ (hconnection reply (hmeets r next (.inr hhandling)))
      rw [hhandling]
      trivial
    · exact hsame
  | started task =>
    unfold World.exec World.loopHead
    dsimp only
    split
    · exact movesTo_hub hw (Keeps.refl _ _) (tame_set hw task (by split <;> trivial))
    · exact hsame
  | woken task =>
    unfold World.exec
    dsimp only
    split
    · split
      · exact movesTo_hub hw (Keeps.refl _ _) (tame_set hw task trivial)
      · exact movesTo_collect hw task (tame_collectorTurn py fine_sends qgaIntervalSeconds)
    · exact hsame
  | collected task reply =>
    unfold World.exec
    dsimp only
    split
    · rename_i r next hworking
      exact movesTo_collect hw task
        (hw.collectors _ (List.mem_of_getElem? hworking) reply (hmeets r next hworking))
    · exact hsame
  | tick clocks => exact movesTo_hub hw ⟨rfl, fun _ _ => ⟨rfl, rfl⟩⟩ hw.collectors

end Moves

section Runs
variable [DecidableEq τ] {py : Python τ} {qgaIntervalSeconds : Option Rat}

omit [DecidableEq τ] in
theorem settled_start : ({} : World τ).Settled where
  connections := fun _ => trivial
  collectors := nofun
  listed := fun _ h => h.elim

theorem settled_run (events : List (Event τ)) : ∀ {w : World τ}, w.Settled →
    Replays (World.Meets py) (fun w e => w.exec py qgaIntervalSeconds e) w events →
      (events.foldl (fun w e => w.exec py qgaIntervalSeconds e) w).Settled := by
  induction events with
  | nil => exact fun hw _ => hw
  | cons e events ih => exact fun hw hmeets => ih ((exec_movesTo hw hmeets.1).settled hw) hmeets.2

theorem survives_run (events : List (Event τ)) (e : Event τ)
    (h : Replays (World.Meets py) (fun w e => w.exec py qgaIntervalSeconds e) {} (events ++ [e])) :
    (World.run py qgaIntervalSeconds events).Survives e (World.run py qgaIntervalSeconds (events ++ [e])) := by
  obtain ⟨hevents, hmeets, -⟩ := replays_append.mp h
  have hsettled := settled_run events settled_start hevents
  unfold World.run
  rw [List.foldl_append]
  exact (exec_movesTo hsettled hmeets).survives hsettled

/-- A message is handled, whatever state the hub is in, exactly where its frame and the replies
of its handler allow it; and in a run where they all do, only its client ends a connection. -/
theorem message_handled_iff (hlisted : ∀ clients, (py.listed clients).Perm clients) :
    (∀ (o : Outcomes) (client : τ) (raw : String),
      (∀ hub, Ends o.allows (fun x _ asked => x = .ok () ∧ (¬ WellFormed py raw → AnswersError client asked))
        (handleMessage py client raw) hub []) ↔ Handled py o.allows raw) ∧
    ∀ (qgaIntervalSeconds : Option Rat) (events : List (Event τ)) (e : Event τ),
      Replays (World.Meets py) (fun w e => w.exec py qgaIntervalSeconds e) {} (events ++ [e]) →
        (World.run py qgaIntervalSeconds events).Survives e (World.run py qgaIntervalSeconds (events ++ [e])) :=
  ⟨fun _ _ raw => handled_iff hlisted raw, fun _ events e h => survives_run events e h⟩

def plain : Python Unit where
  loads := fun raw =>
    if raw = "\x7b\"type\": \"ping\"\x7d" then .value (.obj [("type", .str "ping")])
    else if raw = "5" then .value (.int 5)
    else .decodeError
  str := fun value =>
    match value with
    | .str s => s
    | _ => ""
  int := fun value =>
    match value with
    | .int i => .ok i
    | _ => .error "invalid literal for int()"
  isDigit := fun _ => false
  listed := id

def unavailable : Outcomes where
  snapshots := fun _ _ => .error "unavailable"
  refresh := fun _ => .error "unavailable"
  qgaProbe := fun _ => .error "unavailable"
  screenshot := fun _ _ => .error "unavailable"

def opened : List (Event Unit) := [.connect (), .accepted () (.ok ()), .replied () (.ok .null), .ensure ()]

theorem unknown_message_survives :
    (∀ hub, Ends unavailable.allows
      (fun x _ asked => x = .ok () ∧ (¬ WellFormed plain "\x7b\"type\": \"ping\"\x7d" → AnswersError () asked))
      (handleMessage plain () "\x7b\"type\": \"ping\"\x7d") hub []) ∧
    (World.run plain none opened).Survives (.received () (.ok "\x7b\"type\": \"ping\"\x7d"))
      (World.run plain none (opened ++ [.received () (.ok "\x7b\"type\": \"ping\"\x7d")])) := by
  have hhandled : ∀ allowed, Handled plain allowed "\x7b\"type\": \"ping\"\x7d" := fun allowed =>
    .inr ⟨[("type", .str "ping")], rfl, fun h => absurd h (by decide), fun h => absurd h (by decide)⟩
  refine ⟨((message_handled_iff (fun clients => List.Perm.refl clients)).1 unavailable () _).mpr (hhandled _),
    (message_handled_iff (fun clients => List.Perm.refl clients)).2 none opened _ ?_⟩
  refine ⟨trivial, trivial, fun r next h => ?_, trivial, fun raw hraw _ => ?_, trivial⟩
  · rcases h with h | h
    · cases h
      exact ⟨.null, rfl⟩
    · cases h
  · cases hraw
    exact hhandled _

/-- A frame that holds a number ends the connection. -/
theorem number_ends_connection :
    ¬ Ends unavailable.allows
      (fun x _ asked => x = .ok () ∧ (¬ WellFormed plain "5" → AnswersError () asked)) (handleMessage plain () "5") {} [] ∧
    ((World.run plain none opened).connection ()).listening ∧
    ¬ ((World.run plain none (opened ++ [.received () (.ok "5")])).connection ()).listening := by
  refine ⟨fun h => ?_, trivial, fun h => h⟩
  have hreturned : (Except.error "not a dict" : Except String Unit) = .ok () := h.1
  cases hreturned

end Runs

end Connections

end ProxmoxVEAutopilot.Live
