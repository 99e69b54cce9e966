import ProxmoxVEAutopilot.Live.Hub

/-!
# One collector

Between two awaits a handler can only take clients away from the hub, and no reply can
make the collector raise. So the collector that was started last ends only when the hub
has no clients, and a client that comes later finds it done.
-/

namespace ProxmoxVEAutopilot.Live

open Foundation (Coroutine Json)
open Foundation.Coroutine (await catching forEach ofExcept state update)

set_option autoImplicit false

variable {τ : Type}

/-- What any handler may do to the hub between two awaits. -/
structure Shrinks (hub hub' : Hub τ) : Prop where
  clients : hub'.clients ⊆ hub.clients
  collectorTask : hub'.collectorTask = hub.collectorTask

namespace Shrinks

theorem refl (hub : Hub τ) : Shrinks hub hub := ⟨fun _ h => h, rfl⟩

theorem trans {a b c : Hub τ} (hab : Shrinks a b) (hbc : Shrinks b c) : Shrinks a c :=
  ⟨fun _ h => hab.clients (hbc.clients h), hbc.collectorTask.trans hab.collectorTask⟩

theorem discard [DecidableEq τ] (client : τ) (hub : Hub τ) : Shrinks hub (discard client hub) :=
  ⟨fun _ h => List.mem_of_mem_filter h, rfl⟩

theorem discard_all [DecidableEq τ] (dead : List τ) (hub : Hub τ) :
    Shrinks hub (dead.foldl (fun hub client => Live.discard client hub) hub) := by
  induction dead generalizing hub with
  | nil => exact refl hub
  | cons client dead ih => exact (discard client hub).trans (ih _)

end Shrinks

section Handlers

/-- A handler of the hub. -/
abbrev Steady {α : Type} (c : Handler τ α) : Prop := c.Moves Shrinks

theorem steady_state : Steady (state : Handler τ (Hub τ)) := .state Shrinks.refl

theorem steady_send (client : τ) (message : Message) : Steady (send client message) :=
  Coroutine.Moves.await.bind fun _ => .pure

theorem steady_foundDead (message : Message) (client : τ) : Steady (foundDead message client) := by
  refine steady_state.bind fun hub => Coroutine.Moves.ofExcept.bind fun skipped => ?_
  cases skipped with
  | true => exact .pure
  | false => exact .catching ((steady_send client message).bind fun _ => .pure) fun _ => .pure

theorem steady_deadAmong (message : Message) (clients : List τ) : Steady (deadAmong message clients) := by
  induction clients with
  | nil => exact .pure
  | cons client rest ih => exact (steady_foundDead message client).bind fun _ => ih.bind fun _ => .pure

theorem steady_nextVersion : Steady (nextVersion : Handler τ Json) :=
  (Coroutine.Moves.update fun _ => ⟨fun _ h => h, rfl⟩).bind fun _ => steady_state.bind fun _ => .pure

theorem steady_versioned (message : Json) : Steady (versioned message : Handler τ Message) :=
  steady_nextVersion.bind fun _ => Coroutine.Moves.ofExcept.bind fun _ => .pure

theorem steady_utcNowIso : Steady (utcNowIso : Handler τ Json) := steady_state.bind fun _ => .pure

theorem steady_hello (client : τ) : Steady (hello client) := steady_utcNowIso.bind fun _ => steady_send client _

variable (py : Python τ)

theorem steady_qgaProbe (client : τ) (message : Message) : Steady (qgaProbe py client message) := by
  refine .catching ?_ fun _ => steady_send client _
  refine Coroutine.Moves.ofExcept.bind fun _ => Coroutine.Moves.await.bind fun _ => ?_
  exact steady_utcNowIso.bind fun _ => steady_send client _

theorem steady_screenshot (client : τ) (message : Message) : Steady (screenshot py client message) := by
  refine .catching ?_ fun _ => steady_send client _
  refine Coroutine.Moves.ofExcept.bind fun _ => Coroutine.Moves.await.bind fun _ => ?_
  exact Coroutine.Moves.ofExcept.bind fun _ => steady_send client _

variable [DecidableEq τ]

theorem steady_broadcast (message : Message) : Steady (broadcast py message) :=
  steady_state.bind fun _ => (steady_deadAmong message _).bind fun dead => .update (Shrinks.discard_all dead)

theorem steady_subscribe (client : τ) (message : Message) : Steady (subscribe py client message) := by
  refine Coroutine.Moves.ofExcept.bind fun topics => ?_
  refine (Coroutine.Moves.update fun _ => ⟨fun _ h => h, rfl⟩).bind fun _ => ?_
  refine Coroutine.Moves.ofExcept.bind fun _ => Coroutine.Moves.ofExcept.bind fun vmids => ?_
  refine (Coroutine.Moves.update fun _ => ⟨fun _ h => h, rfl⟩).bind fun _ => ?_
  refine Coroutine.Moves.await.bind fun _ => Coroutine.Moves.ofExcept.bind fun snapshots => ?_
  exact .forEach (fun snapshot => (steady_versioned snapshot).bind fun message => steady_send client message) _

theorem steady_forEach_broadcast (messages : List Json) :
    Steady (forEach (fun message => do
      let message ← versioned message
      broadcast py message) messages) :=
  .forEach (fun message => (steady_versioned message).bind fun message => steady_broadcast py message) _

theorem steady_refresh (client : τ) (message : Message) : Steady (refresh py client message) := by
  refine steady_utcNowIso.bind fun _ => steady_nextVersion.bind fun _ => ?_
  refine (steady_broadcast py _).bind fun _ => Coroutine.Moves.bind ?_ fun reply => ?_
  · exact .catching (Coroutine.Moves.await.bind fun _ => .pure) fun _ => (steady_send client _).bind fun _ => .pure
  · cases reply with
    | none => exact .pure
    | some events => exact Coroutine.Moves.ofExcept.bind fun _ => steady_forEach_broadcast py _

theorem steady_handleMessage (client : τ) (raw : String) : Steady (handleMessage py client raw) := by
  unfold handleMessage
  split
  · exact steady_send client _
  · trivial
  · refine Coroutine.Moves.ofExcept.bind fun message => ?_
    dsimp only
    split_ifs
    · exact steady_subscribe py client message
    · exact steady_refresh py client message
    · exact steady_qgaProbe py client message
    · exact steady_screenshot py client message
    · exact steady_send client _

theorem steady_patchClients (topics : Finset String) (vmids : Finset Int) (includeQga : Bool) :
    Steady (patchClients py topics vmids includeQga) := by
  unfold patchClients
  split
  · exact .pure
  · refine .catching ?_ fun _ => steady_utcNowIso.bind fun _ => steady_broadcast py _
    refine Coroutine.Moves.await.bind fun _ => Coroutine.Moves.ofExcept.bind fun _ => ?_
    exact steady_forEach_broadcast py _

theorem steady_heartbeat : Steady (heartbeat py) :=
  steady_nextVersion.bind fun _ => steady_utcNowIso.bind fun _ => steady_broadcast py _

theorem steady_collectorTurn (qgaIntervalSeconds : Option Rat) : Steady (collectorTurn py qgaIntervalSeconds) := by
  refine steady_state.bind fun hub => Coroutine.Moves.bind (.update fun hub => ?_) fun _ => ?_
  · unfold Hub.markQga
    split <;> exact ⟨fun _ h => h, rfl⟩
  · exact (steady_patchClients py _ _ _).bind fun _ => steady_heartbeat py

end Handlers

section NoException

theorem foundDead_neverRaises {message : Message} (htopic : (field message "topic").truthy = false)
    (client : τ) : (foundDead message client).NeverRaises := by
  intro hub
  have hskips : skips (field message "topic") (hub.topics client) = .ok false := by simp [skips, htopic]
  change Coroutine.NeverRaises (Coroutine.andThen (ofExcept (skips _ (hub.topics client))) _)
  rw [hskips]
  exact .catching fun _ => trivial

theorem deadAmong_neverRaises {message : Message} (htopic : (field message "topic").truthy = false)
    (clients : List τ) : (deadAmong message clients).NeverRaises := by
  induction clients with
  | nil => trivial
  | cons client rest ih => exact (foundDead_neverRaises htopic client).bind fun _ => ih.bind fun _ => trivial

variable [DecidableEq τ] (py : Python τ)

theorem broadcast_neverRaises {message : Message} (htopic : (field message "topic").truthy = false) :
    (broadcast py message).NeverRaises :=
  fun _ => (deadAmong_neverRaises htopic _).bind fun _ _ => trivial

theorem patchClients_neverRaises (topics : Finset String) (vmids : Finset Int) (includeQga : Bool) :
    (patchClients py topics vmids includeQga).NeverRaises := by
  unfold patchClients
  split
  · trivial
  · exact .catching fun detail _ => broadcast_neverRaises py rfl

theorem collectorTurn_neverRaises (qgaIntervalSeconds : Option Rat) :
    (collectorTurn py qgaIntervalSeconds).NeverRaises := by
  intro hub _
  exact (patchClients_neverRaises py _ _ _).bind fun _ _ _ _ => broadcast_neverRaises py rfl

end NoException

namespace World

/-- The task is not `done`. -/
def Running (w : World τ) (task : Nat) : Prop := ∃ c, w.collectors[task]? = some c ∧ c.done = false

structure Sound (w : World τ) : Prop where
  current : ∀ task, w.Running task → w.hub.collectorTask = some task
  known : ∀ task, w.hub.collectorTask = some task → task < w.collectors.length
  served : ∀ client ∈ w.hub.clients, (w.connection client).passed → ∃ task, w.Running task
  gone : ∀ client, w.connection client = .closed → client ∉ w.hub.clients
  collectors : ∀ (task : Nat) rest, w.collectors[task]? = some (.working rest) → Steady rest ∧ rest.NeverRaises
  greetings : ∀ client rest, w.connection client = .greeting rest → Steady rest
  handlers : ∀ client rest, w.connection client = .handling rest → Steady rest

variable {w : World τ}

theorem sound_start : ({} : World τ).Sound where
  current := by
    rintro task ⟨c, hc, -⟩
    simp at hc
  known := nofun
  served := nofun
  gone := nofun
  collectors := by simp
  greetings := nofun
  handlers := nofun

theorem Sound.shrink (h : w.Sound) {hub : Hub τ} (hhub : Shrinks w.hub hub) : Sound { w with hub := hub } where
  current task hrun := hhub.collectorTask.trans (h.current task hrun)
  known task htask := h.known task (hhub.collectorTask.symm.trans htask)
  served client hclient hpassed := h.served client (hhub.clients hclient) hpassed
  gone client hclosed hclient := h.gone client hclosed (hhub.clients hclient)
  collectors := h.collectors
  greetings := h.greetings
  handlers := h.handlers

theorem Sound.setCollector (h : w.Sound) {task : Nat} (hrunning : w.Running task) {c : Collector τ}
    (hdone : c.done = true → w.hub.clients = [])
    (hworking : ∀ rest, c = .working rest → Steady rest ∧ rest.NeverRaises) : (w.setCollector task c).Sound := by
  obtain ⟨old, hold, hundone⟩ := hrunning
  have hlt : task < w.collectors.length := (List.getElem?_eq_some_iff.mp hold).1
  have hget : ∀ i, (w.collectors.set task c)[i]? = if task = i then some c else w.collectors[i]? := by
    intro i
    rw [List.getElem?_set]
    split
    · simp
    · rfl
  refine ⟨?_, ?_, ?_, h.gone, ?_, h.greetings, h.handlers⟩
  · rintro i ⟨c', hc', hc'done⟩
    rw [World.setCollector, hget] at hc'
    split at hc'
    · rename_i heq
      exact h.current i (heq ▸ ⟨old, hold, hundone⟩)
    · exact h.current i ⟨c', hc', hc'done⟩
  · intro i hi
    simpa [World.setCollector] using h.known i hi
  · intro client hclient hpassed
    obtain ⟨i, c', hc', hc'done⟩ := h.served client hclient hpassed
    by_cases heq : task = i
    · refine ⟨i, c, by rw [World.setCollector, hget, if_pos heq], ?_⟩
      by_contra hc
      simp [World.setCollector, hdone (by simpa using hc)] at hclient
    · exact ⟨i, c', by rw [World.setCollector, hget, if_neg heq]; exact hc', hc'done⟩
  · intro i rest hi
    rw [World.setCollector, hget] at hi
    split at hi
    · exact hworking rest (Option.some.inj hi)
    · exact h.collectors i rest hi

theorem steady_advance {α : Type} {c : Handler τ α} (hc : Steady c) (hub : Hub τ) :
    Shrinks hub (c.advance hub).1 ∧ Steady (c.advance hub).2 :=
  hc.advance Shrinks.refl Shrinks.trans hub

theorem Sound.accept (h : w.Sound) {client : τ} (hconn : w.connection client = .accepting) :
    (w.accept client).Sound where
  current := h.current
  known := h.known
  served := by
    intro x hx hpassed
    rcases List.mem_cons.mp hx with rfl | hx
    · rw [World.accept, hconn] at hpassed
      cases hpassed
    · exact h.served x hx hpassed
  gone := by
    intro x hclosed hx
    rcases List.mem_cons.mp hx with rfl | hx
    · rw [World.accept, hconn] at hclosed
      cases hclosed
    · exact h.gone x hclosed hx
  collectors := h.collectors
  greetings := h.greetings
  handlers := h.handlers

theorem Sound.loopHead (h : w.Sound) {task : Nat} (hrunning : w.Running task) : (w.loopHead task).Sound := by
  unfold World.loopHead
  split
  · rename_i hclients
    exact h.setCollector hrunning (fun _ => hclients) nofun
  · exact h.setCollector hrunning nofun nofun

theorem Sound.collect (h : w.Sound) {task : Nat} (hrunning : w.Running task) {c : Handler τ Unit}
    (hc : Steady c) (hraises : c.NeverRaises) : (w.collect task c).Sound := by
  obtain ⟨hshrinks, hsteady⟩ := steady_advance hc w.hub
  have hw := h.shrink hshrinks
  have hrest := hraises.advance w.hub
  unfold World.collect
  dsimp only
  split
  · exact hw.loopHead hrunning
  · rename_i heq
    rw [heq] at hrest
    exact hrest.elim
  · refine hw.setCollector hrunning nofun fun rest heq => ?_
    cases heq
    exact ⟨hsteady, hrest⟩

theorem Sound.ensureCollector (h : w.Sound) : w.ensureCollector.Sound ∧ ∃ task, w.ensureCollector.Running task := by
  unfold World.ensureCollector
  by_cases hdone : w.collectorDone = true
  · rw [if_pos hdone]
    have hnone : ∀ task, ¬ w.Running task := by
      rintro task hrun
      obtain ⟨c, hc, hundone⟩ := hrun
      simp [World.collectorDone, h.current task ⟨c, hc, hundone⟩, hc, hundone] at hdone
    -- Every older task is done, so the new one is the only one that runs.
    have hget : ∀ {task : Nat} {c}, (w.collectors ++ [Collector.created])[task]? = some c →
        w.collectors[task]? = some c ∨ task = w.collectors.length ∧ c = .created := by
      intro task c hc
      rcases Nat.lt_or_ge task w.collectors.length with hlt | hge
      · exact .inl (by rwa [List.getElem?_append_left hlt] at hc)
      · rw [List.getElem?_append_right hge, List.getElem?_singleton] at hc
        split at hc
        · exact .inr ⟨by omega, (Option.some.inj hc).symm⟩
        · cases hc
    have hnew : ∃ c, (w.collectors ++ [Collector.created])[w.collectors.length]? = some c ∧ c.done = false :=
      ⟨.created, by simp, rfl⟩
    refine ⟨⟨?_, ?_, fun _ _ _ => ⟨_, hnew⟩, h.gone, ?_, h.greetings, h.handlers⟩, _, hnew⟩
    · rintro task ⟨c, hc, hundone⟩
      rcases hget hc with hold | ⟨rfl, -⟩
      · exact absurd ⟨c, hold, hundone⟩ (hnone task)
      · rfl
    · intro task htask
      simp [← Option.some.inj htask]
    · intro task rest hc
      rcases hget hc with hold | ⟨-, hcreated⟩
      · exact h.collectors task rest hold
      · cases hcreated
  · rw [if_neg hdone]
    refine ⟨h, ?_⟩
    unfold World.collectorDone at hdone
    split at hdone
    · exact absurd rfl hdone
    · rename_i task htask
      have hc := List.getElem?_eq_getElem (h.known task htask)
      exact ⟨task, _, hc, by simpa [hc] using hdone⟩

variable [DecidableEq τ]

theorem Sound.place (h : w.Sound) (client : τ) (c : Connection τ)
    (hserved : client ∈ w.hub.clients → c.passed → ∃ task, w.Running task)
    (hgone : c = .closed → client ∉ w.hub.clients)
    (hgreeting : ∀ rest, c = .greeting rest → Steady rest)
    (hhandling : ∀ rest, c = .handling rest → Steady rest) : (w.place client c).Sound := by
  have hother : ∀ {x}, x ≠ client → (w.place client c).connection x = w.connection x := fun hx =>
    Function.update_of_ne hx _ _
  have hself : (w.place client c).connection client = c := Function.update_self _ _ _
  refine ⟨h.current, h.known, fun x hx hpassed => ?_, fun x hx => ?_, h.collectors, fun x rest hx => ?_,
    fun x rest hx => ?_⟩
  all_goals by_cases heq : x = client
  · subst heq
    exact hserved hx (hself ▸ hpassed)
  · exact h.served x hx (hother heq ▸ hpassed)
  · subst heq
    exact hgone (hself ▸ hx)
  · exact h.gone x (hother heq ▸ hx)
  · subst heq
    exact hgreeting rest (hself ▸ hx)
  · exact h.greetings x rest (hother heq ▸ hx)
  · subst heq
    exact hhandling rest (hself ▸ hx)
  · exact h.handlers x rest (hother heq ▸ hx)

theorem Sound.greet (h : w.Sound) (client : τ) {c : Handler τ Unit} (hc : Steady c) : (w.greet client c).Sound := by
  obtain ⟨hshrinks, hsteady⟩ := steady_advance hc w.hub
  have hw := h.shrink hshrinks
  unfold World.greet
  dsimp only
  split
  · exact hw.place client _ (fun _ hpassed => nomatch hpassed) nofun nofun nofun
  · exact hw.place client _ (fun _ hpassed => nomatch hpassed) nofun nofun nofun
  · refine hw.place client _ (fun _ hpassed => nomatch hpassed) nofun (fun rest heq => ?_) nofun
    cases heq
    exact hsteady

theorem Sound.close (h : w.Sound) (client : τ) : (w.close client).Sound := by
  have hgone : client ∉ (discard client w.hub).clients := by simp [discard]
  exact (h.shrink (Shrinks.discard client w.hub)).place client .closed (fun hclient => absurd hclient hgone)
    (fun _ => hgone) nofun nofun

theorem Sound.handle (h : w.Sound) {client : τ} (hpassed : (w.connection client).passed) {c : Handler τ Unit}
    (hc : Steady c) : (w.handle client c).Sound := by
  obtain ⟨hshrinks, hsteady⟩ := steady_advance hc w.hub
  have hw := h.shrink hshrinks
  have hserved : client ∈ (c.advance w.hub).1.clients → ∃ task, w.Running task := fun hclient =>
    h.served client (hshrinks.clients hclient) hpassed
  unfold World.handle
  dsimp only
  split
  · exact hw.place client _ (fun hclient _ => hserved hclient) nofun nofun nofun
  · exact hw.close client
  · refine hw.place client _ (fun hclient _ => hserved hclient) nofun nofun fun rest heq => ?_
    cases heq
    exact hsteady


variable (py : Python τ) (qgaIntervalSeconds : Option Rat)

theorem Sound.exec (h : w.Sound) (e : Event τ) : (w.exec py qgaIntervalSeconds e).Sound := by
  cases e with
  | connect client =>
    dsimp only [World.exec]
    split
    · exact h.place client .accepting (fun _ hpassed => nomatch hpassed) nofun nofun nofun
    · exact h
  | accepted client reply =>
    dsimp only [World.exec]
    split
    · exact (h.accept (by assumption)).greet client (steady_hello client)
    · exact h.place client .refused (fun _ hpassed => nomatch hpassed) nofun nofun nofun
    · exact h
  | ensure client =>
    dsimp only [World.exec]
    split
    · obtain ⟨hsound, hrunning⟩ := h.ensureCollector
      exact hsound.place client .receiving (fun _ _ => hrunning) nofun nofun nofun
    · exact h
  | received client reply =>
    dsimp only [World.exec]
    split
    · rename_i hconn
      exact h.handle (by rw [hconn]; rfl) (steady_handleMessage py client _)
    · exact h.close client
    · exact h
  | replied client reply =>
    dsimp only [World.exec]
    split
    · rename_i hconn
      exact h.greet client (h.greetings client _ hconn reply)
    · rename_i hconn
      exact h.handle (by rw [hconn]; rfl) (h.handlers client _ hconn reply)
    · exact h
  | started task =>
    dsimp only [World.exec]
    split
    · exact h.loopHead ⟨_, by assumption, rfl⟩
    · exact h
  | woken task =>
    dsimp only [World.exec]
    split
    · rename_i hget
      split
      · rename_i hclients
        exact h.setCollector ⟨_, hget, rfl⟩ (fun _ => hclients) nofun
      · exact h.collect ⟨_, hget, rfl⟩ (steady_collectorTurn py _) (collectorTurn_neverRaises py _)
    · exact h
  | collected task reply =>
    dsimp only [World.exec]
    split
    · rename_i hget
      obtain ⟨hsteady, hraises⟩ := h.collectors task _ hget
      exact h.collect ⟨_, hget, rfl⟩ (hsteady reply) (hraises reply)
    · exact h
  | tick clocks => exact h.shrink ⟨fun _ hx => hx, rfl⟩

theorem sound_run (events : List (Event τ)) : (run py qgaIntervalSeconds events).Sound := by
  unfold run
  induction events using List.reverseRecOn with
  | nil => exact sound_start
  | append_singleton events e ih =>
    rw [List.foldl_append]
    exact ih.exec py qgaIntervalSeconds e

/-- After any events: the unfinished collector tasks, and the clients that one serves. -/
theorem one_collector (events : List (Event τ)) :
    (∀ i j, (run py qgaIntervalSeconds events).Running i → (run py qgaIntervalSeconds events).Running j → i = j) ∧
      ∀ client ∈ (run py qgaIntervalSeconds events).hub.clients,
        ((run py qgaIntervalSeconds events).connection client).passed = true →
          ∃ task, (run py qgaIntervalSeconds events).Running task := by
  have h := sound_run py qgaIntervalSeconds events
  refine ⟨fun i j hi hj => ?_, h.served⟩
  exact Option.some.inj ((h.current i hi).symm.trans (h.current j hj))

end World

end ProxmoxVEAutopilot.Live
