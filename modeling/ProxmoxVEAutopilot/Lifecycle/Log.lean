import ProxmoxVEAutopilot.Lifecycle.Observe

/-!
# Observations one after another

The log of each machine is the sequence of its states, and the row is where it ends.
The flags only grow, so once one is set the order of the observations is forgotten.
-/

namespace ProxmoxVEAutopilot.Lifecycle

open Foundation
set_option autoImplicit false

def observeAll (os : List Observation) : LifecycleDb := os.foldl observe {}

def LifecycleDb.log (db : LifecycleDb) (key : String) : List Event := db.events.filter fun e => e.identityKey = key

/-- A log and the state it ends in. -/
inductive Replayed : List Event → Option MachineState → Prop where
  | empty : Replayed [] none
  | initial {e : Event} : e.eventType = .initial → e.previousState = none → Replayed [e] (some e.state)
  | transition {log : List Event} {s : MachineState} {e : Event} : Replayed log (some s) →
      e.eventType = .transition → e.previousState = some s → s ≠ e.state →
      Replayed (log ++ [e]) (some e.state)

theorem Replayed.eq_nil {log : List Event} (h : Replayed log none) : log = [] := by
  cases h
  rfl

def Continues (before after : Event) : Prop :=
  after.previousState = some before.state ∧ before.state ≠ after.state

theorem Replayed.spec {log : List Event} {state : Option MachineState} (h : Replayed log state) :
    ∀ s, state = some s → ∃ first rest, log = first :: rest ∧ first.eventType = .initial ∧
      first.previousState = none ∧ (∀ e ∈ rest, e.eventType = .transition) ∧ log.IsChain Continues ∧
      log.getLast?.map Event.state = some s := by
  induction h with
  | empty =>
    intro s hs
    cases hs
  | @initial e htype hprevious =>
    intro s hs
    exact ⟨e, [], rfl, htype, hprevious, by simp, List.isChain_singleton e, hs⟩
  | @transition log last e _ htype hprevious hne ih =>
    intro s hs
    obtain ⟨first, rest, hlog, hfirst, hnone, hrest, hchain, hlast⟩ := ih last rfl
    refine ⟨first, rest ++ [e], by rw [hlog, List.cons_append], hfirst, hnone, ?_, ?_, by simpa using hs⟩
    · intro x hx
      rcases List.mem_append.mp hx with hx | hx
      · exact hrest x hx
      · rw [List.mem_singleton.mp hx]
        exact htype
    · apply hchain.append (List.isChain_singleton e)
      intro x hx y hy
      obtain rfl : e = y := by simpa using hy
      rw [Option.mem_def.mp hx] at hlast
      obtain rfl : x.state = last := by simpa using hlast
      exact ⟨hprevious, hne⟩

section Step
variable {db : LifecycleDb} {o : Observation}

theorem change_identityKey {existing : Option Current} {e : Event} (h : e ∈ o.change existing) :
    e.identityKey = o.identityKey := by
  unfold Observation.change at h
  split at h
  · cases h
  · rw [List.mem_singleton.mp h]

theorem log_observe_of_ne {key : String} (h : o.identityKey ≠ key) : (observe db o).log key = db.log key := by
  have hnone : (o.change (db.current o.identityKey)).filter (fun e => e.identityKey = key) = [] := by
    rw [List.filter_eq_nil_iff]
    intro e he
    rw [decide_eq_true_eq, change_identityKey he]
    exact h
  simp [LifecycleDb.log, observe, record, hnone]

theorem log_observe_self :
    (observe db o).log o.identityKey = db.log o.identityKey ++ o.change (db.current o.identityKey) := by
  have hall : (o.change (db.current o.identityKey)).filter (fun e => e.identityKey = o.identityKey) =
      o.change (db.current o.identityKey) := by
    rw [List.filter_eq_self]
    intro e he
    rw [decide_eq_true_eq, change_identityKey he]
  simp [LifecycleDb.log, observe, record, hall]

theorem Replayed.change {log : List Event} {existing : Option Current}
    (h : Replayed log (existing.map Current.state)) :
    Replayed (log ++ o.change existing) (some (o.state existing)) := by
  unfold Observation.change
  split
  · rename_i hsame
    rw [List.append_nil, ← hsame]
    exact h
  · rename_i hdiff
    cases existing with
    | none =>
      cases h
      exact .initial rfl rfl
    | some row =>
      apply Replayed.transition h rfl rfl
      intro heq
      exact hdiff (by rw [Option.map_some, heq])

/-- Every log leads to the row of its machine. -/
def Logged (db : LifecycleDb) : Prop := ∀ key, Replayed (db.log key) ((db.current key).map Current.state)

theorem Logged.observe (h : Logged db) (o : Observation) : Logged (observe db o) := by
  intro key
  by_cases hkey : o.identityKey = key
  · subst hkey
    have hrow : (Lifecycle.observe db o).current o.identityKey =
        some (o.row (db.current o.identityKey) (db.current o.identityKey)) := record_current_self rfl
    rw [log_observe_self, hrow]
    exact (h o.identityKey).change
  · have hrow : (Lifecycle.observe db o).current key = db.current key := record_current_of_ne hkey
    rw [log_observe_of_ne hkey, hrow]
    exact h key

end Step

theorem observeAll_spec (os : List Observation) : Logged (observeAll os) ∧ Merged os (observeAll os) := by
  induction os using List.reverseRecOn with
  | nil => exact ⟨fun _ => .empty, merged_empty⟩
  | append_singleton os o ih =>
    have hsnoc : observeAll (os ++ [o]) = observe (observeAll os) o := by
      simp [observeAll]
    rw [hsnoc]
    exact ⟨ih.1.observe o, ih.2.observe o⟩

/-- After any observations, the log of a machine starts with its initial event, goes on with
transitions that continue each other, and ends in the state of the row. Once a flag is set,
flags and state are those of any other order of the same observations. -/
theorem log_replays_to_current (os : List Observation) (key : String) :
    (ofKey key os = [] → (observeAll os).current key = none ∧ (observeAll os).log key = []) ∧
    (ofKey key os ≠ [] → ∃ row first rest, (observeAll os).current key = some row ∧
      (observeAll os).log key = first :: rest ∧ first.eventType = .initial ∧ first.previousState = none ∧
      (∀ e ∈ rest, e.eventType = .transition) ∧ ((observeAll os).log key).IsChain Continues ∧
      ((observeAll os).log key).getLast?.map Event.state = some row.state) ∧
    ∀ os', (∀ o, o ∈ ofKey key os ↔ o ∈ ofKey key os') →
      ∀ row, (observeAll os).current key = some row → row.flags.any = true →
      ∃ row', (observeAll os').current key = some row' ∧ row'.flags = row.flags ∧ row'.state = row.state := by
  obtain ⟨hlogged, hmerged⟩ := observeAll_spec os
  refine ⟨?_, ?_, ?_⟩
  · intro hnone
    have hrow := (hmerged.absent key).mpr hnone
    have hlog := hlogged key
    rw [hrow] at hlog
    exact ⟨hrow, hlog.eq_nil⟩
  · intro hsome
    cases hrow : (observeAll os).current key with
    | none => exact absurd ((hmerged.absent key).mp hrow) hsome
    | some row =>
      have hlog := hlogged key
      rw [hrow] at hlog
      obtain ⟨first, rest, hrest⟩ := hlog.spec row.state rfl
      exact ⟨row, first, rest, rfl, hrest⟩
  · intro os' hsame row hrow hany
    obtain ⟨_, hmerged'⟩ := observeAll_spec os'
    cases hrow' : (observeAll os').current key with
    | none =>
      have hempty' := (hmerged'.absent key).mp hrow'
      have hempty : ofKey key os = [] := by
        apply List.eq_nil_iff_forall_not_mem.mpr
        intro o ho
        have ho' := (hsame o).mp ho
        rw [hempty'] at ho'
        cases ho'
      rw [(hmerged.absent key).mpr hempty] at hrow
      cases hrow
    | some row' =>
      have hflags : row'.flags = row.flags := by
        rw [hmerged.flags key row hrow, hmerged'.flags key row' hrow']
        exact (reported_congr hsame).symm
      refine ⟨row', rfl, hflags, ?_⟩
      rw [hmerged.state key row hrow hany, hmerged'.state key row' hrow' (hflags ▸ hany), hflags]

def laptop : List Observation :=
  observeFromAgentHeartbeat "agent-pc1" 1 { serialNumber := some "PC-1", domainName := some "WORKGROUP" }
      (some false) none .null ::
    ((observeAutopilotRegistration 2 none (some "pc1") none true .null).toList ++
      [observeFromAgentHeartbeat "agent-pc1" 3 { serialNumber := some "PC-1", domainName := some "corp.local" }
        (some true) none .null])

theorem laptop_backwards :
    ∃ row, (observeAll laptop.reverse).current "serial:pc1" = some row ∧ row.state = .adDomainJoined ∧
      row.flags = { autopilotRegistered := true, domainJoined := true } := by
  have hmap : ((observeAll laptop).current "serial:pc1").map (fun row => (row.state, row.flags)) =
      some (.adDomainJoined, { autopilotRegistered := true, domainJoined := true }) := by
    decide +kernel
  obtain ⟨row, hrow, hpair⟩ := Option.map_eq_some_iff.mp hmap
  obtain ⟨hstate, hflags⟩ := Prod.mk.inj hpair
  have hsame : ∀ o, o ∈ ofKey "serial:pc1" laptop ↔ o ∈ ofKey "serial:pc1" laptop.reverse := by
    intro o
    simp [ofKey]
  obtain ⟨row', hrow', hflags', hstate'⟩ := (log_replays_to_current laptop "serial:pc1").2.2 laptop.reverse
    hsame row hrow (by rw [hflags]; rfl)
  exact ⟨row', hrow', hstate'.trans hstate, hflags'.trans hflags⟩

end ProxmoxVEAutopilot.Lifecycle
