import ProxmoxVEAutopilot.Foundation.Lists
import ProxmoxVEAutopilot.Jobs.Args
import ProxmoxVEAutopilot.Onboarding.Requests
import ProxmoxVEAutopilot.Onboarding.State

/-!
# Which puts are applied to what their author had read

Etags grow from version to version as long as every put that is applied names the version it
is applied to, since its transaction starts after that version was committed.
-/

namespace ProxmoxVEAutopilot.Onboarding

open Foundation
set_option autoImplicit false

variable {τ : Type} [DecidableEq τ] {w : World τ} {t u : τ}

section Applied

/-- The put was applied to the version that its author had read, or it raised `StaleEtag`. -/
def Entry.Applied (entry : Entry) : Prop :=
  match entry.outcome with
  | .accepted base _ => entry.read = base
  | .staleEtag => True
  | _ => False

/-- The row that the accepted puts leave. -/
def current (log : List Entry) : Option Version :=
  log.foldl (fun row entry => match entry.outcome with
    | .accepted _ result => some result
    | _ => row) none

/-- Every put is applied as its author meant it or raises `StaleEtag`, and nothing but an
accepted put changes the row. -/
def Faithful (w : World τ) : Prop := (∀ entry ∈ w.log, entry.Applied) ∧ w.row = current w.log

/-- A put whose client had read no row finds none when it writes, and its patch is valid. -/
def Spares (w : World τ) : Event τ → Prop
  | .start t patch => (w.client t).phase = .idle → patch.valid = true
  | .write t => ∀ sent existing, (w.client t).phase = .selected sent existing → sent.read = none → w.row = none
  | _ => True

theorem current_snoc (log : List Entry) (entry : Entry) : current (log ++ [entry]) = match entry.outcome with
    | .accepted _ result => some result
    | _ => current log := by
  unfold current
  rw [List.foldl_append]
  rfl

/-- What a move does, where it is possible. -/
inductive Effect (w : World τ) : Event τ → World τ → Prop where
  | blocked {e : Event τ} : Spares w e → Effect w e w
  | tick : Effect w .tick { w with clock := w.clock + 1 }
  | read {t : τ} : (w.client t).phase = .idle → Effect w (.read t) (w.setClient t ⟨w.row, .idle⟩)
  | started {t : τ} {patch : Patch} : (w.client t).phase = .idle → patch.valid = true → Effect w (.start t patch)
      (w.setClient t ⟨(w.client t).lastRead, .started ⟨(w.client t).lastRead, patch, w.clock⟩⟩)
  | invalid {t : τ} {patch : Patch} : (w.client t).phase = .idle → patch.valid = false → Effect w (.start t patch)
      (w.finish t (w.client t).lastRead (w.client t).lastRead .valueError)
  | stale {t : τ} {sent : Sent} : (w.client t).phase = .started sent → Effect w (.select t)
      (w.finish t sent.read (w.client t).lastRead .staleEtag)
  | selectedNone {t : τ} {sent : Sent} : (w.client t).phase = .started sent → w.row = none → sent.read = none →
      Effect w (.select t) (w.setClient t ⟨(w.client t).lastRead, .selected sent none⟩)
  | selected {t : τ} {sent : Sent} {base : Version} : (w.client t).phase = .started sent → w.row = some base →
      w.lock = none → (∀ v, sent.read = some v → v.etag = base.etag) → Effect w (.select t)
      { w.setClient t ⟨(w.client t).lastRead, .selected sent (some base)⟩ with lock := some t }
  | inserted {t : τ} {sent : Sent} : (w.client t).phase = .selected sent none → w.row = none → Effect w (.write t)
      { w.finish t sent.read (some (sent.result none)) (.accepted none (sent.result none)) with
        row := some (sent.result none), clock := w.clock + 1 }
  | duplicate {t : τ} {sent : Sent} : (w.client t).phase = .selected sent none → w.row ≠ none → Effect w (.write t)
      (w.finish t sent.read (w.client t).lastRead .uniqueViolation)
  | updated {t : τ} {sent : Sent} {base : Version} : (w.client t).phase = .selected sent (some base) →
      Effect w (.write t)
      { w.finish t sent.read (some (sent.result (some base))) (.accepted (some base) (sent.result (some base))) with
        row := some (sent.result (some base)), lock := none, clock := w.clock + 1 }

theorem exec_effect (w : World τ) (e : Event τ) : Effect w e (exec w e) := by
  unfold exec
  cases e with
  | tick => exact .tick
  | read t =>
    dsimp only
    split
    · rename_i hidle
      exact .read hidle
    · exact .blocked trivial
  | start t patch =>
    dsimp only
    split
    · rename_i hidle
      split
      · rename_i hvalid
        exact .started hidle hvalid
      · rename_i hinvalid
        exact .invalid hidle (by simpa using hinvalid)
    · rename_i hbusy
      exact .blocked fun hidle => absurd hidle hbusy
  | select t =>
    dsimp only
    split
    · rename_i sent hstarted
      split
      · rename_i hnone
        split
        · exact .stale hstarted
        · rename_i hread
          refine .selectedNone hstarted hnone ?_
          simpa [Sent.ifMatch] using hread
      · rename_i base hbase
        split
        · exact .blocked trivial
        · rename_i hlock
          split
          · exact .stale hstarted
          · rename_i hmatch
            refine .selected hstarted hbase (by simpa using hlock) fun v hv => ?_
            simpa [Sent.ifMatch, hv] using hmatch
    · exact .blocked trivial
  | write t =>
    dsimp only
    split
    · rename_i sent hselected
      split
      · rename_i hnone
        exact .inserted hselected hnone
      · rename_i version hsome
        exact .duplicate hselected (by rw [hsome]; exact Option.some_ne_none _)
    · rename_i sent base hselected
      exact .updated hselected
    · rename_i hnone hsome
      refine .blocked fun sent existing hselected => ?_
      cases existing with
      | none => exact absurd hselected (hnone sent)
      | some base => exact absurd hselected (hsome sent base)

variable {e : Event τ} {w' : World τ}

theorem Effect.row (h : Effect w e w') (hrow : w.row = current w.log) : w'.row = current w'.log := by
  cases h with
  | invalid => exact hrow.trans (current_snoc w.log ⟨_, .valueError⟩).symm
  | stale => exact hrow.trans (current_snoc w.log ⟨_, .staleEtag⟩).symm
  | duplicate => exact hrow.trans (current_snoc w.log ⟨_, .uniqueViolation⟩).symm
  | inserted => exact (current_snoc w.log ⟨_, .accepted _ _⟩).symm
  | updated => exact (current_snoc w.log ⟨_, .accepted _ _⟩).symm
  | _ => exact hrow

theorem Effect.log (h : Effect w e w') : w.log <+: w'.log := by
  cases h with
  | invalid | stale | duplicate | inserted | updated => exact List.prefix_append _ _
  | _ => exact List.prefix_rfl

theorem log_foldl (events : List (Event τ)) : ∀ w : World τ, w.log <+: (events.foldl exec w).log := by
  induction events with
  | nil => exact fun w => List.prefix_rfl
  | cons e events ih => exact fun w => (exec_effect w e).log.trans (ih _)

end Applied

section Kept

def Phase.sent : Phase → Option Sent
  | .idle => none
  | .started sent => some sent
  | .selected sent _ => some sent

/-- The version is the row's, or its etag is older. -/
def Behind (v : Version) (row : Option Version) : Prop := ∃ r, row = some r ∧ (v = r ∨ v.etag < r.etag)

/-- What holds of one client between the moves. -/
structure Local (row : Option Version) (lock : Option τ) (clock : Int) (t : τ) (client : Client) : Prop where
  lastRead : ∀ v, client.lastRead = some v → Behind v row
  sent : ∀ sent, client.phase.sent = some sent →
    sent.now ≤ clock ∧ ∀ v, sent.read = some v → Behind v row ∧ v.etag < sent.now
  selectedNone : ∀ sent, client.phase = .selected sent none → sent.read = none
  selected : ∀ sent base, client.phase = .selected sent (some base) →
    lock = some t ∧ row = some base ∧ ∀ v, sent.read = some v → v.etag = base.etag

structure Kept (w : World τ) : Prop where
  fresh : ∀ r, w.row = some r → r.etag < w.clock
  clients : ∀ t, Local w.row w.lock w.clock t (w.client t)

omit [DecidableEq τ] in
theorem behind_lt {v : Version} (h : Kept w) (hv : Behind v w.row) : v.etag < w.clock := by
  obtain ⟨r, hr, rfl | hlt⟩ := hv
  · exact h.fresh v hr
  · exact Int.lt_trans hlt (h.fresh r hr)

theorem local_update {row : Option Version} {lock : Option τ} {clock : Int} {client : Client}
    (ht : Local row lock clock t client) (hothers : ∀ u, u ≠ t → Local row lock clock u (w.client u)) (u : τ) :
    Local row lock clock u (Function.update w.client t client u) := by
  by_cases hu : u = t
  · subst hu
    rwa [Function.update_self]
  · rw [Function.update_of_ne hu]
    exact hothers u hu

theorem kept_setClient {client : Client} (h : Kept w) (ht : Local w.row w.lock w.clock t client) :
    Kept (w.setClient t client) :=
  ⟨h.fresh, local_update ht fun u _ => h.clients u⟩

omit [DecidableEq τ] in
theorem local_idle {row lastRead : Option Version} {lock : Option τ} {clock : Int}
    (h : ∀ v, lastRead = some v → Behind v row) : Local row lock clock t ⟨lastRead, .idle⟩ where
  lastRead := h
  sent := fun sent hsent => by cases hsent
  selectedNone := fun sent hselected => by cases hselected
  selected := fun sent base hselected => by cases hselected

theorem kept_finish {read : Option Version} {outcome : Outcome} (h : Kept w) :
    Kept (w.finish t read (w.client t).lastRead outcome) :=
  ⟨h.fresh, local_update (local_idle (h.clients t).lastRead) fun u _ => h.clients u⟩

omit [DecidableEq τ] in
/-- The row goes on to a version with a later etag, while the client has not selected it. -/
theorem local_advance {row : Option Version} {result : Version} {lock lock' : Option τ} {clock : Int} {client : Client}
    (h : Local row lock clock u client) (hlater : ∀ r, row = some r → r.etag < result.etag)
    (hfree : ∀ sent base, client.phase ≠ .selected sent (some base)) : Local (some result) lock' (clock + 1) u client where
  lastRead := by
    intro v hv
    obtain ⟨r, hr, rfl | hlt⟩ := h.lastRead v hv
    · exact ⟨result, rfl, .inr (hlater v hr)⟩
    · exact ⟨result, rfl, .inr (Int.lt_trans hlt (hlater r hr))⟩
  sent := by
    intro sent hsent
    obtain ⟨hnow, hread⟩ := h.sent sent hsent
    refine ⟨by omega, fun v hv => ?_⟩
    obtain ⟨⟨r, hr, hbehind⟩, hlt⟩ := hread v hv
    refine ⟨⟨result, rfl, .inr ?_⟩, hlt⟩
    rcases hbehind with rfl | hlt
    · exact hlater v hr
    · exact Int.lt_trans hlt (hlater r hr)
  selectedNone := h.selectedNone
  selected := fun sent base hselected => absurd hselected (hfree sent base)

omit [DecidableEq τ] in
theorem sent_setClient {client : Client} {phase : Phase} (h : Local w.row w.lock w.clock t client)
    (hsent : phase.sent = client.phase.sent) (hselected : ∀ sent existing, phase = .selected sent existing →
      match existing with
      | none => sent.read = none
      | some base => w.lock = some t ∧ w.row = some base ∧ ∀ v, sent.read = some v → v.etag = base.etag) :
    Local w.row w.lock w.clock t ⟨client.lastRead, phase⟩ where
  lastRead := h.lastRead
  sent := fun sent heq => h.sent sent (hsent ▸ heq)
  selectedNone := fun sent heq => hselected sent none heq
  selected := fun sent base heq => hselected sent (some base) heq

variable {e : Event τ} {w' : World τ}

theorem Effect.kept (h : Effect w e w') (hkept : Kept w) (hspares : Spares w e) : Kept w' := by
  cases h with
  | blocked _ => exact hkept
  | tick =>
    refine ⟨fun r hr => Int.lt_trans (hkept.fresh r hr) (by dsimp only; omega), fun t => ?_⟩
    have hlocal := hkept.clients t
    exact ⟨hlocal.lastRead, fun sent hsent => ⟨by have := (hlocal.sent sent hsent).1; dsimp only; omega,
      (hlocal.sent sent hsent).2⟩, hlocal.selectedNone, hlocal.selected⟩
  | read _ => exact kept_setClient hkept (local_idle fun v hv => ⟨v, hv, .inl rfl⟩)
  | @started t patch hidle hvalid =>
    have hread := (hkept.clients t).lastRead
    refine kept_setClient hkept ⟨hread, fun sent hsent => ?_, fun sent heq => ?_, fun sent base heq => ?_⟩
    · cases hsent
      exact ⟨Int.le_refl _, fun v hv => ⟨hread v hv, behind_lt hkept (hread v hv)⟩⟩
    · cases heq
    · cases heq
  | invalid _ _ => exact kept_finish hkept
  | stale _ => exact kept_finish hkept
  | @selectedNone t sent hstarted hnone hread =>
    refine kept_setClient hkept (sent_setClient (hkept.clients t) (by rw [hstarted]; rfl) fun other existing heq => ?_)
    cases heq
    exact hread
  | @selected t sent base hstarted hbase hlock hmatch =>
    refine ⟨hkept.fresh, local_update ?_ fun u hu => ?_⟩
    · have hlocal := hkept.clients t
      refine ⟨hlocal.lastRead, fun other heq => hlocal.sent other ?_, fun other heq => ?_, fun other existing heq => ?_⟩
      · rw [hstarted]
        exact heq
      · cases heq
      · cases heq
        exact ⟨rfl, hbase, hmatch⟩
    · have hlocal := hkept.clients u
      refine ⟨hlocal.lastRead, hlocal.sent, hlocal.selectedNone, fun other existing heq => ?_⟩
      have hheld := (hlocal.selected other existing heq).1
      rw [hlock] at hheld
      cases hheld
  | duplicate _ _ => exact kept_finish hkept
  | @inserted t sent hselected hnone =>
    have hnow := ((hkept.clients t).sent sent (by rw [hselected]; rfl)).1
    have hetag : (sent.result none).etag = sent.now := rfl
    refine ⟨fun r hr => ?_, local_update (local_idle fun v hv => ?_) fun u hu => ?_⟩
    · cases hr
      rw [hetag]
      exact Int.lt_add_one_of_le hnow
    · cases hv
      exact ⟨_, rfl, .inl rfl⟩
    · have hlocal := hkept.clients u
      refine local_advance hlocal (fun r hr => ?_) fun other base heq => ?_
      · cases hnone.symm.trans hr
      · cases hnone.symm.trans (hlocal.selected other base heq).2.1
  | @updated t sent base hselected =>
    have hlocal := hkept.clients t
    obtain ⟨hheld, hbase, hmatch⟩ := hlocal.selected sent base hselected
    obtain ⟨hnow, hread⟩ := hlocal.sent sent (by rw [hselected]; rfl)
    have hetag : (sent.result (some base)).etag = sent.now := rfl
    refine ⟨fun r hr => ?_, local_update (local_idle fun v hv => ?_) fun u hu => ?_⟩
    · cases hr
      rw [hetag]
      exact Int.lt_add_one_of_le hnow
    · cases hv
      exact ⟨_, rfl, .inl rfl⟩
    · refine local_advance (hkept.clients u) (fun r hr => ?_) fun other existing heq => ?_
      · cases hbase.symm.trans hr
        rw [hetag]
        cases hsent : sent.read with
        | none => cases hbase.symm.trans (hspares sent (some base) hselected hsent)
        | some v =>
          rw [← hmatch v hsent]
          exact (hread v hsent).2
      · have howner := ((hkept.clients u).selected other existing heq).1
        exact hu (Option.some.inj (howner.symm.trans hheld))

omit [DecidableEq τ] in
theorem kept_init : Kept ({} : World τ) :=
  ⟨fun _ hr => (nomatch hr), fun _ => local_idle fun _ hv => nomatch hv⟩

end Kept

section Faithful
variable {e : Event τ} {w' : World τ}

theorem forall_mem_snoc {p : Entry → Prop} (log : List Entry) (entry : Entry) :
    (∀ x ∈ log ++ [entry], p x) ↔ (∀ x ∈ log, p x) ∧ p entry := by
  rw [List.forall_mem_append, List.forall_mem_singleton]

/-- A move adds a put that is not applied as it should be exactly if it does not spare the row. -/
theorem Effect.applied (h : Effect w e w') (hkept : Kept w) :
    (∀ entry ∈ w'.log, entry.Applied) ↔ (∀ entry ∈ w.log, entry.Applied) ∧ Spares w e := by
  cases h with
  | blocked hspares => exact ⟨fun h => ⟨h, hspares⟩, And.left⟩
  | tick | read _ | selectedNone _ _ _ | selected _ _ _ _ => exact ⟨fun h => ⟨h, trivial⟩, And.left⟩
  | started _ hvalid => exact ⟨fun h => ⟨h, fun _ => hvalid⟩, And.left⟩
  | invalid hidle hinvalid =>
    rw [World.finish, forall_mem_snoc]
    refine and_congr_right fun _ => ⟨False.elim, fun hspares => ?_⟩
    cases hinvalid.symm.trans (hspares hidle)
  | stale _ => exact (forall_mem_snoc _ _).trans (and_congr_right fun _ => Iff.rfl)
  | inserted hselected hnone =>
    rw [World.finish, forall_mem_snoc]
    exact and_congr_right fun _ => ⟨fun _ _ _ _ _ => hnone, fun _ => (hkept.clients _).selectedNone _ hselected⟩
  | duplicate hselected hrow =>
    rw [World.finish, forall_mem_snoc]
    refine and_congr_right fun _ => ⟨False.elim, fun hspares => hrow ?_⟩
    exact hspares _ none hselected ((hkept.clients _).selectedNone _ hselected)
  | @updated t sent base hselected =>
    rw [World.finish, forall_mem_snoc]
    refine and_congr_right fun _ => ?_
    obtain ⟨_, hbase, hmatch⟩ := (hkept.clients t).selected sent base hselected
    constructor
    · intro happlied other existing heq hnone
      cases hselected.symm.trans heq
      cases hnone.symm.trans happlied
    · intro hspares
      cases hread : sent.read with
      | none => cases hbase.symm.trans (hspares sent (some base) hselected hread)
      | some v =>
        obtain ⟨r, hr, hbehind⟩ := (((hkept.clients t).sent sent (by rw [hselected]; rfl)).2 v hread).1
        cases hbase.symm.trans hr
        rcases hbehind with rfl | hlt
        · exact rfl
        · exact absurd (hmatch v hread) (Int.ne_of_lt hlt)

theorem row_foldl (events : List (Event τ)) : ∀ w : World τ, w.row = current w.log →
    (events.foldl exec w).row = current (events.foldl exec w).log := by
  induction events with
  | nil => exact fun w h => h
  | cons e events ih => exact fun w h => ih _ ((exec_effect w e).row h)

theorem applied_foldl (events : List (Event τ)) : ∀ w : World τ, Kept w →
    ((∀ entry ∈ (events.foldl exec w).log, entry.Applied) ↔
      (∀ entry ∈ w.log, entry.Applied) ∧ Replays Spares exec w events) := by
  induction events with
  | nil => exact fun w _ => ⟨fun h => ⟨h, trivial⟩, And.left⟩
  | cons e events ih =>
    intro w hkept
    have heffect := exec_effect w e
    by_cases hspares : Spares w e
    · rw [List.foldl_cons, ih _ (heffect.kept hkept hspares), heffect.applied hkept]
      exact and_assoc
    · constructor
      · intro h
        have hfirst := (heffect.applied hkept).mp fun entry hentry => h entry ((log_foldl events _).subset hentry)
        exact absurd hfirst.2 hspares
      · exact fun h => absurd h.2.1 hspares

theorem faithful_iff (events : List (Event τ)) :
    Faithful (events.foldl exec {}) ↔ Replays Spares exec {} events := by
  have happlied := applied_foldl events {} kept_init
  have hrow := row_foldl events {} rfl
  constructor
  · exact fun h => (happlied.mp h.1).2
  · exact fun h => ⟨happlied.mpr ⟨fun _ hentry => (nomatch hentry), h⟩, hrow⟩

end Faithful

section Requests
open Requests (Runtime Raised getItem setItem)

/-- A dict whose keys are texts. -/
def textKeyed (fields : List (String × Json)) : Requests.Dict := fields.map fun field => (.str field.1, field.2)

/-- The same dict, in an order of its own. -/
def SameDict (stored fields : List (String × Json)) : Prop :=
  (stored.map Prod.fst).Nodup ∧ ∀ key, stored.lookup key = fields.lookup key

/-- What the server makes of texts, and of objects, whose keys it may reorder. -/
structure KeepsAnswers (rt : Runtime) : Prop where
  insertText : ∀ s, rt.insertText (.str s) = some (some s)
  coalesceText : ∀ s, rt.coalesceText (.str s) = some (some s)
  jsonb : ∀ fields, (fields.map Prod.fst).Nodup → ∃ stored, rt.jsonb (.obj fields) = some (.obj stored) ∧
    SameDict stored fields
  jsonbDict : ∀ fields, (fields.map Prod.fst).Nodup → ∃ stored, rt.jsonbDict (textKeyed fields) = some (.obj stored) ∧
    SameDict stored fields
  isoformat : Function.Injective rt.isoformat

/-- The patch as the endpoint passes it on. -/
def Patch.json (patch : Patch) : Requests.Patch where
  answers := patch.answers.map .obj
  status := patch.status.map .str
  currentStep := patch.currentStep.map .str
  persona := patch.persona.map .str
  launchedRunId := patch.launchedRunId.map .str

/-- One stored row in both models. -/
def Row.Stored (row : Row) (stored : Requests.Row Json) : Prop :=
  ∃ fields, SameDict fields row.answers ∧ stored = ⟨row.status, row.currentStep, row.persona, .obj fields,
    row.launchedRunId, row.createdAt, row.updatedAt⟩

/-- How a put ends in both models. -/
inductive Outcome.Alike : Outcome → Except Raised (Requests.Row Json) → Prop where
  | accepted {base : Option Version} {result : Version} {new : Requests.Row Json} :
      result.row.Stored new → Alike (.accepted base result) (.ok new)
  | staleEtag (detail : String) : Alike .staleEtag (.error (.staleEtag detail))
  | valueError (detail : String) : Alike .valueError (.error (.valueError detail))

variable {rt : Runtime} {patch : Patch} {now : Int}

theorem validate_json (rt : Runtime) (patch : Patch) :
    (patch.valid = true ∧ Requests.validate rt patch.json = .ok ()) ∨
      patch.valid = false ∧ ∃ detail, Requests.validate rt patch.json = .error (.valueError detail) := by
  obtain ⟨status, currentStep, persona, answers, launchedRunId⟩ := patch
  have hvalid : Patch.valid ⟨status, currentStep, persona, answers, launchedRunId⟩ =
      (status.all (· ∈ Requests.validStatuses) && persona.all (· ∈ Requests.validPersonas)) := rfl
  rw [hvalid]
  unfold Requests.validate Patch.json
  cases status with
  | none =>
    cases persona with
    | none => exact .inl ⟨rfl, rfl⟩
    | some p => by_cases hp : p ∈ Requests.validPersonas <;> simp [Requests.member, hp]
  | some s =>
    by_cases hs : s ∈ Requests.validStatuses
    · cases persona with
      | none => simp [Requests.member, hs, pure, Except.pure, bind, Except.bind]
      | some p =>
        by_cases hp : p ∈ Requests.validPersonas <;> simp [Requests.member, hs, hp, bind, Except.bind]
    · simp [Requests.member, hs, bind, Except.bind]

theorem setItem_textKeyed {fields : List (String × Json)} (h : (fields.map Prod.fst).Nodup) (key : String) (value : Json) :
    ∃ set, setItem (textKeyed fields) (.str key) value = textKeyed set ∧ (set.map Prod.fst).Nodup ∧
      ∀ other, set.lookup other = if other = key then some value else fields.lookup other := by
  have hany : ((textKeyed fields).any fun item => item.1.pyEq (.str key)) = (fields.lookup key).isSome := by
    rw [Bool.eq_iff_iff]
    simp [textKeyed, Json.pyEq]
  refine ⟨_, ?_, ?_, fun other => lookup_assigned fields key other value⟩
  · unfold setItem
    rw [hany]
    split
    · unfold textKeyed
      rw [List.map_map, List.map_map]
      refine List.map_congr_left fun f _ => ?_
      by_cases hf : f.1 = key <;> simp [hf, Json.pyEq]
    · simp [textKeyed]
  · split
    · rw [List.map_map, List.map_congr_left (g := Prod.fst)]
      · exact h
      · intro f _
        by_cases hf : f.1 = key <;> simp [hf]
    · rename_i hnone
      refine nodup_map_snoc h fun f hf heq => hnone ?_
      rw [List.lookup_isSome_iff]
      exact ⟨f, hf, beq_iff_eq.mpr heq.symm⟩

theorem foldl_setItem (new : List (String × Json)) (hnew : (new.map Prod.fst).Nodup) :
    ∀ fields : List (String × Json), (fields.map Prod.fst).Nodup → ∃ merged,
      new.foldl (fun d f => setItem d (.str f.1) f.2) (textKeyed fields) = textKeyed merged ∧
        (merged.map Prod.fst).Nodup ∧ ∀ key, merged.lookup key = (new.lookup key).or (fields.lookup key) := by
  induction new with
  | nil => exact fun fields h => ⟨fields, rfl, h, fun _ => rfl⟩
  | cons f new ih =>
    intro fields h
    rw [List.map_cons, List.nodup_cons] at hnew
    obtain ⟨set, hset, hnodup, hlookup⟩ := setItem_textKeyed h f.1 f.2
    obtain ⟨merged, hmerged, hkeys, hall⟩ := ih hnew.2 set hnodup
    refine ⟨merged, by rw [List.foldl_cons, hset, hmerged], hkeys, fun key => ?_⟩
    rw [hall, hlookup, List.lookup_cons]
    by_cases hkey : key = f.1
    · have hnone : new.lookup key = none := by
        rw [List.lookup_eq_none_iff]
        intro g hg
        rw [hkey, bne_iff_ne]
        rintro heq
        exact hnew.1 (heq ▸ List.mem_map_of_mem hg)
      rw [hnone, if_pos hkey, hkey, beq_self_eq_true]
      rfl
    · rw [if_neg hkey, beq_eq_false_iff_ne.mpr hkey]

/-- `dict(existing["answers"] or {})`, and the answers of the patch over it. -/
theorem mergeAnswers_json {old fields : List (String × Json)} (hold : SameDict old fields)
    (answers : Option (List (String × Json))) (hanswers : ((answers.getD []).map Prod.fst).Nodup) :
    ∃ merged, Requests.mergeAnswers (.obj old) (answers.map .obj) = .ok (textKeyed merged) ∧
      SameDict merged (mergeAnswers fields (answers.getD [])) := by
  have hupdate : ∀ {base new : List (String × Json)}, (base.map Prod.fst).Nodup → (new.map Prod.fst).Nodup →
      ∃ merged, Requests.update (textKeyed base) (.obj new) = .ok (textKeyed merged) ∧
        (merged.map Prod.fst).Nodup ∧ ∀ key, merged.lookup key = (new.lookup key).or (base.lookup key) := by
    intro base new hbase hnew
    obtain ⟨merged, hmerged, hrest⟩ := foldl_setItem new hnew base hbase
    exact ⟨merged, congrArg Except.ok hmerged, hrest⟩
  obtain ⟨copy, hcopy, hnodup, hlookup⟩ := @hupdate [] _ List.nodup_nil hold.1
  have hdict : Requests.dictOf (some (.obj old)) = .ok (textKeyed copy) := by
    unfold Requests.dictOf
    dsimp only
    split
    · exact hcopy
    · rename_i hfalsy
      have hnil : old = [] := by simpa [Json.truthy] using hfalsy
      rw [hnil] at hcopy
      exact hcopy
  have hsame : ∀ key, copy.lookup key = fields.lookup key := fun key => by
    rw [hlookup, hold.2, List.lookup_nil, Option.or_none]
  unfold Requests.mergeAnswers
  rw [hdict]
  cases answers with
  | none => exact ⟨copy, rfl, hnodup, fun key => by simpa [mergeAnswers] using hsame key⟩
  | some new =>
    obtain ⟨merged, hmerged, hkeys, hall⟩ := hupdate hnodup hanswers
    refine ⟨merged, hmerged, hkeys, fun key => ?_⟩
    rw [hall, hsame]
    exact (lookup_merged fields new key).symm

theorem textOf_json (value : Option String) : Requests.textOf (value.map .str) = value := by cases value <;> rfl

theorem insertOr_json (h : KeepsAnswers rt) (default value : Option String) :
    Requests.insertOr rt default (value.map .str) = .ok (value.or default) := by
  cases value with
  | none => rfl
  | some s =>
    change Requests.orRaise (rt.insertText (.str s)) = _
    rw [h.insertText]
    rfl

theorem coalesce_json (h : KeepsAnswers rt) (value : Option String) : Requests.coalesce rt (value.map .str) = .ok value := by
  cases value with
  | none => rfl
  | some s =>
    change Requests.orRaise (rt.coalesceText (.str s)) = _
    rw [h.coalesceText]
    rfl

theorem insertRow_json (h : KeepsAnswers rt) (hanswers : ((patch.answers.getD []).map Prod.fst).Nodup) :
    ∃ new, Requests.insertRow rt now patch.json = .ok new ∧ (patch.insert now).Stored new := by
  obtain ⟨stored, hstored, hsame⟩ := h.jsonb _ hanswers
  refine ⟨_, ?_, stored, hsame, rfl⟩
  have hjson : (patch.answers.map Json.obj).getD (.obj []) = .obj (patch.answers.getD []) := Option.getD_map ..
  unfold Requests.insertRow Patch.json
  dsimp only
  rw [insertOr_json h, insertOr_json h, textOf_json, textOf_json, hjson, hstored, Option.or_some, Option.or_none]
  rfl

theorem updateRow_json (h : KeepsAnswers rt) (hanswers : ((patch.answers.getD []).map Prod.fst).Nodup) {row : Row}
    {stored : Requests.Row Json} (hrow : row.Stored stored) :
    ∃ new, Requests.updateRow rt now patch.json stored = .ok new ∧ (patch.update now row).Stored new := by
  obtain ⟨old, hold, rfl⟩ := hrow
  obtain ⟨merged, hmerged, hkeys, hlookup⟩ := mergeAnswers_json hold patch.answers hanswers
  obtain ⟨stored, hstored, hnodup, hsame⟩ := h.jsonbDict merged hkeys
  refine ⟨_, ?_, stored, ⟨hnodup, fun key => (hsame key).trans (hlookup key)⟩, rfl⟩
  unfold Requests.updateRow Patch.json
  dsimp only
  rw [hmerged, coalesce_json h, coalesce_json h, textOf_json, textOf_json]
  dsimp only [bind, Except.bind]
  rw [hstored]
  rfl

theorem etagFor_inj (h : KeepsAnswers rt) {a b : Int} (heq : Requests.etagFor rt a = Requests.etagFor rt b) : a = b := by
  unfold Requests.etagFor at heq
  exact h.isoformat (by simpa [String.append_left_inj, String.append_right_inj] using heq)

/-- A put that no other request disturbs, as a client of one model and as a request of the other. -/
theorem put_alike (h : KeepsAnswers rt) {sent : Patch} (hanswers : ((sent.answers.getD []).map Prod.fst).Nodup)
    (hidle : (w.client t).phase = .idle) (hlock : w.lock = none) {row : Option (Requests.Row Json)}
    (hrow : Option.Rel (fun version stored => version.row.Stored stored) w.row row) :
    ∃ outcome, (([.start t sent, .select t, .write t].foldl exec w).log =
          w.log ++ [⟨(w.client t).lastRead, outcome⟩] ∧
        ([.start t sent, .select t, .write t].foldl exec w).row = match outcome with
          | .accepted _ result => some result
          | _ => w.row) ∧
      outcome.Alike (Requests.written rt w.clock false row
        ⟨sent.json, (w.client t).lastRead.map fun version => Requests.etagFor rt version.etag⟩) := by
  unfold Requests.written Requests.checks
  rcases validate_json rt sent with ⟨hvalid, hok⟩ | ⟨hinvalid, detail, herror⟩
  · rw [hok]
    generalize hread : (w.client t).lastRead = read
    generalize hw : w.row = found at hrow
    cases hrow with
    | none =>
      cases read with
      | none =>
        obtain ⟨new, hnew, hstored⟩ := @insertRow_json rt sent w.clock h hanswers
        refine ⟨.accepted none ⟨0, sent.insert w.clock⟩, ?_, ?_⟩
        · constructor <;>
            simp [exec, hidle, hvalid, hread, hw, World.setClient, World.finish, Sent.ifMatch, Sent.result]
        · change Outcome.Alike _ (Requests.insertRow rt w.clock sent.json)
          rw [hnew]
          exact .accepted hstored
      | some version =>
        refine ⟨.staleEtag, ?_, .staleEtag _⟩
        constructor <;> simp [exec, hidle, hvalid, hread, hw, World.setClient, World.finish, Sent.ifMatch]
    | @some base stored hrow =>
      obtain ⟨new, hnew, hstored⟩ := @updateRow_json rt sent w.clock h hanswers _ _ hrow
      have hbase : stored.updatedAt = base.etag := by
        obtain ⟨_, _, rfl⟩ := hrow
        rfl
      by_cases hmatch : ∀ version, read = some version → version.etag = base.etag
      · refine ⟨.accepted (some base) ⟨base.number + 1, sent.update w.clock base.row⟩, ?_, ?_⟩
        · cases read <;> constructor <;>
            simp_all [exec, World.setClient, World.finish, Sent.ifMatch, Sent.result]
        · have hcheck : Requests.checkEtag rt (some stored)
              (read.map fun version => Requests.etagFor rt version.etag) = .ok () := by
            cases read with
            | none => rfl
            | some version => exact if_pos (congrArg _ ((hmatch version rfl).trans hbase.symm))
          rw [hcheck]
          change Outcome.Alike _ (Requests.updateRow rt w.clock sent.json stored)
          rw [hnew]
          exact .accepted hstored
      · push Not at hmatch
        obtain ⟨version, rfl, hne⟩ := hmatch
        refine ⟨.staleEtag, ?_, ?_⟩
        · constructor <;>
            simp [exec, hidle, hvalid, hread, hw, hlock, World.setClient, World.finish, Sent.ifMatch, hne]
        · have hcheck : Requests.checkEtag rt (some stored) (some (Requests.etagFor rt version.etag)) = .error _ :=
            if_neg fun heq => hne ((etagFor_inj h heq).trans hbase)
          rw [Option.map_some, hcheck]
          exact .staleEtag _
  · rw [herror]
    refine ⟨.valueError, ?_, .valueError detail⟩
    constructor <;> simp [exec, hidle, hinvalid, World.finish, World.setClient]

end Requests

section Writers
open Jobs

/-- What the two stores keep of concurrent writers. -/
theorem writers_kept_iff {σ : Type} [DecidableEq σ] (calls : σ → SetArg)
    (hkeys : Function.Injective fun s => (calls s).key) (args : Args) (schedule : List σ) (events : List (Event τ)) :
    (Merged calls args (setArgs calls args schedule) ↔
      ∀ s, s ∈ Cell.basis schedule ∨ args (calls s).key = some (calls s).value) ∧
    (Faithful (events.foldl exec {}) ↔ Replays Spares exec {} events) :=
  ⟨merged_iff hkeys args schedule, faithful_iff events⟩

def pageCalls : Bool → SetArg
  | true => ⟨"page", .str "vms"⟩
  | false => ⟨"seq_id", .str "7"⟩

theorem page_keys : Function.Injective fun s => (pageCalls s).key := by decide

/-- One call after the other; one put after a read. -/
theorem sequential_writers_kept : Merged pageCalls (fun _ => none)
      (setArgs pageCalls (fun _ => none) [true, true, false, false]) ∧
    Faithful ([.start true {}, .select true, .write true, .read false, .start false {}, .tick, .select false,
      .write false].foldl exec ({} : World Bool)) := by
  obtain ⟨hmerged, hfaithful⟩ := writers_kept_iff pageCalls page_keys (fun _ => none) [true, true, false, false]
    [.start true {}, .select true, .write true, .read false, .start false {}, .tick, .select false, .write false]
  refine ⟨hmerged.mpr (by decide), hfaithful.mpr ⟨fun _ => rfl, trivial, fun _ _ _ _ => rfl, trivial, fun _ => rfl,
    trivial, trivial, fun sent existing hselected hread => ?_, trivial⟩⟩
  cases hselected
  cases hread

/-- Both calls read before either writes; the second put finds the row that the first one has inserted. -/
theorem overlapping_writers_lose : ¬ Merged pageCalls (fun _ => none)
      (setArgs pageCalls (fun _ => none) [true, false, true, false]) ∧
    ¬ Faithful ([.start true {}, .start false {}, .select true, .write true, .select false,
      .write false].foldl exec ({} : World Bool)) := by
  constructor
  · rintro ⟨merged, hmerged, hset, _⟩
    cases hmerged
    exact absurd (hset true) (by decide)
  · intro h
    have happlied : none = some _ := h.1 _ (List.mem_of_getElem? (i := 1) rfl)
    cases happlied

end Writers

end ProxmoxVEAutopilot.Onboarding
