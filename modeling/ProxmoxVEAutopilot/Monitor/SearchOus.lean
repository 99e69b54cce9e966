import ProxmoxVEAutopilot.Foundation.Interleaving
import ProxmoxVEAutopilot.Foundation.Lists
import ProxmoxVEAutopilot.Foundation.Runs
import ProxmoxVEAutopilot.Foundation.Table

/-!
# Search OUs at the same time

Every call is a transaction under READ COMMITTED: a statement sees what is committed when
it starts and what its own transaction has written. A row that an open transaction has
written is locked; the rows a count has counted are not.
-/

namespace ProxmoxVEAutopilot.Monitor.SearchOus

open Foundation
set_option autoImplicit false

section Model

/-- A row of `monitoring_search_ous`. -/
structure SearchOu where
  id : Nat
  dn : String
  label : String
  enabled : Bool
  sortOrder : Int
deriving DecidableEq, Repr

structure OuPatch where
  dn : Option String := none
  label : Option String := none
  enabled : Option Bool := none
  sortOrder : Option Int := none
deriving DecidableEq, Repr

def OuPatch.apply (patch : OuPatch) (ou : SearchOu) : SearchOu :=
  { ou with
    dn := patch.dn.getD ou.dn
    label := patch.label.getD ou.label
    enabled := patch.enabled.getD ou.enabled
    sortOrder := patch.sortOrder.getD ou.sortOrder }

/-- How far a call has come. `hit` says that its statement has found the row and locked it. -/
inductive Phase where
  | idle
  | updating (ouId : Nat) (patch : OuPatch) (hit : Bool)
  | updated (ouId : Nat) (patch : OuPatch) (hit : Bool)
  | deleting (ouId : Nat)
  | targetRead (ouId : Nat) (enabled : Bool)
  | condemned (ouId : Nat)
  | deleted (ouId : Nat) (hit : Bool)
  | inserted (ou : SearchOu)
  | refused (text : String)
deriving DecidableEq, Repr

/-- The committed rows, what the sequence of ids gives next, who holds a row, and the call of
each connection. -/
structure World (τ : Type) where
  rows : List SearchOu
  nextId : Nat
  locks : Locks Nat τ
  calls : τ → Phase

inductive Action where
  | update (ouId : Nat) (patch : OuPatch)
  | countTotal (ouId : Nat)
  | readTarget
  | countEnabled
  | delete
  | insert (dn label : String) (enabled : Bool) (sortOrder : Int)
  | commit
  | abort
deriving DecidableEq, Repr

def keepEnabledText (verb : String) : String :=
  "at least one search OU must stay enabled; enable another before " ++ verb ++ " this one"

def keepOneText : String := "at least one search OU must exist; add another before deleting this one"

/-- The rows as the transaction itself sees them. -/
def ownView (rows : List SearchOu) : Phase → List SearchOu
  | .updating ouId patch true => Table.modify SearchOu.id rows ouId patch.apply
  | .updated ouId patch true => Table.modify SearchOu.id rows ouId patch.apply
  | .deleted ouId true => Table.delete SearchOu.id rows ouId
  | .inserted ou => rows ++ [ou]
  | _ => rows

def ready : Phase → Bool
  | .idle => true
  | .refused _ => true
  | _ => false

variable {τ : Type} [DecidableEq τ]

def World.to (w : World τ) (t : τ) (p : Phase) : World τ := { w with calls := Function.update w.calls t p }

/-- The call ends, and its transaction with it. -/
def World.finish (w : World τ) (t : τ) (p : Phase) : World τ := { w.to t p with locks := w.locks.release t }

def World.hasRow (w : World τ) (ouId : Nat) : Bool := w.rows.any fun ou => ou.id = ouId

def World.lock (w : World τ) (t : τ) (ouId : Nat) : World τ :=
  if w.hasRow ouId then { w with locks := w.locks.acquire ouId t } else w

/-- The next statement of the call of `t`. There is none while another transaction holds the
row; an error of the server or a dn that is taken is an `abort`. An update without a field
asks the server nothing. -/
def World.act (w : World τ) (t : τ) : Action → Option (World τ)
  | .update ouId patch =>
    if ready (w.calls t) ∧ patch ≠ {} ∧ (w.locks ouId = none ∨ w.locks ouId = some t) then
      some ((w.lock t ouId).to t (.updating ouId patch (w.hasRow ouId)))
    else none
  | .countTotal ouId =>
    if ready (w.calls t) then
      some (if w.rows.length ≤ 1 then w.finish t (.refused keepOneText) else w.to t (.deleting ouId))
    else none
  | .readTarget =>
    match w.calls t with
    | .deleting ouId =>
      some (match w.rows.find? fun ou => ou.id = ouId with
        | none => w.finish t .idle
        | some ou => w.to t (.targetRead ouId ou.enabled))
    | _ => none
  | .countEnabled =>
    match w.calls t with
    | .updating ouId patch hit =>
      some (if (ownView w.rows (.updating ouId patch hit)).countP SearchOu.enabled = 0 then
        w.finish t (.refused (keepEnabledText "disabling")) else w.to t (.updated ouId patch hit))
    | .targetRead ouId enabled =>
      some (if enabled ∧ w.rows.countP SearchOu.enabled ≤ 1 then w.finish t (.refused (keepEnabledText "deleting"))
        else w.to t (.condemned ouId))
    | _ => none
  | .delete =>
    match w.calls t with
    | .condemned ouId =>
      if w.locks ouId = none ∨ w.locks ouId = some t then
        some ((w.lock t ouId).to t (.deleted ouId (w.hasRow ouId)))
      else none
    | _ => none
  | .insert dn label enabled sortOrder =>
    if ready (w.calls t) then
      some { w.to t (.inserted ⟨w.nextId, dn, label, enabled, sortOrder⟩) with nextId := w.nextId + 1 }
    else none
  | .commit =>
    match w.calls t with
    | .updated .. | .deleted .. | .inserted _ =>
      some { w.finish t .idle with rows := ownView w.rows (w.calls t) }
    | _ => none
  | .abort => if ready (w.calls t) then none else some (w.finish t .idle)

end Model

section Rows
variable {rows : List SearchOu} {ou : SearchOu} {ouId : Nat}

def SomeEnabled (rows : List SearchOu) : Prop := ∃ ou ∈ rows, ou.enabled = true

def OtherEnabled (rows : List SearchOu) (ouId : Nat) : Prop := ∃ ou ∈ rows, ou.enabled = true ∧ ou.id ≠ ouId

theorem otherEnabled_of_disabled (hids : (rows.map SearchOu.id).Nodup) (henabled : SomeEnabled rows) (hou : ou ∈ rows)
    (hdisabled : ou.enabled = false) : OtherEnabled rows ou.id := by
  obtain ⟨r, hr, henabled⟩ := henabled
  refine ⟨r, hr, henabled, fun hid => ?_⟩
  rw [List.inj_on_of_nodup_map hids hr hou hid, hdisabled] at henabled
  cases henabled

theorem otherEnabled_of_count (hids : (rows.map SearchOu.id).Nodup) (hcount : 1 < rows.countP SearchOu.enabled) :
    OtherEnabled rows ouId := by
  by_contra hnone
  have hsame : ∀ ou ∈ rows.filter SearchOu.enabled, ou.id = ouId := by
    intro ou hou
    obtain ⟨hmem, henabled⟩ := List.mem_filter.mp hou
    by_contra hne
    exact hnone ⟨ou, hmem, henabled, hne⟩
  have hsub : ((rows.filter SearchOu.enabled).map SearchOu.id).Nodup := hids.sublist (List.filter_sublist.map _)
  have heq : (rows.filter SearchOu.enabled).map SearchOu.id = List.replicate (rows.countP SearchOu.enabled) ouId := by
    rw [List.eq_replicate_iff, List.length_map, ← List.countP_eq_length_filter]
    refine ⟨rfl, fun i hi => ?_⟩
    obtain ⟨ou, hou, rfl⟩ := List.mem_map.mp hi
    exact hsame ou hou
  rw [heq, List.nodup_replicate] at hsub
  omega

theorem otherEnabled_of_view {patch : OuPatch} (hdisables : patch.enabled = some false)
    (hcount : (ownView rows (.updating ouId patch true)).countP SearchOu.enabled ≠ 0) : OtherEnabled rows ouId := by
  obtain ⟨r, hr, henabled⟩ := List.countP_pos_iff.mp (Nat.pos_of_ne_zero hcount)
  rcases Table.mem_modify.mp hr with ⟨hmem, hne⟩ | ⟨old, _, _, rfl⟩
  · exact ⟨r, hmem, henabled, hne⟩
  · simp [OuPatch.apply, hdisables] at henabled

end Rows

section Enabled
variable {τ : Type} [DecidableEq τ]

/-- The call has passed its check and is about to disable or delete the OU. -/
def Dooms : Phase → Nat → Prop
  | .updated ouId patch true, i => i = ouId ∧ patch.enabled = some false
  | .targetRead ouId false, i => i = ouId
  | .condemned ouId, i => i = ouId
  | .deleted ouId _, i => i = ouId
  | _, _ => False

/-- A call ends one OU at most. -/
theorem dooms_unique {p : Phase} {i j : Nat} (hi : Dooms p i) (hj : Dooms p j) : i = j := by
  unfold Dooms at hi hj
  split at hi
  · exact hi.1.trans hj.1.symm
  · exact hi.trans hj.symm
  · exact hi.trans hj.symm
  · exact hi.trans hj.symm
  · exact hi.elim

/-- A call that commits the end of an OU while another call, past its check, is about to end
an OU too does so only where a third OU is enabled. -/
def Considerate (w : World τ) (t : τ) : Prop :=
  ∀ j, Dooms (w.calls t) j → ∀ u i, u ≠ t → Dooms (w.calls u) i →
    ∃ ou ∈ w.rows, ou.enabled = true ∧ ou.id ≠ i ∧ ou.id ≠ j

def ConsiderateStep (w : World τ) (x : τ × Action) (w' : World τ) : Prop :=
  w.act x.1 x.2 = some w' ∧ (x.2 = .commit → Considerate w x.1)

structure Start (w : World τ) : Prop where
  idle : ∀ t, w.calls t = .idle
  ids : (w.rows.map SearchOu.id).Nodup
  fresh : ∀ ou ∈ w.rows, ou.id < w.nextId
  enabled : SomeEnabled w.rows

structure Kept (w : World τ) : Prop where
  ids : (w.rows.map SearchOu.id).Nodup
  fresh : ∀ ou ∈ w.rows, ou.id < w.nextId
  pending : ∀ t ou, w.calls t = .inserted ou → ou.id < w.nextId ∧ (∀ r ∈ w.rows, r.id ≠ ou.id) ∧
    ∀ u v, u ≠ t → w.calls u = .inserted v → v.id ≠ ou.id
  enabled : SomeEnabled w.rows
  spared : ∀ t i, Dooms (w.calls t) i → OtherEnabled w.rows i

variable {w w' : World τ} {t : τ}

omit [DecidableEq τ] in
theorem Start.kept (h : Start w) : Kept w := by
  refine ⟨h.ids, h.fresh, ?_, h.enabled, ?_⟩
  · intro t ou ht
    rw [h.idle t] at ht
    cases ht
  · intro t i hdooms
    rw [h.idle t] at hdooms
    exact hdooms.elim

omit [DecidableEq τ] in
@[simp] theorem lock_rows (ouId : Nat) : (w.lock t ouId).rows = w.rows := by
  unfold World.lock
  split <;> rfl

omit [DecidableEq τ] in
@[simp] theorem lock_nextId (ouId : Nat) : (w.lock t ouId).nextId = w.nextId := by
  unfold World.lock
  split <;> rfl

omit [DecidableEq τ] in
@[simp] theorem lock_calls (ouId : Nat) : (w.lock t ouId).calls = w.calls := by
  unfold World.lock
  split <;> rfl

/-- What a statement that commits nothing does, and what is known of the phase it leads to. -/
structure Moves (w : World τ) (t : τ) (w' : World τ) (p : Phase) : Prop where
  rows : w'.rows = w.rows
  nextId : w'.nextId = w.nextId
  calls : w'.calls = Function.update w.calls t p
  inserts : ∀ ou, p ≠ .inserted ou

theorem Kept.moves {p : Phase} (h : Kept w) (hmove : Moves w t w' p)
    (hspared : ∀ i, Dooms p i → OtherEnabled w.rows i) : Kept w' := by
  refine ⟨hmove.rows ▸ h.ids, ?_, ?_, hmove.rows ▸ h.enabled, ?_⟩
  · rw [hmove.rows, hmove.nextId]
    exact h.fresh
  · intro u ou hu
    have hother : ∀ v x, w'.calls v = .inserted x → w.calls v = .inserted x := by
      intro v x hv
      rw [hmove.calls] at hv
      by_cases hvt : v = t
      · subst hvt
        rw [Function.update_self] at hv
        exact absurd hv (hmove.inserts x)
      · rwa [Function.update_of_ne hvt] at hv
    obtain ⟨hfresh, hnew, hdistinct⟩ := h.pending u ou (hother u ou hu)
    rw [hmove.rows, hmove.nextId]
    exact ⟨hfresh, hnew, fun v x hvu hv => hdistinct v x hvu (hother v x hv)⟩
  · intro u i hdooms
    rw [hmove.calls] at hdooms
    rw [hmove.rows]
    by_cases hut : u = t
    · subst hut
      rw [Function.update_self] at hdooms
      exact hspared i hdooms
    · rw [Function.update_of_ne hut] at hdooms
      exact h.spared u i hdooms

theorem moves_to {p : Phase} (h : ∀ ou, p ≠ .inserted ou) : Moves w t (w.to t p) p := ⟨rfl, rfl, rfl, h⟩

theorem moves_finish {p : Phase} (h : ∀ ou, p ≠ .inserted ou) : Moves w t (w.finish t p) p := ⟨rfl, rfl, rfl, h⟩

theorem moves_lock {p : Phase} (ouId : Nat) (h : ∀ ou, p ≠ .inserted ou) :
    Moves w t ((w.lock t ouId).to t p) p := by
  refine ⟨lock_rows ouId, lock_nextId ouId, ?_, h⟩
  unfold World.to
  rw [lock_calls]

theorem Kept.inserts {ou : SearchOu} (h : Kept w) (hid : ou.id = w.nextId) :
    Kept { w.to t (.inserted ou) with nextId := w.nextId + 1 } := by
  have hcalls : ∀ v x, v ≠ t → (w.to t (.inserted ou)).calls v = .inserted x → w.calls v = .inserted x := by
    intro v x hvt hv
    simpa [World.to, Function.update_of_ne hvt] using hv
  have hself : ∀ x, (w.to t (.inserted ou)).calls t = .inserted x → x = ou := by
    intro x hx
    simpa [World.to, eq_comm] using hx
  refine ⟨h.ids, fun r hr => Nat.lt_succ_of_lt (h.fresh r hr), ?_, h.enabled, ?_⟩
  · intro u x hu
    by_cases hut : u = t
    · subst hut
      rw [hself x hu, hid]
      refine ⟨Nat.lt_succ_self _, fun r hr => Nat.ne_of_lt (h.fresh r hr), fun v y hvu hv => ?_⟩
      exact Nat.ne_of_lt (h.pending v y (hcalls v y hvu hv)).1
    · obtain ⟨hfresh, hnew, hdistinct⟩ := h.pending u x (hcalls u x hut hu)
      refine ⟨Nat.lt_succ_of_lt hfresh, hnew, fun v y hvu hv => ?_⟩
      by_cases hvt : v = t
      · subst hvt
        rw [hself y hv, hid]
        exact (Nat.ne_of_lt hfresh).symm
      · exact hdistinct v y hvu (hcalls v y hvt hv)
  · intro u i hdooms
    by_cases hut : u = t
    · subst hut
      rw [show (w.to u (.inserted ou)).calls u = .inserted ou by simp [World.to]] at hdooms
      exact hdooms.elim
    · refine h.spared u i ?_
      rwa [show (w.to t (.inserted ou)).calls u = w.calls u by simp [World.to, Function.update_of_ne hut]] at hdooms

theorem Kept.commits {rows : List SearchOu} (h : Kept w)
    (hspared : ∀ u i, u ≠ t → Dooms (w.calls u) i → OtherEnabled rows i)
    (hmem : ∀ r ∈ rows, (∃ old ∈ w.rows, old.id = r.id) ∨ w.calls t = .inserted r)
    (hids : (rows.map SearchOu.id).Nodup) (henabled : SomeEnabled rows) :
    Kept { w.finish t .idle with rows := rows } := by
  have hcalls : ∀ u p, p ≠ .idle → (w.finish t .idle).calls u = p → u ≠ t ∧ w.calls u = p := by
    intro u p hp hu
    by_cases hut : u = t
    · subst hut
      simp only [World.finish, World.to, Function.update_self] at hu
      exact absurd hu.symm hp
    · exact ⟨hut, by simpa [World.finish, World.to, Function.update_of_ne hut] using hu⟩
  refine ⟨hids, ?_, ?_, henabled, ?_⟩
  · intro r hr
    rcases hmem r hr with ⟨old, hold, hid⟩ | hinserted
    · exact hid ▸ h.fresh old hold
    · exact (h.pending t r hinserted).1
  · intro u x hu
    obtain ⟨hut, hcall⟩ := hcalls u _ (by simp) hu
    obtain ⟨hfresh, hnew, hdistinct⟩ := h.pending u x hcall
    refine ⟨hfresh, fun r hr => ?_, fun v y hvu hv => hdistinct v y hvu (hcalls v _ (by simp) hv).2⟩
    rcases hmem r hr with ⟨old, hold, hid⟩ | hinserted
    · exact hid ▸ hnew old hold
    · exact hdistinct t r (Ne.symm hut) hinserted
  · intro u i hdooms
    have hbusy : (w.finish t .idle).calls u ≠ .idle := by
      intro hidle
      rw [show ({ w.finish t .idle with rows := rows } : World τ).calls u = .idle from hidle] at hdooms
      exact hdooms
    obtain ⟨hut, hcall⟩ := hcalls u _ hbusy rfl
    exact hspared u i hut (by rw [hcall]; exact hdooms)

def Checked : Phase → Prop
  | .updated .. => True
  | .deleted .. => True
  | .inserted _ => True
  | _ => False

theorem commit_ok (hact : w.act t .commit = some w') :
    Checked (w.calls t) ∧ w' = { w.finish t .idle with rows := ownView w.rows (w.calls t) } := by
  dsimp only [World.act] at hact
  split at hact
  · rename_i hphase
    rw [hphase] at hact ⊢
    exact ⟨trivial, (Option.some.inj hact).symm⟩
  · rename_i hphase
    rw [hphase] at hact ⊢
    exact ⟨trivial, (Option.some.inj hact).symm⟩
  · rename_i hphase
    rw [hphase] at hact ⊢
    exact ⟨trivial, (Option.some.inj hact).symm⟩
  · cases hact

theorem mem_ownView {r : SearchOu} {p : Phase} {rows : List SearchOu} (hr : r ∈ ownView rows p) :
    (∃ old ∈ rows, old.id = r.id) ∨ p = .inserted r := by
  unfold ownView at hr
  split at hr
  · rcases Table.mem_modify.mp hr with ⟨hold, _⟩ | ⟨old, hold, _, rfl⟩
    · exact .inl ⟨r, hold, rfl⟩
    · exact .inl ⟨old, hold, rfl⟩
  · rcases Table.mem_modify.mp hr with ⟨hold, _⟩ | ⟨old, hold, _, rfl⟩
    · exact .inl ⟨r, hold, rfl⟩
    · exact .inl ⟨old, hold, rfl⟩
  · exact .inl ⟨r, (Table.mem_delete.mp hr).1, rfl⟩
  · rcases List.mem_append.mp hr with hold | hnew
    · exact .inl ⟨r, hold, rfl⟩
    · exact .inr (by rw [List.mem_singleton.mp hnew])
  · exact .inl ⟨r, hr, rfl⟩

omit [DecidableEq τ] in
theorem ids_ownView (h : Kept w) (t : τ) : ((ownView w.rows (w.calls t)).map SearchOu.id).Nodup := by
  unfold ownView
  split
  · rename_i ouId patch hphase
    rw [Table.map_key_modify (f := patch.apply) fun _ => rfl]
    exact h.ids
  · rename_i ouId patch hphase
    rw [Table.map_key_modify (f := patch.apply) fun _ => rfl]
    exact h.ids
  · exact h.ids.sublist (List.filter_sublist.map _)
  · rename_i ou hphase
    exact nodup_map_snoc h.ids (h.pending t ou hphase).2.1
  · exact h.ids

omit [DecidableEq τ] in
theorem enabled_stays {r : SearchOu} (hr : r ∈ w.rows) (henabled : r.enabled = true) (hchecked : Checked (w.calls t))
    (hspared : ¬ Dooms (w.calls t) r.id) : ∃ ou ∈ ownView w.rows (w.calls t), ou.enabled = true ∧ ou.id = r.id := by
  cases hphase : w.calls t with
  | updated ouId patch hit =>
    rw [hphase] at hspared
    cases hit with
    | false => exact ⟨r, hr, henabled, rfl⟩
    | true =>
      by_cases hid : r.id = ouId
      · refine ⟨patch.apply r, Table.mem_modify.mpr (.inr ⟨r, hr, hid, rfl⟩), ?_, rfl⟩
        have hkeeps : patch.enabled ≠ some false := fun hoff => hspared ⟨hid, hoff⟩
        unfold OuPatch.apply
        cases hpatch : patch.enabled with
        | none => simpa [hpatch] using henabled
        | some b =>
          cases b with
          | true => rfl
          | false => exact absurd hpatch hkeeps
      · exact ⟨r, Table.mem_modify.mpr (.inl ⟨hr, hid⟩), henabled, rfl⟩
  | deleted ouId hit =>
    rw [hphase] at hspared
    cases hit with
    | false => exact ⟨r, hr, henabled, rfl⟩
    | true => exact ⟨r, Table.mem_delete.mpr ⟨hr, hspared⟩, henabled, rfl⟩
  | inserted ou => exact ⟨r, List.mem_append_left _ hr, henabled, rfl⟩
  | _ =>
    rw [hphase] at hchecked
    exact hchecked.elim

omit [DecidableEq τ] in
theorem enabled_ownView (h : Kept w) (hchecked : Checked (w.calls t)) : SomeEnabled (ownView w.rows (w.calls t)) := by
  have hsurvivor : ∃ r ∈ w.rows, r.enabled = true ∧ ¬ Dooms (w.calls t) r.id := by
    obtain ⟨r, hr, henabled⟩ := h.enabled
    by_cases hdooms : Dooms (w.calls t) r.id
    · obtain ⟨other, hother, hon, hne⟩ := h.spared t r.id hdooms
      exact ⟨other, hother, hon, fun hboth => hne (dooms_unique hboth hdooms)⟩
    · exact ⟨r, hr, henabled, hdooms⟩
  obtain ⟨r, hr, henabled, hspared⟩ := hsurvivor
  obtain ⟨ou, hou, hon, _⟩ := enabled_stays hr henabled hchecked hspared
  exact ⟨ou, hou, hon⟩

omit [DecidableEq τ] in
theorem spared_ownView (h : Kept w) (hchecked : Checked (w.calls t)) (hconsiderate : Considerate w t) {u : τ} {i : Nat}
    (hut : u ≠ t) (hdooms : Dooms (w.calls u) i) : OtherEnabled (ownView w.rows (w.calls t)) i := by
  have hsurvivor : ∃ r ∈ w.rows, r.enabled = true ∧ r.id ≠ i ∧ ¬ Dooms (w.calls t) r.id := by
    obtain ⟨r, hr, henabled, hne⟩ := h.spared u i hdooms
    by_cases hended : Dooms (w.calls t) r.id
    · obtain ⟨third, hthird, hon, hnei, hnej⟩ := hconsiderate r.id hended u i hut hdooms
      exact ⟨third, hthird, hon, hnei, fun hboth => hnej (dooms_unique hboth hended)⟩
    · exact ⟨r, hr, henabled, hne, hended⟩
  obtain ⟨r, hr, henabled, hne, hspared⟩ := hsurvivor
  obtain ⟨ou, hou, hon, hid⟩ := enabled_stays hr henabled hchecked hspared
  exact ⟨ou, hou, hon, hid ▸ hne⟩

theorem kept_act {a : Action} (h : Kept w) (hact : w.act t a = some w')
    (hconsiderate : a = .commit → Considerate w t) : Kept w' := by
  cases a with
  | update ouId patch =>
    dsimp only [World.act] at hact
    split at hact
    · cases hact
      exact h.moves (moves_lock ouId (by simp)) fun i hdooms => hdooms.elim
    · cases hact
  | countTotal ouId =>
    dsimp only [World.act] at hact
    split at hact
    · cases hact
      split
      · exact h.moves (moves_finish (by simp)) fun i hdooms => hdooms.elim
      · exact h.moves (moves_to (by simp)) fun i hdooms => hdooms.elim
    · cases hact
  | readTarget =>
    dsimp only [World.act] at hact
    split at hact
    · rename_i ouId hphase
      cases hact
      split
      · exact h.moves (moves_finish (by simp)) fun i hdooms => hdooms.elim
      · rename_i ou hfind
        refine h.moves (moves_to (by simp)) fun i hdooms => ?_
        have hou := List.mem_of_find?_eq_some hfind
        have hid : ou.id = ouId := by simpa using List.find?_some hfind
        cases henabled : ou.enabled with
        | true =>
          rw [henabled] at hdooms
          exact hdooms.elim
        | false =>
          rw [henabled] at hdooms
          obtain rfl : i = ouId := hdooms
          exact hid ▸ otherEnabled_of_disabled h.ids h.enabled hou henabled
    · cases hact
  | countEnabled =>
    dsimp only [World.act] at hact
    split at hact
    · rename_i ouId patch hit hphase
      cases hact
      split
      · exact h.moves (moves_finish (by simp)) fun i hdooms => hdooms.elim
      · rename_i hcount
        refine h.moves (moves_to (by simp)) fun i hdooms => ?_
        cases hit with
        | false => exact hdooms.elim
        | true =>
          obtain ⟨rfl, hdisables⟩ := hdooms
          exact otherEnabled_of_view hdisables hcount
    · rename_i ouId enabled hphase
      cases hact
      split
      · exact h.moves (moves_finish (by simp)) fun i hdooms => hdooms.elim
      · rename_i hcount
        refine h.moves (moves_to (by simp)) fun i hdooms => ?_
        obtain rfl : i = ouId := hdooms
        cases enabled with
        | true =>
          exact otherEnabled_of_count h.ids (Nat.lt_of_not_le fun hle => hcount ⟨rfl, hle⟩)
        | false => exact h.spared t i (by rw [hphase]; rfl)
    · cases hact
  | delete =>
    dsimp only [World.act] at hact
    split at hact
    · rename_i ouId hphase
      split at hact
      · cases hact
        refine h.moves (moves_lock ouId (by simp)) fun i hdooms => ?_
        exact h.spared t i (by rw [hphase]; exact hdooms)
      · cases hact
    · cases hact
  | insert dn label enabled sortOrder =>
    dsimp only [World.act] at hact
    split at hact
    · cases hact
      exact h.inserts rfl
    · cases hact
  | commit =>
    obtain ⟨hchecked, rfl⟩ := commit_ok hact
    exact h.commits (fun u i hut hdooms => spared_ownView h hchecked (hconsiderate rfl) hut hdooms)
      (fun r hr => mem_ownView hr) (ids_ownView h t) (enabled_ownView h hchecked)
  | abort =>
    dsimp only [World.act] at hact
    split at hact
    · cases hact
    · cases hact
      exact h.moves (moves_finish (by simp)) fun i hdooms => hdooms.elim

theorem rows_of_act {a : Action} (hact : w.act t a = some w') (ha : a ≠ .commit) : w'.rows = w.rows := by
  cases a with
  | update ouId patch =>
    dsimp only [World.act] at hact
    split at hact
    · cases hact
      exact lock_rows ouId
    · cases hact
  | countTotal ouId =>
    dsimp only [World.act] at hact
    split at hact
    · cases hact
      split <;> rfl
    · cases hact
  | readTarget =>
    dsimp only [World.act] at hact
    split at hact
    · cases hact
      split <;> rfl
    · cases hact
  | countEnabled =>
    dsimp only [World.act] at hact
    split at hact
    · cases hact
      split <;> rfl
    · cases hact
      split <;> rfl
    · cases hact
  | delete =>
    dsimp only [World.act] at hact
    split at hact
    · rename_i ouId hphase
      split at hact
      · cases hact
        exact lock_rows ouId
      · cases hact
    · cases hact
  | insert dn label enabled sortOrder =>
    dsimp only [World.act] at hact
    split at hact
    · cases hact
      rfl
    · cases hact
  | commit => exact absurd rfl ha
  | abort =>
    dsimp only [World.act] at hact
    split at hact
    · cases hact
    · cases hact
      rfl

theorem commit_not_refused {text : String} (hact : w.act t .commit = some w') : w'.calls t ≠ .refused text := by
  obtain ⟨_, rfl⟩ := commit_ok hact
  simp [World.finish, World.to]

/-- Considerate calls keep an OU enabled, and a refused call has changed nothing. -/
theorem search_ou_stays_enabled {calls : List (τ × Action)} (hstart : Start w) (hrun : Run ConsiderateStep w calls w') :
    SomeEnabled w'.rows ∧ (∀ t a next, w'.act t a = some next → a ≠ .commit → next.rows = w'.rows) ∧
      ∀ t a next text, w'.act t a = some next → next.calls t = .refused text → next.rows = w'.rows := by
  have hkept : Kept w' := by
    refine hrun.invariant ?_ hstart.kept
    intro w x next h ⟨hact, hconsiderate⟩
    exact kept_act h hact hconsiderate
  refine ⟨hkept.enabled, fun t a next hact ha => rows_of_act hact ha, ?_⟩
  intro t a next text hact hrefused
  apply rows_of_act hact
  rintro rfl
  exact commit_not_refused hact hrefused

end Enabled

section Race

def ouRow (id : Nat) (enabled : Bool) : SearchOu :=
  ⟨id, "OU=Lab" ++ toString id ++ ",DC=example,DC=test", "Lab", enabled, 0⟩

def ouWorld (rows : List SearchOu) : World Bool := ⟨rows, rows.length + 1, fun _ => none, fun _ => .idle⟩

def disable : OuPatch := { enabled := some false }

def bothDisable : List (Bool × Action) :=
  [(false, .update 1 disable), (true, .update 2 disable), (false, .countEnabled), (true, .countEnabled),
    (false, .commit), (true, .commit)]

theorem start_two : Start (ouWorld [ouRow 1 true, ouRow 2 true]) :=
  ⟨fun _ => rfl, by decide, by decide, ouRow 1 true, by decide, rfl⟩

theorem start_three : Start (ouWorld [ouRow 1 true, ouRow 2 true, ouRow 3 true]) :=
  ⟨fun _ => rfl, by decide, by decide, ouRow 1 true, by decide, rfl⟩

/-- Each of the two calls has still seen the OU of the other enabled. -/
theorem both_search_ous_disabled : ∃ (w : World Bool) (calls : List (Bool × Action)) (w' : World Bool), Start w ∧
    Run (fun w x w' => w.act x.1 x.2 = some w') w calls w' ∧ ¬ SomeEnabled w'.rows := by
  have hrows : (bothDisable.foldlM (fun (w : World Bool) x => w.act x.1 x.2) (ouWorld [ouRow 1 true, ouRow 2 true])).map World.rows =
      some [ouRow 1 false, ouRow 2 false] := by decide +kernel
  obtain ⟨w', hrun, hrows⟩ := Option.map_eq_some_iff.mp hrows
  refine ⟨_, bothDisable, w', start_two, Run.of_foldlM hrun, ?_⟩
  simp [hrows, SomeEnabled, ouRow]

/-- With a third OU enabled the same calls are considerate. -/
theorem third_ou_stays_enabled : ∃ w' : World Bool,
    Run ConsiderateStep (ouWorld [ouRow 1 true, ouRow 2 true, ouRow 3 true]) bothDisable w' ∧ SomeEnabled w'.rows := by
  have hrun : ∃ w', Run ConsiderateStep (ouWorld [ouRow 1 true, ouRow 2 true, ouRow 3 true]) bothDisable w' := by
    refine ⟨_, .snoc (.snoc (.snoc (.snoc (.snoc (.snoc (.nil _) ⟨rfl, by simp⟩) ⟨rfl, by simp⟩) ⟨rfl, by simp⟩)
      ⟨rfl, by simp⟩) ⟨rfl, fun _ j hj u i hu hi => ?_⟩) ⟨rfl, fun _ j hj u i hu hi => ?_⟩⟩
    · cases u with
      | false => exact hi.elim
      | true => exact absurd rfl hu
    · cases u with
      | false => exact absurd rfl hu
      | true =>
        obtain ⟨rfl, _⟩ : j = 1 ∧ _ := hj
        obtain ⟨rfl, _⟩ : i = 2 ∧ _ := hi
        exact ⟨ouRow 3 true, by decide, rfl, by decide, by decide⟩
  obtain ⟨w', hrun⟩ := hrun
  exact ⟨w', hrun, (search_ou_stays_enabled start_three hrun).1⟩

end Race

end ProxmoxVEAutopilot.Monitor.SearchOus
