import ProxmoxVEAutopilot.Foundation.Lists
import ProxmoxVEAutopilot.Telemetry.WorkItems

/-!
# Work items are handed out once and end once

An item leaves `pending` and the open statuses for good, and only under the lock of its row.
-/

namespace ProxmoxVEAutopilot.Telemetry

open Foundation
set_option autoImplicit false

section Rows

/-- What an item may become. -/
structure Later (row row' : WorkItem) : Prop where
  id : row'.id = row.id
  agent : row'.agentId = row.agentId
  claimed : row.status ≠ .pending → row'.status ≠ .pending
  ended : row.status.open = false → row' = row

theorem Later.refl (row : WorkItem) : Later row row := ⟨rfl, rfl, fun h => h, fun _ => rfl⟩

theorem Later.trans {a b c : WorkItem} (hab : Later a b) (hbc : Later b c) : Later a c where
  id := hbc.id.trans hab.id
  agent := hbc.agent.trans hab.agent
  claimed := fun h => hbc.claimed (hab.claimed h)
  ended := by
    intro h
    have hb := hab.ended h
    subst hb
    exact hbc.ended h

theorem later_claim {row : WorkItem} (h : row.status = .pending) (now : Int) : Later row (row.claim now) where
  id := rfl
  agent := rfl
  claimed := fun hne => absurd h hne
  ended := fun hended => by rw [h] at hended; cases hended

theorem status_ended (report : Report) : report.status.open = false := by
  unfold Report.status
  split <;> rfl

theorem later_report {row : WorkItem} {report : Report} (h : report.matches row = true) (now : Int) :
    Later row (report.apply now row) where
  id := rfl
  agent := rfl
  claimed := by
    intro _ hpending
    have hended := status_ended report
    rw [show report.status = .pending from hpending] at hended
    cases hended
  ended := by
    intro hended
    unfold Report.matches at h
    rw [hended, Bool.and_false] at h
    cases h

theorem mem_modify_of_mem {items : List WorkItem} {row : WorkItem} {f : WorkItem → WorkItem} (hids : (items.map WorkItem.id).Nodup)
    (hrow : row ∈ items) {other : WorkItem} :
    other ∈ Table.modify WorkItem.id items row.id f ↔ (other ∈ items ∧ other.id ≠ row.id) ∨ other = f row := by
  rw [Table.mem_modify]
  refine or_congr_right ⟨fun ⟨old, hold, hid, heq⟩ => ?_, fun heq => ⟨row, hrow, rfl, heq⟩⟩
  rwa [List.inj_on_of_nodup_map hids hold hrow hid] at heq

end Rows

section Held
variable {τ : Type} [DecidableEq τ] {device : τ → String} {requests : τ → Request} {start : List WorkItem}
  {w : WorkDb τ} {t u : τ}

/-- What a transaction relies on. -/
def Relies (items : List WorkItem) (locks : Locks ItemId τ) (agent : String) (t : τ) : Tx → Prop
  | .scanning agentId _ _ => agentId = agent
  | .granted row => locks row.id = some t ∧ row ∈ items ∧ row.status = .pending ∧ row.agentId = agent
  | .reporting report => report.agentId = agent
  | .found report => report.agentId = agent
  | .held report row => locks row.id = some t ∧ row ∈ items ∧ report.matches row = true ∧ report.agentId = agent
  | .done (.item row) => ∃ row' ∈ items, row'.id = row.id ∧ row'.status ≠ .pending
  | .done (.accepted report) => ∃ row ∈ items, row.id = report.id ∧ row.status = report.status ∧
      row.result = report.result ∧ row.error = report.error
  | _ => True

/-- What is left to a transaction by the others. -/
structure Spares (w : WorkDb τ) (u : τ) (items : List WorkItem) (locks : Locks ItemId τ) : Prop where
  later : ∀ row ∈ w.items, ∃ row' ∈ items, Later row row'
  locked : ∀ row ∈ w.items, w.locks row.id = some u → row ∈ items
  locks : ∀ id, w.locks id = some u → locks id = some u

omit [DecidableEq τ] in
theorem Relies.stable {tx : Tx} {agent : String} {items : List WorkItem} {locks : Locks ItemId τ}
    (h : Relies w.items w.locks agent u tx) (hspares : Spares w u items locks) :
    Relies items locks agent u tx := by
  unfold Relies at *
  split at h
  · exact h
  · obtain ⟨hlock, hrow, hpending, hagent⟩ := h
    exact ⟨hspares.locks _ hlock, hspares.locked _ hrow hlock, hpending, hagent⟩
  · exact h
  · exact h
  · obtain ⟨hlock, hrow, hmatches, hagent⟩ := h
    exact ⟨hspares.locks _ hlock, hspares.locked _ hrow hlock, hmatches, hagent⟩
  · obtain ⟨row', hrow', hid, hclaimed⟩ := h
    obtain ⟨row'', hmem, hlater⟩ := hspares.later row' hrow'
    exact ⟨row'', hmem, hlater.id.trans hid, hlater.claimed hclaimed⟩
  · rename_i report
    obtain ⟨row, hrow, hid, hstatus, hresult, herror⟩ := h
    obtain ⟨row', hmem, hlater⟩ := hspares.later row hrow
    have hsame := hlater.ended (hstatus ▸ status_ended report)
    subst hsame
    exact ⟨_, hmem, hid, hstatus, hresult, herror⟩
  · trivial

structure Kept (device : τ → String) (start : List WorkItem) (w : WorkDb τ) : Prop where
  ids : (w.items.map WorkItem.id).Nodup
  txs : ∀ t, Relies w.items w.locks (device t) t (w.tx t)
  handed : ∀ t u row row', w.tx t = .done (.item row) → w.tx u = .done (.item row') → row.id = row'.id → t = u
  accepted : ∀ t u report report', w.tx t = .done (.accepted report) → w.tx u = .done (.accepted report') →
    report.id = report'.id → t = u
  ends : ∀ row ∈ w.items, row.status.open = false →
    row ∈ start ∨ ∃ t report, w.tx t = .done (.accepted report) ∧ report.id = row.id
  first : ∀ row ∈ start, row.status.open = false →
    row ∈ w.items ∧ ∀ t report, w.tx t = .done (.accepted report) → report.id ≠ row.id

omit [DecidableEq τ] in
theorem Kept.not_handed (h : Kept device start w) {old row : WorkItem} (hold : old ∈ w.items) (hpending : old.status = .pending)
    (hid : old.id = row.id) (u : τ) : w.tx u ≠ .done (.item row) := by
  intro hu
  have hrelies := h.txs u
  rw [hu] at hrelies
  obtain ⟨row', hrow', hid', hclaimed⟩ := hrelies
  rw [List.inj_on_of_nodup_map h.ids hrow' hold (hid'.trans hid.symm)] at hclaimed
  exact hclaimed hpending

omit [DecidableEq τ] in
theorem Kept.not_accepted (h : Kept device start w) {old : WorkItem} (hold : old ∈ w.items) (hopen : old.status.open = true)
    {report : Report} (hid : old.id = report.id) (u : τ) : w.tx u ≠ .done (.accepted report) := by
  intro hu
  have hrelies := h.txs u
  rw [hu] at hrelies
  obtain ⟨row, hrow, hid', hstatus, _⟩ := hrelies
  rw [← List.inj_on_of_nodup_map h.ids hrow hold (hid'.trans hid.symm), hstatus, status_ended] at hopen
  cases hopen

theorem Kept.move (h : Kept device start w) {items : List WorkItem} {locks : Locks ItemId τ} {tx : Tx}
    (hlater : ∀ row ∈ w.items, ∃ row' ∈ items, Later row row') (hspares : ∀ u, u ≠ t → Spares w u items locks)
    (hids : (items.map WorkItem.id).Nodup)
    (htx : Relies items locks (device t) t tx) (hrunning : ∀ answer, w.tx t ≠ .done answer)
    (hitem : ∀ row, tx = .done (.item row) → ∃ old ∈ w.items, old.id = row.id ∧ old.status = .pending)
    (haccept : ∀ report, tx = .done (.accepted report) → ∃ old ∈ w.items, old.id = report.id ∧ old.status.open = true)
    (hends : ∀ row ∈ items, row.status.open = false →
      row ∈ w.items ∨ ∃ report, tx = .done (.accepted report) ∧ report.id = row.id) :
    Kept device start ⟨items, locks, Function.update w.tx t tx⟩ := by
  have hother : ∀ {u answer}, w.tx u = .done answer → Function.update w.tx t tx u = .done answer := by
    intro u answer hu
    rw [Function.update_of_ne, hu]
    rintro rfl
    exact hrunning answer hu
  have hcases : ∀ {u answer}, Function.update w.tx t tx u = .done answer →
      (u = t ∧ tx = .done answer) ∨ w.tx u = .done answer := by
    intro u answer hu
    by_cases heq : u = t
    · subst heq
      rw [Function.update_self] at hu
      exact .inl ⟨rfl, hu⟩
    · rw [Function.update_of_ne heq] at hu
      exact .inr hu
  constructor
  · exact hids
  · intro u
    dsimp only
    by_cases hu : u = t
    · subst hu
      rwa [Function.update_self]
    · rw [Function.update_of_ne hu]
      exact (h.txs u).stable (hspares u hu)
  · intro u v row row' hu hv hid
    rcases hcases hu with ⟨rfl, hnew⟩ | hu' <;> rcases hcases hv with ⟨rfl, hnew'⟩ | hv'
    · rfl
    · obtain ⟨old, hold, hid', hpending⟩ := hitem row hnew
      exact absurd hv' (h.not_handed hold hpending (hid'.trans hid) v)
    · obtain ⟨old, hold, hid', hpending⟩ := hitem row' hnew'
      exact absurd hu' (h.not_handed hold hpending (hid'.trans hid.symm) u)
    · exact h.handed u v row row' hu' hv' hid
  · intro u v report report' hu hv hid
    rcases hcases hu with ⟨rfl, hnew⟩ | hu' <;> rcases hcases hv with ⟨rfl, hnew'⟩ | hv'
    · rfl
    · obtain ⟨old, hold, hid', hopen⟩ := haccept report hnew
      exact absurd hv' (h.not_accepted hold hopen (hid'.trans hid) v)
    · obtain ⟨old, hold, hid', hopen⟩ := haccept report' hnew'
      exact absurd hu' (h.not_accepted hold hopen (hid'.trans hid.symm) u)
    · exact h.accepted u v report report' hu' hv' hid
  · intro row hrow hended
    rcases hends row hrow hended with hold | ⟨report, hnew, hid⟩
    · rcases h.ends row hold hended with hstart | ⟨u, report, hu, hid⟩
      · exact .inl hstart
      · exact .inr ⟨u, report, hother hu, hid⟩
    · exact .inr ⟨t, report, (Function.update_self _ _ _).trans hnew, hid⟩
  · intro row hrow hended
    obtain ⟨hmem, hnone⟩ := h.first row hrow hended
    obtain ⟨row', hrow', hsame⟩ := hlater row hmem
    have hsame := hsame.ended hended
    subst hsame
    refine ⟨hrow', fun u report hu hid => ?_⟩
    rcases hcases hu with ⟨rfl, hnew⟩ | hu
    · obtain ⟨old, hold, hid', hopen⟩ := haccept report hnew
      rw [List.inj_on_of_nodup_map h.ids hold hmem (hid'.trans hid), hended] at hopen
      cases hopen
    · exact hnone u report hu hid

/-- No item is handed out and no report accepted. -/
def Tx.Plain : Tx → Prop
  | .done (.item _) | .done (.accepted _) => False
  | _ => True

theorem Kept.step (h : Kept device start w) {locks : Locks ItemId τ} {tx : Tx}
    (hlocks : ∀ id u, u ≠ t → w.locks id = some u → locks id = some u) (htx : Relies w.items locks (device t) t tx)
    (hrunning : ∀ answer, w.tx t ≠ .done answer) (hplain : tx.Plain) :
    Kept device start ⟨w.items, locks, Function.update w.tx t tx⟩ :=
  have hsame : ∀ row ∈ w.items, ∃ row' ∈ w.items, Later row row' := fun row hrow => ⟨row, hrow, .refl row⟩
  h.move hsame (fun u hu => ⟨hsame, fun _ hrow _ => hrow, fun id => hlocks id u hu⟩) h.ids htx hrunning
    (fun _ heq => (heq ▸ hplain).elim) (fun _ heq => (heq ▸ hplain).elim) fun _ hrow _ => .inl hrow

omit [DecidableEq τ] in
theorem relies_done (items : List WorkItem) (locks : Locks ItemId τ) (agent : String) {answer : Answer}
    (hplain : (Tx.done answer).Plain) : Relies items locks agent t (.done answer) := by
  cases answer with
  | item row => exact hplain.elim
  | accepted report => exact hplain.elim
  | _ => trivial

theorem Kept.quit (h : Kept device start w) {answer : Answer} (hrunning : ∀ answer, w.tx t ≠ .done answer)
    (hplain : (Tx.done answer).Plain) : Kept device start (w.finish t w.items answer) :=
  h.step (fun _ _ hu hlock => Locks.release_keeps hlock hu) (relies_done _ _ _ hplain) hrunning hplain

theorem Kept.commit (h : Kept device start w) {row : WorkItem} {f : WorkItem → WorkItem} {answer : Answer}
    (hlock : w.locks row.id = some t) (hrow : row ∈ w.items) (hf : ∀ row, (f row).id = row.id) (hlater : Later row (f row))
    (hrunning : ∀ answer, w.tx t ≠ .done answer)
    (htx : ∀ items, f row ∈ items → Relies items (w.locks.release t) (device t) t (.done answer))
    (hitem : ∀ given, answer = .item given → row.id = given.id ∧ row.status = .pending)
    (haccept : ∀ report, answer = .accepted report → row.id = report.id ∧ row.status.open = true)
    (hends : (f row).status.open = false → ∃ report, answer = .accepted report ∧ report.id = row.id) :
    Kept device start (w.finish t (Table.modify WorkItem.id w.items row.id f) answer) := by
  have hmem : ∀ {other}, other ∈ Table.modify WorkItem.id w.items row.id f ↔
      (other ∈ w.items ∧ other.id ≠ row.id) ∨ other = f row := mem_modify_of_mem h.ids hrow
  have hlaters : ∀ other ∈ w.items, ∃ other' ∈ Table.modify WorkItem.id w.items row.id f, Later other other' := by
    intro other hother
    by_cases hid : other.id = row.id
    · rw [List.inj_on_of_nodup_map h.ids hother hrow hid]
      exact ⟨f row, hmem.mpr (.inr rfl), hlater⟩
    · exact ⟨other, hmem.mpr (.inl ⟨hother, hid⟩), .refl other⟩
  refine h.move hlaters
    (fun u hu => ⟨hlaters, fun other hother hheld => ?_, fun id hheld => Locks.release_keeps hheld hu⟩)
    ?_ (htx _ (hmem.mpr (.inr rfl))) hrunning (fun given heq => ?_) (fun report heq => ?_) fun other hother hended => ?_
  · refine hmem.mpr (.inl ⟨hother, fun hid => hu ?_⟩)
    rw [hid, hlock] at hheld
    exact (Option.some.inj hheld).symm
  · rw [Table.map_modify hf]
    exact h.ids
  · cases heq
    exact ⟨row, hrow, hitem given rfl⟩
  · cases heq
    exact ⟨row, hrow, haccept report rfl⟩
  · rcases hmem.mp hother with ⟨hold, _⟩ | rfl
    · exact .inl hold
    · obtain ⟨report, rfl, hid⟩ := hends hended
      exact .inr ⟨report, rfl, hid.trans (hf row).symm⟩

omit [DecidableEq τ] in
theorem Kept.create (h : Kept device start w) {item : WorkItem} (hfresh : ∀ other ∈ w.items, other.id ≠ item.id)
    (hpending : item.status = .pending) : Kept device start { w with items := w.items ++ [item] } where
  ids := nodup_map_snoc h.ids hfresh
  txs := by
    intro t
    exact (h.txs t).stable ⟨fun row hrow => ⟨row, List.mem_append_left _ hrow, .refl row⟩,
      fun _ hrow _ => List.mem_append_left _ hrow, fun _ hlock => hlock⟩
  handed := h.handed
  accepted := h.accepted
  ends := by
    intro row hrow hended
    rcases List.mem_append.mp hrow with hold | hnew
    · exact h.ends row hold hended
    · rw [List.mem_singleton.mp hnew, hpending] at hended
      cases hended
  first := fun row hrow hended => ⟨List.mem_append_left _ (h.first row hrow hended).1, (h.first row hrow hended).2⟩

omit [DecidableEq τ] in
theorem mem_newest {id : ItemId} {row : WorkItem} (h : w.newest id = some row) : row ∈ w.items ∧ row.id = id := by
  have hid := List.find?_some h
  exact ⟨List.mem_of_find?_eq_some h, of_decide_eq_true hid⟩

omit [DecidableEq τ] in
theorem relies_begin (items : List WorkItem) (locks : Locks ItemId τ) (agent : String) (request : Request) :
    Relies items locks agent t (begin items agent request) ∧ (begin items agent request).Plain := by
  have hdone : ∀ {answer : Answer}, (Tx.done answer).Plain →
      Relies items locks agent t (.done answer) ∧ (Tx.done answer).Plain :=
    fun hplain => ⟨relies_done items locks agent hplain, hplain⟩
  unfold begin
  cases request with
  | nextWork agentId supportedKinds =>
    dsimp only
    split
    · exact hdone trivial
    · rename_i hagent
      split
      · exact hdone trivial
      · exact ⟨not_not.mp hagent, trivial⟩
  | completeWork agentId id result =>
    dsimp only
    split
    · exact hdone trivial
    · rename_i hagent
      exact ⟨not_not.mp hagent, trivial⟩
  | failWork agentId id error result =>
    dsimp only
    split
    · exact hdone trivial
    · rename_i hagent
      exact ⟨not_not.mp hagent, trivial⟩
  | postHash body =>
    dsimp only
    split
    · split <;> exact hdone trivial
    · split
      · exact hdone trivial
      · split
        · exact hdone trivial
        · split
          · exact hdone trivial
          · exact ⟨rfl, trivial⟩

omit [DecidableEq τ] in
theorem acquire_others {id : ItemId} (hfree : ¬ (w.locks id ≠ none ∧ w.locks id ≠ some t)) (other : ItemId) (u : τ)
    (_ : u ≠ t) (hlock : w.locks other = some u) : w.locks.acquire id t other = some u := by
  rw [not_and_or, not_not, not_not] at hfree
  exact Locks.acquire_keeps hfree hlock

theorem kept_exec (h : Kept device start w) (e : WorkEvent τ) : Kept device start (execWork device requests w e) := by
  unfold execWork
  cases e with
  | go t now =>
    have hrelies := h.txs t
    have hrunning : ∀ {tx}, w.tx t = tx → (∀ answer, tx ≠ .done answer) → ∀ answer, w.tx t ≠ .done answer :=
      fun htx hne answer heq => hne answer (htx.symm.trans heq)
    dsimp only
    split
    · rename_i htx
      obtain ⟨hbegin, hplain⟩ := relies_begin (t := t) w.items w.locks (device t) (requests t)
      exact h.step (fun _ _ _ hlock => hlock) hbegin (hrunning htx fun _ => Tx.noConfusion) hplain
    · rename_i htx
      exact h.quit (hrunning htx fun _ => Tx.noConfusion) trivial
    · rename_i agentId kinds row rest htx
      rw [htx] at hrelies
      have hrunning := hrunning htx fun _ => Tx.noConfusion
      split
      · exact h.step (fun _ _ _ hlock => hlock) hrelies hrunning trivial
      · rename_i hfree
        split
        · exact h.step (fun _ _ _ hlock => hlock) hrelies hrunning trivial
        · rename_i found hfound
          obtain ⟨hmem, hid⟩ := mem_newest hfound
          rw [← hid] at hfree
          split
          · rename_i hclaimable
            unfold claimable at hclaimable
            simp only [Bool.and_eq_true, decide_eq_true_eq] at hclaimable
            have hself := Locks.acquire_self w.locks found.id t
            exact h.step (acquire_others hfree) ⟨hself, hmem, hclaimable.1.2, hclaimable.1.1.trans hrelies⟩ hrunning trivial
          · exact h.step (acquire_others hfree) hrelies hrunning trivial
    · rename_i row htx
      rw [htx] at hrelies
      obtain ⟨hlock, hrow, hpending, hagent⟩ := hrelies
      refine h.commit hlock hrow (fun _ => rfl) (later_claim hpending now) (hrunning htx fun _ => Tx.noConfusion)
        (fun items hmem => ⟨_, hmem, rfl, fun heq => by cases heq⟩) (fun given heq => ?_) (fun _ => Answer.noConfusion)
        fun heq => by cases heq
      cases heq
      exact ⟨rfl, hpending⟩
    · rename_i report htx
      rw [htx] at hrelies
      have hrunning := hrunning htx fun _ => Tx.noConfusion
      split
      · exact h.step (fun _ _ _ hlock => hlock) hrelies hrunning trivial
      · exact h.quit hrunning trivial
    · rename_i report htx
      rw [htx] at hrelies
      have hrunning := hrunning htx fun _ => Tx.noConfusion
      split
      · exact h
      · rename_i hfree
        split
        · exact h.quit hrunning trivial
        · rename_i found hfound
          obtain ⟨hmem, hid⟩ := mem_newest hfound
          rw [← hid] at hfree
          split
          · rename_i hmatches
            have hself := Locks.acquire_self w.locks found.id t
            exact h.step (acquire_others hfree) ⟨hself, hmem, hmatches, hrelies⟩ hrunning trivial
          · exact h.quit hrunning trivial
    · rename_i report row htx
      rw [htx] at hrelies
      obtain ⟨hlock, hrow, hmatches, hagent⟩ := hrelies
      have hrow' := hmatches
      unfold Report.matches at hrow'
      simp only [Bool.and_eq_true, decide_eq_true_eq] at hrow'
      refine h.commit hlock hrow (fun _ => rfl) (later_report hmatches now) (hrunning htx fun _ => Tx.noConfusion)
        (fun items hmem => ⟨_, hmem, hrow'.1.1, rfl, rfl, rfl⟩) (fun _ => Answer.noConfusion) (fun other heq => ?_)
        fun _ => ⟨report, rfl, hrow'.1.1.symm⟩
      cases heq
      exact ⟨hrow'.1.1, hrow'.2⟩
    · exact h
  | lose t =>
    dsimp only
    split
    · exact h
    · rename_i hrunning
      exact h.quit hrunning trivial
  | create item =>
    dsimp only
    split
    · exact h
    · rename_i hcreate
      obtain ⟨hfresh, hpending⟩ := not_or.mp hcreate
      refine h.create (fun other hother hid => hfresh ?_) (not_not.mp hpending)
      exact List.any_eq_true.mpr ⟨other, hother, decide_eq_true hid⟩

/-- What an event does to the rows: one row of the agent that has sent the request moves on, or a
new row comes. -/
theorem items_exec (h : Kept device start w) (requests : τ → Request) (e : WorkEvent τ) :
    (execWork device requests w e).items = w.items ∨
    (∃ item, (execWork device requests w e).items = w.items ++ [item]) ∨
    ∃ t now row f, e = .go t now ∧ row ∈ w.items ∧ row.agentId = device t ∧ Later row (f row) ∧
      (execWork device requests w e).items = Table.modify WorkItem.id w.items row.id f := by
  unfold execWork
  cases e with
  | go t now =>
    have hrelies := h.txs t
    dsimp only
    split
    · exact .inl rfl
    · exact .inl rfl
    · split
      · exact .inl rfl
      · split <;> exact .inl rfl
    · rename_i row htx
      rw [htx] at hrelies
      obtain ⟨_, hrow, hpending, hagent⟩ := hrelies
      exact .inr (.inr ⟨t, now, row, _, rfl, hrow, hagent, later_claim hpending now, rfl⟩)
    · split <;> exact .inl rfl
    · split
      · exact .inl rfl
      · split
        · exact .inl rfl
        · split <;> exact .inl rfl
    · rename_i report row htx
      rw [htx] at hrelies
      obtain ⟨_, hrow, hmatches, hagent⟩ := hrelies
      have hrow' := hmatches
      unfold Report.matches at hrow'
      simp only [Bool.and_eq_true, decide_eq_true_eq] at hrow'
      exact .inr (.inr ⟨t, now, row, _, rfl, hrow, hrow'.1.2.trans hagent, later_report hmatches now, rfl⟩)
    · exact .inl rfl
  | lose t =>
    dsimp only
    split <;> exact .inl rfl
  | create item =>
    dsimp only
    split
    · exact .inl rfl
    · exact .inr (.inl ⟨item, rfl⟩)

theorem later_exec (h : Kept device start w) (requests : τ → Request) (e : WorkEvent τ) :
    ∀ row ∈ w.items, ∃ row' ∈ (execWork device requests w e).items, Later row row' := by
  intro row hrow
  rcases items_exec h requests e with heq | ⟨item, heq⟩ | ⟨t, now, target, f, _, htarget, _, hlater, heq⟩
  · rw [heq]
    exact ⟨row, hrow, .refl row⟩
  · rw [heq]
    exact ⟨row, List.mem_append_left _ hrow, .refl row⟩
  · rw [heq]
    by_cases hid : row.id = target.id
    · rw [List.inj_on_of_nodup_map h.ids hrow htarget hid]
      exact ⟨_, (mem_modify_of_mem h.ids htarget).mpr (.inr rfl), hlater⟩
    · exact ⟨row, (mem_modify_of_mem h.ids htarget).mpr (.inl ⟨hrow, hid⟩), .refl row⟩

theorem others_exec (h : Kept device start w) (t : τ) (now : Int) :
    ∀ row ∈ w.items, row.agentId ≠ device t → row ∈ (execWork device requests w (.go t now)).items := by
  intro row hrow hagent
  rcases items_exec h requests (.go t now) with heq | ⟨item, heq⟩ | ⟨u, now', target, f, he, htarget, hown, _, heq⟩
  · rwa [heq]
  · rw [heq]
    exact List.mem_append_left _ hrow
  · cases he
    rw [heq]
    refine (mem_modify_of_mem h.ids htarget).mpr (.inl ⟨hrow, fun hid => hagent ?_⟩)
    rwa [List.inj_on_of_nodup_map h.ids hrow htarget hid]

theorem kept_foldl (events : List (WorkEvent τ)) : ∀ {w : WorkDb τ}, Kept device start w →
    Kept device start (events.foldl (execWork device requests) w) := by
  induction events with
  | nil => exact fun h => h
  | cons e events ih => exact fun h => ih (kept_exec h e)

theorem later_foldl (requests : τ → Request) (events : List (WorkEvent τ)) : ∀ {w : WorkDb τ}, Kept device start w →
    ∀ row ∈ w.items, ∃ row' ∈ (events.foldl (execWork device requests) w).items, Later row row' := by
  induction events with
  | nil => exact fun _ row hrow => ⟨row, hrow, .refl row⟩
  | cons e events ih =>
    intro w h row hrow
    obtain ⟨row', hrow', hlater⟩ := later_exec h requests e row hrow
    obtain ⟨row'', hrow'', hlater'⟩ := ih (kept_exec h e) row' hrow'
    exact ⟨row'', hrow'', hlater.trans hlater'⟩

end Held

section Exclusive
variable {τ : Type} [DecidableEq τ]

/-- Items are handed out once and end once, and each agent has its own. -/
structure Exclusive (device : τ → String) (requests : τ → Request) (start : List WorkItem) (w : WorkDb τ) : Prop where
  handedOnce : ∀ t u row row', w.tx t = .done (.item row) → w.tx u = .done (.item row') → row.id = row'.id → t = u
  acceptedOnce : ∀ t u report report', w.tx t = .done (.accepted report) → w.tx u = .done (.accepted report') →
    report.id = report'.id → t = u
  ended : ∀ row ∈ w.items, row.status.open = false → (row ∈ start ∧ ∀ t report, w.tx t = .done (.accepted report) → report.id ≠ row.id) ∨
    ∃ t report, w.tx t = .done (.accepted report) ∧ report.id = row.id ∧ row.status = report.status ∧
      row.result = report.result ∧ row.error = report.error
  final : ∀ row ∈ w.items, row.status.open = false → ∀ events : List (WorkEvent τ),
    row ∈ (events.foldl (execWork device requests) w).items
  own : ∀ t now, ∀ row ∈ w.items, row.agentId ≠ device t → row ∈ (execWork device requests w (.go t now)).items

variable {device : τ → String} {requests : τ → Request} {start : List WorkItem} {w : WorkDb τ}

theorem Kept.exclusive (h : Kept device start w) : Exclusive device requests start w where
  handedOnce := h.handed
  acceptedOnce := h.accepted
  ended := by
    intro row hrow hended
    rcases h.ends row hrow hended with hstart | ⟨t, report, ht, hid⟩
    · exact .inl ⟨hstart, (h.first row hstart hended).2⟩
    · have hrelies := h.txs t
      rw [ht] at hrelies
      obtain ⟨row', hrow', hid', hfields⟩ := hrelies
      rw [List.inj_on_of_nodup_map h.ids hrow' hrow (hid'.trans hid)] at hfields
      exact .inr ⟨t, report, ht, hid, hfields⟩
  final := by
    intro row hrow hended events
    obtain ⟨row', hrow', hlater⟩ := later_foldl requests events h row hrow
    rwa [← hlater.ended hended]
  own := others_exec h

theorem work_items_exclusive (device : τ → String) (requests : τ → Request) {start : List WorkItem}
    (hids : (start.map WorkItem.id).Nodup) (events : List (WorkEvent τ)) :
    Exclusive device requests start (events.foldl (execWork device requests) ⟨start, fun _ => none, fun _ => .idle⟩) := by
  have hstart : Kept device start ⟨start, fun _ => none, fun _ => .idle⟩ :=
    ⟨hids, fun _ => trivial, fun _ _ _ _ h => (nomatch h), fun _ _ _ _ h => (nomatch h), fun _ hrow _ => .inl hrow,
      fun _ hrow _ => ⟨hrow, fun _ _ h => (nomatch h)⟩⟩
  exact (kept_foldl events hstart).exclusive

def hashItem : WorkItem where
  id := "item"
  agentId := "agent"
  kind := "hash"
  createdAt := 0
  updatedAt := 0

def hashRequests : Fin 4 → Request :=
  ![.nextWork "agent" ["hash"], .nextWork "agent" ["hash"], .completeWork "agent" "item" (.obj []),
    .failWork "agent" "item" "late" (.obj [])]

def hashEvents : List (WorkEvent (Fin 4)) :=
  [.go 0 1, .go 1 1, .go 0 2, .go 1 2, .go 2 2, .go 0 3, .go 2 3, .go 3 3, .go 3 4, .go 2 4, .go 3 5, .go 1 5, .go 2 5,
    .go 3 6]

theorem hash_item_exclusive :
    Exclusive (fun _ => "agent") hashRequests [hashItem]
      (hashEvents.foldl (execWork (fun _ => "agent") hashRequests) ⟨[hashItem], fun _ => none, fun _ => .idle⟩) ∧
    (hashEvents.foldl (execWork (fun _ => "agent") hashRequests) ⟨[hashItem], fun _ => none, fun _ => .idle⟩).items.map
      WorkItem.status = [.complete] :=
  ⟨work_items_exclusive (fun _ => "agent") hashRequests (by decide) hashEvents, by decide +kernel⟩

end Exclusive

end ProxmoxVEAutopilot.Telemetry
