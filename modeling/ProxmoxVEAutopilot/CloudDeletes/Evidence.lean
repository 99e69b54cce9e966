import ProxmoxVEAutopilot.CloudDeletes.Deletions

/-!
# What a deletion job says it did

A final state rests on a reply about the object of the item, and the object has one row in
`deletions`, which says the same. The objects are those that were asked for.
-/

namespace ProxmoxVEAutopilot.CloudDeletes

open Foundation
set_option autoImplicit false

section Rows

/-- What is known of an item from where its tasks stand, `rows` being those of its object. -/
structure Settled (slot : Slot) (rows : List Deletion) : Prop where
  fresh : slot.del = none ∨ slot.del = some .created → slot.item.state = .pending
  busy : ∀ pc, slot.del = some pc → pc.active = true → slot.item.state = .deleting
  passed : slot.del = some .returned → slot.item.state = .verifying ∨ slot.item.state.final = true
  polling : ∀ pc, slot.ver = some pc → pc.over = false → slot.item.state = .verifying
  ended : slot.item.state.final = true →
    (slot.del = some .returned ∨ slot.del = some .raised) ∧ slot.ver.all VerifyPc.over = true
  unwritten : slot.item.state.final = false → rows = []
  written : slot.item.state.final = true →
    rows = [] ∧ (slot.del = some .raised ∨ slot.ver = some .raised) ∨
      ∃ d, rows = [d] ∧ d.Tells slot.item.state

variable {slot slot' : Slot} {rows : List Deletion} {reply : Reply}

theorem Settled.not_final_of_live (h : Settled slot rows) {pc : DeletePc} (hdel : slot.del = some pc)
    (hlive : pc ≠ .returned ∧ pc ≠ .raised) : slot.item.state.final = false := by
  by_contra hfinal
  rcases (h.ended (by simpa using hfinal)).1 with hreturned | hraised
  · rw [hdel] at hreturned
    exact hlive.1 (Option.some.inj hreturned)
  · rw [hdel] at hraised
    exact hlive.2 (Option.some.inj hraised)

theorem Settled.not_final_of_polling (h : Settled slot rows) {pc : VerifyPc} (hver : slot.ver = some pc)
    (hover : pc.over = false) : slot.item.state.final = false := by
  rw [h.polling pc hver hover]
  rfl

theorem Written.record_cases {π : Type} {raised : π} {t : Turn π} {key : Source × String}
    (h : Written raised t key) :
    t.record.toList = [] ∧ t.pc = raised ∨ ∃ d, t.record.toList = [d] ∧ d.Tells t.item.state := by
  rcases h with ⟨hnone, hpc⟩ | ⟨_, d, hd, _, htells⟩
  · exact .inl ⟨by rw [hnone]; rfl, hpc⟩
  · exact .inr ⟨d, by rw [hd]; rfl, htells⟩

theorem Settled.deleted (h : Settled slot rows) {pc : DeletePc} {t : Turn DeletePc} (hdel : slot.del = some pc)
    (hver : slot.ver = none) (hcase : DeleteCase slot.item pc reply t) :
    Settled { slot with item := t.item, del := some t.pc } (rows ++ t.record.toList) := by
  have hrows : rows = [] := h.unwritten (h.not_final_of_live hdel hcase.live)
  subst hrows
  have hpolling : ∀ pc', slot.ver = some pc' → pc'.over = false → t.item.state = .verifying := by
    intro pc' hpc'
    rw [hver] at hpc'
    cases hpc'
  have hover : slot.ver.all VerifyPc.over = true := by
    rw [hver]
    rfl
  cases hcase with
  | going hpc hrecord hactive hstate =>
    have hdeleting : t.item.state = .deleting := by
      rcases hstate with hstate | ⟨hnot, hstate⟩
      · exact hstate
      · rw [hstate]
        rcases hpc with rfl | rfl | rfl
        · exact absurd rfl hnot
        · exact h.busy _ hdel rfl
        · exact h.busy _ hdel rfl
    rw [hrecord]
    refine ⟨fun hfresh => ?_, fun _ _ _ => hdeleting, fun hreturned => ?_, hpolling, fun hfinal => ?_,
      fun _ => rfl, fun hfinal => ?_⟩
    · rcases hfresh with hnone | hcreated
      · cases hnone
      · rw [Option.some.inj hcreated] at hactive
        cases hactive
    · rw [Option.some.inj hreturned] at hactive
      cases hactive
    · rw [hdeleting] at hfinal
      cases hfinal
    · rw [hdeleting] at hfinal
      cases hfinal
  | accepted hpc hrecord hreturned hstate =>
    rw [hrecord, hreturned]
    refine ⟨fun hfresh => ?_, fun pc' hpc' hactive => ?_, fun _ => .inl hstate, hpolling, fun hfinal => ?_,
      fun _ => rfl, fun hfinal => ?_⟩
    · rcases hfresh with hnone | hcreated
      · cases hnone
      · cases hcreated
    · rw [← Option.some.inj hpc'] at hactive
      cases hactive
    · rw [hstate] at hfinal
      cases hfinal
    · rw [hstate] at hfinal
      cases hfinal
  | settled hcall hfinal hgrounds hwritten hpc =>
    refine ⟨fun hfresh => ?_, fun pc' hpc' hactive => ?_, fun _ => .inr hfinal, hpolling, fun _ => ⟨?_, hover⟩,
      fun hnot => ?_, fun _ => ?_⟩
    · rcases hfresh with hnone | hcreated
      · cases hnone
      · rcases hpc with hpc | hpc <;> (rw [hpc] at hcreated; cases hcreated)
    · rw [← Option.some.inj hpc'] at hactive
      rcases hpc with hpc | hpc <;> (rw [hpc] at hactive; cases hactive)
    · rcases hpc with hpc | hpc
      · exact .inl (congrArg some hpc)
      · exact .inr (congrArg some hpc)
    · rw [hfinal] at hnot
      cases hnot
    · rcases hwritten.record_cases with ⟨hnone, hraised⟩ | hone
      · exact .inl ⟨hnone, .inl (congrArg some hraised)⟩
      · exact .inr hone
  | lost hpc _ hitem hrecord hraised =>
    subst hpc
    have hdeleting : t.item.state = .deleting := by
      rw [hitem]
      exact h.busy _ hdel rfl
    rw [hrecord, hraised]
    refine ⟨fun hfresh => ?_, fun pc' hpc' hactive => ?_, fun hreturned => ?_, hpolling, fun hfinal => ?_,
      fun _ => rfl, fun hfinal => ?_⟩
    · rcases hfresh with hnone | hcreated
      · cases hnone
      · cases hcreated
    · rw [← Option.some.inj hpc'] at hactive
      cases hactive
    · cases hreturned
    · rw [hdeleting] at hfinal
      cases hfinal
    · rw [hdeleting] at hfinal
      cases hfinal

theorem VerifyCase.live {item : Item} {pc : VerifyPc} {t : Turn VerifyPc} (h : VerifyCase item pc reply t) :
    pc.over = false := by
  cases h with
  | going hover => exact hover
  | refused hpc =>
    subst hpc
    rfl
  | settled hcall =>
    cases pc with
    | asking => rfl
    | _ => cases hcall
  | lost _ hover => exact hover

theorem Settled.verified (h : Settled slot rows) {pc : VerifyPc} {t : Turn VerifyPc} (hver : slot.ver = some pc)
    (hdel : slot.del = some .returned) (hcase : VerifyCase slot.item pc reply t)
    (hvalid : slot.item.source = .pve → intOfText slot.item.objectId ≠ none) :
    Settled { slot with item := t.item, ver := some t.pc } (rows ++ t.record.toList) := by
  have hrows : rows = [] := h.unwritten (h.not_final_of_polling hver hcase.live)
  subst hrows
  have hverifying := h.polling pc hver hcase.live
  have hfresh : slot.del = none ∨ slot.del = some .created → t.item.state = .pending := by
    intro hfresh
    rw [hdel] at hfresh
    rcases hfresh with hnone | hcreated
    · cases hnone
    · cases hcreated
  have hbusy : ∀ pc', slot.del = some pc' → pc'.active = true → t.item.state = .deleting := by
    intro pc' hpc' hactive
    rw [hdel] at hpc'
    rw [← Option.some.inj hpc'] at hactive
    cases hactive
  have hgoing : t.item.state = .verifying → t.record = none →
      Settled { slot with item := t.item, ver := some t.pc } ([] ++ t.record.toList) := by
    intro hstate hrecord
    rw [hrecord]
    refine ⟨hfresh, hbusy, fun _ => .inl hstate, fun _ _ _ => hstate, fun hfinal => ?_, fun _ => rfl,
      fun hfinal => ?_⟩
    · rw [hstate] at hfinal
      cases hfinal
    · rw [hstate] at hfinal
      cases hfinal
  cases hcase with
  | going _ hrecord _ hstate => exact hgoing (hstate.trans hverifying) hrecord
  | refused _ hsource hnone => exact absurd hnone (hvalid hsource)
  | settled hcall hfinal hgrounds hwritten hpc =>
    have hover : t.pc.over = true := by
      rcases hpc with hpc | hpc <;> (rw [hpc]; rfl)
    refine ⟨hfresh, hbusy, fun _ => .inr hfinal, fun pc' hpc' hnot => ?_, fun _ => ⟨.inl hdel, hover⟩, fun hnot => ?_,
      fun _ => ?_⟩
    · rw [← Option.some.inj hpc', hover] at hnot
      cases hnot
    · rw [hfinal] at hnot
      cases hnot
    · rcases hwritten.record_cases with ⟨hnone, hraised⟩ | hone
      · exact .inl ⟨hnone, .inr (congrArg some hraised)⟩
      · exact .inr hone
  | lost _ _ _ hitem hrecord _ =>
    refine hgoing ?_ hrecord
    rw [hitem]
    exact hverifying

theorem Settled.spawned (h : Settled slot rows) (hspawned : Spawned slot slot') : Settled slot' rows := by
  cases hspawned with
  | kept => exact h
  | delete hnone =>
    have hpending := h.fresh (.inl hnone)
    have hnot : slot.item.state.final = false := by
      rw [hpending]
      rfl
    refine ⟨fun _ => hpending, fun pc hpc hactive => ?_, fun hreturned => ?_, h.polling, fun hfinal => ?_,
      h.unwritten, fun hfinal => ?_⟩
    · rw [← Option.some.inj hpc] at hactive
      cases hactive
    · cases hreturned
    · rw [hnot] at hfinal
      cases hfinal
    · rw [hnot] at hfinal
      cases hfinal
  | verify hdel hnone hverifying =>
    have hnot : slot.item.state.final = false := by
      rw [hverifying]
      rfl
    refine ⟨h.fresh, h.busy, h.passed, fun _ _ _ => hverifying, fun hfinal => ?_, h.unwritten, fun hfinal => ?_⟩
    · rw [hnot] at hfinal
      cases hfinal
    · rw [hnot] at hfinal
      cases hfinal

end Rows

section Runs
variable {n : Nat} {job : Job n} {s : Step n} {repr : String → String} {cut : Nat}

def Job.rowsOf (job : Job n) (i : Fin n) : List Deletion :=
  job.records.filter fun d => d.key = (job.slots i).item.key

/-- The text of a virtual machine's id is the id. -/
def Item.valid (item : Item) : Prop :=
  item.source = .pve → ∃ vmid, intOfText item.objectId = some vmid ∧ toString vmid = item.objectId

structure Evident (job : Job n) : Prop where
  valid : ∀ i, (job.slots i).item.valid
  apart : ∀ i j, (job.slots i).item.key = (job.slots j).item.key → i = j
  settled : ∀ i, Settled (job.slots i) (job.rowsOf i)
  grounded : ∀ i, (job.slots i).item.state.final = true → ∃ e ∈ job.log, e.slot = i ∧
    ∃ reply, e.answer = some reply ∧ Grounds (job.slots i).item (job.slots i).item.state e.call reply
  owned : ∀ d ∈ job.records, ∃ i, d.key = (job.slots i).item.key

theorem Item.valid_of_key {a b : Item} (h : a.key = b.key) (hb : b.valid) : a.valid := by
  have hsource : a.source = b.source := congrArg Prod.fst h
  have hid : a.objectId = b.objectId := congrArg Prod.snd h
  unfold valid
  rw [hsource, hid]
  exact hb

theorem Item.rowKey_of_valid {item : Item} (h : item.valid) : item.rowKey = item.key := by
  unfold rowKey
  split
  · rename_i hsource
    obtain ⟨vmid, hvmid, htext⟩ := h hsource
    unfold key targetId
    rw [hvmid, ← htext]
  · rfl

theorem grounds_of_key {a b : Item} {state : ItemState} {call : Call} {reply : Reply} (h : a.key = b.key)
    (hb : Grounds b state call reply) : Grounds a state call reply := by
  have hsource : a.source = b.source := congrArg Prod.fst h
  have hid : a.objectId = b.objectId := congrArg Prod.snd h
  unfold Grounds ShowsGone ShowsThere Refuses at hb ⊢
  rw [hsource, hid]
  exact hb

/-- The move of one slot among the others. -/
structure Moves (job job' : Job n) (i : Fin n) (new : List (Entry n)) (row : Option Deletion) : Prop where
  keys : ∀ j, (job'.slots j).item.key = (job.slots j).item.key
  others : ∀ j, j ≠ i → job'.slots j = job.slots j
  log : job'.log = job.log ++ new
  records : job'.records = job.records ++ row.toList
  row : ∀ d, row = some d → d.key = (job.slots i).item.key

theorem Evident.moves (h : Evident job) {job' : Job n} {i : Fin n} {new : List (Entry n)} {row : Option Deletion}
    (hmoves : Moves job job' i new row) (hsettled : Settled (job'.slots i) (job.rowsOf i ++ row.toList))
    (hgrounded : (job'.slots i).item.state.final = true → ∃ e ∈ job'.log, e.slot = i ∧ ∃ reply,
      e.answer = some reply ∧ Grounds (job'.slots i).item (job'.slots i).item.state e.call reply) :
    Evident job' := by
  refine ⟨fun j => Item.valid_of_key (hmoves.keys j) (h.valid j), fun j k heq => ?_, fun j => ?_, fun j hfinal => ?_,
    fun d hd => ?_⟩
  · rw [hmoves.keys, hmoves.keys] at heq
    exact h.apart j k heq
  · have hrows : job'.rowsOf j = job.rowsOf j ++ row.toList.filter fun d => d.key = (job.slots j).item.key := by
      unfold Job.rowsOf
      rw [hmoves.records, List.filter_append, hmoves.keys]
    rw [hrows]
    by_cases hj : j = i
    · subst hj
      have hall : row.toList.filter (fun d => d.key = (job.slots j).item.key) = row.toList :=
        List.filter_eq_self.mpr fun d hd => decide_eq_true (hmoves.row d (Option.mem_toList.mp hd))
      rw [hall]
      exact hsettled
    · have hnone : row.toList.filter (fun d => d.key = (job.slots j).item.key) = [] := by
        refine List.filter_eq_nil_iff.mpr fun d hd hkey => hj ?_
        rw [decide_eq_true_eq, hmoves.row d (Option.mem_toList.mp hd)] at hkey
        exact (h.apart i j hkey).symm
      rw [hnone, List.append_nil, hmoves.others j hj]
      exact h.settled j
  · by_cases hj : j = i
    · subst hj
      exact hgrounded hfinal
    · rw [hmoves.others j hj] at hfinal ⊢
      obtain ⟨e, he, hrest⟩ := h.grounded j hfinal
      refine ⟨e, ?_, hrest⟩
      rw [hmoves.log]
      exact List.mem_append.mpr (.inl he)
  · rw [hmoves.records] at hd
    rcases List.mem_append.mp hd with hd | hd
    · obtain ⟨j, hj⟩ := h.owned d hd
      exact ⟨j, hj.trans (hmoves.keys j).symm⟩
    · exact ⟨i, (hmoves.row d (Option.mem_toList.mp hd)).trans (hmoves.keys i).symm⟩

theorem answer_mem_noting {π : Type} {i : Fin n} {call : Call} {reply : Reply} {t : Turn π} :
    (⟨i, job.source i, call, some reply⟩ : Entry n) ∈ noting job i (some call) reply t :=
  List.mem_append.mpr (.inl List.mem_cons_self)

theorem Written.key {π : Type} {raised : π} {t : Turn π} {key : Source × String} (h : Written raised t key)
    {d : Deletion} (hd : t.record = some d) : d.key = key := by
  rcases h with ⟨hnone, _⟩ | ⟨_, d', hd', hkey, _⟩
  · rw [hnone] at hd
    cases hd
  · rw [hd'] at hd
    rw [← Option.some.inj hd]
    exact hkey

theorem evident_deleted (h : Evident job) (ho : Ordered job cut) {i : Fin n} {pc : DeletePc} {reply : Reply}
    {t : Turn DeletePc} (hdel : (job.slots i).del = some pc)
    (hturn : deleteTurn (job.slots i).item pc reply s.clock s.dbUp = some t) :
    Evident { job.deleted i pc reply t with now := s.clock.loop } := by
  obtain ⟨hkey, hcase, _⟩ := deleteTurn_cases (ho.fits i pc hdel) hturn
  have hself : (job.deleted i pc reply t).slots i = _ := deleted_self i pc reply t
  have ht := deleted_turned hkey pc reply s.clock.loop
  have hrow : ∀ d, t.record = some d → d.key = (job.slots i).item.key := by
    intro d hd
    cases hcase with
    | settled _ _ _ hwritten => exact hwritten.key hd
    | going _ hrecord => rw [hrecord] at hd; cases hd
    | accepted _ hrecord => rw [hrecord] at hd; cases hd
    | lost _ _ _ hrecord => rw [hrecord] at hd; cases hd
  have hmoves : Moves job { job.deleted i pc reply t with now := s.clock.loop } i
      (noting job i pc.call reply t) t.record :=
    ⟨ht.keys, ht.others, ht.log, rfl, hrow⟩
  refine h.moves hmoves ?_ fun hfinal => ?_
  · change Settled ((job.deleted i pc reply t).slots i) _
    rw [hself]
    exact (h.settled i).deleted hdel (ho.phased.ver_eq_none hdel hcase.live.1) hcase
  · change ((job.deleted i pc reply t).slots i).item.state.final = true at hfinal
    change ∃ e ∈ (job.deleted i pc reply t).log, e.slot = i ∧ ∃ reply', e.answer = some reply' ∧
      Grounds ((job.deleted i pc reply t).slots i).item ((job.deleted i pc reply t).slots i).item.state e.call reply'
    rw [hself] at hfinal ⊢
    have hlive := (h.settled i).not_final_of_live hdel hcase.live
    cases hcase with
    | @settled call hcall _ hgrounds =>
      refine ⟨⟨i, job.source i, call, some reply⟩, ?_, rfl, reply, rfl, grounds_of_key hkey hgrounds⟩
      rw [deleted_log, hcall]
      exact List.mem_append.mpr (.inr answer_mem_noting)
    | going _ _ _ hstate =>
      rcases hstate with hstate | ⟨_, hstate⟩
      · rw [hstate] at hfinal
        cases hfinal
      · rw [hstate, hlive] at hfinal
        cases hfinal
    | accepted _ _ _ hstate =>
      rw [hstate] at hfinal
      cases hfinal
    | lost _ _ hitem =>
      rw [hitem, hlive] at hfinal
      cases hfinal

theorem evident_verified (h : Evident job) (ho : Ordered job cut) {i : Fin n} {pc : VerifyPc} {reply : Reply}
    {t : Turn VerifyPc} (hver : (job.slots i).ver = some pc)
    (hturn : verifyTurn repr (job.slots i).item pc reply s.clock s.dbUp = some t) :
    Evident { job.verified i pc reply t with now := s.clock.loop } := by
  obtain ⟨hkey, hcase⟩ := verifyTurn_cases hturn
  have hself : (job.verified i pc reply t).slots i = _ := verified_self i pc reply t
  have ht := verified_turned hkey pc reply s.clock.loop
  have hvalid : (job.slots i).item.source = .pve → intOfText (job.slots i).item.objectId ≠ none := by
    intro hsource hnone
    obtain ⟨vmid, hvmid, _⟩ := h.valid i hsource
    rw [hnone] at hvmid
    cases hvmid
  have hrow : ∀ d, t.record = some d → d.key = (job.slots i).item.key := by
    intro d hd
    cases hcase with
    | settled _ _ _ hwritten => exact (hwritten.key hd).trans (Item.rowKey_of_valid (h.valid i))
    | going _ hrecord => rw [hrecord] at hd; cases hd
    | refused _ _ _ hrecord => rw [hrecord] at hd; cases hd
    | lost _ _ _ _ hrecord => rw [hrecord] at hd; cases hd
  have hmoves : Moves job { job.verified i pc reply t with now := s.clock.loop } i
      (noting job i (pc.call (job.source i)) reply t) t.record :=
    ⟨ht.keys, ht.others, ht.log, rfl, hrow⟩
  refine h.moves hmoves ?_ fun hfinal => ?_
  · change Settled ((job.verified i pc reply t).slots i) _
    rw [hself]
    exact (h.settled i).verified hver (ho.phased.begun i (by simp [hver])) hcase hvalid
  · change ((job.verified i pc reply t).slots i).item.state.final = true at hfinal
    change ∃ e ∈ (job.verified i pc reply t).log, e.slot = i ∧ ∃ reply', e.answer = some reply' ∧
      Grounds ((job.verified i pc reply t).slots i).item ((job.verified i pc reply t).slots i).item.state e.call reply'
    rw [hself] at hfinal ⊢
    have hlive := (h.settled i).not_final_of_polling hver hcase.live
    cases hcase with
    | @settled call hcall _ hgrounds =>
      refine ⟨⟨i, job.source i, call, some reply⟩, ?_, rfl, reply, rfl, grounds_of_key hkey hgrounds⟩
      have hcall : pc.call (job.source i) = some call := hcall
      rw [verified_log, hcall]
      exact List.mem_append.mpr (.inr answer_mem_noting)
    | going _ _ _ hstate =>
      rw [hstate, hlive] at hfinal
      cases hfinal
    | refused _ hsource hnone => exact absurd hnone (hvalid hsource)
    | lost _ _ _ hitem =>
      rw [hitem, hlive] at hfinal
      cases hfinal

theorem evident_ran (h : Evident job) (ho : Ordered job cut) (clock : Clock) :
    Evident { job.ranUp clock with now := clock.loop } := by
  obtain ⟨_, _, _, hl⟩ := ranUp_launched clock ho.phased ho.runner ho.bound
  have hitem : ∀ i, ((job.ranUp clock).slots i).item = (job.slots i).item := fun i => (hl.slots i).item
  refine ⟨fun i => ?_, fun i j heq => ?_, fun i => ?_, fun i hfinal => ?_, fun d hd => ?_⟩
  · exact Item.valid_of_key (congrArg Item.key (hitem i)) (h.valid i)
  · exact h.apart i j (((congrArg Item.key (hitem i)).symm.trans heq).trans (congrArg Item.key (hitem j)))
  · have hrows : Job.rowsOf { job.ranUp clock with now := clock.loop } i = job.rowsOf i := by
      unfold Job.rowsOf
      change List.filter (fun d => d.key = ((job.ranUp clock).slots i).item.key) (job.ranUp clock).records = _
      rw [hl.records, hitem]
    rw [hrows]
    exact (h.settled i).spawned (hl.slots i)
  · change ((job.ranUp clock).slots i).item.state.final = true at hfinal
    change ∃ e ∈ (job.ranUp clock).log, e.slot = i ∧ ∃ reply, e.answer = some reply ∧
      Grounds ((job.ranUp clock).slots i).item ((job.ranUp clock).slots i).item.state e.call reply
    rw [hitem] at hfinal ⊢
    rw [hl.log]
    exact h.grounded i hfinal
  · change d ∈ (job.ranUp clock).records at hd
    rw [hl.records] at hd
    obtain ⟨i, hi⟩ := h.owned d hd
    exact ⟨i, hi.trans (congrArg Item.key (hitem i)).symm⟩

theorem exec_evident (repr : String → String) (s : Step n) (h : Evident job) (ho : Ordered job cut) :
    Evident (exec repr job s) := by
  have heffect := exec_effect repr job s
  generalize exec repr job s = job' at heffect
  cases heffect with
  | unchanged => exact h
  | deleted hdel hturn => exact evident_deleted h ho hdel hturn
  | verified hver hturn => exact evident_verified h ho hver hturn
  | ran => exact evident_ran h ho s.clock

theorem start_evident {items : List Item} (hvalid : ∀ item ∈ items, item.valid)
    (hpending : ∀ item ∈ items, item.state = .pending) (hkeys : (items.map Item.key).Nodup) :
    Evident (start items) where
  valid i := hvalid _ (List.get_mem _ _)
  apart i j heq := by
    have hinj := List.nodup_iff_injective_get.mp hkeys
    have hcast : ∀ k : Fin items.length, (items.map Item.key).get (k.cast (List.length_map _).symm) =
        (items.get k).key := fun k => by simp
    have := hinj ((hcast i).trans (heq.trans (hcast j).symm))
    exact Fin.ext (by simpa using congrArg Fin.val this)
  settled i := by
    have hstate : (items.get i).state = .pending := hpending _ (List.get_mem _ _)
    refine ⟨fun _ => hstate, fun _ hpc => ?_, fun hreturned => ?_, fun _ hpc => ?_, fun hfinal => ?_, fun _ => rfl,
      fun hfinal => ?_⟩
    · cases hpc
    · cases hreturned
    · cases hpc
    · change (items.get i).state.final = true at hfinal
      rw [hstate] at hfinal
      cases hfinal
    · change (items.get i).state.final = true at hfinal
      rw [hstate] at hfinal
      cases hfinal
  grounded i hfinal := by
    change (items.get i).state.final = true at hfinal
    rw [hpending _ (List.get_mem _ _)] at hfinal
    cases hfinal
  owned d hd := by cases hd

end Runs

section Targets

/-- The objects that the form asks to delete. -/
def Requested (targets pveSerials : List String) (listing : String → Except String (List Vm)) (item : Item) : Prop :=
  (item.source ≠ .pve ∧ item.objectId ≠ "" ∧ item.source.text ++ ":" ++ item.objectId ∈ targets) ∨
  (item.source = .pve ∧ ∃ serial ∈ pveSerials, ∃ vms, listing serial = .ok vms ∧ ∃ vm ∈ vms,
    vm.name = serial ∧ vm.template = false ∧ vm.tagged = true ∧ item.objectId = toString vm.vmid)

theorem splitColon_some {raw source objectId : String} (h : splitColon raw = some (source, objectId)) :
    raw = source ++ ":" ++ objectId := by
  unfold splitColon at h
  split at h
  · rename_i hcolon
    obtain ⟨rfl, rfl⟩ := Prod.mk.inj (Option.some.inj h)
    have hdrop : (raw.toList.dropWhile (· != ':')) = ':' :: (raw.toList.dropWhile (· != ':')).tail := by
      cases hd : raw.toList.dropWhile (· != ':') with
      | nil =>
        have hall := List.dropWhile_eq_nil_iff.mp hd ':' hcolon
        simp at hall
      | cons c rest =>
        have hc : (c != ':') = false := by
          have hne : raw.toList.dropWhile (· != ':') ≠ [] := by simp [hd]
          have := List.head_dropWhile_not (· != ':') hne
          simpa [hd] using this
        rw [List.tail_cons, bne_eq_false_iff_eq.mp hc]
    apply String.toList_inj.mp
    rw [String.toList_append, String.toList_append, String.toList_ofList, String.toList_ofList, String.toList_ofList]
    have hsplit := List.takeWhile_append_dropWhile (p := (· != ':')) (l := raw.toList)
    rw [hdrop] at hsplit
    rw [List.append_assoc]
    exact hsplit.symm
  · cases h

theorem parseTarget_some {raw : String} {s : Source} {objectId : String} (h : parseTarget raw = some (s, objectId)) :
    s ≠ .pve ∧ objectId ≠ "" ∧ s.text ++ ":" ++ objectId = raw := by
  unfold parseTarget at h
  obtain ⟨⟨source, id⟩, hsplit, h⟩ := Option.bind_eq_some_iff.mp h
  obtain ⟨s', hs, h⟩ := Option.bind_eq_some_iff.mp h
  split at h
  · cases h
  · rename_i hnot
    cases h
    have htext : s.text = source := by simpa using List.find?_some hs
    rw [htext]
    exact ⟨fun hpve => hnot (.inr hpve), fun hempty => hnot (.inl hempty), (splitColon_some hsplit).symm⟩

theorem pveAutopilotVmsBySerial_some {listing : Except String (List Vm)} {serial : String} {vm : Vm}
    (h : pveAutopilotVmsBySerial listing serial = some vm) :
    ∃ vms, listing = .ok vms ∧ vm ∈ vms ∧ vm.name = serial ∧ vm.template = false ∧ vm.tagged = true := by
  unfold pveAutopilotVmsBySerial at h
  cases listing with
  | error e => cases h
  | ok vms =>
    refine ⟨vms, rfl, ?_⟩
    have hall : ∀ vm, (vms.foldl (fun (out : String → Option Vm) vm =>
        if vm.template || !vm.tagged || vm.name = "" then out else Function.update out vm.name (some vm))
          fun _ => none) serial = some vm →
        vm ∈ vms ∧ vm.name = serial ∧ vm.template = false ∧ vm.tagged = true := by
      refine foldl_invariant_of_mem (G := fun out : String → Option Vm => ∀ vm, out serial = some vm →
        vm ∈ vms ∧ vm.name = serial ∧ vm.template = false ∧ vm.tagged = true) ?_ fun _ hnone => by cases hnone
      intro out vm' hmem hout vm hvm
      split at hvm
      · exact hout vm hvm
      · rename_i hkeep
        by_cases hname : serial = vm'.name
        · subst hname
          rw [Function.update_self] at hvm
          cases hvm
          simp only [Bool.or_eq_true, Bool.not_eq_true', decide_eq_true_eq, not_or, Bool.not_eq_true,
            Bool.not_eq_false] at hkeep
          exact ⟨hmem, rfl, hkeep.1.1, hkeep.1.2⟩
        · rw [Function.update_of_ne hname] at hvm
          exact hout vm hvm
    exact hall vm h

theorem foldl_addItem (items : List Item) : ∀ {parsed : List Item}, (parsed.map Item.key).Nodup →
    ((items.foldl addItem parsed).map Item.key).Nodup ∧
      ∀ item ∈ items.foldl addItem parsed, item ∈ parsed ∨ item ∈ items := by
  induction items with
  | nil => exact fun h => ⟨h, fun _ => .inl⟩
  | cons item items ih =>
    intro parsed h
    have hadd : ((addItem parsed item).map Item.key).Nodup := by
      unfold addItem
      split
      · exact h
      · rename_i hnew
        rw [List.map_append, List.nodup_append]
        refine ⟨h, by simp, ?_⟩
        rintro a ha b hb rfl
        rw [List.map_singleton, List.mem_singleton] at hb
        exact hnew (hb ▸ ha)
    obtain ⟨hnodup, hmem⟩ := ih hadd
    refine ⟨hnodup, fun x hx => ?_⟩
    rcases hmem x hx with hin | hin
    · unfold addItem at hin
      split at hin
      · exact .inl hin
      · rcases List.mem_append.mp hin with hin | hin
        · exact .inl hin
        · rw [List.mem_singleton.mp hin]
          exact .inr List.mem_cons_self
    · exact .inr (List.mem_cons_of_mem _ hin)

theorem natural_toDigits (n : Nat) : natural (Nat.toDigits 10 n) = some n := by
  have hdigit : ∀ c ∈ Nat.toDigits 10 n, c.isDigit = true :=
    fun c hc => Nat.isDigit_of_mem_toDigits (by omega) (by omega) hc
  have hread : ∀ (cs : List Char) (value : Nat), (∀ c ∈ cs, c.isDigit = true) →
      digits value cs = some (Nat.ofDigitChars 10 cs value) := by
    intro cs
    induction cs with
    | nil => exact fun value _ => rfl
    | cons c cs ih =>
      intro value hall
      have hc := hall c List.mem_cons_self
      have hne : c ≠ '_' := by
        rintro rfl
        cases hc
      have hstep : digits value (c :: cs) =
          if c.isDigit then digits (10 * value + (c.toNat - 48)) cs else none := by
        conv_lhs => unfold digits
        split
        · cases ‹c :: cs = []›
        · rename_i heq
          exact absurd (List.cons.inj heq).1 hne
        · rename_i heq
          obtain ⟨rfl, rfl⟩ := List.cons.inj heq
          rfl
      rw [hstep, if_pos hc, ih _ fun d hd => hall d (List.mem_cons_of_mem _ hd), Nat.ofDigitChars_cons]
      rfl
  have hvalue := Nat.ofDigitChars_ten_toDigits (n := n)
  cases hd : Nat.toDigits 10 n with
  | nil => exact absurd hd Nat.toDigits_ne_nil
  | cons c cs =>
    rw [hd] at hdigit hvalue
    have hstep : natural (c :: cs) = if c.isDigit then digits (c.toNat - 48) cs else none := rfl
    rw [hstep, if_pos (hdigit c List.mem_cons_self), hread _ _ fun d hd => hdigit d (List.mem_cons_of_mem _ hd)]
    rw [Nat.ofDigitChars_cons] at hvalue
    simpa using hvalue

theorem intOfText_of_plain {text : String} {n : Nat} (h : text.toList = Nat.toDigits 10 n) :
    intOfText text = some (n : Int) ∧ intOfText ("-" ++ text) = some (-(n : Int)) := by
  have hdigit : ∀ c ∈ text.toList, c.isDigit = true := by
    intro c hc
    rw [h] at hc
    exact Nat.isDigit_of_mem_toDigits (by omega) (by omega) hc
  have hspace : ∀ c, c.isDigit = true → isSpace c = false := by
    intro c hc
    have hrange : 48 ≤ c.toNat ∧ c.toNat ≤ 57 := by simpa [Char.isDigit, UInt32.le_iff_toNat_le] using hc
    simp [isSpace]
    omega
  have hstrip : ∀ s : String, (∀ c ∈ s.toList, isSpace c = false) → (strip s).toList = s.toList := by
    intro s hs
    unfold strip
    rw [String.toList_ofList]
    exact trimmed_of_ends (fun c hc => hs c (List.mem_of_mem_head? hc)) fun c hc => hs c (List.mem_of_mem_getLast? hc)
  have hplain := hstrip text fun c hc => hspace c (hdigit c hc)
  have hminus : (strip ("-" ++ text)).toList = '-' :: Nat.toDigits 10 n := by
    rw [hstrip]
    · rw [String.toList_append, h]
      rfl
    · intro c hc
      rw [String.toList_append] at hc
      rcases List.mem_append.mp hc with hc | hc
      · rw [List.mem_singleton.mp hc]
        rfl
      · exact hspace c (hdigit c hc)
  constructor
  · unfold intOfText
    rw [hplain, h]
    split
    · rename_i heq
      rw [← h] at heq
      have := hdigit '-' (by rw [heq]; exact List.mem_cons_self)
      cases this
    · rename_i heq
      rw [← h] at heq
      have := hdigit '+' (by rw [heq]; exact List.mem_cons_self)
      cases this
    · rw [natural_toDigits]
      rfl
  · unfold intOfText
    rw [hminus]
    split
    · rename_i heq
      rw [← (List.cons.inj heq).2, natural_toDigits]
      rfl
    · rename_i heq
      cases (List.cons.inj heq).1
    · rename_i hnot _
      exact absurd rfl (hnot _)

theorem intOfText_toString (v : Int) : intOfText (toString v) = some v := by
  cases v with
  | ofNat n => exact (@intOfText_of_plain (Nat.repr n) n Nat.toList_repr).1
  | negSucc n => exact (@intOfText_of_plain (Nat.repr (n + 1)) (n + 1) Nat.toList_repr).2

variable {targets pveSerials : List String} {listing : String → Except String (List Vm)}

theorem mem_uniqueSerials {serial : String} (h : serial ∈ uniqueSerials pveSerials) :
    serial ∈ pveSerials ∧ serial ≠ "" := by
  have hmem := (List.perm_insertionSort _ _).mem_iff.mp h
  obtain ⟨hin, hne⟩ := List.mem_filter.mp (List.mem_dedup.mp hmem)
  exact ⟨hin, by simpa using hne⟩

theorem mem_cloudDelete {item : Item} (h : item ∈ cloudDelete targets pveSerials listing) :
    Requested targets pveSerials listing item ∧ item.state = .pending ∧ item.valid := by
  have hmem := (List.perm_insertionSort _ _).mem_iff.mp h
  rcases (@foldl_addItem _ [] List.nodup_nil).2 item hmem with hnil | hmem
  · cases hnil
  rcases List.mem_append.mp hmem with hmem | hmem
  · obtain ⟨⟨s, objectId⟩, htarget, rfl⟩ := List.mem_map.mp hmem
    obtain ⟨raw, hraw, hparse⟩ := List.mem_filterMap.mp htarget
    obtain ⟨hs, hid, htext⟩ := parseTarget_some hparse
    exact ⟨.inl ⟨hs, hid, by rw [← htext] at hraw; exact hraw⟩, rfl, fun hpve => absurd hpve hs⟩
  · obtain ⟨serial, hserial, hfound⟩ := List.mem_filterMap.mp hmem
    obtain ⟨vm, hvm, rfl⟩ := Option.map_eq_some_iff.mp hfound
    obtain ⟨hserial, hne⟩ := mem_uniqueSerials hserial
    unfold findPveVmBySerial at hvm
    rw [if_neg hne] at hvm
    obtain ⟨vms, hlisting, hin, hname, htemplate, htagged⟩ := pveAutopilotVmsBySerial_some hvm
    exact ⟨.inr ⟨rfl, serial, hserial, vms, hlisting, vm, hin, hname, htemplate, htagged, rfl⟩, rfl,
      fun _ => ⟨vm.vmid, intOfText_toString vm.vmid, rfl⟩⟩

theorem nodup_keys_cloudDelete (targets pveSerials : List String)
    (listing : String → Except String (List Vm)) :
    ((cloudDelete targets pveSerials listing).map Item.key).Nodup := by
  have hperm := (List.perm_insertionSort (fun a b : Item => a.source.order ≤ b.source.order)
    (((targets.filterMap parseTarget).map targetItem ++ (uniqueSerials pveSerials).filterMap fun serial =>
      (findPveVmBySerial (listing serial) serial).map (pveItem serial)).foldl addItem [])).map Item.key
  exact hperm.nodup_iff.mpr (@foldl_addItem _ [] List.nodup_nil).1

theorem run_evident (repr : String → String) (targets pveSerials : List String)
    (listing : String → Except String (List Vm))
    (steps : List (Step (cloudDelete targets pveSerials listing).length)) :
    Evident (steps.foldl (exec repr) (start (cloudDelete targets pveSerials listing))) := by
  have hstart := start_evident (fun item hitem => (mem_cloudDelete hitem).2.2)
    (fun item hitem => (mem_cloudDelete hitem).2.1)
    (nodup_keys_cloudDelete targets pveSerials listing)
  refine (foldl_invariant (G := fun job : Job _ => Evident job ∧ ∃ cut, Ordered job cut) ?_
    ⟨hstart, 0, start_ordered _⟩).1
  rintro job s ⟨h, cut, ho⟩
  exact ⟨exec_evident repr s h ho, exec_ordered repr s ⟨cut, ho⟩⟩

/-- Over every run of a job: what is deleted was asked for, an item in a final state got a
reply that grounds it, and `deletions` has at most one row for each object, which agrees. -/
theorem deletions_grounded (repr : String → String) (targets pveSerials : List String)
    (listing : String → Except String (List Vm))
    (steps : List (Step (cloudDelete targets pveSerials listing).length)) :
    (∀ e ∈ (steps.foldl (exec repr) (start (cloudDelete targets pveSerials listing))).log,
      Requested targets pveSerials listing ((cloudDelete targets pveSerials listing).get e.slot)) ∧
    ∀ i,
      let job := steps.foldl (exec repr) (start (cloudDelete targets pveSerials listing))
      let item := (job.slots i).item
      (item.state.final = true → ∃ e ∈ job.log, e.slot = i ∧
        ∃ reply, e.answer = some reply ∧ Grounds item item.state e.call reply) ∧
      (job.rowsOf i = [] ∨ ∃ d, job.rowsOf i = [d] ∧ d.Tells item.state) ∧
      ∀ d ∈ job.records, ∃ j, d.key = (job.slots j).item.key := by
  have h := run_evident repr targets pveSerials listing steps
  refine ⟨fun e _ => (mem_cloudDelete (List.get_mem _ _)).1, fun i => ⟨h.grounded i, ?_, h.owned⟩⟩
  have hsettled := h.settled i
  by_cases hfinal : (((steps.foldl (exec repr) (start (cloudDelete targets pveSerials listing))).slots i).item).state.final = true
  · rcases hsettled.written hfinal with ⟨hnone, _⟩ | hone
    · exact .inl hnone
    · exact .inr hone
  · exact .inl (hsettled.unwritten (by simpa using hfinal))

end Targets

end ProxmoxVEAutopilot.CloudDeletes
