import ProxmoxVEAutopilot.CloudDeletes.Job
import ProxmoxVEAutopilot.Foundation.Runs

/-!
# What a deletion job does

Whatever the order of the replies, the deletes of a source wait for those of the sources
before it, an item ends on the evidence of a reply, and no object gets a second row.
-/

namespace ProxmoxVEAutopilot.CloudDeletes

open Foundation
set_option autoImplicit false

section Turns
variable {item : Item} {clock : Clock} {dbUp : Bool} {reply : Reply} {repr : String → String}

def DeletePc.active : DeletePc → Bool
  | stopping | pausing | destroying | asked => true
  | _ => false

def ItemState.final : ItemState → Bool
  | deleted | unverified | error => true
  | _ => false

/-- The row of an item in a final state says which. -/
def Deletion.Tells (d : Deletion) (state : ItemState) : Prop :=
  d.status = "ok" ∧ (state = .deleted ∨ state = .unverified) ∨ d.status = "error" ∧ state = .error

/-- The object of the row that a verification writes. -/
def Item.rowKey (item : Item) : Source × String :=
  if item.source = .pve then (item.source, item.targetId) else item.key

/-- A row is written unless the insert fails, which the task does not survive. -/
def Written {π : Type} (raised : π) (t : Turn π) (key : Source × String) : Prop :=
  (t.record = none ∧ t.pc = raised) ∨ (t.pc ≠ raised ∧ ∃ d, t.record = some d ∧ d.key = key ∧ d.Tells t.item.state)

/-- A reply to the delete of an item after which the item is in error. -/
def Refuses (item : Item) (call : Call) (reply : Reply) : Prop :=
  match item.source with
  | .pve => call = .destroy ∧ ∃ e, reply = .raised e
  | _ => call = .delete ∧ ∃ code text, reply = .status code text ∧ code ≠ 404 ∧ code ≠ 400 ∧
      ¬ (200 ≤ code ∧ code < 300)

/-- A reply that lets an item pass for deleted. -/
def ShowsGone (item : Item) (call : Call) (reply : Reply) : Prop :=
  match item.source with
  | .pve => call = .list ∧
      ((∃ vmids, reply = .listing vmids ∧ (intOfText item.objectId).any (· ∈ vmids) = false) ∨
        ∃ e, reply = .raised e)
  | _ => (call = .delete ∨ call = .get) ∧ ∃ text, reply = .status 404 text

/-- A reply by which the object is still there. -/
def ShowsThere (item : Item) (call : Call) (reply : Reply) : Prop :=
  match item.source with
  | .pve => call = .list ∧ ∃ vmids, reply = .listing vmids ∧ (intOfText item.objectId).any (· ∈ vmids) = true
  | _ => call = .get ∧ ∃ code text, reply = .status code text ∧ code ≠ 404

/-- What a final state rests on. -/
def Grounds (item : Item) (state : ItemState) (call : Call) (reply : Reply) : Prop :=
  match state with
  | .deleted => ShowsGone item call reply
  | .unverified => ShowsThere item call reply
  | .error => Refuses item call reply
  | _ => True

inductive DeleteCase (item : Item) (pc : DeletePc) (reply : Reply) (t : Turn DeletePc) : Prop where
  | going : pc = .created ∨ pc = .stopping ∨ pc = .pausing → t.record = none → t.pc.active = true →
      (t.item.state = .deleting ∨ pc ≠ .created ∧ t.item.state = item.state) → DeleteCase item pc reply t
  | accepted : pc = .asked ∨ pc = .destroying → t.record = none → t.pc = .returned →
      t.item.state = .verifying → DeleteCase item pc reply t
  | settled {call : Call} : pc.call = some call → t.item.state.final = true →
      Grounds item t.item.state call reply → Written .raised t item.key → (t.pc = .returned ∨ t.pc = .raised) →
      (pc = .asked ∨ pc = .destroying) → DeleteCase item pc reply t
  | lost {e : String} : pc = .asked → reply = .raised e → t.item = item → t.record = none → t.pc = .raised →
      DeleteCase item pc reply t

/-- The delete of an item is one of its source. -/
def DeletePc.Fits (item : Item) : DeletePc → Prop
  | stopping | pausing | destroying => item.source = .pve
  | asked => item.source ≠ .pve
  | _ => True

theorem settled_ended {pc : DeletePc} {call : Call} {item' : Item} {d : Deletion} (hkey : item'.key = item.key)
    (hrow : d.key = item.key) (htells : d.Tells item'.state) (hcall : pc.call = some call)
    (hgrounds : Grounds item item'.state call reply) (hpc : pc = .asked ∨ pc = .destroying) :
    (ended DeletePc.returned .raised dbUp item' d).item.key = item.key ∧
      DeleteCase item pc reply (ended DeletePc.returned .raised dbUp item' d) ∧
      (ended DeletePc.returned .raised dbUp item' d).pc.Fits item := by
  have hfinal : item'.state.final = true := by
    rcases htells with ⟨_, hs | hs⟩ | ⟨_, hs⟩ <;> (rw [hs]; rfl)
  cases dbUp with
  | false => exact ⟨hkey, .settled hcall hfinal hgrounds (.inl ⟨rfl, rfl⟩) (.inr rfl) hpc, trivial⟩
  | true =>
    exact ⟨hkey, .settled hcall hfinal hgrounds (.inr ⟨by simp [ended], d, rfl, hrow, htells⟩) (.inl rfl) hpc,
      trivial⟩

theorem deleteAnswered_cases {code : Nat} {text : String} (hfits : item.source ≠ .pve) :
    (deleteAnswered item code text clock dbUp).item.key = item.key ∧
      DeleteCase item .asked (.status code text) (deleteAnswered item code text clock dbUp) ∧
      (deleteAnswered item code text clock dbUp).pc.Fits item := by
  have hgone : code = 404 → ShowsGone item .delete (.status code text) := by
    intro hcode
    unfold ShowsGone
    split
    · exact absurd ‹_› hfits
    · exact ⟨.inl rfl, text, by rw [hcode]⟩
  have hrefuses : code ≠ 404 → code ≠ 400 → ¬ (200 ≤ code ∧ code < 300) →
      Refuses item .delete (.status code text) := by
    intro hnot hpending hrange
    unfold Refuses
    split
    · exact absurd ‹_› hfits
    · exact ⟨rfl, code, text, rfl, hnot, hpending, hrange⟩
  unfold deleteAnswered
  split
  · rename_i hcode
    refine settled_ended ?_ ?_ ?_ rfl ?_ (.inl rfl)
    · rfl
    · rfl
    · exact .inl ⟨rfl, .inl rfl⟩
    · exact hgone hcode
  split
  · exact ⟨rfl, .accepted (.inl rfl) rfl rfl rfl, trivial⟩
  split
  · exact ⟨rfl, .accepted (.inl rfl) rfl rfl rfl, trivial⟩
  · rename_i hnot hrange hpending
    refine settled_ended ?_ ?_ ?_ rfl ?_ (.inl rfl)
    · rfl
    · rfl
    · exact .inr ⟨rfl, rfl⟩
    · exact hrefuses hnot hpending hrange

theorem deleteTurn_cases {pc : DeletePc} {t : Turn DeletePc} (hfits : pc.Fits item)
    (h : deleteTurn item pc reply clock dbUp = some t) :
    t.item.key = item.key ∧ DeleteCase item pc reply t ∧ t.pc.Fits item := by
  unfold deleteTurn at h
  split at h
  · cases h
    unfold startDelete
    dsimp only
    split
    · exact ⟨rfl, .going (.inl rfl) rfl rfl (.inl rfl), ‹_›⟩
    · rename_i hsource
      exact ⟨rfl, .going (.inl rfl) rfl rfl (.inl rfl), hsource⟩
  · cases h
    exact ⟨rfl, .going (.inr (.inl rfl)) rfl rfl (.inr ⟨by simp, rfl⟩), hfits⟩
  · cases h
    exact ⟨rfl, .going (.inr (.inl rfl)) rfl rfl (.inr ⟨by simp, rfl⟩), hfits⟩
  · cases h
    exact ⟨rfl, .going (.inr (.inr rfl)) rfl rfl (.inr ⟨by simp, rfl⟩), hfits⟩
  · cases h
    exact ⟨rfl, .accepted (.inr rfl) rfl rfl rfl, trivial⟩
  · rename_i e
    cases h
    have hsource : item.source = .pve := hfits
    refine settled_ended ?_ ?_ ?_ rfl ?_ (.inr rfl)
    · rfl
    · rfl
    · exact .inr ⟨rfl, rfl⟩
    · change Refuses item .destroy (.raised e)
      unfold Refuses
      rw [hsource]
      exact ⟨rfl, e, rfl⟩
  · cases h
    exact deleteAnswered_cases hfits
  · cases h
    exact ⟨rfl, .lost rfl rfl rfl rfl rfl, trivial⟩
  · cases h

/-- The ways of a verification to its next await. -/
inductive VerifyCase (item : Item) (pc : VerifyPc) (reply : Reply) (t : Turn VerifyPc) : Prop where
  | going : pc.over = false → t.record = none → t.pc.over = false → t.item.state = item.state →
      VerifyCase item pc reply t
  | refused : pc = .created → item.source = .pve → intOfText item.objectId = none → t.record = none →
      t.pc = .returned → t.item.state = .error → VerifyCase item pc reply t
  | settled {call : Call} : pc.call item.source = some call → t.item.state.final = true →
      Grounds item t.item.state call reply → Written .raised t item.rowKey →
      (t.pc = .returned ∨ t.pc = .raised) → VerifyCase item pc reply t
  | lost {e : String} : item.source ≠ .pve → pc.over = false → reply = .raised e → t.item = item →
      t.record = none → t.pc = .raised → VerifyCase item pc reply t

theorem settled_verified {pc : VerifyPc} {call : Call} {item' : Item} {d : Deletion}
    (hkey : item'.key = item.key) (hrow : d.key = item.rowKey) (htells : d.Tells item'.state)
    (hcall : pc.call item.source = some call) (hgrounds : Grounds item item'.state call reply) :
    (verified item' d clock dbUp).item.key = item.key ∧
      VerifyCase item pc reply (verified item' d clock dbUp) := by
  have hfinal : item'.state.final = true := by
    rcases htells with ⟨_, hs | hs⟩ | ⟨_, hs⟩ <;> (rw [hs]; rfl)
  cases dbUp with
  | false => exact ⟨hkey, .settled hcall hfinal hgrounds (.inl ⟨rfl, rfl⟩) (.inr rfl)⟩
  | true =>
    exact ⟨hkey, .settled hcall hfinal hgrounds (.inr ⟨by simp [verified, ended], d, rfl, hrow, htells⟩) (.inl rfl)⟩

theorem getAnswered_cases {p : Polling} {code : Nat} {text : String} (hsource : item.source ≠ .pve) :
    (getAnswered item p code clock dbUp).item.key = item.key ∧
      VerifyCase item (.asking p) (.status code text) (getAnswered item p code clock dbUp) := by
  have hrow : item.key = item.rowKey := (if_neg hsource).symm
  have hcall : (VerifyPc.asking p).call item.source = some .get := congrArg some (if_neg hsource)
  have hgone : code = 404 → ShowsGone item .get (.status code text) := by
    intro hcode
    unfold ShowsGone
    split
    · exact absurd ‹_› hsource
    · exact ⟨.inr rfl, text, by rw [hcode]⟩
  have hthere : code ≠ 404 → ShowsThere item .get (.status code text) := by
    intro hcode
    unfold ShowsThere
    split
    · exact absurd ‹_› hsource
    · exact ⟨rfl, code, text, rfl, hcode⟩
  unfold getAnswered
  split
  · rename_i hcode
    exact settled_verified rfl hrow (.inl ⟨rfl, .inl rfl⟩) hcall (hgone hcode)
  split
  · rename_i hcode _
    exact settled_verified rfl hrow (.inl ⟨rfl, .inr rfl⟩) hcall (hthere hcode)
  · exact ⟨rfl, .going rfl rfl rfl rfl⟩

theorem listAnswered_cases {p : Polling} {stillThere : Bool} (hsource : item.source = .pve)
    (hgone : stillThere = false → ShowsGone item .list reply)
    (hthere : stillThere = true → ShowsThere item .list reply) :
    (listAnswered item p stillThere clock dbUp).item.key = item.key ∧
      VerifyCase item (.asking p) reply (listAnswered item p stillThere clock dbUp) := by
  have hrow : (item.source, item.targetId) = item.rowKey := (if_pos hsource).symm
  have hcall : (VerifyPc.asking p).call item.source = some .list := congrArg some (if_pos hsource)
  unfold listAnswered
  dsimp only
  split
  · rename_i hnot
    have hfalse : stillThere = false := by simpa using hnot
    refine settled_verified ?_ ?_ ?_ hcall ?_
    · rfl
    · exact hrow
    · exact .inl ⟨rfl, .inl rfl⟩
    · exact hgone hfalse
  split
  · rename_i hnot _
    have htrue : stillThere = true := by simpa using hnot
    refine settled_verified ?_ ?_ ?_ hcall ?_
    · rfl
    · exact hrow
    · exact .inl ⟨rfl, .inr rfl⟩
    · exact hthere htrue
  · exact ⟨rfl, .going rfl rfl rfl rfl⟩

theorem startVerify_cases : (startVerify repr item clock).item.key = item.key ∧
    VerifyCase item .created .started (startVerify repr item clock) := by
  unfold startVerify
  split
  · rename_i h
    exact ⟨rfl, .refused rfl h.1 h.2 rfl rfl rfl⟩
  · exact ⟨rfl, .going rfl rfl rfl rfl⟩

theorem attempt_cases {p : Polling} : (attempt item p clock).item.key = item.key ∧
    VerifyCase item (.sleeping p) .slept (attempt item p clock) := by
  unfold attempt
  split
  · exact ⟨rfl, .going rfl rfl rfl rfl⟩
  · exact ⟨rfl, .going rfl rfl rfl rfl⟩

theorem verifyTurn_cases {pc : VerifyPc} {t : Turn VerifyPc}
    (h : verifyTurn repr item pc reply clock dbUp = some t) :
    t.item.key = item.key ∧ VerifyCase item pc reply t := by
  unfold verifyTurn at h
  split at h
  · cases h
    exact startVerify_cases
  · split at h
    · cases h
      exact attempt_cases
    · cases h
  · rename_i p _
    split at h
    · rename_i vmids hsource
      cases h
      refine listAnswered_cases hsource (fun hgone => ?_) fun hthere => ?_
      · unfold ShowsGone
        rw [hsource]
        exact ⟨rfl, .inl ⟨vmids, rfl, hgone⟩⟩
      · unfold ShowsThere
        rw [hsource]
        exact ⟨rfl, vmids, rfl, hthere⟩
    · rename_i e hsource
      cases h
      refine listAnswered_cases hsource (fun _ => ?_) fun hthere => by cases hthere
      unfold ShowsGone
      rw [hsource]
      exact ⟨rfl, .inr ⟨e, rfl⟩⟩
    · cases h
    · rename_i code text hsource
      cases h
      exact getAnswered_cases hsource
    · rename_i e hsource
      cases h
      exact ⟨rfl, .lost hsource rfl rfl rfl rfl rfl⟩
    · cases h
  · cases h

end Turns

section Loop
variable {n : Nat} {job : Job n} {s : Step n} {repr : String → String} {cut : Nat}

def Job.source (job : Job n) (i : Fin n) : Source := (job.slots i).item.source

/-- Everything one event can do. -/
inductive Effect (repr : String → String) (job : Job n) (s : Step n) : Job n → Prop where
  | unchanged : Effect repr job s job
  | deleted {i : Fin n} {pc : DeletePc} {reply : Reply} {t : Turn DeletePc} : (job.slots i).del = some pc →
      deleteTurn (job.slots i).item pc reply s.clock s.dbUp = some t → s.event = .delete i reply →
      Effect repr job s { job.deleted i pc reply t with now := s.clock.loop }
  | verified {i : Fin n} {pc : VerifyPc} {reply : Reply} {t : Turn VerifyPc} : (job.slots i).ver = some pc →
      verifyTurn repr (job.slots i).item pc reply s.clock s.dbUp = some t → s.event = .verify i reply →
      Effect repr job s { job.verified i pc reply t with now := s.clock.loop }
  | ran : Effect repr job s { job.ranUp s.clock with now := s.clock.loop }

theorem exec_effect (repr : String → String) (job : Job n) (s : Step n) : Effect repr job s (exec repr job s) := by
  unfold exec
  split
  · exact .unchanged
  split
  · split
    · exact .unchanged
    · rename_i heq
      obtain ⟨pc, hpc, hturn⟩ := Option.bind_eq_some_iff.mp heq
      obtain ⟨t, ht, hpair⟩ := Option.map_eq_some_iff.mp hturn
      cases hpair
      exact .deleted hpc ht ‹_›
  · split
    · exact .unchanged
    · rename_i heq
      obtain ⟨pc, hpc, hturn⟩ := Option.bind_eq_some_iff.mp heq
      obtain ⟨t, ht, hpair⟩ := Option.map_eq_some_iff.mp hturn
      cases hpair
      exact .verified hpc ht ‹_›
  · exact .ran

/-- The deletes of the sources before the cut are over, those behind it not yet begun. -/
structure Phased (job : Job n) (cut : Nat) : Prop where
  passed : ∀ i, (job.source i).order < cut → (job.slots i).del = some .returned
  ahead : ∀ i, cut < (job.source i).order → (job.slots i).del = none
  unverified : ∀ i, cut ≤ (job.source i).order → (job.slots i).ver = none
  begun : ∀ i, (job.slots i).ver ≠ none → (job.slots i).del = some .returned

/-- Where the cut lies for the runner. -/
def RunnerAt (job : Job n) (cut : Nat) : Prop :=
  match job.runner with
  | .created => cut = 0 ∧ ∀ i, (job.slots i).del = none
  | .waiting s rest => cut = s.order ∧ rest = Source.all.drop (cut + 1)
  | .verifying | .returned => cut = 4
  | .raised => True

/-- What the runner can do to a slot. -/
inductive Spawned (slot : Slot) : Slot → Prop where
  | kept : Spawned slot slot
  | delete : slot.del = none → Spawned slot { slot with del := some .created }
  | verify : slot.del = some .returned → slot.ver = none → slot.item.state = .verifying →
      Spawned slot { slot with ver := some .created }

theorem drop_cons {k : Nat} {s : Source} {rest : List Source} (h : s :: rest = Source.all.drop k) :
    s.order = k ∧ rest = Source.all.drop (k + 1) := by
  match k with
  | 0 | 1 | 2 | 3 =>
    cases h
    exact ⟨rfl, rfl⟩
  | k + 4 => simp [Source.all] at h

theorem drop_nil {k : Nat} (h : [] = Source.all.drop k) : 4 ≤ k := by
  match k with
  | 0 | 1 | 2 | 3 => cases h
  | k + 4 => omega

theorem Source.order_lt (s : Source) : s.order < 4 := by
  cases s <;> simp [order]

/-- The launch of a source begins deletes and nothing else. -/
inductive Begun (slot : Slot) : Slot → Prop where
  | kept : Begun slot slot
  | delete : slot.del = none → Begun slot { slot with del := some .created }

theorem Begun.spawned {slot slot' : Slot} (h : Begun slot slot') : Spawned slot slot' := by
  cases h with
  | kept => exact .kept
  | delete hdel => exact .delete hdel

/-- Where the runner leaves the cut, and what it leaves as it is. -/
structure Launched (R : Slot → Slot → Prop) (job job' : Job n) (cut : Nat) : Prop where
  phased : Phased job' cut
  runner : RunnerAt job' cut
  log : job'.log = job.log
  records : job'.records = job.records
  slots : ∀ i, R (job.slots i) (job'.slots i)

theorem Phased.of_slots {job' : Job n} (h : Phased job cut) (hslots : job'.slots = job.slots) : Phased job' cut := by
  have hsource : ∀ i, job'.source i = job.source i := fun i => congrArg (fun slots => (slots i).item.source) hslots
  refine ⟨fun i hlt => ?_, fun i hlt => ?_, fun i hle => ?_, fun i hver => ?_⟩
  · rw [hslots]
    exact h.passed i (hsource i ▸ hlt)
  · rw [hslots]
    exact h.ahead i (hsource i ▸ hlt)
  · rw [hslots]
    exact h.unverified i (hsource i ▸ hle)
  · rw [hslots] at hver ⊢
    exact h.begun i hver

theorem order_of_of {s : Source} {i : Fin n} (h : job.of s i) : (job.source i).order = s.order :=
  congrArg Source.order h

theorem spawnDeletes_phased {s : Source} (hpassed : ∀ i, (job.source i).order < s.order → (job.slots i).del = some .returned)
    (hahead : ∀ i, s.order ≤ (job.source i).order → (job.slots i).del = none ∧ (job.slots i).ver = none) :
    Phased (job.spawnDeletes s) s.order := by
  have hsource : ∀ i, (job.spawnDeletes s).source i = job.source i := by
    intro i
    unfold Job.source Job.spawnDeletes
    dsimp only
    split <;> rfl
  have hver : ∀ i, ((job.spawnDeletes s).slots i).ver = (job.slots i).ver := by
    intro i
    unfold Job.spawnDeletes
    dsimp only
    split <;> rfl
  have hdel : ∀ i, (job.source i).order ≠ s.order → ((job.spawnDeletes s).slots i).del = (job.slots i).del := by
    intro i hne
    unfold Job.spawnDeletes
    dsimp only
    rw [if_neg fun hi => hne (order_of_of hi)]
  refine ⟨fun i hlt => ?_, fun i hlt => ?_, fun i hle => ?_, fun i hbegun => ?_⟩
  · rw [hsource] at hlt
    rw [hdel i (Nat.ne_of_lt hlt)]
    exact hpassed i hlt
  · rw [hsource] at hlt
    rw [hdel i (Nat.ne_of_gt hlt)]
    exact (hahead i (Nat.le_of_lt hlt)).1
  · rw [hsource] at hle
    rw [hver]
    exact (hahead i hle).2
  · rw [hver] at hbegun
    have hlt : (job.source i).order < s.order := by
      by_contra hnot
      exact hbegun (hahead i (Nat.le_of_not_lt hnot)).2
    rw [hdel i (Nat.ne_of_lt hlt)]
    exact hpassed i hlt

theorem launch_launched (clock : Clock) {sources : List Source} :
    ∀ {k : Nat} {job : Job n}, k ≤ 4 → sources = Source.all.drop k →
      (∀ i, (job.source i).order < k → (job.slots i).del = some .returned) →
      (∀ i, k ≤ (job.source i).order → (job.slots i).del = none ∧ (job.slots i).ver = none) →
      ∃ cut, k ≤ cut ∧ cut ≤ 4 ∧ Launched Begun job (job.launch clock sources) cut := by
  induction sources with
  | nil =>
    intro k job hle hsources hpassed hahead
    have hk := drop_nil hsources
    have hlt : ∀ i, (job.source i).order < k := fun i => Nat.lt_of_lt_of_le (job.source i).order_lt hk
    have hphased : Phased job 4 := by
      refine ⟨fun i _ => hpassed i (hlt i), fun i hgt => ?_, fun i hge => ?_, fun i _ => hpassed i (hlt i)⟩
      · exact absurd hgt (Nat.not_lt_of_lt (job.source i).order_lt)
      · exact absurd hge (Nat.not_le_of_lt (job.source i).order_lt)
    unfold Job.launch
    by_cases hver : ∃ i, (job.slots i).ver.isSome
    · rw [if_pos hver]
      exact ⟨4, hle, Nat.le_refl _, hphased.of_slots rfl, rfl, rfl, rfl, fun _ => .kept⟩
    · rw [if_neg hver]
      exact ⟨4, hle, Nat.le_refl _, hphased.of_slots rfl, rfl, rfl, rfl, fun _ => .kept⟩
  | cons s rest ih =>
    intro k job hle hsources hpassed hahead
    obtain ⟨rfl, hrest⟩ := drop_cons hsources
    unfold Job.launch
    by_cases hany : ∃ i, job.of s i
    · rw [if_pos hany]
      have hslots : ∀ i, Begun (job.slots i) ((job.spawnDeletes s).slots i) := by
        intro i
        unfold Job.spawnDeletes
        dsimp only
        split
        · rename_i hi
          exact .delete (hahead i (Nat.le_of_eq (order_of_of hi).symm)).1
        · exact .kept
      have hphased := spawnDeletes_phased hpassed hahead
      exact ⟨s.order, Nat.le_refl _, hle, hphased.of_slots rfl, ⟨rfl, hrest⟩, rfl, rfl, hslots⟩
    · rw [if_neg hany]
      have hnone : ∀ i, (job.source i).order ≠ s.order := fun i heq => hany ⟨i, Source.order_injective heq⟩
      obtain ⟨cut, hcut, hmax, hlaunched⟩ := @ih (s.order + 1) job s.order_lt hrest
        (fun i hlt => hpassed i (by have := hnone i; omega)) fun i hge => hahead i (by omega)
      exact ⟨cut, by omega, hmax, hlaunched⟩

theorem Begun.eq_of_returned {slot slot' : Slot} (h : Begun slot slot') (hreturned : slot.del = some .returned) :
    slot' = slot := by
  cases h with
  | kept => rfl
  | delete hnone =>
    rw [hnone] at hreturned
    cases hreturned

theorem advance_launched (clock : Clock) {source : Source} {rest : List Source} (hphased : Phased job source.order)
    (hrest : rest = Source.all.drop (source.order + 1))
    (hreturned : ∀ i, job.of source i → (job.slots i).del = some .returned) :
    ∃ cut, source.order ≤ cut ∧ cut ≤ 4 ∧ Launched Spawned job ((job.spawnVerifies source).launch clock rest) cut := by
  have hall : ∀ i, (job.source i).order < source.order + 1 → (job.slots i).del = some .returned := by
    intro i hlt
    by_cases heq : (job.source i).order = source.order
    · exact hreturned i (Source.order_injective heq)
    · exact hphased.passed i (by omega)
  have hspawn : ∀ i, ((job.spawnVerifies source).slots i).item = (job.slots i).item ∧
      ((job.spawnVerifies source).slots i).del = (job.slots i).del ∧
      (source.order < (job.source i).order → (job.spawnVerifies source).slots i = job.slots i) ∧
      Spawned (job.slots i) ((job.spawnVerifies source).slots i) := by
    intro i
    unfold Job.spawnVerifies
    dsimp only
    split
    · rename_i hi
      have horder := order_of_of hi.1
      refine ⟨rfl, rfl, fun hlt => absurd horder (Nat.ne_of_gt hlt), ?_⟩
      exact .verify (hreturned i hi.1) (hphased.unverified i (Nat.le_of_eq horder.symm)) hi.2
    · exact ⟨rfl, rfl, fun _ => rfl, .kept⟩
  have hsource : ∀ i, (job.spawnVerifies source).source i = job.source i :=
    fun i => congrArg Item.source (hspawn i).1
  obtain ⟨cut, hge, hmax, hlaunched⟩ := @launch_launched n clock rest (source.order + 1) (job.spawnVerifies source)
    source.order_lt hrest
    (fun i hlt => by
      rw [hsource] at hlt
      rw [(hspawn i).2.1]
      exact hall i hlt)
    (fun i hge => by
      rw [hsource] at hge
      rw [(hspawn i).2.2.1 hge]
      exact ⟨hphased.ahead i hge, hphased.unverified i (Nat.le_of_lt hge)⟩)
  refine ⟨cut, by omega, hmax, hlaunched.phased, hlaunched.runner, hlaunched.log, hlaunched.records, fun i => ?_⟩
  have hbegun := hlaunched.slots i
  -- a slot is begun or verified, not both
  by_cases hlt : source.order < (job.source i).order
  · rw [(hspawn i).2.2.1 hlt] at hbegun
    exact hbegun.spawned
  · rw [hbegun.eq_of_returned ((hspawn i).2.1.trans (hall i (by omega)))]
    exact (hspawn i).2.2.2

theorem ranUp_launched (clock : Clock) (hphased : Phased job cut) (hat : RunnerAt job cut) (hcut : cut ≤ 4) :
    ∃ cut', cut ≤ cut' ∧ cut' ≤ 4 ∧ Launched Spawned job (job.ranUp clock) cut' := by
  have hsame : Launched Spawned job job cut := ⟨hphased, hat, rfl, rfl, fun _ => .kept⟩
  unfold Job.ranUp
  unfold RunnerAt at hat
  cases hrunner : job.runner with
  | created =>
    rw [hrunner] at hat
    obtain ⟨rfl, hnone⟩ := hat
    obtain ⟨cut', _, hmax, hlaunched⟩ := @launch_launched n clock Source.all 0 { job with state := .running }
      (Nat.zero_le 4) rfl (fun i hlt => absurd hlt (Nat.not_lt_zero _))
      fun i hle => ⟨hnone i, hphased.unverified i hle⟩
    exact ⟨cut', Nat.zero_le _, hmax, hlaunched.phased, hlaunched.runner, hlaunched.log, hlaunched.records,
      fun i => (hlaunched.slots i).spawned⟩
  | waiting source rest =>
    rw [hrunner] at hat
    obtain ⟨rfl, hrest⟩ := hat
    dsimp only
    split
    · exact ⟨source.order, Nat.le_refl _, hcut, hphased.of_slots rfl, trivial, rfl, rfl, fun _ => .kept⟩
    split
    · exact advance_launched clock hphased hrest ‹_›
    · exact ⟨source.order, Nat.le_refl _, hcut, hsame⟩
  | verifying =>
    dsimp only
    rw [hrunner] at hat
    split
    · exact ⟨cut, Nat.le_refl _, hcut, hphased.of_slots rfl, hat, rfl, rfl, fun _ => .kept⟩
    · exact ⟨cut, Nat.le_refl _, hcut, hsame⟩
  | returned => exact ⟨cut, Nat.le_refl _, hcut, hsame⟩
  | raised => exact ⟨cut, Nat.le_refl _, hcut, hsame⟩

/-- Calls that take something away. -/
def Call.deletes : Call → Bool
  | stop | destroy | delete => true
  | list | get => false

/-- The answer to a call of this kind ends the delete of an item. -/
def Call.ends : Call → Bool
  | destroy | delete => true
  | _ => false

theorem verifyPc_call {source : Source} {pc : VerifyPc} {c : Call} (h : pc.call source = some c) :
    c.deletes = false := by
  unfold VerifyPc.call at h
  split at h
  · cases h
    split <;> rfl
  · cases h

theorem verifyTurn_asks {item : Item} {pc : VerifyPc} {reply : Reply} {clock : Clock} {dbUp : Bool}
    {t : Turn VerifyPc} (h : verifyTurn repr item pc reply clock dbUp = some t) :
    ∀ c, t.asks = some c → c.deletes = false := by
  intro c hc
  have hended : ∀ (item : Item) (d : Deletion), (verified item d clock dbUp).asks = none := fun _ _ => rfl
  unfold verifyTurn at h
  split at h
  · cases h
    unfold startVerify at hc
    split at hc <;> cases hc
  · split at h
    · cases h
      unfold attempt at hc
      dsimp only at hc
      split at hc <;> (cases hc; rfl)
    · cases h
  · split at h
    · cases h
      unfold listAnswered at hc
      repeat' split at hc
      all_goals first | (rw [hended] at hc; cases hc) | cases hc
    · cases h
      unfold listAnswered at hc
      repeat' split at hc
      all_goals first | (rw [hended] at hc; cases hc) | cases hc
    · cases h
    · cases h
      unfold getAnswered at hc
      repeat' split at hc
      all_goals first | (rw [hended] at hc; cases hc) | cases hc
    · cases h
      cases hc
    · cases h
  · cases h

/-- What a turn adds to the log. -/
def noting {π : Type} (job : Job n) (i : Fin n) (call : Option Call) (reply : Reply) (t : Turn π) :
    List (Entry n) :=
  (call.map fun c => ⟨i, job.source i, c, some reply⟩).toList ++
    (t.asks.map fun c => ⟨i, job.source i, c, none⟩).toList

theorem mem_noting {π : Type} {i : Fin n} {call : Option Call} {reply : Reply} {t : Turn π} {e : Entry n}
    (h : e ∈ noting job i call reply t) :
    e.slot = i ∧ e.source = job.source i ∧ (call = some e.call ∨ t.asks = some e.call) := by
  unfold noting at h
  rcases List.mem_append.mp h with h | h
  · obtain ⟨c, hc, rfl⟩ := Option.map_eq_some_iff.mp (Option.mem_toList.mp h)
    exact ⟨rfl, rfl, .inl hc⟩
  · obtain ⟨c, hc, rfl⟩ := Option.map_eq_some_iff.mp (Option.mem_toList.mp h)
    exact ⟨rfl, rfl, .inr hc⟩

theorem deleted_log {i : Fin n} {pc : DeletePc} {reply : Reply} {t : Turn DeletePc} :
    (job.deleted i pc reply t).log = job.log ++ noting job i pc.call reply t := List.append_assoc _ _ _

theorem verified_log {i : Fin n} {pc : VerifyPc} {reply : Reply} {t : Turn VerifyPc} :
    (job.verified i pc reply t).log = job.log ++ noting job i (pc.call (job.source i)) reply t :=
  List.append_assoc _ _ _

theorem Item.source_of_key {a b : Item} (h : a.key = b.key) : a.source = b.source := congrArg Prod.fst h

theorem deleted_key {i : Fin n} {pc : DeletePc} {reply : Reply} {t : Turn DeletePc}
    (hkey : t.item.key = (job.slots i).item.key) (j : Fin n) :
    ((job.deleted i pc reply t).slots j).item.key = (job.slots j).item.key := by
  change (Function.update job.slots i _ j).item.key = _
  by_cases hj : j = i
  · rw [hj, Function.update_self]
    exact hkey
  · rw [Function.update_of_ne hj]

theorem verified_key {i : Fin n} {pc : VerifyPc} {reply : Reply} {t : Turn VerifyPc}
    (hkey : t.item.key = (job.slots i).item.key) (j : Fin n) :
    ((job.verified i pc reply t).slots j).item.key = (job.slots j).item.key := by
  change (Function.update job.slots i _ j).item.key = _
  by_cases hj : j = i
  · rw [hj, Function.update_self]
    exact hkey
  · rw [Function.update_of_ne hj]

theorem deleted_self (i : Fin n) (pc : DeletePc) (reply : Reply) (t : Turn DeletePc) :
    (job.deleted i pc reply t).slots i = { job.slots i with item := t.item, del := some t.pc } :=
  Function.update_self _ _ _

theorem verified_self (i : Fin n) (pc : VerifyPc) (reply : Reply) (t : Turn VerifyPc) :
    (job.verified i pc reply t).slots i = { job.slots i with item := t.item, ver := some t.pc } :=
  Function.update_self _ _ _

theorem deleted_ver (i : Fin n) (pc : DeletePc) (reply : Reply) (t : Turn DeletePc) (j : Fin n) :
    ((job.deleted i pc reply t).slots j).ver = (job.slots j).ver := by
  by_cases hj : j = i
  · rw [hj, deleted_self]
  · exact congrArg Slot.ver (Function.update_of_ne hj _ _)

theorem verified_del (i : Fin n) (pc : VerifyPc) (reply : Reply) (t : Turn VerifyPc) (j : Fin n) :
    ((job.verified i pc reply t).slots j).del = (job.slots j).del := by
  by_cases hj : j = i
  · rw [hj, verified_self]
  · exact congrArg Slot.del (Function.update_of_ne hj _ _)

/-- What the turn of a task leaves as it was. -/
structure Turned (job job' : Job n) (i : Fin n) (new : List (Entry n)) : Prop where
  keys : ∀ j, (job'.slots j).item.key = (job.slots j).item.key
  others : ∀ j, j ≠ i → job'.slots j = job.slots j
  runner : job'.runner = job.runner
  log : job'.log = job.log ++ new

theorem deleted_turned {i : Fin n} {t : Turn DeletePc} (hkey : t.item.key = (job.slots i).item.key) (pc : DeletePc)
    (reply : Reply) (now : Rat) :
    Turned job { job.deleted i pc reply t with now := now } i (noting job i pc.call reply t) :=
  ⟨@deleted_key n job i pc reply t hkey, fun _ hj => Function.update_of_ne hj _ _, rfl, deleted_log⟩

theorem verified_turned {i : Fin n} {t : Turn VerifyPc} (hkey : t.item.key = (job.slots i).item.key) (pc : VerifyPc)
    (reply : Reply) (now : Rat) :
    Turned job { job.verified i pc reply t with now := now } i (noting job i (pc.call (job.source i)) reply t) :=
  ⟨@verified_key n job i pc reply t hkey, fun _ hj => Function.update_of_ne hj _ _, rfl, verified_log⟩

theorem Turned.source {job' : Job n} {i : Fin n} {new : List (Entry n)} (ht : Turned job job' i new) (j : Fin n) :
    job'.source j = job.source j := Item.source_of_key (ht.keys j)

/-- Deletes lie in the log in the order of their sources. -/
structure Ordered (job : Job n) (cut : Nat) : Prop where
  phased : Phased job cut
  runner : RunnerAt job cut
  bound : cut ≤ 4
  fits : ∀ i pc, (job.slots i).del = some pc → pc.Fits (job.slots i).item
  named : ∀ e ∈ job.log, e.source = job.source e.slot
  reached : ∀ e ∈ job.log, e.call.deletes = true → e.source.order ≤ cut
  sorted : (job.log.filter fun e => e.call.deletes).Pairwise fun a b => a.source.order ≤ b.source.order
  answered : ∀ i, (job.slots i).del = some .returned →
    ∃ e ∈ job.log, e.slot = i ∧ e.call.ends = true ∧ e.answer ≠ none

theorem DeleteCase.live {item : Item} {pc : DeletePc} {reply : Reply} {t : Turn DeletePc}
    (h : DeleteCase item pc reply t) : pc ≠ .returned ∧ pc ≠ .raised := by
  cases h with
  | going hpc => rcases hpc with rfl | rfl | rfl <;> simp
  | accepted hpc => rcases hpc with rfl | rfl <;> simp
  | settled _ _ _ _ _ hpc => rcases hpc with rfl | rfl <;> simp
  | lost hpc =>
    subst hpc
    simp

theorem Phased.order_eq (h : Phased job cut) {i : Fin n} {pc : DeletePc} (hdel : (job.slots i).del = some pc)
    (hlive : pc ≠ .returned) : (job.source i).order = cut := by
  rcases Nat.lt_trichotomy (job.source i).order cut with hlt | heq | hgt
  · have := h.passed i hlt
    rw [hdel] at this
    exact absurd (Option.some.inj this) hlive
  · exact heq
  · have := h.ahead i hgt
    rw [hdel] at this
    cases this

theorem Phased.ver_eq_none (h : Phased job cut) {i : Fin n} {pc : DeletePc} (hdel : (job.slots i).del = some pc)
    (hlive : pc ≠ .returned) : (job.slots i).ver = none := by
  by_contra hver
  have := h.begun i hver
  rw [hdel] at this
  exact hlive (Option.some.inj this)

theorem DeletePc.Fits.of_source {pc : DeletePc} {item item' : Item} (h : pc.Fits item)
    (hsource : item'.source = item.source) : pc.Fits item' := by
  cases pc <;> first | trivial | exact hsource.trans h | exact fun heq => h (hsource.symm.trans heq)

theorem RunnerAt.ne_created (h : RunnerAt job cut) {i : Fin n} (hdel : (job.slots i).del ≠ none) :
    job.runner ≠ .created := by
  intro hcreated
  unfold RunnerAt at h
  rw [hcreated] at h
  exact hdel (h.2 i)

section Turned
variable {job' : Job n} {i : Fin n} {new : List (Entry n)}

theorem Turned.runnerAt (ht : Turned job job' i new) (h : RunnerAt job cut) (hdel : (job.slots i).del ≠ none) :
    RunnerAt job' cut := by
  have hcreated := h.ne_created hdel
  unfold RunnerAt at h ⊢
  rw [ht.runner]
  cases hrun : job.runner with
  | created => exact absurd hrun hcreated
  | _ =>
    rw [hrun] at h
    exact h

theorem Turned.named (ht : Turned job job' i new) (hnamed : ∀ e ∈ job.log, e.source = job.source e.slot)
    (hnew : ∀ e ∈ new, e.source = job.source e.slot) : ∀ e ∈ job'.log, e.source = job'.source e.slot := by
  intro e he
  rw [ht.source]
  rw [ht.log] at he
  rcases List.mem_append.mp he with he | he
  · exact hnamed e he
  · exact hnew e he

theorem Turned.phased_deleted (ht : Turned job job' i new) (h : Phased job cut) (horder : (job.source i).order = cut)
    (hnone : (job.slots i).ver = none) (hver : ∀ j, (job'.slots j).ver = (job.slots j).ver) : Phased job' cut := by
  have hdel : ∀ j, j ≠ i → (job'.slots j).del = (job.slots j).del := fun j hj => congrArg Slot.del (ht.others j hj)
  refine ⟨fun j hlt => ?_, fun j hlt => ?_, fun j hle => ?_, fun j hbegun => ?_⟩
  · rw [ht.source] at hlt
    rw [hdel j (by rintro rfl; omega)]
    exact h.passed j hlt
  · rw [ht.source] at hlt
    rw [hdel j (by rintro rfl; omega)]
    exact h.ahead j hlt
  · rw [ht.source] at hle
    rw [hver]
    exact h.unverified j hle
  · rw [hver] at hbegun
    rw [hdel j (by rintro rfl; exact hbegun hnone)]
    exact h.begun j hbegun

theorem Turned.phased_verified (ht : Turned job job' i new) (h : Phased job cut) (hver : (job.slots i).ver ≠ none)
    (hdel : ∀ j, (job'.slots j).del = (job.slots j).del) : Phased job' cut := by
  refine ⟨fun j hlt => ?_, fun j hlt => ?_, fun j hle => ?_, fun j hbegun => ?_⟩
  · rw [ht.source] at hlt
    rw [hdel]
    exact h.passed j hlt
  · rw [ht.source] at hlt
    rw [hdel]
    exact h.ahead j hlt
  · rw [ht.source] at hle
    have hj : j ≠ i := by
      rintro rfl
      exact hver (h.unverified j hle)
    rw [ht.others j hj]
    exact h.unverified j hle
  · rw [hdel]
    by_cases hj : j = i
    · rw [hj]
      exact h.begun i hver
    · rw [ht.others j hj] at hbegun
      exact h.begun j hbegun

end Turned

theorem noting_named {π : Type} {i : Fin n} {call : Option Call} {reply : Reply} {t : Turn π} :
    ∀ e ∈ noting job i call reply t, e.source = job.source e.slot := by
  intro e he
  obtain ⟨hslot, hsource, _⟩ := mem_noting he
  rw [hsource, hslot]

theorem DeleteCase.ends {item : Item} {pc : DeletePc} {reply : Reply} {t : Turn DeletePc}
    (h : DeleteCase item pc reply t) (hreturned : t.pc = .returned) : ∃ c, pc.call = some c ∧ c.ends = true := by
  cases h with
  | going _ _ hactive =>
    rw [hreturned] at hactive
    cases hactive
  | accepted hpc => rcases hpc with rfl | rfl <;> exact ⟨_, rfl, rfl⟩
  | settled _ _ _ _ _ hpc => rcases hpc with rfl | rfl <;> exact ⟨_, rfl, rfl⟩
  | lost _ _ _ _ hpc =>
    rw [hpc] at hreturned
    cases hreturned

theorem ordered_deleted (h : Ordered job cut) {i : Fin n} {pc : DeletePc} {reply : Reply} {t : Turn DeletePc}
    (hdel : (job.slots i).del = some pc)
    (hturn : deleteTurn (job.slots i).item pc reply s.clock s.dbUp = some t) :
    Ordered { job.deleted i pc reply t with now := s.clock.loop } cut := by
  obtain ⟨hkey, hcase, hfits⟩ := deleteTurn_cases (h.fits i pc hdel) hturn
  have hlive := hcase.live.1
  have horder := h.phased.order_eq hdel hlive
  have ht := deleted_turned hkey pc reply s.clock.loop
  have hself : (job.deleted i pc reply t).slots i = _ := deleted_self i pc reply t
  have hphased := ht.phased_deleted h.phased horder (h.phased.ver_eq_none hdel hlive) (deleted_ver i pc reply t)
  have hnew : ∀ e ∈ noting job i pc.call reply t, e.source.order = cut := by
    intro e he
    rw [(mem_noting he).2.1, horder]
  refine ⟨hphased, ht.runnerAt h.runner (by simp [hdel]), h.bound, fun j pc' hj => ?_,
    ht.named h.named noting_named, fun e he hdeletes => ?_, ?_, fun j hj => ?_⟩
  · by_cases heq : j = i
    · subst heq
      change ((job.deleted j pc reply t).slots j).del = some pc' at hj
      change pc'.Fits ((job.deleted j pc reply t).slots j).item
      rw [hself] at hj ⊢
      obtain rfl := Option.some.inj hj
      exact hfits.of_source (Item.source_of_key hkey)
    · rw [ht.others j heq] at hj ⊢
      exact h.fits j pc' hj
  · rw [ht.log] at he
    rcases List.mem_append.mp he with he | he
    · exact h.reached e he hdeletes
    · exact Nat.le_of_eq (hnew e he)
  · rw [ht.log, List.filter_append, List.pairwise_append]
    refine ⟨h.sorted, ?_, ?_⟩
    · refine List.Pairwise.imp_of_mem (fun {a b} ha hb _ => ?_) (List.pairwise_of_forall (fun _ _ => trivial))
      rw [hnew a (List.mem_of_mem_filter ha), hnew b (List.mem_of_mem_filter hb)]
    · intro a ha b hb
      rw [hnew b (List.mem_of_mem_filter hb)]
      exact h.reached a (List.mem_of_mem_filter ha) (List.mem_filter.mp ha).2
  · rw [ht.log]
    by_cases heq : j = i
    · subst heq
      change ((job.deleted j pc reply t).slots j).del = some .returned at hj
      rw [hself] at hj
      obtain ⟨c, hc, hends⟩ := hcase.ends (Option.some.inj hj)
      refine ⟨⟨j, job.source j, c, some reply⟩, List.mem_append.mpr (.inr ?_), rfl, hends, by simp⟩
      unfold noting
      rw [hc]
      exact List.mem_append.mpr (.inl List.mem_cons_self)
    · rw [ht.others j heq] at hj
      obtain ⟨e, he, hrest⟩ := h.answered j hj
      exact ⟨e, List.mem_append.mpr (.inl he), hrest⟩

theorem ordered_verified (h : Ordered job cut) {i : Fin n} {pc : VerifyPc} {reply : Reply} {t : Turn VerifyPc}
    (hver : (job.slots i).ver = some pc)
    (hturn : verifyTurn repr (job.slots i).item pc reply s.clock s.dbUp = some t) :
    Ordered { job.verified i pc reply t with now := s.clock.loop } cut := by
  have ht := verified_turned (verifyTurn_cases hturn).1 pc reply s.clock.loop
  have hbegun : (job.slots i).ver ≠ none := by simp [hver]
  have hdel : ∀ j, ((job.verified i pc reply t).slots j).del = (job.slots j).del := verified_del i pc reply t
  have hphased := ht.phased_verified h.phased hbegun hdel
  have hnew : ∀ e ∈ noting job i (pc.call (job.source i)) reply t, e.call.deletes = false := by
    intro e he
    rcases (mem_noting he).2.2 with hcall | hasks
    · exact verifyPc_call hcall
    · exact verifyTurn_asks hturn _ hasks
  refine ⟨hphased, ht.runnerAt h.runner (by simp [h.phased.begun i hbegun]), h.bound, fun j pc' hj => ?_,
    ht.named h.named noting_named, fun e he hdeletes => ?_, ?_, fun j hj => ?_⟩
  · exact (h.fits j pc' ((hdel j).symm.trans hj)).of_source (ht.source j)
  · rw [ht.log] at he
    rcases List.mem_append.mp he with he | he
    · exact h.reached e he hdeletes
    · rw [hnew e he] at hdeletes
      cases hdeletes
  · have hnone : (noting job i (pc.call (job.source i)) reply t).filter (fun e => e.call.deletes) = [] :=
      List.filter_eq_nil_iff.mpr fun e he => by simp [hnew e he]
    rw [ht.log, List.filter_append, hnone, List.append_nil]
    exact h.sorted
  · obtain ⟨e, he, hrest⟩ := h.answered j ((hdel j).symm.trans hj)
    refine ⟨e, ?_, hrest⟩
    rw [ht.log]
    exact List.mem_append.mpr (.inl he)

theorem Spawned.item {slot slot' : Slot} (h : Spawned slot slot') : slot'.item = slot.item := by
  cases h <;> rfl

theorem ordered_ran (h : Ordered job cut) (clock : Clock) :
    ∃ cut', Ordered { job.ranUp clock with now := clock.loop } cut' := by
  obtain ⟨cut', hle, hbound, hl⟩ := ranUp_launched clock h.phased h.runner h.bound
  have hitem : ∀ i, ((job.ranUp clock).slots i).item = (job.slots i).item := fun i => (hl.slots i).item
  have hsource : ∀ i, (job.ranUp clock).source i = job.source i := fun i => congrArg Item.source (hitem i)
  refine ⟨cut', ⟨hl.phased.passed, hl.phased.ahead, hl.phased.unverified, hl.phased.begun⟩, hl.runner, hbound,
    ?_, ?_, ?_, ?_, ?_⟩
  · intro i pc hdel
    change pc.Fits ((job.ranUp clock).slots i).item
    change ((job.ranUp clock).slots i).del = some pc at hdel
    rw [hitem]
    have hspawned := hl.slots i
    generalize (job.ranUp clock).slots i = slot at hspawned hdel
    cases hspawned with
    | kept => exact h.fits i pc hdel
    | delete =>
      rw [← Option.some.inj hdel]
      trivial
    | verify => exact h.fits i pc hdel
  · intro e he
    change e ∈ (job.ranUp clock).log at he
    rw [hl.log] at he
    exact (h.named e he).trans (hsource e.slot).symm
  · intro e he hdeletes
    change e ∈ (job.ranUp clock).log at he
    rw [hl.log] at he
    exact Nat.le_trans (h.reached e he hdeletes) hle
  · change ((job.ranUp clock).log.filter _).Pairwise _
    rw [hl.log]
    exact h.sorted
  · intro i hdel
    change ((job.ranUp clock).slots i).del = some .returned at hdel
    change ∃ e ∈ (job.ranUp clock).log, _
    rw [hl.log]
    have hspawned := hl.slots i
    generalize (job.ranUp clock).slots i = slot at hspawned hdel
    cases hspawned with
    | kept => exact h.answered i hdel
    | delete => cases hdel
    | verify => exact h.answered i hdel

theorem exec_ordered (repr : String → String) (s : Step n) (h : ∃ cut, Ordered job cut) :
    ∃ cut, Ordered (exec repr job s) cut := by
  obtain ⟨cut, h⟩ := h
  have heffect := exec_effect repr job s
  generalize exec repr job s = job' at heffect
  cases heffect with
  | unchanged => exact ⟨cut, h⟩
  | deleted hdel hturn => exact ⟨cut, ordered_deleted h hdel hturn⟩
  | verified hver hturn => exact ⟨cut, ordered_verified h hver hturn⟩
  | ran => exact ordered_ran h s.clock

theorem start_ordered (items : List Item) : Ordered (start items) 0 where
  phased := ⟨fun _ hlt => absurd hlt (Nat.not_lt_zero _), fun _ _ => rfl, fun _ _ => rfl,
    fun _ hver => absurd rfl hver⟩
  runner := ⟨rfl, fun _ => rfl⟩
  bound := by omega
  fits := fun _ _ hdel => by cases hdel
  named := fun _ he => by cases he
  reached := fun _ he => by cases he
  sorted := .nil
  answered := fun _ hdel => by cases hdel

theorem exec_key (repr : String → String) (s : Step n) (i : Fin n) (h : ∃ cut, Ordered job cut) :
    ((exec repr job s).slots i).item.key = (job.slots i).item.key := by
  obtain ⟨cut, h⟩ := h
  have heffect := exec_effect repr job s
  generalize exec repr job s = job' at heffect ⊢
  cases heffect with
  | unchanged => rfl
  | @deleted j pc reply t hdel hturn =>
    exact @deleted_key n job j pc reply t (deleteTurn_cases (h.fits j pc hdel) hturn).1 i
  | @verified j pc reply t _ hturn => exact @verified_key n job j pc reply t (verifyTurn_cases hturn).1 i
  | ran =>
    obtain ⟨_, _, _, hl⟩ := ranUp_launched s.clock h.phased h.runner h.bound
    exact congrArg Item.key (hl.slots i).item

theorem run_ordered (repr : String → String) {items : List Item} (steps : List (Step items.length)) :
    (∃ cut, Ordered (steps.foldl (exec repr) (start items)) cut) ∧
      ∀ i, ((steps.foldl (exec repr) (start items)).slots i).item.key = (items.get i).key := by
  refine foldl_invariant (G := fun job : Job items.length =>
    (∃ cut, Ordered job cut) ∧ ∀ i, (job.slots i).item.key = (items.get i).key) ?_ ⟨⟨0, start_ordered items⟩, fun _ => rfl⟩
  intro job s h
  exact ⟨exec_ordered repr s h.1, fun i => (exec_key repr s i h.1).trans (h.2 i)⟩

/-- When a delete of a source is asked for, the deletes of all sources before it have been
answered, and none of them is asked for or answered any more. -/
theorem deletes_in_order (repr : String → String) (items : List Item) (steps : List (Step items.length))
    {before after : List (Entry items.length)} {e : Entry items.length}
    (hlog : (steps.foldl (exec repr) (start items)).log = before ++ e :: after) (he : e.call.deletes = true) :
    (∀ i, (items.get i).source.order < (items.get e.slot).source.order →
      ∃ a ∈ before, a.slot = i ∧ a.call.ends = true ∧ a.answer ≠ none) ∧
    ∀ a ∈ after, a.call.deletes = true →
      (items.get e.slot).source.order ≤ (items.get a.slot).source.order := by
  obtain ⟨⟨cut, h⟩, hkeys⟩ := run_ordered repr steps
  generalize steps.foldl (exec repr) (start items) = job at h hkeys hlog
  have hsource : ∀ i, job.source i = (items.get i).source := fun i => Item.source_of_key (hkeys i)
  have hnamed : ∀ a ∈ job.log, a.source.order = (items.get a.slot).source.order := by
    intro a ha
    rw [h.named a ha, hsource]
  have hmem : e ∈ job.log := by
    rw [hlog]
    exact List.mem_append.mpr (.inr List.mem_cons_self)
  have hsorted := h.sorted
  rw [hlog, List.filter_append, List.filter_cons_of_pos (p := fun e : Entry items.length => e.call.deletes) he,
    List.pairwise_append] at hsorted
  have hafter : ∀ a ∈ after, a.call.deletes = true → e.source.order ≤ a.source.order :=
    fun a ha hdel => (List.pairwise_cons.mp hsorted.2.1).1 a (List.mem_filter.mpr ⟨ha, hdel⟩)
  have hlater : ∀ a ∈ after, a ∈ job.log := by
    intro a ha
    rw [hlog]
    exact List.mem_append.mpr (.inr (List.mem_cons_of_mem _ ha))
  constructor
  · intro i hlt
    have hcut := h.reached e hmem he
    rw [hnamed e hmem] at hcut
    obtain ⟨a, ha, hslot, hends, hanswer⟩ := h.answered i (h.phased.passed i (by rw [hsource]; omega))
    have hdel : a.call.deletes = true := by
      cases hcall : a.call <;> rw [hcall] at hends <;> first | rfl | cases hends
    have horder : a.source.order < e.source.order := by
      rw [hnamed a ha, hnamed e hmem, hslot]
      exact hlt
    rw [hlog] at ha
    rcases List.mem_append.mp ha with ha | ha
    · exact ⟨a, ha, hslot, hends, hanswer⟩
    · rcases List.mem_cons.mp ha with rfl | ha
      · omega
      · have := hafter a ha hdel
        omega
  · intro a ha hdel
    have := hafter a ha hdel
    rwa [hnamed a (hlater a ha), hnamed e hmem] at this

def twoItems : List Item := [{ source := .intune, objectId := "m" }, { source := .autopilot, objectId := "a" }]

def twoSteps : List (Step 2) :=
  [⟨.runner, ⟨0, "0"⟩, true⟩, ⟨.delete 0 .started, ⟨0, "0"⟩, true⟩, ⟨.runner, ⟨1, "1"⟩, true⟩,
    ⟨.delete 0 (.status 204 ""), ⟨2, "2"⟩, true⟩, ⟨.runner, ⟨2, "2"⟩, true⟩, ⟨.delete 1 .started, ⟨2, "2"⟩, true⟩]

def twoAnswered : List (Entry 2) :=
  [⟨0, .intune, .delete, none⟩, ⟨0, .intune, .delete, some (.status 204 "")⟩]

/-- The second delete has waited for the answer to the first. -/
theorem twoItems_in_order : ∃ a ∈ twoAnswered, a.slot = 0 ∧ a.call.ends = true ∧ a.answer ≠ none :=
  (@deletes_in_order id twoItems twoSteps twoAnswered [] ⟨(1 : Fin 2), .autopilot, .delete, none⟩ (by decide +kernel)
    rfl).1 (0 : Fin 2) (by decide)

end Loop

end ProxmoxVEAutopilot.CloudDeletes
