import ProxmoxVEAutopilot.ManagedLabs.FixOutcomes

/-!
# What a fix action reports

A create action whose object is in the inventory is called fixed without a look at what the
verification observed, and the two read a row differently: any of its ids is good for the
one, the other reads a single field. The answer of the lock call is cleaned of fields with
the names of secrets before the token is read, and one of the names it may have is `token`.
-/

namespace ProxmoxVEAutopilot.ManagedLabs.FixActions

open Foundation
open Foundation.Coroutine (await catching ofExcept state update Moves Asks converse converse_bind converse_bind_cases
  converse_ofExcept_bind_cases converse_catching converse_ofExcept converse_await follow recover)
open PlanSession (FindingRow getOr orElse idText isNamed)

set_option autoImplicit false

section Attempting
variable {py : Python} {dhcpRange : Option Json → String × String} {sync : SdnInventory → String → Except String Unit}
variable {reply : List SdnCall → Except String Json} {p : Prepared} {s : FixState} {asked : List SdnCall}

theorem existing_verification {existing : Fields}
    (h : existingCreateResult py p.action p.request p.inventory = some existing) :
    existing.lookup "verification" = none := by
  unfold existingCreateResult at h
  cases haction : p.action with
  | createZone =>
    rw [haction] at h
    dsimp only at h
    split at h
    · cases h
      rfl
    · cases h
  | createVnet =>
    rw [haction] at h
    dsimp only at h
    split at h
    · cases h
      rfl
    · cases h
  | createSubnet =>
    rw [haction] at h
    dsimp only at h
    split at h
    · cases h
      rfl
    · cases h
  | applySdn =>
    rw [haction] at h
    cases h

/-- The tables are written only where the action ends. -/
def TablesKept (s t : FixState) : Prop := t.committed = s.committed ∧ t.work = s.work

theorem attemptFix_moves (action : ActionType) (request : Fields) :
    (attemptFix py dhcpRange action request).Moves TablesKept := by
  have hcreate : ∀ call, (create py call).Moves TablesKept := fun call => Moves.bind .await fun _ => trivial
  refine Moves.bind ?_ fun _ => Moves.bind inventory_moves fun _ => trivial
  unfold mutate
  cases action with
  | createZone => exact hcreate _
  | createVnet => exact hcreate _
  | createSubnet =>
    dsimp only
    unfold createSubnet
    dsimp only
    split
    · exact Moves.ofExcept
    · exact hcreate _
  | applySdn =>
    dsimp only
    unfold applyPending
    refine Moves.bind .await fun lock => Moves.bind (.update fun s => ⟨rfl, rfl⟩) fun _ => ?_
    split
    · exact Moves.ofExcept
    · unfold applyLocked
      refine Moves.bind .await fun _ => Moves.bind .await fun _ => ?_
      exact Moves.bind (.update fun s => ⟨rfl, rfl⟩) fun _ => trivial

theorem attempted_cases (py : Python) (dhcpRange : Option Json → String × String)
    (reply : List SdnCall → Except String Json) (p : Prepared) (s : FixState) (asked : List SdnCall) :
    (∃ done, ((attempted py dhcpRange p).converse reply s asked).result = .ok done) ∧
      TablesKept s ((attempted py dhcpRange p).converse reply s asked).state := by
  have hmoves : (attempted py dhcpRange p).Moves TablesKept :=
    Moves.catching (Moves.bind (attemptFix_moves _ _) fun _ => trivial) fun _ => trivial
  have hraises : (attempted py dhcpRange p).NeverRaises := Coroutine.NeverRaises.catching fun _ => trivial
  refine ⟨hraises.converse reply s asked, hmoves.converse (fun s => ⟨rfl, rfl⟩) ?_ reply s asked⟩
  exact fun hst htu => ⟨htu.1.trans hst.1, htu.2.trans hst.2⟩

/-- Once it is tried, an action is fixed only with an observation. -/
theorem carryOut_ending (dhcpRange : Option Json → String × String) (sync : SdnInventory → String → Except String Unit)
    (reply : List SdnCall → Except String Json) (s : FixState) (asked : List SdnCall)
    (hnone : existingCreateResult py p.action p.request p.inventory = none)
    (hs : s.committed = s.work) :
    Ending s.work p.fix.id ((carryOut py dhcpRange sync p).converse reply s asked).state.committed := by
  obtain ⟨⟨done, hdone⟩, hcommitted, hwork⟩ := attempted_cases py dhcpRange reply p s asked
  unfold carryOut
  rw [hnone]
  dsimp only
  rw [converse_bind]
  unfold follow
  rw [hdone, ← hwork]
  cases done with
  | ok x => exact (finishMutated_ending _ _ (by rw [hcommitted, hwork, hs])).2
  | error e => exact (finishFailed_ending _).2

end Attempting

section Locking
variable {py : Python} {dhcpRange : Option Json → String × String} {sync : SdnInventory → String → Except String Unit}
variable {reply : List SdnCall → Except String Json} {p : Prepared} {s : FixState} {asked : List SdnCall}

def SdnCall.isLock : SdnCall → Bool
  | .acquireLock _ => true
  | _ => false

theorem isLock_of_mutates {c : SdnCall} (h : c.mutates = false) : c.isLock = false := by
  cases c with
  | acquireLock allowPending => cases h
  | _ => rfl

theorem Asks.isLock {α : Type} {c : Handler α} (h : c.Asks fun c => c.mutates = false) :
    c.Asks fun c => c.isLock = false := by
  induction c with
  | returned a => trivial
  | raised e => trivial
  | updating f next ih => exact fun s => ih s (h s)
  | awaiting r next ih => exact ⟨isLock_of_mutates h.1, fun reply => ih reply (h.2 reply)⟩

def heldToken (py : Python) (answer : Json) : String := lockTokenFromResponse py (cleanAnswer py answer)

/-- No second lock, and no release of another token. -/
def About (token : String) (c : SdnCall) : Prop := c.isLock = false ∧ ∀ t force, c = .releaseLock t force → t = token

theorem about_of_mutates {token : String} {c : SdnCall} (h : c.mutates = false) : About token c := by
  refine ⟨isLock_of_mutates h, ?_⟩
  rintro t force rfl
  cases h

theorem about_applySdn (token : String) : About token (.applySdn token) := ⟨rfl, fun _ _ h => by cases h⟩

theorem about_releaseLock (token : String) (force : Bool) : About token (.releaseLock token force) := by
  refine ⟨rfl, ?_⟩
  rintro t _ ⟨⟩
  rfl

theorem applyLocked_cases (py : Python) (reply : List SdnCall → Except String Json) (token : String) (s : FixState)
    (asked : List SdnCall) :
    (∃ e used, (applyLocked py token).converse reply s asked = ⟨.error e, s, asked ++ used⟩ ∧
      ∀ c ∈ used, About token c) ∨
    ∃ j, (applyLocked py token).converse reply s asked =
      ⟨.ok j, { s with released := true }, asked ++ [.applySdn token, .releaseLock token false]⟩ := by
  unfold applyLocked
  rcases converse_bind_cases (await (.applySdn token) : Handler Json) _ _ _ with ⟨e, _, happly⟩ | ⟨result, _, happly⟩
  · rw [converse_await] at happly
    refine .inl ⟨e, [.applySdn token], happly, fun c hc => ?_⟩
    rw [List.mem_singleton.mp hc]
    exact about_applySdn token
  rw [converse_await] at happly
  rcases converse_bind_cases (await (.releaseLock token false) : Handler Json) _ _ _ with ⟨e, _, hrelease⟩ | ⟨_, _, hrelease⟩
  · rw [converse_await, List.append_assoc] at hrelease
    refine .inl ⟨e, [.applySdn token, .releaseLock token false], happly.trans hrelease, fun c hc => ?_⟩
    rcases List.mem_cons.mp hc with rfl | hc
    · exact about_applySdn token
    · rw [List.mem_singleton.mp hc]
      exact about_releaseLock token false
  · rw [converse_await, List.append_assoc] at hrelease
    exact .inr ⟨_, happly.trans hrelease⟩

/-- Without a token nothing is held; with one, either it was released or an exception was raised
while it is held. -/
theorem applyPending_cases (py : Python) (reply : List SdnCall → Except String Json) (request : Fields)
    {s : FixState} (hs : s.lockToken = "") (asked : List SdnCall) :
    (∃ e t, (applyPending py request).converse reply s asked = ⟨.error e, t, asked ++ [lockCall request]⟩ ∧
      t.lockToken = "" ∧ ∀ answer, reply (asked ++ [lockCall request]) = .ok answer → heldToken py answer = "") ∨
    ∃ answer, reply (asked ++ [lockCall request]) = .ok answer ∧ heldToken py answer ≠ "" ∧
      ((∃ e used, (applyPending py request).converse reply s asked =
          ⟨.error e, { s with lockToken := heldToken py answer }, asked ++ lockCall request :: used⟩ ∧
          ∀ c ∈ used, About (heldToken py answer) c) ∨
        ∃ j, (applyPending py request).converse reply s asked =
          ⟨.ok j, { s with lockToken := heldToken py answer, released := true },
            asked ++ [lockCall request, .applySdn (heldToken py answer), .releaseLock (heldToken py answer) false]⟩) := by
  change (∃ e t, (await (lockCall request) >>= _ : Handler Json).converse reply s asked = _ ∧ _) ∨ _
  rcases converse_bind_cases (await (lockCall request)) _ _ _ with ⟨e, he, h⟩ | ⟨answer, hanswer, h⟩
  · rw [converse_await] at he h
    refine .inl ⟨e, s, h, hs, fun answer hanswer => ?_⟩
    rw [show reply (asked ++ [lockCall request]) = .error e from he] at hanswer
    cases hanswer
  · rw [converse_await] at hanswer h
    replace h : _ = (if heldToken py answer = "" then ofExcept (.error "failed to acquire SDN lock token")
      else applyLocked py (heldToken py answer)).converse reply { s with lockToken := heldToken py answer }
        (asked ++ [lockCall request]) := h
    by_cases htoken : heldToken py answer = ""
    · rw [if_pos htoken] at h
      refine .inl ⟨_, _, h, htoken, fun other hother => ?_⟩
      rw [show reply (asked ++ [lockCall request]) = .ok answer from hanswer] at hother
      cases hother
      exact htoken
    · rw [if_neg htoken] at h
      refine .inr ⟨answer, hanswer, htoken, ?_⟩
      rcases applyLocked_cases py reply (heldToken py answer) { s with lockToken := heldToken py answer }
        (asked ++ [lockCall request]) with ⟨e, used, hused, habout⟩ | ⟨j, hj⟩
      · rw [hused, List.append_assoc] at h
        exact .inl ⟨e, used, h, habout⟩
      · rw [hj, List.append_assoc] at h
        exact .inr ⟨j, h⟩

theorem attempted_error {e : String} {t : FixState} {l : List SdnCall}
    (h : (mutate py p.action p.request).converse reply s asked = ⟨.error e, t, l⟩) :
    (attempted py dhcpRange p).converse reply s asked = ⟨.ok (.error e), t, l⟩ := by
  unfold attempted attemptFix
  rw [converse_catching, converse_bind, converse_bind, h]
  rfl

theorem attempted_ok (dhcpRange : Option Json → String × String) {j : Json} {t : FixState} {l : List SdnCall}
    (h : (mutate py p.action p.request).converse reply s asked = ⟨.ok j, t, l⟩) :
    ∃ done more, (attempted py dhcpRange p).converse reply s asked = ⟨.ok done, t, l ++ more⟩ ∧
      ∀ c ∈ more, c.mutates = false := by
  have hasks : (inventory py dhcpRange).Asks fun c => c.mutates = false := inventory_asks
  obtain ⟨more, hmore, hall⟩ := hasks.converse reply t l
  have hstate : ((inventory py dhcpRange).converse reply t l).state = t := inventory_state t
  unfold attempted attemptFix
  rw [converse_catching, converse_bind, converse_bind, h]
  unfold follow recover
  dsimp only
  rw [converse_bind]
  unfold follow
  rw [hstate, hmore]
  cases ((inventory py dhcpRange).converse reply t l).result with
  | ok post => exact ⟨_, more, rfl, hall⟩
  | error e => exact ⟨_, more, rfl, hall⟩

theorem carryOut_asked_ok {x : Json × SdnInventory} {t : FixState} {l : List SdnCall}
    (hnone : existingCreateResult py p.action p.request p.inventory = none)
    (h : (attempted py dhcpRange p).converse reply s asked = ⟨.ok (.ok x), t, l⟩) (ht : t.committed = t.work) :
    ((carryOut py dhcpRange sync p).converse reply s asked).asked = l := by
  unfold carryOut
  rw [hnone]
  dsimp only
  rw [converse_bind, h]
  exact (finishMutated_ending _ _ ht).1

theorem carryOut_asked_error {e : String} {t : FixState} {l : List SdnCall}
    (hnone : existingCreateResult py p.action p.request p.inventory = none)
    (h : (attempted py dhcpRange p).converse reply s asked = ⟨.ok (.error e), t, l⟩) :
    ((carryOut py dhcpRange sync p).converse reply s asked).asked =
      l ++ if t.lockToken ≠ "" ∧ t.released = false then [.releaseLock t.lockToken true] else [] := by
  unfold carryOut
  rw [hnone]
  dsimp only
  rw [converse_bind, h]
  exact (finishFailed_ending e).1

/-- Of a token that was read from the answer of the lock call a release is tried. -/
theorem carryOut_locks (py : Python) (dhcpRange : Option Json → String × String)
    (sync : SdnInventory → String → Except String Unit) (reply : List SdnCall → Except String Json) (p : Prepared)
    (s : FixState) (asked : List SdnCall) (haction : p.action = .applySdn) (hwork : s.committed = s.work) (hs : s.lockToken = "")
    (hreleased : s.released = false) :
    (((carryOut py dhcpRange sync p).converse reply s asked).asked = asked ++ [lockCall p.request] ∧
      ∀ answer, reply (asked ++ [lockCall p.request]) = .ok answer → heldToken py answer = "") ∨
    ∃ answer used, reply (asked ++ [lockCall p.request]) = .ok answer ∧
      ((carryOut py dhcpRange sync p).converse reply s asked).asked = asked ++ lockCall p.request :: used ∧
      (∀ c ∈ used, About (heldToken py answer) c) ∧ ∃ force, .releaseLock (heldToken py answer) force ∈ used := by
  have hnone : existingCreateResult py p.action p.request p.inventory = none := by rw [haction]; rfl
  have hmutate : mutate py p.action p.request = applyPending py p.request := by rw [haction]; rfl
  rcases applyPending_cases py reply p.request hs asked with
    ⟨e, t, hraised, htoken, hheld⟩ | ⟨answer, hanswer, hheld, ⟨e, used, hraised, habout⟩ | ⟨j, hreturned⟩⟩
  · rw [← hmutate] at hraised
    refine .inl ⟨?_, hheld⟩
    rw [carryOut_asked_error hnone (attempted_error hraised), if_neg (fun h => h.1 htoken), List.append_nil]
  · rw [← hmutate] at hraised
    refine .inr ⟨answer, used ++ [.releaseLock (heldToken py answer) true], hanswer, ?_, ?_, true, by simp⟩
    · rw [carryOut_asked_error hnone (attempted_error hraised), if_pos ⟨hheld, hreleased⟩, List.append_assoc]
      rfl
    · intro c hc
      rcases List.mem_append.mp hc with hc | hc
      · exact habout c hc
      · rw [List.mem_singleton.mp hc]
        exact about_releaseLock _ true
  · rw [← hmutate] at hreturned
    obtain ⟨done, more, hattempted, hmore⟩ := attempted_ok dhcpRange hreturned
    refine .inr ⟨answer, .applySdn (heldToken py answer) :: .releaseLock (heldToken py answer) false :: more, hanswer,
      ?_, ?_, false, by simp⟩
    · cases done with
      | ok x =>
        rw [carryOut_asked_ok hnone hattempted hwork, List.append_assoc]
        rfl
      | error e =>
        rw [carryOut_asked_error hnone hattempted, if_neg (fun h => Bool.noConfusion h.2), List.append_nil,
          List.append_assoc]
        rfl
    · intro c hc
      rcases List.mem_cons.mp hc with rfl | hc
      · exact about_applySdn _
      rcases List.mem_cons.mp hc with rfl | hc
      · exact about_releaseLock _ false
      · exact about_of_mutates (hmore c hc)

theorem carryOut_asks (haction : p.action ≠ .applySdn) :
    (carryOut py dhcpRange sync p).Asks fun c => c.isLock = false := by
  have hwrite : ∀ status result, (updateFixAction p.fix.id status result p.snapshotId).Asks fun c => c.isLock = false :=
    fun status result _ _ => trivial
  have hresolve : (resolveFindingOf p.fix.row.labId p.action).Asks fun c => c.isLock = false := by
    unfold resolveFindingOf
    cases p.action.findingType with
    | none => trivial
    | some findingType => exact fun _ => trivial
  have hcreate : ∀ call : SdnCall, call.isLock = false → (create py call).Asks fun c => c.isLock = false :=
    fun call h => Asks.bind (.await h) fun _ => trivial
  have hmutate : (mutate py p.action p.request).Asks fun c => c.isLock = false := by
    unfold mutate
    cases h : p.action with
    | createZone => exact hcreate _ rfl
    | createVnet => exact hcreate _ rfl
    | createSubnet =>
      dsimp only
      unfold createSubnet
      dsimp only
      split
      · exact Asks.ofExcept
      · exact hcreate _ rfl
    | applySdn => exact absurd h haction
  have hforce : forceRelease.Asks fun c => c.isLock = false := by
    refine Asks.bind (fun _ => trivial) fun s => ?_
    split
    · exact Asks.catching (Asks.bind (.await rfl) fun _ => trivial) fun _ => trivial
    · trivial
  have hmutated : ∀ result post, (finishMutated py sync p result post).Asks fun c => c.isLock = false := by
    intro result post
    unfold finishMutated
    dsimp only
    refine Asks.bind .ofExcept fun _ => ?_
    cases (verificationRows py p.action p.request post).1 with
    | true => exact Asks.bind hresolve fun _ => hwrite _ _
    | false => exact Asks.bind (fun _ => trivial) fun _ => hwrite _ _
  unfold carryOut
  split
  · exact Asks.bind .ofExcept fun _ => Asks.bind hresolve fun _ => hwrite _ _
  · refine Asks.bind ?_ fun done => ?_
    · refine Asks.catching (Asks.bind ?_ fun _ => trivial) fun _ => trivial
      exact Asks.bind hmutate fun _ => Asks.bind (Asks.isLock inventory_asks) fun _ => trivial
    · cases done with
      | error e => exact Asks.bind hforce fun _ => hwrite _ _
      | ok x => exact hmutated x.1 x.2

theorem carryOut_unlocked (haction : p.action ≠ .applySdn) (hasked : ∀ c ∈ asked, c.isLock = false) :
    ∀ c ∈ ((carryOut py dhcpRange sync p).converse reply s asked).asked, c.isLock = false := by
  have hasks : (carryOut py dhcpRange sync p).Asks fun c => c.isLock = false := carryOut_asks haction
  obtain ⟨new, hnew, hall⟩ := hasks.converse reply s asked
  intro c hc
  rw [hnew] at hc
  exact (List.mem_append.mp hc).elim (hasked c) (hall c)

end Locking

section Honesty
variable {py : Python} {dhcpRange : Option Json → String × String} {sync : SdnInventory → String → Except String Unit}
variable {reply : List SdnCall → Except String Json} {db : FixDb} {fixId : Nat} {p : Prepared} {asked : List SdnCall}

theorem releasesLock_of_none (h : ∀ c ∈ asked, c.isLock = false) : ReleasesLock py reply asked := by
  rintro pre allowPending post answer rfl
  have hlock : (SdnCall.acquireLock allowPending).isLock = false := h _ (by simp)
  cases hlock

theorem namesAgree_of_not_present (h : ¬ Present py p) : NamesAgree py p := by
  unfold NamesAgree
  split
  · exact fun hpresent => absurd hpresent h
  · exact fun hpresent => absurd hpresent h
  · trivial

theorem lock_split {used pre post : List SdnCall} {allowPending : Bool} (hasked : ∀ c ∈ asked, c.mutates = false)
    (hused : ∀ c ∈ used, c.isLock = false)
    (h : asked ++ lockCall p.request :: used = pre ++ .acquireLock allowPending :: post) :
    pre = asked ∧ .acquireLock allowPending = lockCall p.request ∧ post = used := by
  have hbefore : SdnCall.acquireLock allowPending ∉ asked := by
    intro hmem
    cases hasked _ hmem
  have hafter : SdnCall.acquireLock allowPending ∉ used := by
    intro hmem
    cases hused _ hmem
  obtain ⟨hpre, hlock, hpost⟩ := (List.append_cons_inj_of_notMem hbefore hafter).mp h
  exact ⟨hpre.symm, hlock.symm, hpost.symm⟩

/-- After the lock call, every token it returned is released if and only if that is the token
that was read. -/
theorem releasesLock_iff (haction : p.action = .applySdn) (hasked : ∀ c ∈ asked, c.mutates = false) :
    ReleasesLock py reply ((carryOut py dhcpRange sync p).converse reply (begun db) asked).asked ↔
      TokenSurvives py reply p asked := by
  rcases carryOut_locks py dhcpRange sync reply p (begun db) asked haction rfl rfl rfl with
    ⟨hlocked, hheld⟩ | ⟨answer, used, hanswer, hlocked, habout, force, hreleased⟩
  · rw [hlocked]
    constructor
    · intro h _ answer hanswer htoken
      obtain ⟨force, hmem⟩ := h asked _ [] answer rfl hanswer htoken
      cases hmem
    · intro h pre allowPending post answer hsplit hanswer htoken
      obtain ⟨rfl, hlock, rfl⟩ := lock_split hasked (fun c hc => by cases hc) hsplit
      rw [hlock] at hanswer
      have hsame := h haction answer hanswer htoken
      rw [show lockTokenFromResponse py (cleanAnswer py answer) = "" from hheld answer hanswer] at hsame
      exact absurd hsame.symm htoken
  · rw [hlocked]
    constructor
    · intro h _ other hother htoken
      obtain ⟨force, hmem⟩ := h asked _ used other rfl hother htoken
      rw [hanswer] at hother
      cases hother
      exact ((habout _ hmem).2 _ _ rfl).symm
    · intro h pre allowPending post other hsplit hother htoken
      obtain ⟨rfl, hlock, rfl⟩ := lock_split hasked (fun c hc => (habout c hc).1) hsplit
      rw [hlock, hanswer] at hother
      cases hother
      exact ⟨force, h haction answer hanswer htoken ▸ hreleased⟩

theorem executed_error {e : String} (h : prepared py dhcpRange reply db fixId = ⟨.error e, begun db, asked⟩) :
    executed py dhcpRange sync reply db fixId = ⟨.error e, begun db, asked⟩ := by
  unfold executed executeFixAction
  rw [converse_bind, show (prepare py dhcpRange fixId).converse reply (begun db) [] = _ from h]
  rfl

theorem executed_ok {s : FixState} (h : prepared py dhcpRange reply db fixId = ⟨.ok p, s, asked⟩) :
    executed py dhcpRange sync reply db fixId = (carryOut py dhcpRange sync p).converse reply s asked := by
  unfold executed executeFixAction
  rw [converse_bind, show (prepare py dhcpRange fixId).converse reply (begun db) [] = _ from h]
  rfl

theorem getFixAction_id {fix : StoredFix} (h : getFixAction db fixId = some fix) : fix.id = fixId :=
  of_decide_eq_true (List.find?_some (p := fun f : StoredFix => decide (f.id = fixId)) h)

section Cases
variable (sync)

theorem honest_of_error {fix : StoredFix} {e : String} (hfix : getFixAction db fixId = some fix) (hpending : fix.row.status = "pending")
    (h : prepared py dhcpRange reply db fixId = ⟨.error e, begun db, asked⟩)
    (hasked : ∀ c ∈ asked, c.mutates = false) : Honest py dhcpRange sync reply db fixId := by
  have hending : Ending db fixId db := .unchanged rfl rfl
  have hexecuted : executed py dhcpRange sync reply db fixId = ⟨.error e, begun db, asked⟩ := executed_error h
  constructor
  · rw [hexecuted]
    exact releasesLock_of_none fun c hc => isLock_of_mutates (hasked c hc)
  · rw [hexecuted]
    exact hending.observed hfix (by rw [hpending]; decide)
  · intro p hp
    rw [h] at hp
    cases hp
  · intro hresolved
    rw [hexecuted] at hresolved ⊢
    exact hending.resolved hfix hresolved

/-- Where Proxmox is asked for a change it is the token that counts. -/
theorem honest_iff_absent (hfix : getFixAction db fixId = some p.fix) (hpending : p.fix.row.status = "pending")
    (hprepared : prepared py dhcpRange reply db fixId =
      ⟨.ok p, begun { db with snapshots := db.snapshots + 1 }, asked⟩)
    (hasked : ∀ c ∈ asked, c.mutates = false) (habsent : ¬ Present py p) :
    Honest py dhcpRange sync reply db fixId ↔ TokenSurvives py reply p asked := by
  have hnone : existingCreateResult py p.action p.request p.inventory = none := by
    rw [← existing_isSome_iff] at habsent
    simpa using habsent
  have hexecuted : executed py dhcpRange sync reply db fixId = _ := executed_ok hprepared
  have hending : Ending db fixId (executed py dhcpRange sync reply db fixId).state.committed := by
    rw [hexecuted, ← getFixAction_id hfix]
    exact (carryOut_ending dhcpRange sync reply (begun { db with snapshots := db.snapshots + 1 }) asked hnone rfl).snapshots
  have hlock : ReleasesLock py reply (executed py dhcpRange sync reply db fixId).asked ↔
      TokenSurvives py reply p asked := by
    rw [hexecuted]
    by_cases haction : p.action = .applySdn
    · exact releasesLock_iff haction hasked
    · refine iff_of_true (releasesLock_of_none ?_) fun h => absurd h haction
      exact carryOut_unlocked haction fun c hc => isLock_of_mutates (hasked c hc)
  rw [← hlock]
  refine ⟨Honest.released, fun hreleased => ⟨hreleased, ?_, ?_, hending.resolved hfix⟩⟩
  · exact hending.observed hfix (by rw [hpending]; decide)
  · intro q hq hpresent
    rw [hprepared] at hq
    cases hq
    exact absurd hpresent habsent

theorem not_apply_of_present (h : Present py p) : p.action ≠ .applySdn := by
  intro haction
  unfold Present at h
  rw [haction] at h
  exact h

/-- Where the object is present nothing is asked, and it is the names that count. -/
theorem honest_iff_present (hfix : getFixAction db fixId = some p.fix) (hpending : p.fix.row.status = "pending")
    (hprepared : prepared py dhcpRange reply db fixId =
      ⟨.ok p, begun { db with snapshots := db.snapshots + 1 }, asked⟩)
    (hasked : ∀ c ∈ asked, c.mutates = false) (hpresent : Present py p) :
    Honest py dhcpRange sync reply db fixId ↔ (sync p.inventory "fixing" = .ok () → NamesAgree py p) := by
  obtain ⟨existing, hexisting⟩ := Option.isSome_iff_exists.mp (existing_isSome_iff.mpr hpresent)
  have hexecuted : executed py dhcpRange sync reply db fixId = (finishPresent py sync p existing).converse reply
      (begun { db with snapshots := db.snapshots + 1 }) asked := by
    rw [executed_ok hprepared]
    unfold carryOut
    rw [hexisting]
  have hidle : ReleasesLock py reply asked := releasesLock_of_none fun c hc => isLock_of_mutates (hasked c hc)
  rcases finishPresent_cases py sync reply p (begun { db with snapshots := db.snapshots + 1 }) asked existing with
    ⟨e, hsync, hfinish⟩ | ⟨hsync, hfinish, hwritten⟩
  · have hending : Ending db fixId { db with snapshots := db.snapshots + 1 } := .unchanged rfl rfl
    rw [hfinish] at hexecuted
    refine iff_of_true ?_ fun h => by rw [hsync] at h; cases h
    constructor
    · rw [hexecuted]
      exact hidle
    · rw [hexecuted]
      exact hending.observed hfix (by rw [hpending]; decide)
    · rw [hexecuted]
      exact fun _ _ _ => hasked
    · rw [hexecuted]
      exact hending.resolved hfix
  · rw [getFixAction_id hfix] at hwritten
    have hrow := getFixAction_modify hfix hwritten
    rw [← hexecuted] at hrow hfinish
    have hobserved : FixedIsObserved fixId (executed py dhcpRange sync reply db fixId).state.committed ↔
        NamesAgree py p := by
      rw [← verification_iff hpresent]
      have hresult : observedIn (presentResult py p existing) =
          (verificationRows py p.action p.request p.inventory).1 := by
        refine observedIn_verification py p.action p.request p.inventory ([("ok", .bool true)] ++ existing) ?_
        rw [List.lookup_append, existing_verification hexisting]
        rfl
      rw [← hresult]
      constructor
      · exact fun h => h _ hrow rfl
      · intro h fix hfix' _
        rw [hrow] at hfix'
        cases hfix'
        exact h
    constructor
    · exact fun h _ => hobserved.mp h.observed
    · intro h
      refine ⟨by rw [hfinish]; exact hidle, hobserved.mpr (h hsync), ?_, fun _ => ⟨_, hrow, rfl⟩⟩
      rw [hfinish]
      exact fun _ _ _ => hasked

theorem honest_iff (hfix : getFixAction db fixId = some p.fix) (hpending : p.fix.row.status = "pending")
    (hprepared : prepared py dhcpRange reply db fixId =
      ⟨.ok p, begun { db with snapshots := db.snapshots + 1 }, asked⟩)
    (hasked : ∀ c ∈ asked, c.mutates = false) :
    Honest py dhcpRange sync reply db fixId ↔
      (sync p.inventory "fixing" = .ok () → NamesAgree py p) ∧ TokenSurvives py reply p asked := by
  by_cases hpresent : Present py p
  · rw [honest_iff_present sync hfix hpending hprepared hasked hpresent]
    exact (and_iff_left fun h => absurd h (not_apply_of_present hpresent)).symm
  · rw [honest_iff_absent sync hfix hpending hprepared hasked hpresent]
    exact (and_iff_right fun _ => namesAgree_of_not_present hpresent).symm

end Cases

end Honesty

section Main
variable (py : Python) (dhcpRange : Option Json → String × String) (sync : SdnInventory → String → Except String Unit)
variable (reply : List SdnCall → Except String Json) (db : FixDb) (fixId : Nat)

/-- A pending action reports what it did, if and only if an object that is present is named by
the preferred field of a row, and the token of the lock outlasts the cleaning of the answer. -/
theorem fix_honest_iff (fix : StoredFix) (hfix : getFixAction db fixId = some fix)
    (hpending : fix.row.status = "pending") :
    Honest py dhcpRange sync reply db fixId ↔
      ∀ p, (prepared py dhcpRange reply db fixId).result = .ok p →
        (sync p.inventory "fixing" = .ok () → NamesAgree py p) ∧
          TokenSurvives py reply p (prepared py dhcpRange reply db fixId).asked := by
  have hasked := prepared_asked py dhcpRange reply db fixId
  rcases prepared_cases py dhcpRange reply db fixId with ⟨e, asked, hprepared⟩ | ⟨p, asked, hprepared, hrow⟩
  · rw [hprepared] at hasked
    have hhonest := honest_of_error sync hfix hpending hprepared hasked
    rw [hprepared]
    exact iff_of_true hhonest fun p hp => by cases hp
  · rw [hprepared] at hasked
    cases hrow.symm.trans hfix
    have hiff := honest_iff sync hfix hpending hprepared hasked
    rw [hprepared]
    refine hiff.trans ⟨?_, fun h => h p rfl⟩
    rintro h q ⟨⟩
    exact h

def plainPython : Python where
  str
    | .str s => s
    | _ => ""
  str_str _ := rfl
  lower := id
  dict _ := .error "not a dict"

def pendingFix (action : String) (request : Fields) : StoredFix where
  id := 0
  row := { labId := 1, runId := 0, action := ⟨action, 10, "", .obj request⟩ }

def oneFix (action : String) (request : Fields) : FixDb := { labs := [1], fixes := [pendingFix action request] }

def oneZone (zone lock : Json) (asked : List SdnCall) : Except String Json :=
  match asked.getLast? with
  | some .zones => .ok (.arr [zone])
  | some (.acquireLock _) => .ok lock
  | _ => .ok (.arr [])

/-- A zone that only its `id` names, and a token under a name that is cleaned away. -/
theorem fixed_unobserved_and_lock_kept :
    ¬ Honest plainPython (fun _ => ("", "")) (fun _ _ => .ok ())
      (oneZone (.obj [("id", .str "labz"), ("zone", .str "other")]) .null)
      (oneFix "create_sdn_zone" [("zone", .str "labz")]) 0 ∧
    ¬ Honest plainPython (fun _ => ("", "")) (fun _ _ => .ok ())
      (oneZone .null (.obj [("token", .str "t")])) (oneFix "apply_sdn" []) 0 := by
  constructor
  · intro h
    have hobserved := h.observed _ rfl rfl
    revert hobserved
    decide +kernel
  · intro h
    obtain ⟨force, hmem⟩ := h.released [.zones, .vnets, .controllers, .ipams, .dns, .fabrics] true [] _ rfl rfl
      (by decide)
    cases hmem

theorem apply_honest : Honest plainPython (fun _ => ("", "")) (fun _ _ => .ok ()) (oneZone .null (.str "t"))
    (oneFix "apply_sdn" []) 0 := by
  refine (fix_honest_iff plainPython _ _ _ _ 0 (pendingFix "apply_sdn" []) rfl rfl).mpr ?_
  rintro p ⟨⟩
  refine ⟨fun _ => trivial, fun _ answer hanswer _ => ?_⟩
  cases hanswer
  rfl

end Main

end ProxmoxVEAutopilot.ManagedLabs.FixActions
