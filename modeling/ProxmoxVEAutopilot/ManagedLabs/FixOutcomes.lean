import ProxmoxVEAutopilot.ManagedLabs.FixActions

/-!
# How a fix action begins and ends

What an action is to report, what is read before it is carried out, and what each of its
ends writes.
-/

namespace ProxmoxVEAutopilot.ManagedLabs.FixActions

open Foundation
open Foundation.Coroutine (await catching ofExcept state update Moves Asks converse converse_bind converse_bind_cases
  converse_ofExcept_bind_cases converse_catching converse_ofExcept converse_await follow recover)
open PlanSession (FindingRow getOr orElse idText isNamed)

set_option autoImplicit false

section Specification
variable (py : Python) (dhcpRange : Option Json → String × String) (sync : SdnInventory → String → Except String Unit)
variable (reply : List SdnCall → Except String Json) (db : FixDb) (fixId : Nat)

def begun (db : FixDb) : FixState := { committed := db, work := db }

/-- The whole call, on a connection with nothing in work. -/
def executed : Exchange FixState SdnCall String Unit :=
  (executeFixAction py dhcpRange sync fixId).converse reply (begun db) []

def prepared : Exchange FixState SdnCall String Prepared := (prepare py dhcpRange fixId).converse reply (begun db) []

def observedIn (result : Json) : Bool :=
  match result with
  | .obj fields =>
    match fields.lookup "verification" with
    | some (.obj verification) => verification.lookup "observed" = some (.bool true)
    | _ => false
  | _ => false

/-- Each token that a lock call has returned is offered for release afterwards. -/
def ReleasesLock (asked : List SdnCall) : Prop :=
  ∀ pre allowPending post answer, asked = pre ++ .acquireLock allowPending :: post →
    reply (pre ++ [.acquireLock allowPending]) = .ok answer → lockTokenFromResponse py answer ≠ "" →
      ∃ force, .releaseLock (lockTokenFromResponse py answer) force ∈ post

def FixedIsObserved (after : FixDb) : Prop :=
  ∀ fix, getFixAction after fixId = some fix → fix.row.status = "fixed" → observedIn fix.result = true

/-- The object of a create action is in the inventory. -/
def Present (p : Prepared) : Prop :=
  match p.action with
  | .createZone =>
    requestText py p.request "zone" ≠ "" ∧
      ∃ row ∈ p.inventory.zones, requestText py p.request "zone" ∈ idTexts py ["zone"] row
  | .createVnet =>
    requestText py p.request "vnet" ≠ "" ∧
      ∃ row ∈ p.inventory.vnets, requestText py p.request "vnet" ∈ idTexts py ["vnet"] row
  | .createSubnet =>
    requestText py p.request "vnet" ≠ "" ∧ requestText py p.request "subnet" ≠ "" ∧
      ∃ row ∈ p.inventory.subnets (requestText py p.request "vnet"),
        requestText py p.request "subnet" ∈ idTexts py ["subnet", "cidr"] row
  | .applySdn => False

def Resolved (before after : FixDb) : Prop :=
  ∃ (i : Nat) (r r' : FindingRow), before.findings[i]? = some r ∧ after.findings[i]? = some r' ∧ r.status = "open" ∧ r'.status ≠ "open"

structure Honest : Prop where
  released : ReleasesLock py reply (executed py dhcpRange sync reply db fixId).asked
  observed : FixedIsObserved fixId (executed py dhcpRange sync reply db fixId).state.committed
  idle : ∀ p, (prepared py dhcpRange reply db fixId).result = .ok p → Present py p →
    ∀ call ∈ (executed py dhcpRange sync reply db fixId).asked, call.mutates = false
  resolved : Resolved db (executed py dhcpRange sync reply db fixId).state.committed →
    ∃ fix, getFixAction (executed py dhcpRange sync reply db fixId).state.committed fixId = some fix ∧
      fix.row.status = "fixed"

/-- A zone or a VNet that one of the ids of a row names is named by the field that is preferred. -/
def NamesAgree (p : Prepared) : Prop :=
  match p.action with
  | .createZone => Present py p → ∃ row ∈ p.inventory.zones, isNamed py.str "zone" (requestText py p.request "zone") row
  | .createVnet => Present py p → ∃ row ∈ p.inventory.vnets, isNamed py.str "vnet" (requestText py p.request "vnet") row
  | _ => True

def lockCall (request : Fields) : SdnCall := .acquireLock (getOr request "allow_pending" (.bool true)).truthy

/-- Cleaning the answer of the lock call leaves the token as it is. -/
def TokenSurvives (p : Prepared) (asked : List SdnCall) : Prop :=
  p.action = .applySdn → ∀ answer, reply (asked ++ [lockCall p.request]) = .ok answer →
    lockTokenFromResponse py answer ≠ "" →
      lockTokenFromResponse py (cleanAnswer py answer) = lockTokenFromResponse py answer

end Specification

section Presence
variable {py : Python} {p : Prepared}

theorem mem_ids {rows : List Fields} {keys : List String} {name : String} :
    name ∈ ids py rows keys ↔ ∃ row ∈ rows, name ∈ idTexts py keys row := List.mem_flatMap

theorem existing_isSome_iff : (existingCreateResult py p.action p.request p.inventory).isSome = true ↔ Present py p := by
  unfold existingCreateResult Present
  cases p.action with
  | createZone =>
    dsimp only
    rw [← mem_ids]
    split
    · rename_i h
      exact iff_of_true rfl h
    · rename_i h
      exact iff_of_false (by simp) h
  | createVnet =>
    dsimp only
    rw [← mem_ids]
    split
    · rename_i h
      exact iff_of_true rfl h
    · rename_i h
      exact iff_of_false (by simp) h
  | createSubnet =>
    dsimp only
    rw [← mem_ids]
    split
    · rename_i h
      exact iff_of_true rfl h
    · rename_i h
      exact iff_of_false (by simp) h
  | applySdn => simp

theorem isNamed_nil {key name : String} (h : name ≠ "") : isNamed py.str key name [] = false := by
  have hempty : strip (py.str (.str "")) = "" := by
    rw [py.str_str]
    rfl
  simp [isNamed, getOr, PlanSession.orElse, Json.truthy, hempty, Ne.symm h]

theorem found_isEmpty {rows : List Fields} {holds : Fields → Bool} (h : holds [] = false) :
    ((rows.find? holds).getD []).isEmpty = !rows.any holds := by
  cases hfind : rows.find? holds with
  | none =>
    have hnone : rows.any holds = false := by
      rw [List.any_eq_false]
      exact List.find?_eq_none.mp hfind
    rw [hnone]
    rfl
  | some row =>
    have hholds : holds row = true := List.find?_some hfind
    have hany : rows.any holds = true := List.any_eq_true.mpr ⟨row, List.mem_of_find?_eq_some hfind, hholds⟩
    rw [hany]
    cases row with
    | nil =>
      rw [h] at hholds
      cases hholds
    | cons f rest => rfl

/-- Where the object is present, the verification observes it exactly if the two readings agree. -/
theorem verification_iff (h : Present py p) :
    (verificationRows py p.action p.request p.inventory).1 = true ↔ NamesAgree py p := by
  unfold verificationRows NamesAgree observedRow
  unfold Present at h
  cases haction : p.action with
  | createZone =>
    rw [haction] at h
    dsimp only at h ⊢
    rw [found_isEmpty (isNamed_nil h.1), Bool.not_not, List.any_eq_true]
    simp [Present, haction, h]
  | createVnet =>
    rw [haction] at h
    dsimp only at h ⊢
    rw [found_isEmpty (isNamed_nil h.1), Bool.not_not, List.any_eq_true]
    simp [Present, haction, h]
  | createSubnet =>
    rw [haction] at h
    obtain ⟨_, _, row, hrow, hid⟩ := h
    dsimp only
    rw [found_isEmpty (by simp [idTexts, idText]), Bool.not_not, List.any_eq_true]
    exact iff_of_true ⟨row, hrow, decide_eq_true hid⟩ trivial
  | applySdn => simp

end Presence

section Preparing
variable {py : Python} {dhcpRange : Option Json → String × String} {reply : List SdnCall → Except String Json}
variable {db : FixDb} {fixId : Nat} {asked : List SdnCall}

theorem subnetsByVnet_asks (seen : List (String × List Fields)) (vnets : List Fields) :
    (subnetsByVnet py dhcpRange seen vnets).Asks fun c => c.mutates = false := by
  induction vnets generalizing seen with
  | nil => trivial
  | cons vnet rest ih =>
    unfold subnetsByVnet
    dsimp only
    split
    · refine Asks.bind (.catching (.await rfl) fun _ => trivial) fun answer => ?_
      exact Asks.bind .ofExcept fun subnets => ih _
    · exact ih _

theorem inventory_asks : (inventory py dhcpRange).Asks fun c => c.mutates = false := by
  have hoptional : ∀ call : SdnCall, call.mutates = false → (optionalRows call).Asks fun c => c.mutates = false :=
    fun call h => Asks.catching (Asks.bind (.await h) fun _ => trivial) fun _ => trivial
  refine Asks.bind (.await rfl) fun _ => Asks.bind .ofExcept fun _ => ?_
  refine Asks.bind (.await rfl) fun _ => Asks.bind .ofExcept fun _ => ?_
  refine Asks.bind (subnetsByVnet_asks _ _) fun _ => ?_
  refine Asks.bind (hoptional _ rfl) fun _ => Asks.bind (hoptional _ rfl) fun _ => ?_
  exact Asks.bind (hoptional _ rfl) fun _ => Asks.bind (hoptional _ rfl) fun _ => trivial

variable {R : FixState → FixState → Prop}

theorem subnetsByVnet_moves (seen : List (String × List Fields)) (vnets : List Fields) :
    (subnetsByVnet py dhcpRange seen vnets).Moves R := by
  induction vnets generalizing seen with
  | nil => trivial
  | cons vnet rest ih =>
    unfold subnetsByVnet
    dsimp only
    split
    · exact Moves.bind (.catching .await fun _ => trivial) fun answer => Moves.bind .ofExcept fun subnets => ih _
    · exact ih _

theorem inventory_moves : (inventory py dhcpRange).Moves R := by
  have hoptional : ∀ call : SdnCall, (optionalRows call).Moves R :=
    fun call => Moves.catching (Moves.bind .await fun _ => trivial) fun _ => trivial
  refine Moves.bind .await fun _ => Moves.bind .ofExcept fun _ => ?_
  refine Moves.bind .await fun _ => Moves.bind .ofExcept fun _ => ?_
  refine Moves.bind (subnetsByVnet_moves _ _) fun _ => ?_
  refine Moves.bind (hoptional _) fun _ => Moves.bind (hoptional _) fun _ => ?_
  exact Moves.bind (hoptional _) fun _ => Moves.bind (hoptional _) fun _ => trivial

theorem inventory_state (s : FixState) : ((inventory py dhcpRange).converse reply s asked).state = s :=
  (inventory_moves.converse (R := Eq) (fun _ => rfl) Eq.trans reply s asked).symm

theorem prepare_asks : (prepare py dhcpRange fixId).Asks fun c => c.mutates = false := by
  refine Asks.bind (fun _ => trivial) fun s => ?_
  refine Asks.bind .ofExcept fun fix => Asks.bind .ofExcept fun x => Asks.bind .ofExcept fun _ => ?_
  refine Asks.bind inventory_asks fun inventory => Asks.bind ?_ fun _ => trivial
  exact fun _ _ _ => trivial

theorem prepared_asked (py : Python) (dhcpRange : Option Json → String × String)
    (reply : List SdnCall → Except String Json) (db : FixDb) (fixId : Nat) :
    ∀ c ∈ (prepared py dhcpRange reply db fixId).asked, c.mutates = false := by
  have hasks : (prepare py dhcpRange fixId).Asks fun c => c.mutates = false := prepare_asks
  obtain ⟨new, hnew, hall⟩ := hasks.converse reply (begun db) []
  unfold prepared
  rw [hnew]
  exact hall

theorem prepared_cases (py : Python) (dhcpRange : Option Json → String × String)
    (reply : List SdnCall → Except String Json) (db : FixDb) (fixId : Nat) :
    (∃ e asked, prepared py dhcpRange reply db fixId = ⟨.error e, begun db, asked⟩) ∨
    ∃ p asked, prepared py dhcpRange reply db fixId =
      ⟨.ok p, begun { db with snapshots := db.snapshots + 1 }, asked⟩ ∧ getFixAction db fixId = some p.fix := by
  unfold prepared prepare
  rcases converse_ofExcept_bind_cases _ _ _ _ with ⟨e, _, hget⟩ | ⟨fix, hfix, hget⟩
  · exact .inl ⟨e, _, hget⟩
  rcases converse_ofExcept_bind_cases _ _ _ _ with ⟨e, _, hvalid⟩ | ⟨x, _, hvalid⟩
  · exact .inl ⟨e, _, hget.trans hvalid⟩
  rcases converse_ofExcept_bind_cases _ _ _ _ with ⟨e, _, hlab⟩ | ⟨_, _, hlab⟩
  · exact .inl ⟨e, _, hget.trans (hvalid.trans hlab)⟩
  rcases converse_bind_cases _ _ _ _ with ⟨e, _, hinventory⟩ | ⟨inventory, _, hinventory⟩
  · rw [inventory_state] at hinventory
    exact .inl ⟨e, _, hget.trans (hvalid.trans (hlab.trans hinventory))⟩
  · rw [inventory_state] at hinventory
    refine .inr ⟨_, _, hget.trans (hvalid.trans (hlab.trans hinventory)), ?_⟩
    dsimp only
    split at hfix
    · cases hfix
      assumption
    · cases hfix

end Preparing

section Ending

/-- What the row of an action and the findings come to where Proxmox is asked to change something. -/
inductive Ending (db : FixDb) (fixId : Nat) (after : FixDb) : Prop where
  | unchanged (hfixes : after.fixes = db.fixes) (hfindings : after.findings = db.findings)
  | failed (result : Json) (snapshotId : Nat) (more : List FindingRow)
      (hfixes : after.fixes = Table.modify StoredFix.id db.fixes fixId fun f => f.written "failed" result snapshotId)
      (hfindings : after.findings = db.findings ++ more)
  | fixed (result : Json) (snapshotId : Nat)
      (hfixes : after.fixes = Table.modify StoredFix.id db.fixes fixId fun f => f.written "fixed" result snapshotId)
      (hobserved : observedIn result = true)

variable {db after : FixDb} {fixId : Nat} {fix : StoredFix}

theorem getFixAction_modify {status : String} {result : Json} {snapshotId : Nat}
    (hfix : getFixAction db fixId = some fix)
    (h : after.fixes = Table.modify StoredFix.id db.fixes fixId fun f => f.written status result snapshotId) :
    getFixAction after fixId = some (fix.written status result snapshotId) := by
  unfold getFixAction at hfix ⊢
  rw [h]
  generalize db.fixes = fixes at hfix
  induction fixes with
  | nil => cases hfix
  | cons f rest ih =>
    by_cases hid : f.id = fixId
    · rw [List.find?_cons_of_pos (by simpa using hid)] at hfix
      cases hfix
      simp [Table.modify, hid, StoredFix.written]
    · rw [List.find?_cons_of_neg (by simpa using hid)] at hfix
      simpa [Table.modify, hid] using ih hfix

theorem Ending.snapshots {n : Nat} (h : Ending { db with snapshots := n } fixId after) : Ending db fixId after := by
  cases h with
  | unchanged hfixes hfindings => exact .unchanged hfixes hfindings
  | failed result snapshotId more hfixes hfindings => exact .failed result snapshotId more hfixes hfindings
  | fixed result snapshotId hfixes hobserved => exact .fixed result snapshotId hfixes hobserved

theorem Ending.resolved (h : Ending db fixId after) (hfix : getFixAction db fixId = some fix)
    (hresolved : Resolved db after) : ∃ fix, getFixAction after fixId = some fix ∧ fix.row.status = "fixed" := by
  obtain ⟨i, r, r', hbefore, hafter, hopen, hclosed⟩ := hresolved
  have hsame : ∀ more, after.findings = db.findings ++ more → r' = r := by
    intro more hmore
    rw [hmore, List.getElem?_append_left (List.getElem?_eq_some_iff.mp hbefore).1, hbefore] at hafter
    exact (Option.some.inj hafter).symm
  cases h with
  | unchanged _ hfindings =>
    rw [hsame [] (by rw [hfindings, List.append_nil])] at hclosed
    exact absurd hopen hclosed
  | failed result snapshotId more _ hfindings =>
    rw [hsame more hfindings] at hclosed
    exact absurd hopen hclosed
  | fixed result snapshotId hfixes _ => exact ⟨_, getFixAction_modify hfix hfixes, rfl⟩

variable {py : Python} {sync : SdnInventory → String → Except String Unit}
variable {reply : List SdnCall → Except String Json} {p : Prepared} {s : FixState} {asked : List SdnCall}

def presentResult (py : Python) (p : Prepared) (existing : Fields) : Json :=
  .obj ([("ok", .bool true)] ++ existing ++ [("verification", (verificationRows py p.action p.request p.inventory).2)])

theorem finishPresent_cases (py : Python) (sync : SdnInventory → String → Except String Unit)
    (reply : List SdnCall → Except String Json) (p : Prepared) (s : FixState) (asked : List SdnCall)
    (existing : Fields) :
    (∃ e, sync p.inventory "fixing" = .error e ∧
      (finishPresent py sync p existing).converse reply s asked = ⟨.error e, s, asked⟩) ∨
    (sync p.inventory "fixing" = .ok () ∧
      ((finishPresent py sync p existing).converse reply s asked).asked = asked ∧
      ((finishPresent py sync p existing).converse reply s asked).state.committed.fixes =
        Table.modify StoredFix.id s.work.fixes p.fix.id
          fun f => f.written "fixed" (presentResult py p existing) p.snapshotId) := by
  unfold finishPresent
  rcases converse_ofExcept_bind_cases _ _ _ _ with ⟨e, herror, h⟩ | ⟨_, hok, h⟩
  · exact .inl ⟨e, herror, h⟩
  · refine .inr ⟨hok, ?_⟩
    rw [h]
    unfold resolveFindingOf
    cases p.action.findingType with
    | none => exact ⟨rfl, rfl⟩
    | some findingType => exact ⟨rfl, rfl⟩

theorem Ending.observed (h : Ending db fixId after) (hfix : getFixAction db fixId = some fix)
    (hpending : fix.row.status ≠ "fixed") : FixedIsObserved fixId after := by
  intro fix' hfix' hstatus
  cases h with
  | unchanged hfixes _ =>
    unfold getFixAction at hfix hfix'
    rw [hfixes, hfix] at hfix'
    cases hfix'
    exact absurd hstatus hpending
  | failed result snapshotId more hfixes _ =>
    rw [getFixAction_modify hfix hfixes] at hfix'
    cases hfix'
    have hfailed : "failed" = "fixed" := hstatus
    exact absurd hfailed (by decide)
  | fixed result snapshotId hfixes hobserved =>
    rw [getFixAction_modify hfix hfixes] at hfix'
    cases hfix'
    exact hobserved

theorem observedIn_verification (py : Python) (action : ActionType) (request : Fields) (inventory : SdnInventory) (before : Fields)
    (hbefore : before.lookup "verification" = none) :
    observedIn (.obj (before ++ [("verification", (verificationRows py action request inventory).2)])) =
      (verificationRows py action request inventory).1 := by
  have hlookup : (before ++ [("verification", (verificationRows py action request inventory).2)]).lookup "verification" =
      some (verificationRows py action request inventory).2 := by
    rw [List.lookup_append, hbefore]
    rfl
  have hrow : ∀ key row asked, ∃ rest, (observedRow key row asked).2 =
      .obj (("observed", .bool (observedRow key row asked).1) :: rest) := fun key row asked => ⟨_, rfl⟩
  have hobserved : ∃ rest, (verificationRows py action request inventory).2 =
      .obj (("observed", .bool (verificationRows py action request inventory).1) :: rest) := by
    cases action with
    | createZone => exact hrow _ _ _
    | createVnet => exact hrow _ _ _
    | createSubnet => exact hrow _ _ _
    | applySdn => exact ⟨_, rfl⟩
  obtain ⟨rest, hrest⟩ := hobserved
  unfold observedIn
  dsimp only
  rw [hlookup, hrest]
  simp

theorem finishMutated_ending (result : Json) (post : SdnInventory) (hs : s.committed = s.work) :
    ((finishMutated py sync p result post).converse reply s asked).asked = asked ∧
    Ending s.work p.fix.id ((finishMutated py sync p result post).converse reply s asked).state.committed := by
  have hobserved := observedIn_verification py p.action p.request post [("ok", .bool true), ("result", result)] rfl
  unfold finishMutated
  dsimp only
  rcases converse_ofExcept_bind_cases _ _ _ _ with ⟨e, _, h⟩ | ⟨_, _, h⟩
  · rw [h]
    exact ⟨rfl, .unchanged (by rw [hs]) (by rw [hs])⟩
  · rw [h]
    cases hrow : (verificationRows py p.action p.request post).1 with
    | false => exact ⟨rfl, .failed _ p.snapshotId _ rfl rfl⟩
    | true =>
      rw [hrow] at hobserved
      unfold resolveFindingOf
      cases p.action.findingType with
      | none => exact ⟨rfl, .fixed _ p.snapshotId rfl hobserved⟩
      | some findingType => exact ⟨rfl, .fixed _ p.snapshotId rfl hobserved⟩

theorem forceRelease_converse (reply : List SdnCall → Except String Json) (s : FixState) (asked : List SdnCall) : ∃ x, forceRelease.converse reply s asked =
    ⟨.ok x, s, asked ++ if s.lockToken ≠ "" ∧ s.released = false then [.releaseLock s.lockToken true] else []⟩ := by
  unfold forceRelease
  change ∃ x, (if s.lockToken ≠ "" ∧ s.released = false then
    catching (do let _ ← await (.releaseLock s.lockToken true)) fun _ => pure () else pure () :
      Handler Unit).converse reply s asked = _
  split
  · refine ⟨(), ?_⟩
    rw [converse_catching, converse_bind, converse_await]
    cases reply (asked ++ [.releaseLock s.lockToken true]) <;> rfl
  · exact ⟨(), by rw [List.append_nil]; rfl⟩

theorem finishFailed_ending (e : String) :
    ((finishFailed p e).converse reply s asked).asked =
      asked ++ (if s.lockToken ≠ "" ∧ s.released = false then [.releaseLock s.lockToken true] else []) ∧
    Ending s.work p.fix.id ((finishFailed p e).converse reply s asked).state.committed := by
  obtain ⟨x, hforce⟩ := forceRelease_converse reply s asked
  unfold finishFailed
  rw [converse_bind, hforce]
  exact ⟨rfl, .failed _ p.snapshotId [] rfl (List.append_nil _).symm⟩

end Ending

end ProxmoxVEAutopilot.ManagedLabs.FixActions
