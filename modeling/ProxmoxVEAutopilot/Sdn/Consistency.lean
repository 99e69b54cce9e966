import ProxmoxVEAutopilot.Sdn.Labs
import ProxmoxVEAutopilot.Foundation.Lists

/-!
# When a lab and its binding agree

Each request has an exact condition under which its answer is right; a history is right
exactly when all its requests meet theirs.
-/

namespace ProxmoxVEAutopilot.Sdn

open Foundation (Json strip Replays)

set_option autoImplicit false

section Claim
variable (py : Python)

/-- `create_lab` makes a bubble with its binding, or neither. -/
def CreatesBoth (inventory : Inventory) (db : Db) (body : LabBody) (hex : String) : Prop :=
  match createLab py inventory db body hex with
  | (.ok lab, after) =>
    after.bubbles = db.bubbles ++ [lab.bubble] ∧ after.bindings = db.bindings ++ [lab.binding] ∧
      lab.binding.bubbleId = lab.bubble.id
  | (.error _, after) => after.bubbles = db.bubbles ∧ after.bindings = db.bindings

/-- The subnet that is reported is the bound one. -/
def ReportsBound (inventory : Option Inventory) (db : Db) (bubbleId : Nat) : Prop :=
  ∀ k info, getLabNetwork py inventory db bubbleId = .ok (k, some info) → strip k.subnet ≠ "" →
    ∃ i row, inventory = some i ∧ row ∈ i.subnets k.vnet ∧ info = subnetInfo py row ∧
      strip k.subnet ∈ identityValues py row

def unboundVnets (inventory : Inventory) (db : Db) : List String :=
  ((inventory.vnets.filter fun row => (vnetId row).truthy).map fun row => textOr py (vnetId row)).filter fun vnet =>
    !db.bindings.any fun k => k.vnet ≠ "" && k.vnet = vnet

def ListsOrphans (inventory : Inventory) (db : Db) : Prop :=
  ∃ orphans, listOrphanVnets py inventory db = .ok orphans ∧ orphans.map OrphanVnet.vnet = unboundVnets py inventory db

/-- The answer to a request is right. -/
def Right (w : World) : Event → Prop
  | .setInventory _ | .deleteBinding _ => True
  | .createLab body hex => ∀ inventory, w.inventory = some inventory → CreatesBoth py inventory w.db body hex
  | .getLabNetwork bubbleId => ReportsBound py w.inventory w.db bubbleId
  | .listOrphanVnets => ∀ inventory, w.inventory = some inventory → ListsOrphans py inventory w.db

def run (w : World) (events : List Event) : World := events.foldl (exec py) w

/-- What is promised of the `events`: every answer is right, and a bubble that a request has made
has a binding until that is deleted. -/
structure LabsConsistent (w : World) (events : List Event) : Prop where
  right : ∀ before e after, events = before ++ e :: after → Right py (run py w before) e
  bound : ∀ before body hex after, events = before ++ .createLab body hex :: after →
    ∀ b ∈ (run py w (before ++ [.createLab body hex])).db.bubbles, b ∉ (run py w before).db.bubbles →
      .deleteBinding b.id ∉ after → ∃ k ∈ (run py w events).db.bindings, k.bubbleId = b.id

end Claim

section Condition
variable (py : Python)

/-- The binding of the body is one the store takes. -/
def bindable (body : LabBody) : Bool :=
  py.lower (strip (given body.egressPolicy "open")) ∈ egressPolicies &&
    [strip body.zone, strip body.vnet, strip body.subnet, py.lower (strip (given body.egressPolicy "open")),
      given (strip (given body.firewallProfile "isolated_open_egress")) "isolated_open_egress"].all storable

/-- A lab that passes the preflight, and whose bubble can be inserted, has a binding the store takes;
the network of a lab is asked for while its VNet has the bound subnet, or no subnet; and the orphans
while no binding names a VNet. -/
def Fits (w : World) : Event → Prop
  | .setInventory _ | .deleteBinding _ => True
  | .createLab body hex => ∀ inventory, w.inventory = some inventory →
      (labPreflight py inventory body).blocking = [] →
      (insertBubble w.db (bubbleOf py (labPreflight py inventory body) body hex w.db.newId)).isOk → bindable py body
  | .getLabNetwork bubbleId => ∀ inventory k, w.inventory = some inventory →
      (w.db.bindings.find? fun k => k.bubbleId = bubbleId) = some k → strip k.subnet ≠ "" →
      (∃ row ∈ inventory.subnets k.vnet, strip k.subnet ∈ identityValues py row) ∨ inventory.subnets k.vnet = []
  | .listOrphanVnets => w.inventory = none ∨ ∀ k ∈ w.db.bindings, k.vnet = ""

end Condition

section Create
variable {py : Python} {inventory : Inventory} {db : Db} {body : LabBody} {hex : String}

theorem given_given (value default : String) : given (given value default) default = given value default := by
  unfold given
  split_ifs <;> rfl

theorem newId_gt {db : Db} {n : Nat} (h : n ∈ db.bubbles.map Bubble.id ++ db.bindings.map Binding.bubbleId) :
    n < db.newId := by
  have hle : ∀ xs : List Nat, n ∈ xs → n ≤ xs.foldr max 0 := by
    intro xs hxs
    induction xs with
    | nil => cases hxs
    | cons x xs ih =>
      rcases List.mem_cons.mp hxs with rfl | hmem
      · exact Nat.le_max_left _ _
      · exact (ih hmem).trans (Nat.le_max_right _ _)
  exact Nat.lt_succ_of_le (hle _ h)

theorem unbound_newId (db : Db) : (db.bindings.find? fun old => old.bubbleId = db.newId) = none := by
  rw [List.find?_eq_none]
  intro k hk heq
  have hlt := newId_gt (List.mem_append_right _ (List.mem_map_of_mem hk))
  simp only [decide_eq_true_eq] at heq
  omega

theorem labPreflight_egressPolicy (py : Python) (inventory : Inventory) (body : LabBody) :
    (labPreflight py inventory body).egressPolicy = given body.egressPolicy "open" := rfl

theorem labPreflight_firewallProfile (py : Python) (inventory : Inventory) (body : LabBody) :
    (labPreflight py inventory body).firewallProfile = given body.firewallProfile "isolated_open_egress" := rfl

theorem upsertBinding_new (py : Python) (body : LabBody) (db : Db) {bubbleId : Nat} {pf : Preflight}
    (hpolicy : pf.egressPolicy = given body.egressPolicy "open")
    (hprofile : pf.firewallProfile = given body.firewallProfile "isolated_open_egress")
    (hnew : (db.bindings.find? fun old => old.bubbleId = bubbleId) = none) :
    if bindable py body then ∃ new, upsertBinding py db (bindingOf pf body bubbleId) =
        .ok (new, { db with bindings := db.bindings ++ [new] }) ∧ new.bubbleId = bubbleId
    else ∃ e, upsertBinding py db (bindingOf pf body bubbleId) = .error e := by
  unfold upsertBinding bindable
  simp only [bindingOf, hpolicy, hprofile, given_given, hnew, Binding.texts]
  by_cases hmem : py.lower (strip (given body.egressPolicy "open")) ∈ egressPolicies
  · simp only [hmem, decide_true, Bool.true_and, if_true]
    split
    · rename_i hall
      rw [if_neg (by rw [hall]; decide)]
      exact ⟨_, rfl, rfl⟩
    · rename_i hall
      rw [if_pos (by rw [Bool.eq_false_of_not_eq_true hall]; rfl)]
      exact ⟨_, rfl⟩
  · simp only [hmem, decide_false, Bool.false_and, if_false]
    exact ⟨_, rfl⟩

theorem insertBubble_ok {b : Bubble} {db' : Db} (h : insertBubble db b = .ok db') :
    db' = { db with bubbles := db.bubbles ++ [b] } := by
  unfold insertBubble at h
  split at h
  · cases h
  · split at h
    · cases h
    · exact (Except.ok.inj h).symm

theorem bubbleOf_id (pf : Preflight) (id : Nat) : (bubbleOf py pf body hex id).id = id := rfl

theorem createLab_cases (py : Python) (inventory : Inventory) (db : Db) (body : LabBody) (hex : String) :
    ((∃ e, createLab py inventory db body hex = (.error e, db)) ∧
        ((labPreflight py inventory body).blocking = [] →
          (insertBubble db (bubbleOf py (labPreflight py inventory body) body hex db.newId)).isOk = false)) ∨
      ((labPreflight py inventory body).blocking = [] ∧
        (insertBubble db (bubbleOf py (labPreflight py inventory body) body hex db.newId)).isOk = true ∧
        ∃ bubble, bubble.id = db.newId ∧
          if bindable py body then ∃ binding pf, createLab py inventory db body hex =
              (.ok ⟨bubble, binding, pf⟩,
                { db with bubbles := db.bubbles ++ [bubble], bindings := db.bindings ++ [binding] }) ∧
                binding.bubbleId = bubble.id
          else ∃ e, createLab py inventory db body hex = (.error e, { db with bubbles := db.bubbles ++ [bubble] })) := by
  unfold createLab
  dsimp only
  by_cases hblocking : (labPreflight py inventory body).blocking = []
  · rw [if_neg (by simpa using hblocking)]
    cases hinsert : insertBubble db (bubbleOf py (labPreflight py inventory body) body hex db.newId) with
    | error e => exact .inl ⟨⟨e, rfl⟩, fun _ => rfl⟩
    | ok db' =>
      refine .inr ⟨hblocking, rfl, bubbleOf py (labPreflight py inventory body) body hex db.newId, rfl, ?_⟩
      obtain rfl := insertBubble_ok hinsert
      have hupsert := upsertBinding_new py body
        { db with bubbles := db.bubbles ++ [bubbleOf py (labPreflight py inventory body) body hex db.newId] }
        (labPreflight_egressPolicy py inventory body) (labPreflight_firewallProfile py inventory body)
        (unbound_newId db)
      split at hupsert
      · rename_i hbindable
        obtain ⟨new, hnew, hid⟩ := hupsert
        rw [if_pos hbindable]
        refine ⟨new, labPreflight py inventory body, ?_, hid⟩
        dsimp only
        rw [bubbleOf_id, hnew]
      · rename_i hbindable
        obtain ⟨e, he⟩ := hupsert
        rw [if_neg hbindable]
        refine ⟨e, ?_⟩
        dsimp only
        rw [bubbleOf_id, he]
  · rw [if_pos (by simpa using hblocking)]
    exact .inl ⟨⟨_, rfl⟩, fun h => absurd h hblocking⟩

theorem createsBoth_iff : CreatesBoth py inventory db body hex ↔
    ((labPreflight py inventory body).blocking = [] →
      (insertBubble db (bubbleOf py (labPreflight py inventory body) body hex db.newId)).isOk → bindable py body) := by
  unfold CreatesBoth
  rcases createLab_cases py inventory db body hex with
    ⟨⟨e, he⟩, hrefused⟩ | ⟨hblocking, hinsert, bubble, -, hbinding⟩
  · rw [he]
    refine ⟨fun _ hblocking hok => ?_, fun _ => ⟨rfl, rfl⟩⟩
    rw [hrefused hblocking] at hok
    cases hok
  · split at hbinding
    · rename_i hbindable
      obtain ⟨binding, pf, hlab, hid⟩ := hbinding
      rw [hlab]
      exact ⟨fun _ _ _ => hbindable, fun _ => ⟨rfl, rfl, hid⟩⟩
    · rename_i hbindable
      obtain ⟨e, he⟩ := hbinding
      rw [he]
      refine ⟨fun h => ?_, fun h => absurd (h hblocking hinsert) hbindable⟩
      simpa using congrArg List.length h.1

end Create

section Read
variable {py : Python} {db : Db}

theorem primaryOf_bound {wanted : String} {rows : List Fields} (hwanted : wanted ≠ "")
    (h : ∃ row ∈ rows, wanted ∈ identityValues py row) :
    ∃ row ∈ rows, primaryOf py wanted rows = some row ∧ wanted ∈ identityValues py row := by
  obtain ⟨row, hrow, hbound⟩ := h
  have hsome : (rows.find? fun row => wanted ≠ "" ∧ wanted ∈ identityValues py row).isSome := by
    rw [List.find?_isSome]
    exact ⟨row, hrow, by simpa using ⟨hwanted, hbound⟩⟩
  obtain ⟨found, hfound⟩ := Option.isSome_iff_exists.mp hsome
  have hprop := List.find?_some hfound
  refine ⟨found, List.mem_of_find?_eq_some hfound, ?_, ?_⟩
  · unfold primaryOf
    rw [hfound]
    rfl
  · simp only [decide_eq_true_eq] at hprop
    exact hprop.2

theorem primaryOf_isSome (py : Python) (wanted : String) {rows : List Fields} (h : rows ≠ []) :
    (primaryOf py wanted rows).isSome := by
  cases rows with
  | nil => exact absurd rfl h
  | cons row rows => simp [primaryOf]

theorem reportsBound_iff {inventory : Option Inventory} {bubbleId : Nat} : ReportsBound py inventory db bubbleId ↔
    ∀ i k, inventory = some i → (db.bindings.find? fun k => k.bubbleId = bubbleId) = some k → strip k.subnet ≠ "" →
      (∃ row ∈ i.subnets k.vnet, strip k.subnet ∈ identityValues py row) ∨ i.subnets k.vnet = [] := by
  constructor
  · rintro h i k rfl hk hsubnet
    by_cases hrows : i.subnets k.vnet = []
    · exact .inr hrows
    · obtain ⟨row, hrow⟩ := Option.isSome_iff_exists.mp (primaryOf_isSome py (strip k.subnet) hrows)
      have hnetwork : getLabNetwork py (some i) db bubbleId = .ok (k, some (subnetInfo py row)) := by
        simp [getLabNetwork, hk, hrow]
      obtain ⟨i', found, hi, hfound, -, hbound⟩ := h k _ hnetwork hsubnet
      cases hi
      exact .inl ⟨found, hfound, hbound⟩
  · intro h k info hnetwork hsubnet
    unfold getLabNetwork at hnetwork
    split at hnetwork
    · cases hnetwork
    · rename_i k' hk
      obtain ⟨rfl, hinfo⟩ := Prod.mk.inj (Except.ok.inj hnetwork)
      obtain ⟨i, hi, hmap⟩ := Option.bind_eq_some_iff.mp hinfo
      obtain ⟨row, hrow, rfl⟩ := Option.map_eq_some_iff.mp hmap
      rcases h i k' hi hk hsubnet with hbound | hempty
      · obtain ⟨found, hfound, hprimary, hidentity⟩ := primaryOf_bound hsubnet hbound
        obtain rfl : found = row := Option.some.inj (hprimary.symm.trans hrow)
        exact ⟨i, found, hi, hfound, rfl, hidentity⟩
      · rw [hempty] at hrow
        cases hrow

theorem listsOrphans_iff {inventory : Inventory} : ListsOrphans py inventory db ↔ ∀ k ∈ db.bindings, k.vnet = "" := by
  constructor
  · rintro ⟨orphans, horphans, -⟩ k hk
    by_contra hvnet
    have hmem : k ∈ db.bindings.filter fun k => k.vnet ≠ "" := List.mem_filter.mpr ⟨hk, by simpa using hvnet⟩
    obtain ⟨bound, hbound, -⟩ := Foundation.bind_ok.mp horphans
    obtain ⟨name, -, hname⟩ := Foundation.exists_right_of_forall₂ (Foundation.mapM_ok_forall₂ hbound) hmem
    cases hname
  · intro h
    have hrows : (db.bindings.filter fun k => k.vnet ≠ "") = [] := by
      rw [List.filter_eq_nil_iff]
      intro k hk
      simp [h k hk]
    have hnone : ∀ vnet, (db.bindings.any fun k => k.vnet ≠ "" && k.vnet = vnet) = false := by
      intro vnet
      rw [List.any_eq_false]
      intro k hk
      simp [h k hk]
    refine ⟨(inventory.vnets.filter fun row => (vnetId row).truthy).map (orphanOf py inventory), ?_, ?_⟩
    · unfold listOrphanVnets
      rw [hrows]
      change Except.ok _ = _
      simp
    · unfold unboundVnets
      simp only [hnone, List.map_map]
      simp [orphanOf]

end Read

section Histories
variable {py : Python}

theorem right_iff (w : World) (e : Event) : Right py w e ↔ Fits py w e := by
  cases e with
  | setInventory inventory => exact Iff.rfl
  | deleteBinding bubbleId => exact Iff.rfl
  | createLab body hex => exact forall₂_congr fun inventory _ => createsBoth_iff
  | getLabNetwork bubbleId => exact reportsBound_iff
  | listOrphanVnets =>
    unfold Right Fits
    cases w.inventory with
    | none => simp
    | some inventory => simpa using listsOrphans_iff

theorem exec_bound {w : World} {n : Nat} (h : ∃ k ∈ w.db.bindings, k.bubbleId = n) {e : Event}
    (he : e ≠ .deleteBinding n) : ∃ k ∈ (exec py w e).db.bindings, k.bubbleId = n := by
  cases e with
  | setInventory inventory => exact h
  | getLabNetwork bubbleId => exact h
  | listOrphanVnets => exact h
  | deleteBinding bubbleId =>
    obtain ⟨k, hk, rfl⟩ := h
    exact ⟨k, List.mem_filter.mpr ⟨hk, by simpa using fun heq => he (by rw [heq])⟩, rfl⟩
  | createLab body hex =>
    dsimp only [exec]
    split
    · exact h
    · rename_i inventory _
      obtain ⟨k, hk, hid⟩ := h
      rcases createLab_cases py inventory w.db body hex with ⟨⟨e, he⟩, -⟩ | ⟨-, -, bubble, -, hbinding⟩
      · exact ⟨k, by rw [he]; exact hk, hid⟩
      · split at hbinding
        · obtain ⟨binding, pf, hlab, -⟩ := hbinding
          exact ⟨k, by rw [hlab]; exact List.mem_append_left _ hk, hid⟩
        · obtain ⟨e, he⟩ := hbinding
          exact ⟨k, by rw [he]; exact hk, hid⟩

theorem run_bound {n : Nat} {events : List Event} : ∀ {w : World}, (∃ k ∈ w.db.bindings, k.bubbleId = n) →
    .deleteBinding n ∉ events → ∃ k ∈ (run py w events).db.bindings, k.bubbleId = n := by
  induction events with
  | nil => exact fun h _ => h
  | cons e events ih =>
    intro w h hevents
    exact ih (exec_bound h fun heq => hevents (heq ▸ List.mem_cons_self)) fun hmem =>
      hevents (List.mem_cons_of_mem _ hmem)

theorem created_bound {w : World} {body : LabBody} {hex : String} (hfits : Fits py w (.createLab body hex)) {b : Bubble}
    (hb : b ∈ (exec py w (.createLab body hex)).db.bubbles) (hnew : b ∉ w.db.bubbles) :
    ∃ k ∈ (exec py w (.createLab body hex)).db.bindings, k.bubbleId = b.id := by
  dsimp only [exec] at hb ⊢
  split at hb
  · exact absurd hb hnew
  · rename_i inventory hinventory
    rcases createLab_cases py inventory w.db body hex with ⟨⟨e, he⟩, -⟩ | ⟨hblocking, hinsert, bubble, -, hbinding⟩
    · rw [he] at hb
      exact absurd hb hnew
    · rw [if_pos (hfits inventory hinventory hblocking hinsert)] at hbinding
      obtain ⟨binding, pf, hlab, hid⟩ := hbinding
      rw [hlab] at hb ⊢
      obtain rfl : b = bubble := by simpa [hnew] using hb
      exact ⟨binding, List.mem_append_right _ (List.mem_singleton_self _), hid⟩

theorem replays_iff_split {σ ι : Type} {guard : σ → ι → Prop} {step : σ → ι → σ} {is : List ι} : ∀ {s : σ},
    Replays guard step s is ↔ ∀ before i after, is = before ++ i :: after → guard (before.foldl step s) i := by
  induction is with
  | nil => exact fun {s} => ⟨fun _ before i after h => by simp at h, fun _ => trivial⟩
  | cons j is ih =>
    intro s
    unfold Replays
    rw [ih]
    constructor
    · rintro ⟨hj, hrest⟩ before i after heq
      cases before with
      | nil =>
        cases heq
        exact hj
      | cons j' before =>
        cases heq
        exact hrest before i after rfl
    · intro h
      exact ⟨h [] j is rfl, fun before i after heq => h (j :: before) i after (by rw [heq]; rfl)⟩

theorem labs_consistent_iff (w : World) (events : List Event) :
    LabsConsistent py w events ↔ Replays (Fits py) (exec py) w events := by
  have hright : (∀ before e after, events = before ++ e :: after → Right py (run py w before) e) ↔
      Replays (Fits py) (exec py) w events := by
    rw [replays_iff_split]
    exact forall₄_congr fun before e after _ => right_iff _ _
  refine ⟨fun h => hright.mp h.right, fun h => ⟨hright.mpr h, ?_⟩⟩
  rintro before body hex after rfl b hb hnew hdelete
  have hfits := replays_iff_split.mp h before _ after rfl
  have hsplit : ∀ e rest, run py w (before ++ e :: rest) = run py (exec py (run py w before) e) rest := by
    intro e rest
    simp [run]
  rw [hsplit] at hb ⊢
  exact run_bound (created_bound hfits hb hnew) hdelete

end Histories

section Examples

def plainPython : Python := ⟨fun _ => "", Foundation.lower, String.toUpper⟩

def oneVnet (subnet : String) : Inventory where
  zones := [[("zone", .str "labs")]]
  vnets := [[("vnet", .str "lab1")]]
  subnetsByVnet := [("lab1", [[("subnet", .str subnet), ("gateway", .str "10.0.0.1")]])]

def labBody (egressPolicy : String) : LabBody :=
  { name := "Lab 1", zone := "labs", vnet := "lab1", subnet := "labs-10.0.0.0-24", egressPolicy := egressPolicy }

def oneLab : World := exec plainPython { inventory := some (oneVnet "labs-10.0.0.0-24") } (.createLab (labBody "open") "")

/-- A policy that only the second store knows to be wrong leaves a bubble without a binding; with a
lab the orphans cannot be listed; and a lab whose subnet is gone shows another one. -/
theorem labs_drift_apart :
    ¬ LabsConsistent plainPython { inventory := some (oneVnet "labs-10.0.0.0-24") } [.createLab (labBody "weekdays") ""] ∧
      ¬ LabsConsistent plainPython oneLab [.listOrphanVnets] ∧
      ¬ LabsConsistent plainPython { oneLab with inventory := some (oneVnet "labs-10.9.0.0-24") } [.getLabNetwork 1] := by
  refine ⟨fun h => ?_, fun h => ?_, fun h => ?_⟩
  · have hfits := (right_iff _ _).mp (h.right [] _ [] rfl) _ rfl (by decide +kernel) (by decide +kernel)
    revert hfits
    decide +kernel
  · have hfits := ((right_iff _ _).mp (h.right [] _ [] rfl)).resolve_left (by decide +kernel)
    revert hfits
    decide +kernel
  · have hbinding : (oneLab.db.bindings.find? fun k => k.bubbleId = 1) =
        some ⟨1, "labs", "lab1", "labs-10.0.0.0-24", "open", true, "isolated_open_egress", "not_applied"⟩ := by
      decide +kernel
    have hfits := (right_iff _ _).mp (h.right [] _ [] rfl) _ _ rfl hbinding (by decide +kernel)
    revert hfits
    decide +kernel

end Examples

end ProxmoxVEAutopilot.Sdn
