import ProxmoxVEAutopilot.DeviceCache.Grouping

/-!
# Every cached record in its group

A group has one slot for an Autopilot and one for an Intune record, so the grouping shows
every record exactly where the serials of these two tables are there and distinct; what it
shows depends on the order of the rows where two Intune records of one device could lend
their serial to an Entra record.
-/

namespace ProxmoxVEAutopilot.DeviceCache

open Foundation

set_option autoImplicit false

/-! ### Lists with one element a key -/

section

variable {α : Type} {l m : List α}

theorem getLast?_perm_of_short (h : l.Perm m) (hshort : l.length ≤ 1) : l.getLast? = m.getLast? := by
  match l, hshort with
  | [], _ => rw [List.nil_perm.mp h]
  | [x], _ => rw [List.singleton_perm.mp h]

theorem perm_eq_of_short (h : l.Perm m) (hshort : l.length ≤ 1) : l = m := by
  match l, hshort with
  | [], _ => exact (List.nil_perm.mp h).symm
  | [x], _ => exact List.singleton_perm.mp h

theorem eq_singleton_of_short {x : α} (hx : x ∈ l) (hshort : l.length ≤ 1) : l = [x] := by
  match l, hshort with
  | [y], _ => rw [List.mem_singleton.mp hx]

theorem short_of_subsingleton (hnodup : l.Nodup) (h : ∀ x ∈ l, ∀ y ∈ l, x = y) : l.length ≤ 1 := by
  match l with
  | [] => simp
  | [x] => simp
  | x :: y :: rest =>
    have hxy := h x (by simp) y (by simp)
    subst hxy
    simp at hnodup

theorem short_of_reverse (hnodup : l.Nodup) (h : l.reverse = l) : l.length ≤ 1 := by
  match l with
  | [] => simp
  | x :: rest =>
    have hlast : (x :: rest).getLast? = some x := by
      rw [← List.head?_reverse, h]
      rfl
    rw [List.getLast?_cons] at hlast
    cases hrest : rest.getLast? with
    | none => simp [List.getLast?_eq_none_iff.mp hrest]
    | some y =>
      rw [hrest] at hlast
      obtain rfl : y = x := by simpa using hlast
      exact absurd (List.mem_of_getLast? hrest) (List.nodup_cons.mp hnodup).1

variable {κ : Type} [DecidableEq κ] {f : α → κ}

theorem short_of_nodup_keys (hnodup : (l.map f).Nodup) (k : κ) : (l.filter (f · = k)).length ≤ 1 := by
  apply short_of_subsingleton ((hnodup.of_map f).filter _)
  intro x hx y hy
  simp only [List.mem_filter, decide_eq_true_eq] at hx hy
  exact List.inj_on_of_nodup_map hnodup hx.1 hy.1 (hx.2.trans hy.2.symm)

theorem nodup_keys_of_short (hl : l.Nodup) (h : ∀ k, (l.filter (f · = k)).length ≤ 1) : (l.map f).Nodup := by
  refine hl.map_on fun x hx y hy hxy => ?_
  have hx' : x ∈ l.filter (f · = f y) := List.mem_filter.mpr ⟨hx, by simpa using hxy⟩
  have hy' : y ∈ l.filter (f · = f y) := List.mem_filter.mpr ⟨hy, by simp⟩
  rw [eq_singleton_of_short hy' (h (f y))] at hx'
  exact List.mem_singleton.mp hx'

theorem filter_eq_singleton_of_nodup {l : List κ} (hl : l.Nodup) {k : κ} (hk : k ∈ l) : l.filter (· = k) = [k] := by
  rw [List.filter_eq, List.count_eq_one_of_mem hl hk]
  rfl

/-- One slot a key keeps the last row; it shows every row, each under its own key, exactly where
the keys are all among the shown ones and distinct. -/
theorem slots_iff [DecidableEq α] (hl : l.Nodup) {shown : List κ} (hshown : shown.Nodup) {empty : κ} (hempty : empty ∉ shown)
    (hmem : ∀ x ∈ l, f x ≠ empty → f x ∈ shown) :
    (∀ x ∈ l, shown.filter (fun k => (l.filter (f · = k)).getLast? = some x) = [f x]) ↔
      (∀ x ∈ l, f x ≠ empty) ∧ (l.map f).Nodup := by
  constructor
  · intro h
    have hown : ∀ x ∈ l, f x ∈ shown ∧ (l.filter (f · = f x)).getLast? = some x := by
      intro x hx
      have hin : f x ∈ shown.filter (fun k => (l.filter (f · = k)).getLast? = some x) := by
        rw [h x hx]
        exact List.mem_singleton_self _
      simpa using hin
    refine ⟨?_, hl.map_on ?_⟩
    · intro x hx heq
      exact hempty (heq ▸ (hown x hx).1)
    · intro x hx y hy hxy
      have hlast := (hown x hx).2
      rw [hxy, (hown y hy).2] at hlast
      exact (Option.some.inj hlast).symm
  · rintro ⟨hne, hnodup⟩ x hx
    have hkey : ∀ k, ((l.filter (f · = k)).getLast? = some x) ↔ k = f x := by
      intro k
      constructor
      · intro hlast
        have hin := List.mem_of_getLast? hlast
        simp only [List.mem_filter, decide_eq_true_eq] at hin
        exact hin.2.symm
      · rintro rfl
        have hin : x ∈ l.filter (f · = f x) := List.mem_filter.mpr ⟨hx, by simp⟩
        rw [eq_singleton_of_short hin (short_of_nodup_keys hnodup (f x))]
        rfl
    simp only [hkey]
    exact filter_eq_singleton_of_nodup hshown (hmem x hx (hne x hx))

end

/-! ### The groups -/

theorem filed_entra_iff (serial : Option String) (s : String) :
    (given serial ≠ none ∧ serial.getD "" = s) ↔ given serial = some s := by
  cases serial with
  | none => simp [given]
  | some t =>
    by_cases ht : t = ""
    · simp [given, ht]
    · simp only [given, Option.filter_some, Option.getD_some]
      simp [ht]

theorem groupOf_entra (ap : List AutopilotRow) (it : List IntuneRow) (en : List EntraRow) (s : String) :
    (groupOf ap it en s).entra = en.filter fun row => given row.serial = some s := by
  unfold groupOf
  rw [List.filter_filter]
  apply List.filter_congr
  intro row _
  rw [Bool.eq_iff_iff]
  simp only [Bool.and_eq_true, decide_eq_true_eq, Option.isSome_iff_ne_none]
  rw [and_comm]
  exact filed_entra_iff row.serial s

section

variable (ap : List AutopilotRow) (it : List IntuneRow) (en : List EntraRow)

def shownSerials : List String := ((Buckets.keys (serials ap it en)).filter (· ≠ "")).insertionSort (· ≤ ·)

theorem mem_shownSerials (s : String) : s ∈ shownSerials ap it en ↔ s ≠ "" ∧ Filed ap it en s := by
  unfold shownSerials
  rw [List.mem_insertionSort, List.mem_filter, mem_keys_serials, decide_eq_true_eq, and_comm]

theorem nodup_shownSerials : (shownSerials ap it en).Nodup :=
  (List.perm_insertionSort _ _).nodup_iff.mpr ((nodup_keys_serials ap it en).filter _)

theorem shownSerials_congr {ap' : List AutopilotRow} {it' : List IntuneRow} {en' : List EntraRow}
    (h : ∀ s, Filed ap it en s ↔ Filed ap' it' en' s) : shownSerials ap it en = shownSerials ap' it' en' := by
  have hperm : (shownSerials ap it en).Perm (shownSerials ap' it' en') := by
    apply (List.perm_ext_iff_of_nodup (nodup_shownSerials ..) (nodup_shownSerials ..)).mpr
    intro s
    rw [mem_shownSerials, mem_shownSerials, h]
  exact hperm.eq_of_pairwise' (List.pairwise_insertionSort _ _) (List.pairwise_insertionSort _ _)

theorem listGrouped_groups :
    (listGrouped false ap it en).groups =
      (shownSerials ap it (en.map (adoptSerial it))).map (groupOf ap it (en.map (adoptSerial it))) := by
  have hfilter : ((serials ap it (en.map (adoptSerial it))).map Prod.snd).filter (·.serial ≠ "") =
      ((Buckets.keys (serials ap it (en.map (adoptSerial it)))).filter (· ≠ "")).map
        (groupOf ap it (en.map (adoptSerial it))) := by
    conv_lhs => rw [serials_eq ap it (en.map (adoptSerial it)), List.map_map, List.filter_map]
    rfl
  unfold listGrouped shownSerials
  simp only [Bool.false_eq_true, if_false]
  rw [hfilter]
  exact (List.map_insertionSort (· ≤ ·) (fun a b : Group => a.serial ≤ b.serial) _ _
    (fun a _ b _ => Iff.rfl)).symm

end

/-! ### Where a record is shown -/

/-- The serial an Entra record is filed under, once it has adopted one. -/
def home (it : List IntuneRow) (e : EntraRow) : Option String := given (adoptSerial it e).serial

/-- The Intune record has the device id of the Entra record. -/
def SameDevice (i : IntuneRow) (e : EntraRow) : Prop := e.deviceId ≠ none ∧ given i.azureAdDeviceId = e.deviceId

instance (i : IntuneRow) (e : EntraRow) : Decidable (SameDevice i e) := by
  unfold SameDevice
  infer_instance

/-- Where an Entra record belongs: the group of its serial, else the one of an Intune record
with its device id, else the unmatched ones. -/
def Belongs (it : List IntuneRow) (e : EntraRow) (place : Option String) : Prop :=
  if given e.serial = none then
    (∃ i ∈ it, SameDevice i e ∧ place = given i.serial) ∨ (¬ ∃ i ∈ it, SameDevice i e) ∧ place = none
  else place = given e.serial

/-- The places at which an Entra record is shown: groups by serial, `none` the unmatched ones. -/
def places (r : Grouped) (e : EntraRow) : List (Option String) :=
  (r.groups.flatMap fun g => (g.entra.filter (·.id = e.id)).map fun _ => some g.serial) ++
    (r.unmatched.filter (·.id = e.id)).map fun _ => none

/-- Every record of the cache once, in the group it belongs to. -/
structure Shown (c : Cache) (r : Grouped) : Prop where
  autopilot : ∀ a ∈ c.ap, (r.groups.filter (·.autopilot = some a)).map (·.serial) = [a.serial]
  intune : ∀ i ∈ c.it, (r.groups.filter (·.intune = some i)).map (·.serial) = [i.serial.getD ""]
  entra : ∀ e ∈ c.en, ∃ place, Belongs c.it e place ∧ places r e = [place]
  distinct : (r.groups.map (·.serial)).Nodup
  nonempty : ∀ g ∈ r.groups, g.serial ≠ ""

def grouped (c : Cache) : Grouped := listGrouped false c.ap c.it c.en

/-- What is shown is the same up to `same`, whatever the order of the rows read. -/
def Orderless (same : Grouped → Grouped → Prop) (c : Cache) : Prop :=
  ∀ ap it en, ap.Perm c.ap → it.Perm c.it → en.Perm c.en → same (listGrouped false ap it en) (grouped c)

/-- The same groups and unmatched records, these and the Entra records of a group in any order. -/
structure Like (r s : Grouped) : Prop where
  groups : List.Forall₂ (fun g h => g.serial = h.serial ∧ g.autopilot = h.autopilot ∧ g.intune = h.intune ∧
    g.entra.Perm h.entra) r.groups s.groups
  info : r.info = s.info
  unmatched : r.unmatched.Perm s.unmatched

/-- Autopilot and Intune serials are there and distinct, and no two Intune records have the
device id of one Entra record that lacks a serial. -/
structure Separate (c : Cache) : Prop where
  autopilot : (∀ a ∈ c.ap, a.serial ≠ "") ∧ (c.ap.map (·.serial)).Nodup
  intune : (∀ i ∈ c.it, i.serial.getD "" ≠ "") ∧ (c.it.map (·.serial.getD "")).Nodup
  entra : ∀ e ∈ c.en, given e.serial = none → ∀ i ∈ c.it, ∀ j ∈ c.it, SameDevice i e → SameDevice j e → i = j

theorem adoptSerial_id (it : List IntuneRow) (e : EntraRow) : (adoptSerial it e).id = e.id := by
  unfold adoptSerial
  split
  · split <;> rfl
  · rfl

theorem mem_intuneByAzureId {it : List IntuneRow} {e : EntraRow} {i : IntuneRow}
    (h : intuneByAzureId it e.deviceId = some i) : i ∈ it ∧ SameDevice i e := by
  unfold intuneByAzureId at h
  obtain ⟨d, hd, hlast⟩ := Option.bind_eq_some_iff.mp h
  have hmem := List.mem_of_getLast? hlast
  simp only [List.mem_filter, decide_eq_true_eq] at hmem
  exact ⟨hmem.1, by simp [hd], by rw [hmem.2, hd]⟩

theorem intuneByAzureId_eq_none {it : List IntuneRow} {e : EntraRow} (h : intuneByAzureId it e.deviceId = none) :
    ¬ ∃ i ∈ it, SameDevice i e := by
  rintro ⟨i, hi, hdevice, hsame⟩
  obtain ⟨d, hd⟩ := Option.ne_none_iff_exists'.mp hdevice
  unfold intuneByAzureId at h
  rw [hd, Option.bind_some, List.getLast?_eq_none_iff] at h
  have hin : i ∈ it.filter fun r => given r.azureAdDeviceId = some d :=
    List.mem_filter.mpr ⟨hi, by simp [hsame, hd]⟩
  rw [h] at hin
  cases hin

theorem home_eq (it : List IntuneRow) (e : EntraRow) :
    home it e = if given e.serial = none then (intuneByAzureId it e.deviceId).bind fun i => given i.serial
      else given e.serial := by
  unfold home adoptSerial
  cases hserial : given e.serial with
  | none =>
    cases hholder : intuneByAzureId it e.deviceId with
    | none => simp [hserial]
    | some i => simp
  | some s => simp [hserial]

theorem belongs_home (it : List IntuneRow) (e : EntraRow) : Belongs it e (home it e) := by
  unfold Belongs
  rw [home_eq]
  split
  · cases hholder : intuneByAzureId it e.deviceId with
    | none => exact .inr ⟨intuneByAzureId_eq_none hholder, rfl⟩
    | some i =>
      obtain ⟨hi, hsame⟩ := mem_intuneByAzureId hholder
      exact .inl ⟨i, hi, hsame, rfl⟩
  · rfl

section

variable {ap : List AutopilotRow} {it : List IntuneRow} {en : List EntraRow}

theorem filter_id (hen : (en.map (·.id)).Nodup) {e : EntraRow} (he : e ∈ en) :
    (en.map (adoptSerial it)).filter (·.id = e.id) = [adoptSerial it e] := by
  rw [List.filter_map]
  have hfilter : en.filter ((fun row => decide (row.id = e.id)) ∘ adoptSerial it) = [e] := by
    have hin : e ∈ en.filter (fun row => row.id = e.id) := List.mem_filter.mpr ⟨he, by simp⟩
    have hcongr : en.filter ((fun row => decide (row.id = e.id)) ∘ adoptSerial it) =
        en.filter (fun row => row.id = e.id) :=
      List.filter_congr fun row _ => by simp [adoptSerial_id]
    rw [hcongr]
    exact eq_singleton_of_short hin (short_of_nodup_keys hen e.id)
  rw [hfilter]
  rfl

theorem filed_home {e : EntraRow} (he : e ∈ en) {s : String} (h : home it e = some s) :
    s ≠ "" ∧ Filed ap it (en.map (adoptSerial it)) s := by
  unfold home at h
  refine ⟨?_, .inr (.inr ⟨adoptSerial it e, List.mem_map_of_mem he, (filed_entra_iff _ _).mpr h⟩)⟩
  have hne := (Option.filter_eq_some_iff.mp h).2
  simpa using hne

theorem places_listGrouped (hen : (en.map (·.id)).Nodup) {e : EntraRow} (he : e ∈ en) :
    places (listGrouped false ap it en) e = [home it e] := by
  have hgroups : ((listGrouped false ap it en).groups.flatMap fun g =>
      (g.entra.filter (·.id = e.id)).map fun _ => some g.serial) =
      (shownSerials ap it (en.map (adoptSerial it))).flatMap fun s => if home it e = some s then [some s] else [] := by
    rw [listGrouped_groups, List.flatMap_map]
    congr 1
    funext s
    rw [groupOf_entra, List.filter_comm, filter_id hen he]
    unfold home
    by_cases hs : given (adoptSerial it e).serial = some s <;> simp [hs, groupOf]
  have hunmatched : ((listGrouped false ap it en).unmatched.filter (·.id = e.id)).map (fun _ => (none : Option String)) =
      if home it e = none then [none] else [] := by
    have heq : (listGrouped false ap it en).unmatched =
        (en.map (adoptSerial it)).filter fun row => (given row.serial).isNone := rfl
    rw [heq, List.filter_comm, filter_id hen he]
    unfold home
    cases hs : given (adoptSerial it e).serial <;> simp [hs]
  unfold places
  rw [hgroups, hunmatched]
  cases hhome : home it e with
  | none => simp
  | some s =>
    have hmem := (mem_shownSerials ap it (en.map (adoptSerial it)) s).mpr (filed_home he hhome)
    have hone := filter_eq_singleton_of_nodup (nodup_shownSerials ap it (en.map (adoptSerial it))) hmem
    have hflat : ∀ l : List String, (l.flatMap fun t => if some s = some t then [some t] else []) =
        (l.filter (· = s)).map some := by
      intro l
      induction l with
      | nil => rfl
      | cons t l ih =>
        rw [List.flatMap_cons, ih]
        by_cases ht : t = s
        · subst ht
          simp
        · simp [ht, Ne.symm ht]
    rw [hflat, hone]
    rfl

end

/-! ### What is shown, and in every order -/

theorem Cache.ap_nodup (c : Cache) : c.ap.Nodup := c.apKey.of_map _

theorem Cache.it_nodup (c : Cache) : c.it.Nodup := c.itKey.of_map _

theorem Cache.en_nodup (c : Cache) : c.en.Nodup := c.enKey.of_map _

theorem grouped_serials (ap : List AutopilotRow) (it : List IntuneRow) (en : List EntraRow) :
    (listGrouped false ap it en).groups.map (·.serial) = shownSerials ap it (en.map (adoptSerial it)) := by
  rw [listGrouped_groups, List.map_map]
  exact List.map_id _

theorem filter_groups (ap : List AutopilotRow) (it : List IntuneRow) (en : List EntraRow) (p : Group → Bool) :
    ((listGrouped false ap it en).groups.filter p).map (·.serial) =
      (shownSerials ap it (en.map (adoptSerial it))).filter
        fun s => p (groupOf ap it (en.map (adoptSerial it)) s) := by
  rw [listGrouped_groups, List.filter_map, List.map_map]
  exact List.map_id _

/-- The slots of a group show every record of the two tables exactly where their serials are
there and distinct; an Entra record is always shown once. -/
theorem shown_iff (c : Cache) :
    Shown c (grouped c) ↔
      ((∀ a ∈ c.ap, a.serial ≠ "") ∧ (c.ap.map (·.serial)).Nodup) ∧
        (∀ i ∈ c.it, i.serial.getD "" ≠ "") ∧ (c.it.map (·.serial.getD "")).Nodup := by
  have hnodup := nodup_shownSerials c.ap c.it (c.en.map (adoptSerial c.it))
  have hempty : "" ∉ shownSerials c.ap c.it (c.en.map (adoptSerial c.it)) := fun h =>
    ((mem_shownSerials _ _ _ _).mp h).1 rfl
  have hap := slots_iff (f := (·.serial)) c.ap_nodup hnodup hempty fun a ha hne =>
    (mem_shownSerials ..).mpr ⟨hne, .inl ⟨a, ha, rfl⟩⟩
  have hit := slots_iff (f := (·.serial.getD "")) c.it_nodup hnodup hempty fun i hi hne =>
    (mem_shownSerials ..).mpr ⟨hne, .inr (.inl ⟨i, hi, rfl⟩)⟩
  rw [← hap, ← hit]
  constructor
  · intro h
    refine ⟨fun a ha => ?_, fun i hi => ?_⟩
    · rw [← h.autopilot a ha]
      exact (filter_groups c.ap c.it c.en fun g => g.autopilot = some a).symm
    · rw [← h.intune i hi]
      exact (filter_groups c.ap c.it c.en fun g => g.intune = some i).symm
  · rintro ⟨ha, hi⟩
    refine ⟨fun a hmem => ?_, fun i hmem => ?_, fun e he => ?_, ?_, fun g hg => ?_⟩
    · rw [← ha a hmem]
      exact filter_groups c.ap c.it c.en fun g => g.autopilot = some a
    · rw [← hi i hmem]
      exact filter_groups c.ap c.it c.en fun g => g.intune = some i
    · exact ⟨home c.it e, belongs_home c.it e, places_listGrouped c.enKey he⟩
    · rw [grouped, grouped_serials]
      exact hnodup
    · have hserial := List.mem_map_of_mem (f := (·.serial)) hg
      rw [grouped, grouped_serials] at hserial
      exact ((mem_shownSerials ..).mp hserial).1

section

variable {c : Cache} {ap : List AutopilotRow} {it : List IntuneRow} {en : List EntraRow}

theorem adoptSerial_perm (h : Separate c) (hit : it.Perm c.it) {e : EntraRow} (he : e ∈ c.en) :
    adoptSerial it e = adoptSerial c.it e := by
  unfold adoptSerial
  split
  · rename_i hnone
    have hserial : given e.serial = none := by simpa using hnone
    have hholder : intuneByAzureId it e.deviceId = intuneByAzureId c.it e.deviceId := by
      unfold intuneByAzureId
      cases hd : e.deviceId with
      | none => rfl
      | some d =>
        refine (getLast?_perm_of_short (hit.symm.filter _) ?_).symm
        apply short_of_subsingleton (c.it_nodup.filter _)
        intro i hi j hj
        simp only [List.mem_filter, decide_eq_true_eq] at hi hj
        exact h.entra e he hserial i hi.1 j hj.1 ⟨by simp [hd], by rw [hi.2, hd]⟩ ⟨by simp [hd], by rw [hj.2, hd]⟩
    rw [hholder]
  · rfl

theorem adopted_perm (h : Separate c) (hit : it.Perm c.it) (hen : en.Perm c.en) :
    (en.map (adoptSerial it)).Perm (c.en.map (adoptSerial c.it)) := by
  have hmap : en.map (adoptSerial it) = en.map (adoptSerial c.it) :=
    List.map_congr_left fun e he => adoptSerial_perm h hit (hen.mem_iff.mp he)
  rw [hmap]
  exact hen.map _

theorem filed_perm {en' : List EntraRow} (hap : ap.Perm c.ap) (hit : it.Perm c.it) (hen : en.Perm en')
    (s : String) : Filed ap it en s ↔ Filed c.ap c.it en' s := by
  unfold Filed
  simp only [hap.mem_iff, hit.mem_iff, hen.mem_iff]

theorem syncedAt_perm (hap : ap.Perm c.ap) (hit : it.Perm c.it) (hen : en.Perm c.en) :
    syncedAt ap it en = syncedAt c.ap c.it c.en := by
  unfold syncedAt
  exact List.Perm.foldl_eq (((hap.map _).append (hit.map _)).append (hen.map _)) ""

theorem info_perm (hap : ap.Perm c.ap) (hit : it.Perm c.it) (hen : en.Perm c.en) :
    (listGrouped false ap it en).info = (grouped c).info := by
  unfold grouped listGrouped
  simp only [syncedAt_perm hap hit hen, hap.length_eq, hit.length_eq, hen.length_eq, Bool.false_eq_true, if_false]

theorem groupOf_perm (h : Separate c) (hap : ap.Perm c.ap) (hit : it.Perm c.it) (s : String)
    (en en' : List EntraRow) :
    (groupOf ap it en s).autopilot = (groupOf c.ap c.it en' s).autopilot ∧
      (groupOf ap it en s).intune = (groupOf c.ap c.it en' s).intune :=
  ⟨(getLast?_perm_of_short (hap.symm.filter _) (short_of_nodup_keys h.autopilot.2 s)).symm,
    (getLast?_perm_of_short (hit.symm.filter _) (short_of_nodup_keys h.intune.2 s)).symm⟩

theorem like_of_separate (h : Separate c) : Orderless Like c := by
  intro ap it en hap hit hen
  have hadopted := adopted_perm h hit hen
  have hshown := shownSerials_congr ap it (en.map (adoptSerial it)) (filed_perm hap hit hadopted)
  refine ⟨?_, info_perm hap hit hen, ?_⟩
  · unfold grouped
    rw [listGrouped_groups, listGrouped_groups, hshown]
    rw [List.forall₂_map_left_iff, List.forall₂_map_right_iff, List.forall₂_same]
    intro s _
    obtain ⟨hautopilot, hintune⟩ := groupOf_perm h hap hit s (en.map (adoptSerial it)) (c.en.map (adoptSerial c.it))
    refine ⟨rfl, hautopilot, hintune, ?_⟩
    rw [groupOf_entra, groupOf_entra]
    exact hadopted.filter _
  · exact hadopted.filter _

theorem eq_of_homes (h : Separate c) (hhomes : (c.en.map (home c.it)).Nodup) : Orderless Eq c := by
  intro ap it en hap hit hen
  have hadopted := adopted_perm h hit hen
  have hkeys : ((c.en.map (adoptSerial c.it)).map fun row => given row.serial).Nodup := by
    rw [List.map_map]
    exact hhomes
  have hsame : ∀ place, (en.map (adoptSerial it)).filter (fun row => given row.serial = place) =
      (c.en.map (adoptSerial c.it)).filter fun row => given row.serial = place := fun place =>
    (perm_eq_of_short (hadopted.symm.filter _) (short_of_nodup_keys hkeys place)).symm
  have hshown := shownSerials_congr ap it (en.map (adoptSerial it)) (filed_perm hap hit hadopted)
  have hgroups : (listGrouped false ap it en).groups = (grouped c).groups := by
    unfold grouped
    rw [listGrouped_groups, listGrouped_groups, hshown]
    apply List.map_congr_left
    intro s _
    obtain ⟨hautopilot, hintune⟩ := groupOf_perm h hap hit s (en.map (adoptSerial it)) (c.en.map (adoptSerial c.it))
    have hentra := hsame (some s)
    rw [← groupOf_entra ap it, ← groupOf_entra c.ap c.it] at hentra
    exact Group.ext rfl hautopilot hintune hentra
  have hunmatched : (listGrouped false ap it en).unmatched = (grouped c).unmatched := by
    have htest : (fun row : EntraRow => (given row.serial).isNone) = fun row => decide (given row.serial = none) := by
      funext row
      cases given row.serial <;> rfl
    have hnone := hsame none
    rw [← htest] at hnone
    exact hnone
  exact Grouped.ext hgroups (info_perm hap hit hen) hunmatched

end

/-! ### When the grouping is faithful -/

theorem Like.refl (r : Grouped) : Like r r :=
  ⟨List.forall₂_same.mpr fun _ _ => ⟨rfl, rfl, rfl, .refl _⟩, rfl, .refl _⟩

theorem Like.places {r s : Grouped} (h : Like r s) (e : EntraRow) : (places r e).Perm (places s e) := by
  have hgroups : ∀ {gs hs : List Group}, List.Forall₂ (fun g h => g.serial = h.serial ∧ g.autopilot = h.autopilot ∧
      g.intune = h.intune ∧ g.entra.Perm h.entra) gs hs →
      (gs.flatMap fun g => (g.entra.filter (·.id = e.id)).map fun _ => some g.serial).Perm
        (hs.flatMap fun g => (g.entra.filter (·.id = e.id)).map fun _ => some g.serial) := by
    intro gs hs hforall
    induction hforall with
    | nil => exact .refl _
    | cons hone _ ih =>
      obtain ⟨hserial, -, -, hentra⟩ := hone
      rw [List.flatMap_cons, List.flatMap_cons, hserial]
      exact ((hentra.filter _).map _).append ih
  exact (hgroups h.groups).append ((h.unmatched.filter _).map _)

section

variable {c : Cache}

/-- With one of the matching Intune records read last, its serial is the one adopted. -/
theorem home_of_last {i : IntuneRow} {e : EntraRow} (hnone : given e.serial = none) (hsame : SameDevice i e) :
    home (c.it.erase i ++ [i]) e = given i.serial := by
  obtain ⟨hdevice, hid⟩ := hsame
  obtain ⟨d, hd⟩ := Option.ne_none_iff_exists'.mp hdevice
  have hholder : intuneByAzureId (c.it.erase i ++ [i]) e.deviceId = some i := by
    unfold intuneByAzureId
    rw [hd, Option.bind_some, List.filter_append]
    simp [hid, hd]
  rw [home_eq, if_pos hnone, hholder, Option.bind_some]

theorem home_of_orderless (horder : Orderless Like c) {i : IntuneRow} {e : EntraRow} (he : e ∈ c.en)
    (hnone : given e.serial = none) (hi : i ∈ c.it) (hsame : SameDevice i e) : home c.it e = given i.serial := by
  have hperm : (c.it.erase i ++ [i]).Perm c.it :=
    List.perm_append_comm.trans (List.perm_cons_erase hi).symm
  have hplaces := (horder c.ap _ c.en (.refl _) hperm (.refl _)).places e
  unfold grouped at hplaces
  rw [places_listGrouped c.enKey he, places_listGrouped c.enKey he, home_of_last hnone hsame] at hplaces
  exact (List.singleton_inj.mp (List.perm_singleton.mp hplaces)).symm

theorem given_eq_some {x : Option String} (h : x.getD "" ≠ "") : given x = some (x.getD "") := by
  cases x with
  | none => exact absurd rfl h
  | some s => simpa [given] using h

theorem separate_of_shown (hshown : Shown c (grouped c)) (horder : Orderless Like c) : Separate c := by
  obtain ⟨hautopilot, hintune⟩ := (shown_iff c).mp hshown
  refine ⟨hautopilot, hintune, ?_⟩
  intro e he hnone i hi j hj hsamei hsamej
  have hserial : given i.serial = given j.serial := by
    rw [← home_of_orderless horder he hnone hi hsamei, home_of_orderless horder he hnone hj hsamej]
  rw [given_eq_some (hintune.1 i hi), given_eq_some (hintune.1 j hj)] at hserial
  exact List.inj_on_of_nodup_map hintune.2 hi hj (Option.some.inj hserial)

theorem homes_of_orderless (horder : Orderless Eq c) : (c.en.map (home c.it)).Nodup := by
  apply nodup_keys_of_short c.en_nodup
  intro place
  have heq := horder c.ap c.it c.en.reverse (.refl _) (.refl _) (List.reverse_perm _)
  have hreverse : ((c.en.map (adoptSerial c.it)).filter fun row => given row.serial = place).reverse =
      (c.en.map (adoptSerial c.it)).filter fun row => given row.serial = place := by
    rw [← List.filter_reverse, ← List.map_reverse]
    cases place with
    | none =>
      have htest : (fun row : EntraRow => decide (given row.serial = none)) = fun row => (given row.serial).isNone := by
        funext row
        cases given row.serial <;> rfl
      rw [htest]
      exact congrArg Grouped.unmatched heq
    | some s =>
      by_cases hfiled : s ∈ shownSerials c.ap c.it (c.en.map (adoptSerial c.it))
      · have hgroups := congrArg Grouped.groups heq
        have hserials := congrArg (List.map Group.serial) hgroups
        unfold grouped at hgroups hserials
        rw [grouped_serials, grouped_serials] at hserials
        rw [listGrouped_groups, listGrouped_groups, hserials] at hgroups
        have hgroup := List.map_inj_left.mp hgroups s hfiled
        have hentra := congrArg Group.entra hgroup
        rwa [groupOf_entra, groupOf_entra] at hentra
      · have hnil : ∀ rows : List EntraRow, rows.Perm (c.en.map (adoptSerial c.it)) →
            rows.filter (fun row => given row.serial = some s) = [] := by
          intro rows hrows
          apply List.filter_eq_nil_iff.mpr
          intro row hrow hserial
          have hmem := hrows.mem_iff.mp hrow
          have hgiven : given row.serial = some s := by simpa using hserial
          refine hfiled ((mem_shownSerials ..).mpr ⟨?_, .inr (.inr ⟨row, hmem, (filed_entra_iff _ _).mpr hgiven⟩)⟩)
          simpa using (Option.filter_eq_some_iff.mp hgiven).2
        rw [hnil _ (.refl _), hnil _ ((List.reverse_perm _).map _)]
  have hnodup : (c.en.map (adoptSerial c.it)).Nodup := by
    apply List.Nodup.of_map (·.id)
    rw [List.map_map]
    have hid : c.en.map ((·.id) ∘ adoptSerial c.it) = c.en.map (·.id) :=
      List.map_congr_left fun e _ => adoptSerial_id c.it e
    rw [hid]
    exact c.enKey
  have hshort := short_of_reverse (hnodup.filter _) hreverse
  rw [List.filter_map, List.length_map] at hshort
  exact hshort

/-- Every record is shown once where it belongs, in every order of the rows, exactly where the
Autopilot and Intune serials are there and distinct and no Entra record has two Intune records
to take its serial from. The lists inside the result keep their order as well exactly where no
two Entra records share a home. -/
theorem devices_shown_iff (c : Cache) :
    (Shown c (grouped c) ∧ Orderless Like c ↔ Separate c) ∧
      (Shown c (grouped c) ∧ Orderless Eq c ↔ Separate c ∧ (c.en.map (home c.it)).Nodup) := by
  refine ⟨⟨fun h => separate_of_shown h.1 h.2, fun h => ?_⟩, ⟨fun h => ?_, fun h => ?_⟩⟩
  · exact ⟨(shown_iff c).mpr ⟨h.autopilot, h.intune⟩, like_of_separate h⟩
  · have hlike : Orderless Like c := fun ap it en hap hit hen => by
      rw [h.2 ap it en hap hit hen]
      exact .refl _
    exact ⟨separate_of_shown h.1 hlike, homes_of_orderless h.2⟩
  · exact ⟨(shown_iff c).mpr ⟨h.1.autopilot, h.1.intune⟩, eq_of_homes h.1 h.2⟩

end

def reenrolled : Cache where
  ap := []
  it := intuneRows "2026-01-01T00:00:00+00:00"
    [{ id := "stale", serialNumber := some "SN1" }, { id := "current", serialNumber := some "SN1" }]
  en := []
  apKey := by decide
  itKey := by decide
  enKey := by decide

theorem stale_enrolment_hidden : ¬ (Shown reenrolled (grouped reenrolled) ∧ Orderless Like reenrolled) := by
  rintro ⟨hshown, -⟩
  have hstale := hshown.intune
    { id := "stale", serial := some "SN1", os := none, azureAdDeviceId := none, syncedAt := "2026-01-01T00:00:00+00:00" }
    (by decide +kernel)
  revert hstale
  decide +kernel

end ProxmoxVEAutopilot.DeviceCache
