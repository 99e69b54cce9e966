import ProxmoxVEAutopilot.CloudOsd.Unattend

/-!
# The slots of the answer file

Each slot of the two passes finds its child again and leaves nothing to edit, and none but
that of the first-boot command brings a command or a join.
-/

namespace ProxmoxVEAutopilot.CloudOsd.Unattend

open Foundation Foundation.Xml

set_option autoImplicit false

/-- A command of `RunSynchronous` that runs the script. -/
def isFirstBoot (n : Node) : Bool :=
  (elementSel "RunSynchronousCommand").picks n &&
    n.children.any fun child => (elementSel "Path").picks child && contains scriptName child.innerText

/-- What is counted: first-boot commands and joins. -/
def Watched (p : Node → Bool) : Prop :=
  ∀ n, p n = true → (elementSel "RunSynchronousCommand").picks n = true ∨ joinSel.picks n = true

theorem watched_isFirstBoot : Watched isFirstBoot := by
  intro n h
  rw [isFirstBoot, Bool.and_eq_true] at h
  exact .inl h.1

theorem watched_joinSel : Watched joinSel.picks := fun _ => .inr

def Sel.plain (s : Sel) : Bool := s.apart (elementSel "RunSynchronousCommand") && s.apart joinSel

theorem Watched.not_of_plain {p : Node → Bool} (hp : Watched p) {s : Sel} (hs : Sel.plain s = true) {n : Node}
    (hn : s.picks n = true) : p n = false := by
  rw [Sel.plain, Bool.and_eq_true] at hs
  rw [Bool.eq_false_iff]
  intro h
  rcases hp n h with hcommand | hjoin
  · rw [Sel.not_picks_of_apart hs.1 hn] at hcommand
    cases hcommand
  · rw [Sel.not_picks_of_apart hs.2 hn] at hjoin
    cases hjoin

section Text
variable {p : Node → Bool}

@[simp] theorem matchesTag_element (name : String) : (elementSel name).matchesTag (elementTag name) = true := by
  simp [Sel.matchesTag, elementSel, elementTag]

theorem matchesTag_settings (pass : String) : (settingsSel pass).matchesTag (settingsTag pass) = true := by
  simp [Sel.matchesTag, settingsSel, settingsTag, Tag.attribute?]

theorem matchesTag_component (name : String) : (componentSel name).matchesTag (componentTag name) = true := by
  simp [Sel.matchesTag, componentSel, componentTag, Tag.attribute?]

theorem steady_setTextElement (name value : String) : (setTextElement name value).Steady :=
  Slot.steady_setText (matchesTag_element name) value

theorem quiet_setTextElement (hp : Watched p) {name : String} (h : Sel.plain (elementSel name) = true) (value : String) :
    (setTextElement name value).Quiet p :=
  quiet_setText (matchesTag_element name) (fun _ => hp.not_of_plain h) value

theorem steady_setTextElements (entries : List (String × String)) : ∀ s ∈ setTextElements entries, s.Steady := by
  intro s hs
  obtain ⟨e, -, rfl⟩ := List.mem_map.mp hs
  exact steady_setTextElement e.1 e.2

theorem quiet_setTextElements (hp : Watched p) {entries : List (String × String)}
    (h : ∀ e ∈ entries, Sel.plain (elementSel e.1) = true) : ∀ s ∈ setTextElements entries, s.Quiet p := by
  intro s hs
  obtain ⟨e, he, rfl⟩ := List.mem_map.mp hs
  exact quiet_setTextElement hp (h e he) e.2

theorem apart_setTextElements {entries : List (String × String)} (h : (entries.map Prod.fst).Nodup) :
    Apart (setTextElements entries) := by
  unfold Apart setTextElements
  rw [List.pairwise_map]
  rw [List.Nodup, List.pairwise_map] at h
  refine h.imp fun {e f} hne => ?_
  change ((elementSel e.1).name != (elementSel f.1).name || _) = true
  rw [Bool.or_eq_true]
  exact .inl (bne_iff_ne.mpr hne)

end Text

/-- A slot for a list of others, none of which is a command or a join. -/
structure Sound (slots : List Slot) : Prop where
  steady : ∀ s ∈ slots, s.Steady
  apart : Apart slots
  quiet : ∀ p, Watched p → ∀ s ∈ slots, s.Quiet p

theorem sound_within {sel : Sel} {tag : Tag} {slots : List Slot} (htag : sel.matchesTag tag = true)
    (hplain : Sel.plain sel = true) (h : Sound slots) :
    (Slot.within sel tag slots).Steady ∧ ∀ p, Watched p → (Slot.within sel tag slots).Quiet p :=
  ⟨Slot.steady_within htag h.steady h.apart,
    fun p hp => quiet_within htag (fun _ => hp.not_of_plain hplain) (h.quiet p hp)⟩

theorem sound_setTextElement {name : String} (h : Sel.plain (elementSel name) = true) (value : String) :
    (setTextElement name value).Steady ∧ ∀ p, Watched p → (setTextElement name value).Quiet p :=
  ⟨steady_setTextElement name value, fun _ hp => quiet_setTextElement hp h value⟩

/-- Whether the slots are apart is read off their selectors, whatever they set. -/
theorem sound_of_forall {slots : List Slot}
    (hapart : decide ((slots.map Slot.sel).Pairwise fun s t => s.apart t = true) = true)
    (h : ∀ s ∈ slots, s.Steady ∧ ∀ p, Watched p → s.Quiet p) : Sound slots :=
  ⟨fun s hs => (h s hs).1, List.pairwise_map.mp (of_decide_eq_true hapart), fun p hp s hs => (h s hs).2 p hp⟩

theorem sound_setTextElements {entries : List (String × String)} (hnames : (entries.map Prod.fst).Nodup)
    (hplain : ∀ e ∈ entries, Sel.plain (elementSel e.1) = true) : Sound (setTextElements entries) :=
  ⟨steady_setTextElements entries, apart_setTextElements hnames, fun _ hp => quiet_setTextElements hp hplain⟩

theorem sound_passwordSlots (value : String) :
    Sound [setTextElement "Value" value, setTextElement "PlainText" "true"] := by
  refine sound_of_forall rfl fun s hs => ?_
  simp only [List.mem_cons, List.not_mem_nil, or_false] at hs
  rcases hs with rfl | rfl
  · exact sound_setTextElement (by decide) value
  · exact sound_setTextElement (by decide) "true"

theorem sound_setPasswordElement (value : String) :
    (setPasswordElement value).Steady ∧ ∀ p, Watched p → (setPasswordElement value).Quiet p :=
  sound_within (matchesTag_element "Password") (by decide) (sound_passwordSlots value)

/-! ### The account -/

theorem sound_accountSlots (user password : String) : Sound
    [setTextElement "Name" user, setTextElement "Group" "Administrators", setPasswordElement password] := by
  refine sound_of_forall rfl fun s hs => ?_
  simp only [List.mem_cons, List.not_mem_nil, or_false] at hs
  rcases hs with rfl | rfl | rfl
  · exact sound_setTextElement (by decide) user
  · exact sound_setTextElement (by decide) "Administrators"
  · exact sound_setPasswordElement password

theorem find?_setTextElement {slots : List Slot} (hs : Sound slots) {name value : String}
    (hmem : setTextElement name value ∈ slots) (l : List Node) :
    ∃ n, (fillAll slots l).find? (elementSel name).picks = some n ∧ n.innerText = value := by
  have hfind := Slot.find?_fillAll hs.steady hs.apart hmem l
  rw [setTextElement, Slot.picks_setText] at hfind
  refine ⟨_, hfind, ?_⟩
  have hsubject := Slot.isSome_of_subject ((setTextElement name value).found_subject l)
  change (((setTextElement name value).found l).withChildren [.text value]).innerText = value
  cases hfound : (setTextElement name value).found l with
  | element tag children =>
    change value ++ "" = value
    exact String.append_empty
  | text content =>
    rw [hfound] at hsubject
    cases hsubject
  | comment content =>
    rw [hfound] at hsubject
    cases hsubject
  | misc content =>
    rw [hfound] at hsubject
    cases hsubject

theorem sound_localAccountSlot (user password : String) :
    (localAccountSlot (hasName user) user password).Steady ∧
      ∀ p, Watched p → (localAccountSlot (hasName user) user password).Quiet p := by
  have hslots := sound_accountSlots user password
  have htag : (elementSel "LocalAccount").matchesTag (localAccountSlot (hasName user) user password).tag = true := rfl
  have hplain := sound_within htag (by decide) hslots
  have hsubject : ∀ n, (localAccountSlot (hasName user) user password).Subject n →
      (Slot.within (elementSel "LocalAccount") (localAccountSlot (hasName user) user password).tag
        [setTextElement "Name" user, setTextElement "Group" "Administrators", setPasswordElement password]).Subject n := by
    rintro n (h | rfl)
    · rw [Slot.picks, Bool.and_eq_true] at h
      left
      rw [Slot.picks_within]
      exact h.1
    · exact .inr rfl
  refine ⟨⟨fun n hn => ?_, fun n hn => hplain.1.edit_edit n (hsubject n hn)⟩,
    fun p hp => ⟨(hplain.2 p hp).new, fun n hn => (hplain.2 p hp).edit n (hsubject n hn)⟩⟩
  have hsel := hplain.1.picks_edit n (hsubject n hn)
  rw [Slot.picks_within] at hsel
  rw [Slot.picks, Bool.and_eq_true]
  refine ⟨hsel, ?_⟩
  obtain ⟨name, hname, htext⟩ := find?_setTextElement hslots List.mem_cons_self n.children
  change hasName user (n.fill _) = true
  rw [hasName, List.any_eq_true, Slot.children_fill (Slot.isSome_of_subject hn)]
  exact ⟨name, List.mem_of_find?_eq_some hname, by rw [List.find?_some hname, htext, beq_self_eq_true]; rfl⟩

theorem sound_localAccountsSlots (user password : String) : Sound
    [.within (elementSel "LocalAccounts") (elementTag "LocalAccounts")
      [localAccountSlot (hasName user) user password]] := by
  refine sound_of_forall rfl fun s hs => ?_
  rw [List.mem_singleton] at hs
  subst hs
  refine sound_within (matchesTag_element "LocalAccounts") (by decide) (sound_of_forall rfl fun s hs => ?_)
  rw [List.mem_singleton] at hs
  subst hs
  exact sound_localAccountSlot user password

theorem sound_autoLogonSlots (user password : String) : Sound
    [setTextElement "Enabled" "true", setTextElement "Username" user, setPasswordElement password,
      setTextElement "LogonCount" "1"] := by
  refine sound_of_forall rfl fun s hs => ?_
  simp only [List.mem_cons, List.not_mem_nil, or_false] at hs
  rcases hs with rfl | rfl | rfl | rfl
  · exact sound_setTextElement (by decide) "true"
  · exact sound_setTextElement (by decide) user
  · exact sound_setPasswordElement password
  · exact sound_setTextElement (by decide) "1"

theorem sound_oobeShellSlots (user password : String) : Sound (oobeShellSlots (hasName user) user password) := by
  refine sound_of_forall rfl fun s hs => ?_
  simp only [oobeShellSlots, List.mem_cons, List.not_mem_nil, or_false] at hs
  rcases hs with rfl | rfl | rfl
  · exact sound_within (matchesTag_element "OOBE") (by decide) (sound_setTextElements (by decide) (by decide))
  · exact sound_within (matchesTag_element "UserAccounts") (by decide) (sound_localAccountsSlots user password)
  · exact sound_within (matchesTag_element "AutoLogon") (by decide) (sound_autoLogonSlots user password)

theorem sound_shellSlot {slots : List Slot} (h : Sound slots) :
    (shellSlot slots).Steady ∧ ∀ p, Watched p → (shellSlot slots).Quiet p :=
  sound_within (matchesTag_component _) (by decide) h

theorem sound_internationalSlot :
    internationalSlot.Steady ∧ ∀ p, Watched p → internationalSlot.Quiet p :=
  sound_within (matchesTag_component _) (by decide) (sound_setTextElements (by decide) (by decide))

theorem sound_oobeSystemSlot {slots : List Slot} (h : Sound slots) :
    (oobeSystemSlot slots).Steady ∧ ∀ p, Watched p → (oobeSystemSlot slots).Quiet p :=
  sound_within (matchesTag_settings _) (by decide) h

/-! ### The first-boot command -/

@[simp] theorem innerText_textElement (name value : String) : (textElement name value).innerText = value := by
  change value ++ "" = value
  exact String.append_empty

theorem occurrences_textElement (p : Node → Bool) (name value : String) :
    (textElement name value).occurrences p = if p (textElement name value) then [textElement name value] else [] := by
  unfold textElement
  rw [Node.occurrences_element, List.flatMap_cons, List.flatMap_nil]
  change _ ++ ([] ++ []) = _
  rw [List.append_nil, List.append_nil]

theorem isSentinelPath_of_not_picks {n : Node} (h : (elementSel "Path").picks n = false) : isSentinelPath n = false := by
  rw [isSentinelPath, h, Bool.false_and]

theorem sentinel_firstBootCommand (order : Int) : (firstBootCommand order).occurrences isSentinelPath =
    [textElement "Path" "cmd.exe /c C:\\Windows\\Setup\\Scripts\\PVEAutopilot-SetupComplete.cmd"] := by
  have hpath : isSentinelPath
      (textElement "Path" "cmd.exe /c C:\\Windows\\Setup\\Scripts\\PVEAutopilot-SetupComplete.cmd") = true := by
    decide +kernel
  unfold firstBootCommand
  rw [Node.occurrences_element, List.flatMap_cons, List.flatMap_cons, List.flatMap_cons, List.flatMap_nil,
    occurrences_textElement, occurrences_textElement, occurrences_textElement, hpath,
    isSentinelPath_of_not_picks rfl, isSentinelPath_of_not_picks rfl, isSentinelPath_of_not_picks rfl]
  rfl

theorem addFirstBoot_addFirstBoot (n : Node) : addFirstBoot (addFirstBoot n) = addFirstBoot n := by
  by_cases hthere : hasSentinel n = true
  · unfold addFirstBoot
    rw [if_pos hthere, if_pos hthere]
  · have hadded : addFirstBoot n = n.withChildren (n.children ++ [firstBootCommand (nextOrder n.children)]) := by
      unfold addFirstBoot
      rw [if_neg hthere]
    cases n with
    | element tag children =>
      have hnow : hasSentinel (addFirstBoot (.element tag children)) = true := by
        rw [hadded, hasSentinel, Node.children_withChildren rfl, Node.occurrencesList_eq, List.flatMap_append,
          List.flatMap_cons, sentinel_firstBootCommand]
        simp
      rw [addFirstBoot, if_pos hnow]
    | text content => rw [hadded]; exact hadded
    | comment content => rw [hadded]; exact hadded
    | misc content => rw [hadded]; exact hadded

theorem tag?_addFirstBoot (n : Node) : (addFirstBoot n).tag? = n.tag? := by
  unfold addFirstBoot
  split
  · rfl
  · exact Node.tag?_withChildren n _

theorem picks_addFirstBoot (s : Sel) (n : Node) : s.picks (addFirstBoot n) = s.picks n := by
  unfold Sel.picks
  rw [tag?_addFirstBoot]

theorem steady_runSynchronousSlot : runSynchronousSlot.Steady where
  picks_edit := by
    intro n hn
    change ((elementSel "RunSynchronous").picks (addFirstBoot n) && true) = true
    rw [Bool.and_true, picks_addFirstBoot]
    rcases hn with hn | rfl
    · exact (Bool.and_eq_true _ _ ▸ hn).1
    · rfl
  edit_edit _ _ := addFirstBoot_addFirstBoot _

theorem picks_runSynchronousSlot : runSynchronousSlot.picks = (elementSel "RunSynchronous").picks :=
  funext fun _ => Bool.and_true _

theorem steady_deploymentSlots : ∀ s ∈ [runSynchronousSlot], s.Steady := by
  intro s hs
  rw [List.mem_singleton] at hs
  subst hs
  exact steady_runSynchronousSlot

theorem apart_deploymentSlots : Apart [runSynchronousSlot] := List.pairwise_singleton _ _

theorem steady_deploymentSlot : deploymentSlot.Steady :=
  Slot.steady_within (matchesTag_component _) steady_deploymentSlots apart_deploymentSlots

section Specialize
variable {folds : Char → Bool} {package : Package}

theorem sound_computerNameSlots (name : String) : Sound [setTextElement "ComputerName" name] := by
  refine sound_of_forall rfl fun s hs => ?_
  rw [List.mem_singleton] at hs
  subst hs
  exact sound_setTextElement (by decide) name

theorem steady_specializeSlots : ∀ s ∈ specializeSlots folds package, s.Steady := by
  intro s hs
  unfold specializeSlots at hs
  rcases List.mem_cons.mp hs with rfl | hs
  · exact steady_deploymentSlot
  · split at hs
    · rw [List.mem_singleton] at hs
      subst hs
      exact (sound_shellSlot (sound_computerNameSlots _)).1
    · cases hs

theorem apart_specializeSlots : Apart (specializeSlots folds package) := by
  unfold specializeSlots
  split
  · exact List.pairwise_pair.mpr rfl
  · exact List.pairwise_singleton _ _

end Specialize

end ProxmoxVEAutopilot.CloudOsd.Unattend
