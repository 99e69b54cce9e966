import ProxmoxVEAutopilot.CloudOsd.UnattendResult

/-!
# Staging the answer file twice

The second time everything is found as it was left, so that nothing changes; and what either
time changes is in the slots.
-/

namespace ProxmoxVEAutopilot.CloudOsd.Unattend

open Foundation Foundation.Xml
open Agents (isBlank)

set_option autoImplicit false

/-! ### What is kept -/

theorem keptBy_refl (spots : List Spot) (n : Node) : KeptBy spots n n := ⟨rfl, fun _ x hx => ⟨x, hx, .inl rfl⟩⟩

/-- The spot allows what the slot does. -/
structure Keeps (spot : Spot) (s : Slot) : Prop where
  picks : spot.picks = s.picks
  kept : ∀ n, spot.kept n (s.edit n)

def AllKept (spots : List Spot) (slots : List Slot) : Prop := ∀ s ∈ slots, ∃ spot ∈ spots, Keeps spot s

theorem allKept_nil : AllKept [] [] := by
  intro s hs
  cases hs

theorem allKept_cons {spot : Spot} {s : Slot} {spots : List Spot} {slots : List Slot} (h : Keeps spot s)
    (hrest : AllKept spots slots) : AllKept (spot :: spots) (s :: slots) := by
  intro r hr
  rcases List.mem_cons.mp hr with rfl | hr
  · exact ⟨spot, List.mem_cons_self, h⟩
  · obtain ⟨other, hmem, hkeeps⟩ := hrest r hr
    exact ⟨other, List.mem_cons_of_mem _ hmem, hkeeps⟩

theorem keptBy_of_allKept {spots : List Spot} {slots : List Slot} (hs : ∀ s ∈ slots, s.Steady) (hapart : Apart slots)
    (h : AllKept spots slots) (n : Node) : KeptBy spots n (n.fill slots) := by
  refine keptBy_fill hs hapart fun s hmem => ?_
  obtain ⟨spot, hspot, hkeeps⟩ := h s hmem
  exact ⟨spot, hspot, hkeeps.picks, fun x _ => hkeeps.kept x⟩

theorem keeps_within {sel : Sel} (tag : Tag) {spots : List Spot} {slots : List Slot} (hs : ∀ s ∈ slots, s.Steady)
    (hapart : Apart slots) (h : AllKept spots slots) : Keeps (withinSpot sel spots) (.within sel tag slots) :=
  ⟨(Slot.picks_within sel tag slots).symm, keptBy_of_allKept hs hapart h⟩

theorem keeps_setTextElement (name value : String) : Keeps (resetSpot name) (setTextElement name value) :=
  ⟨(Slot.picks_setText _ _ _).symm, fun n => Node.tag?_withChildren n _⟩

theorem allKept_setTextElements (entries : List (String × String)) :
    AllKept (entries.map fun e => resetSpot e.1) (setTextElements entries) := by
  induction entries with
  | nil => exact allKept_nil
  | cons e rest ih => exact allKept_cons (keeps_setTextElement e.1 e.2) ih

theorem keeps_setPasswordElement (value : String) : Keeps passwordSpot (setPasswordElement value) :=
  have hsound := sound_passwordSlots value
  keeps_within _ hsound.steady hsound.apart
    (allKept_cons (keeps_setTextElement _ _) (allKept_cons (keeps_setTextElement _ _) allKept_nil))

theorem keeps_runSynchronousSlot : Keeps (withinSpot (elementSel "RunSynchronous") []) runSynchronousSlot := by
  refine ⟨picks_runSynchronousSlot.symm, fun n => ?_⟩
  change KeptBy [] n (addFirstBoot n)
  unfold addFirstBoot
  split
  · exact keptBy_refl [] n
  · exact (keptBy_refl [] n).append _

theorem keeps_deploymentSlot :
    Keeps (withinSpot deploymentSel [withinSpot (elementSel "RunSynchronous") []]) deploymentSlot :=
  keeps_within _ steady_deploymentSlots apart_deploymentSlots (allKept_cons keeps_runSynchronousSlot allKept_nil)

theorem allKept_specializeSlots (folds : Char → Bool) (package : Package) : AllKept
    [ withinSpot deploymentSel [withinSpot (elementSel "RunSynchronous") []],
      withinSpot shellSel [resetSpot "ComputerName"] ] (specializeSlots folds package) := by
  unfold specializeSlots
  apply allKept_cons keeps_deploymentSlot
  split
  · rename_i name _
    have hsound := sound_computerNameSlots name
    exact allKept_cons (keeps_within _ hsound.steady hsound.apart
      (allKept_cons (keeps_setTextElement _ _) allKept_nil)) allKept_nil
  · intro s hs
    cases hs

theorem keeps_localAccountSlot (user password : String) :
    Keeps (accountSpot user) (localAccountSlot (hasName user) user password) := by
  have hsound := sound_accountSlots user password
  refine ⟨rfl, keptBy_of_allKept hsound.steady hsound.apart ?_⟩
  exact allKept_cons (keeps_setTextElement _ _) (allKept_cons (keeps_setTextElement _ _)
    (allKept_cons (keeps_setPasswordElement password) allKept_nil))

theorem keeps_oobeShellSlot (user password : String) :
    Keeps (oobeShellSpot user) (shellSlot (oobeShellSlots (hasName user) user password)) := by
  have hoobe : Sound (setTextElements oobeEntries) := sound_setTextElements (by decide) (by decide)
  have haccounts := sound_localAccountsSlots user password
  have haccount : Sound [localAccountSlot (hasName user) user password] := by
    refine sound_of_forall rfl fun s hs => ?_
    rw [List.mem_singleton] at hs
    subst hs
    exact sound_localAccountSlot user password
  have hlogon := sound_autoLogonSlots user password
  have hall := sound_oobeShellSlots user password
  refine keeps_within _ hall.steady hall.apart (allKept_cons ?_ (allKept_cons ?_ (allKept_cons ?_ allKept_nil)))
  · exact keeps_within _ hoobe.steady hoobe.apart (allKept_setTextElements oobeEntries)
  · exact keeps_within _ haccounts.steady haccounts.apart (allKept_cons (keeps_within _ haccount.steady haccount.apart
      (allKept_cons (keeps_localAccountSlot user password) allKept_nil)) allKept_nil)
  · exact keeps_within _ hlogon.steady hlogon.apart (allKept_cons (keeps_setTextElement _ _)
      (allKept_cons (keeps_setTextElement _ _) (allKept_cons (keeps_setPasswordElement password)
        (allKept_cons (keeps_setTextElement _ _) allKept_nil))))

theorem keeps_internationalSlot : Keeps
    (withinSpot (componentSel "Microsoft-Windows-International-Core") (localeEntries.map fun e => resetSpot e.1))
    internationalSlot :=
  have hsound : Sound (setTextElements localeEntries) := sound_setTextElements (by decide) (by decide)
  keeps_within _ hsound.steady hsound.apart (allKept_setTextElements localeEntries)

/-! ### With the package's own account -/

/-- An account of the package, with a name that is a text of XPath. -/
structure OwnAccount (localAdmin : LocalAdmin) : Prop where
  username : isBlank localAdmin.username = false
  password : isBlank localAdmin.password = false
  plain : '\'' ∉ localAdmin.username.toList

def packageSlots (package : Package) : List Slot :=
  (if package.preserveAutopilotOobe then []
    else [shellSlot (oobeShellSlots (hasName package.localAdmin.username) package.localAdmin.username
      package.localAdmin.password)]) ++ [internationalSlot]

theorem oobeSystemSlots_eq {xpath : XPath} {package : Package} (haccount : OwnAccount package.localAdmin)
    (random : String) : oobeSystemSlots xpath random package = .ok (packageSlots package) := by
  have hadmin : bootstrap random package.localAdmin = package.localAdmin := by
    unfold bootstrap
    rw [haccount.username, haccount.password]
    rfl
  unfold oobeSystemSlots packageSlots
  split
  · rfl
  · dsimp only
    rw [hadmin, xpath.named_plain _ haccount.plain]
    rfl

theorem sound_packageSlots (package : Package) : Sound (packageSlots package) := by
  unfold packageSlots
  split
  · refine sound_of_forall rfl fun s hs => ?_
    simp only [List.nil_append, List.mem_singleton] at hs
    subst hs
    exact sound_internationalSlot
  · refine sound_of_forall rfl fun s hs => ?_
    simp only [List.mem_append, List.mem_singleton] at hs
    rcases hs with rfl | rfl
    · exact sound_shellSlot (sound_oobeShellSlots _ _)
    · exact sound_internationalSlot

theorem keeps_oobeSystemSlot (package : Package) :
    Keeps (oobeSystemSpot package) (oobeSystemSlot (packageSlots package)) := by
  have hsound := sound_packageSlots package
  refine keeps_within _ hsound.steady hsound.apart ?_
  unfold packageSlots
  split
  · exact allKept_cons keeps_internationalSlot allKept_nil
  · exact allKept_cons (keeps_oobeShellSlot _ _) (allKept_cons keeps_internationalSlot allKept_nil)

namespace Filled
variable {folds : Char → Bool} {package : Package} {tag : Tag} {children : List Node} {settings : Node}
  {slots : List Slot} (h : Filled folds package tag children settings slots)
include h

theorem kept_settings : KeptBy
    [ withinSpot deploymentSel [withinSpot (elementSel "RunSynchronous") []],
      withinSpot shellSel [resetSpot "ComputerName"] ]
    (withoutJoins package.domainJoin (specializeOf (.element tag children))) settings := by
  have hfilled := (keptBy_of_allKept steady_specializeSlots apart_specializeSlots
    (allKept_specializeSlots folds package)
    (withoutJoins package.domainJoin (specializeOf (.element tag children)))).append (addedJoin package.domainJoin)
  have htag : (withoutJoins package.domainJoin (specializeOf (.element tag children))).tag?.isSome := by
    unfold withoutJoins
    split
    · rw [Node.tag?_withChildren]
      exact Sel.isSome_of_picks (picks_specializeOf _)
    · exact Sel.isSome_of_picks (picks_specializeOf _)
  rw [Slot.children_fill htag] at hfilled
  have hsame : ∀ l, (withoutJoins package.domainJoin (specializeOf (.element tag children))).withChildren l =
      (specializeOf (.element tag children)).withChildren l := by
    intro l
    unfold withoutJoins
    split
    · exact Node.withChildren_withChildren _ _ _
    · rfl
  rw [Node.fill, Node.withChildren_withChildren, hsame, ← h.settings_eq] at hfilled
  exact hfilled

theorem kept_filled (hkeeps : Keeps (oobeSystemSpot package) (oobeSystemSlot slots)) :
    KeptBy [specializeSpot package.domainJoin, oobeSystemSpot package] (declared (.element tag children))
      (filled tag children settings slots) := by
  refine keptBy_fill h.steady_root apart_root fun s hs => ?_
  simp only [List.mem_cons, List.not_mem_nil, or_false] at hs
  rcases hs with rfl | rfl
  · refine ⟨specializeSpot package.domainJoin, List.mem_cons_self, (picks_specializeSlot settings).symm,
      fun x hx => ?_⟩
    rw [picks_specializeSlot] at hx
    have hfound : specializeOf (.element tag children) = x := by
      unfold specializeOf
      rw [Node.children, show children.find? _ = some x from hx]
      rfl
    have hkept := h.kept_settings
    rw [hfound] at hkept
    exact hkept
  · exact ⟨oobeSystemSpot package, List.mem_cons_of_mem _ List.mem_cons_self, hkeeps.picks,
      fun x _ => hkeeps.kept x⟩

/-! ### The second time -/

theorem join_of_settings (henabled : package.domainJoin.enabled = true) :
    settings.children.filter joinSel.picks = [joinComponent package.domainJoin] ∧
      settings.children.filter (fun n => !joinSel.picks n) ++ [joinComponent package.domainJoin] =
        settings.children := by
  have hchildren := h.children_settings
  rw [children_withoutJoins (Sel.isSome_of_picks (picks_specializeOf _)), if_pos henabled] at hchildren
  unfold addedJoin at hchildren
  rw [if_pos henabled] at hchildren
  have hothers : (fillAll (specializeSlots folds package)
      ((specializeOf (.element tag children)).children.filter fun n => !joinSel.picks n)).filter
        (fun n => !joinSel.picks n) = fillAll (specializeSlots folds package)
          ((specializeOf (.element tag children)).children.filter fun n => !joinSel.picks n) := by
    rw [Slot.filter_fillAll steady_specializeSlots not_join_of_specializeSlots, List.filter_filter]
    congr 2
    funext n
    exact Bool.and_self _
  generalize fillAll (specializeSlots folds package)
    ((specializeOf (.element tag children)).children.filter fun n => !joinSel.picks n) = others at hothers hchildren
  have hnone : others.filter joinSel.picks = [] := by
    rw [List.filter_eq_nil_iff]
    intro n hn
    rw [← hothers] at hn
    have hnot := (List.mem_filter.mp hn).2
    rw [Bool.not_eq_true'] at hnot
    rw [hnot]
    exact Bool.false_ne_true
  have hjoin : joinSel.picks (joinComponent package.domainJoin) = true := rfl
  constructor
  · rw [hchildren, List.filter_append, hnone, List.filter_cons, hjoin]
    rfl
  · rw [hchildren, List.filter_append, hothers, List.filter_cons, hjoin, Bool.not_true, if_neg Bool.false_ne_true,
      List.filter_nil, List.append_nil]

theorem specializeSettings_again : specializeSettings folds package settings = .ok settings := by
  have hsame : fillAll (specializeSlots folds package) settings.children = settings.children :=
    Slot.fillAll_of_edited fun s hs => ⟨_, h.find?_specializeSlot hs,
      (steady_specializeSlots s hs).edit_edit _ (s.found_subject _)⟩
  have hjoin : addUnattendedJoinComponent package.domainJoin settings.children = .ok settings.children := by
    unfold addUnattendedJoinComponent
    cases henabled : package.domainJoin.enabled with
    | false => rfl
    | true =>
      obtain ⟨hjoins, hothers⟩ := h.join_of_settings henabled
      have hsentinel : hasJoinSentinel (joinComponent package.domainJoin) = true := by
        have hself : contains (lower joinSentinel) (lower joinSentinel) = true := contains_iff.mpr List.infix_rfl
        rw [hasJoinSentinel, List.any_eq_true]
        exact ⟨.comment joinSentinel, List.mem_cons_self, hself⟩
      have hcomplete : (isBlank package.domainJoin.domainFqdn || isBlank package.domainJoin.username ||
          isBlank package.domainJoin.password) = false := by
        obtain ⟨_, hadded, -⟩ := map_ok.mp h.specialize
        unfold addUnattendedJoinComponent at hadded
        rw [henabled, Bool.not_true, if_neg Bool.false_ne_true] at hadded
        split at hadded
        · exact nomatch hadded
        · rename_i hcomplete
          exact Bool.not_eq_true _ ▸ hcomplete
      rw [Bool.not_true, if_neg Bool.false_ne_true, hcomplete, if_neg Bool.false_ne_true, hjoins, List.any_cons,
        hsentinel, Bool.not_true, List.any_nil, Bool.or_false, if_neg Bool.false_ne_true, hothers]
  unfold specializeSettings
  rw [hsame, hjoin]
  change Except.ok (settings.withChildren settings.children) = .ok settings
  rw [Node.withChildren_children]

theorem again_filled (haccount : OwnAccount package.localAdmin) (hns : tag.ns ≠ "") (xpath : XPath) (random : String)
    (hslots : slots = packageSlots package) :
    addSpecializeUnattend xpath folds random package (some (filled tag children settings slots)) =
      .ok (filled tag children settings slots) := by
  have hspecialize : specializeOf (filled tag children settings slots) = settings := by
    unfold specializeOf
    rw [h.find?_specialize, Option.getD_some]
  have hname : (tag.set wcmDeclaration).name = "unattend" := h.name
  have hnamespace : (tag.set wcmDeclaration).ns ≠ "" := hns
  have hroot : (Node.element (tag.set wcmDeclaration) children).tag?.isSome := rfl
  have hagain := Slot.fill_fill h.steady_root apart_root hroot
  unfold addSpecializeUnattend
  rw [Option.getD_some]
  change (if (tag.set wcmDeclaration).name ≠ "unattend" then _ else if (tag.set wcmDeclaration).ns = "" then _ else
    ((specializeSettings folds package (specializeOf (filled tag children settings slots))).bind _)) = _
  rw [if_neg (not_not.mpr hname), if_neg hnamespace, hspecialize, h.specializeSettings_again]
  change ((oobeSystemSlots xpath random package).map _) = _
  rw [oobeSystemSlots_eq haccount, ← hslots]
  change Except.ok (Node.element ((tag.set wcmDeclaration).set wcmDeclaration) _) = _
  rw [Tag.set_set, ← picks_specializeSlot settings]
  exact congrArg Except.ok hagain

end Filled

/-! ### The answer file is staged -/

theorem addSpecializeUnattend_staged (xpath : XPath) (folds : Char → Bool) (random : String) (package : Package)
    (existing : Option Node) (new : Node) (haccount : OwnAccount package.localAdmin)
    (hready : Ready package (existing.getD emptyRoot))
    (h : addSpecializeUnattend xpath folds random package existing = .ok new) :
    Staged xpath folds package (existing.getD emptyRoot) new := by
  obtain ⟨tag, children, settings, slots, hroot, hname, hns, hsettings, hslots, rfl⟩ := addSpecializeUnattend_ok h
  rw [oobeSystemSlots_eq haccount, Except.ok.injEq] at hslots
  subst hslots
  rw [hroot] at hready ⊢
  have hfilled : Filled folds package tag children settings (packageSlots package) :=
    ⟨hname, hsettings, sound_packageSlots package⟩
  have hslots : package.preserveAutopilotOobe = false → packageSlots package =
      [shellSlot (oobeShellSlots (hasName package.localAdmin.username) package.localAdmin.username
        package.localAdmin.password), internationalSlot] := by
    intro hoobe
    unfold packageSlots
    rw [hoobe]
    rfl
  exact {
    firstBoot := hfilled.firstBoot_filled hready
    join := hfilled.join_filled hready
    computerName := fun _ => hfilled.computerName_filled
    autoLogon := fun hoobe =>
      ⟨(hfilled.autoLogon_filled (hslots hoobe)).1, (hfilled.autoLogon_filled (hslots hoobe)).2,
        hfilled.account_filled (hslots hoobe)⟩
    kept := hfilled.kept_filled (keeps_oobeSystemSlot package)
    again := fun random => hfilled.again_filled haccount hns xpath random rfl }

def plainNames : XPath where
  named user := if '\'' ∈ user.toList then .error "This is an unclosed string." else .ok (hasName user)
  named_plain := fun _ h => if_neg h

def labPackage : Package where
  computerName := "LAB-01"
  domainJoin :=
    { enabled := true, domainFqdn := "lab.example.com", username := "joiner", password := "secret",
      ouPath := "OU=Lab,DC=lab,DC=example,DC=com" }
  localAdmin := ⟨"labadmin", "initial"⟩

theorem addSpecializeUnattend_staged_lab : ∃ new,
    addSpecializeUnattend plainNames (fun _ => false) "" labPackage none = .ok new ∧
      Staged plainNames (fun _ => false) labPackage emptyRoot new := by
  have hok : (addSpecializeUnattend plainNames (fun _ => false) "" labPackage none).toOption.isSome = true := by
    decide +kernel
  cases hnew : addSpecializeUnattend plainNames (fun _ => false) "" labPackage none with
  | error e =>
    rw [hnew] at hok
    cases hok
  | ok new =>
    have haccount : OwnAccount labPackage.localAdmin := ⟨by decide, by decide, by decide⟩
    have hready : Ready labPackage emptyRoot := {
      elsewhere := rfl
      there := by rintro n ⟨⟩
      absent := by rintro n ⟨⟩
      joins := fun _ => rfl }
    exact ⟨new, rfl, addSpecializeUnattend_staged plainNames (fun _ => false) "" labPackage none new haccount hready hnew⟩

def Offline (existing : Option Node) : Prop :=
  ∀ root, existing = some root → (elementSel "unattend").picks root = true ∧
    ∀ pass, (root.children.filter (settingsSel pass).picks).length ≤ 1

def twoCommands : Node :=
  .element (elementTag "unattend")
    [.element (settingsTag "specialize")
      [.element (componentTag "Microsoft-Windows-Deployment")
        [.element (elementTag "RunSynchronous") [firstBootCommand 1, firstBootCommand 2]]]]

/-- Two first-boot commands stay two. -/
theorem not_staged_twoCommands :
    ¬ ∀ (xpath : XPath) (folds : Char → Bool) (random : String) (package : Package) (existing : Option Node)
        (new : Node), isBlank package.localAdmin.username = false → isBlank package.localAdmin.password = false →
      Offline existing → addSpecializeUnattend xpath folds random package existing = .ok new →
      Staged xpath folds package (existing.getD emptyRoot) new := by
  intro h
  have hcount : (addSpecializeUnattend plainNames (fun _ => false) "" labPackage (some twoCommands)).toOption.map
      (fun new => (new.occurrences isFirstBoot).length) = some 2 := by
    decide +kernel
  cases hnew : addSpecializeUnattend plainNames (fun _ => false) "" labPackage (some twoCommands) with
  | error e =>
    rw [hnew] at hcount
    cases hcount
  | ok new =>
    have hoffline : Offline (some twoCommands) := by
      rintro root ⟨⟩
      exact ⟨rfl, fun pass => List.length_filter_le _ _⟩
    obtain ⟨_, _, _, command, _, _, hone, _⟩ :=
      (h plainNames (fun _ => false) "" labPackage (some twoCommands) new (by decide) (by decide) hoffline hnew).firstBoot
    rw [hnew] at hcount
    change some (new.occurrences isFirstBoot).length = some 2 at hcount
    rw [hone] at hcount
    cases hcount

end ProxmoxVEAutopilot.CloudOsd.Unattend
