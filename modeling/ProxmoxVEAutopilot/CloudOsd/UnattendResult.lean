import ProxmoxVEAutopilot.CloudOsd.UnattendStaged
import ProxmoxVEAutopilot.Foundation.Lists

/-!
# The staged answer file as slots

Both passes are slots of the root. What is counted afterwards is what the slot of the
first-boot command and the new join bring.
-/

namespace ProxmoxVEAutopilot.CloudOsd.Unattend

open Foundation Foundation.Xml
open Agents (isBlank)

set_option autoImplicit false

section Result
variable {xpath : XPath} {folds : Char → Bool} {random : String} {package : Package}

/-- The settings of the specialize pass, once they are known. -/
def specializeSlot (settings : Node) : Slot where
  sel := settingsSel "specialize"
  tag := settingsTag "specialize"
  edit _ := settings

theorem picks_specializeSlot (settings : Node) :
    (specializeSlot settings).picks = (settingsSel "specialize").picks :=
  funext fun _ => Bool.and_true _

theorem steady_specializeSlot {settings : Node} (h : (settingsSel "specialize").picks settings = true) :
    (specializeSlot settings).Steady where
  picks_edit := by
    intro _ _
    rwa [picks_specializeSlot]
  edit_edit := fun _ _ => rfl

def addedJoin (join : DomainJoin) : List Node := if join.enabled then [joinComponent join] else []

theorem not_join_of_specializeSlots : ∀ s ∈ specializeSlots folds package, ∀ n, s.picks n = true →
    (!joinSel.picks n) = true := by
  intro s hs n hn
  have hapart : s.sel.apart joinSel = true := by
    unfold specializeSlots at hs
    rcases List.mem_cons.mp hs with rfl | hs
    · rfl
    · split at hs
      · rw [List.mem_singleton] at hs
        subst hs
        rfl
      · cases hs
  rw [Slot.picks, Bool.and_eq_true] at hn
  rw [Sel.not_picks_of_apart hapart hn.1]
  rfl

theorem children_withoutJoins {join : DomainJoin} {settings : Node} (h : settings.tag?.isSome) :
    (withoutJoins join settings).children =
      if join.enabled then settings.children.filter fun n => !joinSel.picks n else settings.children := by
  unfold withoutJoins
  split
  · exact Node.children_withChildren h _
  · rfl

/-- The order in which joins are removed and components created does not matter. -/
theorem specializeSettings_ok {settings result : Node} (helement : settings.tag?.isSome)
    (h : specializeSettings folds package settings = .ok result) :
    result = settings.withChildren (fillAll (specializeSlots folds package)
      (withoutJoins package.domainJoin settings).children ++ addedJoin package.domainJoin) := by
  unfold specializeSettings at h
  obtain ⟨children, hchildren, hresult⟩ := map_ok.mp h
  rw [← hresult, children_withoutJoins helement]
  unfold addUnattendedJoinComponent at hchildren
  unfold addedJoin
  cases hjoin : package.domainJoin.enabled with
  | false =>
    rw [hjoin, Bool.not_false, if_pos rfl] at hchildren
    rw [if_neg Bool.false_ne_true, if_neg Bool.false_ne_true, List.append_nil, Except.ok.inj hchildren]
  | true =>
    rw [hjoin, Bool.not_true, if_neg Bool.false_ne_true] at hchildren
    rw [if_pos rfl, if_pos rfl, ← Slot.filter_fillAll steady_specializeSlots not_join_of_specializeSlots]
    split at hchildren
    · exact nomatch hchildren
    · split at hchildren
      · exact nomatch hchildren
      · rw [Except.ok.inj hchildren]

theorem addSpecializeUnattend_ok {existing : Option Node} {new : Node}
    (h : addSpecializeUnattend xpath folds random package existing = .ok new) :
    ∃ tag children settings slots, existing.getD emptyRoot = .element tag children ∧ tag.name = "unattend" ∧
      tag.ns ≠ "" ∧ specializeSettings folds package (specializeOf (.element tag children)) = .ok settings ∧
      oobeSystemSlots xpath random package = .ok slots ∧
      new = (Node.element (tag.set wcmDeclaration) children).fill [specializeSlot settings, oobeSystemSlot slots] := by
  unfold addSpecializeUnattend at h
  dsimp only at h
  cases hroot : existing.getD emptyRoot with
  | element tag children =>
    rw [hroot] at h
    dsimp only [Node.tag?] at h
    split at h
    · cases h
    · rename_i hname
      split at h
      · cases h
      · rename_i hns
        obtain ⟨settings, hsettings, hrest⟩ := bind_ok.mp h
        obtain ⟨slots, hslots, rfl⟩ := map_ok.mp hrest
        refine ⟨tag, children, settings, slots, rfl, not_not.mp hname, hns, hsettings, hslots, ?_⟩
        rw [← picks_specializeSlot settings]
        rfl
  | text content =>
    rw [hroot] at h
    cases h
  | comment content =>
    rw [hroot] at h
    cases h
  | misc content =>
    rw [hroot] at h
    cases h

/-- What `addSpecializeUnattend_ok` says of a result. -/
def filled (tag : Tag) (children : List Node) (settings : Node) (slots : List Slot) : Node :=
  (Node.element (tag.set wcmDeclaration) children).fill [specializeSlot settings, oobeSystemSlot slots]

theorem picks_specializeOf (root : Node) : (settingsSel "specialize").picks (specializeOf root) = true := by
  unfold specializeOf
  cases hfind : root.children.find? (settingsSel "specialize").picks with
  | none => rfl
  | some settings => exact List.find?_some hfind

theorem plain_settings (pass : String) : Sel.plain (settingsSel pass) = true := rfl

/-- The slots of the root after both passes are known. -/
structure Filled (folds : Char → Bool) (package : Package) (tag : Tag) (children : List Node) (settings : Node)
    (slots : List Slot) : Prop where
  name : tag.name = "unattend"
  specialize : specializeSettings folds package (specializeOf (.element tag children)) = .ok settings
  sound : Sound slots

namespace Filled
variable {tag : Tag} {children : List Node} {settings : Node} {slots : List Slot}
  (h : Filled folds package tag children settings slots)
include h

theorem settings_eq : settings = (specializeOf (.element tag children)).withChildren
    (fillAll (specializeSlots folds package)
      (withoutJoins package.domainJoin (specializeOf (.element tag children))).children ++
        addedJoin package.domainJoin) :=
  specializeSettings_ok (Sel.isSome_of_picks (picks_specializeOf _)) h.specialize

theorem picks_settings : (settingsSel "specialize").picks settings = true := by
  rw [h.settings_eq, Sel.picks_withChildren]
  exact picks_specializeOf _

theorem children_settings : settings.children = fillAll (specializeSlots folds package)
      (withoutJoins package.domainJoin (specializeOf (.element tag children))).children ++
        addedJoin package.domainJoin := by
  conv_lhs => rw [h.settings_eq]
  exact Node.children_withChildren (Sel.isSome_of_picks (picks_specializeOf _)) _

theorem steady_root : ∀ s ∈ [specializeSlot settings, oobeSystemSlot slots], s.Steady := by
  intro s hs
  simp only [List.mem_cons, List.not_mem_nil, or_false] at hs
  rcases hs with rfl | rfl
  · exact steady_specializeSlot h.picks_settings
  · exact (sound_oobeSystemSlot h.sound).1

omit h in
theorem apart_root : Apart [specializeSlot settings, oobeSystemSlot slots] := List.pairwise_pair.mpr rfl

theorem find?_specialize :
    (filled tag children settings slots).children.find? (settingsSel "specialize").picks = some settings := by
  have hfind := Slot.find?_fillAll h.steady_root apart_root List.mem_cons_self children
  rw [picks_specializeSlot] at hfind
  exact hfind

omit h in
theorem found_withoutJoins {s : Slot} (hs : s ∈ specializeSlots folds package) :
    s.found (withoutJoins package.domainJoin (specializeOf (.element tag children))).children =
      s.found (specializeOf (.element tag children)).children := by
  rw [children_withoutJoins (Sel.isSome_of_picks (picks_specializeOf _))]
  split
  · unfold Slot.found
    rw [find?_filter_of_imp (not_join_of_specializeSlots s hs)]
  · rfl

theorem find?_specializeSlot {s : Slot} (hs : s ∈ specializeSlots folds package) :
    settings.children.find? s.picks = some (s.edit (s.found (specializeOf (.element tag children)).children)) := by
  rw [h.children_settings, List.find?_append, Slot.find?_fillAll steady_specializeSlots apart_specializeSlots hs,
    found_withoutJoins hs]
  rfl

/-! ### The first-boot command is there -/

omit h in
theorem runSynchronousOf_eq : runSynchronousOf (.element tag children) =
    (deploymentSlot.found (specializeOf (.element tag children)).children).children.find?
      (elementSel "RunSynchronous").picks := by
  unfold runSynchronousOf
  rw [descend_getD (settingsTag "specialize"), descend_getD (componentTag "Microsoft-Windows-Deployment"),
    Node.descend_singleton]
  unfold Slot.found
  rw [deploymentSlot, Slot.picks_within]
  rfl

theorem runSynchronousOf_filled : runSynchronousOf (filled tag children settings slots) =
    some (addFirstBoot ((runSynchronousOf (.element tag children)).getD runSynchronousSlot.new)) := by
  have hdeployment := h.find?_specializeSlot (s := deploymentSlot) List.mem_cons_self
  rw [deploymentSlot, Slot.picks_within] at hdeployment
  have hrun := Slot.find?_fillAll steady_deploymentSlots apart_deploymentSlots List.mem_cons_self
    (deploymentSlot.found (specializeOf (.element tag children)).children).children
  rw [picks_runSynchronousSlot] at hrun
  unfold runSynchronousOf
  rw [Node.descend, h.find?_specialize, Option.bind_some, Node.descend]
  change (settings.children.find? (componentSel "Microsoft-Windows-Deployment").picks).bind _ = _
  rw [hdeployment, Option.bind_some, Node.descend_singleton]
  change (((deploymentSlot.found (specializeOf (.element tag children)).children).fill
    [runSynchronousSlot]).children.find? _) = _
  rw [Slot.children_fill (Slot.isSome_of_subject (deploymentSlot.found_subject _)), hrun]
  change some (addFirstBoot _) = some (addFirstBoot ((runSynchronousOf (.element tag children)).getD _))
  rw [runSynchronousOf_eq, ← picks_runSynchronousSlot]
  rfl

section Counted
variable {p : Node → Bool} (hp : Watched p)
include hp

omit h in
theorem root_not {t : Tag} (hname : t.name = "unattend") (l : List Node) : p (.element t l) = false := by
  rw [Bool.eq_false_iff]
  intro htrue
  rcases hp _ htrue with hcommand | hjoin
  · simp [Sel.matchesTag, elementSel, hname] at hcommand
  · simp [Sel.matchesTag, joinSel, hname] at hjoin

theorem occurrences_filled (honly : children.flatMap (Node.occurrences p) =
      (children.find? (settingsSel "specialize").picks).elim [] (Node.occurrences p)) :
    (filled tag children settings slots).occurrences p = settings.children.flatMap (Node.occurrences p) := by
  have hother : (((specializeSlot settings).put children).find? (oobeSystemSlot slots).picks).elim []
      (Node.occurrences p) = [] := by
    rw [Slot.find?_put_of_apart (steady_specializeSlot h.picks_settings) rfl]
    exact elim_find?_of_only honly fun x hx => Slot.not_picks_of_apart (s := specializeSlot settings) rfl
      (by rwa [picks_specializeSlot])
  have hsettings : ((specializeSlot settings).put children).flatMap (Node.occurrences p) = settings.occurrences p := by
    rw [← picks_specializeSlot settings] at honly
    exact flatMap_place_of_only honly
  change (Node.element (tag.set wcmDeclaration) (fillAll _ children)).occurrences p = _
  rw [Node.occurrences_element, root_not hp (t := tag.set wcmDeclaration) h.name, if_neg Bool.false_ne_true, List.nil_append]
  change ((oobeSystemSlot slots).put ((specializeSlot settings).put children)).flatMap _ = _
  rw [((sound_oobeSystemSlot h.sound).2 p hp).put_same hother, hsettings,
    occurrences_of_not (hp.not_of_plain (plain_settings _) h.picks_settings)]

end Counted

omit h in
theorem picks_deploymentSlot : deploymentSlot.picks = deploymentSel.picks := Slot.picks_within _ _ _

omit h in
theorem picks_deployment (l : List Node) : deploymentSel.picks (deploymentSlot.found l) = true := by
  rcases deploymentSlot.found_subject l with hpicks | hnew
  · rw [Slot.picks, Bool.and_eq_true] at hpicks
    exact hpicks.1
  · rw [hnew]
    rfl

omit h in
theorem occurrences_specializeSlots {p : Node → Bool} (hp : Watched p) {l : List Node}
    (honly : l.flatMap (Node.occurrences p) = (l.find? deploymentSlot.picks).elim [] (Node.occurrences p)) :
    (fillAll (specializeSlots folds package) l).flatMap (Node.occurrences p) =
      (deploymentSlot.edit (deploymentSlot.found l)).occurrences p := by
  have hdeployment : (deploymentSlot.put l).flatMap (Node.occurrences p) =
      (deploymentSlot.edit (deploymentSlot.found l)).occurrences p := flatMap_place_of_only honly
  unfold specializeSlots
  split
  · rename_i name _
    have hshell : ((deploymentSlot.put l).find? (shellSlot [setTextElement "ComputerName" name]).picks).elim []
        (Node.occurrences p) = [] := by
      rw [Slot.find?_put_of_apart steady_deploymentSlot rfl]
      exact elim_find?_of_only honly fun x => Slot.not_picks_of_apart rfl
    change ((shellSlot [setTextElement "ComputerName" name]).put (deploymentSlot.put l)).flatMap _ = _
    rw [((sound_shellSlot (sound_computerNameSlots name)).2 p hp).put_same hshell, hdeployment]
  · exact hdeployment

omit h in
theorem occurrences_joinComponent {p : Node → Bool} (hp : Watched p) (join : DomainJoin) :
    (joinComponent join).occurrences p = if p (joinComponent join) then [joinComponent join] else [] := by
  have helement : ∀ name l, Sel.plain (elementSel name) = true →
      (Node.element (elementTag name) l).occurrences p = l.flatMap (Node.occurrences p) := by
    intro name l hplain
    exact occurrences_of_not (hp.not_of_plain (n := .element (elementTag name) l) hplain (matchesTag_element name))
  have htext : ∀ name value, Sel.plain (elementSel name) = true → (textElement name value).occurrences p = [] :=
    fun name value hplain => helement name [.text value] hplain
  have hou : (if isBlank join.ouPath then [] else [textElement "MachineObjectOU" join.ouPath]).flatMap
      (Node.occurrences p) = [] := by
    split
    · rfl
    · rw [List.flatMap_singleton]
      exact htext _ _ rfl
  unfold joinComponent
  rw [Node.occurrences_element, List.flatMap_cons, List.flatMap_singleton, helement _ _ rfl, List.flatMap_append, hou,
    List.flatMap_cons, List.flatMap_singleton, helement _ _ rfl, List.flatMap_cons, List.flatMap_cons,
    List.flatMap_singleton, htext _ _ rfl, htext _ _ rfl, htext _ _ rfl, htext _ _ rfl]
  exact List.append_nil _

omit h in
theorem occurrences_addedJoin_firstBoot (join : DomainJoin) :
    (addedJoin join).flatMap (Node.occurrences isFirstBoot) = [] := by
  unfold addedJoin
  split
  · rw [List.flatMap_singleton, occurrences_joinComponent watched_isFirstBoot]
    rfl
  · rfl

theorem occurrences_firstBoot
    (helsewhere : (Node.element tag children).occurrences isFirstBoot =
      (runSynchronousOf (.element tag children)).elim [] (Node.occurrences isFirstBoot)) :
    (filled tag children settings slots).occurrences isFirstBoot =
      (addFirstBoot ((runSynchronousOf (.element tag children)).getD runSynchronousSlot.new)).occurrences
        isFirstBoot := by
  have hp := watched_isFirstBoot
  obtain ⟨hroot, hspecialize⟩ := only_step (settingsTag "specialize") (root_not hp h.name children)
    (hp.not_of_plain (s := settingsSel "specialize") rfl rfl) helsewhere
  obtain ⟨hsettings, hdeployment⟩ := only_step (componentTag "Microsoft-Windows-Deployment")
    (hp.not_of_plain (plain_settings _) (picks_specializeOf (.element tag children)))
    (hp.not_of_plain (s := deploymentSel) rfl rfl) hspecialize
  have hfound : deploymentSlot.found (specializeOf (.element tag children)).children =
      ((specializeOf (.element tag children)).children.find? deploymentSel.picks).getD
        (.element (componentTag "Microsoft-Windows-Deployment") []) := by
    unfold Slot.found
    rw [picks_deploymentSlot]
    rfl
  change ((((specializeOf (.element tag children)).children.find? deploymentSel.picks).getD _).occurrences _) = _
    at hdeployment
  rw [← hfound] at hdeployment
  have hnot := hp.not_of_plain (s := deploymentSel) rfl (picks_deployment (specializeOf (.element tag children)).children)
  obtain ⟨hrun, -⟩ := only_step (elementTag "RunSynchronous") hnot
    (hp.not_of_plain (s := elementSel "RunSynchronous") rfl rfl) hdeployment
  have hmem : deploymentSlot ∈ specializeSlots folds package := List.mem_cons_self
  have hbase : (withoutJoins package.domainJoin (specializeOf (.element tag children))).children.flatMap
      (Node.occurrences isFirstBoot) =
        ((withoutJoins package.domainJoin (specializeOf (.element tag children))).children.find?
          deploymentSlot.picks).elim [] (Node.occurrences isFirstBoot) := by
    rw [children_withoutJoins (Sel.isSome_of_picks (picks_specializeOf _))]
    rw [← picks_deploymentSlot] at hsettings
    split
    · exact flatMap_filter_of_only hsettings (not_join_of_specializeSlots deploymentSlot hmem)
    · exact hsettings
  rw [h.occurrences_filled watched_isFirstBoot hroot, h.children_settings, List.flatMap_append,
    occurrences_addedJoin_firstBoot, List.append_nil, occurrences_specializeSlots hp hbase,
    found_withoutJoins hmem]
  change ((deploymentSlot.found _).withChildren (runSynchronousSlot.put _)).occurrences isFirstBoot = _
  rw [occurrences_withChildren (hp.not_of_plain (s := deploymentSel) rfl
      (by rw [Sel.picks_withChildren]; exact picks_deployment _)),
    if_pos (Sel.isSome_of_picks (picks_deployment _)), runSynchronousOf_eq]
  rw [← picks_runSynchronousSlot] at hrun ⊢
  exact flatMap_place_of_only hrun

omit h in
theorem isFirstBoot_firstBootCommand (order : Int) : isFirstBoot (firstBootCommand order) = true := by
  have hpath : contains scriptName
      "cmd.exe /c C:\\Windows\\Setup\\Scripts\\PVEAutopilot-SetupComplete.cmd" = true := by
    decide +kernel
  rw [isFirstBoot, Bool.and_eq_true, List.any_eq_true]
  refine ⟨rfl, textElement "Path" "cmd.exe /c C:\\Windows\\Setup\\Scripts\\PVEAutopilot-SetupComplete.cmd", ?_, ?_⟩
  · exact List.mem_cons_of_mem _ (List.mem_cons_of_mem _ List.mem_cons_self)
  · rw [Bool.and_eq_true, innerText_textElement]
    exact ⟨rfl, hpath⟩

omit h in
theorem occurrences_firstBootCommand {p : Node → Bool} (hp : Watched p) (order : Int) :
    (firstBootCommand order).occurrences p =
      if p (firstBootCommand order) then [firstBootCommand order] else [] := by
  have htext : ∀ name value, Sel.plain (elementSel name) = true → (textElement name value).occurrences p = [] := by
    intro name value hplain
    exact occurrences_of_not (hp.not_of_plain (n := textElement name value) hplain (matchesTag_element name))
  unfold firstBootCommand
  rw [Node.occurrences_element, List.flatMap_cons, List.flatMap_cons, List.flatMap_singleton, htext _ _ rfl,
    htext _ _ rfl, htext _ _ rfl]
  exact List.append_nil _

omit h in
theorem oneFirstBoot_addFirstBoot {n : Node} (hn : (elementSel "RunSynchronous").picks n = true)
    (hthere : hasSentinel n = true → OneFirstBoot n n)
    (habsent : hasSentinel n = false →
      n.occurrences isFirstBoot = [] ∧ ∀ o ∈ n.children.flatMap commandOrders, tryParse o ≠ some 2147483647) :
    OneFirstBoot (addFirstBoot n) (addFirstBoot n) := by
  cases hsentinel : hasSentinel n with
  | true =>
    have hsame : addFirstBoot n = n := if_pos hsentinel
    rw [hsame]
    exact hthere hsentinel
  | false =>
    obtain ⟨hnone, horders⟩ := habsent hsentinel
    have hadded : addFirstBoot n = n.withChildren (n.children ++ [firstBootCommand (nextOrder n.children)]) :=
      if_neg (by rw [hsentinel]; exact Bool.false_ne_true)
    have hnot := watched_isFirstBoot.not_of_plain (s := elementSel "RunSynchronous") rfl hn
    rw [occurrences_of_not hnot] at hnone
    refine ⟨n.children, firstBootCommand (nextOrder n.children), [], ?_, ?_, ?_⟩
    · rw [hadded, Node.children_withChildren (Sel.isSome_of_picks hn)]
    · have hnot' := watched_isFirstBoot.not_of_plain (s := elementSel "RunSynchronous") rfl
        (by rwa [picks_addFirstBoot] : (elementSel "RunSynchronous").picks (addFirstBoot n) = true)
      rw [occurrences_of_not hnot', hadded, Node.children_withChildren (Sel.isSome_of_picks hn), List.flatMap_append,
        hnone, List.flatMap_singleton, occurrences_firstBootCommand watched_isFirstBoot,
        isFirstBoot_firstBootCommand]
      rfl
    · rw [List.append_nil]
      exact orderApart_firstBootCommand horders

theorem firstBoot_filled (hready : Ready package (.element tag children)) :
    ∃ n, runSynchronousOf (filled tag children settings slots) = some n ∧
      OneFirstBoot (filled tag children settings slots) n := by
  refine ⟨_, h.runSynchronousOf_filled, ?_⟩
  unfold OneFirstBoot
  rw [h.occurrences_firstBoot hready.elsewhere]
  cases hrun : runSynchronousOf (.element tag children) with
  | none => exact oneFirstBoot_addFirstBoot rfl (fun hthere => nomatch hthere) fun _ => ⟨rfl, by intro o ho; cases ho⟩
  | some n =>
    have hpicks : (elementSel "RunSynchronous").picks n = true := by
      rw [runSynchronousOf_eq] at hrun
      exact List.find?_some hrun
    exact oneFirstBoot_addFirstBoot hpicks (hready.there n hrun) (hready.absent n hrun)

/-! ### The join is the new one -/

omit h in
theorem quiet_runSynchronousSlot : runSynchronousSlot.Quiet joinSel.picks where
  new := occurrences_of_not (n := runSynchronousSlot.new) rfl
  edit := by
    intro n hn hnone
    have hpicks : (elementSel "RunSynchronous").picks n = true := by
      rcases hn with hn | rfl
      · rwa [picks_runSynchronousSlot] at hn
      · rfl
    have hnot : ∀ m, (elementSel "RunSynchronous").picks m = true → joinSel.picks m = false :=
      fun m => watched_joinSel.not_of_plain (s := elementSel "RunSynchronous") rfl
    change (addFirstBoot n).occurrences joinSel.picks = []
    unfold addFirstBoot
    split
    · exact hnone
    · rw [occurrences_of_not (hnot n hpicks)] at hnone
      rw [occurrences_of_not (hnot _ (by rwa [Sel.picks_withChildren])),
        Node.children_withChildren (Sel.isSome_of_picks hpicks), List.flatMap_append, hnone, List.flatMap_singleton,
        occurrences_firstBootCommand watched_joinSel]
      rfl

omit h in
theorem quiet_specializeSlots : ∀ s ∈ specializeSlots folds package, s.Quiet joinSel.picks := by
  intro s hs
  have hdeployment : deploymentSlot.Quiet joinSel.picks := by
    refine quiet_within (matchesTag_component _)
      (fun _ => watched_joinSel.not_of_plain (s := deploymentSel) rfl) fun s hs => ?_
    rw [List.mem_singleton] at hs
    subst hs
    exact quiet_runSynchronousSlot
  unfold specializeSlots at hs
  rcases List.mem_cons.mp hs with rfl | hs
  · exact hdeployment
  · split at hs
    · rw [List.mem_singleton] at hs
      subst hs
      exact (sound_shellSlot (sound_computerNameSlots _)).2 _ watched_joinSel
    · cases hs

omit h in
theorem joined_joinComponent (join : DomainJoin) : Joined join (joinComponent join) := by
  have htext : ∀ {path : List Sel} {name value : String},
      (joinComponent join).descend path = some (textElement name value) →
      textAt path (joinComponent join) = some value := by
    intro path name value hpath
    rw [textAt, hpath, Option.map_some, innerText_textElement]
  refine ⟨htext rfl, htext rfl, htext rfl, htext rfl, ?_⟩
  by_cases hou : isBlank join.ouPath = true
  · rw [if_pos hou]
    unfold joinComponent
    rw [if_pos hou]
    rfl
  · rw [if_neg hou]
    apply htext
    unfold joinComponent
    rw [if_neg hou]
    rfl

theorem join_filled (hready : Ready package (.element tag children)) (henabled : package.domainJoin.enabled = true) :
    ∃ component, (filled tag children settings slots).occurrences joinSel.picks = [component] ∧
      Joined package.domainJoin component := by
  refine ⟨joinComponent package.domainJoin, ?_, joined_joinComponent _⟩
  have hp := watched_joinSel
  have hjoins := hready.joins henabled
  rw [occurrences_of_not (root_not hp h.name children), Node.descend_singleton] at hjoins
  have hlength : ∀ l : List Node, (l.filter joinSel.picks).length +
      ((l.filter fun n => !joinSel.picks n).flatMap (Node.occurrences joinSel.picks)).length ≤
        (l.flatMap (Node.occurrences joinSel.picks)).length :=
    length_filter_le_occurrences fun _ => Sel.isSome_of_picks
  have hroot := flatMap_only hjoins fun settings =>
    (Nat.le_of_add_right_le (hlength settings.children)).trans (length_occurrences_children settings)
  -- of the settings' children only the joins have joins in them
  have hsettings : (specializeOf (.element tag children)).children.flatMap (Node.occurrences joinSel.picks) =
      (specializeOf (.element tag children)).children.filter joinSel.picks := by
    rw [← occurrences_of_not (hp.not_of_plain (plain_settings _) (picks_specializeOf _))]
    rw [hroot] at hjoins
    unfold specializeOf
    cases hfind : (Node.element tag children).children.find? (settingsSel "specialize").picks with
    | none => rfl
    | some settings =>
      rw [hfind] at hjoins
      exact hjoins
  have hbase : ((specializeOf (.element tag children)).children.filter fun n => !joinSel.picks n).flatMap
      (Node.occurrences joinSel.picks) = [] := by
    have hle := hlength (specializeOf (.element tag children)).children
    rw [hsettings] at hle
    exact List.eq_nil_of_length_eq_zero (by omega)
  rw [h.occurrences_filled hp hroot, h.children_settings,
    children_withoutJoins (Sel.isSome_of_picks (picks_specializeOf _)), if_pos henabled, List.flatMap_append,
    fillAll_none quiet_specializeSlots hbase]
  unfold addedJoin
  rw [if_pos henabled, List.flatMap_singleton, occurrences_joinComponent hp]
  rfl

/-! ### Computer name and accounts -/

theorem computerName_filled {name : String}
    (hname : convertToWindowsComputerName folds package.computerName = some name) :
    textAt [settingsSel "specialize", shellSel, elementSel "ComputerName"] (filled tag children settings slots) =
      some name := by
  have hmem : shellSlot [setTextElement "ComputerName" name] ∈ specializeSlots folds package := by
    unfold specializeSlots
    rw [hname]
    exact List.mem_cons_of_mem _ List.mem_cons_self
  have hshell := h.find?_specializeSlot hmem
  rw [shellSlot, Slot.picks_within] at hshell
  obtain ⟨n, hn, htext⟩ := find?_setTextElement (sound_computerNameSlots name) List.mem_cons_self
    ((shellSlot [setTextElement "ComputerName" name]).found
      (specializeOf (.element tag children)).children).children
  unfold textAt
  rw [Node.descend, h.find?_specialize, Option.bind_some, Node.descend]
  change ((settings.children.find? (componentSel "Microsoft-Windows-Shell-Setup").picks).bind _).map _ = _
  rw [hshell, Option.bind_some, Node.descend_singleton]
  change ((((shellSlot [setTextElement "ComputerName" name]).found _).fill _).children.find? _).map _ = _
  rw [Slot.children_fill (Slot.isSome_of_subject (Slot.found_subject _ _)), hn, Option.map_some, htext]

section Accounts
variable {user password : String}

omit h in
theorem textAt_setTextElement {inner : List Slot} (hs : Sound inner) {name value : String}
    (hmem : setTextElement name value ∈ inner) {m : Node} (hm : m.tag?.isSome) :
    textAt [elementSel name] (m.fill inner) = some value := by
  obtain ⟨n, hn, htext⟩ := find?_setTextElement hs hmem m.children
  rw [textAt, Node.descend_singleton, Slot.children_fill hm, hn, Option.map_some, htext]

omit h in
theorem textAt_setPasswordElement {inner : List Slot} (hs : Sound inner) {value : String}
    (hmem : setPasswordElement value ∈ inner) {m : Node} (hm : m.tag?.isSome) :
    textAt [elementSel "Password", elementSel "Value"] (m.fill inner) = some value := by
  obtain ⟨n, hn, hpath⟩ := Slot.descend_fill hs.steady hs.apart hmem hm [elementSel "Value"]
  rw [textAt, hpath]
  exact textAt_setTextElement (sound_passwordSlots value) List.mem_cons_self hn

theorem descend_shell (hslots : slots = [shellSlot (oobeShellSlots (hasName user) user password), internationalSlot])
    (rest : List Sel) : ∃ m : Node, m.tag?.isSome ∧ (filled tag children settings slots).descend (oobeShellPath ++ rest) =
      (m.fill (oobeShellSlots (hasName user) user password)).descend rest := by
  have hsound := h.sound
  have hroot : (Node.element (tag.set wcmDeclaration) children).tag?.isSome := rfl
  obtain ⟨n, hn, hpath⟩ := Slot.descend_fill h.steady_root apart_root
    (List.mem_cons_of_mem _ List.mem_cons_self : oobeSystemSlot slots ∈ _) hroot (shellSel :: rest)
  obtain ⟨m, hm, hinner⟩ := Slot.descend_fill hsound.steady hsound.apart
    (by rw [hslots]; exact List.mem_cons_self : shellSlot (oobeShellSlots (hasName user) user password) ∈ slots) hn rest
  exact ⟨m, hm, hpath.trans hinner⟩

theorem autoLogon_filled
    (hslots : slots = [shellSlot (oobeShellSlots (hasName user) user password), internationalSlot]) :
    textAt (oobeShellPath ++ [elementSel "AutoLogon", elementSel "Username"]) (filled tag children settings slots) =
        some user ∧
      textAt (oobeShellPath ++ [elementSel "AutoLogon", elementSel "Password", elementSel "Value"])
        (filled tag children settings slots) = some password := by
  have hsound := sound_oobeShellSlots user password
  have hlogon : ∀ rest, ∃ m : Node, m.tag?.isSome ∧ (filled tag children settings slots).descend
      (oobeShellPath ++ elementSel "AutoLogon" :: rest) = (m.fill [setTextElement "Enabled" "true",
        setTextElement "Username" user, setPasswordElement password, setTextElement "LogonCount" "1"]).descend rest := by
    intro rest
    obtain ⟨n, hn, hpath⟩ := h.descend_shell hslots (elementSel "AutoLogon" :: rest)
    obtain ⟨m, hm, hinner⟩ := Slot.descend_fill hsound.steady hsound.apart
      (List.mem_cons_of_mem _ (List.mem_cons_of_mem _ List.mem_cons_self)) hn rest
    exact ⟨m, hm, hpath.trans hinner⟩
  constructor
  · obtain ⟨m, hm, hpath⟩ := hlogon [elementSel "Username"]
    rw [textAt, hpath]
    exact textAt_setTextElement (sound_autoLogonSlots user password)
      (List.mem_cons_of_mem _ List.mem_cons_self) hm
  · obtain ⟨m, hm, hpath⟩ := hlogon [elementSel "Password", elementSel "Value"]
    rw [textAt, hpath]
    exact textAt_setPasswordElement (sound_autoLogonSlots user password)
      (List.mem_cons_of_mem _ (List.mem_cons_of_mem _ List.mem_cons_self)) hm

theorem account_filled
    (hslots : slots = [shellSlot (oobeShellSlots (hasName user) user password), internationalSlot]) :
    ∃ accounts, (filled tag children settings slots).descend
        (oobeShellPath ++ [elementSel "UserAccounts", elementSel "LocalAccounts"]) = some accounts ∧
      ∃ account ∈ accounts.children, (elementSel "LocalAccount").picks account = true ∧
        textAt [elementSel "Name"] account = some user ∧
        textAt [elementSel "Password", elementSel "Value"] account = some password := by
  have hsound := sound_oobeShellSlots user password
  obtain ⟨n, hn, hshell⟩ := h.descend_shell hslots [elementSel "UserAccounts", elementSel "LocalAccounts"]
  obtain ⟨m, hm, husers⟩ := Slot.descend_fill hsound.steady hsound.apart (List.mem_cons_of_mem _ List.mem_cons_self)
    hn [elementSel "LocalAccounts"]
  have haccounts := sound_localAccountsSlots user password
  obtain ⟨k, hk, hlocal⟩ := Slot.descend_fill haccounts.steady haccounts.apart List.mem_cons_self hm []
  refine ⟨_, (hshell.trans husers).trans hlocal, ?_⟩
  obtain ⟨hsteady, -⟩ := sound_localAccountSlot user password
  have hfind := Slot.find?_put hsteady k.children
  have hpicks := List.find?_some hfind
  rw [Slot.picks, Bool.and_eq_true] at hpicks
  have hfound := Slot.isSome_of_subject ((localAccountSlot (hasName user) user password).found_subject k.children)
  refine ⟨_, ?_, hpicks.1, ?_, ?_⟩
  · rw [Slot.children_fill hk]
    exact List.mem_of_find?_eq_some hfind
  · exact textAt_setTextElement (sound_accountSlots user password) List.mem_cons_self hfound
  · exact textAt_setPasswordElement (sound_accountSlots user password)
      (List.mem_cons_of_mem _ (List.mem_cons_of_mem _ List.mem_cons_self)) hfound

end Accounts

end Filled

end Result

end ProxmoxVEAutopilot.CloudOsd.Unattend
