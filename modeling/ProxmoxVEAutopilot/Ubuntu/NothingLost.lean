import ProxmoxVEAutopilot.Ubuntu.Compiler

/-!
# What the steps contribute

Lists are appended and so are the snap commands, whatever the steps. A dict replaces the one
that is there: of the apt settings and of the debconf selections only those of the last step
that has any are left.
-/

namespace ProxmoxVEAutopilot.Ubuntu

open Foundation

set_option autoImplicit false

/-! ### What a document says -/

def itemsAt (doc : Doc) (key : String) : List Json :=
  match doc.lookup key with
  | some (.list items) => items
  | _ => []

def entriesAt (doc : Doc) (key : String) : List (Json × Json) :=
  match doc.lookup key with
  | some (.dict entries) => entries
  | _ => []

def snapCommands (doc : Doc) : List Json :=
  match (entriesAt doc "snap").lookup (.str "commands") with
  | some (.arr commands) => commands
  | _ => []

def outputs (python : Python) (credentials : Credentials) (steps : List Step) : Compiled (List StepOutput) :=
  (steps.zipIdx.filter (·.1.enabled)).mapM fun step => step.1.compile python credentials step.2

/-- The documents have all of it. -/
structure NothingLost (outs : List StepOutput) (docs : Documents) : Prop where
  packages : itemsAt docs.userData "packages" = outs.flatMap (itemsAt ·.cloudConfig "packages")
  users : itemsAt docs.userData "users" = outs.flatMap (itemsAt ·.cloudConfig "users")
  snap : snapCommands docs.userData = outs.flatMap (snapCommands ·.cloudConfig)
  runcmd : itemsAt docs.userData "runcmd" = outs.flatMap (·.runcmd)
  apt : ∀ out ∈ outs, entriesAt out.cloudConfig "apt" ⊆ entriesAt docs.userData "apt"
  debconf : ∀ out ∈ outs, entriesAt out.cloudConfig "debconf_selections" ⊆ entriesAt docs.userData "debconf_selections"
  firstboot : itemsAt docs.firstbootUserData "runcmd" = agentRuncmd ++ outs.flatMap (·.firstbootRuncmd)

/-! ### One contribution -/

theorem lookup_assign {κ β : Type} [DecidableEq κ] (dict : List (κ × β)) (key other : κ) (value : β) :
    (assign dict key value).lookup other = if other = key then some value else dict.lookup other :=
  lookup_assigned dict key other value

/-- What stands under a key before and after a value is given for it or not. -/
def Merges (key : String) (before given after : Option Node) : Prop :=
  match given with
  | none => after = before
  | some value => ∃ merged, mergeValue key before value = .ok merged ∧ after = some merged

theorem mergeInto_lookup {cc contribution cc' : Doc} (h : mergeInto cc contribution = .ok cc')
    (hkeys : (contribution.map Prod.fst).Nodup) (key : String) :
    Merges key (cc.lookup key) (contribution.lookup key) (cc'.lookup key) := by
  induction contribution generalizing cc with
  | nil =>
    cases h
    rfl
  | cons entry contribution ih =>
    obtain ⟨k, value⟩ := entry
    rw [List.map_cons, List.nodup_cons] at hkeys
    unfold mergeInto at h
    rw [List.foldlM_cons] at h
    obtain ⟨middle, hmiddle, hrest⟩ := bind_ok.mp h
    cases hmerged : mergeValue k (cc.lookup k) value with
    | error raised =>
      rw [hmerged] at hmiddle
      cases hmiddle
    | ok merged =>
      rw [hmerged] at hmiddle
      cases hmiddle
      have hlater := ih hrest hkeys.2
      rw [lookup_assign] at hlater
      by_cases hk : key = k
      · subst hk
        have hnone : contribution.lookup key = none := by
          rw [List.lookup_eq_none_iff]
          intro other hother
          rw [bne_iff_ne]
          rintro rfl
          exact hkeys.1 (List.mem_map.mpr ⟨other, hother, rfl⟩)
        rw [if_pos rfl, hnone] at hlater
        rw [List.lookup_cons_self]
        exact ⟨merged, hmerged, hlater⟩
      · rw [if_neg hk] at hlater
        rw [List.lookup_cons, beq_eq_false_iff_ne.mpr hk]
        exact hlater

section Keys

variable {cc given cc' : Doc}

theorem itemsAt_merges {key : String} (hkey : key ∈ LIST_KEYS)
    (h : Merges key (cc.lookup key) (given.lookup key) (cc'.lookup key)) :
    itemsAt cc' key = itemsAt cc key ++ itemsAt given key := by
  unfold itemsAt
  cases hgiven : given.lookup key with
  | none =>
    rw [hgiven] at h
    rw [show cc'.lookup key = cc.lookup key from h, List.append_nil]
  | some value =>
    rw [hgiven] at h
    obtain ⟨merged, hmerged, hafter⟩ := h
    unfold mergeValue at hmerged
    rw [if_pos hkey] at hmerged
    rw [hafter]
    cases hbefore : cc.lookup key with
    | none =>
      rw [hbefore] at hmerged
      cases value <;> cases hmerged
      rfl
    | some existing =>
      rw [hbefore] at hmerged
      cases existing <;> cases value <;> cases hmerged
      rfl

theorem lookup_merges {key : String} (hlist : key ∉ LIST_KEYS) (hsnap : key ≠ "snap")
    (h : Merges key (cc.lookup key) (given.lookup key) (cc'.lookup key)) :
    cc'.lookup key = (given.lookup key).or (cc.lookup key) := by
  cases hgiven : given.lookup key with
  | none =>
    rw [hgiven] at h
    rw [show cc'.lookup key = cc.lookup key from h, Option.none_or]
  | some value =>
    rw [hgiven] at h
    obtain ⟨merged, hmerged, hafter⟩ := h
    unfold mergeValue at hmerged
    rw [if_neg hlist, if_neg hsnap] at hmerged
    cases hmerged
    exact hafter

/-- What a step says of snaps: nothing, or a list of commands. -/
def SnapShaped (given : Doc) : Prop :=
  given.lookup "snap" = none ∨ ∃ commands, given.lookup "snap" = some (.dict [(.str "commands", .arr commands)])

theorem snapCommands_merges (hshape : SnapShaped given)
    (h : Merges "snap" (cc.lookup "snap") (given.lookup "snap") (cc'.lookup "snap")) :
    snapCommands cc' = snapCommands cc ++ snapCommands given := by
  unfold snapCommands entriesAt
  rcases hshape with hnone | ⟨commands, hcommands⟩
  · rw [hnone] at h
    rw [show cc'.lookup "snap" = cc.lookup "snap" from h, hnone]
    simp
  · rw [hcommands] at h
    obtain ⟨merged, hmerged, hafter⟩ := h
    unfold mergeValue at hmerged
    rw [if_neg (by decide), if_pos rfl] at hmerged
    rw [hafter, hcommands]
    have hgiven : ([(.str "commands", .arr commands)] : List (Json × Json)).lookup (.str "commands") =
        some (.arr commands) := by simp
    -- the entries that are there already
    have hmerge : ∀ entries, mergeSnap (.dict entries) [(.str "commands", .arr commands)] = .ok merged →
        ∃ known, (entries.lookup (.str "commands") = none ∧ known = [] ∨
            entries.lookup (.str "commands") = some (.arr known)) ∧
          merged = .dict (assign entries (.str "commands") (.arr (known ++ commands))) := by
      intro entries hentries
      unfold mergeSnap at hentries
      simp only [hgiven] at hentries
      obtain ⟨after, hextend, hrest⟩ := bind_ok.mp hentries
      cases hknown : entries.lookup (.str "commands") with
      | none =>
        rw [hknown] at hextend
        cases hextend
        cases hrest
        exact ⟨[], .inl ⟨rfl, rfl⟩, rfl⟩
      | some known =>
        rw [hknown] at hextend
        cases known <;> cases hextend
        rename_i known
        cases hrest
        exact ⟨known, .inr rfl, rfl⟩
    cases hbefore : cc.lookup "snap" with
    | none =>
      rw [hbefore] at hmerged
      obtain ⟨known, hknown, rfl⟩ := hmerge [] hmerged
      rcases hknown with ⟨-, rfl⟩ | hknown
      · simp [lookup_assign]
      · cases hknown
    | some existing =>
      rw [hbefore] at hmerged
      cases existing with
      | scalar _ => cases hmerged
      | list _ => cases hmerged
      | dict entries =>
        obtain ⟨known, hknown, rfl⟩ := hmerge entries hmerged
        rcases hknown with ⟨hnone, rfl⟩ | hknown
        · simp [lookup_assign, hnone]
        · simp [lookup_assign, hknown]

end Keys

/-! ### One step -/

def Step.params (step : Step) : Json := (step.lookup "params").getD (.obj [])

def Step.aptSettings (step : Step) : Option (List (Json × Json)) :=
  if step.lookup "step_type" = some (.str "install_ubuntu_core") then
    match getOr step.params "apt_proxy" .null with
    | .ok proxy => if proxy.truthy then some [(.str "http_proxy", proxy), (.str "https_proxy", proxy)] else none
    | .error _ => none
  else none

def Step.debconfSelections (step : Step) : Option (List (Json × Json)) :=
  if step.lookup "step_type" = some (.str "install_apt_packages") then
    match debconfOf step.params with
    | .ok selections => selections
    | .error _ => none
  else none

/-- What the contribution of a step looks like. -/
structure Shaped (step : Step) (out : StepOutput) : Prop where
  nodup : (out.cloudConfig.map Prod.fst).Nodup
  runcmd : out.cloudConfig.lookup "runcmd" = none
  snap : SnapShaped out.cloudConfig
  apt : out.cloudConfig.lookup "apt" = step.aptSettings.map .dict
  debconf : out.cloudConfig.lookup "debconf_selections" = step.debconfSelections.map .dict

section Shapes

variable {python : Python} {credentials : Credentials} {call : Nat} {step : Step} {out : StepOutput}

theorem aptSettings_of_ne {stepType : Json} (htype : step.lookup "step_type" = some stepType)
    (hne : stepType ≠ .str "install_ubuntu_core") : step.aptSettings = none := by
  unfold Step.aptSettings
  rw [htype, if_neg (fun h => hne (Option.some.inj h))]

theorem debconfSelections_of_ne {stepType : Json} (htype : step.lookup "step_type" = some stepType)
    (hne : stepType ≠ .str "install_apt_packages") : step.debconfSelections = none := by
  unfold Step.debconfSelections
  rw [htype, if_neg (fun h => hne (Option.some.inj h))]

theorem shaped_of_nil {stepType : Json} (htype : step.lookup "step_type" = some stepType)
    (hcore : stepType ≠ .str "install_ubuntu_core") (hpackages : stepType ≠ .str "install_apt_packages")
    (hnil : out.cloudConfig = []) : Shaped step out where
  nodup := by simp [hnil]
  runcmd := by simp [hnil]
  snap := .inl (by simp [hnil])
  apt := by rw [hnil, aptSettings_of_ne htype hcore]; rfl
  debconf := by rw [hnil, debconfSelections_of_ne htype hpackages]; rfl

theorem core_shaped (htype : step.lookup "step_type" = some (.str "install_ubuntu_core"))
    (h : compileInstallUbuntuCore step.params = .ok out) : Shaped step out := by
  have hdebconf := debconfSelections_of_ne htype (by decide)
  obtain ⟨locale, -, h⟩ := bind_ok.mp h
  obtain ⟨timezone, -, h⟩ := bind_ok.mp h
  obtain ⟨proxy, hproxy, h⟩ := bind_ok.mp h
  cases h
  have hapt : step.aptSettings =
      if proxy.truthy then some [(.str "http_proxy", proxy), (.str "https_proxy", proxy)] else none := by
    unfold Step.aptSettings
    rw [if_pos htype, hproxy]
  cases htruthy : proxy.truthy with
  | true => constructor <;> simp [SnapShaped, htruthy, hapt, hdebconf, List.lookup_cons]
  | false => constructor <;> simp [SnapShaped, htruthy, hapt, hdebconf, List.lookup_cons]

theorem packages_shaped (htype : step.lookup "step_type" = some (.str "install_apt_packages"))
    (h : compileInstallAptPackages step.params = .ok out) : Shaped step out := by
  have hapt := aptSettings_of_ne htype (by decide)
  obtain ⟨given, -, h⟩ := bind_ok.mp h
  obtain ⟨packages, -, h⟩ := bind_ok.mp h
  obtain ⟨debconf, hgiven, h⟩ := bind_ok.mp h
  cases h
  have hdebconf : step.debconfSelections = debconf := by
    unfold Step.debconfSelections
    rw [if_pos htype, hgiven]
  cases debconf with
  | none => constructor <;> simp [SnapShaped, hapt, hdebconf, List.lookup_cons]
  | some entries => constructor <;> simp [SnapShaped, hapt, hdebconf, List.lookup_cons]

theorem user_shaped (htype : step.lookup "step_type" = some (.str "create_ubuntu_user"))
    (h : compileCreateUbuntuUser python step.params credentials call = .ok out) : Shaped step out := by
  have hapt := aptSettings_of_ne htype (by decide)
  have hdebconf := debconfSelections_of_ne htype (by decide)
  obtain ⟨cred, -, h⟩ := bind_ok.mp h
  dsimp only at h
  split at h
  · split at h
    · cases h
      constructor <;> simp [SnapShaped, hapt, hdebconf, List.lookup_cons]
    · cases h
  · cases h

theorem snap_shaped (htype : step.lookup "step_type" = some (.str "install_snap_packages"))
    (h : compileInstallSnapPackages step.params = .ok out) : Shaped step out := by
  have hapt := aptSettings_of_ne htype (by decide)
  have hdebconf := debconfSelections_of_ne htype (by decide)
  obtain ⟨given, -, h⟩ := bind_ok.mp h
  obtain ⟨snaps, -, h⟩ := bind_ok.mp h
  obtain ⟨commands, -, h⟩ := bind_ok.mp h
  cases h
  split
  · exact shaped_of_nil htype (by decide) (by decide) rfl
  · constructor <;> simp [SnapShaped, hapt, hdebconf, List.lookup_cons]

theorem compile_shaped (h : step.compile python credentials call = .ok out) : Shaped step out := by
  unfold Step.compile at h
  cases htype : step.lookup "step_type" with
  | none =>
    rw [htype] at h
    cases h
  | some stepType =>
    rw [htype] at h
    have hnil := @shaped_of_nil step out stepType htype
    change compileStep python step.params credentials call stepType = .ok out at h
    unfold compileStep at h
    split at h
    · exact core_shaped htype h
    · exact user_shaped htype h
    · exact packages_shaped htype h
    · exact snap_shaped htype h
    · -- remove_apt_packages
      obtain ⟨given, -, h⟩ := bind_ok.mp h
      obtain ⟨packages, -, h⟩ := bind_ok.mp h
      cases h
      exact hnil (by decide) (by decide) (by split <;> rfl)
    · -- install_intune_portal
      obtain ⟨release, -, h⟩ := bind_ok.mp h
      obtain ⟨version, -, h⟩ := bind_ok.mp h
      cases h
      exact hnil (by decide) (by decide) rfl
    · -- install_edge
      cases h
      exact hnil (by decide) (by decide) rfl
    · -- install_mde_linux
      obtain ⟨cred, -, h⟩ := bind_ok.mp h
      dsimp only at h
      split at h
      · cases h
        exact hnil (by decide) (by decide) rfl
      · cases h
    · -- install_desktop_environment
      obtain ⟨flavor, -, h⟩ := bind_ok.mp h
      split at h
      · cases h
      · cases h
      · split at h
        · cases h
          exact hnil (by decide) (by decide) rfl
        · cases h
    · -- run_late_command
      obtain ⟨command, -, h⟩ := bind_ok.mp h
      obtain ⟨quoted, -, h⟩ := bind_ok.mp h
      cases h
      exact hnil (by decide) (by decide) rfl
    · -- run_firstboot_script
      obtain ⟨command, -, h⟩ := bind_ok.mp h
      obtain ⟨broken, -, h⟩ := bind_ok.mp h
      split at h
      · obtain ⟨quoted, -, h⟩ := bind_ok.mp h
        cases h
        exact hnil (by decide) (by decide) rfl
      · cases h
        exact hnil (by decide) (by decide) rfl
    · cases h
    · cases h
    · cases h

end Shapes

/-! ### All steps -/

theorem addSteps_outputs {python : Python} {credentials : Credentials} {steps : List (Step × Nat)} {merged merged' : Merged}
    (h : steps.foldlM (addStep python credentials) merged = .ok merged') :
    ∃ outs, (steps.filter (·.1.enabled)).mapM (fun step => step.1.compile python credentials step.2) = .ok outs ∧
      outs.foldlM addOutput merged = .ok merged' := by
  induction steps generalizing merged with
  | nil => exact ⟨[], rfl, h⟩
  | cons step steps ih =>
    rw [List.foldlM_cons] at h
    obtain ⟨middle, hstep, hrest⟩ := bind_ok.mp h
    obtain ⟨outs, houts, hfold⟩ := ih hrest
    unfold addStep at hstep
    split at hstep
    · rename_i henabled
      obtain ⟨out, hout, hadd⟩ := bind_ok.mp hstep
      refine ⟨out :: outs, ?_, ?_⟩
      · rw [List.filter_cons, if_pos henabled, List.mapM_cons]
        exact bind_ok.mpr ⟨out, hout, bind_ok.mpr ⟨outs, houts, rfl⟩⟩
      · rw [List.foldlM_cons]
        exact bind_ok.mpr ⟨middle, hadd, hfold⟩
    · rename_i henabled
      cases hstep
      rw [List.filter_cons, if_neg henabled]
      exact ⟨outs, houts, hfold⟩

/-- The commands go to the `runcmd` that the loop starts with, everything else is merged. -/
theorem addOutput_lookup {merged merged' : Merged} {out : StepOutput} {commands : List Json}
    (h : addOutput merged out = .ok merged') (hcommands : merged.cc.lookup "runcmd" = some (.list commands))
    (hkeys : (out.cloudConfig.map Prod.fst).Nodup) (hnone : out.cloudConfig.lookup "runcmd" = none) :
    (∀ key, key ≠ "runcmd" → Merges key (merged.cc.lookup key) (out.cloudConfig.lookup key) (merged'.cc.lookup key)) ∧
      merged'.cc.lookup "runcmd" = some (.list (commands ++ out.runcmd)) ∧
      merged'.firstbootRuncmd = merged.firstbootRuncmd ++ out.firstbootRuncmd := by
  unfold addOutput at h
  obtain ⟨cc, hcc, h⟩ := bind_ok.mp h
  obtain ⟨cc', hcc', h⟩ := bind_ok.mp h
  cases h
  have hmerge : mergeInto merged.cc out.cloudConfig = .ok cc := by
    unfold addCloudConfig at hcc
    split at hcc
    · rename_i hnil
      rw [hnil]
      exact hcc
    · exact hcc
  have hmerges := mergeInto_lookup hmerge hkeys
  have hbefore := hmerges "runcmd"
  rw [hnone, hcommands] at hbefore
  change cc.lookup "runcmd" = _ at hbefore
  unfold addRuncmd at hcc'
  split at hcc'
  · rename_i hnil
    cases hcc'
    rw [hnil, List.append_nil]
    exact ⟨fun key _ => hmerges key, hbefore, rfl⟩
  · rw [hbefore] at hcc'
    cases hcc'
    refine ⟨fun key hkey => ?_, ?_, rfl⟩
    · rw [lookup_assign, if_neg hkey]
      exact hmerges key
    · rw [lookup_assign, if_pos rfl]

/-- What the loop has made of the outputs it has seen. -/
structure Holds (outs : List StepOutput) (merged : Merged) : Prop where
  packages : itemsAt merged.cc "packages" = outs.flatMap (itemsAt ·.cloudConfig "packages")
  users : itemsAt merged.cc "users" = outs.flatMap (itemsAt ·.cloudConfig "users")
  snap : snapCommands merged.cc = outs.flatMap (snapCommands ·.cloudConfig)
  runcmd : merged.cc.lookup "runcmd" = some (.list (outs.flatMap (·.runcmd)))
  apt : merged.cc.lookup "apt" = (outs.filterMap (·.cloudConfig.lookup "apt")).getLast?
  debconf : merged.cc.lookup "debconf_selections" =
    (outs.filterMap (·.cloudConfig.lookup "debconf_selections")).getLast?
  firstboot : merged.firstbootRuncmd = outs.flatMap (·.firstbootRuncmd)

theorem getLast?_filterMap_snoc {α β : Type} (f : α → Option β) (xs : List α) (x : α) :
    ((xs ++ [x]).filterMap f).getLast? = (f x).or (xs.filterMap f).getLast? := by
  rw [List.filterMap_append, List.getLast?_append]
  cases hx : f x <;> simp [hx]

theorem holds_add {outs : List StepOutput} {merged merged' : Merged} {step : Step} {out : StepOutput}
    (hholds : Holds outs merged) (hshaped : Shaped step out) (h : addOutput merged out = .ok merged') :
    Holds (outs ++ [out]) merged' := by
  obtain ⟨hmerges, hruncmd, hfirstboot⟩ := addOutput_lookup h hholds.runcmd hshaped.nodup hshaped.runcmd
  have hflat : ∀ (f : StepOutput → List Json), (outs ++ [out]).flatMap f = outs.flatMap f ++ f out := by
    intro f
    rw [List.flatMap_append, List.flatMap_singleton]
  exact
    { packages := by
        rw [itemsAt_merges (by decide) (hmerges "packages" (by decide)), hholds.packages, hflat]
      users := by
        rw [itemsAt_merges (by decide) (hmerges "users" (by decide)), hholds.users, hflat]
      snap := by
        rw [snapCommands_merges hshaped.snap (hmerges "snap" (by decide)), hholds.snap, hflat]
      runcmd := by
        rw [hruncmd, hflat]
      apt := by
        rw [lookup_merges (by decide) (by decide) (hmerges "apt" (by decide)), hholds.apt, getLast?_filterMap_snoc]
      debconf := by
        rw [lookup_merges (by decide) (by decide) (hmerges "debconf_selections" (by decide)), hholds.debconf,
          getLast?_filterMap_snoc]
      firstboot := by
        rw [hfirstboot, hholds.firstboot, hflat] }

theorem holds_run {outs later : List StepOutput} {merged merged' : Merged} (hholds : Holds outs merged)
    (hshaped : ∀ out ∈ later, ∃ step, Shaped step out) (h : later.foldlM addOutput merged = .ok merged') :
    Holds (outs ++ later) merged' := by
  induction later generalizing outs merged with
  | nil =>
    cases h
    rwa [List.append_nil]
  | cons out later ih =>
    rw [List.foldlM_cons] at h
    obtain ⟨middle, hadd, hrest⟩ := bind_ok.mp h
    rw [List.forall_mem_cons] at hshaped
    obtain ⟨⟨step, hstep⟩, hlater⟩ := hshaped
    have hrun := ih (holds_add hholds hstep hadd) hlater hrest
    rwa [List.append_assoc] at hrun

/-- The entries of each step are among those of the last step that has any. -/
def Agrees (given : List (List (Json × Json))) : Prop := ∀ entries ∈ given, ∀ last ∈ given.getLast?, entries ⊆ last

theorem entries_kept_iff {outs : List StepOutput} {given : List (List (Json × Json))} {doc : Doc} {key : String}
    (hgiven : outs.filterMap (·.cloudConfig.lookup key) = given.map .dict)
    (hdoc : doc.lookup key = (outs.filterMap (·.cloudConfig.lookup key)).getLast?) :
    (∀ out ∈ outs, entriesAt out.cloudConfig key ⊆ entriesAt doc key) ↔ Agrees given := by
  rw [hgiven, List.getLast?_map] at hdoc
  constructor
  · intro h entries hentries last hlast
    rw [hlast, Option.map_some] at hdoc
    have hmem : Node.dict entries ∈ outs.filterMap (·.cloudConfig.lookup key) := by
      rw [hgiven]
      exact List.mem_map_of_mem hentries
    obtain ⟨out, hout, hlookup⟩ := List.mem_filterMap.mp hmem
    have hsubset := h out hout
    unfold entriesAt at hsubset
    rwa [hlookup, hdoc] at hsubset
  · intro h out hout
    cases hlookup : out.cloudConfig.lookup key with
    | none => simp [entriesAt, hlookup]
    | some node =>
      have hmem : node ∈ given.map Node.dict := by
        rw [← hgiven]
        exact List.mem_filterMap.mpr ⟨out, hout, hlookup⟩
      obtain ⟨entries, hentries, rfl⟩ := List.mem_map.mp hmem
      have hlast := List.getLast?_eq_some_getLast (List.ne_nil_of_mem hentries)
      rw [hlast, Option.map_some] at hdoc
      have hsubset := h entries hentries _ hlast
      unfold entriesAt
      rwa [hlookup, hdoc]

theorem lookup_filter_ne {κ β : Type} [DecidableEq κ] (dict : List (κ × β)) {key other : κ} (hne : other ≠ key) :
    (dict.filter (·.1 ≠ key)).lookup other = dict.lookup other := by
  induction dict with
  | nil => rfl
  | cons entry dict ih =>
    obtain ⟨k, v⟩ := entry
    by_cases hk : k = key
    · subst hk
      rw [List.filter_cons_of_neg (by simp), ih, List.lookup_cons, beq_eq_false_iff_ne.mpr hne]
    · rw [List.filter_cons_of_pos (by simpa using hk), List.lookup_cons, List.lookup_cons, ih]

theorem lookup_filter_self {κ β : Type} [DecidableEq κ] (dict : List (κ × β)) (key : κ) :
    (dict.filter (·.1 ≠ key)).lookup key = none := by
  rw [List.lookup_eq_none_iff]
  intro entry hentry
  rw [bne_iff_ne]
  rintro rfl
  simpa using (List.mem_filter.mp hentry).2

theorem lookup_dropEmptyRuncmd (cc : Doc) {key : String} (hkey : key ≠ "runcmd") :
    (dropEmptyRuncmd cc).lookup key = cc.lookup key := by
  unfold dropEmptyRuncmd
  split
  · exact lookup_filter_ne cc hkey
  · rfl

theorem itemsAt_dropEmptyRuncmd {cc : Doc} {commands : List Json} (h : cc.lookup "runcmd" = some (.list commands)) :
    itemsAt (dropEmptyRuncmd cc) "runcmd" = commands := by
  unfold itemsAt dropEmptyRuncmd
  by_cases hempty : commands = []
  · subst hempty
    rw [if_pos h, lookup_filter_self]
  · rw [if_neg (by simpa [h] using hempty), h]

def enabledSteps (steps : List Step) : List Step := (steps.zipIdx.filter (·.1.enabled)).map (·.1)

theorem filterMap_shaped {python : Python} {credentials : Credentials} {steps : List (Step × Nat)} {outs : List StepOutput}
    (h : steps.mapM (fun step => step.1.compile python credentials step.2) = .ok outs) {key : String}
    {given : Step → Option (List (Json × Json))}
    (hgiven : ∀ step out, Shaped step out → out.cloudConfig.lookup key = (given step).map .dict) :
    outs.filterMap (·.cloudConfig.lookup key) = ((steps.map (·.1)).filterMap given).map .dict := by
  have hall := mapM_ok_forall₂ h
  clear h
  induction hall with
  | nil => rfl
  | cons hstep _ ih =>
    rw [List.map_cons, List.filterMap_cons, List.filterMap_cons, hgiven _ _ (compile_shaped hstep), ih]
    cases given _ <;> rfl

/-- Nothing is lost but dicts: that is, everything is there if and only if the apt settings and the
debconf selections of each step are among those of the last step that has any. -/
theorem nothing_lost_iff (python : Python) (steps : List Step) (credentials : Credentials) (instanceId hostname : String)
    (docs : Documents) (h : compileSequence python steps credentials instanceId hostname = .ok docs) :
    ∃ outs, outputs python credentials steps = .ok outs ∧
      (NothingLost outs docs ↔ Agrees ((enabledSteps steps).filterMap Step.aptSettings) ∧
        Agrees ((enabledSteps steps).filterMap Step.debconfSelections)) := by
  obtain ⟨merged, hmerged, h⟩ := bind_ok.mp h
  cases h
  obtain ⟨outs, houts, hfold⟩ := addSteps_outputs hmerged
  refine ⟨outs, houts, ?_⟩
  have hshaped : ∀ out ∈ outs, ∃ step, Shaped step out := by
    intro out hout
    obtain ⟨step, -, hstep⟩ := exists_left_of_forall₂ (mapM_ok_forall₂ houts) hout
    exact ⟨step.1, compile_shaped hstep⟩
  have hstart : Holds [] ⟨[("runcmd", .list [])], []⟩ := by constructor <;> rfl
  have hholds := holds_run hstart hshaped hfold
  rw [List.nil_append] at hholds
  have hapt : outs.filterMap (·.cloudConfig.lookup "apt") = ((enabledSteps steps).filterMap Step.aptSettings).map .dict :=
    filterMap_shaped houts fun _ _ hstep => hstep.apt
  have hdebconf : outs.filterMap (·.cloudConfig.lookup "debconf_selections") =
      ((enabledSteps steps).filterMap Step.debconfSelections).map .dict :=
    filterMap_shaped houts fun _ _ hstep => hstep.debconf
  rw [← entries_kept_iff hapt hholds.apt, ← entries_kept_iff hdebconf hholds.debconf]
  let userData := dropEmptyRuncmd merged.cc
  have hentries : ∀ key, key ≠ "runcmd" → entriesAt userData key = entriesAt merged.cc key := by
    intro key hkey
    unfold entriesAt
    rw [lookup_dropEmptyRuncmd merged.cc hkey]
  have hitemsAt : ∀ key, key ≠ "runcmd" → itemsAt userData key = itemsAt merged.cc key := by
    intro key hkey
    unfold itemsAt
    rw [lookup_dropEmptyRuncmd merged.cc hkey]
  rw [← hentries "apt" (by decide), ← hentries "debconf_selections" (by decide)]
  constructor
  · exact fun hlost => ⟨hlost.apt, hlost.debconf⟩
  · rintro ⟨hkept, hselections⟩
    exact
      { packages := (hitemsAt "packages" (by decide)).trans hholds.packages
        users := (hitemsAt "users" (by decide)).trans hholds.users
        snap := by
          refine Eq.trans ?_ hholds.snap
          unfold snapCommands
          rw [← hentries "snap" (by decide)]
        runcmd := itemsAt_dropEmptyRuncmd hholds.runcmd
        apt := hkept
        debconf := hselections
        firstboot := congrArg (agentRuncmd ++ ·) hholds.firstboot }

/-! ### Two sequences -/

def samplePython : Python := ⟨fun _ secret => "$6$" ++ secret, fun _ => "", fun _ => ""⟩

def aptStep (package anchor selection : String) : Step :=
  [ ("step_type", .str "install_apt_packages")
  , ("params", .obj
      [("packages", .arr [.str package]), ("debconf_selections", .obj [(anchor, .str selection)])]) ]

def coreStep : Step := [("step_type", .str "install_ubuntu_core"), ("params", .obj [("apt_proxy", .str "http://apt:3142")])]

theorem core_and_cacher_kept : ∃ docs,
    compileSequence samplePython [coreStep, aptStep "apt-cacher-ng" "cacher" "tunnelenable boolean false"] [] "i" "ubuntu" =
      .ok docs ∧
    ∃ outs, outputs samplePython [] [coreStep, aptStep "apt-cacher-ng" "cacher" "tunnelenable boolean false"] = .ok outs ∧
      NothingLost outs docs := by
  refine ⟨_, rfl, ?_⟩
  obtain ⟨outs, houts, hiff⟩ := nothing_lost_iff samplePython
    [coreStep, aptStep "apt-cacher-ng" "cacher" "tunnelenable boolean false"] [] "i" "ubuntu" _ rfl
  refine ⟨outs, houts, hiff.mpr ⟨?_, ?_⟩⟩
  · intro entries hentries last hlast
    cases List.mem_singleton.mp hentries
    cases hlast
    exact List.Subset.refl _
  · intro entries hentries last hlast
    cases List.mem_singleton.mp hentries
    cases hlast
    exact List.Subset.refl _

/-- The selections for the first package are not in the document. -/
theorem selections_replaced : ∃ docs outs,
    compileSequence samplePython [aptStep "apt-cacher-ng" "cacher" "tunnelenable boolean false",
      aptStep "postfix" "postfix" "mailer_type select Local"] [] "i" "ubuntu" = .ok docs ∧
    outputs samplePython [] [aptStep "apt-cacher-ng" "cacher" "tunnelenable boolean false",
      aptStep "postfix" "postfix" "mailer_type select Local"] = .ok outs ∧ ¬ NothingLost outs docs := by
  refine ⟨_, _, rfl, rfl, fun h => ?_⟩
  have hkept := h.debconf _ List.mem_cons_self (List.mem_singleton.mpr rfl)
  exact absurd hkept (by decide)

end ProxmoxVEAutopilot.Ubuntu
