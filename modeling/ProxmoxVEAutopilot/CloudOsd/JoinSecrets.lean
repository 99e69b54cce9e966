import ProxmoxVEAutopilot.CloudOsd.Runs
import ProxmoxVEAutopilot.Foundation.TwoRuns
import ProxmoxVEAutopilot.Sequences.Compiler

/-!
# The intent of a legacy sequence

Of a sequence with no enabled step but one domain join, what the run keeps of that join.
-/

namespace ProxmoxVEAutopilot.CloudOsd

open Foundation Sequences
set_option autoImplicit false

inductive IntentError where
  | unsupported (stepTypes : List String)
  | multipleJoins
  | noCredentialId
  | credentialNotFound (credentialId : Json)
  | incompleteCredential
  | raised (exception : String)
deriving DecidableEq

/-- The texts, with Python's `str`. -/
def IntentError.message (str : Json → String) : IntentError → String
  | unsupported stepTypes => "OSDCloud selected sequence is not OSDCloud-compatible yet; unsupported enabled step(s): " ++
      ", ".intercalate stepTypes
  | multipleJoins => "OSDCloud selected sequence has multiple enabled join_ad_domain steps; use exactly one."
  | noCredentialId => "OSDCloud join_ad_domain step has no credential_id set."
  | credentialNotFound credentialId =>
    "OSDCloud join_ad_domain credential id=" ++ str credentialId ++ " was not found."
  | incompleteCredential => "OSDCloud join_ad_domain credential is missing domain_fqdn, username, or password."
  | raised exception => exception

/-- A Python exception on the way. -/
def reading {α : Type} (x : Except String α) : Except IntentError α := x.mapError .raised

def isJoin (step : StepDict) : Bool := step.stepType == "join_ad_domain"

def unsupportedEnabledSteps (sequence : SequenceDict) : List String :=
  (((sequence.steps.filter fun step => step.isEnabled && !isJoin step).map StepDict.stepType).dedup).insertionSort (· ≤ ·)

def disabledIntent : Json := .obj [("domain_join", .obj [("enabled", .bool false)])]

section Intent
variable (py : Texts) (resolve : Resolver)

/-- What is kept of the credential and the step. -/
def joinIntent (sequenceId credentialId : Int) (domainFqdn credentialDomain ouPath controller : String) : Json :=
  .obj [("domain_join", .obj ([
    ("enabled", .bool true),
    ("source_sequence_id", .int sequenceId),
    ("credential_id", .int credentialId),
    ("domain_fqdn", .str domainFqdn),
    ("credential_domain", .str credentialDomain),
    ("ou_path", .str ouPath),
    ("acceptable_domain_names", .arr ((uniqueText py [domainFqdn, credentialDomain]).map .str))] ++
      if controller ≠ "" then [("domain_controller_ipv4", .str controller)] else []))]

/-- The end of `compile_cloudosd_sequence_intent`, for the only join. -/
def compileJoin (sequenceId : Int) (step : StepDict) : Except IntentError Json := do
  let params := Sequences.orElse (step.params.getD .null) (.obj [])
  let given ← reading (getItem params "credential_id")
  if !given.truthy then .error .noCredentialId
  else
    let credentialId ← reading (toInt given)
    let credential ← reading (resolve credentialId)
    if !credential.truthy then .error (.credentialNotFound given)
    else
      let inner ← reading (getItem credential "payload")
      let payload := Sequences.orElse inner credential
      let domainFqdn ← reading ((getItem payload "domain_fqdn").bind stripped)
      let rawUsername ← reading ((getItem payload "username").bind stripped)
      let secret ← reading (getItem payload "password")
      if domainFqdn = "" ∨ rawUsername = "" ∨ !secret.truthy then .error .incompleteCredential
      else
        let userDomain := (splitDomainUser rawUsername).1
        let own ← reading (getItem params "ou_path")
        let hint ← reading (getItem payload "ou_hint")
        let ouPath ← reading (stripped (Sequences.orElse own hint))
        let ownController ← reading (getItem params "domain_controller_ipv4")
        let hintController ← reading (getItem payload "domain_controller_ipv4")
        let controller ← reading (stripped (Sequences.orElse ownController hintController))
        pure (joinIntent py sequenceId credentialId domainFqdn (if userDomain ≠ "" then userDomain else domainFqdn)
          ouPath controller)

def compileCloudosdSequenceIntent (sequence : Option SequenceDict) : Except IntentError Json :=
  match sequence with
  | none => .ok disabledIntent
  | some sequence =>
    if unsupportedEnabledSteps sequence ≠ [] then .error (.unsupported (unsupportedEnabledSteps sequence))
    else
      match sequence.steps.filter fun step => step.isEnabled && isJoin step with
      | [] => .ok disabledIntent
      | [step] => compileJoin py resolve sequence.id step
      | _ => .error .multipleJoins

end Intent

/-!
## Where the secrets of a join go

Two credential stores that differ in passwords and in the account part of user names compile
to the same sequence up to the blocks of the unattend file, and to the same intent.
-/

/-- How a user name embeds its domain. -/
inductive UserForm where
  | bare
  | netbios (domain : String)
  | upn (domain : String)

def UserForm.username : UserForm → String → String
  | bare, account => account
  | netbios domain, account => domain ++ "\\" ++ account
  | upn domain, account => account ++ "@" ++ domain

def UserForm.domain : UserForm → String
  | bare => ""
  | netbios domain => strip domain
  | upn domain => strip domain

/-- The user name with this account has this form and no other. -/
def UserForm.Admits : UserForm → String → Prop
  | bare, account => '\\' ∉ account.toList ∧ '@' ∉ account.toList
  | netbios domain, _ => '\\' ∉ domain.toList
  | upn domain, account => '\\' ∉ account.toList ∧ '\\' ∉ domain.toList ∧ '@' ∉ domain.toList

section Forms
variable {form : UserForm} {account : String}

theorem toList_strip (s : String) : (strip s).toList = trimmed isSpace s.toList := String.toList_ofList

theorem strip_eq {s : String} {cs : List Char} (h : trimmed isSpace cs = trimmed isSpace s.toList) :
    strip (String.ofList cs) = strip s := by
  refine String.toList_inj.mp ?_
  rw [toList_strip, toList_strip, String.toList_ofList, h]

theorem splitDomainUser_bare (hslash : '\\' ∉ account.toList) (hat : '@' ∉ account.toList) :
    (splitDomainUser (strip account)).1 = "" := by
  have hslash' : '\\' ∉ (strip account).toList := fun h => hslash (of_mem_trimmed (toList_strip account ▸ h))
  have hat' : '@' ∉ (strip account).toList := fun h => hat (of_mem_trimmed (toList_strip account ▸ h))
  unfold splitDomainUser
  rw [if_neg hslash', if_neg hat']

theorem splitDomainUser_netbios {domain : String} (hslash : '\\' ∉ domain.toList) :
    (splitDomainUser (strip (domain ++ "\\" ++ account))).1 = strip domain := by
  have hchars : (strip (domain ++ "\\" ++ account)).toList =
      domain.toList.dropWhile isSpace ++ '\\' :: (account.toList.reverse.dropWhile isSpace).reverse := by
    rw [toList_strip, String.toList_append, String.toList_append, List.append_assoc]
    exact trimmed_middle rfl _ _
  have hfree : ∀ c ∈ domain.toList.dropWhile isSpace, decide (c ≠ '\\') = true := fun c hc => by
    have hmem := (List.dropWhile_suffix isSpace).subset hc
    exact decide_eq_true fun heq => hslash (heq ▸ hmem)
  unfold splitDomainUser
  dsimp only
  rw [hchars, if_pos (List.mem_append_right _ (List.mem_cons_self ..))]
  rw [List.takeWhile_append_of_pos hfree, List.takeWhile_cons_of_neg (by simp), List.append_nil]
  exact strip_eq (trimmed_dropWhile _ _)

theorem splitDomainUser_upn {domain : String} (haccount : '\\' ∉ account.toList) (hslash : '\\' ∉ domain.toList)
    (hat : '@' ∉ domain.toList) : (splitDomainUser (strip (account ++ "@" ++ domain))).1 = strip domain := by
  have hchars : (strip (account ++ "@" ++ domain)).toList =
      account.toList.dropWhile isSpace ++ '@' :: (domain.toList.reverse.dropWhile isSpace).reverse := by
    rw [toList_strip, String.toList_append, String.toList_append, List.append_assoc]
    exact trimmed_middle rfl _ _
  have hnone : '\\' ∉ account.toList.dropWhile isSpace ++ '@' :: (domain.toList.reverse.dropWhile isSpace).reverse := by
    intro h
    rcases List.mem_append.mp h with h | h
    · exact haccount ((List.dropWhile_suffix isSpace).subset h)
    rcases List.mem_cons.mp h with h | h
    · cases h
    · exact hslash (List.mem_reverse.mp ((List.dropWhile_suffix isSpace).subset (List.mem_reverse.mp h)))
  have hfree : ∀ c ∈ domain.toList.reverse.dropWhile isSpace, decide (c ≠ '@') = true := fun c hc => by
    have hmem := List.mem_reverse.mp ((List.dropWhile_suffix isSpace).subset hc)
    exact decide_eq_true fun heq => hat (heq ▸ hmem)
  unfold splitDomainUser
  dsimp only
  rw [hchars, if_neg hnone, if_pos (List.mem_append_right _ (List.mem_cons_self ..))]
  rw [List.reverse_append, List.reverse_cons, List.reverse_reverse, List.append_assoc, List.singleton_append,
    List.takeWhile_append_of_pos hfree, List.takeWhile_cons_of_neg (by simp), List.append_nil]
  exact strip_eq (trimmed_reverse_dropWhile _ _)

theorem splitDomainUser_username (h : form.Admits account) :
    (splitDomainUser (strip (form.username account))).1 = form.domain := by
  cases form with
  | bare => exact splitDomainUser_bare h.1 h.2
  | netbios domain => exact splitDomainUser_netbios h
  | upn domain => exact splitDomainUser_upn h.1 h.2.1 h.2.2

theorem strip_username_ne (h : strip account ≠ "") : strip (form.username account) ≠ "" := by
  cases form with
  | bare => exact h
  | netbios domain => exact strip_ne_empty (c := '\\') (by simp [UserForm.username]) rfl
  | upn domain => exact strip_ne_empty (c := '@') (by simp [UserForm.username]) rfl

end Forms

section Stores

/-- Two entries of the same credential in the two stores. -/
inductive AlikeEntry : String × Json → String × Json → Prop where
  | same (entry : String × Json) : AlikeEntry entry entry
  | password {p q : String} (hp : p ≠ "") (hq : q ≠ "") : AlikeEntry ("password", .str p) ("password", .str q)
  | username (form : UserForm) (a b : String) (ha : form.Admits a) (hb : form.Admits b) (hne : strip a ≠ "")
      (hne' : strip b ≠ "") : AlikeEntry ("username", .str (form.username a)) ("username", .str (form.username b))
  | payload {fields fields' : List (String × Json)} (h : List.Forall₂ AlikeEntry fields fields') :
      AlikeEntry ("payload", .obj fields) ("payload", .obj fields')

theorem AlikeEntry.value {key : String} {v v' : Json} (h : AlikeEntry (key, v) (key, v')) : v = v' ∨
    (key = "password" ∧ ∃ p q, p ≠ "" ∧ q ≠ "" ∧ v = .str p ∧ v' = .str q) ∨
    (key = "username" ∧ ∃ (form : UserForm) (a b : String), form.Admits a ∧ form.Admits b ∧ strip a ≠ "" ∧
      strip b ≠ "" ∧ v = .str (form.username a) ∧ v' = .str (form.username b)) ∨
    (key = "payload" ∧ ∃ fields fields', List.Forall₂ AlikeEntry fields fields' ∧ v = .obj fields ∧
      v' = .obj fields') := by
  cases h with
  | same => exact .inl rfl
  | password hp hq => exact .inr (.inl ⟨rfl, _, _, hp, hq, rfl, rfl⟩)
  | username form a b ha hb hne hne' => exact .inr (.inr (.inl ⟨rfl, _, _, _, ha, hb, hne, hne', rfl, rfl⟩))
  | payload h => exact .inr (.inr (.inr ⟨rfl, _, _, h, rfl, rfl⟩))

inductive Alike : Json → Json → Prop where
  | same (value : Json) : Alike value value
  | obj {fields fields' : List (String × Json)} (h : List.Forall₂ AlikeEntry fields fields') :
      Alike (.obj fields) (.obj fields')

/-- The stores agree on everything but passwords and accounts. -/
def AlikeResolvers (resolve resolve' : Resolver) : Prop := ∀ id, Both Alike (resolve id) (resolve' id)

variable {value value' : Json} {key : String}

theorem Alike.truthy (h : Alike value value') : value.truthy = value'.truthy := by
  cases h with
  | same value => rfl
  | obj h =>
    cases h with
    | nil => rfl
    | cons h rest => rfl

theorem alikeEntry_lookup {fields fields' : List (String × Json)} (h : List.Forall₂ AlikeEntry fields fields') :
    AlikeEntry (key, (fields.lookup key).getD .null) (key, (fields'.lookup key).getD .null) := by
  induction h with
  | nil => exact .same _
  | @cons entry entry' rest rest' hentry _ ih =>
    have hname : entry.1 = entry'.1 := by cases hentry <;> rfl
    obtain ⟨name, v⟩ := entry
    obtain ⟨name', v'⟩ := entry'
    obtain rfl : name = name' := hname
    by_cases hkey : key = name
    · subst hkey
      simpa [List.lookup_cons] using hentry
    · simpa [List.lookup_cons, beq_eq_false_iff_ne.mpr hkey] using ih

theorem both_getItem (h : Alike value value') (key : String) :
    Both (fun v v' => AlikeEntry (key, v) (key, v')) (getItem value key) (getItem value' key) := by
  cases h with
  | same value => exact (Both.refl _).mono fun v v' h => h ▸ .same _
  | obj h => exact .ok (alikeEntry_lookup h)

theorem both_getItem_eq (key : String) (h : Alike value value') (hpassword : key ≠ "password") (husername : key ≠ "username")
    (hpayload : key ≠ "payload") : getItem value key = getItem value' key := by
  refine ((both_getItem h key).mono fun v v' hentry => ?_).eq
  rcases hentry.value with heq | ⟨hkey, _⟩ | ⟨hkey, _⟩ | ⟨hkey, _⟩
  · exact heq
  · exact absurd hkey hpassword
  · exact absurd hkey husername
  · exact absurd hkey hpayload

theorem alikeEntry_password (h : AlikeEntry ("password", value) ("password", value')) :
    value.truthy = value'.truthy ∧ Both (fun _ _ => True) (textOr value) (textOr value') := by
  rcases h.value with rfl | ⟨_, p, q, hp, hq, rfl, rfl⟩ | ⟨hkey, _⟩ | ⟨hkey, _⟩
  · exact ⟨rfl, (Both.refl _).mono fun _ _ _ => trivial⟩
  · have htruthy : ∀ {s : String}, s ≠ "" → (Json.str s).truthy = true := fun hs => by simp [Json.truthy, hs]
    refine ⟨by rw [htruthy hp, htruthy hq], ?_⟩
    unfold textOr
    rw [if_pos (htruthy hp), if_pos (htruthy hq)]
    exact .ok trivial
  · exact absurd hkey (by decide)
  · exact absurd hkey (by decide)

/-- Two user names as the compiler reads them: both present, with one domain. -/
def SameDomain (username username' : String) : Prop :=
  (username = "" ↔ username' = "") ∧ (splitDomainUser username).1 = (splitDomainUser username').1

theorem both_username (h : Alike value value') :
    Both SameDomain ((getItem value "username").bind stripped) ((getItem value' "username").bind stripped) := by
  refine (both_getItem h "username").bind fun v v' hentry => ?_
  rcases hentry.value with rfl | ⟨hkey, _⟩ | ⟨_, form, a, b, ha, hb, hne, hne', rfl, rfl⟩ | ⟨hkey, _⟩
  · exact (Both.refl _).mono fun u u' h => h ▸ ⟨Iff.rfl, rfl⟩
  · exact absurd hkey (by decide)
  · have hread : ∀ {account : String}, strip account ≠ "" →
        stripped (.str (form.username account)) = .ok (strip (form.username account)) := fun haccount => by
      have hgiven : form.username _ ≠ "" := fun hempty => strip_username_ne haccount (by rw [hempty]; rfl)
      simp [stripped, textOr, Json.truthy, hgiven, Except.map]
    rw [hread hne, hread hne']
    exact .ok ⟨iff_of_false (strip_username_ne hne) (strip_username_ne hne'),
      (splitDomainUser_username ha).trans (splitDomainUser_username hb).symm⟩
  · exact absurd hkey (by decide)

end Stores

section Handlers
variable {resolve resolve' : Resolver} {params : Json} {out out' : CompiledSequence}

/-- The same but for what the blocks hold. -/
structure SameButBlocks (out out' : CompiledSequence) : Prop where
  ansibleVars : out.ansibleVars = out'.ansibleVars
  firstLogonCommands : out.firstLogonCommands = out'.firstLogonCommands
  autopilotEnabled : out.autopilotEnabled = out'.autopilotEnabled
  causesRebootCount : out.causesRebootCount = out'.causesRebootCount
  blockNames : out.unattendBlocks.map Prod.fst = out'.unattendBlocks.map Prod.fst

theorem isSome_lookup {dict : List (String × String)} {key : String} :
    (dict.lookup key).isSome = true ↔ key ∈ dict.map Prod.fst := by
  induction dict with
  | nil => simp
  | cons entry dict ih =>
    obtain ⟨name, value⟩ := entry
    by_cases hkey : key = name
    · simp [hkey]
    · simp [List.lookup_cons, beq_eq_false_iff_ne.mpr hkey, hkey, ih]

theorem keys_setItem {dict : List (String × String)} {key value : String} : (setItem dict key value).map Prod.fst =
    if key ∈ dict.map Prod.fst then dict.map Prod.fst else dict.map Prod.fst ++ [key] := by
  unfold setItem
  by_cases hkey : key ∈ dict.map Prod.fst
  · rw [if_pos (isSome_lookup.mpr hkey), if_pos hkey, List.map_map]
    refine List.map_congr_left fun entry _ => ?_
    rw [Function.comp_apply]
    split
    · rename_i heq
      exact heq.symm
    · rfl
  · rw [if_neg (fun h => hkey (isSome_lookup.mp h)), if_neg hkey, List.map_append]
    rfl

theorem SameButBlocks.setVar (h : SameButBlocks out out') (key value : String) :
    SameButBlocks (out.setVar key value) (out'.setVar key value) where
  ansibleVars := congrArg (setItem · key value) h.ansibleVars
  firstLogonCommands := h.firstLogonCommands
  autopilotEnabled := h.autopilotEnabled
  causesRebootCount := h.causesRebootCount
  blockNames := h.blockNames

theorem SameButBlocks.setBlock (h : SameButBlocks out out') (key value value' : String) :
    SameButBlocks (out.setBlock key value) (out'.setBlock key value') where
  ansibleVars := h.ansibleVars
  firstLogonCommands := h.firstLogonCommands
  autopilotEnabled := h.autopilotEnabled
  causesRebootCount := h.causesRebootCount
  blockNames := by
    unfold CompiledSequence.setBlock
    rw [keys_setItem, keys_setItem, h.blockNames]

theorem both_raising {α β : Type} {R : α → β → Prop} {x : Except String α} {y : Except String β} (h : Both R x y) :
    Both R (raising x) (raising y) := h.mapError _

theorem both_requireCredential (h : AlikeResolvers resolve resolve') (stepType : String) :
    Both Alike (requireCredential params (some resolve) stepType)
      (requireCredential params (some resolve') stepType) := by
  unfold requireCredential
  refine .same fun cid => ?_
  split
  · exact .error _
  · refine .same fun id => (both_raising (h id)).bind fun payload payload' hpayload => ?_
    rw [← hpayload.truthy]
    split
    · exact .ok hpayload
    · exact .error _

theorem both_setOemHardware (h : SameButBlocks out out') :
    Both SameButBlocks (handleSetOemHardware params out) (handleSetOemHardware params out') := by
  unfold handleSetOemHardware
  refine .same fun profile => .same fun ct => .ok ?_
  have hprofile : SameButBlocks (if profile ≠ "" then out.setVar "vm_oem_profile" profile else out)
      (if profile ≠ "" then out'.setVar "vm_oem_profile" profile else out') := by
    split
    · exact h.setVar _ _
    · exact h
  split
  · exact hprofile.setVar _ _
  · exact hprofile

theorem both_localAdminAccount (hresolve : AlikeResolvers resolve resolve') :
    Both (fun _ _ => True) (localAdminAccount params (some resolve)) (localAdminAccount params (some resolve')) := by
  unfold localAdminAccount
  refine (both_requireCredential hresolve _).bind fun payload payload' hpayload => ?_
  refine (both_raising (both_username hpayload)).bind fun name name' _ => ?_
  refine (both_raising (both_getItem hpayload "password")).bind fun secret secret' hsecret => ?_
  obtain ⟨htruthy, htext⟩ := alikeEntry_password hsecret
  rw [← htruthy]
  split
  · exact .error _
  · exact (both_raising htext).bind fun password password' _ => .ok trivial

theorem both_localAdmin (hresolve : AlikeResolvers resolve resolve') (h : SameButBlocks out out') :
    Both SameButBlocks (handleLocalAdmin params out (some resolve)) (handleLocalAdmin params out' (some resolve')) := by
  unfold handleLocalAdmin
  refine (both_localAdminAccount hresolve).bind fun account account' _ => .ok ?_
  split
  · exact (h.setBlock _ _ _).setBlock _ _ _
  · exact h.setBlock _ _ _

theorem both_joinAdDomain (hresolve : AlikeResolvers resolve resolve') (h : SameButBlocks out out') :
    Both SameButBlocks (handleJoinAdDomain params out (some resolve))
      (handleJoinAdDomain params out' (some resolve')) := by
  unfold handleJoinAdDomain
  refine (both_requireCredential hresolve _).bind fun payload payload' hpayload => ?_
  rw [← both_getItem_eq "domain_fqdn" hpayload (by decide) (by decide) (by decide),
    ← both_getItem_eq "ou_hint" hpayload (by decide) (by decide) (by decide)]
  refine .same fun domainFqdn => ?_
  refine (both_raising (both_username hpayload)).bind fun name name' hname => ?_
  refine (both_raising (both_getItem hpayload "password")).bind fun secret secret' hsecret => ?_
  obtain ⟨htruthy, htext⟩ := alikeEntry_password hsecret
  rw [← htruthy]
  simp only [← hname.1]
  split
  · exact .error _
  · refine .same fun own => .same fun hint => .same fun ou => ?_
    exact (both_raising htext).bind fun password password' _ => .ok (h.setBlock _ _ _)

theorem both_renameComputer (h : SameButBlocks out out') :
    Both SameButBlocks (handleRenameComputer params out) (handleRenameComputer params out') := by
  unfold handleRenameComputer
  refine .same fun named => .same fun source => .same fun pattern => ?_
  split
  · exact .error _
  · exact .ok (h.setBlock _ _ _)

theorem SameButBlocks.addCommand (h : SameButBlocks out out') (commands : List LogonCommand) (reboots : Nat) :
    SameButBlocks { out with
        firstLogonCommands := out.firstLogonCommands ++ commands
        causesRebootCount := out.causesRebootCount + reboots }
      { out' with
        firstLogonCommands := out'.firstLogonCommands ++ commands
        causesRebootCount := out'.causesRebootCount + reboots } where
  ansibleVars := h.ansibleVars
  firstLogonCommands := congrArg (· ++ commands) h.firstLogonCommands
  autopilotEnabled := h.autopilotEnabled
  causesRebootCount := congrArg (· + reboots) h.causesRebootCount
  blockNames := h.blockNames

theorem both_runScript (h : SameButBlocks out out') :
    Both SameButBlocks (handleRunScript params out) (handleRunScript params out') := by
  unfold handleRunScript
  refine .same fun script => ?_
  split
  · exact .error _
  · exact .same fun named => .same fun reboots => .ok (h.addCommand _ _)

theorem both_installModule (h : SameButBlocks out out') :
    Both SameButBlocks (handleInstallModule params out) (handleInstallModule params out') := by
  unfold handleInstallModule
  refine .same fun module => ?_
  split
  · exact .error _
  · exact .same fun version => .same fun repository => .same fun scope => .ok (h.addCommand _ 0)

theorem both_compileStep (hresolve : AlikeResolvers resolve resolve') (step : StepDict) (h : SameButBlocks out out') :
    Both SameButBlocks (compileStep (some resolve) out step) (compileStep (some resolve') out' step) := by
  unfold compileStep
  split
  · unfold handler
    split
    · exact both_setOemHardware h
    · have hentra : SameButBlocks { out with autopilotEnabled := true } { out' with autopilotEnabled := true } :=
        ⟨h.ansibleVars, h.firstLogonCommands, rfl, h.causesRebootCount, h.blockNames⟩
      exact .ok (hentra.setVar _ _)
    · exact .error _
    · exact both_localAdmin hresolve h
    · exact both_joinAdDomain hresolve h
    · exact both_renameComputer h
    · exact both_runScript h
    · exact both_installModule h
    · exact .error _
  · exact .ok h

theorem SameButBlocks.finalReboot (h : SameButBlocks out out') :
    SameButBlocks (appendFinalRebootIfAutologon out) (appendFinalRebootIfAutologon out') := by
  have hauto : out.hasAutoLogon = out'.hasAutoLogon := by
    rw [Bool.eq_iff_iff]
    unfold CompiledSequence.hasAutoLogon
    rw [isSome_lookup, isSome_lookup, h.blockNames]
  unfold appendFinalRebootIfAutologon
  rw [hauto]
  split
  · exact h.addCommand _ 1
  · exact h

theorem both_compile (hresolve : AlikeResolvers resolve resolve') (sequence : SequenceDict) :
    Both SameButBlocks (compile (some resolve) sequence) (compile (some resolve') sequence) := by
  unfold compile
  refine (Both.foldlM (fun out out' step => both_compileStep hresolve step) ?_).map fun _ _ h => h.finalReboot
  exact ⟨rfl, rfl, rfl, rfl, rfl⟩

end Handlers

section Intent
variable {py : Texts} {resolve resolve' : Resolver}

theorem both_reading {α β : Type} {R : α → β → Prop} {x : Except String α} {y : Except String β} (h : Both R x y) :
    Both R (reading x) (reading y) := h.mapError _

theorem alike_payload {credential credential' inner inner' : Json} (h : Alike credential credential')
    (hinner : AlikeEntry ("payload", inner) ("payload", inner')) :
    Alike (Sequences.orElse inner credential) (Sequences.orElse inner' credential') := by
  unfold Sequences.orElse
  rcases hinner.value with rfl | ⟨hkey, _⟩ | ⟨hkey, _⟩ | ⟨_, fields, fields', hfields, rfl, rfl⟩
  · split
    · exact .same _
    · exact h
  · exact absurd hkey (by decide)
  · exact absurd hkey (by decide)
  · rw [← (Alike.obj hfields).truthy]
    split
    · exact .obj hfields
    · exact h

theorem compileJoin_alike (hresolve : AlikeResolvers resolve resolve') (sequenceId : Int) (step : StepDict) :
    Both Eq (compileJoin py resolve sequenceId step) (compileJoin py resolve' sequenceId step) := by
  unfold compileJoin
  refine .same fun given => ?_
  split
  · exact .error _
  refine .same fun credentialId => ?_
  refine (both_reading (hresolve credentialId)).bind fun credential credential' hcredential => ?_
  rw [← hcredential.truthy]
  split
  · exact .error _
  refine (both_reading (both_getItem hcredential "payload")).bind fun inner inner' hinner => ?_
  have hpayload := alike_payload hcredential hinner
  dsimp only
  rw [← both_getItem_eq "domain_fqdn" hpayload (by decide) (by decide) (by decide),
    ← both_getItem_eq "ou_hint" hpayload (by decide) (by decide) (by decide),
    ← both_getItem_eq "domain_controller_ipv4" hpayload (by decide) (by decide) (by decide)]
  refine .same fun domainFqdn => ?_
  refine (both_reading (both_username hpayload)).bind fun name name' hname => ?_
  refine (both_reading (both_getItem hpayload "password")).bind fun secret secret' hsecret => ?_
  rw [← (alikeEntry_password hsecret).1, ← hname.2]
  simp only [← hname.1]
  exact Both.refl _

/-- Neither compiler lets a password or an account out of the blocks of the unattend file. -/
theorem join_secrets_stay (hresolve : AlikeResolvers resolve resolve') (sequence : SequenceDict) :
    Both SameButBlocks (compile (some resolve) sequence) (compile (some resolve') sequence) ∧
    compileCloudosdSequenceIntent py resolve (some sequence) =
      compileCloudosdSequenceIntent py resolve' (some sequence) := by
  refine ⟨both_compile hresolve sequence, ?_⟩
  unfold compileCloudosdSequenceIntent
  dsimp only
  split
  · rfl
  split
  · rfl
  · exact (compileJoin_alike hresolve _ _).eq
  · rfl

def joinPayload (username password : String) : Json :=
  .obj [("domain_fqdn", .str "home.gell.one"), ("username", .str username), ("password", .str password)]

def joinSequence : SequenceDict where
  id := 7
  steps := [{ stepType := "join_ad_domain", params := some (.obj [("credential_id", .int 3)]) }]

def plainTexts : Texts where
  casefold := lower
  str := fun _ => ""

theorem netbios_secrets_stay :
    Both SameButBlocks (compile (some fun _ => .ok (joinPayload "home\\svc-join" "first")) joinSequence)
        (compile (some fun _ => .ok (joinPayload "home\\svc@backup" "second")) joinSequence) ∧
      compileCloudosdSequenceIntent plainTexts (fun _ => .ok (joinPayload "home\\svc-join" "first"))
          (some joinSequence) =
        compileCloudosdSequenceIntent plainTexts (fun _ => .ok (joinPayload "home\\svc@backup" "second"))
          (some joinSequence) :=
  join_secrets_stay (fun _ => .ok (.obj (.cons (.same _) (.cons
    (.username (.netbios "home") "svc-join" "svc@backup" (show '\\' ∉ "home".toList by decide)
      (show '\\' ∉ "home".toList by decide) (by decide) (by decide))
    (.cons (.password (by decide) (by decide)) .nil))))) joinSequence

end Intent

end ProxmoxVEAutopilot.CloudOsd
