import ProxmoxVEAutopilot.Sequences.LogonCommands

/-!
# The account of auto-logon

Every `local_admin` step overwrites the accounts that are created, but only one that asks for
auto-logon overwrites the account that is logged on.
-/

namespace ProxmoxVEAutopilot.Sequences

open Foundation
set_option autoImplicit false

section Rendering

def escapeChar (c : Char) : List Char :=
  if c = '&' then "&amp;".toList else if c = '>' then "&gt;".toList else if c = '<' then "&lt;".toList else [c]

theorem toList_xmlEscape (s : String) : (xmlEscape s).toList = s.toList.flatMap escapeChar := String.toList_ofList

theorem notMem_escapeChar (c : Char) : '<' ∉ escapeChar c := by
  unfold escapeChar
  split
  · decide
  split
  · decide
  split
  · decide
  · rename_i hlt
    exact fun h => hlt (List.mem_singleton.mp h).symm

theorem notMem_xmlEscape (s : String) : '<' ∉ (xmlEscape s).toList := by
  rw [toList_xmlEscape]
  intro h
  obtain ⟨c, _, hc⟩ := List.mem_flatMap.mp h
  exact notMem_escapeChar c hc

theorem escapeChar_append_inj {c d : Char} {xs ys : List Char} (h : escapeChar c ++ xs = escapeChar d ++ ys) :
    c = d ∧ xs = ys := by
  have hcases : ∀ c, (c = '&' ∧ escapeChar c = ['&', 'a', 'm', 'p', ';']) ∨
      (c = '>' ∧ escapeChar c = ['&', 'g', 't', ';']) ∨ (c = '<' ∧ escapeChar c = ['&', 'l', 't', ';']) ∨
      (c ≠ '&' ∧ escapeChar c = [c]) := by
    intro c
    unfold escapeChar
    split
    · exact .inl ⟨‹_›, rfl⟩
    split
    · exact .inr (.inl ⟨‹_›, rfl⟩)
    split
    · exact .inr (.inr (.inl ⟨‹_›, rfl⟩))
    · exact .inr (.inr (.inr ⟨‹_›, rfl⟩))
  rcases hcases c with ⟨rfl, hc⟩ | ⟨rfl, hc⟩ | ⟨rfl, hc⟩ | ⟨hne, hc⟩ <;>
    rcases hcases d with ⟨rfl, hd⟩ | ⟨rfl, hd⟩ | ⟨rfl, hd⟩ | ⟨hne', hd⟩ <;>
    simp only [hc, hd, List.cons_append, List.nil_append, List.cons.injEq] at h <;> grind

theorem escapeChar_ne_nil (c : Char) : escapeChar c ≠ [] := by
  unfold escapeChar
  split
  · decide
  split
  · decide
  split
  · decide
  · exact List.cons_ne_nil _ _

theorem xmlEscape_injective {s t : String} (h : xmlEscape s = xmlEscape t) : s = t := by
  have key : ∀ xs ys : List Char, xs.flatMap escapeChar = ys.flatMap escapeChar → xs = ys := by
    intro xs
    induction xs with
    | nil =>
      intro ys hys
      cases ys with
      | nil => rfl
      | cons d ys =>
        rw [List.flatMap_nil, List.flatMap_cons] at hys
        exact absurd (List.append_eq_nil_iff.mp hys.symm).1 (escapeChar_ne_nil d)
    | cons c xs ih =>
      intro ys hys
      cases ys with
      | nil =>
        rw [List.flatMap_nil, List.flatMap_cons] at hys
        exact absurd (List.append_eq_nil_iff.mp hys).1 (escapeChar_ne_nil c)
      | cons d ys =>
        rw [List.flatMap_cons, List.flatMap_cons] at hys
        obtain ⟨rfl, hrest⟩ := escapeChar_append_inj hys
        rw [ih ys hrest]
  refine String.toList_inj.mp (key _ _ ?_)
  rw [← toList_xmlEscape, ← toList_xmlEscape, h]

theorem cut_inj {c : Char} {xs ys rest rest' : List Char} (hxs : c ∉ xs) (hys : c ∉ ys)
    (h : xs ++ c :: rest = ys ++ c :: rest') : xs = ys ∧ rest = rest' := by
  induction xs generalizing ys with
  | nil =>
    cases ys with
    | nil => exact ⟨rfl, (List.cons.inj h).2⟩
    | cons d ys => exact absurd (List.cons.inj h).1 fun heq => hys (heq ▸ List.mem_cons_self ..)
  | cons x xs ih =>
    cases ys with
    | nil => exact absurd (List.cons.inj h).1 fun heq => hxs (heq ▸ List.mem_cons_self ..)
    | cons d ys =>
      obtain ⟨hhead, htail⟩ := List.cons.inj h
      obtain ⟨hrest, hend⟩ := ih (fun hc => hxs (List.mem_cons_of_mem _ hc)) (fun hc => hys (List.mem_cons_of_mem _ hc)) htail
      exact ⟨by rw [hhead, hrest], hend⟩

theorem escaped_inj {s t : String} {rest rest' : List Char}
    (h : (xmlEscape s).toList ++ '<' :: rest = (xmlEscape t).toList ++ '<' :: rest') : s = t ∧ rest = rest' := by
  obtain ⟨heq, hrest⟩ := cut_inj (notMem_xmlEscape s) (notMem_xmlEscape t) h
  exact ⟨xmlEscape_injective (String.toList_inj.mp heq), hrest⟩

/-- A text with two escaped values in it, each of them up to a tag. -/
def Between (start middle finish : List Char) (username password : String) : List Char :=
  start ++ ((xmlEscape username).toList ++ '<' :: (middle ++ ((xmlEscape password).toList ++ '<' :: finish)))

theorem between_inj {start middle finish : List Char} {u p u' p' : String}
    (h : Between start middle finish u p = Between start middle finish u' p') : u = u' ∧ p = p' := by
  unfold Between at h
  rw [List.append_cancel_left_eq] at h
  obtain ⟨husername, hrest⟩ := escaped_inj h
  rw [List.append_cancel_left_eq] at hrest
  exact ⟨husername, (escaped_inj hrest).1⟩

theorem renderAutoLogon_eq (username password : String) : (renderAutoLogon username password).toList =
    Between (indent ++ "<AutoLogon>\n" ++ indent ++ "  <Enabled>true</Enabled>\n" ++ indent ++ "  <Username>").toList
      ("/Username>\n" ++ indent ++ "  <Password>\n" ++ indent ++ "    <Value>").toList
      ("/Value>\n" ++ indent ++ "    <PlainText>true</PlainText>\n" ++ indent ++ "  </Password>\n" ++ indent ++
        "  <LogonCount>1</LogonCount>\n" ++ indent ++ "</AutoLogon>").toList username password := by
  have husername : "</Username>\n".toList = '<' :: "/Username>\n".toList := by decide
  have hvalue : "</Value>\n".toList = '<' :: "/Value>\n".toList := by decide
  unfold renderAutoLogon Between
  simp only [String.toList_append, List.append_assoc, husername, hvalue, List.cons_append]

theorem renderUserAccounts_eq (username password : String) : (renderUserAccounts username password).toList =
    Between (indent ++ "<UserAccounts>\n" ++ indent ++ "  <LocalAccounts>\n" ++ indent ++
        "    <LocalAccount wcm:action=\"add\">\n" ++ indent ++ "      <Name>").toList
      ("/Name>\n" ++ indent ++ "      <Group>Administrators</Group>\n" ++ indent ++ "      <Password>\n" ++ indent ++
        "        <Value>").toList
      ("/Value>\n" ++ indent ++ "        <PlainText>true</PlainText>\n" ++ indent ++ "      </Password>\n" ++ indent ++
        "    </LocalAccount>\n" ++ indent ++ "  </LocalAccounts>\n" ++ indent ++ "</UserAccounts>").toList
      username password := by
  have hname : "</Name>\n".toList = '<' :: "/Name>\n".toList := by decide
  have hvalue : "</Value>\n".toList = '<' :: "/Value>\n".toList := by decide
  unfold renderUserAccounts Between
  simp only [String.toList_append, List.append_assoc, hname, hvalue, List.cons_append]

theorem renderAutoLogon_inj {u p u' p' : String} (h : renderAutoLogon u p = renderAutoLogon u' p') :
    u = u' ∧ p = p' := by
  have hchars := congrArg String.toList h
  rw [renderAutoLogon_eq, renderAutoLogon_eq] at hchars
  exact between_inj hchars

theorem renderUserAccounts_inj {u p u' p' : String} (h : renderUserAccounts u p = renderUserAccounts u' p') :
    u = u' ∧ p = p' := by
  have hchars := congrArg String.toList h
  rw [renderUserAccounts_eq, renderUserAccounts_eq] at hchars
  exact between_inj hchars

end Rendering

section Accounts
variable {resolver : Option Resolver} {params : Json} {out out' : CompiledSequence}

def StepDict.isAdmin (step : StepDict) : Bool := step.isEnabled && step.stepType == "local_admin"

/-- The accounts of the enabled `local_admin` steps, in their order. -/
def adminAccounts (resolver : Option Resolver) (steps : List StepDict) : List (String × String) :=
  steps.filterMap fun step =>
    if step.isAdmin then (localAdminAccount step.paramsOr resolver).toOption else none

/-- Those of the steps that ask for auto-logon. -/
def logonAccounts (resolver : Option Resolver) (steps : List StepDict) : List (String × String) :=
  adminAccounts resolver (steps.filter fun step => wantsAutologon step.paramsOr)

/-- The account that is logged on is the one that is created. -/
def LogsOnCreated (out : CompiledSequence) : Prop :=
  ∀ logon, out.unattendBlocks.lookup "oobe_auto_logon" = some logon →
    ∃ username password, logon = renderAutoLogon username password ∧
      out.unattendBlocks.lookup "oobe_user_accounts" = some (renderUserAccounts username password)

/-- The last step with auto-logon has the account of the last step. -/
def LogonIsLast (resolver : Option Resolver) (steps : List StepDict) : Prop :=
  ∀ account ∈ (logonAccounts resolver steps).getLast?, (adminAccounts resolver steps).getLast? = some account

theorem lookup_setItem {dict : List (String × String)} {key value other : String} :
    (setItem dict key value).lookup other = if other = key then some value else dict.lookup other :=
  lookup_assigned dict key other value

/-- A handler that leaves both blocks of the logon alone. -/
structure KeepsLogon (out out' : CompiledSequence) : Prop where
  users : out'.unattendBlocks.lookup "oobe_user_accounts" = out.unattendBlocks.lookup "oobe_user_accounts"
  logon : out'.unattendBlocks.lookup "oobe_auto_logon" = out.unattendBlocks.lookup "oobe_auto_logon"

theorem keepsLogon_setBlock {key value : String} (husers : "oobe_user_accounts" ≠ key)
    (hlogon : "oobe_auto_logon" ≠ key) : KeepsLogon out (out.setBlock key value) := by
  unfold CompiledSequence.setBlock
  exact ⟨by rw [lookup_setItem, if_neg husers], by rw [lookup_setItem, if_neg hlogon]⟩

theorem keepsLogon_setOemHardware : Returns (KeepsLogon out) (handleSetOemHardware params out) := by
  unfold handleSetOemHardware
  refine .bind fun profile _ => .bind fun ct _ => .ok ?_
  constructor <;> split <;> split <;> rfl

theorem keepsLogon_joinAdDomain : Returns (KeepsLogon out) (handleJoinAdDomain params out resolver) := by
  unfold handleJoinAdDomain
  refine .bind fun payload _ => .bind fun domainFqdn _ => .bind fun rawUsername _ => .bind fun secret _ => ?_
  split
  · exact .error
  · exact .bind fun own _ => .bind fun hint _ => .bind fun ou _ => .bind fun password _ => .ok
      (keepsLogon_setBlock (by decide) (by decide))

theorem keepsLogon_renameComputer : Returns (KeepsLogon out) (handleRenameComputer params out) := by
  unfold handleRenameComputer
  refine .bind fun named _ => .bind fun source _ => .bind fun pattern _ => ?_
  split
  · exact .error
  · exact .ok (keepsLogon_setBlock (by decide) (by decide))

theorem keepsLogon_runScript : Returns (KeepsLogon out) (handleRunScript params out) := by
  unfold handleRunScript
  refine .bind fun script _ => ?_
  split
  · exact .error
  · exact .bind fun named _ => .bind fun reboots _ => .ok ⟨rfl, rfl⟩

theorem keepsLogon_installModule : Returns (KeepsLogon out) (handleInstallModule params out) := by
  unfold handleInstallModule
  refine .bind fun module _ => ?_
  split
  · exact .error
  · exact .bind fun version _ => .bind fun repository _ => .bind fun scope _ => .ok ⟨rfl, rfl⟩

def usersBlock (account : String × String) : String := renderUserAccounts account.1 account.2

def logonBlock (account : String × String) : String := renderAutoLogon account.1 account.2

/-- What the blocks of the logon are after these steps. -/
structure LogonAfter (resolver : Option Resolver) (steps : List StepDict) (out out' : CompiledSequence) : Prop where
  users : out'.unattendBlocks.lookup "oobe_user_accounts" =
    ((adminAccounts resolver steps).getLast?.map usersBlock).or (out.unattendBlocks.lookup "oobe_user_accounts")
  logon : out'.unattendBlocks.lookup "oobe_auto_logon" =
    ((logonAccounts resolver steps).getLast?.map logonBlock).or (out.unattendBlocks.lookup "oobe_auto_logon")

theorem logonAfter_localAdmin {step : StepDict} (hadmin : step.isAdmin = true) :
    Returns (LogonAfter resolver [step] out) (handleLocalAdmin step.paramsOr out resolver) := by
  unfold handleLocalAdmin
  refine .bind fun account haccount => .ok ?_
  have hadmins : adminAccounts resolver [step] = [account] := by simp [adminAccounts, hadmin, haccount, Except.toOption]
  cases hwants : wantsAutologon step.paramsOr with
  | true =>
    have hlogons : logonAccounts resolver [step] = [account] := by simp [logonAccounts, hwants, hadmins]
    constructor
    · rw [hadmins]
      simp [CompiledSequence.setBlock, lookup_setItem, usersBlock]
    · rw [hlogons]
      simp [CompiledSequence.setBlock, lookup_setItem, logonBlock]
  | false =>
    have hlogons : logonAccounts resolver [step] = [] := by simp [logonAccounts, hwants, adminAccounts]
    constructor
    · rw [hadmins]
      simp [CompiledSequence.setBlock, lookup_setItem, usersBlock]
    · rw [hlogons]
      simp [CompiledSequence.setBlock, lookup_setItem]

theorem logonAfter_compileStep {step : StepDict} :
    Returns (LogonAfter resolver [step] out) (compileStep resolver out step) := by
  have hother : step.isAdmin = false → ∀ {x : Except CompileError CompiledSequence}, Returns (KeepsLogon out) x →
      Returns (LogonAfter resolver [step] out) x := by
    intro hstep x hx out' hout'
    have hadmins : adminAccounts resolver [step] = [] := by simp [adminAccounts, hstep]
    have hlogons : logonAccounts resolver [step] = [] := by
      cases hwants : wantsAutologon step.paramsOr <;> simp [logonAccounts, adminAccounts, hstep, hwants]
    refine ⟨?_, ?_⟩
    · rw [hadmins, (hx out' hout').users]
      rfl
    · rw [hlogons, (hx out' hout').logon]
      rfl
  unfold compileStep
  split
  · rename_i henabled
    unfold handler
    split <;> rename_i htype
    · exact hother (by simp [StepDict.isAdmin, htype]) keepsLogon_setOemHardware
    · exact hother (by simp [StepDict.isAdmin, htype]) (.ok ⟨rfl, rfl⟩)
    · exact .error
    · exact logonAfter_localAdmin (by simp [StepDict.isAdmin, htype, henabled])
    · exact hother (by simp [StepDict.isAdmin, htype]) keepsLogon_joinAdDomain
    · exact hother (by simp [StepDict.isAdmin, htype]) keepsLogon_renameComputer
    · exact hother (by simp [StepDict.isAdmin, htype]) keepsLogon_runScript
    · exact hother (by simp [StepDict.isAdmin, htype]) keepsLogon_installModule
    · exact .error
  · rename_i hdisabled
    exact hother (by simp [StepDict.isAdmin, hdisabled]) (.ok ⟨rfl, rfl⟩)

theorem adminAccounts_cons (step : StepDict) (steps : List StepDict) :
    adminAccounts resolver (step :: steps) = adminAccounts resolver [step] ++ adminAccounts resolver steps := by
  unfold adminAccounts
  rw [← List.filterMap_append]
  rfl

theorem logonAccounts_cons (step : StepDict) (steps : List StepDict) :
    logonAccounts resolver (step :: steps) = logonAccounts resolver [step] ++ logonAccounts resolver steps := by
  unfold logonAccounts adminAccounts
  rw [← List.filterMap_append, ← List.filter_append]
  rfl

theorem logonAfter_steps {steps : List StepDict} :
    ∀ {out out' : CompiledSequence}, steps.foldlM (compileStep resolver) out = .ok out' →
      LogonAfter resolver steps out out' := by
  induction steps with
  | nil =>
    intro out out' h
    cases h
    exact ⟨rfl, rfl⟩
  | cons step steps ih =>
    intro out out' h
    rw [List.foldlM_cons] at h
    obtain ⟨next, hnext, hrest⟩ := bind_ok.mp h
    have hfirst := logonAfter_compileStep next hnext
    have hthen := ih hrest
    constructor
    · rw [hthen.users, hfirst.users, adminAccounts_cons step steps, List.getLast?_append, Option.map_or, Option.or_assoc]
    · rw [hthen.logon, hfirst.logon, logonAccounts_cons step steps, List.getLast?_append, Option.map_or, Option.or_assoc]

theorem usersBlock_mk (username password : String) :
    usersBlock (username, password) = renderUserAccounts username password := by
  unfold usersBlock
  rfl

theorem logonBlock_mk (username password : String) :
    logonBlock (username, password) = renderAutoLogon username password := by
  unfold logonBlock
  rfl

theorem logonBlock_injective : Function.Injective logonBlock := by
  intro account account' h
  unfold logonBlock at h
  obtain ⟨husername, hpassword⟩ := renderAutoLogon_inj h
  exact Prod.ext husername hpassword

theorem usersBlock_injective : Function.Injective usersBlock := by
  intro account account' h
  unfold usersBlock at h
  obtain ⟨husername, hpassword⟩ := renderUserAccounts_inj h
  exact Prod.ext husername hpassword

theorem logs_on_created_iff {sequence : SequenceDict} (h : compile resolver sequence = .ok out) :
    LogsOnCreated out ↔ LogonIsLast resolver sequence.steps := by
  obtain ⟨last, hlast, hout⟩ := map_ok.mp h
  have hafter := logonAfter_steps hlast
  have hblocks : out.unattendBlocks = last.unattendBlocks := by
    rw [← hout]
    unfold appendFinalRebootIfAutologon
    split <;> rfl
  have husers : out.unattendBlocks.lookup "oobe_user_accounts" =
      (adminAccounts resolver sequence.steps).getLast?.map usersBlock := by
    rw [hblocks, hafter.users]
    exact Option.or_none
  have hlogon : out.unattendBlocks.lookup "oobe_auto_logon" =
      (logonAccounts resolver sequence.steps).getLast?.map logonBlock := by
    rw [hblocks, hafter.logon]
    exact Option.or_none
  unfold LogsOnCreated LogonIsLast
  rw [husers, hlogon]
  constructor
  · intro hsame account haccount
    rw [Option.mem_def] at haccount
    obtain ⟨username, password, hrendered, hcreated⟩ :=
      hsame (logonBlock account) (by rw [haccount, Option.map_some])
    rw [← logonBlock_mk] at hrendered
    rw [← usersBlock_mk] at hcreated
    obtain ⟨created, hcreatedLast, hblock⟩ := Option.map_eq_some_iff.mp hcreated
    rw [hcreatedLast, usersBlock_injective hblock, logonBlock_injective hrendered]
  · intro hsame logon hlogonBlock
    obtain ⟨⟨username, password⟩, haccount, hrendered⟩ := Option.map_eq_some_iff.mp hlogonBlock
    refine ⟨username, password, ?_, ?_⟩
    · rw [← hrendered, logonBlock_mk]
    · rw [hsame _ haccount, Option.map_some, usersBlock_mk]

def twoAdmins : SequenceDict where
  id := 2
  steps := [
    { stepType := "local_admin", params := some (.obj [("credential_id", .int 1)]) },
    { stepType := "local_admin", params := some (.obj [("credential_id", .int 2), ("autologon", .bool false)]) }]

def storedAdmins : Resolver := fun id =>
  .ok (.obj [("username", .str (if id = 1 then "tech" else "admin")), ("password", .str "secret")])

theorem two_admins_apart : ∃ out, compile (some storedAdmins) twoAdmins = .ok out ∧ ¬ LogsOnCreated out := by
  refine ⟨_, rfl, fun h => ?_⟩
  obtain ⟨username, password, hlogon, husers⟩ := h (renderAutoLogon "tech" "secret") rfl
  obtain ⟨rfl, rfl⟩ := renderAutoLogon_inj hlogon
  have hcreated : renderUserAccounts "admin" "secret" = renderUserAccounts "tech" "secret" := Option.some.inj husers
  exact absurd (renderUserAccounts_inj hcreated).1 (by decide)

def oneAdmin : SequenceDict where
  id := 3
  steps := [{ stepType := "local_admin", params := some (.obj [("credential_id", .int 1)]) }]

theorem one_admin_logs_on : ∃ out, compile (some storedAdmins) oneAdmin = .ok out ∧
    (LogsOnCreated out ↔ LogonIsLast (some storedAdmins) oneAdmin.steps) := ⟨_, rfl, logs_on_created_iff rfl⟩

end Accounts

end ProxmoxVEAutopilot.Sequences
