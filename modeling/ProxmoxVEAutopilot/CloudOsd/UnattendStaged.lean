import ProxmoxVEAutopilot.CloudOsd.UnattendSlots
import ProxmoxVEAutopilot.Foundation.JsonText

/-!
# What staging the answer file amounts to

What the file holds afterwards, what it keeps, and that staging it again changes nothing.
-/

namespace ProxmoxVEAutopilot.CloudOsd.Unattend

open Foundation Foundation.Xml
open Agents (isBlank)

set_option autoImplicit false

/-! ### The documents that are staged well -/

def OrderApart (command : Node) (others : List Node) : Prop :=
  ∃ order, commandOrders command = [order] ∧ ∀ other ∈ others, ∀ o ∈ commandOrders other,
    o ≠ order ∧ ∀ n, tryParse o = some n → tryParse order ≠ some n

/-- The one first-boot command of `root` is a child of `runSynchronous`, with an order of its own. -/
def OneFirstBoot (root runSynchronous : Node) : Prop :=
  ∃ before command after, runSynchronous.children = before ++ command :: after ∧
    root.occurrences isFirstBoot = [command] ∧ OrderApart command (before ++ after)

def deploymentSel : Sel := componentSel "Microsoft-Windows-Deployment"
def shellSel : Sel := componentSel "Microsoft-Windows-Shell-Setup"

/-- The `RunSynchronous` that is looked into. -/
def runSynchronousOf (root : Node) : Option Node :=
  root.descend [settingsSel "specialize", deploymentSel, elementSel "RunSynchronous"]

/-- Whoever made the document left the first-boot command to the bridge, or has it where the
bridge looks; joins are where they belong. -/
structure Ready (package : Package) (root : Node) : Prop where
  elsewhere : root.occurrences isFirstBoot = (runSynchronousOf root).elim [] (Node.occurrences isFirstBoot)
  there : ∀ n, runSynchronousOf root = some n → hasSentinel n = true → OneFirstBoot n n
  absent : ∀ n, runSynchronousOf root = some n → hasSentinel n = false →
    n.occurrences isFirstBoot = [] ∧ ∀ o ∈ n.children.flatMap commandOrders, tryParse o ≠ some 2147483647
  joins : package.domainJoin.enabled = true → root.occurrences joinSel.picks =
    (root.descend [settingsSel "specialize"]).elim [] fun settings => settings.children.filter joinSel.picks

/-! ### What may change -/

def resetSpot (name : String) : Spot := { picks := (elementSel name).picks, kept := Reset }

def withinSpot (sel : Sel) (spots : List Spot) : Spot := { picks := sel.picks, kept := KeptBy spots }

def passwordSpot : Spot := withinSpot (elementSel "Password") [resetSpot "Value", resetSpot "PlainText"]

/-- Joins with the sentinel make place for the new one. -/
def withoutJoins (join : DomainJoin) (settings : Node) : Node :=
  if join.enabled then settings.withChildren (settings.children.filter fun n => !joinSel.picks n) else settings

def specializeSpot (join : DomainJoin) : Spot where
  picks := (settingsSel "specialize").picks
  kept n m := KeptBy
    [ withinSpot deploymentSel [withinSpot (elementSel "RunSynchronous") []],
      withinSpot shellSel [resetSpot "ComputerName"] ] (withoutJoins join n) m

def accountSpot (user : String) : Spot where
  picks n := (elementSel "LocalAccount").picks n && hasName user n
  kept := KeptBy [resetSpot "Name", resetSpot "Group", passwordSpot]

def oobeShellSpot (user : String) : Spot :=
  withinSpot shellSel
    [ withinSpot (elementSel "OOBE") (oobeEntries.map fun e => resetSpot e.1),
      withinSpot (elementSel "UserAccounts") [withinSpot (elementSel "LocalAccounts") [accountSpot user]],
      withinSpot (elementSel "AutoLogon")
        [resetSpot "Enabled", resetSpot "Username", passwordSpot, resetSpot "LogonCount"] ]

def oobeSystemSpot (package : Package) : Spot :=
  withinSpot (settingsSel "oobeSystem")
    ((if package.preserveAutopilotOobe then [] else [oobeShellSpot package.localAdmin.username]) ++
      [withinSpot (componentSel "Microsoft-Windows-International-Core") (localeEntries.map fun e => resetSpot e.1)])

def declared (root : Node) : Node :=
  match root with
  | .element tag children => .element (tag.set wcmDeclaration) children
  | same => same

/-! ### What is staged -/

/-- The text at the end of a path of first children. -/
def textAt (path : List Sel) (n : Node) : Option String := (n.descend path).map Node.innerText

structure Joined (join : DomainJoin) (component : Node) : Prop where
  domain : textAt [elementSel "Identification", elementSel "JoinDomain"] component = some join.domainFqdn
  credentialDomain : textAt [elementSel "Identification", elementSel "Credentials", elementSel "Domain"] component =
    some (if isBlank join.credentialDomain then join.domainFqdn else join.credentialDomain)
  username : textAt [elementSel "Identification", elementSel "Credentials", elementSel "Username"] component =
    some join.username
  password : textAt [elementSel "Identification", elementSel "Credentials", elementSel "Password"] component =
    some join.password
  ou : textAt [elementSel "Identification", elementSel "MachineObjectOU"] component =
    if isBlank join.ouPath then none else some join.ouPath

def oobeShellPath : List Sel := [settingsSel "oobeSystem", shellSel]

structure Staged (xpath : XPath) (folds : Char → Bool) (package : Package) (old new : Node) : Prop where
  firstBoot : ∃ n, runSynchronousOf new = some n ∧ OneFirstBoot new n
  join : package.domainJoin.enabled = true → ∃ component,
    new.occurrences joinSel.picks = [component] ∧ Joined package.domainJoin component
  computerName : ∀ name, convertToWindowsComputerName folds package.computerName = some name →
    textAt [settingsSel "specialize", shellSel, elementSel "ComputerName"] new = some name
  autoLogon : package.preserveAutopilotOobe = false →
    textAt (oobeShellPath ++ [elementSel "AutoLogon", elementSel "Username"]) new = some package.localAdmin.username ∧
    textAt (oobeShellPath ++ [elementSel "AutoLogon", elementSel "Password", elementSel "Value"]) new =
      some package.localAdmin.password ∧
    ∃ accounts, new.descend (oobeShellPath ++ [elementSel "UserAccounts", elementSel "LocalAccounts"]) = some accounts ∧
      ∃ account ∈ accounts.children, (elementSel "LocalAccount").picks account = true ∧
        textAt [elementSel "Name"] account = some package.localAdmin.username ∧
        textAt [elementSel "Password", elementSel "Value"] account = some package.localAdmin.password
  kept : KeptBy [specializeSpot package.domainJoin, oobeSystemSpot package] (declared old) new
  again : ∀ random, addSpecializeUnattend xpath folds random package (some new) = .ok new

/-! ### Orders -/

theorem isWhite_of_isDigit {c : Char} (h : c.isDigit = true) : isWhite c = false := by
  have hrange : 48 ≤ c.toNat := by
    simp only [Char.isDigit, Bool.and_eq_true, decide_eq_true_eq, UInt32.le_iff_toNat_le, ge_iff_le] at h
    exact h.1
  unfold isWhite
  rw [Bool.or_eq_false_iff, beq_eq_false_iff_ne]
  constructor
  · rintro rfl
    exact absurd hrange (by decide)
  · rw [Bool.and_eq_false_iff, decide_eq_false_iff_not, decide_eq_false_iff_not]
    right
    omega

theorem tryParse_le {text : String} {n : Int} (h : tryParse text = some n) : n ≤ 2147483647 := by
  obtain ⟨hrange, hvalue⟩ := Option.ite_none_right_eq_some.mp h
  rw [← Option.some.inj hvalue]
  exact hrange.2.2.2

theorem signedDigits_digits {digits : List Char} (h : ∀ c ∈ digits, c.isDigit = true) :
    signedDigits digits = (false, digits) := by
  unfold signedDigits
  split
  · have := h '-' List.mem_cons_self
    cases this
  · have := h '+' List.mem_cons_self
    cases this
  · rfl

theorem tryParse_toString {n : Nat} (h : (n : Int) ≤ 2147483647) : tryParse (toString (n : Int)) = some (n : Int) := by
  have hdigits := JsonText.toDigits_digits n
  have htext : (toString (n : Int)).toList = Nat.toDigits 10 n := Nat.toList_repr
  have htrim : trimmed isWhite (Nat.toDigits 10 n) = Nat.toDigits 10 n :=
    trimmed_of_ends (fun c hc => isWhite_of_isDigit (hdigits c (List.mem_of_head? hc)))
      (fun c hc => isWhite_of_isDigit (hdigits c (List.mem_of_getLast? hc)))
  unfold tryParse
  rw [htext, htrim, signedDigits_digits hdigits]
  dsimp only
  rw [if_neg Bool.false_ne_true, Nat.ofDigitChars_ten_toDigits,
    if_pos ⟨Nat.toDigits_ne_nil, List.all_eq_true.mpr hdigits, by omega, h⟩]

theorem orderAfter_spec (order : Int) (text : String) :
    order ≤ orderAfter order text ∧ (∀ k, tryParse text = some k → k < orderAfter order text) ∧
      ∀ bound, order ≤ bound → (∀ k, tryParse text = some k → k < bound) → orderAfter order text ≤ bound := by
  unfold orderAfter
  cases hparse : tryParse text with
  | none =>
    refine ⟨Int.le_refl _, ?_, fun _ hbound _ => hbound⟩
    intro k hk
    cases hk
  | some parsed =>
    dsimp only
    refine ⟨by split <;> omega, ?_, ?_⟩
    · intro k hk
      cases hk
      split <;> omega
    · intro bound hbound hall
      have := hall parsed rfl
      split <;> omega

theorem nextOrder_spec (children : List Node) :
    1 ≤ nextOrder children ∧
      (∀ o ∈ children.flatMap commandOrders, ∀ k, tryParse o = some k → k < nextOrder children) ∧
      ∀ bound, 1 ≤ bound → (∀ o ∈ children.flatMap commandOrders, ∀ k, tryParse o = some k → k < bound) →
        nextOrder children ≤ bound := by
  unfold nextOrder
  generalize children.flatMap commandOrders = orders
  generalize (1 : Int) = start
  induction orders generalizing start with
  | nil =>
    refine ⟨Int.le_refl _, ?_, fun _ hbound _ => hbound⟩
    intro o ho
    cases ho
  | cons o rest ih =>
    obtain ⟨hnext, hparsed, hbelow⟩ := orderAfter_spec start o
    obtain ⟨hstart, habove, hleast⟩ := ih (orderAfter start o)
    rw [List.foldl_cons]
    refine ⟨hnext.trans hstart, ?_, ?_⟩
    · intro r hr k hk
      rcases List.mem_cons.mp hr with rfl | hr
      · exact (hparsed k hk).trans_le hstart
      · exact habove r hr k hk
    · intro bound hbound hall
      exact hleast bound (hbelow bound hbound (hall o List.mem_cons_self)) fun r hr =>
        hall r (List.mem_cons_of_mem _ hr)

/-- The new command's order is above all that fit an integer, if none is the largest of these. -/
theorem orderApart_firstBootCommand {children : List Node}
    (h : ∀ o ∈ children.flatMap commandOrders, tryParse o ≠ some 2147483647) :
    OrderApart (firstBootCommand (nextOrder children)) children := by
  obtain ⟨hone, habove, hleast⟩ := nextOrder_spec children
  have hle : nextOrder children ≤ 2147483647 := by
    refine hleast _ (by decide) fun o ho k hk => ?_
    have hmax := tryParse_le hk
    have hne : k ≠ 2147483647 := by
      rintro rfl
      exact h o ho hk
    omega
  obtain ⟨n, hn⟩ := Int.eq_ofNat_of_zero_le (by omega : 0 ≤ nextOrder children)
  have hparse : tryParse (toString (nextOrder children)) = some (nextOrder children) := by
    rw [hn] at hle ⊢
    exact tryParse_toString hle
  refine ⟨toString (nextOrder children), ?_, fun other hother o ho => ?_⟩
  · change [toString (nextOrder children) ++ ""] = _
    rw [String.append_empty]
  · have hlt := habove o (List.mem_flatMap.mpr ⟨other, hother, ho⟩)
    constructor
    · rintro rfl
      exact Int.lt_irrefl _ (hlt _ hparse)
    · intro k hk hsame
      rw [hparse] at hsame
      cases hsame
      exact Int.lt_irrefl _ (hlt _ hk)

end ProxmoxVEAutopilot.CloudOsd.Unattend
