import ProxmoxVEAutopilot.CloudOsd.JoinSecrets
import ProxmoxVEAutopilot.Foundation.Literals
import ProxmoxVEAutopilot.Sequences.LogonCommands

/-!
# Values in the literals of a script

PowerShell reads five quotes alike and the escapers double one of them. A value of the join
script or of the module script stays in its literal exactly as long as the other four do not
occur in it.
-/

namespace ProxmoxVEAutopilot.CloudOsd

open Foundation Sequences
set_option autoImplicit false

def psQuote (value : String) : String :=
  String.ofList (value.toList.flatMap fun c => if c = '\'' then ['\'', '\''] else [c])

def encodePowershell (script : String) : String := String.ofList (standard.encode (utf16le script))

def joinTemplate (withOu : Bool) (username password domain ouPath : String) : String :=
  "$ErrorActionPreference='Stop';" ++
  "$pw = ConvertTo-SecureString ([Text.Encoding]::Unicode.GetString(" ++
  "[Convert]::FromBase64String('" ++ encodePowershell password ++ "'))) -AsPlainText -Force;" ++
  "$c = New-Object System.Management.Automation.PSCredential('" ++ psQuote username ++ "',$pw);" ++
  "Add-Computer -DomainName '" ++ psQuote domain ++ "'" ++
  (if withOu then " -OUPath '" ++ psQuote ouPath ++ "'" else "") ++ " -Credential $c -Force;" ++
  "Write-Output 'JOIN_OK'"

def buildJoinPowershell (username password domain ouPath : String) : String :=
  joinTemplate (ouPath != "") username password domain ouPath

/-- The quotes that PowerShell does not tell apart from the apostrophe. -/
def typographic : List Char := ['\u2018', '\u2019', '\u201A', '\u201B']

/-- Single-quoted literals as PowerShell reads them and as both escapers write them. -/
def powershell : Quoting where
  quote c := decide (c ∈ '\'' :: typographic)
  doubled c := decide (c = '\'')
  mark := '\''
  doubled_mark := rfl
  quote_of_doubled := fun c hc => by
    rw [decide_eq_true_eq] at hc ⊢
    exact hc ▸ List.mem_cons_self ..

inductive TokenKind where
  | code (c : Char)
  | literal
deriving DecidableEq, Repr

def kinds (t : Quoting.Tokens) : List TokenKind :=
  t.1.map .code ++ t.2.flatMap fun piece => .literal :: piece.2.map .code

def statements (t : Quoting.Tokens) : Nat := (kinds t).count (.code ';') + 1

/-- The script has the tokens and statements of the blank one, and its literals are these. -/
def Whole (script blank : String) (values : List String) : Prop :=
  ∃ t b, powershell.tokens script.toList = some t ∧ powershell.tokens blank.toList = some b ∧
    kinds t = kinds b ∧ statements t = statements b ∧ t.literals = values.map String.toList

def Plain (value : String) : Prop := ∀ c ∈ typographic, c ∉ value.toList

instance (value : String) : Decidable (Plain value) :=
  inferInstanceAs (Decidable (∀ c ∈ typographic, c ∉ value.toList))

section Escapers

theorem safe_iff_plain {value : String} : powershell.Safe value.toList ↔ Plain value := by
  constructor
  · intro hsafe c hc hmem
    have hmark : c = '\'' := of_decide_eq_true (hsafe c hmem (decide_eq_true (List.mem_cons_of_mem _ hc)))
    rw [hmark] at hc
    exact absurd hc (by decide)
  · intro hplain c hmem hquote
    rcases List.mem_cons.mp (of_decide_eq_true hquote) with hc | hc
    · exact decide_eq_true hc
    · exact absurd hmem (hplain c hc)

theorem toList_psQuote (value : String) : (psQuote value).toList = powershell.escape value.toList := by
  have hcases : (fun c : Char => if c = '\'' then ['\'', '\''] else [c]) =
      fun c => if powershell.doubled c then [c, c] else [c] := by
    funext c
    by_cases hc : c = '\''
    · subst hc
      rfl
    · have hdoubled : powershell.doubled c = false := decide_eq_false hc
      rw [if_neg hc, if_neg (by rw [hdoubled]; decide)]
  unfold psQuote Quoting.escape
  rw [String.toList_ofList, hcases]

theorem psQuote_eq_self {value : String} (h : ∀ c ∈ value.toList, powershell.quote c = false) :
    psQuote value = value := by
  refine String.toList_inj.mp ?_
  rw [toList_psQuote, Quoting.escape_eq_self h]

theorem psEscape_eq_psQuote (value : String) : psEscape value = psQuote value := rfl

theorem quote_encodePowershell (script : String) :
    ∀ c ∈ (encodePowershell script).toList, powershell.quote c = false := by
  intro c hmem
  unfold encodePowershell at hmem
  rw [String.toList_ofList] at hmem
  rcases List.mem_append.mp hmem with hmem | hmem
  · obtain ⟨n, hn, rfl⟩ := standard.mem_encodeBare hmem
    have hnone : ∀ n < 64, powershell.quote (standard.letter n) = false := by decide
    exact hnone n hn
  · rw [List.eq_of_mem_replicate hmem]
    decide

theorem plain_of_unquoted {value : String} (h : value.toList.all (fun c => !powershell.quote c) = true) : Plain value := by
  refine safe_iff_plain.mp fun c hc hquote => ?_
  have hclean := List.all_eq_true.mp h c hc
  rw [hquote] at hclean
  cases hclean

theorem encodePowershell_plain (script : String) : Plain (encodePowershell script) := by
  refine safe_iff_plain.mp fun c hc hquote => ?_
  rw [quote_encodePowershell script c hc] at hquote
  cases hquote

end Escapers

section Scripts
variable {first : String} {texts values blanks : List String}

/-- The code in front, and each value in its literal with the code behind it. -/
def scriptOf (first : String) : List String → List String → String
  | text :: texts, value :: values => first ++ ("'" ++ (psQuote value ++ ("'" ++ scriptOf text texts values)))
  | _, _ => first

def pieces (texts values : List String) : List (List Char × List Char) :=
  (values.map String.toList).zip (texts.map String.toList)

def unquoted (text : String) : Bool := text.toList.all fun c => !powershell.quote c

theorem unquoted_append (s t : String) : unquoted (s ++ t) = (unquoted s && unquoted t) := by
  unfold unquoted
  rw [String.toList_append, List.all_append]

theorem unquoted_literal {cs : List Char} (h : cs.all (fun c => !powershell.quote c) = true) :
    unquoted (String.ofList cs) = true := by
  unfold unquoted
  rw [String.toList_ofList, h]

theorem psQuote_of_unquoted {value : String} (h : unquoted value = true) : psQuote value = value :=
  psQuote_eq_self fun c hc => (Bool.not_eq_true' _).mp (List.all_eq_true.mp h c hc)

theorem literal_append {cs ds es : List Char} (h : cs = ds ++ es) :
    String.ofList cs = String.ofList ds ++ String.ofList es := by
  rw [h, String.ofList_append]

theorem literal_append_append {cs ds es fs : List Char} (h : cs = ds ++ es ++ fs) :
    String.ofList cs = String.ofList ds ++ String.ofList es ++ String.ofList fs := by
  rw [h, String.ofList_append, String.ofList_append]

theorem toList_scriptOf (first : String) (texts values : List String) :
    (scriptOf first texts values).toList = powershell.render (first.toList, pieces texts values) := by
  induction texts generalizing first values with
  | nil =>
    have hnone : pieces [] values = [] := List.zip_nil_right
    rw [hnone]
    exact (List.append_nil first.toList).symm
  | cons text texts ih =>
    cases values with
    | nil => exact (List.append_nil first.toList).symm
    | cons value values =>
      have hpieces : pieces (text :: texts) (value :: values) = (value.toList, text.toList) :: pieces texts values := rfl
      rw [hpieces, Quoting.render_cons, ← ih, ← toList_psQuote]
      simp only [scriptOf, String.toList_append]
      rfl

theorem map_snd_pieces (hlength : texts.length = values.length) :
    (pieces texts values).map Prod.snd = texts.map String.toList :=
  List.map_snd_zip (by rw [List.length_map, List.length_map, hlength])

theorem map_fst_pieces (hlength : texts.length = values.length) :
    (pieces texts values).map Prod.fst = values.map String.toList :=
  List.map_fst_zip (by rw [List.length_map, List.length_map, hlength])

theorem separated_pieces (hlength : texts.length = values.length) (hcode : (first :: texts).all unquoted = true)
    (hbetween : "" ∉ texts.dropLast) : powershell.Separated (first.toList, pieces texts values) := by
  refine Quoting.separated_of_texts (map_snd_pieces hlength) ?_ ?_
  · intro text htext c hc
    rw [← List.map_cons (f := String.toList)] at htext
    obtain ⟨text, hmem, rfl⟩ := List.mem_map.mp htext
    have hclean : (!powershell.quote c) = true := List.all_eq_true.mp (List.all_eq_true.mp hcode text hmem) c hc
    exact (Bool.not_eq_true' _).mp hclean
  · intro text htext hnil
    rw [← List.map_dropLast] at htext
    obtain ⟨text, hmem, rfl⟩ := List.mem_map.mp htext
    rw [String.toList_eq_nil_iff.mp hnil] at hmem
    exact hbetween hmem

theorem kinds_pieces (hlength : texts.length = values.length) : kinds (first.toList, pieces texts values) =
    first.toList.map .code ++ (texts.map String.toList).flatMap fun text => .literal :: text.map .code := by
  unfold kinds
  rw [← map_snd_pieces hlength, List.flatMap_map]

/-- A script is whole exactly when its values are plain, given that those of the blank one are. -/
theorem whole_iff (hlength : texts.length = values.length) (hblanks : texts.length = blanks.length)
    (hcode : (first :: texts).all unquoted = true) (hbetween : "" ∉ texts.dropLast)
    (hplain : ∀ blank ∈ blanks, Plain blank) :
    Whole (scriptOf first texts values) (scriptOf first texts blanks) values ↔ ∀ value ∈ values, Plain value := by
  have hliterals : Quoting.Tokens.literals (first.toList, pieces texts values) = values.map String.toList :=
    map_fst_pieces hlength
  have hliteralsBlank : Quoting.Tokens.literals (first.toList, pieces texts blanks) = blanks.map String.toList :=
    map_fst_pieces hblanks
  have hsame : kinds (first.toList, pieces texts values) = kinds (first.toList, pieces texts blanks) := by
    rw [kinds_pieces hlength, kinds_pieces hblanks]
  have hsep := separated_pieces hlength hcode hbetween
  have hsepBlank := separated_pieces hblanks hcode hbetween
  constructor
  · rintro ⟨got, _, hgot, _, _, _, hread⟩ value hvalue
    rw [toList_scriptOf] at hgot
    refine safe_iff_plain.mp ((Quoting.literals_render_iff hsep).mp ?_ value.toList ?_)
    · rw [hgot, Option.map_some, hread, hliterals]
    · rw [hliterals]
      exact List.mem_map_of_mem hvalue
  · intro hall
    refine ⟨_, _, ?_, ?_, hsame, congrArg (fun k => k.count (.code ';') + 1) hsame, hliterals⟩
    · rw [toList_scriptOf]
      refine Quoting.tokens_render hsep fun v hv => ?_
      rw [hliterals] at hv
      obtain ⟨value, hvalue, rfl⟩ := List.mem_map.mp hv
      exact safe_iff_plain.mpr (hall value hvalue)
    · rw [toList_scriptOf]
      refine Quoting.tokens_render hsepBlank fun v hv => ?_
      rw [hliteralsBlank] at hv
      obtain ⟨value, hvalue, rfl⟩ := List.mem_map.mp hv
      exact safe_iff_plain.mpr (hplain value hvalue)

end Scripts

section Join
variable {withOu : Bool} {username password domain ouPath : String}

def joinTexts (withOu : Bool) : List String :=
  [";" ++ "$pw = ConvertTo-SecureString ([Text.Encoding]::Unicode.GetString(" ++ "[Convert]::FromBase64String(",
    "))) -AsPlainText -Force;" ++ "$c = New-Object System.Management.Automation.PSCredential(",
    ",$pw);" ++ "Add-Computer -DomainName "] ++
  (if withOu then [" -OUPath "] else []) ++ [" -Credential $c -Force;" ++ "Write-Output ", ""]

def joinValues (withOu : Bool) (username password domain ouPath : String) : List String :=
  ["Stop", encodePowershell password, username, domain] ++ (if withOu then [ouPath] else []) ++ ["JOIN_OK"]

theorem joinTemplate_eq : joinTemplate withOu username password domain ouPath =
    scriptOf "$ErrorActionPreference=" (joinTexts withOu) (joinValues withOu username password domain ouPath) := by
  have hstop : psQuote "Stop" = "Stop" := psQuote_of_unquoted (unquoted_literal rfl)
  have hok : psQuote "JOIN_OK" = "JOIN_OK" := psQuote_of_unquoted (unquoted_literal rfl)
  have hpassword := psQuote_eq_self (quote_encodePowershell password)
  have hpreference : "$ErrorActionPreference='Stop';" = "$ErrorActionPreference=" ++ "'" ++ "Stop';" :=
    literal_append_append rfl
  have hstopped : "Stop';" = "Stop" ++ "'" ++ ";" := literal_append_append rfl
  have h1 : "[Convert]::FromBase64String('" = "[Convert]::FromBase64String(" ++ "'" := literal_append rfl
  have h2 : "'))) -AsPlainText -Force;" = "'" ++ "))) -AsPlainText -Force;" := literal_append rfl
  have h3 : "$c = New-Object System.Management.Automation.PSCredential('" =
    "$c = New-Object System.Management.Automation.PSCredential(" ++ "'" := literal_append rfl
  have h4 : "',$pw);" = "'" ++ ",$pw);" := literal_append rfl
  have h5 : "Add-Computer -DomainName '" = "Add-Computer -DomainName " ++ "'" := literal_append rfl
  have h6 : " -OUPath '" = " -OUPath " ++ "'" := literal_append rfl
  have hwrite : "Write-Output 'JOIN_OK'" = "Write-Output " ++ "'" ++ "JOIN_OK'" := literal_append_append rfl
  have hjoined : "JOIN_OK'" = "JOIN_OK" ++ "'" := literal_append rfl
  unfold joinTemplate
  rewrite [hpreference, hstopped, h1, h2, h3, h4, h5, h6, hwrite, hjoined]
  cases withOu with
  | true => simp only [joinTexts, joinValues, scriptOf, hstop, hok, hpassword, if_true, List.cons_append, List.nil_append,
      String.append_assoc, String.append_empty]
  | false => simp only [joinTexts, joinValues, scriptOf, hstop, hok, hpassword, Bool.false_eq_true, if_false,
      List.cons_append, List.nil_append, String.append_assoc, String.append_empty]

theorem length_joinTexts (withOu : Bool) (username password domain ouPath : String) :
    (joinTexts withOu).length = (joinValues withOu username password domain ouPath).length := by
  unfold joinTexts joinValues
  cases withOu <;> simp only [Bool.false_eq_true, if_true, if_false, List.length_append, List.length_cons, List.length_nil]

theorem plain_joinValues_iff : (∀ value ∈ joinValues withOu username password domain ouPath, Plain value) ↔
    Plain username ∧ Plain domain ∧ (withOu = true → Plain ouPath) := by
  have hstop : Plain "Stop" := plain_of_unquoted (unquoted_literal rfl)
  have hok : Plain "JOIN_OK" := plain_of_unquoted (unquoted_literal rfl)
  have hpassword := encodePowershell_plain password
  cases withOu with
  | true => simp [joinValues, hstop, hok, hpassword]
  | false => simp [joinValues, hstop, hok, hpassword]

theorem join_whole_iff (withOu : Bool) (username password domain ouPath : String) :
    Whole (joinTemplate withOu username password domain ouPath) (joinTemplate withOu "" "" "" "")
      (joinValues withOu username password domain ouPath) ↔
    Plain username ∧ Plain domain ∧ (withOu = true → Plain ouPath) := by
  have hempty : Plain "" := fun _ _ => List.not_mem_nil
  have hcode : ("$ErrorActionPreference=" :: joinTexts withOu).all unquoted = true := by
    cases withOu <;> simp only [joinTexts, List.cons_append, List.nil_append, if_true, Bool.false_eq_true, if_false,
      List.all_cons, List.all_nil, unquoted_append, Bool.and_eq_true, -String.reduceAppend] <;>
      repeat' first | apply And.intro | exact unquoted_literal (by decide +kernel) | trivial
  have hbetween : "" ∉ (joinTexts withOu).dropLast := by
    cases withOu <;> simp [joinTexts]
  have hplain : (∀ value ∈ joinValues withOu username password domain ouPath, Plain value) ↔
      Plain username ∧ Plain domain ∧ (withOu = true → Plain ouPath) := plain_joinValues_iff
  rw [← hplain, joinTemplate_eq, joinTemplate_eq]
  refine whole_iff (length_joinTexts ..) (length_joinTexts ..) hcode hbetween ?_
  exact plain_joinValues_iff.mpr ⟨hempty, hempty, fun _ => hempty⟩

end Join

section Module
variable {withVersion : Bool} {module repository scope version : String}

/-- The module script around the values, with or without the version. -/
def installTemplate (withVersion : Bool) (module repository scope version : String) : String :=
  "; ".intercalate [
    "[Net.ServicePointManager]::SecurityProtocol = [Net.ServicePointManager]::SecurityProtocol -bor " ++
      "[Net.SecurityProtocolType]::Tls12",
    "if ((Get-PSRepository -Name '" ++ psEscape repository ++
      "' -ErrorAction SilentlyContinue).InstallationPolicy -ne 'Trusted') \x7b " ++
      "Set-PSRepository -Name '" ++ psEscape repository ++ "' -InstallationPolicy Trusted \x7d",
    "if (-not (Get-PackageProvider -Name NuGet -ErrorAction SilentlyContinue)) \x7b " ++
      "Install-PackageProvider -Name NuGet -Force -Scope AllUsers | Out-Null \x7d",
    "Install-Module -Name '" ++ psEscape module ++ "' -Repository '" ++ psEscape repository ++ "' -Scope '" ++
      psEscape scope ++ "' -Force -AllowClobber" ++
      (if withVersion then " -RequiredVersion '" ++ psEscape version ++ "'" else "")]

theorem installModuleScript_eq : installModuleScript module repository scope version =
    installTemplate (version != "") module repository scope version := by
  unfold installModuleScript installTemplate
  by_cases h : version = "" <;> simp [h]

def installFirst : String :=
  "[Net.ServicePointManager]::SecurityProtocol = [Net.ServicePointManager]::SecurityProtocol -bor " ++
    "[Net.SecurityProtocolType]::Tls12" ++ "; " ++ "if ((Get-PSRepository -Name "

def installTexts (withVersion : Bool) : List String :=
  [" -ErrorAction SilentlyContinue).InstallationPolicy -ne ", ") \x7b " ++ "Set-PSRepository -Name ",
    " -InstallationPolicy Trusted \x7d" ++ "; " ++
      "if (-not (Get-PackageProvider -Name NuGet -ErrorAction SilentlyContinue)) \x7b " ++
      "Install-PackageProvider -Name NuGet -Force -Scope AllUsers | Out-Null \x7d" ++ "; " ++
      "Install-Module -Name ", " -Repository ", " -Scope "] ++
  (if withVersion then [" -Force -AllowClobber" ++ " -RequiredVersion ", ""] else [" -Force -AllowClobber"])

def installValues (withVersion : Bool) (module repository scope version : String) : List String :=
  [repository, "Trusted", repository, module, repository, scope] ++ (if withVersion then [version] else [])

theorem joined (a b c d : String) : "; ".intercalate [a, b, c, d] = a ++ ("; " ++ (b ++ ("; " ++ (c ++ ("; " ++ d))))) := by
  simp only [String.intercalate_cons_cons, String.intercalate_singleton, String.append_assoc]

theorem installTemplate_eq : installTemplate withVersion module repository scope version =
    scriptOf installFirst (installTexts withVersion) (installValues withVersion module repository scope version) := by
  have htrusted : psQuote "Trusted" = "Trusted" := psQuote_of_unquoted (unquoted_literal rfl)
  have h1 : "if ((Get-PSRepository -Name '" = "if ((Get-PSRepository -Name " ++ "'" := literal_append rfl
  have hpolicy : "' -ErrorAction SilentlyContinue).InstallationPolicy -ne 'Trusted') \x7b " =
    "'" ++ " -ErrorAction SilentlyContinue).InstallationPolicy -ne " ++ "'Trusted') \x7b " := literal_append_append rfl
  have hquoted : "'Trusted') \x7b " = "'" ++ "Trusted" ++ "') \x7b " := literal_append_append rfl
  have hbehind : "') \x7b " = "'" ++ ") \x7b " := literal_append rfl
  have h2 : "Set-PSRepository -Name '" = "Set-PSRepository -Name " ++ "'" := literal_append rfl
  have h3 : "' -InstallationPolicy Trusted \x7d" = "'" ++ " -InstallationPolicy Trusted \x7d" := literal_append rfl
  have h4 : "Install-Module -Name '" = "Install-Module -Name " ++ "'" := literal_append rfl
  have h5 : "' -Repository '" = "'" ++ " -Repository " ++ "'" := literal_append_append rfl
  have h6 : "' -Scope '" = "'" ++ " -Scope " ++ "'" := literal_append_append rfl
  have h7 : "' -Force -AllowClobber" = "'" ++ " -Force -AllowClobber" := literal_append rfl
  have h8 : " -RequiredVersion '" = " -RequiredVersion " ++ "'" := literal_append rfl
  unfold installTemplate installFirst
  rewrite [joined, h1, hpolicy, hquoted, hbehind, h2, h3, h4, h5, h6, h7, h8]
  cases withVersion with
  | true => simp only [installTexts, installValues, scriptOf, htrusted, psEscape_eq_psQuote, if_true, List.cons_append,
      List.nil_append, String.append_assoc, String.append_empty]
  | false => simp only [installTexts, installValues, scriptOf, htrusted, psEscape_eq_psQuote, Bool.false_eq_true, if_false,
      List.cons_append, List.nil_append, String.append_assoc, String.append_empty]

theorem length_installTexts (withVersion : Bool) (module repository scope version : String) :
    (installTexts withVersion).length = (installValues withVersion module repository scope version).length := by
  unfold installTexts installValues
  cases withVersion <;> simp only [Bool.false_eq_true, if_true, if_false, List.length_append, List.length_cons,
    List.length_nil]

theorem plain_installValues_iff : (∀ value ∈ installValues withVersion module repository scope version, Plain value) ↔
    Plain module ∧ Plain repository ∧ Plain scope ∧ (withVersion = true → Plain version) := by
  have htrusted : Plain "Trusted" := plain_of_unquoted (unquoted_literal rfl)
  cases withVersion with
  | true =>
    simp only [installValues, if_true, List.cons_append, List.nil_append, List.forall_mem_cons]
    exact ⟨fun h => ⟨h.2.2.2.1, h.1, h.2.2.2.2.2.1, fun _ => h.2.2.2.2.2.2.1⟩,
      fun h => ⟨h.2.1, htrusted, h.2.1, h.1, h.2.1, h.2.2.1, h.2.2.2 trivial, fun _ hx => absurd hx List.not_mem_nil⟩⟩
  | false =>
    simp only [installValues, Bool.false_eq_true, if_false, List.append_nil, List.forall_mem_cons]
    exact ⟨fun h => ⟨h.2.2.2.1, h.1, h.2.2.2.2.2.1, False.elim⟩,
      fun h => ⟨h.2.1, htrusted, h.2.1, h.1, h.2.1, h.2.2.1, fun _ hx => absurd hx List.not_mem_nil⟩⟩

theorem install_whole_iff (withVersion : Bool) (module repository scope version : String) :
    Whole (installTemplate withVersion module repository scope version) (installTemplate withVersion "" "" "" "")
      (installValues withVersion module repository scope version) ↔
    Plain module ∧ Plain repository ∧ Plain scope ∧ (withVersion = true → Plain version) := by
  have hempty : Plain "" := fun _ _ => List.not_mem_nil
  have hcode : (installFirst :: installTexts withVersion).all unquoted = true := by
    unfold installFirst
    cases withVersion <;> simp only [installTexts, List.cons_append, List.nil_append, if_true, Bool.false_eq_true, if_false,
      List.all_cons, List.all_nil, unquoted_append, Bool.and_eq_true, -String.reduceAppend] <;>
      repeat' first | apply And.intro | exact unquoted_literal (by decide +kernel) | trivial
  have hbetween : "" ∉ (installTexts withVersion).dropLast := by
    cases withVersion <;> simp [installTexts]
  rw [← plain_installValues_iff, installTemplate_eq, installTemplate_eq]
  refine whole_iff (length_installTexts ..) (length_installTexts ..) hcode hbetween ?_
  exact plain_installValues_iff.mpr ⟨hempty, hempty, hempty, fun _ => hempty⟩

end Module

section Claims
variable {username password domain ouPath module repository scope version : String} {out : CompiledSequence}

def JoinWhole (username password domain ouPath : String) : Prop :=
  Whole (buildJoinPowershell username password domain ouPath) (joinTemplate (ouPath != "") "" "" "" "")
    (joinValues (ouPath != "") username password domain ouPath) ∧
  decodePsCommand (encodePowershell password) = some password

def installParams (module repository scope version : String) : Json :=
  .obj [("module", .str module), ("repository", .str repository), ("scope", .str scope), ("version", .str version)]

def orDefault (default value : String) : String := if strip value ≠ "" then strip value else default

/-- The command that the handler adds runs a script that is whole. -/
def InstallWhole (out : CompiledSequence) (module repository scope version : String) : Prop :=
  ∀ out', handleInstallModule (installParams module repository scope version) out = .ok out' →
    ∃ script, out'.firstLogonCommands.map LogonCommand.command =
        out.firstLogonCommands.map LogonCommand.command ++ [encodedCommand script] ∧
      Whole script (installTemplate (strip version != "") "" "" "" "")
        (installValues (strip version != "") (strip module) (orDefault "PSGallery" repository)
          (orDefault "AllUsers" scope) (strip version))

theorem encodedCommand_injective {s t : String} (h : encodedCommand s = encodedCommand t) : s = t := by
  have hpayload : encodePsCommand s = encodePsCommand t := (String.append_right_inj _).mp h
  have hdecoded := decode_encodePsCommand s
  rw [hpayload, decode_encodePsCommand] at hdecoded
  exact (Option.some.inj hdecoded).symm

theorem plain_strip {value : String} : Plain (strip value) ↔ Plain value := by
  constructor
  · intro h c hc hmem
    have hspace : isSpace c = false := by
      have hall : (typographic.all fun c => !isSpace c) = true := by decide +kernel
      exact (Bool.not_eq_true' _).mp (List.all_eq_true.mp hall c hc)
    exact h c hc (by
      rw [toList_strip]
      exact mem_trimmed hmem hspace)
  · intro h c hc hmem
    rw [toList_strip] at hmem
    exact h c hc (of_mem_trimmed hmem)

theorem plain_orDefault {default value : String} (h : Plain default) : Plain (orDefault default value) ↔ Plain value := by
  unfold orDefault
  split
  · exact plain_strip
  · rename_i hnone
    have hvalue : Plain (strip value) ↔ Plain value := plain_strip
    rw [← hvalue, not_not.mp hnone]
    exact iff_of_true h fun _ _ => List.not_mem_nil

theorem stripped_str (value : String) : stripped (.str value) = .ok (strip value) := by
  by_cases hvalue : value = ""
  · subst hvalue
    rfl
  · have htruthy : (Json.str value).truthy = true := by simpa [Json.truthy] using hvalue
    unfold stripped textOr
    rw [if_pos htruthy]
    rfl

theorem handleInstallModule_ok (hmodule : strip module ≠ "") :
    ∃ description, handleInstallModule (installParams module repository scope version) out = .ok { out with
      firstLogonCommands := out.firstLogonCommands ++ [⟨encodedCommand (installModuleScript (strip module)
        (orDefault "PSGallery" repository) (orDefault "AllUsers" scope) (strip version)), description⟩] } := by
  refine ⟨"Install-Module " ++ strip module ++ (if strip version ≠ "" then " " ++ strip version else ""), ?_⟩
  unfold handleInstallModule
  simp [installParams, getItem, List.lookup, stripped_str, raising, Except.mapError, hmodule, orDefault, bind, Except.bind,
    pure, Except.pure]

theorem handleInstallModule_empty (hmodule : strip module = "") :
    handleInstallModule (installParams module repository scope version) out = .error .emptyModule := by
  unfold handleInstallModule
  simp [installParams, getItem, List.lookup, stripped_str, raising, Except.mapError, hmodule, bind, Except.bind]

theorem installWhole_iff (hmodule : strip module ≠ "") : InstallWhole out module repository scope version ↔
    Whole (installTemplate (strip version != "") (strip module) (orDefault "PSGallery" repository)
      (orDefault "AllUsers" scope) (strip version)) (installTemplate (strip version != "") "" "" "" "")
      (installValues (strip version != "") (strip module) (orDefault "PSGallery" repository)
        (orDefault "AllUsers" scope) (strip version)) := by
  obtain ⟨description, hok⟩ := @handleInstallModule_ok module repository scope version out hmodule
  constructor
  · intro h
    obtain ⟨script, hcommands, hwhole⟩ := h _ hok
    rw [List.map_append, List.append_cancel_left_eq] at hcommands
    have hscript := encodedCommand_injective (List.cons.inj hcommands).1
    rwa [← hscript, installModuleScript_eq] at hwhole
  · intro hwhole out' hout
    rw [hok] at hout
    obtain rfl := Except.ok.inj hout
    refine ⟨_, List.map_append, ?_⟩
    rwa [installModuleScript_eq]

theorem not_ne_iff_plain {value : String} : ((value != "") = true → Plain value) ↔ Plain value := by
  constructor
  · intro h
    by_cases hvalue : value = ""
    · subst hvalue
      exact fun _ _ => List.not_mem_nil
    · exact h (bne_iff_ne.mpr hvalue)
  · exact fun h _ => h

/-- No value leaves its literal exactly when none has one of the four quotes. -/
theorem literals_whole_iff (username password domain ouPath : String) (out : CompiledSequence)
    (module repository scope version : String) :
    (JoinWhole username password domain ouPath ↔ Plain username ∧ Plain domain ∧ Plain ouPath) ∧
    (InstallWhole out module repository scope version ↔
      strip module = "" ∨ Plain module ∧ Plain repository ∧ Plain scope ∧ Plain version) := by
  constructor
  · have hpassword : decodePsCommand (encodePowershell password) = some password := decode_encodePsCommand password
    have hwhole := join_whole_iff (ouPath != "") username password domain ouPath
    rw [not_ne_iff_plain] at hwhole
    exact ⟨fun h => hwhole.mp h.1, fun h => ⟨hwhole.mpr h, hpassword⟩⟩
  · have hgallery : Plain "PSGallery" := plain_of_unquoted (unquoted_literal rfl)
    have husers : Plain "AllUsers" := plain_of_unquoted (unquoted_literal rfl)
    by_cases hmodule : strip module = ""
    · refine iff_of_true (fun out' hout => ?_) (.inl hmodule)
      rw [handleInstallModule_empty hmodule] at hout
      cases hout
    · rw [installWhole_iff hmodule, install_whole_iff, not_ne_iff_plain, plain_strip, plain_strip, plain_orDefault hgallery,
        plain_orDefault husers]
      exact (or_iff_right hmodule).symm

theorem typographic_ou_apart :
    ¬ JoinWhole "svc-join" "secret" "corp.example" "OU=O\u2019Brien,DC=corp,DC=example" := by
  intro h
  have hwhole := (join_whole_iff _ "svc-join" "secret" "corp.example" "OU=O\u2019Brien,DC=corp,DC=example").mp h.1
  exact hwhole.2.2 (by decide) '\u2019' (by decide) (by decide +kernel)

end Claims

end ProxmoxVEAutopilot.CloudOsd
