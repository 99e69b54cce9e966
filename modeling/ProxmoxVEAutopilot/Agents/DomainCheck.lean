import ProxmoxVEAutopilot.Foundation.Json
import ProxmoxVEAutopilot.Foundation.Text

/-!
# The agent's domain check

`OsdV2WorkService.IsDomainJoinSatisfied` over the parameters of a step. A name is compared
with its aliases: itself and its first label.
-/

namespace ProxmoxVEAutopilot.Agents

open Foundation
set_option autoImplicit false

/-- How .NET maps a letter to upper case and prints a JSON number that is no integer; nothing
depends on which letters these are, and the dot is a letter of no other. -/
structure NetTexts where
  upper : Char → Char
  upper_dot : ∀ c, upper c = '.' ↔ c = '.'
  floatText : Rat → String

structure TelemetrySnapshot where
  domainName : Option String
  domainJoined : Option Bool
deriving DecidableEq, Repr

/-- `Char.IsWhiteSpace`: the separators of ASCII are none. -/
def isWhiteSpace (c : Char) : Bool := isSpace c && !(28 ≤ c.toNat && c.toNat ≤ 31)

def trim (s : String) : String :=
  String.ofList (((s.toList.dropWhile isWhiteSpace).reverse.dropWhile isWhiteSpace).reverse)

/-- `string.IsNullOrWhiteSpace`. -/
def isBlank (s : String) : Bool := s.toList.all isWhiteSpace

section Reading
variable (net : NetTexts) (values : Json) (key : String)

def readString : String :=
  match values.get? key with
  | some (.str s) => s
  | some (.int n) => toString n
  | some (.float q) => net.floatText q
  | some (.bool true) => "true"
  | some (.bool false) => "false"
  | _ => ""

def readOptionalString : List String :=
  let value := readString net values key
  if isBlank value then [] else [value]

def readStringArray : List String :=
  match values.get? key with
  | some (.str single) => if isBlank single then [] else [single]
  | some (.arr items) => items.filterMap fun item =>
    match item with
    | .str text => if isBlank text then none else some text
    | _ => none
  | _ => []

variable {net values key}

theorem readStringArray_missing (h : values.get? key = none) : readStringArray values key = [] := by
  simp only [readStringArray, h]

theorem readOptionalString_missing (h : values.get? key = none) : readOptionalString net values key = [] := by
  have hread : readString net values key = "" := by simp only [readString, h]
  simp [readOptionalString, hread, isBlank]

theorem readStringArray_texts {texts : List String} (h : values.get? key = some (.arr (texts.map .str))) :
    readStringArray values key = texts.filter fun text => !isBlank text := by
  simp only [readStringArray, h, List.filterMap_map]
  rw [← List.filterMap_eq_filter]
  refine List.filterMap_congr fun text _ => ?_
  cases hblank : isBlank text with
  | true => simp [hblank, Option.guard]
  | false => simp [hblank, Option.guard]

theorem readOptionalString_text {text : String} (h : values.get? key = some (.str text)) :
    readOptionalString net values key = [text].filter fun text => !isBlank text := by
  have hread : readString net values key = text := by simp only [readString, h]
  unfold readOptionalString
  rw [hread]
  cases hblank : isBlank text with
  | true => simp [hblank]
  | false => simp [hblank]

end Reading

/-- The text in front of the first dot. -/
def firstLabel (text : List Char) : List Char := text.takeWhile (· ≠ '.')

def expandDomainAliases (value : String) : List String :=
  let trimmed := trim value
  if isBlank trimmed then []
  else
    let label := firstLabel trimmed.toList
    -- `dot > 0`
    if '.' ∈ trimmed.toList ∧ label ≠ [] then [trimmed, String.ofList label] else [trimmed]

section Check
variable (net : NetTexts)

/-- `StringComparer.OrdinalIgnoreCase`. -/
def sameIgnoringCase (a b : String) : Bool := a.toList.map net.upper == b.toList.map net.upper

def distinctIgnoringCase (values : List String) : List String :=
  values.foldl (fun out value => if out.any (sameIgnoringCase net value) then out else out ++ [value]) []

def acceptedNames (parameters : Json) : List String :=
  distinctIgnoringCase net
    (((readStringArray parameters "acceptable_domain_names" ++
      readOptionalString net parameters "domain_fqdn" ++
      readOptionalString net parameters "credential_domain").flatMap expandDomainAliases).filter fun value => !isBlank value)

def isDomainJoinSatisfied (telemetry : TelemetrySnapshot) (parameters : Json) : Bool :=
  if telemetry.domainJoined ≠ some true then false
  else
    let reported := trim (telemetry.domainName.getD "")
    if isBlank reported then false
    else
      let accepted := acceptedNames net parameters
      if accepted.isEmpty then true
      else (expandDomainAliases reported).any fun item => accepted.any (sameIgnoringCase net item)

end Check

section Labels
variable {net : NetTexts}

theorem sameIgnoringCase_iff {a b : String} :
    sameIgnoringCase net a b = true ↔ a.toList.map net.upper = b.toList.map net.upper := beq_iff_eq

theorem any_distinctIgnoringCase {values : List String} {name : String} :
    (distinctIgnoringCase net values).any (sameIgnoringCase net name) = true ↔
      ∃ value ∈ values, sameIgnoringCase net name value = true := by
  have hfold : ∀ (values out : List String),
      (values.foldl (fun out value =>
        if out.any (sameIgnoringCase net value) then out else out ++ [value]) out).any (sameIgnoringCase net name) = true ↔
      out.any (sameIgnoringCase net name) = true ∨ ∃ value ∈ values, sameIgnoringCase net name value = true := by
    intro values
    induction values with
    | nil => simp
    | cons value values ih =>
      intro out
      rw [List.foldl_cons, ih, List.exists_mem_cons_iff, ← or_assoc]
      refine or_congr_left ?_
      split
      · rename_i hkept
        -- a spelling that is dropped equals one that stays
        refine (or_iff_left_of_imp fun hname => ?_).symm
        obtain ⟨kept, hmem, hsame⟩ := List.any_eq_true.mp hkept
        exact List.any_eq_true.mpr ⟨kept, hmem, sameIgnoringCase_iff.mpr
          ((sameIgnoringCase_iff.mp hname).trans (sameIgnoringCase_iff.mp hsame))⟩
      · simp [List.any_append]
  exact (hfold values []).trans (by simp)

theorem isWhiteSpace_isSpace {c : Char} (h : isWhiteSpace c = true) : isSpace c = true :=
  (Bool.and_eq_true_iff.mp h).1

theorem trim_toList (s : String) : (trim s).toList = trimmed isWhiteSpace s.toList := String.toList_ofList

theorem trim_trim (s : String) : trim (trim s) = trim s := by
  unfold trim
  rw [String.toList_ofList]
  exact congrArg String.ofList (trimmed_trimmed (fun _ h => h) s.toList)

theorem isBlank_trim (s : String) : isBlank (trim s) = isBlank s := by
  rw [Bool.eq_iff_iff]
  unfold isBlank
  rw [trim_toList, List.all_eq_true, List.all_eq_true]
  refine ⟨fun h c hc => ?_, fun h c hc => h c (of_mem_trimmed hc)⟩
  cases hspace : isWhiteSpace c with
  | true => rfl
  | false => exact hspace ▸ h c (mem_trimmed hc hspace)

theorem trim_head {s : String} (h : isBlank s = false) :
    ∃ c rest, (trim s).toList = c :: rest ∧ isWhiteSpace c = false := by
  have hfixed := dropWhile_trimmed (p := isWhiteSpace) (fun _ h => h) s.toList
  rw [← trim_toList] at hfixed
  cases hlist : (trim s).toList with
  | nil =>
    rw [← isBlank_trim] at h
    simp [isBlank, hlist] at h
  | cons c rest =>
    refine ⟨c, rest, rfl, ?_⟩
    rw [hlist, List.dropWhile_eq_self_iff] at hfixed
    exact Bool.eq_false_iff.mpr (hfixed (Nat.succ_pos _))

def shortName (text : List Char) : List Char :=
  if '.' ∈ text ∧ firstLabel text ≠ [] then firstLabel text else text

theorem shortName_shortName (text : List Char) : shortName (shortName text) = shortName text := by
  unfold shortName
  split
  · have hdot : '.' ∉ firstLabel text := fun h => by simpa using List.mem_takeWhile_imp h
    rw [if_neg fun h => hdot h.1]
  · rfl

theorem map_shortName (text : List Char) : (shortName text).map net.upper = shortName (text.map net.upper) := by
  have hdot : '.' ∈ text.map net.upper ↔ '.' ∈ text := by
    simp only [List.mem_map, net.upper_dot, exists_eq_right]
  have hlabel : firstLabel (text.map net.upper) = (firstLabel text).map net.upper := by
    unfold firstLabel
    rw [List.takeWhile_map]
    congr 2
    funext c
    simp [net.upper_dot]
  unfold shortName
  simp only [hdot, hlabel, ne_eq, List.map_eq_nil_iff]
  split
  · rfl
  · rfl

theorem mem_expandDomainAliases {value name : String} :
    name ∈ expandDomainAliases value ↔
      isBlank value = false ∧ (name = trim value ∨ name = String.ofList (shortName (trim value).toList)) := by
  unfold expandDomainAliases shortName
  dsimp only
  rw [isBlank_trim]
  cases isBlank value with
  | true => simp
  | false =>
    by_cases hlabel : '.' ∈ (trim value).toList ∧ firstLabel (trim value).toList ≠ []
    · simp [hlabel]
    · simp [hlabel]

theorem not_isBlank_of_mem_expandDomainAliases {value name : String} (h : name ∈ expandDomainAliases value) :
    isBlank name = false := by
  obtain ⟨hvalue, hname⟩ := mem_expandDomainAliases.mp h
  obtain ⟨c, rest, hlist, hc⟩ := trim_head hvalue
  have hmem : c ∈ name.toList := by
    rcases hname with rfl | rfl
    · rw [hlist]
      exact List.mem_cons_self
    · rw [String.toList_ofList, hlist]
      unfold shortName
      split
      · rename_i hlabel
        -- the label is not empty, so it begins as the name does
        unfold firstLabel at hlabel ⊢
        rw [List.takeWhile_cons] at hlabel ⊢
        split
        · exact List.mem_cons_self
        · rename_i hdot
          rw [if_neg hdot] at hlabel
          exact absurd rfl hlabel.2
      · exact List.mem_cons_self
  refine Bool.eq_false_iff.mpr fun hblank => ?_
  rw [List.all_eq_true.mp hblank c hmem] at hc
  cases hc

variable (net) in
/-- The names have one shortest alias. -/
def SharesLabel (a b : String) : Prop :=
  shortName ((trim a).toList.map net.upper) = shortName ((trim b).toList.map net.upper)

instance (a b : String) : Decidable (SharesLabel net a b) := inferInstanceAs (Decidable (_ = _))

theorem exists_alias_iff {a b : String} (ha : isBlank a = false) (hb : isBlank b = false) :
    (∃ x ∈ expandDomainAliases a, ∃ y ∈ expandDomainAliases b, sameIgnoringCase net x y = true) ↔
      SharesLabel net a b := by
  have hshort : ∀ {x v : String}, x ∈ expandDomainAliases v →
      shortName (x.toList.map net.upper) = shortName ((trim v).toList.map net.upper) := by
    intro x v hx
    rcases (mem_expandDomainAliases.mp hx).2 with rfl | rfl
    · rfl
    · rw [String.toList_ofList, map_shortName, shortName_shortName]
  constructor
  · rintro ⟨x, hx, y, hy, hsame⟩
    unfold SharesLabel
    rw [← hshort hx, ← hshort hy, sameIgnoringCase_iff.mp hsame]
  · intro hshares
    refine ⟨_, mem_expandDomainAliases.mpr ⟨ha, .inr rfl⟩, _, mem_expandDomainAliases.mpr ⟨hb, .inr rfl⟩, ?_⟩
    rw [sameIgnoringCase_iff, String.toList_ofList, String.toList_ofList, map_shortName, map_shortName]
    exact hshares

end Labels

section Check
variable {net : NetTexts} {telemetry : TelemetrySnapshot} {parameters : Json}

variable (net) (parameters) in
def configuredNames : List String :=
  readStringArray parameters "acceptable_domain_names" ++
    readOptionalString net parameters "domain_fqdn" ++ readOptionalString net parameters "credential_domain"

theorem not_isBlank_of_mem_configuredNames {name : String} (h : name ∈ configuredNames net parameters) :
    isBlank name = false := by
  have hoptional : ∀ {key}, name ∈ readOptionalString net parameters key → isBlank name = false := by
    intro key hname
    unfold readOptionalString at hname
    dsimp only at hname
    split at hname
    · cases hname
    · rename_i hblank
      rw [List.mem_singleton.mp hname]
      exact Bool.eq_false_iff.mpr hblank
  unfold configuredNames at h
  rcases List.mem_append.mp h with h | h
  · rcases List.mem_append.mp h with h | h
    · unfold readStringArray at h
      split at h
      · split at h
        · cases h
        · rename_i hblank
          rw [List.mem_singleton.mp h]
          exact Bool.eq_false_iff.mpr hblank
      · obtain ⟨item, _, hitem⟩ := List.mem_filterMap.mp h
        split at hitem
        · split at hitem
          · cases hitem
          · rename_i hblank
            cases hitem
            exact Bool.eq_false_iff.mpr hblank
        · cases hitem
      · cases h
    · exact hoptional h
  · exact hoptional h

theorem any_acceptedNames {name : String} :
    (acceptedNames net parameters).any (sameIgnoringCase net name) = true ↔
      ∃ a ∈ configuredNames net parameters, ∃ y ∈ expandDomainAliases a, sameIgnoringCase net name y = true := by
  unfold acceptedNames
  rw [any_distinctIgnoringCase]
  change (∃ value ∈ ((configuredNames net parameters).flatMap expandDomainAliases).filter _, _) ↔ _
  constructor
  · rintro ⟨value, hvalue, hsame⟩
    obtain ⟨a, ha, hmem⟩ := List.mem_flatMap.mp (List.mem_filter.mp hvalue).1
    exact ⟨a, ha, value, hmem, hsame⟩
  · rintro ⟨a, ha, y, hy, hsame⟩
    refine ⟨y, List.mem_filter.mpr ⟨List.mem_flatMap.mpr ⟨a, ha, hy⟩, ?_⟩, hsame⟩
    rw [not_isBlank_of_mem_expandDomainAliases hy]
    rfl

theorem acceptedNames_isEmpty :
    (acceptedNames net parameters).isEmpty = true ↔ configuredNames net parameters = [] := by
  rw [List.isEmpty_iff, List.eq_nil_iff_forall_not_mem, List.eq_nil_iff_forall_not_mem]
  constructor
  · intro h a ha
    have hself := mem_expandDomainAliases.mpr
      ⟨not_isBlank_of_mem_configuredNames ha, .inl (rfl : trim a = trim a)⟩
    obtain ⟨kept, hkept, _⟩ := List.any_eq_true.mp
      (any_acceptedNames.mpr ⟨a, ha, _, hself, sameIgnoringCase_iff.mpr rfl⟩)
    exact h kept hkept
  · intro h kept hkept
    obtain ⟨a, ha, _⟩ := any_acceptedNames.mp
      (List.any_eq_true.mpr ⟨kept, hkept, sameIgnoringCase_iff.mpr (rfl : kept.toList.map net.upper = _)⟩)
    exact h a ha

/-- The agent compares first labels, and without a name accepts any. -/
theorem isDomainJoinSatisfied_iff :
    isDomainJoinSatisfied net telemetry parameters = true ↔
      telemetry.domainJoined = some true ∧ isBlank (telemetry.domainName.getD "") = false ∧
        (configuredNames net parameters = [] ∨
          ∃ a ∈ configuredNames net parameters, SharesLabel net (telemetry.domainName.getD "") a) := by
  unfold isDomainJoinSatisfied
  dsimp only
  generalize telemetry.domainName.getD "" = reported
  by_cases hjoined : telemetry.domainJoined = some true
  · rw [if_neg (not_not_intro hjoined)]
    cases hblank : isBlank reported with
    | true => simp [isBlank_trim, hblank]
    | false =>
      have htrimmed : isBlank (trim reported) = false := by rw [isBlank_trim, hblank]
      rw [if_neg (Bool.eq_false_iff.mp htrimmed)]
      simp only [hjoined, true_and]
      split
      · rename_i hempty
        exact iff_of_true rfl (.inl (acceptedNames_isEmpty.mp hempty))
      · rename_i hempty
        rw [or_iff_right (mt acceptedNames_isEmpty.mpr hempty), List.any_eq_true]
        have hshares : ∀ {a : String}, a ∈ configuredNames net parameters →
            ((∃ x ∈ expandDomainAliases (trim reported), ∃ y ∈ expandDomainAliases a,
              sameIgnoringCase net x y = true) ↔ SharesLabel net reported a) := by
          intro a ha
          rw [exists_alias_iff htrimmed (not_isBlank_of_mem_configuredNames ha)]
          unfold SharesLabel
          rw [trim_trim]
        constructor
        · rintro ⟨x, hx, hany⟩
          obtain ⟨a, ha, hy⟩ := any_acceptedNames.mp hany
          exact ⟨a, ha, (hshares ha).mp ⟨x, hx, hy⟩⟩
        · rintro ⟨a, ha, hlabel⟩
          obtain ⟨x, hx, hy⟩ := (hshares ha).mpr hlabel
          exact ⟨x, hx, any_acceptedNames.mpr ⟨a, ha, hy⟩⟩
  · rw [if_pos hjoined]
    exact iff_of_false (by decide) fun h => hjoined h.1

end Check

end ProxmoxVEAutopilot.Agents
