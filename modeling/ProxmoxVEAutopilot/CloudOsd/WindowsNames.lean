import ProxmoxVEAutopilot.Agents.DomainCheck
import ProxmoxVEAutopilot.CloudOsd.Create
import ProxmoxVEAutopilot.OsDeploy.Create

/-!
# Windows names from three places

The controller computes the name of a CloudOSD machine and of an OSDeploy machine, the PE
bridge the one that Windows gets. The first and the last agree. What each of the first two
forgets is what the other does: hyphens at the ends, and names of digits only.
-/

namespace ProxmoxVEAutopilot.CloudOsd

open Foundation
open Agents (isBlank isWhiteSpace trim trim_toList)
open OsDeploy (stripHyphens)

set_option autoImplicit false

/-- What `-replace '[^A-Za-z0-9-]', ''` leaves: it ignores case, by which `folds` says which
letters outside ASCII are in the ranges. -/
def bridgeKeeps (folds : Char → Bool) (c : Char) : Bool :=
  if c.toNat < 128 then isComputerNameChar c else folds c

/-- `ConvertTo-PVEAutopilotWindowsComputerName` -/
def convertToWindowsComputerName (folds : Char → Bool) (name : String) : Option String :=
  let normalized := (trim name).toList.filter (bridgeKeeps folds)
  if isBlank (String.ofList normalized) then none
  else
    let normalized := if 15 < normalized.length then normalized.take 15 else normalized
    if normalized ≠ [] ∧ normalized.all Char.isDigit then
      let normalized := "PVE-".toList ++ normalized
      some (String.ofList (if 15 < normalized.length then normalized.take 15 else normalized))
    else some (String.ofList normalized)

/-- The rules of Windows for a computer name. -/
structure ValidName (name : String) : Prop where
  nonempty : name.toList ≠ []
  length : name.toList.length ≤ 15
  letters : ∀ c ∈ name.toList, isComputerNameChar c = true
  digits : ¬ name.toList.all Char.isDigit = true
  head : name.toList.head? ≠ some '-'
  last : name.toList.getLast? ≠ some '-'

/-- What is expected of the three for one name. -/
structure NamesRight (folds : Char → Bool) (name : String) : Prop where
  bridge : convertToWindowsComputerName folds name =
    if normalizeWindowsComputerName name = "" then none else some (normalizeWindowsComputerName name)
  cloudosd_again : normalizeWindowsComputerName (normalizeWindowsComputerName name) =
    normalizeWindowsComputerName name
  osdeploy_again : OsDeploy.normalizeWindowsComputerName (OsDeploy.normalizeWindowsComputerName name) =
    OsDeploy.normalizeWindowsComputerName name
  cloudosd_valid : normalizeWindowsComputerName name ≠ "" → ValidName (normalizeWindowsComputerName name)
  osdeploy_valid : OsDeploy.normalizeWindowsComputerName name ≠ "" →
    ValidName (OsDeploy.normalizeWindowsComputerName name)

/-! ### The letters of a name -/

def nameLetters (name : String) : List Char := name.toList.filter isComputerNameChar

theorem filter_trimmed {p q : Char → Bool} (h : ∀ c, p c = true → q c = false) (l : List Char) :
    (trimmed p l).filter q = l.filter q := by
  have hdrop : ∀ l : List Char, (l.dropWhile p).filter q = l.filter q := by
    intro l
    have hnil : (l.takeWhile p).filter q = [] := by
      rw [List.filter_eq_nil_iff]
      intro c hc
      rw [h c (List.mem_takeWhile_imp hc)]
      exact Bool.false_ne_true
    have hsplit := congrArg (List.filter q) (List.takeWhile_append_dropWhile (p := p) (l := l))
    rwa [List.filter_append, hnil, List.nil_append] at hsplit
  unfold trimmed
  rw [List.filter_reverse, hdrop, List.filter_reverse, hdrop, List.reverse_reverse]

theorem letter_not_space {c : Char} (h : isSpace c = true) : isComputerNameChar c = false := by
  rw [Bool.eq_false_iff]
  intro hletter
  have hval : c.toNat = c.val.toNat := rfl
  have hupper : 'A'.val.toNat = 65 ∧ 'Z'.val.toNat = 90 := ⟨rfl, rfl⟩
  have hlower : 'a'.val.toNat = 97 ∧ 'z'.val.toNat = 122 := ⟨rfl, rfl⟩
  have hdigit : '0'.val.toNat = 48 ∧ '9'.val.toNat = 57 := ⟨rfl, rfl⟩
  simp only [isSpace, Bool.or_eq_true, Bool.and_eq_true, decide_eq_true_eq, beq_iff_eq, hval] at h
  simp only [isComputerNameChar, Char.isAlphanum, Char.isAlpha, Char.isUpper, Char.isLower, Char.isDigit,
    Bool.or_eq_true, Bool.and_eq_true, decide_eq_true_eq, beq_iff_eq, UInt32.le_iff_toNat_le, ge_iff_le] at hletter
  rcases hletter with hletter | rfl
  · omega
  · revert h
    decide

theorem letter_ascii {c : Char} (h : isComputerNameChar c = true) : c.toNat < 128 := by
  have hval : c.toNat = c.val.toNat := rfl
  have hupper : 'Z'.val.toNat = 90 := rfl
  have hlower : 'z'.val.toNat = 122 := rfl
  have hdigit : '9'.val.toNat = 57 := rfl
  simp only [isComputerNameChar, Char.isAlphanum, Char.isAlpha, Char.isUpper, Char.isLower, Char.isDigit,
    Bool.or_eq_true, Bool.and_eq_true, decide_eq_true_eq, beq_iff_eq, UInt32.le_iff_toNat_le, ge_iff_le] at h
  rcases h with hletter | rfl
  · omega
  · decide

theorem filter_strip (name : String) : (strip name).toList.filter isComputerNameChar = nameLetters name := by
  unfold strip
  rw [String.toList_ofList]
  exact filter_trimmed (fun _ => letter_not_space) name.toList

theorem filter_trim (name : String) : (trim name).toList.filter isComputerNameChar = nameLetters name := by
  rw [trim_toList]
  exact filter_trimmed (fun c hc => letter_not_space (Agents.isWhiteSpace_isSpace hc)) name.toList

theorem nameLetters_letters (name : String) : ∀ c ∈ nameLetters name, isComputerNameChar c = true :=
  fun _ hc => (List.mem_filter.mp hc).2

theorem nameLetters_self {name : String} (h : ∀ c ∈ name.toList, isComputerNameChar c = true) :
    nameLetters name = name.toList :=
  List.filter_eq_self.mpr h

theorem nameLetters_bridge {folds : Char → Bool} {name : String} (hascii : ∀ c ∈ name.toList, c.toNat < 128) :
    (trim name).toList.filter (bridgeKeeps folds) = nameLetters name := by
  rw [← filter_trim]
  apply List.filter_congr
  intro c hc
  rw [trim_toList] at hc
  unfold bridgeKeeps
  rw [if_pos (hascii c (of_mem_trimmed hc))]

theorem letters_not_blank {letters : List Char} (h : ∀ c ∈ letters, isComputerNameChar c = true) :
    isBlank (String.ofList letters) = true ↔ letters = [] := by
  unfold isBlank
  rw [String.toList_ofList, List.all_eq_true]
  constructor
  · intro hblank
    rw [List.eq_nil_iff_forall_not_mem]
    intro c hc
    have hno := letter_not_space (Agents.isWhiteSpace_isSpace (hblank c hc))
    rw [h c hc] at hno
    cases hno
  · rintro rfl c hc
    cases hc

/-! ### What the controller computes for a CloudOSD machine -/

/-- `normalize_windows_computer_name` from the letters of the name on. -/
def fitted (letters : List Char) : List Char :=
  if letters.take 15 ≠ [] ∧ (letters.take 15).all Char.isDigit then ("PVE-".toList ++ letters.take 15).take 15
  else letters.take 15

theorem normalize_toList (name : String) :
    (normalizeWindowsComputerName name).toList = fitted (nameLetters name) := by
  unfold normalizeWindowsComputerName fitted
  dsimp only
  rw [filter_strip]
  split
  · exact String.toList_ofList
  · exact String.toList_ofList

theorem normalize_eq_empty {name : String} : normalizeWindowsComputerName name = "" ↔ nameLetters name = [] := by
  rw [← String.toList_inj, normalize_toList]
  unfold fitted
  split
  · rename_i hdigits
    refine iff_of_false (List.cons_ne_nil _ _) fun h => ?_
    rw [h] at hdigits
    exact hdigits.1 rfl
  · simp

theorem fitted_length (letters : List Char) : (fitted letters).length ≤ 15 := by
  unfold fitted
  split
  · exact List.length_take_le _ _
  · exact List.length_take_le _ _

theorem fitted_letters {letters : List Char} (h : ∀ c ∈ letters, isComputerNameChar c = true) :
    ∀ c ∈ fitted letters, isComputerNameChar c = true := by
  intro c hc
  unfold fitted at hc
  split at hc
  · rcases List.mem_append.mp (List.mem_of_mem_take hc) with hc | hc
    · have hpve : "PVE-".toList.all isComputerNameChar = true := rfl
      exact List.all_eq_true.mp hpve c hc
    · exact h c (List.mem_of_mem_take hc)
  · exact h c (List.mem_of_mem_take hc)

theorem fitted_digits {letters : List Char} (hne : fitted letters ≠ []) :
    (fitted letters).all Char.isDigit = false := by
  unfold fitted at hne ⊢
  split
  · rfl
  · rename_i hnot
    rw [if_neg hnot] at hne
    rw [Bool.eq_false_iff]
    exact fun hall => hnot ⟨hne, hall⟩

theorem fitted_of_fits {letters : List Char} (hlength : letters.length ≤ 15)
    (hdigits : letters ≠ [] → letters.all Char.isDigit = false) : fitted letters = letters := by
  unfold fitted
  rw [List.take_of_length_le hlength, if_neg]
  rintro ⟨hne, hall⟩
  rw [hdigits hne] at hall
  cases hall

theorem fitted_fitted (letters : List Char) : fitted (fitted letters) = fitted letters :=
  fitted_of_fits (fitted_length letters) fitted_digits

theorem normalize_again (name : String) :
    normalizeWindowsComputerName (normalizeWindowsComputerName name) = normalizeWindowsComputerName name := by
  rw [← String.toList_inj, normalize_toList, nameLetters_self, normalize_toList, fitted_fitted]
  rw [normalize_toList]
  exact fitted_letters (nameLetters_letters name)

theorem convert_eq {folds : Char → Bool} {name : String} (hascii : ∀ c ∈ name.toList, c.toNat < 128) :
    convertToWindowsComputerName folds name =
      if normalizeWindowsComputerName name = "" then none else some (normalizeWindowsComputerName name) := by
  have htake : ∀ l : List Char, (if 15 < l.length then l.take 15 else l) = l.take 15 := by
    intro l
    split
    · rfl
    · exact (List.take_of_length_le (by omega)).symm
  unfold convertToWindowsComputerName
  simp only [nameLetters_bridge hascii, htake]
  by_cases hnil : nameLetters name = []
  · rw [if_pos ((letters_not_blank (nameLetters_letters name)).mpr hnil), if_pos (normalize_eq_empty.mpr hnil)]
  · rw [if_neg (mt (letters_not_blank (nameLetters_letters name)).mp hnil), if_neg (mt normalize_eq_empty.mp hnil),
      ← apply_ite some]
    unfold normalizeWindowsComputerName
    dsimp only
    rw [filter_strip]

/-! ### What it computes for an OSDeploy machine -/

theorem osdeploy_toList (name : String) :
    (OsDeploy.normalizeWindowsComputerName name).toList = (stripHyphens (nameLetters name)).take 15 := by
  unfold OsDeploy.normalizeWindowsComputerName
  rw [String.toList_ofList]
  exact congrArg (fun letters => (stripHyphens letters).take 15) (filter_strip name)

/-- Hyphens behind the cut do not matter, if there is none at it. -/
theorem stripHyphens_take {letters : List Char} {n : Nat} (hhead : letters.head? ≠ some '-')
    (hlast : (letters.take n).getLast? ≠ some '-') : (stripHyphens letters).take n = letters.take n := by
  rcases List.eq_nil_or_concat (letters.take n) with hnil | ⟨front, c, hkept⟩
  · rcases List.take_eq_nil_iff.mp hnil with rfl | rfl
    · rfl
    · rfl
  rw [List.concat_eq_append] at hkept
  have hsplit : letters = front ++ c :: letters.drop n := by
    conv_lhs => rw [← List.take_append_drop n letters, hkept, List.append_assoc, List.singleton_append]
  have hc : (c == '-') = false := by
    rw [beq_eq_false_iff_ne]
    rintro rfl
    rw [hkept, List.getLast?_concat] at hlast
    exact hlast rfl
  have hfront : front.dropWhile (· == '-') = front := by
    cases front with
    | nil => rfl
    | cons a rest =>
      apply List.dropWhile_cons_of_neg
      rw [beq_iff_eq]
      rintro rfl
      rw [hsplit] at hhead
      exact hhead rfl
  have hlength : front.length + 1 ≤ n := by
    have := congrArg List.length hkept
    rw [List.length_take, List.length_append, List.length_singleton] at this
    omega
  have hstrip : stripHyphens letters =
      (front ++ [c]) ++ ((letters.drop n).reverse.dropWhile (· == '-')).reverse := by
    change trimmed (· == '-') letters = _
    conv_lhs => rw [hsplit]
    rw [trimmed_middle (p := (· == '-')) hc, hfront, List.append_assoc, List.singleton_append]
  rw [hstrip, ← hkept]
  rcases Nat.le_total letters.length n with hshort | hlong
  · rw [List.drop_of_length_le hshort]
    change (letters.take n ++ []).take n = letters.take n
    rw [List.append_nil, List.take_take, Nat.min_self]
  · rw [List.take_append_of_le_length (by rw [List.length_take]; omega), List.take_take, Nat.min_self]

/-! ### When all is well -/

/-- Nothing to keep, or a first and a fifteenth (or last) letter that are no hyphens, and
more than digits up to there. -/
def Clean (name : String) : Prop :=
  nameLetters name = [] ∨
    ((nameLetters name).head? ≠ some '-' ∧ ((nameLetters name).take 15).getLast? ≠ some '-' ∧
      ((nameLetters name).take 15).all Char.isDigit = false)

instance (name : String) : Decidable (Clean name) :=
  inferInstanceAs (Decidable (_ ∨ (_ ∧ _ ∧ _)))

theorem fitted_of_not_digits {letters : List Char} (h : (letters.take 15).all Char.isDigit = false) :
    fitted letters = letters.take 15 := by
  unfold fitted
  rw [if_neg]
  rintro ⟨-, hall⟩
  rw [h] at hall
  cases hall

theorem empty_of_no_letters {name : String} (h : nameLetters name = []) :
    normalizeWindowsComputerName name = "" ∧ OsDeploy.normalizeWindowsComputerName name = "" := by
  rw [← String.toList_inj, ← String.toList_inj, normalize_toList, osdeploy_toList, h]
  exact ⟨rfl, rfl⟩

theorem namesRight_of_clean {folds : Char → Bool} {name : String} (hascii : ∀ c ∈ name.toList, c.toNat < 128)
    (h : Clean name) : NamesRight folds name := by
  rcases h with hnone | ⟨hhead, hlast, hdigits⟩
  · obtain ⟨hcloudosd, hosdeploy⟩ := empty_of_no_letters hnone
    exact {
      bridge := convert_eq hascii
      cloudosd_again := normalize_again name
      osdeploy_again := by rw [hosdeploy]; rfl
      cloudosd_valid := fun hne => absurd hcloudosd hne
      osdeploy_valid := fun hne => absurd hosdeploy hne }
  have hcloudosd : (normalizeWindowsComputerName name).toList = (nameLetters name).take 15 := by
    rw [normalize_toList, fitted_of_not_digits hdigits]
  have hosdeploy : (OsDeploy.normalizeWindowsComputerName name).toList = (nameLetters name).take 15 := by
    rw [osdeploy_toList, stripHyphens_take hhead hlast]
  have hsame : OsDeploy.normalizeWindowsComputerName name = normalizeWindowsComputerName name := by
    rw [← String.toList_inj, hcloudosd, hosdeploy]
  have hletters : ∀ c ∈ (nameLetters name).take 15, isComputerNameChar c = true :=
    fun c hc => nameLetters_letters name c (List.mem_of_mem_take hc)
  have hfirst : ((nameLetters name).take 15).head? ≠ some '-' := by
    rwa [List.head?_take, if_neg (by decide)]
  have hvalid : normalizeWindowsComputerName name ≠ "" → ValidName (normalizeWindowsComputerName name) := by
    intro hne
    rw [Ne, ← String.toList_inj, hcloudosd] at hne
    constructor
    · rwa [hcloudosd]
    · rw [hcloudosd]
      exact List.length_take_le _ _
    · rwa [hcloudosd]
    · rw [hcloudosd, hdigits]
      exact Bool.false_ne_true
    · rwa [hcloudosd]
    · rwa [hcloudosd]
  exact {
    bridge := convert_eq hascii
    cloudosd_again := normalize_again name
    osdeploy_again := by
      rw [← String.toList_inj, osdeploy_toList, nameLetters_self (by rwa [hosdeploy]), hosdeploy,
        stripHyphens_take hfirst (by rwa [List.take_take, Nat.min_self]), List.take_take, Nat.min_self]
    cloudosd_valid := hvalid
    osdeploy_valid := by rwa [hsame] }

theorem clean_of_namesRight {folds : Char → Bool} {name : String} (h : NamesRight folds name) : Clean name := by
  by_cases hnone : nameLetters name = []
  · exact .inl hnone
  right
  have hsome : (nameLetters name).take 15 ≠ [] := by
    rw [Ne, List.take_eq_nil_iff]
    rintro (h | h)
    · cases h
    · exact hnone h
  have hhyphen : '-' ∈ (nameLetters name).take 15 → ((nameLetters name).take 15).all Char.isDigit = false := by
    intro hmem
    rw [Bool.eq_false_iff]
    intro hall
    have hdigit := List.all_eq_true.mp hall _ hmem
    revert hdigit
    decide
  have hends : '-' ∈ (nameLetters name).take 15 →
      ((nameLetters name).take 15).head? ≠ some '-' ∧ ((nameLetters name).take 15).getLast? ≠ some '-' := by
    intro hmem
    have hlist : (normalizeWindowsComputerName name).toList = (nameLetters name).take 15 := by
      rw [normalize_toList, fitted_of_not_digits (hhyphen hmem)]
    have hvalid := h.cloudosd_valid (by rwa [Ne, ← String.toList_inj, hlist])
    rw [← hlist]
    exact ⟨hvalid.head, hvalid.last⟩
  have hhead : ((nameLetters name).take 15).head? ≠ some '-' :=
    fun heq => (hends (List.mem_of_head? heq)).1 heq
  have hlast : ((nameLetters name).take 15).getLast? ≠ some '-' :=
    fun heq => (hends (List.mem_of_getLast? heq)).2 heq
  rw [List.head?_take, if_neg (by decide)] at hhead
  refine ⟨hhead, hlast, ?_⟩
  have hlist : (OsDeploy.normalizeWindowsComputerName name).toList = (nameLetters name).take 15 := by
    rw [osdeploy_toList, stripHyphens_take hhead hlast]
  have hvalid := h.osdeploy_valid (by rwa [Ne, ← String.toList_inj, hlist])
  rw [← hlist]
  exact Bool.eq_false_iff.mpr hvalid.digits

theorem namesRight_iff_clean (folds : Char → Bool) (name : String) (hascii : ∀ c ∈ name.toList, c.toNat < 128) :
    NamesRight folds name ↔ Clean name :=
  ⟨clean_of_namesRight, namesRight_of_clean hascii⟩

theorem namesRight_win01 :
    (∀ c ∈ "WIN-01 (lab)".toList, c.toNat < 128) ∧
      (NamesRight (fun _ => false) "WIN-01 (lab)" ↔ Clean "WIN-01 (lab)") :=
  have hascii : ∀ c ∈ "WIN-01 (lab)".toList, c.toNat < 128 := by simp
  ⟨hascii, namesRight_iff_clean _ _ hascii⟩

/-- The fifteenth letter is a hyphen, so that the name of an OSDeploy machine ends in one
and is cut once more the next time. -/
theorem not_namesRight_cut :
    ¬ ∀ (folds : Char → Bool) (name : String), (∀ c ∈ name.toList, c.toNat < 128) → NamesRight folds name := by
  intro h
  have hagain := (h (fun _ => false) "accounting-pc1-west" (by simp)).osdeploy_again
  revert hagain
  decide

end ProxmoxVEAutopilot.CloudOsd
