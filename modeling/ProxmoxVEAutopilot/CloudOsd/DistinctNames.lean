import ProxmoxVEAutopilot.CloudOsd.Names
import ProxmoxVEAutopilot.CloudOsd.WindowsNames

/-!
# Distinct Windows names

Names are compared as they were asked for, and Windows gets what fifteen characters leave of
them. So an existing name that is cut or filtered is not seen, and an index at the end of a
long name is cut off.
-/

namespace ProxmoxVEAutopilot.CloudOsd.Names

open Foundation
set_option autoImplicit false

section Preflight
variable (py : Python)

def NamesPass (requestedVmid : Option Int) (vmName : String) (vms : List ListedVm) : Prop :=
  ∀ check ∈ nameBlocking py requestedVmid vmName vms,
    check.code ≠ "computer_name_invalid" ∧ check.code ≠ "vm_name_collision"

/-- How the name of a machine that exists is compared: as it is written. -/
def SpelledAs (name vmName : String) : Prop :=
  py.lower (strip name) ≠ "" ∧
    (py.lower (strip name) = py.lower (strip vmName) ∨
      py.lower (strip name) = py.lower (normalizeWindowsComputerName vmName))

def SameWindowsName (a b : String) : Prop :=
  py.lower (normalizeWindowsComputerName a) = py.lower (normalizeWindowsComputerName b)

variable {py} {requestedVmid : Option Int} {vmName : String} {vms : List ListedVm}

theorem vmNameChecks_eq_nil_iff {vm : ListedVm} : vmNameChecks py vmName vm = [] ↔ ¬ SpelledAs py vm.nameText vmName := by
  unfold vmNameChecks SpelledAs
  dsimp only
  split
  · rename_i hspelled
    rw [List.mem_cons, List.mem_singleton] at hspelled
    exact ⟨fun h => absurd h (List.cons_ne_nil _ _), fun h => absurd hspelled h⟩
  · rename_i hspelled
    rw [List.mem_cons, List.mem_singleton] at hspelled
    exact ⟨fun _ => hspelled, fun _ => rfl⟩

theorem computerNameChecks_eq_nil_iff : computerNameChecks vmName = [] ↔ normalizeWindowsComputerName vmName ≠ "" := by
  unfold computerNameChecks
  split
  · rename_i hempty
    exact ⟨fun h => absurd h (List.cons_ne_nil _ _), fun h => absurd hempty h⟩
  · rename_i hempty
    exact ⟨fun _ => hempty, fun _ => rfl⟩

theorem computerNameChecks_code {check : Check} (h : check ∈ computerNameChecks vmName) :
    check.code = "computer_name_invalid" := by
  unfold computerNameChecks at h
  split at h
  · rw [List.mem_singleton.mp h]
  · cases h

theorem vmidChecks_code {vm : ListedVm} {check : Check} (h : check ∈ vmidChecks requestedVmid vm) :
    check.code = "vmid_collision" := by
  unfold vmidChecks at h
  split at h
  · cases h
  · split at h
    · rw [List.mem_singleton.mp h]
    · cases h

theorem vmNameChecks_code {vm : ListedVm} {check : Check} (h : check ∈ vmNameChecks py vmName vm) :
    check.code = "vm_name_collision" := by
  unfold vmNameChecks at h
  dsimp only at h
  split at h
  · rw [List.mem_singleton.mp h]
  · cases h

theorem namesPass_iff : NamesPass py requestedVmid vmName vms ↔
    normalizeWindowsComputerName vmName ≠ "" ∧ ∀ vm ∈ vms, ¬ SpelledAs py vm.nameText vmName := by
  unfold NamesPass nameBlocking
  constructor
  · intro h
    constructor
    · rw [← computerNameChecks_eq_nil_iff]
      refine List.eq_nil_iff_forall_not_mem.mpr fun check hcheck => ?_
      exact (h check (List.mem_append_left _ hcheck)).1 (computerNameChecks_code hcheck)
    · intro vm hvm
      rw [← vmNameChecks_eq_nil_iff]
      refine List.eq_nil_iff_forall_not_mem.mpr fun check hcheck => ?_
      have hcollision := h check (List.mem_append_right _ (List.mem_flatMap.mpr
        ⟨vm, hvm, List.mem_append_right _ hcheck⟩))
      exact hcollision.2 (vmNameChecks_code hcheck)
  · intro ⟨hvalid, hnames⟩ check hcheck
    rcases List.mem_append.mp hcheck with hcomputer | hvms
    · rw [computerNameChecks_eq_nil_iff.mpr hvalid] at hcomputer
      cases hcomputer
    · obtain ⟨vm, hvm, hchecks⟩ := List.mem_flatMap.mp hvms
      rcases List.mem_append.mp hchecks with hvmid | hname
      · rw [vmidChecks_code hvmid]
        decide
      · rw [vmNameChecks_eq_nil_iff.mpr (hnames vm hvm)] at hname
        cases hname

end Preflight

section Letters

/-- Something in the name is no letter, digit or hyphen, there are more than fifteen, or all are digits. -/
def Altered (name : String) : Prop :=
  (∃ c ∈ (strip name).toList, isComputerNameChar c = false) ∨ 15 < (strip name).toList.length ∨
    (strip name).toList.all Char.isDigit = true

def OpensWithDigits (letters : List Char) : Prop := letters.take 15 ≠ [] ∧ (letters.take 15).all Char.isDigit = true

instance (letters : List Char) : Decidable (OpensWithDigits letters) := inferInstanceAs (Decidable (_ ∧ _))

/-- Fifteen characters agree up to case, where fifteen digits are eleven behind `PVE-`. -/
def Collide (a b : List Char) : Prop :=
  if OpensWithDigits a then
    if OpensWithDigits b then a.take 11 = b.take 11 else (b.take 15).map Char.toLower = "pve-".toList ++ a.take 11
  else if OpensWithDigits b then (a.take 15).map Char.toLower = "pve-".toList ++ b.take 11
  else (a.take 15).map Char.toLower = (b.take 15).map Char.toLower

theorem normalize_of_not_altered {name : String} (h : ¬ Altered name) :
    normalizeWindowsComputerName name = strip name := by
  unfold Altered at h
  push Not at h
  obtain ⟨hletters, hlength, hdigits⟩ := h
  have hall : nameLetters name = (strip name).toList := by
    rw [← filter_strip]
    exact List.filter_eq_self.mpr fun c hc => by simpa using hletters c hc
  rw [← String.toList_inj, normalize_toList, hall]
  exact fitted_of_fits hlength fun _ => by simpa using hdigits

theorem map_toLower_fitted (letters : List Char) : (fitted letters).map Char.toLower =
    if OpensWithDigits letters then "pve-".toList ++ letters.take 11 else (letters.take 15).map Char.toLower := by
  have hfitted : fitted letters = if OpensWithDigits letters then ("PVE-".toList ++ letters.take 15).take 15
      else letters.take 15 := rfl
  rw [hfitted]
  by_cases hdigits : OpensWithDigits letters
  · have hsame : (letters.take 11).map Char.toLower = letters.take 11 := by
      rw [List.map_congr_left fun c hc => toLower_digit (List.all_eq_true.mp hdigits.2 c
        (List.take_subset_take_left letters (by decide) hc)), List.map_id']
    have htake : ("PVE-".toList ++ letters.take 15).take 15 = "PVE-".toList ++ letters.take 11 := by
      rw [List.take_append, List.take_take]
      rfl
    rw [if_pos hdigits, if_pos hdigits, htake, List.map_append, hsame]
    rfl
  · rw [if_neg hdigits, if_neg hdigits]

variable {py : Python} {vmName name : String}

theorem sameWindowsName_iff : SameWindowsName py name vmName ↔ Collide (nameLetters name) (nameLetters vmName) := by
  have hlower : ∀ name, (py.lower (normalizeWindowsComputerName name)).toList =
      (fitted (nameLetters name)).map Char.toLower := by
    intro name
    have hascii := py.lower_ascii (fitted (nameLetters name)) fun c hc =>
      letter_ascii (fitted_letters (nameLetters_letters name) c hc)
    rw [← normalize_toList, String.ofList_toList] at hascii
    rw [hascii, String.toList_ofList, normalize_toList]
  unfold SameWindowsName Collide
  rw [← String.toList_inj, hlower, hlower, map_toLower_fitted, map_toLower_fitted]
  split_ifs
  · exact List.append_right_inj _
  · exact eq_comm
  · rfl
  · rfl

/-- A name that is not altered is compared as Windows would. -/
theorem spelledAs_of_not_altered (hvalid : normalizeWindowsComputerName vmName ≠ "") (h : ¬ Altered name)
    (hsame : SameWindowsName py name vmName) : SpelledAs py name vmName := by
  unfold SameWindowsName at hsame
  rw [normalize_of_not_altered h] at hsame
  refine ⟨fun hempty => hvalid ?_, Or.inr hsame⟩
  rw [← py.lower_eq_empty, ← hsame, hempty]

theorem preflight_distinct_iff {requestedVmid : Option Int} {vms : List ListedVm} :
    (NamesPass py requestedVmid vmName vms → ∀ vm ∈ vms, ¬ SameWindowsName py vm.nameText vmName) ↔
      (nameLetters vmName ≠ [] → (∀ vm ∈ vms, ¬ SpelledAs py vm.nameText vmName) →
        ∀ vm ∈ vms, Altered vm.nameText → ¬ Collide (nameLetters vm.nameText) (nameLetters vmName)) := by
  simp only [namesPass_iff, ← @sameWindowsName_iff py, ne_eq, ← normalize_eq_empty]
  constructor
  · intro h hvalid hnames vm hvm _
    exact h ⟨hvalid, hnames⟩ vm hvm
  · intro h hpass vm hvm hsame
    by_cases haltered : Altered vm.nameText
    · exact h hpass.1 hpass.2 vm hvm haltered hsame
    · exact hpass.2 vm hvm (spelledAs_of_not_altered hpass.1 haltered hsame)

end Letters

section Indices
variable {width i j : Nat}

theorem padded_eq (width i : Nat) :
    (padded width i).toList = List.replicate (width - (Nat.toDigits 10 i).length) '0' ++ Nat.toDigits 10 i := by
  unfold padded List.leftpad
  rw [String.toList_ofList]
  exact congrArg (fun digits => List.replicate (width - List.length digits) '0' ++ digits) Nat.toList_repr

theorem padded_digits (width i : Nat) : ∀ c ∈ (padded width i).toList, c.isDigit = true := by
  intro c hc
  rw [padded_eq] at hc
  rcases List.mem_append.mp hc with hzero | hdigit
  · rw [(List.mem_replicate.mp hzero).2]
    decide
  · exact Nat.isDigit_of_mem_toDigits (by decide) (by decide) hdigit

theorem padded_ne_nil (width i : Nat) : (padded width i).toList ≠ [] := by
  rw [padded_eq]
  exact List.append_ne_nil_of_right_ne_nil _ Nat.toDigits_ne_nil

theorem value_padded (width i : Nat) : Nat.ofDigitChars 10 (padded width i).toList 0 = i := by
  rw [padded_eq, Nat.ofDigitChars_append, Nat.ofDigitChars_replicate_zero, Nat.mul_zero, Nat.ofDigitChars_ten_toDigits]

theorem padded_injective (h : padded width i = padded width j) : i = j := by
  have hvalue := value_padded width i
  rw [h, value_padded] at hvalue
  exact hvalue.symm

theorem lower_indexedName_injective {py : Python} {base : String}
    (h : py.lower (indexedName base width i) = py.lower (indexedName base width j)) : i = j := by
  unfold indexedName at h
  rw [py.lower_index _ _ (padded_digits width i), py.lower_index _ _ (padded_digits width j)] at h
  have hlists := congrArg String.toList h
  rw [String.toList_append, String.toList_append] at hlists
  have hindex : padded width i = padded width j := String.toList_inj.mp (List.append_cancel_left hlists)
  exact padded_injective hindex

end Indices

section Parts
variable (py : Python)

/-- What a requested name has after the base that its indices share. -/
def ownSuffix (req : String) : List Char := ((splitIndex py req.toList).map fun m => '-' :: m.2).getD []

variable {py} {req : String} {cs base idx : List Char}

theorem splitIndex_eq (h : splitIndex py cs = some (base, idx)) : cs = base ++ '-' :: idx ∧ base ≠ [] := by
  have hall := congrArg List.reverse (@List.takeWhile_append_dropWhile Char (· ≠ '-') cs.reverse)
  unfold splitIndex at h
  split at h
  · cases h
  · rename_i hyphen rest hrest
    have hhyphen : hyphen = '-' := by
      have hhead := @List.head?_dropWhile_not Char (· ≠ '-') cs.reverse
      rw [hrest] at hhead
      simpa using hhead
    rw [hrest, hhyphen, List.reverse_reverse, List.reverse_append, List.reverse_cons, List.append_assoc] at hall
    dsimp only at h
    split at h
    · rename_i hgood
      cases h
      exact ⟨hall.symm, fun hnil => hgood.2.2.1 (List.reverse_eq_nil_iff.mp hnil)⟩
    · cases h

theorem baseOf_append (py : Python) (req : String) : (baseOf py req).toList ++ ownSuffix py req = req.toList := by
  unfold baseOf ownSuffix
  rw [String.toList_ofList]
  cases hsplit : splitIndex py req.toList with
  | none => exact List.append_nil _
  | some m => exact (splitIndex_eq hsplit).1.symm

theorem baseOf_ne_nil (h : req ≠ "") : (baseOf py req).toList ≠ [] := by
  unfold baseOf
  rw [String.toList_ofList]
  cases hsplit : splitIndex py req.toList with
  | none => exact fun hnil => h (String.toList_inj.mp hnil)
  | some m => exact (splitIndex_eq hsplit).2

theorem ownSuffix_cases (py : Python) (req : String) : ownSuffix py req = [] ∨ ∃ idx, ownSuffix py req = '-' :: idx := by
  unfold ownSuffix
  cases splitIndex py req.toList with
  | none => exact Or.inl rfl
  | some m => exact Or.inr ⟨m.2, rfl⟩

theorem not_isSpace_of_isDigit {c : Char} (h : c.isDigit = true) : isSpace c = false := by
  obtain ⟨hlow, hhigh⟩ : 48 ≤ c.toNat ∧ c.toNat ≤ 57 := by
    simpa [Char.isDigit, UInt32.le_iff_toNat_le] using h
  unfold isSpace
  simp only [Bool.or_eq_false_iff, Bool.and_eq_false_iff, decide_eq_false_iff_not, beq_eq_false_iff_ne]
  omega

theorem strip_indexedName (hreq : strip req = req) (hne : req ≠ "") (width i : Nat) :
    strip (indexedName (baseOf py req) width i) = indexedName (baseOf py req) width i := by
  have htrimmed : trimmed isSpace req.toList = req.toList := by
    have hlists := congrArg String.toList hreq
    unfold strip at hlists
    rwa [String.toList_ofList] at hlists
  have hname : (indexedName (baseOf py req) width i).toList =
      (baseOf py req).toList ++ ('-' :: (padded width i).toList) := by
    unfold indexedName
    rw [String.toList_append, String.toList_append, List.append_assoc]
    rfl
  refine String.toList_inj.mp ?_
  unfold strip
  rw [String.toList_ofList]
  refine trimmed_of_ends ?_ ?_
  · intro c hc
    refine head_of_trimmed htrimmed c ?_
    rw [← baseOf_append py req]
    rw [hname] at hc
    obtain ⟨first, rest, hbase⟩ := List.exists_cons_of_ne_nil (@baseOf_ne_nil py _ hne)
    rw [hbase] at hc ⊢
    exact hc
  · intro c hc
    rw [hname, List.getLast?_append_of_ne_nil _ (List.cons_ne_nil _ _), List.getLast?_cons] at hc
    refine not_isSpace_of_isDigit (padded_digits width i c ?_)
    obtain ⟨last, hlast⟩ := Option.ne_none_iff_exists'.mp (mt List.getLast?_eq_none_iff.mp (padded_ne_nil width i))
    rw [hlast] at hc
    cases hc
    exact List.mem_of_getLast? hlast

end Parts

section Batch
variable (py : Python)

def freeIndices (base : String) (width maxIndex : Nat) (taken : List String) : List Nat :=
  (List.range' 1 maxIndex).filter fun i => decide (py.lower (indexedName base width i) ∉ takenLower py taken)

variable {py} {requested name base : String} {width maxIndex : Nat} {taken taken' : List String}

theorem take_append_replicate {α : Type*} (l : List α) (a : α) (n : Nat) :
    (l ++ List.replicate (n + 1) a).take n = (l ++ List.replicate n a).take n := by
  rw [List.replicate_succ', ← List.append_assoc, List.take_append_of_le_length (by simp)]

theorem freeIndex_eq_head? (base : String) (width maxIndex : Nat) (taken : List String) :
    freeIndex py base width maxIndex taken = (freeIndices py base width maxIndex taken).head? :=
  List.head?_filter.symm

theorem takenLower_append (hstrip : strip name = name) (hne : name ≠ "") :
    takenLower py (taken ++ [name]) = takenLower py taken ++ [py.lower name] := by
  unfold takenLower
  rw [List.filter_append, List.map_append]
  simp [hstrip, hne]

theorem freeIndices_congr (h : ∀ name, name ∈ takenLower py taken ↔ name ∈ takenLower py taken') :
    freeIndices py base width maxIndex taken = freeIndices py base width maxIndex taken' := by
  unfold freeIndices
  exact List.filter_congr fun i _ => decide_eq_decide.mpr (not_congr (h _))

theorem freeIndices_append {i : Nat} {rest : List Nat}
    (hstrip : strip (indexedName base width i) = indexedName base width i)
    (hfree : freeIndices py base width maxIndex taken = i :: rest) :
    freeIndices py base width maxIndex (taken ++ [indexedName base width i]) = rest := by
  have hne : indexedName base width i ≠ "" := by
    intro hempty
    have hmem : '-' ∈ (indexedName base width i).toList := by simp [indexedName]
    rw [hempty] at hmem
    cases hmem
  have hnodup : (i :: rest).Nodup := by
    rw [← hfree]
    exact List.Nodup.filter _ List.nodup_range'
  have hsplit : freeIndices py base width maxIndex (taken ++ [indexedName base width i]) =
      (freeIndices py base width maxIndex taken).filter fun j => decide (j ≠ i) := by
    unfold freeIndices
    rw [List.filter_filter, takenLower_append hstrip hne]
    refine List.filter_congr fun j _ => ?_
    have hsame : py.lower (indexedName base width j) = py.lower (indexedName base width i) ↔ j = i :=
      ⟨lower_indexedName_injective, fun h => by rw [h]⟩
    simp [hsame, and_comm]
  rw [hsplit, hfree, List.filter_cons_of_neg (by simp)]
  refine List.filter_eq_self.mpr fun j hj => decide_eq_true fun heq => ?_
  exact (List.nodup_cons.mp hnodup).1 (heq ▸ hj)

theorem batch_of_taken (hne : strip requested ≠ "") (n : Nat) :
    ∀ {taken : List String}, py.lower (strip requested) ∈ takenLower py taken →
      batch py requested maxIndex taken n =
        ((freeIndices py (baseOf py (strip requested)) (widthOf py (strip requested)) maxIndex taken).map
          (indexedName (baseOf py (strip requested)) (widthOf py (strip requested))) ++
            List.replicate n (strip requested)).take n := by
  induction n with
  | zero => exact fun _ => List.take_zero.symm
  | succ n ih =>
    intro taken htaken
    have hstrip := strip_strip requested
    have hnext : nextFreeIndexedName py requested taken maxIndex =
        (freeIndices py (baseOf py (strip requested)) (widthOf py (strip requested)) maxIndex taken).head?.elim
          (strip requested) (indexedName (baseOf py (strip requested)) (widthOf py (strip requested))) := by
      unfold nextFreeIndexedName
      dsimp only
      have hboth : ¬(strip requested = "" ∨ py.lower (strip requested) ∉ takenLower py taken) :=
        fun h => h.elim hne fun hnot => hnot htaken
      rcases hfree : (freeIndices py (baseOf py (strip requested)) (widthOf py (strip requested)) maxIndex taken).head?
        with _ | i
      · simp only [if_neg hboth, freeIndex_eq_head?, hfree, Option.elim_none]
      · simp only [if_neg hboth, freeIndex_eq_head?, hfree, Option.elim_some]
    have hstill : ∀ name, py.lower (strip requested) ∈ takenLower py (taken ++ [name]) := by
      intro name
      unfold takenLower at htaken ⊢
      rw [List.filter_append, List.map_append]
      exact List.mem_append_left _ htaken
    unfold batch
    dsimp only
    rw [ih (hstill _), hnext]
    cases hfree : freeIndices py (baseOf py (strip requested)) (widthOf py (strip requested)) maxIndex taken with
    | nil =>
      have hnone : freeIndices py (baseOf py (strip requested)) (widthOf py (strip requested)) maxIndex
          (taken ++ [strip requested]) = [] := by
        rw [← hfree]
        refine freeIndices_congr fun name => ?_
        rw [takenLower_append hstrip hne, List.mem_append, List.mem_singleton]
        exact ⟨fun h => h.elim id fun heq => heq ▸ htaken, Or.inl⟩
      simp only [List.head?_nil, Option.elim_none, hnone, List.map_nil, List.nil_append]
      rw [List.replicate_succ, List.take_succ_cons]
    | cons i rest =>
      have hrest := freeIndices_append (strip_indexedName hstrip hne _ i) hfree
      simp only [List.head?_cons, Option.elim_some, hrest, List.map_cons, List.cons_append]
      rw [List.take_succ_cons, take_append_replicate]

variable (py) in
/-- What the names of a batch have after their base, as long as indices are left. -/
def suffixes (requested : String) (maxIndex : Nat) (taken : List String) : List (List Char) :=
  let req := strip requested
  let free := (freeIndices py (baseOf py req) (widthOf py req) maxIndex (taken ++ [req])).map
    fun i => '-' :: (padded (widthOf py req) i).toList
  if req = "" then [[]]
  else if py.lower req ∈ takenLower py taken then free ++ [ownSuffix py req]
  else ownSuffix py req :: free

def withSuffix (base : String) (suffix : List Char) : String := String.ofList (base.toList ++ suffix)

theorem withSuffix_own (py : Python) (req : String) : withSuffix (baseOf py req) (ownSuffix py req) = req := by
  unfold withSuffix
  rw [baseOf_append, String.ofList_toList]

theorem withSuffix_index (base : String) (width i : Nat) :
    withSuffix base ('-' :: (padded width i).toList) = indexedName base width i := by
  refine String.toList_inj.mp ?_
  unfold withSuffix indexedName
  rw [String.toList_ofList, String.toList_append, String.toList_append, List.append_assoc]
  rfl

theorem own_mem_suffixes (py : Python) (requested : String) (maxIndex : Nat) (taken : List String) :
    strip requested ∈ (suffixes py requested maxIndex taken).map (withSuffix (baseOf py (strip requested))) := by
  refine List.mem_map.mpr ⟨ownSuffix py (strip requested), ?_, withSuffix_own py _⟩
  unfold suffixes
  dsimp only
  split
  · rename_i hempty
    rw [hempty]
    exact List.mem_singleton_self _
  · split
    · exact List.mem_append_right _ (List.mem_singleton_self _)
    · exact List.mem_cons_self

theorem batch_empty (hempty : strip requested = "") (n : Nat) :
    ∀ taken : List String, batch py requested maxIndex taken n = List.replicate n "" := by
  induction n with
  | zero => exact fun _ => rfl
  | succ n ih =>
    intro taken
    have hnext : nextFreeIndexedName py requested taken maxIndex = "" := by
      unfold nextFreeIndexedName
      dsimp only
      rw [if_pos (Or.inl hempty), hempty]
    unfold batch
    rw [hnext]
    exact congrArg (List.cons "") (ih _)

theorem batch_eq (py : Python) (requested : String) (maxIndex : Nat) (taken : List String) (n : Nat) :
    batch py requested maxIndex taken n =
      ((suffixes py requested maxIndex taken).map (withSuffix (baseOf py (strip requested))) ++
        List.replicate n (strip requested)).take n := by
  have hmap : ∀ indices : List Nat,
      (indices.map fun i => '-' :: (padded (widthOf py (strip requested)) i).toList).map
          (withSuffix (baseOf py (strip requested))) =
        indices.map (indexedName (baseOf py (strip requested)) (widthOf py (strip requested))) := by
    intro indices
    rw [List.map_map]
    exact List.map_congr_left fun i _ => withSuffix_index _ _ _
  have hstrip := strip_strip requested
  unfold suffixes
  dsimp only
  by_cases hempty : strip requested = ""
  · have hbase : withSuffix (baseOf py "") [] = "" := withSuffix_own py ""
    rw [if_pos hempty, batch_empty hempty, hempty, List.map_cons, List.map_nil, hbase, List.singleton_append,
      ← List.replicate_succ, List.take_replicate, Nat.min_eq_left (Nat.le_succ n)]
  · rw [if_neg hempty]
    by_cases htaken : py.lower (strip requested) ∈ takenLower py taken
    · have hsame : freeIndices py (baseOf py (strip requested)) (widthOf py (strip requested)) maxIndex
          (taken ++ [strip requested]) =
            freeIndices py (baseOf py (strip requested)) (widthOf py (strip requested)) maxIndex taken := by
        refine freeIndices_congr fun name => ?_
        rw [takenLower_append hstrip hempty, List.mem_append, List.mem_singleton]
        exact ⟨fun h => h.elim id fun heq => heq ▸ htaken, Or.inl⟩
      rw [if_pos htaken, List.map_append, hmap, hsame, List.map_cons, List.map_nil, withSuffix_own,
        batch_of_taken hempty n htaken, ← take_append_replicate, List.append_assoc, List.replicate_succ]
      rfl
    · rw [if_neg htaken, List.map_cons, hmap, withSuffix_own]
      cases n with
      | zero => rfl
      | succ n =>
        have hnext : nextFreeIndexedName py requested taken maxIndex = strip requested := by
          unfold nextFreeIndexedName
          dsimp only
          rw [if_pos (Or.inr htaken)]
        have hnow : py.lower (strip requested) ∈ takenLower py (taken ++ [strip requested]) := by
          rw [takenLower_append hstrip hempty]
          exact List.mem_append_right _ (List.mem_singleton_self _)
        unfold batch
        dsimp only
        rw [hnext, batch_of_taken hempty n hnow, List.cons_append, List.take_succ_cons, take_append_replicate]

end Batch

section Windows
variable (py : Python)

def keptSuffix (base : String) (suffix : List Char) : List Char :=
  (suffix.filter isComputerNameChar).take (15 - (base.toList.filter isComputerNameChar).length)

def tagged (cs : List Char) : List Char :=
  if cs ≠ [] ∧ cs.all Char.isDigit then ("PVE-".toList ++ cs).take 15 else cs

variable {py} {base requested : String} {maxIndex : Nat} {taken : List String} {cs kept s t : List Char}

theorem normalize_withSuffix (hstrip : strip (withSuffix base s) = withSuffix base s) :
    normalizeWindowsComputerName (withSuffix base s) =
      String.ofList (tagged ((base.toList.filter isComputerNameChar).take 15 ++ keptSuffix base s)) := by
  unfold normalizeWindowsComputerName tagged keptSuffix
  dsimp only
  rw [hstrip]
  unfold withSuffix
  rw [String.toList_ofList, List.filter_append, List.take_append]
  split <;> rfl

theorem tagged_of_hyphen (h : '-' ∈ cs) : tagged cs = cs := by
  unfold tagged
  refine if_neg fun hdigits => ?_
  have hdigit := List.all_eq_true.mp hdigits.2 '-' h
  exact absurd hdigit (by decide)

theorem tagged_ne_append (h : '-' ∈ kept) : tagged cs ≠ cs ++ kept := by
  intro heq
  unfold tagged at heq
  split at heq
  · rename_i hdigits
    obtain ⟨first, rest, rfl⟩ := List.exists_cons_of_ne_nil hdigits.1
    have hfirst := List.all_eq_true.mp hdigits.2 first List.mem_cons_self
    have hhead := congrArg List.head? heq
    simp at hhead
    rw [← hhead] at hfirst
    exact absurd hfirst (by decide)
  · rw [List.self_eq_append_right.mp heq] at h
    cases h

theorem keptSuffix_cases (base : String) (hs : s = [] ∨ ∃ rest, s = '-' :: rest) :
    keptSuffix base s = [] ∨ '-' ∈ keptSuffix base s := by
  unfold keptSuffix
  rcases hs with rfl | ⟨rest, rfl⟩
  · exact Or.inl List.take_nil
  · rw [List.filter_cons_of_pos (by decide)]
    cases 15 - (base.toList.filter isComputerNameChar).length with
    | zero => exact Or.inl List.take_zero
    | succ room => exact Or.inr List.mem_cons_self

theorem tagged_append_inj (hs : s = [] ∨ '-' ∈ s) (ht : t = [] ∨ '-' ∈ t) :
    tagged (cs ++ s) = tagged (cs ++ t) ↔ s = t := by
  refine ⟨fun heq => ?_, fun h => by rw [h]⟩
  rcases hs with rfl | hs
  · rcases ht with rfl | ht
    · rfl
    · rw [List.append_nil, tagged_of_hyphen (List.mem_append_right _ ht)] at heq
      exact absurd heq (tagged_ne_append ht)
  · rw [tagged_of_hyphen (List.mem_append_right _ hs)] at heq
    rcases ht with rfl | ht
    · rw [List.append_nil] at heq
      exact absurd heq.symm (tagged_ne_append hs)
    · rw [tagged_of_hyphen (List.mem_append_right _ ht)] at heq
      exact List.append_cancel_left heq

theorem mem_suffixes (hs : s ∈ suffixes py requested maxIndex taken) :
    strip (withSuffix (baseOf py (strip requested)) s) = withSuffix (baseOf py (strip requested)) s ∧
      (s = [] ∨ ∃ rest, s = '-' :: rest) := by
  have hstrip := strip_strip requested
  have hown : s = ownSuffix py (strip requested) →
      strip (withSuffix (baseOf py (strip requested)) s) = withSuffix (baseOf py (strip requested)) s ∧
        (s = [] ∨ ∃ rest, s = '-' :: rest) := by
    rintro rfl
    rw [withSuffix_own]
    exact ⟨hstrip, ownSuffix_cases py _⟩
  unfold suffixes at hs
  dsimp only at hs
  split at hs
  · rename_i hempty
    refine hown ?_
    rw [List.mem_singleton.mp hs, hempty]
    rfl
  · rename_i hne
    have hfree : ∀ {indices : List Nat},
        s ∈ indices.map (fun i => '-' :: (padded (widthOf py (strip requested)) i).toList) →
          strip (withSuffix (baseOf py (strip requested)) s) = withSuffix (baseOf py (strip requested)) s ∧
            (s = [] ∨ ∃ rest, s = '-' :: rest) := by
      intro indices hmem
      obtain ⟨i, -, rfl⟩ := List.mem_map.mp hmem
      rw [withSuffix_index]
      exact ⟨strip_indexedName hstrip hne _ i, Or.inr ⟨_, rfl⟩⟩
    split at hs
    · exact (List.mem_append.mp hs).elim hfree fun h => hown (List.mem_singleton.mp h)
    · exact (List.mem_cons.mp hs).elim hown hfree

theorem nodup_take_append_replicate {α β : Type*} (f : α → β) {l : List α} {a : α} (ha : a ∈ l) (n : Nat) :
    (((l ++ List.replicate n a).take n).map f).Nodup ↔ n ≤ l.length ∧ ((l.take n).map f).Nodup := by
  by_cases hle : n ≤ l.length
  · rw [List.take_append_of_le_length hle]
    exact ⟨fun h => ⟨hle, h⟩, And.right⟩
  · refine ⟨fun h => ?_, fun h => absurd h.1 hle⟩
    rw [List.take_append, List.take_of_length_le (by omega), List.map_append] at h
    refine absurd rfl ((List.nodup_append.mp h).2.2 (f a) (List.mem_map_of_mem ha) (f a) (List.mem_map_of_mem ?_))
    rw [List.take_replicate]
    exact List.mem_replicate.mpr ⟨by omega, rfl⟩

theorem batch_distinct_iff (py : Python) (requested : String) (maxIndex : Nat) (taken : List String) (n : Nat) :
    ((batch py requested maxIndex taken n).map normalizeWindowsComputerName).Nodup ↔
      n ≤ (suffixes py requested maxIndex taken).length ∧
        (((suffixes py requested maxIndex taken).take n).map (keptSuffix (baseOf py (strip requested)))).Nodup := by
  rw [batch_eq, nodup_take_append_replicate _ (own_mem_suffixes py requested maxIndex taken), List.length_map,
    ← List.map_take, List.map_map]
  refine and_congr_right fun _ => ?_
  unfold List.Nodup
  rw [List.pairwise_map, List.pairwise_map]
  refine List.Pairwise.iff_of_mem fun {s t} hs ht => not_congr ?_
  obtain ⟨hsstrip, hscases⟩ := mem_suffixes (List.mem_of_mem_take hs)
  obtain ⟨htstrip, htcases⟩ := mem_suffixes (List.mem_of_mem_take ht)
  rw [Function.comp_apply, Function.comp_apply, normalize_withSuffix hsstrip, normalize_withSuffix htstrip,
    String.ofList_inj]
  exact tagged_append_inj (keptSuffix_cases _ hscases) (keptSuffix_cases _ htcases)

end Windows

section Distinct

/-- Preflight misses the existing machines whose own name Windows does not take as it is, and a
batch ends where its indices do or where two of them are cut to the same text. -/
theorem windows_names_distinct_iff (py : Python) :
    (∀ (requestedVmid : Option Int) (vmName : String) (vms : List ListedVm),
      (NamesPass py requestedVmid vmName vms → ∀ vm ∈ vms, ¬ SameWindowsName py vm.nameText vmName) ↔
        (nameLetters vmName ≠ [] → (∀ vm ∈ vms, ¬ SpelledAs py vm.nameText vmName) →
          ∀ vm ∈ vms, Altered vm.nameText → ¬ Collide (nameLetters vm.nameText) (nameLetters vmName))) ∧
    ∀ (requested : String) (maxIndex : Nat) (taken : List String) (n : Nat),
      ((batch py requested maxIndex taken n).map normalizeWindowsComputerName).Nodup ↔
        n ≤ (suffixes py requested maxIndex taken).length ∧
          (((suffixes py requested maxIndex taken).take n).map (keptSuffix (baseOf py (strip requested)))).Nodup :=
  ⟨fun _ _ _ => preflight_distinct_iff, batch_distinct_iff py⟩

def asciiPython : Python where
  lower := Foundation.lower
  isDecimal := Char.isDigit
  lower_eq_empty := lower_eq_empty
  lower_index := fun base digits hdigits => by rw [lower_append, lower_digits hdigits]
  lower_ascii := fun _ => Foundation.lower_ascii

/-- Two machines of a long name pass preflight, and so does a batch, under one Windows name. -/
theorem long_names_collide :
    (NamesPass asciiPython none "verylongmachine-02" [{ vmid := some 100, name := some "verylongmachine-01" }] ∧
      SameWindowsName asciiPython "verylongmachine-01" "verylongmachine-02") ∧
    ¬ ((batch asciiPython "verylongmachine-02" 999 ["verylongmachine-01"] 2).map normalizeWindowsComputerName).Nodup := by
  refine ⟨⟨namesPass_iff.mpr ⟨by decide +kernel, fun vm hvm => ?_⟩, congrArg Foundation.lower (by decide +kernel)⟩,
    by decide +kernel⟩
  rw [List.mem_singleton.mp hvm]
  rintro ⟨-, hrequested | hnormalized⟩
  · exact absurd hrequested (by decide +kernel)
  · exact absurd hnormalized (by decide +kernel)

end Distinct

end ProxmoxVEAutopilot.CloudOsd.Names
