import ProxmoxVEAutopilot.Foundation.UrlSplit

/-!
# The page after a login

`safe_next_url` reads a value with Python's parser; the redirect is read by the browser. The
two disagree on where a host begins after a backslash and after three slashes.
-/

namespace ProxmoxVEAutopilot.Login

open Foundation.UrlSplit

set_option autoImplicit false

def safeNextUrl (refuses : List Char → Bool) (value : List Char) : List Char :=
  if value = [] then ['/']
  else
    match urlparse refuses value with
    | none => ['/']
    | some parsed =>
      if parsed.scheme ≠ [] ∨ parsed.netloc ≠ [] then ['/']
      else if parsed.path.head? ≠ some '/' then ['/']
      else value

/-! ### The browser -/

structure Origin where
  scheme : List Char
  host : List Char
deriving DecidableEq

/-- What a browser makes of an absolute URL and of the text of an authority; none is a URL it
does not follow. -/
structure Browser where
  absolute : List Char → Option Origin
  authority : List Char → Option (List Char)

def slashed (c : Char) : Char := if c = '\\' then '/' else c

/-- Where a link leads from a page of `base`: leading blanks and controls, tabs and newlines do not
count, a backslash is a slash, and two slashes or more begin an authority. -/
def Browser.resolve (b : Browser) (base : Origin) (link : List Char) : Option Origin :=
  let text := (cleaned link).map slashed
  if (splitScheme text).1 ≠ [] then b.absolute text
  else if 2 ≤ (text.takeWhile (· = '/')).length then
    (b.authority ((text.dropWhile (· = '/')).takeWhile inNetloc)).map fun host => ⟨base.scheme, host⟩
  else some base

/-! ### Where the parsers disagree -/

/-- Cleaned, the value begins with a slash and a backslash, or with three slashes. -/
def Slips (value : List Char) : Prop :=
  ∃ rest, cleaned value = '/' :: '\\' :: rest ∨ cleaned value = '/' :: '/' :: '/' :: rest

/-- The text that the browser takes for the authority of such a value. -/
def authorityText (value : List Char) : List Char :=
  (((cleaned value).map slashed).dropWhile (· = '/')).takeWhile inNetloc

/-- A path with an optional query and fragment, without a backslash or a control character. -/
def PlainPath (value : List Char) : Prop :=
  (∃ rest, value = '/' :: rest ∧ rest.head? ≠ some '/') ∧
    ∀ c ∈ value, c ≠ '\\' ∧ 0x20 ≤ c.toNat

variable (refuses : List Char → Bool) (b : Browser) (base : Origin)

theorem resolve_root : b.resolve base ['/'] = some base := by
  rfl

theorem slashed_eq {c : Char} : slashed c = '/' ↔ c = '/' ∨ c = '\\' := by
  unfold slashed
  by_cases h : c = '\\'
  · simp [h]
  · simp [h]

theorem resolve_path {value rest : List Char} (hvalue : cleaned value = '/' :: rest)
    (hrest : ∀ c ∈ rest.head?, c ≠ '/' ∧ c ≠ '\\') : b.resolve base value = some base := by
  have hone : ¬ 2 ≤ (('/' :: rest.map slashed).takeWhile (· = '/')).length := by
    cases rest with
    | nil => decide
    | cons c rest =>
      have hc : slashed c ≠ '/' := by
        intro h
        rcases slashed_eq.mp h with h | h
        · exact (hrest c rfl).1 h
        · exact (hrest c rfl).2 h
      simp [hc]
  unfold Browser.resolve
  dsimp only
  rw [hvalue, List.map_cons, show slashed '/' = '/' from rfl, splitScheme_slash, if_neg (by simp), if_neg hone]

theorem resolve_slips {value : List Char} (h : Slips value) :
    b.resolve base value = (b.authority (authorityText value)).map fun host => ⟨base.scheme, host⟩ := by
  have htwo : ∃ rest, (cleaned value).map slashed = '/' :: '/' :: rest := by
    obtain ⟨rest, h | h⟩ := h
    · exact ⟨rest.map slashed, by rw [h]; rfl⟩
    · exact ⟨'/' :: rest.map slashed, by rw [h]; rfl⟩
  obtain ⟨rest, htext⟩ := htwo
  unfold Browser.resolve authorityText
  dsimp only
  rw [htext, splitScheme_slash, if_neg (by simp), if_pos (by simp)]

/-- The parser finds no scheme and no network location in the cleaned text, and a path that
begins with a slash. -/
def Accepted (text : List Char) : Prop :=
  (splitScheme text).1 = [] ∧ (splitNetloc (splitScheme text).2).1 = [] ∧
    (splitNetloc (splitScheme text).2).2.head? = some '/'

instance (text : List Char) : Decidable (Accepted text) := by
  unfold Accepted
  infer_instance

theorem safeNextUrl_eq (value : List Char) :
    safeNextUrl refuses value = if value ≠ [] ∧ Accepted (cleaned value) then value else ['/'] := by
  by_cases hempty : value = []
  · simp [safeNextUrl, hempty]
  rcases hscheme : splitScheme (cleaned value) with ⟨scheme, url⟩
  rcases hnetloc : splitNetloc url with ⟨netloc, rest⟩
  have haccepted : (value ≠ [] ∧ Accepted (cleaned value)) ↔ scheme = [] ∧ netloc = [] ∧ rest.head? = some '/' := by
    unfold Accepted
    rw [hscheme, hnetloc]
    exact and_iff_right hempty
  unfold safeNextUrl urlparse
  simp only [hempty, if_false, hscheme, hnetloc, haccepted]
  by_cases hnetloc : netloc = []
  · subst hnetloc
    by_cases hscheme : scheme = []
    · subst hscheme
      have hpath : (if [] ∈ usesParams then dropParams ((rest.takeWhile (· ≠ '#')).takeWhile (· ≠ '?'))
          else (rest.takeWhile (· ≠ '#')).takeWhile (· ≠ '?')).head? = some '/' ↔ rest.head? = some '/' := by
        rw [if_pos (by decide), dropParams_head, path_head]
      rw [if_neg (fun h => h.1 rfl)]
      dsimp only
      rw [if_neg (by simp)]
      by_cases hrest : rest.head? = some '/'
      · rw [if_neg (not_not.mpr (hpath.mpr hrest)), if_pos ⟨rfl, rfl, hrest⟩]
      · rw [if_pos ((not_congr hpath).mpr hrest), if_neg (fun h => hrest h.2.2)]
    · simp [hscheme]
  · by_cases hrefused : refuses netloc = true
    · simp [hnetloc, hrefused]
    · simp [hnetloc, hrefused]

theorem accepted_path {rest : List Char} (h : ∀ c ∈ rest.head?, c ≠ '/') : Accepted ('/' :: rest) := by
  unfold Accepted
  rw [splitScheme_slash]
  have hother : splitNetloc ('/' :: rest) = ([], '/' :: rest) := by
    apply splitNetloc_other
    rintro tail heq
    cases heq
    exact h '/' rfl rfl
  rw [hother]
  exact ⟨rfl, rfl, rfl⟩

theorem accepted_authority (rest : List Char) : Accepted ('/' :: '/' :: rest) ↔ rest.head? = some '/' := by
  unfold Accepted
  rw [splitScheme_slash]
  simp only [splitNetloc, true_and]
  cases rest with
  | nil => simp
  | cons c rest =>
    by_cases hc : inNetloc c = true
    · have hne : c ≠ '/' := by
        rintro rfl
        exact absurd hc (by decide)
      simp [hc, hne]
    · simp [hc]

theorem head_of_accepted {text : List Char} (h : Accepted text) : text.head? = some '/' := by
  obtain ⟨hscheme, -, hhead⟩ := h
  rw [splitScheme_snd hscheme] at hhead
  unfold splitNetloc at hhead
  split at hhead
  · rfl
  · exact hhead

/-- A value that is let through slips, or is a path for the browser too. -/
theorem slips_or_path {value : List Char} (h : Accepted (cleaned value)) :
    Slips value ∨ ∃ rest, cleaned value = '/' :: rest ∧ ∀ c ∈ rest.head?, c ≠ '/' ∧ c ≠ '\\' := by
  obtain ⟨rest, hrest⟩ := List.head?_eq_some_iff.mp (head_of_accepted h)
  rw [hrest] at h
  match rest, hrest with
  | [], hrest => exact .inr ⟨[], hrest, by simp⟩
  | c :: tail, hrest =>
    by_cases hslash : c = '/'
    · subst hslash
      obtain ⟨tail', rfl⟩ := List.head?_eq_some_iff.mp ((accepted_authority tail).mp h)
      exact .inl ⟨tail', .inr hrest⟩
    · by_cases hback : c = '\\'
      · subst hback
        exact .inl ⟨tail, .inl hrest⟩
      · refine .inr ⟨c :: tail, hrest, ?_⟩
        rintro d ⟨⟩
        exact ⟨hslash, hback⟩

theorem accepted_of_slips {value : List Char} (h : Slips value) : Accepted (cleaned value) := by
  obtain ⟨rest, h | h⟩ := h
  · rw [h]
    exact accepted_path (by rintro c ⟨⟩; decide)
  · rw [h]
    exact (accepted_authority _).mpr rfl

theorem ne_nil_of_slips {value : List Char} (h : Slips value) : value ≠ [] := by
  rintro rfl
  obtain ⟨rest, h | h⟩ := h <;> cases h

/-- A plain path is the text both parsers read, and it is let through. -/
theorem safeNextUrl_plain {value : List Char} (h : PlainPath value) : safeNextUrl refuses value = value := by
  obtain ⟨⟨rest, rfl, hrest⟩, hclean⟩ := h
  have hsame : cleaned ('/' :: rest) = '/' :: rest := by
    apply cleaned_of_clean
    · rintro c ⟨⟩
      decide
    · intro c hc
      have hrange := (hclean c hc).2
      unfold isUnsafe
      simp only [Bool.or_eq_false_iff, decide_eq_false_iff_not]
      refine ⟨⟨?_, ?_⟩, ?_⟩ <;> rintro rfl <;> exact absurd hrange (by decide)
  rw [safeNextUrl_eq, hsame, if_pos]
  refine ⟨by simp, accepted_path ?_⟩
  rintro c hc rfl
  exact hrest hc

/-- The redirect stays on the controller's origin exactly where the value does not slip, or
slips to an authority that is the controller itself; a plain path is returned as it is. -/
theorem safeNextUrl_on_site_iff (value : List Char) :
    (b.resolve base (safeNextUrl refuses value) = some base ↔
      (Slips value → b.authority (authorityText value) = some base.host)) ∧
      (PlainPath value → safeNextUrl refuses value = value) := by
  refine ⟨?_, safeNextUrl_plain refuses⟩
  by_cases hslips : Slips value
  · rw [safeNextUrl_eq, if_pos ⟨ne_nil_of_slips hslips, accepted_of_slips hslips⟩, resolve_slips b base hslips]
    simp only [hslips, forall_const]
    cases b.authority (authorityText value) with
    | none => simp
    | some host =>
      simp only [Option.map_some, Option.some.injEq]
      constructor
      · intro heq
        exact congrArg Origin.host heq
      · rintro rfl
        rfl
  · refine iff_of_true ?_ (fun h => absurd h hslips)
    rw [safeNextUrl_eq]
    split
    · rename_i haccepted
      obtain ⟨rest, hpath, hrest⟩ := (slips_or_path haccepted.2).resolve_left hslips
      exact resolve_path b base hpath hrest
    · exact resolve_root b base

def literalBrowser : Browser := ⟨fun _ => none, some⟩

theorem three_slashes_leave_site :
    ¬ (literalBrowser.resolve ⟨"https".toList, "controller.lab".toList⟩
        (safeNextUrl (fun _ => false) "///evil.example/".toList) =
      some ⟨"https".toList, "controller.lab".toList⟩) := by
  decide +kernel

end ProxmoxVEAutopilot.Login
