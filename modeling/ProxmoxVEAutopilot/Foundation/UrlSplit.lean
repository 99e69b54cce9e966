import Mathlib

/-!
# Python's `urlparse`

The parser of `urllib.parse` on texts as lists of characters, with what it leaves unchecked. The
checks of a host (brackets, normalisation) are a parameter; they are made of a network location
that is there.
-/

namespace ProxmoxVEAutopilot.Foundation.UrlSplit

set_option autoImplicit false

/-- `_WHATWG_C0_CONTROL_OR_SPACE` -/
def isControlOrSpace (c : Char) : Bool := c.toNat ≤ 0x20

/-- `_UNSAFE_URL_BYTES_TO_REMOVE` -/
def isUnsafe (c : Char) : Bool := c = '\t' || c = '\r' || c = '\n'

/-- What both parsers do first: leading control characters go, and every tab and newline. -/
def cleaned (url : List Char) : List Char := (url.dropWhile isControlOrSpace).filter (!isUnsafe ·)

def isSchemeChar (c : Char) : Bool := c.isAlphanum || c = '+' || c = '-' || c = '.'

def splitScheme (url : List Char) : List Char × List Char :=
  let front := url.takeWhile (· ≠ ':')
  if ':' ∈ url ∧ front.head?.any Char.isAlpha ∧ front.all isSchemeChar then
    (front.map Char.toLower, url.drop (front.length + 1))
  else ([], url)

/-- Not one of the characters that end a network location. -/
def inNetloc (c : Char) : Bool := c ≠ '/' && c ≠ '?' && c ≠ '#'

def splitNetloc : List Char → List Char × List Char
  | '/' :: '/' :: rest => (rest.takeWhile inNetloc, rest.dropWhile inNetloc)
  | url => ([], url)

/-- The schemes whose last segment may carry parameters. -/
def usesParams : List (List Char) :=
  ["", "ftp", "hdl", "prospero", "http", "https", "shttp", "rtsp", "rtsps", "sip", "sips", "mms", "sftp", "tel"].map
    String.toList

/-- The path without the parameters of its last segment. -/
def dropParams (path : List Char) : List Char :=
  path.rdropWhile (· ≠ '/') ++ (path.rtakeWhile (· ≠ '/')).takeWhile (· ≠ ';')

structure Parsed where
  scheme : List Char
  netloc : List Char
  path : List Char
  query : List Char
  fragment : List Char
deriving DecidableEq

/-- `urlparse`; none where it raises `ValueError`. -/
def urlparse (refuses : List Char → Bool) (value : List Char) : Option Parsed :=
  let (scheme, url) := splitScheme (cleaned value)
  let (netloc, url) := splitNetloc url
  if netloc ≠ [] ∧ refuses netloc then none
  else
    let beforeFragment := url.takeWhile (· ≠ '#')
    let path := beforeFragment.takeWhile (· ≠ '?')
    some
      { scheme := scheme, netloc := netloc
        path := if scheme ∈ usesParams then dropParams path else path
        query := beforeFragment.drop (path.length + 1)
        fragment := url.drop (beforeFragment.length + 1) }

theorem cleaned_of_clean {value : List Char} (hhead : ∀ c ∈ value.head?, isControlOrSpace c = false)
    (h : ∀ c ∈ value, isUnsafe c = false) : cleaned value = value := by
  have hdrop : value.dropWhile isControlOrSpace = value := by
    cases value with
    | nil => rfl
    | cons c rest => rw [List.dropWhile_cons_of_neg (by simp [hhead c rfl])]
  unfold cleaned
  rw [hdrop]
  exact List.filter_eq_self.mpr fun c hc => by rw [h c hc]; rfl

theorem splitScheme_slash (url : List Char) : splitScheme ('/' :: url) = ([], '/' :: url) := by
  unfold splitScheme
  rw [if_neg]
  rintro ⟨-, hhead, -⟩
  rw [List.takeWhile_cons_of_pos (by decide), List.head?_cons, Option.any_some] at hhead
  exact absurd hhead (by decide)

theorem splitScheme_snd {url : List Char} (h : (splitScheme url).1 = []) : (splitScheme url).2 = url := by
  unfold splitScheme at h ⊢
  dsimp only at h ⊢
  split
  · rename_i hscheme
    rw [if_pos hscheme] at h
    have hhead := hscheme.2.1
    rw [List.map_eq_nil_iff.mp h] at hhead
    simp at hhead
  · rfl

theorem splitNetloc_other {url : List Char} (h : ∀ rest, url ≠ '/' :: '/' :: rest) : splitNetloc url = ([], url) := by
  unfold splitNetloc
  split
  · rename_i rest
    exact absurd rfl (h rest)
  · rfl

theorem path_head (url : List Char) :
    ((url.takeWhile (· ≠ '#')).takeWhile (· ≠ '?')).head? = some '/' ↔ url.head? = some '/' := by
  cases url with
  | nil => simp
  | cons c rest =>
    by_cases hc : c = '/'
    · subst hc
      simp
    · constructor
      · intro h
        by_cases hhash : c = '#'
        · simp [hhash] at h
        · by_cases hmark : c = '?'
          · simp [hmark] at h
          · simp [hhash, hmark, hc] at h
      · intro h
        exact absurd (Option.some.inj h) hc

theorem dropParams_head (path : List Char) : (dropParams path).head? = some '/' ↔ path.head? = some '/' := by
  unfold dropParams
  have hsplit : path.rdropWhile (· ≠ '/') ++ path.rtakeWhile (· ≠ '/') = path := List.rdropWhile_append_rtakeWhile ..
  cases hfront : path.rdropWhile (· ≠ '/') with
  | cons c front =>
    rw [hfront] at hsplit
    rw [← hsplit]
    simp
  | nil =>
    rw [hfront, List.nil_append] at hsplit
    have hnone : ∀ c ∈ path, c ≠ '/' := by
      intro c hc
      have hall := List.rdropWhile_eq_nil_iff.mp hfront c hc
      simpa using hall
    rw [hsplit, List.nil_append]
    constructor
    · intro h
      have hmem : '/' ∈ path := (List.takeWhile_prefix _).subset (List.mem_of_head? h)
      exact absurd rfl (hnone _ hmem)
    · intro h
      exact absurd rfl (hnone _ (List.mem_of_head? h))

end ProxmoxVEAutopilot.Foundation.UrlSplit
