import ProxmoxVEAutopilot.Setup.Artifacts

/-!
# Update checks

An agent is told whether the latest release is newer than what it runs. Versions are compared
part by part; the release was picked by another key.
-/

namespace ProxmoxVEAutopilot.Setup

open Foundation
set_option autoImplicit false

section Compare

/-- The numbers of the pieces up to the first that is none. -/
def numbersOf : List (List Char) → Option (List Nat)
  | [] => some []
  | raw :: rest =>
    if isDigits raw then (intOfDigits raw).bind fun n => (numbersOf rest).map (n :: ·)
    else some []

/-- `_version_parts`, none where it raises. -/
def versionParts (value : Option String) : Option (List Nat) :=
  numbersOf ((value.getD "").toList.splitOnP fun c => c = '.' || c = '-')

inductive Scheme where
  | unknown
  | semver
  | calver
deriving DecidableEq

def calverMinYear : Nat := 2000

/-- `_version_scheme` of a version with these parts. -/
def schemeOf : List Nat → Scheme
  | [] => .unknown
  | major :: _ => if calverMinYear ≤ major then .calver else .semver

def Scheme.text : Scheme → String
  | .unknown => "unknown"
  | .semver => "semver"
  | .calver => "calver"

inductive UpdateStatus where
  | blocked
  | indeterminate
  | current
  | upgradeAvailable
deriving DecidableEq

/-- `compare_versions`, none where it raises. -/
def compareVersions (published installed : Option String) : Option (UpdateStatus × String) :=
  (versionParts published).bind fun publishedParts => (versionParts installed).map fun installedParts =>
    if given published = none then (.indeterminate, "no_published_version")
    else if given installed = none then (.upgradeAvailable, "installed_version_unknown")
    else if publishedParts = [] ∨ installedParts = [] then (.indeterminate, "unparseable_version")
    else if schemeOf publishedParts ≠ schemeOf installedParts then
      (.indeterminate, "version_scheme_mismatch:published=" ++ (schemeOf publishedParts).text ++ ",installed=" ++
        (schemeOf installedParts).text)
    else
      let width := max publishedParts.length installedParts.length
      if pad width installedParts < pad width publishedParts then (.upgradeAvailable, "")
      else if pad width publishedParts = pad width installedParts then
        (.current, "installed_version_matches_published")
      else (.current, "installed_version_newer_than_published")

end Compare

section Check

structure UpdateAnswer where
  status : UpdateStatus
  reason : String
  installedVersion : Option String
  reportedVersion : Option String
  recordedVersion : Option String
  publishedVersion : Option String
  runtimeIdentifier : String
  downloadUrl : Option String
  sha256 : Option String
  sizeBytes : Option Nat
deriving DecidableEq

def answer (release : Option Release) (rid : String) (reported recorded : Option String) : Option UpdateAnswer :=
  let installed := (given reported).or recorded
  match release with
  | none => some ⟨.blocked, "no_valid_agent_msi_published", installed, reported, recorded, none, rid, none, none, none⟩
  | some release => (compareVersions (some release.version) installed).map fun (status, reason) =>
    let available {α : Type} (value : α) := if status = .upgradeAvailable then some value else none
    ⟨status, reason, installed, reported, recorded, some release.version, rid,
      available "/api/cloudosd/assets/autopilotagent.msi", available release.sha256, available release.sizeBytes⟩

/-- The registry, the files and the versions in `agent_devices`. -/
structure Controller where
  registry : List Artifact
  files : Files
  recorded : String → Option String

variable (digest : Bytes → String)

/-- `update_check`, none where it raises. -/
def updateCheck (w : Controller) (agent rid : String) (reported : Option String) : Option UpdateAnswer :=
  (latestAgentRelease digest w.files w.registry rid).bind fun release => answer release rid reported (w.recorded agent)

inductive Event where
  | updateCheck (agent rid : String) (reported : Option String)
  /-- A heartbeat, a pairing or a claim leaves this version. -/
  | record (agent : String) (version : Option String)
  | promote (artifactId volid now : String)

def Controller.record (w : Controller) (agent : String) (version : Option String) : Controller :=
  { w with recorded := Function.update w.recorded agent version }

/-- What happens while no artifact is registered. An update check records what it is told once a
release is picked. -/
def exec (w : Controller) : Event → Controller
  | .updateCheck agent rid reported =>
    if (latestAgentRelease digest w.files w.registry rid).isSome ∧ given reported ≠ none ∧ reported ≠ w.recorded agent then
      w.record agent reported
    else w
  | .record agent version => w.record agent version
  | .promote artifactId volid now => { w with registry := markPromoted w.registry artifactId volid now }

end Check

/-!
## The release that is picked and the versions that agents are told of

On versions of three numbers the key by which a release is picked and the comparison of an
update check agree. Every other version has the empty key, whatever it compares as.
-/

section Compare

/-- `compare_versions` says that the installed version can be upgraded to the published one. -/
def UpgradeAvailable (published installed : String) : Prop :=
  (compareVersions (some published) (some installed)).map Prod.fst = some .upgradeAvailable

def Parses (version : String) (parts : List Nat) : Prop := versionParts (some version) = some parts ∧ parts ≠ []

variable {published installed : String} {ps is : List Nat}

theorem Parses.given (h : Parses published ps) : given (some published) ≠ none := by
  intro hnone
  have hempty : published = "" := by simpa [Foundation.given] using hnone
  have hparts := h.1
  rw [hempty] at hparts
  exact h.2 (Option.some.inj hparts).symm

theorem compareVersions_parsed (hp : Parses published ps) (hi : Parses installed is) :
    (compareVersions (some published) (some installed)).map Prod.fst = some
      (if schemeOf ps ≠ schemeOf is then .indeterminate
      else if pad (max ps.length is.length) is < pad (max ps.length is.length) ps then .upgradeAvailable
      else .current) := by
  unfold compareVersions
  rw [hp.1, hi.1, Option.bind_some, Option.map_some, if_neg hp.given, if_neg hi.given,
    if_neg (not_or.mpr ⟨hp.2, hi.2⟩), Option.map_some]
  congr 1
  split
  · rfl
  · dsimp only
    split
    · rfl
    · split <;> rfl

theorem upgradeAvailable_iff (hp : Parses published ps) (hi : Parses installed is) :
    UpgradeAvailable published installed ↔ schemeOf ps = schemeOf is ∧ toLex (entries is) < toLex (entries ps) := by
  unfold UpgradeAvailable
  rw [compareVersions_parsed hp hi, ← pad_lt_pad (Nat.le_max_right ps.length is.length) (Nat.le_max_left ps.length is.length)]
  split
  · rename_i hscheme
    exact ⟨fun h => (nomatch h), fun h => absurd h.1 hscheme⟩
  · rename_i hscheme
    split
    · rename_i hlt
      exact ⟨fun _ => ⟨not_not.mp hscheme, hlt⟩, fun _ => rfl⟩
    · rename_i hge
      exact ⟨fun h => (nomatch h), fun h => absurd h.2 hge⟩

theorem current_of_entries_eq (hp : Parses published ps) (hi : Parses installed is) (hscheme : schemeOf ps = schemeOf is)
    (h : entries ps = entries is) :
    (compareVersions (some published) (some installed)).map Prod.fst = some .current := by
  rw [compareVersions_parsed hp hi, if_neg (not_not.mpr hscheme), if_neg]
  rw [pad_lt_pad (Nat.le_max_right ps.length is.length) (Nat.le_max_left ps.length is.length), h]
  exact lt_irrefl _

theorem UpgradeAvailable.parses (h : UpgradeAvailable published installed) (hi : Parses installed is) :
    ∃ parts, Parses published parts := by
  unfold UpgradeAvailable compareVersions at h
  rw [hi.1] at h
  cases hparts : versionParts (some published) with
  | none =>
    rw [hparts] at h
    cases h
  | some parts =>
    refine ⟨parts, hparts, fun hnil => ?_⟩
    rw [hparts, Option.bind_some, Option.map_some] at h
    split at h
    · cases h
    · rw [if_neg hi.given, if_pos (Or.inl hnil)] at h
      cases h

end Compare

section Order

/-- The versions of one scheme that parse. -/
abbrev InScheme (scheme : Scheme) := {version : String // ∃ parts, Parses version parts ∧ schemeOf parts = scheme}

def weight (version : String) : Lex (Nat → Nat) := toLex (entries ((versionParts (some version)).getD []))

theorem Parses.weight {version : String} {parts : List Nat} (h : Parses version parts) :
    weight version = toLex (entries parts) := by
  unfold Setup.weight
  rw [h.1, Option.getD_some]

variable (scheme : Scheme)

theorem upgradeAvailable_weight (published installed : InScheme scheme) :
    UpgradeAvailable published.1 installed.1 ↔ weight installed.1 < weight published.1 := by
  obtain ⟨ps, hp, hps⟩ := published.2
  obtain ⟨is, hi, his⟩ := installed.2
  rw [upgradeAvailable_iff hp hi, hp.weight, hi.weight]
  exact and_iff_right (hps.trans his.symm)

theorem upgradeAvailable_order :
    IsStrictWeakOrder (InScheme scheme) fun installed published => UpgradeAvailable published.1 installed.1 := by
  have hpreimage : (fun installed published : InScheme scheme => UpgradeAvailable published.1 installed.1) =
      Order.Preimage (fun version : InScheme scheme => weight version.1) (· < ·) := by
    funext installed published
    exact propext (upgradeAvailable_weight scheme published installed)
  rw [hpreimage]
  have horder : IsStrictWeakOrder (Lex (Nat → Nat)) (· < ·) := isStrictWeakOrder_of_isOrderConnected
  infer_instance

theorem no_upgrade_cycle (version : InScheme scheme) :
    ¬ Relation.TransGen (fun installed published : InScheme scheme => UpgradeAvailable published.1 installed.1) version version := by
  have horder := upgradeAvailable_order scheme
  rw [Relation.transGen_eq_self]
  exact horder.irrefl version

end Order

section Key
variable {cs ds rest : List Char} {ns : List (List Char)} {version : String} {key : List Nat}

def Digits (ds : List Char) : Prop := ds ≠ [] ∧ ∀ c ∈ ds, (decimal? c).isSome = true

theorem number_some (h : number cs = some (ds, rest)) : cs = ds ++ rest ∧ Digits ds := by
  unfold number at h
  rw [List.span_eq_takeWhile_dropWhile] at h
  split at h
  · cases h
  · rename_i ds' rest' hne hspan
    cases h
    cases hspan
    refine ⟨List.takeWhile_append_dropWhile.symm, hne, fun c hc => ?_⟩
    exact List.mem_takeWhile_imp (p := fun c => (decimal? c).isSome) hc

theorem threeNumbers_some (h : threeNumbers cs = some (ns, rest)) : ∃ major minor patch, ns = [major, minor, patch] ∧
    cs = major ++ '.' :: (minor ++ '.' :: (patch ++ rest)) ∧ Digits major ∧ Digits minor ∧ Digits patch := by
  unfold threeNumbers at h
  split at h
  · rename_i major afterMajor hmajor
    split at h
    · rename_i minor afterMinor hminor
      obtain ⟨⟨patch, afterPatch⟩, hpatch, heq⟩ := Option.map_eq_some_iff.mp h
      cases heq
      obtain ⟨rfl, hmajor'⟩ := number_some hmajor
      obtain ⟨rfl, hminor'⟩ := number_some hminor
      obtain ⟨rfl, hpatch'⟩ := number_some hpatch
      exact ⟨major, minor, patch, rfl, rfl, hmajor', hminor', hpatch'⟩
    · cases h
  · cases h

theorem decimal_not_separator {c : Char} (h : (decimal? c).isSome = true) : (c = '.' || c = '-') = false := by
  rw [Bool.or_eq_false_iff, decide_eq_false_iff_not, decide_eq_false_iff_not]
  constructor <;> rintro rfl <;> exact absurd h (by decide)

theorem Digits.split (h : Digits ds) : ds.splitOnP (fun c => c = '.' || c = '-') = [ds] :=
  List.splitOnP_eq_singleton fun c hc => decimal_not_separator (h.2 c hc)

theorem Digits.isDigits (h : Digits ds) : isDigits ds = true := by
  unfold Foundation.isDigits
  rw [Bool.and_eq_true, List.all_eq_true]
  refine ⟨decide_eq_true h.1, fun c hc => ?_⟩
  unfold isDigitChar
  rw [h.2 c hc, Bool.true_or]

theorem numbersOf_digits (h : ∀ ds ∈ ns, Digits ds) : numbersOf ns = ns.mapM intOfDigits := by
  induction ns with
  | nil => rfl
  | cons ds ns ih =>
    obtain ⟨hds, hns⟩ := List.forall_mem_cons.mp h
    rw [numbersOf, if_pos hds.isDigits, ih hns, List.mapM_cons]
    cases intOfDigits ds with
    | none => rfl
    | some n => cases ns.mapM intOfDigits <;> rfl

theorem length_mapM {α β : Type} {f : α → Option β} {xs : List α} : ∀ {ys : List β}, xs.mapM f = some ys →
    ys.length = xs.length := by
  induction xs with
  | nil =>
    intro ys h
    cases h
    rfl
  | cons x xs ih =>
    intro ys h
    rw [List.mapM_cons] at h
    obtain ⟨y, _, h⟩ := Option.bind_eq_some_iff.mp h
    obtain ⟨ys', hys, h⟩ := Option.bind_eq_some_iff.mp h
    cases h
    exact congrArg (· + 1) (ih hys)

theorem parses_of_versionKey (hstrip : strip version = version) (h : versionKey version = some key) (hkey : key ≠ []) :
    Parses version key ∧ key.length = 3 := by
  unfold versionKey at h
  rw [hstrip] at h
  split at h
  · rename_i ns hthree
    obtain ⟨major, minor, patch, rfl, hchars, hmajor, hminor, hpatch⟩ := threeNumbers_some hthree
    have hdigits : ∀ ds ∈ [major, minor, patch], Digits ds := by
      simp only [List.forall_mem_cons]
      exact ⟨hmajor, hminor, hpatch, fun _ h => (nomatch h)⟩
    refine ⟨⟨?_, hkey⟩, ?_⟩
    · unfold versionParts
      rw [Option.getD_some, hchars, List.append_nil, List.splitOnP_append_cons _ _ (by rfl),
        List.splitOnP_append_cons _ _ (by rfl), hmajor.split, hminor.split, hpatch.split, ← h]
      exact numbersOf_digits hdigits
    · exact length_mapM h
  · cases h
    exact absurd rfl hkey

end Key

section Stripped

theorem strip_of_forall_not_space {s : String} (h : ∀ c ∈ s.toList, isSpace c = false) : strip s = s := by
  have hleft : s.toList.dropWhile isSpace = s.toList := by
    rw [List.dropWhile_eq_self_iff]
    exact fun hpos => ne_true_of_eq_false (h _ (List.getElem_mem hpos))
  have hright : s.toList.reverse.dropWhile isSpace = s.toList.reverse := by
    rw [List.dropWhile_eq_self_iff]
    exact fun hpos => ne_true_of_eq_false (h _ (List.mem_reverse.mp (List.getElem_mem hpos)))
  unfold strip
  rw [hleft, hright, List.reverse_reverse, String.ofList_toList]

theorem zeros_not_space : ∀ first ∈ zeros, ∀ d < 10, isSpace (Char.ofNat (first + d)) = false := by decide +kernel

theorem decimal_not_space {c : Char} (h : (decimal? c).isSome = true) : isSpace c = false := by
  unfold decimal? at h
  rw [Option.isSome_map] at h
  obtain ⟨first, hfirst⟩ := Option.isSome_iff_exists.mp h
  have hmem := List.mem_of_find?_eq_some hfirst
  have hrange := List.find?_some hfirst
  simp only [Bool.and_eq_true, decide_eq_true_eq] at hrange
  have hspace := zeros_not_space first hmem (c.toNat - first) (by omega)
  rwa [Nat.add_sub_cancel' hrange.1, Char.ofNat_toNat] at hspace

theorem strip_version (row : Artifact) : strip row.version = row.version := by
  unfold Artifact.version
  dsimp only
  split
  · exact strip_strip _
  · split
    · rfl
    · split
      · rename_i numbers rest hthree
        split
        · obtain ⟨major, minor, patch, rfl, _, hmajor, hminor, hpatch⟩ := threeNumbers_some hthree
          refine strip_of_forall_not_space fun c hc => ?_
          have hdot : isSpace '.' = false := by decide
          simp only [String.toList_ofList, List.intercalate, List.intersperse, List.flatten_cons, List.flatten_nil,
            List.mem_append, List.mem_cons, List.not_mem_nil, or_false] at hc
          rcases hc with hc | rfl | hc | rfl | hc
          · exact decimal_not_space (hmajor.2 c hc)
          · exact hdot
          · exact decimal_not_space (hminor.2 c hc)
          · exact hdot
          · exact decimal_not_space (hpatch.2 c hc)
        · rfl
      · rfl

end Stripped

section Picked

/-- The keys exist, and what has no key of three numbers is an upgrade neither of what has the
greatest one nor, where nothing has one, of what was registered last. -/
def Orderly (candidates : List Release) : Prop :=
  (∀ release ∈ candidates, versionKey release.version ≠ none) →
    (∀ top ∈ candidates, top.key ≠ [] → (∀ release ∈ candidates, release.key ≤ top.key) →
      ∀ release ∈ candidates, release.key = [] → ¬ UpgradeAvailable release.version top.version) ∧
    ((∀ release ∈ candidates, release.key = []) → ∀ last ∈ candidates.head?, ∀ release ∈ candidates,
      ¬ UpgradeAvailable release.version last.version)

variable {digest : Bytes → String} {files : Files} {registry : List Artifact} {rid : String} {best release : Release}

theorem release_some {row : Artifact} (h : row.release digest files rid = some release) :
    release.artifact = row ∧ release.version = row.version := by
  obtain ⟨file, _, hfile⟩ := Option.bind_eq_some_iff.mp h
  obtain ⟨_, heq⟩ := Option.ite_none_right_eq_some.mp hfile
  cases heq
  exact ⟨rfl, rfl⟩

theorem mem_candidates (h : release ∈ candidates digest files registry rid) : strip release.version = release.version := by
  obtain ⟨row, _, hrow⟩ := List.mem_filterMap.mp h
  rw [(release_some hrow).2]
  exact strip_version row

theorem candidates_sorted :
    (candidates digest files registry rid).Pairwise fun a b => b.artifact.createdAt ≤ a.artifact.createdAt := by
  have hsorted : (listArtifacts registry "agent-msi").Pairwise fun a b => b.createdAt ≤ a.createdAt := by
    have htrans : IsTrans Artifact fun a b => b.createdAt ≤ a.createdAt := ⟨fun _ _ _ hab hbc => le_trans hbc hab⟩
    have htotal : Std.Total fun a b : Artifact => b.createdAt ≤ a.createdAt := ⟨fun a b => le_total _ _⟩
    exact List.pairwise_insertionSort _ _
  refine List.Pairwise.filterMap _ (fun a b hab a' ha' b' hb' => ?_) hsorted
  rwa [(release_some ha').1, (release_some hb').1]

theorem Release.parses (hstrip : strip release.version = release.version) (hkey : release.key ≠ []) :
    Parses release.version release.key ∧ release.key.length = 3 := by
  unfold Release.key at *
  cases hversion : versionKey release.version with
  | none =>
    rw [hversion] at hkey
    exact absurd rfl hkey
  | some key =>
    rw [hversion] at hkey
    exact parses_of_versionKey hstrip hversion hkey

/-- A release of three numbers is an upgrade of none with a greater key. -/
theorem not_upgrade_of_key_le (hb : strip best.version = best.version) (hr : strip release.version = release.version)
    (hbest : best.key ≠ []) (hrelease : release.key ≠ []) (hle : release.key ≤ best.key) :
    ¬ UpgradeAvailable release.version best.version := by
  obtain ⟨hparses, hlength⟩ := Release.parses hb hbest
  obtain ⟨hparses', hlength'⟩ := Release.parses hr hrelease
  rw [upgradeAvailable_iff hparses' hparses]
  rintro ⟨_, hlt⟩
  have hpad : ∀ {xs : List Nat}, xs.length = 3 → pad 3 xs = xs := by
    intro xs hxs
    unfold pad
    rw [hxs, Nat.sub_self, List.replicate_zero, List.append_nil]
  rw [← pad_lt_pad (Nat.le_of_eq hlength) (Nat.le_of_eq hlength'), hpad hlength, hpad hlength'] at hlt
  exact absurd hle (not_le_of_gt hlt)

theorem upgradeAvailable_congr (hb : Parses best.version best.key) (hr : Parses release.version release.key)
    (hkey : best.key = release.key) (published : String) :
    UpgradeAvailable published best.version ↔ UpgradeAvailable published release.version := by
  constructor
  · intro h
    obtain ⟨parts, hparts⟩ := h.parses hb
    rw [upgradeAvailable_iff hparts hb] at h
    rw [upgradeAvailable_iff hparts hr]
    rwa [← hkey]
  · intro h
    obtain ⟨parts, hparts⟩ := h.parses hr
    rw [upgradeAvailable_iff hparts hr] at h
    rw [upgradeAvailable_iff hparts hb]
    rwa [hkey]

theorem rank_le_iff (a b : Release) :
    a.rank ≤ b.rank ↔ a.key < b.key ∨ a.key = b.key ∧ a.artifact.createdAt ≤ b.artifact.createdAt := by
  unfold Release.rank
  rw [Prod.Lex.toLex_le_toLex]

theorem key_le_of_argmax {candidates : List Release} (h : candidates.argmax Release.rank = some best)
    (hmem : release ∈ candidates) : release.key ≤ best.key := by
  have hrank := (rank_le_iff release best).mp (List.le_of_mem_argmax hmem h)
  exact hrank.elim le_of_lt fun h => le_of_eq h.1

theorem argmax_eq_head {candidates : List Release} (hkeys : ∀ release ∈ candidates, release.key = [])
    (hsorted : candidates.Pairwise fun a b => b.artifact.createdAt ≤ a.artifact.createdAt) :
    candidates.argmax Release.rank = candidates.head? := by
  cases candidates with
  | nil => rfl
  | cons last rest =>
    refine List.argmax_eq_some_iff.mpr ⟨List.mem_cons_self, fun release hmem => ?_, fun release _ _ => ?_⟩
    · refine (rank_le_iff release last).mpr (.inr ⟨?_, ?_⟩)
      · exact (hkeys release hmem).trans (hkeys last List.mem_cons_self).symm
      · rcases List.mem_cons.mp hmem with rfl | hrest
        · exact le_refl _
        · exact List.rel_of_pairwise_cons hsorted hrest
    · rw [List.idxOf_cons_self]
      exact Nat.zero_le _

theorem picked_iff {candidates : List Release} (hstrip : ∀ release ∈ candidates, strip release.version = release.version)
    (hsorted : candidates.Pairwise fun a b => b.artifact.createdAt ≤ a.artifact.createdAt)
    (hkeys : ∀ release ∈ candidates, versionKey release.version ≠ none) :
    (∀ best, candidates.argmax Release.rank = some best → ∀ release ∈ candidates,
      ¬ UpgradeAvailable release.version best.version) ↔ Orderly candidates := by
  have hbest_mem : ∀ {best}, candidates.argmax Release.rank = some best → best ∈ candidates := List.argmax_mem
  constructor
  · refine fun h _ => ⟨fun top htop hnumbered hgreatest release hrelease _ => ?_, fun hnone last hlast => ?_⟩
    · cases hbest : candidates.argmax Release.rank with
      | none =>
        rw [List.argmax_eq_none.mp hbest] at htop
        cases htop
      | some best =>
        have hmem := hbest_mem hbest
        have hle := key_le_of_argmax hbest htop
        have hge := hgreatest best hmem
        have hkey : best.key = top.key := le_antisymm hge hle
        have hparses := (Release.parses (hstrip top htop) hnumbered).1
        have hparses' := (Release.parses (hstrip best (hbest_mem hbest)) fun hnil => hnumbered (hkey.symm.trans hnil)).1
        exact fun hup => h best hbest release hrelease ((upgradeAvailable_congr hparses' hparses hkey _).mpr hup)
    · exact h last ((argmax_eq_head hnone hsorted).trans hlast)
  · intro h best hbest release hrelease
    obtain ⟨hnumbered, hnone⟩ := h hkeys
    have hle := key_le_of_argmax hbest hrelease
    by_cases hkey : best.key = []
    · have hall : ∀ other ∈ candidates, other.key = [] := by
        intro other hother
        have hnil := key_le_of_argmax hbest hother
        rw [hkey] at hnil
        exact hnil.lt_or_eq.resolve_left (List.not_lt_nil _)
      exact hnone hall best ((argmax_eq_head hall hsorted).symm.trans hbest) release hrelease
    · by_cases hodd : release.key = []
      · exact hnumbered best (hbest_mem hbest) hkey (fun other => key_le_of_argmax hbest) release hrelease hodd
      · exact not_upgrade_of_key_le (hstrip best (hbest_mem hbest)) (hstrip release hrelease) hkey hodd hle

/-- No candidate is an upgrade of the release that is picked. -/
def Newest (digest : Bytes → String) (files : Files) (registry : List Artifact) (rid : String) : Prop :=
  ∀ best, latestAgentRelease digest files registry rid = some (some best) →
    ∀ release ∈ candidates digest files registry rid, ¬ UpgradeAvailable release.version best.version

theorem newest_iff : Newest digest files registry rid ↔ Orderly (candidates digest files registry rid) := by
  by_cases hkeys : ∀ release ∈ candidates digest files registry rid, versionKey release.version ≠ none
  · rw [← picked_iff (fun _ => mem_candidates) candidates_sorted hkeys]
    unfold Newest latestAgentRelease
    dsimp only
    rw [if_pos (List.all_eq_true.mpr fun release hrelease => Option.isSome_iff_ne_none.mpr (hkeys release hrelease))]
    simp only [Option.some.injEq]
  · refine iff_of_true (fun best hbest => absurd hbest ?_) fun h => absurd h hkeys
    unfold latestAgentRelease
    dsimp only
    rw [if_neg fun hall => hkeys fun release hrelease =>
      Option.isSome_iff_ne_none.mp (List.all_eq_true.mp hall release hrelease)]
    exact fun h => by cases h

end Picked

end ProxmoxVEAutopilot.Setup
