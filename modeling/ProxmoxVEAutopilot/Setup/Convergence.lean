import ProxmoxVEAutopilot.Setup.Updates

/-!
# Agents come to run the release that is picked

Zeros after a version change nothing, and neither do update checks and promotions.
-/

namespace ProxmoxVEAutopilot.Setup

open Foundation
set_option autoImplicit false

section Zeros
variable {version : String} {parts : List Nat}

/-- Any number of `.0` parts. -/
def dotZeros (n : Nat) : String := String.ofList (List.replicate n ['.', '0']).flatten

theorem splitOnP_zeros (cs : List Char) (n : Nat) :
    (cs ++ (List.replicate n ['.', '0']).flatten).splitOnP (fun c => c = '.' || c = '-') =
      cs.splitOnP (fun c => c = '.' || c = '-') ++ List.replicate n ['0'] := by
  induction n with
  | zero => rw [List.replicate_zero, List.replicate_zero, List.flatten_nil, List.append_nil, List.append_nil]
  | succ n ih =>
    rw [List.replicate_succ', List.replicate_succ', List.flatten_append, List.flatten_singleton, ← List.append_assoc,
      List.splitOnP_append_cons _ _ (by rfl), ih, List.append_assoc]
    rfl

theorem numbersOf_zeros (n : Nat) : numbersOf (List.replicate n ['0']) = some (List.replicate n 0) := by
  induction n with
  | zero => rfl
  | succ n ih =>
    rw [List.replicate_succ, List.replicate_succ, numbersOf, if_pos (by decide), ih]
    rfl

theorem numbersOf_append_zeros (n : Nat) {pieces : List (List Char)} : ∀ {parts : List Nat}, numbersOf pieces = some parts →
    ∃ k, numbersOf (pieces ++ List.replicate n ['0']) = some (parts ++ List.replicate k 0) := by
  induction pieces with
  | nil =>
    intro parts h
    cases h
    exact ⟨n, numbersOf_zeros n⟩
  | cons raw pieces ih =>
    intro parts h
    rw [List.cons_append, numbersOf]
    rw [numbersOf] at h
    split at h
    · rename_i hdigits
      obtain ⟨value, hvalue, hrest⟩ := Option.bind_eq_some_iff.mp h
      obtain ⟨rest, hparts, rfl⟩ := Option.map_eq_some_iff.mp hrest
      obtain ⟨k, hk⟩ := ih hparts
      exact ⟨k, by rw [if_pos hdigits, hvalue, hk]; rfl⟩
    · rename_i hdigits
      cases h
      exact ⟨0, by rw [if_neg hdigits]; rfl⟩

theorem Parses.append_zeros (h : Parses version parts) (n : Nat) :
    ∃ k, Parses (version ++ dotZeros n) (parts ++ List.replicate k 0) := by
  obtain ⟨k, hk⟩ := numbersOf_append_zeros n h.1
  refine ⟨k, ?_, fun hnil => h.2 (List.append_eq_nil_iff.mp hnil).1⟩
  unfold versionParts dotZeros
  rwa [Option.getD_some, String.toList_append, String.toList_ofList, splitOnP_zeros]

theorem schemeOf_append_zeros (h : parts ≠ []) (k : Nat) : schemeOf (parts ++ List.replicate k 0) = schemeOf parts := by
  cases parts with
  | nil => exact absurd rfl h
  | cons major parts => rfl

theorem current_append_zeros (h : Parses version parts) (n : Nat) :
    (compareVersions (some version) (some (version ++ dotZeros n))).map Prod.fst = some .current := by
  obtain ⟨k, hk⟩ := h.append_zeros n
  exact current_of_entries_eq h hk (schemeOf_append_zeros h.2 k).symm (entries_append_zeros _ k).symm

end Zeros

section Promotions

def Artifact.unpromoted (row : Artifact) : Artifact := { row with proxmoxVolid := none, promotedAt := none }

def Release.unpromoted (release : Release) : Release := { release with artifact := release.artifact.unpromoted }

variable {digest : Bytes → String} {files : Files} {registry : List Artifact} {rid : String}

theorem markPromoted_unpromoted (registry : List Artifact) (artifactId volid now : String) :
    (markPromoted registry artifactId volid now).map Artifact.unpromoted = registry.map Artifact.unpromoted := by
  induction registry with
  | nil => rfl
  | cons row rest ih =>
    rw [markPromoted]
    split
    · rfl
    · rw [List.map_cons, ih, List.map_cons]

theorem argmax_map {α β γ : Type} [LinearOrder γ] (f : β → γ) (g : α → β) (xs : List α) :
    (xs.map g).argmax f = (xs.argmax (f ∘ g)).map g := by
  induction xs with
  | nil => rfl
  | cons x xs ih =>
    rw [List.map_cons, List.argmax_cons, List.argmax_cons, ih]
    cases xs.argmax (f ∘ g) with
    | none => rfl
    | some y => exact (apply_ite (Option.map g) (f (g x) < f (g y)) (some y) (some x)).symm

theorem listArtifacts_unpromoted (kind : String) :
    listArtifacts (registry.map Artifact.unpromoted) kind = (listArtifacts registry kind).map Artifact.unpromoted := by
  unfold listArtifacts
  rw [List.filter_map]
  exact (List.map_insertionSort _ _ Artifact.unpromoted _ fun _ _ _ _ => Iff.rfl).symm

theorem release_unpromoted (row : Artifact) :
    row.unpromoted.release digest files rid = (row.release digest files rid).map Release.unpromoted := by
  have hpath : row.unpromoted.path = row.path := rfl
  unfold Artifact.release
  rw [hpath, Option.map_bind]
  refine Option.bind_congr fun file _ => ?_
  have hsize : row.unpromoted.sizeBytes = row.sizeBytes := rfl
  have hrid : row.unpromoted.rid = row.rid := rfl
  rw [Function.comp, apply_ite (Option.map Release.unpromoted), hsize, hrid]
  rfl

theorem candidates_unpromoted : candidates digest files (registry.map Artifact.unpromoted) rid =
    (candidates digest files registry rid).map Release.unpromoted := by
  unfold candidates
  rw [listArtifacts_unpromoted, List.filterMap_map, List.map_filterMap]
  refine List.filterMap_congr fun row _ => ?_
  exact release_unpromoted row

theorem latest_unpromoted : latestAgentRelease digest files (registry.map Artifact.unpromoted) rid =
    (latestAgentRelease digest files registry rid).map (Option.map Release.unpromoted) := by
  unfold latestAgentRelease
  dsimp only
  rw [candidates_unpromoted, List.all_map, argmax_map]
  have hall : ((fun release : Release => (versionKey release.version).isSome) ∘ Release.unpromoted) =
      fun release => (versionKey release.version).isSome := by
    funext release
    simp only [Function.comp, Release.unpromoted]
  have hrank : Release.rank ∘ Release.unpromoted = Release.rank := by
    funext release
    simp only [Function.comp, Release.rank, Release.key, Release.unpromoted, Artifact.unpromoted]
  rw [hall, hrank, apply_ite (Option.map (Option.map Release.unpromoted))]
  rfl

theorem latest_exec (w : Controller) (events : List Event) {best : Release}
    (h : latestAgentRelease digest w.files w.registry rid = some (some best)) :
    ∃ best', latestAgentRelease digest (events.foldl (exec digest) w).files (events.foldl (exec digest) w).registry rid =
      some (some best') ∧ best'.version = best.version := by
  have hkept : ∀ (events : List Event) (w : Controller), (events.foldl (exec digest) w).files = w.files ∧
      (events.foldl (exec digest) w).registry.map Artifact.unpromoted = w.registry.map Artifact.unpromoted := by
    intro events
    induction events with
    | nil => exact fun w => ⟨rfl, rfl⟩
    | cons e events ih =>
      intro w
      obtain ⟨hfiles, hregistry⟩ := ih (exec digest w e)
      rw [List.foldl_cons, hfiles, hregistry]
      cases e with
      | updateCheck agent rid reported =>
        unfold exec
        dsimp only
        split <;> exact ⟨rfl, rfl⟩
      | record agent version => exact ⟨rfl, rfl⟩
      | promote artifactId volid now => exact ⟨rfl, markPromoted_unpromoted _ _ _ _⟩
  obtain ⟨hfiles, hregistry⟩ := hkept events w
  have hafter : latestAgentRelease digest w.files ((events.foldl (exec digest) w).registry.map Artifact.unpromoted) rid =
      (latestAgentRelease digest w.files (events.foldl (exec digest) w).registry rid).map (Option.map Release.unpromoted) :=
    latest_unpromoted
  rw [hregistry, latest_unpromoted, h] at hafter
  obtain ⟨picked, hpicked, heq⟩ := Option.map_eq_some_iff.mp hafter.symm
  obtain ⟨best', rfl, hbest'⟩ := Option.map_eq_some_iff.mp heq
  refine ⟨best', by rw [hfiles, hpicked], ?_⟩
  have hversion : best'.unpromoted.version = best.unpromoted.version := by rw [hbest']
  exact hversion

end Promotions

section Converged
variable (digest : Bytes → String)

/-- An agent that runs the version that is picked, with or without zeros after it, is told that
it is current, whatever else happens until an artifact is registered. -/
def Settled (w : Controller) (rid version : String) : Prop :=
  ∀ (events : List Event) (agent : String) (n : Nat),
    (updateCheck digest (events.foldl (exec digest) w) agent rid (some (version ++ dotZeros n))).map UpdateAnswer.status =
      some .current

theorem settled_of_latest {w : Controller} {rid : String} {best : Release} {parts : List Nat}
    (h : latestAgentRelease digest w.files w.registry rid = some (some best)) (hparses : Parses best.version parts) :
    Settled digest w rid best.version := by
  intro events agent n
  obtain ⟨best', hbest', hversion⟩ := latest_exec w events h
  obtain ⟨k, hk⟩ := hparses.append_zeros n
  have hcurrent := current_append_zeros hparses n
  rw [← hversion] at hcurrent
  have hinstalled : (given (some (best.version ++ dotZeros n))).or ((events.foldl (exec digest) w).recorded agent) =
      some (best.version ++ dotZeros n) := by
    obtain ⟨reported, hreported⟩ := Option.ne_none_iff_exists'.mp hk.given
    rw [hreported, ← (Option.filter_eq_some_iff.mp hreported).1]
    rfl
  unfold updateCheck
  rw [hbest', Option.bind_some]
  unfold answer
  dsimp only
  rw [hinstalled, Option.map_map, ← hversion]
  exact hcurrent

/-- How far agent updates converge on the newest release. -/
theorem updates_converge_iff (files : Files) (registry : List Artifact) (rid : String) :
    (Newest digest files registry rid ↔ Orderly (candidates digest files registry rid)) ∧
    (∀ recorded best parts, latestAgentRelease digest files registry rid = some (some best) →
      Parses best.version parts → Settled digest ⟨registry, files, recorded⟩ rid best.version) ∧
    ∀ scheme, IsStrictWeakOrder (InScheme scheme) (fun installed published => UpgradeAvailable published.1 installed.1) ∧
      ∀ version, ¬ Relation.TransGen (fun installed published : InScheme scheme =>
        UpgradeAvailable published.1 installed.1) version version :=
  ⟨newest_iff, fun _ _ _ h hparses => settled_of_latest digest h hparses,
    fun scheme => ⟨upgradeAvailable_order scheme, no_upgrade_cycle scheme⟩⟩

def msi (version createdAt : String) : Artifact where
  artifactId := version
  kind := "agent-msi"
  filename := "AutopilotAgent.msi"
  path := "/artifacts/agent-msi/AutopilotAgent.msi"
  sizeBytes := 4096
  sha256 := "00"
  metadata := [("version", version)]
  producerAgentId := "build-host"
  workItemId := "publish"
  createdAt := createdAt

def msiFiles : Files := fun _ => some [0x4D, 0x5A]

def msiRelease (version createdAt : String) : Release := ⟨msi version createdAt, "win-x64", version, 4096, "00"⟩

/-- A version of four numbers is not picked, although it is an upgrade of the one that is. -/
theorem four_numbers_not_picked : ¬ Newest (fun _ => "00") msiFiles
    [msi "2026.8.9" "2026-08-09T00:00:00", msi "2026.8.9.1" "2026-08-10T00:00:00"] "win-x64" := by
  intro h
  have hpicked := h (msiRelease "2026.8.9" "2026-08-09T00:00:00") (by decide +kernel)
  have hother := hpicked (msiRelease "2026.8.9.1" "2026-08-10T00:00:00") (by decide +kernel)
  exact hother (show _ = _ by decide +kernel)

end Converged

end ProxmoxVEAutopilot.Setup
