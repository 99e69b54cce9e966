import ProxmoxVEAutopilot.Agents.DomainCheck
import ProxmoxVEAutopilot.CloudOsd.CompletionGate

/-!
# The domain as agent and controller see it

The agent closes the verify step by its own rule and the controller completes the run by
another: one compares first labels, the other whole names.
-/

namespace ProxmoxVEAutopilot.CloudOsd

open Foundation TsEngine Agents
set_option autoImplicit false

def snapshotHeartbeat (telemetry : TelemetrySnapshot) : Heartbeat := ⟨telemetry.domainName, telemetry.domainJoined⟩

/-- The names a configuration gives, in any spelling. -/
def DomainJoin.names (config : DomainJoin) : List String :=
  config.acceptableDomainNames ++ [config.domainFqdn, config.credentialDomain]

section Names
variable {py : Texts} {net : NetTexts} {raw config : DomainJoin} {computerName : Option String}

theorem strip_of_mem_uniqueText {values : List String} {item : String} (h : item ∈ uniqueText py values) :
    strip item = item ∧ item ≠ "" := by
  refine List.foldlRecOn (motive := fun out : List String => ∀ item ∈ out, strip item = item ∧ item ≠ "")
    values _ (fun _ h => absurd h List.not_mem_nil) ?_ item h
  intro out hout value _ item hitem
  dsimp only at hitem
  split at hitem
  · exact hout item hitem
  · rename_i hkeep
    rcases List.mem_append.mp hitem with hitem | hitem
    · exact hout item hitem
    · rw [List.mem_singleton.mp hitem]
      exact ⟨strip_strip value, fun hempty => hkeep (.inl hempty)⟩

theorem keys_uniqueText_twice {values : List String} {key : String} :
    key ∈ (uniqueText py (uniqueText py values)).map py.casefold ↔ key ∈ (uniqueText py values).map py.casefold := by
  rw [mem_uniqueText_keys]
  constructor
  · rintro ⟨item, hitem, _, rfl⟩
    rw [(strip_of_mem_uniqueText hitem).1]
    exact List.mem_map_of_mem hitem
  · intro h
    obtain ⟨item, hitem, rfl⟩ := List.mem_map.mp h
    obtain ⟨hstrip, hne⟩ := strip_of_mem_uniqueText hitem
    exact ⟨item, hitem, by rwa [hstrip], by rw [hstrip]⟩

theorem mem_expectedDomainNames {key : String} {heartbeat : Option Heartbeat} (henabled : raw.enabled = true) :
    key ∈ (domainJoinVerification py (sanitizeDomainJoin py raw computerName) heartbeat).expectedDomainNames.map
        py.casefold ↔
      key ∈ (sanitizeDomainJoin py raw computerName).acceptableDomainNames.map py.casefold := by
  simp only [domainJoinVerification, sanitizeDomainJoin, henabled, Bool.not_true, Bool.false_eq_true, if_false,
    strip_strip]
  rw [keys_uniqueText_twice, mem_uniqueText_keys]
  constructor
  · rintro ⟨value, hvalue, hne, rfl⟩
    rcases List.mem_append.mp hvalue with hkept | hdomain
    · rw [(strip_of_mem_uniqueText hkept).1]
      exact List.mem_map_of_mem hkept
    · exact mem_uniqueText_keys.mpr ⟨value, List.mem_append_right _ hdomain, hne, rfl⟩
  · intro h
    obtain ⟨item, hitem, rfl⟩ := List.mem_map.mp h
    obtain ⟨hstrip, hne⟩ := strip_of_mem_uniqueText hitem
    exact ⟨item, List.mem_append_left _ hitem, by rwa [hstrip], by rw [hstrip]⟩

/-- The reported name is an accepted one, up to case. -/
def NamesDomain (py : Texts) (config : DomainJoin) (reported : String) : Prop :=
  py.casefold (strip reported) ≠ "" ∧
    py.casefold (strip reported) ∈ config.acceptableDomainNames.map py.casefold

theorem matched_iff_expected {heartbeat : Option Heartbeat} :
    (domainJoinVerification py config heartbeat).isMatched = true ↔
      (sanitizeDomainJoin py config none).enabled = true ∧ (heartbeat.getD {}).domainJoined.getD false = true ∧
        py.casefold (strip ((heartbeat.getD {}).domainName.getD "")) ≠ "" ∧
        py.casefold (strip ((heartbeat.getD {}).domainName.getD "")) ∈
          (domainJoinVerification py config heartbeat).expectedDomainNames.map py.casefold := by
  simp only [domainJoinVerification, Bool.and_eq_true, decide_eq_true_eq, and_assoc]

theorem isMatched_iff {telemetry : TelemetrySnapshot} :
    (domainJoinVerification py (sanitizeDomainJoin py raw computerName)
        (some (snapshotHeartbeat telemetry))).isMatched = true ↔
      telemetry.domainJoined = some true ∧
        NamesDomain py (sanitizeDomainJoin py raw computerName) (telemetry.domainName.getD "") := by
  have hjoined : telemetry.domainJoined.getD false = true ↔ telemetry.domainJoined = some true := by
    cases telemetry.domainJoined with
    | none => simp
    | some joined => simp
  rw [matched_iff_expected]
  cases henabled : raw.enabled with
  | false =>
    refine iff_of_false ?_ fun h => ?_
    · simp [sanitizeDomainJoin, henabled]
    · simpa [sanitizeDomainJoin, henabled] using h.2.2
  | true =>
    have hstored : (sanitizeDomainJoin py (sanitizeDomainJoin py raw computerName) none).enabled = true := by
      simp [sanitizeDomainJoin, henabled]
    rw [mem_expectedDomainNames henabled, and_iff_right hstored]
    exact and_congr_left' hjoined

theorem configuredNames_stored (vmGroupTag : Option String) :
    configuredNames net (stepParams (sanitizeDomainJoin py raw computerName) vmGroupTag "verify_ad_domain_join") =
      (sanitizeDomainJoin py raw computerName).names.filter fun name => !isBlank name := by
  change configuredNames net (sanitizeDomainJoin py raw computerName).json = _
  cases henabled : raw.enabled with
  | false =>
    have hstored : sanitizeDomainJoin py raw computerName = {} := by simp [sanitizeDomainJoin, henabled]
    rw [hstored]
    change configuredNames net (.obj [("enabled", .bool false)]) = _
    unfold configuredNames
    rw [readStringArray_missing rfl, readOptionalString_missing rfl, readOptionalString_missing rfl]
    rfl
  | true =>
    have hstored : (sanitizeDomainJoin py raw computerName).enabled = true := by simp [sanitizeDomainJoin, henabled]
    unfold configuredNames DomainJoin.json
    rw [hstored, if_neg (by decide), readStringArray_texts rfl, readOptionalString_text rfl, readOptionalString_text rfl,
      ← List.filter_append, ← List.filter_append, List.append_assoc]
    rfl

theorem not_isBlank_of_acceptable {name : String}
    (h : name ∈ (sanitizeDomainJoin py raw computerName).acceptableDomainNames) : isBlank name = false := by
  have hclean : strip name = name ∧ name ≠ "" := by
    unfold sanitizeDomainJoin at h
    split at h
    · cases h
    · exact strip_of_mem_uniqueText h
  refine Bool.eq_false_iff.mpr fun hblank => hclean.2 ?_
  have hspaces : name.toList.dropWhile isSpace = [] :=
    List.dropWhile_eq_nil_iff.mpr fun c hc => isWhiteSpace_isSpace (List.all_eq_true.mp hblank c hc)
  rw [← hclean.1]
  unfold strip
  rw [hspaces]
  rfl

/-- How the reported name has to relate to the configured ones: where one is configured at
all, the first label decides as the whole name does. -/
structure SettledByLabel (py : Texts) (net : NetTexts) (config : DomainJoin) (reported : String) : Prop where
  configured : isBlank reported = false → ∃ name ∈ config.names, isBlank name = false
  whole : isBlank reported = false → ∀ name ∈ config.names, isBlank name = false → SharesLabel net reported name →
    NamesDomain py config reported
  label : NamesDomain py config reported → isBlank reported = false ∧
    ∃ name ∈ config.names, isBlank name = false ∧ SharesLabel net reported name

/-- Agent and controller give one answer exactly on the telemetry of a guest that is in no
domain, or whose name is settled by its first label. -/
theorem agent_agrees_iff {telemetry : TelemetrySnapshot} (vmGroupTag : Option String) :
    isDomainJoinSatisfied net telemetry
        (stepParams (sanitizeDomainJoin py raw computerName) vmGroupTag "verify_ad_domain_join") =
      (domainJoinVerification py (sanitizeDomainJoin py raw computerName)
        (some (snapshotHeartbeat telemetry))).isMatched ↔
    (telemetry.domainJoined = some true →
      SettledByLabel py net (sanitizeDomainJoin py raw computerName) (telemetry.domainName.getD "")) := by
  rw [Bool.eq_iff_iff, isDomainJoinSatisfied_iff, isMatched_iff, configuredNames_stored]
  have hnamed : ∀ {reported}, NamesDomain py (sanitizeDomainJoin py raw computerName) reported →
      ∃ name ∈ (sanitizeDomainJoin py raw computerName).names, isBlank name = false := by
    intro reported hnames
    obtain ⟨name, hname, _⟩ := List.mem_map.mp hnames.2
    exact ⟨name, List.mem_append_left _ hname, not_isBlank_of_acceptable hname⟩
  generalize sanitizeDomainJoin py raw computerName = config at hnamed ⊢
  generalize telemetry.domainName.getD "" = reported
  have hnone : (config.names.filter fun name => !isBlank name) = [] ↔ ¬ ∃ name ∈ config.names, isBlank name = false := by
    simp [List.filter_eq_nil_iff]
  have hsome : (∃ a ∈ config.names.filter fun name => !isBlank name, SharesLabel net reported a) ↔
      ∃ name ∈ config.names, isBlank name = false ∧ SharesLabel net reported name := by
    simp [List.mem_filter, and_assoc]
  rw [hnone, hsome]
  by_cases hjoined : telemetry.domainJoined = some true
  · simp only [hjoined, true_and, true_implies]
    constructor
    · intro h
      refine ⟨fun hblank => ?_, fun hblank name hname hkept hshares => h.mp ⟨hblank, .inr ⟨name, hname, hkept, hshares⟩⟩,
        fun hnames => ?_⟩
      · by_contra hempty
        exact hempty (hnamed (h.mp ⟨hblank, .inl hempty⟩))
      · obtain ⟨hblank, hshares⟩ := h.mpr hnames
        exact ⟨hblank, hshares.resolve_left (not_not_intro (hnamed hnames))⟩
    · intro h
      constructor
      · rintro ⟨hblank, hempty | ⟨name, hname, hkept, hshares⟩⟩
        · exact absurd (h.configured hblank) hempty
        · exact h.whole hblank name hname hkept hshares
      · intro hnames
        obtain ⟨hblank, hshares⟩ := h.label hnames
        exact ⟨hblank, .inr hshares⟩
  · simp [hjoined]

end Names

def asciiNet : NetTexts where
  upper := Char.toUpper
  upper_dot := by
    intro c
    refine ⟨fun h => ?_, fun h => by rw [h]; rfl⟩
    have halpha : c.isAlpha = false := by
      rw [← Char.isUpper_toUpper_eq_isAlpha, h]
      rfl
    have hlower : ¬ c.isLower := fun hlower => by simp [Char.isAlpha, hlower] at halpha
    rwa [Char.toUpper_eq_of_not_isLower hlower] at h
  floatText := fun q => toString q

def homeDomain : DomainJoin :=
  sanitizeDomainJoin asciiTexts { enabled := true, domainFqdn := "home.gell.one" } none

/-- The agent takes the short name, and a domain of the same first label, for the domain. -/
theorem agent_accepts_first_label :
    (["HOME", "home.example"].all fun reported =>
      isDomainJoinSatisfied asciiNet ⟨some reported, some true⟩ (stepParams homeDomain none "verify_ad_domain_join") &&
        !(domainJoinVerification asciiTexts homeDomain
          (some (snapshotHeartbeat ⟨some reported, some true⟩))).isMatched) = true := by
  decide +kernel

end ProxmoxVEAutopilot.CloudOsd
