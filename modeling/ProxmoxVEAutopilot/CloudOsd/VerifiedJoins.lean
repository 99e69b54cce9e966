import ProxmoxVEAutopilot.CloudOsd.Calls
import ProxmoxVEAutopilot.CloudOsd.Create
import ProxmoxVEAutopilot.CloudOsd.DomainJoinExecutor

/-!
# What the executor verifies

The probe prints the flag, the domain and the host on one line, and the executor looks for
the flag's text anywhere in it; the domain it prints is compared with nothing.
-/

namespace ProxmoxVEAutopilot.CloudOsd

open Foundation TsEngine
set_option autoImplicit false

section Probes
variable {p : Probe}

def Probe.mentions (p : Probe) (marker : String) : Prop := contains marker p.name ∨ contains marker p.host

instance (p : Probe) (marker : String) : Decidable (p.mentions marker) := inferInstanceAs (Decidable (_ ∨ _))

theorem contains_output {c : Char} {rest : List Char} {marker : String} (hmarker : marker.toList = c :: rest)
    (hseparator : ';' ∉ marker.toList) (hreturn : '\r' ∉ marker.toList)
    (hfeed : c ≠ '\n') (hname : c ∉ "NAME=".toList) (hhost : c ∉ "HOST=".toList) :
    contains marker p.output ↔ contains marker ("DOMAIN=" ++ boolText p.partOfDomain) ∨ p.mentions marker := by
  have houtput : p.output.toList = ("DOMAIN=" ++ boolText p.partOfDomain).toList ++
      ';' :: ("NAME=".toList ++ p.name.toList ++ ';' :: ("HOST=".toList ++ p.host.toList ++ '\r' :: ['\n'])) := by
    simp [Probe.output]
  have hend : ¬ marker.toList <:+: ['\n'] := by
    rw [hmarker, List.infix_cons_iff]
    rintro (hstart | hnil)
    · exact hfeed (List.cons_prefix_cons.mp hstart).1
    · simp at hnil
  unfold Probe.mentions
  simp only [contains_iff]
  rw [houtput, infix_separated hseparator, infix_separated hseparator, infix_separated hreturn, or_iff_left hend,
    hmarker, infix_labelled hname, infix_labelled hhost]

theorem contains_true_output :
    contains "DOMAIN=True" p.output ↔ p.partOfDomain = some true ∨ p.mentions "DOMAIN=True" := by
  rw [contains_output rfl (by decide) (by decide) (by decide) (by decide) (by decide)]
  refine or_congr_left ?_
  match p.partOfDomain with
  | some true => decide
  | some false => decide
  | none => decide

theorem contains_false_output :
    contains "DOMAIN=False" p.output ↔ p.partOfDomain = some false ∨ p.mentions "DOMAIN=False" := by
  rw [contains_output rfl (by decide) (by decide) (by decide) (by decide) (by decide)]
  refine or_congr_left ?_
  match p.partOfDomain with
  | some true => decide
  | some false => decide
  | none => decide

end Probes

section Effects

def Action.marksDone (kind : String) : Action → Bool
  | .engine ⟨.markDone kinds _ _ _, _⟩ => decide (kind ∈ kinds)
  | _ => false

def Action.emits (eventType : String) : Action → Bool
  | .appendEvent e _ => e.eventType == eventType
  | _ => false

def Script.isAddComputer : Script → Bool
  | .addComputer _ _ _ _ => true
  | _ => false

def Outcome.Verifies (o : Outcome) : Prop :=
  ∃ a ∈ o.actions, a.marksDone "verify_ad_domain_join" ∨ a.emits "domain_join_verified"

def Outcome.Joins (o : Outcome) : Prop := ∃ script ∈ o.scripts, script.isAddComputer

/-- The answer of the guest, where it was asked. -/
def probed (candidate : Candidate) (answers : Answers) : Option Probe :=
  match findNode candidate answers, answers.probe with
  | .ok (some _), .ok p => some p
  | _, _ => none

/-- The run's credential is found and has a name and a password. -/
def HasCredential (candidate : Candidate) (answers : Answers) : Prop :=
  ∃ credentialId, candidate.domainJoin.credentialId = some credentialId ∧
    ∃ cred, answers.credential credentialId = .ok cred ∧
      qualifyUser cred.username candidate.domainJoin ≠ "" ∧ cred.password ≠ ""

end Effects

section Execution
variable {now : Time} {candidate : Candidate} {answers : Answers}

theorem addComputer_effects (username password : String) :
    ¬ (addComputer now candidate answers username password).Verifies ∧
      (addComputer now candidate answers username password).Joins ∧
      (addComputer now candidate answers username password).scripts.head? = some .probe := by
  unfold addComputer
  cases answers.addComputer with
  | error raised => simp [Outcome.Verifies, Outcome.Joins, Script.isAddComputer]
  | ok result =>
    dsimp only
    cases joinSucceeded result with
    | true =>
      simp [Outcome.Verifies, Outcome.Joins, Script.isAddComputer, markSteps, joinEvent, Action.marksDone,
        Action.emits]
    | false => simp [Outcome.Verifies, Outcome.Joins, Script.isAddComputer, joinEvent, Action.marksDone, Action.emits]

theorem joinWithCredential_effects :
    ¬ (joinWithCredential now candidate answers).Verifies ∧
      ((joinWithCredential now candidate answers).Joins ↔ HasCredential candidate answers) ∧
      (joinWithCredential now candidate answers).scripts.head? = some .probe := by
  unfold joinWithCredential HasCredential
  cases candidate.domainJoin.credentialId with
  | none => simp [Outcome.Verifies, Outcome.Joins, Script.isAddComputer, joinEvent, Action.marksDone, Action.emits]
  | some credentialId =>
    dsimp only
    cases hcred : answers.credential credentialId with
    | error raised => simp [Outcome.Verifies, Outcome.Joins, Script.isAddComputer, hcred]
    | ok cred =>
      dsimp only
      by_cases husable : qualifyUser cred.username candidate.domainJoin ≠ "" ∧ cred.password ≠ ""
      · rw [if_pos husable]
        obtain ⟨hverifies, hjoins, hfirst⟩ :
            ¬ (addComputer now candidate answers (qualifyUser cred.username candidate.domainJoin)
              cred.password).Verifies ∧ _ := addComputer_effects _ _
        exact ⟨hverifies, iff_of_true hjoins ⟨credentialId, rfl, cred, hcred, husable⟩, hfirst⟩
      · rw [if_neg husable]
        refine ⟨by simp [Outcome.Verifies, joinEvent, Action.marksDone, Action.emits], iff_of_false ?_ ?_, rfl⟩
        · simp [Outcome.Joins, Script.isAddComputer]
        · rintro ⟨_, ⟨⟩, _, hfound, hgood⟩
          rw [hcred] at hfound
          cases hfound
          exact husable hgood

theorem executeJoinForRun_of_not_probed (h : probed candidate answers = none) :
    ¬ (executeJoinForRun now candidate answers).Verifies ∧ ¬ (executeJoinForRun now candidate answers).Joins := by
  unfold probed at h
  unfold executeJoinForRun
  match hnode : findNode candidate answers, hprobe : answers.probe with
  | .error raised, _ => simp [Outcome.Verifies, Outcome.Joins]
  | .ok none, _ => simp [Outcome.Verifies, Outcome.Joins]
  | .ok (some node), .error raised => simp [Outcome.Verifies, Outcome.Joins, Script.isAddComputer]
  | .ok (some node), .ok p =>
    rw [hnode, hprobe] at h
    cases h

theorem executeJoinForRun_of_probed {p : Probe} (h : probed candidate answers = some p) :
    ((executeJoinForRun now candidate answers).Verifies ↔ contains "DOMAIN=True" p.output) ∧
      ((executeJoinForRun now candidate answers).Joins ↔
        ¬ contains "DOMAIN=True" p.output ∧ contains "DOMAIN=False" p.output ∧ HasCredential candidate answers) ∧
      (executeJoinForRun now candidate answers).scripts.head? = some .probe := by
  unfold probed at h
  unfold executeJoinForRun
  match hnode : findNode candidate answers, hprobe : answers.probe with
  | .error raised, _ =>
    rw [hnode] at h
    cases h
  | .ok none, _ =>
    rw [hnode] at h
    cases h
  | .ok (some node), .error raised =>
    rw [hnode, hprobe] at h
    cases h
  | .ok (some node), .ok q =>
    rw [hnode, hprobe] at h
    cases h
    dsimp only
    unfold probeIsDomainJoined
    cases htrue : contains "DOMAIN=True" p.output with
    | true =>
      simp [Outcome.Verifies, Outcome.Joins, Script.isAddComputer, markSteps, joinEvent, Action.marksDone]
    | false =>
      cases hfalse : contains "DOMAIN=False" p.output with
      | true =>
        obtain ⟨hverifies, hjoins, hfirst⟩ : ¬ (joinWithCredential now candidate answers).Verifies ∧ _ :=
          joinWithCredential_effects
        simpa [hverifies, hfirst] using hjoins
      | false => simp [Outcome.Verifies, Outcome.Joins, Script.isAddComputer]

end Execution

section Runs
variable (py : Texts)

/-- The name is one that the completion gate accepts for the run. -/
def Accepts (domainJoin : DomainJoin) (name : String) : Prop :=
  py.casefold name ∈ (domainJoinVerification py domainJoin none).expectedDomainNames.map py.casefold

instance (domainJoin : DomainJoin) (name : String) : Decidable (Accepts py domainJoin name) :=
  inferInstanceAs (Decidable (_ ∈ _))

/-- Membership is verified on the word of a member of an accepted domain, and a guest is
joined after it has said that it is in none. -/
structure Execution.Sound (x : Execution) : Prop where
  verified : x.outcome.Verifies → ∃ p, probed x.candidate x.answers = some p ∧ p.partOfDomain = some true ∧
    Accepts py x.candidate.domainJoin p.name
  joined : x.outcome.Joins → x.outcome.scripts.head? = some .probe ∧
    ∃ p, probed x.candidate x.answers = some p ∧ p.partOfDomain = some false

/-- The guest's answer can be taken at its word: a member is in an accepted domain, and where
the flag is not `True` neither name spells a flag that leads further. -/
def Execution.Plain (x : Execution) : Prop :=
  ∀ p, probed x.candidate x.answers = some p →
    match p.partOfDomain with
    | some true => Accepts py x.candidate.domainJoin p.name
    | some false => ¬ p.mentions "DOMAIN=True"
    | none => ¬ p.mentions "DOMAIN=True" ∧ (p.mentions "DOMAIN=False" → ¬ HasCredential x.candidate x.answers)

variable {py}

theorem sound_iff_plain {x : Execution} {now : Time} (h : x.outcome = executeJoinForRun now x.candidate x.answers) :
    x.Sound py ↔ x.Plain py := by
  cases hprobed : probed x.candidate x.answers with
  | none =>
    obtain ⟨hverifies, hjoins⟩ : ¬ (executeJoinForRun now _ _).Verifies ∧ _ := executeJoinForRun_of_not_probed hprobed
    rw [← h] at hverifies hjoins
    refine iff_of_true ⟨(absurd · hverifies), (absurd · hjoins)⟩ fun p hp => ?_
    rw [hprobed] at hp
    cases hp
  | some p =>
    obtain ⟨hverifies, hjoins, hfirst⟩ : (_ ↔ _) ∧ (_ ↔ _) ∧ (executeJoinForRun now _ _).scripts.head? = _ :=
      executeJoinForRun_of_probed hprobed
    rw [← h] at hverifies hjoins hfirst
    rw [contains_true_output] at hverifies hjoins
    rw [contains_false_output] at hjoins
    have hsound : x.Sound py ↔
        (x.outcome.Verifies → p.partOfDomain = some true ∧ Accepts py x.candidate.domainJoin p.name) ∧
          (x.outcome.Joins → p.partOfDomain = some false) := by
      constructor
      · intro hx
        exact ⟨fun hv => by simpa [hprobed] using hx.verified hv, fun hj => by simpa [hprobed] using (hx.joined hj).2⟩
      · intro hx
        exact ⟨fun hv => ⟨p, hprobed, hx.1 hv⟩, fun hj => ⟨hfirst, p, hprobed, hx.2 hj⟩⟩
    rw [hsound, hverifies, hjoins]
    simp only [Execution.Plain, hprobed, Option.some.injEq, forall_eq']
    -- one case for each flag the guest can print
    match p.partOfDomain with
    | some true => simp
    | some false => simp
    | none =>
      simp only [reduceCtorEq, false_or, false_and, imp_false, not_and]
      exact and_congr_right fun hplain => ⟨fun h => h hplain, fun h _ => h⟩

theorem mem_executions {fleet : List Member} {events : List FleetEvent} {x : Execution}
    (h : x ∈ executions fleet events) : ∃ now, x.outcome = executeJoinForRun now x.candidate x.answers := by
  induction events generalizing fleet with
  | nil => cases h
  | cons event events ih =>
    cases event with
    | outside changed => exact ih h
    | tick t =>
      rcases List.mem_append.mp h with hswept | hlater
      · obtain ⟨result, hresult, hran⟩ := List.mem_filterMap.mp hswept
        obtain ⟨candidate, _, rfl⟩ := List.mem_map.mp hresult
        refine ⟨t.now, ?_⟩
        unfold sweepCandidate at hran
        dsimp only at hran
        split at hran
        · cases hran
        · split at hran
          · cases hran
          · cases hran
            rfl
      · exact ih hlater

/-- The executor keeps to the requested domain in exactly the runs whose guests can all be
taken at their word. -/
theorem executions_sound_iff (fleet : List Member) (events : List FleetEvent) :
    (∀ x ∈ executions fleet events, x.Sound py) ↔ ∀ x ∈ executions fleet events, x.Plain py := by
  refine forall₂_congr fun x hx => ?_
  obtain ⟨now, h⟩ := mem_executions hx
  exact sound_iff_plain h

end Runs

def joiningRun : Deployment :=
  perform (.engine (markDoneCall 1 heartbeatStepKinds))
    ((createRun asciiTexts countingIds id 0 0 {
      artifact := some ⟨"amd64", "sha"⟩
      vmName := "PC1"
      node := some "pve1"
      domainJoin := {
        enabled := true
        credentialId := some 1
        domainFqdn := "corp.example"
        domainControllerIpv4 := "10.0.0.5" } } 0).toOption.get (by decide +kernel))

def otherDomain : Probe := ⟨some true, "other.example", "PC1"⟩

def otherDomainTick : Tick where
  now := 10
  answers := fun _ => {
    resolvedNode := .ok none
    probe := .ok otherDomain
    credential := fun _ => .ok ⟨"join", "secret"⟩
    addComputer := .ok ⟨some 0, "JOIN_OK", ""⟩ }

theorem other_domain_verified :
    ¬ (∀ x ∈ executions [⟨joiningRun, 0, some 5⟩] [.tick otherDomainTick], x.Sound asciiTexts) ∧
      (executions [⟨joiningRun, 0, some 5⟩] [.tick otherDomainTick]).map (fun x => x.outcome.status) = [.alreadyJoined] ∧
      (domainJoinVerification asciiTexts joiningRun.run.domainJoin
        (some ⟨some otherDomain.name, some true⟩)).reason = "heartbeat_domain_mismatch" := by
  refine ⟨fun h => ?_, by decide +kernel, by decide +kernel⟩
  have hran : (executions [⟨joiningRun, 0, some 5⟩] [.tick otherDomainTick]).map
      (fun x => (x.candidate.domainJoin, probed x.candidate x.answers)) =
        [(joiningRun.run.domainJoin, some otherDomain)] := by decide +kernel
  obtain ⟨x, hx, heq⟩ := List.mem_map.mp (hran ▸ List.mem_singleton_self _)
  obtain ⟨hjoin, hprobed⟩ := Prod.mk.inj heq
  obtain ⟨now, houtcome⟩ := mem_executions hx
  have haccepted : Accepts asciiTexts x.candidate.domainJoin otherDomain.name :=
    (sound_iff_plain houtcome).mp (h x hx) otherDomain hprobed
  rw [hjoin] at haccepted
  exact absurd haccepted (by decide +kernel)

end ProxmoxVEAutopilot.CloudOsd
