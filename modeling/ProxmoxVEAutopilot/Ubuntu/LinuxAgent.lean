import ProxmoxVEAutopilot.Foundation.JsonText
import ProxmoxVEAutopilot.Foundation.Lines
import ProxmoxVEAutopilot.Foundation.Markers
import ProxmoxVEAutopilot.Foundation.Text
import ProxmoxVEAutopilot.TsEngine.Endpoints

/-!
# The Linux agent

An action is a success unless its branch says otherwise. So is every kind that has no
branch, and so are two of the branches when they find nothing to do or nothing good.
-/

namespace ProxmoxVEAutopilot.Ubuntu.LinuxAgent

open Foundation TsEngine
open Foundation.JsonText (Floats loads)

set_option autoImplicit false

/-- How a command ended. -/
inductive Outcome where
  | exited (returncode : Int) (stdout stderr : String)
  | raised (text : String)

structure Ran where
  ok : Bool
  returncode : Int
  stdout : String
  stderr : String

def run : Outcome → Ran
  | .exited returncode stdout stderr => ⟨returncode == 0, returncode, strip stdout, strip stderr⟩
  | .raised text => ⟨false, -1, "", text⟩

def Ran.json (ran : Ran) : Json :=
  .obj [("ok", .bool ran.ok), ("returncode", .int ran.returncode), ("stdout", .str ran.stdout),
    ("stderr", .str ran.stderr)]

/-- The machine at one moment: how `bash -lc` ends for a command and a time limit, and what
Python reads without it. -/
structure Machine where
  bash : Json → Int → Outcome
  hostname : String
  primaryIpv4 : String
  osRelease : Option String
  platform : String
  kernel : String

def intunePkgCommand : Json := .str "dpkg-query -W -f='$\x7bVersion\x7d' intune-portal 2>/dev/null"
def intuneVersionCommand : Json := .str "intune-portal --version 2>/dev/null"
def mdatpHealthCommand : Json := .str "mdatp health --output json 2>/dev/null"
def qgaCommand : Json := .str "systemctl is-active qemu-guest-agent 2>/dev/null"
def cloudInitCommand : Json := .str "cloud-init status --format json 2>/dev/null"
def cloudInitWaitCommand : Json := .str "cloud-init status --wait"

structure Evidence where
  hostname : String
  primaryIpv4 : String
  distro : String
  kernel : String
  qgaActive : Bool
  qgaStatus : Ran
  cloudInitStatus : Ran
  intunePortalVersion : String
  intune : String
  mdeHealth : String
  mdatpInstalled : Bool
  mde : String

/-- The lines `key=value` of `/etc/os-release`. -/
def osReleaseFields (text : String) : List (String × String) :=
  (splitlines text.toList).filterMap fun line =>
    if '=' ∈ line then
      some (String.ofList (line.takeWhile (· ≠ '=')),
        String.ofList (trimmed (· == '"') (trimmed isSpace ((line.dropWhile (· ≠ '=')).drop 1))))
    else none

namespace Machine
variable (m : Machine)

def probe (command : Json) : Ran := run (m.bash command 30)

def evidence : Evidence :=
  let osRelease := (m.osRelease.map osReleaseFields).getD []
  let intunePkg := m.probe intunePkgCommand
  let intuneVersion := m.probe intuneVersionCommand
  let mdatpHealth := m.probe mdatpHealthCommand
  let qga := m.probe qgaCommand
  { hostname := m.hostname
    primaryIpv4 := m.primaryIpv4
    distro := orText (osRelease.reverse.lookup "PRETTY_NAME") m.platform
    kernel := m.kernel
    qgaActive := qga.stdout == "active"
    qgaStatus := qga
    cloudInitStatus := m.probe cloudInitCommand
    intunePortalVersion :=
      if intunePkg.stdout ≠ "" then intunePkg.stdout else if intuneVersion.ok then intuneVersion.stdout else ""
    intune := if intunePkg.ok then "waiting_for_user_signin" else "portal_not_installed"
    mdeHealth := mdatpHealth.stdout
    mdatpInstalled := mdatpHealth.ok
    mde :=
      if mdatpHealth.ok && contains "healthy" (lower mdatpHealth.stdout) then "healthy"
      else if mdatpHealth.ok then "installed_not_onboarded"
      else "mdatp_not_installed" }

end Machine

def Evidence.fields (e : Evidence) : List (String × Json) :=
  [ ("hostname", .str e.hostname), ("primary_ipv4", .str e.primaryIpv4), ("distro", .str e.distro),
    ("kernel", .str e.kernel), ("qga_active", .bool e.qgaActive), ("qga_status", e.qgaStatus.json),
    ("cloud_init_status", e.cloudInitStatus.json), ("intune_portal_version", .str e.intunePortalVersion),
    ("intune", .str e.intune), ("mde_health", .str e.mdeHealth), ("mdatp_installed", .bool e.mdatpInstalled),
    ("mde", .str e.mde) ]

/-- What the agent reads of an action; a missing value is null. -/
structure Action where
  stepId : String
  kind : String
  phase : Option String := none
  timeoutSeconds : Json := .null
  params : Json := .null

structure Report where
  stepId : String
  phase : String
  status : Status
  message : String
  data : Json

/-- What an action sends; no result if it raises. -/
structure Sent where
  log : String
  result : Option Report

namespace Action
variable (action : Action)

/-- `int(action.get("timeout_seconds") or default)` -/
def timeout (default : Int) : Option Int :=
  pyInt (if action.timeoutSeconds.truthy then action.timeoutSeconds else .int default)

/-- `(action.get("params") or {}).get("command")`; only a dict has a `get`. -/
def command : Option Json :=
  match action.params with
  | .obj fields => some ((fields.lookup "command").getD .null)
  | other => if other.truthy then none else some .null

def report (configPhase : String) (status : Status) (message : String) (data : List (String × Json)) : Report where
  stepId := action.stepId
  phase := orText action.phase configPhase
  status := status
  message := message
  data := .obj data

end Action

/-- The result that `_execute_action` posts. The action's own command runs on the machine
`during`, the second evidence is of `after`. -/
def resultOf (configPhase : String) (before during after : Machine) (action : Action) : Option Report :=
  let evidence := before.evidence
  let complete := action.kind ++ " complete"
  if action.kind = "verify_qga_linux" ∧ evidence.qgaActive = false then
    some (action.report configPhase .failed "qemu-guest-agent is not active" evidence.fields)
  else if action.kind = "verify_intune_portal" ∧ evidence.intune = "portal_not_installed" then
    some (action.report configPhase .failed "intune-portal is not installed" evidence.fields)
  else if action.kind = "verify_mde_linux" ∧ evidence.mde ∈ ["mdatp_not_installed", "unhealthy"] then
    some (action.report configPhase .failed "mdatp is not healthy" evidence.fields)
  else if action.kind = "wait_cloud_init_complete" then
    (action.timeout 900).map fun timeout =>
      let waited := run (during.bash cloudInitWaitCommand timeout)
      -- the second evidence replaces every field of the first
      let data := after.evidence.fields ++ [("cloud_init_wait", waited.json)]
      if waited.ok then action.report configPhase .success complete data
      else action.report configPhase .failed "cloud-init did not complete successfully" data
  else if action.kind = "run_firstboot_script" then
    action.command.bind fun cmd =>
      if cmd.truthy then
        (action.timeout 600).map fun timeout =>
          let ran := run (during.bash cmd timeout)
          let data := evidence.fields ++ [("script", ran.json)]
          if ran.ok then action.report configPhase .success "first-boot script complete" data
          else action.report configPhase .failed "first-boot script failed" data
      else some (action.report configPhase .success complete evidence.fields)
  else some (action.report configPhase .success complete evidence.fields)

/-- `_execute_action`, where `logged` says whether the server took the log. -/
def executeAction (configPhase : String) (logged : Bool) (before during after : Machine) (action : Action) : Sent where
  log := "Executing " ++ action.kind ++ " on " ++ before.evidence.hostname
  result := if logged then resultOf configPhase before during after action else none

/-- What `main` registers with. -/
def capabilities : List String :=
  ["linux_agent_heartbeat", "wait_cloud_init_complete", "verify_qga_linux", "verify_intune_portal",
    "verify_mde_linux", "run_firstboot_script"]

/-! ### What success has to mean -/

/-- The text of `mdatp health` says `"healthy": true`. -/
def SaysHealthy (floats : Floats) (stdout : String) : Prop :=
  ∃ answer, loads floats stdout.toList = some answer ∧ answer.get? "healthy" = some (.bool true)

def Outcome.Succeeded (o : Outcome) : Prop := ∃ stdout stderr, o = .exited 0 stdout stderr

structure Earned (floats : Floats) (before during : Machine) (action : Action) : Prop where
  registered : action.kind ∈ capabilities
  mde : action.kind = "verify_mde_linux" →
    ∃ stdout stderr, before.bash mdatpHealthCommand 30 = .exited 0 stdout stderr ∧ SaysHealthy floats stdout
  intune : action.kind = "verify_intune_portal" → (before.bash intunePkgCommand 30).Succeeded
  qga : action.kind = "verify_qga_linux" →
    ∃ returncode stdout stderr, before.bash qgaCommand 30 = .exited returncode stdout stderr ∧ strip stdout = "active"
  cloudInit : action.kind = "wait_cloud_init_complete" →
    ∃ timeout, action.timeout 900 = some timeout ∧ (during.bash cloudInitWaitCommand timeout).Succeeded
  firstboot : action.kind = "run_firstboot_script" →
    ∃ cmd timeout, action.command = some cmd ∧ cmd.truthy = true ∧ action.timeout 600 = some timeout ∧
      (during.bash cmd timeout).Succeeded

/-- Success is reported only where it is earned. -/
def SuccessEarned (floats : Floats) (configPhase : String) (logged : Bool) (before during after : Machine)
    (action : Action) : Prop :=
  ∀ report, (executeAction configPhase logged before during after action).result = some report →
    report.status = .success → Earned floats before during action

/-- The kind is registered, Defender does not answer without being healthy, and a first-boot
script has a command; or the server did not take the log. -/
def Covered (floats : Floats) (logged : Bool) (before : Machine) (action : Action) : Prop :=
  logged = false ∨
    (action.kind ∈ capabilities ∧
      (action.kind = "verify_mde_linux" → ∀ stdout stderr,
        before.bash mdatpHealthCommand 30 = .exited 0 stdout stderr → SaysHealthy floats stdout) ∧
      (action.kind = "run_firstboot_script" → ∀ cmd, action.command = some cmd → cmd.truthy = true))

theorem run_ok {o : Outcome} : (run o).ok = true ↔ o.Succeeded := by
  cases o with
  | exited returncode stdout stderr =>
    change (returncode == 0) = true ↔ _
    rw [beq_iff_eq]
    constructor
    · rintro rfl
      exact ⟨stdout, stderr, rfl⟩
    · rintro ⟨_, _, heq⟩
      cases heq
      rfl
  | raised text =>
    constructor
    · intro h
      cases h
    · rintro ⟨_, _, heq⟩
      cases heq

theorem run_stdout {o : Outcome} {text : String} (h : (run o).stdout = text) (hne : text ≠ "") :
    ∃ returncode stdout stderr, o = .exited returncode stdout stderr ∧ strip stdout = text := by
  cases o with
  | exited returncode stdout stderr => exact ⟨returncode, stdout, stderr, rfl, h⟩
  | raised text => exact absurd h.symm hne

theorem evidence_mde {m : Machine} :
    m.evidence.mde ∈ ["mdatp_not_installed", "unhealthy"] ↔ (m.probe mdatpHealthCommand).ok = false := by
  unfold Machine.evidence
  dsimp only
  cases hok : (m.probe mdatpHealthCommand).ok with
  | false => simp
  | true =>
    rw [Bool.true_and, if_pos rfl]
    split
    · decide
    · decide

theorem evidence_intune {m : Machine} :
    m.evidence.intune = "portal_not_installed" ↔ (m.probe intunePkgCommand).ok = false := by
  unfold Machine.evidence
  dsimp only
  cases (m.probe intunePkgCommand).ok with
  | false => simp
  | true => decide

section Branches
variable {configPhase : String} {before during after : Machine} {action : Action}

theorem resultOf_default
    (hkind : action.kind ∉ ["verify_qga_linux", "verify_intune_portal", "verify_mde_linux",
      "wait_cloud_init_complete", "run_firstboot_script"]) :
    resultOf configPhase before during after action =
      some (action.report configPhase .success (action.kind ++ " complete") before.evidence.fields) := by
  simp only [List.mem_cons, List.not_mem_nil, or_false, not_or] at hkind
  obtain ⟨hqga, hintune, hmde, hwait, hscript⟩ := hkind
  unfold resultOf
  rw [if_neg fun h => hqga h.1, if_neg fun h => hintune h.1, if_neg fun h => hmde h.1, if_neg hwait, if_neg hscript]

theorem resultOf_qga (hkind : action.kind = "verify_qga_linux") :
    resultOf configPhase before during after action =
      if before.evidence.qgaActive = false then
        some (action.report configPhase .failed "qemu-guest-agent is not active" before.evidence.fields)
      else some (action.report configPhase .success (action.kind ++ " complete") before.evidence.fields) := by
  unfold resultOf
  simp only [hkind, true_and, String.reduceEq, false_and, if_false]

theorem resultOf_intune (hkind : action.kind = "verify_intune_portal") :
    resultOf configPhase before during after action =
      if before.evidence.intune = "portal_not_installed" then
        some (action.report configPhase .failed "intune-portal is not installed" before.evidence.fields)
      else some (action.report configPhase .success (action.kind ++ " complete") before.evidence.fields) := by
  unfold resultOf
  simp only [hkind, true_and, String.reduceEq, false_and, if_false]

theorem resultOf_mde (hkind : action.kind = "verify_mde_linux") :
    resultOf configPhase before during after action =
      if before.evidence.mde ∈ ["mdatp_not_installed", "unhealthy"] then
        some (action.report configPhase .failed "mdatp is not healthy" before.evidence.fields)
      else some (action.report configPhase .success (action.kind ++ " complete") before.evidence.fields) := by
  unfold resultOf
  simp only [hkind, true_and, String.reduceEq, false_and, if_false]

theorem resultOf_wait (hkind : action.kind = "wait_cloud_init_complete") {report : Report}
    (h : resultOf configPhase before during after action = some report) (hsuccess : report.status = .success) :
    ∃ timeout, action.timeout 900 = some timeout ∧ (during.bash cloudInitWaitCommand timeout).Succeeded := by
  unfold resultOf at h
  simp only [hkind, String.reduceEq, false_and, if_false, if_true] at h
  obtain ⟨timeout, htimeout, hreport⟩ := Option.map_eq_some_iff.mp h
  refine ⟨timeout, htimeout, run_ok.mp ?_⟩
  by_contra hnot
  rw [if_neg hnot] at hreport
  subst hreport
  cases hsuccess

theorem resultOf_script (hkind : action.kind = "run_firstboot_script") :
    resultOf configPhase before during after action = action.command.bind fun cmd =>
      if cmd.truthy then
        (action.timeout 600).map fun timeout =>
          if (run (during.bash cmd timeout)).ok then
            action.report configPhase .success "first-boot script complete"
              (before.evidence.fields ++ [("script", (run (during.bash cmd timeout)).json)])
          else action.report configPhase .failed "first-boot script failed"
            (before.evidence.fields ++ [("script", (run (during.bash cmd timeout)).json)])
      else some (action.report configPhase .success (action.kind ++ " complete") before.evidence.fields) := by
  unfold resultOf
  simp only [hkind, String.reduceEq, false_and, if_false, if_true]

theorem earned_of_result {floats : Floats} {report : Report} (hkind : action.kind ∈ capabilities)
    (hmde : action.kind = "verify_mde_linux" → ∀ stdout stderr,
      before.bash mdatpHealthCommand 30 = .exited 0 stdout stderr → SaysHealthy floats stdout)
    (hscript : action.kind = "run_firstboot_script" → ∀ cmd, action.command = some cmd → cmd.truthy = true)
    (h : resultOf configPhase before during after action = some report) (hsuccess : report.status = .success) :
    Earned floats before during action := by
  refine ⟨hkind, fun hk => ?_, fun hk => ?_, fun hk => ?_, fun hk => resultOf_wait hk h hsuccess, fun hk => ?_⟩
  · rw [resultOf_mde hk] at h
    split at h
    · cases h
      cases hsuccess
    · rename_i hanswer
      rw [evidence_mde, Bool.not_eq_false] at hanswer
      obtain ⟨stdout, stderr, heq⟩ := run_ok.mp hanswer
      exact ⟨stdout, stderr, heq, hmde hk stdout stderr heq⟩
  · rw [resultOf_intune hk] at h
    split at h
    · cases h
      cases hsuccess
    · rename_i hinstalled
      rw [evidence_intune, Bool.not_eq_false] at hinstalled
      exact run_ok.mp hinstalled
  · rw [resultOf_qga hk] at h
    split at h
    · cases h
      cases hsuccess
    · rename_i hactive
      rw [Bool.not_eq_false] at hactive
      exact run_stdout (beq_iff_eq.mp hactive) (by decide)
  · rw [resultOf_script hk] at h
    obtain ⟨cmd, hcmd, hreport⟩ := Option.bind_eq_some_iff.mp h
    have hgiven := hscript hk cmd hcmd
    rw [if_pos hgiven] at hreport
    obtain ⟨timeout, htimeout, hran⟩ := Option.map_eq_some_iff.mp hreport
    refine ⟨cmd, timeout, hcmd, hgiven, htimeout, run_ok.mp ?_⟩
    by_contra hnot
    rw [if_neg hnot] at hran
    subst hran
    cases hsuccess

end Branches

theorem covered_of_successEarned {floats : Floats} {configPhase : String} {logged : Bool}
    {before during after : Machine} {action : Action}
    (h : SuccessEarned floats configPhase logged before during after action) :
    Covered floats logged before action := by
  cases logged with
  | false => exact .inl rfl
  | true =>
    have hresult : ∀ report, resultOf configPhase before during after action = some report →
        report.status = .success → Earned floats before during action := h
    have hkind : action.kind ∈ capabilities := by
      by_contra hnot
      refine hnot (hresult _ (resultOf_default fun hbranch => hnot ?_) rfl).registered
      have hall : ∀ kind ∈ ["verify_qga_linux", "verify_intune_portal", "verify_mde_linux",
          "wait_cloud_init_complete", "run_firstboot_script"], kind ∈ capabilities := by decide
      exact hall _ hbranch
    refine .inr ⟨hkind, fun hk stdout stderr heq => ?_, fun hk cmd hcmd => ?_⟩
    · have hanswer : (before.probe mdatpHealthCommand).ok = true := run_ok.mpr ⟨stdout, stderr, heq⟩
      have hreported : resultOf configPhase before during after action = _ := resultOf_mde hk
      rw [if_neg (by rw [evidence_mde, hanswer]; exact Bool.noConfusion)] at hreported
      obtain ⟨_, _, heq', hhealthy⟩ := (hresult _ hreported rfl).mde hk
      rw [heq] at heq'
      cases heq'
      exact hhealthy
    · by_contra hnot
      have hreported : resultOf configPhase before during after action = _ := resultOf_script hk
      rw [hcmd, Option.bind_some, if_neg hnot] at hreported
      obtain ⟨_, _, hcmd', hgiven, -⟩ := (hresult _ hreported rfl).firstboot hk
      rw [hcmd] at hcmd'
      cases hcmd'
      exact hnot hgiven

theorem successEarned_iff_covered (floats : Floats) (configPhase : String) (logged : Bool)
    (before during after : Machine) (action : Action) :
    SuccessEarned floats configPhase logged before during after action ↔ Covered floats logged before action := by
  constructor
  · exact covered_of_successEarned
  · rintro (rfl | ⟨hkind, hmde, hscript⟩) report h hsuccess
    · cases h
    · cases logged with
      | false => cases h
      | true => exact earned_of_result hkind hmde hscript h hsuccess

theorem signed_no_point (negative : Bool) (n : Nat) :
    ∀ c ∈ JsonText.signed negative (Nat.toDigits 10 n), (c != '.') = true := by
  have hdigits : ∀ c ∈ Nat.toDigits 10 n, (c != '.') = true := by
    intro c hc
    have hdigit := JsonText.toDigits_digits n c hc
    rw [bne_iff_ne]
    rintro rfl
    revert hdigit
    decide
  intro c hc
  cases negative with
  | true =>
    rcases List.mem_cons.mp hc with rfl | hc
    · rfl
    · exact hdigits c hc
  | false => exact hdigits c hc

theorem ratio_fraction (q : Rat) : ∀ c ∈ Nat.toDigits 10 q.den, c.isDigit = true := JsonText.toDigits_digits q.den

theorem ratio_isFloat (q : Rat) : Nat.toDigits 10 q.den ≠ [] ∨ (none : Option (Char × List Char)) ≠ none :=
  .inl Nat.toDigits_ne_nil

theorem no_exponent : ∀ e ∈ (none : Option (Char × List Char)),
    (e.1 = '+' ∨ e.1 = '-') ∧ e.2 ≠ [] ∧ ∀ c ∈ e.2, c.isDigit = true := fun _ he => by cases he

/-- Floats that are written as a numerator and a denominator with a point between. -/
def ratioFloats : Floats where
  repr q :=
    { negative := decide (q.num < 0)
      whole := q.num.natAbs
      fraction := Nat.toDigits 10 q.den
      exponent := none
      fraction_digits := ratio_fraction q
      exponent_digits := no_exponent
      isFloat := ratio_isFloat q }
  parse text :=
    mkRat (JsonText.intOf (text.takeWhile (· != '.'))) (Nat.ofDigitChars 10 ((text.dropWhile (· != '.')).drop 1) 0)
  parse_repr q := by
    have hpoint : JsonText.Stops (· != '.') ('.' :: Nat.toDigits 10 q.den) := by
      intro c hc
      cases hc
      rfl
    have htext := signed_no_point (decide (q.num < 0)) q.num.natAbs
    unfold JsonText.FloatText.text JsonText.FloatText.fractionText JsonText.FloatText.exponentText
    dsimp only
    rw [if_neg Nat.toDigits_ne_nil, List.append_nil, JsonText.takeWhile_run htext hpoint,
      JsonText.dropWhile_run htext hpoint, List.drop_one, List.tail_cons, JsonText.intOf_signed,
      Nat.ofDigitChars_ten_toDigits, Rat.mkRat_self]

def unhealthyMachine : Machine where
  bash command _ :=
    if command = mdatpHealthCommand then .exited 0 "\x7b\"healthy\": false\x7d" "" else .exited 127 "" ""
  hostname := "ubuntu"
  primaryIpv4 := "10.0.0.5"
  osRelease := none
  platform := "Linux"
  kernel := "6.8.0"

/-- Defender answers that it is not healthy, which has the word `healthy` in it. -/
theorem not_successEarned_unhealthy :
    ¬ SuccessEarned ratioFloats "verify" true unhealthyMachine unhealthyMachine unhealthyMachine
        { stepId := "1", kind := "verify_mde_linux" } := by
  intro h
  rcases covered_of_successEarned h with hlogged | ⟨-, hmde, -⟩
  · cases hlogged
  · obtain ⟨answer, hloads, hhealthy⟩ := hmde rfl "\x7b\"healthy\": false\x7d" "" rfl
    have htext : "\x7b\"healthy\": false\x7d".toList =
        JsonText.text ratioFloats true (.obj [("healthy", .bool false)]) := by decide
    have hkeyed : (Json.obj [("healthy", .bool false)]).Keyed := ⟨List.nodup_singleton _, trivial, trivial⟩
    rw [htext, JsonText.loads_text _ _ hkeyed] at hloads
    cases hloads
    revert hhealthy
    decide

end ProxmoxVEAutopilot.Ubuntu.LinuxAgent
