import ProxmoxVEAutopilot.Sequences.Compiler

/-!
# The commands of the first logon

Every enabled step that runs a script adds one command, whose payload decodes to the script;
the command that ends auto-logon comes last, and only where auto-logon is set.
-/

namespace ProxmoxVEAutopilot.Sequences

open Foundation
set_option autoImplicit false

/-- What PowerShell reads from an `-EncodedCommand`. -/
def decodePsCommand (payload : String) : Option String := (standard.decode payload.toList).bind decodeUtf16le

theorem decode_encodePsCommand (script : String) : decodePsCommand (encodePsCommand script) = some script := by
  unfold decodePsCommand encodePsCommand
  rw [String.toList_ofList, Alphabet.decode_encode, Option.bind_some, decodeUtf16le_utf16le]

def StepDict.runsScript (step : StepDict) : Bool := step.stepType == "run_script"

def StepDict.addsCommand (step : StepDict) : Bool :=
  step.isEnabled && (step.runsScript || step.stepType == "install_module")

def StepDict.causesReboot (step : StepDict) : Bool :=
  step.isEnabled && step.runsScript && (step.paramsOr.get? "causes_reboot").any Json.truthy

/-- The script a step asks for. -/
def StepDict.Asks (step : StepDict) (script : String) : Prop :=
  if step.runsScript then step.paramsOr.get? "script" = some (.str script)
  else ∃ module version repository scope,
    (getItem step.paramsOr "module").bind stripped = .ok module ∧
    (getItem step.paramsOr "version").bind stripped = .ok version ∧
    (getItem step.paramsOr "repository").bind stripped = .ok repository ∧
    (getItem step.paramsOr "scope").bind stripped = .ok scope ∧
    script = installModuleScript module (if repository ≠ "" then repository else "PSGallery")
      (if scope ≠ "" then scope else "AllUsers") version

def IsEntry (step : StepDict) (entry : LogonCommand) : Prop :=
  ∃ payload script, entry.command =
      "powershell.exe -NoProfile -ExecutionPolicy Bypass -EncodedCommand " ++ payload ∧
    decodePsCommand payload = some script ∧ step.Asks script

section Steps
variable {params : Json} {out out' : CompiledSequence} {resolver : Option Resolver}

/-- Whatever the computation returns fulfils `P`. -/
def Returns {α : Type} (P : α → Prop) (x : Except CompileError α) : Prop := ∀ a, x = .ok a → P a

theorem raising_ok {α : Type} {x : Except String α} {a : α} : raising x = .ok a ↔ x = .ok a := by
  cases x with
  | ok b => simp [raising, Except.mapError]
  | error e => simp [raising, Except.mapError]

theorem Returns.ok {α : Type} {P : α → Prop} {a : α} (h : P a) : Returns P (.ok a) := by
  intro b hb
  cases hb
  exact h

theorem Returns.error {α : Type} {P : α → Prop} {e : CompileError} : Returns P (.error e) := nofun

theorem Returns.bind {α β : Type} {P : β → Prop} {x : Except CompileError α} {f : α → Except CompileError β}
    (h : ∀ a, x = .ok a → Returns P (f a)) : Returns P (x >>= f) := by
  intro b hb
  obtain ⟨a, ha, hf⟩ := bind_ok.mp hb
  exact h a ha b hf

/-- A handler that writes neither commands nor reboots. -/
structure Silent (out out' : CompiledSequence) : Prop where
  commands : out'.firstLogonCommands = out.firstLogonCommands
  reboots : out'.causesRebootCount = out.causesRebootCount

theorem Silent.refl (out : CompiledSequence) : Silent out out := ⟨rfl, rfl⟩

theorem silent_setVar {key value : String} (h : Silent out out') : Silent out (out'.setVar key value) :=
  ⟨h.commands, h.reboots⟩

theorem silent_setBlock {key value : String} (h : Silent out out') : Silent out (out'.setBlock key value) :=
  ⟨h.commands, h.reboots⟩

theorem silent_setOemHardware : Returns (Silent out) (handleSetOemHardware params out) := by
  unfold handleSetOemHardware
  refine .bind fun profile _ => .bind fun ct _ => .ok ?_
  have hprofile : Silent out (if profile ≠ "" then out.setVar "vm_oem_profile" profile else out) := by
    split
    · exact silent_setVar (.refl out)
    · exact .refl out
  split
  · exact silent_setVar hprofile
  · exact hprofile

theorem silent_localAdmin : Returns (Silent out) (handleLocalAdmin params out resolver) := by
  unfold handleLocalAdmin
  refine .bind fun account _ => .ok ?_
  split
  · exact silent_setBlock (silent_setBlock (.refl out))
  · exact silent_setBlock (.refl out)

theorem silent_joinAdDomain : Returns (Silent out) (handleJoinAdDomain params out resolver) := by
  unfold handleJoinAdDomain
  refine .bind fun payload _ => .bind fun domainFqdn _ => .bind fun rawUsername _ => .bind fun secret _ => ?_
  split
  · exact .error
  · exact .bind fun own _ => .bind fun hint _ => .bind fun ou _ => .bind fun password _ => .ok
      (silent_setBlock (.refl out))

theorem silent_renameComputer : Returns (Silent out) (handleRenameComputer params out) := by
  unfold handleRenameComputer
  refine .bind fun named _ => .bind fun source _ => .bind fun pattern _ => ?_
  split
  · exact .error
  · exact .ok (silent_setBlock (.refl out))

theorem get?_of_getItem {key : String} {value : Json} (h : getItem params key = .ok value) :
    value = (params.get? key).getD .null := by
  cases params with
  | obj fields => exact (Except.ok.inj h).symm
  | _ => cases h

theorem str_of_textOr {value : Json} {s : String} (h : textOr value = .ok s) (hne : s ≠ "") : value = .str s := by
  unfold textOr at h
  split at h
  · cases value with
    | str t => rw [Except.ok.inj h]
    | _ => cases h
  · exact absurd (Except.ok.inj h).symm hne

/-- What one turn of the loop adds. -/
structure Adds (step : StepDict) (out out' : CompiledSequence) : Prop where
  commands : ∃ entries, out'.firstLogonCommands = out.firstLogonCommands ++ entries ∧
    List.Forall₂ IsEntry ([step].filter StepDict.addsCommand) entries
  reboots : out'.causesRebootCount = out.causesRebootCount + [step].countP StepDict.causesReboot

theorem Silent.adds {step : StepDict} (h : Silent out out') (hadds : step.addsCommand = false)
    (hreboot : step.causesReboot = false) : Adds step out out' where
  commands := ⟨[], by rw [h.commands, List.append_nil], by simp [hadds]⟩
  reboots := by simp [h.reboots, hreboot]

theorem adds_runScript {step : StepDict} (htype : step.stepType = "run_script") (henabled : step.isEnabled = true) :
    Returns (Adds step out) (handleRunScript step.paramsOr out) := by
  have hruns : step.runsScript = true := by simp [StepDict.runsScript, htype]
  unfold handleRunScript
  refine .bind fun script hscript => ?_
  split
  · exact .error
  · rename_i hne
    refine .bind fun named _ => .bind fun reboots hreboots => .ok ⟨⟨_, rfl, ?_⟩, ?_⟩
    · obtain ⟨value, hvalue, htext⟩ := bind_ok.mp (raising_ok.mp hscript)
      have hnonempty : script ≠ "" := fun h => hne (by rw [h]; rfl)
      have hstr := str_of_textOr htext hnonempty
      have hget := get?_of_getItem hvalue
      rw [hstr] at hget
      have hgiven : step.paramsOr.get? "script" = some (.str script) := by
        cases hlookup : step.paramsOr.get? "script" with
        | none => rw [hlookup] at hget; cases hget
        | some value' => rw [hlookup] at hget; rw [hget]; rfl
      have hadds : step.addsCommand = true := by simp [StepDict.addsCommand, henabled, hruns]
      rw [List.filter_cons_of_pos hadds, List.filter_nil]
      refine .cons ⟨_, script, rfl, decode_encodePsCommand script, ?_⟩ .nil
      unfold StepDict.Asks
      rw [if_pos hruns]
      exact hgiven
    · have hget := get?_of_getItem (raising_ok.mp hreboots)
      have hcauses : step.causesReboot = reboots.truthy := by
        unfold StepDict.causesReboot
        rw [henabled, hruns, hget]
        cases step.paramsOr.get? "causes_reboot" with
        | none => rfl
        | some value => rfl
      rw [List.countP_singleton, hcauses]

theorem adds_installModule {step : StepDict} (htype : step.stepType = "install_module")
    (henabled : step.isEnabled = true) : Returns (Adds step out) (handleInstallModule step.paramsOr out) := by
  have hruns : step.runsScript = false := by simp [StepDict.runsScript, htype]
  unfold handleInstallModule
  refine .bind fun module hmodule => ?_
  split
  · exact .error
  · refine .bind fun version hversion => .bind fun repository hrepository => .bind fun scope hscope =>
      .ok ⟨⟨_, rfl, ?_⟩, ?_⟩
    · have hadds : step.addsCommand = true := by simp [StepDict.addsCommand, henabled, htype]
      rw [List.filter_cons_of_pos hadds, List.filter_nil]
      refine .cons ⟨_, _, rfl, decode_encodePsCommand _, ?_⟩ .nil
      unfold StepDict.Asks
      rw [if_neg (by simp [hruns])]
      exact ⟨module, version, repository, scope, raising_ok.mp hmodule, raising_ok.mp hversion,
        raising_ok.mp hrepository, raising_ok.mp hscope, rfl⟩
    · have hcauses : step.causesReboot = false := by simp [StepDict.causesReboot, hruns]
      simp [hcauses]

theorem adds_compileStep {step : StepDict} : Returns (Adds step out) (compileStep resolver out step) := by
  unfold compileStep
  split
  · rename_i henabled
    have hsilent : ∀ {x : Except CompileError CompiledSequence}, Returns (Silent out) x →
        step.stepType ≠ "run_script" → step.stepType ≠ "install_module" → Returns (Adds step out) x := by
      intro x hx hrun hinstall out' hout'
      refine (hx out' hout').adds ?_ ?_
      · simp [StepDict.addsCommand, StepDict.runsScript, hrun, hinstall]
      · simp [StepDict.causesReboot, StepDict.runsScript, hrun]
    unfold handler
    split <;> rename_i htype
    · exact hsilent silent_setOemHardware (by simp [htype]) (by simp [htype])
    · exact hsilent (.ok (silent_setVar ⟨rfl, rfl⟩)) (by simp [htype]) (by simp [htype])
    · exact .error
    · exact hsilent silent_localAdmin (by simp [htype]) (by simp [htype])
    · exact hsilent silent_joinAdDomain (by simp [htype]) (by simp [htype])
    · exact hsilent silent_renameComputer (by simp [htype]) (by simp [htype])
    · exact adds_runScript htype henabled
    · exact adds_installModule htype henabled
    · exact .error
  · rename_i hdisabled
    exact .ok (Silent.adds (.refl out) (by simp [StepDict.addsCommand, hdisabled])
       (by simp [StepDict.causesReboot, hdisabled]))

end Steps

section Compile
variable {resolver : Option Resolver} {sequence : SequenceDict} {out : CompiledSequence}

theorem adds_steps {steps : List StepDict} {start : CompiledSequence}
    (h : steps.foldlM (compileStep resolver) start = .ok out) :
    (∃ entries, out.firstLogonCommands = start.firstLogonCommands ++ entries ∧
      List.Forall₂ IsEntry (steps.filter StepDict.addsCommand) entries) ∧
    out.causesRebootCount = start.causesRebootCount + steps.countP StepDict.causesReboot := by
  induction steps generalizing start with
  | nil =>
    cases h
    exact ⟨⟨[], (List.append_nil _).symm, .nil⟩, rfl⟩
  | cons step steps ih =>
    rw [List.foldlM_cons] at h
    obtain ⟨next, hnext, hrest⟩ := bind_ok.mp h
    obtain ⟨⟨first, hfirst, hentry⟩, hcount⟩ := adds_compileStep next hnext
    obtain ⟨⟨rest, hrests, hentries⟩, hcounts⟩ := ih hrest
    have hcons : step :: steps = [step] ++ steps := rfl
    refine ⟨⟨first ++ rest, ?_, ?_⟩, ?_⟩
    · rw [hrests, hfirst, List.append_assoc]
    · rw [hcons, List.filter_append]
      exact List.rel_append hentry hentries
    · rw [hcons, List.countP_append, hcounts, hcount, Nat.add_assoc]

theorem foldlM_enabled {steps : List StepDict} {start : CompiledSequence} :
    (steps.filter StepDict.isEnabled).foldlM (compileStep resolver) start =
      steps.foldlM (compileStep resolver) start := by
  induction steps generalizing start with
  | nil => rfl
  | cons step steps ih =>
    cases henabled : step.isEnabled with
    | true =>
      rw [List.filter_cons_of_pos henabled, List.foldlM_cons, List.foldlM_cons]
      exact congrArg _ (funext fun next => ih)
    | false =>
      rw [List.filter_cons_of_neg (by simp [henabled]), List.foldlM_cons, ih]
      have hskip : compileStep resolver start step = .ok start := by simp [compileStep, henabled]
      rw [hskip]
      rfl

theorem IsEntry.ne_finalReboot {step : StepDict} {entry : LogonCommand} (h : IsEntry step entry) :
    entry ≠ finalReboot := by
  rintro rfl
  obtain ⟨payload, _, hcommand, _⟩ := h
  have hletters := congrArg (fun s => s.toList.take 52) hcommand
  unfold finalReboot at hletters
  dsimp only at hletters
  rw [String.toList_append, List.take_append_of_le_length (by decide), String.toList_append,
    List.take_append_of_le_length (by decide)] at hletters
  exact absurd hletters (by decide)

theorem compile_faithful (h : compile resolver sequence = .ok out) :
    compile resolver { sequence with steps := sequence.steps.filter StepDict.isEnabled } = .ok out ∧
    (∃ entries, out.firstLogonCommands = entries ++ (if out.hasAutoLogon then [finalReboot] else []) ∧
      finalReboot ∉ entries ∧ List.Forall₂ IsEntry (sequence.steps.filter StepDict.addsCommand) entries) ∧
    out.causesRebootCount =
      sequence.steps.countP StepDict.causesReboot + (if out.hasAutoLogon then 1 else 0) := by
  refine ⟨?_, ?_⟩
  · rw [← h]
    unfold compile
    rw [foldlM_enabled]
  obtain ⟨last, hlast, hout⟩ := map_ok.mp h
  obtain ⟨⟨entries, hcommands, hentries⟩, hcount⟩ := adds_steps hlast
  have hfresh : finalReboot ∉ entries := by
    intro hmem
    obtain ⟨step, _, hentry⟩ := exists_left_of_forall₂ hentries hmem
    exact hentry.ne_finalReboot rfl
  have hblocks : out.hasAutoLogon = last.hasAutoLogon := by
    rw [← hout]
    unfold appendFinalRebootIfAutologon
    split <;> rfl
  rw [List.nil_append] at hcommands
  rw [Nat.zero_add] at hcount
  rw [hblocks, ← hout]
  unfold appendFinalRebootIfAutologon
  split
  · exact ⟨⟨entries, congrArg (· ++ [finalReboot]) hcommands, hfresh, hentries⟩, congrArg (· + 1) hcount⟩
  · exact ⟨⟨entries, by rw [hcommands, List.append_nil], hfresh, hentries⟩, hcount⟩

def laptop : SequenceDict where
  id := 1
  steps := [
    { stepType := "local_admin", params := some (.obj [("credential_id", .int 4)]) },
    { stepType := "run_script", params := some (.obj [("script", .str "gpupdate\n"), ("causes_reboot", .bool true)]) },
    { stepType := "run_script", params := some (.obj []), enabled := some (.bool false) }]

def storedAdmin : Resolver := fun _ => .ok (.obj [("username", .str "admin"), ("password", .str "pässword")])

theorem laptop_faithful : ∃ out, compile (some storedAdmin) laptop = .ok out ∧
    (∃ entries, out.firstLogonCommands = entries ++ (if out.hasAutoLogon then [finalReboot] else []) ∧
      finalReboot ∉ entries ∧ List.Forall₂ IsEntry (laptop.steps.filter StepDict.addsCommand) entries) ∧
    out.causesRebootCount =
      laptop.steps.countP StepDict.causesReboot + (if out.hasAutoLogon then 1 else 0) := by
  have hok : (compile (some storedAdmin) laptop).toOption.isSome = true := by decide +kernel
  cases hout : compile (some storedAdmin) laptop with
  | error e =>
    rw [hout] at hok
    cases hok
  | ok out => exact ⟨out, rfl, (compile_faithful hout).2⟩

end Compile

end ProxmoxVEAutopilot.Sequences
