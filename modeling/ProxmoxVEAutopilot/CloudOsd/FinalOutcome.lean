import ProxmoxVEAutopilot.CloudOsd.Create
import ProxmoxVEAutopilot.TsEngine.Finality

/-!
# Final outcomes of CloudOSD runs

Every guard protects an outcome but one: `set_run_identity` takes any run back to
`awaiting_pe`, in both tables, so a playbook that records its VM once more undoes it.
-/

namespace ProxmoxVEAutopilot.CloudOsd

open Foundation TsEngine
set_option autoImplicit false

/-- One call from its first statement to its last. -/
def exec (py : Texts) (d : Deployment) (c : Call × Time) : Deployment := (Call.program py c).run perform d

def Ended (state : CloudState) : Prop := state = .complete ∨ state = .failed

instance (state : CloudState) : Decidable (Ended state) := inferInstanceAs (Decidable (_ ∨ _))

/-- The engine's row says of an ended run what its own row says. -/
structure Agrees (d : Deployment) : Prop where
  complete : d.run.state = .complete → d.ts.run.state = .done
  failed : d.run.state = .failed → d.ts.run.state = .failed

/-- The outcome of `a`, if it has one, is that of `b`, and the rows go on agreeing on it;
before there is an outcome they agree. -/
structure KeepsOutcome (a b : Deployment) : Prop where
  state : Ended a.run.state → b.run.state = a.run.state
  agrees : Agrees a → Agrees b

def SparesOutcome (d : Deployment) (c : Call × Time) : Prop :=
  match c.1 with
  | .setRunIdentity _ => ¬ Ended d.run.state
  | _ => True

theorem KeepsOutcome.refl (d : Deployment) : KeepsOutcome d d := ⟨fun _ => rfl, id⟩

theorem KeepsOutcome.trans {a b c : Deployment} (hab : KeepsOutcome a b) (hbc : KeepsOutcome b c) :
    KeepsOutcome a c where
  state h := (hbc.state (hab.state h ▸ h)).trans (hab.state h)
  agrees h := hbc.agrees (hab.agrees h)

theorem KeepsOutcome.of_states {a b : Deployment} (hrun : b.run.state = a.run.state)
    (hts : b.ts.run.state = a.ts.run.state) : KeepsOutcome a b where
  state _ := hrun
  agrees h := ⟨fun hs => hts.trans (h.complete (hrun.symm.trans hs)),
    fun hs => hts.trans (h.failed (hrun.symm.trans hs))⟩

theorem KeepsOutcome.of_open {a b : Deployment} (ha : ¬ Ended a.run.state) (hb : Agrees b) :
    KeepsOutcome a b :=
  ⟨fun h => absurd h ha, fun _ => hb⟩

theorem agrees_of_open {d : Deployment} (h : ¬ Ended d.run.state) : Agrees d :=
  ⟨fun hs => absurd (.inl hs) h, fun hs => absurd (.inr hs) h⟩

section Actions
variable {d : Deployment}

theorem keeps_markFailed (message : Option String) (now : Time) : KeepsOutcome d (markFailed d message now) := by
  unfold markFailed
  split
  · exact .refl d
  · rename_i hne
    refine ⟨fun hended => (hended.resolve_left hne).symm, fun _ => ⟨fun hs => ?_, fun _ => rfl⟩⟩
    cases hs

theorem keeps_observeHeartbeat {waiting : CloudState} (hwaiting : ¬ Ended waiting) (heartbeatAt now : Time) :
    KeepsOutcome d (observeHeartbeat d waiting heartbeatAt now) := by
  unfold observeHeartbeat
  split
  · exact .refl d
  · rename_i hne
    by_cases hcomplete : d.run.state = .complete
    · refine ⟨fun _ => if_pos hcomplete, fun hagrees => ⟨fun _ => ?_, fun hs => ?_⟩⟩
      · simp only [hagrees.complete hcomplete, if_true]
      · simp [hcomplete] at hs
    · refine .of_open (fun h => h.elim hcomplete hne) (agrees_of_open ?_)
      simpa only [hcomplete, if_false] using hwaiting

theorem keeps_completeRun (heartbeatAt now : Time) : KeepsOutcome d (completeRun d heartbeatAt now) := by
  unfold completeRun
  split
  · exact .refl d
  · rename_i hne
    refine ⟨fun hended => (hended.resolve_right hne).symm, fun _ => ⟨fun _ => rfl, fun hs => ?_⟩⟩
    cases hs

theorem keeps_markDone (kinds : List String) (now : Time) :
    KeepsOutcome d (perform (.engine (markDoneCall now kinds)) d) where
  state _ := rfl
  agrees h :=
    have hmark := mayFinish_mark d.ts kinds "cloudosd-controller"
      (some "OSDCloud lifecycle evidence advanced this v2 run step")
      (.obj [("source", .str "cloudosd_lifecycle")]) now
    ⟨fun hs => hmark.done (h.complete hs), fun hs => hmark.failed.mpr (h.failed hs)⟩

/-- What an action must find to keep an outcome. -/
def SparingAction (a : Action) (d : Deployment) : Prop :=
  match a with
  | .recordIdentity .. | .markPeRegistered _ => ¬ Ended d.run.state
  | .observeHeartbeat waiting .. => ¬ Ended waiting
  | .waitForV2 _ => False
  | .engine c => ∃ kinds, c = markDoneCall c.now kinds
  | _ => True

theorem SparingAction.keeps {a : Action} (h : SparingAction a d) : KeepsOutcome d (perform a d) := by
  cases a with
  | recordIdentity body now =>
    exact .of_open h (agrees_of_open (by simp [perform, recordIdentity, Ended]))
  | markPeRegistered now =>
    exact .of_open h (agrees_of_open (by simp [perform, markPeRegistered, Ended]))
  | markFailed message now => exact keeps_markFailed message now
  | observeHeartbeat waiting heartbeatAt now => exact keeps_observeHeartbeat h heartbeatAt now
  | complete heartbeatAt heartbeat now => exact keeps_completeRun heartbeatAt now
  | waitForV2 now => exact h.elim
  | engine c =>
    obtain ⟨kinds, hc⟩ := h
    rw [hc]
    exact keeps_markDone kinds c.now
  | read => exact .of_states rfl rfl
  | appendEvent e now => exact .of_states rfl rfl
  | markOsdcloudStarted now => exact .of_states rfl rfl
  | markOsdcloudFinished now => exact .of_states rfl rfl
  | archive archivedBy reason now => exact .of_states rfl rfl
  | unarchive now => exact .of_states rfl rfl

end Actions

section Programs
variable {py : Texts} {now : Time} {d : Deployment}

abbrev Sparing (p : CloudProgram) (d : Deployment) : Prop :=
  p.Safe perform SparingAction d

theorem sparing_appendEvent (e : RunEvent) : Sparing (appendEvent now e) d := Program.Safe.one trivial

theorem sparing_sync : Sparing (syncTsProgressForRun py now) d := ⟨trivial, ⟨_, rfl⟩, trivial⟩

theorem sparing_completionGate (domainJoin : DomainJoin) (heartbeatAt : Time) (heartbeat : Option Heartbeat) :
    Sparing (completionGate now domainJoin heartbeatAt heartbeat) d := by
  refine ⟨trivial, ?_⟩
  dsimp only
  split
  · exact sparing_appendEvent _
  · refine ⟨trivial, ?_⟩
    dsimp only
    split
    · trivial
    · exact sparing_appendEvent _

theorem sparing_markCompleteFromHeartbeat (heartbeatAt : Time) (heartbeat : Option Heartbeat) :
    Sparing (markCompleteFromHeartbeat py now heartbeatAt heartbeat) d := by
  refine ⟨trivial, ?_⟩
  dsimp only
  split
  · trivial
  · split
    · refine ⟨by simp [SparingAction, Ended], ?_⟩
      dsimp only
      split
      · trivial
      · exact ((sparing_appendEvent _).seq fun _ => sparing_appendEvent _).seq fun _ => sparing_sync
    · refine ⟨by simp [SparingAction, Ended], ?_⟩
      dsimp only
      split
      · trivial
      · exact ((sparing_appendEvent _).seq fun _ => sparing_sync).seq
          fun _ => sparing_completionGate _ heartbeatAt heartbeat

theorem sparing_peRegister (body : PeRegisterBody) : Sparing (peRegister now body) d := by
  refine ⟨trivial, ?_⟩
  dsimp only
  split
  · rename_i hfound
    refine ⟨?_, sparing_appendEvent _⟩
    -- the states a registration looks for are not final
    intro hended
    have hended : d.run.state = .complete ∨ d.run.state = .failed := hended
    rcases hended with hs | hs
    · simp [identifiedBy, hs] at hfound
    · simp [identifiedBy, hs] at hfound
  · trivial

theorem sparing_postEvent (e : RunEvent) : Sparing (postEvent py now e) d := by
  refine (sparing_appendEvent e).seq fun d => Program.Safe.seq ?_ fun d => Program.Safe.seq ?_ fun _ => sparing_sync
  · split
    · exact .one trivial
    · split
      · exact .one trivial
      · trivial
  · split
    · exact .one trivial
    · trivial

theorem sparing_getRun (latest : Option (Time × Heartbeat)) : Sparing (getRun py now latest) d := by
  refine ⟨trivial, Program.Safe.seq ?_ fun _ => sparing_sync⟩
  cases latest with
  | none => trivial
  | some latest =>
    obtain ⟨heartbeatAt, heartbeat⟩ := latest
    dsimp only
    split
    · exact sparing_markCompleteFromHeartbeat heartbeatAt (some heartbeat)
    · trivial

theorem sparing_archiveRunsBulk (state : CloudState) (olderThanHours : Nat) (reason eventType : String) :
    Sparing (archiveRunsBulk now state olderThanHours reason eventType) d := by
  refine ⟨trivial, ?_⟩
  dsimp only
  split
  · exact Program.Safe.seq (.one trivial) fun _ => sparing_appendEvent _
  · trivial

theorem sparing_setRunIdentity (body : RunIdentityBody) (h : ¬ Ended d.run.state) :
    Sparing (setRunIdentity now body) d :=
  ⟨h, sparing_appendEvent _⟩

theorem sparing_program {c : Call × Time} (h : SparesOutcome d c) : Sparing (Call.program py c) d := by
  obtain ⟨c, now⟩ := c
  cases c with
  | setRunIdentity body => exact sparing_setRunIdentity body h
  | peRegister body => exact sparing_peRegister body
  | postEvent e => exact sparing_postEvent e
  | appendEvent e => exact sparing_appendEvent e
  | markCompleteFromHeartbeat heartbeatAt heartbeat =>
    exact sparing_markCompleteFromHeartbeat heartbeatAt heartbeat
  | getRun latest => exact sparing_getRun latest
  | syncTsProgress => exact sparing_sync
  | archive reason => exact Program.Safe.seq (.one trivial) fun _ => sparing_appendEvent _
  | unarchive => exact Program.Safe.seq (.one trivial) fun _ => sparing_appendEvent _
  | archiveStaleFailedRuns => exact sparing_archiveRunsBulk _ _ _ _
  | archiveCompletedOldRuns => exact sparing_archiveRunsBulk _ _ _ _

end Programs

section Outcome
variable {py : Texts} {d : Deployment}

theorem state_setRunIdentity (body : RunIdentityBody) (now : Time) :
    (exec py d (.setRunIdentity body, now)).run.state = .awaitingPe := rfl

theorem keepsOutcome_exec_iff (c : Call × Time) : KeepsOutcome d (exec py d c) ↔ SparesOutcome d c := by
  constructor
  · intro hkeeps
    obtain ⟨c, now⟩ := c
    cases c with
    | setRunIdentity body =>
      intro hended
      have hstate := hkeeps.state hended
      rw [state_setRunIdentity] at hstate
      rw [← hstate] at hended
      rcases hended with hs | hs
      · cases hs
      · cases hs
    | _ => trivial
  · intro hspares
    exact (sparing_program hspares).run_rel (R := KeepsOutcome) .refl (fun _ _ _ => .trans)
      fun _ _ => SparingAction.keeps

/-- The outcome of a run lasts in both tables along exactly the sequences of calls that do
not record the identity of a run that has ended. -/
theorem terminal_outcomes_stay_iff (py : Texts) (d : Deployment) (calls : List (Call × Time)) :
    Along KeepsOutcome (exec py) d calls ↔ Replays SparesOutcome (exec py) d calls := by
  refine along_iff_replays (P := fun _ => True) (fun d _ => KeepsOutcome.refl d)
    (fun a b c => KeepsOutcome.trans) ?_ (fun _ _ _ _ => trivial) trivial
  exact fun d c _ => keepsOutcome_exec_iff c

def failedThenIdentified : List (Call × Time) :=
  [(.postEvent { phase := "pe", eventType := "osdcloud_failed", severity := "error" }, 1),
    (.setRunIdentity { vmid := 100, vmUuid := "uuid", mac := "mac" }, 2)]

theorem identity_reopens_a_failed_run :
    Created asciiTexts workgroupRun ∧
      ¬ Along KeepsOutcome (exec asciiTexts) workgroupRun failedThenIdentified := by
  refine ⟨created_workgroupRun, fun h => ?_⟩
  have hfailed : ((failedThenIdentified.take 1).foldl (exec asciiTexts) workgroupRun).run.state = .failed := by
    decide +kernel
  have hkeeps := (h (failedThenIdentified.take 1) (failedThenIdentified.drop 1) (List.prefix_refl _)).state
    (.inr hfailed)
  rw [hfailed] at hkeeps
  cases hkeeps

end Outcome

end ProxmoxVEAutopilot.CloudOsd
