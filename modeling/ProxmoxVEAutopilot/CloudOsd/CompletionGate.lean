import ProxmoxVEAutopilot.CloudOsd.Create

/-!
# The completion gate

Calls run at once, each action in its own snapshot. The gate reads the plan in one
statement and writes `complete` in another and holds no lock on the steps, while a report
on a step that is done rewrites it: what the gate has read may be over when it writes.
-/

namespace ProxmoxVEAutopilot.CloudOsd

open Foundation TsEngine
set_option autoImplicit false

section DomainNames
variable {py : Texts}

theorem mem_uniqueText_keys {values : List String} {key : String} :
    key ∈ (uniqueText py values).map py.casefold ↔
      ∃ value ∈ values, strip value ≠ "" ∧ py.casefold (strip value) = key := by
  have hfold : ∀ (values out : List String),
      key ∈ (values.foldl (fun out value =>
        let item := strip value
        if item = "" ∨ py.casefold item ∈ out.map py.casefold then out else out ++ [item]) out).map
          py.casefold ↔
      key ∈ out.map py.casefold ∨ ∃ value ∈ values, strip value ≠ "" ∧ py.casefold (strip value) = key := by
    intro values
    induction values with
    | nil => simp
    | cons value values ih =>
      intro out
      rw [List.foldl_cons, ih]
      simp only [List.exists_mem_cons_iff]
      split
      · rename_i hskip
        constructor
        · exact fun h => h.imp id .inr
        · rintro (h | ⟨hne, hkey⟩ | h)
          · exact .inl h
          · rw [← hkey]
            exact .inl (hskip.resolve_left hne)
          · exact .inr h
      · rename_i hkeep
        rw [List.map_append, List.mem_append, or_assoc]
        refine or_congr_right (or_congr_left ?_)
        simp only [List.map_cons, List.map_nil, List.mem_singleton]
        exact ⟨fun h => ⟨fun hempty => hkeep (.inl hempty), h.symm⟩, fun h => h.2.symm⟩
  refine (hfold values []).trans ?_
  simp

theorem of_mem_uniqueText {values : List String} {item : String} (h : item ∈ uniqueText py values) :
    ∃ value ∈ values, item = strip value := by
  refine List.foldlRecOn (motive := fun out : List String => ∀ item ∈ out, ∃ value ∈ values, item = strip value)
    values _ (fun _ h => absurd h List.not_mem_nil) ?_ item h
  intro out hout value hvalue item hitem
  dsimp only at hitem
  split at hitem
  · exact hout item hitem
  · rcases List.mem_append.mp hitem with hitem | hitem
    · exact hout item hitem
    · exact ⟨value, hvalue, List.mem_singleton.mp hitem⟩

theorem mem_acceptable_of_twice {config : DomainJoin} {key : String}
    (h : key ∈ (uniqueText py
      (sanitizeDomainJoin py (sanitizeDomainJoin py config none) none).acceptableDomainNames).map py.casefold) :
    key ∈ (sanitizeDomainJoin py config none).acceptableDomainNames.map py.casefold := by
  cases henabled : config.enabled with
  | false => simp [sanitizeDomainJoin, henabled, uniqueText] at h
  | true =>
    obtain ⟨value, hvalue, hne, hkey⟩ := mem_uniqueText_keys.mp h
    simp only [sanitizeDomainJoin, henabled, Bool.not_true, Bool.false_eq_true, if_false, strip_strip] at hvalue ⊢
    set names := uniqueText py (config.acceptableDomainNames ++ [strip config.domainFqdn, strip config.credentialDomain])
    obtain ⟨item, hitem, rfl⟩ := of_mem_uniqueText hvalue
    rw [strip_strip] at hne hkey
    rcases List.mem_append.mp hitem with hitem | hitem
    · obtain ⟨source, _, rfl⟩ := of_mem_uniqueText hitem
      rw [strip_strip] at hkey
      exact List.mem_map.mpr ⟨_, hitem, hkey⟩
    · exact mem_uniqueText_keys.mpr ⟨item, List.mem_append_right _ hitem, hne, hkey⟩

theorem names_of_matched {config : DomainJoin} {heartbeat : Option Heartbeat}
    (h : (domainJoinVerification py (sanitizeDomainJoin py config none) heartbeat).isMatched = true) :
    ∃ beat, heartbeat = some beat ∧ beat.domainJoined = some true ∧
      py.casefold (strip (beat.domainName.getD "")) ∈
        (sanitizeDomainJoin py config none).acceptableDomainNames.map py.casefold := by
  simp only [domainJoinVerification, Bool.and_eq_true, decide_eq_true_eq] at h
  obtain ⟨⟨⟨_, hjoined⟩, _⟩, hname⟩ := h
  cases heartbeat with
  | none => cases hjoined
  | some beat =>
    refine ⟨beat, rfl, ?_, mem_acceptable_of_twice hname⟩
    cases hstate : beat.domainJoined with
    | none => simp [hstate] at hjoined
    | some joined => simpa [hstate] using hjoined

end DomainNames

section Plan

/-- Each kind has one step, and only a domain join waits for a reboot. -/
structure PlanFits (t : PlanTable) : Prop where
  kinds : (t.rows.map fun r => r.plan.kind).Nodup
  reboots : ∀ r ∈ t.rows, r.plan.rebootBehavior = .required → r.plan.kind = "join_domain_role"

theorem PlanFits.of_plans {t u : PlanTable} (h : PlanFits t)
    (hplans : u.rows.map PlanStep.plan = t.rows.map PlanStep.plan) : PlanFits u where
  kinds := by
    have hkinds : (u.rows.map fun r => r.plan.kind) = t.rows.map fun r => r.plan.kind := by
      have := congrArg (List.map FlatStep.kind) hplans
      simpa [Function.comp_def] using this
    rw [hkinds]
    exact h.kinds
  reboots := by
    intro r hr hreboot
    obtain ⟨q, hq, hplan⟩ := List.mem_map.mp (hplans ▸ List.mem_map_of_mem hr : r.plan ∈ t.rows.map PlanStep.plan)
    rw [← hplan] at hreboot ⊢
    exact h.reboots q hq hreboot

theorem nodup_generatedKinds (domainJoin : DomainJoin) : ((generatedSteps domainJoin).map GeneratedStep.kind).Nodup := by
  unfold generatedSteps
  cases domainJoin.enabled with
  | false => simp
  | true =>
    by_cases haddress : domainJoin.domainControllerIpv4 = ""
    · simp [haddress]
    · simp [haddress]

/-- The kind of a node that is a step. -/
def stepKind (n : Node) : String :=
  match n.nodeType with
  | .step kind => kind
  | .group => ""

theorem map_stepKind_sequenceNodes (nodeId : Nat → Uuid) (domainJoin : DomainJoin) (vmGroupTag : Option String) :
    (sequenceNodes nodeId domainJoin vmGroupTag).map stepKind =
      (generatedSteps domainJoin).map GeneratedStep.kind := by
  calc (sequenceNodes nodeId domainJoin vmGroupTag).map stepKind
      = (generatedSteps domainJoin).zipIdx.map fun p => p.1.kind := by
        unfold sequenceNodes
        rw [List.map_map]
        rfl
    _ = ((generatedSteps domainJoin).zipIdx.map Prod.fst).map GeneratedStep.kind := by
        rw [List.map_map]
        rfl
    _ = (generatedSteps domainJoin).map GeneratedStep.kind := by
        rw [List.zipIdx_map_fst]

theorem Created.planFits {py : Texts} {d : Deployment} (h : Created py d) : PlanFits d.ts.steps := by
  obtain ⟨ids, nodeId, sequenceId, versionId, request, now, h⟩ := h
  obtain ⟨_, _, version, target, vars, ts, hts, htree, hsteps⟩ := createRun_ok h
  have hplans := mapM_planRow_plan (createRunFromVersion_rows hts).1
  rw [hsteps]
  set nodes := sequenceNodes nodeId d.run.domainJoin request.vmGroupTag
  have hnode : ∀ n ∈ nodes, ∃ step ∈ generatedSteps d.run.domainJoin, n.parentId = none ∧
      n.nodeType = .step step.kind ∧ (n.rebootBehavior = .required → step.kind = "join_domain_role") := by
    intro n hn
    obtain ⟨p, hp, rfl⟩ := List.mem_map.mp hn
    refine ⟨p.1, (List.mem_zipIdx' hp).2 ▸ List.getElem_mem _, rfl, rfl, ?_⟩
    dsimp only
    split
    · rename_i hkind
      exact fun _ => hkind
    · intro hreboot
      cases hreboot
  constructor
  · have hkinds : (ts.steps.rows.map fun r => r.plan.kind) =
        (flattenSteps version.compiledTreeJson).map FlatStep.kind := by
      rw [← hplans, List.map_map]
      rfl
    have hperm : ((flattenSteps version.compiledTreeJson).map FlatStep.kind).Perm
        ((generatedSteps d.run.domainJoin).map GeneratedStep.kind) := by
      rw [htree, ← map_stepKind_sequenceNodes]
      refine (flattenSteps_kinds fun n hn => ?_).trans ((List.perm_insertionSort _ _).map stepKind)
      obtain ⟨step, _, hparent, htype, _⟩ := hnode n (mem_compiledTree.mp hn)
      exact ⟨hparent, by simp [stepKind, htype]⟩
    rw [hkinds]
    exact hperm.nodup_iff.mpr (nodup_generatedKinds d.run.domainJoin)
  · intro r hr hreboot
    have hflat : r.plan ∈ flattenSteps version.compiledTreeJson := hplans ▸ List.mem_map_of_mem hr
    obtain ⟨gs, n, kind, hbelow, hkind, _, _, _, hplan⟩ := flattenSteps_sound hflat
    rw [htree] at hbelow
    obtain ⟨step, _, _, htype, hjoin⟩ := hnode n (mem_compiledTree.mp hbelow.mem)
    rw [hplan] at hreboot ⊢
    rw [hkind] at htype
    cases htype
    exact hjoin hreboot

theorem kindState_eq_done {t : PlanTable} (h : PlanFits t) {kind : String} :
    kindState t kind = some .done ↔
      (∃ r ∈ t.rows, r.plan.kind = kind) ∧ ∀ r ∈ t.rows, r.plan.kind = kind → r.state = .done := by
  have hunique : ∀ q ∈ t.rows, ∀ r ∈ t.rows, q.plan.kind = r.plan.kind → q = r := fun q hq r hr =>
    List.inj_on_of_nodup_map h.kinds hq hr
  unfold kindState
  cases hlast : (t.rows.filter fun r => r.plan.kind == kind).getLast? with
  | none =>
    have hempty := List.getLast?_eq_none_iff.mp hlast
    have hno : ∀ r ∈ t.rows, r.plan.kind ≠ kind := by simpa using hempty
    constructor
    · exact fun hs => by cases hs
    · rintro ⟨⟨r, hr, hkind⟩, _⟩
      exact absurd hkind (hno r hr)
  | some q =>
    obtain ⟨hq, hkind⟩ := List.mem_filter.mp (List.mem_of_getLast? hlast)
    have hkind : q.plan.kind = kind := by simpa using hkind
    simp only [Option.map_some, Option.some.injEq]
    constructor
    · intro hdone
      refine ⟨⟨q, hq, hkind⟩, fun r hr hr' => ?_⟩
      rwa [hunique r hr q hq (hr'.trans hkind.symm)]
    · exact fun hdone => hdone.2 q hq hkind

/-- The report rewrites a step of these kinds that is done: it is accepted, and not
another success. -/
def Reopens (db : RunDb) (kinds : List String) (c : TsEngine.Call) : Prop :=
  ∃ stepId agentId status message data, c.op = .complete stepId agentId status message data ∧
    status ≠ .success ∧ status.supported = true ∧
    ∃ r ∈ db.steps.rows, r.id = stepId ∧ r.plan.kind ∈ kinds ∧ r.state = .done

theorem done_of_not_reopens {db : RunDb} {c : TsEngine.Call} {kinds : List String} (h : PlanFits db.steps)
    (hjoin : "join_domain_role" ∉ kinds) (hc : ¬ Reopens db kinds c) {r : PlanStep} (hr : r ∈ db.steps.rows)
    (hkind : r.plan.kind ∈ kinds) (hdone : r.state = .done) {p : StepProgress} (hmove : RowMove db c r p) :
    p.state = .done := by
  cases hmove with
  | keep => exact hdone
  | claimed _ hclaim =>
    rw [(nextClaim_spec hclaim).2.2.1] at hdone
    cases hdone
  | @completed agentId status message data o hop _ ho =>
    have hsuccess : status = .success := by
      by_contra hne
      exact hc ⟨r.id, agentId, status, message, data, hop, hne, outcome_ok_supported ho, r, hr, rfl, hkind, hdone⟩
    subst hsuccess
    have hreboot : r.plan.rebootBehavior ≠ .required := fun hreq => hjoin (h.reboots r hr hreq ▸ hkind)
    rw [outcome, if_neg hreboot] at ho
    cases ho
    rfl
  | rebooted => rfl
  | requeued _ hstate =>
    rw [hstate] at hdone
    cases hdone
  | marked => rfl

theorem exec_plans (db : RunDb) (c : TsEngine.Call) :
    (TsEngine.exec db c).steps.rows.map PlanStep.plan = db.steps.rows.map PlanStep.plan := by
  obtain ⟨f, hf, _⟩ := (exec_effect db c).rows
  rw [hf]
  simp [PlanTable.update, Function.comp_def]

theorem ready_exec {db : RunDb} {c : TsEngine.Call} {domainJoin : DomainJoin} (h : PlanFits db.steps)
    (hc : ¬ Reopens db (requiredKinds domainJoin) c)
    (hready : (v2CompletionStatus db.steps domainJoin).ready = true) :
    (v2CompletionStatus (TsEngine.exec db c).steps domainJoin).ready = true := by
  have hjoin : "join_domain_role" ∉ requiredKinds domainJoin := by
    unfold requiredKinds
    split
    · decide
    · decide
  simp only [v2CompletionStatus, List.isEmpty_iff, List.filter_eq_nil_iff, bne_iff_ne, ne_eq, not_not] at hready ⊢
  intro kind hkind
  obtain ⟨⟨r, hr, hrkind⟩, hdone⟩ := (kindState_eq_done h).mp (hready kind hkind)
  refine (kindState_eq_done (h.of_plans (exec_plans db c))).mpr ⟨?_, ?_⟩
  · obtain ⟨p, _, hp⟩ := exists_exec_row c hr
    exact ⟨_, hp, hrkind⟩
  · intro s hs hskind
    obtain ⟨q, hq, p, hmove, rfl⟩ := mem_exec_rows hs
    have hqkind : q.plan.kind = kind := hskind
    exact done_of_not_reopens h hjoin hc hq (hqkind ▸ hkind) (hdone q hq hqkind) hmove

end Plan

section Gate
variable (py : Texts)

/-- What the write of `complete` needs of the plan, and of the heartbeat it is made for. -/
def GateNeed (a : Action) (d : Deployment) : Prop :=
  match a with
  | .complete _ heartbeat _ =>
    (v2CompletionStatus d.ts.steps (sanitizeDomainJoin py d.run.domainJoin none)).ready = true ∧
    d.run.firstHeartbeatAt.isSome ∧
    ((sanitizeDomainJoin py d.run.domainJoin none).enabled = true →
      (domainJoinVerification py (sanitizeDomainJoin py d.run.domainJoin none) heartbeat).isMatched = true)
  | .observeHeartbeat waiting .. => waiting ≠ .complete
  | _ => True

/-- What no action takes back. -/
structure Later (a b : Deployment) : Prop where
  domainJoin : b.run.domainJoin = a.run.domainJoin
  heartbeat : a.run.firstHeartbeatAt.isSome → b.run.firstHeartbeatAt.isSome
  plans : b.ts.steps.rows.map PlanStep.plan = a.ts.steps.rows.map PlanStep.plan

variable {py}

theorem Later.refl (d : Deployment) : Later d d := ⟨rfl, id, rfl⟩

theorem Later.trans {a b c : Deployment} (hab : Later a b) (hbc : Later b c) : Later a c :=
  ⟨hbc.domainJoin.trans hab.domainJoin, fun h => hbc.heartbeat (hab.heartbeat h), hbc.plans.trans hab.plans⟩

theorem later_perform (a : Action) (d : Deployment) : Later d (perform a d) := by
  cases a with
  | engine c => exact ⟨rfl, id, exec_plans d.ts c⟩
  | markFailed message now =>
    unfold perform markFailed
    dsimp only
    split
    · exact .refl d
    · exact ⟨rfl, id, rfl⟩
  | observeHeartbeat waiting heartbeatAt now =>
    unfold perform observeHeartbeat
    dsimp only
    split
    · exact .refl d
    · exact ⟨rfl, by simp, rfl⟩
  | complete heartbeatAt heartbeat now =>
    unfold perform completeRun
    dsimp only
    split
    · exact .refl d
    · exact ⟨rfl, id, rfl⟩
  | waitForV2 now =>
    unfold perform waitForV2
    dsimp only
    split
    · exact .refl d
    · exact ⟨rfl, id, rfl⟩
  | _ => exact ⟨rfl, id, rfl⟩

abbrev Gated (py : Texts) (p : CloudProgram) (d : Deployment) : Prop :=
  p.Sound perform (GateNeed py) Later d

theorem Gated.seq {p q : CloudProgram} {d : Deployment} (hp : Gated py p d)
    (hq : ∀ e, Later d e → Gated py q e) : Gated py (p.seq q) d :=
  Program.Sound.seq Later.refl (fun _ _ _ => Later.trans) later_perform hp hq

variable {now : Time} {d : Deployment}

theorem gated_appendEvent (e : RunEvent) : Gated py (appendEvent now e) d := .one trivial

theorem gated_sync : Gated py (syncTsProgressForRun py now) d := ⟨trivial, fun _ _ => .one trivial⟩

theorem gated_completionGate {domainJoin : DomainJoin} {heartbeat : Option Heartbeat} (heartbeatAt : Time)
    (hconfig : domainJoin = sanitizeDomainJoin py d.run.domainJoin none) (hseen : d.run.firstHeartbeatAt.isSome)
    (hmatched : domainJoin.enabled = true → (domainJoinVerification py domainJoin heartbeat).isMatched = true) :
    Gated py (completionGate now domainJoin heartbeatAt heartbeat) d := by
  refine ⟨trivial, fun e he => ?_⟩
  dsimp only
  split
  · exact gated_appendEvent _
  · rename_i hready
    have hconfig' : domainJoin = sanitizeDomainJoin py e.run.domainJoin none := by
      rw [hconfig, he.domainJoin]
    have hneed : GateNeed py (.complete heartbeatAt heartbeat now) e := by
      simp only [GateNeed, ← hconfig']
      exact ⟨by simpa using hready, he.heartbeat hseen, hmatched⟩
    refine ⟨hneed, fun f _ => ?_⟩
    dsimp only
    split
    · trivial
    · exact gated_appendEvent _

theorem seen_observeHeartbeat {waiting : CloudState} {heartbeatAt : Time} (h : d.run.state ≠ .failed) :
    (perform (.observeHeartbeat waiting heartbeatAt now) d).run.firstHeartbeatAt.isSome := by
  simp [perform, observeHeartbeat, h]

theorem gated_markCompleteFromHeartbeat (heartbeatAt : Time) (heartbeat : Option Heartbeat) :
    Gated py (markCompleteFromHeartbeat py now heartbeatAt heartbeat) d := by
  refine ⟨trivial, fun current _ => ?_⟩
  dsimp only
  split
  · trivial
  · split
    · refine ⟨by simp [GateNeed], fun e _ => ?_⟩
      dsimp only
      split
      · trivial
      · exact ((gated_appendEvent _).seq fun _ _ => gated_appendEvent _).seq fun _ _ => gated_sync
    · rename_i hmatched
      refine ⟨by simp [GateNeed], fun e he => ?_⟩
      dsimp only
      split
      · trivial
      · rename_i hrunning
        refine ((gated_appendEvent _).seq fun _ _ => gated_sync).seq fun f hf => ?_
        have hlater := (later_perform (.observeHeartbeat .fullOsWaitingV2 heartbeatAt now) e).trans hf
        refine gated_completionGate heartbeatAt ?_ (hf.heartbeat (seen_observeHeartbeat hrunning)) ?_
        · have hsame : f.run.domainJoin = current.run.domainJoin := (he.trans hlater).domainJoin
          rw [hsame]
        · intro henabled
          by_contra hno
          exact hmatched (by simp [henabled, hno])

theorem gated_peRegister (body : PeRegisterBody) : Gated py (peRegister now body) d := by
  refine ⟨trivial, fun e _ => ?_⟩
  dsimp only
  split
  · exact ⟨trivial, fun _ _ => gated_appendEvent _⟩
  · trivial

theorem gated_postEvent (e : RunEvent) : Gated py (postEvent py now e) d := by
  refine (gated_appendEvent e).seq fun _ _ => Gated.seq ?_ fun _ _ => Gated.seq ?_ fun _ _ => gated_sync
  · split
    · exact .one trivial
    · split
      · exact .one trivial
      · trivial
  · split
    · exact .one trivial
    · trivial

theorem gated_latest (latest : Option (Time × Heartbeat)) : Gated py (match latest with
    | none => .done
    | some (heartbeatAt, heartbeat) => markCompleteFromHeartbeat py now heartbeatAt (some heartbeat)) d := by
  cases latest with
  | none => trivial
  | some latest => exact gated_markCompleteFromHeartbeat latest.1 (some latest.2)

theorem gated_getRun (latest : Option (Time × Heartbeat)) : Gated py (getRun py now latest) d := by
  refine ⟨trivial, fun e _ => Gated.seq ?_ fun _ _ => gated_sync⟩
  cases latest with
  | none => trivial
  | some latest =>
    dsimp only
    split
    · exact gated_markCompleteFromHeartbeat latest.1 (some latest.2)
    · trivial

theorem gated_archiveRunsBulk (state : CloudState) (olderThanHours : Nat) (reason eventType : String) :
    Gated py (archiveRunsBulk now state olderThanHours reason eventType) d := by
  refine ⟨trivial, fun e _ => ?_⟩
  dsimp only
  split
  · exact Gated.seq (.one trivial) fun _ _ => gated_appendEvent _
  · trivial

theorem gated_postStepResult (stepId : Uuid) (body : StepResultBody) (latest : Option (Time × Heartbeat)) :
    Gated py (postStepResult py now stepId body latest) d := by
  refine ⟨trivial, fun e _ => ?_⟩
  dsimp only
  split
  · trivial
  · split
    · trivial
    · refine ⟨trivial, fun f _ => ?_⟩
      unfold syncCloudosdAfterStepResult
      split
      · trivial
      · split
        · trivial
        · exact (gated_appendEvent _).seq fun _ _ => gated_latest latest

theorem gated_requeueAgentV2Step (stepId : Uuid) (requestedBy : String) :
    Gated py (requeueAgentV2Step py now stepId requestedBy) d := by
  refine ⟨trivial, fun e _ => ?_⟩
  dsimp only
  split
  · trivial
  · split
    · trivial
    · refine ⟨trivial, fun f _ => ?_⟩
      dsimp only
      split
      · trivial
      · refine Gated.seq ⟨trivial, fun _ _ => gated_appendEvent _⟩ fun _ _ => gated_sync

theorem gated_call (c : Call × Time) : Gated py (Call.program py c) d := by
  obtain ⟨c, now⟩ := c
  cases c with
  | setRunIdentity body => exact ⟨trivial, fun _ _ => gated_appendEvent _⟩
  | peRegister body => exact gated_peRegister body
  | postEvent e => exact gated_postEvent e
  | appendEvent e => exact gated_appendEvent e
  | markCompleteFromHeartbeat heartbeatAt heartbeat => exact gated_markCompleteFromHeartbeat heartbeatAt heartbeat
  | getRun latest => exact gated_getRun latest
  | syncTsProgress => exact gated_sync
  | archive reason => exact ⟨trivial, fun _ _ => gated_appendEvent _⟩
  | unarchive => exact ⟨trivial, fun _ _ => gated_appendEvent _⟩
  | archiveStaleFailedRuns => exact gated_archiveRunsBulk _ _ _ _
  | archiveCompletedOldRuns => exact gated_archiveRunsBulk _ _ _ _

theorem gated_request (q : Request × Time) : Gated py (Request.program py q) d := by
  obtain ⟨q, now⟩ := q
  cases q with
  | call c => exact gated_call (c, now)
  | postStepResult stepId body latest => exact gated_postStepResult stepId body latest
  | retryV2Step stepId => exact gated_requeueAgentV2Step stepId "operator"
  | engine op => exact ⟨trivial, fun _ _ => trivial⟩

end Gate

section Runs
variable {τ : Type} [DecidableEq τ] {py : Texts}

/-- Requests run at once; `τ` names the connections they use. -/
abbrev CloudPool (τ : Type) := Pool Action Deployment τ

def advance (py : Texts) (w : CloudPool τ) (i : Schedule (Request × Time) τ) : CloudPool τ :=
  w.exec perform (Request.program py) i

/-- The program has read a plan that is ready and is about to write `complete`. -/
def atGate : CloudProgram → Bool
  | .act (.complete ..) _ => true
  | _ => false

def engineCall? : CloudProgram → Option TsEngine.Call
  | .act (.engine c) _ => some c
  | _ => none

/-- No report reopens a required step while a gate stands between its reading and its write. -/
def SparesGate (w : CloudPool τ) : Schedule (Request × Time) τ → Prop
  | .start .. => True
  | .step t => ∀ c, engineCall? (w.todo t) = some c → (∃ u, atGate (w.todo u) = true) →
      ¬ Reopens w.shared.ts (requiredKinds w.shared.run.domainJoin) c

/-- What a complete run has to show, `heartbeat` being the one it was completed for. -/
structure Proven (py : Texts) (d : Deployment) (heartbeat : Option Heartbeat) : Prop where
  seen : d.run.firstHeartbeatAt.isSome
  steps : ∀ r ∈ d.ts.steps.rows,
    r.plan.kind = "capture_autopilot_hash" ∨ r.plan.kind = "wait_agent_heartbeat" → r.state = .done
  verified : d.run.domainJoin.enabled = true → ∀ r ∈ d.ts.steps.rows,
    r.plan.kind = "verify_ad_domain_join" → r.state = .done
  joined : d.run.domainJoin.enabled = true → ∃ beat, heartbeat = some beat ∧ beat.domainJoined = some true ∧
    py.casefold (strip (beat.domainName.getD "")) ∈
      (sanitizeDomainJoin py d.run.domainJoin none).acceptableDomainNames.map py.casefold

theorem sanitizeDomainJoin_enabled (raw : DomainJoin) (name : Option String) :
    (sanitizeDomainJoin py raw name).enabled = raw.enabled := by
  unfold sanitizeDomainJoin
  cases h : raw.enabled with
  | false => simp
  | true => rfl

theorem requiredKinds_sanitize (raw : DomainJoin) (name : Option String) :
    requiredKinds (sanitizeDomainJoin py raw name) = requiredKinds raw := by
  unfold requiredKinds
  rw [sanitizeDomainJoin_enabled]

theorem proven_of_need {d : Deployment} {heartbeatAt now : Time} {heartbeat : Option Heartbeat}
    (hplan : PlanFits d.ts.steps) (h : GateNeed py (.complete heartbeatAt heartbeat now) d) :
    Proven py d heartbeat := by
  obtain ⟨hready, hseen, hmatched⟩ := h
  simp only [v2CompletionStatus, List.isEmpty_iff, List.filter_eq_nil_iff, bne_iff_ne, ne_eq, not_not,
    requiredKinds_sanitize] at hready
  rw [sanitizeDomainJoin_enabled] at hmatched
  have hdone : ∀ kind ∈ requiredKinds d.run.domainJoin, ∀ r ∈ d.ts.steps.rows, r.plan.kind = kind →
      r.state = .done := fun kind hkind => ((kindState_eq_done hplan).mp (hready kind hkind)).2
  refine ⟨hseen, ?_, ?_, fun henabled => names_of_matched (hmatched henabled)⟩
  · rintro r hr (hkind | hkind)
    · exact hdone _ (by simp [requiredKinds]) r hr hkind
    · exact hdone _ (by simp [requiredKinds]) r hr hkind
  · exact fun henabled r hr hkind => hdone _ (by simp [requiredKinds, henabled]) r hr hkind

theorem complete_of_completes {a : Action} {d : Deployment} (hneed : GateNeed py a d)
    (hopen : d.run.state ≠ .complete) (h : (perform a d).run.state = .complete) :
    d.run.state ≠ .failed ∧ ∃ heartbeatAt heartbeat now, a = .complete heartbeatAt heartbeat now := by
  cases a with
  | complete heartbeatAt heartbeat now =>
    refine ⟨fun hfailed => ?_, heartbeatAt, heartbeat, now, rfl⟩
    simp [perform, completeRun, hfailed] at h
  | observeHeartbeat waiting heartbeatAt now =>
    unfold perform observeHeartbeat at h
    dsimp only at h
    split at h
    · exact absurd h hopen
    · exact absurd (by simpa [hopen] using h) hneed
  | recordIdentity body now => cases h
  | markPeRegistered now => cases h
  | markFailed message now =>
    simp only [perform, markFailed, hopen, if_false] at h
    cases h
  | waitForV2 now =>
    simp only [perform, waitForV2, hopen, if_false] at h
    cases h
  | _ => exact absurd h hopen

theorem completeRun_proven {d : Deployment} {heartbeatAt now : Time} {heartbeat : Option Heartbeat}
    (h : Proven py d heartbeat) : Proven py (perform (.complete heartbeatAt heartbeat now) d) heartbeat := by
  unfold perform completeRun
  dsimp only
  split
  · exact h
  · exact ⟨h.seen, h.steps, h.verified, h.joined⟩

theorem need_perform {a b : Action} {d : Deployment} (hplan : PlanFits d.ts.steps) (hneed : GateNeed py a d)
    (hb : ∀ heartbeatAt heartbeat now c, a = .complete heartbeatAt heartbeat now → b = .engine c →
      ¬ Reopens d.ts (requiredKinds d.run.domainJoin) c) :
    GateNeed py a (perform b d) := by
  cases a with
  | complete heartbeatAt heartbeat now =>
    obtain ⟨hready, hseen, hmatched⟩ := hneed
    have hlater := later_perform b d
    simp only [GateNeed, hlater.domainJoin]
    refine ⟨?_, hlater.heartbeat hseen, hmatched⟩
    cases b with
    | engine c =>
      refine ready_exec hplan ?_ hready
      rw [requiredKinds_sanitize]
      exact hb _ _ _ c rfl rfl
    | markFailed message now =>
      unfold perform markFailed
      dsimp only
      split
      · exact hready
      · exact hready
    | observeHeartbeat waiting heartbeatAt now =>
      unfold perform observeHeartbeat
      dsimp only
      split
      · exact hready
      · exact hready
    | complete heartbeatAt heartbeat now =>
      unfold perform completeRun
      dsimp only
      split
      · exact hready
      · exact hready
    | waitForV2 now =>
      unfold perform waitForV2
      dsimp only
      split
      · exact hready
      · exact hready
    | _ => exact hready
  | observeHeartbeat => exact hneed
  | _ => trivial

omit [DecidableEq τ] in
theorem undisturbed_of_sparesGate {w : CloudPool τ} {i : Schedule (Request × Time) τ}
    (hplan : PlanFits w.shared.ts.steps) (h : SparesGate w i) :
    w.Undisturbed perform (GateNeed py) i := by
  cases i with
  | start => trivial
  | step t =>
    intro u a next b rest _ ha hb hneed
    refine need_perform hplan hneed ?_
    rintro heartbeatAt heartbeat now c rfl rfl
    exact h c (by rw [hb, engineCall?]) ⟨u, by rw [ha, atGate]⟩

/-- Where no report reopens a step under a gate, a run becomes complete only with every
proof there, and never from `failed`. -/
theorem completion_is_proven {d : Deployment} (h : Created py d) {is : List (Schedule (Request × Time) τ)}
    (hspared : Replays SparesGate (advance py) (Pool.idle d) is) (i : Schedule (Request × Time) τ)
    (hopen : (is.foldl (advance py) (Pool.idle d)).shared.run.state ≠ .complete)
    (hcomplete : (advance py (is.foldl (advance py) (Pool.idle d)) i).shared.run.state = .complete) :
    (is.foldl (advance py) (Pool.idle d)).shared.run.state ≠ .failed ∧
    ∃ t heartbeatAt heartbeat now next, i = .step t ∧
      (is.foldl (advance py) (Pool.idle d)).todo t = .act (.complete heartbeatAt heartbeat now) next ∧
      Proven py (advance py (is.foldl (advance py) (Pool.idle d)) i).shared heartbeat := by
  have hlater : ∀ (w : CloudPool τ) i, Later d w.shared → Later d (advance py w i).shared := fun w i hw =>
    hw.trans (Pool.exec_shared Later.refl later_perform i)
  have hplans : ∀ w : CloudPool τ, Later d w.shared → PlanFits w.shared.ts.steps := fun w hw =>
    h.planFits.of_plans hw.plans
  have hundisturbed : Replays (Pool.Undisturbed perform (GateNeed py)) (advance py) (Pool.idle d) is :=
    hspared.mono (P := fun w => Later d w.shared) hlater
      (fun w i hw hi => undisturbed_of_sparesGate (hplans w hw) hi) (Later.refl d)
  have hsound : ∀ t, Gated py ((is.foldl (advance py) (Pool.idle d)).todo t)
      (is.foldl (advance py) (Pool.idle d)).shared :=
    Pool.sound_of_replays Later.refl (fun _ _ _ => Later.trans) later_perform
      (fun q e => gated_request (d := e) q) hundisturbed fun _ => trivial
  have hreached : Later d (is.foldl (advance py) (Pool.idle d)).shared :=
    (Run.of_replays hspared).invariant (P := fun w => Later d w.shared)
      (fun w i w' hw hstep => hstep.2 ▸ hlater w i hw) (Later.refl d)
  set w := is.foldl (advance py) (Pool.idle d)
  cases i with
  | start t q =>
    unfold advance Pool.exec at hcomplete
    dsimp only at hcomplete
    split at hcomplete
    · exact absurd hcomplete hopen
    · exact absurd hcomplete hopen
  | step t =>
    cases htodo : w.todo t with
    | done =>
      simp only [advance, Pool.exec, htodo] at hcomplete
      exact absurd hcomplete hopen
    | act a next =>
      have hneed : GateNeed py a w.shared := by
        have ht := hsound t
        rw [htodo] at ht
        exact ht.1
      have hexec : (advance py w (.step t)).shared = perform a w.shared := by
        simp only [advance, Pool.exec, htodo]
      rw [hexec] at hcomplete
      obtain ⟨hfailed, heartbeatAt, heartbeat, now, rfl⟩ := complete_of_completes hneed hopen hcomplete
      refine ⟨hfailed, t, heartbeatAt, heartbeat, now, next, rfl, htodo, ?_⟩
      rw [hexec]
      exact completeRun_proven (proven_of_need (hplans w hreached) hneed)

section Examples

def readyToComplete : List (Schedule (Request × Time) Bool) :=
  [.start false (.postStepResult 7 { agentId := "agent-1", phase := "full_os", status := "success" } none, 1)] ++
    List.replicate 3 (.step false) ++
  [.start false (.call (.markCompleteFromHeartbeat 2 (some {})), 2)] ++ List.replicate 6 (.step false)

theorem readyToComplete_sparesGate :
    Replays SparesGate (advance asciiTexts) (Pool.idle workgroupRun) readyToComplete := by
  have hnobody : Replays (fun w _ => ∀ u, atGate (w.todo u) = false) (advance asciiTexts)
      (Pool.idle workgroupRun) readyToComplete := by decide +kernel
  refine hnobody.mono (P := fun _ => True) (fun _ _ _ => trivial) ?_ trivial
  intro w i _ hw
  cases i with
  | start => trivial
  | step t =>
    rintro c _ ⟨u, hu⟩
    rw [hw u] at hu
    cases hu

theorem hash_and_heartbeat_complete_a_run : ∃ heartbeat, Proven asciiTexts
    (advance asciiTexts (readyToComplete.foldl (advance asciiTexts) (Pool.idle workgroupRun))
      (.step false)).shared heartbeat := by
  obtain ⟨_, _, _, heartbeat, _, _, _, _, h⟩ := completion_is_proven created_workgroupRun
    readyToComplete_sparesGate (.step false) (by decide +kernel) (by decide +kernel)
  exact ⟨heartbeat, h⟩

def reopenedAtGate : List (Schedule (Request × Time) Bool) :=
  readyToComplete ++
  [.start true (.postStepResult 7 { agentId := "agent-1", phase := "full_os", status := "failed" } none, 3)] ++
    List.replicate 2 (.step true)

theorem late_report_slips_past_the_gate :
    Created asciiTexts workgroupRun ∧
    (reopenedAtGate.foldl (advance asciiTexts) (Pool.idle workgroupRun)).shared.run.state ≠ .complete ∧
    (advance asciiTexts (reopenedAtGate.foldl (advance asciiTexts) (Pool.idle workgroupRun))
      (.step false)).shared.run.state = .complete ∧
    ∃ r ∈ (advance asciiTexts (reopenedAtGate.foldl (advance asciiTexts) (Pool.idle workgroupRun))
      (.step false)).shared.ts.steps.rows, r.plan.kind = "capture_autopilot_hash" ∧ r.state ≠ .done :=
  ⟨created_workgroupRun, by decide +kernel, by decide +kernel, by decide +kernel⟩

end Examples

end Runs

end ProxmoxVEAutopilot.CloudOsd
