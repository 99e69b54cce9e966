import ProxmoxVEAutopilot.Foundation.Table
import ProxmoxVEAutopilot.OsDeploy.FinalOutcome

/-!
# Bundles of OSDeploy runs

A bundle stores the aggregate of its children's states. Of the calls that move a child
only `mark_role_step_result` and `mark_failed_from_job` refresh it.
-/

namespace ProxmoxVEAutopilot.OsDeploy

open Foundation TsEngine
set_option autoImplicit false

structure Bundle where
  id : Nat
  state : DeployState := .created
  bundleName : String := ""
  updatedAt : Time := 0

structure BundleChild where
  bundleId : Nat
  dependencyOrder : Nat
  serverRole : String
  childRunId : Nat

structure OsdeployDb where
  deployments : List Deployment := []
  bundles : List Bundle := []
  children : List BundleChild := []

def Deployment.id (d : Deployment) : Nat := d.run.runId

def Broken (state : DeployState) : Prop := state = .failed ∨ state = .canceled

instance (state : DeployState) : Decidable (Broken state) := inferInstanceAs (Decidable (_ ∨ _))

/-- The rule of `_sync_bundle_state_for_child`; without children it stores nothing. -/
def bundleRule (states : List DeployState) : Option DeployState :=
  if states = [] then none
  else if ∃ s ∈ states, Broken s then some .failed
  else if ∀ s ∈ states, s = .complete then some .complete
  else if ∃ s ∈ states, s ≠ .created then some .running
  else some .created

section Store
variable (db : OsdeployDb)

def getDeployment (runId : Nat) : Option Deployment := db.deployments.find? fun d => d.id = runId

/-- The states of a bundle's children; the rule does not depend on their order. -/
def childStates (bundleId : Nat) : List DeployState :=
  ((db.children.filter fun c => c.bundleId = bundleId).filterMap fun c => getDeployment db c.childRunId).map
    fun d => d.run.state

def childOf (runId : Nat) : Option BundleChild := db.children.find? fun c => c.childRunId = runId

def syncBundleStateForChild (runId : Nat) (now : Time) : OsdeployDb :=
  match childOf db runId with
  | none => db
  | some child =>
    match bundleRule (childStates db child.bundleId) with
    | none => db
    | some next =>
      { db with bundles := Table.modify Bundle.id db.bundles child.bundleId fun b =>
          { b with state := next, updatedAt := now } }

/-- Whether a call comes to `_sync_bundle_state_for_child`. -/
def syncs (d : Deployment) : Call → Bool
  | .markRoleStepResult stepKind _ status _ _ =>
    !roleIsReady d && (status != "success" || some stepKind == finalRoleStepKind d.run.serverRole)
  | .markFailedFromJob f =>
    !(d.run.state == .complete || d.run.state == .canceled) &&
      !(d.run.state == .failed && failureRecorded d f.jobId)
  | _ => false

def moved (runId : Nat) (c : Call × Time) : OsdeployDb :=
  { db with deployments := Table.modify Deployment.id db.deployments runId fun d => exec d c }

def callRun (runId : Nat) (c : Call) (now : Time) : OsdeployDb :=
  match getDeployment db runId with
  | none => db
  | some d =>
    if syncs d c then syncBundleStateForChild (moved db runId (c, now)) runId now
    else moved db runId (c, now)

/-- What `create_run` is called with for one child. -/
structure ChildRequest where
  ids : IdSource
  nodeId : Nat → Uuid := id
  sequenceId : Uuid := 0
  versionId : Uuid := 0
  request : RunRequest

/-- One pass of the loop of `create_lab_bundle`; `none` is an exception. -/
def addChild (bundleId order : Nat) (r : ChildRequest) (now : Time) : Option OsdeployDb :=
  match createRun r.ids r.nodeId r.sequenceId r.versionId r.request now with
  | .error _ => none
  | .ok d =>
    if db.deployments.any fun e => e.id = d.id then none
    else some { db with
      deployments := db.deployments ++ [d]
      children := db.children ++ [⟨bundleId, order, r.request.serverRole, d.id⟩] }

def addChildren (bundleId : Nat) (now : Time) : List ChildRequest → Nat → OsdeployDb → OsdeployDb
  | [], _, db => db
  | r :: rest, order, db =>
    match addChild db bundleId order r now with
    | none => db
    | some db' => addChildren bundleId now rest (order + 1) db'

/-- An exception for the first child rolls the bundle's row back; later ones leave the
children there are. -/
def createLabBundle (bundleId : Nat) (bundleName : String) (requests : List ChildRequest) (now : Time) :
    OsdeployDb :=
  if db.bundles.any fun b => b.id = bundleId then db
  else
    let db' := { db with bundles := db.bundles ++ [{ id := bundleId, bundleName := bundleName, updatedAt := now }] }
    match requests with
    | [] => db'
    | r :: rest =>
      match addChild db' bundleId 1 r now with
      | none => db
      | some db'' => addChildren bundleId now rest 2 db''

end Store

inductive BundleCall where
  | createLabBundle (bundleId : Nat) (bundleName : String) (requests : List ChildRequest)
  | run (runId : Nat) (c : Call)

def execBundle (db : OsdeployDb) (c : BundleCall × Time) : OsdeployDb :=
  match c.1 with
  | .createLabBundle bundleId bundleName requests => createLabBundle db bundleId bundleName requests c.2
  | .run runId call => callRun db runId call c.2

/-- Every bundle stores what the rule says of its children now. -/
def InSync (db : OsdeployDb) : Prop := ∀ b ∈ db.bundles, ∀ s ∈ bundleRule (childStates db b.id), b.state = s

def otherStates (db : OsdeployDb) (child : BundleChild) : List DeployState :=
  ((db.children.filter fun c => c.bundleId = child.bundleId ∧ c.childRunId ≠ child.childRunId).filterMap
    fun c => getDeployment db c.childRunId).map fun d => d.run.state

/-- The run of a heartbeat is ready, or its role is already. -/
def completes (d : Deployment) : Bool := roleIsReady d || roleAlreadyReady d d.ts.steps

/-- For a child in state `s` among `others`: the call leaves the aggregate as it is. -/
def SparesAggregate (d : Deployment) (others : List DeployState) : Call → Prop
  | .setRunIdentity .. => d.run.state = .created → ∃ s ∈ others, s ≠ .created
  | .markPeRegistered _ => (∃ s ∈ others, Broken s) ∨
      ((∀ s ∈ d.run.state :: others, ¬ Broken s) ∧ (∃ s ∈ d.run.state :: others, s ≠ .created) ∧
        ∃ s ∈ d.run.state :: others, s ≠ .complete)
  | .markCompleteFromHeartbeat .. => (∃ s ∈ others, Broken s) ∨
      ((∀ s ∈ d.run.state :: others, ¬ Broken s) ∧ (∃ s ∈ d.run.state :: others, s ≠ .created) ∧
        ((∀ s ∈ d.run.state :: others, s = .complete) ∨ (∃ s ∈ others, s ≠ .complete) ∨ completes d = false))
  | .appendEvent .. | .markRoleStepResult .. | .markFailedFromJob _ => True

/-- The condition on a call that moves a child without refreshing its bundle. -/
def SparesBundle (db : OsdeployDb) (c : BundleCall × Time) : Prop :=
  match c.1 with
  | .createLabBundle .. => True
  | .run runId call => ∀ d ∈ getDeployment db runId, ∀ child ∈ childOf db runId,
      SparesAggregate d (otherStates db child) call

section Rule
variable {s : DeployState} {states others : List DeployState}

theorem bundleRule_congr {l l' : List DeployState} (h : ∀ s, s ∈ l ↔ s ∈ l') : bundleRule l = bundleRule l' := by
  have hnil : l = [] ↔ l' = [] := by
    rw [List.eq_nil_iff_forall_not_mem, List.eq_nil_iff_forall_not_mem]
    exact forall_congr' fun s => not_congr (h s)
  unfold bundleRule
  simp only [hnil, h]

/-- The rule for a child in state `s` and what it asks of the others. -/
def aggregate (s : DeployState) (broken allComplete past : Bool) : DeployState :=
  if Broken s ∨ broken then .failed
  else if s = .complete ∧ allComplete then .complete
  else if s ≠ .created ∨ past then .running
  else .created

def broken (others : List DeployState) : Bool := others.any fun t => Broken t

def allComplete (others : List DeployState) : Bool := others.all fun t => t = .complete

def past (others : List DeployState) : Bool := others.any fun t => t ≠ .created

theorem broken_iff : (∃ t ∈ others, Broken t) ↔ broken others = true := by simp [broken]

theorem not_broken_iff : (∀ t ∈ others, ¬ Broken t) ↔ broken others = false := by simp [broken]

theorem allComplete_iff : (∀ t ∈ others, t = .complete) ↔ allComplete others = true := by simp [allComplete]

theorem not_allComplete_iff : (∃ t ∈ others, t ≠ .complete) ↔ allComplete others = false := by
  simp [allComplete]

theorem past_iff : (∃ t ∈ others, t ≠ .created) ↔ past others = true := by simp [past]

theorem past_of_broken (h : broken others = true) : past others = true := by
  obtain ⟨t, ht, hbroken⟩ := broken_iff.mpr h
  refine past_iff.mp ⟨t, ht, ?_⟩
  rintro rfl
  rcases hbroken with hs | hs
  · cases hs
  · cases hs

theorem bundleRule_cons (s : DeployState) (others : List DeployState) :
    bundleRule (s :: others) = some (aggregate s (broken others) (allComplete others) (past others)) := by
  unfold bundleRule aggregate
  simp only [reduceCtorEq, if_false, List.mem_cons, exists_eq_or_imp, forall_eq_or_imp, broken_iff,
    allComplete_iff, past_iff]
  split_ifs <;> rfl

theorem rule_awaitingPe : bundleRule (.awaitingPe :: others) = bundleRule (.created :: others) ↔
    ∃ t ∈ others, t ≠ .created := by
  rw [bundleRule_cons, bundleRule_cons, past_iff, Option.some_inj]
  have hpast := @past_of_broken others
  revert hpast
  cases broken others <;> cases past others <;> cases allComplete others <;> decide

theorem rule_peRegistered : bundleRule (.peRegistered :: others) = bundleRule (s :: others) ↔
    (∃ t ∈ others, Broken t) ∨ ((∀ t ∈ s :: others, ¬ Broken t) ∧ (∃ t ∈ s :: others, t ≠ .created) ∧
      ∃ t ∈ s :: others, t ≠ .complete) := by
  simp only [bundleRule_cons, Option.some_inj, List.mem_cons, forall_eq_or_imp, exists_eq_or_imp, broken_iff,
    not_broken_iff, not_allComplete_iff, past_iff]
  cases broken others <;> cases past others <;> cases allComplete others <;> cases s <;> decide

theorem rule_heartbeat {completes : Bool} (hcomplete : s = .complete → completes = true) :
    bundleRule ((if completes then .complete else .rolePending) :: others) = bundleRule (s :: others) ↔
    (∃ t ∈ others, Broken t) ∨ ((∀ t ∈ s :: others, ¬ Broken t) ∧ (∃ t ∈ s :: others, t ≠ .created) ∧
      ((∀ t ∈ s :: others, t = .complete) ∨ (∃ t ∈ others, t ≠ .complete) ∨ completes = false)) := by
  simp only [bundleRule_cons, Option.some_inj, List.mem_cons, forall_eq_or_imp, exists_eq_or_imp, broken_iff,
    not_broken_iff, allComplete_iff, not_allComplete_iff, past_iff]
  revert hcomplete
  cases broken others <;> cases past others <;> cases allComplete others <;> cases completes <;> cases s <;>
    decide

end Rule

section Marking
variable {d : Deployment}

theorem finalRoleStepKind_mem {serverRole kind : String} (h : finalRoleStepKind serverRole = some kind) :
    kind ∈ fullOsRoleActionKinds := by
  unfold finalRoleStepKind roleStepKinds at h
  split_ifs at h
  all_goals
    cases h
    try decide

theorem finalRoleStepDone_marked (hrole : roleIsReady d = false) (agentId : String) (message : Option String)
    (data : Json) (now : Time) :
    finalRoleStepDone d (markStepsDoneByKind d.ts (heartbeatKinds d) agentId message data now).1.steps =
      finalRoleStepDone d d.ts.steps := by
  unfold markStepsDoneByKind
  split
  · rfl
  · unfold finalRoleStepDone
    cases hkind : finalRoleStepKind d.run.serverRole with
    | none => rfl
    | some kind =>
      have hnot : (normalizeKinds (heartbeatKinds d)).contains kind = false := by
        rw [List.contains_eq_mem, decide_eq_false_iff_not]
        intro hmem
        have hmarked := (List.mem_filter.mp hmem).1
        obtain ⟨r, hr, rfl⟩ := List.mem_map.mp (List.mem_dedup.mp hmarked)
        have hcond := (List.mem_filter.mp hr).2
        rw [hrole, Bool.false_or, Bool.and_eq_true, Bool.not_eq_true'] at hcond
        have hin := finalRoleStepKind_mem hkind
        rw [← List.contains_iff_mem, hcond.2] at hin
        cases hin
      simp only [Option.any_some, markLoop_steps, PlanTable.update, List.any_map]
      congr 1
      funext r
      by_cases hr : r.plan.kind = kind
      · simp only [Function.comp_apply, hr, hnot, Bool.false_and, Bool.false_eq_true, if_false,
          PlanStep.withProgress_self]
      · have hother : (r.plan.kind == kind) = false := beq_eq_false_iff_ne.mpr hr
        simp only [Function.comp_apply, PlanStep.withProgress_plan, hother, Bool.false_and]

def stateAfter (d : Deployment) : Call → DeployState
  | .setRunIdentity .. => if d.run.state = .created then .awaitingPe else d.run.state
  | .markPeRegistered _ => .peRegistered
  | .markCompleteFromHeartbeat .. => if completes d then .complete else .rolePending
  | .appendEvent .. | .markRoleStepResult .. | .markFailedFromJob _ => d.run.state

theorem state_heartbeat (agentId : String) (heartbeat : Heartbeat) (now : Time) :
    (markCompleteFromHeartbeat d agentId heartbeat now).run.state =
      if completes d then .complete else .rolePending := by
  unfold markCompleteFromHeartbeat
  rw [appendEvent_state]
  unfold completes roleAlreadyReady
  cases hrole : roleIsReady d with
  | true => rfl
  | false => simp only [finalRoleStepDone_marked hrole]

theorem state_exec {c : Call} (hsync : syncs d c = false) (now : Time) :
    (exec d (c, now)).run.state = stateAfter d c := by
  cases c with
  | setRunIdentity => exact appendEvent_state
  | markPeRegistered => exact appendEvent_state
  | appendEvent => exact appendEvent_state
  | markCompleteFromHeartbeat agentId heartbeat => exact state_heartbeat agentId heartbeat now
  | markRoleStepResult stepKind agentId status message data =>
    unfold syncs at hsync
    simp only [exec, stateAfter, markRoleStepResult]
    cases hrole : roleIsReady d with
    | true => simp
    | false =>
      simp only [hrole, Bool.not_false, Bool.true_and, Bool.or_eq_false_iff, bne_eq_false_iff_eq,
        beq_eq_false_iff_ne, ne_eq] at hsync
      simp [hsync.1, hsync.2]
  | markFailedFromJob f =>
    unfold syncs at hsync
    simp only [exec, stateAfter, markFailedFromJob]
    by_cases hstate : d.run.state = .complete ∨ d.run.state = .canceled
    · rw [if_pos hstate]
    · obtain ⟨hcomplete, hcanceled⟩ := not_or.mp hstate
      have hold : d.run.state = .failed ∧ failureRecorded d f.jobId = true := by
        simpa [hcomplete, hcanceled] using hsync
      rw [if_neg hstate, if_pos hold]

theorem appendEvent_id {phase eventType severity : String} {message : Option String} {data : Json} {now : Time} :
    (appendEvent d phase eventType severity message data now).id = d.id := by
  unfold appendEvent markPePhaseProgressFromEvent markStepsDoneFromEvent
  split <;> split <;> rfl

theorem exec_id (d : Deployment) (c : Call × Time) : (exec d c).id = d.id := by
  obtain ⟨c, now⟩ := c
  cases c with
  | markRoleStepResult =>
    simp only [exec, markRoleStepResult]
    split_ifs
    · rfl
    · exact appendEvent_id
    · exact appendEvent_id
    · exact appendEvent_id
  | markFailedFromJob =>
    simp only [exec, markFailedFromJob]
    split
    · rfl
    · split
      · rfl
      · split
        · rfl
        · exact appendEvent_id
  | _ => exact appendEvent_id

end Marking

section Store
variable {db : OsdeployDb} {runId : Nat}

/-- The primary and foreign keys; a run is a child of one bundle at most, since
`create_lab_bundle` makes the runs it enters. -/
structure Keys (db : OsdeployDb) : Prop where
  bundles : (db.bundles.map Bundle.id).Nodup
  children : (db.children.map BundleChild.childRunId).Nodup
  run : ∀ c ∈ db.children, (getDeployment db c.childRunId).isSome
  bundle : ∀ c ∈ db.children, ∃ b ∈ db.bundles, b.id = c.bundleId

theorem mem_childStates {bundleId : Nat} {s : DeployState} : s ∈ childStates db bundleId ↔
    ∃ c ∈ db.children, c.bundleId = bundleId ∧ ∃ d ∈ getDeployment db c.childRunId, d.run.state = s := by
  unfold childStates
  simp only [List.mem_map, List.mem_filterMap, List.mem_filter, decide_eq_true_eq]
  constructor
  · rintro ⟨d, ⟨c, ⟨hc, hb⟩, hd⟩, hs⟩
    exact ⟨c, hc, hb, d, hd, hs⟩
  · rintro ⟨c, hc, hb, d, hd, hs⟩
    exact ⟨d, ⟨c, ⟨hc, hb⟩, hd⟩, hs⟩

theorem mem_otherStates {child : BundleChild} {s : DeployState} : s ∈ otherStates db child ↔
    ∃ c ∈ db.children, c.bundleId = child.bundleId ∧ c.childRunId ≠ child.childRunId ∧
      ∃ d ∈ getDeployment db c.childRunId, d.run.state = s := by
  unfold otherStates
  simp only [List.mem_map, List.mem_filterMap, List.mem_filter, decide_eq_true_eq]
  constructor
  · rintro ⟨d, ⟨c, ⟨hc, hb, hne⟩, hd⟩, hs⟩
    exact ⟨c, hc, hb, hne, d, hd, hs⟩
  · rintro ⟨c, hc, hb, hne, d, hd, hs⟩
    exact ⟨d, ⟨c, ⟨hc, hb, hne⟩, hd⟩, hs⟩

theorem childOf_eq_some {child : BundleChild} (h : childOf db runId = some child) :
    child ∈ db.children ∧ child.childRunId = runId :=
  ⟨List.mem_of_find?_eq_some h, by simpa using List.find?_some h⟩

theorem rule_childStates {child : BundleChild} {d : Deployment} (hkeys : Keys db)
    (hchild : child ∈ db.children) (hd : getDeployment db child.childRunId = some d) :
    bundleRule (childStates db child.bundleId) = bundleRule (d.run.state :: otherStates db child) := by
  apply bundleRule_congr
  intro s
  rw [List.mem_cons, mem_childStates, mem_otherStates]
  constructor
  · rintro ⟨c, hc, hb, e, he, hs⟩
    by_cases hrun : c.childRunId = child.childRunId
    · rw [List.inj_on_of_nodup_map hkeys.children hc hchild hrun, hd] at he
      cases he
      exact .inl hs.symm
    · exact .inr ⟨c, hc, hb, hrun, e, he, hs⟩
  · rintro (rfl | ⟨c, hc, hb, _, e, he, hs⟩)
    · exact ⟨child, hchild, rfl, d, hd, rfl⟩
    · exact ⟨c, hc, hb, e, he, hs⟩

theorem getDeployment_moved (c : Call × Time) (j : Nat) : getDeployment (moved db runId c) j =
    (getDeployment db j).map fun d => if j = runId then exec d c else d :=
  Table.find?_modify (fun d => exec_id d c) j

theorem getDeployment_moved_of_ne {c : Call × Time} {j : Nat} (hj : j ≠ runId) :
    getDeployment (moved db runId c) j = getDeployment db j := by
  rw [getDeployment_moved]
  simp [hj]

theorem Keys.moved (h : Keys db) (c : Call × Time) : Keys (moved db runId c) where
  bundles := h.bundles
  children := h.children
  run := by
    intro child hchild
    rw [getDeployment_moved, Option.isSome_map]
    exact h.run child hchild
  bundle := h.bundle

theorem childStates_moved_of_ne {c : Call × Time} {bundleId : Nat}
    (hother : ∀ child ∈ db.children, child.bundleId = bundleId → child.childRunId ≠ runId) :
    bundleRule (childStates (moved db runId c) bundleId) = bundleRule (childStates db bundleId) := by
  apply bundleRule_congr
  intro s
  rw [mem_childStates, mem_childStates]
  constructor
  · rintro ⟨child, hchild, hb, d, hd, hs⟩
    rw [getDeployment_moved_of_ne (hother child hchild hb)] at hd
    exact ⟨child, hchild, hb, d, hd, hs⟩
  · rintro ⟨child, hchild, hb, d, hd, hs⟩
    rw [← getDeployment_moved_of_ne (c := c) (hother child hchild hb)] at hd
    exact ⟨child, hchild, hb, d, hd, hs⟩

theorem rule_moved {child : BundleChild} {d : Deployment} (hkeys : Keys db)
    (hchild : childOf db runId = some child) (hd : getDeployment db runId = some d) (c : Call × Time) :
    bundleRule (childStates (moved db runId c) child.bundleId) =
      bundleRule ((exec d c).run.state :: otherStates db child) := by
  obtain ⟨hmem, rfl⟩ := childOf_eq_some hchild
  have hnew : getDeployment (moved db child.childRunId c) child.childRunId = some (exec d c) := by
    rw [getDeployment_moved, hd]
    simp
  rw [rule_childStates (hkeys.moved c) hmem hnew]
  apply bundleRule_congr
  intro s
  rw [List.mem_cons, List.mem_cons, mem_otherStates, mem_otherStates]
  refine or_congr_right ⟨?_, ?_⟩
  · rintro ⟨x, hx, hb, hne, e, he, hs⟩
    rw [getDeployment_moved_of_ne hne] at he
    exact ⟨x, hx, hb, hne, e, he, hs⟩
  · rintro ⟨x, hx, hb, hne, e, he, hs⟩
    rw [← getDeployment_moved_of_ne (c := c) hne] at he
    exact ⟨x, hx, hb, hne, e, he, hs⟩

end Store

section Calls
variable {db : OsdeployDb} {runId : Nat}

theorem sparesAggregate_iff (d : Deployment) (others : List DeployState) (c : Call) :
    bundleRule (stateAfter d c :: others) = bundleRule (d.run.state :: others) ↔ SparesAggregate d others c := by
  cases c with
  | setRunIdentity =>
    unfold stateAfter SparesAggregate
    by_cases hcreated : d.run.state = .created
    · simp only [hcreated, if_true, forall_const]
      exact rule_awaitingPe
    · simp [hcreated]
  | markPeRegistered => exact rule_peRegistered
  | markCompleteFromHeartbeat =>
    refine rule_heartbeat fun hs => ?_
    exact roleReady_of_complete hs d.ts.steps
  | _ => simp [stateAfter, SparesAggregate]

theorem sparesAggregate_of_syncs {d : Deployment} {c : Call} (h : syncs d c = true) (others : List DeployState) :
    SparesAggregate d others c := by
  cases c with
  | markRoleStepResult => trivial
  | markFailedFromJob => trivial
  | _ => cases h

/-- A call that does not refresh the bundle keeps it in step exactly when it spares the
aggregate. -/
theorem inSync_moved_iff (hkeys : Keys db) (hsync : InSync db) {d : Deployment} {c : Call} (now : Time)
    (hd : getDeployment db runId = some d) (hc : syncs d c = false) :
    InSync (moved db runId (c, now)) ↔
      ∀ child ∈ childOf db runId, SparesAggregate d (otherStates db child) c := by
  have hrule : ∀ child ∈ childOf db runId,
      (bundleRule (childStates (moved db runId (c, now)) child.bundleId) =
        bundleRule (childStates db child.bundleId) ↔ SparesAggregate d (otherStates db child) c) := by
    intro child hchild
    obtain ⟨hmem, hrun⟩ := childOf_eq_some hchild
    rw [rule_moved hkeys hchild hd, state_exec hc, rule_childStates hkeys hmem (hrun ▸ hd)]
    exact sparesAggregate_iff d _ c
  constructor
  · intro hnew child hchild
    rw [← hrule child hchild]
    obtain ⟨hmem, hrun⟩ := childOf_eq_some hchild
    obtain ⟨b, hb, hid⟩ := hkeys.bundle child hmem
    -- both values of the rule are the state of the bundle
    have hold := rule_childStates hkeys hmem (hrun ▸ hd)
    have hmoved := rule_moved hkeys hchild hd (c, now)
    rw [bundleRule_cons] at hold hmoved
    have hbefore := hsync b hb _ (hid ▸ hold)
    have hafter := hnew b hb _ (hid ▸ hmoved)
    rw [hold, hmoved, ← hbefore, ← hafter]
  · intro hspares b hb s hs
    cases hchild : childOf db runId with
    | none =>
      rw [childStates_moved_of_ne] at hs
      · exact hsync b hb s hs
      · intro child hmem _ hrun
        have hnone := List.find?_eq_none.mp hchild child hmem
        simp [hrun] at hnone
    | some child =>
      have hsame : bundleRule (childStates (moved db runId (c, now)) b.id) =
          bundleRule (childStates db b.id) := by
        by_cases hid : child.bundleId = b.id
        · rw [← hid]
          exact (hrule child hchild).mpr (hspares child hchild)
        · apply childStates_moved_of_ne
          intro other hother hb' hrun
          obtain ⟨hmem, hrun'⟩ := childOf_eq_some hchild
          rw [List.inj_on_of_nodup_map hkeys.children hother hmem (hrun.trans hrun'.symm)] at hb'
          exact hid hb'
      rw [hsame] at hs
      exact hsync b hb s hs

theorem inSync_synced (hkeys : Keys db) (hsync : InSync db) {d : Deployment} {c : Call} (now : Time)
    (hd : getDeployment db runId = some d) :
    InSync (syncBundleStateForChild (moved db runId (c, now)) runId now) := by
  unfold syncBundleStateForChild
  rw [show childOf (moved db runId (c, now)) runId = childOf db runId from rfl]
  cases hchild : childOf db runId with
  | none =>
    intro b hb s hs
    rw [childStates_moved_of_ne] at hs
    · exact hsync b hb s hs
    · intro child hmem _ hrun
      have hnone := List.find?_eq_none.mp hchild child hmem
      simp [hrun] at hnone
  | some child =>
    have hrule := rule_moved hkeys hchild hd (c, now)
    rw [bundleRule_cons] at hrule
    dsimp only
    rw [hrule]
    dsimp only
    intro b hb s hs
    have hstates : ∀ id, childStates
        { moved db runId (c, now) with
          bundles := Table.modify Bundle.id (moved db runId (c, now)).bundles child.bundleId fun b =>
            { b with
              state := aggregate (exec d (c, now)).run.state (broken (otherStates db child))
                (allComplete (otherStates db child)) (past (otherStates db child))
              updatedAt := now } } id = childStates (moved db runId (c, now)) id := fun _ => rfl
    rw [hstates] at hs
    rcases Table.mem_modify.mp hb with ⟨hold, hne⟩ | ⟨old, hold, hid, rfl⟩
    · rw [childStates_moved_of_ne] at hs
      · exact hsync b hold s hs
      · intro other hother hb' hrun
        obtain ⟨hmem, hrun'⟩ := childOf_eq_some hchild
        rw [List.inj_on_of_nodup_map hkeys.children hother hmem (hrun.trans hrun'.symm)] at hb'
        exact hne hb'.symm
    · have hsome : s ∈ bundleRule (childStates (moved db runId (c, now)) child.bundleId) := hid ▸ hs
      rw [hrule] at hsome
      exact Option.some.inj hsome

theorem Keys.synced (h : Keys db) (now : Time) : Keys (syncBundleStateForChild db runId now) := by
  unfold syncBundleStateForChild
  split
  · exact h
  · split
    · exact h
    · rename_i child _ _ next _
      have hids : (Table.modify Bundle.id db.bundles child.bundleId fun b =>
          { b with state := next, updatedAt := now }).map Bundle.id = db.bundles.map Bundle.id :=
        Table.map_key_modify fun _ => rfl
      refine ⟨hids ▸ h.bundles, h.children, h.run, ?_⟩
      intro c hc
      obtain ⟨b, hb, hid⟩ := h.bundle c hc
      obtain ⟨b', hb', hid'⟩ := List.mem_map.mp (hids ▸ List.mem_map_of_mem (f := Bundle.id) hb)
      exact ⟨b', hb', hid'.trans hid⟩

theorem callRun_step (hkeys : Keys db) (hsync : InSync db) (c : Call) (now : Time) :
    Keys (callRun db runId c now) ∧ (InSync (callRun db runId c now) ↔ SparesBundle db (.run runId c, now)) := by
  unfold SparesBundle
  dsimp only
  cases hd : getDeployment db runId with
  | none =>
    have hsame : callRun db runId c now = db := by simp [callRun, hd]
    rw [hsame]
    exact ⟨hkeys, fun _ d h => absurd h (by simp), fun _ => hsync⟩
  | some d =>
    cases hc : syncs d c with
    | true =>
      have hcall : callRun db runId c now = syncBundleStateForChild (moved db runId (c, now)) runId now := by
        simp [callRun, hd, hc]
      rw [hcall]
      refine ⟨(hkeys.moved (c, now)).synced now, fun _ e he child _ => ?_,
        fun _ => inSync_synced hkeys hsync now hd⟩
      rw [← Option.some.inj he]
      exact sparesAggregate_of_syncs hc _
    | false =>
      have hcall : callRun db runId c now = moved db runId (c, now) := by simp [callRun, hd, hc]
      rw [hcall, inSync_moved_iff hkeys hsync now hd hc]
      refine ⟨hkeys.moved (c, now), fun h e he => ?_, fun h => h d rfl⟩
      rw [← Option.some.inj he]
      exact h

end Calls

section Creation
variable {db db' : OsdeployDb} {bundleId : Nat}

/-- The bundle is there with nothing past `created`. -/
structure BundleNew (bundleId : Nat) (db : OsdeployDb) : Prop where
  keys : Keys db
  inSync : InSync db
  inserted : ∃ b ∈ db.bundles, b.id = bundleId
  state : ∀ b ∈ db.bundles, b.id = bundleId → b.state = .created
  children : ∀ s ∈ childStates db bundleId, s = .created

theorem rule_of_created {states : List DeployState} (h : ∀ s ∈ states, s = .created) :
    ∀ s ∈ bundleRule states, s = .created := by
  intro s hs
  cases states with
  | nil => cases hs
  | cons t others =>
    rw [bundleRule_cons] at hs
    have hothers : ∀ u ∈ others, u = .created := fun u hu => h u (List.mem_cons_of_mem t hu)
    have hpast : past others = false := by
      cases hcase : past others with
      | false => rfl
      | true =>
        obtain ⟨u, hu, hne⟩ := past_iff.mpr hcase
        exact absurd (hothers u hu) hne
    have hbroken : broken others = false := by
      cases hcase : broken others with
      | false => rfl
      | true => exact absurd (past_of_broken hcase) (by simp [hpast])
    rw [h t List.mem_cons_self, hpast, hbroken] at hs
    rw [← Option.some.inj hs]
    simp [aggregate, Broken]

theorem addChild_spec {order : Nat} {r : ChildRequest} {now : Time}
    (h : addChild db bundleId order r now = some db') :
    ∃ d child, d.run.state = .created ∧ (∀ e ∈ db.deployments, e.id ≠ d.id) ∧
      child.bundleId = bundleId ∧ child.childRunId = d.id ∧
      db' = { db with deployments := db.deployments ++ [d], children := db.children ++ [child] } := by
  unfold addChild at h
  cases hrun : createRun r.ids r.nodeId r.sequenceId r.versionId r.request now with
  | error e =>
    rw [hrun] at h
    cases h
  | ok d =>
    rw [hrun] at h
    dsimp only at h
    split at h
    · cases h
    · rename_i hfresh
      refine ⟨d, ⟨bundleId, order, r.request.serverRole, d.id⟩,
        Created.state ⟨r.ids, r.nodeId, r.sequenceId, r.versionId, r.request, now, hrun⟩, ?_, rfl, rfl,
        (Option.some.inj h).symm⟩
      intro e he heq
      exact hfresh (List.any_eq_true.mpr ⟨e, he, decide_eq_true heq⟩)

theorem BundleNew.addChild (h : BundleNew bundleId db) {order : Nat} {r : ChildRequest} {now : Time}
    (hadd : addChild db bundleId order r now = some db') : BundleNew bundleId db' := by
  obtain ⟨d, child, hcreated, hfresh, hbundle, hrun, rfl⟩ := addChild_spec hadd
  have hnone : getDeployment db d.id = none := by
    unfold getDeployment
    rw [List.find?_eq_none]
    intro e he
    simpa using hfresh e he
  let db' : OsdeployDb := { db with deployments := db.deployments ++ [d], children := db.children ++ [child] }
  have hget : ∀ j, getDeployment db' j = (getDeployment db j).or (if d.id = j then some d else none) := by
    intro j
    simp [db', getDeployment, List.find?_append, List.find?_cons]
    split <;> simp_all
  have hold : ∀ c ∈ db.children, getDeployment db' c.childRunId = getDeployment db c.childRunId := by
    intro c hc
    obtain ⟨e, he⟩ := Option.isSome_iff_exists.mp (h.keys.run c hc)
    rw [hget, he, Option.some_or]
  have hnew : getDeployment db' child.childRunId = some d := by
    rw [hget, hrun, hnone]
    simp
  have hstates : ∀ b s, s ∈ childStates db' b ↔ s ∈ childStates db b ∨ (b = bundleId ∧ s = .created) := by
    intro b s
    rw [mem_childStates, mem_childStates]
    constructor
    · rintro ⟨c, hc, hb, e, he, hs⟩
      rcases List.mem_append.mp hc with hc | hc
      · rw [hold c hc] at he
        exact .inl ⟨c, hc, hb, e, he, hs⟩
      · rw [List.mem_singleton.mp hc] at hb he
        rw [hnew] at he
        cases he
        exact .inr ⟨hb.symm.trans hbundle, hs.symm.trans hcreated⟩
    · rintro (⟨c, hc, hb, e, he, hs⟩ | ⟨rfl, rfl⟩)
      · rw [← hold c hc] at he
        exact ⟨c, List.mem_append_left _ hc, hb, e, he, hs⟩
      · exact ⟨child, List.mem_append_right _ (List.mem_singleton_self _), hbundle, d, hnew, hcreated⟩
  have hchildren : ∀ s ∈ childStates db' bundleId, s = .created := by
    intro s hs
    rcases (hstates bundleId s).mp hs with hs | ⟨_, hs⟩
    · exact h.children s hs
    · exact hs
  refine ⟨⟨h.keys.bundles, ?_, ?_, ?_⟩, ?_, h.inserted, h.state, hchildren⟩
  · refine nodup_map_snoc h.keys.children fun c hc heq => ?_
    have hsome := h.keys.run c hc
    rw [heq, hrun, hnone] at hsome
    cases hsome
  · intro c hc
    rcases List.mem_append.mp hc with hc | hc
    · rw [hold c hc]
      exact h.keys.run c hc
    · rw [List.mem_singleton.mp hc, hnew]
      rfl
  · intro c hc
    rcases List.mem_append.mp hc with hc | hc
    · exact h.keys.bundle c hc
    · rw [List.mem_singleton.mp hc, hbundle]
      exact h.inserted
  · intro b hb s hs
    by_cases hid : b.id = bundleId
    · rw [h.state b hb hid, rule_of_created hchildren s (hid ▸ hs)]
    · have hsame : bundleRule (childStates db' b.id) = bundleRule (childStates db b.id) :=
        bundleRule_congr fun s => by simp [hstates, hid]
      exact h.inSync b hb s (hsame ▸ hs)

theorem BundleNew.addChildren (now : Time) (requests : List ChildRequest) :
    ∀ (order : Nat) (db : OsdeployDb), BundleNew bundleId db →
      BundleNew bundleId (addChildren bundleId now requests order db) := by
  induction requests with
  | nil => exact fun _ _ h => h
  | cons r rest ih =>
    intro order db h
    unfold OsDeploy.addChildren
    cases hadd : OsDeploy.addChild db bundleId order r now with
    | none => exact h
    | some db' => exact ih _ _ (h.addChild hadd)

theorem createLabBundle_step (hkeys : Keys db) (hsync : InSync db) (bundleId : Nat) (bundleName : String)
    (requests : List ChildRequest) (now : Time) :
    Keys (createLabBundle db bundleId bundleName requests now) ∧
      InSync (createLabBundle db bundleId bundleName requests now) := by
  unfold createLabBundle
  split
  · exact ⟨hkeys, hsync⟩
  rename_i habsent
  have hother : ∀ b ∈ db.bundles, b.id ≠ bundleId := by
    intro b hb heq
    exact habsent (List.any_eq_true.mpr ⟨b, hb, decide_eq_true heq⟩)
  let db' : OsdeployDb :=
    { db with bundles := db.bundles ++ [{ id := bundleId, bundleName := bundleName, updatedAt := now }] }
  have hnone : ∀ s, s ∉ childStates db bundleId := by
    intro s hs
    obtain ⟨c, hc, hb, _⟩ := mem_childStates.mp hs
    obtain ⟨b, hmem, hid⟩ := hkeys.bundle c hc
    exact hother b hmem (hid.trans hb)
  have hnew : BundleNew bundleId db' := by
    refine ⟨⟨nodup_map_snoc hkeys.bundles hother, hkeys.children, hkeys.run, ?_⟩, ?_, ?_, ?_, ?_⟩
    · intro c hc
      obtain ⟨b, hb, hid⟩ := hkeys.bundle c hc
      exact ⟨b, List.mem_append_left _ hb, hid⟩
    · intro b hb s hs
      rcases List.mem_append.mp hb with hb | hb
      · exact hsync b hb s hs
      · rw [List.mem_singleton.mp hb] at hs ⊢
        have hempty : childStates db' bundleId = [] := List.eq_nil_iff_forall_not_mem.mpr hnone
        rw [hempty] at hs
        cases hs
    · exact ⟨_, List.mem_append_right _ (List.mem_singleton_self _), rfl⟩
    · intro b hb hid
      rcases List.mem_append.mp hb with hb | hb
      · exact absurd hid (hother b hb)
      · rw [List.mem_singleton.mp hb]
    · exact fun s hs => absurd hs (hnone s)
  cases requests with
  | nil => exact ⟨hnew.keys, hnew.inSync⟩
  | cons r rest =>
    dsimp only
    split
    · exact ⟨hkeys, hsync⟩
    · rename_i hadd
      have hall := (hnew.addChild hadd).addChildren now rest 2 _
      exact ⟨hall.keys, hall.inSync⟩

end Creation

section Aggregate

theorem execBundle_step {db : OsdeployDb} (hkeys : Keys db) (hsync : InSync db) (c : BundleCall × Time) :
    Keys (execBundle db c) ∧ (InSync (execBundle db c) ↔ SparesBundle db c) := by
  obtain ⟨c, now⟩ := c
  cases c with
  | createLabBundle bundleId bundleName requests =>
    obtain ⟨hkeys', hsync'⟩ := createLabBundle_step hkeys hsync bundleId bundleName requests now
    exact ⟨hkeys', fun _ => trivial, fun _ => hsync'⟩
  | run runId c => exact callRun_step hkeys hsync c now

/-- Every bundle stores the aggregate of its children in all states of exactly the
executions whose calls spare it. -/
theorem bundles_in_sync_iff {db : OsdeployDb} (hkeys : Keys db) (hsync : InSync db)
    (calls : List (BundleCall × Time)) :
    Along (fun _ db => InSync db) execBundle db calls ↔ Replays SparesBundle execBundle db calls := by
  refine along_iff_replays (P := fun db => Keys db ∧ InSync db) (fun _ h => h.2) (fun _ _ _ _ h => h) ?_ ?_
    ⟨hkeys, hsync⟩
  · exact fun db c h => (execBundle_step h.1 h.2 c).2
  · exact fun db c h hok => ⟨(execBundle_step h.1 h.2 c).1, (execBundle_step h.1 h.2 c).2.mpr hok⟩

theorem keys_empty : Keys {} := by
  refine ⟨List.nodup_nil, List.nodup_nil, fun c hc => ?_, fun c hc => ?_⟩
  · cases hc
  · cases hc

theorem inSync_empty : InSync {} := fun b hb => by cases hb

def oneChild : BundleCall × Time :=
  (.createLabBundle 1 "lab" [{ ids := countingIds, request := { vmName := "FS1", serverRole := "file_server" } }], 1)

theorem created_bundle_in_sync :
    Along (fun _ db => InSync db) execBundle {} [oneChild, (.run 0 (.appendEvent "pe" "pe_log" "info" none .null), 2)] :=
  (bundles_in_sync_iff keys_empty inSync_empty _).mpr ⟨trivial, fun _ _ _ _ => trivial, trivial⟩

theorem identity_leaves_bundle_behind :
    ¬ Along (fun _ db => InSync db) execBundle {} [oneChild, (.run 0 (.setRunIdentity (some 101) none none none none), 2)] := by
  intro h
  have hstate := h [oneChild] [(.run 0 (.setRunIdentity (some 101) none none none none), 2)] (List.prefix_refl _)
  revert hstate
  unfold InSync
  decide

end Aggregate

end ProxmoxVEAutopilot.OsDeploy
