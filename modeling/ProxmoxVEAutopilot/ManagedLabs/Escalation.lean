import ProxmoxVEAutopilot.Foundation.Runs
import ProxmoxVEAutopilot.Foundation.Table
import ProxmoxVEAutopilot.ManagedLabs.Reconcile

/-!
# Escalation of failed reconciles

`finish_reconcile_run` decides the status of a lab by the attempt number of the run. The
number is `retry_count` and one more, and is written back whatever became of the run, so
it counts the runs that were finished and not the failures.
-/

namespace ProxmoxVEAutopilot.ManagedLabs.Escalation

open Foundation
set_option autoImplicit false

section Model

abbrev RunId := Nat

/-- The columns of `labs` that a reconcile run reads and writes. -/
structure LabRow where
  id : LabId
  status : String := "draft"
  retryCount : Nat := 0
  lastReconcileRunId : Option RunId := none
deriving DecidableEq, Repr

/-- A row of `lab_reconcile_runs`. -/
structure ReconcileRun where
  id : RunId
  labId : LabId
  status : String := "running"
  attempt : Nat
deriving DecidableEq, Repr

/-- Runs stand in the order they were started in; `nextRunId` is what is drawn next. -/
structure ReconcileDb where
  labs : List LabRow := []
  runs : List ReconcileRun := []
  nextRunId : RunId := 0
deriving DecidableEq, Repr

def labStatuses : List String := ["draft", "reserving", "validating", "fixing", "ready", "blocked", "archived"]

def startReconcileRun (db : ReconcileDb) (labId : LabId) (attempt : Nat) : ReconcileDb where
  labs := Table.modify LabRow.id db.labs labId fun l =>
    { l with status := "validating", lastReconcileRunId := some db.nextRunId }
  runs := db.runs ++ [{ id := db.nextRunId, labId := labId, attempt := attempt }]
  nextRunId := db.nextRunId + 1

def labStatusFromReconcileStatus (status : String) (attempt : Nat) : String :=
  if status = "failed" then
    if 5 ≤ attempt then "blocked" else "validating"
  else if status ∈ labStatuses then status
  else "validating"

/-- Without the run the assertion fails, and the update of nothing is not committed. -/
def finishReconcileRun (db : ReconcileDb) (runId : RunId) (status : String) : ReconcileDb :=
  match db.runs.find? fun r => r.id = runId with
  | none => db
  | some run =>
    { db with
      runs := Table.modify ReconcileRun.id db.runs runId fun r => { r with status := status }
      labs := Table.modify LabRow.id db.labs run.labId fun l =>
        { l with
          status := labStatusFromReconcileStatus status run.attempt
          retryCount := run.attempt
          lastReconcileRunId := some run.id } }

def statusText : PlanStatus → String
  | .blocked => "blocked"
  | .fixing => "fixing"
  | .ready => "ready"

/-- What becomes of a run that was started. After an error of the database the transaction
takes no statement, so that `finish_reconcile_run` raises as well. -/
inductive Outcome where
  | planned (status : PlanStatus)
  | raised
  | aborted
deriving DecidableEq, Repr

def Outcome.Fails : Outcome → Prop
  | .planned _ => False
  | _ => True

def finishAs (db : ReconcileDb) (runId : RunId) : Outcome → ReconcileDb
  | .planned status => finishReconcileRun db runId (statusText status)
  | .raised => finishReconcileRun db runId "failed"
  | .aborted => db

def reconcileLabOnce (db : ReconcileDb) (lab : LabRow) (outcome : Outcome) : ReconcileDb :=
  finishAs (startReconcileRun db lab.id (lab.retryCount + 1)) db.nextRunId outcome

/-- The endpoint runs the same steps on the row it has just read. -/
def reconcileLab (db : ReconcileDb) (labId : LabId) (outcome : Outcome) : ReconcileDb :=
  match db.labs.find? fun l => l.id = labId with
  | none => db
  | some lab => reconcileLabOnce db lab outcome

/-- `reconcile_all_labs` over the rows it listed at its start. It ends early where a call
raises, or where applying the fixes of a lab has left the transaction `broken`. -/
def reconcileAllLabs (outcomes : LabId → Outcome) (broken : LabId → Bool) : ReconcileDb → List LabRow → ReconcileDb
  | db, [] => db
  | db, lab :: rows =>
    if outcomes lab.id = .aborted ∨ broken lab.id then reconcileLabOnce db lab (outcomes lab.id)
    else reconcileAllLabs outcomes broken (reconcileLabOnce db lab (outcomes lab.id)) rows

inductive Call where
  | createLab (labId : LabId)
  | reconcile (labId : LabId) (outcome : Outcome)
  | deleteLab (labId : LabId)

def exec (db : ReconcileDb) : Call → ReconcileDb
  | .createLab labId => if db.labs.any fun l => l.id = labId then db else { db with labs := db.labs ++ [{ id := labId }] }
  | .reconcile labId outcome => reconcileLab db labId outcome
  | .deleteLab labId =>
    { db with
      labs := Table.delete LabRow.id db.labs labId
      runs := db.runs.filter fun r => r.labId ≠ labId }

end Model

section Effects
variable {db : ReconcileDb} {lab l : LabRow} {outcome : Outcome}

def runStatus : Outcome → String
  | .planned status => statusText status
  | .raised => "failed"
  | .aborted => "running"

def newRun (db : ReconcileDb) (lab : LabRow) (outcome : Outcome) : ReconcileRun :=
  ⟨db.nextRunId, lab.id, runStatus outcome, lab.retryCount + 1⟩

def newRow (runId : RunId) (lab : LabRow) : Outcome → LabRow
  | .aborted => { lab with status := "validating", lastReconcileRunId := some runId }
  | outcome =>
    { lab with
      status := labStatusFromReconcileStatus (runStatus outcome) (lab.retryCount + 1)
      retryCount := lab.retryCount + 1
      lastReconcileRunId := some runId }

@[simp] theorem newRow_id (runId : RunId) (lab : LabRow) (outcome : Outcome) : (newRow runId lab outcome).id = lab.id := by
  cases outcome <;> rfl

def RunsFresh (db : ReconcileDb) : Prop := ∀ r ∈ db.runs, r.id < db.nextRunId

theorem find_started (h : RunsFresh db) (labId : LabId) (attempt : Nat) :
    ((startReconcileRun db labId attempt).runs.find? fun r => r.id = db.nextRunId) =
      some { id := db.nextRunId, labId := labId, attempt := attempt } := by
  have hnone : (db.runs.find? fun r => r.id = db.nextRunId) = none := by
    rw [List.find?_eq_none]
    intro r hr
    simpa using Nat.ne_of_lt (h r hr)
  simp [startReconcileRun, List.find?_append, hnone]

theorem modify_runs_fresh (h : RunsFresh db) (r : ReconcileRun) (hr : r.id = db.nextRunId) (status : String) :
    Table.modify ReconcileRun.id (db.runs ++ [r]) db.nextRunId (fun r => { r with status := status }) =
      db.runs ++ [{ r with status := status }] := by
  unfold Table.modify
  rw [List.map_append, List.map_singleton, if_pos hr]
  congr 1
  conv_rhs => rw [← List.map_id db.runs]
  apply List.map_congr_left
  intro s hs
  rw [if_neg (Nat.ne_of_lt (h s hs)), id]

theorem finish_started (h : RunsFresh db) (lab : LabRow) (status : String) :
    finishReconcileRun (startReconcileRun db lab.id (lab.retryCount + 1)) db.nextRunId status =
      { labs := Table.modify LabRow.id db.labs lab.id fun l =>
          { l with
            status := labStatusFromReconcileStatus status (lab.retryCount + 1)
            retryCount := lab.retryCount + 1
            lastReconcileRunId := some db.nextRunId }
        runs := db.runs ++ [⟨db.nextRunId, lab.id, status, lab.retryCount + 1⟩]
        nextRunId := db.nextRunId + 1 } := by
  unfold finishReconcileRun
  rw [find_started h]
  simp only [startReconcileRun, ReconcileDb.mk.injEq, and_true]
  constructor
  · unfold Table.modify
    rw [List.map_map]
    apply List.map_congr_left
    intro l _
    by_cases hl : l.id = lab.id
    · simp [hl]
    · simp [hl]
  · exact modify_runs_fresh h _ rfl status

theorem reconcileLabOnce_eq (hfresh : RunsFresh db) (hids : (db.labs.map LabRow.id).Nodup) (hlab : lab ∈ db.labs) :
    reconcileLabOnce db lab outcome =
      { labs := Table.modify LabRow.id db.labs lab.id fun _ => newRow db.nextRunId lab outcome
        runs := db.runs ++ [newRun db lab outcome]
        nextRunId := db.nextRunId + 1 } := by
  have hrow : ∀ f : LabRow → LabRow, Table.modify LabRow.id db.labs lab.id f =
      Table.modify LabRow.id db.labs lab.id fun _ => f lab := by
    intro f
    unfold Table.modify
    apply List.map_congr_left
    intro l hl
    by_cases hid : l.id = lab.id
    · rw [if_pos hid, if_pos hid, List.inj_on_of_nodup_map hids hl hlab hid]
    · rw [if_neg hid, if_neg hid]
  unfold reconcileLabOnce
  cases outcome with
  | planned status =>
    rw [finishAs, finish_started hfresh, hrow]
    rfl
  | raised =>
    rw [finishAs, finish_started hfresh, hrow]
    rfl
  | aborted =>
    rw [finishAs, startReconcileRun, hrow]
    rfl

end Effects

section Counting
variable {db : ReconcileDb} {lab : LabRow} {labId : LabId} {outcome : Outcome}

def labRuns (db : ReconcileDb) (labId : LabId) : List ReconcileRun := db.runs.filter fun r => r.labId = labId

/-- No run is under way between two calls, so one that is still `running` ended in an error. -/
def ReconcileRun.finished (r : ReconcileRun) : Bool := r.status ≠ "running"

def ReconcileRun.failed (r : ReconcileRun) : Bool := r.status = "failed" ∨ r.status = "running"

def finishedRuns (db : ReconcileDb) (labId : LabId) : Nat := (labRuns db labId).countP ReconcileRun.finished

/-- There are `n` runs, and the last `n` failed. -/
def LastFailed (n : Nat) (runs : List ReconcileRun) : Prop :=
  n ≤ runs.length ∧ ∀ r ∈ runs.drop (runs.length - n), r.failed = true

instance (n : Nat) (runs : List ReconcileRun) : Decidable (LastFailed n runs) :=
  inferInstanceAs (Decidable (_ ∧ _))

theorem lastFailed_snoc {n : Nat} {runs : List ReconcileRun} {r : ReconcileRun} (hr : r.failed = true) :
    LastFailed (n + 1) (runs ++ [r]) ↔ LastFailed n runs := by
  unfold LastFailed
  rw [List.length_append, List.length_singleton, Nat.add_le_add_iff_right, Nat.add_sub_add_right]
  refine and_congr_right fun hn => ?_
  rw [List.drop_append_of_le_length (Nat.sub_le _ _)]
  simp [or_imp, forall_and, hr]

structure Kept (db : ReconcileDb) : Prop where
  labIds : (db.labs.map LabRow.id).Nodup
  runsFresh : RunsFresh db
  owned : ∀ r ∈ db.runs, r.labId ∈ db.labs.map LabRow.id
  counted : ∀ l ∈ db.labs, l.retryCount = finishedRuns db l.id

theorem kept_empty : Kept {} := by
  refine ⟨List.nodup_nil, ?_, ?_, ?_⟩
  · intro r hr
    cases hr
  · intro r hr
    cases hr
  · intro l hl
    cases hl

theorem statusText_ne_running (status : PlanStatus) : statusText status ≠ "running" := by
  cases status <;> decide

theorem newRun_finished (db : ReconcileDb) (lab : LabRow) (outcome : Outcome) :
    (newRun db lab outcome).finished = decide (outcome ≠ .aborted) := by
  cases outcome with
  | planned status => simp [ReconcileRun.finished, newRun, runStatus, statusText_ne_running]
  | raised => rfl
  | aborted => rfl

theorem newRun_failed (db : ReconcileDb) (lab : LabRow) (h : outcome.Fails) : (newRun db lab outcome).failed = true := by
  cases outcome with
  | planned status => exact h.elim
  | raised => rfl
  | aborted => rfl

theorem newRow_retryCount (runId : RunId) (lab : LabRow) (outcome : Outcome) :
    (newRow runId lab outcome).retryCount = if outcome = .aborted then lab.retryCount else lab.retryCount + 1 := by
  cases outcome <;> rfl

theorem Kept.reconcileLabOnce (h : Kept db) (hlab : lab ∈ db.labs) : Kept (reconcileLabOnce db lab outcome) := by
  rw [reconcileLabOnce_eq h.runsFresh h.labIds hlab]
  have hids : (Table.modify LabRow.id db.labs lab.id fun _ => newRow db.nextRunId lab outcome).map LabRow.id =
      db.labs.map LabRow.id := by
    unfold Table.modify
    rw [List.map_map]
    apply List.map_congr_left
    intro l _
    by_cases hl : l.id = lab.id
    · simp [hl]
    · simp [hl]
  constructor
  · rw [hids]
    exact h.labIds
  · intro r hr
    rcases List.mem_append.mp hr with hold | hnew
    · exact Nat.lt_succ_of_lt (h.runsFresh r hold)
    · rw [List.mem_singleton.mp hnew]
      exact Nat.lt_succ_self _
  · intro r hr
    rw [hids]
    rcases List.mem_append.mp hr with hold | hnew
    · exact h.owned r hold
    · rw [List.mem_singleton.mp hnew]
      exact List.mem_map_of_mem hlab
  · intro l hl
    unfold finishedRuns labRuns
    rw [List.filter_append, List.countP_append]
    rcases Table.mem_modify.mp hl with ⟨hold, hne⟩ | ⟨_, _, _, rfl⟩
    · have hother : ¬ (newRun db lab outcome).labId = l.id := fun heq => hne heq.symm
      rw [h.counted l hold, List.filter_singleton, decide_eq_false hother]
      rfl
    · have hsame : (newRun db lab outcome).labId = (newRow db.nextRunId lab outcome).id := (newRow_id _ _ _).symm
      rw [List.filter_singleton, decide_eq_true hsame, cond_true, List.countP_singleton, newRun_finished,
        newRow_retryCount, newRow_id, h.counted lab hlab]
      by_cases ha : outcome = .aborted
      · simp [ha, finishedRuns, labRuns]
      · simp [ha, finishedRuns, labRuns]

theorem labRuns_of_missing (h : Kept db) (hlab : labId ∉ db.labs.map LabRow.id) : labRuns db labId = [] := by
  unfold labRuns
  rw [List.filter_eq_nil_iff]
  intro r hr heq
  exact hlab (of_decide_eq_true heq ▸ h.owned r hr)

theorem kept_exec (h : Kept db) (c : Call) : Kept (exec db c) := by
  cases c with
  | createLab labId =>
    unfold exec
    dsimp only
    split
    · exact h
    · rename_i hnew
      have hfresh : labId ∉ db.labs.map LabRow.id := by simpa using hnew
      refine ⟨by simpa [List.nodup_append] using ⟨h.labIds, by simpa using hfresh⟩, h.runsFresh, ?_, ?_⟩
      · intro r hr
        rw [List.map_append]
        exact List.mem_append_left _ (h.owned r hr)
      · intro l hl
        rcases List.mem_append.mp hl with hold | hadded
        · exact h.counted l hold
        · obtain rfl := List.mem_singleton.mp hadded
          change 0 = finishedRuns db labId
          simp [finishedRuns, labRuns_of_missing h hfresh]
  | reconcile labId outcome =>
    unfold exec reconcileLab
    dsimp only
    split
    · exact h
    · rename_i lab hfind
      exact h.reconcileLabOnce (List.mem_of_find?_eq_some hfind)
  | deleteLab labId =>
    refine ⟨h.labIds.sublist (List.filter_sublist.map _), ?_, ?_, ?_⟩
    · exact fun r hr => h.runsFresh r (List.mem_of_mem_filter hr)
    · intro r hr
      have hne : r.labId ≠ labId := by simpa using (List.mem_filter.mp hr).2
      obtain ⟨l, hl, hid⟩ := List.mem_map.mp (h.owned r (List.mem_of_mem_filter hr))
      exact List.mem_map.mpr ⟨l, Table.mem_delete.mpr ⟨hl, hid ▸ hne⟩, hid⟩
    · intro l hl
      obtain ⟨hold, hne⟩ := Table.mem_delete.mp hl
      rw [h.counted l hold]
      unfold finishedRuns labRuns exec
      dsimp only
      rw [List.filter_filter]
      congr 2
      funext r
      by_cases hr : r.labId = l.id
      · simp [hr, hne]
      · simp [hr]

end Counting

section Blocking
variable {db : ReconcileDb} {lab : LabRow} {labId : LabId} {outcome : Outcome}

/-- A run of a lab that fails leaves it blocked if and only if the last five runs, with
this one, failed. -/
def EscalatesRight (db : ReconcileDb) : Call → Prop
  | .reconcile labId outcome =>
    outcome.Fails → ∀ lab ∈ (exec db (.reconcile labId outcome)).labs, lab.id = labId →
      (lab.status = "blocked" ↔ LastFailed 5 (labRuns (exec db (.reconcile labId outcome)) labId))
  | _ => True

/-- Four runs were finished before exactly if the last four failed; a run that is aborted does
not come after four failures. -/
def CountsFailures (db : ReconcileDb) : Call → Prop
  | .reconcile labId .raised => 4 ≤ finishedRuns db labId ↔ LastFailed 4 (labRuns db labId)
  | .reconcile labId .aborted => ¬ LastFailed 4 (labRuns db labId)
  | _ => True

theorem newRow_blocked (runId : RunId) (lab : LabRow) (h : outcome.Fails) :
    (newRow runId lab outcome).status = "blocked" ↔ outcome = .raised ∧ 4 ≤ lab.retryCount := by
  cases outcome with
  | planned status => exact h.elim
  | raised =>
    simp only [newRow, runStatus, labStatusFromReconcileStatus, if_true, true_and]
    by_cases hcount : 4 ≤ lab.retryCount
    · rw [if_pos (by omega)]
      exact iff_of_true rfl hcount
    · rw [if_neg (by omega)]
      exact iff_of_false (by decide) hcount
  | aborted => simp [newRow]

theorem labRuns_snoc (run : ReconcileRun) (labs : List LabRow) (next : RunId) :
    labRuns { labs := labs, runs := db.runs ++ [run], nextRunId := next } run.labId = labRuns db run.labId ++ [run] := by
  simp [labRuns, List.filter_append]

theorem escalatesRight_iff (h : Kept db) (c : Call) : EscalatesRight db c ↔ CountsFailures db c := by
  cases c with
  | createLab labId => exact Iff.rfl
  | deleteLab labId => exact Iff.rfl
  | reconcile labId outcome =>
    by_cases hfails : outcome.Fails
    swap
    · cases outcome with
      | planned status => exact iff_of_true (fun hyes => hyes.elim) trivial
      | raised => exact absurd trivial hfails
      | aborted => exact absurd trivial hfails
    unfold EscalatesRight exec reconcileLab
    dsimp only
    cases hfind : db.labs.find? fun l => l.id = labId with
    | none =>
      have hmissing : labId ∉ db.labs.map LabRow.id := by simpa using hfind
      have hruns := labRuns_of_missing h hmissing
      refine iff_of_true (fun _ lab hlab hid => absurd (List.mem_map.mpr ⟨lab, hlab, hid⟩) hmissing) ?_
      cases outcome <;> simp [CountsFailures, finishedRuns, hruns, LastFailed]
    | some lab =>
      have hlab := List.mem_of_find?_eq_some hfind
      obtain rfl : lab.id = labId := by simpa using List.find?_some hfind
      have hruns := @labRuns_snoc db (newRun db lab outcome)
      dsimp only
      rw [reconcileLabOnce_eq h.runsFresh h.labIds hlab]
      have hrow : ∀ l ∈ Table.modify LabRow.id db.labs lab.id (fun _ => newRow db.nextRunId lab outcome),
          l.id = lab.id → l = newRow db.nextRunId lab outcome := by
        intro l hl hid
        rcases Table.mem_modify.mp hl with ⟨_, hne⟩ | ⟨_, _, _, heq⟩
        · exact absurd hid hne
        · exact heq
      have hmem : newRow db.nextRunId lab outcome ∈
          Table.modify LabRow.id db.labs lab.id fun _ => newRow db.nextRunId lab outcome :=
        Table.mem_modify.mpr (.inr ⟨lab, hlab, rfl, rfl⟩)
      have hblocked : (∀ l ∈ Table.modify LabRow.id db.labs lab.id (fun _ => newRow db.nextRunId lab outcome),
          l.id = lab.id → (l.status = "blocked" ↔ LastFailed 4 (labRuns db lab.id))) ↔
            ((outcome = .raised ∧ 4 ≤ finishedRuns db lab.id) ↔ LastFailed 4 (labRuns db lab.id)) := by
        rw [← h.counted lab hlab, ← newRow_blocked db.nextRunId lab hfails]
        exact ⟨fun hall => hall _ hmem (newRow_id _ _ _), fun hnew l hl hid => hrow l hl hid ▸ hnew⟩
      rw [show lab.id = (newRun db lab outcome).labId from rfl, hruns, lastFailed_snoc (newRun_failed db lab hfails)]
      refine (imp_iff_right hfails).trans (hblocked.trans ?_)
      cases outcome with
      | planned status => exact hfails.elim
      | raised => simp [CountsFailures, newRun]
      | aborted => simp [CountsFailures, newRun]

theorem escalation_counts_failures_iff (calls : List Call) :
    Replays EscalatesRight exec {} calls ↔ Replays CountsFailures exec {} calls := by
  constructor
  · exact Replays.mono (P := Kept) (fun _ c h => kept_exec h c) (fun _ c h => (escalatesRight_iff h c).mp) kept_empty
  · exact Replays.mono (P := Kept) (fun _ c h => kept_exec h c) (fun _ c h => (escalatesRight_iff h c).mpr) kept_empty

/-- The sweep runs its labs one after the other, each on the row as it stands. -/
theorem reconcileAllLabs_eq_foldl (outcomes : LabId → Outcome) (broken : LabId → Bool) :
    ∀ {rows : List LabRow} {db : ReconcileDb}, Kept db → (rows.map LabRow.id).Nodup → rows ⊆ db.labs →
      ∃ swept, swept <+: rows ∧ reconcileAllLabs outcomes broken db rows =
        (swept.map fun l => Call.reconcile l.id (outcomes l.id)).foldl exec db := by
  intro rows
  induction rows with
  | nil => exact fun _ _ _ => ⟨[], List.nil_prefix, rfl⟩
  | cons lab rows ih =>
    intro db h hids hrows
    have hlab : lab ∈ db.labs := hrows List.mem_cons_self
    have hstep : exec db (.reconcile lab.id (outcomes lab.id)) = reconcileLabOnce db lab (outcomes lab.id) := by
      unfold exec reconcileLab
      dsimp only
      rw [Table.find?_key h.labIds hlab]
    rw [List.map_cons, List.nodup_cons] at hids
    unfold reconcileAllLabs
    split
    · exact ⟨[lab], by simp, by simp [hstep]⟩
    · have hrest : rows ⊆ (reconcileLabOnce db lab (outcomes lab.id)).labs := by
        intro l hl
        rw [reconcileLabOnce_eq h.runsFresh h.labIds hlab]
        have hne : l.id ≠ lab.id := fun heq => hids.1 (heq ▸ List.mem_map_of_mem hl)
        exact Table.mem_modify.mpr (.inl ⟨hrows (List.mem_cons_of_mem _ hl), hne⟩)
      obtain ⟨swept, hswept, heq⟩ := ih (h.reconcileLabOnce hlab) hids.2 hrest
      refine ⟨lab :: swept, List.cons_prefix_cons.mpr ⟨rfl, hswept⟩, ?_⟩
      rw [heq, List.map_cons, List.foldl_cons, hstep]

def firstFailure : List Call :=
  [.createLab 1, .reconcile 1 (.planned .ready), .reconcile 1 (.planned .ready), .reconcile 1 (.planned .ready),
    .reconcile 1 (.planned .ready), .reconcile 1 .raised]

theorem first_failure_blocks :
    (firstFailure.foldl exec {}).labs.map LabRow.status = ["blocked"] ∧
    (labRuns (firstFailure.foldl exec {}) 1).map ReconcileRun.status = ["ready", "ready", "ready", "ready", "failed"] ∧
    ¬ Replays EscalatesRight exec {} firstFailure := by
  refine ⟨by decide, by decide, fun h => ?_⟩
  obtain ⟨_, _, _, _, _, hlast, _⟩ := h
  have hfailed := (hlast trivial ⟨1, "blocked", 5, some 4⟩ (by decide) rfl).mp rfl
  revert hfailed
  decide

end Blocking

end ProxmoxVEAutopilot.ManagedLabs.Escalation
