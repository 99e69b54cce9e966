import ProxmoxVEAutopilot.Foundation.Json
import ProxmoxVEAutopilot.Foundation.Runs

/-!
# Approvals of MCP actions

Calls of `approve_approval` and `reject_approval` on one approval. Each database
statement commits by itself; between two of them any other call may go on. The status is
read once, and the update that ends a call does not look at it again.
-/

namespace ProxmoxVEAutopilot.Mcp

open Foundation (Json Replays Along along_cons along_nil)

set_option autoImplicit false

inductive ApprovalStatus where
  | pending | rejected | expired | failed | executed
deriving DecidableEq, Repr

/-- A row of `mcp_action_approvals`. -/
structure Approval where
  approvalId : String
  toolName : String
  arguments : Json := .obj []
  expiresAt : Int
  status : ApprovalStatus := .pending
  result : Json := .obj []
deriving DecidableEq

inductive Call where
  | approve (executors : List String)
  | reject (reason : String)

/-- Where a call stands. `checking`: it has read the row as pending; `ready`: the executor is
found; `writing`: the update is next, after the executor or without it. -/
inductive Phase where
  | waiting
  | checking (row : Approval)
  | ready (row : Approval)
  | running (row : Approval)
  | writing (ran : Bool) (status : ApprovalStatus) (result : Json)
  | returned

/-- What the executor was called with is in `started`, with the status stored at that moment. -/
structure World (τ : Type) where
  stored : Option Approval
  phase : τ → Phase := fun _ => .waiting
  started : List (Option ApprovalStatus × Json) := []

def approvalExpired (row : Approval) (now : Int) : Bool := row.expiresAt ≤ now

def notExecuted (reason : String) : Json := .obj [("executed", .bool false), ("reason", .str reason)]

/-- From the row read as pending to the next step of the call. -/
def check (row : Approval) (now : Int) : Call → Phase
  | .reject reason => .writing false .rejected (.obj [("rejected", .bool true), ("reason", .str reason)])
  | .approve executors =>
    if approvalExpired row now then .writing false .expired (notExecuted "approval_expired")
    else if row.toolName ∈ executors then .ready row
    else .writing false .failed (.obj [("executed", .bool false),
      ("reason", .str "executor_not_registered"), ("tool_name", .str row.toolName)])

/-- The text and the class of an exception, or what the executor returned. -/
def finish : Except (String × String) Json → Phase
  | .ok result => .writing true .executed (.obj [("executed", .bool true), ("result", result)])
  | .error (text, type) =>
    .writing true .failed (.obj [("executed", .bool false), ("error", .str text), ("type", .str type)])

/-- `failed`: the call ends with an exception of its own, of a statement for instance. -/
inductive Event (τ : Type) where
  | read (t : τ)
  | checked (t : τ) (now : Int)
  | execute (t : τ)
  | finished (t : τ) (outcome : Except (String × String) Json)
  | write (t : τ)
  | failed (t : τ)

namespace World
variable {τ : Type}

def status (w : World τ) : Option ApprovalStatus := w.stored.map Approval.status

section Exec
variable [DecidableEq τ] (w : World τ)

def goTo (t : τ) (p : Phase) : World τ := { w with phase := Function.update w.phase t p }

def getApproval (t : τ) : World τ :=
  match w.stored with
  | none => w.goTo t .returned
  | some row => if row.status = .pending then w.goTo t (.checking row) else w.goTo t .returned

def updateApprovalStatus (status : ApprovalStatus) (result : Json) : World τ :=
  { w with stored := w.stored.map fun row => { row with status := status, result := result } }

/-- An executor that was started is not undone, so a call that fails after it still owes its
update. -/
def fail (t : τ) : World τ :=
  match w.phase t with
  | .checking _ | .ready _ | .writing false _ _ => w.goTo t .returned
  | _ => w

variable (call : τ → Call)

/-- A step that is not the next one of its call changes nothing. -/
def exec : Event τ → World τ
  | .read t =>
    match w.phase t with
    | .waiting => w.getApproval t
    | _ => w
  | .checked t now =>
    match w.phase t with
    | .checking row => w.goTo t (check row now (call t))
    | _ => w
  | .execute t =>
    match w.phase t with
    | .ready row => { w.goTo t (.running row) with started := (w.status, row.arguments) :: w.started }
    | _ => w
  | .finished t outcome =>
    match w.phase t with
    | .running _ => w.goTo t (finish outcome)
    | _ => w
  | .write t =>
    match w.phase t with
    | .writing _ status result => (w.updateApprovalStatus status result).goTo t .returned
    | _ => w
  | .failed t => w.fail t

end Exec

/-- A stored status other than pending stays. -/
def Final (v w : World τ) : Prop := ∀ status, v.status = some status → status ≠ .pending → w.status = some status

end World

/-- The call has read the row as pending and has not written its status. -/
def Phase.holds : Phase → Bool
  | .checking _ | .ready _ | .running _ | .writing _ _ _ => true
  | .waiting | .returned => false

/-- The executor was started. -/
def Phase.ran : Phase → Bool
  | .running _ | .writing true _ _ => true
  | .waiting | .checking _ | .ready _ | .writing false _ _ | .returned => false

/-- No update writes the row back to pending. -/
def Phase.Closing : Phase → Prop
  | .writing _ status _ => status ≠ .pending
  | .waiting | .checking _ | .ready _ | .running _ | .returned => True

section Runs
variable {τ : Type} [DecidableEq τ] (call : τ → Call)

def run (row : Option Approval) (events : List (Event τ)) : World τ :=
  events.foldl (fun w e => w.exec call e) { stored := row }

/-- What is promised of the approval when `events` happen. -/
structure RunsOnce (row : Option Approval) (events : List (Event τ)) : Prop where
  once : (run call row events).started.length ≤ 1
  notClosed : ∀ s ∈ (run call row events).started, s.1 ≠ some .rejected ∧ s.1 ≠ some .expired
  final : Along World.Final (fun w e => w.exec call e) { stored := row } events

/-- A row is found pending only when no other call has found it so and not yet written. -/
def NoOverlap (w : World τ) : Event τ → Prop
  | .read _ => w.status = some .pending → ∀ u, (w.phase u).holds = false
  | .checked _ _ | .execute _ | .finished _ _ | .write _ | .failed _ => True

instance [Fintype τ] (w : World τ) : ∀ e, Decidable (NoOverlap w e)
  | .read _ => inferInstanceAs (Decidable (_ → ∀ u, (w.phase u).holds = false))
  | .checked _ _ | .execute _ | .finished _ _ | .write _ | .failed _ => isTrue trivial

end Runs

namespace World
variable {τ : Type} {w : World τ}

structure Alone (w : World τ) : Prop where
  single : ∀ t u, (w.phase t).holds → (w.phase u).holds → t = u
  pending : ∀ t, (w.phase t).holds → w.status = some .pending
  counted : w.started ≠ [] → w.status ≠ some .pending ∨ ∃ t, (w.phase t).ran
  few : w.started.length ≤ 1
  whilePending : ∀ s ∈ w.started, s.1 = some .pending
  closing : ∀ t, (w.phase t).Closing

theorem alone_start (row : Option Approval) : ({ stored := row } : World τ).Alone where
  single := nofun
  pending := nofun
  counted h := absurd rfl h
  few := Nat.zero_le 1
  whilePending := nofun
  closing _ := trivial

theorem Final.refl (w : World τ) : Final w w := fun _ h _ => h

theorem Final.trans {u v w : World τ} (huv : Final u v) (hvw : Final v w) : Final u w :=
  fun status h hne => hvw status (huv status h hne) hne

theorem Phase.holds_of_ran {p : Phase} (h : p.ran = true) : p.holds = true := by
  cases p with
  | waiting => cases h
  | checking row => rfl
  | ready row => rfl
  | running row => rfl
  | writing ran status result => rfl
  | returned => cases h

variable [DecidableEq τ]

@[simp] theorem goTo_status (t : τ) (p : Phase) : (w.goTo t p).status = w.status := rfl

@[simp] theorem goTo_started (t : τ) (p : Phase) : (w.goTo t p).started = w.started := rfl

@[simp] theorem goTo_phase (t u : τ) (p : Phase) :
    (w.goTo t p).phase u = if u = t then p else w.phase u := by
  simp [goTo, Function.update_apply]

theorem Alone.goTo (h : w.Alone) {t : τ} {p : Phase}
    (hholds : p.holds = true → w.status = some .pending ∧ ∀ u, (w.phase u).holds → u = t)
    (hran : (w.phase t).ran = true → p.ran = true) (hclosing : p.Closing) : (w.goTo t p).Alone where
  single a b ha hb := by
    rw [goTo_phase] at ha hb
    split at ha <;> split at hb
    · simp_all
    · rename_i heq _
      exact heq.trans ((hholds ha).2 b hb).symm
    · rename_i heq
      exact ((hholds hb).2 a ha).trans heq.symm
    · exact h.single a b ha hb
  pending a ha := by
    rw [goTo_phase] at ha
    split at ha
    · exact (hholds ha).1
    · exact h.pending a ha
  counted hstarted := by
    rcases h.counted hstarted with hstatus | ⟨a, ha⟩
    · exact .inl hstatus
    · refine .inr ⟨a, ?_⟩
      rw [goTo_phase]
      split
      · rename_i heq
        exact hran (heq ▸ ha)
      · exact ha
  few := h.few
  whilePending := h.whilePending
  closing a := by
    rw [goTo_phase]
    split
    · exact hclosing
    · exact h.closing a

theorem Alone.goOn (h : w.Alone) {t : τ} (ht : (w.phase t).holds = true) {p : Phase}
    (hran : (w.phase t).ran = true → p.ran = true) (hclosing : p.Closing) : (w.goTo t p).Alone :=
  h.goTo (fun _ => ⟨h.pending t ht, fun u hu => h.single u t hu ht⟩) hran hclosing

theorem Alone.execute (h : w.Alone) {t : τ} {row : Approval} (ht : w.phase t = .ready row) :
    ({ w.goTo t (.running row) with started := (w.status, row.arguments) :: w.started } : World τ).Alone := by
  have hholds : (w.phase t).holds = true := by rw [ht]; rfl
  have hpending := h.pending t hholds
  have hnone : w.started = [] := by
    by_contra hstarted
    rcases h.counted hstarted with hstatus | ⟨u, hu⟩
    · exact hstatus hpending
    · have heq := h.single u t (Phase.holds_of_ran hu) hholds
      rw [heq, ht] at hu
      cases hu
  have hnext : (w.goTo t (.running row)).Alone := h.goOn hholds (fun _ => rfl) trivial
  refine ⟨hnext.single, hnext.pending, fun _ => .inr ⟨t, ?_⟩, by simp [hnone], by simp [hnone, hpending], hnext.closing⟩
  change ((w.goTo t (.running row)).phase t).ran = true
  rw [goTo_phase, if_pos rfl]
  rfl

theorem Alone.write (h : w.Alone) {t : τ} (ht : (w.phase t).holds = true) {status : ApprovalStatus}
    (hstatus : status ≠ .pending) (result : Json) :
    ((w.updateApprovalStatus status result).goTo t .returned).Alone := by
  have hphase : ∀ u, ((w.updateApprovalStatus status result).goTo t .returned).phase u =
      if u = t then .returned else w.phase u := fun u => goTo_phase t u _
  have hnobody : ∀ u, (((w.updateApprovalStatus status result).goTo t .returned).phase u).holds = false := by
    intro u
    rw [hphase]
    split
    · rfl
    · rename_i hne
      by_contra hu
      exact hne (h.single u t (by simpa using hu) ht)
  refine ⟨fun a b ha => ?_, fun a ha => ?_, fun _ => .inl ?_, h.few, h.whilePending, fun a => ?_⟩
  · rw [hnobody] at ha
    cases ha
  · rw [hnobody] at ha
    cases ha
  · intro heq
    obtain ⟨row, hrow, hpending⟩ := Option.map_eq_some_iff.mp heq
    obtain ⟨old, -, rfl⟩ := Option.map_eq_some_iff.mp hrow
    exact hstatus hpending
  · rw [hphase]
    split
    · trivial
    · exact h.closing a

theorem check_closing (row : Approval) (now : Int) (c : Call) : (check row now c).Closing := by
  unfold check
  split
  · simp [Phase.Closing]
  · split_ifs <;> simp [Phase.Closing]

variable (call : τ → Call)

theorem Alone.exec (h : w.Alone) {e : Event τ} (hguard : NoOverlap w e) : (w.exec call e).Alone := by
  cases e with
  | read t =>
    dsimp only [World.exec]
    split
    · rename_i hphase
      unfold getApproval
      split
      · exact h.goTo nofun (by rw [hphase]; nofun) trivial
      · rename_i row hrow
        split
        · rename_i hpending
          have hstatus : w.status = some .pending := by simp [World.status, hrow, hpending]
          refine h.goTo (fun _ => ⟨hstatus, fun u hu => ?_⟩) (by rw [hphase]; nofun) trivial
          rw [hguard hstatus u] at hu
          cases hu
        · exact h.goTo nofun (by rw [hphase]; nofun) trivial
    · exact h
  | checked t now =>
    dsimp only [World.exec]
    split
    · rename_i row hphase
      exact h.goOn (by rw [hphase]; rfl) (by rw [hphase]; nofun) (check_closing row now (call t))
    · exact h
  | execute t =>
    dsimp only [World.exec]
    split
    · exact h.execute (by assumption)
    · exact h
  | finished t outcome =>
    dsimp only [World.exec]
    split
    · rename_i row hphase
      refine h.goOn (by rw [hphase]; rfl) (fun _ => ?_) ?_
      all_goals cases outcome <;> simp [finish, Phase.ran, Phase.Closing]
    · exact h
  | write t =>
    dsimp only [World.exec]
    split
    · rename_i ran status result hphase
      have hclosing := h.closing t
      rw [hphase] at hclosing
      exact h.write (by rw [hphase]; rfl) hclosing result
    · exact h
  | failed t =>
    dsimp only [World.exec, World.fail]
    split
    all_goals first
      | exact h
      | rename_i hphase
        exact h.goTo nofun (by rw [hphase]; nofun) trivial

theorem Alone.final (h : w.Alone) (e : Event τ) : Final w (w.exec call e) := by
  intro status hstatus hne
  cases e with
  | write t =>
    dsimp only [World.exec]
    split
    · rename_i hphase
      have hpending := h.pending t (by rw [hphase]; rfl)
      exact absurd (Option.some.inj (hstatus.symm.trans hpending)) hne
    · exact hstatus
  | read t =>
    dsimp only [World.exec, getApproval]
    split
    · split
      · exact hstatus
      · split <;> exact hstatus
    · exact hstatus
  | checked t now =>
    dsimp only [World.exec]
    split <;> exact hstatus
  | execute t =>
    dsimp only [World.exec]
    split <;> exact hstatus
  | finished t outcome =>
    dsimp only [World.exec]
    split <;> exact hstatus
  | failed t =>
    dsimp only [World.exec, World.fail]
    split <;> exact hstatus

end World

section Main
variable {τ : Type} [DecidableEq τ] (call : τ → Call)

theorem along_of_noOverlap {events : List (Event τ)} : ∀ {w : World τ}, w.Alone →
    Replays NoOverlap (fun w e => w.exec call e) w events →
      Along World.Final (fun w e => w.exec call e) w events ∧
        (events.foldl (fun w e => w.exec call e) w).Alone := by
  induction events with
  | nil => exact fun {w} h _ => ⟨along_nil (World.Final.refl w), h⟩
  | cons e events ih =>
    intro w h hreplays
    obtain ⟨halong, hend⟩ := ih (h.exec call hreplays.1) hreplays.2
    refine ⟨?_, hend⟩
    exact (along_cons (World.Final.refl w) fun a b c => World.Final.trans).mpr ⟨h.final call e, halong⟩

theorem approval_runs_once (row : Option Approval) (events : List (Event τ))
    (h : Replays NoOverlap (fun w e => w.exec call e) { stored := row } events) : RunsOnce call row events := by
  obtain ⟨halong, hend⟩ := along_of_noOverlap call (World.alone_start row) h
  refine ⟨hend.few, fun s hs => ?_, halong⟩
  rw [hend.whilePending s hs]
  simp

end Main

section Examples

def deletion : Approval := { approvalId := "a-1", toolName := "delete_vm", expiresAt := 1800 }

def approveBoth : Bool → Call := fun _ => .approve ["delete_vm"]

/-- One call after the other: the second reads a row that is not pending. -/
theorem second_click_waits : RunsOnce approveBoth (some deletion)
    [.read true, .checked true 10, .execute true, .finished true (.ok .null), .write true, .read false,
      .checked false 20, .execute false] :=
  approval_runs_once approveBoth (some deletion) _ (by decide +kernel)

/-- Both clicks read the row before either has written its status. -/
theorem double_click_runs_twice : ¬ RunsOnce approveBoth (some deletion)
    [.read true, .read false, .checked true 10, .checked false 10, .execute true, .execute false] := by
  intro h
  have htwo := h.once
  revert htwo
  decide +kernel

end Examples

end ProxmoxVEAutopilot.Mcp
