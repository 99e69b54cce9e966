import ProxmoxVEAutopilot.Foundation.Json
import ProxmoxVEAutopilot.Foundation.Interleaving

/-!
# The arguments of a job

`JobManager.set_arg` reads the row of the job, sets one key and writes the whole object.
-/

namespace ProxmoxVEAutopilot.Jobs

open Foundation
set_option autoImplicit false

/-- The `args` object of a job. -/
abbrev Args := String → Option Json

structure SetArg where
  key : String
  value : Json

/-- `set_arg` up to the write; nothing is written for a job that is not there. -/
def SetArg.apply (call : SetArg) (row : Option Args) : Option Args :=
  row.map fun args => Function.update args call.key (some call.value)

section Updates
variable {τ : Type} {calls : τ → SetArg}

theorem apply_some (ts : List τ) (args : Args) : ts.foldl (fun row t => (calls t).apply row) (some args) =
    some (ts.foldl (fun args t => Function.update args (calls t).key (some (calls t).value)) args) := by
  induction ts generalizing args with
  | nil => rfl
  | cons t ts ih => exact ih _

theorem updates_other {key : String} (ts : List τ) (args : Args) (h : ∀ t ∈ ts, (calls t).key ≠ key) :
    ts.foldl (fun args t => Function.update args (calls t).key (some (calls t).value)) args key = args key := by
  induction ts generalizing args with
  | nil => rfl
  | cons t ts ih =>
    obtain ⟨ht, hts⟩ := List.forall_mem_cons.mp h
    rw [List.foldl_cons, ih _ hts, Function.update_of_ne (Ne.symm ht)]

theorem updates_mem (hkeys : Function.Injective fun t => (calls t).key) {ts : List τ} {t : τ} (ht : t ∈ ts) (args : Args) :
    ts.foldl (fun args t => Function.update args (calls t).key (some (calls t).value)) args (calls t).key =
      some (calls t).value := by
  induction ts using List.reverseRecOn with
  | nil => cases ht
  | append_singleton ts u ih =>
    rw [List.foldl_append, List.foldl_cons, List.foldl_nil]
    by_cases hu : (calls u).key = (calls t).key
    · rw [hkeys hu, Function.update_self]
    · rw [Function.update_of_ne (Ne.symm hu)]
      rcases List.mem_append.mp ht with hin | hlast
      · exact ih hin
      · rw [List.mem_singleton.mp hlast] at hu
        exact absurd rfl hu

end Updates

section Calls
variable {τ : Type} [DecidableEq τ] (calls : τ → SetArg)

/-- The row after the turns of the calls, each of which reads first and writes then. -/
def setArgs (args : Args) (schedule : List τ) : Option Args :=
  (schedule.foldl (Cell.exec fun t => (calls t).apply) (Cell.start (some args))).value

/-- Every key has its value, and no other one has changed. -/
def Merged (args : Args) (row : Option Args) : Prop :=
  ∃ merged, row = some merged ∧ (∀ t, merged (calls t).key = some (calls t).value) ∧
    ∀ key, (∀ t, (calls t).key ≠ key) → merged key = args key

variable {calls}

/-- The calls are merged exactly if the last write builds on each one whose value was not there
before. -/
theorem merged_iff (hkeys : Function.Injective fun t => (calls t).key) (args : Args) (schedule : List τ) :
    Merged calls args (setArgs calls args schedule) ↔
      ∀ t, t ∈ Cell.basis schedule ∨ args (calls t).key = some (calls t).value := by
  unfold setArgs Merged
  rw [Cell.value_eq, apply_some]
  constructor
  · rintro ⟨merged, hmerged, hset, _⟩ t
    cases hmerged
    by_cases ht : t ∈ Cell.basis schedule
    · exact .inl ht
    · refine .inr ?_
      have hother : ∀ u ∈ Cell.basis schedule, (calls u).key ≠ (calls t).key := by
        intro u hu heq
        exact ht (hkeys heq ▸ hu)
      rw [← updates_other (Cell.basis schedule) args hother]
      exact hset t
  · intro h
    refine ⟨_, rfl, fun t => ?_, fun key hkey => updates_other _ _ fun t _ => hkey t⟩
    rcases h t with ht | hinitial
    · exact updates_mem hkeys ht args
    · by_cases ht : t ∈ Cell.basis schedule
      · exact updates_mem hkeys ht args
      · have hother : ∀ u ∈ Cell.basis schedule, (calls u).key ≠ (calls t).key := by
          intro u hu heq
          exact ht (hkeys heq ▸ hu)
        rw [updates_other _ _ hother]
        exact hinitial

end Calls

end ProxmoxVEAutopilot.Jobs
