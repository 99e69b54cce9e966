import ProxmoxVEAutopilot.Foundation.Runs

/-!
# Programs of atomic actions

A program takes one action after another; which one comes next depends on the state
the last one met. Alone it runs to its end. In a pool the others may move between two of
its actions, so what an action needs must hold when the action is reached and outlast
the moves of the others.
-/

namespace ProxmoxVEAutopilot.Foundation

set_option autoImplicit false

universe u v w x
variable {α : Type u} {σ : Type v}

inductive Program (α : Type u) (σ : Type v) where
  | done
  | act (a : α) (next : σ → Program α σ)

namespace Program

def one (a : α) : Program α σ := .act a fun _ => .done

def seq : Program α σ → Program α σ → Program α σ
  | .done, q => q
  | .act a next, q => .act a fun s => (next s).seq q

section Alone
variable (perform : α → σ → σ)

def run : Program α σ → σ → σ
  | .done, s => s
  | .act a next, s => (next s).run (perform a s)

/-- Every action of the program is `ok` where it is taken, nobody else moving. -/
def Safe (ok : α → σ → Prop) : Program α σ → σ → Prop
  | .done, _ => True
  | .act a next, s => ok a s ∧ Safe ok (next s) (perform a s)

variable {perform} {p q : Program α σ} {s : σ} {ok : α → σ → Prop}

theorem Safe.one {a : α} (h : ok a s) : Safe perform ok (.one a) s := ⟨h, trivial⟩

theorem Safe.seq (hp : Safe perform ok p s) (hq : ∀ t, Safe perform ok q t) :
    Safe perform ok (p.seq q) s := by
  induction p generalizing s with
  | done => exact hq s
  | act a next ih => exact ⟨hp.1, ih s hp.2⟩

/-- A relation that `ok` actions respect relates the first state to the last. -/
theorem Safe.run_rel {R : σ → σ → Prop} (hrefl : ∀ s, R s s)
    (htrans : ∀ a b c, R a b → R b c → R a c) (hok : ∀ a s, ok a s → R s (perform a s))
    (h : Safe perform ok p s) : R s (p.run perform s) := by
  induction p generalizing s with
  | done => exact hrefl s
  | act a next ih => exact htrans _ _ _ (hok a s h.1) (ih s h.2)

end Alone

section Sound
variable (perform : α → σ → σ) (need : α → σ → Prop) (rely : σ → σ → Prop)

/-- `need` holds of the next action, and will of each later one when it is reached,
whatever moves within `rely` lie between two of them. -/
def Sound : Program α σ → σ → Prop
  | .done, _ => True
  | .act a next, s => need a s ∧ ∀ t, rely s t → Sound (next t) (perform a t)

variable {perform need rely} {p q : Program α σ} {s t : σ}

theorem Sound.next {a : α} {next : σ → Program α σ} (hrefl : ∀ s, rely s s)
    (h : Sound perform need rely (.act a next) s) :
    Sound perform need rely (next s) (perform a s) :=
  h.2 s (hrefl s)

/-- Others may move within `rely` if they keep what the next action needs. -/
theorem Sound.stable (htrans : ∀ a b c, rely a b → rely b c → rely a c)
    (h : Sound perform need rely p s) (hrely : rely s t)
    (hkeep : ∀ a next, p = .act a next → need a s → need a t) : Sound perform need rely p t := by
  cases p with
  | done => trivial
  | act a next => exact ⟨hkeep a next rfl h.1, fun u hu => h.2 u (htrans _ _ _ hrely hu)⟩

theorem Sound.one {a : α} (h : need a s) : Sound perform need rely (.one a) s := ⟨h, fun _ _ => trivial⟩

theorem Sound.seq (hrefl : ∀ s, rely s s) (htrans : ∀ a b c, rely a b → rely b c → rely a c)
    (hown : ∀ a s, rely s (perform a s)) (hp : Sound perform need rely p s)
    (hq : ∀ t, rely s t → Sound perform need rely q t) : Sound perform need rely (p.seq q) s := by
  induction p generalizing s with
  | done => exact hq s (hrefl s)
  | act a next ih =>
    refine ⟨hp.1, fun t ht => ih t (hp.2 t ht) fun u hu => ?_⟩
    exact hq u (htrans _ _ _ (htrans _ _ _ ht (hown a t)) hu)

end Sound

end Program

/-- A shared state and what each process has still to do. -/
structure Pool (α : Type u) (σ : Type v) (τ : Type w) where
  shared : σ
  todo : τ → Program α σ

/-- An idle process starts a program, or a process takes its next action. -/
inductive Schedule (κ : Type u) (τ : Type v) where
  | start (t : τ) (call : κ)
  | step (t : τ)

namespace Pool
variable {τ : Type w} [DecidableEq τ] {κ : Type x}

def idle (s : σ) : Pool α σ τ := ⟨s, fun _ => .done⟩

variable (perform : α → σ → σ) (program : κ → Program α σ)

def exec (w : Pool α σ τ) : Schedule κ τ → Pool α σ τ
  | .start t call =>
    match w.todo t with
    | .done => { w with todo := Function.update w.todo t (program call) }
    | .act .. => w
  | .step t =>
    match w.todo t with
    | .done => w
    | .act a next => ⟨perform a w.shared, Function.update w.todo t (next w.shared)⟩

/-- What another process than the one that moves is about to do keeps what it needs. -/
def Undisturbed (need : α → σ → Prop) (w : Pool α σ τ) : Schedule κ τ → Prop
  | .start .. => True
  | .step t => ∀ u a next b rest, u ≠ t → w.todo u = .act a next → w.todo t = .act b rest →
      need a w.shared → need a (perform b w.shared)

variable {perform program} {need : α → σ → Prop} {rely : σ → σ → Prop} {w : Pool α σ τ}

theorem exec_shared (hrefl : ∀ s, rely s s) (hown : ∀ a s, rely s (perform a s))
    (i : Schedule κ τ) : rely w.shared (w.exec perform program i).shared := by
  cases i with
  | start t call =>
    unfold exec
    dsimp only
    split
    · exact hrefl _
    · exact hrefl _
  | step t =>
    unfold exec
    dsimp only
    split
    · exact hrefl _
    · exact hown _ _

theorem exec_sound (hrefl : ∀ s, rely s s) (htrans : ∀ a b c, rely a b → rely b c → rely a c)
    (hown : ∀ a s, rely s (perform a s)) (hcalls : ∀ c s, (program c).Sound perform need rely s)
    (hw : ∀ t, (w.todo t).Sound perform need rely w.shared) (i : Schedule κ τ)
    (hi : w.Undisturbed perform need i) :
    ∀ t, ((w.exec perform program i).todo t).Sound perform need rely (w.exec perform program i).shared := by
  intro u
  cases i with
  | start t call =>
    unfold exec
    dsimp only
    split
    · by_cases hu : u = t
      · subst hu
        simpa using hcalls call w.shared
      · simpa only [Function.update_of_ne hu] using hw u
    · exact hw u
  | step t =>
    unfold exec
    dsimp only
    split
    · exact hw u
    · rename_i b rest hb
      by_cases hu : u = t
      · subst hu
        have hsound := hw u
        rw [hb] at hsound
        simpa using hsound.next hrefl
      · simp only [Function.update_of_ne hu]
        exact (hw u).stable htrans (hown b w.shared)
          fun a next ha hneed => hi u a next b rest hu ha hb hneed

/-- In an undisturbed schedule every process stays sound. -/
theorem sound_of_replays (hrefl : ∀ s, rely s s) (htrans : ∀ a b c, rely a b → rely b c → rely a c)
    (hown : ∀ a s, rely s (perform a s)) (hcalls : ∀ c s, (program c).Sound perform need rely s)
    {is : List (Schedule κ τ)}
    (h : Replays (Undisturbed perform need) (exec perform program) w is)
    (hw : ∀ t, (w.todo t).Sound perform need rely w.shared) :
    ∀ t, ((is.foldl (exec perform program) w).todo t).Sound perform need rely
      (is.foldl (exec perform program) w).shared := by
  refine (Run.of_replays h).invariant (P := fun w => ∀ t, (w.todo t).Sound perform need rely w.shared) ?_ hw
  rintro w i _ hw ⟨hi, rfl⟩
  exact exec_sound hrefl htrans hown hcalls hw i hi

end Pool

end ProxmoxVEAutopilot.Foundation
