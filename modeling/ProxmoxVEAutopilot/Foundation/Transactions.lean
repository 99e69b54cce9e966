import Mathlib

/-!
# Transactions

A program of statements. Statements change the working state; what lasts is what was
committed. A statement may raise, and the server may stop answering before any of them.
-/

namespace ProxmoxVEAutopilot.Foundation

set_option autoImplicit false

variable {σ ε α β γ : Type}

inductive Transaction (σ ε α : Type) : Type 1 where
  | done (a : α)
  | raise (e : ε)
  | reading {β : Type} (f : σ → β) (next : β → Transaction σ ε α)
  | writing {β : Type} (f : σ → Except ε (β × σ)) (next : β → Transaction σ ε α)
  | committing (next : Transaction σ ε α)

namespace Transaction

def andThen : Transaction σ ε α → (α → Transaction σ ε γ) → Transaction σ ε γ
  | .done a, k => k a
  | .raise e, _ => .raise e
  | .reading f next, k => .reading f fun b => (next b).andThen k
  | .writing f next, k => .writing f fun b => (next b).andThen k
  | .committing next, k => .committing (next.andThen k)

instance : Monad (Transaction σ ε) where
  pure := done
  bind := andThen

def read (f : σ → β) : Transaction σ ε β := .reading f .done

def write (f : σ → Except ε (β × σ)) : Transaction σ ε β := .writing f .done

def commit : Transaction σ ε Unit := .committing (.done ())

def forget (t : Transaction σ ε α) : Transaction σ ε Unit := t >>= fun _ => pure ()

/-- What the statements come to while the server answers, whether or not it is kept. -/
def runs : Transaction σ ε α → σ → Except ε (α × σ)
  | .done a, s => .ok (a, s)
  | .raise e, _ => .error e
  | .reading f next, s => (next (f s)).runs s
  | .writing f next, s =>
    match f s with
    | .ok (b, t) => (next b).runs t
    | .error e => .error e
  | .committing next, s => next.runs s

def steps : Transaction σ ε α → σ → Nat
  | .done _, _ => 0
  | .raise _, _ => 0
  | .reading f next, s => (next (f s)).steps s + 1
  | .writing f next, s =>
    match f s with
    | .ok (b, t) => (next b).steps t + 1
    | .error _ => 1
  | .committing next, s => next.steps s + 1

section Execute
variable (lost : ε)

/-- The result and what is committed at the end. The server gives `answers` answers, or all
that are asked for. -/
def execute : Transaction σ ε α → Option Nat → (committed work : σ) → Except ε α × σ
  | .done a, _, committed, _ => (.ok a, committed)
  | .raise e, _, committed, _ => (.error e, committed)
  | .reading f next, answers, committed, work =>
    if answers = some 0 then (.error lost, committed)
    else (next (f work)).execute (answers.map Nat.pred) committed work
  | .writing f next, answers, committed, work =>
    if answers = some 0 then (.error lost, committed)
    else
      match f work with
      | .ok (b, work) => (next b).execute (answers.map Nat.pred) committed work
      | .error e => (.error e, committed)
  | .committing next, answers, committed, work =>
    if answers = some 0 then (.error lost, committed)
    else next.execute (answers.map Nat.pred) work work

def perform (t : Transaction σ ε α) (answers : Option Nat) (s : σ) : Except ε α × σ := t.execute lost answers s s

end Execute

def ReadsOnly : Transaction σ ε α → Prop
  | .done _ => True
  | .raise _ => True
  | .reading _ next => ∀ b, (next b).ReadsOnly
  | .writing _ _ => False
  | .committing _ => False

/-- What is written is committed by the last statement; `clean` as long as nothing is written. -/
def CommitsLast (clean : Bool) : Transaction σ ε α → Prop
  | .done _ => clean = true
  | .raise _ => True
  | .reading _ next => ∀ b, (next b).CommitsLast clean
  | .writing _ next => ∀ b, (next b).CommitsLast false
  | .committing next => ∃ a, next = .done a

section Rules
variable {s t : σ} {a : α} {e : ε} {clean : Bool} {p : Transaction σ ε α} {k : α → Transaction σ ε γ}

@[simp] theorem runs_pure : (pure a : Transaction σ ε α).runs s = .ok (a, s) := rfl

@[simp] theorem runs_raise : (raise e : Transaction σ ε α).runs s = .error e := rfl

@[simp] theorem runs_read (f : σ → β) : (read f : Transaction σ ε β).runs s = .ok (f s, s) := rfl

@[simp] theorem runs_write (f : σ → Except ε (β × σ)) : (write f).runs s = f s := by
  unfold write runs
  cases f s <;> rfl

@[simp] theorem runs_commit : (commit : Transaction σ ε Unit).runs s = .ok ((), s) := rfl

theorem runs_bind : (p >>= k).runs s = (p.runs s).bind fun r => (k r.1).runs r.2 := by
  change (p.andThen k).runs s = _
  induction p generalizing s with
  | done a => rfl
  | raise e => rfl
  | reading f next ih => exact ih _
  | writing f next ih =>
    rw [andThen, runs, runs]
    cases f s with
    | ok r => exact ih r.1
    | error e => rfl
  | committing next ih => exact ih

theorem runs_bind_ok {r : γ × σ} :
    (p >>= k).runs s = .ok r ↔ ∃ a t, p.runs s = .ok (a, t) ∧ (k a).runs t = .ok r := by
  rw [runs_bind]
  cases p.runs s with
  | ok q =>
    obtain ⟨b, u⟩ := q
    simp [Except.bind, and_assoc]
  | error e => simp [Except.bind]

theorem runs_read_bind (f : σ → β) {k : β → Transaction σ ε γ} :
    ((read f : Transaction σ ε β) >>= k).runs s = (k (f s)).runs s := rfl

theorem runs_write_bind_ok {f : σ → Except ε (β × σ)} {k : β → Transaction σ ε γ} {r : γ × σ} :
    (write f >>= k).runs s = .ok r ↔ ∃ b t, f s = .ok (b, t) ∧ (k b).runs t = .ok r := by
  rw [runs_bind_ok]
  simp only [runs_write]

theorem runs_commit_pure_ok {c : γ} {r : γ × σ} :
    ((commit : Transaction σ ε Unit) >>= fun _ => pure c).runs s = .ok r ↔ r = (c, s) :=
  ⟨fun h => (Except.ok.inj h).symm, fun h => h ▸ rfl⟩

theorem steps_read_bind (f : σ → β) {k : β → Transaction σ ε γ} :
    ((read f : Transaction σ ε β) >>= k).steps s = (k (f s)).steps s + 1 := rfl

theorem steps_write_bind {b : β} {f : σ → Except ε (β × σ)} {k : β → Transaction σ ε γ} (h : f s = .ok (b, t)) :
    (write f >>= k).steps s = (k b).steps t + 1 := by
  change (Transaction.writing f k).steps s = _
  rw [steps, h]

theorem steps_commit_pure (c : γ) : ((commit : Transaction σ ε Unit) >>= fun _ => pure c).steps s = 1 := rfl

theorem steps_forget : p.forget.steps s = p.steps s := by
  change (p.andThen fun _ => pure ()).steps s = _
  induction p generalizing s with
  | done a => rfl
  | raise e => rfl
  | reading f next ih => exact congrArg (· + 1) (ih _)
  | writing f next ih =>
    rw [andThen, steps, steps]
    cases f s with
    | ok r => exact congrArg (· + 1) (ih r.1)
    | error e => rfl
  | committing next ih => exact congrArg (· + 1) ih

theorem commitsLast_read_bind (f : σ → β) {k : β → Transaction σ ε γ} (h : ∀ b, (k b).CommitsLast clean) :
    ((read f : Transaction σ ε β) >>= k).CommitsLast clean := h

theorem commitsLast_write_bind (f : σ → Except ε (β × σ)) {k : β → Transaction σ ε γ}
    (h : ∀ b, (k b).CommitsLast false) : (write f >>= k).CommitsLast clean := h

theorem commitsLast_commit_pure (c : γ) :
    ((commit : Transaction σ ε Unit) >>= fun _ => pure c).CommitsLast clean := ⟨c, rfl⟩

theorem CommitsLast.forget (h : p.CommitsLast clean) : p.forget.CommitsLast clean := by
  change (p.andThen fun _ => pure ()).CommitsLast clean
  induction p generalizing clean with
  | done a => exact h
  | raise e => trivial
  | reading f next ih => exact fun b => ih b (h b)
  | writing f next ih => exact fun b => ih b (h b)
  | committing next =>
    obtain ⟨a, rfl⟩ := h
    exact ⟨(), rfl⟩

theorem runs_forget_ok {u : σ} : p.forget.runs s = .ok ((), u) ↔ ∃ a, p.runs s = .ok (a, u) := by
  unfold Transaction.forget
  rw [runs_bind_ok]
  simp

theorem ReadsOnly.commitsLast_bind (hp : p.ReadsOnly) (hk : ∀ a, (k a).CommitsLast clean) :
    (p >>= k).CommitsLast clean := by
  change (p.andThen k).CommitsLast clean
  induction p with
  | done a => exact hk a
  | raise e => trivial
  | reading f next ih => exact fun b => ih b (hp b)
  | writing f next => exact hp.elim
  | committing next => exact hp.elim

/-- Where the commit comes last a transaction either runs to its end or leaves everything as
it was. -/
theorem execute_eq (lost : ε) (answers : Option Nat) (h : p.CommitsLast clean) (hclean : clean = true → s = t) :
    p.execute lost answers s t =
      if answers.all (p.steps t ≤ ·) then
        match p.runs t with
        | .ok (a, u) => (.ok a, u)
        | .error e => (.error e, s)
      else (.error lost, s) := by
  induction p generalizing clean answers t with
  | done a =>
    obtain rfl := hclean h
    cases answers <;> simp [execute, runs, steps]
  | raise e => cases answers <;> simp [execute, runs, steps]
  | reading f next ih =>
    unfold execute runs steps
    cases answers with
    | none => simpa using ih (f t) none (h (f t)) hclean
    | some n =>
      cases n with
      | zero => simp
      | succ n => simpa using ih (f t) (some n) (h (f t)) hclean
  | writing f next ih =>
    unfold execute runs steps
    cases hf : f t with
    | error e =>
      cases answers with
      | none => simp
      | some n => cases n <;> simp
    | ok r =>
      have hdirty : false = true → s = r.2 := fun hfalse => by cases hfalse
      cases answers with
      | none => simpa using ih r.1 none (h r.1) hdirty
      | some n =>
        cases n with
        | zero => simp
        | succ n => simpa using ih r.1 (some n) (h r.1) hdirty
  | committing next ih =>
    obtain ⟨a, rfl⟩ := h
    unfold execute steps
    cases answers with
    | none => simp [execute, runs, steps]
    | some n => cases n <;> simp [execute, runs, steps]

variable {lost : ε} {answers : Option Nat}

theorem perform_eq (h : p.CommitsLast true) : p.perform lost answers s =
    if answers.all (p.steps s ≤ ·) then
      match p.runs s with
      | .ok (a, u) => (.ok a, u)
      | .error e => (.error e, s)
    else (.error lost, s) :=
  execute_eq lost answers h fun _ => rfl

theorem perform_error (h : p.CommitsLast true) (herror : (p.perform lost answers s).1 = .error e) :
    (p.perform lost answers s).2 = s := by
  rw [perform_eq h] at herror ⊢
  split at herror
  · rename_i hanswers
    rw [if_pos hanswers]
    cases hruns : p.runs s with
    | ok r =>
      rw [hruns] at herror
      cases herror
    | error e => rfl
  · rename_i hanswers
    rw [if_neg hanswers]

theorem perform_cases (h : p.CommitsLast true) :
    (p.perform lost answers s).2 = s ∨ ∃ a, p.runs s = .ok (a, (p.perform lost answers s).2) := by
  rw [perform_eq h]
  split
  · cases hruns : p.runs s with
    | ok r => exact .inr ⟨r.1, rfl⟩
    | error e => exact .inl rfl
  · exact .inl rfl

end Rules

end Transaction

end ProxmoxVEAutopilot.Foundation

/-!
## Commits before the end

A transaction that commits more than once. What it has committed stays when it raises later,
so an exception leaves nothing behind only before the first commit.
-/

namespace ProxmoxVEAutopilot.Foundation.Transaction

set_option autoImplicit false

variable {σ ε α γ δ : Type} {lost : ε} {answers : Option Nat} {p : Transaction σ ε α} {s c t : σ}

theorem bind_assoc (p : Transaction σ ε α) (k : α → Transaction σ ε γ) (l : γ → Transaction σ ε δ) :
    p >>= k >>= l = p >>= fun a => k a >>= l := by
  change (p.andThen k).andThen l = p.andThen fun a => (k a).andThen l
  induction p with
  | done a => rfl
  | raise e => rfl
  | reading f next ih => exact congrArg (Transaction.reading f) (funext ih)
  | writing f next ih => exact congrArg (Transaction.writing f) (funext ih)
  | committing next ih => exact congrArg Transaction.committing ih

theorem exists_runs_bind {k : α → Transaction σ ε γ} {a : α} (hp : p.runs s = .ok (a, t))
    (hk : ∃ r, (k a).runs t = .ok r) : ∃ r, (p >>= k).runs s = .ok r := by
  obtain ⟨r, hr⟩ := hk
  exact ⟨r, runs_bind_ok.mpr ⟨a, t, hp, hr⟩⟩

theorem execute_fst : (p.execute lost answers c t).1 =
    if answers.all (p.steps t ≤ ·) then (p.runs t).map Prod.fst else .error lost := by
  induction p generalizing answers c t with
  | done a => cases answers <;> simp [execute, runs, steps, Except.map]
  | raise e => cases answers <;> simp [execute, runs, steps, Except.map]
  | reading f next ih =>
    unfold execute runs steps
    rcases answers with _ | _ | n
    · simpa using @ih (f t) none c t
    · simp
    · simpa using @ih (f t) (some n) c t
  | writing f next ih =>
    unfold execute runs steps
    cases hf : f t with
    | error e => rcases answers with _ | _ | n <;> simp [Except.map]
    | ok r =>
      rcases answers with _ | _ | n
      · simpa using @ih r.1 none c r.2
      · simp
      · simpa using @ih r.1 (some n) c r.2
  | committing next ih =>
    unfold execute runs steps
    rcases answers with _ | _ | n
    · simpa using @ih none t t
    · simp
    · simpa using @ih (some n) t t

section Statements
variable {β : Type}

theorem execute_write_bind (f : σ → Except ε (β × σ)) (k : β → Transaction σ ε γ) :
    (write f >>= k).execute lost answers c t =
      if answers = some 0 then (.error lost, c)
      else
        match f t with
        | .ok (b, u) => (k b).execute lost (answers.map Nat.pred) c u
        | .error e => (.error e, c) := by
  change (Transaction.writing f k).execute lost answers c t = _
  cases hf : f t <;> simp only [execute, hf]

theorem execute_read_bind (f : σ → β) (k : β → Transaction σ ε γ) :
    ((read f : Transaction σ ε β) >>= k).execute lost answers c t =
      if answers = some 0 then (.error lost, c) else (k (f t)).execute lost (answers.map Nat.pred) c t := rfl

theorem execute_commit_bind (k : Unit → Transaction σ ε γ) :
    ((commit : Transaction σ ε Unit) >>= k).execute lost answers c t =
      if answers = some 0 then (.error lost, c) else (k ()).execute lost (answers.map Nat.pred) t t := rfl

end Statements

section Relation
variable (R : σ → σ → Prop)

/-- Every statement that writes goes along `R`. -/
def Along : Transaction σ ε α → Prop
  | .done _ => True
  | .raise _ => True
  | .reading _ next => ∀ b, (next b).Along
  | .writing f next => (∀ s b t, f s = .ok (b, t) → R s t) ∧ ∀ b, (next b).Along
  | .committing next => next.Along

variable {R}

theorem Along.bind {k : α → Transaction σ ε γ} (hp : p.Along R) (hk : ∀ a, (k a).Along R) :
    (p >>= k).Along R := by
  change (p.andThen k).Along R
  induction p with
  | done a => exact hk a
  | raise e => trivial
  | reading f next ih => exact fun b => ih b (hp b)
  | writing f next ih => exact ⟨hp.1, fun b => ih b (hp.2 b)⟩
  | committing next ih => exact ih hp

theorem Along.runs (hrefl : ∀ s, R s s) (htrans : ∀ a b c, R a b → R b c → R a c) {a : α} (hp : p.Along R)
    (h : p.runs s = .ok (a, t)) : R s t := by
  induction p generalizing s with
  | done b =>
    cases h
    exact hrefl _
  | raise e => cases h
  | reading f next ih => exact ih _ (hp _) h
  | writing f next ih =>
    rw [Transaction.runs] at h
    cases hf : f s with
    | error e =>
      rw [hf] at h
      cases h
    | ok r =>
      rw [hf] at h
      exact htrans _ _ _ (hp.1 _ r.1 r.2 hf) (ih r.1 (hp.2 r.1) h)
  | committing next ih => exact ih hp h

/-- What lasts is where the transaction began or further along. -/
theorem Along.execute (htrans : ∀ a b c, R a b → R b c → R a c) (hp : p.Along R) (hc : R s c) (ht : R s t) :
    R s (p.execute lost answers c t).2 := by
  induction p generalizing answers c t with
  | done a => exact hc
  | raise e => exact hc
  | reading f next ih =>
    unfold Transaction.execute
    split
    · exact hc
    · exact ih _ (hp _) hc ht
  | writing f next ih =>
    unfold Transaction.execute
    split
    · exact hc
    · cases hf : f t with
      | error e => exact hc
      | ok r => exact ih r.1 (hp.2 r.1) hc (htrans _ _ _ ht (hp.1 t r.1 r.2 hf))
  | committing next ih =>
    unfold Transaction.execute
    split
    · exact hc
    · exact ih hp ht ht

end Relation

end ProxmoxVEAutopilot.Foundation.Transaction

/-!
## Exceptions that are caught

`try: ... except Exception` around a part of a session. What the part has written is still in
work when the handler runs, and a commit of the handler keeps it. After an error of the
server the connection takes no statement, so that the handler's own statements raise.
-/

namespace ProxmoxVEAutopilot.Foundation.Transaction

set_option autoImplicit false

variable {σ ε α γ : Type} {p : Transaction σ ε α} {s t c : σ}

def attempt : Transaction σ ε α → Transaction σ ε (Except ε α)
  | .done a => .done (.ok a)
  | .raise e => .done (.error e)
  | .reading f next => .reading f fun b => (next b).attempt
  | .writing f next => .writing f fun b => (next b).attempt
  | .committing next => .committing next.attempt

section Steps
variable {β : Type} {k : α → Transaction σ ε γ} {r : Except ε γ}

def settle (k : α → Transaction σ ε γ) : Except ε α → Transaction σ ε (Except ε γ)
  | .ok a => (k a).attempt
  | .error e => pure (.error e)

theorem attempt_bind : (p >>= k).attempt = p.attempt >>= settle k := by
  change (p.andThen k).attempt = p.attempt.andThen (settle k)
  induction p with
  | done a => rfl
  | raise e => rfl
  | reading f next ih => exact congrArg (Transaction.reading f) (funext ih)
  | writing f next ih => exact congrArg (Transaction.writing f) (funext ih)
  | committing next ih => exact congrArg Transaction.committing ih

/-- The first part raises, or the second goes on from where the first ended. -/
theorem attempt_bind_cases (h : (p >>= k).attempt.runs s = .ok (r, t)) :
    (∃ e, r = .error e ∧ p.attempt.runs s = .ok (.error e, t)) ∨
      ∃ a u, p.attempt.runs s = .ok (.ok a, u) ∧ (k a).attempt.runs u = .ok (r, t) := by
  rw [attempt_bind, runs_bind_ok] at h
  obtain ⟨q, u, hp, hk⟩ := h
  cases q with
  | ok a => exact .inr ⟨a, u, hp, hk⟩
  | error e =>
    cases hk
    exact .inl ⟨e, rfl, hp⟩

theorem attempt_read_bind_cases {f : σ → β} {k : β → Transaction σ ε γ}
    (h : ((read f : Transaction σ ε β) >>= k).attempt.runs s = .ok (r, t)) :
    (k (f s)).attempt.runs s = .ok (r, t) := h

theorem attempt_write_bind_cases {f : σ → Except ε (β × σ)} {k : β → Transaction σ ε γ}
    (h : (write f >>= k).attempt.runs s = .ok (r, t)) :
    ∃ b u, f s = .ok (b, u) ∧ (k b).attempt.runs u = .ok (r, t) := by
  change (Transaction.writing f fun b => (k b).attempt).runs s = _ at h
  rw [runs] at h
  cases hf : f s with
  | ok q =>
    rw [hf] at h
    exact ⟨q.1, q.2, rfl, h⟩
  | error e =>
    rw [hf] at h
    cases h

end Steps

theorem Along.mono {R Q : σ → σ → Prop} (hle : ∀ s t, R s t → Q s t) (h : p.Along R) : p.Along Q := by
  induction p with
  | done a => trivial
  | raise e => trivial
  | reading f next ih => exact fun b => ih b (h b)
  | writing f next ih => exact ⟨fun s b t hf => hle s t (h.1 s b t hf), fun b => ih b (h.2 b)⟩
  | committing next ih => exact ih h

theorem Along.attempt {R : σ → σ → Prop} (h : p.Along R) : p.attempt.Along R := by
  induction p with
  | done a => trivial
  | raise e => trivial
  | reading f next ih => exact fun b => ih b (h b)
  | writing f next ih => exact ⟨h.1, fun b => ih b (h.2 b)⟩
  | committing next ih => exact ih h

section Closing

/-- Nothing is in work at the end; `clean` as long as nothing is written. -/
def Closes (clean : Bool) : Transaction σ ε α → Prop
  | .done _ => clean = true
  | .raise _ => True
  | .reading _ next => ∀ b, (next b).Closes clean
  | .writing _ next => ∀ b, (next b).Closes false
  | .committing next => next.Closes true

theorem Closes.of_dirty {clean : Bool} (h : p.Closes false) : p.Closes clean := by
  induction p generalizing clean with
  | done a => cases h
  | raise e => trivial
  | reading f next ih => exact fun b => ih b (h b)
  | writing f next ih => exact h
  | committing next ih => exact h

theorem Closes.bind {clean : Bool} {k : α → Transaction σ ε γ} (h : ∀ a, (k a).Closes false) :
    (p >>= k).Closes clean := by
  change (p.andThen k).Closes clean
  induction p generalizing clean with
  | done a => exact (h a).of_dirty
  | raise e => trivial
  | reading f next ih => exact fun b => ih b
  | writing f next ih => exact fun b => ih b
  | committing next ih => exact ih

/-- A session that comes to its end has committed all it wrote. -/
theorem Closes.execute_ok {clean : Bool} {lost : ε} {answers : Option Nat} {a : α} (h : p.Closes clean)
    (hclean : clean = true → c = s) (hok : (p.execute lost answers c s).1 = .ok a) :
    p.runs s = .ok (a, (p.execute lost answers c s).2) := by
  induction p generalizing clean answers c s with
  | done b =>
    cases hok
    rw [hclean h]
    rfl
  | raise e => cases hok
  | reading f next ih =>
    unfold execute at hok ⊢
    split at hok
    · cases hok
    · rename_i hanswers
      rw [if_neg hanswers]
      exact ih _ (h _) hclean hok
  | writing f next ih =>
    unfold execute at hok ⊢
    split at hok
    · cases hok
    · rename_i hanswers
      rw [if_neg hanswers, runs]
      cases hf : f s with
      | ok r =>
        rw [hf] at hok
        exact ih r.1 (h r.1) (fun hfalse => by cases hfalse) hok
      | error e =>
        rw [hf] at hok
        cases hok
  | committing next ih =>
    unfold execute at hok ⊢
    split at hok
    · cases hok
    · rename_i hanswers
      rw [if_neg hanswers]
      exact ih h (fun _ => rfl) hok

end Closing

end ProxmoxVEAutopilot.Foundation.Transaction
