import Mathlib

/-!
# Coroutines of one event loop

A coroutine is not interrupted between two awaits. It awaits the reply to a request, a
value or an exception; what it does to the shared state in between is a list of updates.
-/

namespace ProxmoxVEAutopilot.Foundation

set_option autoImplicit false

variable {σ ρ ε β α γ : Type}

/-- `updating f next` goes on with the state it found. -/
inductive Coroutine (σ ρ ε β α : Type) where
  | returned (a : α)
  | raised (e : ε)
  | updating (f : σ → σ) (next : σ → Coroutine σ ρ ε β α)
  | awaiting (request : ρ) (next : Except ε β → Coroutine σ ρ ε β α)

namespace Coroutine

def andThen : Coroutine σ ρ ε β α → (α → Coroutine σ ρ ε β γ) → Coroutine σ ρ ε β γ
  | .returned a, k => k a
  | .raised e, _ => .raised e
  | .updating f next, k => .updating f fun s => (next s).andThen k
  | .awaiting r next, k => .awaiting r fun reply => (next reply).andThen k

instance : Monad (Coroutine σ ρ ε β) where
  pure := returned
  bind := andThen

/-- `try: … except Exception as e: handler(e)`. -/
def catching : Coroutine σ ρ ε β α → (ε → Coroutine σ ρ ε β α) → Coroutine σ ρ ε β α
  | .returned a, _ => .returned a
  | .raised e, handler => handler e
  | .updating f next, handler => .updating f fun s => (next s).catching handler
  | .awaiting r next, handler => .awaiting r fun reply => (next reply).catching handler

def ofExcept : Except ε α → Coroutine σ ρ ε β α
  | .ok a => .returned a
  | .error e => .raised e

def state : Coroutine σ ρ ε β σ := .updating id .returned

def update (f : σ → σ) : Coroutine σ ρ ε β Unit := .updating f fun _ => .returned ()

def await (request : ρ) : Coroutine σ ρ ε β β := .awaiting request ofExcept

def forEach (body : α → Coroutine σ ρ ε β Unit) : List α → Coroutine σ ρ ε β Unit
  | [] => pure ()
  | x :: xs => do
    body x
    forEach body xs

/-- On to the next await, or to the end. -/
def advance : Coroutine σ ρ ε β α → σ → σ × Coroutine σ ρ ε β α
  | .returned a, s => (s, .returned a)
  | .raised e, s => (s, .raised e)
  | .updating f next, s => (next s).advance (f s)
  | .awaiting r next, s => (s, .awaiting r next)

section Moves

/-- Every update is a move of `R`, whatever was replied before. -/
def Moves (R : σ → σ → Prop) : Coroutine σ ρ ε β α → Prop
  | .returned _ => True
  | .raised _ => True
  | .updating f next => (∀ s, R s (f s)) ∧ ∀ s, (next s).Moves R
  | .awaiting _ next => ∀ reply, (next reply).Moves R

variable {R : σ → σ → Prop} {c : Coroutine σ ρ ε β α} {k : α → Coroutine σ ρ ε β γ}

theorem Moves.pure {a : α} : (pure a : Coroutine σ ρ ε β α).Moves R := trivial

theorem Moves.bind (hc : c.Moves R) (hk : ∀ a, (k a).Moves R) : (c >>= k).Moves R := by
  change (c.andThen k).Moves R
  induction c with
  | returned a => exact hk a
  | raised e => trivial
  | updating f next ih => exact ⟨hc.1, fun s => ih s (hc.2 s)⟩
  | awaiting r next ih => exact fun reply => ih reply (hc reply)

theorem Moves.catching {handler : ε → Coroutine σ ρ ε β α} (hc : c.Moves R)
    (hhandler : ∀ e, (handler e).Moves R) : (c.catching handler).Moves R := by
  induction c with
  | returned a => trivial
  | raised e => exact hhandler e
  | updating f next ih => exact ⟨hc.1, fun s => ih s (hc.2 s)⟩
  | awaiting r next ih => exact fun reply => ih reply (hc reply)

theorem Moves.ofExcept {x : Except ε α} : (ofExcept x : Coroutine σ ρ ε β α).Moves R := by
  cases x <;> trivial

theorem Moves.await {r : ρ} : (await r : Coroutine σ ρ ε β β).Moves R := fun _ => .ofExcept

theorem Moves.update {f : σ → σ} (h : ∀ s, R s (f s)) : (update f : Coroutine σ ρ ε β Unit).Moves R :=
  ⟨h, fun _ => trivial⟩

theorem Moves.state (hrefl : ∀ s, R s s) : (state : Coroutine σ ρ ε β σ).Moves R := ⟨hrefl, fun _ => trivial⟩

theorem Moves.forEach {body : α → Coroutine σ ρ ε β Unit} (h : ∀ a, (body a).Moves R) (xs : List α) :
    (forEach body xs).Moves R := by
  induction xs with
  | nil => trivial
  | cons x xs ih => exact (h x).bind fun _ => ih

theorem Moves.advance (hrefl : ∀ s, R s s) (htrans : ∀ {s t u}, R s t → R t u → R s u) (hc : c.Moves R)
    (s : σ) : R s (c.advance s).1 ∧ (c.advance s).2.Moves R := by
  induction c generalizing s with
  | returned a => exact ⟨hrefl s, trivial⟩
  | raised e => exact ⟨hrefl s, trivial⟩
  | updating f next ih =>
    obtain ⟨hmove, hrest⟩ := ih s (hc.2 s) (f s)
    exact ⟨htrans (hc.1 s) hmove, hrest⟩
  | awaiting r next ih => exact ⟨hrefl s, hc⟩

end Moves

section NeverRaises

/-- No reply makes the coroutine end with an exception. -/
def NeverRaises : Coroutine σ ρ ε β α → Prop
  | .returned _ => True
  | .raised _ => False
  | .updating _ next => ∀ s, (next s).NeverRaises
  | .awaiting _ next => ∀ reply, (next reply).NeverRaises

variable {c : Coroutine σ ρ ε β α} {k : α → Coroutine σ ρ ε β γ}

theorem NeverRaises.bind (hc : c.NeverRaises) (hk : ∀ a, (k a).NeverRaises) : (c >>= k).NeverRaises := by
  change (c.andThen k).NeverRaises
  induction c with
  | returned a => exact hk a
  | raised e => exact hc.elim
  | updating f next ih => exact fun s => ih s (hc s)
  | awaiting r next ih => exact fun reply => ih reply (hc reply)

/-- Whatever the body raises, the handler answers it. -/
theorem NeverRaises.catching {handler : ε → Coroutine σ ρ ε β α}
    (h : ∀ e, (handler e).NeverRaises) : (c.catching handler).NeverRaises := by
  induction c with
  | returned a => trivial
  | raised e => exact h e
  | updating f next ih => exact fun s => ih s
  | awaiting r next ih => exact fun reply => ih reply

theorem NeverRaises.advance (hc : c.NeverRaises) (s : σ) : (c.advance s).2.NeverRaises := by
  induction c generalizing s with
  | returned a => trivial
  | raised e => exact hc
  | updating f next ih => exact ih s (hc s) (f s)
  | awaiting r next ih => exact hc

end NeverRaises

end Coroutine

end ProxmoxVEAutopilot.Foundation

/-!
## A coroutine and its environment

A coroutine that runs alone, against an environment that replies to each request as it
likes, given all that was asked before.
-/

namespace ProxmoxVEAutopilot.Foundation

set_option autoImplicit false

variable {σ ρ ε β α γ : Type}

/-- What a coroutine comes to. -/
structure Exchange (σ ρ ε α : Type) where
  result : Except ε α
  state : σ
  asked : List ρ

namespace Coroutine

section Converse
variable (reply : List ρ → Except ε β)

def converse : Coroutine σ ρ ε β α → σ → List ρ → Exchange σ ρ ε α
  | .returned a, s, asked => ⟨.ok a, s, asked⟩
  | .raised e, s, asked => ⟨.error e, s, asked⟩
  | .updating f next, s, asked => (next s).converse (f s) asked
  | .awaiting r next, s, asked => (next (reply (asked ++ [r]))).converse s (asked ++ [r])

variable {reply} {c : Coroutine σ ρ ε β α} {k : α → Coroutine σ ρ ε β γ} {s : σ} {asked : List ρ}

/-- On from where another coroutine returned. -/
def follow (reply : List ρ → Except ε β) (k : α → Coroutine σ ρ ε β γ) (x : Exchange σ ρ ε α) : Exchange σ ρ ε γ :=
  match x.result with
  | .ok a => (k a).converse reply x.state x.asked
  | .error e => ⟨.error e, x.state, x.asked⟩

theorem converse_bind : (c >>= k).converse reply s asked = follow reply k (c.converse reply s asked) := by
  change (c.andThen k).converse reply s asked = _
  induction c generalizing s asked with
  | returned a => rfl
  | raised e => rfl
  | updating f next ih => exact ih s
  | awaiting r next ih => exact ih _

theorem converse_bind_cases (c : Coroutine σ ρ ε β α) (k : α → Coroutine σ ρ ε β γ) (s : σ) (asked : List ρ) :
    (∃ e, (c.converse reply s asked).result = .error e ∧ (c >>= k).converse reply s asked =
        ⟨.error e, (c.converse reply s asked).state, (c.converse reply s asked).asked⟩) ∨
      ∃ a, (c.converse reply s asked).result = .ok a ∧ (c >>= k).converse reply s asked =
        (k a).converse reply (c.converse reply s asked).state (c.converse reply s asked).asked := by
  rw [converse_bind]
  unfold follow
  cases h : (c.converse reply s asked).result with
  | ok a => exact .inr ⟨a, rfl, rfl⟩
  | error e => exact .inl ⟨e, rfl, rfl⟩

theorem converse_ofExcept_bind_cases (x : Except ε α) (k : α → Coroutine σ ρ ε β γ) (s : σ) (asked : List ρ) :
    (∃ e, x = .error e ∧ (ofExcept x >>= k).converse reply s asked = ⟨.error e, s, asked⟩) ∨
      ∃ a, x = .ok a ∧ (ofExcept x >>= k).converse reply s asked = (k a).converse reply s asked := by
  cases x with
  | ok a => exact .inr ⟨a, rfl, rfl⟩
  | error e => exact .inl ⟨e, rfl, rfl⟩

def recover (reply : List ρ → Except ε β) (handler : ε → Coroutine σ ρ ε β α) (x : Exchange σ ρ ε α) :
    Exchange σ ρ ε α :=
  match x.result with
  | .ok a => ⟨.ok a, x.state, x.asked⟩
  | .error e => (handler e).converse reply x.state x.asked

theorem converse_catching {handler : ε → Coroutine σ ρ ε β α} :
    (c.catching handler).converse reply s asked = recover reply handler (c.converse reply s asked) := by
  induction c generalizing s asked with
  | returned a => rfl
  | raised e => rfl
  | updating f next ih => exact ih s
  | awaiting r next ih => exact ih _

theorem converse_ofExcept (x : Except ε α) : (ofExcept x : Coroutine σ ρ ε β α).converse reply s asked = ⟨x, s, asked⟩ := by
  cases x <;> rfl

theorem converse_await (r : ρ) : (await r : Coroutine σ ρ ε β β).converse reply s asked =
    ⟨reply (asked ++ [r]), s, asked ++ [r]⟩ := converse_ofExcept _

theorem Moves.converse {R : σ → σ → Prop} (hc : c.Moves R) (hrefl : ∀ s, R s s)
    (htrans : ∀ {s t u}, R s t → R t u → R s u) (reply : List ρ → Except ε β) (s : σ) (asked : List ρ) :
    R s (c.converse reply s asked).state := by
  induction c generalizing s asked with
  | returned a => exact hrefl s
  | raised e => exact hrefl s
  | updating f next ih => exact htrans (hc.1 s) (ih s (hc.2 s) _ _)
  | awaiting r next ih => exact ih _ (hc _) _ _

theorem NeverRaises.converse (hc : c.NeverRaises) (reply : List ρ → Except ε β) (s : σ) (asked : List ρ) :
    ∃ a, (c.converse reply s asked).result = .ok a := by
  induction c generalizing s asked with
  | returned a => exact ⟨a, rfl⟩
  | raised e => exact hc.elim
  | updating f next ih => exact ih s (hc s) _ _
  | awaiting r next ih => exact ih _ (hc _) _ _

end Converse

section Asks
variable (P : ρ → Prop)

/-- Every request is one of `P`, whatever was replied before. -/
def Asks : Coroutine σ ρ ε β α → Prop
  | .returned _ => True
  | .raised _ => True
  | .updating _ next => ∀ s, (next s).Asks
  | .awaiting r next => P r ∧ ∀ reply, (next reply).Asks

variable {P} {c : Coroutine σ ρ ε β α} {k : α → Coroutine σ ρ ε β γ}

theorem Asks.bind (hc : c.Asks P) (hk : ∀ a, (k a).Asks P) : (c >>= k).Asks P := by
  change (c.andThen k).Asks P
  induction c with
  | returned a => exact hk a
  | raised e => trivial
  | updating f next ih => exact fun s => ih s (hc s)
  | awaiting r next ih => exact ⟨hc.1, fun reply => ih reply (hc.2 reply)⟩

theorem Asks.catching {handler : ε → Coroutine σ ρ ε β α} (hc : c.Asks P) (hhandler : ∀ e, (handler e).Asks P) :
    (c.catching handler).Asks P := by
  induction c with
  | returned a => trivial
  | raised e => exact hhandler e
  | updating f next ih => exact fun s => ih s (hc s)
  | awaiting r next ih => exact ⟨hc.1, fun reply => ih reply (hc.2 reply)⟩

theorem Asks.ofExcept {x : Except ε α} : (ofExcept x : Coroutine σ ρ ε β α).Asks P := by
  cases x <;> trivial

theorem Asks.await {r : ρ} (h : P r) : (await r : Coroutine σ ρ ε β β).Asks P := ⟨h, fun _ => .ofExcept⟩

theorem Asks.converse (hc : c.Asks P) (reply : List ρ → Except ε β) (s : σ) (asked : List ρ) :
    ∃ new, (c.converse reply s asked).asked = asked ++ new ∧ ∀ r ∈ new, P r := by
  induction c generalizing s asked with
  | returned a => exact ⟨[], (List.append_nil _).symm, fun r hr => by cases hr⟩
  | raised e => exact ⟨[], (List.append_nil _).symm, fun r hr => by cases hr⟩
  | updating f next ih => exact ih s (hc s) _ _
  | awaiting r next ih =>
    obtain ⟨new, hnew, hall⟩ := ih (reply (asked ++ [r])) (hc.2 _) s (asked ++ [r])
    refine ⟨r :: new, ?_, fun q hq => ?_⟩
    · exact hnew.trans (List.append_cons asked r new).symm
    · rcases List.mem_cons.mp hq with rfl | hq
      · exact hc.1
      · exact hall q hq

end Asks

end Coroutine

end ProxmoxVEAutopilot.Foundation

/-!
## A coroutine among others

While a coroutine waits for a reply, the other tasks of the loop do to the state what they
like. What holds however a coroutine ends is a weakest precondition, and follows its
structure.
-/

namespace ProxmoxVEAutopilot.Foundation

set_option autoImplicit false

variable {σ ρ ε β α γ : Type}

namespace Coroutine

section Ends
variable (allowed : ρ → Except ε β → Prop)

/-- With replies that are allowed, and whatever the others make of the state meanwhile, `post`
holds of the result, the state that is left and what was asked. -/
def Ends (post : Except ε α → σ → List ρ → Prop) : Coroutine σ ρ ε β α → σ → List ρ → Prop
  | .returned a, s, asked => post (.ok a) s asked
  | .raised e, s, asked => post (.error e) s asked
  | .updating f next, s, asked => (next s).Ends post (f s) asked
  | .awaiting r next, _, asked => ∀ reply, allowed r reply → ∀ s', (next reply).Ends post s' (asked ++ [r])

variable {allowed} {post post' : Except ε α → σ → List ρ → Prop}
variable {c : Coroutine σ ρ ε β α} {s : σ} {asked : List ρ}

theorem Ends.mono (h : Ends allowed post c s asked) (himp : ∀ x s asked, post x s asked → post' x s asked) :
    Ends allowed post' c s asked := by
  induction c generalizing s asked with
  | returned a => exact himp _ _ _ h
  | raised e => exact himp _ _ _ h
  | updating f next ih => exact ih s h
  | awaiting r next ih => exact fun reply hreply s' => ih reply (h reply hreply s')

theorem Ends.and (h : Ends allowed post c s asked) (h' : Ends allowed post' c s asked) :
    Ends allowed (fun x s asked => post x s asked ∧ post' x s asked) c s asked := by
  induction c generalizing s asked with
  | returned a => exact ⟨h, h'⟩
  | raised e => exact ⟨h, h'⟩
  | updating f next ih => exact ih s h h'
  | awaiting r next ih => exact fun reply hreply s' => ih reply (h reply hreply s') (h' reply hreply s')

/-- How the second of two parts ends, where the first returned. -/
def thenEnds (allowed : ρ → Except ε β → Prop) (post : Except ε γ → σ → List ρ → Prop)
    (k : α → Coroutine σ ρ ε β γ) (x : Except ε α) (s : σ) (asked : List ρ) : Prop :=
  match x with
  | .ok a => Ends allowed post (k a) s asked
  | .error e => post (.error e) s asked

theorem ends_bind {post : Except ε γ → σ → List ρ → Prop} {k : α → Coroutine σ ρ ε β γ} :
    Ends allowed post (c >>= k) s asked ↔ Ends allowed (thenEnds allowed post k) c s asked := by
  change Ends allowed post (c.andThen k) s asked ↔ _
  induction c generalizing s asked with
  | returned a => exact Iff.rfl
  | raised e => exact Iff.rfl
  | updating f next ih => exact ih s
  | awaiting r next ih =>
    exact forall_congr' fun reply => forall_congr' fun _ => forall_congr' fun s' => ih reply

end Ends

section Sound
variable (allowed : ρ → Except ε β → Prop) (R : σ → σ → Prop)

/-- With replies that are allowed every update is a move of `R`, and the result is one of `post`. -/
def Sound (post : Except ε α → Prop) : Coroutine σ ρ ε β α → Prop
  | .returned a => post (.ok a)
  | .raised e => post (.error e)
  | .updating f next => (∀ s, R s (f s)) ∧ ∀ s, (next s).Sound post
  | .awaiting r next => ∀ reply, allowed r reply → (next reply).Sound post

variable {allowed R} {post post' : Except ε α → Prop} {c : Coroutine σ ρ ε β α}

theorem Sound.mono (h : Sound allowed R post c) (himp : ∀ x, post x → post' x) : Sound allowed R post' c := by
  induction c with
  | returned a => exact himp _ h
  | raised e => exact himp _ h
  | updating f next ih => exact ⟨h.1, fun s => ih s (h.2 s)⟩
  | awaiting r next ih => exact fun reply hreply => ih reply (h reply hreply)

theorem Sound.bind {post' : Except ε γ → Prop} {k : α → Coroutine σ ρ ε β γ} (h : Sound allowed R post c)
    (hok : ∀ a, post (.ok a) → Sound allowed R post' (k a)) (herror : ∀ e, post (.error e) → post' (.error e)) :
    Sound allowed R post' (c >>= k) := by
  change Sound allowed R post' (c.andThen k)
  induction c with
  | returned a => exact hok a h
  | raised e => exact herror e h
  | updating f next ih => exact ⟨h.1, fun s => ih s (h.2 s)⟩
  | awaiting r next ih => exact fun reply hreply => ih reply (h reply hreply)

theorem Sound.catching {handler : ε → Coroutine σ ρ ε β α} (h : Sound allowed R post' c)
    (hok : ∀ a, post' (.ok a) → post (.ok a)) (hhandler : ∀ e, post' (.error e) → Sound allowed R post (handler e)) :
    Sound allowed R post (c.catching handler) := by
  induction c with
  | returned a => exact hok a h
  | raised e => exact hhandler e h
  | updating f next ih => exact ⟨h.1, fun s => ih s (h.2 s)⟩
  | awaiting r next ih => exact fun reply hreply => ih reply (h reply hreply)

theorem Sound.pure {a : α} (h : post (.ok a)) : Sound allowed R post (pure a : Coroutine σ ρ ε β α) := h

theorem Sound.ofExcept_bind {post : Except ε γ → Prop} {x : Except ε α} {k : α → Coroutine σ ρ ε β γ}
    (hok : ∀ a, x = .ok a → Sound allowed R post (k a)) (herror : ∀ e, x = .error e → post (.error e)) :
    Sound allowed R post (ofExcept x >>= k) := by
  cases x with
  | ok a => exact hok a rfl
  | error e => exact herror e rfl

theorem Sound.ofExcept_ok {post : Except ε γ → Prop} {x : Except ε α} {a : α} {k : α → Coroutine σ ρ ε β γ}
    (hx : x = .ok a) (h : Sound allowed R post (k a)) : Sound allowed R post (ofExcept x >>= k) := by
  rw [hx]
  exact h

theorem Sound.await_bind {post : Except ε γ → Prop} {r : ρ} {k : β → Coroutine σ ρ ε β γ}
    (hok : ∀ b, allowed r (.ok b) → Sound allowed R post (k b))
    (herror : ∀ e, allowed r (.error e) → post (.error e)) : Sound allowed R post (await r >>= k) := by
  intro reply hreply
  cases reply with
  | ok b => exact hok b hreply
  | error e => exact herror e hreply

theorem Sound.state_bind {post : Except ε γ → Prop} {k : σ → Coroutine σ ρ ε β γ} (hrefl : ∀ s, R s s)
    (h : ∀ s, Sound allowed R post (k s)) : Sound allowed R post ((state : Coroutine σ ρ ε β σ) >>= k) := ⟨hrefl, h⟩

theorem Sound.update_bind {post : Except ε γ → Prop} {f : σ → σ} {k : Unit → Coroutine σ ρ ε β γ}
    (hmove : ∀ s, R s (f s)) (h : Sound allowed R post (k ())) :
    Sound allowed R post ((update f : Coroutine σ ρ ε β Unit) >>= k) := ⟨hmove, fun _ => h⟩

/-- A loop whose every turn ends as the whole may end. -/
theorem Sound.forEach {post : Except ε Unit → Prop} {body : α → Coroutine σ ρ ε β Unit} {xs : List α}
    (hok : post (.ok ())) (h : ∀ x ∈ xs, Sound allowed R post (body x)) : Sound allowed R post (forEach body xs) := by
  induction xs with
  | nil => exact hok
  | cons x xs ih =>
    exact (h x List.mem_cons_self).bind (fun _ _ => ih fun y hy => h y (List.mem_cons_of_mem _ hy)) fun _ => id

theorem Sound.ends (h : Sound allowed R post c) {s : σ} {asked : List ρ} :
    Ends allowed (fun x _ _ => post x) c s asked := by
  induction c generalizing s asked with
  | returned a => exact h
  | raised e => exact h
  | updating f next ih => exact ih s (h.2 s)
  | awaiting r next ih => exact fun reply hreply s' => ih reply (h reply hreply)

theorem Sound.advance (hrefl : ∀ s, R s s) (htrans : ∀ {s t u}, R s t → R t u → R s u) (h : Sound allowed R post c)
    (s : σ) : R s (c.advance s).1 ∧ Sound allowed R post (c.advance s).2 := by
  induction c generalizing s with
  | returned a => exact ⟨hrefl s, h⟩
  | raised e => exact ⟨hrefl s, h⟩
  | updating f next ih =>
    obtain ⟨hmove, hrest⟩ := ih s (h.2 s) (f s)
    exact ⟨htrans (h.1 s) hmove, hrest⟩
  | awaiting r next ih => exact ⟨hrefl s, h⟩

end Sound

end Coroutine

end ProxmoxVEAutopilot.Foundation
