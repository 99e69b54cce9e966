import ProxmoxVEAutopilot.Foundation.Runs

/-!
# Interleaved processes over shared state

Each process `t` moves its own local state and the shared one. A local assertion
survives the moves of others when it is stable under what they guarantee. Exclusive
locks are the guarantee most processes give.
-/

namespace ProxmoxVEAutopilot.Foundation

set_option autoImplicit false

universe u v w
variable {σ : Type u} {τ : Type v} {ℓ : Type w} [DecidableEq τ]

/-- Process `t` takes one step of its own. -/
def Interleave (step : σ → τ → ℓ → σ → ℓ → Prop) (w : σ × (τ → ℓ)) (t : τ) (w' : σ × (τ → ℓ)) :
    Prop :=
  ∃ s' l', step w.1 t (w.2 t) s' l' ∧ w' = (s', Function.update w.2 t l')

theorem Interleave.of_step {step : σ → τ → ℓ → σ → ℓ → Prop} {w : σ × (τ → ℓ)} {t : τ} {l l' : ℓ}
    {s' : σ} (h : step w.1 t l s' l') (hl : w.2 t = l) :
    Interleave step w t (s', Function.update w.2 t l') := by
  subst hl
  exact ⟨s', l', h, rfl⟩

section Rule
variable {step : σ → τ → ℓ → σ → ℓ → Prop} (guar : σ → τ → σ → Prop) (shared : σ → Prop)
  (loc : σ → τ → ℓ → Prop)

/-- Rely and guarantee: own steps keep the shared invariant, re-establish the local
assertion and give the guarantee; local assertions are stable under the guarantee of
every other process. -/
theorem Run.interleaving
    (own : ∀ s t l s' l', shared s → loc s t l → step s t l s' l' →
      shared s' ∧ loc s' t l' ∧ guar s t s')
    (stable : ∀ s t s' u l, shared s → u ≠ t → guar s t s' → loc s u l → loc s' u l)
    {w w' : σ × (τ → ℓ)} {ts : List τ} (hrun : Run (Interleave step) w ts w')
    (hs : shared w.1) (hl : ∀ t, loc w.1 t (w.2 t)) :
    shared w'.1 ∧ ∀ t, loc w'.1 t (w'.2 t) := by
  refine hrun.invariant (P := fun w => shared w.1 ∧ ∀ t, loc w.1 t (w.2 t)) ?_ ⟨hs, hl⟩
  rintro w t _ ⟨hs, hl⟩ ⟨s', l', hstep, rfl⟩
  obtain ⟨hs', hl', hguar⟩ := own _ _ _ _ _ hs (hl t) hstep
  refine ⟨hs', fun u => ?_⟩
  by_cases hu : u = t
  · subst hu
    simpa using hl'
  · simpa [Function.update_of_ne hu] using stable _ _ _ _ _ hs hu hguar (hl u)

end Rule

abbrev Locks (κ τ : Type) := κ → Option τ

namespace Locks
variable {κ τ : Type} {l : Locks κ τ} {k j : κ} {t u : τ}

def Available (l : Locks κ τ) (k : κ) (t : τ) : Prop := l k = none ∨ l k = some t

def acquire [DecidableEq κ] (l : Locks κ τ) (k : κ) (t : τ) : Locks κ τ :=
  Function.update l k (some t)

def release [DecidableEq τ] (l : Locks κ τ) (t : τ) : Locks κ τ :=
  fun k => if l k = some t then none else l k

@[simp] theorem acquire_self [DecidableEq κ] (l : Locks κ τ) (k : κ) (t : τ) : l.acquire k t k = some t := by
  simp [acquire]

theorem acquire_keeps [DecidableEq κ] (hk : l.Available k t) (hj : l j = some u) : l.acquire k t j = some u := by
  by_cases h : j = k
  · subst h
    rcases hk with hk | hk
    · rw [hk] at hj
      cases hj
    · rw [hk] at hj
      simpa using hj
  · simpa [acquire, h] using hj

theorem release_keeps [DecidableEq τ] (hj : l j = some u) (hu : u ≠ t) : l.release t j = some u := by
  simp [release, hj, hu]

theorem acquire_eq_some [DecidableEq κ] (hk : l.Available k t) :
    l.acquire k t j = some u ↔ (j = k ∧ u = t) ∨ l j = some u := by
  by_cases h : j = k
  · subst h
    rcases hk with hk | hk
    · simp [acquire, hk, eq_comm]
    · simp [acquire, hk, eq_comm]
  · simp [acquire, h]

theorem release_eq_some [DecidableEq τ] : l.release t j = some u ↔ l j = some u ∧ u ≠ t := by
  unfold release
  split
  · rename_i ht
    rw [ht]
    constructor
    · intro h
      cases h
    · intro h
      exact absurd (Option.some.inj h.1).symm h.2
  · rename_i ht
    constructor
    · intro hu
      exact ⟨hu, fun h => ht (h ▸ hu)⟩
    · exact fun h => h.1

end Locks

/-- Where every one that is waited for waits for something of a higher rank, no waiting is cyclic. -/
theorem not_transGen_self_of_rank {τ : Type} {waits : τ → τ → Prop} (rank : τ → Nat)
    (h : ∀ t u v, waits t u → waits u v → rank t < rank u) (t : τ) :
    ¬ Relation.TransGen waits t t := by
  have hrank : ∀ u, Relation.TransGen waits t u → ∀ v, waits u v → rank t < rank u := by
    intro u hu
    induction hu with
    | single htu => exact fun v huv => h _ _ _ htu huv
    | tail _ hbc ih => exact fun v hcv => Nat.lt_trans (ih _ hbc) (h _ _ _ hbc hcv)
  intro hcycle
  obtain ⟨v, htv, _⟩ := Relation.TransGen.head'_iff.mp hcycle
  exact Nat.lt_irrefl _ (hrank t hcycle v htv)

end ProxmoxVEAutopilot.Foundation

/-!
## Processes that read a cell and write it over later

Each process reads the cell once and writes once what it makes of the value it read. A write
builds on the writes that the value read came from, and no others.
-/

namespace ProxmoxVEAutopilot.Foundation

set_option autoImplicit false

universe u v w
variable {ρ : Type u} {ρ' : Type v} {τ : Type w} [DecidableEq τ]

/-- How far a process is. -/
inductive Turn (ρ : Type u) where
  | waiting
  | held (read : ρ)
  | returned

def Turn.map (f : ρ → ρ') : Turn ρ → Turn ρ'
  | .waiting => .waiting
  | .held read => .held (f read)
  | .returned => .returned

structure Cell (ρ : Type u) (τ : Type w) where
  value : ρ
  turn : τ → Turn ρ

namespace Cell

def start (value : ρ) : Cell ρ τ := ⟨value, fun _ => .waiting⟩

/-- The next turn of a process; `write` is what it makes of what it has read. -/
def exec (write : τ → ρ → ρ) (c : Cell ρ τ) (t : τ) : Cell ρ τ :=
  match c.turn t with
  | .waiting => { c with turn := Function.update c.turn t (.held c.value) }
  | .held read => ⟨write t read, Function.update c.turn t .returned⟩
  | .returned => c

def map (f : ρ → ρ') (c : Cell ρ τ) : Cell ρ' τ := ⟨f c.value, fun t => (c.turn t).map f⟩

/-- The processes that the value of the cell is built from, in their order. -/
def basis (schedule : List τ) : List τ := (schedule.foldl (exec fun t ts => ts ++ [t]) (start [])).value

variable {write : τ → ρ → ρ} {write' : τ → ρ' → ρ'} {f : ρ → ρ'}

theorem exec_map (h : ∀ t r, f (write t r) = write' t (f r)) (c : Cell ρ τ) (t : τ) :
    (c.map f).exec write' t = (c.exec write t).map f := by
  unfold exec map
  dsimp only
  cases hturn : c.turn t with
  | waiting =>
    simp only [Turn.map, mk.injEq, true_and]
    funext u
    by_cases hu : u = t
    · subst hu
      simp
    · simp [Function.update_of_ne hu]
  | held read =>
    simp only [Turn.map, h, mk.injEq, true_and]
    funext u
    by_cases hu : u = t
    · subst hu
      simp
    · simp [Function.update_of_ne hu]
  | returned => simp only [Turn.map]

theorem foldl_exec_map (h : ∀ t r, f (write t r) = write' t (f r)) (schedule : List τ) (c : Cell ρ τ) :
    schedule.foldl (exec write') (c.map f) = (schedule.foldl (exec write) c).map f := by
  induction schedule generalizing c with
  | nil => rfl
  | cons t schedule ih => rw [List.foldl_cons, List.foldl_cons, exec_map h, ih]

theorem value_eq (value : ρ) (schedule : List τ) : (schedule.foldl (exec write) (start value)).value =
    (basis schedule).foldl (fun r t => write t r) value := by
  have hsnoc : ∀ (t : τ) (ts : List τ), (ts ++ [t]).foldl (fun r t => write t r) value =
      write t (ts.foldl (fun r t => write t r) value) := by
    intro t ts
    rw [List.foldl_append, List.foldl_cons, List.foldl_nil]
  have hmap := foldl_exec_map (f := fun ts : List τ => ts.foldl (fun r t => write t r) value) hsnoc schedule (start [])
  exact congrArg Cell.value hmap

end Cell

end ProxmoxVEAutopilot.Foundation
