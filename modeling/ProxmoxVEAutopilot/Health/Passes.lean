import ProxmoxVEAutopilot.Foundation.Lists
import ProxmoxVEAutopilot.Health.Phases

/-!
# Passes over the phase timings

A sync records one phase after another, several of them perhaps in the same row. Column by
column the row is a fold of what is recorded in it, and folding the same records once more
leaves every column but `updated_at` where it was.
-/

namespace ProxmoxVEAutopilot.Health

open Foundation

set_option autoImplicit false

section

variable {κ : Type}

/-- The arguments of `_record`; a start is always given. -/
structure Entry where
  deploymentType : String
  source : String
  sourceId : String
  phaseLabel : String
  state : PhaseState
  startedAt : Int
  endedAt : Option Int := none
  lastProgressAt : Option Int := none
  evidence : List (String × Json) := []
  error : Option String := none

def Entry.record (e : Entry) : Record where
  deploymentType := e.deploymentType
  source := e.source
  sourceId := e.sourceId
  phaseLabel := e.phaseLabel
  state := some e.state
  startedAt := some e.startedAt
  endedAt := e.endedAt
  lastProgressAt := e.lastProgressAt
  evidence := some e.evidence
  error := e.error

/-- One `record_phase` of a pass, with the clock at the write. -/
structure Write (κ : Type) where
  id : κ
  entry : Entry
  stamp : Int

abbrev Store (κ : Type) := κ → Option PhaseRow

def put [DecidableEq κ] (s : Store κ) (w : Write κ) : Option (Store κ) :=
  (recordPhase (s w.id) w.entry.record w.stamp w.stamp).map fun row => Function.update s w.id (some row)

/-- The writes in turn; none where one of them raises, which rolls all of them back. -/
def putAll [DecidableEq κ] (ws : List (Write κ)) (s : Store κ) : Option (Store κ) := ws.foldlM put s

/-! ### One row -/

def Write.insert (w : Write κ) : PhaseRow := w.entry.record.insert w.entry.state w.stamp w.stamp

def Write.update (row : PhaseRow) (w : Write κ) : PhaseRow :=
  w.entry.record.update row w.entry.state w.stamp w.stamp

def passed (row : PhaseRow) (ws : List (Write κ)) : PhaseRow := ws.foldl Write.update row

def rowAfter (existing : Option PhaseRow) : List (Write κ) → Option PhaseRow
  | [] => existing
  | w :: ws => some (passed (existing.elim w.insert fun row => w.update row) ws)

theorem recordPhase_entry {existing : Option PhaseRow} {w : Write κ} {row : PhaseRow}
    (h : recordPhase existing w.entry.record w.stamp w.stamp = some row) :
    row = existing.elim w.insert fun current => w.update current := by
  unfold recordPhase at h
  obtain ⟨state, hstate, h⟩ := Option.bind_eq_some_iff.mp h
  cases hstate
  dsimp only at h
  split at h
  · cases existing <;> exact (Option.some.inj h).symm
  · cases h

theorem rowAfter_cons (existing : Option PhaseRow) (w : Write κ) (ws : List (Write κ)) :
    rowAfter existing (w :: ws) = rowAfter (some (existing.elim w.insert fun row => w.update row)) ws := by
  cases ws with
  | nil => rfl
  | cons _ _ => rfl

theorem putAll_row [DecidableEq κ] {ws : List (Write κ)} {s t : Store κ} (h : putAll ws s = some t) (p : κ) :
    t p = rowAfter (s p) (ws.filter (·.id = p)) := by
  induction ws generalizing s with
  | nil =>
    cases h
    rfl
  | cons w ws ih =>
    unfold putAll at h
    rw [List.foldlM_cons] at h
    obtain ⟨middle, hput, hrest⟩ := Option.bind_eq_some_iff.mp h
    obtain ⟨row, hrow, rfl⟩ := Option.map_eq_some_iff.mp hput
    rw [ih hrest]
    by_cases hp : w.id = p
    · subst hp
      rw [List.filter_cons_of_pos (by simp), rowAfter_cons, Function.update_self, recordPhase_entry hrow]
    · rw [List.filter_cons_of_neg (by simpa using hp), Function.update_of_ne (Ne.symm hp)]

theorem passed_column {γ : Type} (column : PhaseRow → γ) (f : γ → Entry → γ)
    (hupdate : ∀ row (w : Write κ), column (Write.update row w) = f (column row) w.entry) (row : PhaseRow)
    (ws : List (Write κ)) : column (passed row ws) = (ws.map (·.entry)).foldl f (column row) := by
  induction ws generalizing row with
  | nil => rfl
  | cons w ws ih => exact (ih (w.update row)).trans (congrArg ((ws.map (·.entry)).foldl f) (hupdate row w))

theorem rowAfter_column {γ : Type} (column : PhaseRow → γ) (f : γ → Entry → γ) (first : Entry → γ)
    (hupdate : ∀ row (w : Write κ), column (Write.update row w) = f (column row) w.entry)
    (hinsert : ∀ w : Write κ, column w.insert = f (first w.entry) w.entry) {existing : Option PhaseRow} {w : Write κ}
    {ws : List (Write κ)} {row : PhaseRow} (h : rowAfter existing (w :: ws) = some row) :
    column row = ((w :: ws).map (·.entry)).foldl f (existing.elim (first w.entry) column) := by
  cases Option.some.inj h
  rw [passed_column column f hupdate]
  cases existing with
  | none => exact congrArg ((ws.map (·.entry)).foldl f) (hinsert w)
  | some current => exact congrArg ((ws.map (·.entry)).foldl f) (hupdate current w)

/-! ### States -/

instance : Fintype PhaseState where
  elems := {.pending, .running, .done, .failed, .skipped, .stale}
  complete s := by cases s <;> decide

/-- A step's state that settles the phase whatever it was before. -/
def Decided (s : PhaseState) : Prop := s = .done ∨ s = .failed ∨ s = .skipped

instance (s : PhaseState) : Decidable (Decided s) := by
  unfold Decided
  infer_instance

def lastDecided : List PhaseState → Option PhaseState
  | [] => none
  | s :: states => (lastDecided states).or (if Decided s then some s else none)

theorem foldl_mergeState {states : List PhaseState} (hstates : .stale ∉ states) {shown : PhaseState}
    (hshown : shown = .done ∨ shown = .failed) (x : PhaseState) :
    states.foldl mergeState x = shown ↔ lastDecided states = some shown ∨ lastDecided states = none ∧ x = shown := by
  induction states generalizing x with
  | nil => simp [lastDecided]
  | cons s states ih =>
    rw [List.mem_cons, not_or] at hstates
    rw [List.foldl_cons, ih hstates.2, lastDecided]
    cases hlast : lastDecided states with
    | some t => simp
    | none =>
      have hone : mergeState x s = shown ↔ s = shown ∧ Decided s ∨ ¬ Decided s ∧ x = shown := by
        obtain ⟨hstale, -⟩ := hstates
        rcases hshown with rfl | rfl <;> revert hstale <;> cases x <;> cases s <;> decide
      by_cases hs : Decided s
      · simp [hone, hs]
      · simp [hone, hs]

theorem foldl_mergeState_cases (s : PhaseState) (states : List PhaseState) :
    (∃ t, ∀ x, (s :: states).foldl mergeState x = mergeState x t) ∨
      ∀ x, (s :: states).foldl mergeState x = .stale := by
  have htwo : ∀ s t, (∃ u, ∀ x, mergeState (mergeState x s) t = mergeState x u) ∨
      ∀ x, mergeState (mergeState x s) t = .stale := by decide
  have hstale : ∀ t, (∃ u, ∀ x, mergeState .stale t = mergeState x u) ∨ mergeState .stale t = .stale := by decide
  induction states using List.reverseRecOn with
  | nil => exact .inl ⟨s, fun x => rfl⟩
  | append_singleton states t ih =>
    have hsnoc : ∀ x, (s :: (states ++ [t])).foldl mergeState x = mergeState ((s :: states).foldl mergeState x) t := by
      intro x
      rw [← List.cons_append, List.foldl_append]
      rfl
    rcases ih with ⟨u, hu⟩ | hu
    · rcases htwo u t with ⟨v, hv⟩ | hv
      · exact .inl ⟨v, fun x => by rw [hsnoc, hu, hv]⟩
      · exact .inr fun x => by rw [hsnoc, hu, hv]
    · rcases hstale t with ⟨v, hv⟩ | hv
      · exact .inl ⟨v, fun x => by rw [hsnoc, hu, hv x]⟩
      · exact .inr fun x => by rw [hsnoc, hu, hv]

theorem foldl_mergeState_twice (states : List PhaseState) (x : PhaseState) :
    states.foldl mergeState (states.foldl mergeState x) = states.foldl mergeState x := by
  cases states with
  | nil => rfl
  | cons s states =>
    rcases foldl_mergeState_cases s states with ⟨t, ht⟩ | ht
    · rw [ht, ht, mergeState_mergeState]
    · rw [ht, ht]

/-! ### Columns that keep or replace -/

/-- A column that is replaced, or kept where nothing is given. -/
def Sticky {α : Type} (g : Option α → Option α) : Prop := (∃ c, ∀ x, g x = c) ∨ ∃ c : Option α, ∀ x, g x = c.or x

theorem sticky_foldl {α ε : Type} {f : Option α → ε → Option α} (hf : ∀ e, Sticky (f · e)) (es : List ε) :
    Sticky fun x => es.foldl f x := by
  induction es with
  | nil => exact .inr ⟨none, fun x => rfl⟩
  | cons e es ih =>
    rcases ih with ⟨c, hc⟩ | ⟨c, hc⟩
    · exact .inl ⟨c, fun x => hc (f x e)⟩
    · rcases hf e with ⟨d, hd⟩ | ⟨d, hd⟩
      · exact .inl ⟨c.or d, fun x => (hc (f x e)).trans (congrArg c.or (hd x))⟩
      · refine .inr ⟨c.or d, fun x => ?_⟩
        rw [Option.or_assoc]
        exact (hc (f x e)).trans (congrArg c.or (hd x))

theorem sticky_twice {α : Type} {g : Option α → Option α} (h : Sticky g) (x : Option α) : g (g x) = g x := by
  rcases h with ⟨c, hc⟩ | ⟨c, hc⟩
  · rw [hc, hc]
  · rw [hc, hc, ← Option.or_assoc, Option.or_self]

theorem lookup_mergeEvidence (current incoming : List (String × Json)) (k : String) :
    (mergeEvidence current incoming).lookup k = (incoming.lookup k).or (current.lookup k) :=
  lookup_merged current incoming k

/-! ### Instants -/

theorem foldl_min_eq {starts : List Int} {x : Int} (h : ∀ t ∈ starts, x ≤ t) : starts.foldl min x = x := by
  induction starts with
  | nil => rfl
  | cons t starts ih =>
    rw [List.forall_mem_cons] at h
    rw [List.foldl_cons, min_eq_left h.1, ih h.2]

theorem foldl_min_le (starts : List Int) (x : Int) :
    starts.foldl min x ≤ x ∧ ∀ t ∈ starts, starts.foldl min x ≤ t := by
  induction starts generalizing x with
  | nil => simp
  | cons s starts ih =>
    have hrest := ih (min x s)
    rw [List.foldl_cons]
    refine ⟨by omega, ?_⟩
    intro t ht
    rcases List.mem_cons.mp ht with rfl | ht
    · omega
    · exact hrest.2 t ht

/-- `last_progress_at or ended_at or started_at` -/
def Entry.progress (e : Entry) : Int := e.lastProgressAt.getD (e.endedAt.getD e.startedAt)

/-- An instant that an entry reports is not after the given one. -/
structure Entry.Before (e : Entry) (latest : Int) : Prop where
  progress : e.progress ≤ latest
  ended : ∀ t ∈ e.endedAt, t ≤ latest

/-- The row's own instants. -/
structure Rounded (row : PhaseRow) : Prop where
  started : row.startedAt ≤ row.lastProgressAt
  ended : ∀ t ∈ row.endedAt, t ≤ row.lastProgressAt

theorem update_rounded (row : PhaseRow) (w : Write κ) :
    row.lastProgressAt ≤ (w.update row).lastProgressAt ∧ w.entry.Before (w.update row).lastProgressAt ∧
      Rounded (w.update row) := by
  obtain ⟨hlast, hprogress, hstarted, hended⟩ := @Record.le_mergedProgress w.entry.record w.stamp row
  refine ⟨hlast, ⟨hprogress, ?_⟩, hstarted, hended⟩
  intro t ht
  apply hended
  have hor : w.entry.record.mergedEnded row = some t := by
    unfold Record.mergedEnded
    rw [show w.entry.record.endedAt = some t from ht, Option.some_or]
  exact hor

theorem passed_rounded (row : PhaseRow) (ws : List (Write κ)) :
    row.lastProgressAt ≤ (passed row ws).lastProgressAt ∧
      (∀ w ∈ ws, w.entry.Before (passed row ws).lastProgressAt) ∧ (ws ≠ [] → Rounded (passed row ws)) := by
  induction ws generalizing row with
  | nil => exact ⟨le_refl _, by simp, by simp⟩
  | cons w ws ih =>
    obtain ⟨hlast, hbefore, hrounded⟩ := update_rounded row w
    obtain ⟨hlast', hbefore', hrounded'⟩ := ih (w.update row)
    refine ⟨hlast.trans hlast', ?_, ?_⟩
    · intro v hv
      rcases List.mem_cons.mp hv with rfl | hv
      · exact ⟨hbefore.progress.trans hlast', fun t ht => (hbefore.ended t ht).trans hlast'⟩
      · exact hbefore' v hv
    · intro _
      cases ws with
      | nil => exact hrounded
      | cons v ws => exact hrounded' (List.cons_ne_nil v ws)

/-- A row is created by its first entry with the progress as it is given: that has to be past the
end of the entry, and past its start where no later entry rounds the row. -/
def FirstInOrder : List Entry → Prop
  | [] => True
  | e :: es => (∀ t ∈ e.endedAt, t ≤ e.progress) ∧ (es = [] → e.startedAt ≤ e.progress)

theorem rowAfter_rounded {existing : Option PhaseRow} {w : Write κ} {ws : List (Write κ)} {row : PhaseRow}
    (h : rowAfter existing (w :: ws) = some row)
    (hfirst : existing = none → FirstInOrder ((w :: ws).map (·.entry))) :
    Rounded row ∧ ∀ v ∈ w :: ws, v.entry.Before row.lastProgressAt := by
  cases Option.some.inj h
  cases existing with
  | some current =>
    obtain ⟨-, hbefore, hrounded⟩ := passed_rounded current (w :: ws)
    exact ⟨hrounded (List.cons_ne_nil w ws), hbefore⟩
  | none =>
    obtain ⟨hended, hstarted⟩ := hfirst rfl
    obtain ⟨hlast, hbefore, hrounded⟩ := passed_rounded w.insert ws
    have hw : w.entry.Before (passed w.insert ws).lastProgressAt :=
      ⟨hlast, fun t ht => (hended t ht).trans hlast⟩
    refine ⟨?_, ?_⟩
    · cases ws with
      | nil => exact ⟨hstarted rfl, hended⟩
      | cons v ws => exact hrounded (List.cons_ne_nil v ws)
    · intro v hv
      rcases List.mem_cons.mp hv with rfl | hv
      · exact hw
      · exact hbefore v hv

theorem rowAfter_duration {existing : Option PhaseRow} {w : Write κ} {ws : List (Write κ)} {row : PhaseRow}
    (h : rowAfter existing (w :: ws) = some row) : row.durationSeconds = duration row.startedAt row.endedAt := by
  have hpassed : ∀ (ws : List (Write κ)) (row : PhaseRow), row.durationSeconds = duration row.startedAt row.endedAt →
      (passed row ws).durationSeconds = duration (passed row ws).startedAt (passed row ws).endedAt := by
    intro ws
    induction ws with
    | nil => exact fun _ hrow => hrow
    | cons w ws ih => exact fun row _ => ih (w.update row) rfl
  cases Option.some.inj h
  apply hpassed
  cases existing <;> rfl

/-- Writes that report nothing new leave the progress of a rounded row. -/
theorem passed_progress {latest : Int} {row : PhaseRow} (hrounded : Rounded row) (hlatest : row.lastProgressAt = latest)
    {ws : List (Write κ)} (hstarted : ∀ w ∈ ws, row.startedAt ≤ w.entry.startedAt)
    (hbefore : ∀ w ∈ ws, w.entry.Before latest) : (passed row ws).lastProgressAt = latest := by
  induction ws generalizing row with
  | nil => exact hlatest
  | cons w ws ih =>
    rw [List.forall_mem_cons] at hstarted hbefore
    have hmin : w.entry.record.mergedStarted row w.stamp = row.startedAt := min_eq_left hstarted.1
    have hended : ∀ t ∈ w.entry.record.mergedEnded row, t ≤ row.lastProgressAt := by
      unfold Record.mergedEnded
      cases hgiven : w.entry.record.endedAt with
      | none => exact hrounded.ended
      | some t =>
        rintro _ ⟨rfl⟩
        rw [hlatest]
        exact hbefore.1.ended t hgiven
    have hprogress : (w.update row).lastProgressAt = row.lastProgressAt := by
      apply Record.mergedProgress_eq
      · rw [hlatest]
        exact hbefore.1.progress
      · rw [hmin]
        exact hrounded.started
      · exact hended
    refine ih (update_rounded row w).2.2 (hprogress.trans hlatest) ?_ hbefore.2
    change ∀ v ∈ ws, w.entry.record.mergedStarted row w.stamp ≤ v.entry.startedAt
    rw [hmin]
    exact hstarted.2

/-- Equal in every column but `updated_at`; evidence is compared as the mapping it is. -/
structure SameColumns (row row' : PhaseRow) : Prop where
  deploymentType : row'.deploymentType = row.deploymentType
  source : row'.source = row.source
  sourceId : row'.sourceId = row.sourceId
  phaseLabel : row'.phaseLabel = row.phaseLabel
  state : row'.state = row.state
  startedAt : row'.startedAt = row.startedAt
  endedAt : row'.endedAt = row.endedAt
  lastProgressAt : row'.lastProgressAt = row.lastProgressAt
  durationSeconds : row'.durationSeconds = row.durationSeconds
  evidence : ∀ k, row'.evidence.lookup k = row.evidence.lookup k
  error : row'.error = row.error

theorem second_pass {existing : Option PhaseRow} {w : Write κ} {ws : List (Write κ)} {row row' : PhaseRow}
    (h : rowAfter existing (w :: ws) = some row)
    (hfirst : existing = none → FirstInOrder ((w :: ws).map (·.entry))) {v : Write κ} {vs : List (Write κ)}
    (hentries : (v :: vs).map (·.entry) = (w :: ws).map (·.entry)) (h' : rowAfter (some row) (v :: vs) = some row') :
    SameColumns row row' := by
  have hfold : ∀ {γ : Type} (column : PhaseRow → γ) (f : γ → Entry → γ) (first : Entry → γ),
      (∀ row (w : Write κ), column (Write.update row w) = f (column row) w.entry) →
      (∀ w : Write κ, column w.insert = f (first w.entry) w.entry) →
      (∀ x, ((w :: ws).map (·.entry)).foldl f (((w :: ws).map (·.entry)).foldl f x) =
        ((w :: ws).map (·.entry)).foldl f x) → column row' = column row := by
    intro γ column f first hupdate hinsert htwice
    rw [rowAfter_column column f first hupdate hinsert h', hentries, Option.elim_some,
      rowAfter_column column f first hupdate hinsert h, htwice]
  have hlast : ∀ {γ : Type} (column : PhaseRow → γ) (g : Entry → γ),
      (∀ row (w : Write κ), column (Write.update row w) = g w.entry) →
      (∀ w : Write κ, column w.insert = g w.entry) → column row' = column row := by
    intro γ column g hupdate hinsert
    exact hfold column (fun _ e => g e) g hupdate hinsert fun x => rfl
  have hsticky : ∀ {α : Type} (column : PhaseRow → Option α) (f : Option α → Entry → Option α),
      (∀ row (w : Write κ), column (Write.update row w) = f (column row) w.entry) →
      (∀ w : Write κ, column w.insert = f none w.entry) → (∀ e, Sticky (f · e)) → column row' = column row := by
    intro α column f hupdate hinsert hf
    exact hfold column f (fun _ => none) hupdate hinsert (sticky_twice (sticky_foldl hf _))
  obtain ⟨hrounded, hbefore⟩ := rowAfter_rounded h hfirst
  have hfoldl : ∀ x, ((w :: ws).map (·.entry)).foldl (fun t e => min t e.startedAt) x =
      (((w :: ws).map (·.entry)).map (·.startedAt)).foldl min x := fun x => List.foldl_map.symm
  have hstarts : ∀ e ∈ (w :: ws).map (·.entry), row.startedAt ≤ e.startedAt := by
    intro e he
    have hrow := rowAfter_column (·.startedAt) (fun t e => min t e.startedAt) (·.startedAt) (fun _ _ => rfl)
      (fun w => (min_self w.entry.startedAt).symm) h
    rw [hfoldl] at hrow
    rw [hrow]
    exact (foldl_min_le _ _).2 e.startedAt (List.mem_map_of_mem he)
  have hbefore' : ∀ e ∈ (w :: ws).map (·.entry), e.Before row.lastProgressAt := by
    rintro e he
    obtain ⟨u, hu, rfl⟩ := List.mem_map.mp he
    exact hbefore u hu
  rw [← hentries] at hstarts hbefore'
  have hstarted : row'.startedAt = row.startedAt := by
    refine hfold (·.startedAt) (fun t e => min t e.startedAt) (·.startedAt) (fun _ _ => rfl)
      (fun w => (min_self w.entry.startedAt).symm) fun x => ?_
    rw [hfoldl, hfoldl]
    exact foldl_min_eq fun t ht => (foldl_min_le _ x).2 t ht
  have hended : row'.endedAt = row.endedAt :=
    hsticky (·.endedAt) (fun t e => e.endedAt.or t) (fun _ _ => rfl) (fun w => (Option.or_none).symm)
      fun e => .inr ⟨e.endedAt, fun x => rfl⟩
  exact
    { deploymentType := hlast (·.deploymentType) (·.deploymentType) (fun _ _ => rfl) fun _ => rfl
      source := hlast (·.source) (·.source) (fun _ _ => rfl) fun _ => rfl
      sourceId := hlast (·.sourceId) (·.sourceId) (fun _ _ => rfl) fun _ => rfl
      phaseLabel := hlast (·.phaseLabel) (·.phaseLabel) (fun _ _ => rfl) fun _ => rfl
      state := by
        refine hfold (·.state) (fun s e => mergeState s e.state) (fun _ => .pending) (fun _ _ => rfl) ?_ fun x => ?_
        · intro w
          cases hstate : w.entry.state <;> exact hstate
        · have hstates : ∀ x, ((w :: ws).map (·.entry)).foldl (fun s e => mergeState s e.state) x =
              (((w :: ws).map (·.entry)).map (·.state)).foldl mergeState x := fun x => List.foldl_map.symm
          rw [hstates, hstates, foldl_mergeState_twice]
      startedAt := hstarted
      endedAt := hended
      lastProgressAt := by
        cases Option.some.inj h'
        exact @passed_progress κ _ row hrounded rfl (v :: vs) (fun u hu => hstarts _ (List.mem_map_of_mem hu))
          fun u hu => hbefore' _ (List.mem_map_of_mem hu)
      durationSeconds := by
        rw [rowAfter_duration h', rowAfter_duration h, hstarted, hended]
      evidence := by
        intro k
        refine hsticky (·.evidence.lookup k) (fun v e => (e.record.incomingEvidence.lookup k).or v) ?_ ?_ ?_
        · exact fun row w => lookup_mergeEvidence row.evidence w.entry.record.incomingEvidence k
        · exact fun w => (Option.or_none).symm
        · exact fun e => .inr ⟨_, fun x => rfl⟩
      error := by
        refine hsticky (·.error) (fun t e => if e.state = .done ∨ e.state = .skipped then e.error else e.error.or t)
          (fun _ _ => rfl) ?_ ?_
        · intro w
          change w.entry.error = _
          split
          · rfl
          · rw [Option.or_none]
        · intro e
          by_cases hstate : e.state = .done ∨ e.state = .skipped
          · exact .inl ⟨e.error, fun x => if_pos hstate⟩
          · exact .inr ⟨e.error, fun x => if_neg hstate⟩ }

end

end ProxmoxVEAutopilot.Health
