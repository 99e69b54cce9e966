import ProxmoxVEAutopilot.Foundation.Runs
import ProxmoxVEAutopilot.Telemetry.Sanitizers

/-!
# Phase timings

`record_phase` and the calls that are made of it, over the row of one phase of one
deployment. Instants are microseconds; an instant that is not given is `none`.
-/

namespace ProxmoxVEAutopilot.Health

open Foundation
set_option autoImplicit false

inductive PhaseState where
  | pending | running | done | failed | skipped | stale
deriving DecidableEq, Repr

namespace PhaseState

/-- `TERMINAL_STATES` -/
def Terminal (s : PhaseState) : Prop := s = done ∨ s = failed ∨ s = skipped ∨ s = stale

instance (s : PhaseState) : Decidable s.Terminal := by
  unfold Terminal
  infer_instance

end PhaseState

/-- `_duration`: whole seconds, and none without an end. -/
def duration (startedAt : Int) (endedAt : Option Int) : Option Int :=
  endedAt.map fun ended : Int => max 0 ((ended - startedAt).tdiv 1000000)

/-- The range of the `integer` column. -/
def storable (seconds : Option Int) : Bool := seconds.all fun n => n ≤ 2147483647

def mergeState (existing incoming : PhaseState) : PhaseState :=
  if incoming = .failed then .failed
  else if existing = .failed ∧ (incoming = .done ∨ incoming = .skipped) then incoming
  else if existing = .failed ∧ incoming ≠ .done then .failed
  else if existing.Terminal ∧ (incoming = .pending ∨ incoming = .running) then existing
  else incoming

/-- `{**current, **incoming}` -/
def mergeEvidence (current incoming : List (String × Json)) : List (String × Json) :=
  current.filter (fun field => field.1 ∉ incoming.map Prod.fst) ++ incoming

/-- The arguments of `record_phase`; a state that is no phase state is `none`. -/
structure Record where
  deploymentType : String := ""
  source : String := ""
  sourceId : String := ""
  phaseLabel : String := ""
  state : Option PhaseState
  startedAt : Option Int
  endedAt : Option Int := none
  lastProgressAt : Option Int := none
  evidence : Option (List (String × Json)) := none
  error : Option String := none

@[ext]
structure PhaseRow where
  deploymentType : String
  source : String
  sourceId : String
  phaseLabel : String
  state : PhaseState
  startedAt : Int
  endedAt : Option Int
  lastProgressAt : Int
  durationSeconds : Option Int
  evidence : List (String × Json)
  error : Option String
  updatedAt : Int
deriving DecidableEq

namespace Record

variable (a : Record)

/-- `_coerce_dt(started_at) or _now()` -/
def started (now : Int) : Int := a.startedAt.getD now

/-- `_coerce_dt(last_progress_at) or ended or started` -/
def progress (now : Int) : Int := a.lastProgressAt.getD (a.endedAt.getD (a.started now))

def incomingEvidence : List (String × Json) :=
  Telemetry.DeploymentHealth.redaction.scrubFields (a.evidence.getD [])

def insert (state : PhaseState) (now stamp : Int) : PhaseRow where
  deploymentType := a.deploymentType
  source := a.source
  sourceId := a.sourceId
  phaseLabel := a.phaseLabel
  state := state
  startedAt := a.started now
  endedAt := a.endedAt
  lastProgressAt := a.progress now
  durationSeconds := duration (a.started now) a.endedAt
  evidence := a.incomingEvidence
  error := a.error
  updatedAt := stamp

def mergedStarted (current : PhaseRow) (now : Int) : Int := min current.startedAt (a.started now)

def mergedEnded (current : PhaseRow) : Option Int := a.endedAt.or current.endedAt

/-- `max` over the instants that are there. -/
def mergedProgress (current : PhaseRow) (now : Int) : Int :=
  let latest := max (max current.lastProgressAt (a.progress now)) (a.mergedStarted current now)
  (a.mergedEnded current).elim latest (max latest)

def update (current : PhaseRow) (state : PhaseState) (now stamp : Int) : PhaseRow where
  deploymentType := a.deploymentType
  source := a.source
  sourceId := a.sourceId
  phaseLabel := a.phaseLabel
  state := mergeState current.state state
  startedAt := a.mergedStarted current now
  endedAt := a.mergedEnded current
  lastProgressAt := a.mergedProgress current now
  durationSeconds := duration (a.mergedStarted current now) (a.mergedEnded current)
  evidence := mergeEvidence current.evidence a.incomingEvidence
  error := if state = .done ∨ state = .skipped then a.error else a.error.or current.error
  updatedAt := stamp

end Record

/-- `record_phase`: the row it leaves, or none where it raises and the row stays: for a state
that is none, which `_merge_state` and the check of the table refuse, and for a duration the
column cannot hold. `now` is the clock where an instant is asked of it, `stamp` at the write. -/
def recordPhase (existing : Option PhaseRow) (a : Record) (now stamp : Int) : Option PhaseRow :=
  a.state.bind fun state =>
    let row := existing.elim (a.insert state now stamp) fun current => a.update current state now stamp
    if storable row.durationSeconds then some row else none

/-! ### The calls on a phase -/

inductive Call where
  | record (a : Record)
  | start (a : Record)
  | progress (lastProgressAt : Option Int) (evidence : Option (List (String × Json)))
  | finish (endedAt : Option Int) (evidence : Option (List (String × Json)))
  | fail (endedAt : Option Int) (error : String) (evidence : Option (List (String × Json)))

/-- The columns of the row that a call passes on. -/
def PhaseRow.again (row : PhaseRow) : Record where
  deploymentType := row.deploymentType
  source := row.source
  sourceId := row.sourceId
  phaseLabel := row.phaseLabel
  state := some row.state
  startedAt := some row.startedAt

/-- The `record_phase` call that a call makes; without a row the last three make none. -/
def Call.recorded (existing : Option PhaseRow) (now : Int) : Call → Option Record
  | .record a => some a
  | .start a => some { a with state := some .running }
  | .progress lastProgressAt evidence => existing.map fun row =>
    { row.again with
      endedAt := row.endedAt, lastProgressAt := some (lastProgressAt.getD now)
      evidence := evidence, error := row.error }
  | .finish endedAt evidence => existing.map fun row =>
    { row.again with state := some .done, endedAt := some (endedAt.getD now), evidence := evidence }
  | .fail endedAt error evidence => existing.map fun row =>
    { row.again with
      state := some .failed, endedAt := some (endedAt.getD now), evidence := evidence, error := some error }

/-!
## Phase timing as a fold

The row of a phase sums up every call made on it. The first write takes the progress as it is
given where every later one takes a maximum, so a history has to begin with a call whose
progress is not before its start and its end.
-/

/-! ### Merging twice -/

theorem mergeState_self (s : PhaseState) : mergeState s s = s := by
  cases s <;> decide

theorem mergeState_mergeState (current s : PhaseState) :
    mergeState (mergeState current s) s = mergeState current s := by
  cases current <;> cases s <;> decide

theorem mergeState_terminal {current : PhaseState} (h : current.Terminal) (s : PhaseState) :
    (mergeState current s).Terminal := by
  revert h
  cases current <;> cases s <;> decide

theorem mergeEvidence_self (incoming : List (String × Json)) : mergeEvidence incoming incoming = incoming := by
  unfold mergeEvidence
  have hnil : incoming.filter (fun field => field.1 ∉ incoming.map Prod.fst) = [] := by
    apply List.filter_eq_nil_iff.mpr
    intro field hfield
    simpa using ⟨field.2, hfield⟩
  rw [hnil, List.nil_append]

theorem mergeEvidence_mergeEvidence (current incoming : List (String × Json)) :
    mergeEvidence (mergeEvidence current incoming) incoming = mergeEvidence current incoming := by
  have hself := mergeEvidence_self incoming
  unfold mergeEvidence at hself ⊢
  rw [List.filter_append, List.filter_filter, List.append_assoc, hself]
  congr 1
  exact List.filter_congr fun field _ => by simp

namespace Record

variable {a : Record} {now later : Int}

/-- The call gives an instant, so that it says the same at a later time. -/
def Dated (a : Record) : Prop := a.startedAt ≠ none ∨ a.endedAt ≠ none ∨ a.lastProgressAt ≠ none

/-- The progress it reports is not before the start and the end it reports. -/
def InOrder (a : Record) (now : Int) : Prop :=
  a.started now ≤ a.progress now ∧ ∀ ended ∈ a.endedAt, ended ≤ a.progress now

instance (a : Record) : Decidable a.Dated := by
  unfold Dated
  infer_instance

instance (a : Record) (now : Int) : Decidable (a.InOrder now) := by
  unfold InOrder
  infer_instance

theorem progress_later (h : a.Dated) : a.progress later = a.progress now := by
  unfold progress started
  rcases h with h | h | h <;> obtain ⟨t, ht⟩ := Option.ne_none_iff_exists'.mp h <;> simp [ht]

theorem min_started_later (hlater : now ≤ later) (t : Int) (ht : t ≤ a.started now) : min t (a.started later) = t := by
  unfold started at ht ⊢
  cases hstart : a.startedAt with
  | none =>
    simp only [hstart, Option.getD_none] at ht ⊢
    omega
  | some s =>
    simp only [hstart, Option.getD_some] at ht ⊢
    omega

theorem le_mergedProgress (current : PhaseRow) :
    current.lastProgressAt ≤ a.mergedProgress current now ∧ a.progress now ≤ a.mergedProgress current now ∧
      a.mergedStarted current now ≤ a.mergedProgress current now ∧
        ∀ ended ∈ a.mergedEnded current, ended ≤ a.mergedProgress current now := by
  unfold mergedProgress
  cases hended : a.mergedEnded current with
  | none =>
    refine ⟨?_, ?_, ?_, by simp⟩ <;> simp only [Option.elim_none] <;> omega
  | some e =>
    refine ⟨?_, ?_, ?_, ?_⟩
    · simp only [Option.elim_some]; omega
    · simp only [Option.elim_some]; omega
    · simp only [Option.elim_some]; omega
    · rintro ended hmem
      cases hmem
      simp only [Option.elim_some]
      omega

theorem mergedProgress_eq {current : PhaseRow} (hprogress : a.progress now ≤ current.lastProgressAt)
    (hstarted : a.mergedStarted current now ≤ current.lastProgressAt)
    (hended : ∀ ended ∈ a.mergedEnded current, ended ≤ current.lastProgressAt) :
    a.mergedProgress current now = current.lastProgressAt := by
  unfold mergedProgress
  cases hcase : a.mergedEnded current with
  | none =>
    simp only [Option.elim_none]
    omega
  | some e =>
    have he := hended e hcase
    simp only [Option.elim_some]
    omega

structure Settled (a : Record) (state : PhaseState) (now : Int) (row : PhaseRow) : Prop where
  deploymentType : row.deploymentType = a.deploymentType
  source : row.source = a.source
  sourceId : row.sourceId = a.sourceId
  phaseLabel : row.phaseLabel = a.phaseLabel
  states : mergeState row.state state = row.state
  started : row.startedAt ≤ a.started now
  ended : a.mergedEnded row = row.endedAt
  progress : a.progress now ≤ row.lastProgressAt
  startedProgress : row.startedAt ≤ row.lastProgressAt
  endedProgress : ∀ ended ∈ row.endedAt, ended ≤ row.lastProgressAt
  duration : row.durationSeconds = duration row.startedAt row.endedAt
  evidence : mergeEvidence row.evidence a.incomingEvidence = row.evidence
  error : (if state = .done ∨ state = .skipped then a.error else a.error.or row.error) = row.error

theorem update_settled {state : PhaseState} {row : PhaseRow} (h : a.Settled state now row) (hdated : a.Dated)
    (hlater : now ≤ later) (stamp : Int) : a.update row state later stamp = { row with updatedAt := stamp } := by
  have hstarted : a.mergedStarted row later = row.startedAt := min_started_later hlater _ h.started
  have hprogress : a.mergedProgress row later = row.lastProgressAt := by
    apply mergedProgress_eq
    · rw [progress_later hdated]
      exact h.progress
    · rw [hstarted]
      exact h.startedProgress
    · rw [h.ended]
      exact h.endedProgress
  unfold update
  rw [hstarted, hprogress, h.ended, h.states, h.evidence, h.error, ← h.duration, ← h.deploymentType, ← h.source,
    ← h.sourceId, ← h.phaseLabel]

theorem insert_settled (h : a.InOrder now) (state : PhaseState) (stamp : Int) :
    a.Settled state now (a.insert state now stamp) where
  deploymentType := rfl
  source := rfl
  sourceId := rfl
  phaseLabel := rfl
  states := mergeState_self state
  started := le_refl _
  ended := by
    unfold mergedEnded insert
    cases a.endedAt <;> rfl
  progress := le_refl _
  startedProgress := h.1
  endedProgress := h.2
  duration := rfl
  evidence := mergeEvidence_self _
  error := by
    unfold insert
    cases a.error <;> simp

theorem settled_update (current : PhaseRow) (state : PhaseState) (stamp : Int) :
    a.Settled state now (a.update current state now stamp) where
  deploymentType := rfl
  source := rfl
  sourceId := rfl
  phaseLabel := rfl
  states := mergeState_mergeState current.state state
  started := min_le_right _ _
  ended := by
    unfold update mergedEnded
    cases a.endedAt <;> rfl
  progress := (le_mergedProgress current).2.1
  startedProgress := (le_mergedProgress current).2.2.1
  endedProgress := (le_mergedProgress current).2.2.2
  duration := rfl
  evidence := mergeEvidence_mergeEvidence _ _
  error := by
    unfold update
    cases a.error <;> by_cases hstate : state = .done ∨ state = .skipped <;> simp [hstate]

end Record

/-! ### Histories of one phase -/

/-- The row with what the calls have reported so far and the last `record_phase` call made,
with its time. -/
structure Ledger where
  row : Option PhaseRow
  starts : List Int
  progress : List Int
  last : Option (Record × Int)

def Ledger.empty : Ledger := ⟨none, [], [], none⟩

structure Move where
  call : Call
  now : Int
  stamp : Int

/-- The start a call reports; the calls on an existing phase pass its own start on. -/
def Call.starts (now : Int) : Call → List Int
  | .record a | .start a => [a.started now]
  | _ => []

def Call.reports (now : Int) : Call → List Int
  | .record a | .start a => a.lastProgressAt.toList
  | .progress lastProgressAt _ => [lastProgressAt.getD now]
  | _ => []

/-- The arguments of the `record_phase` call that a move makes, and the row that call leaves. -/
def Move.write (existing : Option PhaseRow) (m : Move) : Option (Record × PhaseRow) :=
  (m.call.recorded existing m.now).bind fun a => (recordPhase existing a m.now m.stamp).map (a, ·)

def exec (l : Ledger) (m : Move) : Ledger :=
  match m.write l.row with
  | none => l
  | some (a, row) =>
    { row := some row, starts := l.starts ++ m.call.starts m.now, progress := l.progress ++ m.call.reports m.now
      last := some (a, m.now) }

/-- A call that makes the row has its progress in order, and a call with instants of its own
gives one of them. -/
def Proper (l : Ledger) (m : Move) : Prop :=
  ∀ a ∈ m.call.recorded l.row m.now, a.Dated ∧ (l.row = none → a.InOrder m.now)

instance (l : Ledger) (m : Move) : Decidable (Proper l m) := by
  unfold Proper
  infer_instance

/-- The columns are the sums over the history that they are read as. -/
structure Sums (l : Ledger) : Prop where
  fresh : l.row = none → l.starts = [] ∧ l.progress = []
  startedAt : ∀ row ∈ l.row, row.startedAt ∈ l.starts ∧ ∀ t ∈ l.starts, row.startedAt ≤ t
  duration : ∀ row ∈ l.row, row.durationSeconds =
    row.endedAt.map fun ended : Int => max 0 ((ended - row.startedAt).tdiv 1000000)

/-- The progress is not before any other instant of the row or of the history, and the last
`record_phase` call made again, then or later, changes `updated_at` alone. -/
structure Steady (l : Ledger) : Prop where
  progress : ∀ row ∈ l.row, row.startedAt ≤ row.lastProgressAt ∧
    (∀ ended ∈ row.endedAt, ended ≤ row.lastProgressAt) ∧ ∀ t ∈ l.progress, t ≤ row.lastProgressAt
  again : ∀ row ∈ l.row, ∀ last ∈ l.last, ∀ later stamp, last.2 ≤ later →
    recordPhase (some row) last.1 later stamp = some { row with updatedAt := stamp }

theorem recordPhase_eq_some {existing : Option PhaseRow} {a : Record} {now stamp : Int} {row : PhaseRow}
    (h : recordPhase existing a now stamp = some row) :
    ∃ state, a.state = some state ∧ storable row.durationSeconds ∧
      row = existing.elim (a.insert state now stamp) fun current => a.update current state now stamp := by
  obtain ⟨state, hstate, hrow⟩ := Option.bind_eq_some_iff.mp h
  refine ⟨state, hstate, ?_⟩
  dsimp only at hrow
  split at hrow
  · cases hrow
    exact ⟨by assumption, rfl⟩
  · cases hrow

theorem write_eq_some {existing : Option PhaseRow} {m : Move} {a : Record} {row : PhaseRow}
    (h : m.write existing = some (a, row)) :
    m.call.recorded existing m.now = some a ∧ recordPhase existing a m.now m.stamp = some row := by
  obtain ⟨a', ha, hrow⟩ := Option.bind_eq_some_iff.mp h
  obtain ⟨row', hrow', heq⟩ := Option.map_eq_some_iff.mp hrow
  cases heq
  exact ⟨ha, hrow'⟩

theorem recorded_start {existing : Option PhaseRow} {c : Call} {now : Int} {a : Record}
    (h : c.recorded existing now = some a) :
    c.starts now = [a.started now] ∨ c.starts now = [] ∧ ∃ row, existing = some row ∧ a.started now = row.startedAt := by
  cases c with
  | record b => cases h; exact .inl rfl
  | start b => cases h; exact .inl rfl
  | progress t evidence =>
    obtain ⟨row, hrow, rfl⟩ := Option.map_eq_some_iff.mp h
    exact .inr ⟨rfl, row, hrow, rfl⟩
  | finish t evidence =>
    obtain ⟨row, hrow, rfl⟩ := Option.map_eq_some_iff.mp h
    exact .inr ⟨rfl, row, hrow, rfl⟩
  | fail t error evidence =>
    obtain ⟨row, hrow, rfl⟩ := Option.map_eq_some_iff.mp h
    exact .inr ⟨rfl, row, hrow, rfl⟩

theorem recorded_progress {existing : Option PhaseRow} {c : Call} {now : Int} {a : Record}
    (h : c.recorded existing now = some a) : ∀ t ∈ c.reports now, a.progress now = t := by
  intro t ht
  cases c with
  | record b =>
    obtain rfl := Option.some.inj h
    have hgiven : b.lastProgressAt = some t := by simpa [Call.reports] using ht
    simp [Record.progress, hgiven]
  | start b =>
    cases h
    have hgiven : b.lastProgressAt = some t := by simpa [Call.reports] using ht
    simp [Record.progress, hgiven]
  | progress p evidence =>
    obtain ⟨row, hrow, rfl⟩ := Option.map_eq_some_iff.mp h
    exact (List.mem_singleton.mp ht).symm
  | finish p evidence => cases ht
  | fail p error evidence => cases ht

/-! ### What one call preserves -/

theorem sums_exec {l : Ledger} (h : Sums l) (m : Move) : Sums (exec l m) := by
  unfold exec
  split
  · exact h
  · rename_i a row hwrite
    obtain ⟨hrecorded, hrow⟩ := write_eq_some hwrite
    obtain ⟨state, -, -, rfl⟩ := recordPhase_eq_some hrow
    have hstart := recorded_start hrecorded
    refine ⟨(by rintro ⟨⟩), ?_, ?_⟩
    · rintro _ ⟨⟩
      cases hexisting : l.row with
      | none =>
        rcases hstart with hstart | ⟨-, current, hcurrent, -⟩
        · rw [(h.fresh hexisting).1, hstart]
          simp [Record.insert]
        · rw [hexisting] at hcurrent
          cases hcurrent
      | some current =>
        obtain ⟨hmem, hleast⟩ := h.startedAt current hexisting
        have hmerged : (a.update current state m.now m.stamp).startedAt = min current.startedAt (a.started m.now) := rfl
        rw [Option.elim_some, hmerged]
        rcases hstart with hstart | ⟨hstart, row, hrow, hpassed⟩
        · rw [hstart]
          refine ⟨?_, ?_⟩
          · rcases min_choice current.startedAt (a.started m.now) with hmin | hmin <;> rw [hmin]
            · exact List.mem_append_left _ hmem
            · exact List.mem_append_right _ (List.mem_singleton_self _)
          · intro t ht
            rcases List.mem_append.mp ht with ht | ht
            · exact (min_le_left _ _).trans (hleast t ht)
            · rw [List.mem_singleton.mp ht]
              exact min_le_right _ _
        · rw [hexisting] at hrow
          cases hrow
          rw [hstart, hpassed, min_self, List.append_nil]
          exact ⟨hmem, hleast⟩
    · rintro _ ⟨⟩
      cases l.row <;> rfl

theorem steady_exec {l : Ledger} (hsums : Sums l) (h : Steady l) {m : Move} (hproper : Proper l m) : Steady (exec l m) := by
  unfold exec
  split
  · exact h
  · rename_i a row hwrite
    obtain ⟨hrecorded, hrecord⟩ := write_eq_some hwrite
    obtain ⟨hdated, horder⟩ := hproper a hrecorded
    obtain ⟨state, hstate, hstorable, hrow⟩ := recordPhase_eq_some hrecord
    have hreports := recorded_progress hrecorded
    have hsettled : a.Settled state m.now row := by
      cases hexisting : l.row with
      | none =>
        rw [hrow, hexisting]
        exact Record.insert_settled (horder hexisting) state m.stamp
      | some current =>
        rw [hrow, hexisting]
        exact Record.settled_update current state m.stamp
    refine ⟨?_, ?_⟩
    · rintro _ ⟨⟩
      refine ⟨hsettled.startedProgress, hsettled.endedProgress, fun t ht => ?_⟩
      rcases List.mem_append.mp ht with ht | ht
      · cases hexisting : l.row with
        | none =>
          rw [(hsums.fresh hexisting).2] at ht
          cases ht
        | some current =>
          have hcurrent := (h.progress current hexisting).2.2 t ht
          rw [hrow, hexisting]
          exact hcurrent.trans (Record.le_mergedProgress current).1
      · rw [← hreports t ht]
        exact hsettled.progress
    · rintro _ ⟨⟩ _ ⟨⟩ later stamp hlater
      have hupdate := Record.update_settled hsettled hdated hlater stamp
      unfold recordPhase
      rw [hstate, Option.bind_some, Option.elim_some]
      dsimp only
      rw [hupdate]
      exact if_pos hstorable

/-- A terminal phase stays terminal. -/
def StaysTerminal (l later : Ledger) : Prop :=
  ∀ row ∈ l.row, row.state.Terminal → ∃ row', later.row = some row' ∧ row'.state.Terminal

theorem staysTerminal_exec (l : Ledger) (m : Move) : StaysTerminal l (exec l m) := by
  intro row hrow hterminal
  unfold exec
  split
  · exact ⟨row, hrow, hterminal⟩
  · rename_i a row' hwrite
    obtain ⟨state, -, -, hrow'⟩ := recordPhase_eq_some (write_eq_some hwrite).2
    refine ⟨row', rfl, ?_⟩
    rw [hrow', show l.row = some row from hrow]
    exact mergeState_terminal hterminal state

/-! ### Whole histories -/

theorem sums_run {l : Ledger} (h : Sums l) (ms : List Move) : Sums (ms.foldl exec l) := by
  induction ms generalizing l with
  | nil => exact h
  | cons m ms ih => exact ih (sums_exec h m)

theorem steady_run {l : Ledger} (hsums : Sums l) (h : Steady l) {ms : List Move} (hms : Replays Proper exec l ms) :
    Steady (ms.foldl exec l) := by
  induction ms generalizing l with
  | nil => exact h
  | cons m ms ih => exact ih (sums_exec hsums m) (steady_exec hsums h hms.1) hms.2

theorem staysTerminal_run (l : Ledger) (ms : List Move) : StaysTerminal l (ms.foldl exec l) := by
  induction ms generalizing l with
  | nil => exact fun row hrow hterminal => ⟨row, hrow, hterminal⟩
  | cons m ms ih =>
    intro row hrow hterminal
    obtain ⟨row', hrow', hterminal'⟩ := staysTerminal_exec l m row hrow hterminal
    exact ih (exec l m) row' hrow' hterminal'

theorem sums_empty : Sums .empty where
  fresh := fun _ => ⟨rfl, rfl⟩
  startedAt := by rintro _ ⟨⟩
  duration := by rintro _ ⟨⟩

theorem steady_empty : Steady .empty where
  progress := by rintro _ ⟨⟩
  again := by rintro _ ⟨⟩

/-- In every state of a proper history the row sums up the calls made so far, and a terminal
state is never left. -/
theorem phase_timing_folds (before after : List Move) (h : Replays Proper exec .empty (before ++ after)) :
    Sums (before.foldl exec .empty) ∧ Steady (before.foldl exec .empty) ∧
      StaysTerminal (before.foldl exec .empty) ((before ++ after).foldl exec .empty) := by
  refine ⟨sums_run sums_empty before, steady_run sums_empty steady_empty (replays_append.mp h).1, ?_⟩
  rw [List.foldl_append]
  exact staysTerminal_run _ after

def cleanPhase : List Move :=
  [⟨.start { state := none, startedAt := some 10000000 }, 11000000, 11000000⟩,
    ⟨.progress (some 9000000) none, 12000000, 12000000⟩, ⟨.finish (some 15000000) none, 16000000, 16000000⟩]

theorem cleanPhase_folds : Sums (cleanPhase.foldl exec .empty) ∧ Steady (cleanPhase.foldl exec .empty) ∧
    StaysTerminal (cleanPhase.foldl exec .empty) ((cleanPhase ++ []).foldl exec .empty) :=
  phase_timing_folds cleanPhase [] (by decide +kernel)

/-- The pause gate of a running job without a heartbeat yet: claimed at 10 s, with the creation
at 5 s as its progress. -/
def pauseGate : List Move :=
  [⟨.record { state := some .running, startedAt := some 10000000, lastProgressAt := some 5000000 }, 20000000, 20000000⟩]

theorem pauseGate_progress_before_start : ¬ (Sums (pauseGate.foldl exec .empty) ∧ Steady (pauseGate.foldl exec .empty) ∧
    StaysTerminal (pauseGate.foldl exec .empty) ((pauseGate ++ []).foldl exec .empty)) := by
  rintro ⟨-, hsteady, -⟩
  have hstart := (hsteady.progress _ rfl).1
  revert hstart
  decide +kernel

end ProxmoxVEAutopilot.Health
