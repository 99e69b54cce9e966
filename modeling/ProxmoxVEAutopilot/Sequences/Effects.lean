import ProxmoxVEAutopilot.Foundation.Lists
import ProxmoxVEAutopilot.Sequences.Store

/-!
# What the calls do to the rows

For each call that goes through, what it leaves of the sequences.
-/

namespace ProxmoxVEAutopilot.Sequences

open Foundation
set_option autoImplicit false

variable {db db' : Store} {now newId seqId : Int}

/-- `g` keeps what a sequence is found by. -/
def KeepsNames (g : Sequence → Sequence) : Prop := ∀ row, (g row).id = row.id ∧ (g row).name = row.name

section Table
variable {rows : List Sequence} {g : Sequence → Sequence}

/-- The sequences as their table's constraints have them; the ids come from a sequence that
begins at one. -/
structure SequenceTable (rows : List Sequence) : Prop where
  ids : (rows.map Sequence.id).Nodup
  names : (rows.map Sequence.name).Nodup
  positive : ∀ row ∈ rows, 0 < row.id

theorem table_map (hg : KeepsNames g) (h : SequenceTable rows) : SequenceTable (rows.map g) where
  ids := by
    have hids : (rows.map g).map Sequence.id = rows.map Sequence.id := by
      rw [List.map_map]
      exact List.map_congr_left fun row _ => (hg row).1
    exact hids ▸ h.ids
  names := by
    have hnames : (rows.map g).map Sequence.name = rows.map Sequence.name := by
      rw [List.map_map]
      exact List.map_congr_left fun row _ => (hg row).2
    exact hnames ▸ h.names
  positive := by
    intro row hrow
    obtain ⟨old, hold, rfl⟩ := List.mem_map.mp hrow
    exact (hg old).1 ▸ h.positive old hold

theorem table_snoc {new : Sequence} (h : SequenceTable rows) (hpositive : 0 < new.id)
    (hid : new.id ∉ rows.map Sequence.id) (hname : new.name ∉ rows.map Sequence.name) :
    SequenceTable (rows ++ [new]) where
  ids := nodup_map_snoc h.ids fun _ hrow heq => hid (heq ▸ List.mem_map_of_mem hrow)
  names := nodup_map_snoc h.names fun _ hrow heq => hname (heq ▸ List.mem_map_of_mem hrow)
  positive := by
    intro row hrow
    rcases List.mem_append.mp hrow with hrow | hrow
    · exact h.positive row hrow
    · rw [List.mem_singleton.mp hrow]
      exact hpositive

theorem table_delete (h : SequenceTable rows) : SequenceTable (Table.delete Sequence.id rows seqId) where
  ids := h.ids.sublist (List.filter_sublist.map _)
  names := h.names.sublist (List.filter_sublist.map _)
  positive := fun row hrow => h.positive row (Table.mem_delete.mp hrow).1

theorem table_update {patch : SequencePatch} (h : SequenceTable db.sequences) (hname : ¬ nameTaken db seqId patch.name) :
    SequenceTable (Table.modify Sequence.id db.sequences seqId (patch.apply now)) where
  ids := by
    have hids : (Table.modify Sequence.id db.sequences seqId (patch.apply now)).map Sequence.id =
        db.sequences.map Sequence.id := Table.map_key_modify fun _ => rfl
    exact hids ▸ h.ids
  names := by
    unfold Table.modify
    rw [List.map_map]
    refine h.ids.of_map.map_on fun a ha b hb heq => ?_
    dsimp only [Function.comp_apply] at heq
    have hclash : ∀ a ∈ db.sequences, ∀ b ∈ db.sequences, a.id = seqId → b.id ≠ seqId →
        patch.name.getD a.name = b.name → a = b := by
      intro a ha b hb haid hbid heq
      cases hpatch : patch.name with
      | none =>
        rw [hpatch] at heq
        exact List.inj_on_of_nodup_map h.names ha hb heq
      | some name =>
        rw [hpatch] at heq
        refine absurd ⟨haid ▸ List.mem_map_of_mem ha, b, hb, hbid, ?_⟩ hname
        rw [hpatch]
        exact congrArg some heq
    by_cases haid : a.id = seqId
    · by_cases hbid : b.id = seqId
      · exact List.inj_on_of_nodup_map h.ids ha hb (haid.trans hbid.symm)
      · rw [if_pos haid, if_neg hbid] at heq
        exact hclash a ha b hb haid hbid heq
    · by_cases hbid : b.id = seqId
      · rw [if_neg haid, if_pos hbid] at heq
        exact (hclash b hb a ha hbid haid heq.symm).symm
      · rw [if_neg haid, if_neg hbid] at heq
        exact List.inj_on_of_nodup_map h.names ha hb heq
  positive := by
    intro row hrow
    rcases Table.mem_modify.mp hrow with ⟨hold, _⟩ | ⟨old, hold, _, rfl⟩
    · exact h.positive row hold
    · exact h.positive old hold

end Table

section Calls

theorem cleared (rows : List Sequence) (seqId : Int) (clear : Bool) : ∃ g, KeepsNames g ∧
    (∀ row, (g row).isDefault = (row.isDefault && (!clear || decide (row.id = seqId)))) ∧
    (if clear then clearOtherDefaults rows seqId else rows) = rows.map g := by
  cases clear with
  | false => exact ⟨id, fun _ => ⟨rfl, rfl⟩, by simp, by simp⟩
  | true =>
    refine ⟨fun seq => if seq.id ≠ seqId then { seq with isDefault := false } else seq, fun row => ?_, fun row => ?_, rfl⟩
    · dsimp only
      split
      · exact ⟨rfl, rfl⟩
      · exact ⟨rfl, rfl⟩
    · by_cases heq : row.id = seqId
      · simp [heq]
      · simp [heq]

theorem touched (rows : List Sequence) (seqId now : Int) : ∃ g, KeepsNames g ∧ (∀ row, (g row).isDefault = row.isDefault) ∧
    Table.modify Sequence.id rows seqId (fun seq => { seq with updatedAt := now }) = rows.map g := by
  refine ⟨fun row => if row.id = seqId then { row with updatedAt := now } else row, fun row => ?_, fun row => ?_, rfl⟩
  · dsimp only
    split
    · exact ⟨rfl, rfl⟩
    · exact ⟨rfl, rfl⟩
  · dsimp only
    split
    · rfl
    · rfl

theorem createSequence_ok {input : SequenceInput} (h : createSequence db now newId input = .ok db') :
    newId ∉ db.sequences.map Sequence.id ∧ input.name ∉ db.sequences.map Sequence.name ∧
    ∃ g, KeepsNames g ∧ (∀ row, (g row).isDefault = (row.isDefault && (!input.isDefault || decide (row.id = newId)))) ∧
      db'.sequences = (db.sequences ++ [input.row now newId]).map g := by
  obtain ⟨g, hkeeps, hflags, hrows⟩ := cleared (db.sequences ++ [input.row now newId]) newId input.isDefault
  unfold createSequence at h
  dsimp only at h
  rw [hrows] at h
  split at h
  · cases h
  · split at h
    · cases h
    · rename_i hid
      split at h
      · cases h
      · rename_i hname
        refine ⟨hid, hname, ?_⟩
        cases hsteps : input.steps with
        | none =>
          rw [hsteps] at h
          cases h
          exact ⟨g, hkeeps, hflags, rfl⟩
        | some steps =>
          rw [hsteps] at h
          cases h
          obtain ⟨touch, htouch, hsame, hmap⟩ := touched ((db.sequences ++ [input.row now newId]).map g) newId now
          refine ⟨touch ∘ g, fun row => ?_, fun row => (hsame _).trans (hflags row), ?_⟩
          · exact ⟨(htouch _).1.trans (hkeeps row).1, (htouch _).2.trans (hkeeps row).2⟩
          · rw [← List.map_map]
            exact hmap

theorem updateSequence_ok {patch : SequencePatch} (h : updateSequence db now seqId patch = .ok db') :
    (patch = {} ∧ db' = db) ∨ (¬ nameTaken db seqId patch.name ∧ ∃ g, KeepsNames g ∧
      (∀ row, (g row).isDefault =
        (row.isDefault && (!decide (patch.isDefault = some true) || decide (row.id = seqId)))) ∧
      db'.sequences = (Table.modify Sequence.id db.sequences seqId (patch.apply now)).map g) := by
  unfold updateSequence at h
  split at h
  · cases h
  · split at h
    · rename_i hempty
      cases h
      exact .inl ⟨hempty, rfl⟩
    · split at h
      · cases h
      · rename_i hname
        cases h
        obtain ⟨g, hkeeps, hflags, hrows⟩ := cleared (Table.modify Sequence.id db.sequences seqId (patch.apply now)) seqId
          (decide (patch.isDefault = some true))
        refine .inr ⟨hname, g, hkeeps, hflags, ?_⟩
        rw [← hrows]
        simp

theorem createSequence_steps {input : SequenceInput} (h : createSequence db now newId input = .ok db') :
    db'.credentials = db.credentials ∧
    ((input.steps = none ∧ db'.steps = db.steps) ∨ ∃ steps, input.steps = some steps ∧ db'.steps =
      (db.steps.filter fun step => step.sequenceId ≠ newId) ++ steps.zipIdx.map fun x => stepRow newId x.2 x.1) := by
  unfold createSequence at h
  dsimp only at h
  split at h
  · cases h
  · split at h
    · cases h
    · split at h
      · cases h
      · cases hsteps : input.steps with
        | none =>
          rw [hsteps] at h
          cases h
          exact ⟨rfl, .inl ⟨rfl, rfl⟩⟩
        | some steps =>
          rw [hsteps] at h
          cases h
          exact ⟨rfl, .inr ⟨steps, rfl, rfl⟩⟩

theorem setSequenceSteps_ok {steps : List StepInput} (h : setSequenceSteps db now seqId steps = .ok db') :
    db' = setSteps db now seqId steps := by
  unfold setSequenceSteps at h
  split at h
  · cases h
  · exact (Except.ok.inj h).symm

theorem duplicateSequence_ok {newName : String} (h : duplicateSequence db now newId seqId newName = .ok db') :
    ∃ input, input.isDefault = false ∧ createSequence db now newId input = .ok db' ∧ input.steps =
      some ((sequenceSteps db seqId).map fun step => ⟨step.stepType, orEmpty step.params, step.enabled⟩) := by
  unfold duplicateSequence at h
  split at h
  · cases h
  · exact ⟨_, rfl, h, rfl⟩

theorem deleteSequence_ok (h : deleteSequence db seqId = .ok db') : db' = { db with
    sequences := Table.delete Sequence.id db.sequences seqId
    steps := db.steps.filter fun step => step.sequenceId ≠ seqId } := by
  unfold deleteSequence at h
  dsimp only at h
  split at h
  · cases h
  · split at h
    · cases h
    · exact (Except.ok.inj h).symm

end Calls

end ProxmoxVEAutopilot.Sequences
