import ProxmoxVEAutopilot.Foundation.Runs
import ProxmoxVEAutopilot.Migration.Phases
import ProxmoxVEAutopilot.Sequences.Effects

/-!
# The default sequence

The calls that write sequences and the migration, one after another. Each call that makes a
sequence the default clears the others; the migration copies the flags of the legacy rows.
-/

namespace ProxmoxVEAutopilot.Migration

open Foundation Sequences
set_option autoImplicit false

section History

/-- An id from the sequence of a table. -/
abbrev SerialId := { id : Int // 0 < id }

inductive Call where
  | create (newId : SerialId) (input : SequenceInput)
  | update (seqId : Int) (patch : SequencePatch)
  | duplicate (newId : SerialId) (seqId : Int) (newName : String)
  | delete (seqId : Int)
  | migrate (options : Options) (legacy : Legacy)

structure Request where
  call : Call
  now : Int

/-- The database and the ids of the sequences as they were made the default, the last one
first. -/
structure History where
  database : Database := {}
  made : List Int := []

/-- A call that raises changes nothing. -/
def History.after (st : History) (made : List Int) : Except StoreError Store → History
  | .ok store => ⟨{ st.database with toStore := store }, made ++ st.made⟩
  | .error _ => st

/-- The sequences that the migration flags, the last one first. -/
def flagged (legacy : List LegacySequence) (sequenceMap : List (Int × Int)) : List Int :=
  ((legacy.reverse.zip sequenceMap).filter fun x => x.1.isDefault).map fun x => x.2.2

def madeByMigrate (options : Options) (legacy : Legacy) (now : Int) (db : Database) : List Int :=
  match migrateTx options legacy now (initialise now db) with
  | .ok out => flagged legacy.sequences out.sequenceMap
  | .error _ => []

def exec (st : History) (request : Request) : History :=
  let db := st.database
  let now := request.now
  match request.call with
  | .create newId input =>
    st.after (if input.isDefault then [newId.1] else []) (createSequence db.toStore now newId.1 input)
  | .update seqId patch =>
    st.after (if patch.isDefault = some true then [seqId] else []) (updateSequence db.toStore now seqId patch)
  | .duplicate newId seqId newName => st.after [] (duplicateSequence db.toStore now newId.1 seqId newName)
  | .delete seqId => st.after [] (deleteSequence db.toStore seqId)
  | .migrate options legacy => ⟨migrate options legacy now db, madeByMigrate options legacy now db ++ st.made⟩

/-- At most one sequence is the default, and it is found: of those that are still there and
still the default, the one that was made so last. -/
def OneDefault (st : History) : Prop :=
  (st.database.sequences.filter Sequence.isDefault).length ≤ 1 ∧
    getDefaultSequenceId st.database.toStore =
      st.made.find? fun id => ∃ seq ∈ st.database.sequences, seq.id = id ∧ seq.isDefault

/-- A migration leaves the name as the default: the last legacy sequence of that name has the
flag, or there is none and the sequence of that name here has it. -/
def EndsDefault (legacy : List LegacySequence) (rows : List Sequence) (name : String) : Prop :=
  match (legacy.filter fun l => l.name = name).getLast? with
  | some l => l.isDefault = true
  | none => ∃ row ∈ rows, row.name = name ∧ row.isDefault = true

/-- A migration that goes through leaves at most one name as the default. -/
def MergesDefaults (st : History) (request : Request) : Prop :=
  match request.call with
  | .migrate options legacy => Completes options legacy request.now st.database →
      ∀ name name', EndsDefault legacy.sequences st.database.sequences name →
        EndsDefault legacy.sequences st.database.sequences name' → name = name'
  | _ => True

end History

section Single

def Single (rows : List Sequence) : Prop :=
  ∀ a ∈ rows, ∀ b ∈ rows, a.isDefault = true → b.isDefault = true → a.id = b.id

theorem find?_made {rows : List Sequence} {made : List Int} (hsingle : (rows.filter Sequence.isDefault).length ≤ 1)
    (hmade : ∀ row ∈ rows, row.isDefault = true → row.id ∈ made) :
    (rows.find? Sequence.isDefault).map Sequence.id =
      made.find? fun id => ∃ seq ∈ rows, seq.id = id ∧ seq.isDefault = true := by
  cases hfind : rows.find? Sequence.isDefault with
  | none =>
    symm
    rw [Option.map_none, List.find?_eq_none]
    intro i _ hmem
    obtain ⟨seq, hseq, _, hdefault⟩ := of_decide_eq_true hmem
    exact List.find?_eq_none.mp hfind seq hseq hdefault
  | some row =>
    have hrow := List.mem_of_find?_eq_some hfind
    have hdefault : row.isDefault = true := List.find?_some hfind
    have honly : ∀ i, (∃ seq ∈ rows, seq.id = i ∧ seq.isDefault = true) ↔ i = row.id := by
      intro i
      constructor
      · rintro ⟨seq, hseq, rfl, hflag⟩
        obtain ⟨only, honly⟩ : ∃ only, rows.filter Sequence.isDefault = [only] :=
          List.length_eq_one_iff.mp
            (Nat.le_antisymm hsingle (List.length_pos_of_mem (List.mem_filter.mpr ⟨hseq, hflag⟩)))
        have hseqOnly : seq ∈ rows.filter Sequence.isDefault := List.mem_filter.mpr ⟨hseq, hflag⟩
        have hrowOnly : row ∈ rows.filter Sequence.isDefault := List.mem_filter.mpr ⟨hrow, hdefault⟩
        rw [honly, List.mem_singleton] at hseqOnly hrowOnly
        rw [hseqOnly, hrowOnly]
      · rintro rfl
        exact ⟨row, hrow, rfl, hdefault⟩
    simp only [honly, Option.map_some]
    symm
    obtain ⟨i, hi⟩ : ∃ i, made.find? (fun i => decide (i = row.id)) = some i :=
      Option.isSome_iff_exists.mp (List.find?_isSome.mpr ⟨row.id, hmade row hrow hdefault, by simp⟩)
    have heq : i = row.id := by simpa using List.find?_some hi
    rw [hi, heq]

theorem oneDefault_iff {st : History} (htable : SequenceTable st.database.sequences)
    (hmade : ∀ row ∈ st.database.sequences, row.isDefault = true → row.id ∈ st.made) :
    OneDefault st ↔ Single st.database.sequences := by
  have hlength := filter_length_le_one (p := Sequence.isDefault) htable.ids
  exact ⟨fun h => hlength.mp h.1, fun h => ⟨hlength.mpr h, find?_made (hlength.mpr h) hmade⟩⟩

/-- What holds between the calls. -/
structure Sound (st : History) : Prop where
  table : SequenceTable st.database.sequences
  made : ∀ row ∈ st.database.sequences, row.isDefault = true → row.id ∈ st.made
  single : Single st.database.sequences

theorem Sound.oneDefault {st : History} (h : Sound st) : OneDefault st := (oneDefault_iff h.table h.made).mpr h.single

variable {st : History} {store : Store} {made : List Int} {now seqId : Int}

theorem sound_after (h : Sound st) (htable : SequenceTable store.sequences)
    (hflags : (∀ row ∈ store.sequences, row.isDefault = true →
        ∃ old ∈ st.database.sequences, old.isDefault = true ∧ old.id = row.id) ∨
      ∃ i ∈ made, ∀ row ∈ store.sequences, row.isDefault = true → row.id = i) :
    Sound ⟨{ st.database with toStore := store }, made ++ st.made⟩ where
  table := htable
  made := by
    intro row hrow hdefault
    rcases hflags with hold | ⟨i, hi, hnew⟩
    · obtain ⟨old, hmem, hflag, heq⟩ := hold row hrow hdefault
      exact List.mem_append_right _ (heq ▸ h.made old hmem hflag)
    · exact List.mem_append_left _ (hnew row hrow hdefault ▸ hi)
  single := by
    intro a ha b hb hdefault hdefault'
    rcases hflags with hold | ⟨i, _, hnew⟩
    · obtain ⟨old, hmem, hflag, heq⟩ := hold a ha hdefault
      obtain ⟨old', hmem', hflag', heq'⟩ := hold b hb hdefault'
      rw [← heq, ← heq', h.single old hmem old' hmem' hflag hflag']
    · rw [hnew a ha hdefault, hnew b hb hdefault']

theorem sound_create {newId : SerialId} {input : SequenceInput} (h : Sound st)
    (hcreate : createSequence st.database.toStore now newId.1 input = .ok store) :
    Sound ⟨{ st.database with toStore := store }, (if input.isDefault then [newId.1] else []) ++ st.made⟩ := by
  obtain ⟨hid, hname, g, hkeeps, hflags, hrows⟩ := createSequence_ok hcreate
  refine sound_after h ?_ ?_
  · rw [hrows]
    exact table_map hkeeps (table_snoc h.table newId.2 hid hname)
  · cases hdefault : input.isDefault with
    | true =>
      refine .inr ⟨newId.1, by simp, fun row hrow hflag => ?_⟩
      rw [hrows] at hrow
      obtain ⟨old, _, rfl⟩ := List.mem_map.mp hrow
      rw [hflags, hdefault] at hflag
      rw [(hkeeps old).1]
      simpa using (Bool.and_eq_true_iff.mp hflag).2
    | false =>
      refine .inl fun row hrow hflag => ?_
      rw [hrows] at hrow
      obtain ⟨old, hold, rfl⟩ := List.mem_map.mp hrow
      rw [hflags] at hflag
      have holdFlag := (Bool.and_eq_true_iff.mp hflag).1
      rcases List.mem_append.mp hold with hold | hnew
      · exact ⟨old, hold, holdFlag, (hkeeps old).1.symm⟩
      · rw [List.mem_singleton.mp hnew] at holdFlag
        exact absurd (holdFlag.symm.trans hdefault) (by decide)

theorem sound_update {patch : SequencePatch} (h : Sound st)
    (hupdate : updateSequence st.database.toStore now seqId patch = .ok store) :
    Sound ⟨{ st.database with toStore := store }, (if patch.isDefault = some true then [seqId] else []) ++ st.made⟩ := by
  rcases updateSequence_ok hupdate with ⟨rfl, rfl⟩ | ⟨hname, g, hkeeps, hflags, hrows⟩
  · exact h
  · refine sound_after h ?_ ?_
    · rw [hrows]
      exact table_map hkeeps (table_update h.table hname)
    · by_cases hdefault : patch.isDefault = some true
      · refine .inr ⟨seqId, by simp [hdefault], fun row hrow hflag => ?_⟩
        rw [hrows] at hrow
        obtain ⟨old, _, rfl⟩ := List.mem_map.mp hrow
        rw [hflags] at hflag
        rw [(hkeeps old).1]
        simpa [hdefault] using (Bool.and_eq_true_iff.mp hflag).2
      · refine .inl fun row hrow hflag => ?_
        rw [hrows] at hrow
        obtain ⟨patched, hpatched, rfl⟩ := List.mem_map.mp hrow
        rw [hflags] at hflag
        have hpatchedFlag := (Bool.and_eq_true_iff.mp hflag).1
        rw [(hkeeps patched).1]
        rcases Table.mem_modify.mp hpatched with ⟨hold, _⟩ | ⟨old, hold, _, rfl⟩
        · exact ⟨patched, hold, hpatchedFlag, rfl⟩
        · refine ⟨old, hold, ?_, rfl⟩
          cases hflagged : patch.isDefault with
          | none => simpa [SequencePatch.apply, hflagged] using hpatchedFlag
          | some flag =>
            have htrue : flag = true := by simpa [SequencePatch.apply, hflagged] using hpatchedFlag
            exact absurd (htrue ▸ hflagged) hdefault

theorem sound_delete (h : Sound st) (hdelete : deleteSequence st.database.toStore seqId = .ok store) :
    Sound ⟨{ st.database with toStore := store }, [] ++ st.made⟩ := by
  have hrows : store.sequences = Table.delete Sequence.id st.database.sequences seqId :=
    congrArg Store.sequences (deleteSequence_ok hdelete)
  refine sound_after h ?_ (.inl fun row hrow hflag => ?_)
  · rw [hrows]
    exact table_delete h.table
  · rw [hrows] at hrow
    exact ⟨row, (Table.mem_delete.mp hrow).1, hflag, rfl⟩

end Single

section Merged
variable {rows : List Sequence} {legacy : List LegacySequence} {st : Importing Sequence}
  {tagged fresh : List (String × Sequence)} {now : Int}

theorem importerTable (now : Int) (h : SequenceTable rows) : (sequenceImporter now).Table rows :=
  ⟨h.ids, h.names, h.positive⟩

theorem merged_flag (t : String × Sequence) :
    (mergedRow Prod.fst (sequenceImporter now).name (sequenceImporter now).mergeTagged legacy t).2.isDefault =
      ((legacy.filter fun l => l.name = t.1).getLast?).elim t.2.isDefault LegacySequence.isDefault :=
  mergedRow_column (fun t : String × Sequence => t.2.isDefault) fun _ _ => rfl

theorem endsDefault_iff (h : Imports (sequenceImporter now) legacy rows legacy st tagged fresh) (name : String) :
    EndsDefault legacy rows name ↔ ∃ t ∈ tagged, t.1 = name ∧ t.2.isDefault = true := by
  have htagged := h.takes.eq_map mergeTagged_key
  have hkey : ∀ t, (mergedRow Prod.fst (sequenceImporter now).name (sequenceImporter now).mergeTagged legacy t).1 = t.1 :=
    fun t => mergedRow_kept Prod.fst mergeTagged_key
  constructor
  · intro hends
    unfold EndsDefault at hends
    cases hlast : (legacy.filter fun l => l.name = name).getLast? with
    | some l =>
      rw [hlast] at hends
      obtain ⟨hl, hname⟩ := List.mem_filter.mp (List.mem_of_getLast? hlast)
      obtain ⟨t, ht, heq⟩ := List.mem_map.mp (h.takes.covers mergeTagged_key l hl)
      have htname : t.1 = name := heq.trans (of_decide_eq_true hname)
      refine ⟨t, ht, htname, ?_⟩
      rw [htagged] at ht
      obtain ⟨old, _, rfl⟩ := List.mem_map.mp ht
      rw [hkey] at htname
      rw [← htname] at hlast
      rw [merged_flag, hlast]
      exact hends
    | none =>
      rw [hlast] at hends
      obtain ⟨row, hrow, rfl, hdefault⟩ := hends
      have hmem : (row.name, row) ∈ (sequenceImporter now).tag rows := List.mem_map_of_mem hrow
      refine ⟨_, htagged ▸ List.mem_map_of_mem (List.mem_append_left _ hmem), hkey (row.name, row), ?_⟩
      rw [merged_flag]
      dsimp only
      rw [hlast]
      exact hdefault
  · rintro ⟨t, ht, rfl, hdefault⟩
    rw [htagged] at ht
    obtain ⟨old, hold, rfl⟩ := List.mem_map.mp ht
    rw [merged_flag] at hdefault
    rw [hkey]
    unfold EndsDefault
    cases hlast : (legacy.filter fun l => l.name = old.1).getLast? with
    | some l =>
      rw [hlast] at hdefault
      exact hdefault
    | none =>
      rw [hlast] at hdefault
      rcases List.mem_append.mp hold with hrow | hnew
      · obtain ⟨row, hin, rfl⟩ := List.mem_map.mp hrow
        exact ⟨row, hin, rfl, hdefault⟩
      · obtain ⟨⟨l, hl, hname⟩, _⟩ := h.takes.fresh_source mergeTagged_key old hnew
        have hnone := List.getLast?_eq_none_iff.mp hlast
        exact absurd (decide_eq_true hname) (List.filter_eq_nil_iff.mp hnone l hl)

theorem keys_nodup (hrows : SequenceTable rows)
    (h : Imports (sequenceImporter now) legacy rows legacy st tagged fresh) : (tagged.map Prod.fst).Nodup := by
  refine h.takes.nodup_keys mergeTagged_key ?_
  rw [tag_keys]
  exact hrows.names

theorem single_iff (hrows : SequenceTable rows) (h : Imports (sequenceImporter now) legacy rows legacy st tagged fresh) :
    Single st.rows ↔
      ∀ name name', EndsDefault legacy rows name → EndsDefault legacy rows name' → name = name' := by
  have hkeys : (tagged.map Prod.fst).Nodup := keys_nodup hrows h
  have hids : (tagged.map fun t => t.2.id).Nodup := by
    have hrows := h.table.ids
    rw [h.rows, List.map_map] at hrows
    exact hrows
  constructor
  · intro hsingle name name' hname hname'
    obtain ⟨t, ht, rfl, hdefault⟩ := (endsDefault_iff h name).mp hname
    obtain ⟨t', ht', rfl, hdefault'⟩ := (endsDefault_iff h name').mp hname'
    have hid : t.2.id = t'.2.id :=
      hsingle _ (h.rows ▸ List.mem_map_of_mem ht) _ (h.rows ▸ List.mem_map_of_mem ht') hdefault hdefault'
    rw [List.inj_on_of_nodup_map hids ht ht' hid]
  · intro hnames a ha b hb hdefault hdefault'
    rw [h.rows] at ha hb
    obtain ⟨t, ht, rfl⟩ := List.mem_map.mp ha
    obtain ⟨t', ht', rfl⟩ := List.mem_map.mp hb
    have hname : t.1 = t'.1 := hnames _ _ ((endsDefault_iff h _).mpr ⟨t, ht, rfl, hdefault⟩)
      ((endsDefault_iff h _).mpr ⟨t', ht', rfl, hdefault'⟩)
    rw [List.inj_on_of_nodup_map hkeys ht ht' hname]

theorem flagged_of_default (hrows : SequenceTable rows)
    (h : Imports (sequenceImporter now) legacy rows legacy st tagged fresh) {row : Sequence} (hrow : row ∈ st.rows)
    (hdefault : row.isDefault = true) :
    row.id ∈ flagged legacy st.idMap ∨ ∃ old ∈ rows, old.isDefault = true ∧ old.id = row.id := by
  rw [h.rows] at hrow
  obtain ⟨t, ht, rfl⟩ := List.mem_map.mp hrow
  have hkeys : (tagged.map Prod.fst).Nodup := keys_nodup hrows h
  have hends := (endsDefault_iff h t.1).mpr ⟨t, ht, rfl, hdefault⟩
  unfold EndsDefault at hends
  cases hlast : (legacy.filter fun l => l.name = t.1).getLast? with
  | some l =>
    rw [hlast] at hends
    obtain ⟨hl, hname⟩ := List.mem_filter.mp (List.mem_of_getLast? hlast)
    have htarget : (sequenceImporter now).target tagged l.name = t.2.id := by
      unfold Importer.target
      rw [of_decide_eq_true hname, Table.find?_key hkeys ht]
      rfl
    refine .inl ?_
    unfold flagged
    rw [h.idMap, ← List.map_reverse]
    refine List.mem_map.mpr ⟨_, List.mem_filter.mpr ⟨mem_zip_map (List.mem_reverse.mpr hl), hends⟩, ?_⟩
    exact htarget
  | none =>
    rw [hlast] at hends
    obtain ⟨old, hold, hname, hflag⟩ := hends
    refine .inr ⟨old, hold, hflag, ?_⟩
    have hmem : (old.name, old) ∈ (sequenceImporter now).tag rows := List.mem_map_of_mem hold
    have hmerged : mergedRow Prod.fst (sequenceImporter now).name (sequenceImporter now).mergeTagged legacy
        (old.name, old) ∈ tagged := by
      rw [h.takes.eq_map mergeTagged_key]
      exact List.mem_map_of_mem (List.mem_append_left _ hmem)
    have hkey : (mergedRow Prod.fst (sequenceImporter now).name (sequenceImporter now).mergeTagged legacy
        (old.name, old)).1 = t.1 := (mergedRow_kept Prod.fst mergeTagged_key).trans hname
    have hid : (mergedRow Prod.fst (sequenceImporter now).name (sequenceImporter now).mergeTagged legacy
        (old.name, old)).2.id = old.id := mergedRow_kept (fun t : String × Sequence => t.2.id) fun _ _ => rfl
    rw [← hid, List.inj_on_of_nodup_map hkeys hmerged ht hkey]

end Merged

section Runs
variable {st : History} {made : List Int}

theorem sound_after_or {result : Except StoreError Store} (h : Sound st)
    (hok : ∀ store, result = .ok store → Sound ⟨{ st.database with toStore := store }, made ++ st.made⟩) :
    Sound (st.after made result) := by
  cases result with
  | error e => exact h
  | ok store => exact hok store rfl

theorem migrate_exec (h : Sound st) (options : Options) (legacy : Legacy) (now : Int) :
    SequenceTable (exec st ⟨.migrate options legacy, now⟩).database.sequences ∧
    (∀ row ∈ (exec st ⟨.migrate options legacy, now⟩).database.sequences, row.isDefault = true →
      row.id ∈ (exec st ⟨.migrate options legacy, now⟩).made) ∧
    (Single (exec st ⟨.migrate options legacy, now⟩).database.sequences ↔
      MergesDefaults st ⟨.migrate options legacy, now⟩) := by
  unfold exec MergesDefaults Completes madeByMigrate migrate
  dsimp only
  cases htx : migrateTx options legacy now (initialise now st.database) with
  | error e => exact ⟨h.table, h.made, fun _ ⟨out, hout⟩ => absurd hout (by simp), fun _ => h.single⟩
  | ok out =>
    obtain ⟨parts, hphases, _, hmap, _⟩ := migrateTx_ok htx
    obtain ⟨tagged, fresh, himports⟩ :=
      importRows_ok (sequenceImporter_lawful now) (importerTable now h.table) hphases.sequences
    dsimp only
    rw [hphases.sequenceRows, hmap]
    refine ⟨⟨himports.table.ids, himports.table.names, himports.table.positive⟩, ?_, ?_⟩
    · intro row hrow hdefault
      rcases flagged_of_default h.table himports hrow hdefault with hflagged | ⟨old, hold, hflag, hid⟩
      · exact List.mem_append_left _ hflagged
      · exact List.mem_append_right _ (hid ▸ h.made old hold hflag)
    · rw [single_iff h.table himports]
      exact ⟨fun hnames _ => hnames, fun hnames => hnames ⟨out, rfl⟩⟩

theorem exec_call (h : Sound st) {request : Request} (hcall : ∀ options legacy, request.call ≠ .migrate options legacy) :
    Sound (exec st request) := by
  obtain ⟨call, now⟩ := request
  cases call with
  | create newId input => exact sound_after_or h fun store hstore => sound_create h hstore
  | update seqId patch => exact sound_after_or h fun store hstore => sound_update h hstore
  | duplicate newId seqId newName =>
    refine sound_after_or h fun store hstore => ?_
    obtain ⟨input, hdefault, hcreate, _⟩ := duplicateSequence_ok hstore
    have hsound := sound_create h hcreate
    rw [hdefault] at hsound
    exact hsound
  | delete seqId => exact sound_after_or h fun store hstore => sound_delete h hstore
  | migrate options legacy => exact absurd rfl (hcall options legacy)

theorem oneDefault_exec_iff (h : Sound st) (request : Request) :
    OneDefault (exec st request) ↔ MergesDefaults st request := by
  obtain ⟨call, now⟩ := request
  cases call with
  | migrate options legacy =>
    obtain ⟨htable, hmade, hsingle⟩ := migrate_exec h options legacy now
    rw [oneDefault_iff htable hmade, hsingle]
  | _ =>
    refine iff_of_true (exec_call h ?_).oneDefault trivial
    intro _ _ hcall
    cases hcall

theorem sound_exec (h : Sound st) {request : Request} (hmerges : MergesDefaults st request) :
    Sound (exec st request) := by
  obtain ⟨call, now⟩ := request
  cases call with
  | migrate options legacy =>
    obtain ⟨htable, hmade, hsingle⟩ := migrate_exec h options legacy now
    exact ⟨htable, hmade, hsingle.mpr hmerges⟩
  | _ =>
    refine exec_call h ?_
    intro _ _ hcall
    cases hcall

theorem sound_empty : Sound {} where
  table := ⟨List.nodup_nil, List.nodup_nil, fun _ hrow => by cases hrow⟩
  made := fun _ hrow => by cases hrow
  single := fun _ ha => by cases ha

/-- In every state of a history there is at most one default, the one made last, exactly if each
migration leaves at most one name as the default. -/
theorem one_default_iff (requests : List Request) :
    (∀ done, done <+: requests → OneDefault (done.foldl exec {})) ↔ Replays MergesDefaults exec {} requests := by
  have halong : Along (fun _ st => OneDefault st) exec {} requests ↔ Replays MergesDefaults exec {} requests :=
    along_iff_replays (fun st h => Sound.oneDefault h) (fun _ _ _ _ hlast => hlast)
      (fun st request h => oneDefault_exec_iff h request) (fun st request h hmerges => sound_exec h hmerges) sound_empty
  rw [← halong]
  constructor
  · exact fun h js ks hjs => h (js ++ ks) hjs
  · exact fun h done hdone => h [] done hdone

def twoDefaults : List Request :=
  [⟨.create ⟨1, by decide⟩ { name := "ubuntu", description := "", isDefault := true }, 1⟩,
    ⟨.migrate {} { sequences := [⟨1, "windows", none, true, false, none, none, some 1, some 1⟩] }, 2⟩]

theorem migrate_adds_default : ¬ OneDefault (twoDefaults.foldl exec {}) := by
  unfold OneDefault
  decide +kernel

end Runs

end ProxmoxVEAutopilot.Migration
