import ProxmoxVEAutopilot.Foundation.Table
import ProxmoxVEAutopilot.Install.LiveItems

/-!
# Deleted rows stay hidden

Nothing takes the mark of a deleted row away, and all readers but one skip marked rows:
`default_run` takes the first run of its order, deleted or not. With the stored summaries
this gives the histories after which the readers show what they should.
-/

namespace ProxmoxVEAutopilot.Install

open Foundation
set_option autoImplicit false

def RunGone (db : Db) (runId : String) : Prop :=
  Table.Gone InstallRun.runId (fun run => run.deletedAt.isSome) db.runs runId

def ItemGone (db : Db) (key : String × String) : Prop :=
  Table.Gone Item.key (fun i => i.deletedAt.isSome) db.items key

/-- The primary keys of the two tables. -/
structure Keyed (db : Db) : Prop where
  runs : (db.runs.map InstallRun.runId).Nodup
  items : (db.items.map Item.key).Nodup

/-- What every statement keeps. -/
structure Keeps (db other : Db) : Prop where
  runs : ∀ runId, RunGone db runId → RunGone other runId
  items : ∀ key, ItemGone db key → ItemGone other key
  keyed : Keyed db → Keyed other

section Statements
variable {db other third : Db} {now : Time} {runId itemId : String}

theorem Keeps.refl (db : Db) : Keeps db db := ⟨fun _ h => h, fun _ h => h, id⟩

theorem Keeps.trans (h : Keeps db other) (h' : Keeps other third) : Keeps db third :=
  ⟨fun _ hr => h'.runs _ (h.runs _ hr), fun _ hi => h'.items _ (h.items _ hi), fun hk => h'.keyed (h.keyed hk)⟩

theorem keeps_refreshRunSummary {touch : Bool} : Keeps db (refreshRunSummary db now runId touch) where
  runs := fun _ h => h.modify (fun _ => rfl) fun _ hr => hr
  items := fun _ h => h
  keyed := fun h => ⟨Table.nodup_modify h.runs fun _ => rfl, h.items⟩

theorem keeps_ensureDefaultRun : Keeps db (ensureDefaultRun db now) where
  runs := fun _ h => h.upsert (fun _ => rfl) fun _ hr => hr
  items := fun _ h => h
  keyed := fun h => ⟨Table.nodup_upsert h.runs fun _ => rfl, h.items⟩

theorem keeps_upsert {new : Item} {merge : Item → Item} (hkey : ∀ i, (merge i).key = i.key)
    (hmark : ∀ i, (merge i).deletedAt = i.deletedAt) :
    Keeps db { db with items := Table.upsert Item.key db.items new merge } where
  runs := fun _ h => h
  items := fun _ h => h.upsert hkey fun i hi => by rw [hmark]; exact hi
  keyed := fun h => ⟨h.runs, Table.nodup_upsert h.items hkey⟩

theorem keeps_overwrite {new : Item} :
    Keeps db { db with items := Table.upsert Item.key db.items new (Item.overwrite new) } :=
  keeps_upsert (fun _ => rfl) fun _ => rfl

theorem keeps_seedDefaults : Keeps db (seedDefaults db now runId) := by
  have hfold : ∀ (seeds : List Seed) (db : Db), Keeps db { db with
      items := seeds.foldl (fun items seed => Table.upsert Item.key items (seed.item runId now) id) db.items } := by
    intro seeds
    induction seeds with
    | nil => exact fun db => Keeps.refl db
    | cons seed seeds ih =>
      intro db
      have hseed : Keeps db { db with items := Table.upsert Item.key db.items (seed.item runId now) id } :=
        keeps_upsert (fun _ => rfl) fun _ => rfl
      exact hseed.trans (ih { db with items := Table.upsert Item.key db.items (seed.item runId now) id })
  exact hfold defaultItems db

theorem keeps_init : Keeps db (init db now) :=
  (keeps_ensureDefaultRun.trans keeps_seedDefaults).trans keeps_refreshRunSummary

theorem keeps_upsertItem {body : ItemBody} : Keeps db (upsertItem db now runId itemId body) := by
  unfold upsertItem
  dsimp only
  split
  · exact Keeps.refl db
  · split
    · exact Keeps.refl db
    · split
      · refine Keeps.trans ?_ keeps_refreshRunSummary
        exact keeps_overwrite
      · exact Keeps.refl db

theorem keeps_updateItem {status : String} : Keeps db (updateItem db now itemId runId status) := by
  have hinit : Keeps db (init db now) := keeps_init
  refine hinit.trans ?_
  unfold updateItem
  dsimp only
  split
  · exact Keeps.refl _
  · exact keeps_upsertItem

theorem keeps_deleteRun {reason : String} {deletedBy : Option String} :
    Keeps db (deleteRun db now runId reason deletedBy) := by
  have hinit : Keeps db (init db now) := keeps_init
  refine hinit.trans ?_
  unfold deleteRun
  dsimp only
  generalize init db now = db
  split
  · exact Keeps.refl db
  · rename_i m _
    split
    · have hrun : ∀ run : InstallRun, (if run.runId = runId ∧ run.deletedAt = none then run.mark now m else run).runId =
          run.runId := fun run => by split <;> rfl
      have hitem : ∀ i : Item, (if i.runId = runId ∧ i.deletedAt = none then i.mark now m else i).key = i.key :=
        fun i => by split <;> rfl
      refine ⟨fun _ h => h.map hrun fun run hgone => ?_, fun _ h => h.map hitem fun i hgone => ?_, fun h => ⟨?_, ?_⟩⟩
      · split
        · rfl
        · exact hgone
      · split
        · rfl
        · exact hgone
      · exact Table.nodup_map h.runs hrun
      · exact Table.nodup_map h.items hitem
    · exact Keeps.refl db

theorem keeps_deleteItem {reason : String} {deletedBy : Option String} :
    Keeps db (deleteItem db now runId itemId reason deletedBy) := by
  have hinit : Keeps db (init db now) := keeps_init
  refine hinit.trans ?_
  unfold deleteItem
  dsimp only
  generalize init db now = db
  split
  · exact Keeps.refl db
  · rename_i m _
    have hitem : ∀ i : Item,
        (if i.runId = runId ∧ i.itemId = itemId ∧ i.deletedAt = none then i.mark now m else i).key = i.key :=
      fun i => by split <;> rfl
    refine ⟨fun _ h => h, fun _ h => h.map hitem fun i hgone => ?_, fun h => ⟨h.runs, ?_⟩⟩
    · split
      · rfl
      · exact hgone
    · exact Table.nodup_map h.items hitem

theorem keeps_refreshEvidence {evidence : Json} : Keeps db (refreshEvidence db now runId evidence) := by
  have hloop : ∀ (entries : List (String × String)) (db : Db),
      Keeps db (entries.foldl (applyEvidence now runId evidence) db) := by
    intro entries
    induction entries with
    | nil => exact fun db => Keeps.refl db
    | cons entry entries ih =>
      intro db
      refine Keeps.trans ?_ (ih _)
      unfold applyEvidence
      split
      · exact Keeps.refl db
      · split
        · exact Keeps.refl db
        · split
          · exact keeps_updateItem
          · exact Keeps.refl db
  have hinit : Keeps db (init db now) := keeps_init
  exact (hinit.trans (hloop evidenceKeys _)).trans keeps_refreshRunSummary

theorem keeps_exec (c : Call × Time) : Keeps db (exec db c) := by
  obtain ⟨call, now⟩ := c
  unfold exec
  cases call with
  | upsertItem runId itemId body => exact keeps_upsertItem
  | updateItem itemId runId status => exact keeps_updateItem
  | deleteRun runId reason deletedBy => exact keeps_deleteRun
  | deleteItem runId itemId reason deletedBy => exact keeps_deleteItem
  | refreshEvidence runId evidence => exact keeps_refreshEvidence
  | readRuns => exact keeps_init

theorem keeps_run {calls : List (Call × Time)} : ∀ {db : Db}, Keeps db (calls.foldl exec db) := by
  induction calls with
  | nil => exact fun {db} => Keeps.refl db
  | cons c calls ih => exact fun {db} => (keeps_exec c).trans ih

end Statements

section Readers
variable {db : Db} {now : Time} {runId itemId : String}

theorem ItemGone.hidden (h : ItemGone db (runId, itemId)) :
    getItem db runId itemId = none ∧ ∀ i ∈ listRunItems db runId, i.itemId ≠ itemId := by
  constructor
  · refine List.find?_eq_none.mpr fun i hi => ?_
    rw [decide_eq_true_eq]
    rintro ⟨hrun, hitem, hlive⟩
    have hgone : i.deletedAt.isSome = true := h.2 i hi (by rw [Item.key, hrun, hitem])
    rw [hlive] at hgone
    cases hgone
  · intro i hi hitem
    obtain ⟨hmem, hkeep⟩ := List.mem_filter.mp ((List.mem_insertionSort _).mp hi)
    obtain ⟨hrun, hlive⟩ := of_decide_eq_true hkeep
    have hgone : i.deletedAt.isSome = true := h.2 i hmem (by rw [Item.key, hrun, hitem])
    rw [hlive] at hgone
    cases hgone

theorem RunGone.getRun (h : RunGone db runId) : getRun db now runId = none := by
  have hinit : Keeps db (init db now) := keeps_init
  refine List.find?_eq_none.mpr fun run hrun => ?_
  rw [decide_eq_true_eq]
  rintro ⟨hid, hlive⟩
  have hgone : run.deletedAt.isSome = true := (hinit.runs runId h).2 run hrun hid
  rw [hlive] at hgone
  cases hgone

theorem deleted_of_init {run : InstallRun} (hrun : run ∈ (init db now).runs) (hgone : run.deletedAt.isSome = true) :
    ∃ old ∈ db.runs, old.runId = run.runId ∧ old.deletedAt.isSome = true := by
  have hensured : ∃ old ∈ (ensureDefaultRun db now).runs, old.runId = run.runId ∧ old.deletedAt.isSome = true := by
    rcases Table.mem_modify.mp hrun with ⟨hold, _⟩ | ⟨old, hold, _, rfl⟩
    · exact ⟨run, hold, rfl, hgone⟩
    · exact ⟨old, hold, rfl, hgone⟩
  obtain ⟨old, hold, hid, hgone⟩ := hensured
  rcases Table.mem_upsert.mp hold with ⟨hold, _⟩ | ⟨kept, hkept, _, rfl⟩ | ⟨_, rfl⟩
  · exact ⟨old, hold, hid, hgone⟩
  · exact ⟨_, hkept, hid, hgone⟩
  · cases hgone

theorem init_of_seeded (now : Time) (hrun : defaultRunId ∈ db.runs.map InstallRun.runId)
    (hitems : ∀ seed ∈ defaultItems, (defaultRunId, seed.itemId) ∈ db.items.map Item.key) :
    init db now = refreshRunSummary db now defaultRunId false := by
  have hseeds : ∀ seeds ⊆ defaultItems,
      seeds.foldl (fun items seed => Table.upsert Item.key items (seed.item defaultRunId now) id) db.items = db.items := by
    intro seeds
    induction seeds with
    | nil => exact fun _ => rfl
    | cons seed seeds ih =>
      intro hsub
      rw [List.foldl_cons, Table.upsert_id (hitems seed (hsub List.mem_cons_self))]
      exact ih fun s hs => hsub (List.mem_cons_of_mem _ hs)
  unfold init seedDefaults ensureDefaultRun
  dsimp only
  rw [Table.upsert_id hrun, hseeds _ (List.Subset.refl _)]

theorem mem_defaultRuns {run : InstallRun} : run ∈ defaultRuns db now ↔
    run ∈ (init db now).runs ∧ ∀ other ∈ (init db now).runs, ¬ orderKey other < orderKey run := by
  unfold defaultRuns
  simp

/-- Before each deleted run there is a live one in the order of `default_run`. -/
def LiveFirst (db : Db) (now : Time) : Prop :=
  ∀ gone ∈ (init db now).runs, gone.deletedAt.isSome = true →
    ∃ run ∈ (init db now).runs, run.deletedAt = none ∧ orderKey run < orderKey gone

theorem exists_defaultRun {run : InstallRun} (hrun : run ∈ (init db now).runs) :
    ∃ first ∈ defaultRuns db now, orderKey first ≤ orderKey run := by
  obtain ⟨first, hfirst, hleast⟩ := Set.exists_min_image {r | r ∈ (init db now).runs} orderKey
    (List.finite_toSet _) ⟨run, hrun⟩
  exact ⟨first, mem_defaultRuns.mpr ⟨hfirst, fun other hother => not_lt_of_ge (hleast other hother)⟩, hleast run hrun⟩

theorem liveFirst_iff (hkeyed : Keyed db) :
    LiveFirst db now ↔ ∀ runId, RunGone db runId → ∀ run ∈ defaultRuns db now, run.runId ≠ runId := by
  have hinit : Keeps db (init db now) := keeps_init
  constructor
  · intro h runId hgone run hrun hid
    obtain ⟨hmem, hleast⟩ := mem_defaultRuns.mp hrun
    obtain ⟨other, hother, _, hlt⟩ := h run hmem ((hinit.runs runId hgone).2 run hmem hid)
    exact hleast other hother hlt
  · intro h gone hmem hgone
    have hhidden : ∀ run ∈ (init db now).runs, run.deletedAt.isSome = true → run ∉ defaultRuns db now := by
      intro run hrun hdeleted hdefault
      obtain ⟨old, hold, hid, hdeleted⟩ := deleted_of_init hrun hdeleted
      exact h old.runId (Table.gone_of_nodup hkeyed.runs hold hdeleted) run hdefault hid.symm
    obtain ⟨first, hfirst, hle⟩ := exists_defaultRun hmem
    obtain ⟨hfirstMem, hleast⟩ := mem_defaultRuns.mp hfirst
    refine ⟨first, hfirstMem, ?_, lt_of_le_of_ne hle fun heq => ?_⟩
    · by_contra hdeleted
      exact hhidden first hfirstMem (Option.isSome_iff_ne_none.mpr hdeleted) hfirst
    · refine hhidden gone hmem hgone (mem_defaultRuns.mpr ⟨hmem, fun other hother hlt => ?_⟩)
      rw [← heq] at hlt
      exact hleast other hother hlt

end Readers

section Shown
variable {db : Db} {calls : List (Call × Time)}

/-- Live runs store their aggregate, and what a call has deleted stays out of sight. -/
structure ShownRight (db : Db) (calls : List (Call × Time)) : Prop where
  aggregate : ∀ run ∈ (calls.foldl exec db).runs, run.deletedAt = none → Aggregate (calls.foldl exec db) run
  items : ∀ before after runId itemId, calls = before ++ after → ItemGone (before.foldl exec db) (runId, itemId) →
    getItem (calls.foldl exec db) runId itemId = none ∧
      ∀ i ∈ listRunItems (calls.foldl exec db) runId, i.itemId ≠ itemId
  runs : ∀ before after runId, calls = before ++ after → RunGone (before.foldl exec db) runId →
    ∀ now, getRun (calls.foldl exec db) now runId = none ∧
      ∀ run ∈ defaultRuns (calls.foldl exec db) now, run.runId ≠ runId

/-- A database before the first call. -/
structure Opening (db : Db) : Prop where
  keyed : Keyed db
  aggregate : ∀ run ∈ db.runs, run.deletedAt = none → Aggregate db run

theorem Opening.tracked (h : Opening db) : Tracked db [] :=
  fun run hrun hlive _ => .inl ⟨List.not_mem_nil, h.aggregate run hrun hlive⟩

theorem Tracked.aggregate_iff {stale : List String} (h : Tracked db stale) {run : InstallRun} (hrun : run ∈ db.runs)
    (hlive : run.deletedAt = none) : Aggregate db run ↔ run.runId ∉ stale := by
  rcases h run hrun hlive id with ⟨hfresh, haggregate⟩ | ⟨hstale, hbehind⟩
  · exact iff_of_true haggregate hfresh
  · exact iff_of_false hbehind.not_aggregate fun hfresh => hfresh hstale

/-- The readers show what they should after a history exactly if no live run has lost an item
since its summary was brought up to date, and `default_run` has a live run before each
deleted one. -/
theorem shown_right_iff (hopening : Opening db) : ShownRight db calls ↔
    (∀ run ∈ (calls.foldl exec db).runs, run.deletedAt = none → run.runId ∉ staleRuns db [] calls) ∧
      ∀ now, LiveFirst (calls.foldl exec db) now := by
  have htracked : Tracked (calls.foldl exec db) (staleRuns db [] calls) := tracked_run hopening.tracked
  have hkeyed : Keyed (calls.foldl exec db) := keeps_run.keyed hopening.keyed
  constructor
  · intro h
    refine ⟨fun run hrun hlive => (htracked.aggregate_iff hrun hlive).mp (h.aggregate run hrun hlive), fun now => ?_⟩
    refine (liveFirst_iff hkeyed).mpr fun runId hgone => ?_
    exact (h.runs calls [] runId (List.append_nil calls).symm hgone now).2
  · intro h
    obtain ⟨hfresh, hfirst⟩ := h
    refine ⟨fun run hrun hlive => (htracked.aggregate_iff hrun hlive).mpr (hfresh run hrun hlive), ?_, ?_⟩
    · rintro before after runId itemId rfl hgone
      have hlater : ItemGone ((before ++ after).foldl exec db) (runId, itemId) := by
        rw [List.foldl_append]
        exact keeps_run.items _ hgone
      exact hlater.hidden
    · rintro before after runId rfl hgone now
      have hlater : RunGone ((before ++ after).foldl exec db) runId := by
        rw [List.foldl_append]
        exact keeps_run.runs _ hgone
      exact ⟨hlater.getRun, (liveFirst_iff hkeyed).mp (hfirst now) runId hlater⟩

end Shown

instance (db : Db) (run : InstallRun) : Decidable (Aggregate db run) := inferInstanceAs (Decidable (_ ∧ _))

def doneItem : Item where
  runId := "lab"
  itemId := "agent"
  category := "Lab"
  label := "Agent answers"
  status := .ready
  sortOrder := 10
  createdAt := 1
  updatedAt := 2

def labDb : Db where
  runs := [{ runId := "lab", status := .ready, createdAt := 1, updatedAt := 2
             summary := some (summary ⟨[], [doneItem]⟩ "lab") }]
  items := [doneItem]

def labDeleted : List (Call × Time) := [(.deleteRun "lab" "done" none, 5)]

theorem opening_lab : Opening labDb :=
  ⟨⟨by decide +kernel, by decide +kernel⟩, by decide +kernel⟩

theorem runs_init_lab (now : Time) : (init (labDeleted.foldl exec labDb) now).runs = (labDeleted.foldl exec labDb).runs := by
  have hstatus : statusFromSummary (summary (labDeleted.foldl exec labDb) defaultRunId) = .running := by decide +kernel
  rw [init_of_seeded now (by decide +kernel) (by decide +kernel)]
  unfold refreshRunSummary
  simp only [hstatus, reduceCtorEq, Bool.false_eq_true, if_false]
  decide +kernel

/-- The default run stays in sight and the deleted run does not come back. -/
theorem shown_right_lab : (∃ run ∈ (labDeleted.foldl exec labDb).runs, run.deletedAt.isSome = true) ∧
    (∃ run ∈ (labDeleted.foldl exec labDb).runs, run.deletedAt = none) ∧ ShownRight labDb labDeleted := by
  refine ⟨by decide +kernel, by decide +kernel, (shown_right_iff opening_lab).mpr ⟨by decide +kernel, fun now => ?_⟩⟩
  unfold LiveFirst
  rw [runs_init_lab]
  decide +kernel

def emptyDb : Db where
  runs := []
  items := []

theorem opening_empty : Opening emptyDb :=
  ⟨⟨List.nodup_nil, List.nodup_nil⟩, fun _ hrun => absurd hrun List.not_mem_nil⟩

def itemDeleted : List (Call × Time) := [(.deleteItem defaultRunId "pve-foundation" "done" none, 1)]

def runDeleted : List (Call × Time) := [(.deleteRun defaultRunId "done" none, 1)]

/-- A deleted item stays in the summary, and a deleted run is the default run. -/
theorem deleted_rows_show : ¬ ShownRight emptyDb itemDeleted ∧ ¬ ShownRight emptyDb runDeleted := by
  constructor
  · intro h
    have hstale : ∃ run ∈ (itemDeleted.foldl exec emptyDb).runs, run.deletedAt = none ∧
        ¬ Aggregate (itemDeleted.foldl exec emptyDb) run := by decide +kernel
    obtain ⟨run, hrun, hlive, hstale⟩ := hstale
    exact hstale (h.aggregate run hrun hlive)
  · intro h
    have hgone : ∃ run ∈ (runDeleted.foldl exec emptyDb).runs, run.deletedAt.isSome = true ∧ run.runId = defaultRunId := by
      decide +kernel
    obtain ⟨run, hrun, hgone, hid⟩ := hgone
    have hkeyed : Keyed (runDeleted.foldl exec emptyDb) := keeps_run.keyed opening_empty.keyed
    have hdefault : ∃ run ∈ defaultRuns (runDeleted.foldl exec emptyDb) 2, run.runId = defaultRunId := by
      decide +kernel
    obtain ⟨shown, hshown, hshownId⟩ := hdefault
    have hrunGone : RunGone (runDeleted.foldl exec emptyDb) run.runId := Table.gone_of_nodup hkeyed.runs hrun hgone
    rw [hid] at hrunGone
    exact (h.runs runDeleted [] defaultRunId (List.append_nil _).symm hrunGone 2).2 shown hshown hshownId

end ProxmoxVEAutopilot.Install
