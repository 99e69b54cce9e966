import ProxmoxVEAutopilot.Install.Tracking

/-!
# The summary of the live items

Every call but one brings the summary of the run it writes up to date. `delete_item` leaves
it behind by the deleted item, and nothing but a later refresh of the run makes up for it.
-/

namespace ProxmoxVEAutopilot.Install

open Foundation
set_option autoImplicit false

section Aggregates
variable {db other : Db} {runId : String} {run : InstallRun} {now : Time} {stale : List String}

/-- What the run stores is what its live items give. -/
def Aggregate (db : Db) (run : InstallRun) : Prop :=
  run.summary = some (summary db run.runId) ∧ run.status = statusFromSummary (summary db run.runId)

/-- The run has lost an item since. -/
def Behind (db : Db) (run : InstallRun) : Prop :=
  ∃ data, run.summary = some data ∧ (summary db run.runId).total < data.total

theorem Behind.not_aggregate (h : Behind db run) : ¬ Aggregate db run := by
  rintro ⟨hsummary, _⟩
  obtain ⟨data, hdata, hlt⟩ := h
  rw [hdata] at hsummary
  cases hsummary
  exact absurd hlt (Nat.lt_irrefl _)

def liveItems (db : Db) (runId : String) : List Item :=
  db.items.filter fun i => i.runId = runId ∧ i.deletedAt = none

theorem summary_total : (summary db runId).total = (liveItems db runId).length :=
  (List.perm_insertionSort _ _).length_eq

theorem summary_congr (h : liveItems other runId = liveItems db runId) : summary other runId = summary db runId := by
  have hlist : listRunItems other runId = listRunItems db runId := by
    unfold listRunItems
    rw [show other.items.filter _ = _ from h]
    rfl
  unfold summary
  rw [hlist]

/-- What the ghost list of stale runs says of a live run. -/
def Settled (db : Db) (stale : List String) (run : InstallRun) : Prop :=
  run.runId ∉ stale ∧ Aggregate db run ∨ run.runId ∈ stale ∧ Behind db run

def TrackedBut (skip : String → Prop) (db : Db) (stale : List String) : Prop :=
  ∀ run ∈ db.runs, run.deletedAt = none → ¬ skip run.runId → Settled db stale run

abbrev Tracked (db : Db) (stale : List String) : Prop := TrackedBut (fun _ => False) db stale

theorem Tracked.but (h : Tracked db stale) (skip : String → Prop) : TrackedBut skip db stale :=
  fun run hrun hlive _ => h run hrun hlive id

theorem Settled.congr (h : Settled db stale run)
    (hitems : liveItems other run.runId = liveItems db run.runId) : Settled other stale run := by
  unfold Settled Aggregate Behind at h ⊢
  rw [summary_congr hitems]
  exact h

theorem TrackedBut.refresh (h : TrackedBut (· = runId) db stale) (touch : Bool) :
    Tracked (refreshRunSummary db now runId touch) (stale.filter (· ≠ runId)) := by
  intro run hrun hlive _
  have hitems : liveItems (refreshRunSummary db now runId touch) run.runId = liveItems db run.runId := rfl
  rcases Table.mem_modify.mp hrun with ⟨hold, hne⟩ | ⟨old, _, hkey, rfl⟩
  · rcases (h run hold hlive hne).congr hitems with ⟨hfresh, haggregate⟩ | ⟨hstale, hbehind⟩
    · exact .inl ⟨fun hmem => hfresh (List.mem_filter.mp hmem).1, haggregate⟩
    · exact .inr ⟨List.mem_filter.mpr ⟨hstale, decide_eq_true hne⟩, hbehind⟩
  · refine .inl ⟨fun hmem => ?_, ?_⟩
    · exact of_decide_eq_true (List.mem_filter.mp hmem).2 hkey
    · unfold Aggregate
      dsimp only
      rw [summary_congr hitems, hkey]
      exact ⟨rfl, rfl⟩

theorem TrackedBut.congr {stale' : List String} (h : Tracked db stale) (hsame : ∀ id, id ∈ stale ↔ id ∈ stale') :
    Tracked db stale' := by
  intro run hrun hlive hskip
  have := h run hrun hlive hskip
  unfold Settled at this ⊢
  rwa [hsame] at this

/-- Only the items of one run change. -/
structure TouchesOnly (runId : String) (db other : Db) : Prop where
  runs : other.runs = db.runs
  items : ∀ id, id ≠ runId → liveItems other id = liveItems db id

theorem TouchesOnly.refl (runId : String) (db : Db) : TouchesOnly runId db db := ⟨rfl, fun _ _ => rfl⟩

theorem TouchesOnly.trans {third : Db} (h : TouchesOnly runId db other) (h' : TouchesOnly runId other third) :
    TouchesOnly runId db third :=
  ⟨h'.runs.trans h.runs, fun id hne => (h'.items id hne).trans (h.items id hne)⟩

theorem TrackedBut.touch (h : TrackedBut (· = runId) db stale) (ht : TouchesOnly runId db other) :
    TrackedBut (· = runId) other stale := by
  intro run hrun hlive hskip
  rw [ht.runs] at hrun
  exact (h run hrun hlive hskip).congr (ht.items _ hskip)

end Aggregates

section Items
variable {db : Db} {runId : String}

theorem filter_map_of_fixed {α : Type} {keep : α → Bool} {g : α → α} {l : List α}
    (h : ∀ a ∈ l, keep (g a) = keep a ∧ (keep a = true → g a = a)) : (l.map g).filter keep = l.filter keep := by
  induction l with
  | nil => rfl
  | cons head tail ih =>
    obtain ⟨hsame, hfixed⟩ := h head List.mem_cons_self
    rw [List.map_cons, List.filter_cons, List.filter_cons, hsame, ih fun a ha => h a (List.mem_cons_of_mem _ ha)]
    split
    · rename_i hkeep
      rw [hfixed hkeep]
    · rfl

theorem touchesOnly_map {g : Item → Item} (hkey : ∀ i, (g i).runId = i.runId)
    (hother : ∀ i, i.runId ≠ runId → g i = i) : TouchesOnly runId db { db with items := db.items.map g } where
  runs := rfl
  items := by
    intro id hne
    refine filter_map_of_fixed fun i _ => ?_
    by_cases hid : i.runId = id
    · have hfixed := hother i (fun h => hne (hid.symm.trans h))
      rw [hfixed]
      exact ⟨rfl, fun _ => rfl⟩
    · simp [hkey, hid]

theorem touchesOnly_upsert {new : Item} {merge : Item → Item} (hnew : new.runId = runId)
    (hmerge : ∀ i, (merge i).runId = i.runId) :
    TouchesOnly runId db { db with items := Table.upsert Item.key db.items new merge } := by
  subst hnew
  unfold Table.upsert
  split
  · refine touchesOnly_map (fun i => ?_) fun i hne => ?_
    · split
      · exact hmerge i
      · rfl
    · rw [if_neg fun hkey => hne (congrArg Prod.fst hkey)]
  · refine ⟨rfl, fun id hne => ?_⟩
    unfold liveItems
    rw [List.filter_append, List.filter_singleton]
    simp [hne.symm]

theorem touchesOnly_overwrite {new : Item} (hnew : new.runId = runId) :
    TouchesOnly runId db { db with items := Table.upsert Item.key db.items new (Item.overwrite new) } :=
  touchesOnly_upsert hnew fun _ => rfl

theorem touchesOnly_seedDefaults {now : Time} : TouchesOnly runId db (seedDefaults db now runId) := by
  have hfold : ∀ (seeds : List Seed) (db : Db), TouchesOnly runId db { db with
      items := seeds.foldl (fun items seed => Table.upsert Item.key items (seed.item runId now) id) db.items } := by
    intro seeds
    induction seeds with
    | nil => exact fun db => TouchesOnly.refl runId db
    | cons seed seeds ih =>
      intro db
      have hseed : TouchesOnly runId db { db with items := Table.upsert Item.key db.items (seed.item runId now) id } :=
        touchesOnly_upsert rfl fun _ => rfl
      exact hseed.trans (ih { db with items := Table.upsert Item.key db.items (seed.item runId now) id })
  exact hfold defaultItems db

end Items

section Calls
variable {db : Db} {stale : List String} {now : Time} {runId itemId : String}

theorem tracked_init (h : Tracked db stale) : Tracked (init db now) (stale.filter (· ≠ defaultRunId)) := by
  have hensured : TrackedBut (· = defaultRunId) (ensureDefaultRun db now) stale := by
    intro run hrun hlive hskip
    rcases Table.mem_upsert.mp hrun with ⟨hold, _⟩ | ⟨old, hold, _, rfl⟩ | ⟨_, rfl⟩
    · exact (h run hold hlive id).congr rfl
    · exact (h _ hold hlive id).congr rfl
    · exact absurd rfl hskip
  exact (hensured.touch touchesOnly_seedDefaults).refresh false

/-- The arguments pass the checks of `upsert_item`, and the run exists. -/
def accepts (db : Db) (runId itemId status : String) : Bool :=
  cleanText 120 itemId != "" && (cleanStatus status).isSome && db.runs.any fun run => run.runId = runId

theorem tracked_upsertItem {body : ItemBody} (h : Tracked db stale) :
    Tracked (upsertItem db now runId itemId body)
      (if accepts db runId itemId body.status then stale.filter (· ≠ runId) else stale) := by
  unfold upsertItem accepts
  dsimp only
  by_cases hid : cleanText 120 itemId = ""
  · simpa [hid] using h
  · cases hstatus : cleanStatus body.status with
    | none => simpa [hid] using h
    | some status =>
      cases hrun : db.runs.any fun run => run.runId = runId with
      | false => simpa [hid, hrun] using h
      | true =>
        have hchecks : (cleanText 120 itemId != "" && (some status).isSome && true) = true := by simp [hid]
        rw [if_neg hid, if_pos hchecks]
        refine TrackedBut.refresh (TrackedBut.touch (h.but (· = runId)) ?_) true
        exact touchesOnly_overwrite rfl

theorem tracked_updateItem {status : String} (h : Tracked db stale) :
    Tracked (updateItem db now itemId runId status)
      (if (getItem (init db now) runId itemId).isSome && accepts (init db now) runId itemId status then
        (stale.filter (· ≠ defaultRunId)).filter (· ≠ runId) else stale.filter (· ≠ defaultRunId)) := by
  have hinit : Tracked (init db now) (stale.filter (· ≠ defaultRunId)) := tracked_init h
  unfold updateItem
  dsimp only
  generalize init db now = db at hinit ⊢
  cases getItem db runId itemId with
  | none => exact hinit
  | some existing =>
    rw [Option.isSome_some, Bool.true_and]
    exact tracked_upsertItem hinit

theorem tracked_deleteRun {reason : String} {deletedBy : Option String} (h : Tracked db stale) :
    Tracked (deleteRun db now runId reason deletedBy) (stale.filter (· ≠ defaultRunId)) := by
  have hinit : Tracked (init db now) (stale.filter (· ≠ defaultRunId)) := tracked_init h
  unfold deleteRun
  dsimp only
  generalize init db now = db at hinit ⊢
  cases cleanMark reason deletedBy with
  | none => exact hinit
  | some m =>
    dsimp only
    split
    · intro run hrun hlive _
      obtain ⟨old, hold, rfl⟩ := List.mem_map.mp hrun
      by_cases hgone : old.runId = runId ∧ old.deletedAt = none
      · rw [if_pos hgone] at hlive
        cases hlive
      · rw [if_neg hgone] at hlive ⊢
        have hother : old.runId ≠ runId := fun hid => hgone ⟨hid, hlive⟩
        have htouch : TouchesOnly runId db
            { db with items := db.items.map fun i => if i.runId = runId ∧ i.deletedAt = none then i.mark now m else i } :=
          touchesOnly_map (fun i => by split <;> rfl) fun i hne => if_neg fun hi => hne hi.1
        exact (hinit old hold hlive id).congr (htouch.items _ hother)
    · exact hinit

/-- Up to the item's run an update does to the ghost list what `init` does. -/
theorem exists_tracked_updateItem {status : String} (h : Tracked db stale) :
    ∃ left, Tracked (updateItem db now itemId runId status) left ∧
      ∀ id, id ≠ runId → (id ∈ left ↔ id ∈ stale.filter (· ≠ defaultRunId)) := by
  refine ⟨_, tracked_updateItem h, fun id hne => ?_⟩
  split
  · rw [List.mem_filter]
    exact and_iff_left (decide_eq_true hne)
  · rfl

theorem getItem_eq_some {found : Item} (h : getItem db runId itemId = some found) :
    found ∈ db.items ∧ found.runId = runId ∧ found.itemId = itemId ∧ found.deletedAt = none := by
  unfold getItem at h
  exact ⟨List.mem_of_find?_eq_some h, by simpa using List.find?_some h⟩

/-- The call marks a live item. -/
def removes (db : Db) (runId itemId reason : String) (deletedBy : Option String) : Bool :=
  (cleanMark reason deletedBy).isSome && (getItem db runId itemId).isSome

theorem tracked_deleteItem {reason : String} {deletedBy : Option String} (h : Tracked db stale) :
    Tracked (deleteItem db now runId itemId reason deletedBy)
      (if removes (init db now) runId itemId reason deletedBy then runId :: stale.filter (· ≠ defaultRunId)
        else stale.filter (· ≠ defaultRunId)) := by
  have hinit : Tracked (init db now) (stale.filter (· ≠ defaultRunId)) := tracked_init h
  unfold deleteItem removes
  dsimp only
  generalize init db now = db at hinit ⊢
  generalize stale.filter (· ≠ defaultRunId) = stale at hinit ⊢
  cases cleanMark reason deletedBy with
  | none => exact hinit
  | some m =>
    dsimp only
    set gone : Item → Prop := fun i => i.runId = runId ∧ i.itemId = itemId ∧ i.deletedAt = none with hgone
    set other : Db := { db with items := db.items.map fun i => if gone i then i.mark now m else i } with hother
    have htouch : TouchesOnly runId db other :=
      touchesOnly_map (fun i => by split <;> rfl) fun i hne => if_neg fun hi => hne hi.1
    cases hfound : getItem db runId itemId with
    | none =>
      have hsame : other = db := by
        have hitems : db.items.map (fun i => if gone i then i.mark now m else i) = db.items := by
          conv_rhs => rw [← List.map_id db.items]
          refine List.map_congr_left fun i hi => if_neg fun hg => ?_
          exact List.find?_eq_none.mp hfound i hi (decide_eq_true hg)
        rw [hother, hitems]
      rw [hsame]
      exact hinit
    | some found =>
      have hlost : (summary other runId).total < (summary db runId).total := by
        have hkept : liveItems other runId = (liveItems db runId).filter fun i => i.itemId ≠ itemId := by
          unfold liveItems
          rw [List.filter_filter, hother]
          dsimp only
          generalize db.items = items
          induction items with
          | nil => rfl
          | cons i items ih =>
            rw [List.map_cons, List.filter_cons, List.filter_cons, ih]
            by_cases hi : gone i
            · simp [hi, Item.mark, hi.2.1]
            · rw [if_neg hi]
              congr 1
              simp only [Bool.decide_and, Bool.and_eq_true, decide_eq_true_eq, ne_eq, decide_not, Bool.not_eq_eq_eq_not,
                Bool.not_true, decide_eq_false_iff_not, eq_iff_iff]
              exact ⟨fun hlive => ⟨fun hid => hi ⟨hlive.1, hid, hlive.2⟩, hlive⟩, fun hlive => hlive.2⟩
        obtain ⟨hmem, hid, hitem, hlive⟩ := getItem_eq_some hfound
        rw [summary_total, summary_total, hkept]
        refine List.length_filter_lt_length_iff_exists.mpr ⟨found, ?_, by simpa using hitem⟩
        exact List.mem_filter.mpr ⟨hmem, decide_eq_true ⟨hid, hlive⟩⟩
      rw [Option.isSome_some, Option.isSome_some, Bool.true_and, if_pos rfl]
      intro run hrun hlive _
      by_cases hid : run.runId = runId
      · refine .inr ⟨by rw [hid]; exact List.mem_cons_self, ?_⟩
        rcases hinit run hrun hlive id with ⟨_, hsummary, _⟩ | ⟨_, data, hdata, hlt⟩
        · exact ⟨_, hsummary, by rw [hid]; exact hlost⟩
        · rw [hid] at hlt
          exact ⟨data, hdata, by rw [hid]; exact hlost.trans hlt⟩
      · have hsettled := (hinit run hrun hlive id).congr (htouch.items _ hid)
        unfold Settled at hsettled ⊢
        rwa [List.mem_cons, or_iff_right hid]

theorem tracked_refreshEvidence {evidence : Json} (h : Tracked db stale) :
    Tracked (refreshEvidence db now runId evidence)
      ((stale.filter (· ≠ defaultRunId)).filter (· ≠ runId)) := by
  -- up to the run itself the rounds leave the ghost list as `init` has left it
  have hloop : ∀ (entries : List (String × String)) (db : Db) (marked : List String), Tracked db marked →
      (∀ id, id ≠ runId → (id ∈ marked ↔ id ∈ stale.filter (· ≠ defaultRunId))) →
      ∃ left, Tracked (entries.foldl (applyEvidence now runId evidence) db) left ∧
        ∀ id, id ≠ runId → (id ∈ left ↔ id ∈ stale.filter (· ≠ defaultRunId)) := by
    intro entries
    induction entries with
    | nil => exact fun db marked hdb hmarked => ⟨marked, hdb, hmarked⟩
    | cons entry entries ih =>
      intro db marked hdb hmarked
      rw [List.foldl_cons]
      unfold applyEvidence
      split
      · exact ih db marked hdb hmarked
      · split
        · exact ih db marked hdb hmarked
        · split
          · obtain ⟨left, hleft, hsame⟩ := exists_tracked_updateItem hdb
            refine ih _ left hleft fun id hne => (hsame id hne).trans ?_
            rw [List.mem_filter, hmarked id hne, List.mem_filter, and_assoc, and_self]
          · exact ih db marked hdb hmarked
  obtain ⟨left, hleft, hsame⟩ := hloop evidenceKeys (init db now) _ (tracked_init h) fun _ _ => Iff.rfl
  refine TrackedBut.congr ((hleft.but (· = runId)).refresh true) fun id => ?_
  rw [List.mem_filter, List.mem_filter]
  exact and_congr_left fun hne => hsame id (of_decide_eq_true hne)

end Calls

section History

/-- The live runs that have lost an item since their summary was last brought up to date. -/
def staleAfter (db : Db) (stale : List String) (c : Call × Time) : List String :=
  let fresh := stale.filter (· ≠ defaultRunId)
  let db' := init db c.2
  match c.1 with
  | .upsertItem runId itemId body => if accepts db runId itemId body.status then stale.filter (· ≠ runId) else stale
  | .updateItem itemId runId status =>
    if (getItem db' runId itemId).isSome && accepts db' runId itemId status then fresh.filter (· ≠ runId) else fresh
  | .deleteItem runId itemId reason deletedBy =>
    if removes db' runId itemId reason deletedBy then runId :: fresh else fresh
  | .refreshEvidence runId _ => fresh.filter (· ≠ runId)
  | .deleteRun _ _ _ => fresh
  | .readRuns => fresh

def staleRuns : Db → List String → List (Call × Time) → List String
  | _, stale, [] => stale
  | db, stale, c :: calls => staleRuns (exec db c) (staleAfter db stale c) calls

theorem tracked_exec {db : Db} {stale : List String} (h : Tracked db stale) (c : Call × Time) :
    Tracked (exec db c) (staleAfter db stale c) := by
  obtain ⟨call, now⟩ := c
  unfold exec staleAfter
  cases call with
  | upsertItem runId itemId body => exact tracked_upsertItem h
  | updateItem itemId runId status => exact tracked_updateItem h
  | deleteRun runId reason deletedBy => exact tracked_deleteRun h
  | deleteItem runId itemId reason deletedBy => exact tracked_deleteItem h
  | refreshEvidence runId evidence => exact tracked_refreshEvidence h
  | readRuns => exact tracked_init h

theorem tracked_run {calls : List (Call × Time)} : ∀ {db : Db} {stale : List String}, Tracked db stale →
    Tracked (calls.foldl exec db) (staleRuns db stale calls) := by
  induction calls with
  | nil => exact fun h => h
  | cons c calls ih => exact fun h => ih (tracked_exec h c)

end History

end ProxmoxVEAutopilot.Install
