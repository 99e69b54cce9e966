import ProxmoxVEAutopilot.OsDeploy.RoleOptions

/-!
# What a failed lab bundle leaves behind

The bundle's row is committed together with the sequence of its first child. From there on
an exception leaves it behind, with all that the children before have got.
-/

namespace ProxmoxVEAutopilot.OsDeploy.Creation

open Foundation TsEngine
open Foundation.Transaction (read write commit Along)

set_option autoImplicit false

attribute [local irreducible] normalizeWindowsComputerName

/-- No bundle, bundle child, OSDeploy run, sequence or engine run that was not there before. -/
structure NothingNew {δ : Type} (db db' : Db δ) : Prop where
  bundles : ∀ b ∈ db'.bundles, b.id ∈ db.bundles.map BundleRow.id
  bundleChildren : ∀ c ∈ db'.bundleChildren, c.id ∈ db.bundleChildren.map BundleChildRow.id
  runs : ∀ r ∈ db'.runs, r.runId ∈ db.runs.map OsdeployRunRow.runId
  sequences : ∀ s ∈ db'.sequences, s.id ∈ db.sequences.map SequenceRow.id
  engineRuns : ∀ r ∈ db'.engineRuns, r.id ∈ db.engineRuns.map EngineRunRow.id

theorem NothingNew.refl {δ : Type} (db : Db δ) : NothingNew db db :=
  ⟨fun _ h => List.mem_map_of_mem h, fun _ h => List.mem_map_of_mem h, fun _ h => List.mem_map_of_mem h,
    fun _ h => List.mem_map_of_mem h, fun _ h => List.mem_map_of_mem h⟩

section Fresh
variable {δ : Type} {db : Db δ} {id : Uuid}

theorem lt_newId (h : id ∈ db.ids) : id < db.newId := by
  unfold Db.newId
  generalize db.ids = ids at h
  induction ids with
  | nil => cases h
  | cons x ids ih =>
    simp only [List.foldr_cons]
    rcases List.mem_cons.mp h with rfl | h
    · exact Nat.lt_succ_of_le (le_max_left _ _)
    · exact (ih h).trans_le (Nat.succ_le_succ (le_max_right _ _))

theorem newId_not_mem (db : Db δ) : db.newId ∉ db.ids := fun h => lt_irrefl _ (lt_newId h)

end Fresh

/-! ### Every statement adds -/

section Along
variable {δ : Type}

/-- The relations that all statements of the call respect: bundles and artifacts stay. -/
structure Kept (db db' : Db δ) : Prop where
  bundles : ∀ b ∈ db.bundles, b ∈ db'.bundles
  artifacts : db'.artifacts = db.artifacts

theorem Kept.refl (db : Db δ) : Kept db db := ⟨fun _ h => h, rfl⟩

theorem Kept.trans {a b c : Db δ} (h : Kept a b) (h' : Kept b c) : Kept a c :=
  ⟨fun x hx => h'.bundles x (h.bundles x hx), h'.artifacts.trans h.artifacts⟩

theorem along_insert {row : Uuid → Db δ → Db δ} (h : ∀ id db, Kept db (row id db)) :
    (insert row).Along Kept := by
  refine ⟨fun s b t hst => ?_, fun _ => trivial⟩
  cases hst
  exact h _ _

theorem along_store {change : Db δ → Db δ} (h : ∀ db, Kept db (change db)) : (store change).Along Kept := by
  refine ⟨fun s b t hst => ?_, fun _ => trivial⟩
  cases hst
  exact h _

theorem along_commit : (commit : Work δ Unit).Along Kept := trivial

theorem along_read {β : Type} (f : Db δ → β) : (read f : Work δ β).Along Kept := fun _ => trivial

theorem along_raise {α : Type} (e : CreationError) : (Transaction.raise e : Work δ α).Along Kept := trivial

theorem along_pure {α : Type} (a : α) : (pure a : Work δ α).Along Kept := trivial

theorem along_addNodes (sequenceId : Uuid) (nodes : List Node) : (addNodes sequenceId nodes : Work δ Unit).Along Kept := by
  induction nodes with
  | nil => exact along_pure ()
  | cons node nodes ih =>
    refine .bind (.bind (along_insert fun _ _ => ⟨fun _ h => h, rfl⟩) fun _ => along_commit) fun _ => ih

theorem along_compileSequence [DecidableEq δ] (hash : List Node → δ) (sequenceId : Uuid) : (compileSequence hash sequenceId).Along Kept := by
  refine .bind (along_read _) fun nodes => .bind (along_read _) fun existing => ?_
  cases existing with
  | some version => exact along_pure _
  | none =>
    refine .bind (along_read _) fun next => .bind (along_insert fun _ _ => ⟨fun _ h => h, rfl⟩) fun versionId => ?_
    exact .bind (along_store fun _ => ⟨fun _ h => h, rfl⟩) fun _ => .bind along_commit fun _ => along_pure _

theorem along_insertPlanSteps (runId : Uuid) (vars target : Json) (steps : List FlatStep) :
    (insertPlanSteps runId vars target steps : Work δ Unit).Along Kept := by
  induction steps with
  | nil => exact along_pure ()
  | cons f steps ih =>
    unfold insertPlanSteps
    split
    · exact along_raise _
    · exact .bind (along_insert fun _ _ => ⟨fun _ h => h, rfl⟩) fun _ => ih

theorem along_createRunFromVersion (versionId : Uuid) (target vars : Json) :
    (createRunFromVersion versionId target vars : Work δ Uuid).Along Kept := by
  refine .bind (along_read _) fun version? => ?_
  cases version? with
  | none => exact along_raise _
  | some version =>
    refine .bind (along_insert fun _ _ => ⟨fun _ h => h, rfl⟩) fun runId => ?_
    refine .bind (along_insertPlanSteps _ _ _ _) fun _ => ?_
    exact .bind (along_store fun _ => ⟨fun _ h => h, rfl⟩) fun _ => .bind along_commit fun _ => along_pure _

variable [DecidableEq δ] (hash : List Node → δ) (sanitize : Sanitize) (args : RunArgs) (passwords : Nat → String)

theorem along_createEngineRun (serverRole vmName computerName : String) (roleOptions localAdmin : Json)
    (sequenceId : Uuid) :
    (createEngineRun hash args serverRole vmName computerName roleOptions localAdmin sequenceId).Along Kept :=
  .bind (along_addNodes _ _) fun _ => .bind (along_compileSequence _ _) fun _ => along_createRunFromVersion _ _ _

omit [DecidableEq δ] in
theorem along_recordRun (row : OsdeployRunRow) : (recordRun row : Work δ Uuid).Along Kept := by
  unfold recordRun
  refine .bind (along_store fun _ => ⟨fun _ h => h, rfl⟩) fun _ => ?_
  refine .bind (along_store fun _ => ⟨fun _ h => h, rfl⟩) fun _ => ?_
  refine .bind (along_store fun _ => ⟨fun _ h => h, rfl⟩) fun _ => .bind along_commit fun _ => ?_
  exact .bind (along_store fun _ => ⟨fun _ h => h, rfl⟩) fun _ => .bind along_commit fun _ => along_pure _

theorem along_finishRun (serverRole vmName computerName : String) (roleOptions localAdmin : Json)
    (sequenceId : Uuid) :
    (finishRun hash args serverRole vmName computerName roleOptions localAdmin sequenceId).Along Kept :=
  .bind (along_createEngineRun _ _ _ _ _ _ _ _) fun _ => along_recordRun _

omit [DecidableEq δ] in
theorem along_createSequence (name : String) : (createSequence name : Work δ Uuid).Along Kept :=
  .bind (along_insert fun _ _ => ⟨fun _ h => h, rfl⟩) fun _ => .bind along_commit fun _ => along_pure _

theorem along_checkRun (artifact : Artifact) (serverRole vmName : String) (roleOptions : Json) (password : String) :
    (checkRun hash sanitize args artifact serverRole vmName roleOptions password).Along Kept := by
  unfold checkRun
  by_cases harch : artifact.architecture ≠ args.architecture
  · rw [if_pos harch]
    exact along_raise _
  · rw [if_neg harch]
    rcases eq_or_ne (normalizeWindowsComputerName vmName) "" with hname | hname
    · rw [if_pos hname]
      exact along_raise _
    · rw [if_neg hname]
      cases sanitize.role serverRole roleOptions with
      | none => exact along_raise _
      | some options => exact .bind (along_createSequence _) fun _ => along_finishRun _ _ _ _ _ _ _ _

theorem along_createRun (serverRole vmName : String) (roleOptions : Json) (password : String) :
    (createRun hash sanitize args serverRole vmName roleOptions password).Along Kept := by
  refine .bind (along_read _) fun artifact? => ?_
  cases artifact? with
  | none => exact along_raise _
  | some artifact => exact along_checkRun _ _ _ _ _ _ _ _

theorem along_createChildren (options : LabOptions) (bundleId : Uuid) (children : List LabChild) : ∀ order : Nat,
    (createChildren hash sanitize args passwords options bundleId children order).Along Kept := by
  induction children with
  | nil => exact fun order => along_pure ()
  | cons child rest ih =>
    intro order
    refine .bind (along_createRun _ _ _ _ _ _ _) fun runId => ?_
    exact .bind (along_insert fun _ _ => ⟨fun _ h => h, rfl⟩) fun _ => .bind along_commit fun _ => ih _

end Along

/-! ### The first commit -/

section Commit
variable {δ : Type} [DecidableEq δ] (hash : List Node → δ) (sanitize : Sanitize) (args : RunArgs)
  (passwords : Nat → String) {db : Db δ} {options : LabOptions}

/-- The child passes the checks of `create_run`. -/
structure Begins (db : Db δ) (options : LabOptions) (child : LabChild) : Prop where
  artifact : ∃ a, db.artifacts.find? (fun a => a.id = args.artifactId) = some a ∧ a.architecture = args.architecture
  name : normalizeWindowsComputerName child.vmName ≠ ""
  roleOptions : (sanitize.role child.role (childRoleOptions options child)).isSome = true

theorem createRun_of_begins {child : LabChild} (h : Begins sanitize args db options child) (password : String) :
    ∃ roleOptions, ∀ a, db.artifacts.find? (fun a => a.id = args.artifactId) = some a →
      checkRun hash sanitize args a child.role child.vmName (childRoleOptions options child) password =
        storeRun hash args child.role child.vmName (normalizeWindowsComputerName child.vmName) roleOptions
          (generatedAdmin password) := by
  obtain ⟨⟨a, ha, harch⟩, hname, hrole⟩ := h
  obtain ⟨o, ho⟩ := Option.isSome_iff_exists.mp hrole
  refine ⟨o, fun a' ha' => ?_⟩
  obtain rfl : a = a' := Option.some.inj (ha.symm.trans ha')
  unfold checkRun
  rw [if_neg (not_not.mpr harch), if_neg hname, ho]

omit [DecidableEq δ] in
theorem execute_insert_bind {α : Type} {answers : Option Nat} {c w : Db δ} (row : Uuid → Db δ → Db δ)
    (k : Uuid → Work δ α) : (insert row >>= k).execute .lost answers c w =
      if answers = some 0 then (.error .lost, c)
      else (k w.newId).execute .lost (answers.map Nat.pred) c (row w.newId w) :=
  Transaction.execute_write_bind _ _

/-- What `create_lab_bundle` does behind the sequence of the first child. -/
def behindFirst (options : LabOptions) (first : LabChild) (rest : List LabChild) (roleOptions : Json)
    (bundleId sequenceId : Uuid) : Work δ Uuid := do
  let runId ← finishRun hash args first.role first.vmName (normalizeWindowsComputerName first.vmName) roleOptions
    (generatedAdmin (passwords 1)) sequenceId
  let _ ← insert fun id db => { db with bundleChildren := db.bundleChildren ++
    [⟨id, bundleId, 1, first.role, runId⟩] }
  commit
  createChildren hash sanitize args passwords options bundleId rest 2
  pure bundleId

theorem along_behindFirst (options : LabOptions) (first : LabChild) (rest : List LabChild) (roleOptions : Json)
    (bundleId sequenceId : Uuid) :
    (behindFirst hash sanitize args passwords options first rest roleOptions bundleId sequenceId).Along Kept := by
  refine .bind (along_finishRun _ _ _ _ _ _ _ _) fun runId => ?_
  refine .bind (along_insert fun _ _ => ⟨fun _ h => h, rfl⟩) fun _ => .bind along_commit fun _ => ?_
  exact .bind (along_createChildren _ _ _ _ _ _ _ _) fun _ => along_pure _

omit [DecidableEq δ] in
theorem Begins.known {child : LabChild} (h : Begins sanitize args db options child) :
    (db.artifacts.any fun a => a.id = args.artifactId) = true := by
  obtain ⟨a, ha, _⟩ := h.artifact
  have hid := List.find?_some ha
  exact List.any_eq_true.mpr ⟨a, List.mem_of_find?_eq_some ha, hid⟩

/-- Where the first child passes its checks, four answers lead to the first commit, and the
bundle is in it. -/
theorem execute_of_begins (vmName : String) {roleOptions : Json} {first : LabChild} {rest : List LabChild}
    (hlab : sanitize.lab roleOptions = some options) (hchildren : options.children = first :: rest)
    (hfirst : Begins sanitize args db options first) :
    ∃ (q : Work δ Uuid) (u : Db δ), q.Along Kept ∧ (∃ b ∈ u.bundles, b.id = db.newId) ∧ ∀ answers : Option Nat,
      (createLabBundle hash sanitize args passwords vmName roleOptions).execute .lost answers db db =
        if answers.all (4 ≤ ·) then q.execute .lost (answers.map (· - 4)) u u else (.error .lost, db) := by
  obtain ⟨o, hcheck⟩ := createRun_of_begins hash sanitize args hfirst (passwords 1)
  have hany := hfirst.known
  obtain ⟨⟨a, ha, _⟩, _, _⟩ := hfirst
  let db₁ : Db δ := { db with bundles := db.bundles ++
    [⟨db.newId, (given (some options.bundleName)).getD vmName, args.artifactId, options.json⟩] }
  refine ⟨behindFirst hash sanitize args passwords options first rest o db.newId db₁.newId,
    { db₁ with sequences := db₁.sequences ++
      [⟨db₁.newId, "OSDeploy deployment for " ++ first.vmName, none⟩] },
    along_behindFirst _ _ _ _ _ _ _ _ _ _, ?_, fun answers => ?_⟩
  · exact ⟨_, List.mem_append_right _ List.mem_cons_self, rfl⟩
  · unfold createLabBundle
    rw [hlab]
    dsimp only
    rw [hchildren]
    unfold createChildren createRun
    simp only [Transaction.bind_assoc]
    unfold insertBundle
    rw [Transaction.execute_write_bind, if_pos hany]
    dsimp only
    rw [Transaction.execute_read_bind]
    dsimp only
    rw [ha]
    dsimp only
    rw [hcheck a ha]
    unfold storeRun createSequence
    simp only [Transaction.bind_assoc]
    rw [execute_insert_bind, Transaction.execute_commit_bind]
    rcases answers with _ | _ | _ | _ | _ | n
    · simp only [reduceCtorEq, if_false, Option.map_none, Option.all_none, if_true]
      rfl
    all_goals simp
    rfl

theorem execute_of_not_begins {vmName : String} {roleOptions : Json} (hlab : sanitize.lab roleOptions = some options)
    (hfirst : ∀ first rest, options.children = first :: rest → ¬ Begins sanitize args db options first)
    (answers : Option Nat) :
    ((createLabBundle hash sanitize args passwords vmName roleOptions).execute .lost answers db db).2 = db := by
  unfold createLabBundle
  rw [hlab]
  dsimp only
  unfold insertBundle
  rw [Transaction.execute_write_bind]
  split
  · rfl
  split
  · rename_i bundle hbundle
    split at hbundle
    · cases hbundle
      cases hchildren : options.children with
      | nil => rfl
      | cons first rest =>
        unfold createChildren createRun
        simp only [Transaction.bind_assoc]
        rw [Transaction.execute_read_bind]
        split
        · rfl
        dsimp only
        cases ha : db.artifacts.find? fun a => a.id = args.artifactId with
        | none => rfl
        | some a =>
          dsimp only
          unfold checkRun
          by_cases harch : a.architecture ≠ args.architecture
          · rw [if_pos harch]
            rfl
          rw [if_neg harch]
          by_cases hname : normalizeWindowsComputerName first.vmName = ""
          · rw [if_pos hname]
            rfl
          rw [if_neg hname]
          cases hrole : sanitize.role first.role (childRoleOptions options first) with
          | none => rfl
          | some o =>
            exact absurd ⟨⟨a, ha, not_not.mp harch⟩, hname, by rw [hrole]; rfl⟩ (hfirst first rest hchildren)
    · cases hbundle
  · rfl

end Commit

/-! ### All children pass -/

section Runs
variable {δ : Type} {db : Db δ}

theorem runs_insert (row : Uuid → Db δ → Db δ) : (insert row).runs db = .ok (db.newId, row db.newId db) := rfl

/-- The sequence is not compiled yet, and its steps have no condition. -/
structure Bare (sequenceId : Uuid) (db : Db δ) : Prop where
  nodes : ∀ n ∈ db.nodesOf sequenceId, n.conditionJson = .obj []
  versions : ∀ v ∈ db.versions, v.sequenceId ≠ sequenceId

theorem runs_createSequence (db : Db δ) (name : String) :
    ∃ db', (createSequence name).runs db = .ok (db.newId, db') ∧ Bare db.newId db' := by
  refine ⟨_, rfl, ⟨fun n hn => ?_, fun v hv hid => ?_⟩⟩
  · obtain ⟨p, hp, rfl⟩ := List.mem_map.mp hn
    obtain ⟨hmem, hid⟩ := List.mem_filter.mp hp
    refine absurd ?_ (newId_not_mem db)
    rw [← of_decide_eq_true hid]
    simp only [Db.ids, List.mem_append, List.mem_map]
    exact .inl (.inl (.inl (.inl (.inl (.inr ⟨p, hmem, rfl⟩)))))
  · refine absurd ?_ (newId_not_mem db)
    rw [← hid]
    simp only [Db.ids, List.mem_append, List.mem_map]
    exact .inl (.inl (.inr ⟨v, hv, rfl⟩))

theorem runs_addNodes {sequenceId : Uuid} (nodes : List Node) (hnodes : ∀ n ∈ nodes, n.conditionJson = .obj []) :
    ∀ db : Db δ, Bare sequenceId db → ∃ db', (addNodes sequenceId nodes).runs db = .ok ((), db') ∧ Bare sequenceId db' := by
  induction nodes with
  | nil => exact fun db hdb => ⟨db, rfl, hdb⟩
  | cons node nodes ih =>
    intro db hdb
    refine ih (fun n hn => hnodes n (List.mem_cons_of_mem _ hn)) _ ⟨fun n hn => ?_, hdb.versions⟩
    unfold Db.nodesOf at hn
    rw [List.filter_append, List.map_append, List.mem_append] at hn
    rcases hn with hn | hn
    · exact hdb.nodes n hn
    · obtain ⟨p, hp, rfl⟩ := List.mem_map.mp hn
      rw [List.mem_singleton.mp (List.mem_of_mem_filter hp)]
      exact hnodes node List.mem_cons_self

variable [DecidableEq δ] (hash : List Node → δ)

theorem runs_compileSequence {sequenceId : Uuid} (hdb : Bare sequenceId db) :
    ∃ versionId db', (compileSequence hash sequenceId).runs db = .ok (versionId, db') ∧
      ∃ version, db'.versions.find? (fun v => v.id = versionId) = some version ∧
        ∀ n ∈ version.compiledTreeJson, n.conditionJson = .obj [] := by
  have hnone : db.versions.find? (fun v => v.sequenceId = sequenceId &&
      decide (v.sourceHash = hash (compiledTree (db.nodesOf sequenceId)))) = none := by
    rw [List.find?_eq_none]
    intro v hv h
    rw [Bool.and_eq_true] at h
    exact hdb.versions v hv (of_decide_eq_true h.1)
  unfold compileSequence
  rw [Transaction.runs_read_bind]
  dsimp only
  rw [Transaction.runs_read_bind, hnone]
  have hold : db.versions.find? (fun v => v.id = db.newId) = none := by
    rw [List.find?_eq_none]
    intro v hv h
    refine newId_not_mem db ?_
    rw [← of_decide_eq_true h]
    simp only [Db.ids, List.mem_append, List.mem_map]
    exact .inl (.inl (.inl (.inr ⟨v, hv, rfl⟩)))
  let version : VersionRow δ :=
    { id := db.newId
      sequenceId := sequenceId
      compiledTreeJson := compiledTree (db.nodesOf sequenceId)
      version := ((db.versions.filter fun v => v.sequenceId = sequenceId).map fun v => v.version).foldr max 0 + 1
      sourceHash := hash (compiledTree (db.nodesOf sequenceId)) }
  refine ⟨_, _, rfl, ⟨version, ?_, fun n hn => hdb.nodes n (mem_compiledTree.mp hn)⟩⟩
  change (db.versions ++ [version]).find? (fun v => v.id = db.newId) = some version
  rw [List.find?_append, hold, Option.none_or, List.find?_cons_of_pos (by exact decide_eq_true rfl)]

omit [DecidableEq δ] in
theorem runs_insertPlanSteps (runId : Uuid) (vars target : Json) (steps : List FlatStep)
    (hsteps : ∀ f ∈ steps, f.conditionJson = .obj []) :
    ∀ db : Db δ, ∃ db', (insertPlanSteps runId vars target steps).runs db = .ok ((), db') := by
  induction steps with
  | nil => exact fun db => ⟨db, rfl⟩
  | cons f steps ih =>
    intro db
    unfold insertPlanSteps
    have hempty : evaluateCondition f.conditionJson vars target = .ok ⟨true, "empty"⟩ := by
      rw [hsteps f List.mem_cons_self]
      rfl
    rw [hempty]
    exact ih (fun f hf => hsteps f (List.mem_cons_of_mem _ hf)) _

omit [DecidableEq δ] in
theorem runs_createRunFromVersion {versionId : Uuid} {target vars : Json} {version : VersionRow δ}
    (hfind : db.versions.find? (fun v => v.id = versionId) = some version)
    (hempty : ∀ n ∈ version.compiledTreeJson, n.conditionJson = .obj []) :
    ∃ r, (createRunFromVersion versionId target vars).runs db = .ok r := by
  have hsteps : ∀ f ∈ flattenSteps version.compiledTreeJson, f.conditionJson = .obj [] := by
    intro f hf
    obtain ⟨gs, n, kind, hbelow, _, ordinal, depth, path, rfl⟩ := flattenSteps_sound hf
    exact hempty n hbelow.mem
  unfold createRunFromVersion
  rw [Transaction.runs_read_bind, hfind]
  refine Transaction.exists_runs_bind (runs_insert _) ?_
  obtain ⟨db', hdb'⟩ := runs_insertPlanSteps db.newId vars target _ hsteps _
  exact Transaction.exists_runs_bind hdb' ⟨_, rfl⟩

variable (sanitize : Sanitize) (args : RunArgs) (passwords : Nat → String) (options : LabOptions)

theorem runs_storeRun (serverRole vmName computerName : String) (roleOptions localAdmin : Json) :
    ∃ r, (storeRun hash args serverRole vmName computerName roleOptions localAdmin).runs db = .ok r := by
  have hnodes : ∀ n ∈ sequenceNodes (fun _ => 0) serverRole roleOptions, n.conditionJson = .obj [] := by
    intro n hn
    obtain ⟨p, _, rfl⟩ := List.mem_map.mp hn
    rfl
  obtain ⟨db₁, h₁, hbare₁⟩ := runs_createSequence db ("OSDeploy deployment for " ++ vmName)
  obtain ⟨db₂, h₂, hbare₂⟩ := runs_addNodes _ hnodes db₁ hbare₁
  obtain ⟨versionId, db₃, h₃, version, hfind, hempty⟩ := runs_compileSequence hash hbare₂
  refine Transaction.exists_runs_bind h₁ ?_
  have hengine : ∃ r, (createEngineRun hash args serverRole vmName computerName roleOptions localAdmin db.newId).runs
      db₁ = .ok r :=
    Transaction.exists_runs_bind h₂ (Transaction.exists_runs_bind h₃ (runs_createRunFromVersion hfind hempty))
  obtain ⟨⟨runId, db₄⟩, h₄⟩ := hengine
  exact Transaction.exists_runs_bind h₄ ⟨_, rfl⟩

theorem runs_createRun_iff {child : LabChild} (password : String) :
    (∃ r, (createRun hash sanitize args child.role child.vmName (childRoleOptions options child) password).runs db =
      .ok r) ↔ Begins sanitize args db options child := by
  constructor
  · rintro ⟨r, hr⟩
    unfold createRun at hr
    rw [Transaction.runs_read_bind] at hr
    cases ha : db.artifacts.find? fun a => a.id = args.artifactId with
    | none =>
      rw [ha] at hr
      cases hr
    | some a =>
      rw [ha] at hr
      dsimp only at hr
      unfold checkRun at hr
      by_cases harch : a.architecture ≠ args.architecture
      · rw [if_pos harch] at hr
        cases hr
      rw [if_neg harch] at hr
      by_cases hname : normalizeWindowsComputerName child.vmName = ""
      · rw [if_pos hname] at hr
        cases hr
      rw [if_neg hname] at hr
      cases hrole : sanitize.role child.role (childRoleOptions options child) with
      | none =>
        rw [hrole] at hr
        cases hr
      | some o => exact ⟨⟨a, ha, not_not.mp harch⟩, hname, by rw [hrole]; rfl⟩
  · intro h
    obtain ⟨o, hcheck⟩ := createRun_of_begins hash sanitize args h password
    obtain ⟨a, ha, _⟩ := h.artifact
    unfold createRun
    rw [Transaction.runs_read_bind, ha]
    dsimp only
    rw [hcheck a ha]
    exact runs_storeRun hash args _ _ _ _ _

omit [DecidableEq δ] in
theorem begins_congr {options : LabOptions} {db db' : Db δ} (h : Kept db db') {child : LabChild} :
    Begins sanitize args db' options child ↔ Begins sanitize args db options child := by
  constructor
  · exact fun hb => ⟨h.artifacts ▸ hb.artifact, hb.name, hb.roleOptions⟩
  · exact fun hb => ⟨h.artifacts.symm ▸ hb.artifact, hb.name, hb.roleOptions⟩

theorem runs_createChildren_iff (bundleId : Uuid) (children : List LabChild) : ∀ (order : Nat) (db : Db δ),
    (∃ r, (createChildren hash sanitize args passwords options bundleId children order).runs db = .ok r) ↔
      ∀ child ∈ children, Begins sanitize args db options child := by
  induction children with
  | nil => exact fun order db => iff_of_true ⟨_, rfl⟩ (by simp)
  | cons child rest ih =>
    intro order db
    let withChild : Uuid → Db δ → Db δ := fun runId db₁ => { db₁ with bundleChildren := db₁.bundleChildren ++
      [⟨db₁.newId, bundleId, order, child.role, runId⟩] }
    have hrest : ∀ runId db₁, (createRun hash sanitize args child.role child.vmName (childRoleOptions options child)
        (passwords order)).runs db = .ok (runId, db₁) → ∀ db₂, Kept db₁ db₂ →
        ((∃ r, (createChildren hash sanitize args passwords options bundleId rest (order + 1)).runs db₂ = .ok r) ↔
          ∀ c ∈ rest, Begins sanitize args db options c) := by
      intro runId db₁ h₁ db₂ hkept
      have hkept' := ((along_createRun hash sanitize args _ _ _ _).runs Kept.refl (fun _ _ _ => Kept.trans) h₁).trans
        hkept
      rw [ih (order + 1) db₂]
      exact forall₂_congr fun c _ => begins_congr sanitize args hkept'
    rw [List.forall_mem_cons]
    constructor
    · rintro ⟨r, hr⟩
      unfold createChildren at hr
      obtain ⟨runId, db₁, h₁, hr⟩ := Transaction.runs_bind_ok.mp hr
      refine ⟨(runs_createRun_iff hash sanitize args options (passwords order)).mp ⟨_, h₁⟩, ?_⟩
      exact (hrest runId db₁ h₁ (withChild runId db₁) ⟨fun _ h => h, rfl⟩).mp ⟨r, hr⟩
    · rintro ⟨hchild, hothers⟩
      obtain ⟨⟨runId, db₁⟩, h₁⟩ := (runs_createRun_iff hash sanitize args options (passwords order)).mpr hchild
      refine Transaction.exists_runs_bind h₁ ?_
      exact (hrest runId db₁ h₁ (withChild runId db₁) ⟨fun _ h => h, rfl⟩).mpr hothers

/-- The call returns if and only if every child passes its checks. -/
theorem runs_createLabBundle_iff {options : LabOptions} (vmName : String) {roleOptions : Json} {first : LabChild} {rest : List LabChild}
    (hlab : sanitize.lab roleOptions = some options) (hchildren : options.children = first :: rest)
    (hfirst : Begins sanitize args db options first) :
    (∃ r, (createLabBundle hash sanitize args passwords vmName roleOptions).runs db = .ok r) ↔
      ∀ child ∈ rest, Begins sanitize args db options child := by
  have hany := hfirst.known
  let db₁ : Db δ := { db with bundles := db.bundles ++
    [⟨db.newId, (given (some options.bundleName)).getD vmName, args.artifactId, options.json⟩] }
  have hinsert : (insertBundle args ((given (some options.bundleName)).getD vmName) options.json : Work δ Uuid).runs db =
      .ok (db.newId, db₁) := by
    unfold insertBundle
    rw [Transaction.runs_write, if_pos hany]
  have hkept : Kept db db₁ := ⟨fun b hb => List.mem_append_left _ hb, rfl⟩
  have hall := runs_createChildren_iff hash sanitize args passwords options db.newId options.children 1 db₁
  rw [hchildren, List.forall_mem_cons] at hall
  unfold createLabBundle
  rw [hlab]
  dsimp only
  rw [hchildren]
  constructor
  · rintro ⟨r, hr⟩
    obtain ⟨bundleId, db', hwrite, hr⟩ := Transaction.runs_bind_ok.mp hr
    rw [hinsert] at hwrite
    cases hwrite
    obtain ⟨_, db'', hr, _⟩ := Transaction.runs_bind_ok.mp hr
    exact fun child hc => (begins_congr sanitize args hkept).mp ((hall.mp ⟨_, hr⟩).2 child hc)
  · intro hrest
    refine Transaction.exists_runs_bind hinsert ?_
    obtain ⟨⟨_, db''⟩, hr⟩ := hall.mpr ⟨(begins_congr sanitize args hkept).mpr hfirst,
      fun child hc => (begins_congr sanitize args hkept).mpr (hrest child hc)⟩
    exact Transaction.exists_runs_bind hr ⟨_, rfl⟩

end Runs

section Main
variable {δ : Type} [DecidableEq δ] (hash : List Node → δ) (sanitize : Sanitize) (args : RunArgs)
  (passwords : Nat → String)

/-- Whenever the call raises, nothing is left of it. The server gives `answers` answers, or all
that are asked for. -/
def AllOrNothing (vmName : String) (roleOptions : Json) (db : Db δ) (answers : Option Nat) : Prop :=
  ∀ e, ((createLabBundle hash sanitize args passwords vmName roleOptions).perform .lost answers db).1 = .error e →
    NothingNew db ((createLabBundle hash sanitize args passwords vmName roleOptions).perform .lost answers db).2

variable {hash sanitize args passwords} {vmName : String} {roleOptions : Json} {db : Db δ} {answers : Option Nat}

theorem AllOrNothing.passes {options : LabOptions} {first : LabChild} {rest : List LabChild}
    (h : AllOrNothing hash sanitize args passwords vmName roleOptions db answers)
    (hlab : sanitize.lab roleOptions = some options) (hchildren : options.children = first :: rest)
    (hfirst : Begins sanitize args db options first) (hanswers : answers.all (4 ≤ ·) = true) :
    (∀ child ∈ rest, Begins sanitize args db options child) ∧
      answers.all ((createLabBundle hash sanitize args passwords vmName roleOptions).steps db ≤ ·) = true := by
  unfold AllOrNothing Transaction.perform at h
  obtain ⟨q, u, hq, ⟨b, hb, hid⟩, hexecute⟩ :=
    execute_of_begins hash sanitize args passwords vmName hlab hchildren hfirst
  -- the bundle is committed, so the call must not raise
  have hok : ∀ e, ((createLabBundle hash sanitize args passwords vmName roleOptions).execute .lost answers db db).1 ≠
      .error e := by
    intro e herror
    have hnew := h e herror
    rw [hexecute answers, if_pos hanswers] at hnew
    have hkept : Kept u (q.execute .lost (answers.map (· - 4)) u u).2 :=
      hq.execute (fun _ _ _ => Kept.trans) (Kept.refl u) (Kept.refl u)
    have hold := hnew.bundles b (hkept.bundles b hb)
    rw [hid] at hold
    refine newId_not_mem db ?_
    simp only [Db.ids, List.mem_append]
    exact .inl (.inl (.inl (.inl (.inl (.inl (.inl (.inl hold)))))))
  rw [Transaction.execute_fst] at hok
  split at hok
  · rename_i hsteps
    refine ⟨?_, hsteps⟩
    rw [← runs_createLabBundle_iff hash sanitize args passwords vmName hlab hchildren hfirst]
    cases hruns : (createLabBundle hash sanitize args passwords vmName roleOptions).runs db with
    | ok r => exact ⟨r, rfl⟩
    | error e =>
      rw [hruns] at hok
      exact absurd rfl (hok e)
  · exact absurd rfl (hok .lost)

theorem allOrNothing_of_passes
    (h : ∀ options first rest, sanitize.lab roleOptions = some options → options.children = first :: rest →
      Begins sanitize args db options first → answers.all (4 ≤ ·) = true →
      (∀ child ∈ rest, Begins sanitize args db options child) ∧
        answers.all ((createLabBundle hash sanitize args passwords vmName roleOptions).steps db ≤ ·) = true) :
    AllOrNothing hash sanitize args passwords vmName roleOptions db answers := by
  unfold AllOrNothing Transaction.perform
  intro e herror
  cases hlab : sanitize.lab roleOptions with
  | none =>
    unfold createLabBundle
    rw [hlab]
    exact NothingNew.refl db
  | some options =>
    by_cases hfirst : ∃ first rest, options.children = first :: rest ∧ Begins sanitize args db options first
    · obtain ⟨first, rest, hchildren, hbegins⟩ := hfirst
      obtain ⟨q, u, _, _, hexecute⟩ := execute_of_begins hash sanitize args passwords vmName hlab hchildren hbegins
      by_cases hanswers : answers.all (4 ≤ ·) = true
      · obtain ⟨hrest, hsteps⟩ := h options first rest hlab hchildren hbegins hanswers
        obtain ⟨r, hr⟩ :=
          (runs_createLabBundle_iff hash sanitize args passwords vmName hlab hchildren hbegins).mpr hrest
        rw [Transaction.execute_fst, if_pos hsteps, hr] at herror
        cases herror
      · rw [hexecute answers, if_neg hanswers]
        exact NothingNew.refl db
    · have hnot : ∀ first rest, options.children = first :: rest → ¬ Begins sanitize args db options first :=
        fun first rest hchildren hb => hfirst ⟨first, rest, hchildren, hb⟩
      rw [execute_of_not_begins hash sanitize args passwords hlab hnot answers]
      exact NothingNew.refl db

end Main

/-- Two servers; the name of the second has no letter that a computer name may have. -/
def namelessLab : LabOptions := ⟨"lab", none, [⟨"base", "srv1", .obj []⟩, ⟨"base", "---", .obj []⟩]⟩

/-- Of texts that are lower case. -/
def plainPython : Python where
  str
    | .str s => s
    | _ => ""
  lower := id
  upper := id
  dict := fun _ => none
  sortedSet := id

end ProxmoxVEAutopilot.OsDeploy.Creation
