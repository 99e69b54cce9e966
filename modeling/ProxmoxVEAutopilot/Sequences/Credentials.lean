import ProxmoxVEAutopilot.Foundation.Text
import ProxmoxVEAutopilot.Foundation.Runs
import ProxmoxVEAutopilot.Sequences.Effects

/-!
# Credentials that steps refer to

The compilers read credentials under several names, the check before a deletion looks under one.
`bigint` is what the server's cast makes of the text of a JSON value, none where it raises.
-/

namespace ProxmoxVEAutopilot.Sequences

open Foundation
set_option autoImplicit false

section References

/-- The id that the compilers make of `credential_id`. -/
def ownRef (step : Step) : Option Int := (step.params.get? "credential_id").bind pyInt

/-- The name that the compiler of an Ubuntu step reads. -/
def ubuntuKey : String → Option String
  | "create_ubuntu_user" => some "local_admin_credential_id"
  | "install_mde_linux" => some "mde_onboarding_credential_id"
  | _ => none

/-- `isinstance(v, int) and v > 0` of `_referenced_credential_ids`; `True` is one. -/
def positiveInt : Json → Option Int
  | .int n => if 0 < n then some n else none
  | .bool true => some 1
  | _ => none

def ubuntuRef (step : Step) : Option Int :=
  (ubuntuKey step.stepType).bind fun key => (step.params.get? key).bind positiveInt

/-- The step's compiler resolves the credential. -/
def Refers (step : Step) (credId : Int) : Prop := ownRef step = some credId ∨ ubuntuRef step = some credId

instance (step : Step) (credId : Int) : Decidable (Refers step credId) := inferInstanceAs (Decidable (_ ∨ _))

/-- Every credential that a step refers to is there. -/
def Intact (db : Store) : Prop :=
  ∀ step ∈ db.steps, ∀ credId, Refers step credId → credId ∈ db.credentials.map Credential.id

end References

section Delete
variable (bigint : Json → Option Int) (db : Store)

/-- `params_json ->> 'credential_id'`, which is NULL for a JSON null. -/
def refText (step : Step) : Option Json := (step.params.get? "credential_id").filter (· ≠ .null)

def castRef (step : Step) : Option Int := (refText step).bind bigint

/-- The cast raises for the step. -/
def Uncastable (step : Step) : Prop := (refText step).any fun text => (bigint text).isNone

instance (step : Step) : Decidable (Uncastable bigint step) := inferInstanceAs (Decidable (_ = true))

/-- `_sequences_referencing_credential`; the cast is made for every row. -/
def sequencesReferencingCredential (credId : Int) : Except StoreError (List Int) :=
  if ∃ step ∈ db.steps, Uncastable bigint step then .error .invalidText
  else
    .ok (((db.steps.filter fun step => castRef bigint step = some credId).map Step.sequenceId).dedup.insertionSort (· ≤ ·))

def deleteCredential (credId : Int) : Except StoreError Store :=
  (sequencesReferencingCredential bigint db credId).bind fun referencing =>
    if referencing ≠ [] then .error (.credentialInUse credId referencing)
    else .ok { db with credentials := Table.delete Credential.id db.credentials credId }

end Delete

section Calls

inductive Call where
  | createSequence (newId : Int) (input : SequenceInput)
  | setSequenceSteps (seqId : Int) (steps : List StepInput)
  | duplicateSequence (newId seqId : Int) (newName : String)
  | deleteSequence (seqId : Int)
  | deleteCredential (credId : Int)

structure Request where
  call : Call
  now : Int := 0

variable (bigint : Json → Option Int) (db : Store)

def Request.run (request : Request) : Except StoreError Store :=
  match request.call with
  | .createSequence newId input => createSequence db request.now newId input
  | .setSequenceSteps seqId steps => setSequenceSteps db request.now seqId steps
  | .duplicateSequence newId seqId newName => duplicateSequence db request.now newId seqId newName
  | .deleteSequence seqId => deleteSequence db seqId
  | .deleteCredential credId => deleteCredential bigint db credId

/-- A call that raises changes nothing. -/
def exec (request : Request) : Store := (request.run bigint db).toOption.getD db

/-- After the call the references are intact, and a deletion is refused exactly if some step
refers to the credential. -/
def Guards (request : Request) : Prop :=
  Intact (exec bigint db request) ∧ ∀ credId, request.call = .deleteCredential credId →
    ((∃ sequenceIds, deleteCredential bigint db credId = .error (.credentialInUse credId sequenceIds)) ↔
      ∃ step ∈ db.steps, Refers step credId)

/-- The steps refer to credentials that are there. -/
def NamesExisting (steps : List StepInput) : Prop :=
  ∀ step ∈ steps, ∀ credId, Refers (stepRow 0 0 step) credId → credId ∈ db.credentials.map Credential.id

/-- Steps that are written refer to credentials that are there. For a deletion, either some
`credential_id` cannot be cast and nothing refers to the credential, or the steps that refer
to it under another name are not the only ones. -/
def Allowed (request : Request) : Prop :=
  match request.call with
  | .createSequence newId input =>
    (∃ db', createSequence db request.now newId input = .ok db') → NamesExisting db (input.steps.getD [])
  | .setSequenceSteps seqId steps =>
    (∃ db', setSequenceSteps db request.now seqId steps = .ok db') → NamesExisting db steps
  | .duplicateSequence .. => True
  | .deleteSequence _ => True
  | .deleteCredential credId =>
    if ∃ step ∈ db.steps, Uncastable bigint step then ∀ step ∈ db.steps, ¬ Refers step credId
    else (∀ step ∈ db.steps, ubuntuRef step = some credId → ∃ other ∈ db.steps, castRef bigint other = some credId) ∧
      ∀ step ∈ db.steps, castRef bigint step = some credId → ∃ other ∈ db.steps, Refers other credId

end Calls

section Exec
variable {bigint : Json → Option Int} {db db' : Store} {now seqId credId : Int} {request : Request}

theorem exec_ok (h : request.run bigint db = .ok db') : exec bigint db request = db' := by
  unfold exec
  rw [h]
  rfl

theorem exec_error {e : StoreError} (h : request.run bigint db = .error e) : exec bigint db request = db := by
  unfold exec
  rw [h]
  rfl

theorem get?_orEmpty (params : Json) (key : String) : (orEmpty params).get? key = params.get? key := by
  unfold orEmpty
  split
  · rfl
  · rename_i hfalsy
    cases params with
    | obj fields =>
      cases fields with
      | nil => rfl
      | cons field rest => exact absurd rfl hfalsy
    | _ => rfl

theorem refers_stepRow {newId : Int} {index : Nat} {step : StepInput} :
    Refers (stepRow newId index step) credId ↔ Refers (stepRow 0 0 step) credId := Iff.rfl

theorem refers_copy {step : Step} : Refers (stepRow 0 0 ⟨step.stepType, orEmpty step.params, step.enabled⟩) credId ↔
    Refers step credId := by
  unfold Refers ownRef ubuntuRef stepRow
  simp only [get?_orEmpty]

theorem intact_written {steps : List StepInput} (h : Intact db) (hcredentials : db'.credentials = db.credentials)
    (hsteps : db'.steps = (db.steps.filter fun step => step.sequenceId ≠ seqId) ++
      steps.zipIdx.map fun x => stepRow seqId x.2 x.1) : Intact db' ↔ NamesExisting db steps := by
  unfold Intact NamesExisting
  rw [hcredentials, hsteps]
  constructor
  · intro hintact step hstep credId hrefers
    obtain ⟨index, hat⟩ := List.mem_iff_getElem?.mp hstep
    have hindex : (step, index) ∈ steps.zipIdx := List.mk_mem_zipIdx_iff_getElem?.mpr hat
    refine hintact (stepRow seqId index step) (List.mem_append_right _ (List.mem_map.mpr ⟨_, hindex, rfl⟩)) credId ?_
    exact refers_stepRow.mpr hrefers
  · intro hnames step hstep credId hrefers
    rcases List.mem_append.mp hstep with hold | hnew
    · exact h step (List.mem_filter.mp hold).1 credId hrefers
    · obtain ⟨⟨given, index⟩, hindex, rfl⟩ := List.mem_map.mp hnew
      exact hnames given (List.fst_mem_of_mem_zipIdx hindex) credId hrefers

theorem mem_referencing : (((db.steps.filter fun step => castRef bigint step = some credId).map
      Step.sequenceId).dedup.insertionSort (· ≤ ·)) ≠ [] ↔ ∃ step ∈ db.steps, castRef bigint step = some credId := by
  constructor
  · intro hne
    obtain ⟨sequenceId, hmem⟩ := List.exists_mem_of_ne_nil _ hne
    obtain ⟨step, hstep, _⟩ := List.mem_map.mp (List.mem_dedup.mp ((List.mem_insertionSort _).mp hmem))
    obtain ⟨hin, hcast⟩ := List.mem_filter.mp hstep
    exact ⟨step, hin, of_decide_eq_true hcast⟩
  · rintro ⟨step, hstep, hcast⟩
    refine List.ne_nil_of_mem (a := step.sequenceId) ((List.mem_insertionSort _).mpr (List.mem_dedup.mpr ?_))
    exact List.mem_map_of_mem (List.mem_filter.mpr ⟨hstep, decide_eq_true hcast⟩)

theorem deleteCredential_cases (bigint : Json → Option Int) (db : Store) (credId : Int) :
    ((∃ step ∈ db.steps, Uncastable bigint step) ∧ deleteCredential bigint db credId = .error .invalidText) ∨
    ((∀ step ∈ db.steps, ¬ Uncastable bigint step) ∧ (∃ step ∈ db.steps, castRef bigint step = some credId) ∧
      ∃ sequenceIds, deleteCredential bigint db credId = .error (.credentialInUse credId sequenceIds)) ∨
    ((∀ step ∈ db.steps, ¬ Uncastable bigint step) ∧ (∀ step ∈ db.steps, castRef bigint step ≠ some credId) ∧
      deleteCredential bigint db credId =
        .ok { db with credentials := Table.delete Credential.id db.credentials credId }) := by
  unfold deleteCredential sequencesReferencingCredential
  by_cases huncastable : ∃ step ∈ db.steps, Uncastable bigint step
  · rw [if_pos huncastable]
    exact .inl ⟨huncastable, rfl⟩
  · rw [if_neg huncastable]
    have hcastable : ∀ step ∈ db.steps, ¬ Uncastable bigint step := fun step hstep h => huncastable ⟨step, hstep, h⟩
    refine .inr ?_
    dsimp only [Except.bind]
    by_cases hreferencing : ∃ step ∈ db.steps, castRef bigint step = some credId
    · rw [if_pos (mem_referencing.mpr hreferencing)]
      exact .inl ⟨hcastable, hreferencing, _, rfl⟩
    · rw [if_neg fun h => hreferencing (mem_referencing.mp h)]
      exact .inr ⟨hcastable, fun step hstep h => hreferencing ⟨step, hstep, h⟩, rfl⟩

theorem castRef_of_ownRef {step : Step} (hread : ∀ value m n, bigint value = some m → pyInt value = some n → m = n)
    (hcastable : ¬ Uncastable bigint step) (hown : ownRef step = some credId) : castRef bigint step = some credId := by
  obtain ⟨value, hvalue, hint⟩ := Option.bind_eq_some_iff.mp hown
  have hne : value ≠ .null := by
    rintro rfl
    cases hint
  have htext : refText step = some value := by
    unfold refText
    rw [hvalue]
    simp [hne]
  unfold Uncastable at hcastable
  rw [htext] at hcastable
  unfold castRef
  rw [htext]
  cases hcast : bigint value with
  | none => simp [hcast] at hcastable
  | some m => simp [hcast, hread value m credId hcast hint]

theorem guards_delete_iff (hread : ∀ value m n, bigint value = some m → pyInt value = some n → m = n)
    (h : Intact db) : Guards bigint db ⟨.deleteCredential credId, now⟩ ↔ Allowed bigint db ⟨.deleteCredential credId, now⟩ := by
  have hrun : (⟨.deleteCredential credId, now⟩ : Request).run bigint db = deleteCredential bigint db credId := rfl
  unfold Guards Allowed
  dsimp only
  rcases deleteCredential_cases bigint db credId with
    ⟨huncastable, hraises⟩ | ⟨hcastable, hcast, ids, hraises⟩ | ⟨hcastable, hnone, hdeletes⟩
  · rw [if_pos huncastable, exec_error (hrun.trans hraises)]
    constructor
    · rintro ⟨_, hexact⟩ step hstep hrefers
      obtain ⟨ids, hids⟩ := (hexact credId rfl).mpr ⟨step, hstep, hrefers⟩
      rw [hraises] at hids
      cases hids
    · refine fun hnot => ⟨h, fun other hother => ?_⟩
      cases hother
      refine iff_of_false (fun ⟨ids, hids⟩ => ?_) fun ⟨step, hstep, hrefers⟩ => hnot step hstep hrefers
      rw [hraises] at hids
      cases hids
  · rw [if_neg fun ⟨step, hstep, hun⟩ => hcastable step hstep hun, exec_error (hrun.trans hraises)]
    constructor
    · rintro ⟨_, hexact⟩
      exact ⟨fun _ _ _ => hcast, fun _ _ _ => (hexact credId rfl).mp ⟨ids, hraises⟩⟩
    · rintro ⟨_, hrefers⟩
      refine ⟨h, fun other hother => ?_⟩
      cases hother
      obtain ⟨step, hstep, heq⟩ := hcast
      exact iff_of_true ⟨ids, hraises⟩ (hrefers step hstep heq)
  · rw [if_neg fun ⟨step, hstep, hun⟩ => hcastable step hstep hun, exec_ok (hrun.trans hdeletes)]
    have hnotRaised : ¬ ∃ ids, deleteCredential bigint db credId = .error (.credentialInUse credId ids) := by
      rintro ⟨ids, hids⟩
      rw [hdeletes] at hids
      cases hids
    constructor
    · rintro ⟨_, hexact⟩
      refine ⟨fun step hstep hubuntu => ?_, fun step hstep heq => absurd heq (hnone step hstep)⟩
      exact absurd ((hexact credId rfl).mpr ⟨step, hstep, .inr hubuntu⟩) hnotRaised
    · rintro ⟨hubuntu, _⟩
      have hnot : ∀ step ∈ db.steps, ¬ Refers step credId := by
        rintro step hstep (hown | hother)
        · exact hnone step hstep (castRef_of_ownRef hread (hcastable step hstep) hown)
        · obtain ⟨other, hmem, heq⟩ := hubuntu step hstep hother
          exact hnone other hmem heq
      refine ⟨fun step hstep id hrefers => ?_, fun other hother => ?_⟩
      · obtain ⟨row, hrow, rfl⟩ := List.mem_map.mp (h step hstep id hrefers)
        refine List.mem_map_of_mem (Table.mem_delete.mpr ⟨hrow, ?_⟩)
        rintro rfl
        exact hnot step hstep hrefers
      · cases hother
        exact iff_of_false hnotRaised fun ⟨step, hstep, hrefers⟩ => hnot step hstep hrefers

theorem guards_call_iff (hcall : ∀ credId, request.call ≠ .deleteCredential credId) :
    Guards bigint db request ↔ Intact (exec bigint db request) :=
  ⟨fun h => h.1, fun h => ⟨h, fun credId heq => absurd heq (hcall credId)⟩⟩

/-- A call that writes steps keeps the references exactly if it writes none that dangles. -/
theorem intact_exec_iff {steps : List StepInput} (h : Intact db)
    (hwrites : ∀ db', request.run bigint db = .ok db' → (Intact db' ↔ NamesExisting db steps)) :
    Intact (exec bigint db request) ↔ ((∃ db', request.run bigint db = .ok db') → NamesExisting db steps) := by
  cases hrun : request.run bigint db with
  | error e =>
    rw [exec_error hrun]
    exact iff_of_true h fun ⟨db', hok⟩ => by cases hok
  | ok db' =>
    rw [exec_ok hrun, hwrites db' hrun]
    exact ⟨fun hnames _ => hnames, fun hnames => hnames ⟨db', rfl⟩⟩

theorem intact_created {newId : Int} {input : SequenceInput} (h : Intact db)
    (hcreate : createSequence db now newId input = .ok db') : Intact db' ↔ NamesExisting db (input.steps.getD []) := by
  obtain ⟨hcredentials, ⟨hnone, hsteps⟩ | ⟨steps, hsome, hsteps⟩⟩ := createSequence_steps hcreate
  · rw [hnone]
    refine iff_of_true ?_ fun step hstep => by cases hstep
    unfold Intact
    rw [hcredentials, hsteps]
    exact h
  · rw [hsome]
    exact intact_written h hcredentials hsteps

theorem namesExisting_copies (h : Intact db) (seqId : Int) : NamesExisting db
    ((sequenceSteps db seqId).map fun step => ⟨step.stepType, orEmpty step.params, step.enabled⟩) := by
  intro copy hcopy credId hrefers
  obtain ⟨step, hstep, rfl⟩ := List.mem_map.mp hcopy
  have hmem : step ∈ db.steps := (List.mem_filter.mp ((List.mem_insertionSort _).mp hstep)).1
  exact h step hmem credId (refers_copy.mp hrefers)

theorem guards_iff (hread : ∀ value m n, bigint value = some m → pyInt value = some n → m = n) (h : Intact db)
    (request : Request) : Guards bigint db request ↔ Allowed bigint db request := by
  obtain ⟨call, now⟩ := request
  cases call with
  | deleteCredential credId => exact guards_delete_iff hread h
  | createSequence newId input =>
    rw [guards_call_iff (by intro _ hcall; cases hcall)]
    exact intact_exec_iff h fun db' hrun => intact_created h hrun
  | setSequenceSteps seqId steps =>
    rw [guards_call_iff (by intro _ hcall; cases hcall)]
    refine intact_exec_iff h fun db' hrun => ?_
    have hset := setSequenceSteps_ok hrun
    have hcredentials : db'.credentials = db.credentials := by rw [hset]; rfl
    exact intact_written h hcredentials (congrArg Store.steps hset)
  | duplicateSequence newId seqId newName =>
    rw [guards_call_iff (by intro _ hcall; cases hcall)]
    refine iff_of_true ?_ trivial
    have hcopies := namesExisting_copies h seqId
    refine (intact_exec_iff h fun db' hrun => ?_).mpr fun _ => hcopies
    obtain ⟨input, _, hcreate, hsteps⟩ := duplicateSequence_ok hrun
    rw [intact_created h hcreate, hsteps]
    rfl
  | deleteSequence seqId =>
    rw [guards_call_iff (by intro _ hcall; cases hcall)]
    refine iff_of_true ?_ trivial
    have hnone : NamesExisting db [] := fun step hstep => by cases hstep
    refine (intact_exec_iff h fun db' hrun => ?_).mpr fun _ => hnone
    rw [deleteSequence_ok hrun]
    exact iff_of_true (fun step hstep => h step (List.mem_filter.mp hstep).1) hnone

/-- From a store whose references are intact, every call keeps them so and every deletion is
refused as it should be exactly if every call is allowed where it is made. -/
theorem credentials_guarded_iff (hread : ∀ value m n, bigint value = some m → pyInt value = some n → m = n)
    (h : Intact db) (requests : List Request) :
    Replays (Guards bigint) (exec bigint) db requests ↔ Replays (Allowed bigint) (exec bigint) db requests :=
  replays_congr (fun _ request hintact => guards_iff hread hintact request) (fun _ _ _ hguards => hguards.1) h

def plainBigint : Json → Option Int
  | .int n => some n
  | _ => none

def twoCredentials : Store where
  credentials := [⟨1, "admin", "local_admin", "a", 0, 0⟩, ⟨2, "domain", "domain_join", "b", 0, 0⟩]

def ubuntuUser : List Request :=
  [⟨.createSequence 1
      { name := "ubuntu"
        description := ""
        steps := some [⟨"create_ubuntu_user", .obj [("local_admin_credential_id", .int 1)], true⟩] }, 0⟩,
    ⟨.deleteCredential 1, 0⟩]

theorem ubuntu_credential_deleted : ¬ Replays (Guards plainBigint) (exec plainBigint) twoCredentials ubuntuUser := by
  rintro ⟨_, ⟨hintact, _⟩, _⟩
  have hmem := hintact ⟨1, 0, "create_ubuntu_user", .obj [("local_admin_credential_id", .int 1)], true⟩ (by decide +kernel) 1
    (by decide)
  revert hmem
  decide +kernel

def joinedWindows : List Request :=
  [⟨.createSequence 1
      { name := "windows"
        description := ""
        steps := some [⟨"join_ad_domain", .obj [("credential_id", .int 2)], true⟩] }, 0⟩,
    ⟨.deleteCredential 2, 0⟩, ⟨.deleteCredential 1, 0⟩]

theorem windows_credential_guarded : Replays (Guards plainBigint) (exec plainBigint) twoCredentials joinedWindows :=
  (credentials_guarded_iff (by
      intro value m n hcast hint
      cases value <;> simp_all [plainBigint, pyInt])
    (fun step hstep => by cases hstep) joinedWindows).mpr (by
      refine ⟨fun _ step hstep credId hrefers => ?_, ?_, ?_, trivial⟩
      · rw [List.mem_singleton.mp hstep] at hrefers
        rcases hrefers with hown | hubuntu
        · cases hown
          decide
        · cases hubuntu
      · unfold Allowed
        decide +kernel
      · unfold Allowed
        decide +kernel)

end Exec

end ProxmoxVEAutopilot.Sequences
