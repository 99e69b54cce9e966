import ProxmoxVEAutopilot.Foundation.Json
import ProxmoxVEAutopilot.Foundation.Table

/-!
# The store of task sequences and credentials

The tables of `sequences_pg` and the calls that write them. A step row stands without its
surrogate id. Each call is one transaction, and one that raises changes nothing.
-/

namespace ProxmoxVEAutopilot.Sequences

open Foundation
set_option autoImplicit false

structure Credential where
  id : Int
  name : String
  type : String
  encryptedBlob : String
  createdAt : Int
  updatedAt : Int
deriving DecidableEq, Repr

/-- A row of `task_sequences`. -/
structure Sequence where
  id : Int
  name : String
  description : String
  isDefault : Bool
  producesAutopilotHash : Bool
  targetOs : String
  hashCapturePhase : String
  createdAt : Int
  updatedAt : Int
deriving DecidableEq, Repr

/-- A row of `task_sequence_steps`. -/
structure Step where
  sequenceId : Int
  orderIndex : Int
  stepType : String
  params : Json
  enabled : Bool
deriving DecidableEq, Repr

structure VmProvisioning where
  vmid : Int
  sequenceId : Option Int
  provisionedAt : Int
deriving DecidableEq, Repr

/-- A row of `answer_iso_cache`. -/
structure AnswerIso where
  hash : String
  shortHash : String
  volid : String
  compiledAt : Int
  lastUsedAt : Option Int
deriving DecidableEq, Repr

/-- A row of `provisioning_runs`. -/
structure ProvisioningRun where
  id : Int
  vmid : Option Int
  sequenceId : Int
  provisionPath : String
  state : String
  vmUuid : Option String
  startedAt : Int
  finishedAt : Option Int
  lastError : Option String
deriving DecidableEq, Repr

/-- A row of `provisioning_run_steps`. -/
structure RunStep where
  runId : Int
  orderIndex : Int
  phase : String
  kind : String
  params : Json
  state : String
  startedAt : Option Int
  finishedAt : Option Int
  error : Option String
deriving DecidableEq, Repr

structure Store where
  credentials : List Credential := []
  sequences : List Sequence := []
  steps : List Step := []
  vmProvisioning : List VmProvisioning := []
  answerIsos : List AnswerIso := []
  runs : List ProvisioningRun := []
  runSteps : List RunStep := []
deriving DecidableEq

/-- What a call raises. -/
inductive StoreError where
  | invalidPhase (phase : String)
  | notFound (seqId : Int)
  | credentialInUse (credId : Int) (sequenceIds : List Int)
  | sequenceInUse (sequenceId : Int) (vmids : List Int)
  | uniqueViolation (constraint : String)
  | checkViolation (constraint : String)
  | foreignKeyViolation (constraint : String)
  /-- a text that `::bigint` cannot read -/
  | invalidText
  /-- what decrypting or encrypting a credential raises -/
  | cipher
deriving DecidableEq, Repr

def phases : List String := ["winpe", "oobe"]

/-- A step as a caller gives it; parameters that come as a text stand parsed. -/
structure StepInput where
  stepType : String
  params : Json := .obj []
  enabled : Bool := true
deriving DecidableEq, Repr

/-- `value or {}` -/
def orEmpty (value : Json) : Json := if value.truthy then value else .obj []

def stepRow (seqId : Int) (index : Nat) (step : StepInput) : Step :=
  ⟨seqId, index, step.stepType, orEmpty step.params, step.enabled⟩

section Calls
variable (db : Store) (now : Int)

/-- Where the id comes from the sequence of the table, it is an argument here, and a taken one
violates the primary key. -/
def createCredential (newId : Int) (name type blob : String) : Except StoreError Store :=
  if newId ∈ db.credentials.map Credential.id then .error (.uniqueViolation "credentials_pkey")
  else if name ∈ db.credentials.map Credential.name then .error (.uniqueViolation "credentials_name_key")
  else .ok { db with credentials := db.credentials ++ [⟨newId, name, type, blob, now, now⟩] }

def setSteps (seqId : Int) (steps : List StepInput) : Store :=
  { db with
    steps := (db.steps.filter fun step => step.sequenceId ≠ seqId) ++
      steps.zipIdx.map fun x => stepRow seqId x.2 x.1
    sequences := Table.modify Sequence.id db.sequences seqId fun seq => { seq with updatedAt := now } }

/-- The foreign key of the steps wants the sequence to exist. -/
def setSequenceSteps (seqId : Int) (steps : List StepInput) : Except StoreError Store :=
  if steps ≠ [] ∧ seqId ∉ db.sequences.map Sequence.id then
    .error (.foreignKeyViolation "task_sequence_steps_sequence_id_fkey")
  else .ok (setSteps db now seqId steps)

/-- `UPDATE task_sequences SET is_default = false WHERE id != seq_id` -/
def clearOtherDefaults (rows : List Sequence) (seqId : Int) : List Sequence :=
  rows.map fun seq => if seq.id ≠ seqId then { seq with isDefault := false } else seq

structure SequenceInput where
  name : String
  description : String
  isDefault : Bool := false
  producesAutopilotHash : Bool := false
  targetOs : String := "windows"
  hashCapturePhase : String := "oobe"
  steps : Option (List StepInput) := none

def SequenceInput.row (input : SequenceInput) (newId : Int) : Sequence :=
  ⟨newId, input.name, input.description, input.isDefault, input.producesAutopilotHash, input.targetOs,
    input.hashCapturePhase, now, now⟩

def createSequence (newId : Int) (input : SequenceInput) : Except StoreError Store :=
  if input.hashCapturePhase ∉ phases then .error (.invalidPhase input.hashCapturePhase)
  else if newId ∈ db.sequences.map Sequence.id then .error (.uniqueViolation "task_sequences_pkey")
  else if input.name ∈ db.sequences.map Sequence.name then .error (.uniqueViolation "task_sequences_name_key")
  else
    let inserted := db.sequences ++ [input.row now newId]
    let cleared := if input.isDefault then clearOtherDefaults inserted newId else inserted
    let created := { db with sequences := cleared }
    .ok (match input.steps with
      | none => created
      | some steps => setSteps created now newId steps)

structure SequencePatch where
  name : Option String := none
  description : Option String := none
  isDefault : Option Bool := none
  producesAutopilotHash : Option Bool := none
  targetOs : Option String := none
  hashCapturePhase : Option String := none
deriving DecidableEq

def SequencePatch.apply (patch : SequencePatch) (seq : Sequence) : Sequence :=
  { seq with
    name := patch.name.getD seq.name
    description := patch.description.getD seq.description
    isDefault := patch.isDefault.getD seq.isDefault
    producesAutopilotHash := patch.producesAutopilotHash.getD seq.producesAutopilotHash
    targetOs := patch.targetOs.getD seq.targetOs
    hashCapturePhase := patch.hashCapturePhase.getD seq.hashCapturePhase
    updatedAt := now }

/-- Some other row than the updated one has the new name. -/
def nameTaken (seqId : Int) (name : Option String) : Prop :=
  seqId ∈ db.sequences.map Sequence.id ∧ ∃ seq ∈ db.sequences, seq.id ≠ seqId ∧ name = some seq.name

instance (seqId : Int) (name : Option String) : Decidable (nameTaken db seqId name) :=
  inferInstanceAs (Decidable (_ ∧ _))

def updateSequence (seqId : Int) (patch : SequencePatch) : Except StoreError Store :=
  match patch.hashCapturePhase.filter (· ∉ phases) with
  | some phase => .error (.invalidPhase phase)
  | none =>
    if patch = {} then .ok db
    else if nameTaken db seqId patch.name then .error (.uniqueViolation "task_sequences_name_key")
    else
      let patched := Table.modify Sequence.id db.sequences seqId (patch.apply now)
      .ok { db with
        sequences := if patch.isDefault = some true then clearOtherDefaults patched seqId else patched }

def sequenceSteps (seqId : Int) : List Step :=
  (db.steps.filter fun step => step.sequenceId = seqId).insertionSort fun a b => a.orderIndex ≤ b.orderIndex

def duplicateSequence (newId seqId : Int) (newName : String) : Except StoreError Store :=
  match db.sequences.find? fun seq => seq.id = seqId with
  | none => .error (.notFound seqId)
  | some seq =>
    createSequence db now newId
      { name := newName
        description := seq.description
        isDefault := false
        producesAutopilotHash := seq.producesAutopilotHash
        targetOs := seq.targetOs
        hashCapturePhase := seq.hashCapturePhase
        steps := some ((sequenceSteps db seqId).map fun step => ⟨step.stepType, orEmpty step.params, step.enabled⟩) }

/-- The steps go with the sequence; a run keeps it. -/
def deleteSequence (seqId : Int) : Except StoreError Store :=
  let vms := db.vmProvisioning.filter fun vm => vm.sequenceId = some seqId
  if vms ≠ [] then .error (.sequenceInUse seqId (vms.map VmProvisioning.vmid))
  else if seqId ∈ db.runs.map ProvisioningRun.sequenceId then
    .error (.foreignKeyViolation "provisioning_runs_sequence_id_fkey")
  else .ok { db with
    sequences := Table.delete Sequence.id db.sequences seqId
    steps := db.steps.filter fun step => step.sequenceId ≠ seqId }

/-- `LIMIT 1` without an order: the first row stands for whichever the server gives. -/
def getDefaultSequenceId : Option Int := (db.sequences.find? Sequence.isDefault).map Sequence.id

end Calls

end ProxmoxVEAutopilot.Sequences
