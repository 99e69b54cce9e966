import ProxmoxVEAutopilot.Foundation.Table
import ProxmoxVEAutopilot.Foundation.Text
import ProxmoxVEAutopilot.Jobs.Queue

/-!
# Uploads of the Autopilot hash

An upload attempt keeps the status it was recorded with; the readiness of the run takes
the status of the attempt's job in its place, unless the job is orphaned. Calls are
executed one at a time on a clock that never goes back.
-/

namespace ProxmoxVEAutopilot.CloudOsd.HashUpload

open Foundation Jobs
set_option autoImplicit false

inductive UploadStatus where
  | notStarted
  | notConfigured
  | queued
  | pending
  | running
  | complete
  | failed
  | canceled
deriving DecidableEq, Repr

/-- A row of `cloudosd_autopilot_upload_attempts`. -/
structure UploadAttempt where
  id : Nat
  runId : Nat
  jobId : Option JobId
  hashFilename : String
  expectedGroupTag : String
  status : UploadStatus
  error : Option String := none
  createdAt : Time

structure HashFile where
  name : String
  serial : Option String := none

/-- What `intune_evidence_for_run` finds out about the device of the run. -/
structure Evidence where
  hashFiles : List HashFile := []
  autopilotDeviceId : Option String := none
  groupTagMatch : Option Bool := none
  assignmentStatus : Option String := none
  enrollmentStatus : Option String := none
  contactState : Option String := none

structure UploadDb where
  jobs : List Job
  limits : String → Option Int
  attempts : List UploadAttempt := []
  nextAttemptId : Nat := 0
  clock : Time := 0

/-- `ORDER BY created_at DESC, id DESC`. -/
def newestFirst (a b : UploadAttempt) : Prop :=
  b.createdAt < a.createdAt ∨ b.createdAt = a.createdAt ∧ b.id ≤ a.id

instance : DecidableRel newestFirst := fun _ _ => inferInstanceAs (Decidable (_ ∨ _))

section Readiness
variable (db : UploadDb)

def latestAutopilotUploadAttempt (runId : Nat) : Option UploadAttempt :=
  ((db.attempts.filter fun a => a.runId = runId).insertionSort newestFirst).head?

def getJob (id : JobId) : Option Job := db.jobs.find? fun j => j.id = id

/-- The job statuses that replace the status of the attempt. -/
def adopted : JobStatus → Option UploadStatus
  | .pending => some .pending
  | .running => some .running
  | .complete => some .complete
  | .failed => some .failed
  | .orphaned => none

def uploadStatus (attempt : Option UploadAttempt) : UploadStatus :=
  match attempt with
  | none => .notStarted
  | some a => ((a.jobId.bind (getJob db)).bind fun job => adopted job.status).getD a.status

/-- `Path(text).name`. -/
def pathName (text : String) : String :=
  String.ofList (((text.toList.splitOn '/').filter fun part => part ≠ [] && part ≠ ['.']).getLastD [])

def preferHashFile (files : List HashFile) (preferred : String) : List HashFile :=
  if pathName preferred = "" then files
  else files.filter (fun f => f.name == pathName preferred) ++ files.filter fun f => f.name != pathName preferred

structure Readiness where
  state : String
  nextAction : String
  hashFilename : Option String
  hashSerial : Option String
  uploadStatus : UploadStatus
  uploadJobId : Option JobId
  autopilotDeviceId : Option String

def assignedStatus (value : Option String) : Bool :=
  ["assigned", "assignedInSync", "assignedUnkownSyncState", "Assigned", "Assigned (Synced)"].contains
    (strip (value.getD ""))

/-- `state` and `next_action` of the fold. -/
def readinessState (captured : Bool) (status : UploadStatus) (e : Evidence) : String × String :=
  if !captured then ("waiting_for_hash", "wait_for_hash")
  else if status = .failed ∨ status = .canceled then ("upload_failed", "retry_upload")
  else if status = .notConfigured then ("upload_not_configured", "configure_entra")
  else if (given e.autopilotDeviceId).isSome then
    if e.groupTagMatch = some false then ("group_tag_mismatch", "review_group_tag")
    else if e.enrollmentStatus = some "enrolled" then ("enrolled", "none")
    else if (given e.contactState).any fun s => s ≠ "not_found" && s ≠ "not_contacted" then
      ("contacted", "sync_intune")
    else if assignedStatus e.assignmentStatus then ("assigned", "wait_for_contact")
    else ("imported", "wait_for_assignment")
  else
    match status with
    | .complete => ("upload_submitted", "sync_intune")
    | .running => ("upload_running", "wait_for_upload")
    | .pending | .queued => ("upload_queued", "wait_for_upload")
    | _ => ("hash_captured", "upload_hash")

def autopilotReadinessForRun (runId : Nat) (e : Evidence) (preferredHashFilename : Option String) : Readiness :=
  let attempt := latestAutopilotUploadAttempt db runId
  let preferredName := (orElse preferredHashFilename (attempt.map fun a => a.hashFilename)).getD ""
  let files := if preferredName = "" then e.hashFiles else preferHashFile e.hashFiles preferredName
  let status := uploadStatus db attempt
  let filename := given (files.head?.map fun f => f.name)
  { state := (readinessState filename.isSome status e).1
    nextAction := (readinessState filename.isSome status e).2
    hashFilename := filename
    hashSerial := files.head?.bind fun f => f.serial
    uploadStatus := status
    uploadJobId := attempt.bind fun a => a.jobId
    autopilotDeviceId := e.autopilotDeviceId }

end Readiness

/-- A request with what the call finds outside the database; `ids` are the ids that
`JobManager.start` draws. -/
structure UploadRequest where
  runId : Nat
  vmGroupTag : String := ""
  evidence : Evidence
  preferredHashFilename : Option String := none
  isFile : String → Bool
  missingCredentials : List String := []
  ids : List JobId

inductive Answer where
  | noHash
  | invalidFilename
  | autopilotDeviceAlreadyImported
  | uploadAlreadyActive (jobId : Option JobId)
  | hashFileMissing (name : String)
  | entraCredentialsMissing (missing : List String)
  | noJobId
  | queued (jobId : JobId)
deriving DecidableEq, Repr

section Request
variable (db : UploadDb)

/-- `JobManager.start`: the first of eight ids that no job has. -/
def newJobId (ids : List JobId) : Option JobId := (ids.take 8).find? fun id => id ∉ db.jobs.map Job.id

def startJob (id : JobId) (jobType : String) (now : Time) : UploadDb :=
  { db with jobs := db.jobs ++ [{ id := id, jobType := jobType, createdAt := now }] }

def recordAutopilotUploadAttempt (runId : Nat) (jobId : Option JobId) (hashFilename expectedGroupTag : String)
    (status : UploadStatus) (error : Option String) (now : Time) : UploadDb :=
  { db with
    attempts := db.attempts ++ [⟨db.nextAttemptId, runId, jobId, hashFilename, expectedGroupTag, status, error, now⟩]
    nextAttemptId := db.nextAttemptId + 1 }

def UploadStatus.active (status : UploadStatus) : Bool :=
  status == .pending || status == .queued || status == .running

def queueAutopilotHashUpload (q : UploadRequest) (now : Time) : UploadDb × Answer :=
  let readiness := autopilotReadinessForRun db q.runId q.evidence q.preferredHashFilename
  match orElse q.preferredHashFilename readiness.hashFilename with
  | none => (db, .noHash)
  | some hashFilename =>
    if pathName hashFilename ≠ hashFilename then (db, .invalidFilename)
    else if (given readiness.autopilotDeviceId).isSome then (db, .autopilotDeviceAlreadyImported)
    else if readiness.uploadStatus.active then (db, .uploadAlreadyActive readiness.uploadJobId)
    else if !q.isFile hashFilename then (db, .hashFileMissing hashFilename)
    else if q.missingCredentials ≠ [] then
      (recordAutopilotUploadAttempt db q.runId none hashFilename (strip q.vmGroupTag) .notConfigured
        (some ("Hash captured; Entra upload credentials are not configured: " ++
          ", ".intercalate q.missingCredentials)) now,
        .entraCredentialsMissing q.missingCredentials)
    else
      match newJobId db q.ids with
      | none => (db, .noJobId)
      | some id =>
        (recordAutopilotUploadAttempt (startJob db id "upload_hash" now) q.runId (some id) hashFilename
          (strip q.vmGroupTag) .queued none now, .queued id)

end Request

section Queue

/-- The job `claim_next_job` takes with no other transaction open. -/
def nextJob (jobs : List Job) (limits : String → Option Int) : Option JobId :=
  (candidateTypes jobs).findSome? fun jobType =>
    if (limits jobType).getD defaultCap ≤ runningCount jobs jobType then none
    else oldestPending jobs jobType fun _ => false

def claimJob (workerId : String) (now : Time) (id : JobId) (j : Job) : Job :=
  if j.id = id ∧ j.status = .pending then
    { j with status := .running, workerId := some workerId, claimedAt := some now, lastHeartbeat := some now }
  else j

inductive Call where
  | queueUpload (q : UploadRequest)
  | claimNextJob (workerId : String)
  | finalizeJob (id : JobId) (exitCode : Int)
  | reapStaleRunningJobs (olderThanSeconds : Nat)
  | touchHeartbeat (id : JobId) (workerId : String)
  | requestKill (id : JobId)

/-- A call, so many seconds after the one before. -/
def exec (db : UploadDb) (c : Call × Nat) : UploadDb :=
  let now := db.clock + c.2
  let db := { db with clock := now }
  match c.1 with
  | .queueUpload q => (queueAutopilotHashUpload db q now).1
  | .claimNextJob workerId =>
    match nextJob db.jobs db.limits with
    | none => db
    | some id => { db with jobs := db.jobs.map (claimJob workerId now id) }
  | .finalizeJob id exitCode => { db with jobs := db.jobs.map (Jobs.Call.finalizeJob id exitCode now).update }
  | .reapStaleRunningJobs olderThanSeconds =>
    { db with jobs := db.jobs.map (Jobs.Call.reapStaleRunningJobs (now - olderThanSeconds) now).update }
  | .touchHeartbeat id workerId =>
    { db with jobs := db.jobs.map (Jobs.Call.touchHeartbeat id workerId now).update }
  | .requestKill id => { db with jobs := db.jobs.map (Jobs.Call.requestKill id).update }

end Queue

end ProxmoxVEAutopilot.CloudOsd.HashUpload
