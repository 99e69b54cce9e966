import ProxmoxVEAutopilot.Foundation.Interleaving

/-!
# The job queue

`claim_next_job` statement by statement, against the calls that change the same rows in
one statement each. READ COMMITTED: a statement reads the rows committed when it starts.
A claim writes once, just before it commits, so its write is applied at the commit; the
advisory locks it took on the way and the row lock of its `SELECT` are held until then.
-/

namespace ProxmoxVEAutopilot.Jobs

open Foundation
set_option autoImplicit false

abbrev JobId := String
abbrev Time := Nat

inductive JobStatus where
  | pending
  | running
  | complete
  | failed
  | orphaned
deriving DecidableEq, Repr

def JobStatus.final : JobStatus → Bool
  | .complete | .failed | .orphaned => true
  | .pending | .running => false

/-- A row of `jobs`; of `args_json` only `run_id` is read. -/
structure Job where
  id : JobId
  jobType : String
  runId : Option String := none
  status : JobStatus := .pending
  workerId : Option String := none
  killRequested : Bool := false
  exitCode : Option Int := none
  createdAt : Time
  claimedAt : Option Time := none
  lastHeartbeat : Option Time := none
  endedAt : Option Time := none

def defaultLimits : List (String × Int) :=
  [("build_template", 1), ("provision_clone", 3), ("cloudosd_build_iso", 1),
    ("cloudosd_cache_refresh_catalog", 1), ("cloudosd_cache_feature_image", 2),
    ("cloudosd_cache_quality_update", 2), ("provision_cloudosd", 4), ("osdeploy_build_iso", 1),
    ("osdeploy_cache_refresh_catalog", 1), ("osdeploy_cache_warm", 2), ("osdeploy_cache_verify", 2),
    ("osdeploy_cache_delete", 1), ("provision_osdeploy", 3), ("osdeploy_publish_iso", 1),
    ("hash_capture", 5), ("test_long_sleep", 5), ("upload_hash", 5), ("upload_after_capture", 5),
    ("retry_inject_hash", 3)]

def defaultCap : Int := 1

/-- A claim that was committed. -/
structure Granted where
  job : JobId
  workerId : String

/-- The tables, the locks of the open transactions, and what was claimed so far. -/
structure Queue (τ : Type) where
  jobs : List Job
  limits : String → Option Int
  advisory : Locks Int τ
  rows : Locks JobId τ
  granted : List Granted

def runningCount (jobs : List Job) (jobType : String) : Nat :=
  jobs.countP fun j => j.jobType == jobType && j.status == .running

def pendingOf (jobs : List Job) (jobType : String) : List Job :=
  jobs.filter fun j => j.jobType == jobType && j.status == .pending

def firstCreated (jobs : List Job) (jobType : String) : Time :=
  ((pendingOf jobs jobType).map Job.createdAt).min?.getD 0

def firstId (jobs : List Job) (jobType : String) : JobId :=
  ((pendingOf jobs jobType).map Job.id).min?.getD ""

def candidateLe (jobs : List Job) (a b : String) : Prop :=
  firstCreated jobs a < firstCreated jobs b ∨
    firstCreated jobs a = firstCreated jobs b ∧ firstId jobs a ≤ firstId jobs b

instance (jobs : List Job) : DecidableRel (candidateLe jobs) :=
  fun _ _ => inferInstanceAs (Decidable (_ ∨ _))

def candidateTypes (jobs : List Job) : List String :=
  ((jobs.filter fun j => j.status == .pending).map Job.jobType).dedup.insertionSort (candidateLe jobs)

def jobLe (a b : Job) : Prop := a.createdAt < b.createdAt ∨ a.createdAt = b.createdAt ∧ a.id ≤ b.id

instance : DecidableRel jobLe := fun _ _ => inferInstanceAs (Decidable (_ ∨ _))

/-- `ORDER BY created_at, id FOR UPDATE SKIP LOCKED LIMIT 1`. -/
def oldestPending (jobs : List Job) (jobType : String) (locked : JobId → Bool) : Option JobId :=
  (((pendingOf jobs jobType).insertionSort jobLe).find? fun j => !locked j.id).map Job.id

/-- The calls that are one statement. -/
inductive Call where
  | enqueue (id : JobId) (jobType : String) (runId : Option String) (now : Time)
  | touchHeartbeat (id : JobId) (workerId : String) (now : Time)
  | finalizeJob (id : JobId) (exitCode : Int) (now : Time)
  | requestKill (id : JobId)
  | reapStaleRunningJobs (cutoff now : Time)
  | updateJobTypeLimit (jobType : String) (maxConcurrent : Int)
  | completeInterruptedProvisionWinpeJobsForRun (runId : String) (now : Time)

def Call.update (call : Call) (j : Job) : Job :=
  match call with
  | .touchHeartbeat id workerId now =>
    if j.id = id ∧ j.workerId = some workerId ∧ j.status = .running then
      { j with lastHeartbeat := some now }
    else j
  | .finalizeJob id exitCode now =>
    if j.id = id ∧ j.status = .running then
      { j with
        status := if exitCode = 0 then .complete else .failed
        exitCode := some exitCode
        endedAt := some now
        killRequested := false }
    else j
  | .requestKill id => if j.id = id then { j with killRequested := true } else j
  | .reapStaleRunningJobs cutoff now =>
    if j.status = .running ∧ (j.lastHeartbeat.any fun beat => decide (beat < cutoff)) then
      { j with status := .orphaned, endedAt := some now }
    else j
  | .completeInterruptedProvisionWinpeJobsForRun runId now =>
    if (j.jobType = "provision_winpe" ∨ j.jobType = "provision_clone") ∧
        (j.status = .failed ∨ j.status = .orphaned) ∧ j.runId = some runId ∧
        (j.status = .orphaned ∨ j.exitCode = some (-15) ∨ j.exitCode = none) then
      { j with status := .complete, exitCode := some 0, endedAt := some now, killRequested := false }
    else j
  | .enqueue .. | .updateJobTypeLimit .. => j

section Statements
variable {τ : Type}

/-- The call as a whole; `none` while it waits for a row lock, or when it raises. -/
def Queue.call (q : Queue τ) (c : Call) : Option (Queue τ) :=
  match c with
  | .enqueue id jobType runId now =>
    if id ∈ q.jobs.map Job.id then none
    else some { q with jobs := q.jobs ++ [{ id, jobType, runId, createdAt := now }] }
  | .updateJobTypeLimit jobType maxConcurrent =>
    if maxConcurrent ≤ 0 then none
    else some { q with limits := Function.update q.limits jobType (some maxConcurrent) }
  | .requestKill id =>
    if (q.rows id).isSome then none else some { q with jobs := q.jobs.map (Call.update c) }
  | _ => some { q with jobs := q.jobs.map (Call.update c) }

/-- The loop variables of a claim: `tried` are the types before the current one. -/
structure Scan where
  workerId : String
  now : Time
  tried : List String
  jobType : String
  rest : List String

/-- Where a claim stands: each case is named for the last statement it ran. -/
inductive Pc where
  | idle
  | scanning (workerId : String) (now : Time) (tried rest : List String)
  | locked (c : Scan)
  | capRead (c : Scan) (cap : Int)
  | underCap (c : Scan) (cap : Int)
  | picked (c : Scan) (cap : Int) (job : JobId)
  | updated (c : Scan) (cap : Int) (job : JobId)

def Scan.next (c : Scan) : Pc := .scanning c.workerId c.now (c.tried ++ [c.jobType]) c.rest

def Scan.claim (c : Scan) (job : JobId) (j : Job) : Job :=
  if j.id = job ∧ j.status = .pending then
    { j with
      status := .running
      workerId := some c.workerId
      claimedAt := some c.now
      lastHeartbeat := some c.now }
  else j

inductive Action where
  /-- The snapshot of a new claim. -/
  | claimNextJob (workerId : String) (now : Time)
  /-- The next statement of the claim; `busy` are rows that calls in flight have locked. -/
  | statement (busy : List JobId)
  | abort
  | call (c : Call)

variable [DecidableEq τ] (hashtext : String → Int)

def Queue.release (q : Queue τ) (t : τ) : Queue τ :=
  { q with advisory := q.advisory.release t, rows := q.rows.release t }

def Queue.commitClaim (q : Queue τ) (t : τ) (c : Scan) (job : JobId) : Queue τ :=
  { q.release t with
    jobs := q.jobs.map (c.claim job)
    granted := q.granted ++ [⟨job, c.workerId⟩] }

instance (l : Locks Int τ) (k : Int) (t : τ) : Decidable (l.Available k t) :=
  inferInstanceAs (Decidable (_ ∨ _))

/-- One statement of `claim_next_job`; `none` while it waits for the advisory lock. -/
def Queue.statement (q : Queue τ) (t : τ) (busy : List JobId) : Pc → Option (Queue τ × Pc)
  | .idle => none
  | .scanning _ _ _ [] => some (q.release t, .idle)
  | .scanning workerId now tried (jobType :: rest) =>
    if q.advisory.Available (hashtext jobType) t then
      some ({ q with advisory := q.advisory.acquire (hashtext jobType) t },
        .locked { workerId, now, tried, jobType, rest })
    else none
  | .locked c => some (q, .capRead c ((q.limits c.jobType).getD defaultCap))
  | .capRead c cap =>
    -- The type stays locked when it is at its cap.
    if cap ≤ runningCount q.jobs c.jobType then some (q, c.next) else some (q, .underCap c cap)
  | .underCap c cap =>
    match oldestPending q.jobs c.jobType fun id =>
        decide (id ∈ busy) || (q.rows id).any fun u => decide (u ≠ t) with
    | none => some (q, c.next)
    | some job => some ({ q with rows := q.rows.acquire job t }, .picked c cap job)
  | .picked c cap job =>
    if q.jobs.any fun j => j.id == job && j.status == .pending then some (q, .updated c cap job)
    else some (q, c.next)
  | .updated c _ job => some (q.commitClaim t c job, .idle)

def Queue.act (q : Queue τ) (t : τ) : Pc → Action → Option (Queue τ × Pc)
  | .idle, .claimNextJob workerId now =>
    some (q, .scanning workerId now [] (candidateTypes q.jobs))
  | .idle, .call c => (q.call c).map fun q' => (q', .idle)
  | pc, .statement busy => q.statement hashtext t busy pc
  | _, .abort => some (q.release t, .idle)
  | _, _ => none

def Act (q : Queue τ) (t : τ) (pc : Pc) (q' : Queue τ) (pc' : Pc) : Prop :=
  ∃ a, q.act hashtext t pc a = some (q', pc')

def perform (w : Queue τ × (τ → Pc)) (x : τ × Action) : Option (Queue τ × (τ → Pc)) :=
  (w.1.act hashtext x.1 (w.2 x.1) x.2).map fun r => (r.1, Function.update w.2 x.1 r.2)

def replay (w : Queue τ × (τ → Pc)) : List (τ × Action) → Option (Queue τ × (τ → Pc))
  | [] => some w
  | x :: xs => (perform hashtext w x).bind fun w' => replay w' xs

theorem run_of_replay {xs : List (τ × Action)} : ∀ {w w' : Queue τ × (τ → Pc)},
    replay hashtext w xs = some w' → Run (Interleave (Act hashtext)) w (xs.map Prod.fst) w' := by
  induction xs with
  | nil =>
    intro w w' h
    cases h
    exact .nil w
  | cons x xs ih =>
    intro w w' h
    obtain ⟨v, hperform, hrest⟩ := Option.bind_eq_some_iff.mp h
    obtain ⟨r, hact, rfl⟩ := Option.map_eq_some_iff.mp hperform
    have hstep : Interleave (Act hashtext) w x.1 (r.1, Function.update w.2 x.1 r.2) :=
      ⟨r.1, r.2, ⟨x.2, hact⟩, rfl⟩
    exact (Run.single hstep).trans (ih hrest)

/-- Any table of jobs with distinct ids, no transaction open. -/
structure Quiet (w : Queue τ × (τ → Pc)) : Prop where
  ids : (w.1.jobs.map Job.id).Nodup
  noLocks : ∀ k, w.1.advisory k = none
  noRows : ∀ id, w.1.rows id = none
  noGrants : w.1.granted = []
  idle : ∀ t, w.2 t = .idle

end Statements

end ProxmoxVEAutopilot.Jobs
