import ProxmoxVEAutopilot.Jobs.Queue
import ProxmoxVEAutopilot.OsDeploy.FinalOutcome

/-!
# Provision jobs and the runs they fail

Every provision request queues a job for its run. The builder finalises a job when its process
ends, and once more, with all other failed jobs, whenever it starts. What keeps a job from
failing its run again is the state of the run, not the job's place among those of the run.
-/

namespace ProxmoxVEAutopilot.OsDeploy

open Foundation TsEngine
open Jobs (JobStatus)
set_option autoImplicit false

/-- A row of `jobs`; of `args_json` only `osdeploy_run_id` is read. -/
structure ProvisionJob where
  id : String
  jobType : String := "provision_osdeploy"
  osdeployRunId : Option Nat := none
  status : JobStatus := .pending
  exitCode : Option Int := none
  createdAt : Time
deriving DecidableEq

/-- The jobs stand in the order they were queued in. -/
structure Fleet where
  deployments : List Deployment
  jobs : List ProvisionJob

/-- What is read from the log of a job: the message, the id of the VM and the tail. -/
structure LogReading where
  message : String
  vmid : Option Int := none
  logTail : String := ""

/-- A call of `_finalize_related_deployment`. -/
structure Finalizing where
  job : ProvisionJob
  exitCode : Int
  log : LogReading
  now : Time

def Finalizing.failure (f : Finalizing) : JobFailure where
  jobId := f.job.id
  exitCode := some f.exitCode
  message := some f.log.message
  vmid := f.log.vmid
  logTail := some f.log.logTail

/-- The run that the call is about, if it does anything. -/
def Finalizing.target (f : Finalizing) : Option Nat :=
  if f.exitCode = 0 ∨ f.job.jobType ≠ "provision_osdeploy" then none else f.job.osdeployRunId

def Finalizing.on (f : Finalizing) (d : Deployment) : Deployment :=
  if f.target = some d.run.runId then markFailedFromJob d f.failure f.now else d

def finalizeRelatedDeployment (s : Fleet) (f : Finalizing) : Fleet := { s with deployments := s.deployments.map f.on }

def listJobs (limit : Nat) (jobs : List ProvisionJob) : List ProvisionJob :=
  (jobs.insertionSort fun a b => b.createdAt < a.createdAt ∨ a.createdAt = b.createdAt ∧ b.id ≤ a.id).take limit

/-- The calls of `reconcile_failed_related_deployments`. -/
def reconcileCalls (jobs : List ProvisionJob) (logs : String → LogReading) (now : Time) : List Finalizing :=
  ((listJobs 500 jobs).filter fun job =>
      job.jobType = "provision_osdeploy" ∧ (job.status = .failed ∨ job.status = .orphaned)).map fun job =>
    ⟨job, job.exitCode.getD (-1), logs job.id, now⟩

/-- What agents and playbooks report about a run. -/
inductive Report where
  | identity (vmid : Option Int) (vmUuid mac node computerName : Option String)
  | peRegistered (metadata : Json)
  | heartbeat (agentId : String) (heartbeat : Heartbeat)

def Report.call : Report → Call
  | .identity vmid vmUuid mac node computerName => .setRunIdentity vmid vmUuid mac node computerName
  | .peRegistered metadata => .markPeRegistered metadata
  | .heartbeat agentId sent => .markCompleteFromHeartbeat agentId sent

inductive FleetMove where
  /-- `provision_run`; the artifact of the run is uploaded or not. -/
  | provision (runId : Nat) (uploaded : Bool) (jobId : String) (now : Time)
  /-- A job of another kind is queued. -/
  | queue (jobId jobType : String) (now : Time)
  | claimed (jobId : String)
  /-- The process of a job has ended, and the builder has seen it. -/
  | ended (jobId : String) (exitCode : Int) (log : LogReading) (now : Time)
  | reaped (jobId : String)
  /-- The builder starts. -/
  | restart (logs : String → LogReading) (now : Time)
  | report (runId : Nat) (report : Report) (now : Time)

def enqueue (s : Fleet) (job : ProvisionJob) : Fleet :=
  if job.id ∈ s.jobs.map ProvisionJob.id then s else { s with jobs := s.jobs ++ [job] }

def updateJob (s : Fleet) (jobId : String) (update : ProvisionJob → ProvisionJob) : Fleet :=
  { s with jobs := s.jobs.map fun job => if job.id = jobId then update job else job }

/-- `finalize_job`: only a job that is running takes the outcome. -/
def finalizeJob (exitCode : Int) (job : ProvisionJob) : ProvisionJob :=
  if job.status = .running then
    { job with status := if exitCode = 0 then .complete else .failed, exitCode := some exitCode }
  else job

/-- What a move does before the runs of the jobs are finalised. -/
def prepare (s : Fleet) : FleetMove → Fleet
  | .provision runId uploaded jobId now =>
    if uploaded = true ∧ runId ∈ s.deployments.map (·.run.runId) then
      enqueue s { id := jobId, osdeployRunId := some runId, createdAt := now }
    else s
  | .queue jobId jobType now =>
    if jobType = "provision_osdeploy" then s else enqueue s { id := jobId, jobType := jobType, createdAt := now }
  | .claimed jobId => updateJob s jobId fun job => if job.status = .pending then { job with status := .running } else job
  | .ended jobId exitCode _ _ => updateJob s jobId (finalizeJob exitCode)
  | .reaped jobId => updateJob s jobId fun job => if job.status = .running then { job with status := .orphaned } else job
  | .restart _ _ => s
  | .report runId report now =>
    { s with deployments := s.deployments.map fun d => if d.run.runId = runId then exec d (report.call, now) else d }

/-- The finalising calls of a move, the row of a job as it was when it was claimed or listed. -/
def finalizings (s : Fleet) : FleetMove → List Finalizing
  | .ended jobId exitCode log now =>
    (s.jobs.filter fun job => job.id = jobId ∧ job.status ≠ .pending).map fun job => ⟨job, exitCode, log, now⟩
  | .restart logs now => reconcileCalls s.jobs logs now
  | _ => []

def Fleet.exec (s : Fleet) (m : FleetMove) : Fleet := (finalizings s m).foldl finalizeRelatedDeployment (prepare s m)

def callsFrom : Fleet → List Finalizing → List (Fleet × Finalizing)
  | _, [] => []
  | s, f :: rest => (s, f) :: callsFrom (finalizeRelatedDeployment s f) rest

def callsOf : Fleet → List FleetMove → List (Fleet × Finalizing)
  | _, [] => []
  | s, m :: moves => callsFrom (prepare s m) (finalizings s m) ++ callsOf (s.exec m) moves

/-! ### The latest job of a run -/

def laterJobs (jobs : List ProvisionJob) (job : ProvisionJob) : List ProvisionJob :=
  (jobs.dropWhile (·.id ≠ job.id)).tail.filter fun later =>
    later.jobType = "provision_osdeploy" ∧ later.osdeployRunId = job.osdeployRunId

/-- A run that the call moves to `failed` has no later job. -/
def FailsByLatest (s : Fleet) (f : Finalizing) : Prop :=
  ∀ d ∈ s.deployments, d.run.state ≠ .failed → (f.on d).run.state = .failed → laterJobs s.jobs f.job = []

/-- The run of the call has ended, or the job is its latest. -/
def Spared (s : Fleet) (f : Finalizing) : Prop :=
  ∀ d ∈ s.deployments, f.target = some d.run.runId →
    d.run.state = .complete ∨ d.run.state = .canceled ∨ d.run.state = .failed ∨ laterJobs s.jobs f.job = []

theorem failsByLatest_iff (s : Fleet) (f : Finalizing) : FailsByLatest s f ↔ Spared s f := by
  refine forall_congr' fun d => forall_congr' fun _ => ?_
  unfold Finalizing.on
  by_cases htarget : f.target = some d.run.runId
  · rw [if_pos htarget]
    constructor
    · intro h _
      by_cases hcomplete : d.run.state = .complete
      · exact .inl hcomplete
      by_cases hcanceled : d.run.state = .canceled
      · exact .inr (.inl hcanceled)
      by_cases hfailed : d.run.state = .failed
      · exact .inr (.inr (.inl hfailed))
      have hwritten := markFailedFromJob_written (f := f.failure) f.now ⟨hcomplete, hcanceled⟩ fun hboth => hfailed hboth.1
      exact .inr (.inr (.inr (h hfailed hwritten.1)))
    · intro h hopen hafter
      rcases h htarget with hstate | hstate | hstate | hlatest
      · rw [markFailedFromJob, if_pos (.inl hstate)] at hafter
        exact absurd hafter hopen
      · rw [markFailedFromJob, if_pos (.inr hstate)] at hafter
        exact absurd hafter hopen
      · exact absurd hstate hopen
      · exact hlatest
  · rw [if_neg htarget]
    exact iff_of_true (fun hopen hafter => absurd hafter hopen) fun h => absurd h htarget

/-! ### Every failure is recorded once -/

/-- At most one event and one entry for each job. -/
structure Once (d : Deployment) (jobId : String) : Prop where
  events : d.events.countP (·.names jobId) ≤ 1
  errors : d.readiness.errors.countP (·.ofJob jobId) ≤ 1

section Once

variable {d : Deployment} {jobId : String}

theorem Once.appendEvent {phase eventType severity : String} {message : Option String} {data : Json} {now : Time}
    (h : Once d jobId) (hnot : eventType ≠ "provision_job_failed") :
    Once (appendEvent d phase eventType severity message data now) jobId where
  events := by
    rw [appendEvent_events, List.countP_append, List.countP_singleton, if_neg]
    · exact h.events
    · simp [RunEvent.names, hnot]
  errors := by
    rw [appendEvent_readiness]
    exact h.errors

theorem once_report (h : Once d jobId) (report : Report) (now : Time) : Once (exec d (report.call, now)) jobId := by
  cases report with
  | identity =>
    dsimp only [exec, Report.call, setRunIdentity]
    exact Once.appendEvent ⟨h.events, h.errors⟩ (by decide)
  | peRegistered =>
    dsimp only [exec, Report.call, markPeRegistered]
    exact Once.appendEvent ⟨h.events, h.errors⟩ (by decide)
  | heartbeat =>
    dsimp only [exec, Report.call, markCompleteFromHeartbeat]
    exact Once.appendEvent ⟨h.events, Nat.zero_le 1⟩ (by decide)

theorem countP_putError {entry : ReadinessError} {other : String} {errors : List ReadinessError}
    (hentry : ∀ id, entry.ofJob id = true ↔ id = other) (h : errors.countP (·.ofJob jobId) ≤ 1) :
    (putError entry other errors).countP (·.ofJob jobId) ≤ 1 := by
  have hdistinct : ∀ e : ReadinessError, e.ofJob other = true → e.ofJob jobId = true → jobId = other := by
    intro e he hjob
    cases e with
    | builder id _ _ _ _ => exact (beq_iff_eq.mp hjob).symm.trans (beq_iff_eq.mp he)
    | serverRole _ _ _ _ => cases he
  induction errors with
  | nil =>
    unfold putError
    rw [List.countP_singleton]
    split <;> decide
  | cons e rest ih =>
    rw [List.countP_cons] at h
    unfold putError
    split
    · rename_i he
      rw [List.countP_cons]
      by_cases hjob : jobId = other
      · subst hjob
        rw [if_pos he] at h
        rw [if_pos ((hentry jobId).mpr rfl)]
        exact h
      · rw [if_neg (fun hthis => hjob ((hentry jobId).mp hthis))]
        exact (Nat.le_add_right _ _).trans h
    · rename_i he
      rw [List.countP_cons]
      by_cases hjob : e.ofJob jobId = true
      · rw [if_pos hjob] at h ⊢
        have hnone : rest.countP (·.ofJob jobId) = 0 := by omega
        -- the entry of another job, so the rest is untouched for this one
        have hne : jobId ≠ other := by
          rintro rfl
          exact he hjob
        have hrest : (putError entry other rest).countP (·.ofJob jobId) = 0 := by
          rw [List.countP_eq_zero] at hnone ⊢
          intro e' he'
          rcases of_mem_putError he' with rfl | he'
          · exact fun hthis => hne ((hentry jobId).mp hthis)
          · exact hnone e' he'
        omega
      · rw [if_neg hjob] at h ⊢
        exact ih h

theorem names_failure (phase message : String) (now : Time) (other : String) (fields : List (String × Json)) :
    RunEvent.names ⟨phase, "provision_job_failed", "error", some message, orEmpty (.obj (("job_id", .str other) :: fields)),
      now⟩ jobId = (other == jobId) := by
  simp [RunEvent.names, orEmpty, Json.truthy, Json.get?, columnText]

theorem once_markFailedFromJob (h : Once d jobId) (f : JobFailure) (now : Time) :
    Once (markFailedFromJob d f now) jobId := by
  have herrors : (putError f.entry f.jobId d.readiness.errors).countP (·.ofJob jobId) ≤ 1 := by
    refine countP_putError (fun id => ?_) h.errors
    rw [JobFailure.entry, ReadinessError.ofJob, beq_iff_eq, eq_comm]
  unfold markFailedFromJob
  split
  · exact h
  · split
    · exact h
    · dsimp only
      split
      · exact ⟨h.events, herrors⟩
      · rename_i hrecorded
        refine ⟨?_, by rw [appendEvent_readiness]; exact herrors⟩
        rw [appendEvent_events, List.countP_append, List.countP_singleton]
        simp only [List.cons_append, names_failure]
        cases hjob : f.jobId == jobId with
        | true =>
          have hnone : d.events.countP (·.names jobId) = 0 := by
            rw [List.countP_eq_zero]
            intro e he hnames
            rw [← beq_iff_eq.mp hjob] at hnames
            exact hrecorded (List.any_eq_true.mpr ⟨e, he, hnames⟩)
          rw [hnone, if_pos rfl]
        | false => exact h.events

theorem once_on (h : Once d jobId) (f : Finalizing) : Once (f.on d) jobId := by
  unfold Finalizing.on
  split
  · exact once_markFailedFromJob h f.failure f.now
  · exact h

end Once

/-! ### Runs -/

theorem once_created {d : Deployment} (h : Created d) (jobId : String) : Once d jobId := by
  obtain ⟨ids, nodeId, sequenceId, versionId, request, now, h⟩ := h
  obtain ⟨ts, rfl⟩ := createRun_ok h
  exact Once.appendEvent ⟨Nat.zero_le 1, Nat.zero_le 1⟩ (by decide)

def AllOnce (s : Fleet) : Prop := ∀ d ∈ s.deployments, ∀ jobId, Once d jobId

theorem allOnce_prepare {s : Fleet} (h : AllOnce s) (m : FleetMove) : AllOnce (prepare s m) := by
  have henqueue : ∀ job, AllOnce (enqueue s job) := by
    intro job
    unfold enqueue
    split <;> exact h
  cases m with
  | provision runId uploaded jobId now =>
    dsimp only [prepare]
    split
    · exact henqueue _
    · exact h
  | queue jobId jobType now =>
    dsimp only [prepare]
    split
    · exact h
    · exact henqueue _
  | claimed | ended | reaped | restart => exact h
  | report runId report now =>
    intro d hd jobId
    obtain ⟨before, hbefore, rfl⟩ := List.mem_map.mp hd
    split
    · exact once_report (h before hbefore jobId) report now
    · exact h before hbefore jobId

theorem allOnce_finalize {s : Fleet} (h : AllOnce s) (f : Finalizing) : AllOnce (finalizeRelatedDeployment s f) := by
  intro d hd jobId
  obtain ⟨before, hbefore, rfl⟩ := List.mem_map.mp hd
  exact once_on (h before hbefore jobId) f

theorem allOnce_exec {s : Fleet} (h : AllOnce s) (m : FleetMove) : AllOnce (s.exec m) :=
  List.foldlRecOn (motive := AllOnce) _ _ (allOnce_prepare h m) fun _ hs f _ => allOnce_finalize hs f

/-- Along any run of requests, outcomes, restarts and reports, the jobs that fail a run are the latest
ones of it if and only if each call meets a run that has ended or is about its latest job; and every
job leaves at most one event and one entry. -/
theorem latest_job_fails_iff (deployments : List Deployment) (hcreated : ∀ d ∈ deployments, Created d)
    (moves : List FleetMove) :
    ((∀ call ∈ callsOf ⟨deployments, []⟩ moves, FailsByLatest call.1 call.2) ↔
      ∀ call ∈ callsOf ⟨deployments, []⟩ moves, Spared call.1 call.2) ∧
    ∀ d ∈ (moves.foldl Fleet.exec ⟨deployments, []⟩).deployments, ∀ jobId, Once d jobId := by
  refine ⟨forall₂_congr fun call _ => failsByLatest_iff call.1 call.2, ?_⟩
  exact List.foldlRecOn (motive := AllOnce) moves _ (fun d hd => once_created (hcreated d hd))
    fun _ hs m _ => allOnce_exec hs m

instance (s : Fleet) (f : Finalizing) : Decidable (Spared s f) := by
  unfold Spared
  infer_instance

def quiet : LogReading := { message := "OSDeploy provision job failed" }

def failedProvision : List FleetMove :=
  [.provision baseServer.run.runId true "job-1" 1, .claimed "job-1", .ended "job-1" 1 quiet 2]

def provisionedAgain : List FleetMove :=
  failedProvision ++
    [ .provision baseServer.run.runId true "job-2" 3, .claimed "job-2"
    , .report baseServer.run.runId (.peRegistered .null) 4, .restart (fun _ => quiet) 5 ]

theorem failedProvision_by_latest :
    (callsOf ⟨[baseServer], []⟩ failedProvision).Forall fun call => FailsByLatest call.1 call.2 := by
  have hcreated : ∀ d ∈ [baseServer], Created d := List.forall_mem_singleton.mpr created_baseServer
  exact List.forall_iff_forall_mem.mpr
    ((latest_job_fails_iff [baseServer] hcreated failedProvision).1.mpr (by decide +kernel))

theorem replayed_job_fails_run :
    ¬ ∀ call ∈ callsOf ⟨[baseServer], []⟩ provisionedAgain, FailsByLatest call.1 call.2 := by
  intro h
  have hspared : ∀ call ∈ callsOf ⟨[baseServer], []⟩ provisionedAgain, Spared call.1 call.2 :=
    fun call hcall => (failsByLatest_iff call.1 call.2).mp (h call hcall)
  exact absurd hspared (by decide +kernel)

end ProxmoxVEAutopilot.OsDeploy
