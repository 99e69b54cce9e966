import ProxmoxVEAutopilot.Jobs.Caps

/-!
# Builders

A builder claims one job at a time, starts its command and watches the process: it beats,
looks for a kill request, and writes down the exit code. Reapers, kill requests, lost
statements and crashes come between any two of its steps.
-/

namespace ProxmoxVEAutopilot.Jobs

open Foundation
set_option autoImplicit false

/-- `abandoned` is a process whose builder crashed while it watched it. -/
structure Process (τ : Type) where
  job : JobId
  builder : τ
  exit : Option Int := none
  signalled : Bool := false
  abandoned : Bool := false

/-- Beside the queue and the processes, who claimed which job, and the jobs that their
builder left in a crash or without the row of their end. -/
structure Fleet (τ : Type) where
  queue : Queue τ
  processes : List (Process τ) := []
  claimedBy : JobId → Option τ := fun _ => none
  lost : List JobId := []

/-- Where `run_builder` and `_run_one_job` stand. One that is `down` also stands for the web
and monitor processes. -/
inductive Builder where
  | down
  | claiming (pc : Pc)
  | starting (job : JobId)
  | polling (job : JobId) (pid : Nat)
  | beating (job : JobId) (pid : Nat)
  | checking (job : JobId) (pid : Nat)
  | pausing (job : JobId) (pid : Nat)
  | finalizing (job : JobId) (pid : Option Nat) (exitCode : Int)
  | leaving (pid : Nat)

inductive Move where
  | boot
  | stop
  | claimNextJob (now : Time)
  | statement (busy : List JobId)
  -- an exception of the claim ends `run_builder`
  | raised
  | spawned
  | spawnFailed
  | poll
  | heartbeat (now : Time)
  | readJob
  -- an exception of a statement outside the claim, which is logged
  | databaseError
  | pause (stopEvent : Bool)
  | finalize (now : Time)
  | leave
  | crash
  | call (c : Call)
  | exit (pid : Nat) (code : Int)

namespace Builder

/-- The job whose row is this builder's to end. -/
def job? : Builder → Option JobId
  | starting job | polling job _ | beating job _ | checking job _ | pausing job _ | finalizing job _ _ => some job
  | _ => none

/-- The process that is watched. -/
def pid? : Builder → Option Nat
  | polling _ pid | beating _ pid | checking _ pid | pausing _ pid | finalizing _ (some pid) _ | leaving pid => some pid
  | _ => none

/-- Where a builder goes when it is done with a row. -/
def ended : Option Nat → Builder
  | some pid => leaving pid
  | none => claiming .idle

theorem ended_place (pid : Option Nat) : ended pid = claiming .idle ∨ ∃ i, ended pid = leaving i := by
  cases pid with
  | none => exact .inl rfl
  | some i => exact .inr ⟨i, rfl⟩

theorem pid_ended (pid : Option Nat) : (ended pid).pid? = pid := by
  cases pid <;> rfl

theorem pid_finalizing (job : JobId) (pid : Option Nat) (exitCode : Int) :
    (finalizing job pid exitCode).pid? = pid := by
  cases pid <;> rfl

end Builder

namespace Process
variable {τ : Type}

/-- `proc.terminate()` -/
def terminate (p : Process τ) : Process τ := { p with signalled := true }

/-- The `finally` of `_run_one_job`. -/
def leave (p : Process τ) : Process τ := if p.exit = none then p.terminate else p

def abandon (p : Process τ) : Process τ := { p with abandoned := true }

def ends (code : Int) (p : Process τ) : Process τ := if p.exit = none then { p with exit := some code } else p

end Process

def Call.outside : Call → Bool
  | touchHeartbeat .. | finalizeJob .. => false
  | _ => true

section Moves
variable {τ : Type} [DecidableEq τ] (hashtext : String → Int) (workerId : τ → String)

namespace Fleet

def change (f : Fleet τ) (pid : Nat) (g : Process τ → Process τ) : Fleet τ :=
  { f with processes := f.processes.modify pid g }

def callQueue (f : Fleet τ) (c : Call) : Option (Fleet τ) := (f.queue.call c).map fun q => { f with queue := q }

/-- The locks are dropped with the connection. -/
def crash (f : Fleet τ) (t : τ) (b : Builder) : Fleet τ :=
  let f' := match b.pid? with
    | some pid => f.change pid Process.abandon
    | none => f
  { f' with queue := f.queue.release t, lost := f.lost ++ b.job?.toList }

/-- Everything a builder does to one statement, one process or one wait. -/
def move (f : Fleet τ) (t : τ) : Builder → Move → Option (Fleet τ × Builder)
  | .down, .boot => some (f, .claiming .idle)
  | .claiming .idle, .stop => some (f, .down)
  | .claiming pc, .claimNextJob now =>
    (f.queue.act hashtext t pc (.claimNextJob (workerId t) now)).map fun r => ({ f with queue := r.1 }, .claiming r.2)
  | .claiming pc, .statement busy =>
    (f.queue.statement hashtext t busy pc).map fun r =>
      match pc with
      | .updated _ _ job =>
        ({ f with queue := r.1, claimedBy := Function.update f.claimedBy job (some t) }, .starting job)
      | _ => ({ f with queue := r.1 }, .claiming r.2)
  | .claiming _, .raised => some ({ f with queue := f.queue.release t }, .down)
  | .starting job, .spawned =>
    some ({ f with processes := f.processes ++ [{ job := job, builder := t }] }, .polling job f.processes.length)
  | .starting job, .spawnFailed => some (f, .finalizing job none (-1))
  | .polling job pid, .poll =>
    match (f.processes[pid]?).bind Process.exit with
    | some code => some (f, .finalizing job (some pid) code)
    | none => some (f, .beating job pid)
  | .beating job pid, .heartbeat now =>
    (f.callQueue (.touchHeartbeat job (workerId t) now)).map fun f' =>
      -- the row count of the update
      if f.queue.jobs.any fun j => j.id = job ∧ j.workerId = some (workerId t) ∧ j.status = .running then
        (f', .checking job pid)
      else (f', .leaving pid)
  | .beating job pid, .databaseError => some (f, .pausing job pid)
  | .checking job pid, .readJob =>
    if f.queue.jobs.any fun j => j.id = job ∧ j.killRequested = true then
      some (f.change pid Process.terminate, .pausing job pid)
    else some (f, .pausing job pid)
  | .checking job pid, .databaseError => some (f, .pausing job pid)
  | .pausing job pid, .pause stopEvent =>
    some (if stopEvent then f.change pid Process.terminate else f, .polling job pid)
  | .finalizing job pid exitCode, .finalize now =>
    (f.callQueue (.finalizeJob job exitCode now)).map fun f' => (f', .ended pid)
  | .finalizing job pid _, .databaseError => some ({ f with lost := f.lost ++ [job] }, .ended pid)
  | .leaving pid, .leave => some (f.change pid Process.leave, .claiming .idle)
  | .down, .call c => if c.outside then (f.callQueue c).map fun f' => (f', .down) else none
  | .down, .exit pid code => some (f.change pid (Process.ends code), .down)
  | .down, .crash => none
  | b, .crash => some (f.crash t b, .down)
  | _, _ => none

/-- A move that does not fit where its builder stands, or that waits, changes nothing. -/
def exec (w : Fleet τ × (τ → Builder)) (x : τ × Move) : Fleet τ × (τ → Builder) :=
  match move hashtext workerId w.1 x.1 (w.2 x.1) x.2 with
  | none => w
  | some (f, b) => (f, Function.update w.2 x.1 b)

/-- Any table of jobs; no builder is up and no process is known. -/
def start (jobs : List Job) (limits : String → Option Int) : Fleet τ × (τ → Builder) :=
  ({ queue := { jobs := jobs, limits := limits, advisory := fun _ => none, rows := fun _ => none, granted := [] } },
    fun _ => .down)

end Fleet

end Moves

section Rows
variable {τ : Type} {processes : List (Process τ)} {j : Job}

/-- A job that may be completed on behalf of a run. -/
def Job.Interruptible (j : Job) : Prop :=
  (j.jobType = "provision_winpe" ∨ j.jobType = "provision_clone") ∧ j.runId ≠ none

/-- The end of a job is that of its process, or of the attempt to start one. -/
structure Honest (processes : List (Process τ)) (j : Job) : Prop where
  complete : j.status = .complete → (∃ p ∈ processes, p.job = j.id ∧ p.exit = some 0) ∨ j.Interruptible
  failed : j.status = .failed → ∃ code, j.exitCode = some code ∧ code ≠ 0 ∧
    (code = -1 ∨ ∃ p ∈ processes, p.job = j.id ∧ p.exit = some code)

theorem update_workerId (c : Call) (j : Job) : (c.update j).workerId = j.workerId := by
  cases c with
  | enqueue | updateJobTypeLimit => rfl
  | _ =>
    simp only [Call.update]
    split <;> rfl

theorem update_running {c : Call} (h : (c.update j).status = .running) : j.status = .running := by
  rcases (c.update_evolves j).status with heq | ⟨_, hfinal⟩ | ⟨hfalse, _⟩
  · rw [← heq]
    exact h
  · rw [h] at hfinal
    cases hfinal
  · exact hfalse.elim

theorem honest_of_running (h : j.status = .running) : Honest processes j := by
  constructor
  · intro hcomplete
    rw [h] at hcomplete
    cases hcomplete
  · intro hfailed
    rw [h] at hfailed
    cases hfailed

theorem update_honest {c : Call} (h : Honest processes j)
    (hreason : ∀ id code now, c = .finalizeJob id code now → j.id = id →
      code = -1 ∨ ∃ p ∈ processes, p.job = id ∧ p.exit = some code) : Honest processes (c.update j) := by
  cases c with
  | enqueue | updateJobTypeLimit => exact h
  | touchHeartbeat | requestKill =>
    simp only [Call.update]
    split
    · exact ⟨h.complete, h.failed⟩
    · exact h
  | finalizeJob id code now =>
    simp only [Call.update]
    split
    · rename_i hrow
      have hwhy := hreason id code now rfl hrow.1
      by_cases hzero : code = 0
      · refine ⟨fun _ => .inl ?_, fun hfailed => ?_⟩
        · obtain ⟨p, hp, hjob, hexit⟩ := hwhy.resolve_left (by omega)
          exact ⟨p, hp, hjob.trans hrow.1.symm, hzero ▸ hexit⟩
        · simp [hzero] at hfailed
      · refine ⟨fun hcomplete => ?_, fun _ => ⟨code, rfl, hzero, ?_⟩⟩
        · simp [hzero] at hcomplete
        · rcases hwhy with hcode | hexited
          · exact .inl hcode
          · obtain ⟨p, hp, hjob, hexit⟩ := hexited
            exact .inr ⟨p, hp, hjob.trans hrow.1.symm, hexit⟩
    · exact h
  | reapStaleRunningJobs cutoff now =>
    simp only [Call.update]
    split
    · exact ⟨fun hstatus => (by cases hstatus), fun hstatus => (by cases hstatus)⟩
    · exact h
  | completeInterruptedProvisionWinpeJobsForRun runId now =>
    simp only [Call.update]
    split
    · rename_i hrow
      refine ⟨fun _ => .inr ⟨hrow.1, ?_⟩, fun hstatus => (by cases hstatus)⟩
      change j.runId ≠ none
      rw [hrow.2.2.1]
      simp
    · exact h

end Rows

section Processes
variable {τ : Type} {p p' : Process τ}

/-- What can come to pass with a process; one that is alone was alone. -/
structure Process.Ages (p p' : Process τ) : Prop where
  job : p'.job = p.job
  builder : p'.builder = p.builder
  exit : ∀ code, p.exit = some code → p'.exit = some code
  alone : p'.exit = none → p'.signalled = false → p'.abandoned = false →
    p.exit = none ∧ p.signalled = false ∧ p.abandoned = false

theorem Process.Ages.refl (p : Process τ) : p.Ages p := ⟨rfl, rfl, fun _ h => h, fun h h' h'' => ⟨h, h', h''⟩⟩

theorem Process.ages_terminate (p : Process τ) : p.Ages p.terminate :=
  ⟨rfl, rfl, fun _ h => h, fun _ h' _ => by cases h'⟩

theorem Process.ages_abandon (p : Process τ) : p.Ages p.abandon :=
  ⟨rfl, rfl, fun _ h => h, fun _ _ h'' => by cases h''⟩

theorem Process.ages_leave (p : Process τ) : p.Ages p.leave := by
  unfold Process.leave
  split
  · exact p.ages_terminate
  · exact .refl p

theorem Process.ages_ends (code : Int) (p : Process τ) : p.Ages (p.ends code) := by
  unfold Process.ends
  split
  · rename_i hnone
    refine ⟨rfl, rfl, fun code' h => ?_, fun h _ _ => ?_⟩
    · rw [hnone] at h
      cases h
    · cases h
  · exact .refl p

theorem Honest.ages {processes processes' : List (Process τ)} {j : Job} (h : Honest processes j)
    (hages : ∀ p ∈ processes, ∃ p' ∈ processes', p.Ages p') : Honest processes' j := by
  have hexit : ∀ {code}, (∃ p ∈ processes, p.job = j.id ∧ p.exit = some code) →
      ∃ p ∈ processes', p.job = j.id ∧ p.exit = some code := by
    intro code hexited
    obtain ⟨p, hp, hjob, hexit⟩ := hexited
    obtain ⟨p', hp', hages⟩ := hages p hp
    exact ⟨p', hp', hages.job.trans hjob, hages.exit _ hexit⟩
  refine ⟨fun hstatus => (h.complete hstatus).imp_left hexit, fun hstatus => ?_⟩
  obtain ⟨code, hcode, hne, hwhy⟩ := h.failed hstatus
  exact ⟨code, hcode, hne, hwhy.imp_right hexit⟩

end Processes

section Invariant
variable {τ : Type} {f f' : Fleet τ} {t u : τ} {b b' : Builder} {hashtext : String → Int} {workerId : τ → String}

def Pc.workerId? : Pc → Option String
  | idle => none
  | scanning workerId _ _ _ => some workerId
  | locked c | capRead c _ | underCap c _ | picked c _ _ | updated c _ _ => some c.workerId

/-- What a claim may rely on. -/
structure Claims (hashtext : String → Int) (workerId : τ → String) (q : Queue τ) (t : τ) (pc : Pc) : Prop where
  holds : Local hashtext q t pc
  named : ∀ w, pc.workerId? = some w → w = workerId t

def Granted? (q : Queue τ) (job : JobId) : Prop := job ∈ q.granted.map Granted.job

/-- What holds of the rows and processes, wherever the builders stand. -/
structure FleetSound (workerId : τ → String) (f : Fleet τ) : Prop where
  queue : Sound f.queue
  granted : ∀ job, f.claimedBy job ≠ none ↔ Granted? f.queue job
  once : (f.processes.map Process.job).Nodup
  claimed : ∀ p ∈ f.processes, f.claimedBy p.job = some p.builder
  worker : ∀ j ∈ f.queue.jobs, ∀ t, f.claimedBy j.id = some t → j.workerId = some (workerId t)
  honest : ∀ j ∈ f.queue.jobs, f.claimedBy j.id ≠ none → Honest f.processes j

/-- What a builder may rely on. -/
structure Stands (hashtext : String → Int) (workerId : τ → String) (f : Fleet τ) (t : τ) (b : Builder) : Prop where
  claim : ∀ pc, b = .claiming pc → Claims hashtext workerId f.queue t pc
  owns : ∀ job, b.job? = some job → f.claimedBy job = some t
  unstarted : ∀ job, b = .starting job → job ∉ f.processes.map Process.job
  atWork : ∀ job pid, b.job? = some job → b.pid? = some pid → ∃ p, f.processes[pid]? = some p ∧ p.job = job
  exited : ∀ job pid code, b = .finalizing job pid code →
    code = -1 ∨ ∃ p ∈ f.processes, p.job = job ∧ p.exit = some code
  supervised : ∀ (pid : Nat) (p : Process τ), f.processes[pid]? = some p → p.builder = t → p.exit = none →
    p.signalled = false → p.abandoned = false → b.pid? = some pid
  running : ∀ j ∈ f.queue.jobs, f.claimedBy j.id = some t → j.status = .running →
    b.job? = some j.id ∨ j.id ∈ f.lost

/-- What the moves of one builder leave to the others. -/
structure Keeps (hashtext : String → Int) (f : Fleet τ) (t : τ) (f' : Fleet τ) : Prop where
  queue : Guar hashtext f.queue t f'.queue
  claimed : ∀ job u, f.claimedBy job = some u → f'.claimedBy job = some u
  claims : ∀ job u, u ≠ t → f'.claimedBy job = some u → f.claimedBy job = some u
  processes : ∀ (pid : Nat) (p : Process τ), f.processes[pid]? = some p → ∃ p', f'.processes[pid]? = some p' ∧ p.Ages p'
  started : ∀ (pid : Nat) (p' : Process τ), f'.processes[pid]? = some p' → p'.builder ≠ t →
    ∃ p, f.processes[pid]? = some p ∧ p.Ages p'
  lost : ∀ job ∈ f.lost, job ∈ f'.lost
  running : ∀ j' ∈ f'.queue.jobs, j'.status = .running →
    f'.claimedBy j'.id = some t ∨ ∃ j ∈ f.queue.jobs, j.id = j'.id ∧ j.status = .running

theorem Stands.stable (h : Stands hashtext workerId f u b) (hne : u ≠ t) (hk : Keeps hashtext f t f')
    (hs : FleetSound workerId f') : Stands hashtext workerId f' u b := by
  refine ⟨fun pc hpc => ⟨local_stable (h.claim pc hpc).holds hne hk.queue, (h.claim pc hpc).named⟩,
    fun job hjob => hk.claimed _ _ (h.owns job hjob), fun job hjob hmem => ?_, fun job pid hjob hpid => ?_,
    fun job pid code hb => ?_, fun pid p hp hbuilder hexit hsig hab => ?_, fun j hj hclaimed hrunning => ?_⟩
  · obtain ⟨p', hp', rfl⟩ := List.mem_map.mp hmem
    obtain ⟨pid, hpid⟩ := List.mem_iff_getElem?.mp hp'
    by_cases hbuilder : p'.builder = t
    · have hclaimed := hs.claimed p' hp'
      have howns := hk.claimed _ _ (h.owns p'.job (by rw [hjob]; rfl))
      rw [howns, hbuilder] at hclaimed
      exact hne (Option.some.inj hclaimed)
    · obtain ⟨p, hp, hages⟩ := hk.started pid p' hpid hbuilder
      exact h.unstarted p'.job hjob (List.mem_map.mpr ⟨p, List.mem_of_getElem? hp, hages.job.symm⟩)
  · obtain ⟨p, hp, hpjob⟩ := h.atWork job pid hjob hpid
    obtain ⟨p', hp', hages⟩ := hk.processes pid p hp
    exact ⟨p', hp', hages.job.trans hpjob⟩
  · refine (h.exited job pid code hb).imp_right fun hexited => ?_
    obtain ⟨p, hp, hjob, hexit⟩ := hexited
    obtain ⟨i, hi⟩ := List.mem_iff_getElem?.mp hp
    obtain ⟨p', hp', hages⟩ := hk.processes i p hi
    exact ⟨p', List.mem_of_getElem? hp', hages.job.trans hjob, hages.exit code hexit⟩
  · obtain ⟨q, hq, hages⟩ := hk.started pid p hp (by rw [hbuilder]; exact hne)
    obtain ⟨hexit, hsig, hab⟩ := hages.alone hexit hsig hab
    exact h.supervised pid q hq (hages.builder.symm.trans hbuilder) hexit hsig hab
  · rcases hk.running j hj hrunning with hmine | ⟨k, hk', hid, hstatus⟩
    · rw [hclaimed] at hmine
      exact absurd (Option.some.inj hmine) hne
    · have hold := h.running k hk' (by rw [hid]; exact hk.claims _ _ hne hclaimed) hstatus
      rw [hid] at hold
      exact hold.imp_right (hk.lost _)

/-- A move that claims nothing and starts nothing. -/
structure Calm (hashtext : String → Int) (f : Fleet τ) (t : τ) (f' : Fleet τ) : Prop where
  sound : Sound f'.queue
  queue : Guar hashtext f.queue t f'.queue
  granted : f'.queue.granted = f.queue.granted
  claimedBy : f'.claimedBy = f.claimedBy
  rows : ∀ j' ∈ f'.queue.jobs, j'.status = .pending ∨ ∃ j ∈ f.queue.jobs, j.id = j'.id ∧ j'.workerId = j.workerId ∧
    (j'.status = .running → j.status = .running) ∧
      (f.claimedBy j.id ≠ none → Honest f.processes j → Honest f'.processes j')
  length : f'.processes.length = f.processes.length
  aged : ∀ (pid : Nat) (p : Process τ), f.processes[pid]? = some p → ∃ p', f'.processes[pid]? = some p' ∧ p.Ages p'
  lost : ∀ job ∈ f.lost, job ∈ f'.lost

theorem Calm.was (h : Calm hashtext f t f') {pid : Nat} {p' : Process τ} (hp' : f'.processes[pid]? = some p') :
    ∃ p, f.processes[pid]? = some p ∧ p.Ages p' := by
  have hlt := (List.getElem?_eq_some_iff.mp hp').1
  rw [h.length] at hlt
  obtain ⟨p'', hp'', hages⟩ := h.aged pid _ (List.getElem?_eq_getElem hlt)
  rw [hp'] at hp''
  cases hp''
  exact ⟨_, List.getElem?_eq_getElem hlt, hages⟩

theorem Calm.keeps (h : Calm hashtext f t f') : Keeps hashtext f t f' := by
  refine ⟨h.queue, fun job u hu => by rw [h.claimedBy]; exact hu, fun job u _ hu => by rw [← h.claimedBy]; exact hu,
    h.aged, fun pid p' hp' _ => h.was hp', h.lost, fun j' hj' hrunning => ?_⟩
  rcases h.rows j' hj' with hpending | ⟨j, hj, hid, _, hstatus, _⟩
  · rw [hrunning] at hpending
    cases hpending
  · exact .inr ⟨j, hj, hid, hstatus hrunning⟩

theorem FleetSound.not_pending (hgranted : ∀ job, f.claimedBy job ≠ none ↔ Granted? f.queue job) (hs : Sound f.queue)
    {j : Job} (hj : j ∈ f.queue.jobs) (hclaimed : f.claimedBy j.id ≠ none) : j.status ≠ .pending := by
  obtain ⟨g, hg, hjob⟩ := List.mem_map.mp ((hgranted _).mp hclaimed)
  obtain ⟨k, hk, hid, hstatus⟩ := hs.left g hg
  rw [List.inj_on_of_nodup_map hs.ids hj hk (hjob.symm.trans hid.symm)]
  exact hstatus

theorem FleetSound.calm (h : FleetSound workerId f) (hc : Calm hashtext f t f') : FleetSound workerId f' := by
  have hgranted : ∀ job, f'.claimedBy job ≠ none ↔ Granted? f'.queue job := by
    intro job
    rw [hc.claimedBy, h.granted]
    unfold Granted?
    rw [hc.granted]
  have hjobs : f'.processes.map Process.job = f.processes.map Process.job := by
    apply List.ext_getElem?
    intro pid
    rw [List.getElem?_map, List.getElem?_map]
    cases hp : f.processes[pid]? with
    | none =>
      have hle := List.getElem?_eq_none_iff.mp hp
      rw [List.getElem?_eq_none_iff.mpr (hc.length ▸ hle)]
    | some p =>
      obtain ⟨p', hp', hages⟩ := hc.aged pid p hp
      rw [hp']
      exact congrArg some hages.job
  refine ⟨hc.sound, hgranted, hjobs ▸ h.once, fun p' hp' => ?_, fun j' hj' t hclaimed => ?_, fun j' hj' hclaimed => ?_⟩
  · obtain ⟨pid, hpid⟩ := List.mem_iff_getElem?.mp hp'
    obtain ⟨p, hp, hages⟩ := hc.was hpid
    rw [hc.claimedBy, hages.job, hages.builder]
    exact h.claimed p (List.mem_of_getElem? hp)
  · have hnot := FleetSound.not_pending hgranted hc.sound hj' (by rw [hclaimed]; simp)
    obtain ⟨j, hj, hid, hworker, _⟩ := (hc.rows j' hj').resolve_left hnot
    rw [hworker]
    rw [hc.claimedBy, ← hid] at hclaimed
    exact h.worker j hj t hclaimed
  · have hnot := FleetSound.not_pending hgranted hc.sound hj' hclaimed
    obtain ⟨j, hj, hid, _, _, hhonest⟩ := (hc.rows j' hj').resolve_left hnot
    rw [hc.claimedBy, ← hid] at hclaimed
    exact hhonest hclaimed (h.honest j hj hclaimed)

theorem Stands.next (h : Stands hashtext workerId f t b) (hc : Calm hashtext f t f')
    (hclaim : ∀ pc, b' = .claiming pc → Claims hashtext workerId f'.queue t pc) (hstarting : ∀ job, b' ≠ .starting job)
    (hexited : ∀ job pid code, b' = .finalizing job pid code →
      code = -1 ∨ ∃ p ∈ f'.processes, p.job = job ∧ p.exit = some code)
    (hjob : ∀ job, b'.job? = some job → b.job? = some job)
    (hpid : ∀ job pid, b'.job? = some job → b'.pid? = some pid → b.pid? = some pid)
    (hleft : ∀ pid, b.pid? = some pid → b'.pid? = some pid ∨ ∀ p', f'.processes[pid]? = some p' →
      p'.exit ≠ none ∨ p'.signalled = true ∨ p'.abandoned = true)
    (hrow : ∀ job, b.job? = some job → b'.job? = some job ∨ job ∈ f'.lost ∨
      ∀ j ∈ f'.queue.jobs, j.id = job → j.status ≠ .running) : Stands hashtext workerId f' t b' := by
  refine ⟨hclaim, fun job hb' => ?_, fun job hb' => absurd hb' (hstarting job), fun job pid hb' hp => ?_, hexited,
    fun pid p' hp' hbuilder hexit hsig hab => ?_, fun j' hj' hclaimed hrunning => ?_⟩
  · rw [hc.claimedBy]
    exact h.owns job (hjob job hb')
  · obtain ⟨p, hp, hpjob⟩ := h.atWork job pid (hjob job hb') (hpid job pid hb' hp)
    obtain ⟨p', hp', hages⟩ := hc.aged pid p hp
    exact ⟨p', hp', hages.job.trans hpjob⟩
  · obtain ⟨p, hp, hages⟩ := hc.was hp'
    obtain ⟨hexit', hsig', hab'⟩ := hages.alone hexit hsig hab
    rcases hleft pid (h.supervised pid p hp (hages.builder.symm.trans hbuilder) hexit' hsig' hab') with hsame | hgone
    · exact hsame
    · rcases hgone p' hp' with hgone | hgone | hgone
      · exact absurd hexit hgone
      · rw [hsig] at hgone
        cases hgone
      · rw [hab] at hgone
        cases hgone
  · rcases hc.rows j' hj' with hpending | ⟨j, hj, hid, _, hstatus, _⟩
    · rw [hrunning] at hpending
      cases hpending
    rw [hc.claimedBy, ← hid] at hclaimed
    rcases h.running j hj hclaimed (hstatus hrunning) with hmine | hlost
    · rw [hid] at hmine
      rcases hrow _ hmine with hsame | hlost | hover
      · exact .inl hsame
      · exact .inr hlost
      · exact absurd hrunning (hover j' hj' rfl)
    · rw [← hid]
      exact .inr (hc.lost _ hlost)

theorem calm_of_jobs {q : Queue τ} (hq : Sound q) (hguar : Guar hashtext f.queue t q)
    (hjobs : q.jobs = f.queue.jobs) (hgranted : q.granted = f.queue.granted) :
    Calm hashtext f t { f with queue := q } := by
  refine ⟨hq, hguar, hgranted, rfl, fun j hj => ?_, rfl, fun pid p hp => ⟨p, hp, .refl p⟩, fun _ h => h⟩
  change j ∈ q.jobs at hj
  rw [hjobs] at hj
  exact .inr ⟨j, hj, rfl, rfl, id, fun _ h => h⟩

theorem Calm.refl (hs : Sound f.queue) : Calm hashtext f t f := calm_of_jobs hs (.refl _ _) rfl rfl

theorem calm_change (hs : Sound f.queue) (pid : Nat) {g : Process τ → Process τ} (hg : ∀ p : Process τ, p.Ages (g p)) :
    Calm hashtext f t (f.change pid g) := by
  have haged : ∀ (i : Nat) (p : Process τ), f.processes[i]? = some p →
      ∃ p', (f.change pid g).processes[i]? = some p' ∧ p.Ages p' := by
    intro i p hp
    unfold Fleet.change
    dsimp only
    rw [List.getElem?_modify, hp]
    by_cases hi : pid = i
    · exact ⟨g p, by simp [hi], hg p⟩
    · exact ⟨p, by simp [hi], .refl p⟩
  refine ⟨hs, .refl _ _, rfl, rfl, fun j hj => .inr ⟨j, hj, rfl, rfl, id, fun _ h => ?_⟩, List.length_modify _ _ _,
    haged, fun _ h => h⟩
  refine h.ages fun p hp => ?_
  obtain ⟨i, hi⟩ := List.mem_iff_getElem?.mp hp
  obtain ⟨p', hp', hages⟩ := haged i p hi
  exact ⟨p', List.mem_of_getElem? hp', hages⟩

theorem calm_lost (hc : Calm hashtext f t f') (jobs : List JobId) :
    Calm hashtext f t { f' with lost := f'.lost ++ jobs } :=
  ⟨hc.sound, hc.queue, hc.granted, hc.claimedBy, hc.rows, hc.length, hc.aged,
    fun job h => List.mem_append.mpr (.inl (hc.lost job h))⟩

theorem calm_call (hs : Sound f.queue) {c : Call} {q : Queue τ} (hcall : f.queue.call c = some q)
    (hreason : ∀ id code now, c = .finalizeJob id code now →
      code = -1 ∨ ∃ p ∈ f.processes, p.job = id ∧ p.exit = some code) :
    Calm hashtext f t { f with queue := q } := by
  obtain ⟨hsound, hguar⟩ : Sound q ∧ Guar hashtext f.queue t q := call_step hcall hs
  obtain ⟨⟨jobs, limits, rfl⟩, hjobs⟩ := call_cases hcall
  refine ⟨hsound, hguar, rfl, rfl, fun j' hj' => ?_, rfl, fun pid p hp => ⟨p, hp, .refl p⟩, fun _ h => h⟩
  change j' ∈ jobs at hj'
  rcases hjobs with hjobs | ⟨new, _, hpending, hjobs⟩
  · change jobs = _ at hjobs
    rw [hjobs] at hj'
    obtain ⟨j, hj, rfl⟩ := List.mem_map.mp hj'
    exact .inr ⟨j, hj, (c.update_evolves j).id.symm, update_workerId c j, update_running,
      fun _ h => update_honest h fun id code now hc _ => hreason id code now hc⟩
  · change jobs = _ at hjobs
    rw [hjobs] at hj'
    rcases List.mem_append.mp hj' with hj | hj
    · exact .inr ⟨j', hj, rfl, rfl, id, fun _ h => h⟩
    · rw [List.mem_singleton.mp hj]
      exact .inl hpending

/-- What every move establishes. -/
structure Moved (hashtext : String → Int) (workerId : τ → String) (f : Fleet τ) (t : τ) (f' : Fleet τ) (b' : Builder) :
    Prop where
  sound : FleetSound workerId f'
  stands : Stands hashtext workerId f' t b'
  keeps : Keeps hashtext f t f'

theorem Moved.calm (hf : FleetSound workerId f) (hc : Calm hashtext f t f')
    (hstands : Stands hashtext workerId f' t b') :
    Moved hashtext workerId f t f' b' := ⟨hf.calm hc, hstands, hc.keeps⟩

theorem Stands.along (h : Stands hashtext workerId f t b) (hc : Calm hashtext f t f')
    (hclaim : ∀ pc, b' = .claiming pc → Claims hashtext workerId f'.queue t pc) (hstarting : ∀ job, b' ≠ .starting job)
    (hexited : ∀ job pid code, b' = .finalizing job pid code →
      code = -1 ∨ ∃ p ∈ f'.processes, p.job = job ∧ p.exit = some code)
    (hjob : b'.job? = b.job?) (hpid : b'.pid? = b.pid?) : Stands hashtext workerId f' t b' :=
  h.next hc hclaim hstarting hexited (fun _ hb => hjob.symm.trans hb) (fun _ _ _ hb => hpid.symm.trans hb)
    (fun _ hb => .inl (hpid.trans hb)) fun _ hb => .inl (hjob.trans hb)

theorem moved_along (hf : FleetSound workerId f) (h : Stands hashtext workerId f t b) (hc : Calm hashtext f t f')
    (hclaiming : ∀ pc, b' ≠ .claiming pc) (hstarting : ∀ job, b' ≠ .starting job)
    (hexited : ∀ job pid code, b' = .finalizing job pid code →
      code = -1 ∨ ∃ p ∈ f'.processes, p.job = job ∧ p.exit = some code)
    (hjob : b'.job? = b.job?) (hpid : b'.pid? = b.pid?) : Moved hashtext workerId f t f' b' :=
  .calm hf hc (h.along hc (fun pc hb => absurd hb (hclaiming pc)) hstarting hexited hjob hpid)

theorem moved_loop (hf : FleetSound workerId f) (h : Stands hashtext workerId f t b) (hc : Calm hashtext f t f')
    {job : JobId} {pid : Nat} (hjob : b.job? = some job) (hpid : b.pid? = some pid)
    (hb' : b' = .polling job pid ∨ b' = .beating job pid ∨ b' = .checking job pid ∨ b' = .pausing job pid) :
    Moved hashtext workerId f t f' b' := by
  have hkept : b'.job? = some job ∧ b'.pid? = some pid := by
    rcases hb' with rfl | rfl | rfl | rfl <;> exact ⟨rfl, rfl⟩
  apply moved_along hf h hc ?_ ?_ ?_ (hkept.1.trans hjob.symm) (hkept.2.trans hpid.symm)
  · intro pc hb
    rcases hb' with rfl | rfl | rfl | rfl <;> cases hb
  · intro job hb
    rcases hb' with rfl | rfl | rfl | rfl <;> cases hb
  · intro job pid code hb
    rcases hb' with rfl | rfl | rfl | rfl <;> cases hb

theorem idle_claims (q : Queue τ) (t : τ) : Claims hashtext workerId q t .idle := ⟨trivial, fun _ hw => by cases hw⟩

theorem moved_off (hf : FleetSound workerId f) (h : Stands hashtext workerId f t b) (hc : Calm hashtext f t f')
    (hb' : b' = .down ∨ b' = .claiming .idle ∨ ∃ pid, b' = .leaving pid)
    (hleft : ∀ pid, b.pid? = some pid → b'.pid? = some pid ∨ ∀ p', f'.processes[pid]? = some p' →
      p'.exit ≠ none ∨ p'.signalled = true ∨ p'.abandoned = true)
    (hrow : ∀ job, b.job? = some job → job ∈ f'.lost ∨ ∀ j ∈ f'.queue.jobs, j.id = job → j.status ≠ .running) :
    Moved hashtext workerId f t f' b' := by
  refine .calm hf hc (h.next hc (fun pc hpc => ?_) (fun job hb => ?_) (fun job pid code hb => ?_) (fun job hb => ?_)
    (fun job pid hb _ => ?_) hleft fun job hb => .inr (hrow job hb))
  · rcases hb' with rfl | rfl | ⟨pid, rfl⟩
    · cases hpc
    · rw [← Builder.claiming.inj hpc]
      exact idle_claims _ _
    · cases hpc
  all_goals rcases hb' with rfl | rfl | ⟨_, rfl⟩ <;> cases hb

theorem finalized_not_running {job : JobId} {code : Int} {now : Time} {q : Queue τ}
    (hcall : f.queue.call (.finalizeJob job code now) = some q) :
    ∀ j ∈ q.jobs, j.id = job → j.status ≠ .running := by
  cases hcall
  intro j' hj' hid hrunning
  obtain ⟨j, _, rfl⟩ := List.mem_map.mp hj'
  have hwas := update_running hrunning
  rw [(Call.update_evolves _ j).id] at hid
  simp only [Call.update] at hrunning
  rw [if_pos ⟨hid, hwas⟩] at hrunning
  change (if code = 0 then JobStatus.complete else .failed) = .running at hrunning
  split at hrunning <;> cases hrunning

theorem unbeaten_not_running (hf : FleetSound workerId f) {job : JobId} {now : Time} {q : Queue τ}
    (howns : f.claimedBy job = some t)
    (hnone : (f.queue.jobs.any fun j => j.id = job ∧ j.workerId = some (workerId t) ∧ j.status = .running) = false)
    (hcall : f.queue.call (.touchHeartbeat job (workerId t) now) = some q) :
    ∀ j ∈ q.jobs, j.id = job → j.status ≠ .running := by
  cases hcall
  intro j' hj' hid hrunning
  obtain ⟨j, hj, rfl⟩ := List.mem_map.mp hj'
  have hwas := update_running hrunning
  rw [(Call.update_evolves _ j).id] at hid
  have hworker := hf.worker j hj t (by rw [hid]; exact howns)
  have := List.any_eq_false.mp hnone j hj
  simp [hid, hworker, hwas] at this

theorem moved_spawned (hf : FleetSound workerId f) {job : JobId} (h : Stands hashtext workerId f t (.starting job)) :
    Moved hashtext workerId f t { f with processes := f.processes ++ [{ job := job, builder := t }] }
      (.polling job f.processes.length) := by
  have howns := h.owns job rfl
  have hunstarted := h.unstarted job rfl
  have hkept : ∀ (pid : Nat) (p : Process τ), f.processes[pid]? = some p →
      (f.processes ++ [({ job := job, builder := t } : Process τ)])[pid]? = some p := by
    intro pid p hp
    rw [List.getElem?_append_left (List.getElem?_eq_some_iff.mp hp).1]
    exact hp
  have hwas : ∀ (pid : Nat) (p : Process τ),
      (f.processes ++ [({ job := job, builder := t } : Process τ)])[pid]? = some p →
      f.processes[pid]? = some p ∨ pid = f.processes.length ∧ p = { job := job, builder := t } := by
    intro pid p hp
    by_cases hlt : pid < f.processes.length
    · rw [List.getElem?_append_left hlt] at hp
      exact .inl hp
    · rw [List.getElem?_append_right (Nat.le_of_not_lt hlt), List.getElem?_singleton] at hp
      split at hp
      · cases hp
        exact .inr ⟨by omega, rfl⟩
      · cases hp
  refine ⟨⟨hf.queue, hf.granted, ?_, fun p hp => ?_, hf.worker, fun j hj hclaimed => ?_⟩,
    ⟨fun pc hpc => (by cases hpc), fun k hk => ?_, fun k hk => (by cases hk), fun k pid hk hpid => ?_,
      fun k pid code hk => (by cases hk), fun pid p hp hbuilder hexit hsig hab => ?_, h.running⟩,
    ⟨.refl _ _, fun _ _ hu => hu, fun _ _ _ hu => hu, fun pid p hp => ⟨p, hkept pid p hp, .refl p⟩,
      fun pid p hp hne => ?_, fun _ hk => hk, fun j hj hrunning => .inr ⟨j, hj, rfl, hrunning⟩⟩⟩
  · rw [List.map_append, List.nodup_append]
    refine ⟨hf.once, by simp, fun a ha b hb => ?_⟩
    rw [List.map_singleton, List.mem_singleton] at hb
    intro heq
    rw [heq, hb] at ha
    exact hunstarted ha
  · rcases List.mem_append.mp hp with hp | hp
    · exact hf.claimed p hp
    · rw [List.mem_singleton.mp hp]
      exact howns
  · exact (hf.honest j hj hclaimed).ages fun p hp => ⟨p, List.mem_append.mpr (.inl hp), .refl p⟩
  · rw [← Option.some.inj hk]
    exact howns
  · rw [← Option.some.inj hk, ← Option.some.inj hpid]
    exact ⟨{ job := job, builder := t }, by simp, rfl⟩
  · rcases hwas pid p hp with hp | ⟨hlast, _⟩
    · have := h.supervised pid p hp hbuilder hexit hsig hab
      cases this
    · exact congrArg some hlast.symm
  · rcases hwas pid p hp with hp | ⟨_, hnew⟩
    · exact ⟨p, hp, .refl p⟩
    · exact absurd (congrArg Process.builder hnew) hne

variable [DecidableEq τ]

theorem sound_release (hs : Sound f.queue) : Sound (f.queue.release t) := ⟨hs.ids, hs.once, hs.left⟩

theorem moved_commit (hf : FleetSound workerId f) {c : Scan} {cap : Int} {job : JobId}
    (h : Stands hashtext workerId f t (.claiming (.updated c cap job))) :
    Moved hashtext workerId f t
      { f with queue := f.queue.commitClaim t c job, claimedBy := Function.update f.claimedBy job (some t) }
      (.starting job) := by
  have hholds : HoldsJob hashtext f.queue t c cap job := (h.claim _ rfl).holds
  have hworker : c.workerId = workerId t := (h.claim _ rfl).named _ rfl
  obtain ⟨hsound, hguar⟩ := commit_step hholds hf.queue
  obtain ⟨j₀, hj₀, hid₀, _, hpending₀⟩ := hholds.pending
  have hunclaimed : f.claimedBy job = none := by
    by_contra hclaimed
    rw [← hid₀] at hclaimed
    exact FleetSound.not_pending hf.granted hf.queue hj₀ hclaimed hpending₀
  have hunstarted : job ∉ f.processes.map Process.job := by
    intro hmem
    obtain ⟨p, hp, hjob⟩ := List.mem_map.mp hmem
    have := hf.claimed p hp
    rw [hjob, hunclaimed] at this
    cases this
  have hclaimedBy : ∀ k u, Function.update f.claimedBy job (some t) k = some u ↔
      k = job ∧ u = t ∨ f.claimedBy k = some u := by
    intro k u
    by_cases hk : k = job
    · subst hk
      rw [Function.update_self, hunclaimed]
      simp [eq_comm]
    · rw [Function.update_of_ne hk]
      simp [hk]
  have hclaim : ∀ {k : Job}, k.id ≠ job → c.claim job k = k := fun hk => c.claim_of_ne hk
  have hmem : ∀ k' ∈ f.queue.jobs.map (c.claim job), ∃ k ∈ f.queue.jobs, k' = c.claim job k ∧ k.id = k'.id := by
    intro k' hk'
    obtain ⟨k, hk, rfl⟩ := List.mem_map.mp hk'
    exact ⟨k, hk, rfl, (c.claim_evolves job k).id.symm⟩
  -- the row of the job itself
  have hown : ∀ k ∈ f.queue.jobs, k.id = job → (c.claim job k).status = .running ∧
      (c.claim job k).workerId = some (workerId t) := by
    intro k hk hid
    have hpending : k.status = .pending := by
      rw [List.inj_on_of_nodup_map hf.queue.ids hk hj₀ (hid.trans hid₀.symm)]
      exact hpending₀
    unfold Scan.claim
    rw [if_pos ⟨hid, hpending⟩]
    exact ⟨rfl, congrArg some hworker⟩
  refine ⟨⟨hsound, fun k => ?_, hf.once, fun p hp => ?_, fun k' hk' u hu => ?_, fun k' hk' hu => ?_⟩,
    ⟨fun pc hpc => (by cases hpc), fun k hk => ?_, fun k hk => ?_, fun k pid _ hpid => (by cases hpid),
      fun k pid code hk => (by cases hk), fun pid p hp hbuilder hexit hsig hab => ?_, fun k' hk' hu hrunning => ?_⟩,
    ⟨hguar, fun k u hu => (hclaimedBy k u).mpr (.inr hu), fun k u hne hu => ?_, fun pid p hp => ⟨p, hp, .refl p⟩,
      fun pid p hp _ => ⟨p, hp, .refl p⟩, fun _ hk => hk, fun k' hk' hrunning => ?_⟩⟩
  · change Function.update f.claimedBy job (some t) k ≠ none ↔
      k ∈ (f.queue.granted ++ [({ job := job, workerId := c.workerId } : Granted)]).map Granted.job
    rw [List.map_append, List.mem_append]
    by_cases hk : k = job
    · subst hk
      simp
    · rw [Function.update_of_ne hk, hf.granted]
      unfold Granted?
      simp [hk]
  · exact (hclaimedBy p.job p.builder).mpr (.inr (hf.claimed p hp))
  · obtain ⟨k, hk, rfl, hid⟩ := hmem k' hk'
    rw [← hid] at hu
    rcases (hclaimedBy k.id u).mp hu with ⟨hjob, rfl⟩ | hu
    · exact (hown k hk hjob).2
    · have hne : k.id ≠ job := by
        intro heq
        rw [heq, hunclaimed] at hu
        cases hu
      rw [hclaim hne]
      exact hf.worker k hk u hu
  · obtain ⟨k, hk, rfl, hid⟩ := hmem k' hk'
    by_cases hjob : k.id = job
    · exact honest_of_running (hown k hk hjob).1
    · rw [hclaim hjob]
      change Function.update f.claimedBy job (some t) (c.claim job k).id ≠ none at hu
      rw [← hid, Function.update_of_ne hjob] at hu
      exact hf.honest k hk hu
  · rw [← Option.some.inj hk]
    exact (hclaimedBy job t).mpr (.inl ⟨rfl, rfl⟩)
  · rw [← Builder.starting.inj hk]
    exact hunstarted
  · have := h.supervised pid p hp hbuilder hexit hsig hab
    cases this
  · obtain ⟨k, hk, rfl, hid⟩ := hmem k' hk'
    rw [← hid] at hu ⊢
    rcases (hclaimedBy k.id t).mp hu with ⟨hjob, _⟩ | hu
    · exact .inl (congrArg some hjob.symm)
    · have hne : k.id ≠ job := by
        intro heq
        rw [heq, hunclaimed] at hu
        cases hu
      rw [hclaim hne] at hrunning
      rcases h.running k hk hu hrunning with hmine | hlost
      · cases hmine
      · exact .inr hlost
  · rcases (hclaimedBy k u).mp hu with ⟨_, rfl⟩ | hu
    · exact absurd rfl hne
    · exact hu
  · obtain ⟨k, hk, rfl, hid⟩ := hmem k' hk'
    by_cases hjob : k.id = job
    · left
      rw [← hid]
      exact (hclaimedBy k.id t).mpr (.inl ⟨hjob, rfl⟩)
    · rw [hclaim hjob] at hrunning
      exact .inr ⟨k, hk, hid, hrunning⟩

theorem statement_kept {q q' : Queue τ} {busy : List JobId} {pc pc' : Pc}
    (h : q.statement hashtext t busy pc = some (q', pc')) (hpc : ∀ c cap job, pc ≠ .updated c cap job) :
    q'.jobs = q.jobs ∧ q'.granted = q.granted ∧ ∀ w, pc'.workerId? = some w → pc.workerId? = some w := by
  cases pc with
  | idle => cases h
  | scanning workerId now tried rest =>
    cases rest with
    | nil =>
      cases h
      exact ⟨rfl, rfl, fun w hw => by cases hw⟩
    | cons jobType rest =>
      simp only [Queue.statement] at h
      split at h
      · cases h
        exact ⟨rfl, rfl, fun _ hw => hw⟩
      · cases h
  | locked c =>
    cases h
    exact ⟨rfl, rfl, fun _ hw => hw⟩
  | capRead c cap =>
    simp only [Queue.statement] at h
    split at h <;> (cases h; exact ⟨rfl, rfl, fun _ hw => hw⟩)
  | underCap c cap =>
    simp only [Queue.statement] at h
    split at h <;> (cases h; exact ⟨rfl, rfl, fun _ hw => hw⟩)
  | picked c cap job =>
    simp only [Queue.statement] at h
    split at h <;> (cases h; exact ⟨rfl, rfl, fun _ hw => hw⟩)
  | updated c cap job => exact absurd rfl (hpc c cap job)

theorem moved_statement (hf : FleetSound workerId f) {pc : Pc} {busy : List JobId}
    (h : Stands hashtext workerId f t (.claiming pc)) (hpc : ∀ c cap job, pc ≠ .updated c cap job) {r : Queue τ × Pc}
    (hstatement : f.queue.statement hashtext t busy pc = some r) :
    Moved hashtext workerId f t { f with queue := r.1 } (.claiming r.2) := by
  obtain ⟨hsound, hlocal, hguar⟩ := statement_step hstatement hf.queue (h.claim pc rfl).holds
  obtain ⟨hjobs, hgranted, hnamed⟩ := statement_kept hstatement hpc
  have hc : Calm hashtext f t { f with queue := r.1 } := calm_of_jobs hsound hguar hjobs hgranted
  refine .calm hf hc (h.along hc (fun pc' hpc' => ?_) (fun _ hb => by cases hb) (fun _ _ _ hb => by cases hb) rfl
    rfl)
  rw [← Builder.claiming.inj hpc']
  exact ⟨hlocal, fun w hw => (h.claim pc rfl).named w (hnamed w hw)⟩

theorem calm_release (hs : Sound f.queue) : Calm hashtext f t { f with queue := f.queue.release t } :=
  calm_of_jobs (sound_release hs) (.release _ _) rfl rfl

theorem moved_down (hf : FleetSound workerId f) (h : Stands hashtext workerId f t .down) {m : Move}
    (hmove : f.move hashtext workerId t .down m = some (f', b')) : Moved hashtext workerId f t f' b' := by
  cases m with
  | boot =>
    cases hmove
    apply moved_off hf h (.refl hf.queue) (.inr (.inl rfl))
    · intro pid hpid
      cases hpid
    · intro job hjob
      cases hjob
  | call c =>
    simp only [Fleet.move] at hmove
    split at hmove
    · rename_i houtside
      obtain ⟨f'', hcall, heq⟩ := Option.map_eq_some_iff.mp hmove
      obtain ⟨q, hq, rfl⟩ := Option.map_eq_some_iff.mp hcall
      cases heq
      apply moved_along hf h (calm_call hf.queue hq ?_) (fun _ hb => by cases hb) (fun _ hb => by cases hb)
        (fun _ _ _ hb => by cases hb) rfl rfl
      intro id code now hc
      rw [hc] at houtside
      cases houtside
    · cases hmove
  | exit pid code =>
    cases hmove
    exact moved_along hf h (calm_change hf.queue pid (Process.ages_ends code)) (fun _ hb => by cases hb)
      (fun _ hb => by cases hb) (fun _ _ _ hb => by cases hb) rfl rfl
  | _ => cases hmove

theorem calm_crash (hs : Sound f.queue) : Calm hashtext f t (f.crash t b) := by
  unfold Fleet.crash
  cases b.pid? with
  | none => exact calm_lost (calm_release hs) _
  | some pid =>
    have hc : Calm hashtext f t (f.change pid Process.abandon) := calm_change hs pid Process.ages_abandon
    exact ⟨sound_release hs, .release _ _, rfl, rfl, hc.rows, hc.length, hc.aged,
      fun job h => List.mem_append.mpr (.inl h)⟩

theorem crash_abandons {pid : Nat} (hpid : b.pid? = some pid) (p' : Process τ)
    (hp' : (f.crash t b).processes[pid]? = some p') : p'.abandoned = true := by
  unfold Fleet.crash at hp'
  rw [hpid] at hp'
  change (f.processes.modify pid Process.abandon)[pid]? = some p' at hp'
  rw [List.getElem?_modify_eq] at hp'
  obtain ⟨p, _, rfl⟩ := Option.map_eq_some_iff.mp hp'
  rfl

theorem moved_crash (hf : FleetSound workerId f) (h : Stands hashtext workerId f t b) :
    Moved hashtext workerId f t (f.crash t b) .down := by
  apply moved_off hf h (calm_crash hf.queue) (.inl rfl)
  · intro pid hpid
    exact .inr fun p' hp' => .inr (.inr (crash_abandons hpid p' hp'))
  · intro job hjob
    left
    unfold Fleet.crash
    rw [hjob]
    exact List.mem_append.mpr (.inr (List.mem_singleton.mpr rfl))

theorem moved_claiming (hf : FleetSound workerId f) {pc : Pc} (h : Stands hashtext workerId f t (.claiming pc))
    {m : Move} (hmove : f.move hashtext workerId t (.claiming pc) m = some (f', b')) :
    Moved hashtext workerId f t f' b' := by
  have hoff : ∀ {f''}, Calm hashtext f t f'' → Moved hashtext workerId f t f'' .down := by
    intro f'' hc
    apply moved_off hf h hc (.inl rfl)
    · intro pid hpid
      cases hpid
    · intro job hjob
      cases hjob
  cases m with
  | stop =>
    cases pc with
    | idle =>
      cases hmove
      exact hoff (.refl hf.queue)
    | _ => cases hmove
  | claimNextJob now =>
    cases pc with
    | idle =>
      cases hmove
      refine .calm hf (.refl hf.queue) (h.along (.refl hf.queue) (fun pc hpc => ?_) (fun _ hb => by cases hb)
        (fun _ _ _ hb => by cases hb) rfl rfl)
      rw [← Builder.claiming.inj hpc]
      refine ⟨trivial, fun w hw => ?_⟩
      exact (Option.some.inj hw).symm
    | _ => cases hmove
  | statement busy =>
    cases pc with
    | updated c cap job =>
      cases hmove
      exact moved_commit hf h
    | idle => cases hmove
    | _ =>
      simp only [Fleet.move] at hmove
      obtain ⟨r, hr, heq⟩ := Option.map_eq_some_iff.mp hmove
      cases heq
      exact moved_statement hf h (fun _ _ _ hpc => by cases hpc) hr
  | raised =>
    have hgone : f' = { f with queue := f.queue.release t } ∧ b' = .down := by
      cases pc <;> (cases hmove; exact ⟨rfl, rfl⟩)
    obtain ⟨rfl, rfl⟩ := hgone
    exact hoff (calm_release hf.queue)
  | crash =>
    have hgone : f' = f.crash t (.claiming pc) ∧ b' = .down := by
      cases pc <;> (cases hmove; exact ⟨rfl, rfl⟩)
    obtain ⟨rfl, rfl⟩ := hgone
    exact moved_crash hf h
  | _ => cases pc <;> cases hmove

theorem moved_beating (hf : FleetSound workerId f) {job : JobId} {pid : Nat} {now : Time}
    (h : Stands hashtext workerId f t (.beating job pid))
    (hmove : f.move hashtext workerId t (.beating job pid) (.heartbeat now) = some (f', b')) :
    Moved hashtext workerId f t f' b' := by
  simp only [Fleet.move] at hmove
  obtain ⟨f'', hcall, heq⟩ := Option.map_eq_some_iff.mp hmove
  obtain ⟨q, hq, rfl⟩ := Option.map_eq_some_iff.mp hcall
  have hc : Calm hashtext f t { f with queue := q } := calm_call hf.queue hq fun _ _ _ hc => by cases hc
  split at heq
  · cases heq
    exact moved_along hf h hc (fun _ hb => by cases hb) (fun _ hb => by cases hb)
          (fun _ _ _ hb => by cases hb) rfl rfl
  · rename_i hnone
    cases heq
    apply moved_off hf h hc (.inr (.inr ⟨pid, rfl⟩))
    · exact fun pid' hpid => .inl hpid
    · intro job' hjob
      cases hjob
      exact .inr (unbeaten_not_running hf (h.owns job rfl) (Bool.eq_false_iff.mpr hnone) hq)

theorem moved_finalizing (hf : FleetSound workerId f) {job : JobId} {pid : Option Nat} {exitCode : Int} {m : Move}
    (h : Stands hashtext workerId f t (.finalizing job pid exitCode))
    (hmove : f.move hashtext workerId t (.finalizing job pid exitCode) m = some (f', b')) :
    Moved hashtext workerId f t f' b' := by
  have hwatched : ∀ i, (Builder.finalizing job pid exitCode).pid? = some i → (Builder.ended pid).pid? = some i := by
    intro i hi
    rw [Builder.pid_ended, ← Builder.pid_finalizing job pid exitCode]
    exact hi
  cases m with
  | finalize now =>
    simp only [Fleet.move] at hmove
    obtain ⟨f'', hcall, heq⟩ := Option.map_eq_some_iff.mp hmove
    obtain ⟨q, hq, rfl⟩ := Option.map_eq_some_iff.mp hcall
    cases heq
    have hc : Calm hashtext f t { f with queue := q } := by
      apply calm_call hf.queue hq
      intro id code now' hc
      cases hc
      exact h.exited job pid exitCode rfl
    apply moved_off hf h hc (.inr (Builder.ended_place pid))
    · exact fun i hi => .inl (hwatched i hi)
    · intro job' hjob
      cases hjob
      exact .inr (finalized_not_running hq)
  | databaseError =>
    cases hmove
    apply moved_off hf h (calm_lost (.refl hf.queue) [job]) (.inr (Builder.ended_place pid))
    · exact fun i hi => .inl (hwatched i hi)
    · intro job' hjob
      cases hjob
      exact .inl (List.mem_append.mpr (.inr (List.mem_singleton.mpr rfl)))
  | crash =>
    cases hmove
    exact moved_crash hf h
  | _ => cases hmove

theorem moved_leaving (hf : FleetSound workerId f) {pid : Nat} {m : Move}
    (h : Stands hashtext workerId f t (.leaving pid))
    (hmove : f.move hashtext workerId t (.leaving pid) m = some (f', b')) : Moved hashtext workerId f t f' b' := by
  cases m with
  | leave =>
    cases hmove
    apply moved_off hf h (calm_change hf.queue pid Process.ages_leave) (.inr (.inl rfl))
    · intro pid' hpid
      cases hpid
      right
      intro p' hp'
      unfold Fleet.change at hp'
      rw [List.getElem?_modify_eq] at hp'
      obtain ⟨p, _, rfl⟩ := Option.map_eq_some_iff.mp hp'
      unfold Process.leave
      split
      · exact .inr (.inl rfl)
      · rename_i hexit
        exact .inl hexit
    · intro job hjob
      cases hjob
  | crash =>
    cases hmove
    exact moved_crash hf h
  | _ => cases hmove

theorem move_moved (hf : FleetSound workerId f) (h : Stands hashtext workerId f t b) {m : Move}
    (hmove : f.move hashtext workerId t b m = some (f', b')) : Moved hashtext workerId f t f' b' := by
  cases b with
  | down => exact moved_down hf h hmove
  | claiming pc => exact moved_claiming hf h hmove
  | starting job =>
    cases m with
    | spawned =>
      cases hmove
      exact moved_spawned hf h
    | spawnFailed =>
      cases hmove
      refine moved_along hf h (.refl hf.queue) (fun _ hb => by cases hb) (fun _ hb => by cases hb) ?_ rfl rfl
      intro job' pid code hb
      cases hb
      exact .inl rfl
    | crash =>
      cases hmove
      exact moved_crash hf h
    | _ => cases hmove
  | polling job pid =>
    cases m with
    | poll =>
      simp only [Fleet.move] at hmove
      split at hmove
      · rename_i code hexit
        cases hmove
        refine moved_along hf h (.refl hf.queue) (fun _ hb => by cases hb) (fun _ hb => by cases hb) ?_ rfl rfl
        intro job' pid' code' hb
        cases hb
        obtain ⟨p, hp, hpjob⟩ := h.atWork job pid rfl rfl
        rw [hp] at hexit
        exact .inr ⟨p, List.mem_of_getElem? hp, hpjob, hexit⟩
      · cases hmove
        exact moved_loop hf h (.refl hf.queue) rfl rfl (.inr (.inl rfl))
    | crash =>
      cases hmove
      exact moved_crash hf h
    | _ => cases hmove
  | beating job pid =>
    cases m with
    | heartbeat now => exact moved_beating hf h hmove
    | databaseError =>
      cases hmove
      exact moved_loop hf h (.refl hf.queue) rfl rfl (.inr (.inr (.inr rfl)))
    | crash =>
      cases hmove
      exact moved_crash hf h
    | _ => cases hmove
  | checking job pid =>
    cases m with
    | readJob =>
      simp only [Fleet.move] at hmove
      split at hmove <;> cases hmove
      · exact moved_loop hf h (calm_change hf.queue pid Process.ages_terminate) rfl rfl (.inr (.inr (.inr rfl)))
      · exact moved_loop hf h (.refl hf.queue) rfl rfl (.inr (.inr (.inr rfl)))
    | databaseError =>
      cases hmove
      exact moved_loop hf h (.refl hf.queue) rfl rfl (.inr (.inr (.inr rfl)))
    | crash =>
      cases hmove
      exact moved_crash hf h
    | _ => cases hmove
  | pausing job pid =>
    cases m with
    | pause stopEvent =>
      cases hmove
      cases stopEvent with
      | true =>
        exact moved_loop hf h (calm_change hf.queue pid Process.ages_terminate) rfl rfl (.inl rfl)
      | false =>
        exact moved_loop hf h (.refl hf.queue) rfl rfl (.inl rfl)
    | crash =>
      cases hmove
      exact moved_crash hf h
    | _ => cases hmove
  | finalizing job pid exitCode => exact moved_finalizing hf h hmove
  | leaving pid => exact moved_leaving hf h hmove

/-- Nothing was left behind. -/
structure Faultless (f : Fleet τ) : Prop where
  lost : f.lost = []
  abandoned : ∀ p ∈ f.processes, p.abandoned = false

omit [DecidableEq τ] in
theorem Faultless.change (h : Faultless f) (pid : Nat) {g : Process τ → Process τ}
    (hg : ∀ p : Process τ, (g p).abandoned = p.abandoned) : Faultless (f.change pid g) := by
  refine ⟨h.lost, fun p' hp' => ?_⟩
  obtain ⟨i, hi⟩ := List.mem_iff_getElem?.mp hp'
  unfold Fleet.change at hi
  dsimp only at hi
  rw [List.getElem?_modify] at hi
  obtain ⟨p, hp, rfl⟩ := Option.map_eq_some_iff.mp hi
  split
  · rw [hg]
    exact h.abandoned p (List.mem_of_getElem? hp)
  · exact h.abandoned p (List.mem_of_getElem? hp)

omit [DecidableEq τ] in
theorem Faultless.callQueue (h : Faultless f) {c : Call} (hcall : f.callQueue c = some f') : Faultless f' := by
  obtain ⟨q, _, rfl⟩ := Option.map_eq_some_iff.mp hcall
  exact ⟨h.lost, h.abandoned⟩

theorem move_faultless (h : Faultless f) {m : Move} (hcrash : m ≠ .crash) (herror : m ≠ .databaseError)
    (hmove : f.move hashtext workerId t b m = some (f', b')) : Faultless f' := by
  have hleave : ∀ p : Process τ, p.leave.abandoned = p.abandoned := by
    intro p
    unfold Process.leave
    split <;> rfl
  have hends : ∀ code (p : Process τ), (p.ends code).abandoned = p.abandoned := by
    intro code p
    unfold Process.ends
    split <;> rfl
  unfold Fleet.move at hmove
  split at hmove
  -- a builder that stops or claims
  · cases hmove
    exact h
  · cases hmove
    exact h
  · obtain ⟨r, _, heq⟩ := Option.map_eq_some_iff.mp hmove
    cases heq
    exact ⟨h.lost, h.abandoned⟩
  · obtain ⟨r, _, heq⟩ := Option.map_eq_some_iff.mp hmove
    split at heq <;> (cases heq; exact ⟨h.lost, h.abandoned⟩)
  · cases hmove
    exact ⟨h.lost, h.abandoned⟩
  -- its process
  · cases hmove
    refine ⟨h.lost, fun p hp => ?_⟩
    rcases List.mem_append.mp hp with hp | hp
    · exact h.abandoned p hp
    · rw [List.mem_singleton.mp hp]
  · cases hmove
    exact h
  · split at hmove <;> (cases hmove; exact h)
  · obtain ⟨f'', hcall, heq⟩ := Option.map_eq_some_iff.mp hmove
    split at heq <;> (cases heq; exact h.callQueue hcall)
  · exact absurd rfl herror
  · split at hmove <;> cases hmove
    · exact h.change _ fun _ => rfl
    · exact h
  · exact absurd rfl herror
  · cases hmove
    split
    · exact h.change _ fun _ => rfl
    · exact h
  · obtain ⟨f'', hcall, heq⟩ := Option.map_eq_some_iff.mp hmove
    cases heq
    exact h.callQueue hcall
  · exact absurd rfl herror
  · cases hmove
    exact h.change _ hleave
  -- what comes from outside
  · split at hmove
    · obtain ⟨f'', hcall, heq⟩ := Option.map_eq_some_iff.mp hmove
      cases heq
      exact h.callQueue hcall
    · cases hmove
  · cases hmove
    exact h.change _ (hends _)
  · cases hmove
  · exact absurd rfl hcrash
  · cases hmove

end Invariant

section Runs
variable {τ : Type} {hashtext : String → Int} {workerId : τ → String} {w : Fleet τ × (τ → Builder)}

/-- What holds of the whole fleet at every moment. -/
structure Standing (hashtext : String → Int) (workerId : τ → String) (w : Fleet τ × (τ → Builder)) : Prop where
  sound : FleetSound workerId w.1
  stands : ∀ t, Stands hashtext workerId w.1 t (w.2 t)

theorem start_standing {jobs : List Job} (hids : (jobs.map Job.id).Nodup) (limits : String → Option Int) :
    Standing hashtext workerId (Fleet.start jobs limits : Fleet τ × (τ → Builder)) := by
  have hsound : Sound (Fleet.start jobs limits : Fleet τ × (τ → Builder)).1.queue :=
    ⟨hids, List.nodup_nil, fun g hg => by cases hg⟩
  refine ⟨⟨hsound, fun job => ?_, List.nodup_nil, fun p hp => (by cases hp), fun j _ t hclaimed => (by cases hclaimed),
      fun j _ hclaimed => absurd rfl hclaimed⟩, fun t => ?_⟩
  · refine iff_of_false (fun h => h rfl) fun h => ?_
    cases h
  · constructor
    · intro pc hb
      cases hb
    · intro job hb
      cases hb
    · intro job hb
      cases hb
    · intro job pid hb
      cases hb
    · intro job pid code hb
      cases hb
    · intro pid p hp
      cases hp
    · intro j _ hclaimed
      cases hclaimed

variable [DecidableEq τ]

theorem exec_standing (h : Standing hashtext workerId w) (x : τ × Move) :
    Standing hashtext workerId (Fleet.exec hashtext workerId w x) := by
  unfold Fleet.exec
  split
  · exact h
  · rename_i f b hmove
    have hmoved := move_moved h.sound (h.stands x.1) hmove
    refine ⟨hmoved.sound, fun u => ?_⟩
    dsimp only
    by_cases hu : u = x.1
    · rw [hu, Function.update_self]
      exact hmoved.stands
    · rw [Function.update_of_ne hu]
      exact (h.stands u).stable hu hmoved.keeps hmoved.sound

theorem exec_faultless (h : Faultless w.1) {x : τ × Move} (hcrash : x.2 ≠ .crash) (herror : x.2 ≠ .databaseError) :
    Faultless (Fleet.exec hashtext workerId w x).1 := by
  unfold Fleet.exec
  split
  · exact h
  · rename_i f b hmove
    exact move_faultless h hcrash herror hmove

variable (hashtext workerId) in
/-- Every job is run by one process at most, its row never tells another end than its own, and a
builder neither forgets a running row nor leaves a process running that it does not watch. -/
theorem builders_run_jobs_once {jobs : List Job} (hids : (jobs.map Job.id).Nodup) (limits : String → Option Int)
    (moves : List (τ × Move)) :
    let w := moves.foldl (Fleet.exec hashtext workerId) (Fleet.start jobs limits)
    (w.1.processes.map Process.job).Nodup ∧
    (∀ p ∈ w.1.processes, w.1.claimedBy p.job = some p.builder) ∧
    (∀ j ∈ w.1.queue.jobs, w.1.claimedBy j.id ≠ none → Honest w.1.processes j) ∧
    (∀ j ∈ w.1.queue.jobs, ∀ t, w.1.claimedBy j.id = some t → j.status = .running →
      (w.2 t).job? = some j.id ∨ j.id ∈ w.1.lost) ∧
    (∀ (pid : Nat) (p : Process τ), w.1.processes[pid]? = some p → p.exit = none →
      p.signalled = true ∨ p.abandoned = true ∨ (w.2 p.builder).pid? = some pid) ∧
    ((∀ x ∈ moves, x.2 ≠ .crash ∧ x.2 ≠ .databaseError) →
      w.1.lost = [] ∧ ∀ p ∈ w.1.processes, p.abandoned = false) := by
  intro w
  have h : Standing hashtext workerId w := by
    apply foldl_invariant (G := Standing hashtext workerId) ?_ (start_standing hids limits)
    exact fun w x hw => exec_standing hw x
  refine ⟨h.sound.once, h.sound.claimed, h.sound.honest, fun j hj t => (h.stands t).running j hj,
    fun pid p hp hexit => ?_, fun hfaults => ?_⟩
  · cases hsig : p.signalled with
    | true => exact .inl rfl
    | false =>
      cases hab : p.abandoned with
      | true => exact .inr (.inl rfl)
      | false => exact .inr (.inr ((h.stands p.builder).supervised pid p hp rfl hexit hsig hab))
  · have hfaultless : Faultless w.1 := by
      apply foldl_invariant_of_mem (G := fun w : Fleet τ × (τ → Builder) => Faultless w.1)
        fun w x hx hw => exec_faultless hw (hfaults x hx).1 (hfaults x hx).2
      exact ⟨rfl, fun p hp => by cases hp⟩
    exact ⟨hfaultless.lost, hfaultless.abandoned⟩

def oneJobMoves : List (Bool × Move) :=
  [(true, .boot), (true, .claimNextJob 2), (true, .statement []), (true, .statement []), (true, .statement []),
    (true, .statement []), (true, .statement []), (true, .statement []), (true, .spawned), (true, .poll),
    (true, .heartbeat 3), (true, .readJob), (true, .pause false), (false, .exit 0 0), (true, .poll),
    (true, .finalize 4), (true, .leave)]

def oneJob : Job := { id := "a", jobType := "build_template", createdAt := 0 }

def oneJobDone : Fleet Bool × (Bool → Builder) :=
  oneJobMoves.foldl (Fleet.exec hashByLength fun _ => "builder-0")
    (Fleet.start [oneJob] fun jobType => defaultLimits.lookup jobType)

theorem oneJob_complete :
    oneJobDone.1.queue.jobs.map (fun j => (j.id, j.status)) = [("a", .complete)] ∧
      ∃ p ∈ oneJobDone.1.processes, p.job = "a" ∧ p.exit = some 0 := by
  have hids : ([oneJob].map Job.id).Nodup := by decide
  obtain ⟨-, -, hhonest, -⟩ := builders_run_jobs_once hashByLength (fun _ => "builder-0") hids
    (fun jobType => defaultLimits.lookup jobType) oneJobMoves
  obtain ⟨j, hj, hid, hstatus, htype, hclaimed⟩ : ∃ j ∈ oneJobDone.1.queue.jobs, j.id = "a" ∧ j.status = .complete ∧
      j.jobType = "build_template" ∧ (oneJobDone.1.claimedBy j.id).isSome = true := by decide
  refine ⟨by decide, ?_⟩
  have hrow := hhonest j hj (Option.isSome_iff_ne_none.mp hclaimed)
  rcases hrow.complete hstatus with hexit | ⟨hinterruptible, _⟩
  · rw [hid] at hexit
    exact hexit
  · rw [htype] at hinterruptible
    revert hinterruptible
    decide

end Runs

end ProxmoxVEAutopilot.Jobs
