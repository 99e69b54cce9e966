import ProxmoxVEAutopilot.CloudOsd.HashUpload
import ProxmoxVEAutopilot.Jobs.Caps

/-!
# Retrying a hash upload

An orphaned job leaves its attempt `queued`, and a queued attempt counts as active: after
the reaper took the job of an upload, every later request is refused.
-/

namespace ProxmoxVEAutopilot.CloudOsd.HashUpload

open Foundation Jobs
set_option autoImplicit false

section Latest

theorem newestFirst_total (a b : UploadAttempt) : newestFirst a b ∨ newestFirst b a := by
  simp only [newestFirst, Time] at *
  omega

theorem newestFirst_trans (a b c : UploadAttempt) (hab : newestFirst a b) (hbc : newestFirst b c) :
    newestFirst a c := by
  simp only [newestFirst, Time] at *
  omega

instance : Std.Total newestFirst := ⟨newestFirst_total⟩

instance : IsTrans UploadAttempt newestFirst := ⟨newestFirst_trans⟩

def Ordered (attempts : List UploadAttempt) : Prop :=
  attempts.Pairwise fun a b => a.id < b.id ∧ a.createdAt ≤ b.createdAt

theorem latest_eq_getLast? {db : UploadDb} (h : Ordered db.attempts) (runId : Nat) :
    latestAutopilotUploadAttempt db runId = (db.attempts.filter fun a => a.runId = runId).getLast? := by
  unfold latestAutopilotUploadAttempt
  set mine := db.attempts.filter fun a => a.runId = runId
  have hmine : Ordered mine := h.filter _
  have hids : ∀ a ∈ mine, ∀ b ∈ mine, a.id = b.id → a = b := by
    have hnodup : (mine.map fun a => a.id).Nodup := by
      rw [List.Nodup, List.pairwise_map]
      exact hmine.imp fun hab => Nat.ne_of_lt hab.1
    exact fun a ha b hb hid => List.inj_on_of_nodup_map hnodup ha hb hid
  have hsorted : mine.insertionSort newestFirst = mine.reverse := by
    refine List.Perm.eq_of_pairwise ?_ (List.pairwise_insertionSort newestFirst mine) ?_
      ((List.perm_insertionSort _ _).trans mine.reverse_perm.symm)
    · intro a b ha hb hab hba
      refine hids a (List.mem_insertionSort _ |>.mp ha) b (List.mem_reverse.mp hb) ?_
      simp only [newestFirst, Time] at hab hba
      omega
    · rw [List.pairwise_reverse]
      refine hmine.imp fun hab => ?_
      obtain ⟨hid, hcreated⟩ := hab
      simp only [newestFirst, Time] at *
      omega
  rw [hsorted, List.head?_reverse]

end Latest

section Jobs

def isActive (status : JobStatus) : Prop := status = .pending ∨ status = .running

instance (status : JobStatus) : Decidable (isActive status) := inferInstanceAs (Decidable (_ ∨ _))

def HasJob (jobs : List Job) (jobId : Option JobId) (P : JobStatus → Prop) : Prop :=
  ∃ j ∈ jobs, jobId = some j.id ∧ P j.status

def LatestActive (db : UploadDb) (runId : Nat) : Prop :=
  ∃ a, latestAutopilotUploadAttempt db runId = some a ∧ HasJob db.jobs a.jobId isActive

def LatestOrphaned (db : UploadDb) (runId : Nat) : Prop :=
  ∃ a, latestAutopilotUploadAttempt db runId = some a ∧ HasJob db.jobs a.jobId (· = .orphaned)

structure Consistent (db : UploadDb) : Prop where
  ids : (db.jobs.map Job.id).Nodup
  ordered : Ordered db.attempts
  bounds : ∀ a ∈ db.attempts, a.id < db.nextAttemptId ∧ a.createdAt ≤ db.clock
  recorded : ∀ a ∈ db.attempts, a.jobId = none ∧ a.status = .notConfigured ∨
    HasJob db.jobs a.jobId (fun _ => True) ∧ a.status = .queued
  settled : db.attempts.Pairwise fun a b => a.runId = b.runId → ¬ HasJob db.jobs a.jobId isActive

theorem getJob_of_mem {db : UploadDb} (h : Consistent db) {j : Job} (hj : j ∈ db.jobs) :
    getJob db j.id = some j := Table.find?_key h.ids hj

theorem uploadStatus_active_iff {db : UploadDb} (h : Consistent db) {a : UploadAttempt} (ha : a ∈ db.attempts) :
    (uploadStatus db (some a)).active = true ↔
      HasJob db.jobs a.jobId isActive ∨ HasJob db.jobs a.jobId (· = .orphaned) := by
  rcases h.recorded a ha with ⟨hnone, hstatus⟩ | ⟨⟨j, hj, hid, _⟩, hstatus⟩
  · simp [uploadStatus, hnone, hstatus, UploadStatus.active, HasJob]
  · have hsame : ∀ P : JobStatus → Prop, HasJob db.jobs a.jobId P ↔ P j.status := by
      intro P
      constructor
      · rintro ⟨k, hk, hkid, hP⟩
        have hjk : j = k := List.inj_on_of_nodup_map h.ids hj hk (Option.some.inj (hid.symm.trans hkid))
        rwa [hjk]
      · exact fun hP => ⟨j, hj, hid, hP⟩
    rw [hsame, hsame]
    simp only [uploadStatus, hid, Option.bind_some, getJob_of_mem h hj, hstatus]
    cases j.status with
    | pending => simp [adopted, UploadStatus.active, isActive]
    | running => simp [adopted, UploadStatus.active, isActive]
    | complete => simp [adopted, UploadStatus.active, isActive]
    | failed => simp [adopted, UploadStatus.active, isActive]
    | orphaned => simp [adopted, UploadStatus.active, isActive]

theorem latest_mem {db : UploadDb} {runId : Nat} {a : UploadAttempt}
    (h : latestAutopilotUploadAttempt db runId = some a) : a ∈ db.attempts ∧ a.runId = runId := by
  have hmem := List.mem_of_mem_head? (Option.mem_def.mpr h)
  rw [List.mem_insertionSort, List.mem_filter] at hmem
  exact ⟨hmem.1, of_decide_eq_true hmem.2⟩

/-- The fold counts an upload as active where its job is, and where it is orphaned. -/
theorem readiness_active_iff {db : UploadDb} (h : Consistent db) (runId : Nat) (e : Evidence)
    (preferred : Option String) :
    (autopilotReadinessForRun db runId e preferred).uploadStatus.active = true ↔
      LatestActive db runId ∨ LatestOrphaned db runId := by
  show (uploadStatus db (latestAutopilotUploadAttempt db runId)).active = true ↔ _
  unfold LatestActive LatestOrphaned
  cases hlatest : latestAutopilotUploadAttempt db runId with
  | none => simp [uploadStatus, UploadStatus.active]
  | some a => simpa using uploadStatus_active_iff h (latest_mem hlatest).1

theorem not_latestActive_of_orphaned {db : UploadDb} (h : Consistent db) {runId : Nat}
    (ho : LatestOrphaned db runId) : ¬ LatestActive db runId := by
  rintro ⟨a, ha, j, hj, hid, hactive⟩
  obtain ⟨b, hb, k, hk, hkid, horphaned⟩ := ho
  obtain rfl : a = b := Option.some.inj (ha.symm.trans hb)
  obtain rfl : j = k := List.inj_on_of_nodup_map h.ids hj hk (Option.some.inj (hid.symm.trans hkid))
  rw [horphaned] at hactive
  rcases hactive with hs | hs
  · cases hs
  · cases hs

theorem latest_of_active {db : UploadDb} (h : Consistent db) {a : UploadAttempt} (ha : a ∈ db.attempts)
    (hactive : HasJob db.jobs a.jobId isActive) : latestAutopilotUploadAttempt db a.runId = some a := by
  rw [latest_eq_getLast? h.ordered]
  have hmem : a ∈ db.attempts.filter fun b => b.runId = a.runId := List.mem_filter.mpr ⟨ha, decide_eq_true rfl⟩
  obtain ⟨before, after, hsplit⟩ := List.append_of_mem hmem
  have hsettled := h.settled.filter fun b => b.runId = a.runId
  rw [hsplit] at hsettled ⊢
  cases after with
  | nil => simp
  | cons b after =>
    have hb : b ∈ db.attempts.filter fun b => b.runId = a.runId := by
      rw [hsplit]
      simp
    have hrun : b.runId = a.runId := of_decide_eq_true (List.mem_filter.mp hb).2
    have hpair := (List.pairwise_cons.mp (List.pairwise_append.mp hsettled).2.1).1 b List.mem_cons_self
    exact absurd hactive (hpair hrun.symm)

end Jobs

section Preserved

theorem isActive_iff {status : JobStatus} : isActive status ↔ status.final = false := by
  unfold isActive
  cases status <;> decide

theorem Consistent.map_jobs {db : UploadDb} (h : Consistent db) {f : Job → Job} {claimable : Job → Prop}
    (hf : ∀ j, Evolves (claimable j) j (f j)) : Consistent { db with jobs := db.jobs.map f } := by
  refine ⟨?_, h.ordered, h.bounds, ?_, ?_⟩
  · show ((db.jobs.map f).map Job.id).Nodup
    rw [map_id_of_evolves hf]
    exact h.ids
  · intro a ha
    refine (h.recorded a ha).imp_right fun hjob => ?_
    obtain ⟨⟨j, hj, hid, _⟩, hstatus⟩ := hjob
    exact ⟨⟨f j, List.mem_map_of_mem hj, by rw [(hf j).id, hid], trivial⟩, hstatus⟩
  · refine h.settled.imp fun hab hrun hjob => hab hrun ?_
    obtain ⟨k, hk, hid, hactive⟩ := hjob
    obtain ⟨j, hj, rfl⟩ := List.mem_map.mp hk
    refine ⟨j, hj, by rw [hid, (hf j).id], isActive_iff.mpr ?_⟩
    rw [isActive_iff] at hactive
    cases hfinal : j.status.final with
    | false => rfl
    | true => rw [(hf j).final hfinal] at hactive; cases hactive

theorem Consistent.tick {db : UploadDb} (h : Consistent db) (elapsed : Nat) :
    Consistent { db with clock := db.clock + elapsed } :=
  ⟨h.ids, h.ordered, fun a ha => ⟨(h.bounds a ha).1, Nat.le_add_right_of_le (h.bounds a ha).2⟩, h.recorded,
    h.settled⟩

theorem not_mem_of_newJobId {db : UploadDb} {ids : List JobId} {id : JobId} (h : newJobId db ids = some id) :
    id ∉ db.jobs.map Job.id := by
  have hdrawn := List.find?_some h
  exact of_decide_eq_true hdrawn

theorem hasJob_startJob {db : UploadDb} (h : Consistent db) {a : UploadAttempt} (ha : a ∈ db.attempts)
    {id : JobId} (hid : id ∉ db.jobs.map Job.id) {jobType : String} {now : Time} {P : JobStatus → Prop} :
    HasJob (startJob db id jobType now).jobs a.jobId P ↔ HasJob db.jobs a.jobId P := by
  constructor
  · rintro ⟨j, hj, hjob, hP⟩
    rcases List.mem_append.mp hj with hold | hnew
    · exact ⟨j, hold, hjob, hP⟩
    · rw [List.mem_singleton.mp hnew] at hjob
      rcases h.recorded a ha with ⟨hnone, _⟩ | ⟨⟨k, hk, hkid, _⟩, _⟩
      · rw [hnone] at hjob
        cases hjob
      · refine absurd (List.mem_map.mpr ⟨k, hk, ?_⟩) hid
        exact Option.some.inj (hkid.symm.trans hjob)
  · rintro ⟨j, hj, hrest⟩
    exact ⟨j, List.mem_append_left _ hj, hrest⟩

theorem Consistent.startJob {db : UploadDb} (h : Consistent db) {id : JobId} (hid : id ∉ db.jobs.map Job.id)
    (jobType : String) (now : Time) : Consistent (startJob db id jobType now) := by
  refine ⟨?_, h.ordered, h.bounds, ?_, ?_⟩
  · show ((db.jobs ++ [_]).map Job.id).Nodup
    rw [List.map_append, List.map_singleton, List.nodup_append_comm, List.singleton_append, List.nodup_cons]
    exact ⟨hid, h.ids⟩
  · intro a ha
    exact (h.recorded a ha).imp_right fun hjob => ⟨(hasJob_startJob h ha hid).mpr hjob.1, hjob.2⟩
  · refine h.settled.imp_of_mem fun ha _ hab hrun hjob => ?_
    exact hab hrun ((hasJob_startJob h ha hid).mp hjob)

theorem Consistent.record {db : UploadDb} (h : Consistent db) {runId : Nat} {jobId : Option JobId}
    {hashFilename expectedGroupTag : String} {status : UploadStatus} {error : Option String}
    (hrecorded : jobId = none ∧ status = .notConfigured ∨ HasJob db.jobs jobId (fun _ => True) ∧ status = .queued)
    (hsettled : ¬ LatestActive db runId) :
    Consistent (recordAutopilotUploadAttempt db runId jobId hashFilename expectedGroupTag status error db.clock) := by
  have hmem : ∀ a ∈ db.attempts ++ [⟨db.nextAttemptId, runId, jobId, hashFilename, expectedGroupTag, status, error,
      db.clock⟩], a ∈ db.attempts ∨ a = ⟨db.nextAttemptId, runId, jobId, hashFilename, expectedGroupTag, status,
        error, db.clock⟩ := fun a ha => (List.mem_append.mp ha).imp_right List.mem_singleton.mp
  refine ⟨h.ids, ?_, ?_, ?_, ?_⟩
  · refine List.pairwise_append.mpr ⟨h.ordered, List.pairwise_singleton _ _, fun a ha b hb => ?_⟩
    rw [List.mem_singleton.mp hb]
    exact h.bounds a ha
  · intro a ha
    rcases hmem a ha with hold | rfl
    · exact ⟨Nat.lt_succ_of_lt (h.bounds a hold).1, (h.bounds a hold).2⟩
    · exact ⟨Nat.lt_succ_self _, le_rfl⟩
  · intro a ha
    rcases hmem a ha with hold | rfl
    · exact h.recorded a hold
    · exact hrecorded
  · refine List.pairwise_append.mpr ⟨h.settled, List.pairwise_singleton _ _, fun a ha b hb hrun hactive => ?_⟩
    rw [List.mem_singleton.mp hb] at hrun
    refine hsettled ⟨a, ?_, hactive⟩
    have hlatest := latest_of_active h ha hactive
    rwa [hrun] at hlatest

theorem queue_cases (db : UploadDb) (q : UploadRequest) (now : Time) :
    (queueAutopilotHashUpload db q now).1 = db ∨
    (autopilotReadinessForRun db q.runId q.evidence q.preferredHashFilename).uploadStatus.active = false ∧
      ((∃ name error, (queueAutopilotHashUpload db q now).1 =
        recordAutopilotUploadAttempt db q.runId none name (strip q.vmGroupTag) .notConfigured error now) ∨
      ∃ id name, newJobId db q.ids = some id ∧ (queueAutopilotHashUpload db q now).1 =
        recordAutopilotUploadAttempt (startJob db id "upload_hash" now) q.runId (some id) name
          (strip q.vmGroupTag) .queued none now) := by
  unfold queueAutopilotHashUpload
  dsimp only
  split
  · exact .inl rfl
  · rename_i name _
    by_cases hname : pathName name ≠ name
    · rw [if_pos hname]
      exact .inl rfl
    rw [if_neg hname]
    split
    · exact .inl rfl
    by_cases hactive :
        (autopilotReadinessForRun db q.runId q.evidence q.preferredHashFilename).uploadStatus.active = true
    · rw [if_pos hactive]
      exact .inl rfl
    rw [if_neg hactive]
    split
    · exact .inl rfl
    split
    · exact .inr ⟨Bool.eq_false_iff.mpr hactive, .inl ⟨name, _, rfl⟩⟩
    · cases hid : newJobId db q.ids with
      | none => exact .inl rfl
      | some id => exact .inr ⟨Bool.eq_false_iff.mpr hactive, .inr ⟨id, name, rfl, rfl⟩⟩

theorem consistent_queue {db : UploadDb} (h : Consistent db) (q : UploadRequest) :
    Consistent (queueAutopilotHashUpload db q db.clock).1 := by
  rcases queue_cases db q db.clock with hsame | ⟨hinactive, hrecorded⟩
  · rw [hsame]
    exact h
  have hnot : ¬ LatestActive db q.runId := fun hactive => by
    rw [(readiness_active_iff h q.runId q.evidence q.preferredHashFilename).mpr (.inl hactive)] at hinactive
    cases hinactive
  rcases hrecorded with ⟨name, error, heq⟩ | ⟨id, name, hid, heq⟩
  · rw [heq]
    exact h.record (.inl ⟨rfl, rfl⟩) hnot
  · rw [heq]
    have hfresh := not_mem_of_newJobId hid
    refine (h.startJob hfresh "upload_hash" db.clock).record (.inr ⟨?_, rfl⟩) ?_
    · exact ⟨_, List.mem_append_right _ (List.mem_singleton_self _), rfl, trivial⟩
    · rintro ⟨a, ha, hactive⟩
      have hold : latestAutopilotUploadAttempt db q.runId = some a := ha
      exact hnot ⟨a, hold, (hasJob_startJob h (latest_mem hold).1 hfresh).mp hactive⟩

theorem claimJob_evolves (workerId : String) (now : Time) (id : JobId) (j : Job) :
    Evolves (j.id = id) j (claimJob workerId now id j) :=
  Scan.claim_evolves ⟨workerId, now, [], "", []⟩ id j

theorem consistent_exec {db : UploadDb} (h : Consistent db) (c : Call × Nat) : Consistent (exec db c) := by
  obtain ⟨c, elapsed⟩ := c
  have hticked := h.tick elapsed
  cases c with
  | queueUpload q => exact consistent_queue hticked q
  | claimNextJob workerId =>
    unfold exec
    dsimp only
    split
    · exact hticked
    · exact hticked.map_jobs (claimJob_evolves _ _ _)
  | finalizeJob | reapStaleRunningJobs | touchHeartbeat | requestKill =>
    exact hticked.map_jobs (Jobs.Call.update_evolves _)

end Preserved

section Requests

/-- Any jobs with distinct ids, and no upload attempted yet. -/
structure Start (db : UploadDb) : Prop where
  ids : (db.jobs.map Job.id).Nodup
  attempts : db.attempts = []

theorem Start.consistent {db : UploadDb} (h : Start db) : Consistent db := by
  have hnone : ∀ a ∈ db.attempts, False := by simp [h.attempts]
  exact ⟨h.ids, by simp [Ordered, h.attempts], fun a ha => (hnone a ha).elim, fun a ha => (hnone a ha).elim,
    by simp [h.attempts]⟩

theorem consistent_run {db : UploadDb} (h : Start db) (calls : List (Call × Nat)) :
    Consistent (calls.foldl exec db) := by
  induction calls using List.reverseRecOn with
  | nil => exact h.consistent
  | append_singleton calls c ih =>
    rw [List.foldl_append]
    exact consistent_exec ih c

def goodFile (q : UploadRequest) (name : String) : Prop :=
  name ≠ "" ∧ pathName name = name ∧ q.isFile name = true

/-- The run has a captured hash, the credentials are there, no device is imported, and of the
drawn ids one is new. -/
structure Ready (db : UploadDb) (q : UploadRequest) : Prop where
  captured : given q.preferredHashFilename ≠ none ∨ q.evidence.hashFiles ≠ []
  preferred : ∀ name ∈ given q.preferredHashFilename, goodFile q name
  files : ∀ f ∈ q.evidence.hashFiles, goodFile q f.name
  notImported : given q.evidence.autopilotDeviceId = none
  credentials : q.missingCredentials = []
  newId : newJobId db q.ids ≠ none

theorem mem_preferHashFile {files : List HashFile} {preferred : String} {f : HashFile} :
    f ∈ preferHashFile files preferred ↔ f ∈ files := by
  unfold preferHashFile
  split
  · rfl
  · by_cases hname : f.name = pathName preferred <;> simp [hname]

theorem given_of_ne {name : String} (h : name ≠ "") : given (some name) = some name := by
  simp [given, Option.filter, h]

theorem exists_hashFilename {db : UploadDb} {q : UploadRequest} (h : Ready db q) :
    ∃ name, orElse q.preferredHashFilename (autopilotReadinessForRun db q.runId q.evidence
      q.preferredHashFilename).hashFilename = some name ∧ goodFile q name := by
  unfold orElse
  cases hpreferred : given q.preferredHashFilename with
  | some name => exact ⟨name, rfl, h.preferred name hpreferred⟩
  | none =>
    have hcaptured := h.captured.resolve_left fun hne => hne hpreferred
    rw [Option.none_or]
    unfold autopilotReadinessForRun
    dsimp only
    set preferredName := (orElse q.preferredHashFilename ((latestAutopilotUploadAttempt db q.runId).map
      fun a => a.hashFilename)).getD ""
    set files := if preferredName = "" then q.evidence.hashFiles else preferHashFile q.evidence.hashFiles preferredName
      with hfiles
    have hmem : ∀ f, f ∈ files ↔ f ∈ q.evidence.hashFiles := by
      intro f
      rw [hfiles]
      split
      · rfl
      · exact mem_preferHashFile
    obtain ⟨f, hf⟩ := List.exists_mem_of_ne_nil _ hcaptured
    cases hhead : files with
    | nil =>
      have hnone := (hmem f).mpr hf
      rw [hhead] at hnone
      cases hnone
    | cons g rest =>
      have hg := h.files g ((hmem g).mp (by rw [hhead]; exact List.mem_cons_self))
      exact ⟨g.name, given_of_ne hg.1, hg⟩

theorem answer_of_ready {db : UploadDb} {q : UploadRequest} (h : Ready db q) (now : Time) :
    if (autopilotReadinessForRun db q.runId q.evidence q.preferredHashFilename).uploadStatus.active = true then
      ∃ jobId, queueAutopilotHashUpload db q now = (db, .uploadAlreadyActive jobId)
    else ∃ id name, id ∉ db.jobs.map Job.id ∧ queueAutopilotHashUpload db q now =
      (recordAutopilotUploadAttempt (startJob db id "upload_hash" now) q.runId (some id) name
        (strip q.vmGroupTag) .queued none now, .queued id) := by
  obtain ⟨name, hname, hgood⟩ := exists_hashFilename h
  have himported : (given (autopilotReadinessForRun db q.runId q.evidence
      q.preferredHashFilename).autopilotDeviceId).isSome = false := by
    show (given q.evidence.autopilotDeviceId).isSome = false
    rw [h.notImported, Option.isSome_none]
  unfold queueAutopilotHashUpload
  simp only [hname, hgood.2.1, himported, hgood.2.2, h.credentials]
  split
  · exact ⟨(autopilotReadinessForRun db q.runId q.evidence q.preferredHashFilename).uploadJobId, by simp⟩
  · obtain ⟨id, hid⟩ := Option.ne_none_iff_exists'.mp h.newId
    exact ⟨id, name, not_mem_of_newJobId hid, by simp [hid]⟩

def UploadJobOf (db : UploadDb) (runId : Nat) (j : Job) : Prop :=
  j ∈ db.jobs ∧ ∃ a ∈ db.attempts, a.runId = runId ∧ a.jobId = some j.id

/-- The request is refused as active where the latest upload is, and else starts a new job. -/
def AnsweredRight (db : UploadDb) (q : UploadRequest) (now : Time) : Prop :=
  ((∃ jobId, (queueAutopilotHashUpload db q now).2 = .uploadAlreadyActive jobId) ↔ LatestActive db q.runId) ∧
  (¬ LatestActive db q.runId → ∃ j, (queueAutopilotHashUpload db q now).2 = .queued j.id ∧
    j.id ∉ db.jobs.map Job.id ∧ j.status = .pending ∧
    UploadJobOf (queueAutopilotHashUpload db q now).1 q.runId j)

theorem answeredRight_iff {db : UploadDb} (h : Consistent db) {q : UploadRequest} (hready : Ready db q) (now : Time) :
    AnsweredRight db q now ↔ ¬ LatestOrphaned db q.runId := by
  have hactive := readiness_active_iff h q.runId q.evidence q.preferredHashFilename
  have hanswer := answer_of_ready hready now
  unfold AnsweredRight
  constructor
  · intro hright ho
    rw [if_pos (hactive.mpr (.inr ho))] at hanswer
    obtain ⟨jobId, heq⟩ := hanswer
    exact not_latestActive_of_orphaned h ho (hright.1.mp ⟨jobId, by rw [heq]⟩)
  · intro ho
    have hlatest := hactive.trans (or_iff_left ho)
    by_cases hl : LatestActive db q.runId
    · rw [if_pos (hlatest.mpr hl)] at hanswer
      obtain ⟨jobId, heq⟩ := hanswer
      exact ⟨⟨fun _ => hl, fun _ => ⟨jobId, by rw [heq]⟩⟩, fun hnot => absurd hl hnot⟩
    · rw [if_neg (hl ∘ hlatest.mp)] at hanswer
      obtain ⟨id, name, hid, heq⟩ := hanswer
      rw [heq]
      refine ⟨⟨?_, fun hyes => absurd hyes hl⟩, fun _ => ?_⟩
      · rintro ⟨_, hcases⟩
        cases hcases
      · refine ⟨{ id := id, jobType := "upload_hash", createdAt := now }, rfl, hid, rfl,
          List.mem_append_right _ (List.mem_singleton_self _), ?_⟩
        exact ⟨_, List.mem_append_right _ (List.mem_singleton_self _), rfl, rfl⟩

theorem at_most_one_active {db : UploadDb} (h : Consistent db) {runId : Nat} {j k : Job}
    (hj : UploadJobOf db runId j) (hk : UploadJobOf db runId k) (hja : isActive j.status)
    (hka : isActive k.status) : j = k := by
  obtain ⟨hj, a, ha, rfl, hajob⟩ := hj
  obtain ⟨hk, b, hb, hrun, hbjob⟩ := hk
  have hlatest := latest_of_active h hb ⟨k, hk, hbjob, hka⟩
  rw [hrun, latest_of_active h ha ⟨j, hj, hajob, hja⟩] at hlatest
  obtain rfl := Option.some.inj hlatest
  exact List.inj_on_of_nodup_map h.ids hj hk (Option.some.inj (hajob.symm.trans hbjob))

/-- After every history of calls a run has at most one active upload, and a request that is
ready is answered right unless the job of the latest upload is orphaned. -/
theorem retried_iff_not_orphaned {db : UploadDb} (h : Start db) (calls : List (Call × Nat)) :
    (∀ runId j k, UploadJobOf (calls.foldl exec db) runId j → UploadJobOf (calls.foldl exec db) runId k →
      isActive j.status → isActive k.status → j = k) ∧
    ∀ q, Ready (calls.foldl exec db) q → ∀ now, AnsweredRight (calls.foldl exec db) q now ↔
      ¬ LatestOrphaned (calls.foldl exec db) q.runId := by
  have hreached := consistent_run h calls
  constructor
  · intro runId j k hj hk
    exact at_most_one_active hreached hj hk
  · intro q hready now
    exact answeredRight_iff hreached hready now

def uploadOf (runId : Nat) (ids : List JobId) : UploadRequest where
  runId := runId
  evidence := { hashFiles := [⟨"PC1.csv", some "SER1"⟩] }
  preferredHashFilename := some "PC1.csv"
  isFile := fun name => name == "PC1.csv"
  ids := ids

def noJobs : UploadDb := { jobs := [], limits := fun _ => none }

theorem ready_uploadOf {db : UploadDb} {runId : Nat} {ids : List JobId} (hid : newJobId db ids ≠ none) :
    Ready db (uploadOf runId ids) := by
  have hgood : goodFile (uploadOf runId ids) "PC1.csv" := ⟨by decide, by decide, beq_self_eq_true _⟩
  have hgiven : given (uploadOf runId ids).preferredHashFilename = some "PC1.csv" := given_of_ne hgood.1
  refine ⟨.inl (by simp [hgiven]), ?_, ?_, rfl, rfl, hid⟩
  · intro name hname
    rw [hgiven] at hname
    cases hname
    exact hgood
  · intro f hf
    rw [List.mem_singleton.mp hf]
    exact hgood

def failedUpload : List (Call × Nat) :=
  [(.queueUpload (uploadOf 1 ["job-1"]), 1), (.claimNextJob "worker-1", 1), (.finalizeJob "job-1" 2, 60)]

theorem failed_upload_is_retried : AnsweredRight (failedUpload.foldl exec noJobs) (uploadOf 1 ["job-2"]) 100 := by
  have hjobs : (failedUpload.foldl exec noJobs).jobs.map Job.status = [.failed] := by decide +kernel
  have hstart : Start noJobs := ⟨List.nodup_nil, rfl⟩
  have hright := (retried_iff_not_orphaned hstart failedUpload).2
    (uploadOf 1 ["job-2"]) (ready_uploadOf (by decide +kernel)) 100
  refine hright.mpr ?_
  rintro ⟨a, _, j, hj, _, horphaned⟩
  have hstatus := List.mem_map_of_mem (f := Job.status) hj
  rw [hjobs, horphaned] at hstatus
  simp at hstatus

def reapedUpload : List (Call × Nat) :=
  [(.queueUpload (uploadOf 1 ["job-1"]), 1), (.claimNextJob "worker-1", 1), (.reapStaleRunningJobs 300, 1000)]

theorem orphaned_upload_is_never_retried : Start noJobs ∧
    Ready (reapedUpload.foldl exec noJobs) (uploadOf 1 ["job-2"]) ∧
    (reapedUpload.foldl exec noJobs).jobs.map Job.status = [.orphaned] ∧
    (queueAutopilotHashUpload (reapedUpload.foldl exec noJobs) (uploadOf 1 ["job-2"]) 1100).2 =
      .uploadAlreadyActive (some "job-1") ∧
    ¬ AnsweredRight (reapedUpload.foldl exec noJobs) (uploadOf 1 ["job-2"]) 1100 := by
  have hjobs : (reapedUpload.foldl exec noJobs).jobs.map Job.status = [.orphaned] := by decide +kernel
  have hanswer : (queueAutopilotHashUpload (reapedUpload.foldl exec noJobs) (uploadOf 1 ["job-2"]) 1100).2 =
      .uploadAlreadyActive (some "job-1") := by decide +kernel
  refine ⟨⟨List.nodup_nil, rfl⟩, ready_uploadOf (by decide +kernel), hjobs, hanswer, fun hright => ?_⟩
  obtain ⟨_, _, j, hj, _, hactive⟩ := hright.1.mp ⟨_, hanswer⟩
  have hstatus := List.mem_map_of_mem (f := Job.status) hj
  rw [hjobs, List.mem_singleton] at hstatus
  rw [hstatus] at hactive
  exact absurd hactive (by decide)

end Requests

end ProxmoxVEAutopilot.CloudOsd.HashUpload
