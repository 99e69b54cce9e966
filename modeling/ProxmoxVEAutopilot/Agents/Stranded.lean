import ProxmoxVEAutopilot.Agents.Exchange

/-!
# Steps nobody is working on

Server and clients over a network that loses messages and delivers requests after
their sender gave up. A claim is committed before its answer is sent and `next` does not
pass over a running step, so a step whose holder is gone stays running. Runs in which
no holder lets go of its step end with no running step.
-/

namespace ProxmoxVEAutopilot.Agents

open Foundation TsEngine
set_option autoImplicit false

variable {ι : Type}

/-- `strays` are requests on their way whose sender no longer waits. -/
structure System (ι : Type) where
  db : RunDb
  clients : ι → Client
  strays : List ClientCall := []

def System.initial (db : RunDb) : System ι where
  db := db
  clients := fun _ => {}

inductive Label (ι : Type) where
  | client (i : ι) (e : ClientEvent) (now : Time)
  | arrive (k : Nat) (now : Time)
  | vanish (k : Nat)

def ClientEvent.leaves : ClientEvent → Bool
  | .timeout => true
  | .crash => true
  | _ => false

/-- No running step loses its last holder: a client lets go of one only if another holds
it too, and a request nobody waits for claims none that nobody holds. -/
def KeepsHolder (cfg : ι → ClientConfig) (s : System ι) (l : Label ι) : Prop :=
  match l with
  | .client i e _ => (s.clients i).abandons (cfg i) e = true → ∀ r ∈ s.db.steps.rows,
      r.state = .running → (s.clients i).Holds r.id → ∃ j, j ≠ i ∧ (s.clients j).Holds r.id
  | .arrive k _ =>
    match s.strays[k]? with
    | some (.next body) => ∀ r, nextClaim s.db (body.request false) = some r →
        ∃ j, (s.clients j).Holds r.id
    | _ => True
  | .vanish _ => True

def Wire.inFlight : Wire → Bool
  | .request => true
  | .answer _ => true
  | _ => false

/-- No message in flight, no action at hand, and every client has been through register
and next since its last crash or lost answer. -/
structure Quiescent (s : System ι) : Prop where
  strays : s.strays = []
  wires : ∀ i, (s.clients i).wire.inFlight = false
  actions : ∀ i, (s.clients i).activity.executing = false
  registered : ∀ i, (s.clients i).registered = true
  asked : ∀ i, (s.clients i).asked = true

def Carried (s : System ι) : Prop :=
  ∀ r ∈ s.db.steps.rows, r.state = .running → ∃ i, (s.clients i).Holds r.id

def SingleStrays (s : System ι) : Prop := ∀ body, .next body ∈ s.strays → body.batch = 1

theorem initial_carried {db : RunDb} (hdb : Created db) : Carried (System.initial db : System ι) := by
  intro r hr hrunning
  obtain ⟨state, hstate, hprogress⟩ := hdb.initial.progress r hr
  rw [hprogress] at hrunning
  rcases hstate with rfl | rfl <;> cases hrunning

theorem Quiescent.not_holds {s : System ι} (h : Quiescent s) (i : ι) (id : Uuid) :
    ¬ (s.clients i).Holds id := by
  rintro ⟨a, hheld, _⟩
  have hwire := h.wires i
  have hexecuting := h.actions i
  unfold Client.held? at hheld
  cases hx : (s.clients i).activity <;> cases hw : (s.clients i).wire <;>
    simp_all [Activity.executing, Wire.inFlight]

variable [DecidableEq ι]

def System.step (cfg : ι → ClientConfig) (s : System ι) (l : Label ι) : System ι :=
  match l with
  | .client i .serve now =>
    { s with
      db := ((s.clients i).served (cfg i) s.db now).1
      clients := Function.update s.clients i ((s.clients i).served (cfg i) s.db now).2 }
  | .client i e _ =>
    { s with
      clients := Function.update s.clients i ((s.clients i).react (cfg i) e)
      strays := if e.leaves then s.strays ++ ((s.clients i).sent (cfg i)).toList else s.strays }
  | .arrive k now =>
    match s.strays[k]? with
    | some call => { s with db := (respond s.db call now).1, strays := s.strays.eraseIdx k }
    | none => s
  | .vanish k => { s with strays := s.strays.eraseIdx k }

theorem holds_update {clients : ι → Client} {i j : ι} {c : Client} {id : Uuid} (hj : j ≠ i)
    (h : (clients j).Holds id) : ∃ k, (Function.update clients i c k).Holds id :=
  ⟨j, by rwa [Function.update_of_ne hj]⟩

theorem holds_update_self (clients : ι → Client) {i : ι} {c : Client} {id : Uuid} (h : c.Holds id) :
    ∃ k, (Function.update clients i c k).Holds id :=
  ⟨i, by rwa [Function.update_self]⟩

theorem serve_carried {cfg : ι → ClientConfig} {s : System ι} (i : ι) (now : Time) (h : Carried s) :
    Carried (s.step cfg (.client i .serve now)) := by
  intro r hr hrunning
  simp only [System.step, Client.served] at hr ⊢
  cases hsent : (s.clients i).sent (cfg i) with
  | none =>
    simp only [hsent] at hr
    simpa only [Function.update_eq_self] using h r hr hrunning
  | some call =>
    simp only [hsent] at hr ⊢
    have hbatch : ∀ body, call = .next body → body.batch = 1 := by
      rintro body rfl
      exact call_next_batch (sent_eq_some hsent).2
    rcases respond_running hbatch hr hrunning with ⟨a, hanswer, hid⟩ | ⟨q, hq, hid, hq', hopen⟩
    · exact holds_update_self s.clients ⟨a, served_hands hsent hanswer, hid⟩
    · obtain ⟨j, a, hheld, haq⟩ := h q hq hq'
      rw [hid] at haq
      by_cases hji : j = i
      · subst hji
        rw [← haq] at hopen
        exact holds_update_self s.clients ⟨a, served_keeps hsent hheld hopen, haq⟩
      · exact holds_update hji ⟨a, hheld, haq⟩

theorem react_carried {cfg : ι → ClientConfig} {s : System ι} {i : ι} {e : ClientEvent} {now : Time}
    (h : Carried s) (hkeep : KeepsHolder cfg s (.client i e now)) :
    ∀ r ∈ s.db.steps.rows, r.state = .running →
      ∃ j, (Function.update s.clients i ((s.clients i).react (cfg i) e) j).Holds r.id := by
  intro r hr hrunning
  obtain ⟨j, hj⟩ := h r hr hrunning
  by_cases hji : j = i
  · subst hji
    cases habandons : (s.clients j).abandons (cfg j) e with
    | false =>
      obtain ⟨a, hheld, hid⟩ := hj
      exact holds_update_self s.clients ⟨a, react_held habandons hheld, hid⟩
    | true =>
      obtain ⟨k, hk, hholds⟩ := hkeep habandons r hr hrunning hj
      exact holds_update hk hholds
  · exact holds_update hji hj

theorem arrive_carried {cfg : ι → ClientConfig} {s : System ι} {k : Nat} {now : Time} (h : Carried s)
    (hsingle : SingleStrays s) (hkeep : KeepsHolder cfg s (.arrive k now)) :
    Carried (s.step cfg (.arrive k now)) := by
  intro r hr hrunning
  simp only [System.step, KeepsHolder] at hr hkeep ⊢
  cases hstray : s.strays[k]? with
  | none =>
    simp only [hstray] at hr
    exact h r hr hrunning
  | some call =>
    simp only [hstray] at hr hkeep
    have hbatch : ∀ body, call = .next body → body.batch = 1 := by
      rintro body rfl
      exact hsingle body (List.mem_of_getElem? hstray)
    rcases respond_running hbatch hr hrunning with ⟨a, hanswer, hid⟩ | ⟨q, hq, hid, hq', _⟩
    · obtain ⟨body, rfl⟩ := respond_hands hanswer
      rw [respond_next (hbatch body rfl), claimNextStep_answer, Wire.answer.injEq] at hanswer
      obtain ⟨q, hclaim, rfl⟩ := Option.map_eq_some_iff.mp hanswer
      rw [← hid]
      exact hkeep q hclaim
    · rw [← hid]
      exact h q hq hq'

theorem step_carried {cfg : ι → ClientConfig} {s : System ι} {l : Label ι} (h : Carried s)
    (hsingle : SingleStrays s) (hkeep : KeepsHolder cfg s l) : Carried (s.step cfg l) := by
  cases l with
  | client i e now =>
    cases e with
    | serve => exact serve_carried i now h
    | _ => exact react_carried h hkeep
  | arrive k now => exact arrive_carried h hsingle hkeep
  | vanish k => exact h

theorem step_singleStrays {cfg : ι → ClientConfig} {s : System ι} {l : Label ι}
    (h : SingleStrays s) : SingleStrays (s.step cfg l) := by
  have hleaves : ∀ i body, .next body ∈ s.strays ++ ((s.clients i).sent (cfg i)).toList →
      body.batch = 1 := by
    intro i body hbody
    rcases List.mem_append.mp hbody with hold | hnew
    · exact h body hold
    · exact call_next_batch (sent_eq_some (Option.mem_toList.mp hnew)).2
  intro body hbody
  cases l with
  | client i e now =>
    cases e with
    | timeout => exact hleaves i body hbody
    | crash => exact hleaves i body hbody
    | _ => exact h body hbody
  | arrive k now =>
    simp only [System.step] at hbody
    split at hbody
    · exact h body (List.mem_of_mem_eraseIdx hbody)
    · exact h body hbody
  | vanish k => exact h body (List.mem_of_mem_eraseIdx hbody)

/-- Runs in which no running step loses its last holder strand nothing. -/
theorem no_step_stranded (cfg : ι → ClientConfig) {db : RunDb} {labels : List (Label ι)}
    {s : System ι} (hdb : Created db)
    (hrun : Run (Guarded (KeepsHolder cfg) (System.step cfg)) (System.initial db) labels s)
    (hquiet : Quiescent s) : ∀ r ∈ s.db.steps.rows, r.state ≠ .running := by
  intro r hr hrunning
  have hinv : Carried s ∧ SingleStrays s := by
    refine hrun.invariant (P := fun s => Carried s ∧ SingleStrays s) ?_
      ⟨initial_carried hdb, fun body hbody => by cases hbody⟩
    rintro s l _ ⟨hs, hsingle⟩ ⟨hkeep, rfl⟩
    exact ⟨step_carried hs hsingle hkeep, step_singleStrays hsingle⟩
  obtain ⟨i, hi⟩ := hinv.1 r hr hrunning
  exact hquiet.not_holds i r.id hi

def packageStep : Node :=
  { id := 1, parentId := none, position := 0, nodeType := .step "install_package", name := "Install"
    phase := "full_os" }

def packageRun : RunDb := createdFrom [packageStep] rfl

def osdClientOnly : Unit → ClientConfig := fun _ => { kind := .osdClient, agentId := "osd-client" }

def osdEvents (es : List ClientEvent) : List (Label Unit) := es.map fun e => .client () e 0

def retriedResult : List (Label Unit) :=
  osdEvents [.start, .serve, .receive, .serve, .receive, .finish (.ok (.obj [])), .timeout] ++
    .vanish 0 :: osdEvents [.raise ⟨"timeout", "WebException"⟩, .serve, .receive, .serve, .receive,
      .serve, .receive]

theorem retried_result_strands_nothing :
    ∃ s : System Unit,
      Run (Guarded (KeepsHolder osdClientOnly) (System.step osdClientOnly)) (System.initial packageRun)
        retriedResult s ∧ Quiescent s ∧ ∀ r ∈ s.db.steps.rows, r.state ≠ .running := by
  have hkeeps : Replays (KeepsHolder osdClientOnly) (System.step osdClientOnly)
      (System.initial packageRun) retriedResult := by
    repeat' (first | exact trivial | refine ⟨fun h => absurd h (by decide), ?_⟩ | constructor)
  have hrun := Run.of_replays hkeeps
  have hquiet : Quiescent (retriedResult.foldl (System.step osdClientOnly) (System.initial packageRun)) :=
    ⟨rfl, fun _ => rfl, fun _ => rfl, fun _ => rfl, fun _ => rfl⟩
  exact ⟨_, hrun, hquiet, no_step_stranded osdClientOnly (created_createdFrom _ rfl) hrun hquiet⟩

/-- The answer that hands the step out is lost; the client asks again, is told there is
nothing to do, and so it is after it has been started anew. -/
def lostAnswer : List (Label Unit) :=
  osdEvents [.start, .serve, .receive, .serve, .loseAnswer, .raise ⟨"timeout", "WebException"⟩,
    .serve, .receive, .serve, .receive, .start, .serve, .receive, .serve, .receive, .serve,
    .receive]

theorem lost_answer_strands :
    ¬ ∀ (cfg : Unit → ClientConfig) (db : RunDb) (labels : List (Label Unit)) (s : System Unit),
      Created db → Run (Guarded (fun _ _ => True) (System.step cfg)) (System.initial db) labels s →
        Quiescent s → ∀ r ∈ s.db.steps.rows, r.state ≠ .running := by
  intro h
  have hfree : Replays (fun _ _ => True) (System.step osdClientOnly) (System.initial packageRun)
      lostAnswer := by decide
  have hrun := Run.of_replays hfree
  have hnone := h osdClientOnly packageRun lostAnswer _ (created_createdFrom _ rfl) hrun
    ⟨rfl, fun _ => rfl, fun _ => rfl, fun _ => rfl, fun _ => rfl⟩
  revert hnone
  decide

end ProxmoxVEAutopilot.Agents
