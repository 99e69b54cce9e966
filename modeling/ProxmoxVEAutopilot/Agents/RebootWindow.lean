import ProxmoxVEAutopilot.Agents.Exchange

/-!
# Between a reboot request and the reboot

The OSD client and the service of one machine, on a clock. The server takes any
registration for the machine's return, so an agent that registers before the restart
releases the next step. Without such a registration nothing is handed out: the awaited
step blocks what follows it, and what comes before it is settled.
-/

namespace ProxmoxVEAutopilot.Agents

open Foundation TsEngine
set_option autoImplicit false

inductive MachineAgent where
  | osdClient
  | autopilotAgent
deriving DecidableEq, Repr

structure MachineConfig where
  osdAgentId : String
  agentId : String
  fallbackUrl : Bool := false
  heartbeatIntervalSeconds : Nat := 30
deriving DecidableEq, Repr

def MachineConfig.client (cfg : MachineConfig) : MachineAgent → ClientConfig
  | .osdClient =>
    { kind := .osdClient, agentId := cfg.osdAgentId, phase := some "full_os", fallbackUrl := cfg.fallbackUrl }
  | .autopilotAgent => { kind := .workService, agentId := cfg.agentId }

def MachineConfig.delay (cfg : MachineConfig) : Nat := max 10 cfg.heartbeatIntervalSeconds

/-- `owed` are the steps with a required reboot reported successful since the last restart. -/
structure Machine where
  db : RunDb
  agents : MachineAgent → Client
  owed : List Uuid := []
  clock : Time := 0
  sleptAt : Time := 0
  shutdownAt : Option Time := none

def Machine.initial (db : RunDb) : Machine where
  db := db
  agents := fun _ => {}

inductive MachineLabel where
  | agent (i : MachineAgent) (e : ClientEvent) (now : Time)
  | restart (now : Time)

/-- The step whose required reboot an accepted result asks for. -/
def rebootReported (db : RunDb) (call : Option ClientCall) (now : Time) : List Uuid :=
  match call with
  | some (.result stepId body) =>
    match (respond db (.result stepId body) now).2, db.steps.get? stepId with
    | .answer _, some r =>
      if body.status = "success" ∧ r.plan.rebootBehavior = .required then [stepId] else []
    | _, _ => []
  | _ => []

def Activity.isSleeping : Activity → Bool
  | .sleeping => true
  | _ => false

def Client.requestsReboot (c : Client) (e : ClientEvent) : Bool :=
  match e, c.activity with
  | .finish (.raised _), _ => false
  | .finish _, .rebooting _ _ => true
  | _, _ => false

def Machine.step (cfg : MachineConfig) (m : Machine) (l : MachineLabel) : Machine :=
  match l with
  | .agent i .serve now =>
    { m with
      db := ((m.agents i).served (cfg.client i) m.db now).1
      agents := Function.update m.agents i ((m.agents i).served (cfg.client i) m.db now).2
      owed := rebootReported m.db ((m.agents i).sent (cfg.client i)) now ++ m.owed
      clock := now }
  | .agent i e now =>
    let c := (m.agents i).react (cfg.client i) e
    { m with
      agents := Function.update m.agents i c
      clock := now
      sleptAt := if c.activity.isSleeping && !(m.agents i).activity.isSleeping then now else m.sleptAt
      shutdownAt := if (m.agents i).requestsReboot e then some (now + 15) else m.shutdownAt }
  | .restart now =>
    { m with agents := fun _ => {}, owed := [], clock := now, shutdownAt := none }

def ClientEvent.lossy : ClientEvent → Bool
  | .timeout => true
  | .loseAnswer => true
  | _ => false

def ClientEvent.isWake : ClientEvent → Bool
  | .wake => true
  | _ => false

def ClientEvent.isServe : ClientEvent → Bool
  | .serve => true
  | _ => false

/-- The clock moves on, the service sleeps its delay, nothing runs past a scheduled
shutdown, and no message is lost. -/
def Timely (cfg : MachineConfig) (m : Machine) (l : MachineLabel) : Prop :=
  match l with
  | .agent i e now =>
    m.clock ≤ now ∧ (∀ t ∈ m.shutdownAt, now ≤ t) ∧ e.lossy = false ∧
      (e.isWake = true → i = .autopilotAgent → m.sleptAt + cfg.delay ≤ now)
  | .restart now => m.clock ≤ now

instance decidableTimely (cfg : MachineConfig) (m : Machine) (l : MachineLabel) :
    Decidable (Timely cfg m l) :=
  match l with
  | .agent _ _ _ => inferInstanceAs (Decidable (_ ∧ _ ∧ _ ∧ _))
  | .restart _ => inferInstanceAs (Decidable (_ ≤ _))

def Client.registers (cfg : ClientConfig) (c : Client) : Bool :=
  match c.sent cfg with
  | some (.register _) => true
  | _ => false

/-- No registration reaches the server while a reboot is owed. -/
def RegistersAfterRestart (cfg : MachineConfig) (m : Machine) (l : MachineLabel) : Prop :=
  match l with
  | .agent i e _ => e.isServe = true → (m.agents i).registers (cfg.client i) = true → m.owed = []
  | .restart _ => True

instance decidableRegistersAfterRestart (cfg : MachineConfig) (m : Machine) (l : MachineLabel) :
    Decidable (RegistersAfterRestart cfg m l) :=
  match l with
  | .agent _ _ _ => inferInstanceAs (Decidable (_ → _ → _))
  | .restart _ => isTrue trivial

structure Undisturbed (m : Machine) : Prop where
  awaiting : ∀ id ∈ m.owed, ∃ r ∈ m.db.steps.rows, r.id = id ∧ r.state = .awaitingReboot
  nothing : ∀ body now, body.phase = "full_os" → nextAction m.db body now = (m.db, [])
  idle : ∀ i a turn, (m.agents i).activity ≠ .working a turn

def Started (r : PlanStep) : Prop := r.state = .running ∨ r.state = .awaitingReboot

def Settled (r : PlanStep) : Prop := r.state = .done ∨ r.state = .skipped

theorem Started.not_settled {r : PlanStep} (h : Started r) : ¬ Settled r := by
  rintro (hs | hs) <;> rcases h with h | h <;> rw [h] at hs <;> cases hs

/-- Everything before a started step is settled. -/
def InOrder (t : PlanTable) : Prop :=
  ∀ p ∈ t.rows, ∀ r ∈ t.rows, p.inPhase "full_os" = true → r.inPhase "full_os" = true →
    p.plan.ordinal < r.plan.ordinal → Started r → Settled p

theorem InOrder.eq_of_started {t : PlanTable} (h : InOrder t) {p r : PlanStep} (hp : p ∈ t.rows)
    (hr : r ∈ t.rows) (hpp : p.inPhase "full_os" = true) (hrp : r.inPhase "full_os" = true)
    (hps : Started p) (hrs : Started r) : p = r := by
  rcases Nat.lt_trichotomy p.plan.ordinal r.plan.ordinal with hlt | heq | hgt
  · exact absurd (h p hp r hr hpp hrp hlt hrs) hps.not_settled
  · exact t.eq_of_ordinal hp hr heq
  · exact absurd (h r hr p hp hrp hpp hgt hps) hrs.not_settled

/-- One row moves: it may start once what comes before is settled, and it may leave the
settled states while nothing after it is started. -/
theorem InOrder.set {t : PlanTable} (h : InOrder t) {r : PlanStep}
    {f : StepProgress → StepProgress} (hr : r ∈ t.rows)
    (hbefore : Started (r.withProgress (f r.toStepProgress)) → ∀ p ∈ t.rows,
      p.inPhase "full_os" = true → p.plan.ordinal < r.plan.ordinal → Settled p)
    (hafter : Settled (r.withProgress (f r.toStepProgress)) ∨ ¬ Settled r) :
    InOrder (t.set r.id f) := by
  intro p' hp' u' hu' hpp hup hlt hus
  obtain ⟨p, hp, rfl⟩ := PlanTable.mem_set.mp hp'
  obtain ⟨u, hu, rfl⟩ := PlanTable.mem_set.mp hu'
  by_cases hur : u.id = r.id
  · -- the row that moved is the later one
    obtain rfl := t.eq_of_id hu hr hur
    have hpr : p.id ≠ u.id := by
      intro hid
      rw [t.eq_of_id hp hu hid] at hlt
      exact Nat.lt_irrefl _ hlt
    rw [if_pos rfl] at hus
    rw [if_neg hpr, PlanStep.withProgress_self] at hpp ⊢
    exact hbefore hus p hp hpp hlt
  · rw [if_neg hur, PlanStep.withProgress_self] at hus hup
    by_cases hpr : p.id = r.id
    · obtain rfl := t.eq_of_id hp hr hpr
      rw [if_pos rfl]
      exact hafter.resolve_right fun hnot => hnot (h p hp u hu hpp hup hlt hus)
    · rw [if_neg hpr, PlanStep.withProgress_self]
      exact h p hp u hu hpp hup hlt hus

theorem InOrder.nextClaim_none {db : RunDb} (h : InOrder db.steps) {q : ClaimRequest} {r : PlanStep}
    (hq : q.phase = "full_os") (hr : r ∈ db.steps.rows) (hphase : r.inPhase "full_os" = true)
    (hawait : r.state = .awaitingReboot) : nextClaim db q = none := by
  cases hclaim : nextClaim db q with
  | none => rfl
  | some p =>
    exfalso
    obtain ⟨_, hp, hpending, hpp, _, hprev⟩ := nextClaim_spec hclaim
    rw [hq] at hpp
    rcases Nat.lt_trichotomy r.plan.ordinal p.plan.ordinal with hlt | heq | hgt
    · have hblocks := hprev r hr hlt
      simp [blocks, hq, hphase, hawait] at hblocks
    · rw [db.steps.eq_of_ordinal hr hp heq, hpending] at hawait
      cases hawait
    · rcases h p hp r hr hpp hphase hgt (.inr hawait) with hs | hs <;> rw [hpending] at hs <;> cases hs

theorem nextAction_nothing {db : RunDb} {body : AgentNextBody} {now : Time}
    (h : nextClaim db (body.request false) = none) : nextAction db body now = (db, []) := by
  have hclaim : claimNextStep db (body.request false) now = (db, none) := by
    simp only [claimNextStep, h]
  unfold nextAction
  cases body.batch with
  | zero => rfl
  | succ n => simp only [claimBatch, List.isEmpty_nil, Bool.not_true, hclaim]

def Activity.isReporting : Activity → Bool
  | .reporting _ _ _ => true
  | _ => false

/-- The action whose required reboot the client has reported and not yet dealt with. -/
def Client.owes? (c : Client) : Option PlanStep :=
  match c.activity with
  | .rebooting a _ => some a
  | .reporting a report _ =>
    match c.wire with
    | .answer _ => if report.status = "success" ∧ a.plan.rebootBehavior = .required then some a else none
    | _ => none
  | _ => none

/-- The agents of a Windows machine ask for their own phase and know two results. -/
def Activity.Regular (cfg : ClientConfig) : Activity → Prop
  | .asking phase _ => phase = cfg.ownPhase
  | .reporting _ report _ => report.status = "success" ∨ report.status = "failed"
  | _ => True

theorem serviceReport_status {cfg : ClientConfig} {a : PlanStep} {r : WorkResult} {report : Report}
    (h : serviceReport cfg a r = some report) :
    report.status = "success" ∨ report.status = "failed" := by
  cases r with
  | ok data =>
    simp only [serviceReport] at h
    repeat' split at h
    all_goals
      cases h
      simp
  | unsatisfied data =>
    simp only [serviceReport] at h
    split at h
    · cases h
      exact .inr rfl
    · cases h
  | raised fault =>
    simp only [serviceReport] at h
    split at h
    · cases h
      exact .inr rfl
    · cases h

theorem workReport_status {cfg : ClientConfig} {a : PlanStep} {r : WorkResult} {report : Report}
    (hkind : cfg.kind ≠ .linuxAgent) (h : cfg.workReport a r = some report) :
    report.status = "success" ∨ report.status = "failed" := by
  unfold ClientConfig.workReport at h
  split at h
  · cases r with
    | ok data =>
      cases h
      exact .inl rfl
    | unsatisfied data => cases h
    | raised fault =>
      cases h
      exact .inr rfl
  · exact absurd ‹_› hkind
  · exact serviceReport_status h

section React
variable {cfg : ClientConfig} {c : Client} {e : ClientEvent} {x : Activity} {a : PlanStep}

theorem nextPhase_executing (cfg : ClientConfig) (turn : Turn) :
    (cfg.nextPhase turn).executing = false := by
  unfold ClientConfig.nextPhase
  split
  · rfl
  · split <;> rfl

theorem afterRegister_executing (cfg : ClientConfig) : cfg.afterRegister.executing = false := by
  unfold ClientConfig.afterRegister
  split <;> rfl

theorem afterClosing_executing (cfg : ClientConfig) (final : Bool) (turn : Turn) :
    (cfg.afterClosing final turn).executing = false := by
  unfold ClientConfig.afterClosing
  split
  · split
    · exact nextPhase_executing cfg turn
    · split <;> rfl
  · rfl

theorem onWake_executing (cfg : ClientConfig) : cfg.onWake.executing = false := by
  unfold ClientConfig.onWake
  split <;> rfl

theorem uncaught_executing (cfg : ClientConfig) : cfg.uncaught.executing = false := by
  unfold ClientConfig.uncaught
  split <;> rfl

theorem action_of_not_executing (h : x.executing = false) : x.action? = none := by
  cases x <;> first | rfl | cases h

theorem afterNext_action (cfg : ClientConfig) (phase : String) (turn : Turn) (action : Option PlanStep) :
    (cfg.afterNext phase turn action).action? = action := by
  unfold ClientConfig.afterNext
  cases action <;> cases cfg.kind <;> rfl

theorem afterReport_cases (cfg : ClientConfig) (b : PlanStep) (report : Report) (turn : Turn) :
    (cfg.afterReport b report turn).executing = false ∨
    (cfg.afterReport b report turn = .rebooting b turn ∧ report.status = "success" ∧
      b.plan.rebootBehavior = .required) := by
  unfold ClientConfig.afterReport
  split
  · split <;> exact .inl rfl
  · exact .inl (nextPhase_executing cfg turn)
  · split
    · rename_i h
      exact .inr ⟨rfl, h.1, h.2.2⟩
    · exact .inl rfl

theorem Next.held_rev (h : Next cfg c e x) (hx : x.action? = some a) :
    (c.held? = some a ∧ (c.activity.isReporting = true → x.isReporting = true)) ∨
    (c.owes? = some a ∧ x.isReporting = true) := by
  have hnot : ∀ y : Activity, y.executing = false → y.action? ≠ some a := by
    intro y hy
    rw [action_of_not_executing hy]
    simp
  cases h with
  | start => cases hx
  | wake => exact absurd hx (hnot _ (onWake_executing cfg))
  | @answer action hw =>
    cases hact : c.activity with
    | registering =>
      rw [hact] at hx
      exact absurd hx (hnot _ (afterRegister_executing cfg))
    | asking phase turn =>
      rw [hact, ClientConfig.onAnswer, afterNext_action] at hx
      exact .inl ⟨by simpa [Client.held?, hact, hw] using hx, by simp [Activity.isReporting]⟩
    | closing phase final turn =>
      rw [hact] at hx
      exact absurd hx (hnot _ (afterClosing_executing cfg final turn))
    | logging b turn =>
      simp only [hact, ClientConfig.onAnswer, Activity.action?] at hx
      exact .inl ⟨by simpa only [Client.held?, hact] using hx, by simp [Activity.isReporting]⟩
    | working b turn =>
      simp only [hact, ClientConfig.onAnswer, Activity.action?] at hx
      exact .inl ⟨by simpa only [Client.held?, hact] using hx, by simp [Activity.isReporting]⟩
    | reporting b report turn =>
      rw [hact, ClientConfig.onAnswer] at hx
      rcases afterReport_cases cfg b report turn with hdone | ⟨hreboot, _⟩
      · exact absurd hx (hnot _ hdone)
      · rw [hreboot] at hx
        cases hx
    | _ =>
      rw [hact] at hx
      cases hx
  | @error fault hw hspent =>
    cases hact : c.activity with
    | reporting b report turn =>
      simp only [hact, ClientConfig.onError] at hx ⊢
      split at hx
      · rename_i hguarded
        refine .inl ⟨by simpa [Client.held?, hact, hw, Activity.action?] using hx, fun _ => ?_⟩
        rw [if_pos hguarded]
        rfl
      · exact absurd hx (hnot _ (uncaught_executing cfg))
    | _ =>
      rw [hact] at hx
      exact absurd hx (hnot _ (uncaught_executing cfg))
  | @finish r _ hfinish =>
    cases hact : c.activity with
    | working b turn =>
      rw [hact] at hfinish
      obtain ⟨report, _, rfl⟩ := Option.map_eq_some_iff.mp hfinish
      exact .inl ⟨by simpa [Client.held?, hact, Activity.action?] using hx, fun _ => rfl⟩
    | rebooting b turn =>
      rw [hact] at hfinish
      cases r with
      | raised fault =>
        cases hfinish
        exact .inr ⟨by simpa [Client.owes?, hact, Activity.action?] using hx, rfl⟩
      | ok data =>
        cases hfinish
        cases hx
      | unsatisfied data =>
        cases hfinish
        cases hx
    | _ =>
      rw [hact] at hfinish
      cases hfinish

theorem Next.owes {turn : Turn} (h : Next cfg c e (.rebooting a turn)) : c.owes? = some a := by
  generalize hx : Activity.rebooting a turn = x at h
  have hnot : ∀ y : Activity, y.executing = false → Activity.rebooting a turn ≠ y := by
    rintro y hy rfl
    cases hy
  cases h with
  | start => cases hx
  | wake => exact absurd hx (hnot _ (onWake_executing cfg))
  | @answer action hw =>
    cases hact : c.activity with
    | registering =>
      rw [hact] at hx
      exact absurd hx (hnot _ (afterRegister_executing cfg))
    | asking phase turn' =>
      rw [hact, ClientConfig.onAnswer] at hx
      cases action <;> cases hkind : cfg.kind <;> simp [ClientConfig.afterNext, hkind] at hx
    | closing phase final turn' =>
      rw [hact] at hx
      exact absurd hx (hnot _ (afterClosing_executing cfg final turn'))
    | reporting b report turn' =>
      rw [hact, ClientConfig.onAnswer] at hx
      rcases afterReport_cases cfg b report turn' with hdone | ⟨hreboot, hsuccess, hrequired⟩
      · exact absurd hx (hnot _ hdone)
      · rw [hreboot] at hx
        cases hx
        simp [Client.owes?, hact, hw, hsuccess, hrequired]
    | rebooting b turn' =>
      rw [hact] at hx
      cases hx
      simp [Client.owes?, hact]
    | _ =>
      rw [hact] at hx
      cases hx
  | @error fault hw hspent =>
    cases hact : c.activity with
    | reporting b report turn' =>
      simp only [hact, ClientConfig.onError] at hx
      split at hx
      · cases hx
      · exact absurd hx (hnot _ (uncaught_executing cfg))
    | _ =>
      rw [hact] at hx
      exact absurd hx (hnot _ (uncaught_executing cfg))
  | @finish r _ hfinish =>
    subst hx
    cases hact : c.activity with
    | working b turn' =>
      rw [hact] at hfinish
      obtain ⟨report, _, hreport⟩ := Option.map_eq_some_iff.mp hfinish
      cases hreport
    | rebooting b turn' =>
      rw [hact] at hfinish
      cases r <;> cases hfinish
    | _ =>
      rw [hact] at hfinish
      cases hfinish

theorem react_held_rev (hlossy : e ≠ .loseAnswer) (h : (c.react cfg e).held? = some a) :
    (c.held? = some a ∧
      (c.activity.isReporting = true → (c.react cfg e).activity.isReporting = true)) ∨
    (c.owes? = some a ∧ (c.react cfg e).activity.isReporting = true) := by
  have hreact := react_reaction cfg c e
  generalize c.react cfg e = c' at hreact h ⊢
  cases hreact with
  | stay => exact .inl ⟨h, id⟩
  | enter hnext =>
    rw [enter_held] at h
    exact hnext.held_rev h
  | timeout hw => exact .inl ⟨by cases hx : c.activity <;> simp_all [Client.held?], id⟩
  | lost => exact absurd rfl hlossy
  | retry hw => exact .inl ⟨by cases hx : c.activity <;> simp_all [Client.held?], id⟩
  | crash => cases h

theorem enter_owes (cfg : ClientConfig) (c : Client) (x : Activity) :
    (c.enter cfg x).owes? = some a → ∃ turn, x = .rebooting a turn := by
  intro h
  cases x with
  | rebooting b turn =>
    cases h
    exact ⟨turn, rfl⟩
  | _ => cases h

theorem react_owes (h : (c.react cfg e).owes? = some a) : c.owes? = some a := by
  have hreact := react_reaction cfg c e
  generalize c.react cfg e = c' at hreact h
  cases hreact with
  | stay => exact h
  | enter hnext =>
    obtain ⟨turn, rfl⟩ := enter_owes _ _ _ h
    exact hnext.owes
  | timeout hw => cases hx : c.activity <;> simp_all [Client.owes?]
  | lost hw => cases hx : c.activity <;> simp_all [Client.owes?]
  | retry hw => cases hx : c.activity <;> simp_all [Client.owes?]
  | crash => cases h

theorem onAnswer_regular (hkind : cfg.kind ≠ .linuxAgent) (x : Activity) (action : Option PlanStep) :
    (cfg.onAnswer x action).Regular cfg ∨ cfg.onAnswer x action = x := by
  cases x with
  | registering =>
    left
    simp only [ClientConfig.onAnswer, ClientConfig.afterRegister]
    rfl
  | asking phase turn =>
    left
    cases action <;> cases hk : cfg.kind <;>
      simp [ClientConfig.onAnswer, ClientConfig.afterNext, hk, Activity.Regular]
  | closing phase final turn =>
    left
    simp only [ClientConfig.onAnswer, ClientConfig.afterClosing]
    trivial
  | logging b turn => exact .inl trivial
  | reporting b report turn =>
    left
    simp only [ClientConfig.onAnswer, ClientConfig.afterReport]
    split
    · split
      · rfl
      · trivial
    · exact absurd ‹_› hkind
    · split <;> trivial
  | _ => exact .inr rfl

theorem onError_regular (cfg : ClientConfig) (x : Activity) (fault : Fault) :
    (cfg.onError x fault).Regular cfg := by
  have huncaught : cfg.uncaught.Regular cfg := by
    unfold ClientConfig.uncaught
    split <;> trivial
  unfold ClientConfig.onError
  split
  · split
    · exact .inr rfl
    · exact huncaught
  · exact huncaught

theorem onFinish_regular (hkind : cfg.kind ≠ .linuxAgent) {y : Activity} {r : WorkResult}
    (h : cfg.onFinish y r = some x) : x.Regular cfg := by
  unfold ClientConfig.onFinish at h
  split at h
  · obtain ⟨report, hreport, rfl⟩ := Option.map_eq_some_iff.mp h
    exact workReport_status hkind hreport
  · split at h
    · cases h
      exact .inr rfl
    · cases h
      trivial
  · cases h

theorem react_regular (hkind : cfg.kind ≠ .linuxAgent) (h : c.activity.Regular cfg) :
    (c.react cfg e).activity.Regular cfg := by
  have hreact := react_reaction cfg c e
  generalize c.react cfg e = c' at hreact
  cases hreact with
  | stay => exact h
  | enter hnext =>
    change Activity.Regular cfg _
    cases hnext with
    | start => trivial
    | wake =>
      unfold ClientConfig.onWake
      split
      · exact absurd ‹_› hkind
      · trivial
    | answer =>
      rcases onAnswer_regular hkind c.activity _ with hregular | hsame
      · exact hregular
      · rw [hsame]
        exact h
    | error => exact onError_regular cfg _ _
    | finish hfinish => exact onFinish_regular hkind hfinish
  | timeout => exact h
  | lost => exact h
  | retry => exact h
  | crash => trivial

end React

def Ongoing (t : PlanTable) (a : PlanStep) : Prop :=
  ∃ r ∈ t.rows, r.id = a.id ∧ r.plan = a.plan ∧ r.state = .running

/-- What holds of the rows, the agents and the owed reboots of one machine. -/
structure Window (cfg : MachineConfig) (t : PlanTable) (agents : MachineAgent → Client)
    (owed : List Uuid) : Prop where
  ordered : InOrder t
  started : ∀ r ∈ t.rows, Started r → r.inPhase "full_os" = true
  held : ∀ i a, (agents i).held? = some a →
    (Ongoing t a ∧ ∀ j, j ≠ i → ¬ (agents j).Holds a.id) ∨
    (a.id ∈ owed ∧ (agents i).activity.isReporting = true)
  owing : ∀ i a, (agents i).owes? = some a → a.id ∈ owed
  owed : ∀ id ∈ owed, ∃ r ∈ t.rows, r.id = id ∧ r.state = .awaitingReboot ∧
    r.plan.rebootBehavior = .required
  regular : ∀ i, (agents i).activity.Regular (cfg.client i)

namespace Window
variable {cfg : MachineConfig} {t u : PlanTable} {agents : MachineAgent → Client} {owed owed' : List Uuid}
  {i : MachineAgent} {c : Client}

/-- One agent moves: what the others hold must go on, and the agent accounts for what it
holds and owes. -/
theorem move (h : Window cfg t agents owed) (hordered : InOrder u)
    (hstarted : ∀ r ∈ u.rows, Started r → r.inPhase "full_os" = true)
    (hkeep : ∀ a, Ongoing t a → ¬ (agents i).Holds a.id → Ongoing u a)
    (hheld : ∀ a, c.held? = some a →
      (Ongoing u a ∧ ∀ j, j ≠ i → ¬ (agents j).Holds a.id) ∨
      (a.id ∈ owed' ∧ c.activity.isReporting = true))
    (howing : ∀ a, c.owes? = some a → a.id ∈ owed') (hsub : ∀ id ∈ owed, id ∈ owed')
    (howed : ∀ id ∈ owed', ∃ r ∈ u.rows, r.id = id ∧ r.state = .awaitingReboot ∧
      r.plan.rebootBehavior = .required)
    (hregular : c.activity.Regular (cfg.client i)) :
    Window cfg u (Function.update agents i c) owed' := by
  have hunowed : ∀ a, a.id ∈ owed' → ¬ Ongoing u a := by
    rintro a ha ⟨r, hr, hid, _, hrunning⟩
    obtain ⟨q, hq, hqid, hawait, _⟩ := howed _ ha
    rw [u.eq_of_id hq hr (hqid.trans hid.symm), hrunning] at hawait
    cases hawait
  refine ⟨hordered, hstarted, ?_, ?_, howed, ?_⟩
  · intro j a ha
    by_cases hj : j = i
    · subst hj
      rw [Function.update_self] at ha ⊢
      refine (hheld a ha).imp_left fun hown => ⟨hown.1, fun k hk => ?_⟩
      rw [Function.update_of_ne hk]
      exact hown.2 k hk
    · rw [Function.update_of_ne hj] at ha ⊢
      rcases h.held j a ha with ⟨hongoing, hsole⟩ | ⟨hmem, hreporting⟩
      · have hstill := hkeep a hongoing (hsole i (Ne.symm hj))
        refine .inl ⟨hstill, fun k hk => ?_⟩
        by_cases hki : k = i
        · subst hki
          rw [Function.update_self]
          rintro ⟨b, hb, hid⟩
          -- the moving agent cannot have come to hold a step that runs elsewhere
          rcases hheld b hb with ⟨_, hsole'⟩ | ⟨hmem, _⟩
          · exact hsole' j hj ⟨a, ha, hid.symm⟩
          · rw [hid] at hmem
            exact hunowed a hmem hstill
        · rw [Function.update_of_ne hki]
          exact hsole k hk
      · exact .inr ⟨hsub _ hmem, hreporting⟩
  · intro j a ha
    by_cases hj : j = i
    · subst hj
      rw [Function.update_self] at ha
      exact howing a ha
    · rw [Function.update_of_ne hj] at ha
      exact hsub _ (h.owing j a ha)
  · intro j
    by_cases hj : j = i
    · subst hj
      rwa [Function.update_self]
    · rw [Function.update_of_ne hj]
      exact h.regular j

theorem move_local (h : Window cfg t agents owed)
    (hheld : ∀ a, c.held? = some a →
      (Ongoing t a ∧ ∀ j, j ≠ i → ¬ (agents j).Holds a.id) ∨
      (a.id ∈ owed ∧ c.activity.isReporting = true))
    (howing : ∀ a, c.owes? = some a → a.id ∈ owed) (hregular : c.activity.Regular (cfg.client i)) :
    Window cfg t (Function.update agents i c) owed :=
  h.move h.ordered h.started (fun _ ha _ => ha) hheld howing (fun _ hid => hid) h.owed hregular

theorem kind_ne_linux (cfg : MachineConfig) (i : MachineAgent) : (cfg.client i).kind ≠ .linuxAgent := by
  cases i <;> simp [MachineConfig.client]

theorem react (h : Window cfg t agents owed) {e : ClientEvent} (hlossy : e ≠ .loseAnswer) :
    Window cfg t (Function.update agents i ((agents i).react (cfg.client i) e)) owed := by
  refine h.move_local ?_ (fun a ha => h.owing i a (react_owes ha))
    (react_regular (kind_ne_linux cfg i) (h.regular i))
  intro a ha
  rcases react_held_rev hlossy ha with ⟨hheld, hreporting⟩ | ⟨howes, hreporting⟩
  · exact (h.held i a hheld).imp_right fun hlate => ⟨hlate.1, hreporting hlate.2⟩
  · exact .inr ⟨h.owing i a howes, hreporting⟩

theorem ongoing_set_of_ne {a : PlanStep} {id : Uuid} {f : StepProgress → StepProgress}
    (h : Ongoing t a) (hne : a.id ≠ id) : Ongoing (t.set id f) a := by
  obtain ⟨r, hr, hid, hplan, hrunning⟩ := h
  exact ⟨r, PlanTable.mem_set_of_ne hr (by rwa [hid]), hid, hplan, hrunning⟩

theorem move_row (h : Window cfg t agents owed) {r : PlanStep} {f : StepProgress → StepProgress}
    (hr : r ∈ t.rows) (hphase : r.inPhase "full_os" = true)
    (hbefore : Started (r.withProgress (f r.toStepProgress)) → ∀ p ∈ t.rows,
      p.inPhase "full_os" = true → p.plan.ordinal < r.plan.ordinal → Settled p)
    (hafter : Settled (r.withProgress (f r.toStepProgress)) ∨ ¬ Settled r)
    (hmine : ∀ a, Ongoing t a → ¬ (agents i).Holds a.id → a.id ≠ r.id)
    (hheld : ∀ a, c.held? = some a → Ongoing (t.set r.id f) a ∧ ∀ j, j ≠ i → ¬ (agents j).Holds a.id)
    (howing : ∀ a, c.owes? = some a → a.id ∈ owed') (hsub : ∀ id ∈ owed, id ∈ owed')
    (howed : ∀ id ∈ owed', (id ∈ owed ∧ id ≠ r.id) ∨
      (id = r.id ∧ (f r.toStepProgress).state = .awaitingReboot ∧ r.plan.rebootBehavior = .required))
    (hregular : c.activity.Regular (cfg.client i)) :
    Window cfg (t.set r.id f) (Function.update agents i c) owed' := by
  refine h.move (h.ordered.set hr hbefore hafter) ?_
    (fun a ha hnot => ongoing_set_of_ne ha (hmine a ha hnot)) (fun a ha => .inl (hheld a ha))
    howing hsub ?_ hregular
  · intro q hq hstarted
    obtain ⟨p, hp, rfl⟩ := PlanTable.mem_set.mp hq
    by_cases hid : p.id = r.id
    · rw [t.eq_of_id hp hr hid]
      exact hphase
    · rw [if_neg hid] at hstarted ⊢
      exact h.started p hp hstarted
  · intro id hid
    rcases howed id hid with ⟨hold, hne⟩ | ⟨rfl, hawait, hrequired⟩
    · obtain ⟨q, hq, rfl, hq'⟩ := h.owed id hold
      exact ⟨q, PlanTable.mem_set_of_ne hq hne, rfl, hq'⟩
    · exact ⟨_, PlanTable.mem_set.mpr ⟨r, hr, rfl⟩, rfl, by simpa using hawait, hrequired⟩

theorem register (h : Window cfg t agents []) {db : RunDb} (hdb : db.steps = t) (agentId : String)
    (now : Time) (hheld : c.held? = none) (howes : c.owes? = none)
    (hregular : c.activity.Regular (cfg.client i)) :
    Window cfg (serve db (.register agentId) now).steps (Function.update agents i c) [] := by
  subst hdb
  rcases serve_register db agentId now with ⟨_, hsame⟩ | ⟨r, hr, hawait, _, hdone⟩
  · rw [hsame]
    exact h.move_local (by simp [hheld]) (by simp [howes]) hregular
  · rw [hdone]
    refine h.move_row (f := fun p => { p with state := .done, finishedAt := some now }) hr
      (h.started r hr (.inr hawait)) ?_ (.inl (.inl rfl)) ?_ (by simp [hheld]) (by simp [howes])
      (fun id hid => hid) (by simp) hregular
    · rintro (hs | hs) <;> cases hs
    · rintro a ⟨q, hq, hid, _, hrunning⟩ _ hne
      rw [db.steps.eq_of_id hq hr (hid.trans hne), hawait] at hrunning
      cases hrunning

theorem not_held_of_pending (h : Window cfg t agents owed) {r : PlanStep} (hr : r ∈ t.rows)
    (hpending : r.state = .pending) (j : MachineAgent) : ¬ (agents j).Holds r.id := by
  rintro ⟨a, ha, hid⟩
  rcases h.held j a ha with ⟨⟨q, hq, hqid, _, hrunning⟩, _⟩ | ⟨hmem, _⟩
  · rw [t.eq_of_id hq hr (hqid.trans hid), hpending] at hrunning
    cases hrunning
  · obtain ⟨q, hq, hqid, hawait, _⟩ := h.owed _ hmem
    rw [t.eq_of_id hq hr (hqid.trans hid), hpending] at hawait
    cases hawait

theorem claim (h : Window cfg t agents owed) {db : RunDb} (hdb : db.steps = t) {q : ClaimRequest}
    (hq : q.phase = "full_os") (hallow : q.allowRunning = false) (now : Time)
    (hheld : c.held? = (claimNextStep db q now).2) (howes : c.owes? = none)
    (hregular : c.activity.Regular (cfg.client i)) :
    Window cfg (claimNextStep db q now).1.steps (Function.update agents i c) owed := by
  subst hdb
  unfold claimNextStep at hheld ⊢
  cases hclaim : nextClaim db q with
  | none =>
    simp only [hclaim] at hheld ⊢
    exact h.move_local (by simp [hheld]) (by simp [howes]) hregular
  | some r =>
    simp only [hclaim] at hheld ⊢
    obtain ⟨_, hr, hpending, hphase, _, hprev⟩ := nextClaim_spec hclaim
    rw [hq] at hphase
    refine h.move_row hr hphase (fun _ p hp hpp hlt => ?_) (.inr ?_) ?_ ?_ (by simp [howes])
      (fun id hid => hid) (fun id hid => .inl ⟨hid, ?_⟩) hregular
    · have hblocks := hprev p hp hlt
      cases hs : p.state <;> simp_all [blocks, Settled]
    · rintro (hs | hs) <;> rw [hpending] at hs <;> cases hs
    · rintro a ⟨p, hp, hid, _, hrunning⟩ _ hne
      rw [db.steps.eq_of_id hp hr (hid.trans hne), hpending] at hrunning
      cases hrunning
    · intro a ha
      rw [hheld, Option.some.injEq] at ha
      subst ha
      refine ⟨⟨_, PlanTable.mem_set.mpr ⟨r, hr, rfl⟩, rfl, rfl, by simp [claimedProgress]⟩, fun j _ => ?_⟩
      exact h.not_held_of_pending hr hpending j
    · rintro rfl
      obtain ⟨p, hp, hpid, hawait, _⟩ := h.owed _ hid
      rw [db.steps.eq_of_id hp hr hpid, hpending] at hawait
      cases hawait

theorem rebootReported_accepted {db : RunDb} {body : StepResultBody} {now : Time} {r : PlanStep}
    (hr : r ∈ db.steps.rows) (hanswer : (respond db (.result r.id body) now).2 = .answer none) :
    rebootReported db (some (.result r.id body)) now =
      if body.status = "success" ∧ r.plan.rebootBehavior = .required then [r.id] else [] := by
  simp only [rebootReported, hanswer, PlanTable.get?_of_mem hr]

theorem owes_of_accepted {a b : PlanStep} {report : Report} {turn : Turn}
    (hact : c.activity = .reporting a report turn)
    (h : ({ c with wire := .answer none } : Client).owes? = some b) :
    b = a ∧ report.status = "success" ∧ a.plan.rebootBehavior = .required := by
  simp only [Client.owes?, hact] at h
  split at h
  · rename_i hcond
    cases h
    exact ⟨rfl, hcond⟩
  · cases h

theorem started_of_held (h : Window cfg t agents owed) {a r : PlanStep}
    (hheld : (agents i).held? = some a) (hr : r ∈ t.rows) (hid : r.id = a.id) :
    Started r ∧ (r.plan = a.plan ∨ a.id ∈ owed) := by
  rcases h.held i a hheld with ⟨⟨q, hq, hqid, hplan, hrunning⟩, _⟩ | ⟨hmem, _⟩
  · rw [t.eq_of_id hr hq (hid.trans hqid.symm)]
    exact ⟨.inl hrunning, .inl hplan⟩
  · obtain ⟨q, hq, hqid, hawait, _⟩ := h.owed _ hmem
    rw [t.eq_of_id hr hq (hid.trans hqid.symm)]
    exact ⟨.inr hawait, .inr hmem⟩

theorem result_written (h : Window cfg t agents owed) {a r : PlanStep} {report : Report} {turn : Turn}
    {status : Status} {message : Option String} {o : Outcome} {now : Time}
    (hact : (agents i).activity = .reporting a report turn) (hw : (agents i).wire = .request)
    (hr : r ∈ t.rows) (hid : r.id = a.id) (hstatus : status = .ofText report.status)
    (hlate : lateFailure r status = false) (ho : outcome t r status now = .ok o) :
    Window cfg (t.set r.id (completedProgress o status message))
      (Function.update agents i { agents i with wire := .answer none })
      ((if report.status = "success" ∧ r.plan.rebootBehavior = .required then [r.id] else []) ++ owed) := by
  have hheld : (agents i).held? = some a := by simp only [Client.held?, hact, hw]
  obtain ⟨hstarted, hplan⟩ := h.started_of_held hheld hr hid
  have hphase := h.started r hr hstarted
  -- an accepted success of a required reboot leaves the row waiting for it
  have hawaits : report.status = "success" → r.plan.rebootBehavior = .required →
      o.stepState = .awaitingReboot := by
    intro hsuccess hrequired
    have hs : status = .success := by rw [hstatus, hsuccess]; rfl
    simp only [hs, outcome, hrequired, if_true, Except.ok.injEq] at ho
    rw [← ho]
  refine h.move_row hr hphase (fun _ p hp hpp hlt => h.ordered p hp r hr hpp hphase hlt hstarted)
    (.inr hstarted.not_settled) (fun b _ hnot hb => hnot ⟨a, hheld, by rw [hb, hid]⟩) ?_ ?_
    (fun id hmem => List.mem_append_right _ hmem) ?_ (h.regular i)
  · intro b hb
    simp [Client.held?, hact] at hb
  · intro b hb
    obtain ⟨rfl, hsuccess, hrequired⟩ := owes_of_accepted hact hb
    rcases hplan with hplan | hmem
    · rw [← hplan] at hrequired
      simp [hsuccess, hrequired, hid]
    · exact List.mem_append_right _ hmem
  · intro id hmem
    rcases List.mem_append.mp hmem with hnew | hold
    · split at hnew
      · rename_i hcond
        rw [List.mem_singleton] at hnew
        exact .inr ⟨hnew, hawaits hcond.1 hcond.2, hcond.2⟩
      · cases hnew
    · by_cases hne : id = r.id
      · subst hne
        obtain ⟨q, hq, hqid, hawait, hrequired⟩ := h.owed _ hold
        rw [t.eq_of_id hq hr hqid] at hawait hrequired
        -- a failure would have come too late, so this is the success reported once more
        have hsuccess : report.status = "success" := by
          have hregular := h.regular i
          rw [hact] at hregular
          rcases hregular with hs | hs
          · exact hs
          · rw [hs] at hstatus
            subst hstatus
            rw [lateFailure, hawait] at hlate
            cases hlate
        exact .inr ⟨rfl, hawaits hsuccess hrequired, hrequired⟩
      · exact .inl ⟨hold, hne⟩

theorem result (h : Window cfg t agents owed) {db : RunDb} (hdb : db.steps = t) {a : PlanStep}
    {report : Report} {turn : Turn} {body : StepResultBody} (now : Time)
    (hact : (agents i).activity = .reporting a report turn) (hw : (agents i).wire = .request)
    (hbody : body.status = report.status) :
    Window cfg (respond db (.result a.id body) now).1.steps
      (Function.update agents i { agents i with wire := (respond db (.result a.id body) now).2 })
      (rebootReported db (some (.result a.id body)) now ++ owed) := by
  subst hdb
  rcases respond_result db a.id body now with hrefused | ⟨r, hr, hid, hanswer, hlate | hwritten⟩
  · have hnone : rebootReported db (some (.result a.id body)) now = [] := by
      simp [rebootReported, hrefused]
    rw [hnone, hrefused]
    refine h.move_local (fun b hb => ?_) (fun b hb => ?_) (h.regular i)
    · rw [show b = a by simpa [Client.held?, hact] using hb.symm]
      exact h.held i a (by simp only [Client.held?, hact, hw])
    · simp [Client.owes?, hact] at hb
  · obtain ⟨hlate, hsteps, _⟩ := hlate
    have hfailed : report.status ≠ "success" := by
      intro hs
      rw [hbody, hs] at hlate
      cases hlate
    rw [← hid] at hanswer hsteps ⊢
    rw [rebootReported_accepted hr hanswer, if_neg (fun hcond => hfailed (hbody ▸ hcond.1)), hanswer,
      hsteps]
    refine h.move_local (fun b hb => ?_) (fun b hb => ?_) (h.regular i)
    · simp [Client.held?, hact] at hb
    · exact absurd (owes_of_accepted hact hb).2.1 hfailed
  · obtain ⟨hlate, o, ho, hdb⟩ := hwritten
    rw [hbody] at hlate ho hdb
    rw [← hid] at hanswer hdb ⊢
    rw [rebootReported_accepted hr hanswer, hanswer, hdb, hbody]
    exact h.result_written hact hw hr hid rfl hlate ho

theorem call_eq_some {cfg : ClientConfig} {x : Activity} {call : ClientCall}
    (h : x.call cfg = some call) :
    (x = .registering ∧ call = .register cfg.agentId) ∨
    (∃ phase turn, x = .asking phase turn ∧ call = .next
      { agentId := cfg.agentId, phase := phase, batchSize := 1, capabilities := cfg.capabilities }) ∨
    (∃ phase final turn, x = .closing phase final turn ∧ call = .phaseComplete phase) ∨
    (∃ a turn, x = .logging a turn ∧ call = .stepLog a.id) ∨
    (∃ a report turn, x = .reporting a report turn ∧ call = .result a.id
      { agentId := cfg.agentId, phase := cfg.reportPhase a, status := report.status
        message := report.message, data := report.data }) := by
  cases x <;> cases h <;> simp

theorem ownPhase_client (cfg : MachineConfig) (i : MachineAgent) :
    (cfg.client i).ownPhase = "full_os" := by
  cases i <;> rfl

theorem serve (h : Window cfg t agents owed) {db : RunDb} (hdb : db.steps = t) (now : Time)
    (hregister : ∀ agentId, (agents i).sent (cfg.client i) = some (.register agentId) → owed = []) :
    Window cfg ((agents i).served (cfg.client i) db now).1.steps
      (Function.update agents i ((agents i).served (cfg.client i) db now).2)
      (rebootReported db ((agents i).sent (cfg.client i)) now ++ owed) := by
  have hregular := h.regular i
  cases hsent : (agents i).sent (cfg.client i) with
  | none =>
    simp only [Client.served, hsent, Function.update_eq_self]
    rw [hdb]
    exact h
  | some call =>
    obtain ⟨hw, hcall⟩ := sent_eq_some hsent
    simp only [Client.served, hsent]
    rcases call_eq_some hcall with ⟨hact, rfl⟩ | ⟨phase, turn, hact, rfl⟩ | ⟨phase, final, turn, hact, rfl⟩ |
      ⟨a, turn, hact, rfl⟩ | ⟨a, report, turn, hact, rfl⟩
    · obtain rfl := hregister _ hsent
      exact h.register hdb _ now (by simp [Client.held?, hact]) (by simp [Client.owes?, hact]) hregular
    · rw [hact] at hregular
      have hphase : phase = "full_os" := hregular.trans (ownPhase_client cfg i)
      rw [respond_next (call_next_batch hcall)]
      exact h.claim hdb hphase rfl now (by simp [Client.held?, hact]) (by simp [Client.owes?, hact])
        (by simpa [hact] using hregular)
    · subst hdb
      exact h.move_local (by simp [Client.held?, hact]) (by simp [Client.owes?, hact]) hregular
    · subst hdb
      refine h.move_local (fun b hb => ?_) (by simp [Client.owes?, hact]) hregular
      exact h.held i b (by simpa [Client.held?, hact] using hb)
    · exact h.result hdb now hact hw rfl

theorem stopped (hordered : InOrder t)
    (hstarted : ∀ r ∈ t.rows, Started r → r.inPhase "full_os" = true) :
    Window cfg t (fun _ => {}) [] where
  ordered := hordered
  started := hstarted
  held := fun _ _ h => by cases h
  owing := fun _ _ h => by cases h
  owed := fun _ h => by cases h
  regular := fun _ => trivial

theorem of_created {db : RunDb} (hdb : Created db) : Window cfg db.steps (fun _ => {}) [] := by
  have hnot : ∀ r ∈ db.steps.rows, ¬ Started r := by
    intro r hr hstarted
    obtain ⟨state, hstate, hprogress⟩ := hdb.initial.progress r hr
    rw [Started, hprogress] at hstarted
    rcases hstate with rfl | rfl <;> rcases hstarted with h | h <;> cases h
  exact stopped (fun p _ r hr _ _ _ h => absurd h (hnot r hr)) (fun r hr h => absurd h (hnot r hr))

theorem step {m : Machine} {l : MachineLabel} (h : Window cfg m.db.steps m.agents m.owed)
    (htimely : Timely cfg m l) (hregister : RegistersAfterRestart cfg m l) :
    Window cfg (m.step cfg l).db.steps (m.step cfg l).agents (m.step cfg l).owed := by
  cases l with
  | restart now => exact stopped h.ordered h.started
  | agent i e now =>
    cases e with
    | serve =>
      refine h.serve rfl now fun agentId hsent => hregister rfl ?_
      simp only [Client.registers, hsent]
    | loseAnswer => exact absurd htimely.2.2.1 (by simp [ClientEvent.lossy])
    | _ => exact h.react (by simp)

/-- A started step other than the awaited one would have to be settled. -/
theorem undisturbed {m : Machine} (h : Window cfg m.db.steps m.agents m.owed) (howed : m.owed ≠ []) :
    Undisturbed m := by
  obtain ⟨id, hid⟩ := List.exists_mem_of_ne_nil _ howed
  obtain ⟨r, hr, hrid, hawait, _⟩ := h.owed id hid
  have hphase := h.started r hr (.inr hawait)
  refine ⟨fun id hid => ?_, fun body now hbody => ?_, fun i a turn hact => ?_⟩
  · obtain ⟨q, hq, hqid, hq', _⟩ := h.owed id hid
    exact ⟨q, hq, hqid, hq'⟩
  · exact nextAction_nothing (h.ordered.nextClaim_none hbody hr hphase hawait)
  · have hheld : (m.agents i).held? = some a := by simp only [Client.held?, hact]
    rcases h.held i a hheld with ⟨⟨q, hq, _, _, hrunning⟩, _⟩ | ⟨_, hreporting⟩
    · have heq := h.ordered.eq_of_started hq hr (h.started q hq (.inl hrunning)) hphase
        (.inl hrunning) (.inr hawait)
      rw [heq, hawait] at hrunning
      cases hrunning
    · rw [hact] at hreporting
      cases hreporting

end Window

/-- While a reboot is owed nothing is handed out, the step stays awaited and no agent is
at work, as long as agents register after the restart only. -/
theorem nothing_before_restart (cfg : MachineConfig) {db : RunDb} {labels : List MachineLabel}
    {m : Machine} (hdb : Created db)
    (hrun : Run (Guarded (fun m l => Timely cfg m l ∧ RegistersAfterRestart cfg m l) (Machine.step cfg))
      (Machine.initial db) labels m)
    (howed : m.owed ≠ []) : Undisturbed m := by
  have hwindow : Window cfg m.db.steps m.agents m.owed := by
    refine hrun.invariant (P := fun m => Window cfg m.db.steps m.agents m.owed) ?_ (Window.of_created hdb)
    rintro m l _ h ⟨⟨htimely, hregister⟩, rfl⟩
    exact h.step htimely hregister
  exact hwindow.undisturbed howed

def joinDomainStep : Node :=
  { id := 1, parentId := none, position := 0, nodeType := .step "join_domain_role", name := "Join"
    phase := "full_os", rebootBehavior := .required }

def captureHashStep : Node :=
  { id := 2, parentId := none, position := 1, nodeType := .step "capture_autopilot_hash", name := "Hash"
    phase := "full_os" }

def joinRun : RunDb := createdFrom [joinDomainStep, captureHashStep] rfl

def joinMachine : MachineConfig where
  osdAgentId := "osd-fullos-00000000"
  agentId := "autopilot-agent"

def agentEvents (i : MachineAgent) (now : Time) (es : List ClientEvent) : List MachineLabel :=
  es.map fun e => .agent i e now

def joinedDomain : List MachineLabel :=
  agentEvents .osdClient 0 [.start, .serve, .receive, .serve, .receive] ++
    agentEvents .autopilotAgent 5 [.start, .serve, .receive, .serve, .receive] ++
      agentEvents .osdClient 34 [.finish (.ok (.obj [])), .serve, .receive]

theorem joined_domain_undisturbed :
    ∃ m, Run (Guarded (fun m l => Timely joinMachine m l ∧ RegistersAfterRestart joinMachine m l)
        (Machine.step joinMachine)) (Machine.initial joinRun) joinedDomain m ∧
      m.owed = [1] ∧ Undisturbed m := by
  have hreplays : Replays (fun m l => Timely joinMachine m l ∧ RegistersAfterRestart joinMachine m l)
      (Machine.step joinMachine) (Machine.initial joinRun) joinedDomain := by decide
  have hrun := Run.of_replays hreplays
  exact ⟨_, hrun, rfl, nothing_before_restart joinMachine (created_createdFrom _ rfl) hrun (by decide)⟩

/-- The service wakes after its delay, before the restart: it registers, which ends the
awaited reboot, and starts the next step. -/
def workBeforeRestart : List MachineLabel :=
  joinedDomain ++
    agentEvents .autopilotAgent 35 [.wake, .serve, .receive, .serve, .receive, .serve, .receive]

theorem registration_before_restart_disturbs :
    ¬ ∀ (cfg : MachineConfig) (db : RunDb) (labels : List MachineLabel) (m : Machine), Created db →
      Run (Guarded (Timely cfg) (Machine.step cfg)) (Machine.initial db) labels m → m.owed ≠ [] →
        Undisturbed m := by
  intro h
  have hreplays : Replays (Timely joinMachine) (Machine.step joinMachine) (Machine.initial joinRun)
      workBeforeRestart := by decide
  have hrun := Run.of_replays hreplays
  have hnone := h joinMachine joinRun workBeforeRestart _ (created_createdFrom _ rfl) hrun (by decide)
  have hawaiting := hnone.awaiting 1 (by decide)
  revert hawaiting
  decide

end ProxmoxVEAutopilot.Agents
