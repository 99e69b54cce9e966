import ProxmoxVEAutopilot.Onboarding.Requests
import ProxmoxVEAutopilot.Foundation.Lists

/-!
# Which passwords stay in the vault

Two histories whose requests differ only in the passwords of the identity answers are
compared: the row and the responses are the same. And a request that is refused has
changed nothing.
-/

namespace ProxmoxVEAutopilot.Onboarding.Requests

open Foundation (Json Replays)

set_option autoImplicit false

section Alike

def isPassword (key : String) : Bool := key = "ad_join_password" || key = "local_admin_password"

/-- Two fields of the identity: the same, or the same password with two values that are set. -/
def FieldAlike (f g : String × Json) : Prop :=
  f.1 = g.1 ∧ (f.2 = g.2 ∨ isPassword f.1 ∧ (given (some f.2)).isSome ∧ (given (some g.2)).isSome)

/-- The same for an item of a sequence that stands for a dict. -/
def ItemAlike (x y : Json) : Prop :=
  x = y ∨ ∃ key v w, x = .arr [.str key, v] ∧ y = .arr [.str key, w] ∧ isPassword key ∧
    (given (some v)).isSome ∧ (given (some w)).isSome

inductive IdentityAlike : Json → Json → Prop where
  | same (j : Json) : IdentityAlike j j
  | fields {fs gs : List (String × Json)} : List.Forall₂ FieldAlike fs gs → IdentityAlike (.obj fs) (.obj gs)
  | items {xs ys : List Json} : List.Forall₂ ItemAlike xs ys → IdentityAlike (.arr xs) (.arr ys)

def AnswerAlike (f g : String × Json) : Prop :=
  f.1 = g.1 ∧ (f.2 = g.2 ∨ f.1 = "identity" ∧ IdentityAlike f.2 g.2)

inductive AnswersAlike : Json → Json → Prop where
  | same (j : Json) : AnswersAlike j j
  | fields {fs gs : List (String × Json)} : List.Forall₂ AnswerAlike fs gs → AnswersAlike (.obj fs) (.obj gs)

/-- The requests differ only in passwords of the identity answers. -/
structure Request.Alike (p q : Request) : Prop where
  identity : Option.Rel IdentityAlike p.patch.identity q.patch.identity
  answers : Option.Rel AnswersAlike p.patch.answers q.patch.answers
  status : p.patch.status = q.patch.status
  currentStep : p.patch.currentStep = q.patch.currentStep
  persona : p.patch.persona = q.patch.persona
  launchedRunId : p.patch.launchedRunId = q.patch.launchedRunId
  ifMatch : p.ifMatch = q.ifMatch

end Alike

section Claim
variable {τ : Type} [DecidableEq τ] (rt : Runtime) (ownerSub : String)

/-- What is promised of the `events`: the state of any other passwords is the same but for the vault,
and an answered request has changed the vault only where its row is stored, and nothing at all
where it is refused. -/
structure SecretsInVault (request : τ → Request) (w : World τ) (events : List (Event τ)) : Prop where
  row : ∀ other : τ → Request, (∀ t, (request t).Alike (other t)) →
    (w.run rt ownerSub other events).row = (w.run rt ownerSub request events).row
  responses : ∀ other : τ → Request, (∀ t, (request t).Alike (other t)) →
    (w.run rt ownerSub other events).phase = (w.run rt ownerSub request events).phase
  accepted : ∀ (before after : List (Event τ)) (e : Event τ) (t : τ) answer stored,
    events = before ++ e :: after → e.request = some t →
    (w.run rt ownerSub request events).phase t = .answered answer stored →
    (w.run rt ownerSub request (before ++ [e])).vault ≠ (w.run rt ownerSub request before).vault → stored = true
  refused : ∀ (before after : List (Event τ)) (e : Event τ) (t : τ) answer stored,
    events = before ++ e :: after → e.request = some t →
    (w.run rt ownerSub request events).phase t = .answered answer stored → answer.refused = true →
    (w.run rt ownerSub request (before ++ [e])).vault = (w.run rt ownerSub request before).vault ∧
      (w.run rt ownerSub request (before ++ [e])).row = (w.run rt ownerSub request before).row

end Claim

section Condition
variable {τ : Type} (rt : Runtime) (ownerSub : String) (request : τ → Request)

def carriesItem : Json → Bool
  | .arr [.str key, value] => isPassword key && (given (some value)).isSome
  | _ => false

def carries : Json → Bool
  | .obj fields => fields.any fun f => isPassword f.1 && (given (some f.2)).isSome
  | .arr xs => xs.any carriesItem
  | _ => false

def answersCarry : Option Json → Bool
  | some (.obj fields) => fields.any fun f => f.1 = "identity" && carries f.2
  | _ => false

def vaulted (patch : Patch) : Bool :=
  match intakeSecrets ownerSub patch with
  | .ok out => !out.saves.isEmpty
  | .error _ => false

/-- The row is read, and a row that exists is put with an etag. -/
def mayPut (row : Option (Row Json)) (request : Request) : Bool :=
  match row with
  | none => true
  | some row => (rowToDict rt row).isOk && request.ifMatch.isSome

/-- The answers of a new row are a text that is not JSON. -/
def undecodable (row : Option (Row Json)) (patch : Patch) : Bool :=
  match row, patch.answers with
  | none, some (.str s) =>
    match rt.loads s with
    | .error .other | .ok _ => false
    | .error _ => true
  | _, _ => false

/-- Whether the request may take the step. A password for the vault comes only with a request that
passes the checks and is written; and a request that passes the checks has no password in
`patch['answers']['identity']`, and answers that can be read back. -/
def Fits (w : World τ) : Event τ → Prop
  | .tick | .intake _ => True
  | .look t =>
    match w.phase t with
    | .sanitized => vaulted ownerSub (request t).patch → mayPut rt w.row (request t)
    | _ => True
  | .put t raced =>
    match w.phase t with
    | .looked now =>
      (vaulted ownerSub (request t).patch →
          (checks rt w.row (request t)).isOk ∧ (statement rt now raced w.row (request t).patch).isOk) ∧
        ((checks rt w.row (request t)).isOk →
          answersCarry (request t).patch.answers = false ∧ undecodable rt w.row (request t).patch = false)
    | _ => True

end Condition

section Equal

theorem forall₂_eq {α : Type} {R : α → α → Prop} {xs ys : List α} (h : List.Forall₂ R xs ys)
    (heq : ∀ x ∈ xs, ∀ y, R x y → x = y) : xs = ys := by
  induction h with
  | nil => rfl
  | cons hxy _ ih =>
    rw [heq _ List.mem_cons_self _ hxy, ih fun x hx => heq x (List.mem_cons_of_mem _ hx)]

theorem identityAlike_eq {i j : Json} (h : IdentityAlike i j) (hcarries : carries i = false) : i = j := by
  cases h with
  | same => rfl
  | fields h =>
    refine congrArg Json.obj (forall₂_eq h fun f hf g hfg => ?_)
    rcases hfg with ⟨hkey, hvalue | ⟨hpassword, hset, -⟩⟩
    · exact Prod.ext hkey hvalue
    · have hnot := List.any_eq_false.mp hcarries f hf
      simp [hpassword, hset] at hnot
  | items h =>
    refine congrArg Json.arr (forall₂_eq h fun x hx y hxy => ?_)
    rcases hxy with heq | ⟨key, v, w, rfl, -, hpassword, hset, -⟩
    · exact heq
    · have hnot := List.any_eq_false.mp hcarries _ hx
      simp [carriesItem, hpassword, hset] at hnot

theorem answersAlike_eq {a b : Json} (h : AnswersAlike a b) (hcarry : answersCarry (some a) = false) : a = b := by
  cases h with
  | same => rfl
  | fields h =>
    refine congrArg Json.obj (forall₂_eq h fun f hf g hfg => ?_)
    rcases hfg with ⟨hkey, hvalue | ⟨hidentity, hvalue⟩⟩
    · exact Prod.ext hkey hvalue
    · have hnot := List.any_eq_false.mp hcarry f hf
      exact Prod.ext hkey (identityAlike_eq hvalue (by simpa [hidentity] using hnot))

theorem answersRel_eq {a b : Option Json} (h : Option.Rel AnswersAlike a b) (hcarry : answersCarry a = false) :
    a = b := by
  cases h with
  | none => rfl
  | some h => exact congrArg some (answersAlike_eq h hcarry)

variable {rt : Runtime} {p q : Request}

theorem checks_congr (h : p.Alike q) (row : Option (Row Json)) : checks rt row p = checks rt row q := by
  unfold checks validate
  rw [h.status, h.persona, h.ifMatch]

theorem statement_congr (h : p.Alike q) (hanswers : p.patch.answers = q.patch.answers) (now : Int) (raced : Bool)
    (row : Option (Row Json)) : statement rt now raced row p.patch = statement rt now raced row q.patch := by
  unfold statement insertRow updateRow
  rw [hanswers, h.status, h.persona, h.currentStep, h.launchedRunId]

theorem written_congr (h : p.Alike q) (now : Int) (raced : Bool) (row : Option (Row Json))
    (hcarry : (checks rt row p).isOk → answersCarry p.patch.answers = false) :
    written rt now raced row p = written rt now raced row q := by
  unfold written
  rw [← checks_congr h]
  cases hchecks : checks rt row p with
  | error e => rfl
  | ok u => exact statement_congr h (answersRel_eq h.answers (hcarry (by rw [hchecks]; rfl))) now raced row

end Equal

section Failing
variable {α β ε : Type}

theorem mapM_isOk {f g : α → Except ε β} {R : α → α → Prop} (hR : ∀ x y, R x y → (f x).isOk = (g y).isOk)
    {xs ys : List α} (h : List.Forall₂ R xs ys) : (xs.mapM f).isOk = (ys.mapM g).isOk := by
  induction h with
  | nil => rfl
  | @cons x y xs ys hxy _ ih =>
    have hhead := hR x y hxy
    rw [List.mapM_cons, List.mapM_cons]
    cases hf : f x <;> cases hg : g y <;> rw [hf, hg] at hhead
    · rfl
    · cases hhead
    · cases hhead
    · cases hfs : xs.mapM f <;> cases hgs : ys.mapM g <;> rw [hfs, hgs] at ih
      · rfl
      · cases ih
      · cases ih
      · rfl

theorem forall₂_zipIdx {R : α → α → Prop} {xs ys : List α} (h : List.Forall₂ R xs ys) (n : Nat) :
    List.Forall₂ (fun x y : α × Nat => R x.1 y.1 ∧ x.2 = y.2) (xs.zipIdx n) (ys.zipIdx n) := by
  induction h generalizing n with
  | nil => exact .nil
  | cons hxy _ ih => exact .cons ⟨hxy, rfl⟩ (ih (n + 1))

theorem pairOf_isOk {x y : Json} (h : ItemAlike x y) (i : Nat) : (pairOf i x).isOk = (pairOf i y).isOk := by
  rcases h with rfl | ⟨key, v, w, rfl, rfl, -⟩ <;> rfl

theorem isOk_map (f : α → β) (x : Except ε α) : (x.map f).isOk = x.isOk := by cases x <;> rfl

theorem dictOf_isOk {i j : Json} (h : IdentityAlike i j) : (dictOf (some i)).isOk = (dictOf (some j)).isOk := by
  cases h with
  | same => rfl
  | fields h =>
    have hok : ∀ fs, (dictOf (some (.obj fs))).isOk = true := by
      intro fs
      unfold dictOf
      dsimp only
      split <;> rfl
    rw [hok, hok]
  | @items xs ys h =>
    have hlength := h.length_eq
    have htruthy : (Json.arr xs).truthy = (Json.arr ys).truthy := by
      cases h <;> rfl
    unfold dictOf
    dsimp only
    rw [htruthy]
    split
    · unfold update
      rw [isOk_map, isOk_map]
      refine mapM_isOk (fun x y hxy => ?_) (forall₂_zipIdx h 0)
      rw [hxy.2]
      exact pairOf_isOk hxy.1 y.2
    · rfl

theorem intakeSecrets_isOk {p q : Request} (h : p.Alike q) (ownerSub : String) :
    (intakeSecrets ownerSub p.patch).isOk = (intakeSecrets ownerSub q.patch).isOk := by
  have hidentity := h.identity
  unfold intakeSecrets
  rw [isOk_map, isOk_map]
  revert hidentity
  cases p.patch.identity <;> cases q.patch.identity <;> intro hidentity <;> cases hidentity
  · rfl
  · exact dictOf_isOk (by assumption)

end Failing

section Requests
variable {τ : Type} [DecidableEq τ] {rt : Runtime} {ownerSub : String} {request other : τ → Request}

/-- The same state but for the vault. -/
structure SameButVault (v w : World τ) : Prop where
  row : v.row = w.row
  clock : v.clock = w.clock
  phase : v.phase = w.phase

theorem SameButVault.goTo {v w : World τ} (h : SameButVault v w) (t : τ) (p : Phase) :
    SameButVault (v.goTo t p) (w.goTo t p) :=
  ⟨h.row, h.clock, by simp only [World.goTo, h.phase]⟩

theorem SameButVault.exec {v w : World τ} (h : SameButVault v w) (halike : ∀ t, (request t).Alike (other t))
    {e : Event τ} (hfits : Fits rt ownerSub request w e) :
    SameButVault (v.exec rt ownerSub other e) (w.exec rt ownerSub request e) := by
  cases e with
  | tick => exact ⟨h.row, congrArg (· + 1) h.clock, h.phase⟩
  | intake t =>
    dsimp only [World.exec]
    rw [h.phase]
    split
    · have hok := intakeSecrets_isOk (halike t) ownerSub
      unfold World.intake
      cases hp : intakeSecrets ownerSub (request t).patch <;> cases hq : intakeSecrets ownerSub (other t).patch <;>
        rw [hp, hq] at hok
      · exact h.goTo t _
      · cases hok
      · cases hok
      · exact ⟨h.row, h.clock, (h.goTo t .sanitized).phase⟩
    · exact h
  | look t =>
    dsimp only [World.exec]
    rw [h.phase]
    split
    · unfold World.look
      rw [h.row, ← (halike t).ifMatch, h.clock]
      split
      · exact h.goTo t _
      · split
        · exact h.goTo t _
        · split <;> exact h.goTo t _
    · exact h
  | put t raced =>
    dsimp only [World.exec]
    rw [h.phase]
    split
    · rename_i now hphase
      simp only [Fits, hphase] at hfits
      have hwritten := written_congr (halike t) now raced w.row fun hchecks => (hfits.2 hchecks).1
      unfold World.put putState
      rw [h.row, hwritten]
      exact ⟨rfl, h.clock, (h.goTo t _).phase⟩
    · exact h

end Requests

section Accepted

/-- A text is stored as that text, and a dict as an object. -/
structure Runtime.KeepsText (rt : Runtime) : Prop where
  jsonb : ∀ value s, rt.jsonb value = some (.str s) → value = .str s
  jsonbDict : ∀ d s, rt.jsonbDict d ≠ some (.str s)

theorem orRaise_ok {α : Type} {o : Option α} {a : α} (h : orRaise o = .ok a) : o = some a := by
  cases o with
  | none => cases h
  | some b => exact congrArg some (Except.ok.inj h)

variable {rt : Runtime} (hrt : rt.KeepsText)
include hrt

theorem insertRow_text {now : Int} {patch : Patch} {new : Row Json} {s : String}
    (h : insertRow rt now patch = .ok new) (hs : new.answers = .str s) : patch.answers = some (.str s) := by
  unfold insertRow at h
  obtain ⟨_, -, h⟩ := Foundation.bind_ok.mp h
  obtain ⟨_, -, h⟩ := Foundation.bind_ok.mp h
  obtain ⟨answers, hanswers, h⟩ := Foundation.bind_ok.mp h
  obtain ⟨_, -, h⟩ := Foundation.bind_ok.mp h
  cases h
  have hjsonb := orRaise_ok hanswers
  dsimp only at hs
  rw [hs] at hjsonb
  have htext := hrt.jsonb _ s hjsonb
  cases hgiven : patch.answers with
  | none =>
    rw [hgiven] at htext
    cases htext
  | some j =>
    rw [hgiven] at htext
    exact congrArg some htext

theorem updateRow_object {now : Int} {patch : Patch} {row new : Row Json} (h : updateRow rt now patch row = .ok new)
    (s : String) : new.answers ≠ .str s := by
  unfold updateRow at h
  obtain ⟨d, -, h⟩ := Foundation.bind_ok.mp h
  obtain ⟨_, -, h⟩ := Foundation.bind_ok.mp h
  obtain ⟨answers, hanswers, h⟩ := Foundation.bind_ok.mp h
  obtain ⟨_, -, h⟩ := Foundation.bind_ok.mp h
  cases h
  intro hs
  dsimp only at hs
  exact hrt.jsonbDict d s (hs ▸ orRaise_ok hanswers)

theorem rowToDict_of_written {now : Int} {raced : Bool} {row : Option (Row Json)} {request : Request} {new : Row Json}
    (h : written rt now raced row request = .ok new) (hdecodes : undecodable rt row request.patch = false)
    {e : Raised} (herror : rowToDict rt new = .error e) : e = .other := by
  obtain ⟨_, -, h⟩ := Foundation.bind_ok.mp h
  have htext : ∃ s, new.answers = .str s ∧ rt.loads s = .error e := by
    unfold rowToDict decodeAnswers at herror
    split at herror
    · rename_i s hs
      refine ⟨s, hs, ?_⟩
      cases hloads : rt.loads s with
      | error e' =>
        rw [hloads] at herror
        exact congrArg Except.error (Except.error.inj herror)
      | ok j =>
        rw [hloads] at herror
        cases herror
    · cases herror
  obtain ⟨s, hs, hloads⟩ := htext
  cases row with
  | none =>
    unfold statement at h
    dsimp only at h
    split at h
    · cases h
    · have hanswers := insertRow_text hrt h hs
      unfold undecodable at hdecodes
      rw [hanswers] at hdecodes
      dsimp only at hdecodes
      rw [hloads] at hdecodes
      cases e with
      | other => rfl
      | valueError detail => cases hdecodes
      | staleEtag detail => cases hdecodes
  | some old => exact absurd hs (updateRow_object hrt h s)

theorem not_refused_of_written {now : Int} {raced : Bool} {row : Option (Row Json)} {request : Request} {new : Row Json}
    (h : written rt now raced row request = .ok new) (hdecodes : undecodable rt row request.patch = false) :
    (answerOf (putState rt now raced row request).2).refused = false := by
  unfold putState
  rw [h]
  dsimp only
  cases hdict : rowToDict rt new with
  | error e =>
    rw [rowToDict_of_written hrt h hdecodes hdict]
    rfl
  | ok dict =>
    unfold answerOf
    dsimp only
    split <;> rfl

end Accepted

section Histories
variable {τ : Type} [DecidableEq τ] {rt : Runtime} {ownerSub : String} {request : τ → Request}

/-- Who is answered: a password for the vault only with a stored row, a refusal only without one. -/
def Kept (ownerSub : String) (request : τ → Request) (w : World τ) : Prop :=
  ∀ t answer stored, w.phase t = .answered answer stored →
    (vaulted ownerSub (request t).patch → stored = true) ∧ (stored = true → answer.refused = false)

theorem Kept.goTo {w : World τ} (h : Kept ownerSub request w) {t : τ} {p : Phase}
    (hp : ∀ answer stored, p = .answered answer stored →
      (vaulted ownerSub (request t).patch → stored = true) ∧ (stored = true → answer.refused = false)) :
    Kept ownerSub request (w.goTo t p) := by
  intro u answer stored hu
  change Function.update w.phase t p u = _ at hu
  rw [Function.update_apply] at hu
  split at hu
  · rename_i heq
    rw [heq]
    exact hp answer stored hu
  · exact h u answer stored hu

theorem Kept.notStored {w : World τ} (h : Kept ownerSub request w) {t : τ} {answer : Answer}
    (hvaulted : ¬ vaulted ownerSub (request t).patch) :
    Kept ownerSub request (w.goTo t (.answered answer false)) := by
  refine h.goTo fun a stored heq => ?_
  cases heq
  exact ⟨fun hv => absurd hv hvaulted, nofun⟩

theorem Kept.exec (hrt : rt.KeepsText) {w : World τ} (h : Kept ownerSub request w) {e : Event τ}
    (hfits : Fits rt ownerSub request w e) : Kept ownerSub request (w.exec rt ownerSub request e) := by
  cases e with
  | tick => exact h
  | intake t =>
    dsimp only [World.exec]
    split
    · unfold World.intake
      split
      · rename_i e he
        exact h.notStored (by simp [vaulted, he])
      · exact h.goTo (p := .sanitized) nofun
    · exact h
  | look t =>
    dsimp only [World.exec]
    split
    · rename_i hphase
      simp only [Fits, hphase] at hfits
      unfold World.look
      split
      · exact h.goTo nofun
      · rename_i row hrow
        rw [hrow] at hfits
        split
        · rename_i e he
          exact h.notStored fun hv => by simpa [mayPut, he, Except.isOk, Except.toBool] using hfits hv
        · split
          · rename_i hnone
            refine h.notStored fun hv => ?_
            have hmay := hfits hv
            simp only [mayPut, Bool.and_eq_true] at hmay
            simp [Option.isNone_iff_eq_none.mp hnone] at hmay
          · exact h.goTo nofun
    · exact h
  | put t raced =>
    dsimp only [World.exec]
    split
    · rename_i now hphase
      simp only [Fits, hphase] at hfits
      obtain ⟨hvaulted, hchecked⟩ := hfits
      refine h.goTo (p := .answered _ _) fun answer stored heq => ?_
      cases heq
      constructor
      · intro hv
        obtain ⟨hchecks, hstatement⟩ := hvaulted hv
        unfold written
        cases hc : checks rt w.row (request t) with
        | error e => rw [hc] at hchecks; cases hchecks
        | ok u => exact hstatement
      · intro hstored
        cases hnew : written rt now raced w.row (request t) with
        | error e => rw [hnew] at hstored; cases hstored
        | ok new =>
          obtain ⟨u, hc, -⟩ := Foundation.bind_ok.mp hnew
          exact not_refused_of_written hrt hnew (hchecked (by rw [hc]; rfl)).2
    · exact h

theorem vault_exec {w : World τ} {e : Event τ} (h : (w.exec rt ownerSub request e).vault ≠ w.vault) :
    ∃ t, e.request = some t ∧ vaulted ownerSub (request t).patch := by
  cases e with
  | tick => exact absurd rfl h
  | intake t =>
    refine ⟨t, rfl, ?_⟩
    dsimp only [World.exec] at h
    split at h
    · unfold World.intake at h
      unfold vaulted
      split at h
      · exact absurd rfl h
      · rename_i out hout
        simp only [hout]
        cases hsaves : out.saves with
        | nil =>
          rw [hsaves] at h
          exact absurd rfl h
        | cons save saves => rfl
    · exact absurd rfl h
  | look t =>
    refine absurd ?_ h
    dsimp only [World.exec]
    split
    · unfold World.look
      split
      · rfl
      · split
        · rfl
        · split <;> rfl
    · rfl
  | put t raced =>
    refine absurd ?_ h
    dsimp only [World.exec]
    split <;> rfl

theorem row_exec {w : World τ} {e : Event τ} (h : (w.exec rt ownerSub request e).row ≠ w.row) :
    ∃ t answer, e.request = some t ∧ (w.exec rt ownerSub request e).phase t = .answered answer true := by
  cases e with
  | tick => exact absurd rfl h
  | intake t =>
    refine absurd ?_ h
    dsimp only [World.exec]
    split
    · unfold World.intake
      split <;> rfl
    · rfl
  | look t =>
    refine absurd ?_ h
    dsimp only [World.exec]
    split
    · unfold World.look
      split
      · rfl
      · split
        · rfl
        · split <;> rfl
    · rfl
  | put t raced =>
    dsimp only [World.exec] at h ⊢
    split at h
    · rename_i now hphase
      unfold World.put at h ⊢
      cases hnew : written rt now raced w.row (request t) with
      | error e =>
        rw [putState, hnew] at h
        exact absurd rfl h
      | ok new => exact ⟨t, _, rfl, Function.update_self _ _ _⟩
    · exact absurd rfl h

theorem answered_exec {w : World τ} {t : τ} {answer : Answer} {stored : Bool}
    (h : w.phase t = .answered answer stored) (e : Event τ) :
    (w.exec rt ownerSub request e).phase t = .answered answer stored := by
  have hgoTo : ∀ {u p}, w.phase u ≠ .answered answer stored →
      (w.goTo u p).phase t = .answered answer stored := by
    intro u p hu
    change Function.update w.phase u p t = _
    rw [Function.update_of_ne fun heq : t = u => hu (heq ▸ h), h]
  cases e with
  | tick => exact h
  | intake u =>
    dsimp only [World.exec]
    split
    · rename_i hphase
      unfold World.intake
      split <;> exact hgoTo (by rw [hphase]; nofun)
    · exact h
  | look u =>
    dsimp only [World.exec]
    split
    · rename_i hphase
      have hu : w.phase u ≠ .answered answer stored := by rw [hphase]; nofun
      unfold World.look
      split
      · exact hgoTo hu
      · split
        · exact hgoTo hu
        · split <;> exact hgoTo hu
    · exact h
  | put u raced =>
    dsimp only [World.exec]
    split
    · rename_i hphase
      exact hgoTo (by rw [hphase]; nofun)
    · exact h

theorem answered_run {events : List (Event τ)} : ∀ {w : World τ} {t : τ} {answer : Answer} {stored : Bool},
    w.phase t = .answered answer stored → (w.run rt ownerSub request events).phase t = .answered answer stored := by
  induction events with
  | nil => exact fun h => h
  | cons e events ih => exact fun h => ih (answered_exec h e)

end Histories

section Main
variable {τ : Type} [DecidableEq τ] {rt : Runtime} {ownerSub : String}

theorem kept_run (hrt : rt.KeepsText) {request : τ → Request} {events : List (Event τ)} : ∀ {w : World τ},
    Kept ownerSub request w → Replays (Fits rt ownerSub request) (fun w e => w.exec rt ownerSub request e) w events →
      Kept ownerSub request (w.run rt ownerSub request events) := by
  induction events with
  | nil => exact fun h _ => h
  | cons e events ih => exact fun h hfits => ih (h.exec hrt hfits.1) hfits.2

theorem sameButVault_run {request other : τ → Request} (halike : ∀ t, (request t).Alike (other t))
    {events : List (Event τ)} : ∀ {v w : World τ}, SameButVault v w →
      Replays (Fits rt ownerSub request) (fun w e => w.exec rt ownerSub request e) w events →
        SameButVault (v.run rt ownerSub other events) (w.run rt ownerSub request events) := by
  induction events with
  | nil => exact fun h _ => h
  | cons e events ih => exact fun h hfits => ih (h.exec halike hfits.1) hfits.2

theorem run_split (request : τ → Request) (w : World τ) (before after : List (Event τ)) (e : Event τ) :
    w.run rt ownerSub request (before ++ e :: after) =
      ((w.run rt ownerSub request before).exec rt ownerSub request e).run rt ownerSub request after := by
  simp [World.run, List.foldl_append]

theorem run_snoc (request : τ → Request) (w : World τ) (before : List (Event τ)) (e : Event τ) :
    w.run rt ownerSub request (before ++ [e]) =
      (w.run rt ownerSub request before).exec rt ownerSub request e := by
  simp [World.run, List.foldl_append]

end Main

section Examples

def textKey (item : Json × Json) : Option (String × Json) :=
  match item.1 with
  | .str key => some (key, item.2)
  | _ => none

def plainRuntime : Runtime where
  str _ := "value"
  repr s := s
  loads s := .error (.valueError s)
  isoformat n := if n = 0 then "1970-01-01T00:00:00+00:00" else "later"
  insertText
    | .str s => some (some s)
    | .null => some none
    | _ => none
  coalesceText
    | .str s => some (some s)
    | .null => some none
    | _ => none
  jsonb := some
  jsonbDict d := (d.mapM textKey).map Json.obj

theorem plainRuntime_keepsText : plainRuntime.KeepsText where
  jsonb value s h := Option.some.inj h
  jsonbDict d s h := by
    obtain ⟨fields, -, heq⟩ := Option.map_eq_some_iff.mp h
    cases heq

def password (value : String) : Json := .obj [("mode", .str "ad"), ("ad_join_password", .str value)]

def firstPut : List (Event Unit) := [.intake (), .look (), .put () false]

def atTop (value : String) : Unit → Request := fun _ => { patch := { identity := some (password value) } }

def inAnswers (value : String) : Unit → Request := fun _ =>
  { patch := { answers := some (.obj [("identity", password value)]) } }

def storedRow : Row Json where
  status := "in_progress"
  currentStep := "identity"
  persona := some "lab"
  answers := .obj []
  launchedRunId := none
  createdAt := 0
  updatedAt := 0

theorem inAnswers_alike (v w : String) (hv : (given (some (.str v))).isSome) (hw : (given (some (.str w))).isSome) :
    ((inAnswers v) ()).Alike ((inAnswers w) ()) where
  identity := .none
  answers := by
    refine .some (.fields (.cons ⟨rfl, .inr ⟨rfl, .fields (.cons ⟨rfl, .inl rfl⟩ (.cons ⟨rfl, .inr ⟨rfl, hv, hw⟩⟩ .nil))⟩⟩ .nil))
  status := rfl
  currentStep := rfl
  persona := rfl
  launchedRunId := rfl
  ifMatch := rfl

end Examples

end ProxmoxVEAutopilot.Onboarding.Requests
