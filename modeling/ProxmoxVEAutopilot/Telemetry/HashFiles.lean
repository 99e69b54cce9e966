import ProxmoxVEAutopilot.CloudOsd.DistinctNames
import ProxmoxVEAutopilot.CloudOsd.Names
import ProxmoxVEAutopilot.Foundation.Runs
import ProxmoxVEAutopilot.Telemetry.WorkItems

/-!
# Files of hardware hashes

An upload checks its work item, writes its file under a name with the time in seconds, and
then ends the item. Between these steps other requests may do what they want to the items.
The hash directory is the journal of what has been written to it.
-/

namespace ProxmoxVEAutopilot.Telemetry.HashFiles

open Foundation
set_option autoImplicit false

section Filename

structure Stamp where
  year : Nat
  month : Nat
  day : Nat
  hour : Nat
  minute : Nat
  second : Nat

/-- `strftime("%Y%m%dT%H%M%SZ")`. -/
def Stamp.text (ts : Stamp) : String :=
  CloudOsd.Names.padded 4 ts.year ++ CloudOsd.Names.padded 2 ts.month ++ CloudOsd.Names.padded 2 ts.day ++ "T" ++
    CloudOsd.Names.padded 2 ts.hour ++ CloudOsd.Names.padded 2 ts.minute ++ CloudOsd.Names.padded 2 ts.second ++ "Z"

variable (isalnum : Char → Bool)

def filtered (text : String) : String :=
  String.ofList (text.toList.filter fun c => isalnum c || c == '-' || c == '_')

/-- `safe_serial` and `safe_source`. -/
def safe (fallback text : String) : String := if filtered isalnum text = "" then fallback else filtered isalnum text

def hashFilename (ts : Stamp) (vmid : Int) (serial source : String) : String :=
  ts.text ++ "-vm" ++ toString vmid ++ "-" ++ safe isalnum "noserial" serial ++ "-" ++ safe isalnum "hash" source ++
    "_hwid.csv"

def hashRows (serial productId hardwareHash groupTag : String) : List (List String) :=
  if groupTag = "" then
    [["Device Serial Number", "Windows Product ID", "Hardware Hash"], [serial, productId, hardwareHash]]
  else
    [["Device Serial Number", "Windows Product ID", "Hardware Hash", "Group Tag"],
      [serial, productId, hardwareHash, groupTag]]

end Filename

section Uploads

/-- `HashBody` with the agent of the token, and the VMID of its latest heartbeat or else of the
device. -/
structure HashUpload where
  device : String
  workItemId : Option ItemId := none
  serialNumber : String
  productId : String := ""
  hardwareHash : String
  knownVmid : Option Int := none

inductive HashAnswer where
  | accepted (result : Json)
  | refused (status : Nat)

inductive Phase where
  | waiting
  | checked (work : Option WorkItem) (vmid : Int)
  | saved (work : Option WorkItem) (vmid : Int) (filename : String)
  | answered (answer : HashAnswer)

def check (items : List WorkItem) (u : HashUpload) : Phase :=
  match given u.workItemId with
  | none =>
    match u.knownVmid with
    | none => .answered (.refused 409)
    | some vmid => .checked none vmid
  | some id =>
    match items.find? fun item => item.id = id with
    | none => .answered (.refused 404)
    | some work =>
      if work.agentId ≠ u.device then .answered (.refused 403)
      else
        match work.vmid.or u.knownVmid with
        | none => .answered (.refused 409)
        | some vmid => .checked (some work) vmid

def tagOf (work : Option WorkItem) : String := (work.map groupTag).getD ""

def hashUploadResult (u : HashUpload) (work : Option WorkItem) (vmid : Int) (filename : String) : Json :=
  .obj [("filename", .str filename), ("vmid", .int vmid), ("serial_number", .str u.serialNumber),
    ("product_id", .str u.productId), ("group_tag", .str (tagOf work)), ("source", .str "agent-v1")]

end Uploads

section Moves
variable {τ : Type} [DecidableEq τ]

/-- A file that a request has written. -/
structure Write (τ : Type) where
  request : τ
  ts : Stamp
  vmid : Int
  groupTag : String

structure HashDb (τ : Type) where
  items : List WorkItem
  writes : List (Write τ) := []
  phase : τ → Phase := fun _ => .waiting

inductive HashEvent (τ : Type) where
  | go (t : τ) (ts : Stamp) (now : Int)
  | others (items : List WorkItem)

variable (isalnum : Char → Bool) (requests : τ → HashUpload)

def Write.filename (w : Write τ) : String :=
  hashFilename isalnum w.ts w.vmid (requests w.request).serialNumber "agent-v1"

def Write.rows (w : Write τ) : List (List String) :=
  hashRows (requests w.request).serialNumber (requests w.request).productId (requests w.request).hardwareHash w.groupTag

def HashDb.setPhase (db : HashDb τ) (t : τ) (phase : Phase) : HashDb τ :=
  { db with phase := Function.update db.phase t phase }

def completion (u : HashUpload) (id : ItemId) (result : Json) : Report := ⟨id, u.device, false, result, none⟩

/-- The end of an upload: `complete_work_item`, and the answer. -/
def HashDb.complete (db : HashDb τ) (t : τ) (now : Int) (result : Json) : HashDb τ :=
  match given (requests t).workItemId with
  | none => db.setPhase t (.answered (.accepted result))
  | some id =>
    let report := completion (requests t) id result
    if db.items.any report.matches then
      { db.setPhase t (.answered (.accepted result)) with
        items := db.items.map fun item => if report.matches item then report.apply now item else item }
    else db.setPhase t (.answered (.refused 409))

def execHash (db : HashDb τ) : HashEvent τ → HashDb τ
  | .go t ts now =>
    match db.phase t with
    | .waiting => db.setPhase t (check db.items (requests t))
    | .checked work vmid =>
      let written : Write τ := ⟨t, ts, vmid, tagOf work⟩
      { db.setPhase t (.saved work vmid (written.filename isalnum requests)) with writes := db.writes ++ [written] }
    | .saved work vmid filename =>
      db.complete requests t now (hashUploadResult (requests t) work vmid filename)
    | .answered _ => db
  | .others items => { db with items := items }

end Moves

/-!
## Refused uploads

Whether the item has ended is asked after the file is written: an upload that comes too late
is refused, and its file is there. The names of two files tell their VMs and serials apart,
but for a serial that is called like no serial.
-/

section Names
variable {isalnum : Char → Bool}

theorem hyphen_not_mem_padded (width i : Nat) : '-' ∉ (CloudOsd.Names.padded width i).toList := by
  intro h
  have hdigit := CloudOsd.Names.padded_digits width i '-' h
  exact absurd hdigit (by decide)

theorem hyphen_not_mem_stamp (ts : Stamp) : '-' ∉ ts.text.toList := by
  unfold Stamp.text
  simp [hyphen_not_mem_padded]

theorem append_hyphen_inj {a a' b b' : List Char} (ha : '-' ∉ a) (ha' : '-' ∉ a')
    (h : a ++ '-' :: b = a' ++ '-' :: b') : a = a' ∧ b = b' := by
  induction a generalizing a' with
  | nil =>
    cases a' with
    | nil => exact ⟨rfl, (List.cons.inj h).2⟩
    | cons c a' => exact absurd ((List.cons.inj h).1 ▸ List.mem_cons_self) ha'
  | cons c a ih =>
    cases a' with
    | nil => exact absurd ((List.cons.inj h).1 ▸ List.mem_cons_self) ha
    | cons c' a' =>
      obtain ⟨rfl, htail⟩ := List.cons.inj h
      obtain ⟨rfl, hrest⟩ := ih (mt (List.mem_cons_of_mem _) ha) (mt (List.mem_cons_of_mem _) ha') htail
      exact ⟨rfl, hrest⟩

theorem hyphen_not_mem_digits (n : Nat) : '-' ∉ Nat.toDigits 10 n := by
  intro h
  have hdigit := Nat.isDigit_of_mem_toDigits (by decide) (by decide) h
  exact absurd hdigit (by decide)

theorem digits_injective {m n : Nat} (h : Nat.toDigits 10 m = Nat.toDigits 10 n) : m = n := by
  have hvalue := @Nat.ofDigitChars_ten_toDigits m
  rw [h, Nat.ofDigitChars_ten_toDigits] at hvalue
  exact hvalue.symm

theorem intText_ofNat (n : Nat) : (toString (Int.ofNat n)).toList = Nat.toDigits 10 n := Nat.toList_repr

theorem intText_negSucc (n : Nat) : (toString (Int.negSucc n)).toList = '-' :: Nat.toDigits 10 (n + 1) := by
  change ("-" ++ Nat.repr (n + 1)).toList = _
  rw [String.toList_append, Nat.toList_repr]
  rfl

theorem intText_append_inj {v v' : Int} {r r' : List Char}
    (h : (toString v).toList ++ '-' :: r = (toString v').toList ++ '-' :: r') : v = v' ∧ r = r' := by
  have hsign : ∀ {m n : Nat} {r r' : List Char},
      Nat.toDigits 10 m ++ '-' :: r ≠ '-' :: Nat.toDigits 10 n ++ '-' :: r' := by
    intro m n r r' heq
    obtain ⟨first, rest, hfirst⟩ := List.exists_cons_of_ne_nil (@Nat.toDigits_ne_nil m 10)
    rw [hfirst] at heq
    refine hyphen_not_mem_digits m ?_
    rw [hfirst, (List.cons.inj heq).1]
    exact List.mem_cons_self
  cases v with
  | ofNat m =>
    cases v' with
    | ofNat n =>
      rw [intText_ofNat, intText_ofNat] at h
      obtain ⟨hdigits, hrest⟩ := append_hyphen_inj (hyphen_not_mem_digits m) (hyphen_not_mem_digits n) h
      exact ⟨congrArg Int.ofNat (digits_injective hdigits), hrest⟩
    | negSucc n =>
      rw [intText_ofNat, intText_negSucc] at h
      exact absurd h hsign
  | negSucc m =>
    cases v' with
    | ofNat n =>
      rw [intText_ofNat, intText_negSucc] at h
      exact absurd h.symm hsign
    | negSucc n =>
      rw [intText_negSucc, intText_negSucc] at h
      obtain ⟨hdigits, hrest⟩ :=
        append_hyphen_inj (hyphen_not_mem_digits _) (hyphen_not_mem_digits _) (List.cons.inj h).2
      exact ⟨congrArg Int.negSucc (Nat.succ.inj (digits_injective hdigits)), hrest⟩

theorem hashFilename_inj {ts ts' : Stamp} {v v' : Int} {serial serial' source : String} :
    hashFilename isalnum ts v serial source = hashFilename isalnum ts' v' serial' source ↔
      ts.text = ts'.text ∧ v = v' ∧ safe isalnum "noserial" serial = safe isalnum "noserial" serial' := by
  refine ⟨fun h => ?_, fun ⟨hts, hv, hserial⟩ => by unfold hashFilename; rw [hts, hv, hserial]⟩
  have hlist : ∀ (ts : Stamp) (v : Int) (serial : String), (hashFilename isalnum ts v serial source).toList =
      ts.text.toList ++ '-' :: 'v' :: 'm' :: ((toString v).toList ++
        '-' :: ((safe isalnum "noserial" serial).toList ++ ("-" ++ safe isalnum "hash" source ++ "_hwid.csv").toList)) := by
    intro ts v serial
    simp [hashFilename]
  have hlists := congrArg String.toList h
  rw [hlist, hlist] at hlists
  obtain ⟨hts, hrest⟩ := append_hyphen_inj (hyphen_not_mem_stamp ts) (hyphen_not_mem_stamp ts') hlists
  obtain ⟨hv, hrest⟩ := intText_append_inj (List.cons.inj (List.cons.inj hrest).2).2
  exact ⟨String.toList_inj.mp hts, hv, String.toList_inj.mp (List.append_cancel_right hrest)⟩

theorem safe_eq_iff {fallback s t : String} :
    safe isalnum fallback s = safe isalnum fallback t ↔ filtered isalnum s = filtered isalnum t ∨
      (filtered isalnum s = "" ∧ filtered isalnum t = fallback) ∨
        filtered isalnum t = "" ∧ filtered isalnum s = fallback := by
  unfold safe
  by_cases hs : filtered isalnum s = "" <;> by_cases ht : filtered isalnum t = ""
  · simp [hs, ht]
  · rw [if_pos hs, if_neg ht, hs]
    exact ⟨fun h => .inr (.inl ⟨rfl, h.symm⟩), fun h => (h.resolve_left (Ne.symm ht)).elim (fun h => h.2.symm)
      fun h => absurd h.1 ht⟩
  · rw [if_neg hs, if_pos ht, ht]
    exact ⟨fun h => .inr (.inr ⟨rfl, h⟩), fun h => (h.resolve_left hs).elim (fun h => absurd h.1 hs) fun h => h.2⟩
  · rw [if_neg hs, if_neg ht]
    exact ⟨.inl, fun h => h.elim id fun h => h.elim (fun h => absurd h.1 hs) fun h => absurd h.1 ht⟩

end Names

section Uploads
variable {τ : Type} (isalnum : Char → Bool) (requests : τ → HashUpload)

def Accepted (db : HashDb τ) (t : τ) : Prop := ∃ result, db.phase t = .answered (.accepted result)

def RefusedLeavesNothing (db : HashDb τ) : Prop :=
  ∀ t status, db.phase t = .answered (.refused status) → ∀ w ∈ db.writes, w.request ≠ t

/-- Accepted uploads of two VMs or two serials have two files. -/
def AcceptedKept (db : HashDb τ) : Prop :=
  ∀ w ∈ db.writes, ∀ w' ∈ db.writes, Accepted db w.request → Accepted db w'.request →
    (w.vmid ≠ w'.vmid ∨
      filtered isalnum (requests w.request).serialNumber ≠ filtered isalnum (requests w'.request).serialNumber) →
    w.filename isalnum requests ≠ w'.filename isalnum requests

/-- No two accepted uploads of one VM in one second have a serial of which nothing is left, and
one that is called like that. -/
def NonesApart (db : HashDb τ) : Prop :=
  ∀ w ∈ db.writes, ∀ w' ∈ db.writes, Accepted db w.request → Accepted db w'.request →
    w.ts.text = w'.ts.text → w.vmid = w'.vmid →
    ¬ (filtered isalnum (requests w.request).serialNumber = "" ∧
      filtered isalnum (requests w'.request).serialNumber = "noserial")

theorem acceptedKept_iff (db : HashDb τ) : AcceptedKept isalnum requests db ↔ NonesApart isalnum requests db := by
  constructor
  · intro h w hw w' hw' haccepted haccepted' hts hvmid ⟨hnone, hnamed⟩
    refine h w hw w' hw' haccepted haccepted' (.inr ?_) (hashFilename_inj.mpr ⟨hts, hvmid, ?_⟩)
    · rw [hnone, hnamed]
      decide
    · exact safe_eq_iff.mpr (.inr (.inl ⟨hnone, hnamed⟩))
  · intro h w hw w' hw' haccepted haccepted' hdifferent hsame
    obtain ⟨hts, hvmid, hserial⟩ := hashFilename_inj.mp hsame
    rcases safe_eq_iff.mp hserial with heq | hnone | hnone
    · exact hdifferent.elim (fun hne => hne hvmid) fun hne => hne heq
    · exact h w hw w' hw' haccepted haccepted' hts hvmid hnone
    · exact h w' hw' w hw haccepted' haccepted hts.symm hvmid.symm hnone

end Uploads

section Runs
variable {τ : Type} [DecidableEq τ] (isalnum : Char → Bool) (requests : τ → HashUpload)

def stillOpen (items : List WorkItem) (u : HashUpload) (id : ItemId) : Bool :=
  items.any fun item => item.id = id && item.agentId = u.device && item.status.open

def InTime (db : HashDb τ) : HashEvent τ → Prop
  | .go t _ _ => ∀ work vmid filename id, db.phase t = .saved work vmid filename →
      given (requests t).workItemId = some id → stillOpen db.items (requests t) id = true
  | .others _ => True

variable {isalnum requests} {db : HashDb τ} {t : τ} {ts : Stamp} {now : Int}

theorem check_cases (items : List WorkItem) (u : HashUpload) :
    (∃ work vmid, check items u = .checked work vmid) ∨ ∃ status, check items u = .answered (.refused status) := by
  unfold check
  split
  · split
    · exact .inr ⟨409, rfl⟩
    · exact .inl ⟨_, _, rfl⟩
  · split
    · exact .inr ⟨404, rfl⟩
    · split
      · exact .inr ⟨403, rfl⟩
      · split
        · exact .inr ⟨409, rfl⟩
        · exact .inl ⟨_, _, rfl⟩

variable (requests db) in
/-- How an upload ends is up to its item, and what it has written stays. -/
theorem complete_cases (t : τ) (now : Int) (result : Json) :
    (db.complete requests t now result).writes = db.writes ∧
      (((∀ id, given (requests t).workItemId = some id → stillOpen db.items (requests t) id = true) ∧
          (db.complete requests t now result).phase =
            Function.update db.phase t (.answered (.accepted result))) ∨
        (∃ id, given (requests t).workItemId = some id ∧ stillOpen db.items (requests t) id ≠ true) ∧
          (db.complete requests t now result).phase = Function.update db.phase t (.answered (.refused 409))) := by
  unfold HashDb.complete
  split
  · rename_i hnone
    exact ⟨rfl, .inl ⟨fun id hid => absurd (hnone.symm.trans hid) (by simp), rfl⟩⟩
  · rename_i id hid
    dsimp only
    split
    · rename_i hopen
      refine ⟨rfl, .inl ⟨fun id' hid' => ?_, rfl⟩⟩
      rw [hid] at hid'
      cases hid'
      exact hopen
    · rename_i hclosed
      exact ⟨rfl, .inr ⟨⟨id, hid, hclosed⟩, rfl⟩⟩

variable (isalnum requests db) in
theorem go_cases (t : τ) (ts : Stamp) (now : Int) :
    ((∃ answer, db.phase t = .answered answer) ∧ execHash isalnum requests db (.go t ts now) = db) ∨
    (db.phase t = .waiting ∧
      (execHash isalnum requests db (.go t ts now)).phase = Function.update db.phase t (check db.items (requests t)) ∧
      (execHash isalnum requests db (.go t ts now)).writes = db.writes) ∨
    (∃ work vmid filename w, db.phase t = .checked work vmid ∧ w.request = t ∧
      (execHash isalnum requests db (.go t ts now)).phase =
        Function.update db.phase t (.saved work vmid filename) ∧
      (execHash isalnum requests db (.go t ts now)).writes = db.writes ++ [w]) ∨
    ∃ work vmid filename, db.phase t = .saved work vmid filename ∧
      execHash isalnum requests db (.go t ts now) =
        db.complete requests t now (hashUploadResult (requests t) work vmid filename) := by
  unfold execHash
  dsimp only
  cases hphase : db.phase t with
  | waiting => exact .inr (.inl ⟨rfl, rfl, rfl⟩)
  | checked work vmid => exact .inr (.inr (.inl ⟨work, vmid, _, ⟨t, ts, vmid, tagOf work⟩, rfl, rfl, rfl, rfl⟩))
  | saved work vmid filename => exact .inr (.inr (.inr ⟨work, vmid, filename, rfl, rfl⟩))
  | answered answer => exact .inl ⟨⟨answer, rfl⟩, rfl⟩

/-- What a request has written when it stands where. -/
structure Journal (db : HashDb τ) : Prop where
  before : ∀ t, (db.phase t = .waiting ∨ ∃ work vmid, db.phase t = .checked work vmid) → ∀ w ∈ db.writes, w.request ≠ t
  saved : ∀ t work vmid filename, db.phase t = .saved work vmid filename → ∃ w ∈ db.writes, w.request = t

theorem Journal.moved (h : Journal db) {db' : HashDb τ} {phase : Phase}
    (hphase : db'.phase = Function.update db.phase t phase) (hwrites : db'.writes = db.writes)
    (hbefore : (phase = .waiting ∨ ∃ work vmid, phase = .checked work vmid) → db.phase t = .waiting)
    (hsaved : ∀ work vmid filename, phase ≠ .saved work vmid filename) : Journal db' := by
  constructor
  · intro u hu
    rw [hphase] at hu
    rw [hwrites]
    by_cases hut : u = t
    · rw [hut, Function.update_self] at hu
      rw [hut]
      exact h.before t (.inl (hbefore hu))
    · rw [Function.update_of_ne hut] at hu
      exact h.before u hu
  · intro u work vmid filename hu
    rw [hphase] at hu
    rw [hwrites]
    by_cases hut : u = t
    · rw [hut, Function.update_self] at hu
      exact absurd hu (hsaved work vmid filename)
    · rw [Function.update_of_ne hut] at hu
      exact h.saved u work vmid filename hu

theorem journal_step (h : Journal db) (e : HashEvent τ) : Journal (execHash isalnum requests db e) := by
  cases e with
  | others items => exact ⟨h.before, h.saved⟩
  | go t ts now =>
    rcases go_cases isalnum requests db t ts now with
      ⟨-, hsame⟩ | ⟨hwaiting, hphase, hwrites⟩ | ⟨work, vmid, filename, w, -, hw, hphase, hwrites⟩ |
        ⟨work, vmid, filename, -, hstep⟩
    · rw [hsame]
      exact h
    · refine h.moved hphase hwrites (fun _ => hwaiting) fun work vmid filename hsaved => ?_
      rcases check_cases db.items (requests t) with ⟨_, _, hcheck⟩ | ⟨_, hcheck⟩
      · rw [hcheck] at hsaved
        cases hsaved
      · rw [hcheck] at hsaved
        cases hsaved
    · constructor
      · intro u hu v hv
        rw [hphase] at hu
        rw [hwrites] at hv
        by_cases hut : u = t
        · rw [hut, Function.update_self] at hu
          rcases hu with hu | ⟨_, _, hu⟩ <;> cases hu
        · rw [Function.update_of_ne hut] at hu
          rcases List.mem_append.mp hv with hv | hv
          · exact h.before u hu v hv
          · rw [List.mem_singleton.mp hv, hw]
            exact Ne.symm hut
      · intro u work' vmid' filename' hu
        rw [hphase] at hu
        rw [hwrites]
        by_cases hut : u = t
        · exact ⟨w, List.mem_append_right _ (List.mem_singleton_self _), hw.trans hut.symm⟩
        · rw [Function.update_of_ne hut] at hu
          obtain ⟨v, hv, hvu⟩ := h.saved u work' vmid' filename' hu
          exact ⟨v, List.mem_append_left _ hv, hvu⟩
    · rw [hstep]
      obtain ⟨hwrites, ⟨-, hphase⟩ | ⟨-, hphase⟩⟩ :=
        complete_cases requests db t now (hashUploadResult (requests t) work vmid filename)
      · exact h.moved hphase hwrites (by rintro (h | ⟨_, _, h⟩) <;> cases h) (by rintro _ _ _ h; cases h)
      · exact h.moved hphase hwrites (by rintro (h | ⟨_, _, h⟩) <;> cases h) (by rintro _ _ _ h; cases h)

/-- A refused request has left a file. -/
def LeftFile (db : HashDb τ) (t : τ) : Prop :=
  (∃ status, db.phase t = .answered (.refused status)) ∧ ∃ w ∈ db.writes, w.request = t

theorem leftFile_step (h : LeftFile db t) (e : HashEvent τ) : LeftFile (execHash isalnum requests db e) t := by
  obtain ⟨⟨status, hstatus⟩, w, hw, hwt⟩ := h
  cases e with
  | others items => exact ⟨⟨status, hstatus⟩, w, hw, hwt⟩
  | go u ts now =>
    have hother : ∀ {db' : HashDb τ} {phase : Phase}, db'.phase = Function.update db.phase u phase →
        (∀ answer, db.phase u ≠ .answered answer) → ∃ status, db'.phase t = .answered (.refused status) := by
      intro db' phase hphase hu
      refine ⟨status, ?_⟩
      rw [hphase, Function.update_of_ne]
      · exact hstatus
      · rintro rfl
        exact hu _ hstatus
    rcases go_cases isalnum requests db u ts now with
      ⟨-, hsame⟩ | ⟨hwaiting, hphase, hwrites⟩ | ⟨_, _, _, v, hchecked, -, hphase, hwrites⟩ |
        ⟨work, vmid, filename, hsaved, hstep⟩
    · rw [hsame]
      exact ⟨⟨status, hstatus⟩, w, hw, hwt⟩
    · refine ⟨hother hphase fun answer h => ?_, w, hwrites ▸ hw, hwt⟩
      rw [hwaiting] at h
      cases h
    · refine ⟨hother hphase fun answer h => ?_, w, hwrites ▸ List.mem_append_left _ hw, hwt⟩
      rw [hchecked] at h
      cases h
    · rw [hstep]
      obtain ⟨hwrites, hphase⟩ := complete_cases requests db u now (hashUploadResult (requests u) work vmid filename)
      refine ⟨?_, w, hwrites.symm ▸ hw, hwt⟩
      have hopen : ∀ answer, db.phase u ≠ .answered answer := by
        intro answer h
        rw [hsaved] at h
        cases h
      exact hphase.elim (fun h => hother h.2 hopen) fun h => hother h.2 hopen

variable (isalnum requests) in
theorem leftFile_run (events : List (HashEvent τ)) :
    ∀ {db : HashDb τ}, LeftFile db t → LeftFile (events.foldl (execHash isalnum requests) db) t := by
  induction events with
  | nil => exact id
  | cons e events ih => exact fun h => ih (leftFile_step h e)

theorem refusedLeavesNothing_step (hjournal : Journal db) (h : RefusedLeavesNothing db) {e : HashEvent τ}
    (he : InTime requests db e) : RefusedLeavesNothing (execHash isalnum requests db e) := by
  cases e with
  | others items => exact h
  | go u ts now =>
    intro t status ht w hw
    rcases go_cases isalnum requests db u ts now with
      ⟨-, hsame⟩ | ⟨hwaiting, hphase, hwrites⟩ | ⟨_, _, _, v, hchecked, hv, hphase, hwrites⟩ |
        ⟨work, vmid, filename, hsaved, hstep⟩
    · rw [hsame] at ht hw
      exact h t status ht w hw
    · rw [hphase] at ht
      rw [hwrites] at hw
      by_cases htu : t = u
      · rw [htu]
        exact hjournal.before u (.inl hwaiting) w hw
      · rw [Function.update_of_ne htu] at ht
        exact h t status ht w hw
    · rw [hphase] at ht
      rw [hwrites] at hw
      by_cases htu : t = u
      · rw [htu, Function.update_self] at ht
        cases ht
      · rw [Function.update_of_ne htu] at ht
        rcases List.mem_append.mp hw with hw | hw
        · exact h t status ht w hw
        · rw [List.mem_singleton.mp hw, hv]
          exact Ne.symm htu
    · rw [hstep] at ht hw
      obtain ⟨hwrites, ⟨-, hphase⟩ | ⟨⟨id, hid, hclosed⟩, -⟩⟩ :=
        complete_cases requests db u now (hashUploadResult (requests u) work vmid filename)
      · rw [hphase] at ht
        rw [hwrites] at hw
        by_cases htu : t = u
        · rw [htu, Function.update_self] at ht
          cases ht
        · rw [Function.update_of_ne htu] at ht
          exact h t status ht w hw
      · exact absurd (he work vmid filename id hsaved hid) hclosed

variable (isalnum) in
theorem leftFile_of_late (hjournal : Journal db) {e : HashEvent τ} (he : ¬ InTime requests db e) :
    ∃ t, LeftFile (execHash isalnum requests db e) t := by
  cases e with
  | others items => exact absurd trivial he
  | go u ts now =>
    unfold InTime at he
    push Not at he
    obtain ⟨work, vmid, filename, id, hsaved, hid, hclosed⟩ := he
    obtain ⟨w, hw, hwu⟩ := hjournal.saved u work vmid filename hsaved
    have hstep : execHash isalnum requests db (.go u ts now) =
        db.complete requests u now (hashUploadResult (requests u) work vmid filename) := by
      unfold execHash
      simp only [hsaved]
    obtain ⟨hwrites, ⟨hopen, -⟩ | ⟨-, hphase⟩⟩ :=
      complete_cases requests db u now (hashUploadResult (requests u) work vmid filename)
    · exact absurd (hopen id hid) hclosed
    · refine ⟨u, ?_⟩
      rw [hstep]
      exact ⟨⟨409, by rw [hphase, Function.update_self]⟩, w, hwrites.symm ▸ hw, hwu⟩

theorem refusedLeavesNothing_iff (events : List (HashEvent τ)) :
    ∀ {db : HashDb τ}, Journal db → RefusedLeavesNothing db →
      (RefusedLeavesNothing (events.foldl (execHash isalnum requests) db) ↔
        Replays (InTime requests) (execHash isalnum requests) db events) := by
  induction events with
  | nil => exact fun _ h => ⟨fun _ => trivial, fun _ => h⟩
  | cons e events ih =>
    intro db hjournal h
    rw [List.foldl_cons]
    by_cases he : InTime requests db e
    · rw [ih (journal_step hjournal e) (refusedLeavesNothing_step hjournal h he)]
      exact ⟨fun hrest => ⟨he, hrest⟩, And.right⟩
    · refine ⟨fun hnothing => ?_, fun hreplays => absurd hreplays.1 he⟩
      obtain ⟨t, hleft⟩ := leftFile_of_late isalnum hjournal he
      obtain ⟨⟨status, hstatus⟩, w, hw, hwt⟩ := leftFile_run isalnum requests events hleft
      exact absurd hwt (hnothing t status hstatus w hw)

/-- Any items and files, and no request begun. -/
structure Start (db : HashDb τ) : Prop where
  waiting : ∀ t, db.phase t = .waiting
  writes : db.writes = []

omit [DecidableEq τ] in
theorem Start.journal (h : Start db) : Journal db := by
  constructor
  · intro t _ w hw
    rw [h.writes] at hw
    cases hw
  · intro t work vmid filename hsaved
    rw [h.waiting] at hsaved
    cases hsaved

omit [DecidableEq τ] in
theorem Start.refusedLeavesNothing (h : Start db) : RefusedLeavesNothing db := by
  intro t status hrefused
  rw [h.waiting] at hrefused
  cases hrefused

/-- In every run refused uploads leave nothing and accepted ones are kept, unless an item ends
between the file and the answer, or a nameless serial meets its substitute. -/
theorem uploads_apart_iff (h : Start db) (events : List (HashEvent τ)) :
    RefusedLeavesNothing (events.foldl (execHash isalnum requests) db) ∧
        AcceptedKept isalnum requests (events.foldl (execHash isalnum requests) db) ↔
      Replays (InTime requests) (execHash isalnum requests) db events ∧
        NonesApart isalnum requests (events.foldl (execHash isalnum requests) db) := by
  rw [refusedLeavesNothing_iff events h.journal h.refusedLeavesNothing, acceptedKept_iff]

def upload (workItemId : Option ItemId) (serial : String) : HashUpload where
  device := "agent-1"
  workItemId := workItemId
  serialNumber := serial
  hardwareHash := "T0hX"
  knownVmid := some 100

def noon : Stamp := ⟨2024, 5, 1, 12, 0, 0⟩

def whole (t : Bool) : List (HashEvent Bool) := List.replicate 3 (.go t noon 0)

def itemOf (status : WorkStatus) : WorkItem where
  id := "w1"
  agentId := "agent-1"
  kind := "capture_autopilot_hash"
  status := status
  createdAt := 0
  updatedAt := 0

def knownItem : Bool → HashUpload
  | true => upload (some "w1") "SER-1"
  | false => upload (some "w2") "SER-1"

theorem missing_item_leaves_nothing :
    RefusedLeavesNothing ((whole true ++ whole false).foldl (execHash Char.isAlphanum knownItem)
        { items := [itemOf .claimed] }) ∧
      AcceptedKept Char.isAlphanum knownItem ((whole true ++ whole false).foldl
        (execHash Char.isAlphanum knownItem) { items := [itemOf .claimed] }) := by
  refine (uploads_apart_iff ⟨fun _ => rfl, rfl⟩ (whole true ++ whole false)).mpr ⟨?_, ?_⟩
  · refine ⟨?_, ?_, ?_, ?_, ?_, ?_, trivial⟩ <;> intro work vmid filename id hsaved hid
    · change Phase.waiting = _ at hsaved
      cases hsaved
    · change Phase.checked _ _ = _ at hsaved
      cases hsaved
    · change some "w1" = some id at hid
      cases hid
      rfl
    · change Phase.waiting = _ at hsaved
      cases hsaved
    · change Phase.answered _ = _ at hsaved
      cases hsaved
    · change Phase.answered _ = _ at hsaved
      cases hsaved
  · intro w hw w' hw' _ _ _ _ hserials
    change w ∈ [(⟨true, noon, 100, ""⟩ : Write Bool)] at hw
    rw [List.mem_singleton.mp hw] at hserials
    exact absurd hserials.1 (by decide +kernel)

def nameless : Bool → HashUpload
  | true => upload none "#"
  | false => upload none "noserial"

/-- The item had ended before the upload; and of two serials one is substituted by the other. -/
theorem late_upload_leaves_file :
    ¬ RefusedLeavesNothing ((whole true).foldl (execHash Char.isAlphanum knownItem) { items := [itemOf .complete] }) ∧
    ¬ AcceptedKept Char.isAlphanum nameless ((whole true ++ whole false).foldl
      (execHash Char.isAlphanum nameless) { items := [] }) := by
  constructor
  · intro h
    exact h true 409 rfl ⟨true, noon, 100, ""⟩ List.mem_cons_self rfl
  · intro h
    refine h ⟨true, noon, 100, ""⟩ List.mem_cons_self ⟨false, noon, 100, ""⟩
      (List.mem_cons_of_mem _ List.mem_cons_self) ⟨_, rfl⟩ ⟨_, rfl⟩ (.inr ?_) ?_
    · decide +kernel
    · decide +kernel

end Runs

end ProxmoxVEAutopilot.Telemetry.HashFiles
