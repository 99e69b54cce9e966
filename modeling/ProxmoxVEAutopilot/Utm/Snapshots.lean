import ProxmoxVEAutopilot.Foundation.Runs

/-!
# UTM snapshots

`create_snapshot`, `restore_snapshot` and `delete_snapshot`: one `qemu-img` call for each
writable disk of a stopped VM, in the order of its configuration. The calls run outside the
program; what they reply is given, what they do to a disk is a parameter.
-/

namespace ProxmoxVEAutopilot.Utm

set_option autoImplicit false

/-! ### The disks of a bundle -/

structure Drive where
  imageType : Option String
  readOnly : Bool
  imageName : Option String
deriving DecidableEq

/-- A bundle: the drives of its `config.plist`, none where it cannot be read and an entry none where
the entry has not the shape of a drive, and the names in its `Data` directory, if there is one. -/
structure Bundle where
  drives : Option (List (Option Drive))
  data : Option (List String)

def Bundle.files (b : Bundle) : List String := b.data.getD []

/-- A writable disk that is there. -/
def Drive.image (b : Bundle) (drive : Drive) : Option String :=
  if drive.imageType = some "Disk" ∧ ¬ drive.readOnly then drive.imageName.filter (· ∈ b.files) else none

/-- `sorted(data_dir.glob("*.qcow2"))`, where there is such a directory. -/
def Bundle.globbed (b : Bundle) (images : List String) : List String :=
  match b.data with
  | some names => (names.filter fun name => ".qcow2".toList.isSuffixOf name.toList).insertionSort (· ≤ ·)
  | none => images

/-- `_disk_images_for_bundle`; an entry without the shape of a drive raises inside the loop. -/
def diskImagesForBundle (b : Bundle) : List String :=
  match b.drives with
  | none => b.globbed []
  | some drives =>
    let images := (drives.takeWhile Option.isSome).filterMap fun drive => drive.bind (·.image b)
    if drives.all Option.isSome then images else b.globbed images

/-! ### The calls -/

inductive Verb where
  | create | restore | delete
deriving DecidableEq, Repr

def Verb.flag : Verb → String
  | .create => "-c"
  | .restore => "-a"
  | .delete => "-d"

/-- How a `qemu-img` call ends. Killed at its timeout, it may have taken effect. -/
inductive Reply where
  | exited (code : Int) (stderr : String)
  | timedOut (landed : Bool)
  | vanished (binary : String)
  | notFound
deriving DecidableEq

inductive SnapshotError where
  | badName
  | cannotCheck (reason : String)
  | vmNotFound
  | notStopped (status : String)
  | bundle (reason : String)
  | noDisks
  | failed (disk stderr : String)
  | timedOut
  | vanished (binary : String)
  | notFound
deriving DecidableEq

/-- `repr` and `strip` of a text. -/
structure Python where
  repr : String → String
  strip : String → String

/-- The text of the `ValueError` or `RuntimeError`. -/
def SnapshotError.message (py : Python) (verb : Verb) (vm name : String) : SnapshotError → String
  | .badName => s!"Snapshot name must be 1–64 alphanumeric/._- characters, got {py.repr name}"
  | .cannotCheck reason => s!"Cannot check VM state: {reason}"
  | .vmNotFound => s!"VM not found: {py.repr vm}"
  | .notStopped status =>
    s!"VM must be stopped before this snapshot operation (current status: {py.repr status}). " ++
      s!"Stop it via the UI or `utmctl stop {vm}` first."
  | .bundle reason => reason
  | .noDisks => "No writable disk images found in bundle"
  | .failed disk stderr => s!"qemu-img snapshot {verb.flag} {py.repr name} failed for {disk}: {py.strip stderr}"
  | .timedOut => s!"qemu-img snapshot {verb.flag} {name} timed out after 120s"
  | .vanished binary => s!"qemu-img not found at {binary}. Install via `brew install qemu`."
  | .notFound =>
    "qemu-img not found. Install via `brew install qemu` or set utm_qemu_img_path in Settings → UTM (macOS/ARM64) Configuration."

structure Vm where
  uuid : String
  name : String
  status : String

/-- What one operation meets: `utm_cli.list_vms`, `utm_cli.bundle_path_for` and the replies to its
calls in turn. -/
structure Host where
  vms : Except String (List Vm)
  bundle : Except String Bundle
  reply : Nat → Reply

/-- `_SNAPSHOT_NAME_RE.match`; its `$` also stands before a final newline. -/
def validName (name : String) : Bool :=
  let body := if name.toList.getLast? = some '\n' then name.toList.dropLast else name.toList
  1 ≤ body.length && body.length ≤ 64 && body.all fun c => c.isAlphanum || c = '.' || c = '_' || c = '-'

def requireStopped (host : Host) (vm : String) : Except SnapshotError Unit :=
  match host.vms with
  | .error reason => .error (.cannotCheck reason)
  | .ok vms =>
    match vms.find? fun m => m.uuid = vm || m.name = vm with
    | none => .error .vmNotFound
    | some m => if m.status ≠ "stopped" then .error (.notStopped m.status) else .ok ()

/-- The checks before the first call, and the disks it is made for. -/
def admitted (host : Host) (vm name : String) : Except SnapshotError (List String) :=
  if !validName name then .error .badName
  else
    match requireStopped host vm with
    | .error e => .error e
    | .ok () =>
      match host.bundle with
      | .error reason => .error (.bundle reason)
      | .ok bundle =>
        if diskImagesForBundle bundle = [] then .error .noDisks else .ok (diskImagesForBundle bundle)

/-! ### The operations -/

section

variable {δ : Type} (effect : Verb → String → δ → δ)

abbrev Disks (δ : Type) := String → δ

def Disks.set (disks : Disks δ) (image : String) (disk : δ) : Disks δ := Function.update disks image disk

/-- The calls for the images in turn, from the `k`-th; the first that fails ends them. -/
def callEach (verb : Verb) (name : String) (reply : Nat → Reply) :
    List String → Nat → Disks δ → Option SnapshotError × Disks δ
  | [], _, disks => (none, disks)
  | image :: images, k, disks =>
    let changed := disks.set image (effect verb name (disks image))
    match reply k with
    | .exited code stderr =>
      if code = 0 then callEach verb name reply images (k + 1) changed else (some (.failed image stderr), disks)
    | .timedOut landed => (some .timedOut, if landed then changed else disks)
    | .vanished binary => (some (.vanished binary), disks)
    | .notFound => (some .notFound, disks)

structure Done where
  name : String
  disks : List String
deriving DecidableEq

/-- The body that the three operations share. -/
def snapshotOperation (verb : Verb) (host : Host) (vm name : String) (disks : Disks δ) :
    Except SnapshotError Done × Disks δ :=
  match admitted host vm name with
  | .error e => (.error e, disks)
  | .ok images =>
    match callEach effect verb name host.reply images 0 disks with
    | (some e, left) => (.error e, left)
    | (none, left) => (.ok ⟨name, images⟩, left)

def createSnapshot (host : Host) (vm name : String) (disks : Disks δ) : Except SnapshotError Done × Disks δ :=
  snapshotOperation effect .create host vm name disks

def restoreSnapshot (host : Host) (vm name : String) (disks : Disks δ) : Except SnapshotError Done × Disks δ :=
  snapshotOperation effect .restore host vm name disks

def deleteSnapshot (host : Host) (vm name : String) (disks : Disks δ) : Except SnapshotError Done × Disks δ :=
  snapshotOperation effect .delete host vm name disks

end

end ProxmoxVEAutopilot.Utm

/-!
## Disks in step

The calls of an operation are not undone when a later one fails, so an operation is all or
nothing exactly where what came before the failure changed no disk. As long as every
operation is, all disks of a VM have gone through the same history.
-/

namespace ProxmoxVEAutopilot.Utm

open Foundation

set_option autoImplicit false

def Writable (b : Bundle) (image : String) : Prop :=
  match b.drives with
  | some drives =>
    if drives.all Option.isSome then
      ∃ drive, some drive ∈ drives ∧ drive.imageType = some "Disk" ∧ ¬ drive.readOnly ∧
        drive.imageName = some image ∧ image ∈ b.files
    else image ∈ b.files ∧ ".qcow2".toList <:+ image.toList
  | none => image ∈ b.files ∧ ".qcow2".toList <:+ image.toList

theorem mem_globbed (b : Bundle) {images : List String} (himages : ∀ image ∈ images, image ∈ b.files)
    (image : String) : image ∈ b.globbed images ↔ image ∈ b.files ∧ ".qcow2".toList <:+ image.toList := by
  unfold Bundle.globbed
  unfold Bundle.files at himages ⊢
  cases hdata : b.data with
  | none =>
    rw [hdata] at himages
    have hnil : images = [] := List.eq_nil_iff_forall_not_mem.mpr fun image himage => by
      cases himages image himage
    simp [hnil]
  | some names => simp [List.mem_insertionSort, List.mem_filter, List.isSuffixOf_iff_suffix]

theorem image_eq_some (b : Bundle) (drive : Drive) (image : String) :
    drive.image b = some image ↔
      drive.imageType = some "Disk" ∧ ¬ drive.readOnly ∧ drive.imageName = some image ∧ image ∈ b.files := by
  unfold Drive.image
  by_cases h : drive.imageType = some "Disk" ∧ ¬ drive.readOnly
  · rw [if_pos h, Option.filter_eq_some_iff, decide_eq_true_eq]
    exact ⟨fun hi => ⟨h.1, h.2, hi⟩, fun hi => hi.2.2⟩
  · rw [if_neg h]
    refine iff_of_false (by simp) ?_
    rintro ⟨hdisk, hwritable, -⟩
    exact h ⟨hdisk, hwritable⟩

theorem mem_diskImagesForBundle (b : Bundle) (image : String) : image ∈ diskImagesForBundle b ↔ Writable b image := by
  unfold diskImagesForBundle Writable
  cases hdrives : b.drives with
  | none => exact mem_globbed b (by simp) image
  | some drives =>
    dsimp only
    by_cases hall : drives.all Option.isSome = true
    · have htake : drives.takeWhile Option.isSome = drives :=
        List.takeWhile_eq_self_iff.mpr (List.all_eq_true.mp hall)
      rw [if_pos hall, if_pos hall, htake, List.mem_filterMap]
      constructor
      · rintro ⟨entry, hentry, himage⟩
        obtain ⟨drive, rfl, himage⟩ := Option.bind_eq_some_iff.mp himage
        exact ⟨drive, hentry, (image_eq_some b drive image).mp himage⟩
      · rintro ⟨drive, hdrive, himage⟩
        exact ⟨some drive, hdrive, (image_eq_some b drive image).mpr himage⟩
    · rw [if_neg hall, if_neg hall]
      apply mem_globbed
      intro image himage
      obtain ⟨entry, -, himage⟩ := List.mem_filterMap.mp himage
      obtain ⟨drive, -, himage⟩ := Option.bind_eq_some_iff.mp himage
      exact ((image_eq_some b drive image).mp himage).2.2.2

section

variable {δ : Type} (effect : Verb → String → δ → δ)

/-- Every disk changed as often as the images name it. -/
def applied (verb : Verb) (name : String) (images : List String) (disks : Disks δ) : Disks δ :=
  fun image => (effect verb name)^[images.count image] (disks image)

theorem applied_nil (verb : Verb) (name : String) (disks : Disks δ) : applied effect verb name [] disks = disks := rfl

theorem applied_cons (verb : Verb) (name image : String) (images : List String) (disks : Disks δ) :
    applied effect verb name (image :: images) disks =
      applied effect verb name images (disks.set image (effect verb name (disks image))) := by
  funext other
  unfold applied Disks.set
  by_cases h : other = image
  · subst h
    rw [List.count_cons_self, Function.iterate_succ_apply, Function.update_self]
  · rw [List.count_cons_of_ne (Ne.symm h), Function.update_of_ne h]

def Reply.Ok (r : Reply) : Prop := ∃ stderr, r = .exited 0 stderr

/-- How many disks the failing call itself has changed. -/
def Reply.landed : Reply → Nat
  | .timedOut true => 1
  | _ => 0

theorem callEach_ok {verb : Verb} {name : String} {reply : Nat → Reply} {images : List String} {k : Nat}
    {disks : Disks δ} (h : ∀ j < images.length, (reply (k + j)).Ok) :
    callEach effect verb name reply images k disks = (none, applied effect verb name images disks) := by
  induction images generalizing k disks with
  | nil => rfl
  | cons image images ih =>
    obtain ⟨stderr, hreply⟩ := h 0 (by simp)
    rw [Nat.add_zero] at hreply
    unfold callEach
    simp only [hreply, if_true]
    rw [applied_cons]
    apply ih
    intro j hj
    have hnext := h (j + 1) (by simpa using hj)
    rwa [Nat.add_comm j 1, ← Nat.add_assoc] at hnext

theorem callEach_failed {verb : Verb} {name : String} {reply : Nat → Reply} {images : List String} {k i : Nat}
    {disks : Disks δ} (hi : i < images.length) (hbefore : ∀ j < i, (reply (k + j)).Ok) (hfail : ¬ (reply (k + i)).Ok) :
    ∃ e, callEach effect verb name reply images k disks =
      (some e, applied effect verb name (images.take (i + (reply (k + i)).landed)) disks) := by
  induction images generalizing k i disks with
  | nil => simp at hi
  | cons image images ih =>
    cases i with
    | zero =>
      rw [Nat.add_zero] at hfail ⊢
      rw [Nat.zero_add]
      unfold callEach
      cases hreply : reply k with
      | exited code stderr =>
        have hcode : code ≠ 0 := by
          rintro rfl
          exact hfail ⟨stderr, hreply⟩
        refine ⟨.failed image stderr, ?_⟩
        dsimp only
        rw [if_neg hcode]
        rfl
      | timedOut landed =>
        refine ⟨.timedOut, ?_⟩
        cases landed with
        | false => rfl
        | true =>
          have hone : (image :: images).take (Reply.timedOut true).landed = [image] := rfl
          rw [hone, applied_cons, applied_nil]
          rfl
      | vanished binary => exact ⟨.vanished binary, rfl⟩
      | notFound => exact ⟨.notFound, rfl⟩
    | succ i =>
      obtain ⟨stderr, hreply⟩ := hbefore 0 (by omega)
      rw [Nat.add_zero] at hreply
      have hshift : ∀ j, k + (j + 1) = k + 1 + j := fun j => by omega
      rw [hshift] at hfail ⊢
      obtain ⟨e, hrest⟩ := @ih (k + 1) i (disks.set image (effect verb name (disks image)))
        (by simpa using hi) (fun j hj => by rw [← hshift]; exact hbefore (j + 1) (by omega)) hfail
      refine ⟨e, ?_⟩
      unfold callEach
      simp only [hreply, if_true]
      rw [hrest, Nat.add_right_comm i 1, List.take_succ_cons, applied_cons]

theorem all_ok_or_first (reply : Nat → Reply) (n : Nat) :
    (∀ j < n, (reply j).Ok) ∨ ∃ i < n, (∀ j < i, (reply j).Ok) ∧ ¬ (reply i).Ok := by
  induction n with
  | zero => exact .inl (by simp)
  | succ n ih =>
    rcases ih with h | ⟨i, hi, hrest⟩
    · by_cases hn : (reply n).Ok
      · left
        intro j hj
        rcases Nat.lt_succ_iff_lt_or_eq.mp hj with hj | rfl
        · exact h j hj
        · exact hn
      · exact .inr ⟨n, Nat.lt_succ_self n, h, hn⟩
    · exact .inr ⟨i, Nat.lt_succ_of_lt hi, hrest⟩

def operate : Verb → Host → String → String → Disks δ → Except SnapshotError Done × Disks δ
  | .create => createSnapshot effect
  | .restore => restoreSnapshot effect
  | .delete => deleteSnapshot effect

theorem operate_eq (verb : Verb) (host : Host) (vm name : String) (disks : Disks δ) :
    operate effect verb host vm name disks = snapshotOperation effect verb host vm name disks := by
  cases verb <;> rfl

/-- What is asked of an operation: acted on every writable disk, or nothing changed. -/
structure AllOrNothing (verb : Verb) (name : String) (host : Host) (before : Disks δ)
    (result : Except SnapshotError Done × Disks δ) : Prop where
  all : ∀ done, result.1 = .ok done → ∃ bundle, host.bundle = .ok bundle ∧
    (∀ image, image ∈ done.disks ↔ Writable bundle image) ∧ result.2 = applied effect verb name done.disks before
  nothing : ∀ e, result.1 = .error e → result.2 = before

/-- No call fails after the calls up to there, itself included where it was killed too late, have
changed a disk. -/
def HoldsBack (verb : Verb) (name : String) (host : Host) (vm : String) (before : Disks δ) : Prop :=
  ∀ images, admitted host vm name = .ok images → ∀ i < images.length, (∀ j < i, (host.reply j).Ok) →
    ¬ (host.reply i).Ok → applied effect verb name (images.take (i + (host.reply i).landed)) before = before

theorem admitted_eq_ok {host : Host} {vm name : String} {images : List String} (h : admitted host vm name = .ok images) :
    ∃ bundle, host.bundle = .ok bundle ∧ images = diskImagesForBundle bundle := by
  unfold admitted at h
  split at h
  · cases h
  · split at h
    · cases h
    · split at h
      · cases h
      · rename_i bundle hbundle
        split at h
        · cases h
        · cases h
          exact ⟨bundle, hbundle, rfl⟩

theorem operate_cases (verb : Verb) (host : Host) (vm name : String) (disks : Disks δ) :
    (∃ e, admitted host vm name = .error e ∧ operate effect verb host vm name disks = (.error e, disks)) ∨
    ∃ images, admitted host vm name = .ok images ∧
      (((∀ j < images.length, (host.reply j).Ok) ∧
        operate effect verb host vm name disks = (.ok ⟨name, images⟩, applied effect verb name images disks)) ∨
      ∃ i < images.length, (∀ j < i, (host.reply j).Ok) ∧ ¬ (host.reply i).Ok ∧ ∃ e,
        operate effect verb host vm name disks =
          (.error e, applied effect verb name (images.take (i + (host.reply i).landed)) disks)) := by
  rw [operate_eq]
  unfold snapshotOperation
  cases hadmitted : admitted host vm name with
  | error e => exact .inl ⟨e, rfl, rfl⟩
  | ok images =>
    refine .inr ⟨images, rfl, ?_⟩
    rcases all_ok_or_first host.reply images.length with hok | ⟨i, hi, hbefore, hfail⟩
    · left
      refine ⟨hok, ?_⟩
      have hcalls := @callEach_ok δ effect verb name host.reply images 0 disks (fun j hj => by simpa using hok j hj)
      simp only [hcalls]
    · right
      obtain ⟨e, hcalls⟩ := @callEach_failed δ effect verb name host.reply images 0 i disks hi
        (fun j hj => by simpa using hbefore j hj) (by simpa using hfail)
      refine ⟨i, hi, hbefore, hfail, e, ?_⟩
      rw [Nat.zero_add] at hcalls
      simp only [hcalls]

theorem allOrNothing_iff (verb : Verb) (host : Host) (vm name : String) (disks : Disks δ) :
    AllOrNothing effect verb name host disks (operate effect verb host vm name disks) ↔
      HoldsBack effect verb name host vm disks := by
  rcases operate_cases effect verb host vm name disks with
    ⟨e, hadmitted, hrun⟩ | ⟨images, hadmitted, ⟨hok, hrun⟩ | ⟨i, hi, hbefore, hfail, e, hrun⟩⟩
  · rw [hrun]
    refine iff_of_true ⟨(by rintro _ ⟨⟩), fun _ _ => rfl⟩ ?_
    intro images himages
    rw [hadmitted] at himages
    cases himages
  · obtain ⟨bundle, hbundle, himages⟩ := admitted_eq_ok hadmitted
    rw [hrun]
    refine iff_of_true ⟨?_, by rintro _ ⟨⟩⟩ ?_
    · rintro _ ⟨⟩
      refine ⟨bundle, hbundle, fun image => ?_, rfl⟩
      rw [himages]
      exact mem_diskImagesForBundle bundle image
    · intro images' himages' i hi _ hfail
      rw [hadmitted] at himages'
      cases himages'
      exact absurd (hok i hi) hfail
  · rw [hrun]
    constructor
    · intro h images' himages' i' hi' hbefore' hfail'
      rw [hadmitted] at himages'
      cases himages'
      obtain rfl : i' = i := by
        rcases Nat.lt_trichotomy i' i with hlt | rfl | hgt
        · exact absurd (hbefore i' hlt) hfail'
        · rfl
        · exact absurd (hbefore' i hgt) hfail
      exact h.nothing e rfl
    · intro h
      exact ⟨(by rintro _ ⟨⟩), fun _ _ => h images hadmitted i hi hbefore hfail⟩

/-! ### Sequences of operations -/

/-- One operation on a VM: what it meets apart from the VM's bundle, of which it may be told that it
is not found. -/
structure Request where
  verb : Verb
  vm : String
  name : String
  vms : Except String (List Vm)
  missing : Option String
  reply : Nat → Reply

def Request.host (bundle : Bundle) (r : Request) : Host where
  vms := r.vms
  bundle := match r.missing with
    | some reason => .error reason
    | none => .ok bundle
  reply := r.reply

def exec (bundle : Bundle) (disks : Disks δ) (r : Request) : Disks δ :=
  (operate effect r.verb (r.host bundle) r.vm r.name disks).2

def Kept (bundle : Bundle) (disks : Disks δ) (r : Request) : Prop :=
  HoldsBack effect r.verb r.name (r.host bundle) r.vm disks

/-- One history of operations that every disk of the VM has gone through, each time as often as the
configuration names the disk. -/
def InStep (bundle : Bundle) (before after : Disks δ) : Prop :=
  ∃ history : List (Verb × String), after = history.foldl
    (fun disks op => applied effect op.1 op.2 (diskImagesForBundle bundle) disks) before

theorem exec_kept {bundle : Bundle} {disks : Disks δ} {r : Request} (h : Kept effect bundle disks r) :
    exec effect bundle disks r = disks ∨
      exec effect bundle disks r = applied effect r.verb r.name (diskImagesForBundle bundle) disks := by
  unfold exec
  rcases operate_cases effect r.verb (r.host bundle) r.vm r.name disks with
    ⟨e, hadmitted, hrun⟩ | ⟨images, hadmitted, ⟨hok, hrun⟩ | ⟨i, hi, hbefore, hfail, e, hrun⟩⟩
  · exact .inl (by rw [hrun])
  · right
    obtain ⟨found, hfound, himages⟩ := admitted_eq_ok hadmitted
    have hbundle : found = bundle := by
      unfold Request.host at hfound
      cases hmissing : r.missing with
      | none => rw [hmissing] at hfound; exact (Except.ok.inj hfound).symm
      | some reason => rw [hmissing] at hfound; cases hfound
    rw [hrun, himages, hbundle]
  · left
    rw [hrun]
    exact h images hadmitted i hi hbefore hfail

theorem inStep_run {bundle : Bundle} {requests : List Request} {disks : Disks δ}
    (h : Replays (Kept effect bundle) (exec effect bundle) disks requests) :
    InStep effect bundle disks (requests.foldl (exec effect bundle) disks) := by
  induction requests generalizing disks with
  | nil => exact ⟨[], rfl⟩
  | cons r requests ih =>
    obtain ⟨history, hhistory⟩ := ih h.2
    rw [List.foldl_cons, hhistory]
    rcases exec_kept effect h.1 with hexec | hexec
    · exact ⟨history, by rw [hexec]⟩
    · exact ⟨(r.verb, r.name) :: history, by rw [hexec]; rfl⟩

/-- Whatever is seen of a disk, and follows from what was seen of it before: two disks named equally
often that looked alike still do. So no snapshot is there on one of them only, and neither is at
another point in time. -/
def StayAlike (bundle : Bundle) (before after : Disks δ) : Prop :=
  ∀ (α : Type) (view : δ → α) (act : Verb → String → α → α),
    (∀ verb name disk, view (effect verb name disk) = act verb name (view disk)) → ∀ one other,
      (diskImagesForBundle bundle).count one = (diskImagesForBundle bundle).count other →
        view (before one) = view (before other) → view (after one) = view (after other)

theorem InStep.alike {bundle : Bundle} {before after : Disks δ} (h : InStep effect bundle before after) :
    StayAlike effect bundle before after := by
  intro α view act hview one other hcount hbefore
  obtain ⟨history, rfl⟩ := h
  have hiterate : ∀ verb name n disk, view ((effect verb name)^[n] disk) = (act verb name)^[n] (view disk) := by
    intro verb name n disk
    exact Function.Semiconj.iterate_right (fun disk => hview verb name disk) n disk
  induction history generalizing before with
  | nil => exact hbefore
  | cons op history ih =>
    apply ih
    unfold applied
    rw [hiterate, hiterate, hcount, hbefore]

/-- An operation is all or nothing exactly where nothing was changed before a failure, and in a
sequence of such operations the disks of a VM stay in step in every state reached. -/
theorem snapshots_in_step :
    (∀ verb host vm name (disks : Disks δ), AllOrNothing effect verb name host disks (operate effect verb host vm name disks) ↔
      HoldsBack effect verb name host vm disks) ∧
    ∀ (bundle : Bundle) (before after : List Request) (disks : Disks δ),
      Replays (Kept effect bundle) (exec effect bundle) disks (before ++ after) →
        InStep effect bundle disks (before.foldl (exec effect bundle) disks) ∧
          StayAlike effect bundle disks (before.foldl (exec effect bundle) disks) := by
  refine ⟨allOrNothing_iff effect, ?_⟩
  intro bundle before after disks h
  have hstep := inStep_run effect (replays_append.mp h).1
  exact ⟨hstep, hstep.alike effect⟩

end

/-! ### A disk image -/

/-- A disk with its internal snapshots. -/
structure Qcow2 (κ : Type) where
  snapshots : List (String × κ)
  content : κ
deriving DecidableEq

/-- What `qemu-img snapshot` does to a disk where it succeeds. -/
def Qcow2.effect {κ : Type} (verb : Verb) (name : String) (disk : Qcow2 κ) : Qcow2 κ :=
  match verb with
  | .create => { disk with snapshots := disk.snapshots ++ [(name, disk.content)] }
  | .restore => { disk with content := (disk.snapshots.lookup name).getD disk.content }
  | .delete => { disk with snapshots := disk.snapshots.eraseP fun snapshot => snapshot.1 = name }

def twoDiskBundle : Bundle where
  drives := some [some ⟨some "Disk", false, some "a.qcow2"⟩, some ⟨some "Disk", false, some "b.qcow2"⟩]
  data := some ["a.qcow2", "b.qcow2"]

def twoDisks : Host where
  vms := .ok [⟨"u1", "build", "stopped"⟩]
  bundle := .ok twoDiskBundle
  reply := fun k => if k = 0 then .exited 0 "" else .exited 1 "No space left on device"

def createAndRestore : List Request :=
  [⟨.create, "build", "before-update", twoDisks.vms, none, fun _ => .exited 0 ""⟩,
    ⟨.restore, "build", "elsewhen", twoDisks.vms, none, fun _ => .exited 1 "Could not apply snapshot"⟩]

theorem createAndRestore_in_step :
    let after := createAndRestore.foldl (exec Qcow2.effect twoDiskBundle) fun _ => (⟨[], 0⟩ : Qcow2 Nat)
    InStep Qcow2.effect twoDiskBundle (fun _ => ⟨[], 0⟩) after ∧
      StayAlike Qcow2.effect twoDiskBundle (fun _ => ⟨[], 0⟩) after ∧
      after "a.qcow2" = ⟨[("before-update", 0)], 0⟩ ∧ after "b.qcow2" = ⟨[("before-update", 0)], 0⟩ := by
  have hkept : Replays (Kept Qcow2.effect twoDiskBundle) (exec Qcow2.effect twoDiskBundle)
      (fun _ => (⟨[], 0⟩ : Qcow2 Nat)) (createAndRestore ++ []) := by
    refine ⟨fun images _ i _ _ hfail => absurd ⟨"", rfl⟩ hfail, fun images _ i _ hbefore _ => ?_, trivial⟩
    cases i with
    | zero => rfl
    | succ i =>
      obtain ⟨stderr, hreply⟩ := hbefore 0 i.succ_pos
      cases hreply
  obtain ⟨hstep, halike⟩ := (snapshots_in_step Qcow2.effect).2 twoDiskBundle createAndRestore [] _ hkept
  exact ⟨hstep, halike, by decide +kernel, by decide +kernel⟩

theorem second_disk_left_out :
    ¬ AllOrNothing Qcow2.effect .create "before-update" twoDisks (fun _ => (⟨[], 0⟩ : Qcow2 Nat))
      (operate Qcow2.effect .create twoDisks "build" "before-update" fun _ => ⟨[], 0⟩) := by
  intro h
  have hnothing := h.nothing (.failed "b.qcow2" "No space left on device") (by rfl)
  have hdisk := congrFun hnothing "a.qcow2"
  revert hdisk
  decide +kernel

end ProxmoxVEAutopilot.Utm
