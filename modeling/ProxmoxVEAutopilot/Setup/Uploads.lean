import ProxmoxVEAutopilot.Foundation.Lists
import ProxmoxVEAutopilot.Foundation.Runs
import ProxmoxVEAutopilot.Setup.Artifacts

/-!
# Uploads

`upload_artifact` allocates a name and creates the file before its first await, writes a chunk
after each and registers the file after the last one. Between two awaits of a request no other
one moves.
-/

namespace ProxmoxVEAutopilot.Setup

open Foundation
set_option autoImplicit false

section Names

/-- `Path(text).name` -/
def pathName (text : String) : String :=
  String.ofList (((text.toList.splitOn '/').filter fun part => part ≠ [] && part ≠ ['.']).getLastD [])

def isStripped (c : Char) : Bool := c = '.' || c = '_'

/-- `strip("._")` -/
def stripDots (cs : List Char) : List Char := ((cs.dropWhile isStripped).reverse.dropWhile isStripped).reverse

/-- `_safe_name` under a notion of letters and digits. -/
def safeName (isalnum : Char → Bool) (value : String) : String :=
  let out := value.toList.filter fun c => isalnum c || c = '-' || c = '_' || c = '.'
  if stripDots out = [] then "artifact" else String.ofList (stripDots out)

/-- `target.stem` and `target.suffix` -/
def stemSuffix (name : List Char) : List Char × List Char :=
  let ending := (name.reverse.takeWhile (· ≠ '.')).reverse
  let stem := name.take (name.length - ending.length - 1)
  if ending = [] || stem = [] then (name, []) else (stem, '.' :: ending)

def numbered (name : String) (index : Nat) : String :=
  let (stem, suffix) := stemSuffix name.toList
  String.ofList (stem ++ '-' :: (toString index).toList ++ suffix)

def allowedKinds : List String :=
  ["agent-msi", "winpe-iso", "cloudosd-iso", "osdeploy-iso", "manifest", "wim", "log"]

def uploadKind (isalnum : Char → Bool) (kind : String) : String :=
  String.ofList ((lower (strip kind)).toList.filter fun c => isalnum c || c = '-' || c = '_' || c = '.')

end Names

section Server

/-- What the requests run on: `str.isalnum`, SHA-256, the paths that can be created and the agents
of the work items. -/
structure Server where
  root : String
  isalnum : Char → Bool
  digest : Bytes → String
  creatable : String → Bool
  workAgent : String → Option String

structure Request where
  agentId : String
  workItemId : String
  artifactKind : String
  /-- What `json.loads` makes of `metadata_json`, none where that is no object. -/
  metadata : Option (List (String × String))
  filename : Option String
  body : Bytes
  /-- The `uuid4` of the row, and the time of its registration. -/
  artifactId : String
  createdAt : String

inductive Phase where
  | waiting
  /-- The file is open, and this much is still to be read. -/
  | writing (path : String) (rest : Bytes)
  | accepted (row : Artifact)
  | refused

variable (server : Server)

def Server.registryPath : String := server.root ++ "/artifact_registry.json"

def Server.pathOf (kind name : String) : String := server.root ++ "/" ++ kind ++ "/" ++ name

/-- `safe_artifact_path`, none where it raises. -/
def safeArtifactPath (files : Files) (kind filename : String) : Option String :=
  let kind := safeName server.isalnum kind
  let name := safeName server.isalnum (pathName filename)
  ((server.pathOf kind name) :: (List.range' 1 9999).map fun index => server.pathOf kind (numbered name index)).find? fun path =>
    files path = none

/-- `validate_setup_cm_module_metadata`, none where it raises. -/
def validateSetupCmModuleMetadata (metadata : List (String × String)) (actualSha256 : String) : Option (List (String × String)) :=
  let sourceCommit := lower (strip ((metadata.lookup "source_commit").getD ""))
  let expectedSha256 := lower (strip ((metadata.lookup "sha256").getD ""))
  if sourceCommit.length = 40 ∧ sourceCommit.toList.all (fun c => c.isDigit || ('a' ≤ c && c ≤ 'f')) ∧
      expectedSha256 = lower actualSha256 then
    some [("sha256", lower actualSha256), ("source_commit", sourceCommit)]
  else none

/-- The row of `register_existing_artifact`, none where it raises. -/
def registerExistingArtifact (request : Request) (kind path : String) (file : Bytes) (metadata : List (String × String)) :
    Option Artifact :=
  let kind := safeName server.isalnum kind
  let sha256 := server.digest file
  let normalized := if kind = "setup-cm-module" then validateSetupCmModuleMetadata metadata sha256 else some metadata
  normalized.map fun metadata => {
    artifactId := request.artifactId
    kind := kind
    filename := pathName path
    path := path
    sizeBytes := file.length
    sha256 := sha256
    metadata := metadata
    producerAgentId := request.agentId
    workItemId := request.workItemId
    createdAt := request.createdAt }

end Server

section Moves

structure World (τ : Type) where
  files : Files
  registry : List Artifact := []
  phase : τ → Phase := fun _ => .waiting

inductive Turn (τ : Type) where
  /-- The request goes on to its next await, or ends. -/
  | go (t : τ)
  /-- The client is gone. -/
  | drop (t : τ)

variable {τ : Type} [DecidableEq τ] (server : Server) (requests : τ → Request)

def World.setPhase (w : World τ) (t : τ) (phase : Phase) : World τ := { w with phase := Function.update w.phase t phase }

def World.setFile (w : World τ) (path : String) (file : Bytes) : World τ :=
  { w with files := Function.update w.files path (some file) }

/-- The kind of an upload and the path that its file is created at, none where it is refused. -/
def start (files : Files) (request : Request) : Option String :=
  let kind := uploadKind server.isalnum request.artifactKind
  if kind ∈ allowedKinds ∧ server.workAgent request.workItemId = some request.agentId ∧ request.metadata ≠ none then
    let filename := pathName ((given request.filename).getD (kind ++ ".bin"))
    (safeArtifactPath server files kind filename).filter server.creatable
  else none

def chunkSize : Nat := 1024 * 1024

def execTurn (w : World τ) : Turn τ → World τ
  | .go t =>
    let request := requests t
    match w.phase t with
    | .waiting =>
      match start server w.files request with
      | none => w.setPhase t .refused
      | some path => (w.setFile path []).setPhase t (.writing path request.body)
    | .writing path rest =>
      let file := (w.files path).getD []
      if rest ≠ [] then
        (w.setFile path (file ++ rest.take chunkSize)).setPhase t (.writing path (rest.drop chunkSize))
      else
        let kind := uploadKind server.isalnum request.artifactKind
        match registerExistingArtifact server request kind path file (request.metadata.getD []) with
        | none => w.setPhase t .refused
        | some row => { w.setPhase t (.accepted row) with registry := w.registry ++ [row] }
    | _ => w
  | .drop t =>
    match w.phase t with
    | .accepted _ => w
    | _ => w.setPhase t .refused

end Moves

/-!
## What the registry says of the uploaded files

A path is free when it is allocated and taken from then on, so no two uploads write one file.
-/

section Names
variable {isalnum : Char → Bool}

/-- The name of a file in a directory. -/
structure Plain (name : String) : Prop where
  slash : '/' ∉ name.toList
  nonempty : name ≠ ""
  dot : name ≠ "."
  dotdot : name ≠ ".."

/-- `str.isalnum` does to ASCII what it is documented to do. -/
def AsciiAlnum (isalnum : Char → Bool) : Prop := ∀ c : Char, c.toNat < 128 → isalnum c = c.isAlphanum

theorem plain_of_head {name : String} (hslash : '/' ∉ name.toList) {c : Char} (hhead : name.toList.head? = some c)
    (hc : c ≠ '.') : Plain name where
  slash := hslash
  nonempty := by
    rintro rfl
    cases hhead
  dot := by
    rintro rfl
    exact hc (Option.some.inj hhead).symm
  dotdot := by
    rintro rfl
    exact hc (Option.some.inj hhead).symm

theorem stripDots_isPrefix (cs : List Char) : stripDots cs <+: cs.dropWhile isStripped := by
  unfold stripDots
  rw [← List.reverse_suffix, List.reverse_reverse]
  exact List.dropWhile_suffix _

theorem stripDots_head {cs : List Char} (h : stripDots cs ≠ []) : ∃ c, (stripDots cs).head? = some c ∧ isStripped c = false := by
  obtain ⟨c, hc⟩ := Option.ne_none_iff_exists'.mp (mt List.head?_eq_none_iff.mp h)
  refine ⟨c, hc, ?_⟩
  have hhead : (cs.dropWhile isStripped).head? = some c := by
    obtain ⟨rest, hrest⟩ := stripDots_isPrefix cs
    rw [← hrest, List.head?_append, hc, Option.some_or]
  have hnot := List.head?_dropWhile_not isStripped cs
  rw [hhead] at hnot
  exact hnot

theorem mem_stripDots {cs : List Char} {c : Char} (h : c ∈ stripDots cs) : c ∈ cs :=
  (List.dropWhile_suffix _).subset ((stripDots_isPrefix cs).subset h)

theorem safeName_plain (hascii : AsciiAlnum isalnum) (value : String) : Plain (safeName isalnum value) := by
  have hslash : isalnum '/' = false := hascii '/' (by decide)
  unfold safeName
  dsimp only
  split
  · exact ⟨by decide, by decide, by decide, by decide⟩
  · rename_i hne
    obtain ⟨c, hc, hstripped⟩ := stripDots_head hne
    refine plain_of_head (fun hmem => ?_) (by rwa [String.toList_ofList]) ?_
    · rw [String.toList_ofList] at hmem
      have hkept := (List.mem_filter.mp (mem_stripDots hmem)).2
      rw [hslash] at hkept
      exact absurd hkept (by decide)
    · rintro rfl
      exact absurd hstripped (by decide)

theorem stemSuffix_subset (name : List Char) : ∀ c ∈ (stemSuffix name).1 ++ (stemSuffix name).2, c = '.' ∨ c ∈ name := by
  intro c hc
  unfold stemSuffix at hc
  dsimp only at hc
  split at hc
  · rw [List.append_nil] at hc
    exact .inr hc
  · rcases List.mem_append.mp hc with hstem | hsuffix
    · exact .inr (List.mem_of_mem_take hstem)
    · rcases List.mem_cons.mp hsuffix with hdot | hending
      · exact .inl hdot
      · exact .inr (List.mem_reverse.mp ((List.takeWhile_prefix _).subset (List.mem_reverse.mp hending)))

theorem numbered_plain {name : String} (h : Plain name) (index : Nat) : Plain (numbered name index) := by
  have hchars : (numbered name index).toList =
      (stemSuffix name.toList).1 ++ '-' :: (toString index).toList ++ (stemSuffix name.toList).2 := String.toList_ofList
  have hdash : '-' ∈ (numbered name index).toList := by
    rw [hchars, List.append_assoc]
    exact List.mem_append_right _ List.mem_cons_self
  refine ⟨fun hslash => ?_, fun heq => ?_, fun heq => ?_, fun heq => ?_⟩
  · have hname : '/' ∉ (stemSuffix name.toList).1 ++ (stemSuffix name.toList).2 := fun hmem =>
      (stemSuffix_subset name.toList '/' hmem).elim (by decide) h.slash
    rw [hchars, List.append_assoc, List.cons_append, List.mem_append, List.mem_cons, List.mem_append] at hslash
    rcases hslash with hstem | hdash' | hdigits | hsuffix
    · exact hname (List.mem_append_left _ hstem)
    · exact absurd hdash' (by decide)
    · have hdigit := Nat.isDigit_of_mem_toDigits (b := 10) (by decide) (by decide) (Nat.toList_repr ▸ hdigits)
      exact absurd hdigit (by decide)
    · exact hname (List.mem_append_right _ hsuffix)
  all_goals
    rw [heq] at hdash
    exact absurd hdash (by decide)

theorem safeName_kind (hascii : AsciiAlnum isalnum) {kind : String} (h : kind ∈ allowedKinds) : safeName isalnum kind = kind := by
  have hletters : ∀ kind ∈ allowedKinds, (kind.toList.all fun c => c.toNat < 128 && (c.isAlphanum || c = '-')) = true ∧
      stripDots kind.toList = kind.toList ∧ kind.toList ≠ [] := by decide +kernel
  obtain ⟨hchars, hstripped, hne⟩ := hletters kind h
  have hfilter : (kind.toList.filter fun c => isalnum c || c = '-' || c = '_' || c = '.') = kind.toList := by
    refine List.filter_eq_self.mpr fun c hc => ?_
    obtain ⟨hlt, hletter⟩ := Bool.and_eq_true_iff.mp (List.all_eq_true.mp hchars c hc)
    rw [hascii c (of_decide_eq_true hlt), hletter, Bool.true_or, Bool.true_or]
  unfold safeName
  dsimp only
  rw [hfilter, hstripped, if_neg hne, String.ofList_toList]

end Names

section Paths
variable {server : Server}

/-- Directly inside the directory of an allowed kind. -/
def Server.Inside (server : Server) (path : String) : Prop :=
  ∃ kind ∈ allowedKinds, ∃ name, Plain name ∧ path = server.pathOf kind name

theorem not_registryPath {path : String} (h : server.Inside path) : path ≠ server.registryPath := by
  obtain ⟨kind, _, name, _, rfl⟩ := h
  intro heq
  have hchars := congrArg String.toList heq
  unfold Server.pathOf Server.registryPath at hchars
  rw [String.toList_append, String.toList_append, String.toList_append, String.toList_append, String.toList_append,
    List.append_assoc, List.append_assoc, List.append_assoc, List.append_cancel_left_eq] at hchars
  have htail : kind.toList ++ ('/' :: name.toList) = "artifact_registry.json".toList := List.cons.inj hchars |>.2
  have hslash : '/' ∈ "artifact_registry.json".toList := htail ▸ List.mem_append_right _ List.mem_cons_self
  exact absurd hslash (by decide)

variable {files : Files} {kind path : String}

theorem safeArtifactPath_some (hascii : AsciiAlnum server.isalnum) (hkind : kind ∈ allowedKinds) {filename : String}
    (h : safeArtifactPath server files kind filename = some path) : files path = none ∧ server.Inside path := by
  unfold safeArtifactPath at h
  dsimp only at h
  rw [safeName_kind hascii hkind] at h
  have hfree := List.find?_some h
  refine ⟨by simpa using hfree, kind, hkind, ?_⟩
  have hplain := safeName_plain hascii (pathName filename)
  rcases List.mem_cons.mp (List.mem_of_find?_eq_some h) with rfl | hnumbered
  · exact ⟨_, hplain, rfl⟩
  · obtain ⟨index, _, rfl⟩ := List.mem_map.mp hnumbered
    exact ⟨_, numbered_plain hplain index, rfl⟩

theorem start_some (hascii : AsciiAlnum server.isalnum) {request : Request} (h : start server files request = some path) :
    files path = none ∧ server.Inside path ∧ uploadKind server.isalnum request.artifactKind ∈ allowedKinds := by
  unfold start at h
  dsimp only at h
  split at h
  · rename_i hallowed
    obtain ⟨hfree, hinside⟩ := safeArtifactPath_some hascii hallowed.1 (Option.filter_eq_some_iff.mp h).1
    exact ⟨hfree, hinside, hallowed.1⟩
  · cases h

theorem registerExistingArtifact_some (hascii : AsciiAlnum server.isalnum) (hkind : kind ∈ allowedKinds) (request : Request)
    (path : String) (file : Bytes) (metadata : List (String × String)) :
    ∃ row, registerExistingArtifact server request kind path file metadata = some row ∧ row.path = path ∧
      row.sha256 = server.digest file ∧ row.sizeBytes = file.length := by
  have hother : ∀ kind ∈ allowedKinds, kind ≠ "setup-cm-module" := by decide
  unfold registerExistingArtifact
  dsimp only
  rw [safeName_kind hascii hkind, if_neg (hother kind hkind)]
  exact ⟨_, rfl, rfl, rfl, rfl⟩

end Paths

section Held
variable {τ : Type} [DecidableEq τ] {server : Server} {requests : τ → Request} {w : World τ} {t : τ}

def Phase.target : Phase → Option String
  | .writing path _ => some path
  | .accepted row => some row.path
  | _ => none

/-- The row describes what the request has sent. -/
structure Describes (server : Server) (request : Request) (files : Files) (row : Artifact) : Prop where
  inside : server.Inside row.path
  file : files row.path = some request.body
  sha256 : row.sha256 = server.digest request.body
  sizeBytes : row.sizeBytes = request.body.length

def Local (server : Server) (request : Request) (files : Files) (registry : List Artifact) : Phase → Prop
  | .writing path rest => server.Inside path ∧ uploadKind server.isalnum request.artifactKind ∈ allowedKinds ∧
      ∃ written, files path = some written ∧ written ++ rest = request.body
  | .accepted row => row ∈ registry ∧ Describes server request files row
  | _ => True

theorem local_frame {request : Request} {files files' : Files} {registry registry' : List Artifact} {phase : Phase}
    (h : Local server request files registry phase) (hfiles : ∀ path, phase.target = some path → files' path = files path)
    (hregistry : registry ⊆ registry') : Local server request files' registry' phase := by
  cases phase with
  | writing path rest =>
    obtain ⟨hinside, hkind, written, hwritten, hbody⟩ := h
    exact ⟨hinside, hkind, written, (hfiles path rfl).trans hwritten, hbody⟩
  | accepted row =>
    obtain ⟨hmem, hinside, hfile, hdigest, hsize⟩ := h
    exact ⟨hregistry hmem, hinside, (hfiles row.path rfl).trans hfile, hdigest, hsize⟩
  | waiting => trivial
  | refused => trivial

theorem local_target {request : Request} {files : Files} {registry : List Artifact} {phase : Phase} {path : String}
    (h : Local server request files registry phase) (htarget : phase.target = some path) : files path ≠ none := by
  cases phase with
  | writing other rest =>
    cases htarget
    obtain ⟨_, _, written, hwritten, _⟩ := h
    rw [hwritten]
    exact Option.some_ne_none _
  | accepted row =>
    cases htarget
    rw [h.2.file]
    exact Option.some_ne_none _
  | waiting => cases htarget
  | refused => cases htarget

structure Held (server : Server) (requests : τ → Request) (w : World τ) : Prop where
  requests : ∀ t, Local server (requests t) w.files w.registry (w.phase t)
  distinct : ∀ t u path, (w.phase t).target = some path → (w.phase u).target = some path → t = u
  rows : ∀ row ∈ w.registry, ∃ t, w.phase t = .accepted row
  paths : (w.registry.map Artifact.path).Nodup

/-- What a request does to the files and the registry keeps what the others rely on. -/
theorem Held.move (h : Held server requests w) {files : Files} {registry : List Artifact} {phase : Phase}
    (hlocal : Local server (requests t) files registry phase)
    (hframe : ∀ u path, u ≠ t → (w.phase u).target = some path → files path = w.files path)
    (hfresh : ∀ u path, u ≠ t → phase.target = some path → (w.phase u).target ≠ some path)
    (hgrows : w.registry ⊆ registry) (hrows : ∀ row ∈ registry, row ∈ w.registry ∨ phase = .accepted row)
    (hopen : ∀ row, w.phase t ≠ .accepted row) (hpaths : (registry.map Artifact.path).Nodup) :
    Held server requests ⟨files, registry, Function.update w.phase t phase⟩ where
  requests := by
    intro u
    dsimp only
    by_cases hu : u = t
    · subst hu
      rwa [Function.update_self]
    · rw [Function.update_of_ne hu]
      exact local_frame (h.requests u) (fun path => hframe u path hu) hgrows
  distinct := by
    intro u v path hu hv
    dsimp only at hu hv
    by_cases hut : u = t <;> by_cases hvt : v = t
    · exact hut.trans hvt.symm
    · subst hut
      rw [Function.update_self] at hu
      rw [Function.update_of_ne hvt] at hv
      exact absurd hv (hfresh v path hvt hu)
    · subst hvt
      rw [Function.update_self] at hv
      rw [Function.update_of_ne hut] at hu
      exact absurd hu (hfresh u path hut hv)
    · rw [Function.update_of_ne hut] at hu
      rw [Function.update_of_ne hvt] at hv
      exact h.distinct u v path hu hv
  rows := by
    intro row hrow
    rcases hrows row hrow with hold | hnew
    · obtain ⟨u, hu⟩ := h.rows row hold
      have hne : u ≠ t := by
        rintro rfl
        exact hopen row hu
      exact ⟨u, (Function.update_of_ne hne _ _).trans hu⟩
    · exact ⟨t, (Function.update_self _ _ _).trans hnew⟩
  paths := hpaths

theorem Held.refuse (h : Held server requests w) (hopen : ∀ row, w.phase t ≠ .accepted row) :
    Held server requests (w.setPhase t .refused) :=
  h.move trivial (fun _ _ _ _ => rfl) (fun _ _ _ htarget => nomatch htarget) (List.Subset.refl _)
    (fun _ hrow => .inl hrow) hopen h.paths

omit [DecidableEq τ] in
theorem Held.alone (h : Held server requests w) {u : τ} {path : String} (htarget : (w.phase t).target = some path)
    (hu : u ≠ t) : (w.phase u).target ≠ some path := fun hother => hu (h.distinct u t path hother htarget)

theorem Held.open (h : Held server requests w) {path : String} (hfree : w.files path = none) (hinside : server.Inside path)
    (hkind : uploadKind server.isalnum (requests t).artifactKind ∈ allowedKinds) (hopen : ∀ row, w.phase t ≠ .accepted row) :
    Held server requests ((w.setFile path []).setPhase t (.writing path (requests t).body)) := by
  refine h.move ⟨hinside, hkind, [], Function.update_self _ _ _, rfl⟩ (fun u other _ htarget => ?_)
    (fun u other _ htarget hother => ?_) (List.Subset.refl _) (fun _ hrow => .inl hrow) hopen h.paths
  · refine Function.update_of_ne ?_ _ _
    rintro rfl
    exact local_target (h.requests u) htarget hfree
  · cases htarget
    exact local_target (h.requests u) hother hfree

theorem Held.write (h : Held server requests w) {path : String} {rest : Bytes} (hphase : w.phase t = .writing path rest) (n : Nat) :
    Held server requests ((w.setFile path ((w.files path).getD [] ++ rest.take n)).setPhase t (.writing path (rest.drop n))) := by
  have hlocal := h.requests t
  have htarget : (w.phase t).target = some path := congrArg Phase.target hphase
  rw [hphase] at hlocal
  obtain ⟨hinside, hkind, written, hwritten, hbody⟩ := hlocal
  have hbody' : (written ++ rest.take n) ++ rest.drop n = (requests t).body := by
    rw [List.append_assoc, List.take_append_drop, hbody]
  rw [hwritten]
  refine h.move ⟨hinside, hkind, _, Function.update_self _ _ _, hbody'⟩ (fun u other hu hother => ?_)
    (fun u other hu hsame => ?_) (List.Subset.refl _) (fun _ hrow => .inl hrow) (fun row hrow => ?_) h.paths
  · refine Function.update_of_ne ?_ _ _
    rintro rfl
    exact h.alone htarget hu hother
  · cases hsame
    exact h.alone htarget hu
  · cases hphase.symm.trans hrow

theorem Held.register (h : Held server requests w) {path : String} (hphase : w.phase t = .writing path []) {row : Artifact}
    (hpath : row.path = path) (hdigest : row.sha256 = server.digest ((w.files path).getD []))
    (hsize : row.sizeBytes = ((w.files path).getD []).length) :
    Held server requests { w.setPhase t (.accepted row) with registry := w.registry ++ [row] } := by
  have hlocal := h.requests t
  have htarget : (w.phase t).target = some path := congrArg Phase.target hphase
  rw [hphase] at hlocal
  obtain ⟨hinside, hkind, written, hwritten, hbody⟩ := hlocal
  rw [List.append_nil] at hbody
  rw [hwritten, Option.getD_some, hbody] at hdigest hsize
  subst hpath
  refine h.move ⟨List.mem_append_right _ List.mem_cons_self, hinside, hwritten.trans (congrArg some hbody), hdigest, hsize⟩
    (fun _ _ _ _ => rfl) (fun u other hu hsame => ?_) (List.subset_append_left _ _) (fun other hother => ?_)
    (fun other hother => ?_) ?_
  · cases hsame
    exact h.alone htarget hu
  · rcases List.mem_append.mp hother with hold | hnew
    · exact .inl hold
    · exact .inr (congrArg Phase.accepted (List.mem_singleton.mp hnew).symm)
  · cases hphase.symm.trans hother
  · refine nodup_map_snoc h.paths fun other hother => ?_
    obtain ⟨u, hu⟩ := h.rows other hother
    intro heq
    have hsame : (w.phase u).target = some row.path := (congrArg Phase.target hu).trans (congrArg some heq)
    cases h.distinct u t row.path hsame htarget
    cases hphase.symm.trans hu

theorem held_execTurn (hascii : AsciiAlnum server.isalnum) (h : Held server requests w) (turn : Turn τ) :
    Held server requests (execTurn server requests w turn) := by
  unfold execTurn
  cases turn with
  | go t =>
    dsimp only
    split
    · rename_i hphase
      have hopen : ∀ row, w.phase t ≠ .accepted row := fun row hrow => by cases hphase.symm.trans hrow
      split
      · exact h.refuse hopen
      · rename_i path hstart
        obtain ⟨hfree, hinside, hkind⟩ := start_some hascii hstart
        exact h.open hfree hinside hkind hopen
    · rename_i path rest hphase
      split
      · exact h.write hphase chunkSize
      · rename_i hrest
        rw [not_not.mp hrest] at hphase
        have hlocal := h.requests t
        rw [hphase] at hlocal
        obtain ⟨row, hrow, hpath, hdigest, hsize⟩ := registerExistingArtifact_some hascii hlocal.2.1 (requests t) path
          ((w.files path).getD []) ((requests t).metadata.getD [])
        rw [hrow]
        exact h.register hphase hpath hdigest hsize
    · exact h
  | drop t =>
    dsimp only
    split
    · exact h
    · rename_i hphase
      exact h.refuse fun row hrow => hphase row hrow

end Held

section Registry
variable {τ : Type} [DecidableEq τ] {server : Server}

/-- Every accepted upload has its own row, and every row describes the file of its upload. -/
structure Described (server : Server) (requests : τ → Request) (w : World τ) : Prop where
  registered : ∀ t row, w.phase t = .accepted row → row ∈ w.registry
  own : ∀ t u row, w.phase t = .accepted row → w.phase u = .accepted row → t = u
  paths : (w.registry.map Artifact.path).Nodup
  rows : ∀ row ∈ w.registry, row.path ≠ server.registryPath ∧
    ∃ t, w.phase t = .accepted row ∧ Describes server (requests t) w.files row

omit [DecidableEq τ] in
theorem Held.described {requests : τ → Request} {w : World τ} (h : Held server requests w) : Described server requests w where
  registered := by
    intro t row hrow
    have hlocal := h.requests t
    rw [hrow] at hlocal
    exact hlocal.1
  own := fun t u row ht hu => h.distinct t u row.path (congrArg Phase.target ht) (congrArg Phase.target hu)
  paths := h.paths
  rows := by
    intro row hrow
    obtain ⟨t, ht⟩ := h.rows row hrow
    have hlocal := h.requests t
    rw [ht] at hlocal
    exact ⟨not_registryPath hlocal.2.inside, t, ht, hlocal.2⟩

theorem registry_described (hascii : AsciiAlnum server.isalnum) (requests : τ → Request) (files : Files) (turns : List (Turn τ)) :
    Described server requests (turns.foldl (execTurn server requests) ⟨files, [], fun _ => .waiting⟩) := by
  have hstart : Held server requests ⟨files, [], fun _ => .waiting⟩ :=
    ⟨fun _ => trivial, fun _ _ _ h => (nomatch h), fun _ h => (nomatch h), List.nodup_nil⟩
  exact (List.foldlRecOn turns _ hstart fun _ h turn _ => held_execTurn hascii h turn).described

def uploadServer : Server := ⟨"/data", Char.isAlphanum, fun file => toString file.length, fun _ => true, fun _ => some "build-host"⟩

def logRequests (second : Bool) : Request where
  agentId := "build-host"
  workItemId := "build"
  artifactKind := " LOG "
  metadata := some []
  filename := some "../logs/build.tar.gz"
  body := if second then [2, 2] else [1]
  artifactId := if second then "2" else "1"
  createdAt := "2026-08-09T00:00:00"

def logTurns : List (Turn Bool) := [.go false, .go true, .go true, .go false, .go false, .go true]

theorem equal_names_described :
    Described uploadServer logRequests (logTurns.foldl (execTurn uploadServer logRequests) ⟨fun _ => none, [], fun _ => .waiting⟩) ∧
    (logTurns.foldl (execTurn uploadServer logRequests) ⟨fun _ => none, [], fun _ => .waiting⟩).registry.map Artifact.path =
      ["/data/log/build.tar.gz", "/data/log/build.tar-1.gz"] :=
  ⟨registry_described (fun _ _ => rfl) logRequests (fun _ => none) logTurns, by decide +kernel⟩

end Registry

end ProxmoxVEAutopilot.Setup
