import ProxmoxVEAutopilot.Foundation.Text

/-!
# The file shelf

The names under which files are kept, the containment check of their paths, and the write of
an upload through a temporary file beside its destination.
-/

namespace ProxmoxVEAutopilot.Shelf

open Foundation
set_option autoImplicit false

/-! ### Names and paths -/

/-- The characters of the class `\w`; a slash is none of them. -/
structure WordClass where
  word : Char → Bool
  slash : word '/' = false

def slashed (c : Char) : Char := if c = '\\' then '/' else c

def lastSegment (filename : List Char) : List Char := (filename.map slashed).rtakeWhile (· ≠ '/')

def safeFileShelfName (py : WordClass) (filename : Option String) : List Char :=
  let rawName := (strip (String.ofList (lastSegment (filename.getD "").toList))).toList
  let safeName := rawName.map fun c => if py.word c || c = '-' || c = '.' then c else '_'
  safeName.dropWhile (· = '.')

/-- One component of a path walked from a directory without symbolic links. -/
def walk (directory : List (List Char)) (component : List Char) : List (List Char) :=
  if component = [] ∨ component = ['.'] then directory
  else if component = ['.', '.'] then directory.dropLast
  else directory ++ [component]

/-- `(base_dir / filename).resolve()` -/
def resolve (base : List (List Char)) (filename : List Char) : List (List Char) :=
  (filename.splitOn '/').foldl walk (if filename.head? = some '/' then [] else base)

def safePath (base : List (List Char)) (filename : List Char) : Except String (List (List Char)) :=
  if base.isPrefixOf (resolve base filename) then .ok (resolve base filename)
  else .error s!"Path traversal blocked: {String.ofList filename}"

/-- The name of the temporary file of an upload; `hex` is a fresh `uuid4().hex`. -/
def tmpName (name hex : List Char) : List Char := '.' :: name ++ '.' :: hex ++ ".upload".toList

/-! ### The write -/

abbrev Bytes := List UInt8

/-- What the shelf holds, by name. -/
abbrev Files := List Char → Option Bytes

def Files.set (files : Files) (name : List Char) (content : Option Bytes) : Files :=
  Function.update files name content

/-- One read of the upload: a chunk, empty at the end of the stream, with whether the disk takes it;
a read that raises; or the request task cancelled while it waits. -/
inductive Read where
  | chunk (bytes : Bytes) (written : Bool)
  | error
  | cancelled
deriving DecidableEq

/-- Whether the file operations around the loop succeed. -/
structure Disk where
  opens : Bool
  closes : Bool
  replaces : Bool

inductive Failure where
  | tooLarge (filename : List Char) (maxBytes : Nat)
  | os
  | read
deriving DecidableEq

inductive Copied where
  | done (content : Bytes)
  | raised (failure : Failure) (content : Bytes)
  | cancelled (content : Bytes)
deriving DecidableEq

/-- The loop; `content` is what the temporary file holds. A stream given no further is at its end. -/
def copy (maxBytes : Nat) (displayName : List Char) : Bytes → List Read → Copied
  | content, [] => .done content
  | content, .error :: _ => .raised .read content
  | content, .cancelled :: _ => .cancelled content
  | content, .chunk bytes written :: rest =>
    if bytes = [] then .done content
    else if maxBytes < content.length + bytes.length then .raised (.tooLarge displayName maxBytes) content
    else if written then copy maxBytes displayName (content ++ bytes) rest
    else .raised .os content

inductive Outcome where
  | returned (total : Nat)
  | raised (failure : Failure)
  | cancelled
deriving DecidableEq

/-- `_write_file_shelf_upload`. The handler takes an `Exception`, which a cancellation is not; a
failing close puts an `OSError` in its place. -/
def writeFileShelfUpload (maxBytes : Nat) (disk : Disk) (displayName dest tmp : List Char) (reads : List Read)
    (files : Files) : Outcome × Files :=
  if !disk.opens then (.raised .os, files)
  else
    let copied := copy maxBytes displayName [] reads
    let discarded := files.set tmp none
    if !disk.closes then (.raised .os, discarded)
    else
      match copied with
      | .cancelled content => (.cancelled, files.set tmp (some content))
      | .raised failure _ => (.raised failure, discarded)
      | .done content =>
        if content = [] then (.returned 0, discarded)
        else if disk.replaces then (.returned content.length, discarded.set dest (some content))
        else (.raised .os, discarded)

/-!
## Uploads are all or nothing

An upload replaces its destination by the whole stream or leaves it, and its temporary file
goes with every exception; a cancellation is none, so the file it interrupts stays behind.
-/

/-! ### Names -/

theorem head_dropWhile {p : Char → Bool} {l : List Char} {c : Char} (h : (l.dropWhile p).head? = some c) :
    p c = false := by
  have hnot := List.head?_dropWhile_not p l
  rw [h] at hnot
  simpa using hnot

section

variable (py : WordClass) (filename : Option String)

theorem slash_notMem_safeName : '/' ∉ safeFileShelfName py filename := by
  intro h
  obtain ⟨c, -, hc⟩ := List.mem_map.mp ((List.dropWhile_sublist _).subset h)
  split at hc
  · rename_i hkept
    subst hc
    simp [py.slash] at hkept
  · revert hc
    decide

theorem safeName_head : (safeFileShelfName py filename).head? ≠ some '.' := by
  intro h
  have hkept := head_dropWhile h
  simp at hkept

theorem safePath_name {base : List (List Char)} {name : List Char} (hslash : '/' ∉ name)
    (hdot : name.head? ≠ some '.') (hname : name ≠ []) : safePath base name = .ok (base ++ [name]) := by
  have hhead : name.head? ≠ some '/' := fun h => hslash (List.mem_of_head? h)
  have hsplit : name.splitOn '/' = [name] := by
    apply List.splitOnP_eq_singleton
    intro c hc
    apply beq_eq_false_iff_ne.mpr
    rintro rfl
    exact hslash hc
  have hresolve : resolve base name = base ++ [name] := by
    unfold resolve
    rw [hsplit, if_neg hhead]
    have hone : ¬ (name = [] ∨ name = ['.']) := by
      rintro (h | rfl)
      · exact hname h
      · exact hdot rfl
    have htwo : name ≠ ['.', '.'] := by
      rintro rfl
      exact hdot rfl
    rw [List.foldl_cons, List.foldl_nil, walk, if_neg hone, if_neg htwo]
  unfold safePath
  rw [hresolve, if_pos (List.isPrefixOf_iff_prefix.mpr (List.prefix_append _ _))]

end

/-! ### The write -/

/-- The bytes of a stream up to its end or its first interruption. -/
def streamed : List Read → Bytes
  | .chunk bytes _ :: rest => if bytes = [] then [] else bytes ++ streamed rest
  | _ => []

/-- The request is cancelled at a read that the loop comes to: after chunks that were all written
and are together within the limit. -/
def CancelledMidway (maxBytes : Nat) (reads : List Read) : Prop :=
  ∃ (chunks : List Bytes) (rest : List Read), reads = chunks.map (.chunk · true) ++ .cancelled :: rest ∧
    (∀ chunk ∈ chunks, chunk ≠ []) ∧ chunks.flatten.length ≤ maxBytes

/-- What is asked of a write of `reads` to `dest` through `tmp`. -/
structure AllOrNothing (maxBytes : Nat) (reads : List Read) (dest tmp : List Char) (before : Files)
    (result : Outcome × Files) : Prop where
  whole : ∀ n, result.1 = .returned n → 0 < n → n ≤ maxBytes ∧ (streamed reads).length = n ∧
    result.2 dest = some (streamed reads)
  kept : (∀ n, result.1 = .returned n → n = 0) → result.2 dest = before dest
  clean : result.2 tmp = none
  others : ∀ name, name ≠ dest → name ≠ tmp → result.2 name = before name

section

variable {maxBytes : Nat} {displayName : List Char}

theorem copy_done {content copied : Bytes} {reads : List Read}
    (h : copy maxBytes displayName content reads = .done copied) :
    copied = content ++ streamed reads ∧ (content.length ≤ maxBytes → copied.length ≤ maxBytes) := by
  induction reads generalizing content with
  | nil =>
    cases h
    exact ⟨by simp [streamed], id⟩
  | cons read rest ih =>
    cases read with
    | error => cases h
    | cancelled => cases h
    | chunk bytes written =>
      unfold copy at h
      unfold streamed
      split at h
      · rename_i hempty
        cases h
        exact ⟨by simp [hempty], id⟩
      · rename_i hempty
        rw [if_neg hempty]
        split at h
        · cases h
        · rename_i hroom
          split at h
          · obtain ⟨heq, hle⟩ := ih h
            refine ⟨by rw [heq, List.append_assoc], fun _ => hle ?_⟩
            rw [List.length_append]
            omega
          · cases h

theorem copy_cancelled_iff {content : Bytes} {reads : List Read} (hcontent : content.length ≤ maxBytes) :
    (∃ copied, copy maxBytes displayName content reads = .cancelled copied) ↔
      ∃ (chunks : List Bytes) (rest : List Read), reads = chunks.map (.chunk · true) ++ .cancelled :: rest ∧
        (∀ chunk ∈ chunks, chunk ≠ []) ∧ content.length + chunks.flatten.length ≤ maxBytes := by
  induction reads generalizing content with
  | nil =>
    refine iff_of_false (by simp [copy]) ?_
    rintro ⟨chunks, rest, hreads, -⟩
    simp at hreads
  | cons read reads ih =>
    cases read with
    | error =>
      refine iff_of_false (by simp [copy]) ?_
      rintro ⟨chunks, rest, hreads, -⟩
      cases chunks <;> simp at hreads
    | cancelled =>
      refine iff_of_true ⟨content, rfl⟩ ⟨[], reads, rfl, by simp, by simpa using hcontent⟩
    | chunk bytes written =>
      unfold copy
      by_cases hempty : bytes = []
      · rw [if_pos hempty]
        refine iff_of_false (by simp) ?_
        rintro ⟨chunks, rest, hreads, hchunks, -⟩
        cases chunks with
        | nil => simp at hreads
        | cons chunk chunks =>
          have heq : bytes = chunk := (Read.chunk.inj (List.cons.inj hreads).1).1
          exact hchunks chunk (by simp) (heq ▸ hempty)
      rw [if_neg hempty]
      by_cases hroom : maxBytes < content.length + bytes.length
      · rw [if_pos hroom]
        refine iff_of_false (by simp) ?_
        rintro ⟨chunks, rest, hreads, -, hlength⟩
        cases chunks with
        | nil => simp at hreads
        | cons chunk chunks =>
          have heq : bytes = chunk := (Read.chunk.inj (List.cons.inj hreads).1).1
          subst heq
          rw [List.flatten_cons, List.length_append] at hlength
          omega
      rw [if_neg hroom]
      cases written with
      | false =>
        refine iff_of_false (by simp) ?_
        rintro ⟨chunks, rest, hreads, -⟩
        cases chunks <;> simp at hreads
      | true =>
        rw [if_pos rfl, ih (by rw [List.length_append]; omega)]
        constructor
        · rintro ⟨chunks, rest, rfl, hchunks, hlength⟩
          refine ⟨bytes :: chunks, rest, rfl, ?_, ?_⟩
          · rintro chunk hmem
            rcases List.mem_cons.mp hmem with rfl | hmem
            · exact hempty
            · exact hchunks chunk hmem
          · rw [List.flatten_cons, List.length_append]
            rw [List.length_append] at hlength
            omega
        · rintro ⟨chunks, rest, hreads, hchunks, hlength⟩
          cases chunks with
          | nil => simp at hreads
          | cons chunk chunks =>
            obtain ⟨heq, htail⟩ := List.cons.inj hreads
            obtain rfl : bytes = chunk := by simpa using heq
            refine ⟨chunks, rest, htail, fun c hc => hchunks c (List.mem_cons_of_mem _ hc), ?_⟩
            rw [List.flatten_cons, List.length_append] at hlength
            rw [List.length_append]
            omega

theorem tmpName_ne (dest hex : List Char) : tmpName dest hex ≠ dest := by
  intro h
  have hlength := congrArg List.length h
  simp [tmpName] at hlength
  omega

variable {disk : Disk} {dest hex : List Char} {reads : List Read} {files : Files}

theorem set_none_of_fresh {tmp : List Char} (hfresh : files tmp = none) : files.set tmp none = files := by
  unfold Files.set
  rw [← hfresh, Function.update_eq_self]

theorem unchanged_allOrNothing {outcome : Outcome} {tmp : List Char} (hfresh : files tmp = none)
    (hout : ∀ n, outcome = .returned n → n = 0) : AllOrNothing maxBytes reads dest tmp files (outcome, files) where
  whole n hn hpos := absurd (hout n hn) (by omega)
  kept _ := rfl
  clean := hfresh
  others _ _ _ := rfl

theorem write_allOrNothing_iff (hfresh : files (tmpName dest hex) = none) :
    AllOrNothing maxBytes reads dest (tmpName dest hex) files
        (writeFileShelfUpload maxBytes disk displayName dest (tmpName dest hex) reads files) ↔
      ¬ (disk.opens ∧ disk.closes ∧ CancelledMidway maxBytes reads) := by
  have hcancel : (∃ copied, copy maxBytes displayName [] reads = .cancelled copied) ↔ CancelledMidway maxBytes reads := by
    rw [copy_cancelled_iff (Nat.zero_le _)]
    simp [CancelledMidway]
  unfold writeFileShelfUpload
  rw [set_none_of_fresh hfresh]
  cases hopens : disk.opens with
  | false => exact iff_of_true (unchanged_allOrNothing hfresh (by simp)) (by simp)
  | true =>
    cases hcloses : disk.closes with
    | false => exact iff_of_true (unchanged_allOrNothing hfresh (by simp)) (by simp)
    | true =>
      simp only [Bool.not_true, Bool.false_eq_true, if_false, true_and]
      cases hcopy : copy maxBytes displayName [] reads with
      | cancelled content =>
        refine iff_of_false (fun h => ?_) (not_not.mpr (hcancel.mp ⟨content, hcopy⟩))
        have hclean := h.clean
        simp [Files.set] at hclean
      | raised failure content =>
        refine iff_of_true (unchanged_allOrNothing hfresh (by simp)) ?_
        rw [← hcancel, hcopy]
        simp
      | done content =>
        have hnot : ¬ CancelledMidway maxBytes reads := by
          rw [← hcancel, hcopy]
          simp
        obtain ⟨rfl, hlength⟩ := copy_done hcopy
        rw [List.nil_append] at hlength ⊢
        refine iff_of_true ?_ hnot
        dsimp only
        by_cases hempty : streamed reads = []
        · rw [if_pos hempty]
          exact unchanged_allOrNothing hfresh (by rintro n ⟨⟩; rfl)
        rw [if_neg hempty]
        cases disk.replaces with
        | false => exact unchanged_allOrNothing hfresh (by simp)
        | true =>
          refine ⟨?_, ?_, ?_, ?_⟩
          · rintro n ⟨⟩ -
            exact ⟨hlength (Nat.zero_le _), rfl, by simp [Files.set]⟩
          · intro hzero
            exact absurd (List.length_eq_zero_iff.mp (hzero _ rfl)) hempty
          · simpa [Files.set, tmpName_ne] using hfresh
          · intro name hname _
            simp [Files.set, hname]

end

/-- Uploads are all or nothing exactly where they are not cancelled midway, and every name the
sanitizer lets through is a file directly in the shelf and no temporary file. -/
theorem uploads_iff (py : WordClass) (maxBytes : Nat) (disk : Disk) (displayName dest hex : List Char)
    (reads : List Read) (files : Files) (hfresh : files (tmpName dest hex) = none) :
    (AllOrNothing maxBytes reads dest (tmpName dest hex) files
        (writeFileShelfUpload maxBytes disk displayName dest (tmpName dest hex) reads files) ↔
      ¬ (disk.opens ∧ disk.closes ∧ CancelledMidway maxBytes reads)) ∧
      ∀ (base : List (List Char)) (filename : Option String), safeFileShelfName py filename ≠ [] →
        safePath base (safeFileShelfName py filename) = .ok (base ++ [safeFileShelfName py filename]) ∧
          (safeFileShelfName py filename).head? ≠ some '.' ∧
            ∀ other hex', safeFileShelfName py filename ≠ tmpName other hex' := by
  refine ⟨write_allOrNothing_iff hfresh, fun base filename hname => ?_⟩
  have hdot := safeName_head py filename
  refine ⟨safePath_name (slash_notMem_safeName py filename) hdot hname, hdot, ?_⟩
  intro other hex' heq
  rw [heq] at hdot
  exact hdot rfl

def asciiWords : WordClass := ⟨fun c => c.isAlphanum || c = '_', by decide⟩

theorem two_chunks_stored :
    (AllOrNothing 8 [.chunk [1, 2] true, .chunk [3] true] "tool".toList (tmpName "tool".toList "ab".toList) (fun _ => none)
        (writeFileShelfUpload 8 ⟨true, true, true⟩ "tool".toList "tool".toList (tmpName "tool".toList "ab".toList)
          [.chunk [1, 2] true, .chunk [3] true] (fun _ => none)) ↔
      ¬ ((true = true) ∧ (true = true) ∧ CancelledMidway 8 [.chunk [1, 2] true, .chunk [3] true])) ∧
      ∀ (base : List (List Char)) (filename : Option String), safeFileShelfName asciiWords filename ≠ [] →
        safePath base (safeFileShelfName asciiWords filename) = .ok (base ++ [safeFileShelfName asciiWords filename]) ∧
          (safeFileShelfName asciiWords filename).head? ≠ some '.' ∧
            ∀ other hex', safeFileShelfName asciiWords filename ≠ tmpName other hex' :=
  uploads_iff asciiWords 8 ⟨true, true, true⟩ "tool".toList "tool".toList "ab".toList
    [.chunk [1, 2] true, .chunk [3] true] (fun _ => none) rfl

/-- The client goes away after the first chunk. -/
theorem cancelled_upload_leaves_file :
    ¬ AllOrNothing 8 [.chunk [1, 2] true, .cancelled] "tool".toList (tmpName "tool".toList "ab".toList) (fun _ => none)
      (writeFileShelfUpload 8 ⟨true, true, true⟩ "tool".toList "tool".toList (tmpName "tool".toList "ab".toList)
        [.chunk [1, 2] true, .cancelled] (fun _ => none)) := by
  intro h
  have hclean := h.clean
  revert hclean
  decide +kernel

end ProxmoxVEAutopilot.Shelf
