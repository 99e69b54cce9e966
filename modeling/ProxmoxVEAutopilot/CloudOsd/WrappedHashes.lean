import ProxmoxVEAutopilot.CloudOsd.HashCapture

/-!
# A wrapped hash line

However the host breaks the line of the hash and whatever blanks it adds, the reader puts the
hash together again, unless a piece behind the first opens with a marker.
-/

namespace ProxmoxVEAutopilot.CloudOsd

open Foundation TsEngine
set_option autoImplicit false

/-- A guest's output: the line of the serial and the broken line of the hash. -/
structure Capture where
  lead : List Char := []
  serial : List Char
  gap : List Char := ['\n']
  /-- The pieces of the line of the hash, each with what stands behind it. -/
  lines : List (List Char × List Char)
  body : List Char
  pads : Nat
  lead_blank : ∀ c ∈ lead, isSpace c = true
  serial_given : serial ≠ []
  serial_stripped : trimmed isSpace serial = serial
  serial_line : ∀ c ∈ serial, isLineBreak c = false
  gap_blank : ∀ c ∈ gap, isSpace c = true
  gap_break : ∃ c ∈ gap, isLineBreak c = true
  lines_blank : ∀ line ∈ lines, ∀ c ∈ line.2, isSpace c = true
  lines_break : ∀ line ∈ lines.dropLast, ∃ c ∈ line.2, isLineBreak c = true
  pieces : (lines.map Prod.fst).flatten = hashMarker ++ (body ++ List.replicate pads '=')
  six : ∀ line ∈ lines.dropLast, 6 ≤ line.1.length
  letters : ∀ c ∈ body, c ∈ standardLetters
  pads_le : pads ≤ 2
  quads : (body.length + pads) % 4 = 0

namespace Capture

def hash (c : Capture) : List Char := c.body ++ List.replicate c.pads '='

def text (c : Capture) : List Char :=
  c.lead ++ (serialMarker ++ c.serial ++ (c.gap ++ c.lines.flatMap fun line => line.1 ++ line.2))

def result (c : Capture) : ExecResult where
  exitcode := some 0
  outData := String.ofList c.text

/-- The reader gives the serial and the hash, and no other hash is persisted. -/
def Survives (c : Capture) : Prop :=
  parseHashOutput c.result = (String.ofList c.serial, String.ofList c.hash) ∧
    ∀ now candidate answers outcome, answers.guestExec = .ok c.result →
      executeHashCaptureForRun now candidate answers = .ok outcome →
        ∀ row ∈ outcome.persisted, row.hardwareHash = String.ofList c.hash

def Marked (piece : List Char) : Prop := serialMarker <+: piece ∨ hashMarker <+: piece

instance (piece : List Char) : Decidable (Marked piece) :=
  inferInstanceAs (Decidable (serialMarker <+: piece ∨ hashMarker <+: piece))

/-- No piece behind the first opens with a marker. -/
def Unmarked (c : Capture) : Prop := ∀ line ∈ c.lines.tail, ¬ Marked line.1

end Capture

namespace HashReading
variable {r : HashReading} {line : List Char} {pieces lines : List (List Char)}

theorem take_nil (r : HashReading) : r.take [] = r := by
  have hserial : ¬ serialMarker <+: [] := by decide
  have hhash : ¬ hashMarker <+: [] := by decide
  unfold take
  rw [if_neg hserial, if_neg hhash, if_neg (fun h => h.2 rfl)]

theorem foldl_filled (lines : List (List Char)) (r : HashReading) :
    (filled lines).foldl take r = lines.foldl (fun r rawLine => r.take (trimmed isSpace rawLine)) r := by
  induction lines generalizing r with
  | nil => rfl
  | cons line lines ih =>
    rw [filled_cons, List.foldl_append, ih, List.foldl_cons]
    refine congrArg (List.foldl _ · lines) ?_
    unfold filled
    rw [List.map_singleton, List.filter_singleton]
    by_cases hline : trimmed isSpace line = []
    · rw [hline, take_nil]
      rfl
    · have hkept : decide (trimmed isSpace line ≠ []) = true := decide_eq_true hline
      rw [hkept]
      rfl

theorem take_unmarked (hline : ¬ Capture.Marked line) (hin : r.inHash = true) :
    (r.take line).hash = r.hash ++ line ∧ (r.take line).serial = r.serial ∧ (r.take line).inHash = true := by
  obtain ⟨hserial, hhash⟩ := not_or.mp hline
  by_cases hnil : line = []
  · rw [hnil, take_nil, List.append_nil]
    exact ⟨rfl, rfl, hin⟩
  · have htake : r.take line = { r with hashParts := r.hashParts ++ [line] } := by
      unfold take
      rw [if_neg hserial, if_neg hhash, if_pos ⟨hin, hnil⟩]
    rw [htake]
    exact ⟨List.flatten_concat, rfl, hin⟩

theorem foldl_unmarked (h : ∀ piece ∈ pieces, ¬ Capture.Marked piece) (hin : r.inHash = true) :
    (pieces.foldl take r).hash = r.hash ++ pieces.flatten ∧ (pieces.foldl take r).serial = r.serial := by
  induction pieces generalizing r with
  | nil => exact ⟨(List.append_nil _).symm, rfl⟩
  | cons piece pieces ih =>
    obtain ⟨hhash, hserial, hin'⟩ := take_unmarked (h piece (List.mem_cons_self ..)) hin
    obtain ⟨hrest, hserial'⟩ := ih (fun p hp => h p (List.mem_cons_of_mem _ hp)) hin'
    rw [List.foldl_cons, hrest, hserial', hhash, hserial, List.flatten_cons, List.append_assoc]
    exact ⟨rfl, rfl⟩

theorem length_trimmed_le (l : List Char) : (trimmed isSpace l).length ≤ l.length :=
  (trimmed_isPrefix isSpace l).length_le.trans (List.dropWhile_suffix _).length_le

theorem length_take (r : HashReading) (line : List Char) :
    (r.take line).hash.length ≤ r.hash.length + line.length ∧
      (Capture.Marked line → (r.take line).hash.length < r.hash.length + line.length) := by
  unfold take
  split
  · rename_i hserial
    have hlength : serialMarker.length ≤ line.length := hserial.length_le
    have hmarker : serialMarker.length = 7 := rfl
    change r.hash.length ≤ _ ∧ (_ → r.hash.length < _)
    omega
  split
  · rename_i _ hhash
    have hlength : hashMarker.length ≤ line.length := hhash.length_le
    have hmarker : hashMarker.length = 5 := rfl
    have hrest := length_trimmed_le (line.drop hashMarker.length)
    rw [List.length_drop] at hrest
    have hparts : (HashReading.hash { r with hashParts := [trimmed isSpace (line.drop hashMarker.length)], inHash := true }) =
        trimmed isSpace (line.drop hashMarker.length) := List.append_nil _
    rw [hparts]
    omega
  rename_i hserial hhash
  have hnot : ¬ Capture.Marked line := fun h => h.elim hserial hhash
  split
  · have hparts : (HashReading.hash { r with hashParts := r.hashParts ++ [line] }) = r.hash ++ line := List.flatten_concat
    rw [hparts, List.length_append]
    exact ⟨le_rfl, fun h => absurd h hnot⟩
  · exact ⟨Nat.le_add_right _ _, fun h => absurd h hnot⟩

theorem length_foldl (pieces : List (List Char)) (r : HashReading) :
    (pieces.foldl take r).hash.length ≤ r.hash.length + pieces.flatten.length ∧
      ((∃ piece ∈ pieces, Capture.Marked piece) →
        (pieces.foldl take r).hash.length < r.hash.length + pieces.flatten.length) := by
  induction pieces generalizing r with
  | nil => exact ⟨le_rfl, fun ⟨_, h, _⟩ => absurd h List.not_mem_nil⟩
  | cons piece pieces ih =>
    obtain ⟨hstep, hmarked⟩ := length_take r piece
    obtain ⟨hrun, hrest⟩ := ih (r.take piece)
    rw [List.foldl_cons, List.flatten_cons, List.length_append]
    refine ⟨by omega, ?_⟩
    rintro ⟨p, hp, hmark⟩
    rcases List.mem_cons.mp hp with rfl | hp
    · have := hmarked hmark
      omega
    · have := hrest ⟨p, hp, hmark⟩
      omega

end HashReading

namespace Capture
variable (c : Capture)

theorem hash_filled : ∀ d ∈ hashMarker ++ c.hash, isSpace d = false := by
  intro d hd
  have hletters : (standardLetters.all fun c => !isSpace c) = true := by decide +kernel
  have hmarker : (hashMarker.all fun c => !isSpace c) = true := by decide +kernel
  rcases List.mem_append.mp hd with hd | hd
  · exact (Bool.not_eq_true' _).mp (List.all_eq_true.mp hmarker d hd)
  rcases List.mem_append.mp hd with hd | hd
  · exact (Bool.not_eq_true' _).mp (List.all_eq_true.mp hletters d (c.letters d hd))
  · rw [List.eq_of_mem_replicate hd]
    decide

theorem piece_filled : ∀ line ∈ c.lines, ∀ d ∈ line.1, isSpace d = false := by
  intro line hline d hd
  refine c.hash_filled d ?_
  unfold hash
  rw [← c.pieces]
  exact List.mem_flatten.mpr ⟨line.1, List.mem_map_of_mem hline, hd⟩

theorem filled_gaps {lines : List (List Char × List Char)} (hplain : ∀ line ∈ lines, ∀ d ∈ line.1, isLineBreak d = false)
    (hblank : ∀ line ∈ lines, ∀ d ∈ line.2, isSpace d = true)
    (hbreak : ∀ line ∈ lines.dropLast, ∃ d ∈ line.2, isLineBreak d = true) :
    filled (splitlines (lines.flatMap fun line => line.1 ++ line.2)) = filled (lines.map Prod.fst) := by
  induction lines with
  | nil => rfl
  | cons line lines ih =>
    have hp := hplain line (List.mem_cons_self ..)
    have hb := hblank line (List.mem_cons_self ..)
    have hends : (∃ d ∈ line.2, isLineBreak d = true) ∨ lines = [] ∧ ∀ d ∈ line.2, isLineBreak d = false := by
      by_cases h : ∃ d ∈ line.2, isLineBreak d = true
      · exact .inl h
      · cases lines with
        | nil => exact .inr ⟨rfl, by simpa using h⟩
        | cons next lines => exact absurd (hbreak line (List.mem_cons_self ..)) h
    rw [List.flatMap_cons, List.map_cons, filled_cons]
    rcases hends with hends | ⟨rfl, hends⟩
    · have hrest := ih (fun l hl => hplain l (List.mem_cons_of_mem _ hl)) (fun l hl => hblank l (List.mem_cons_of_mem _ hl))
        (fun l hl => hbreak l (by
          cases lines with
          | nil => exact absurd hl List.not_mem_nil
          | cons next lines => exact List.mem_cons_of_mem _ hl))
      rw [List.append_assoc, filled_line_append hp hb hends, hrest]
    · have hline : ∀ d ∈ line.1 ++ line.2, isLineBreak d = false := fun d hd =>
        (List.mem_append.mp hd).elim (hp d) (hends d)
      rw [List.flatMap_nil, List.append_nil, filled_line hline, filled_append_blank hb]
      exact (List.append_nil _).symm

theorem not_isLineBreak {d : Char} (h : isSpace d = false) : isLineBreak d = false := by
  cases hd : isLineBreak d with
  | false => rfl
  | true =>
    rw [isSpace_of_isLineBreak hd] at h
    cases h

theorem trimmed_filled {l : List Char} (h : ∀ d ∈ l, isSpace d = false) : trimmed isSpace l = l :=
  trimmed_of_ends (fun d hd => h d (List.mem_of_mem_head? hd)) fun d hd => h d (List.mem_of_mem_getLast? hd)

theorem last_of_trimmed {l : List Char} (h : trimmed isSpace l = l) : ∀ d ∈ l.getLast?, isSpace d = false := by
  intro d hd
  have hreverse : trimmed isSpace l.reverse = l.reverse := by rw [trimmed_reverse, h]
  rw [← List.head?_reverse] at hd
  exact head_of_trimmed hreverse d hd

theorem trimmed_marked : trimmed isSpace (serialMarker ++ c.serial) = serialMarker ++ c.serial := by
  refine trimmed_of_ends ?_ ?_
  · intro d hd
    have hfirst : (serialMarker ++ c.serial).head? = some 'S' := rfl
    rw [hfirst] at hd
    rw [← Option.some.inj hd]
    decide
  · rw [List.getLast?_append_of_ne_nil _ c.serial_given]
    exact last_of_trimmed c.serial_stripped

theorem filled_text : filled (splitlines c.text) = filled ((serialMarker ++ c.serial) :: c.lines.map Prod.fst) := by
  have hmarker : (serialMarker.all fun d => !isLineBreak d) = true := by decide +kernel
  have hline : ∀ d ∈ serialMarker ++ c.serial, isLineBreak d = false := fun d hd =>
    (List.mem_append.mp hd).elim (fun h => (Bool.not_eq_true' _).mp (List.all_eq_true.mp hmarker d h)) (c.serial_line d)
  unfold text
  rw [filled_blank_append c.lead_blank, filled_line_append hline c.gap_blank c.gap_break,
    filled_gaps (fun line hl d hd => not_isLineBreak (c.piece_filled line hl d hd)) c.lines_blank c.lines_break,
    ← filled_cons]

theorem readHashOutput_eq : readHashOutput c.text =
    ((serialMarker ++ c.serial) :: c.lines.map Prod.fst).foldl HashReading.take {} := by
  unfold readHashOutput
  rw [← HashReading.foldl_filled, filled_text, HashReading.foldl_filled]
  refine List.foldl_ext _ _ _ fun r line hline => ?_
  have htrimmed : trimmed isSpace line = line := by
    rcases List.mem_cons.mp hline with rfl | hline
    · exact c.trimmed_marked
    · obtain ⟨piece, hpiece, rfl⟩ := List.mem_map.mp hline
      exact trimmed_filled (c.piece_filled piece hpiece)
  rw [htrimmed]

theorem first_piece : ∃ q gap rest, c.lines = (hashMarker ++ q, gap) :: rest ∧ q ++ (rest.map Prod.fst).flatten = c.hash := by
  have hpieces := c.pieces
  cases hlines : c.lines with
  | nil =>
    rw [hlines] at hpieces
    cases hpieces
  | cons line rest =>
    obtain ⟨piece, gap⟩ := line
    rw [hlines, List.map_cons, List.flatten_cons] at hpieces
    change piece ++ (rest.map Prod.fst).flatten = hashMarker ++ c.hash at hpieces
    have hlong : hashMarker.length ≤ piece.length := by
      cases rest with
      | nil =>
        rw [List.map_nil, List.flatten_nil, List.append_nil] at hpieces
        rw [hpieces, List.length_append]
        exact Nat.le_add_right _ _
      | cons next rest =>
        have hsix := c.six (piece, gap) (by
          rw [hlines]
          exact List.mem_cons_self ..)
        exact Nat.le_trans (by decide) hsix
    have hmarker : hashMarker <+: piece ++ (rest.map Prod.fst).flatten := by
      rw [hpieces]
      exact List.prefix_append _ _
    have hstart : hashMarker <+: piece := List.prefix_of_prefix_length_le hmarker (List.prefix_append _ _) hlong
    obtain ⟨q, rfl⟩ := hstart
    rw [List.append_assoc] at hpieces
    exact ⟨q, gap, rest, rfl, List.append_cancel_left hpieces⟩

theorem take_serial : HashReading.take {} (serialMarker ++ c.serial) = { serial := c.serial } := by
  unfold HashReading.take
  rw [if_pos (List.prefix_append _ _), List.drop_left, c.serial_stripped]

theorem take_hash {r : HashReading} {q : List Char} (hq : ∀ d ∈ q, isSpace d = false) :
    r.take (hashMarker ++ q) = { r with hashParts := [q], inHash := true } := by
  have hserial : ¬ serialMarker <+: hashMarker ++ q := by
    rintro ⟨rest, hrest⟩
    exact absurd (List.cons.inj hrest).1 (by decide)
  unfold HashReading.take
  rw [if_neg hserial, if_pos (List.prefix_append _ _), List.drop_left, trimmed_filled hq]

/-- The reader gives the serial and the hash exactly when no piece is marked. -/
theorem readHashOutput_iff : (readHashOutput c.text).serial = c.serial ∧ (readHashOutput c.text).hash = c.hash ↔
    c.Unmarked := by
  obtain ⟨q, gap, rest, hlines, hhash⟩ := c.first_piece
  have hq : ∀ d ∈ q, isSpace d = false := fun d hd =>
    c.hash_filled d (List.mem_append_right _ (hhash ▸ List.mem_append_left _ hd))
  have hread : readHashOutput c.text =
      (rest.map Prod.fst).foldl HashReading.take { serial := c.serial, hashParts := [q], inHash := true } := by
    rw [readHashOutput_eq, hlines, List.map_cons, List.foldl_cons, List.foldl_cons, take_serial, take_hash hq]
  have hfirst : (HashReading.hash { serial := c.serial, hashParts := [q], inHash := true }) = q := List.append_nil q
  have hunmarked : c.Unmarked ↔ ∀ piece ∈ rest.map Prod.fst, ¬ Marked piece := by
    unfold Unmarked
    rw [hlines, List.tail_cons, List.forall_mem_map]
  rw [hread, hunmarked]
  constructor
  · rintro ⟨_, hsame⟩ piece hpiece hmark
    have hless := (HashReading.length_foldl (rest.map Prod.fst)
      { serial := c.serial, hashParts := [q], inHash := true }).2 ⟨piece, hpiece, hmark⟩
    rw [hsame, hfirst, ← List.length_append, hhash] at hless
    exact absurd hless (Nat.lt_irrefl _)
  · intro h
    obtain ⟨hwhole, hserial⟩ := HashReading.foldl_unmarked (r := { serial := c.serial, hashParts := [q], inHash := true }) h rfl
    rw [hwhole, hserial, hfirst]
    exact ⟨rfl, hhash⟩

theorem parseHashOutput_iff : parseHashOutput c.result = (String.ofList c.serial, String.ofList c.hash) ↔ c.Unmarked := by
  rw [← readHashOutput_iff]
  unfold parseHashOutput result
  rw [String.toList_ofList, Prod.mk.injEq, String.ofList_inj, String.ofList_inj]

end Capture

section Persisting
variable {now : Time} {candidate : HashCandidate} {answers : HashAnswers} {result : ExecResult} {outcome : HashOutcome}

theorem persistCapture_hash {serial hardwareHash : String} :
    ∀ row ∈ (persistCapture now candidate answers serial hardwareHash).persisted, row.hardwareHash = hardwareHash := by
  intro row hrow
  unfold persistCapture at hrow
  cases hvmid : candidate.vmid with
  | none =>
    rw [hvmid] at hrow
    cases hrow
  | some vmid =>
    rw [hvmid] at hrow
    dsimp only at hrow
    split at hrow <;> rw [List.mem_singleton.mp hrow]

theorem captureFrom_hash :
    ∀ row ∈ (captureFrom now candidate answers result).persisted, row.hardwareHash = (parseHashOutput result).2 := by
  intro row hrow
  unfold captureFrom at hrow
  dsimp only at hrow
  split at hrow
  · cases hrow
  · exact persistCapture_hash row hrow

theorem captureOnNode_hash (hguest : answers.guestExec = .ok result) :
    ∀ row ∈ (captureOnNode now candidate answers).persisted, row.hardwareHash = (parseHashOutput result).2 := by
  unfold captureOnNode
  rw [hguest]
  exact captureFrom_hash

theorem persisted_hash (hguest : answers.guestExec = .ok result)
    (h : executeHashCaptureForRun now candidate answers = .ok outcome) :
    ∀ row ∈ outcome.persisted, row.hardwareHash = (parseHashOutput result).2 := by
  unfold executeHashCaptureForRun at h
  cases hnode : given candidate.node with
  | some node =>
    rw [hnode] at h
    rw [← Except.ok.inj h]
    exact captureOnNode_hash hguest
  | none =>
    rw [hnode] at h
    cases hresolved : answers.resolvedNode with
    | error raised =>
      rw [hresolved] at h
      cases h
    | ok node =>
      rw [hresolved] at h
      rw [← Except.ok.inj h]
      dsimp only
      split
      · exact fun row hrow => absurd hrow List.not_mem_nil
      · exact captureOnNode_hash hguest

end Persisting

def markedCapture : Capture where
  serial := "PF3ABC12".toList
  lines := [("HASH=T0FBAAA".toList, ['\n']), ("HASH=".toList, ['\n'])]
  body := "T0FBAAAHASH".toList
  pads := 1
  lead_blank := fun _ hc => absurd hc List.not_mem_nil
  serial_given := by decide +kernel
  serial_stripped := by decide +kernel
  serial_line := fun c hc => by
    have hall : ("PF3ABC12".toList.all fun c => !isLineBreak c) = true := by decide +kernel
    exact (Bool.not_eq_true' _).mp (List.all_eq_true.mp hall c hc)
  gap_blank := List.all_eq_true.mp (by decide +kernel)
  gap_break := ⟨'\n', List.mem_singleton_self _, rfl⟩
  lines_blank := by
    intro line hline c hc
    rcases List.mem_pair.mp hline with rfl | rfl <;> exact List.mem_singleton.mp hc ▸ rfl
  lines_break := by
    intro line hline
    exact ⟨'\n', List.mem_singleton.mp hline ▸ List.mem_singleton_self _, rfl⟩
  pieces := by decide +kernel
  six := by decide +kernel
  letters := by
    have hall : ("T0FBAAAHASH".toList.all fun c => standardLetters.contains c) = true := by decide +kernel
    exact fun c hc => List.contains_iff_mem.mp (List.all_eq_true.mp hall c hc)
  pads_le := by decide
  quads := by decide

end ProxmoxVEAutopilot.CloudOsd
