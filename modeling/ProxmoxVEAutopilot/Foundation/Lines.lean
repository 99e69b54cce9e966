import ProxmoxVEAutopilot.Foundation.Text

/-!
# Lines of a text

A reader that strips each line and passes over the empty ones sees the same lines however
blanks and line breaks are spread between them.
-/

namespace ProxmoxVEAutopilot.Foundation

set_option autoImplicit false

def isLineBreak (c : Char) : Bool :=
  let n := c.toNat
  (10 ≤ n && n ≤ 13) || (28 ≤ n && n ≤ 30) || n == 0x85 || n == 0x2028 || n == 0x2029

def prepend (c : Char) : List (List Char) → List (List Char)
  | [] => [[c]]
  | line :: lines => (c :: line) :: lines

def splitlines : List Char → List (List Char)
  | [] => []
  | '\r' :: '\n' :: rest => [] :: splitlines rest
  | c :: rest => if isLineBreak c then [] :: splitlines rest else prepend c (splitlines rest)

/-- The lines with something in them, stripped. -/
def filled (lines : List (List Char)) : List (List Char) := (lines.map (trimmed isSpace)).filter fun line => line ≠ []

section Breaks
variable {c : Char} {p u w rest : List Char} {lines : List (List Char)}

theorem isSpace_of_isLineBreak (h : isLineBreak c = true) : isSpace c = true := by
  unfold isLineBreak at h
  unfold isSpace
  simp only [Bool.or_eq_true, Bool.and_eq_true, decide_eq_true_eq, beq_iff_eq] at h ⊢
  omega

theorem trimmed_blank (hu : ∀ c ∈ u, isSpace c = true) : trimmed isSpace u = [] := by
  unfold trimmed
  rw [List.dropWhile_eq_nil_iff.mpr hu]
  rfl

theorem trimmed_blank_append (hu : ∀ c ∈ u, isSpace c = true) (l : List Char) :
    trimmed isSpace (u ++ l) = trimmed isSpace l := by
  unfold trimmed
  rw [List.dropWhile_append_of_pos hu]

theorem trimmed_append_blank (hu : ∀ c ∈ u, isSpace c = true) (l : List Char) :
    trimmed isSpace (l ++ u) = trimmed isSpace l := by
  have hreverse : ∀ c ∈ u.reverse, isSpace c = true := fun c hc => hu c (List.mem_reverse.mp hc)
  rw [← List.reverse_reverse (l ++ u), trimmed_reverse, List.reverse_append, trimmed_blank_append hreverse,
    trimmed_reverse, List.reverse_reverse]

theorem filled_cons (line : List Char) (lines : List (List Char)) :
    filled (line :: lines) = filled [line] ++ filled lines := by
  unfold filled
  rw [List.map_cons, ← List.singleton_append, List.filter_append]
  rfl

theorem filled_blank (hu : ∀ c ∈ u, isSpace c = true) : filled [u] = [] := by
  unfold filled
  rw [List.map_singleton, trimmed_blank hu]
  rfl

theorem filled_append_blank (hu : ∀ c ∈ u, isSpace c = true) : filled [p ++ u] = filled [p] := by
  unfold filled
  rw [List.map_singleton, trimmed_append_blank hu, List.map_singleton]

theorem filled_nil_cons (lines : List (List Char)) : filled ([] :: lines) = filled lines := by
  rw [filled_cons, filled_blank (fun _ h => absurd h List.not_mem_nil), List.nil_append]

theorem filled_append (lines more : List (List Char)) : filled (lines ++ more) = filled lines ++ filled more := by
  unfold filled
  rw [List.map_append, List.filter_append]

theorem filled_of_split {lines : List (List Char)} {pieces : List (List Char)}
    (h : ∃ first rest, pieces = first :: rest ∧ (lines = [] ∧ first = [] ∧ rest = [] ∨
      ∃ rest', lines = first :: rest' ∧ filled rest' = filled rest)) : filled lines = filled pieces := by
  obtain ⟨first, rest, rfl, ⟨rfl, rfl, rfl⟩ | ⟨rest', rfl, hrest⟩⟩ := h
  · rw [filled_nil_cons]
  · rw [filled_cons, filled_cons first rest, hrest]

/-- The lines are those between the breaks; only of a pair of breaks one counts. -/
theorem splitlines_splitOnP (cs : List Char) : ∃ first rest, cs.splitOnP isLineBreak = first :: rest ∧
    (splitlines cs = [] ∧ first = [] ∧ rest = [] ∨
      ∃ rest', splitlines cs = first :: rest' ∧ filled rest' = filled rest) := by
  fun_induction splitlines cs with
  | case1 => exact ⟨[], [], rfl, .inl ⟨rfl, rfl, rfl⟩⟩
  | case2 rest ih =>
    have hsplit : ('\r' :: '\n' :: rest).splitOnP isLineBreak = [] :: [] :: rest.splitOnP isLineBreak := by
      rw [List.splitOnP_cons_eq_if_modifyHead, if_pos (by decide), List.splitOnP_cons_eq_if_modifyHead, if_pos (by decide)]
    refine ⟨[], _, hsplit, .inr ⟨splitlines rest, rfl, ?_⟩⟩
    rw [filled_nil_cons, filled_of_split ih]
  | case3 c rest _ hbreak ih =>
    refine ⟨[], rest.splitOnP isLineBreak, ?_, .inr ⟨splitlines rest, rfl, filled_of_split ih⟩⟩
    rw [List.splitOnP_cons_eq_if_modifyHead, if_pos hbreak]
  | case4 c rest _ hplain ih =>
    obtain ⟨first, more, hsplit, hlines⟩ := ih
    refine ⟨c :: first, more, ?_, .inr ?_⟩
    · rw [List.splitOnP_cons_eq_if_modifyHead, if_neg hplain, hsplit]
      rfl
    · rcases hlines with ⟨hnone, rfl, rfl⟩ | ⟨rest', hlines, hrest⟩
      · exact ⟨[], by rw [hnone]; rfl, rfl⟩
      · exact ⟨rest', by rw [hlines]; rfl, hrest⟩

theorem filled_splitlines (cs : List Char) : filled (splitlines cs) = filled (cs.splitOnP isLineBreak) :=
  filled_of_split (splitlines_splitOnP cs)

theorem filled_break {c : Char} (hc : isLineBreak c = true) (xs ys : List Char) :
    filled (splitlines (xs ++ c :: ys)) = filled (splitlines xs) ++ filled (splitlines ys) := by
  rw [filled_splitlines, List.splitOnP_append_cons xs ys hc, filled_append, filled_splitlines, filled_splitlines]

theorem filled_line (h : ∀ c ∈ p, isLineBreak c = false) : filled (splitlines p) = filled [p] := by
  rw [filled_splitlines, List.splitOnP_eq_singleton h]

theorem filled_blank_append (hw : ∀ c ∈ w, isSpace c = true) (cs : List Char) :
    filled (splitlines (w ++ cs)) = filled (splitlines cs) := by
  induction w with
  | nil => rfl
  | cons c w ih =>
    have hc := hw c (List.mem_cons_self ..)
    rw [← ih fun d hd => hw d (List.mem_cons_of_mem _ hd), List.cons_append]
    by_cases hbreak : isLineBreak c = true
    · exact filled_break hbreak [] (w ++ cs)
    · obtain ⟨first, more, hsplit⟩ := List.exists_cons_of_ne_nil (List.splitOnP_ne_nil isLineBreak (w ++ cs))
      have htrimmed : trimmed isSpace (c :: first) = trimmed isSpace first :=
        trimmed_blank_append (u := [c]) (by simpa using hc) first
      have hfirst : filled [c :: first] = filled [first] := by
        unfold filled
        rw [List.map_singleton, htrimmed, List.map_singleton]
      rw [filled_splitlines, filled_splitlines, List.splitOnP_cons_eq_if_modifyHead, if_neg hbreak, hsplit,
        List.modifyHead_cons, filled_cons, hfirst, ← filled_cons]

/-- A line ends where the first break behind it stands. -/
theorem filled_line_append (hp : ∀ c ∈ p, isLineBreak c = false) (hw : ∀ c ∈ w, isSpace c = true)
    (hbreak : ∃ c ∈ w, isLineBreak c = true) (cs : List Char) :
    filled (splitlines (p ++ (w ++ cs))) = filled [p] ++ filled (splitlines cs) := by
  have hrest : w.dropWhile (fun c => !isLineBreak c) ≠ [] := by
    intro hnone
    obtain ⟨c, hc, hc'⟩ := hbreak
    have := List.dropWhile_eq_nil_iff.mp hnone c hc
    rw [hc'] at this
    cases this
  obtain ⟨c, v, hv⟩ := List.exists_cons_of_ne_nil hrest
  have hc : isLineBreak c = true := by
    have := List.head?_dropWhile_not (fun c => !isLineBreak c) w
    rw [hv] at this
    simpa using this
  have hu : ∀ d ∈ w.takeWhile (fun c => !isLineBreak c), isLineBreak d = false := fun d hd => by
    simpa using List.mem_takeWhile_imp hd
  have hspaces : ∀ d ∈ w.takeWhile (fun c => !isLineBreak c), isSpace d = true := fun d hd =>
    hw d ((List.takeWhile_prefix _).subset hd)
  have hv' : ∀ d ∈ v, isSpace d = true := fun d hd =>
    hw d ((List.dropWhile_suffix _).subset (hv ▸ List.mem_cons_of_mem _ hd))
  have hsplit : w = w.takeWhile (fun c => !isLineBreak c) ++ c :: v := by
    rw [← hv, List.takeWhile_append_dropWhile]
  have hline : ∀ d ∈ p ++ w.takeWhile (fun c => !isLineBreak c), isLineBreak d = false := fun d hd =>
    (List.mem_append.mp hd).elim (hp d) (hu d)
  rw [hsplit, List.append_assoc, List.cons_append, ← List.append_assoc, filled_break hc, filled_line hline,
    filled_append_blank hspaces, filled_blank_append hv']

end Breaks

end ProxmoxVEAutopilot.Foundation
