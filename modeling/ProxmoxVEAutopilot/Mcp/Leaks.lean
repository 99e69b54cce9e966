import ProxmoxVEAutopilot.Mcp.Matches

/-!
# What MCP answers leak

Two payloads that differ in their secrets only, and whether their answers differ. The runs of
a text that are secret begin behind a marker and end before white space or an ampersand; the
pattern ends them elsewhere.
-/

namespace ProxmoxVEAutopilot.Mcp

open Foundation (Json isSpace)

set_option autoImplicit false

variable {b r r' s t y : List Char}

/-! ### Texts that differ in secret runs -/

def Marker (m : List Char) : Prop :=
  m.map fold ∈ ["bearer ".toList, "token=".toList, "password=".toList, "secret=".toList]

def Run (r : List Char) : Prop := r ≠ [] ∧ ∀ c ∈ r, isSpace c = false ∧ c ≠ '&'

/-- What stands behind a whole run. -/
def Gap (s : List Char) : Prop := ∀ c ∈ s.head?, isSpace c = true ∨ c = '&'

/-- Behind some markers another run stands, itself without a marker. -/
inductive TextAlike : List Char → List Char → Prop
  | nil : TextAlike [] []
  | cons (c : Char) {s t : List Char} (h : TextAlike s t) : TextAlike (c :: s) (c :: t)
  | run {m r r' s t : List Char} (hm : Marker m) (hr : Run r) (hr' : Run r')
    (hnone : ∀ n, Marker n → ¬ n <:+: r') (hgap : Gap s) (h : TextAlike s t) :
    TextAlike (m ++ r ++ s) (m ++ r' ++ t)

def Marked (b : List Char) : Prop := ∃ a m, b = a ++ m ∧ Marker m

/-- No marker has a run behind it in the part that is shown, and the text is cut whatever the
runs are. -/
def Hidden (s : List Char) : Prop :=
  ∀ b r rest t, Marked b → Run r → Gap rest → s = b ++ r ++ rest → TextAlike rest t →
    maxString ≤ (redactSecrets b).length ∧ maxString < (redactSecrets (b ++ 'x' :: t)).length

/-- The letter behind the text does not show. -/
def Hides (b : List Char) : Prop := redactSecrets (b ++ ['x']) = redactSecrets (b ++ ['y'])

/-- Behind `b` the texts differ in runs that do not show and whose letters the class all takes. -/
inductive Safe : List Char → List Char → List Char → Prop
  | nil {b : List Char} : Safe b [] []
  | cons {b s t : List Char} (c : Char) (h : Safe (b ++ [c]) s t) : Safe b (c :: s) (c :: t)
  | run {b m r r' s t : List Char} (hm : Marker m) (hhides : Hides (b ++ m)) (hr : Run r) (hr' : Run r')
    (hplain : ∀ c ∈ r ++ r', isStop c = false) (h : Safe (b ++ m ++ r) s t) :
    Safe b (m ++ r ++ s) (m ++ r' ++ t)

theorem TextAlike.refl : ∀ s : List Char, TextAlike s s
  | [] => .nil
  | c :: s => .cons c (TextAlike.refl s)

theorem TextAlike.append_left (h : TextAlike s t) : TextAlike (b ++ s) (b ++ t) := by
  induction b with
  | nil => exact h
  | cons c b ih => exact .cons c ih

theorem TextAlike.replace (hb : Marked b) (hr : Run r) (hr' : Run r') (hnone : ∀ n, Marker n → ¬ n <:+: r')
    (hgap : Gap s) (h : TextAlike s t) : TextAlike (b ++ r ++ s) (b ++ r' ++ t) := by
  obtain ⟨a, m, rfl, hm⟩ := hb
  have hrun := (TextAlike.run hm hr hr' hnone hgap h).append_left (b := a)
  simp only [List.append_assoc] at hrun ⊢
  exact hrun

theorem Marker.ends {a m : List Char} (hm : Marker m) : Ends (a ++ m) := by
  have hshape : ∃ l e, m.map fold = l ++ [e] ∧ Separates e ∧ l ≠ [] ∧ ∀ c ∈ l, isSpace c = false := by
    simp only [Marker, List.mem_cons, List.not_mem_nil, or_false] at hm
    rcases hm with hm | hm | hm | hm
    · exact ⟨"bearer".toList, ' ', hm, .inr rfl, by decide, by simp [isSpace]⟩
    · exact ⟨"token".toList, '=', hm, .inl rfl, by decide, by simp [isSpace]⟩
    · exact ⟨"password".toList, '=', hm, .inl rfl, by decide, by simp [isSpace]⟩
    · exact ⟨"secret".toList, '=', hm, .inl rfl, by decide, by simp [isSpace]⟩
  obtain ⟨l, e, hmap, he, hne, hletters⟩ := hshape
  obtain ⟨m₀, last, rfl, hm₀, hlast⟩ := List.map_eq_append_iff.mp hmap
  obtain ⟨d, rfl, hd⟩ := List.map_eq_singleton_iff.mp hlast
  refine ⟨a ++ m₀, d, (List.append_assoc _ _ _).symm, ?_, ?_⟩
  · rw [eq_of_fold_eq he hd]
    exact he
  · have hm₀ne : m₀ ≠ [] := by
      rintro rfl
      exact hne hm₀.symm
    intro c hc
    rw [List.getLast?_append_of_ne_nil a hm₀ne] at hc
    have hmem : fold c ∈ l := hm₀ ▸ List.mem_map_of_mem (List.mem_of_getLast? (Option.mem_def.mp hc))
    by_contra hsp
    have hfold := hletters (fold c) hmem
    rw [fold_of_isSpace (Bool.eq_true_of_not_eq_false hsp)] at hfold
    exact hsp hfold

theorem Marked.ends (hb : Marked b) : Ends b := by
  obtain ⟨a, m, rfl, hm⟩ := hb
  exact hm.ends

theorem TextAlike.first (h : TextAlike s t) : s = t ∨ ∃ b r r' s' t', Marked b ∧ Run r ∧ Run r' ∧ Gap s' ∧
    TextAlike s' t' ∧ s = b ++ r ++ s' ∧ t = b ++ r' ++ t' := by
  induction h with
  | nil => exact .inl rfl
  | @cons c s t h ih =>
    rcases ih with rfl | ⟨b, r, r', s', t', ⟨a, m, rfl, hm⟩, hr, hr', hgap, halike, rfl, rfl⟩
    · exact .inl rfl
    · exact .inr ⟨c :: (a ++ m), r, r', s', t', ⟨c :: a, m, rfl, hm⟩, hr, hr', hgap, halike, rfl, rfl⟩
  | @run m r r' s t hm hr hr' hnone hgap h _ =>
    exact .inr ⟨m, r, r', s, t, ⟨[], m, rfl, hm⟩, hr, hr', hgap, h, rfl, rfl⟩

theorem Marker.head {c : Char} {m : List Char} (hm : Marker (c :: m)) : isSpace c = false ∧ c ≠ '&' := by
  have hfold : fold c ∈ ['b', 't', 'p', 's'] := by
    simp only [Marker, List.mem_cons, List.not_mem_nil, or_false, List.map_cons] at hm
    rcases hm with hm | hm | hm | hm <;> rw [(List.cons.inj (hm.trans (List.cons_head_tail (by decide)).symm)).1] <;> decide
  have hletters : ∀ d ∈ ['b', 't', 'p', 's'], isSpace d = false := by simp [isSpace]
  constructor
  · by_contra hsp
    have hself := hletters _ hfold
    rw [fold_of_isSpace (Bool.eq_true_of_not_eq_false hsp)] at hself
    exact hsp hself
  · rintro rfl
    exact absurd hfold (by decide)

theorem Gap.alike (hs : Gap s) (h : TextAlike s t) : Gap t := by
  cases h with
  | nil => exact hs
  | cons c h => exact fun d hd => hs d hd
  | @run m r r' s t hm hr hr' hnone hgap h =>
    cases m with
    | nil => simp [Marker] at hm
    | cons c m =>
      obtain ⟨hsp, hamp⟩ := hm.head
      rcases hs c rfl with h1 | h1
      · rw [hsp] at h1
        cases h1
      · exact absurd h1 hamp

/-! ### One text -/

def truncation : List Char := "...[truncated]".toList

def cut (s : List Char) : List Char := if s.length > maxString then s.take maxString ++ truncation else s

theorem redactText_eq_iff {s t : String} :
    redactText s = redactText t ↔ cut (redactSecrets s.toList) = cut (redactSecrets t.toList) := by
  have htext : ∀ s : String, redactText s = String.ofList (cut (redactSecrets s.toList)) := by
    intro s
    unfold redactText cut
    dsimp only
    split <;> rfl
  rw [htext, htext]
  exact ⟨fun h => by simpa using congrArg String.toList h, congrArg String.ofList⟩

theorem Opens.head {c : Char} {g : List Char} (hg : Opens (c :: g)) : fold c ∈ ['b', 't', 'p', 's'] := by
  generalize hs : c :: g = k at hg
  have hhead : ∀ word ∈ "bearer" :: words, ∀ k : List Char, k.map fold = word.toList → k.head? = some c →
      fold c ∈ ['b', 't', 'p', 's'] := by
    intro word hword k hk hc
    have hmap := congrArg List.head? hk
    rw [List.head?_map, hc] at hmap
    simp only [words, List.mem_cons, List.not_mem_nil, or_false] at hword
    rcases hword with rfl | rfl | rfl | rfl <;> rw [Option.some.inj hmap] <;> decide
  cases hg with
  | assigned hword hfold => exact hhead _ (List.mem_cons_of_mem _ hword) _ hfold (by rw [← hs]; rfl)
  | @bearer k spaces hk hne hspaces =>
    cases k with
    | nil => simp at hk
    | cons d k =>
      rw [List.cons_append, List.cons.injEq] at hs
      exact hhead _ List.mem_cons_self (d :: k) hk (by rw [hs.1]; rfl)

theorem secretAt_cons_none {c : Char} (hc : fold c ∉ ['b', 't', 'p', 's']) : secretAt (c :: s) = none := by
  apply secretAt_eq_none_of
  intro g h r hm
  cases g with
  | nil => exact hm.opens.ne_nil rfl
  | cons d g =>
    have htext := hm.text
    simp only [List.cons_append, List.cons.injEq] at htext
    exact hc (htext.1 ▸ hm.opens.head)

theorem Opens.second {c : Char} {g : List Char} (hg : Opens (c :: g)) (hc : fold c = 's') :
    ∃ d g', g = d :: g' ∧ fold d = 'e' := by
  generalize hs : c :: g = k at hg
  cases hg with
  | @assigned _ word hword hfold =>
    rw [← hs, List.map_cons, hc] at hfold
    simp only [words, List.mem_cons, List.not_mem_nil, or_false] at hword
    rcases hword with rfl | rfl | rfl
    · simp at hfold
    · simp at hfold
    · have htail : g.map fold = 'e' :: "cret=".toList := by simpa using hfold
      obtain ⟨d, g', rfl, hd, _⟩ := List.map_eq_cons_iff.mp htail
      exact ⟨d, g', rfl, hd⟩
  | @bearer k spaces hk hne hspaces =>
    cases k with
    | nil => simp at hk
    | cons d k =>
      rw [List.cons_append, List.cons.injEq] at hs
      rw [List.map_cons, ← hs.1, hc] at hk
      simp at hk

theorem secretAt_s_none {c : Char} (hc : fold c = 's') (ht : Gap t) : secretAt (c :: t) = none := by
  apply secretAt_eq_none_of
  intro g h r hm
  cases g with
  | nil => exact hm.opens.ne_nil rfl
  | cons d g =>
    have htext := hm.text
    simp only [List.cons_append, List.cons.injEq] at htext
    obtain ⟨rfl, htext⟩ := htext
    obtain ⟨e, g', rfl, he⟩ := hm.opens.second hc
    rcases ht e (by rw [htext]; rfl) with hsp | hamp
    · rw [fold_of_isSpace hsp] at he
      rw [he] at hsp
      simp [isSpace] at hsp
    · rw [hamp] at he
      exact absurd he (by decide)

theorem redactSecrets_ne_nil (hs : s ≠ []) : redactSecrets s ≠ [] := by
  cases s with
  | nil => exact absurd rfl hs
  | cons c s =>
    cases hat : secretAt (c :: s) with
    | none =>
      rw [redactSecrets_cons hat]
      exact List.cons_ne_nil _ _
    | some p =>
      obtain ⟨h, hm⟩ := secretAt_eq_some_iff.mp hat
      rw [redactSecrets_match hm]
      simp [hm.opens.ne_nil]

theorem Marked.behind (hb : Marked b) : ∃ behind : Behind, ∀ y : List Char, (∀ c ∈ y.head?, isSpace c = false) →
    redactSecrets (b ++ y) = redactSecrets b ++ behind.after y :=
  redactSecrets_append b.length b le_rfl (.inr hb.ends)

theorem Run.head (hr : Run r) : ∀ c ∈ (r ++ s).head?, isSpace c = false := by
  rw [List.head?_append_of_ne_nil r hr.1]
  exact fun c hc => (hr.2 c (List.mem_of_head? hc)).1

/-- A letter at which the class stops shows, whatever the substitution was in. -/
theorem Behind.after_stop (behind : Behind) {c : Char} (hc : isStop c = true) (hat : secretAt (c :: t) = none) :
    behind.after (c :: t) = c :: redactSecrets t := by
  cases behind with
  | search => exact redactSecrets_cons hat
  | armed =>
    simp only [Behind.after, hc, if_true]
    exact redactSecrets_cons hat
  | covering =>
    simp only [Behind.after]
    rw [List.dropWhile_cons_of_neg (by simp [hc])]
    exact redactSecrets_cons hat

theorem Behind.after_ne_nil (behind : Behind) (hr : Run r) (h : behind.after ('x' :: t) ≠ []) :
    behind.after (r ++ t) ≠ [] := by
  have hne : r ++ t ≠ [] := by simp [hr.1]
  cases behind with
  | search => exact redactSecrets_ne_nil hne
  | armed =>
    obtain ⟨c, rest, hc⟩ := List.exists_cons_of_ne_nil hne
    rw [hc]
    simp only [Behind.after]
    split
    · exact redactSecrets_ne_nil (List.cons_ne_nil _ _)
    · exact List.append_ne_nil_of_left_ne_nil (by decide) _
  | covering =>
    simp only [Behind.after] at h ⊢
    refine redactSecrets_ne_nil fun h0 => h ?_
    have hall := List.dropWhile_eq_nil_iff.mp h0
    have ht : ('x' :: t).dropWhile (!isStop ·) = [] := by
      rw [List.dropWhile_eq_nil_iff]
      intro c hc
      rcases List.mem_cons.mp hc with rfl | hc
      · decide
      · exact hall c (List.mem_append_right r hc)
    rw [ht, redactSecrets_nil]

theorem run_letter {c : Char} (hc : c ∈ ['s', 'S', 'x']) : Run [c] ∧ ∀ n, Marker n → ¬ n <:+: [c] := by
  have hletters : ∀ c ∈ ['s', 'S', 'x'], isSpace c = false ∧ c ≠ '&' := by simp [isSpace]
  refine ⟨⟨List.cons_ne_nil _ _, fun d hd => List.mem_singleton.mp hd ▸ hletters c hc⟩, fun n hn hin => ?_⟩
  have hlen := hin.length_le
  have hall : ∀ l ∈ ["bearer ".toList, "token=".toList, "password=".toList, "secret=".toList], 1 < l.length := by
    decide
  have hmarker := hall _ hn
  rw [List.length_map] at hmarker
  exact absurd (hmarker.trans_le hlen) (lt_irrefl _)

theorem redactSecrets_letter {c : Char} (hb : Marked b) (hc : c = 's' ∨ c = 'S') (ht : Gap t) :
    redactSecrets (b ++ c :: t) = redactSecrets b ++ c :: redactSecrets t := by
  obtain ⟨behind, hbehind⟩ := hb.behind
  have hfold : fold c = 's' := by rcases hc with rfl | rfl <;> decide
  have hstop : isStop c = true := by rcases hc with rfl | rfl <;> decide
  have hsp : ∀ d ∈ (c :: t).head?, isSpace d = false := by
    rintro d ⟨⟩
    by_contra h
    rw [isStop_of_isSpace (Bool.eq_true_of_not_eq_false h)] at hstop
    cases hstop
  rw [hbehind _ hsp, behind.after_stop hstop (secretAt_s_none hfold ht)]

theorem Marked.isPrefix (hb : Marked b) (hy : ∀ c ∈ y.head?, isSpace c = false) :
    redactSecrets b <+: redactSecrets (b ++ y) := by
  obtain ⟨behind, hbehind⟩ := hb.behind
  exact ⟨behind.after y, (hbehind y hy).symm⟩

theorem long_of_letter (hb : Marked b) (hr : Run r) (hlong : maxString ≤ (redactSecrets b).length)
    (hx : maxString < (redactSecrets (b ++ 'x' :: t)).length) :
    maxString < (redactSecrets (b ++ (r ++ t))).length := by
  obtain ⟨behind, hbehind⟩ := hb.behind
  have hxhead : ∀ c ∈ ('x' :: t).head?, isSpace c = false := (run_letter (by simp)).1.head (s := t)
  rw [hbehind _ hxhead, List.length_append] at hx
  rw [hbehind _ hr.head, List.length_append]
  by_cases hlt : maxString < (redactSecrets b).length
  · omega
  · have hne : behind.after ('x' :: t) ≠ [] := by
      intro h0
      rw [h0, List.length_nil] at hx
      omega
    have hpos := List.length_pos_iff.mpr (behind.after_ne_nil hr hne)
    omega

theorem cut_eq_of_prefix {p s t : List Char} (hp : maxString ≤ p.length) (hs : p <+: s) (ht : p <+: t)
    (hslong : maxString < s.length) (htlong : maxString < t.length) : cut s = cut t := by
  unfold cut
  rw [if_pos hslong, if_pos htlong]
  congr 1
  have htake : ∀ l, p <+: l → l.take maxString = p.take maxString := by
    rintro _ ⟨l, rfl⟩
    exact List.take_append_of_le_length hp
  rw [htake s hs, htake t ht]

theorem cut_eq_of_hidden (hs : Hidden s) (h : TextAlike s t) : cut (redactSecrets s) = cut (redactSecrets t) := by
  rcases h.first with rfl | ⟨b, r, r', s', t', hb, hr, hr', hgap, halike, rfl, rfl⟩
  · rfl
  · have hown := hs b r s' s' hb hr hgap rfl (.refl s')
    have hother := hs b r s' t' hb hr hgap rfl halike
    rw [List.append_assoc, List.append_assoc]
    exact cut_eq_of_prefix hown.1 (hb.isPrefix hr.head) (hb.isPrefix hr'.head)
      (long_of_letter hb hr hown.1 hown.2) (long_of_letter hb hr' hown.1 hother.2)

theorem cut_ne_of_letters {p s t : List Char} {c d : Char} (hp : p.length < maxString) (hne : c ≠ d) :
    cut (p ++ c :: s) ≠ cut (p ++ d :: t) := by
  intro hcut
  have hget := congrArg (fun l => l[p.length]?) hcut
  have hletter : ∀ (c : Char) (s : List Char), (cut (p ++ c :: s))[p.length]? = some c := by
    intro c s
    unfold cut
    split
    · rw [List.getElem?_append_left (by simp; omega), List.getElem?_take_of_lt hp]
      simp
    · simp
  rw [hletter, hletter] at hget
  exact hne (Option.some.inj hget)

theorem hidden_of_cut_eq (h : ∀ t, TextAlike s t → cut (redactSecrets s) = cut (redactSecrets t)) : Hidden s := by
  rintro b r rest t hb hr hgap rfl halike
  have hgapt := hgap.alike halike
  have hsame : ∀ c ∈ ['s', 'S', 'x'], cut (redactSecrets (b ++ r ++ rest)) = cut (redactSecrets (b ++ c :: t)) := by
    intro c hc
    have hrun := run_letter hc
    have halike' := TextAlike.replace hb hr hrun.1 hrun.2 hgap halike
    rw [List.append_assoc b [c]] at halike'
    exact h _ halike'
  have hs := hsame 's' (by simp)
  rw [redactSecrets_letter hb (.inl rfl) hgapt] at hs
  have hS := hsame 'S' (by simp)
  rw [redactSecrets_letter hb (.inr rfl) hgapt] at hS
  have hlong : maxString ≤ (redactSecrets b).length := by
    by_contra hlt
    exact cut_ne_of_letters (not_le.mp hlt) (by decide) (hs.symm.trans hS)
  refine ⟨hlong, ?_⟩
  -- with the s the text is cut, and as long as a cut text is
  by_contra hshort
  have hx := hs.symm.trans (hsame 'x' (by simp))
  have hlen := congrArg List.length hx
  unfold cut at hlen
  rw [if_neg hshort, if_pos (by simp; omega), List.length_append, List.length_take, Nat.min_eq_left (by simp; omega)]
    at hlen
  have htail : 0 < truncation.length := by decide
  omega

/-- A run behind a marker that hides, all of it taken, is replaced with whatever it is. -/
theorem redactSecrets_run (hb : Marked b) (hhides : Hides b) (hr : Run r) (hr' : Run r')
    (hplain : ∀ c ∈ r ++ r', isStop c = false) (y : List Char) :
    redactSecrets (b ++ r ++ y) = redactSecrets (b ++ r' ++ y) := by
  obtain ⟨behind, hbehind⟩ := hb.behind
  have hdrop : ∀ l : List Char, (∀ c ∈ l, isStop c = false) →
      (l ++ y).dropWhile (!isStop ·) = y.dropWhile (!isStop ·) :=
    fun l hl => List.dropWhile_append_of_pos (by simpa using hl)
  have hleft := hdrop r fun c hc => hplain c (List.mem_append_left _ hc)
  have hright := hdrop r' fun c hc => hplain c (List.mem_append_right _ hc)
  rw [List.append_assoc, List.append_assoc, hbehind _ hr.head, hbehind _ hr'.head]
  congr 1
  cases behind with
  | search =>
    -- it shows the letter behind it, so it does not hide
    exfalso
    have hletter : ∀ c, isSpace c = false → fold c ∉ ['b', 't', 'p', 's'] →
        redactSecrets (b ++ [c]) = redactSecrets b ++ [c] := by
      intro c hsp hc
      rw [hbehind [c] (by rintro d ⟨⟩; exact hsp)]
      exact congrArg _ (redactSecrets_cons (secretAt_cons_none hc))
    unfold Hides at hhides
    rw [hletter 'x' (by simp [isSpace]) (by decide), hletter 'y' (by simp [isSpace]) (by decide)] at hhides
    exact absurd (List.append_cancel_left hhides) (by decide)
  | armed =>
    have hafter : ∀ l : List Char, l ≠ [] → (∀ c ∈ l, isStop c = false) →
        Behind.armed.after (l ++ y) = redactedText ++ redactSecrets ((l ++ y).dropWhile (!isStop ·)) := by
      intro l hne hl
      obtain ⟨c, l, rfl⟩ := List.exists_cons_of_ne_nil hne
      have hc := hl c List.mem_cons_self
      simp only [List.cons_append, Behind.after, hc, Bool.false_eq_true, if_false]
    rw [hafter r hr.1 fun c hc => hplain c (List.mem_append_left _ hc),
      hafter r' hr'.1 fun c hc => hplain c (List.mem_append_right _ hc), hleft, hright]
  | covering =>
    simp only [Behind.after]
    rw [hleft, hright]

/-- By induction on where the texts differ; the two texts so far, `b` and `b'`, are the same to
all that comes. -/
theorem Safe.redactSecrets (h : Safe b s t) : ∀ b' : List Char,
    (∀ y, redactSecrets (b ++ y) = redactSecrets (b' ++ y)) → redactSecrets (b ++ s) = redactSecrets (b' ++ t) := by
  induction h with
  | nil => exact fun b' hb' => hb' []
  | @cons b s t c h ih =>
    intro b' hb'
    have hnext := ih (b' ++ [c]) fun y => by
      rw [List.append_assoc, List.append_assoc]
      exact hb' ([c] ++ y)
    rw [List.append_assoc, List.append_assoc] at hnext
    exact hnext
  | @run b m r r' s t hm hhides hr hr' hplain h ih =>
    intro b' hb'
    have hnext := ih (b' ++ m ++ r') fun y => by
      rw [redactSecrets_run ⟨b, m, rfl, hm⟩ hhides hr hr' hplain y]
      simp only [List.append_assoc]
      exact hb' (m ++ (r' ++ y))
    simp only [List.append_assoc] at hnext ⊢
    exact hnext

end ProxmoxVEAutopilot.Mcp
