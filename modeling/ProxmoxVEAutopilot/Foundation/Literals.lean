import Mathlib

/-!
# Quoted literals

A script is code and literals in turn. Several letters may end a literal, and two of them
together stand for the second. An escaper that doubles only some of them keeps a literal
whole exactly as long as the others do not occur in it.
-/

namespace ProxmoxVEAutopilot.Foundation

set_option autoImplicit false

/-- The letters that quote, those that the escaper doubles, and the one it writes. -/
structure Quoting where
  quote : Char → Bool
  doubled : Char → Bool
  mark : Char
  doubled_mark : doubled mark = true
  quote_of_doubled : ∀ c, doubled c = true → quote c = true

namespace Quoting

variable (q : Quoting)

/-- The value of a literal that has begun, and what stands behind its end. -/
def readLiteral : List Char → Option (List Char × List Char)
  | [] => none
  | [c] => if q.quote c then some ([], []) else none
  | c :: d :: s =>
    if q.quote c then
      if q.quote d then (readLiteral s).map fun read => (d :: read.1, read.2) else some ([], d :: s)
    else (readLiteral (d :: s)).map fun read => (c :: read.1, read.2)

/-- The code in front, and each literal with the code behind it. -/
abbrev Tokens := List Char × List (List Char × List Char)

def tokensWithin : Nat → List Char → Option Tokens
  | 0, _ => none
  | fuel + 1, s =>
    match s.dropWhile fun c => !q.quote c with
    | [] => some (s, [])
    | _ :: rest => (q.readLiteral rest).bind fun read => (tokensWithin fuel read.2).map fun tokens =>
        (s.takeWhile fun c => !q.quote c, (read.1, tokens.1) :: tokens.2)

/-- The tokens of a script; none where a literal does not end. -/
def tokens (s : List Char) : Option Tokens := q.tokensWithin (s.length + 1) s

def Tokens.literals (t : Tokens) : List (List Char) := t.2.map Prod.fst

def Tokens.code (t : Tokens) : List (List Char) := t.1 :: t.2.map Prod.snd

def escape (v : List Char) : List Char := v.flatMap fun c => if q.doubled c then [c, c] else [c]

/-- The script with these literals, written by the escaper. -/
def render (t : Tokens) : List Char :=
  t.1 ++ t.2.flatMap fun piece => q.mark :: (q.escape piece.1 ++ q.mark :: piece.2)

/-- Code that the reader takes for code: without quotes, and between two literals not empty. -/
structure Separated (t : Tokens) : Prop where
  code : ∀ text ∈ t.code, ∀ c ∈ text, q.quote c = false
  between : ∀ piece ∈ t.2.dropLast, piece.2 ≠ []

/-- No letter in it that ends the literal and is not doubled. -/
def Safe (v : List Char) : Prop := ∀ c ∈ v, q.quote c = true → q.doubled c = true

variable {q}

theorem quote_mark : q.quote q.mark = true := q.quote_of_doubled _ q.doubled_mark

/-- What the literal is followed by does not begin with a quote. -/
def Closed (q : Quoting) (rest : List Char) : Prop := ∀ c ∈ rest.head?, q.quote c = false

section Literal
variable {c : Char} {v s rest : List Char}

theorem readLiteral_plain (hc : q.quote c = false) (hne : s ≠ []) :
    q.readLiteral (c :: s) = (q.readLiteral s).map fun read => (c :: read.1, read.2) := by
  obtain ⟨d, s, rfl⟩ := List.exists_cons_of_ne_nil hne
  simp only [readLiteral, hc, Bool.false_eq_true, if_false]

theorem readLiteral_pair {d : Char} (hc : q.quote c = true) (hd : q.quote d = true) :
    q.readLiteral (c :: d :: s) = (q.readLiteral s).map fun read => (d :: read.1, read.2) := by
  simp only [readLiteral, hc, hd, if_true]

theorem readLiteral_end (hc : q.quote c = true) (hrest : Closed q rest) : q.readLiteral (c :: rest) = some ([], rest) := by
  cases rest with
  | nil => simp only [readLiteral, hc, if_true]
  | cons d rest =>
    have hd : q.quote d = false := hrest d rfl
    simp only [readLiteral, hc, hd, if_true, Bool.false_eq_true, if_false]

theorem escape_cons (c : Char) (v : List Char) :
    q.escape (c :: v) = (if q.doubled c then [c, c] else [c]) ++ q.escape v := List.flatMap_cons

theorem escape_ne_nil_append {rest : List Char} : q.escape v ++ q.mark :: rest ≠ [] :=
  List.append_ne_nil_of_right_ne_nil _ (List.cons_ne_nil _ _)

theorem not_doubled_of_not_quote (h : q.quote c = false) : q.doubled c = false := by
  cases hdoubled : q.doubled c with
  | false => rfl
  | true =>
    rw [q.quote_of_doubled c hdoubled] at h
    cases h

theorem escape_eq_self (h : ∀ c ∈ v, q.quote c = false) : q.escape v = v := by
  induction v with
  | nil => rfl
  | cons c v ih =>
    rw [escape_cons, not_doubled_of_not_quote (h c (List.mem_cons_self ..)),
      ih fun d hd => h d (List.mem_cons_of_mem _ hd)]
    rfl

theorem readLiteral_escape (hsafe : q.Safe v) (hrest : Closed q rest) :
    q.readLiteral (q.escape v ++ q.mark :: rest) = some (v, rest) := by
  induction v with
  | nil => exact readLiteral_end quote_mark hrest
  | cons c v ih =>
    have hv := ih fun d hd => hsafe d (List.mem_cons_of_mem _ hd)
    rw [escape_cons]
    cases hquote : q.quote c with
    | false =>
      have hdoubled := not_doubled_of_not_quote hquote
      simp only [hdoubled, Bool.false_eq_true, if_false, List.cons_append, List.nil_append]
      rw [readLiteral_plain hquote escape_ne_nil_append, hv]
      rfl
    | true =>
      simp only [hsafe c (List.mem_cons_self ..) hquote, if_true, List.cons_append, List.nil_append]
      rw [readLiteral_pair hquote hquote, hv]
      rfl

/-- A quote that the escaper does not double. -/
def Loose (q : Quoting) (c : Char) : Prop := q.quote c = true ∧ q.doubled c = false

theorem readLiteral_cons {read : List Char × List Char} (hloose : ¬ q.Loose c)
    (h : q.readLiteral (q.escape (c :: v) ++ q.mark :: rest) = some read) :
    ∃ more, q.readLiteral (q.escape v ++ q.mark :: rest) = some more ∧ read = (c :: more.1, more.2) := by
  rw [escape_cons] at h
  cases hquote : q.quote c with
  | false =>
    simp only [not_doubled_of_not_quote hquote, Bool.false_eq_true, if_false, List.cons_append, List.nil_append] at h
    rw [readLiteral_plain hquote escape_ne_nil_append] at h
    obtain ⟨more, hmore, heq⟩ := Option.map_eq_some_iff.mp h
    exact ⟨more, hmore, heq.symm⟩
  | true =>
    have hdoubled : q.doubled c = true := by
      cases hdoubled : q.doubled c with
      | true => rfl
      | false => exact absurd ⟨hquote, hdoubled⟩ hloose
    simp only [hdoubled, if_true, List.cons_append, List.nil_append] at h
    rw [readLiteral_pair hquote hquote] at h
    obtain ⟨more, hmore, heq⟩ := Option.map_eq_some_iff.mp h
    exact ⟨more, hmore, heq.symm⟩

/-- A loose quote ends the literal, or it is lost before the letter behind it. -/
theorem readLiteral_loose {read : List Char × List Char} (hloose : q.Loose c)
    (h : q.readLiteral (q.escape (c :: v) ++ q.mark :: rest) = some read) :
    read.1 = [] ∨ (∃ d more, q.doubled d = true ∧ read.1 = d :: more) ∨
      ∃ d v' more, v = d :: v' ∧ q.Loose d ∧ q.readLiteral (q.escape v' ++ q.mark :: rest) = some more ∧
        read.1 = d :: more.1 := by
  rw [escape_cons] at h
  simp only [hloose.2, Bool.false_eq_true, if_false, List.cons_append, List.nil_append] at h
  cases v with
  | nil =>
    change q.readLiteral (c :: q.mark :: rest) = some read at h
    rw [readLiteral_pair hloose.1 quote_mark] at h
    obtain ⟨more, _, rfl⟩ := Option.map_eq_some_iff.mp h
    exact .inr (.inl ⟨q.mark, more.1, q.doubled_mark, rfl⟩)
  | cons d v =>
    rw [escape_cons] at h
    cases hquote : q.quote d with
    | false =>
      have hclosed : Closed q (d :: (q.escape v ++ q.mark :: rest)) := fun e he => by
        rw [← Option.some.inj he]
        exact hquote
      simp only [not_doubled_of_not_quote hquote, Bool.false_eq_true, if_false, List.cons_append, List.nil_append] at h
      rw [readLiteral_end hloose.1 hclosed] at h
      exact .inl (by rw [← Option.some.inj h])
    | true =>
      cases hdoubled : q.doubled d with
      | true =>
        simp only [hdoubled, if_true, List.cons_append, List.nil_append] at h
        rw [readLiteral_pair hloose.1 hquote] at h
        obtain ⟨more, _, rfl⟩ := Option.map_eq_some_iff.mp h
        exact .inr (.inl ⟨d, more.1, hdoubled, rfl⟩)
      | false =>
        simp only [hdoubled, Bool.false_eq_true, if_false, List.cons_append, List.nil_append] at h
        rw [readLiteral_pair hloose.1 hquote] at h
        obtain ⟨more, hmore, rfl⟩ := Option.map_eq_some_iff.mp h
        exact .inr (.inr ⟨d, v, more, rfl, ⟨hquote, hdoubled⟩, hmore, rfl⟩)

/-- Once loose quotes are lost, the reader is ahead of the value and stays ahead. -/
theorem readLiteral_ahead (hrest : Closed q rest) : ∀ (n : Nat) {u v : List Char}, v.length ≤ n → u ≠ [] →
    (∀ c ∈ u, q.Loose c) → ∀ read, q.readLiteral (q.escape v ++ q.mark :: rest) = some read → read.1 ≠ u ++ v := by
  intro n
  induction n with
  | zero =>
    intro u v hlength hne _ read hread heq
    obtain rfl := List.length_eq_zero_iff.mp (Nat.le_zero.mp hlength)
    change q.readLiteral (q.mark :: rest) = some read at hread
    rw [readLiteral_end quote_mark hrest] at hread
    rw [← Option.some.inj hread, List.append_nil] at heq
    exact hne heq.symm
  | succ n ih =>
    intro u v hlength hne hu read hread heq
    obtain ⟨x, u, rfl⟩ := List.exists_cons_of_ne_nil hne
    have hx := hu x (List.mem_cons_self ..)
    rw [List.cons_append] at heq
    cases v with
    | nil =>
      change q.readLiteral (q.mark :: rest) = some read at hread
      rw [readLiteral_end quote_mark hrest] at hread
      rw [← Option.some.inj hread] at heq
      cases heq
    | cons c v =>
      by_cases hloose : q.Loose c
      · rcases readLiteral_loose hloose hread with hnil | ⟨d, more, hdoubled, hhead⟩ | ⟨d, v', more, rfl, hd, hmore, hhead⟩
        · rw [hnil] at heq
          cases heq
        · rw [hhead] at heq
          rw [(List.cons.inj heq).1, hx.2] at hdoubled
          cases hdoubled
        · rw [hhead] at heq
          refine ih (u := u ++ [c, d]) (v := v') ?_ (by simp) ?_ more hmore ?_
          · simp only [List.length_cons] at hlength
            omega
          · intro e he
            rcases List.mem_append.mp he with he | he
            · exact hu e (List.mem_cons_of_mem _ he)
            · simp only [List.mem_cons, List.not_mem_nil, or_false] at he
              rcases he with rfl | rfl
              · exact hloose
              · exact hd
          · rw [(List.cons.inj heq).2, List.append_assoc]
            rfl
      · obtain ⟨more, _, rfl⟩ := readLiteral_cons hloose hread
        exact hloose ((List.cons.inj heq).1 ▸ hx)

/-- A literal that reads back as the value has no loose quote in it. -/
theorem safe_of_readLiteral (hrest : Closed q rest) : ∀ {v : List Char} {read : List Char × List Char},
    q.readLiteral (q.escape v ++ q.mark :: rest) = some read → read.1 = v → q.Safe v := by
  intro v
  induction v with
  | nil => exact fun _ _ c hc => absurd hc List.not_mem_nil
  | cons c v ih =>
    intro read hread heq
    by_cases hloose : q.Loose c
    · exfalso
      rcases readLiteral_loose hloose hread with hnil | ⟨d, more, hdoubled, hhead⟩ | ⟨d, v', more, rfl, hd, hmore, hhead⟩
      · rw [hnil] at heq
        cases heq
      · rw [hhead] at heq
        rw [(List.cons.inj heq).1, hloose.2] at hdoubled
        cases hdoubled
      · rw [hhead] at heq
        refine readLiteral_ahead hrest v'.length (u := [d]) le_rfl (List.cons_ne_nil _ _) ?_ more hmore ?_
        · intro e he
          rw [List.mem_singleton.mp he]
          exact hd
        · exact (List.cons.inj heq).2
    · obtain ⟨more, hmore, rfl⟩ := readLiteral_cons hloose hread
      have hv := ih hmore (List.cons.inj heq).2
      intro e he
      rcases List.mem_cons.mp he with rfl | he
      · intro hquote
        cases hdoubled : q.doubled e with
        | true => rfl
        | false => exact absurd ⟨hquote, hdoubled⟩ hloose
      · exact hv e he

end Literal

section Script
variable {code v : List Char} {pieces : List (List Char × List Char)} {t : Tokens}

theorem render_cons {after : List Char} : q.render (code, (v, after) :: pieces) =
    code ++ q.mark :: (q.escape v ++ q.mark :: q.render (after, pieces)) := by
  unfold render
  rw [List.flatMap_cons, List.cons_append, List.append_assoc, List.cons_append]

theorem Separated.tail {after : List Char} (h : q.Separated (code, (v, after) :: pieces)) :
    q.Separated (after, pieces) where
  code := fun text htext => h.code text (List.mem_cons_of_mem _ htext)
  between := by
    intro piece hpiece
    cases pieces with
    | nil => exact absurd hpiece List.not_mem_nil
    | cons next pieces => exact h.between piece (List.mem_cons_of_mem _ hpiece)

theorem closed_render {after : List Char} (h : q.Separated (code, (v, after) :: pieces)) :
    Closed q (q.render (after, pieces)) := by
  intro c hc
  cases after with
  | nil =>
    cases pieces with
    | nil => cases hc
    | cons next pieces => exact absurd rfl (h.between (v, []) (List.mem_cons_self ..))
  | cons d after =>
    rw [← Option.some.inj hc]
    exact h.code (d :: after) (List.mem_cons_of_mem _ (List.mem_cons_self ..)) d (List.mem_cons_self ..)

theorem separated_of_texts {texts : List (List Char)} (htexts : t.2.map Prod.snd = texts)
    (hcode : ∀ text ∈ t.1 :: texts, ∀ c ∈ text, q.quote c = false) (hbetween : ∀ text ∈ texts.dropLast, text ≠ []) :
    q.Separated t where
  code := by
    unfold Tokens.code
    rw [htexts]
    exact hcode
  between := fun piece hpiece => by
    have hmem := List.mem_map_of_mem (f := Prod.snd) hpiece
    rw [List.map_dropLast, htexts] at hmem
    exact hbetween piece.2 hmem

theorem tokensWithin_cons {fuel : Nat} {s : List Char} (hcode : ∀ c ∈ code, q.quote c = false) :
    q.tokensWithin (fuel + 1) (code ++ q.mark :: s) = (q.readLiteral s).bind fun read =>
      (q.tokensWithin fuel read.2).map fun tokens => (code, (read.1, tokens.1) :: tokens.2) := by
  have hall : ∀ c ∈ code, (!q.quote c) = true := fun c hc => by rw [hcode c hc]; rfl
  have hmark : ¬ (!q.quote q.mark) = true := by
    rw [quote_mark]
    decide
  have hdrop : (code ++ q.mark :: s).dropWhile (fun c => !q.quote c) = q.mark :: s := by
    rw [List.dropWhile_append_of_pos hall]
    exact List.dropWhile_cons_of_neg (p := fun c => !q.quote c) hmark
  have hstop : (q.mark :: s).takeWhile (fun c => !q.quote c) = [] :=
    List.takeWhile_cons_of_neg (p := fun c => !q.quote c) hmark
  have htake : (code ++ q.mark :: s).takeWhile (fun c => !q.quote c) = code := by
    rw [List.takeWhile_append_of_pos hall, hstop, List.append_nil]
  simp only [tokensWithin, hdrop, htake]

theorem tokensWithin_render (hsep : q.Separated (code, pieces)) (hsafe : ∀ piece ∈ pieces, q.Safe piece.1) :
    ∀ {fuel : Nat}, pieces.length < fuel → q.tokensWithin fuel (q.render (code, pieces)) = some (code, pieces) := by
  induction pieces generalizing code with
  | nil =>
    intro fuel hfuel
    obtain ⟨fuel, rfl⟩ : ∃ n, fuel = n + 1 := ⟨fuel - 1, by omega⟩
    have hall : code.dropWhile (fun c => !q.quote c) = [] := List.dropWhile_eq_nil_iff.mpr fun c hc => by
      rw [hsep.code code (List.mem_cons_self ..) c hc]
      rfl
    have hrender : q.render (code, []) = code := List.append_nil code
    simp only [tokensWithin, hrender, hall]
  | cons piece pieces ih =>
    intro fuel hfuel
    obtain ⟨v, after⟩ := piece
    obtain ⟨fuel, rfl⟩ : ∃ n, fuel = n + 1 := ⟨fuel - 1, by omega⟩
    rw [List.length_cons] at hfuel
    have hrest := ih hsep.tail (fun piece hp => hsafe piece (List.mem_cons_of_mem _ hp)) (show pieces.length < fuel by omega)
    rw [render_cons, tokensWithin_cons (hsep.code code (List.mem_cons_self ..)),
      readLiteral_escape (hsafe (v, after) (List.mem_cons_self ..)) (closed_render hsep), Option.bind_some, hrest]
    rfl

theorem length_le_render : pieces.length ≤ (q.render (code, pieces)).length := by
  induction pieces generalizing code with
  | nil => exact Nat.zero_le _
  | cons piece pieces ih =>
    obtain ⟨v, after⟩ := piece
    have hrest : pieces.length ≤ (q.render (after, pieces)).length := ih
    rw [render_cons]
    simp only [List.length_append, List.length_cons]
    omega

/-- A script with safe values reads back as it was put together. -/
theorem tokens_render (hsep : q.Separated t) (hsafe : ∀ v ∈ t.literals, q.Safe v) : q.tokens (q.render t) = some t := by
  obtain ⟨code, pieces⟩ := t
  exact tokensWithin_render hsep (fun piece hp => hsafe piece.1 (List.mem_map_of_mem hp))
    (Nat.lt_succ_of_le length_le_render)

theorem safe_of_tokensWithin (hsep : q.Separated (code, pieces)) : ∀ {fuel : Nat} {got : Tokens},
    q.tokensWithin fuel (q.render (code, pieces)) = some got → got.literals = pieces.map Prod.fst →
      ∀ piece ∈ pieces, q.Safe piece.1 := by
  induction pieces generalizing code with
  | nil => exact fun _ _ piece hp => absurd hp List.not_mem_nil
  | cons piece pieces ih =>
    intro fuel got hgot hliterals
    obtain ⟨v, after⟩ := piece
    cases fuel with
    | zero => cases hgot
    | succ fuel =>
      rw [render_cons, tokensWithin_cons (hsep.code code (List.mem_cons_self ..))] at hgot
      obtain ⟨read, hread, hgot⟩ := Option.bind_eq_some_iff.mp hgot
      obtain ⟨tokens, htokens, rfl⟩ := Option.map_eq_some_iff.mp hgot
      obtain ⟨hv, hrest⟩ := List.cons.inj hliterals
      have hsafe := safe_of_readLiteral (closed_render hsep) hread hv
      have hexact := readLiteral_escape hsafe (closed_render hsep)
      rw [hread] at hexact
      obtain rfl := Option.some.inj hexact
      intro piece hp
      rcases List.mem_cons.mp hp with rfl | hp
      · exact hsafe
      · exact ih hsep.tail htokens hrest piece hp

/-- The literals read back as the values exactly when all of them are safe. -/
theorem literals_render_iff (hsep : q.Separated t) :
    (q.tokens (q.render t)).map Tokens.literals = some t.literals ↔ ∀ v ∈ t.literals, q.Safe v := by
  constructor
  · intro h v hv
    obtain ⟨got, hgot, hliterals⟩ := Option.map_eq_some_iff.mp h
    obtain ⟨piece, hpiece, rfl⟩ := List.mem_map.mp hv
    exact safe_of_tokensWithin hsep hgot hliterals piece hpiece
  · intro h
    rw [tokens_render hsep h]
    rfl

end Script

end Quoting

end ProxmoxVEAutopilot.Foundation
