import ProxmoxVEAutopilot.Mcp.Redaction

/-!
# Where the secret pattern matches

A match is a first group, letters the class of the second one takes, and then the end or a
letter it leaves out. From this: what stands behind a marker does not change what the
substitution makes of the text up to it.
-/

namespace ProxmoxVEAutopilot.Mcp

open Foundation (isSpace sub sub_nil sub_some sub_none Consumes)

set_option autoImplicit false

variable {s g h r b y : List Char}

/-! ### Keywords -/

def words : List String := ["token=", "password=", "secret="]

/-- A spelling of the first group. -/
inductive Opens : List Char → Prop
  | assigned {g : List Char} {word : String} (hword : word ∈ words) (hg : g.map fold = word.toList) : Opens g
  | bearer {k spaces : List Char} (hk : k.map fold = "bearer".toList) (hne : spaces ≠ [])
    (hspaces : ∀ c ∈ spaces, isSpace c = true) : Opens (k ++ spaces)

theorem keyword?_append {word : String} (hg : g.map fold = word.toList) :
    keyword? word (g ++ s) = some (g, s) := by
  have hlen : word.length = g.length := by
    rw [← String.length_toList, ← hg, List.length_map]
  unfold keyword?
  rw [hlen, List.take_left, List.drop_left, if_pos hg]

theorem keyword?_eq_some {word : String} {p : List Char × List Char} (hs : keyword? word s = some p) :
    p.1.map fold = word.toList ∧ s = p.1 ++ p.2 := by
  unfold keyword? at hs
  split at hs
  · rename_i hfold
    cases hs
    exact ⟨hfold, (List.take_append_drop _ s).symm⟩
  · cases hs

theorem words_heads : ∀ word ∈ "bearer" :: words, ∀ other ∈ "bearer" :: words, word ≠ other →
    word.toList.head? ≠ other.toList.head? := by decide

theorem words_ne_nil : ∀ word ∈ "bearer" :: words, word.toList ≠ [] := by decide

theorem keyword?_other {word other : String} (hother : other ∈ "bearer" :: words)
    (hword : word ∈ "bearer" :: words) (hne : word ≠ other) (hg : g.map fold = other.toList) :
    keyword? word (g ++ s) = none := by
  rw [Option.eq_none_iff_forall_not_mem]
  intro p hp
  obtain ⟨hfold, heq⟩ := keyword?_eq_some (Option.mem_def.mp hp)
  have hg0 : g ≠ [] := by
    rintro rfl
    exact words_ne_nil other hother hg.symm
  have hp0 : p.1 ≠ [] := by
    intro h0
    rw [h0] at hfold
    exact words_ne_nil word hword hfold.symm
  refine words_heads word hword other hother hne ?_
  rw [← hg, ← hfold, List.head?_map, List.head?_map]
  have hleft : (g ++ s).head? = g.head? := List.head?_append_of_ne_nil g hg0
  have hright : (p.1 ++ p.2).head? = p.1.head? := List.head?_append_of_ne_nil p.1 hp0
  rw [← hleft, heq, hright]

theorem assignedAt_other {word other : String} (hother : other ∈ "bearer" :: words)
    (hword : word ∈ words) (hne : word ≠ other) (hg : g.map fold = other.toList) :
    assignedAt word (g ++ s) = none := by
  unfold assignedAt
  rw [keyword?_other hother (List.mem_cons_of_mem _ hword) hne hg]

theorem assignedAt_append {word : String} (hg : g.map fold = word.toList) :
    assignedAt word (g ++ s) = covered g s := by
  unfold assignedAt
  rw [keyword?_append hg]

theorem secretAt_assigned {word : String} (hword : word ∈ words) (hg : g.map fold = word.toList) :
    secretAt (g ++ s) = covered g s := by
  have hmem : word ∈ "bearer" :: words := List.mem_cons_of_mem _ hword
  have hbearer : bearerAt (g ++ s) = none := by
    unfold bearerAt
    have hne : "bearer" ≠ word := by
      rintro rfl
      revert hword
      decide
    rw [keyword?_other hmem List.mem_cons_self hne hg]
  have hown := assignedAt_append (s := s) hg
  have hother : ∀ other ∈ words, other ≠ word → assignedAt other (g ++ s) = none :=
    fun other ho hne => assignedAt_other hmem ho hne hg
  unfold secretAt
  rw [hbearer, Option.none_or]
  simp only [words, List.mem_cons, List.not_mem_nil, or_false] at hword hother
  rcases hword with rfl | rfl | rfl
  · rw [hown, hother "password=" (by simp) (by decide), hother "secret=" (by simp) (by decide)]
    simp
  · rw [hown, hother "token=" (by simp) (by decide), hother "secret=" (by simp) (by decide)]
    simp
  · rw [hown, hother "token=" (by simp) (by decide), hother "password=" (by simp) (by decide)]
    simp

/-- `\s+` and the second group. -/
def spacesAt (word s : List Char) : Option (List Char × List Char) :=
  match s.takeWhile isSpace with
  | [] => none
  | [c] => covered (word ++ [c]) (s.dropWhile isSpace)
  | spaces => (covered (word ++ spaces) (s.dropWhile isSpace)).or
      (some (word ++ spaces.dropLast, s.dropWhile isSpace))

theorem bearerAt_append {k : List Char} (hk : k.map fold = "bearer".toList) :
    bearerAt (k ++ s) = spacesAt k s := by
  unfold bearerAt spacesAt
  rw [keyword?_append hk]
  dsimp only
  generalize s.takeWhile isSpace = spaces
  rcases spaces with _ | ⟨c, _ | ⟨d, spaces⟩⟩ <;> rfl

theorem secretAt_bearer {k : List Char} (hk : k.map fold = "bearer".toList) :
    secretAt (k ++ s) = spacesAt k s := by
  have hother : ∀ other ∈ words, other ≠ "bearer" → assignedAt other (k ++ s) = none :=
    fun other ho hne => assignedAt_other List.mem_cons_self ho hne hk
  simp only [words, List.mem_cons, List.not_mem_nil, or_false] at hother
  unfold secretAt
  rw [bearerAt_append hk, hother "token=" (by simp) (by decide), hother "password=" (by simp) (by decide),
    hother "secret=" (by simp) (by decide)]
  simp

/-! ### Matches -/

theorem fold_of_isSpace {c : Char} (hc : isSpace c = true) : fold c = c := by
  have hlow : c.toNat < 65 ∨ 90 < c.toNat := by
    simp only [isSpace, Bool.or_eq_true, Bool.and_eq_true, decide_eq_true_eq, beq_iff_eq] at hc
    omega
  have hlower : c.toLower = c := by
    unfold Char.toLower
    have hval : c.toNat = c.val.toNat := rfl
    rw [dif_neg]
    rintro ⟨hge, hle⟩
    have hge' : 65 ≤ c.val.toNat := hge
    have hle' : c.val.toNat ≤ 90 := hle
    omega
  have h1 : c.toNat ≠ 0x212A ∧ c.toNat ≠ 0x130 ∧ c.toNat ≠ 0x131 ∧ c.toNat ≠ 0x17F := by
    simp only [isSpace, Bool.or_eq_true, Bool.and_eq_true, decide_eq_true_eq, beq_iff_eq] at hc
    omega
  unfold fold
  rw [if_neg h1.1, if_neg (not_or.mpr ⟨h1.2.1, h1.2.2.1⟩), if_neg h1.2.2.2, hlower]

theorem isStop_of_isSpace {c : Char} (hc : isSpace c = true) : isStop c = false := by
  have hother : ∀ d ∈ ['s', '\\', '&'], c ≠ d := by
    intro d hd heq
    have hstop : ∀ d ∈ ['s', '\\', '&'], isSpace d = false := by simp [isSpace]
    rw [heq, hstop d hd] at hc
    cases hc
  simp only [List.mem_cons, List.not_mem_nil, or_false] at hother
  simp [isStop, fold_of_isSpace hc, hother]

/-- The text `r` behind a match: nothing, or a letter that the class leaves out. -/
def Stops (r : List Char) : Prop := ∀ c ∈ r.head?, isStop c = true

structure Match (s g h r : List Char) : Prop where
  opens : Opens g
  text : s = g ++ h ++ r
  nonempty : h ≠ []
  plain : ∀ c ∈ h, isStop c = false
  stops : Stops r
  /-- A space at the start of the second group was given up by the first. -/
  greedy : (∃ word ∈ words, g.map fold = word.toList) ∨ (∀ c ∈ h.head?, isSpace c = false) ∨ ∃ c, h = [c]

theorem stops_dropWhile : Stops (s.dropWhile (!isStop ·)) := by
  intro c hc
  have hhead := List.head?_dropWhile_not (!isStop ·) s
  rw [Option.mem_def.mp hc] at hhead
  simpa using hhead

theorem dropWhile_append_stops (hh : ∀ c ∈ h, isStop c = false) (hr : Stops r) :
    (h ++ r).dropWhile (!isStop ·) = r := by
  rw [List.dropWhile_append_of_pos (by simpa using hh)]
  cases r with
  | nil => rfl
  | cons c r =>
    have hc := hr c rfl
    rw [List.dropWhile_cons_of_neg (by simp [hc])]

theorem covered_append (hne : h ≠ []) (hh : ∀ c ∈ h, isStop c = false) (hr : Stops r) :
    covered g (h ++ r) = some (g, r) := by
  cases h with
  | nil => exact absurd rfl hne
  | cons c h =>
    have hc := hh c List.mem_cons_self
    rw [List.cons_append]
    simp only [covered, hc, Bool.false_eq_true, if_false]
    have hdrop := dropWhile_append_stops hh hr
    rw [List.cons_append] at hdrop
    rw [hdrop]

theorem covered_stops (hr : Stops r) : covered g r = none := by
  cases r with
  | nil => rfl
  | cons c r =>
    have hc := hr c rfl
    simp only [covered, hc, if_true]

theorem covered_eq_some {p : List Char × List Char} (hs : covered g s = some p) :
    p.1 = g ∧ ∃ h, s = h ++ p.2 ∧ h ≠ [] ∧ (∀ c ∈ h, isStop c = false) ∧ Stops p.2 := by
  cases s with
  | nil => cases hs
  | cons c s =>
    simp only [covered] at hs
    by_cases hc : isStop c = true
    · rw [if_pos hc] at hs
      cases hs
    · rw [if_neg hc] at hs
      cases hs
      refine ⟨rfl, (c :: s).takeWhile (!isStop ·), (List.takeWhile_append_dropWhile).symm, ?_, ?_,
        stops_dropWhile⟩
      · rw [List.takeWhile_cons_of_pos (by simpa using hc)]
        exact List.cons_ne_nil _ _
      · intro d hd
        simpa using List.mem_takeWhile_imp hd

theorem spacesAt_covered {k : List Char} (spaces rest : List Char) {p : List Char × List Char}
    (hs : s.takeWhile isSpace = spaces) (hrest : s.dropWhile isSpace = rest) (hne : spaces ≠ [])
    (hp : covered (k ++ spaces) rest = some p) : spacesAt k s = some p := by
  unfold spacesAt
  rw [hs, hrest]
  rcases spaces with _ | ⟨c, _ | ⟨d, spaces⟩⟩
  · exact absurd rfl hne
  · exact hp
  · exact (congrArg (Option.or · _) hp).trans Option.some_or

theorem spacesAt_gave_up {k spaces rest : List Char} {c : Char}
    (hs : s.takeWhile isSpace = spaces ++ [c]) (hrest : s.dropWhile isSpace = rest) (hne : spaces ≠ [])
    (hstops : Stops rest) : spacesAt k s = some (k ++ spaces, rest) := by
  unfold spacesAt
  rw [hs, hrest]
  rcases spaces with _ | ⟨d, _ | ⟨e, spaces⟩⟩
  · exact absurd rfl hne
  · exact congrArg (Option.or · _) (covered_stops hstops)
  · refine (congrArg (Option.or · _) (covered_stops hstops)).trans ?_
    rw [Option.none_or]
    have hdrop : (d :: e :: spaces ++ [c]).dropLast = d :: e :: spaces := List.dropLast_concat
    exact congrArg (fun l => some (k ++ l, rest)) hdrop

theorem match_of_spacesAt {k : List Char} {p : List Char × List Char} (hk : k.map fold = "bearer".toList)
    (hs : spacesAt k s = some p) : ∃ h, Match (k ++ s) p.1 h p.2 := by
  have hsplit : s = s.takeWhile isSpace ++ s.dropWhile isSpace := (List.takeWhile_append_dropWhile).symm
  have hspaces : ∀ c ∈ s.takeWhile isSpace, isSpace c = true := fun c hc => List.mem_takeWhile_imp hc
  have hhead := List.head?_dropWhile_not isSpace s
  generalize htake : s.takeWhile isSpace = spaces at hsplit hspaces
  generalize hdrop : s.dropWhile isSpace = rest at hsplit hhead
  -- all of the spaces belong to the first group
  have hfull : spaces ≠ [] → covered (k ++ spaces) rest = some p → ∃ h, Match (k ++ s) p.1 h p.2 := by
    intro hne hp
    obtain ⟨hg, h, hrest, hh, hplain, hstops⟩ := covered_eq_some hp
    refine ⟨h, hg ▸ .bearer hk hne hspaces, ?_, hh, hplain, hstops, .inr (.inl fun c hc => ?_)⟩
    · rw [hg, hsplit, hrest]
      simp only [List.append_assoc]
    · rw [hrest, List.head?_append_of_ne_nil h hh, Option.mem_def.mp hc] at hhead
      simpa using hhead
  unfold spacesAt at hs
  rw [htake, hdrop] at hs
  rcases spaces with _ | ⟨c, _ | ⟨d, spaces⟩⟩
  · cases hs
  · exact hfull (List.cons_ne_nil _ _) hs
  · cases hcov : covered (k ++ c :: d :: spaces) rest with
    | some q =>
      have hq : some q = some p := Option.some_or.symm.trans ((congrArg (Option.or · _) hcov).symm.trans hs)
      exact hfull (List.cons_ne_nil _ _) (hcov.trans hq)
    | none =>
      have hp : some (k ++ (c :: d :: spaces).dropLast, rest) = some p :=
        Option.none_or.symm.trans ((congrArg (Option.or · _) hcov).symm.trans hs)
      cases hp
      have hlast : (c :: d :: spaces).dropLast ++ [(c :: d :: spaces).getLast (List.cons_ne_nil _ _)]
          = c :: d :: spaces := List.dropLast_append_getLast _
      have hlastSpace := hspaces _ (List.getLast_mem (List.cons_ne_nil c (d :: spaces)))
      generalize (c :: d :: spaces).getLast (List.cons_ne_nil _ _) = last at hlast hlastSpace
      refine ⟨[last], .bearer hk (by simp) fun e he => hspaces e (List.mem_of_mem_dropLast he), ?_,
        List.cons_ne_nil _ _, ?_, ?_, .inr (.inr ⟨last, rfl⟩)⟩
      · rw [hsplit]
        conv_lhs => rw [← hlast]
        simp only [List.append_assoc]
      · intro e he
        rw [List.mem_singleton.mp he]
        exact isStop_of_isSpace hlastSpace
      · intro e he
        obtain ⟨tail, rfl⟩ : ∃ tail, rest = e :: tail := by
          cases rest with
          | nil => cases he
          | cons a tail =>
            cases he
            exact ⟨tail, rfl⟩
        by_contra hstop
        simp only [covered] at hcov
        rw [if_neg hstop] at hcov
        cases hcov

theorem secretAt_of_match (hm : Match s g h r) : secretAt s = some (g, r) := by
  have hcov := covered_append (g := g) hm.nonempty hm.plain hm.stops
  have hassigned : ∀ word ∈ words, g.map fold = word.toList → secretAt s = some (g, r) := by
    intro word hword hg
    rw [hm.text, List.append_assoc, secretAt_assigned hword hg, hcov]
  rcases hm.greedy with ⟨word, hword, hg⟩ | hhead
  · exact hassigned word hword hg
  · have hopens := hm.opens
    cases hopens with
    | assigned hword hg => exact hassigned _ hword hg
    | @bearer k spaces hk hne hspaces =>
      have htext : s = k ++ (spaces ++ (h ++ r)) := by
        rw [hm.text]
        simp only [List.append_assoc]
      rw [htext, secretAt_bearer hk]
      have hkeep : ∀ t : List Char, (∀ c ∈ t.head?, isSpace c = false) →
          t.takeWhile isSpace = [] ∧ t.dropWhile isSpace = t := by
        intro t ht
        cases t with
        | nil => exact ⟨rfl, rfl⟩
        | cons c t =>
          have hc := ht c rfl
          rw [List.takeWhile_cons_of_neg (by simp [hc]), List.dropWhile_cons_of_neg (by simp [hc])]
          exact ⟨rfl, rfl⟩
      have hr : ∀ c ∈ r.head?, isSpace c = false := by
        intro c hc
        by_contra hsp
        have hno := isStop_of_isSpace (Bool.eq_true_of_not_eq_false hsp)
        rw [hm.stops c hc] at hno
        cases hno
      by_cases hsp : ∀ c ∈ h.head?, isSpace c = false
      · have hmid : ∀ c ∈ (h ++ r).head?, isSpace c = false := by
          rw [List.head?_append_of_ne_nil h hm.nonempty]
          exact hsp
        refine spacesAt_covered spaces (h ++ r) ?_ ?_ hne hcov
        · rw [List.takeWhile_append_of_pos hspaces, (hkeep _ hmid).1, List.append_nil]
        · rw [List.dropWhile_append_of_pos hspaces, (hkeep _ hmid).2]
      · obtain ⟨c, rfl⟩ := hhead.resolve_left hsp
        have hc : isSpace c = true := by
          simpa using hsp
        have hall : ∀ d ∈ spaces ++ [c], isSpace d = true := by
          intro d hd
          rcases List.mem_append.mp hd with hd | hd
          · exact hspaces d hd
          · rw [List.mem_singleton.mp hd]
            exact hc
        rw [← List.append_assoc]
        refine spacesAt_gave_up (c := c) ?_ ?_ hne hm.stops
        · rw [List.takeWhile_append_of_pos hall, (hkeep r hr).1, List.append_nil]
        · rw [List.dropWhile_append_of_pos hall, (hkeep r hr).2]

theorem secretAt_eq_some_iff : secretAt s = some (g, r) ↔ ∃ h, Match s g h r := by
  constructor
  · intro hs
    have hassigned : ∀ word ∈ words, assignedAt word s = some (g, r) → ∃ h, Match s g h r := by
      intro word hword hat
      unfold assignedAt at hat
      cases hkey : keyword? word s with
      | none =>
        rw [hkey] at hat
        cases hat
      | some p =>
        rw [hkey] at hat
        obtain ⟨hfold, heq⟩ := keyword?_eq_some hkey
        obtain ⟨hg, h, hrest, hne, hplain, hstops⟩ := covered_eq_some hat
        rw [← hg] at hfold
        refine ⟨h, .assigned hword hfold, ?_, hne, hplain, hstops, .inl ⟨word, hword, hfold⟩⟩
        rw [heq, hrest, ← hg, List.append_assoc]
    unfold secretAt at hs
    simp only [Option.or_eq_some_iff] at hs
    rcases hs with hb | ⟨_, ht | ⟨_, hp | ⟨_, hs⟩⟩⟩
    · cases hkey : keyword? "bearer" s with
      | none =>
        rw [bearerAt, hkey] at hb
        cases hb
      | some p =>
        obtain ⟨hfold, heq⟩ := keyword?_eq_some hkey
        rw [heq, bearerAt_append hfold] at hb
        rw [heq]
        exact match_of_spacesAt hfold hb
    · exact hassigned "token=" (by simp [words]) ht
    · exact hassigned "password=" (by simp [words]) hp
    · exact hassigned "secret=" (by simp [words]) hs
  · rintro ⟨h, hm⟩
    exact secretAt_of_match hm

theorem Match.some (hm : Match s g h r) : secretAt s = some (g, r) := secretAt_of_match hm

theorem Opens.snoc_space {c : Char} (hg : Opens g) (hword : ¬ ∃ word ∈ words, g.map fold = word.toList)
    (hc : isSpace c = true) : Opens (g ++ [c]) := by
  cases hg with
  | assigned hw hg => exact absurd ⟨_, hw, hg⟩ hword
  | bearer hk hne hspaces =>
    rw [List.append_assoc]
    refine .bearer hk (by simp) fun d hd => ?_
    rcases List.mem_append.mp hd with hd | hd
    · exact hspaces d hd
    · rw [List.mem_singleton.mp hd]
      exact hc

theorem exists_match : ∀ (s g : List Char) (c : Char), Opens g → isStop c = false →
    ∃ g' h r, Match (g ++ c :: s) g' h r := by
  intro s
  induction s with
  | nil =>
    intro g c hg hc
    refine ⟨g, [c], [], hg, by simp, List.cons_ne_nil _ _, by simpa using hc, ?_, .inr (.inr ⟨c, rfl⟩)⟩
    intro d hd
    cases hd
  | cons d s ih =>
    intro g c hg hc
    by_cases hgreedy : (∃ word ∈ words, g.map fold = word.toList) ∨ isSpace c = false
    · refine ⟨g, (c :: d :: s).takeWhile (!isStop ·), (c :: d :: s).dropWhile (!isStop ·), hg, ?_, ?_, ?_,
        stops_dropWhile, ?_⟩
      · rw [List.append_assoc, List.takeWhile_append_dropWhile]
      · rw [List.takeWhile_cons_of_pos (by simpa using hc)]
        exact List.cons_ne_nil _ _
      · intro e he
        simpa using List.mem_takeWhile_imp he
      · rcases hgreedy with hword | hsp
        · exact .inl hword
        · refine .inr (.inl ?_)
          rw [List.takeWhile_cons_of_pos (by simpa using hc)]
          intro e he
          cases he
          exact hsp
    · rw [not_or] at hgreedy
      have hsp : isSpace c = true := by simpa using hgreedy.2
      by_cases hd : isStop d = true
      · refine ⟨g, [c], d :: s, hg, by simp, List.cons_ne_nil _ _, by simpa using hc, ?_,
          .inr (.inr ⟨c, rfl⟩)⟩
        intro e he
        cases he
        exact hd
      · -- the first group takes this space as well
        obtain ⟨g', h, r, hm⟩ := ih (g ++ [c]) d (hg.snoc_space hgreedy.1 hsp) (by simpa using hd)
        rw [List.append_assoc] at hm
        exact ⟨g', h, r, hm⟩

theorem secretAt_ne_none {c : Char} (hg : Opens g) (hc : isStop c = false) : secretAt (g ++ c :: s) ≠ none := by
  obtain ⟨g', h, r, hm⟩ := exists_match s g c hg hc
  rw [hm.some]
  exact Option.some_ne_none _

theorem secretAt_eq_none_of (hno : ∀ g h r, ¬ Match s g h r) : secretAt s = none := by
  rw [Option.eq_none_iff_forall_not_mem]
  rintro ⟨g, r⟩ hp
  obtain ⟨h, hm⟩ := secretAt_eq_some_iff.mp (Option.mem_def.mp hp)
  exact hno g h r hm

/-! ### The substitution -/

theorem Opens.ne_nil (hg : Opens g) : g ≠ [] := by
  cases hg with
  | assigned hw hg =>
    rintro rfl
    exact words_ne_nil _ (List.mem_cons_of_mem _ hw) hg.symm
  | bearer hk hne hspaces => simp [hne]

theorem consumes : Consumes fun t => (secretAt t).map fun m => (m.1 ++ redactedText, m.2) := by
  intro c s text rest hs
  obtain ⟨⟨g, r⟩, hat, heq⟩ := Option.map_eq_some_iff.mp hs
  cases heq
  obtain ⟨h, hm⟩ := secretAt_eq_some_iff.mp hat
  have hlen := congrArg List.length hm.text
  have hg := List.length_pos_iff.mpr hm.opens.ne_nil
  simp only [List.length_cons, List.length_append] at hlen
  change r.length ≤ s.length
  omega

@[simp] theorem redactSecrets_nil : redactSecrets [] = [] := rfl

theorem redactSecrets_match (hm : Match s g h r) :
    redactSecrets s = g ++ redactedText ++ redactSecrets r := by
  have hne : s ≠ [] := by
    rw [hm.text]
    simp [hm.opens.ne_nil]
  refine sub_some consumes hne ?_
  rw [hm.some]
  rfl

theorem redactSecrets_cons {c : Char} (hs : secretAt (c :: s) = none) :
    redactSecrets (c :: s) = c :: redactSecrets s := by
  refine sub_none ?_
  rw [hs]
  rfl

theorem redactSecrets_plain (hb : ∀ t, t ≠ [] → t <:+ b → secretAt (t ++ y) = none) :
    redactSecrets (b ++ y) = b ++ redactSecrets y := by
  induction b with
  | nil => rfl
  | cons c b ih =>
    have hc : secretAt (c :: (b ++ y)) = none := hb (c :: b) (List.cons_ne_nil _ _) List.suffix_rfl
    rw [List.cons_append, redactSecrets_cons hc, ih fun t ht hsuf => hb t ht (hsuf.trans (List.suffix_cons c b))]
    rfl

/-! ### Behind a marker -/

/-- The last letter of a marker, which no first group holds before its end, or else it has
only spaces behind it. -/
def Separates (e : Char) : Prop := e = '=' ∨ e = ' '

theorem eq_of_fold_eq {c e : Char} (he : Separates e) (hc : fold c = e) : c = e := by
  have hval : e.toNat = 61 ∨ e.toNat = 32 := by
    rcases he with rfl | rfl
    · exact .inl rfl
    · exact .inr rfl
  unfold fold at hc
  split at hc
  · subst hc
    exact absurd hval (by decide)
  · split at hc
    · subst hc
      exact absurd hval (by decide)
    · split at hc
      · subst hc
        exact absurd hval (by decide)
      · unfold Char.toLower at hc
        split at hc
        · rename_i hup
          have hlow := congrArg Char.toNat hc
          have hge : 65 ≤ c.val.toNat := hup.1
          have hle : c.val.toNat ≤ 90 := hup.2
          have hsum : (c.val + 32).toNat = c.val.toNat + 32 := by
            rw [UInt32.toNat_add, Nat.mod_eq_of_lt]
            · rfl
            · change c.val.toNat + 32 < 2 ^ 32
              omega
          change (c.val + 32).toNat = e.toNat at hlow
          omega
        · exact hc

theorem fold_of_separates {e : Char} (he : Separates e) : fold e = e := by
  rcases he with rfl | rfl <;> decide

theorem separates_not_in_words {e : Char} (he : Separates e) :
    e ∉ "bearer".toList ∧ ∀ word ∈ words, e ∉ word.toList.dropLast := by
  rcases he with rfl | rfl <;> decide

theorem opens_split {b₀ a : List Char} {e : Char} (he : Separates e) (hg : Opens (b₀ ++ e :: a)) (ha : a ≠ []) :
    Opens (b₀ ++ [e]) ∧ ∀ c ∈ a, isSpace c = true := by
  generalize hs : b₀ ++ e :: a = g at hg
  cases hg with
  | @assigned _ word hword hfold =>
    exfalso
    refine (separates_not_in_words he).2 word hword ?_
    have hcons : e :: a ≠ [] := List.cons_ne_nil _ _
    rw [← hfold, ← hs, List.map_append, List.dropLast_append_of_ne_nil (by simp), List.map_cons, fold_of_separates he,
      List.dropLast_cons_of_ne_nil (by simpa using ha)]
    simp
  | @bearer k spaces hk hne hspaces =>
    have hek : e ∉ k := fun hmem => (separates_not_in_words he).1
      (hk ▸ List.mem_map.mpr ⟨e, hmem, fold_of_separates he⟩)
    rcases List.append_eq_append_iff.mp hs with ⟨c, hkc, hrest⟩ | ⟨c, hb, hrest⟩
    · -- the letter is behind the word or in it
      cases c with
      | nil =>
        rw [List.append_nil] at hkc
        rw [List.nil_append] at hrest
        subst hkc
        refine ⟨.bearer hk (List.cons_ne_nil _ _) ?_, fun d hd => hspaces d (hrest ▸ List.mem_cons_of_mem _ hd)⟩
        intro d hd
        rw [List.mem_singleton.mp hd]
        exact hspaces e (hrest ▸ List.mem_cons_self)
      | cons d c =>
        rw [List.cons_append, List.cons.injEq] at hrest
        refine absurd ?_ hek
        rw [hkc, hrest.1]
        simp
    · subst hb
      rw [List.append_assoc]
      refine ⟨.bearer hk (by simp) ?_, fun d hd => hspaces d ?_⟩
      · intro d hd
        refine hspaces d ?_
        rw [hrest]
        rcases List.mem_append.mp hd with hd | hd
        · exact List.mem_append_left _ hd
        · rw [List.mem_singleton.mp hd]
          simp
      · rw [hrest]
        simp [hd]

/-- The end of a marker; a second space would go to the marker before it. -/
def Ends (b : List Char) : Prop :=
  ∃ b₀ e, b = b₀ ++ [e] ∧ Separates e ∧ ∀ c ∈ b₀.getLast?, isSpace c = false

theorem Ends.suffix {t : List Char} (hb : Ends b) (ht : t ≠ []) (hsuf : t <:+ b) : Ends t := by
  obtain ⟨b₀, e, rfl, he, hlast⟩ := hb
  obtain ⟨pre, hpre⟩ := hsuf
  obtain ⟨t₀, d, rfl⟩ := List.eq_nil_or_concat t |>.resolve_left ht
  rw [List.concat_eq_append] at hpre ⊢
  rw [← List.append_assoc] at hpre
  obtain ⟨hfirst, hd⟩ := List.append_inj' hpre rfl
  obtain rfl : d = e := List.singleton_inj.mp hd
  refine ⟨t₀, d, rfl, he, fun c hc => hlast c ?_⟩
  rw [← hfirst]
  exact List.mem_getLast?_append_of_mem_getLast? hc

/-- What the substitution is in behind a text: between two matches, behind a first group, or in a
second group. -/
inductive Behind
  | search | armed | covering

/-- What comes out for the rest `y` of the text. -/
def Behind.after : Behind → List Char → List Char
  | .search, y => redactSecrets y
  | .armed, [] => []
  | .armed, c :: y =>
    if isStop c then redactSecrets (c :: y)
    else redactedText ++ redactSecrets ((c :: y).dropWhile (!isStop ·))
  | .covering, y => redactSecrets (y.dropWhile (!isStop ·))

theorem Opens.snoc (hg : Opens g) : ∃ g₀ e, g = g₀ ++ [e] ∧ (e = '=' ∨ isSpace e = true) := by
  obtain ⟨g₀, e, rfl⟩ := List.eq_nil_or_concat g |>.resolve_left hg.ne_nil
  rw [List.concat_eq_append] at hg ⊢
  refine ⟨g₀, e, rfl, ?_⟩
  generalize hs : g₀ ++ [e] = g at hg
  cases hg with
  | @assigned _ word hword hfold =>
    have hlast : ∀ word ∈ words, word.toList.getLast? = some '=' := by decide
    have heq := hlast word hword
    rw [← hfold, ← hs, List.map_append, List.map_singleton, List.getLast?_concat] at heq
    exact .inl (eq_of_fold_eq (.inl rfl) (Option.some.inj heq))
  | @bearer k spaces hk hne hspaces =>
    have hlast := congrArg List.getLast? hs
    rw [List.getLast?_concat, List.getLast?_append_of_ne_nil k hne] at hlast
    exact .inr (hspaces e (List.mem_of_getLast? hlast.symm))

theorem Opens.body (hg : Opens b) (hb : Ends b) :
    ∃ b₀ e, b = b₀ ++ [e] ∧ ∀ c ∈ b₀, ¬ (c = '=' ∨ isSpace c = true) := by
  obtain ⟨b₀, e, rfl, he, hlast⟩ := hb
  refine ⟨b₀, e, rfl, ?_⟩
  have hletters : ∀ (k : List Char) (l : List Char), (∀ c ∈ l, ¬ (c = '=' ∨ isSpace c = true)) → k.map fold = l →
      ∀ c ∈ k, ¬ (c = '=' ∨ isSpace c = true) := by
    intro k l hl hk c hc
    have hmem : fold c ∈ l := hk ▸ List.mem_map_of_mem hc
    rintro (rfl | hsp)
    · exact hl _ hmem (.inl rfl)
    · exact hl _ hmem (.inr (by rw [fold_of_isSpace hsp]; exact hsp))
  generalize hs : b₀ ++ [e] = g at hg
  cases hg with
  | @assigned _ word hword hfold =>
    have hl : ∀ word ∈ words, ∀ c ∈ word.toList.dropLast, ¬ (c = '=' ∨ isSpace c = true) := by
      simp [words, isSpace]
    refine hletters b₀ word.toList.dropLast (hl word hword) ?_
    rw [← hfold, ← hs, List.map_append, List.map_singleton, List.dropLast_concat]
  | @bearer k spaces hk hne hspaces =>
    have hl : ∀ c ∈ "bearer".toList, ¬ (c = '=' ∨ isSpace c = true) := by simp [isSpace]
    obtain ⟨sp, d, rfl⟩ := List.eq_nil_or_concat spaces |>.resolve_left hne
    rw [List.concat_eq_append, ← List.append_assoc] at hs
    obtain ⟨hfirst, _⟩ := List.append_inj' hs rfl
    -- a second space before the end is what the marker excludes
    have hsp : sp = [] := by
      by_contra hsp
      have hd := List.getLast?_eq_some_getLast hsp
      have hin := hlast (sp.getLast hsp) (by rw [hfirst, List.getLast?_append_of_ne_nil k hsp, hd]; rfl)
      rw [hspaces _ (by simp [List.getLast_mem hsp])] at hin
      cases hin
    rw [hfirst, hsp, List.append_nil]
    exact hletters k _ hl hk

theorem Match.append_right (hm : Match s g h r) (hr : r ≠ []) : Match (s ++ y) g h (r ++ y) where
  opens := hm.opens
  text := by rw [hm.text, List.append_assoc]
  nonempty := hm.nonempty
  plain := hm.plain
  stops := by
    intro c hc
    rw [List.head?_append_of_ne_nil r hr] at hc
    exact hm.stops c hc
  greedy := hm.greedy

theorem Match.extend (hm : Match b g h []) (hb : Ends b) :
    Match (b ++ y) g (h ++ y.takeWhile (!isStop ·)) (y.dropWhile (!isStop ·)) where
  opens := hm.opens
  text := by
    rw [hm.text]
    simp only [List.append_nil, List.append_assoc, List.takeWhile_append_dropWhile]
  nonempty := by simp [hm.nonempty]
  plain := by
    intro c hc
    rcases List.mem_append.mp hc with hc | hc
    · exact hm.plain c hc
    · simpa using List.mem_takeWhile_imp hc
  stops := stops_dropWhile
  greedy := by
    rcases hm.greedy with hword | hhead | ⟨c, rfl⟩
    · exact .inl hword
    · refine .inr (.inl ?_)
      rw [List.head?_append_of_ne_nil h hm.nonempty]
      exact hhead
    · have hopens := hm.opens
      cases hopens with
      | assigned hword hfold => exact .inl ⟨_, hword, hfold⟩
      | @bearer k spaces hk hne hspaces =>
        obtain ⟨b₀, e, hbe, _, hlast⟩ := hb
        rw [hm.text, List.append_nil] at hbe
        obtain ⟨hfirst, _⟩ := List.append_inj' hbe rfl
        have hd := List.getLast?_eq_some_getLast hne
        have hin := hlast (spaces.getLast hne) (by
          rw [← hfirst, List.getLast?_append_of_ne_nil k hne, hd]
          rfl)
        rw [hspaces _ (List.getLast_mem hne)] at hin
        cases hin

theorem secretAt_append_none (hb : Ends b) (hat : secretAt b = none) (hopens : ¬ Opens b) :
    secretAt (b ++ y) = none := by
  apply secretAt_eq_none_of
  intro g h r hm
  have htext := hm.text
  rw [List.append_assoc] at htext
  rcases List.append_eq_append_iff.mp htext with ⟨a, hg, _⟩ | ⟨c, hbg, hrest⟩
  · obtain ⟨b₀, e, rfl, he, _⟩ := hb
    refine hopens ?_
    by_cases ha : a = []
    · rw [ha, List.append_nil] at hg
      exact hg ▸ hm.opens
    · rw [List.append_assoc] at hg
      exact (opens_split he (hg ▸ hm.opens) ha).1
  · cases c with
    | nil =>
      rw [List.append_nil] at hbg
      exact hopens (hbg ▸ hm.opens)
    | cons d c =>
      cases hh : h with
      | nil => exact hm.nonempty hh
      | cons d' h' =>
        rw [hh, List.cons_append, List.cons_append, List.cons.injEq] at hrest
        have hplain := hm.plain d' (hh ▸ List.mem_cons_self)
        rw [hbg, ← hrest.1] at hat
        exact secretAt_ne_none hm.opens hplain hat

/-- A first group with nothing for the second one stays as it is. -/
theorem redactSecrets_opens (hg : Opens b) (hb : Ends b) (hy : Stops y) :
    redactSecrets (b ++ y) = b ++ redactSecrets y := by
  apply redactSecrets_plain
  intro t ht hsuf
  apply secretAt_eq_none_of
  intro g h r hm
  have hstop : ∀ a, y = a ++ (h ++ r) → (∀ c ∈ a, isStop c = false) → False := by
    rintro a rfl ha
    have hne : a ++ h ≠ [] := by simp [hm.nonempty]
    obtain ⟨d, rest, hd⟩ := List.exists_cons_of_ne_nil hne
    have hmem : d ∈ a ++ h := hd ▸ List.mem_cons_self
    have hno : isStop d = false := (List.mem_append.mp hmem).elim (ha d) (hm.plain d)
    rw [← List.append_assoc, hd] at hy
    rw [hy d rfl] at hno
    cases hno
  have htext := hm.text
  rw [List.append_assoc] at htext
  rcases List.append_eq_append_iff.mp htext with ⟨a, hga, hya⟩ | ⟨c, htg, hrest⟩
  · refine hstop a hya fun d hd => isStop_of_isSpace ?_
    obtain ⟨t₀, e, rfl, he, _⟩ := hb.suffix ht hsuf
    rw [List.append_assoc] at hga
    exact (opens_split he (hga ▸ hm.opens) (List.ne_nil_of_mem hd)).2 d hd
  · by_cases hc : c = []
    · rw [hc, List.nil_append] at hrest
      exact hstop [] hrest.symm (by simp)
    · -- the end of that group would stand inside this one
      obtain ⟨g₀, e, rfl, he⟩ := hm.opens.snoc
      obtain ⟨b₀, last, hbl, hbody⟩ := hg.body hb
      obtain ⟨pre, hpre⟩ := hsuf
      obtain ⟨c₀, d, rfl⟩ := List.eq_nil_or_concat c |>.resolve_left hc
      rw [htg, hbl, List.concat_eq_append, ← List.append_assoc, ← List.append_assoc] at hpre
      obtain ⟨hfirst, _⟩ := List.append_inj' hpre rfl
      refine hbody e ?_ he
      rw [← hfirst]
      simp

theorem redactSecrets_append : ∀ (n : Nat) (b : List Char), b.length ≤ n → b = [] ∨ Ends b →
    ∃ behind : Behind, ∀ y : List Char, (∀ c ∈ y.head?, isSpace c = false) →
      redactSecrets (b ++ y) = redactSecrets b ++ behind.after y := by
  intro n
  induction n with
  | zero =>
    intro b hlen _
    obtain rfl := List.length_eq_zero_iff.mp (Nat.le_zero.mp hlen)
    exact ⟨.search, fun y _ => rfl⟩
  | succ n ih =>
    intro b hlen hb
    rcases hb with rfl | hb
    · exact ⟨.search, fun y _ => rfl⟩
    have htail : ∀ t, t <:+ b → t = [] ∨ Ends t := fun t hsuf =>
      (eq_or_ne t []).imp_right fun ht => hb.suffix ht hsuf
    cases hat : secretAt b with
    | some p =>
      obtain ⟨h, hm⟩ := secretAt_eq_some_iff.mp hat
      have hsuf : p.2 <:+ b := ⟨p.1 ++ h, hm.text.symm⟩
      by_cases hr : p.2 = []
      · rw [hr] at hm
        refine ⟨.covering, fun y _ => ?_⟩
        rw [redactSecrets_match (hm.extend hb), redactSecrets_match hm, redactSecrets_nil, List.append_nil]
        rfl
      · have hlt : p.2.length ≤ n := by
          have hlen' := congrArg List.length hm.text
          have hg := List.length_pos_iff.mpr hm.opens.ne_nil
          simp only [List.length_append] at hlen'
          omega
        obtain ⟨behind, hbehind⟩ := ih p.2 hlt (htail _ hsuf)
        refine ⟨behind, fun y hy => ?_⟩
        rw [redactSecrets_match (hm.append_right hr), redactSecrets_match hm, hbehind y hy, List.append_assoc _ _ (behind.after y)]
    | none =>
      by_cases hopens : Opens b
      · refine ⟨.armed, fun y hy => ?_⟩
        have hplain : redactSecrets b = b := by
          have h0 := redactSecrets_opens hopens hb (y := []) (by intro c hc; cases hc)
          simpa using h0
        cases y with
        | nil => simp [Behind.after]
        | cons c y =>
          rw [hplain]
          by_cases hc : isStop c = true
          · rw [redactSecrets_opens hopens hb (by rintro d ⟨⟩; exact hc)]
            simp only [Behind.after, hc, if_true]
          · have hm : Match (b ++ c :: y) b ((c :: y).takeWhile (!isStop ·)) ((c :: y).dropWhile (!isStop ·)) := by
              have htake : (c :: y).takeWhile (!isStop ·) = c :: y.takeWhile (!isStop ·) :=
                List.takeWhile_cons_of_pos (by simpa using hc)
              refine ⟨hopens, ?_, ?_, fun d hd => by simpa using List.mem_takeWhile_imp hd, stops_dropWhile,
                .inr (.inl ?_)⟩
              · rw [List.append_assoc, List.takeWhile_append_dropWhile]
              · rw [htake]
                exact List.cons_ne_nil _ _
              · rw [htake]
                exact hy
            rw [redactSecrets_match hm, List.append_assoc]
            simp only [Behind.after, if_neg hc]
      · obtain ⟨c, t, rfl⟩ := List.exists_cons_of_ne_nil (show b ≠ [] by
          rintro rfl
          obtain ⟨b₀, e, heq, _⟩ := hb
          simp at heq)
        obtain ⟨behind, hbehind⟩ := ih t (by simpa using hlen) (htail t (List.suffix_cons c t))
        refine ⟨behind, fun y hy => ?_⟩
        have hnone : secretAt (c :: (t ++ y)) = none := secretAt_append_none hb hat hopens
        rw [List.cons_append, redactSecrets_cons hnone, redactSecrets_cons hat, hbehind y hy]
        rfl

end ProxmoxVEAutopilot.Mcp
