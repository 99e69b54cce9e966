import ProxmoxVEAutopilot.Mcp.Leaks

/-!
# What MCP answers show of a payload

From texts to payloads: values under a secret key count for nothing, all others as their
texts do.
-/

namespace ProxmoxVEAutopilot.Mcp

open Foundation (Json isSpace)

set_option autoImplicit false

namespace Value

variable {T : String → String → Prop} {H : String → Prop}

section Alike
variable (T : String → String → Prop)

mutual

/-- The payloads differ under secret keys, and where `T` says so in a text. -/
inductive Alike : Value → Value → Prop
  | same (v : Value) : Alike v v
  | text {s t : String} (h : T s t) : Alike (.text s) (.text t)
  | bytes {s t : String} (h : T s t) : Alike (.bytes s) (.bytes t)
  | dict {es fs : List (String × Value)} (h : AlikeEntries es fs) : Alike (.dict es) (.dict fs)
  | seq {xs ys : List Value} (h : AlikeItems xs ys) : Alike (.seq xs) (.seq ys)

inductive AlikeEntries : List (String × Value) → List (String × Value) → Prop
  | nil : AlikeEntries [] []
  | secret {key : String} {v w : Value} {es fs : List (String × Value)} (hkey : secretKey key = true)
    (h : AlikeEntries es fs) : AlikeEntries ((key, v) :: es) ((key, w) :: fs)
  | cons {key : String} {v w : Value} {es fs : List (String × Value)} (hv : Alike v w)
    (h : AlikeEntries es fs) : AlikeEntries ((key, v) :: es) ((key, w) :: fs)

inductive AlikeItems : List Value → List Value → Prop
  | nil : AlikeItems [] []
  | cons {v w : Value} {xs ys : List Value} (hv : Alike v w) (h : AlikeItems xs ys) :
    AlikeItems (v :: xs) (w :: ys)

end

end Alike

mutual

/-- `H` holds of every text that is not under a secret key. -/
def Texts (H : String → Prop) : Value → Prop
  | .text s | .bytes s => H s
  | .dict es => EntryTexts H es
  | .seq xs => ItemTexts H xs
  | _ => True

def EntryTexts (H : String → Prop) : List (String × Value) → Prop
  | [] => True
  | (key, v) :: es => (secretKey key = true ∨ Texts H v) ∧ EntryTexts H es

def ItemTexts (H : String → Prop) : List Value → Prop
  | [] => True
  | v :: xs => Texts H v ∧ ItemTexts H xs

end

mutual

theorem texts_of_forall (hH : ∀ s, H s) : ∀ p : Value, Texts H p
  | .text s | .bytes s => hH s
  | .dict es => entryTexts_of_forall hH es
  | .seq xs => itemTexts_of_forall hH xs
  | .moment _ | .decimal _ | .uuid _ | .null | .bool _ | .int _ | .float _ => trivial

theorem entryTexts_of_forall (hH : ∀ s, H s) : ∀ es : List (String × Value), EntryTexts H es
  | [] => trivial
  | (_, v) :: es => ⟨.inr (texts_of_forall hH v), entryTexts_of_forall hH es⟩

theorem itemTexts_of_forall (hH : ∀ s, H s) : ∀ xs : List Value, ItemTexts H xs
  | [] => trivial
  | v :: xs => ⟨texts_of_forall hH v, itemTexts_of_forall hH xs⟩

end

mutual

theorem Alike.redact_eq (hT : ∀ s t, H s → T s t → redactText s = redactText t)
    {p q : Value} (hp : Texts H p) (h : Alike T p q) : redact p = redact q := by
  cases h with
  | same => rfl
  | text h => exact congrArg Json.str (hT _ _ hp h)
  | bytes h => exact congrArg Json.str (hT _ _ hp h)
  | dict h => exact congrArg Json.obj (AlikeEntries.redact_eq hT hp h)
  | seq h => exact congrArg Json.arr (AlikeItems.redact_eq hT hp h)

theorem AlikeEntries.redact_eq (hT : ∀ s t, H s → T s t → redactText s = redactText t)
    {es fs : List (String × Value)} (hp : EntryTexts H es) (h : AlikeEntries T es fs) :
    redactFields (jsonableEntries es) = redactFields (jsonableEntries fs) := by
  cases h with
  | nil => rfl
  | secret hkey h => simp only [jsonableEntries, redactFields, hkey, if_true, AlikeEntries.redact_eq hT hp.2 h]
  | @cons key v w es fs hv h =>
    have htail := AlikeEntries.redact_eq hT hp.2 h
    by_cases hkey : secretKey key = true
    · simp only [jsonableEntries, redactFields, hkey, if_true, htail]
    · have hhead := Alike.redact_eq hT (hp.1.resolve_left hkey) hv
      unfold redact at hhead
      simp only [jsonableEntries, redactFields, hhead, htail]

theorem AlikeItems.redact_eq (hT : ∀ s t, H s → T s t → redactText s = redactText t)
    {xs ys : List Value} (hp : ItemTexts H xs) (h : AlikeItems T xs ys) :
    redactItems (jsonableItems xs) = redactItems (jsonableItems ys) := by
  cases h with
  | nil => rfl
  | cons hv h =>
    have hhead := Alike.redact_eq hT hp.1 hv
    unfold redact at hhead
    simp only [jsonableItems, redactItems, hhead, AlikeItems.redact_eq hT hp.2 h]

end

theorem AlikeEntries.refl : ∀ es : List (String × Value), AlikeEntries T es es
  | [] => .nil
  | (_, v) :: es => .cons (.same v) (AlikeEntries.refl es)

theorem AlikeItems.refl : ∀ xs : List Value, AlikeItems T xs xs
  | [] => .nil
  | v :: xs => .cons (.same v) (AlikeItems.refl xs)

mutual

theorem texts_of_redact_eq (hT : ∀ s, (∀ t, T s t → redactText s = redactText t) → H s) :
    ∀ p : Value, (∀ q, Alike T p q → redact p = redact q) → Texts H p
  | .text s, h => hT s fun t ht => Json.str.inj (h (.text t) (.text ht))
  | .bytes s, h => hT s fun t ht => Json.str.inj (h (.bytes t) (.bytes ht))
  | .dict es, h => entryTexts_of_redact_eq hT es fun fs hfs => Json.obj.inj (h (.dict fs) (.dict hfs))
  | .seq xs, h => itemTexts_of_redact_eq hT xs fun ys hys => Json.arr.inj (h (.seq ys) (.seq hys))
  | .moment _, _ | .decimal _, _ | .uuid _, _ | .null, _ | .bool _, _ | .int _, _ | .float _, _ => trivial

theorem entryTexts_of_redact_eq (hT : ∀ s, (∀ t, T s t → redactText s = redactText t) → H s) :
    ∀ es : List (String × Value),
    (∀ fs, AlikeEntries T es fs → redactFields (jsonableEntries es) = redactFields (jsonableEntries fs)) →
      EntryTexts H es
  | [], _ => trivial
  | (key, v) :: es, h => by
    constructor
    · by_cases hkey : secretKey key = true
      · exact .inl hkey
      · refine .inr (texts_of_redact_eq hT v fun w hw => ?_)
        have heq := h ((key, w) :: es) (.cons hw (.refl es))
        simp only [jsonableEntries, redactFields, hkey, Bool.false_eq_true, if_false, List.cons.injEq, Prod.mk.injEq,
          true_and, and_true] at heq
        exact heq
    · refine entryTexts_of_redact_eq hT es fun fs hfs => ?_
      have heq := h ((key, v) :: fs) (.cons (.same v) hfs)
      exact (List.cons.inj heq).2

theorem itemTexts_of_redact_eq (hT : ∀ s, (∀ t, T s t → redactText s = redactText t) → H s) :
    ∀ xs : List Value,
    (∀ ys, AlikeItems T xs ys → redactItems (jsonableItems xs) = redactItems (jsonableItems ys)) → ItemTexts H xs
  | [], _ => trivial
  | v :: xs, h => by
    constructor
    · exact texts_of_redact_eq hT v fun w hw => (List.cons.inj (h (w :: xs) (.cons hw (.refl xs)))).1
    · exact itemTexts_of_redact_eq hT xs fun ys hys => (List.cons.inj (h (v :: ys) (.cons (.same v) hys))).2

end

end Value

/-! ### Answers -/

section Answers
variable (dumps : Json → String)

/-- Both payloads give the same result of a tool, and the same error answer as the detail of an
`HTTPException` or, for a text, as the text of another exception. -/
def SameAnswers (p q : Value) : Prop :=
  (∀ isError, toolTextResult dumps p isError = toolTextResult dumps q isError) ∧
    (∀ statusCode, normalizeException (.http statusCode p) = normalizeException (.http statusCode q)) ∧
    ∀ s t type, p = .text s → q = .text t → normalizeException (.other s type) = normalizeException (.other t type)

theorem sameAnswers_iff {p q : Value} : SameAnswers dumps p q ↔ redact p = redact q := by
  constructor
  · rintro ⟨hresult, _, _⟩
    have hfields := Json.obj.inj (hresult false)
    simp only [List.cons.injEq, Prod.mk.injEq, true_and, and_true] at hfields
    exact hfields.2
  · intro h
    refine ⟨fun isError => ?_, fun statusCode => ?_, ?_⟩
    · simp only [toolTextResult, h]
    · simp only [normalizeException, h]
    · rintro s t type rfl rfl
      simp only [normalizeException, h]

end Answers

/-- What the two payloads hold as texts. -/
def OnLetters (R : List Char → List Char → Prop) (s t : String) : Prop := R s.toList t.toList

theorem redactText_iff_hidden (s : String) :
    (∀ t, OnLetters TextAlike s t → redactText s = redactText t) ↔ Hidden s.toList := by
  constructor
  · intro h
    refine hidden_of_cut_eq fun t ht => ?_
    have heq := h (String.ofList t) (by simpa [OnLetters] using ht)
    rw [redactText_eq_iff, String.toList_ofList] at heq
    exact heq
  · intro h t ht
    rw [redactText_eq_iff]
    exact cut_eq_of_hidden h ht

/-- A payload tells no payload with other secrets apart exactly when its texts hide all of theirs;
two payloads whose secrets are spelled without the letter s and a backslash, behind markers
that hide, are never told apart. -/
theorem answers_leak_nothing_iff (dumps : Json → String) :
    (∀ p : Value, (∀ q, p.Alike (OnLetters TextAlike) q → SameAnswers dumps p q) ↔
      p.Texts fun s => Hidden s.toList) ∧
    ∀ p q : Value, p.Alike (OnLetters (Safe [])) q → SameAnswers dumps p q := by
  simp only [sameAnswers_iff]
  refine ⟨fun p => ⟨fun h => ?_, fun hp q h => ?_⟩, fun p q h => ?_⟩
  · exact Value.texts_of_redact_eq (fun s hs => (redactText_iff_hidden s).mp hs) p h
  · exact h.redact_eq (fun s t hs ht => (redactText_iff_hidden s).mpr hs t ht) hp
  · refine h.redact_eq (H := fun _ => True) (fun s t _ ht => ?_) (Value.texts_of_forall (fun _ => trivial) p)
    rw [redactText_eq_iff]
    exact congrArg cut (Safe.redactSecrets ht [] fun _ => rfl)

/-- The letter s ends what is hidden; the rest of the token is sent. -/
theorem token_with_s_leaks :
    Value.Alike (OnLetters TextAlike) (.text "token=as1") (.text "token=as2") ∧
      ∀ dumps, toolTextResult dumps (.text "token=as1") false ≠ toolTextResult dumps (.text "token=as2") false := by
  constructor
  · have hrun : ∀ r ∈ ["as1".toList, "as2".toList], Run r := by simp [Run, isSpace]
    have hnone : ∀ n, Marker n → ¬ n <:+: "as2".toList := by
      intro n hn hin
      have hlong : ∀ l ∈ ["bearer ".toList, "token=".toList, "password=".toList, "secret=".toList], 3 < l.length := by
        decide
      have hmarker := hlong _ hn
      rw [List.length_map] at hmarker
      exact absurd (hmarker.trans_le hin.length_le) (lt_irrefl 3)
    have hm : Marker "token=".toList := by
      unfold Marker
      decide
    have halike := TextAlike.run hm (hrun "as1".toList (by simp)) (hrun "as2".toList (by simp)) hnone
      (by intro c hc; cases hc) .nil
    refine .text ?_
    unfold OnLetters
    simpa using halike
  · intro dumps h
    have hfields := Json.obj.inj h
    simp only [List.cons.injEq, Prod.mk.injEq, true_and, and_true] at hfields
    have htext : redactText "token=as1" = redactText "token=as2" := Json.str.inj hfields.2
    revert htext
    decide +kernel

end ProxmoxVEAutopilot.Mcp
