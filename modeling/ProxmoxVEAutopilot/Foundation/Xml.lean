import ProxmoxVEAutopilot.Foundation.Places

/-!
# Edits of an XML tree

A slot is one child that is found or created and then edited. Slots apart from one another
do not disturb each other, and filling them twice is filling them once.
-/

namespace ProxmoxVEAutopilot.Foundation.Xml

set_option autoImplicit false

structure Attribute where
  ns : String := ""
  name : String
  value : String
deriving DecidableEq

structure Tag where
  ns : String
  name : String
  attributes : List Attribute := []
deriving DecidableEq

def Tag.attribute? (t : Tag) (name : String) : Option String :=
  (t.attributes.find? fun a => a.ns == "" && a.name == name).map Attribute.value

/-- `SetAttribute` -/
def Tag.set (t : Tag) (a : Attribute) : Tag :=
  { t with attributes := place (fun b => b.ns == a.ns && b.name == a.name) a t.attributes }

theorem Tag.set_set (t : Tag) (a : Attribute) : (t.set a).set a = t.set a := by
  have hfind : (t.set a).attributes.find? (fun b => b.ns == a.ns && b.name == a.name) = some a :=
    find?_place (by simp) t.attributes
  unfold Tag.set at hfind ⊢
  dsimp only at hfind ⊢
  rw [place_self hfind]

/-- A text is a whole run of characters. -/
inductive Node where
  | element (tag : Tag) (children : List Node)
  | text (content : String)
  | comment (content : String)
  | misc (content : String)

namespace Node

def tag? : Node → Option Tag
  | element tag _ => some tag
  | _ => none

def children : Node → List Node
  | element _ children => children
  | _ => []

def withChildren (n : Node) (children : List Node) : Node :=
  match n with
  | element tag _ => element tag children
  | same => same

mutual

def innerText : Node → String
  | element _ children => innerTextList children
  | text content => content
  | comment _ => ""
  | misc _ => ""

def innerTextList : List Node → String
  | [] => ""
  | n :: rest => n.innerText ++ innerTextList rest

end

/-- `text()` in a place where one text is needed. -/
def firstText (n : Node) : String :=
  (n.children.findSome? fun child => match child with | text content => some content | _ => none).getD ""

/-- Setting `InnerText`. -/
def withText (value : String) (n : Node) : Node := n.withChildren [text value]

mutual

/-- The elements of a kind from here on, in document order. -/
def occurrences (p : Node → Bool) : Node → List Node
  | element tag children =>
    (if p (element tag children) then [element tag children] else []) ++ occurrencesList p children
  | _ => []

def occurrencesList (p : Node → Bool) : List Node → List Node
  | [] => []
  | n :: rest => n.occurrences p ++ occurrencesList p rest

end

theorem occurrencesList_eq (p : Node → Bool) (l : List Node) : occurrencesList p l = l.flatMap (occurrences p) := by
  induction l with
  | nil => rw [occurrencesList, List.flatMap_nil]
  | cons n rest ih => rw [occurrencesList, ih, List.flatMap_cons]

theorem occurrences_element (p : Node → Bool) (tag : Tag) (children : List Node) :
    (element tag children).occurrences p =
      (if p (element tag children) then [element tag children] else []) ++ children.flatMap (occurrences p) := by
  rw [occurrences, occurrencesList_eq]

@[simp] theorem children_withChildren {n : Node} (h : n.tag?.isSome) (children : List Node) :
    (n.withChildren children).children = children := by
  cases n with
  | element tag _ => rfl
  | text _ => cases h
  | comment _ => cases h
  | misc _ => cases h

@[simp] theorem tag?_withChildren (n : Node) (children : List Node) : (n.withChildren children).tag? = n.tag? := by
  cases n <;> rfl

@[simp] theorem withChildren_withChildren (n : Node) (first second : List Node) :
    (n.withChildren first).withChildren second = n.withChildren second := by
  cases n <;> rfl

@[simp] theorem withChildren_children (n : Node) : n.withChildren n.children = n := by
  cases n <;> rfl

end Node

/-- An element by its name and attributes. -/
structure Sel where
  ns : String
  name : String
  attributes : List (String × String) := []

namespace Sel

def matchesTag (s : Sel) (t : Tag) : Bool :=
  t.ns == s.ns && t.name == s.name && s.attributes.all fun a => t.attribute? a.1 == some a.2

def picks (s : Sel) (n : Node) : Bool :=
  match n.tag? with
  | some tag => s.matchesTag tag
  | none => false

/-- Two names, or two values for one attribute. -/
def apart (s t : Sel) : Bool :=
  s.name != t.name || s.attributes.any fun a => t.attributes.any fun b => a.1 == b.1 && a.2 != b.2

theorem apart_symm {s t : Sel} (h : s.apart t = true) : t.apart s = true := by
  simp only [apart, Bool.or_eq_true, bne_iff_ne, List.any_eq_true, Bool.and_eq_true, beq_iff_eq] at h ⊢
  rcases h with hname | ⟨a, ha, b, hb, hkey, hvalue⟩
  · exact .inl hname.symm
  · exact .inr ⟨b, hb, a, ha, hkey.symm, hvalue.symm⟩

theorem picks_withChildren (s : Sel) (n : Node) (children : List Node) :
    s.picks (n.withChildren children) = s.picks n := by
  unfold picks
  rw [Node.tag?_withChildren]

@[simp] theorem picks_element (s : Sel) (tag : Tag) (children : List Node) :
    s.picks (.element tag children) = s.matchesTag tag := rfl

theorem not_picks_of_apart {s t : Sel} (h : s.apart t = true) {n : Node} (hn : s.picks n = true) :
    t.picks n = false := by
  unfold picks at hn ⊢
  cases htag : n.tag? with
  | none => rfl
  | some tag =>
    rw [htag] at hn
    dsimp only at hn ⊢
    rw [Bool.eq_false_iff]
    intro ht
    simp only [matchesTag, Bool.and_eq_true, beq_iff_eq, List.all_eq_true] at hn ht
    simp only [apart, Bool.or_eq_true, bne_iff_ne, List.any_eq_true, Bool.and_eq_true, beq_iff_eq] at h
    rcases h with hname | ⟨a, ha, b, hb, hkey, hvalue⟩
    · exact hname (hn.1.2.symm.trans ht.1.2)
    · have hboth := (hn.2 a ha).symm.trans (hkey ▸ ht.2 b hb)
      exact hvalue (Option.some.inj hboth)

theorem isSome_of_picks {s : Sel} {n : Node} (h : s.picks n = true) : n.tag?.isSome := by
  unfold picks at h
  cases htag : n.tag? with
  | none =>
    rw [htag] at h
    cases h
  | some tag => rfl

end Sel

/-- The first child by the first of the selectors, its first by the second, and so on. -/
def Node.descend : List Sel → Node → Option Node
  | [], n => some n
  | s :: rest, n => (n.children.find? s.picks).bind (Node.descend rest)

theorem Node.descend_singleton (s : Sel) (n : Node) : n.descend [s] = n.children.find? s.picks :=
  Option.bind_fun_some _

/-- A child that is found, or created with `tag`, and edited. -/
structure Slot where
  sel : Sel
  also : Node → Bool := fun _ => true
  tag : Tag
  edit : Node → Node

namespace Slot

def picks (s : Slot) (n : Node) : Bool := s.sel.picks n && s.also n

def new (s : Slot) : Node := .element s.tag []

def found (s : Slot) (l : List Node) : Node := (l.find? s.picks).getD s.new

def put (s : Slot) (l : List Node) : List Node := place s.picks (s.edit (s.found l)) l

end Slot

def fillAll (slots : List Slot) (l : List Node) : List Node := slots.foldl (fun l s => s.put l) l

def Node.fill (slots : List Slot) (n : Node) : Node := n.withChildren (fillAll slots n.children)

/-- The slot's child after its own children are filled. -/
def Slot.within (sel : Sel) (tag : Tag) (slots : List Slot) : Slot := { sel, tag, edit := Node.fill slots }

def Slot.setText (sel : Sel) (tag : Tag) (value : String) : Slot := { sel, tag, edit := Node.withText value }

/-- No two of the slots can take the same child. -/
def Apart (slots : List Slot) : Prop := slots.Pairwise fun s t => s.sel.apart t.sel = true

instance (slots : List Slot) : Decidable (Apart slots) :=
  inferInstanceAs (Decidable (slots.Pairwise fun s t => s.sel.apart t.sel = true))

namespace Slot
variable {s t : Slot} {slots : List Slot} {l : List Node} {n : Node}

/-- What the slot can be asked to edit. -/
def Subject (s : Slot) (n : Node) : Prop := s.picks n = true ∨ n = s.new

/-- Edited, the child is found again and there is nothing left to edit. -/
structure Steady (s : Slot) : Prop where
  picks_edit : ∀ n, s.Subject n → s.picks (s.edit n) = true
  edit_edit : ∀ n, s.Subject n → s.edit (s.edit n) = s.edit n

theorem picks_within (sel : Sel) (tag : Tag) (slots : List Slot) : (Slot.within sel tag slots).picks = sel.picks :=
  funext fun n => Bool.and_true (sel.picks n)

theorem picks_setText (sel : Sel) (tag : Tag) (value : String) : (Slot.setText sel tag value).picks = sel.picks :=
  funext fun n => Bool.and_true (sel.picks n)

theorem found_subject (s : Slot) (l : List Node) : s.Subject (s.found l) := by
  unfold found
  cases hfind : l.find? s.picks with
  | none => exact .inr rfl
  | some n => exact .inl (List.find?_some hfind)

theorem found_of_find? (h : l.find? s.picks = some n) : s.found l = n := by
  unfold found
  rw [h, Option.getD_some]

theorem not_picks_of_apart (h : s.sel.apart t.sel = true) (hn : s.picks n = true) : t.picks n = false := by
  unfold picks at hn ⊢
  rw [Bool.and_eq_true] at hn
  rw [Sel.not_picks_of_apart h hn.1, Bool.false_and]

theorem find?_put (hs : s.Steady) (l : List Node) : (s.put l).find? s.picks = some (s.edit (s.found l)) :=
  find?_place (hs.picks_edit _ (s.found_subject l)) l

theorem find?_put_of_apart (hs : s.Steady) (h : s.sel.apart t.sel = true) (l : List Node) :
    (s.put l).find? t.picks = l.find? t.picks :=
  find?_place_of_apart (p := s.picks) (y := s.edit (s.found l)) (fun _ => not_picks_of_apart h)
    (not_picks_of_apart h (hs.picks_edit _ (s.found_subject l))) l

theorem find?_fillAll_of_apart (hs : ∀ s ∈ slots, s.Steady) (h : ∀ s ∈ slots, s.sel.apart t.sel = true)
    (l : List Node) : (fillAll slots l).find? t.picks = l.find? t.picks := by
  induction slots generalizing l with
  | nil => rfl
  | cons s rest ih =>
    change (fillAll rest (s.put l)).find? t.picks = _
    rw [ih (fun r hr => hs r (List.mem_cons_of_mem _ hr)) (fun r hr => h r (List.mem_cons_of_mem _ hr)),
      find?_put_of_apart (hs s List.mem_cons_self) (h s List.mem_cons_self)]

theorem find?_fillAll (hs : ∀ s ∈ slots, s.Steady) (hapart : Apart slots)
    (hmem : s ∈ slots) (l : List Node) : (fillAll slots l).find? s.picks = some (s.edit (s.found l)) := by
  induction slots generalizing l with
  | nil => cases hmem
  | cons r rest ih =>
    obtain ⟨hfirst, hrest⟩ := List.pairwise_cons.mp hapart
    have hsteady : ∀ s ∈ rest, s.Steady := fun s h => hs s (List.mem_cons_of_mem _ h)
    have hr := hs r List.mem_cons_self
    change (fillAll rest (r.put l)).find? s.picks = _
    rcases List.mem_cons.mp hmem with rfl | hmem
    · rw [find?_fillAll_of_apart hsteady fun t ht => Sel.apart_symm (hfirst t ht), find?_put hr]
    · have hsame : (r.put l).find? s.picks = l.find? s.picks := find?_put_of_apart hr (hfirst s hmem) l
      rw [ih hsteady hrest hmem]
      unfold found
      rw [hsame]

theorem put_of_edited (h : l.find? s.picks = some n) (hn : s.edit n = n) : s.put l = l := by
  unfold put
  rw [found_of_find? h, hn, place_self h]

theorem fillAll_of_edited (h : ∀ s ∈ slots, ∃ n, l.find? s.picks = some n ∧ s.edit n = n) : fillAll slots l = l := by
  induction slots with
  | nil => rfl
  | cons s rest ih =>
    obtain ⟨n, hfind, hn⟩ := h s List.mem_cons_self
    change fillAll rest (s.put l) = l
    rw [put_of_edited hfind hn, ih fun r hr => h r (List.mem_cons_of_mem _ hr)]

theorem fillAll_fillAll (hs : ∀ s ∈ slots, s.Steady)
    (hapart : Apart slots) (l : List Node) :
    fillAll slots (fillAll slots l) = fillAll slots l :=
  fillAll_of_edited fun s hmem =>
    ⟨_, find?_fillAll hs hapart hmem l, (hs s hmem).edit_edit _ (s.found_subject l)⟩

theorem filter_fillAll {q : Node → Bool} (hs : ∀ s ∈ slots, s.Steady)
    (hq : ∀ s ∈ slots, ∀ n, s.picks n = true → q n = true) (l : List Node) :
    (fillAll slots l).filter q = fillAll slots (l.filter q) := by
  induction slots generalizing l with
  | nil => rfl
  | cons s rest ih =>
    have hput : (s.put l).filter q = s.put (l.filter q) := by
      have hfound : s.found (l.filter q) = s.found l := by
        unfold found
        rw [find?_filter_of_imp (hq s List.mem_cons_self)]
      have hedit := (hs s List.mem_cons_self).picks_edit _ (s.found_subject l)
      unfold put
      rw [hfound]
      exact filter_place (p := s.picks) (hq s List.mem_cons_self) (hq s List.mem_cons_self _ hedit) l
    change (fillAll rest (s.put l)).filter q = fillAll rest (s.put (l.filter q))
    rw [ih (fun r hr => hs r (List.mem_cons_of_mem _ hr)) (fun r hr => hq r (List.mem_cons_of_mem _ hr)), hput]

theorem isSome_of_subject (h : s.Subject n) : n.tag?.isSome := by
  rcases h with h | rfl
  · unfold picks at h
    rw [Bool.and_eq_true] at h
    exact Sel.isSome_of_picks h.1
  · rfl

theorem children_fill (h : n.tag?.isSome) (slots : List Slot) : (n.fill slots).children = fillAll slots n.children :=
  Node.children_withChildren h _

theorem fill_fill (hs : ∀ s ∈ slots, s.Steady) (hapart : Apart slots)
    (h : n.tag?.isSome) : (n.fill slots).fill slots = n.fill slots := by
  have hfilled := children_fill h slots
  unfold Node.fill at hfilled ⊢
  rw [hfilled, fillAll_fillAll hs hapart, Node.withChildren_withChildren]

theorem descend_fill {sel : Sel} {tag : Tag} {inner : List Slot} (hs : ∀ s ∈ slots, s.Steady) (hapart : Apart slots)
    (hmem : Slot.within sel tag inner ∈ slots) (hn : n.tag?.isSome) (rest : List Sel) :
    ∃ m : Node, m.tag?.isSome ∧ (n.fill slots).descend (sel :: rest) = (m.fill inner).descend rest := by
  refine ⟨(Slot.within sel tag inner).found n.children, isSome_of_subject (found_subject _ _), ?_⟩
  have hfind := find?_fillAll hs hapart hmem n.children
  rw [picks_within] at hfind
  rw [Node.descend, children_fill hn, hfind]
  rfl

theorem steady_within {sel : Sel} {tag : Tag} (htag : sel.matchesTag tag = true) (hs : ∀ s ∈ slots, s.Steady)
    (hapart : Apart slots) : (Slot.within sel tag slots).Steady where
  picks_edit := by
    intro n hn
    change (sel.picks (n.withChildren _) && true) = true
    rw [Bool.and_true, Sel.picks_withChildren]
    rcases hn with hn | rfl
    · exact (Bool.and_eq_true _ _ ▸ hn).1
    · exact htag
  edit_edit := fun _ hn => fill_fill hs hapart (isSome_of_subject hn)

theorem steady_setText {sel : Sel} {tag : Tag} (htag : sel.matchesTag tag = true) (value : String) :
    (Slot.setText sel tag value).Steady where
  picks_edit := by
    intro n hn
    change (sel.picks (n.withChildren _) && true) = true
    rw [Bool.and_true, Sel.picks_withChildren]
    rcases hn with hn | rfl
    · exact (Bool.and_eq_true _ _ ▸ hn).1
    · exact htag
  edit_edit := fun n _ => Node.withChildren_withChildren n _ _

end Slot

/-! ### What is kept -/

/-- A kind of child whose first may change, and how. -/
structure Spot where
  picks : Node → Bool
  kept : Node → Node → Prop

/-- The content is free. -/
def Reset (n m : Node) : Prop := m.tag? = n.tag?

/-- Every child stays where it is, and as it is unless it is the first of a spot's kind.
There may be more behind. -/
structure KeptBy (spots : List Spot) (n m : Node) : Prop where
  tag : m.tag? = n.tag?
  child : ∀ (i : Nat) (x : Node), n.children[i]? = some x → ∃ y, m.children[i]? = some y ∧
    (y = x ∨ ∃ spot ∈ spots, n.children.findIdx? spot.picks = some i ∧ spot.kept x y)

section Kept
variable {slots : List Slot} {spots : List Spot} {l : List Node}

theorem getElem?_fillAll (hs : ∀ s ∈ slots, s.Steady) (hapart : Apart slots) {i : Nat} {x : Node}
    (h : l[i]? = some x) : ∃ y, (fillAll slots l)[i]? = some y ∧
      (y = x ∨ ∃ s ∈ slots, l.findIdx? s.picks = some i ∧ y = s.edit x) := by
  induction slots generalizing l x with
  | nil => exact ⟨x, h, .inl rfl⟩
  | cons s rest ih =>
    obtain ⟨hfirst, hrest⟩ := List.pairwise_cons.mp hapart
    have hsteady : ∀ s ∈ rest, s.Steady := fun s h => hs s (List.mem_cons_of_mem _ h)
    have hput : (s.put l)[i]? = some (if l.findIdx? s.picks = some i then s.edit (s.found l) else x) :=
      getElem?_place h
    obtain ⟨y, hy, hcases⟩ := ih hsteady hrest hput
    refine ⟨y, hy, ?_⟩
    have hsame : ∀ t ∈ rest, (s.put l).findIdx? t.picks = l.findIdx? t.picks := fun t ht =>
      findIdx?_place_of_apart (p := s.picks) (y := s.edit (s.found l))
        (fun _ => Slot.not_picks_of_apart (hfirst t ht))
        (Slot.not_picks_of_apart (hfirst t ht) ((hs s List.mem_cons_self).picks_edit _ (s.found_subject l))) l
    by_cases hidx : l.findIdx? s.picks = some i
    · obtain ⟨hfind, hpicks⟩ := find?_of_findIdx? hidx h
      rw [if_pos hidx, Slot.found_of_find? hfind] at hcases
      rcases hcases with rfl | ⟨t, ht, hti, -⟩
      · exact .inr ⟨s, List.mem_cons_self, hidx, rfl⟩
      · rw [hsame t ht] at hti
        have := (find?_of_findIdx? hti h).2
        rw [Slot.not_picks_of_apart (hfirst t ht) hpicks] at this
        cases this
    · rw [if_neg hidx] at hcases
      rcases hcases with rfl | ⟨t, ht, hti, hyt⟩
      · exact .inl rfl
      · rw [hsame t ht] at hti
        exact .inr ⟨t, List.mem_cons_of_mem _ ht, hti, hyt⟩

theorem keptBy_fill {n : Node} (hs : ∀ s ∈ slots, s.Steady) (hapart : Apart slots)
    (h : ∀ s ∈ slots, ∃ spot ∈ spots, spot.picks = s.picks ∧
      ∀ x, n.children.find? s.picks = some x → spot.kept x (s.edit x)) : KeptBy spots n (n.fill slots) where
  tag := Node.tag?_withChildren n _
  child := by
    intro i x hx
    have htag : n.tag?.isSome := by
      cases n with
      | element tag children => rfl
      | text content => cases hx
      | comment content => cases hx
      | misc content => cases hx
    obtain ⟨y, hy, hcases⟩ := getElem?_fillAll hs hapart hx
    rw [Slot.children_fill htag]
    refine ⟨y, hy, hcases.imp_right ?_⟩
    rintro ⟨s, hmem, hidx, rfl⟩
    obtain ⟨spot, hspot, hpicks, hkept⟩ := h s hmem
    have hfind := (find?_of_findIdx? hidx hx).1
    rw [← hpicks] at hidx
    exact ⟨spot, hspot, hidx, hkept x hfind⟩

theorem KeptBy.append {n m : Node} (h : KeptBy spots n m) (added : List Node) :
    KeptBy spots n (m.withChildren (m.children ++ added)) where
  tag := (Node.tag?_withChildren m _).trans h.tag
  child := by
    intro i x hx
    obtain ⟨y, hy, hcases⟩ := h.child i x hx
    refine ⟨y, ?_, hcases⟩
    cases m with
    | element tag children => exact List.getElem?_append_left (List.getElem?_eq_some_iff.mp hy).1 ▸ hy
    | text content => cases hy
    | comment content => cases hy
    | misc content => cases hy

end Kept

/-! ### What occurs -/

section Occurrences
variable {p : Node → Bool} {s : Slot} {slots : List Slot} {l : List Node}

/-- The slot brings nothing of the kind. -/
structure Slot.Quiet (p : Node → Bool) (s : Slot) : Prop where
  new : s.new.occurrences p = []
  edit : ∀ n, s.Subject n → n.occurrences p = [] → (s.edit n).occurrences p = []

theorem occurrences_withChildren {n : Node} (h : p (n.withChildren l) = false) :
    (n.withChildren l).occurrences p = if n.tag?.isSome then l.flatMap (Node.occurrences p) else [] := by
  cases n with
  | element tag children =>
    change (Node.element tag l).occurrences p = _
    change p (Node.element tag l) = false at h
    rw [Node.occurrences_element, h, if_neg Bool.false_ne_true]
    rfl
  | text content => rfl
  | comment content => rfl
  | misc content => rfl

theorem length_occurrences_children (n : Node) :
    (n.children.flatMap (Node.occurrences p)).length ≤ (n.occurrences p).length := by
  cases n with
  | element tag children =>
    rw [Node.occurrences_element, List.length_append]
    exact Nat.le_add_left _ _
  | text content => exact Nat.zero_le _
  | comment content => exact Nat.zero_le _
  | misc content => exact Nat.zero_le _

theorem Slot.Quiet.put_same (hs : s.Quiet p) (h : (l.find? s.picks).elim [] (Node.occurrences p) = []) :
    (s.put l).flatMap (Node.occurrences p) = l.flatMap (Node.occurrences p) := by
  apply flatMap_place_same
  rw [h]
  apply hs.edit _ (s.found_subject l)
  unfold Slot.found
  cases hfind : l.find? s.picks with
  | none => exact hs.new
  | some n =>
    rw [hfind] at h
    exact h

theorem fillAll_none (hs : ∀ s ∈ slots, s.Quiet p) (h : l.flatMap (Node.occurrences p) = []) :
    (fillAll slots l).flatMap (Node.occurrences p) = [] := by
  induction slots generalizing l with
  | nil => exact h
  | cons s rest ih =>
    refine ih (fun t ht => hs t (List.mem_cons_of_mem _ ht)) ?_
    have hnone : (l.find? s.picks).elim [] (Node.occurrences p) = [] := by
      have hle := length_elim_find?_le (p := s.picks) (Node.occurrences p) l
      rw [h] at hle
      exact List.eq_nil_of_length_eq_zero (Nat.le_zero.mp hle)
    rw [(hs s List.mem_cons_self).put_same hnone, h]

theorem quiet_within {sel : Sel} {tag : Tag} (htag : sel.matchesTag tag = true)
    (hp : ∀ n, sel.picks n = true → p n = false) (hs : ∀ s ∈ slots, s.Quiet p) :
    (Slot.within sel tag slots).Quiet p where
  new := by
    change (Node.element tag []).occurrences p = []
    rw [Node.occurrences_element, hp (.element tag []) htag]
    rfl
  edit := by
    intro n hn h
    have hpicks : sel.picks n = true := by
      rcases hn with hn | rfl
      · exact (Bool.and_eq_true _ _ ▸ hn).1
      · exact htag
    change (n.withChildren _).occurrences p = []
    rw [occurrences_withChildren (hp _ (by rwa [Sel.picks_withChildren]))]
    split
    · refine fillAll_none hs (List.eq_nil_of_length_eq_zero (Nat.le_zero.mp ?_))
      have hle := length_occurrences_children (p := p) n
      rwa [h] at hle
    · rfl

theorem quiet_setText {sel : Sel} {tag : Tag} (htag : sel.matchesTag tag = true)
    (hp : ∀ n, sel.picks n = true → p n = false) (value : String) : (Slot.setText sel tag value).Quiet p where
  new := by
    change (Node.element tag []).occurrences p = []
    rw [Node.occurrences_element, hp (.element tag []) htag]
    rfl
  edit := by
    intro n hn _
    have hpicks : sel.picks n = true := by
      rcases hn with hn | rfl
      · exact (Bool.and_eq_true _ _ ▸ hn).1
      · exact htag
    change (n.withChildren _).occurrences p = []
    rw [occurrences_withChildren (hp _ (by rwa [Sel.picks_withChildren]))]
    split
    · rfl
    · rfl

theorem occurrences_of_not {n : Node} (h : p n = false) :
    n.occurrences p = n.children.flatMap (Node.occurrences p) := by
  cases n with
  | element tag children =>
    rw [Node.occurrences_element, h]
    rfl
  | text content => rfl
  | comment content => rfl
  | misc content => rfl

theorem length_descend_le (path : List Sel) (n : Node) :
    ((n.descend path).elim [] (Node.occurrences p)).length ≤ (n.occurrences p).length := by
  induction path generalizing n with
  | nil => exact Nat.le_refl _
  | cons s rest ih =>
    have hchild := length_elim_find?_le (p := s.picks) (Node.occurrences p) n.children
    have hall := length_occurrences_children (p := p) n
    rw [Node.descend]
    cases hfind : n.children.find? s.picks with
    | none => exact Nat.zero_le _
    | some x =>
      rw [hfind] at hchild
      exact (ih x).trans (hchild.trans hall)

theorem descend_getD {s r : Sel} {rest : List Sel} {n : Node} (tag : Tag) :
    n.descend (s :: r :: rest) = ((n.children.find? s.picks).getD (.element tag [])).descend (r :: rest) := by
  rw [Node.descend]
  cases n.children.find? s.picks with
  | none => rfl
  | some x => rfl

/-- If all that occurs is at the end of a path, it is so from the path's first child on. -/
theorem only_step {s : Sel} {rest : List Sel} {n : Node} (tag : Tag) (hn : p n = false)
    (htag : p (.element tag []) = false)
    (h : n.occurrences p = (n.descend (s :: rest)).elim [] (Node.occurrences p)) :
    n.children.flatMap (Node.occurrences p) = (n.children.find? s.picks).elim [] (Node.occurrences p) ∧
      ((n.children.find? s.picks).getD (.element tag [])).occurrences p =
        (((n.children.find? s.picks).getD (.element tag [])).descend rest).elim [] (Node.occurrences p) := by
  have hpath : n.children.flatMap (Node.occurrences p) = (n.children.find? s.picks).elim []
      fun x => (x.descend rest).elim [] (Node.occurrences p) := by
    rw [← occurrences_of_not hn, h, Node.descend]
    cases n.children.find? s.picks with
    | none => rfl
    | some x => rfl
  have honly := flatMap_only hpath (length_descend_le rest)
  refine ⟨honly, ?_⟩
  rw [honly] at hpath
  cases hfind : n.children.find? s.picks with
  | none =>
    rw [Option.getD_none]
    cases rest with
    | nil => rfl
    | cons r rest =>
      rw [occurrences_of_not htag]
      rfl
  | some x =>
    rw [hfind] at hpath
    exact hpath

/-- Elements of a kind that is counted, among the children, are counted there. -/
theorem length_filter_le_occurrences (hp : ∀ n, p n = true → n.tag?.isSome) (l : List Node) :
    (l.filter p).length + ((l.filter fun n => !p n).flatMap (Node.occurrences p)).length ≤
      (l.flatMap (Node.occurrences p)).length := by
  induction l with
  | nil => exact Nat.le_refl _
  | cons n rest ih =>
    rw [List.filter_cons, List.filter_cons, List.flatMap_cons, List.length_append]
    cases hn : p n with
    | true =>
      have hself : 1 ≤ (n.occurrences p).length := by
        cases n with
        | element tag children =>
          rw [Node.occurrences_element, hn, List.length_append]
          exact Nat.le_add_right 1 _
        | text content => cases hp _ hn
        | comment content => cases hp _ hn
        | misc content => cases hp _ hn
      rw [if_pos rfl, Bool.not_true, if_neg Bool.false_ne_true, List.length_cons]
      omega
    | false =>
      rw [if_neg Bool.false_ne_true, Bool.not_false, if_pos rfl, List.flatMap_cons, List.length_append]
      omega

end Occurrences

end ProxmoxVEAutopilot.Foundation.Xml
