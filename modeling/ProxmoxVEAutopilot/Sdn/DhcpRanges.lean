import ProxmoxVEAutopilot.Sdn.Labs

/-!
# The two readers of a DHCP range

`_parse_dhcp_range` fills the inventory and `_dhcp_range_parts` the view of a lab. Both take the
first entry that says something; only the second looks into nested lists and knows the spelling
`from` and `to`. The text made of a range is read back where no address has a comma.
-/

namespace ProxmoxVEAutopilot.Sdn

open Foundation (Json strip strip_strip)

set_option autoImplicit false

section

variable (py : Python)

/-! ### `_parse_dhcp_range` -/

/-- One `key=value`, cut at the first `=`. -/
def parseOption (found : String × String) (part : List Char) : String × String :=
  if '=' ∈ part then
    let key := py.lower (strip (String.ofList (part.takeWhile (· ≠ '='))))
    let raw := strip (String.ofList ((part.dropWhile (· ≠ '=')).drop 1))
    if key = "start-address" then (raw, found.2)
    else if key = "end-address" then (found.1, raw)
    else found
  else found

def parseText (text : String) : String × String := (text.toList.splitOn ',').foldl (parseOption py) ("", "")

def parseFields (fields : Fields) : String × String :=
  (strip (textOf py (orElse (orElse (get fields "start-address") (get fields "start")) (.str ""))),
    strip (textOf py (orElse (orElse (get fields "end-address") (get fields "end")) (.str ""))))

/-- An item of a list: a dict or a text; anything else is passed over. -/
def parseItem : Json → String × String
  | .obj fields => parseFields py fields
  | .str text => parseText py text
  | _ => ("", "")

def parseItems : List Json → String × String
  | [] => ("", "")
  | item :: items =>
    let parts := parseItem py item
    if parts.1 ≠ "" ∨ parts.2 ≠ "" then parts else parseItems items

def parseDhcpRange : Json → String × String
  | .obj fields => parseFields py fields
  | .arr items => parseItems py items
  | .str text => parseText py text
  | _ => ("", "")

/-! ### What a value says -/

mutual

/-- The dicts, texts and other values that lists of any depth hold, in order. -/
def entries : Json → List Json
  | .arr items => entriesOf items
  | value => [value]

def entriesOf : List Json → List Json
  | [] => []
  | item :: items => entries item ++ entriesOf items

end

/-- The items of a list, or the value itself. -/
def topItems : Json → List Json
  | .arr items => items
  | value => [value]

/-- The first of the keys with a truthy value, as text. -/
def spelled (fields : Fields) (keys : List String) : Option String :=
  ((keys.map (get fields)).find? Json.truthy).map fun value => strip (textOf py value)

def startKeys : List String := ["start-address", "start"]

def endKeys : List String := ["end-address", "end"]

/-- What the parts `key=value` of an option text give for the key. -/
def optionsOf (key : String) (parts : List (List Char)) : List String :=
  parts.filterMap fun part =>
    if '=' ∈ part ∧ py.lower (strip (String.ofList (part.takeWhile (· ≠ '=')))) = key then
      some (strip (String.ofList ((part.dropWhile (· ≠ '=')).drop 1)))
    else none

def optionWritten (key text : String) : String := ((optionsOf py key (text.toList.splitOn ',')).getLast?).getD ""

/-- The start and the end of a dict or a text, `from` and `to` counted. -/
def written : Json → String × String
  | .obj fields =>
    ((spelled py fields startKeys).getD (textValue py (get fields "from")),
      (spelled py fields endKeys).getD (textValue py (get fields "to")))
  | .str text => (optionWritten py "start-address" text, optionWritten py "end-address" text)
  | _ => ("", "")

/-- The same without `from` and `to`. -/
def plainly : Json → String × String
  | .obj fields => ((spelled py fields startKeys).getD "", (spelled py fields endKeys).getD "")
  | value => written py value

/-- The start or the end of the dict is under `from` or `to` alone. -/
def UsesFromTo (fields : Fields) : Prop :=
  (spelled py fields startKeys = none ∧ textValue py (get fields "from") ≠ "") ∨
    (spelled py fields endKeys = none ∧ textValue py (get fields "to") ≠ "")

def saysSomething (parts : String × String) : Bool := parts ≠ ("", "")

/-- The first dict or text, at whatever depth, that says something. -/
def firstEntry (value : Json) : Option Json := (entries value).find? fun e => saysSomething (written py e)

/-- The first item that says something, itself or in the lists it holds. -/
def firstItem (value : Json) : Option Json :=
  (topItems value).find? fun item => (entries item).any fun e => saysSomething (written py e)

/-- The first item that says something without `from`, `to` and nested lists. -/
def firstPlainItem (value : Json) : Option Json := (topItems value).find? fun item => saysSomething (plainly py item)

theorem says_iff (parts : String × String) : saysSomething parts = true ↔ parts.1 ≠ "" ∨ parts.2 ≠ "" := by
  obtain ⟨a, b⟩ := parts
  simp [saysSomething, Prod.ext_iff, imp_iff_not_or]

theorem find_speaks {read : Json → String × String} {items : List Json} {e : Json}
    (h : items.find? (fun x => saysSomething (read x)) = some e) : e ∈ items ∧ saysSomething (read e) = true :=
  ⟨List.mem_of_find?_eq_some h, List.find?_some (p := fun x => saysSomething (read x)) h⟩

theorem read_single (read : Json → String × String) (e : Json) :
    read e = (([e].find? fun x => saysSomething (read x)).map read).getD ("", "") := by
  by_cases h : read e = ("", "")
  · simp [saysSomething, h]
  · simp [saysSomething, h]

/-! ### Both readers on one dict or text -/

theorem parseOption_eq (found : String × String) (part : List Char) : parseOption py found part = rangePart py found part := by
  unfold parseOption rangePart
  by_cases heq : '=' ∈ part
  · obtain ⟨key, rest, rfl, hkey⟩ := List.eq_append_cons_of_mem heq
    have hin : ∀ c ∈ key, (decide (c ≠ '=')) = true := fun c hc => by
      rw [decide_eq_true_eq]
      rintro rfl
      exact hkey hc
    obtain ⟨raw, more, hsplit⟩ := List.exists_cons_of_ne_nil (List.splitOn_ne_nil '=' rest)
    have hrest : ['='].intercalate (raw :: more) = rest := by
      rw [← hsplit]
      exact List.intercalate_splitOn '='
    rw [if_pos heq, List.splitOn_append_cons_self_of_not_mem hkey, hsplit]
    dsimp only
    rw [hrest, List.takeWhile_append_of_pos hin, List.dropWhile_append_of_pos hin]
    simp
  · rw [if_neg heq, List.splitOn_eq_singleton heq]

theorem parseText_eq (text : String) : parseText py text = dhcpRangeParts py (.str text) := by
  unfold parseText dhcpRangeParts
  congr 1
  funext found part
  exact parseOption_eq py found part

theorem strip_empty : strip "" = "" := by decide +kernel

theorem plain_field (fields : Fields) (first second : String) :
    strip (textOf py (orElse (orElse (get fields first) (get fields second)) (.str ""))) =
      (spelled py fields [first, second]).getD "" := by
  unfold orElse spelled
  by_cases hfirst : (get fields first).truthy = true
  · simp [hfirst]
  · by_cases hsecond : (get fields second).truthy = true
    · simp [hfirst, hsecond]
    · simp [hfirst, hsecond, textOf, strip_empty]

theorem textValue_of_truthy {value : Json} (h : value.truthy = true) : textValue py value = strip (textOf py value) := by
  cases value with
  | null => cases h
  | _ => rfl

theorem written_field (fields : Fields) (first second last : String) :
    textValue py (orElse (orElse (get fields first) (get fields second)) (get fields last)) =
      (spelled py fields [first, second]).getD (textValue py (get fields last)) := by
  unfold orElse spelled
  by_cases hfirst : (get fields first).truthy = true
  · simp [hfirst, textValue_of_truthy]
  · by_cases hsecond : (get fields second).truthy = true
    · simp [hfirst, hsecond, textValue_of_truthy]
    · simp [hfirst, hsecond]

theorem parseFields_eq (fields : Fields) : parseFields py fields = plainly py (.obj fields) := by
  unfold parseFields plainly
  rw [plain_field, plain_field]
  rfl

theorem parts_obj (fields : Fields) : dhcpRangeParts py (.obj fields) = written py (.obj fields) := by
  unfold dhcpRangeParts written
  rw [written_field, written_field]
  rfl

theorem optionsOf_snoc (key : String) (parts : List (List Char)) (part : List Char) :
    optionsOf py key (parts ++ [part]) = optionsOf py key parts ++
      if '=' ∈ part ∧ py.lower (strip (String.ofList (part.takeWhile (· ≠ '=')))) = key then
        [strip (String.ofList ((part.dropWhile (· ≠ '=')).drop 1))]
      else [] := by
  unfold optionsOf
  rw [List.filterMap_append, List.filterMap_cons, List.filterMap_nil]
  congr 1
  split_ifs <;> rfl

theorem foldl_parseOption (parts : List (List Char)) :
    parts.foldl (parseOption py) ("", "") =
      (((optionsOf py "start-address" parts).getLast?).getD "", ((optionsOf py "end-address" parts).getLast?).getD "") := by
  induction parts using List.reverseRecOn with
  | nil => rfl
  | append_singleton parts part ih =>
    rw [List.foldl_append, ih, optionsOf_snoc, optionsOf_snoc, List.foldl_cons, List.foldl_nil]
    unfold parseOption
    by_cases heq : '=' ∈ part
    · simp only [heq, true_and]
      generalize py.lower (strip (String.ofList (part.takeWhile (· ≠ '=')))) = key
      by_cases hstart : key = "start-address"
      · simp [hstart]
      · by_cases hend : key = "end-address"
        · simp [hend]
        · simp [hstart, hend]
    · simp [heq]

theorem parseText_written (text : String) : parseText py text = written py (.str text) :=
  foldl_parseOption py (text.toList.splitOn ',')

theorem parts_str (text : String) : dhcpRangeParts py (.str text) = written py (.str text) := by
  rw [← parseText_eq, parseText_written]

theorem parseItem_eq (item : Json) : parseItem py item = plainly py item := by
  cases item with
  | obj fields => exact parseFields_eq py fields
  | str text => exact parseText_written py text
  | _ => rfl

mutual

/-- The reader with nested lists gives what the first entry says. -/
theorem dhcpRangeParts_eq : ∀ value : Json,
    dhcpRangeParts py value = ((firstEntry py value).map (written py)).getD ("", "")
  | .arr items => by
    unfold dhcpRangeParts firstEntry entries
    exact dhcpRangeFirst_eq items
  | .obj fields => (parts_obj py fields).trans (read_single (written py) (.obj fields))
  | .str text => (parts_str py text).trans (read_single (written py) (.str text))
  | .null => read_single (written py) .null
  | .bool b => read_single (written py) (.bool b)
  | .int n => read_single (written py) (.int n)
  | .float q => read_single (written py) (.float q)

theorem dhcpRangeFirst_eq : ∀ items : List Json,
    dhcpRangeFirst py items =
      (((entriesOf items).find? fun e => saysSomething (written py e)).map (written py)).getD ("", "")
  | [] => rfl
  | item :: items => by
    have hitem := dhcpRangeParts_eq item
    have hitems := dhcpRangeFirst_eq items
    unfold firstEntry at hitem
    unfold dhcpRangeFirst entriesOf
    rw [List.find?_append]
    cases hfind : (entries item).find? fun e => saysSomething (written py e) with
    | some e =>
      have hspeaks := (find_speaks hfind).2
      rw [hfind, Option.map_some, Option.getD_some] at hitem
      rw [hitem, if_pos ((says_iff _).mp hspeaks)]
      rfl
    | none =>
      rw [hfind, Option.map_none, Option.getD_none] at hitem
      rw [hitem, if_neg (by simp)]
      exact hitems

end

theorem parseItems_eq (items : List Json) :
    parseItems py items = ((items.find? fun x => saysSomething (plainly py x)).map (plainly py)).getD ("", "") := by
  induction items with
  | nil => rfl
  | cons x xs ih =>
    rw [parseItems, List.find?_cons, parseItem_eq]
    by_cases hx : saysSomething (plainly py x) = true
    · rw [hx, if_pos ((says_iff _).mp hx)]
      rfl
    · rw [Bool.not_eq_true] at hx
      rw [hx, if_neg (fun h => by rw [(says_iff _).mpr h] at hx; cases hx)]
      exact ih

theorem parseDhcpRange_eq (value : Json) :
    parseDhcpRange py value = ((firstPlainItem py value).map (plainly py)).getD ("", "") := by
  cases value with
  | arr items => exact parseItems_eq py items
  | obj fields => exact (parseFields_eq py fields).trans (read_single (plainly py) (.obj fields))
  | str text => exact (parseText_written py text).trans (read_single (plainly py) (.str text))
  | null => exact read_single (plainly py) .null
  | bool b => exact read_single (plainly py) (.bool b)
  | int n => exact read_single (plainly py) (.int n)
  | float q => exact read_single (plainly py) (.float q)

/-! ### The same range -/

theorem plainly_eq_written {item : Json} (h : ∀ fields, item = .obj fields → ¬ UsesFromTo py fields) :
    plainly py item = written py item := by
  cases item with
  | obj fields =>
    have hnot := h fields rfl
    unfold UsesFromTo at hnot
    push Not at hnot
    unfold plainly written
    rw [Prod.mk.injEq]
    constructor
    · cases hstart : spelled py fields startKeys with
      | none => exact (hnot.1 hstart).symm
      | some _ => rfl
    · cases hend : spelled py fields endKeys with
      | none => exact (hnot.2 hend).symm
      | some _ => rfl
  | _ => rfl

theorem says_of_plainly {item : Json} (h : saysSomething (plainly py item) = true) :
    item ∈ entries item ∧ saysSomething (written py item) = true := by
  cases item with
  | obj fields =>
    have hgiven : ∀ (found : Option String) (last : String), found.getD "" ≠ "" → found.getD last ≠ "" := by
      rintro (_ | _) last hne
      · exact absurd rfl hne
      · exact hne
    exact ⟨by simp [entries], (says_iff _).mpr (((says_iff _).mp h).imp (hgiven _ _) (hgiven _ _))⟩
  | str text => exact ⟨by simp [entries], h⟩
  | _ => cases h

mutual

theorem arr_notMem_entries {items : List Json} : ∀ value : Json, .arr items ∉ entries value
  | .arr xs => by
    unfold entries
    exact arr_notMem_entriesOf xs
  | .obj _ | .str _ | .null | .bool _ | .int _ | .float _ => by simp [entries]

theorem arr_notMem_entriesOf {items : List Json} : ∀ xs : List Json, .arr items ∉ entriesOf xs
  | [] => List.not_mem_nil
  | x :: xs => by
    unfold entriesOf
    intro h
    rcases List.mem_append.mp h with h | h
    · exact arr_notMem_entries x h
    · exact arr_notMem_entriesOf xs h

end

theorem entriesOf_eq (items : List Json) : entriesOf items = items.flatMap entries := by
  induction items with
  | nil => rfl
  | cons x xs ih =>
    unfold entriesOf
    rw [ih, List.flatMap_cons]

theorem entries_eq (value : Json) : entries value = (topItems value).flatMap entries := by
  cases value with
  | arr items =>
    unfold entries topItems
    exact entriesOf_eq items
  | _ => simp [topItems, entries]

/-- The first entry is found in the first item that says something. -/
theorem firstEntry_eq (value : Json) : firstEntry py value = (firstItem py value).bind (firstEntry py) := by
  unfold firstItem
  rw [firstEntry, entries_eq]
  induction topItems value with
  | nil => rfl
  | cons x xs ih =>
    rw [List.flatMap_cons, List.find?_append, List.find?_cons]
    cases hfind : firstEntry py x with
    | some e =>
      have hany : (entries x).any (fun e => saysSomething (written py e)) = true :=
        List.any_eq_true.mpr ⟨e, find_speaks hfind⟩
      rw [hany]
      unfold firstEntry at hfind ⊢
      simp [hfind]
    | none =>
      have hany : (entries x).any (fun e => saysSomething (written py e)) = false :=
        List.any_eq_false.mpr (List.find?_eq_none.mp hfind)
      unfold firstEntry at hfind
      rw [hany, hfind, Option.none_or]
      exact ih

theorem firstPlainItem_says {value item : Json} (h : firstPlainItem py value = some item) :
    item ∈ topItems value ∧ (entries item).any (fun e => saysSomething (written py e)) = true := by
  obtain ⟨hmem, hspeaks⟩ := find_speaks h
  exact ⟨hmem, List.any_eq_true.mpr ⟨item, says_of_plainly py hspeaks⟩⟩

/-- The first item that says something is no list and uses neither `from` nor `to`. -/
def InTheOpen (item : Json) : Prop :=
  (∀ items, item ≠ .arr items) ∧ ∀ fields, item = .obj fields → ¬ UsesFromTo py fields

/-- The first item that says something in the open repeats what the entry says. -/
def Repeated (value e : Json) : Prop := ∃ item ∈ firstPlainItem py value, plainly py item = written py e

theorem InTheOpen.firstPlainItem {value item : Json} (hitem : firstItem py value = some item) (h : InTheOpen py item) :
    firstPlainItem py value = some item ∧ firstEntry py value = some item := by
  have hentries : entries item = [item] := by
    cases item with
    | arr items => exact absurd rfl (h.1 items)
    | _ => simp [entries]
  have hspeaks : saysSomething (written py item) = true := by
    have hany := List.find?_some (p := fun item => (entries item).any fun e => saysSomething (written py e)) hitem
    simpa [hentries] using hany
  constructor
  · unfold Sdn.firstPlainItem
    unfold Sdn.firstItem at hitem
    obtain ⟨_, before, after, hsplit, hnot⟩ := List.find?_eq_some_iff_append.mp hitem
    refine List.find?_eq_some_iff_append.mpr ⟨?_, before, after, hsplit, fun x hx => ?_⟩
    · rw [plainly_eq_written py h.2]
      exact hspeaks
    · by_contra hx'
      rw [Bool.not_eq_true, Bool.not_eq_false'] at hx'
      have hany : (entries x).any (fun e => saysSomething (written py e)) = true :=
        List.any_eq_true.mpr ⟨x, says_of_plainly py hx'⟩
      have hx := hnot x hx
      rw [hany] at hx
      cases hx
  · rw [firstEntry_eq, hitem, Option.bind_some]
    unfold firstEntry
    simp [hentries, hspeaks]

/-- The lab view takes the first entry, wherever it stands and however it is spelled; the inventory
has the same when it stands in the open, or when the item that the inventory takes repeats it. -/
theorem readers_agree_iff (value : Json) :
    parseDhcpRange py value = dhcpRangeParts py value ↔
      ∀ item ∈ firstItem py value, InTheOpen py item ∨ ∀ e ∈ firstEntry py item, Repeated py value e := by
  rw [parseDhcpRange_eq, dhcpRangeParts_eq, firstEntry_eq]
  cases hitem : firstItem py value with
  | none =>
    refine iff_of_true ?_ (by simp)
    cases hplain : firstPlainItem py value with
    | none => rfl
    | some item =>
      obtain ⟨hmem, hspeaks⟩ := firstPlainItem_says py hplain
      exact absurd hspeaks (by simpa using List.find?_eq_none.mp hitem item hmem)
  | some item =>
    have hany := List.find?_some (p := fun item => (entries item).any fun e => saysSomething (written py e)) hitem
    obtain ⟨e, he⟩ : ∃ e, firstEntry py item = some e := by
      obtain ⟨e, hmem, hspeaks⟩ := List.any_eq_true.mp hany
      exact Option.isSome_iff_exists.mp (List.find?_isSome.mpr ⟨e, hmem, hspeaks⟩)
    have hspeaks := (find_speaks he).2
    have hrepeated : ((firstPlainItem py value).map (plainly py)).getD ("", "") = written py e ↔ Repeated py value e := by
      unfold Repeated
      cases hplain : firstPlainItem py value with
      | none =>
        refine iff_of_false (fun heq => ?_) (by simp)
        rw [Option.map_none, Option.getD_none] at heq
        rw [← heq] at hspeaks
        exact absurd hspeaks (by decide)
      | some item' => simp
    rw [Option.bind_some, he, Option.map_some, Option.getD_some, hrepeated]
    constructor
    · rintro hrepeated item' hitem'
      cases hitem'
      exact .inr fun e' he' => by
        cases he.symm.trans he'
        exact hrepeated
    · intro h
      rcases h item rfl with hopen | hrepeats
      · obtain ⟨hplain, hentry⟩ := InTheOpen.firstPlainItem py hitem hopen
        rw [firstEntry_eq, hitem, Option.bind_some, he] at hentry
        cases hentry
        exact ⟨item, hplain, plainly_eq_written py hopen.2⟩
      · exact hrepeats e he

/-! ### Reading a range back -/

theorem mem_strip {text : String} {c : Char} (h : c ∈ (strip text).toList) : c ∈ text.toList := by
  unfold strip at h
  rw [String.toList_ofList] at h
  exact Foundation.of_mem_trimmed h

theorem notMem_of_mem_splitOn {c : Char} {text piece : List Char} (h : piece ∈ text.splitOn c) : c ∉ piece := by
  induction text generalizing piece with
  | nil =>
    rw [List.splitOn_nil, List.mem_singleton] at h
    rw [h]
    exact List.not_mem_nil
  | cons x xs ih =>
    obtain ⟨first, rest, hsplit⟩ := List.exists_cons_of_ne_nil (List.splitOn_ne_nil c xs)
    rw [List.splitOn_cons_eq_if_modifyHead, hsplit] at h
    rw [hsplit] at ih
    split at h
    · rcases List.mem_cons.mp h with rfl | h
      · exact List.not_mem_nil
      · exact ih h
    · rename_i hne
      rcases List.mem_cons.mp h with rfl | h
      · exact List.not_mem_cons_of_ne_of_not_mem (fun heq => hne (by simp [heq])) (ih List.mem_cons_self)
      · exact ih (List.mem_cons_of_mem _ h)

/-- What a text gives is empty or a part of it after its first `=`, stripped. -/
theorem optionWritten_cases (key text : String) : optionWritten py key text = "" ∨
    ∃ part ∈ text.toList.splitOn ',',
      optionWritten py key text = strip (String.ofList ((part.dropWhile (· ≠ '=')).drop 1)) := by
  unfold optionWritten
  cases hlast : (optionsOf py key (text.toList.splitOn ',')).getLast? with
  | none => exact .inl rfl
  | some address =>
    obtain ⟨part, hpart, haddress⟩ := List.mem_filterMap.mp (List.mem_of_getLast? hlast)
    split at haddress
    · cases haddress
      exact .inr ⟨part, hpart, rfl⟩
    · cases haddress

/-- An option text never gives an address with a comma. -/
theorem comma_of_text (key text : String) : ',' ∉ (optionWritten py key text).toList := by
  rcases optionWritten_cases py key text with hempty | ⟨part, hpart, haddress⟩
  · rw [hempty]
    decide
  · rw [haddress]
    intro hcomma
    have hmem := mem_strip hcomma
    rw [String.toList_ofList] at hmem
    exact notMem_of_mem_splitOn hpart ((List.dropWhile_sublist _).subset (List.mem_of_mem_drop hmem))

theorem stripped_option (key text : String) : strip (optionWritten py key text) = optionWritten py key text := by
  rcases optionWritten_cases py key text with hempty | ⟨part, -, haddress⟩
  · rw [hempty, strip_empty]
  · rw [haddress, strip_strip]

theorem stripped_spelled {fields : Fields} {keys : List String} {last : String} (hlast : strip last = last) :
    strip ((spelled py fields keys).getD last) = (spelled py fields keys).getD last := by
  unfold spelled
  cases (keys.map (get fields)).find? Json.truthy with
  | none => exact hlast
  | some _ => exact strip_strip _

theorem stripped_textValue (value : Json) : strip (textValue py value) = textValue py value := by
  unfold textValue
  split
  · exact strip_empty
  · exact strip_strip _

theorem stripped_parts (value : Json) :
    strip (dhcpRangeParts py value).1 = (dhcpRangeParts py value).1 ∧
      strip (dhcpRangeParts py value).2 = (dhcpRangeParts py value).2 := by
  rw [dhcpRangeParts_eq]
  cases firstEntry py value with
  | none => exact ⟨strip_empty, strip_empty⟩
  | some e =>
    rw [Option.map_some, Option.getD_some]
    cases e with
    | obj fields => exact ⟨stripped_spelled py (stripped_textValue py _), stripped_spelled py (stripped_textValue py _)⟩
    | str text => exact ⟨stripped_option py _ text, stripped_option py _ text⟩
    | _ => exact ⟨strip_empty, strip_empty⟩

theorem parseOption_text (text : String) {name address : String} (htext : text = name ++ "=") (hplain : '=' ∉ name.toList)
    (hname : py.lower (strip name) = name) (haddress : strip address = address) (found : String × String) :
    parseOption py found (text ++ address).toList =
      if name = "start-address" then (address, found.2)
      else if name = "end-address" then (found.1, address)
      else found := by
  have hpart : (text ++ address).toList = name.toList ++ '=' :: address.toList := by
    rw [htext, String.toList_append, String.toList_append, List.append_assoc]
    rfl
  have hin : ∀ c ∈ name.toList, (decide (c ≠ '=')) = true := fun c hc => by
    rw [decide_eq_true_eq]
    rintro rfl
    exact hplain hc
  unfold parseOption
  rw [hpart, if_pos (by simp), List.takeWhile_append_of_pos hin, List.dropWhile_append_of_pos hin]
  simp [hname, haddress]

/-- A range is read back from its text exactly where no address has a comma. -/
theorem parse_rangeValue_iff (hstart : py.lower "start-address" = "start-address")
    (hend : py.lower "end-address" = "end-address") {row : Fields}
    (hspeaks : saysSomething (dhcpRangeParts py (get row "dhcp-range"))) :
    parseText py (dhcpRangeValue py row) = dhcpRangeParts py (get row "dhcp-range") ↔
      ',' ∉ (dhcpRangeParts py (get row "dhcp-range")).1.toList ∧
        ',' ∉ (dhcpRangeParts py (get row "dhcp-range")).2.toList := by
  constructor
  · intro h
    rw [← h, parseText_written]
    exact ⟨comma_of_text py _ _, comma_of_text py _ _⟩
  obtain ⟨hstripStart, hstripEnd⟩ := stripped_parts py (get row "dhcp-range")
  unfold dhcpRangeValue
  generalize dhcpRangeParts py (get row "dhcp-range") = range at *
  obtain ⟨start, stop⟩ := range
  rintro ⟨hcommaStart, hcommaEnd⟩
  dsimp only at *
  have hfirst : ',' ∉ ("start-address=" ++ start).toList := by
    rw [String.toList_append, List.mem_append]
    exact not_or.mpr ⟨by decide +kernel, hcommaStart⟩
  have hsecond : ',' ∉ ("end-address=" ++ stop).toList := by
    rw [String.toList_append, List.mem_append]
    exact not_or.mpr ⟨by decide +kernel, hcommaEnd⟩
  have hread : ∀ {name : String}, strip name = name → py.lower name = name → py.lower (strip name) = name :=
    fun hstrip hlower => (congrArg py.lower hstrip).trans hlower
  have hreadStart := parseOption_text py "start-address=" (by decide +kernel) (by decide +kernel)
    (hread (by decide +kernel) hstart) hstripStart
  have hreadEnd := parseOption_text py "end-address=" (by decide +kernel) (by decide +kernel)
    (hread (by decide +kernel) hend) hstripEnd
  simp only [reduceIte, String.reduceEq] at hreadStart hreadEnd
  unfold parseText
  by_cases hs : start = "" <;> by_cases he : stop = ""
  · subst hs he
    exact absurd hspeaks (by decide)
  · rw [if_neg (not_not.mpr hs), if_pos he, if_pos (by simp), List.nil_append, String.intercalate_singleton,
      List.splitOn_eq_singleton hsecond, List.foldl_cons, List.foldl_nil, hreadEnd, hs]
  · rw [if_pos hs, if_neg (not_not.mpr he), if_pos (by simp), List.append_nil, String.intercalate_singleton,
      List.splitOn_eq_singleton hfirst, List.foldl_cons, List.foldl_nil, hreadStart, he]
  · have hjoined : (",".intercalate ["start-address=" ++ start, "end-address=" ++ stop]).toList =
        ("start-address=" ++ start).toList ++ ',' :: ("end-address=" ++ stop).toList := by
      rw [String.intercalate_cons_cons, String.intercalate_singleton, String.toList_append, String.toList_append,
        List.append_assoc]
      rfl
    rw [if_pos hs, if_pos he, List.singleton_append, if_pos (by simp), hjoined,
      List.splitOn_append_cons_self_of_not_mem hfirst, List.splitOn_eq_singleton hsecond, List.foldl_cons,
      List.foldl_cons, List.foldl_nil, hreadStart, hreadEnd]

/-- A dict whose start and end, in whatever spelling, have no comma. -/
def CommaFree (e : Json) : Prop :=
  ∀ fields, e = .obj fields →
    ',' ∉ ((spelled py fields startKeys).getD (textValue py (get fields "from"))).toList ∧
      ',' ∉ ((spelled py fields endKeys).getD (textValue py (get fields "to"))).toList

theorem commaFree_iff (e : Json) :
    CommaFree py e ↔ ',' ∉ (written py e).1.toList ∧ ',' ∉ (written py e).2.toList := by
  constructor
  · intro hfree
    cases e with
    | obj fields => exact hfree fields rfl
    | str text => exact ⟨comma_of_text py _ text, comma_of_text py _ text⟩
    | _ =>
      have hempty : ',' ∉ "".toList := by decide
      exact ⟨hempty, hempty⟩
  · rintro hfree fields rfl
    exact hfree

/-- Both readers give the same, and the text made of it is read back by both. -/
structure ReadersAgree (row : Fields) : Prop where
  same : parseDhcpRange py (get row "dhcp-range") = dhcpRangeParts py (get row "dhcp-range")
  back : parseDhcpRange py (get row "dhcp-range") ≠ ("", "") →
    parseDhcpRange py (.str (dhcpRangeValue py row)) = parseDhcpRange py (get row "dhcp-range") ∧
      dhcpRangeParts py (.str (dhcpRangeValue py row)) = parseDhcpRange py (get row "dhcp-range")

/-- The readers agree and read back what they wrote exactly where nothing is said, or the first item
that says something is in the open, or the first one in the open repeats it; and what is said first
is no dict with a comma in an address. -/
theorem readersAgree_iff (hstart : py.lower "start-address" = "start-address")
    (hend : py.lower "end-address" = "end-address") (row : Fields) :
    ReadersAgree py row ↔
      ∀ item ∈ firstItem py (get row "dhcp-range"),
        (InTheOpen py item ∨ ∀ e ∈ firstEntry py item, Repeated py (get row "dhcp-range") e) ∧
          ∀ e ∈ firstEntry py item, CommaFree py e := by
  have hagree := readers_agree_iff py (get row "dhcp-range")
  have hparts := dhcpRangeParts_eq py (get row "dhcp-range")
  rw [firstEntry_eq] at hparts
  constructor
  · intro h item hitem
    refine ⟨hagree.mp h.same item hitem, fun e he => ?_⟩
    rw [show firstItem py (get row "dhcp-range") = some item from hitem, Option.bind_some,
      show firstEntry py item = some e from he, Option.map_some, Option.getD_some] at hparts
    have hspeaks := (find_speaks he).2
    rw [← hparts] at hspeaks
    have hback := (h.back (by rw [h.same]; simpa [saysSomething] using hspeaks)).1
    rw [h.same] at hback
    rw [commaFree_iff, ← hparts]
    exact (parse_rangeValue_iff py hstart hend hspeaks).mp hback
  · intro h
    have hsame := hagree.mpr fun item hitem => (h item hitem).1
    refine ⟨hsame, fun hne => ?_⟩
    rw [hsame] at hne ⊢
    cases hentry : (firstItem py (get row "dhcp-range")).bind (firstEntry py) with
    | none =>
      rw [hentry] at hparts
      exact absurd hparts hne
    | some e =>
      obtain ⟨item, hitem, he⟩ := Option.bind_eq_some_iff.mp hentry
      have hcomma := (commaFree_iff py e).mp ((h item hitem).2 e he)
      rw [hentry, Option.map_some, Option.getD_some] at hparts
      rw [← hparts] at hcomma
      have hback := (parse_rangeValue_iff py hstart hend (by simpa [saysSomething] using hne)).mpr hcomma
      refine ⟨hback, ?_⟩
      rw [← parseText_eq]
      exact hback

end

def asciiPython : Python := ⟨fun _ => "", Foundation.lower, fun s => s.toUpper⟩

def spelledRange : Fields := [("start-address", .str "10.0.0.5"), ("end", .str "10.0.0.9")]

def listedRange : Fields := [("dhcp-range", .arr [.arr [.obj []], .obj spelledRange])]

theorem listed_range_agrees : ReadersAgree asciiPython listedRange := by
  have hitem : firstItem asciiPython (get listedRange "dhcp-range") = some (.obj spelledRange) := by decide +kernel
  have hentry : firstEntry asciiPython (.obj spelledRange) = some (.obj spelledRange) := by decide +kernel
  refine (readersAgree_iff asciiPython (by decide +kernel) (by decide +kernel) listedRange).mpr fun item hfirst => ?_
  obtain rfl : Json.obj spelledRange = item := Option.some.inj (hitem.symm.trans hfirst)
  refine ⟨.inl ⟨fun _ h => (by cases h), fun fields h => ?_⟩, fun e he fields h => ?_⟩
  · obtain rfl : spelledRange = fields := Json.obj.inj h
    unfold UsesFromTo
    decide +kernel
  · obtain rfl : Json.obj spelledRange = e := Option.some.inj (hentry.symm.trans he)
    obtain rfl : spelledRange = fields := Json.obj.inj h
    decide +kernel

theorem from_to_read_once :
    ¬ ReadersAgree asciiPython [("dhcp-range", .obj [("from", .str "10.0.0.5"), ("to", .str "10.0.0.9")])] := by
  intro h
  have hsame := h.same
  revert hsame
  decide +kernel

end ProxmoxVEAutopilot.Sdn
