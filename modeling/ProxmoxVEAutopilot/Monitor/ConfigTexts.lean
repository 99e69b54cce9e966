import ProxmoxVEAutopilot.Foundation.Lists
import ProxmoxVEAutopilot.Monitor.ProxmoxConfig

/-!
# Configs as Proxmox writes them

Drives and network cards are written as option strings under numbered keys. What a config is
made of, apart from how it is written down.
-/

namespace ProxmoxVEAutopilot.Monitor.PveConfig

open Foundation
open Smbios (commaParts splitOption commaParts_intercalate splitOption_pair)
set_option autoImplicit false

inductive Bus where
  | scsi
  | ide
  | virtio
  | sata
  | nvme
deriving DecidableEq, Repr

def Bus.name : Bus → String
  | scsi => "scsi"
  | ide => "ide"
  | virtio => "virtio"
  | sata => "sata"
  | nvme => "nvme"

inductive SizeUnit where
  | bytes
  | kilo
  | mega
  | giga
  | tera
deriving DecidableEq, Repr

def SizeUnit.text : SizeUnit → String
  | bytes => ""
  | kilo => "K"
  | mega => "M"
  | giga => "G"
  | tera => "T"

def SizeUnit.factor : SizeUnit → Nat
  | bytes => 1
  | kilo => 1024
  | mega => 1024 ^ 2
  | giga => 1024 ^ 3
  | tera => 1024 ^ 4

structure Size where
  number : Nat
  unit : SizeUnit
deriving DecidableEq, Repr

def Size.text (s : Size) : String := toString s.number ++ s.unit.text

def Size.bytes (s : Size) : Nat := s.number * s.unit.factor

def Unseparated (text : String) : Prop := ',' ∉ text.toList

inductive DriveOption where
  | size (s : Size)
  | serial (text : String)
  | media (kind : String)
  | other (key value : String)
deriving DecidableEq, Repr

namespace DriveOption

def key : DriveOption → String
  | size _ => "size"
  | serial _ => "serial"
  | media _ => "media"
  | other key _ => key

def value : DriveOption → String
  | size s => s.text
  | serial text => text
  | media kind => kind
  | other _ value => value

def size? : DriveOption → Option Size
  | size s => some s
  | _ => none

def serial? : DriveOption → Option String
  | serial text => some text
  | _ => none

def media? : DriveOption → Option String
  | media kind => some kind
  | _ => none

def Proper : DriveOption → Prop
  | size _ => True
  | serial text => Unseparated text
  | media kind => Unseparated kind
  | other key value => key ∉ ["size", "serial", "media"] ∧ '=' ∉ key.toList ∧ Unseparated key ∧ Unseparated value

end DriveOption

/-- A disk or CD-ROM drive. -/
structure Drive where
  bus : Bus
  index : Nat
  volume : String
  options : List DriveOption
  volume_plain : Unseparated volume
  options_proper : ∀ o ∈ options, o.Proper
  options_distinct : (options.map DriveOption.key).Nodup

namespace Drive
variable (d : Drive)

def key : String := d.bus.name ++ toString d.index

def text : String := ",".intercalate (d.volume :: d.options.map fun o => o.key ++ "=" ++ o.value)

def size : Option Size := d.options.findSome? DriveOption.size?

def serial : Option String := d.options.findSome? DriveOption.serial?

def isCdrom : Bool := d.options.findSome? DriveOption.media? == some "cdrom"

def storage : String := (upTo ':' d.volume).getD ""

def fields : DiskFields := ⟨d.bus.name, d.index, d.storage, d.size.map fun s : Size => (s.bytes : Int), d.serial⟩

end Drive

inductive NicOption where
  | bridge (name : String)
  | tag (vlan : Nat)
  | other (key value : String)
deriving DecidableEq, Repr

namespace NicOption

def key : NicOption → String
  | bridge _ => "bridge"
  | tag _ => "tag"
  | other key _ => key

def value : NicOption → String
  | bridge name => name
  | tag vlan => toString vlan
  | other _ value => value

def bridge? : NicOption → Option String
  | bridge name => some name
  | _ => none

def tag? : NicOption → Option Nat
  | tag vlan => some vlan
  | _ => none

def Proper : NicOption → Prop
  | bridge name => Unseparated name
  | tag _ => True
  | other key value => key ∉ ["bridge", "tag"] ∧ '=' ∉ key.toList ∧ Unseparated key ∧ Unseparated value

end NicOption

structure Nic where
  index : Nat
  model : String
  mac : Option String
  options : List NicOption
  model_plain : '=' ∉ model.toList ∧ Unseparated model
  mac_plain : ∀ text ∈ mac, Unseparated text
  options_proper : ∀ o ∈ options, o.Proper
  options_distinct : (options.map NicOption.key).Nodup

namespace Nic
variable (n : Nic)

def key : String := "net" ++ toString n.index

def head : String := n.mac.elim n.model fun text => n.model ++ "=" ++ text

def text : String := ",".intercalate (n.head :: n.options.map fun o => o.key ++ "=" ++ o.value)

def bridge : Option String := n.options.findSome? NicOption.bridge?

def vlan : Option Nat := n.options.findSome? NicOption.tag?

def fields : NetFields := ⟨n.index, n.model, n.bridge, n.vlan.map fun vlan : Nat => (vlan : Int)⟩

end Nic

section Digits

theorem digits_ofDigitChars {cs : List Char} (h : ∀ c ∈ cs, c.isDigit = true) (value : Nat) :
    digits value cs = some (Nat.ofDigitChars 10 cs value) := by
  induction cs generalizing value with
  | nil => rfl
  | cons c cs ih =>
    have hc := h c (List.mem_cons_self ..)
    have hne : c ≠ '_' := by
      rintro rfl
      exact absurd hc (by decide)
    rw [digits, if_pos hc, ih (fun d hd => h d (List.mem_cons_of_mem _ hd)), Nat.ofDigitChars_cons]
    · rfl
    · intro d rest heq
      exact absurd heq hne

theorem natural_toString (n : Nat) : natural (toString n).toList = some n := by
  have hdigits : ∀ c ∈ Nat.toDigits 10 n, c.isDigit = true := fun c hc =>
    Nat.isDigit_of_mem_toDigits (by decide) (by decide) hc
  have hchars : (toString n).toList = Nat.toDigits 10 n := Nat.toList_repr
  have hvalue := @Nat.ofDigitChars_ten_toDigits n
  rw [hchars]
  cases hcs : Nat.toDigits 10 n with
  | nil => exact absurd hcs Nat.toDigits_ne_nil
  | cons c cs =>
    rw [hcs] at hdigits hvalue
    rw [natural, if_pos (hdigits c (List.mem_cons_self ..)),
      digits_ofDigitChars fun d hd => hdigits d (List.mem_cons_of_mem _ hd)]
    rw [Nat.ofDigitChars_cons, Nat.mul_zero, Nat.zero_add] at hvalue
    exact congrArg some hvalue

theorem isDigit_toString {n : Nat} {c : Char} (h : c ∈ (toString n).toList) : c.isDigit = true :=
  Nat.isDigit_of_mem_toDigits (b := 10) (by decide) (by decide) (Nat.toList_repr ▸ h)

theorem toString_ne_nil (n : Nat) : (toString n).toList ≠ [] := by
  have hchars : (toString n).toList = Nat.toDigits 10 n := Nat.toList_repr
  rw [hchars]
  exact Nat.toDigits_ne_nil

theorem numbered_append (name : String) (n : Nat) : numbered name (name ++ toString n) = some n := by
  have hdrop : (name ++ toString n).toList.drop name.toList.length = (toString n).toList := by
    rw [String.toList_append, List.drop_left]
  have hprefix : name.toList <+: (name ++ toString n).toList := by
    rw [String.toList_append]
    exact List.prefix_append _ _
  have hall : (toString n).toList.all Char.isDigit = true := List.all_eq_true.mpr fun c hc => isDigit_toString hc
  unfold numbered
  rw [if_pos hprefix]
  simp only [hdrop]
  rw [if_pos ⟨toString_ne_nil n, hall⟩, natural_toString]

theorem numbered_none {name key : String} (h : ¬ name.toList <+: key.toList) : numbered name key = none := if_neg h

theorem not_prefix_append {name other : String} (h : ¬ name.toList <+: other.toList) (h' : ¬ other.toList <+: name.toList)
    (rest : String) : ¬ name.toList <+: (other ++ rest).toList := by
  rw [String.toList_append]
  intro hprefix
  exact (List.prefix_or_prefix_of_prefix hprefix (List.prefix_append _ _)).elim h h'

theorem numbered_other {name : String} {bus : Bus} (hname : name ∈ busNames) (hne : name ≠ bus.name) (n : Nat) :
    numbered name (bus.name ++ toString n) = none := by
  refine numbered_none (not_prefix_append ?_ ?_ _)
  all_goals
    simp only [busNames, List.mem_cons, List.not_mem_nil, or_false] at hname
    rcases hname with rfl | rfl | rfl | rfl | rfl <;> cases bus <;> first | decide | exact absurd rfl hne

theorem diskKey_drive (d : Drive) : diskKey d.key = some (d.bus.name, d.index) := by
  have hown := numbered_append d.bus.name d.index
  have hother : ∀ name ∈ busNames, name ≠ d.bus.name → numbered name (d.bus.name ++ toString d.index) = none :=
    fun name hname hne => numbered_other hname hne d.index
  unfold diskKey Drive.key
  rw [List.findSome?_eq_some_iff]
  have hmem : d.bus.name ∈ busNames := by
    cases d.bus <;> decide
  have hnodup : busNames.Nodup := by decide
  obtain ⟨before, after, hsplit⟩ := List.append_of_mem hmem
  refine ⟨before, d.bus.name, after, hsplit, by rw [hown]; rfl, fun name hname => ?_⟩
  have hne : name ≠ d.bus.name := by
    rintro rfl
    rw [hsplit, List.nodup_append] at hnodup
    exact hnodup.2.2 _ hname _ (List.mem_cons_self ..) rfl
  rw [hother name (hsplit ▸ List.mem_append_left _ hname) hne]
  rfl

theorem diskKey_net (n : Nat) : diskKey ("net" ++ toString n) = none := by
  unfold diskKey
  rw [List.findSome?_eq_none_iff]
  intro name hname
  rw [numbered_none]
  · rfl
  refine not_prefix_append ?_ ?_ _
  all_goals
    simp only [busNames, List.mem_cons, List.not_mem_nil, or_false] at hname
    rcases hname with rfl | rfl | rfl | rfl | rfl <;> decide

theorem isSpace_digit {c : Char} (h : c.isDigit = true) : isSpace c = false := by
  have hrange : 48 ≤ c.toNat ∧ c.toNat ≤ 57 := by
    simp only [Char.isDigit, Bool.and_eq_true, decide_eq_true_eq] at h
    exact ⟨h.1, h.2⟩
  unfold isSpace
  simp only [Bool.or_eq_false_iff, Bool.and_eq_false_iff, decide_eq_false_iff_not, beq_eq_false_iff_ne]
  omega

theorem strip_toString (n : Nat) : strip (toString n) = toString n := by
  have hplain : ∀ c ∈ (toString n).toList, isSpace c = false := fun c hc => isSpace_digit (isDigit_toString hc)
  have htrimmed : trimmed isSpace (toString n).toList = (toString n).toList :=
    trimmed_of_ends (fun c hc => hplain c (List.mem_of_mem_head? hc)) fun c hc => hplain c (List.mem_of_mem_getLast? hc)
  exact String.toList_inj.mp ((String.toList_ofList).trans htrimmed)

theorem intOfText_toString (n : Nat) : intOfText (toString n) = some (n : Int) := by
  have hdigit : ∀ c ∈ (toString n).toList, c.isDigit = true := fun c hc => isDigit_toString hc
  unfold intOfText
  rw [strip_toString]
  split
  · rename_i rest heq
    rw [heq] at hdigit
    exact absurd (hdigit '-' (List.mem_cons_self ..)) (by decide)
  · rename_i rest heq
    rw [heq] at hdigit
    exact absurd (hdigit '+' (List.mem_cons_self ..)) (by decide)
  · rw [natural_toString]
    rfl

theorem unitMul_digit {c : Char} (h : c.isDigit = true) : unitMul c = none := by
  unfold unitMul
  rw [if_neg, if_neg, if_neg, if_neg] <;> rintro rfl <;> exact absurd h (by decide)

theorem sizeBytes_unit {n factor : Nat} {c : Char} {text : String} (htext : text.toList = [c])
    (h : unitMul c = some (factor : Int)) : sizeBytes (toString n ++ text) = some ((n * factor : Nat) : Int) := by
  have hchars : (toString n ++ text).toList = (toString n).toList ++ [c] := by rw [String.toList_append, htext]
  have hne : toString n ++ text ≠ "" := by
    intro hempty
    rw [hempty] at hchars
    exact absurd hchars.symm (List.append_ne_nil_of_right_ne_nil _ (List.cons_ne_nil _ _))
  unfold sizeBytes
  rw [if_neg hne, hchars, List.getLast?_concat, Option.bind_some, h, List.dropLast_concat]
  dsimp only
  rw [String.ofList_toList, intOfText_toString, Nat.cast_mul]
  rfl

theorem sizeBytes_plain (n : Nat) : sizeBytes (toString n) = some (n : Int) := by
  have hne : toString n ≠ "" := fun hempty => toString_ne_nil n (by rw [hempty]; rfl)
  have hlast : (toString n).toList.getLast?.bind unitMul = none := by
    cases hc : (toString n).toList.getLast? with
    | none => rfl
    | some c => exact unitMul_digit (isDigit_toString (List.mem_of_mem_getLast? hc))
  unfold sizeBytes
  rw [if_neg hne, hlast]
  exact intOfText_toString n

theorem unit_letter {unit : SizeUnit} (h : unit ≠ .bytes) :
    ∃ c, unit.text.toList = [c] ∧ unitMul c = some (unit.factor : Int) := by
  cases unit with
  | bytes => exact absurd rfl h
  | kilo => exact ⟨'K', by decide, by decide⟩
  | mega => exact ⟨'M', by decide, by decide⟩
  | giga => exact ⟨'G', by decide, by decide⟩
  | tera => exact ⟨'T', by decide, by decide⟩

theorem sizeBytes_text (s : Size) : sizeBytes s.text = some (s.bytes : Int) := by
  obtain ⟨n, unit⟩ := s
  by_cases hunit : unit = .bytes
  · subst hunit
    change sizeBytes (toString n ++ "") = some (((n * 1 : Nat) : Int))
    rw [String.append_empty, Nat.mul_one]
    exact sizeBytes_plain n
  · obtain ⟨c, htext, hmul⟩ := unit_letter hunit
    exact sizeBytes_unit htext hmul

end Digits

section Options
variable {α β : Type} {options : List α} {key value : α → String}

theorem lookup_reverse {dict : List (String × String)} (h : (dict.map Prod.fst).Nodup) (k : String) :
    dict.reverse.lookup k = dict.lookup k := by
  have hreverse : (dict.reverse.map Prod.fst).Nodup := by
    rw [List.map_reverse]
    exact List.nodup_reverse.mpr h
  refine Option.ext fun v => ?_
  rw [lookup_iff_mem hreverse, lookup_iff_mem h, List.mem_reverse]

theorem options_read {head : String} (hhead : Unseparated head)
    (hoptions : ∀ o ∈ options, '=' ∉ (key o).toList ∧ Unseparated (key o) ∧ Unseparated (value o))
    (hdistinct : (options.map key).Nodup) :
    let parts := commaParts (",".intercalate (head :: options.map fun o => key o ++ "=" ++ value o))
    parts.headD "" = head ∧
      ∀ k, (attrs parts.tail).lookup k = (options.map fun o => (key o, value o)).lookup k := by
  have hcomma : ∀ p ∈ head :: options.map (fun o => key o ++ "=" ++ value o), ',' ∉ p.toList := by
    intro p hp
    rcases List.mem_cons.mp hp with rfl | hp
    · exact hhead
    · obtain ⟨o, ho, rfl⟩ := List.mem_map.mp hp
      rw [String.toList_append, String.toList_append, List.mem_append, List.mem_append, not_or, not_or]
      exact ⟨⟨(hoptions o ho).2.1, by decide⟩, (hoptions o ho).2.2⟩
  have hattrs : attrs (options.map fun o => key o ++ "=" ++ value o) = (options.map fun o => (key o, value o)).reverse := by
    have hfilter : (options.map fun o => key o ++ "=" ++ value o).filter (fun p => decide ('=' ∈ p.toList)) =
        options.map fun o => key o ++ "=" ++ value o := by
      refine List.filter_eq_self.mpr fun p hp => ?_
      obtain ⟨o, _, rfl⟩ := List.mem_map.mp hp
      refine decide_eq_true ?_
      rw [String.toList_append, String.toList_append, List.mem_append, List.mem_append]
      exact .inl (.inr (List.mem_singleton_self _))
    unfold attrs
    rw [hfilter, List.map_map]
    refine congrArg List.reverse (List.map_congr_left fun o ho => ?_)
    exact splitOption_pair (hoptions o ho).1 (value o)
  have hkeys : ((options.map fun o => (key o, value o)).map Prod.fst).Nodup := by
    rw [List.map_map]
    exact hdistinct
  dsimp only
  rw [commaParts_intercalate (List.cons_ne_nil _ _) hcomma, List.tail_cons, hattrs]
  exact ⟨rfl, lookup_reverse hkeys⟩

theorem lookup_typed {get : α → Option β} {render : β → String} {k : String}
    (hkey : ∀ o ∈ options, key o = k → ∃ x, get o = some x ∧ value o = render x)
    (hother : ∀ o ∈ options, key o ≠ k → get o = none) :
    (options.map fun o => (key o, value o)).lookup k = (options.findSome? get).map render := by
  induction options with
  | nil => rfl
  | cons o options ih =>
    have hrest := ih (fun p hp => hkey p (List.mem_cons_of_mem _ hp)) fun p hp => hother p (List.mem_cons_of_mem _ hp)
    rw [List.map_cons, List.lookup_cons, List.findSome?_cons, hrest]
    by_cases hk : key o = k
    · obtain ⟨x, hget, hvalue⟩ := hkey o (List.mem_cons_self ..) hk
      rw [hget, hvalue, hk, beq_self_eq_true]
      rfl
    · have hbeq : (k == key o) = false := beq_eq_false_iff_ne.mpr (Ne.symm hk)
      rw [hother o (List.mem_cons_self ..) hk, hbeq]

end Options

section Drives
variable (d : Drive)

theorem unseparated_text (s : Size) : Unseparated s.text := by
  have hunit : ',' ∉ s.unit.text.toList := by
    cases s.unit <;> decide
  have hnumber : ',' ∉ (toString s.number).toList := fun h => absurd (isDigit_toString h) (by decide)
  unfold Unseparated Size.text
  rw [String.toList_append, List.mem_append, not_or]
  exact ⟨hnumber, hunit⟩

theorem driveOption_plain {o : DriveOption} (h : o.Proper) :
    '=' ∉ o.key.toList ∧ Unseparated o.key ∧ Unseparated o.value := by
  have hsize : '=' ∉ "size".toList ∧ ',' ∉ "size".toList := by decide
  have hserial : '=' ∉ "serial".toList ∧ ',' ∉ "serial".toList := by decide
  have hmedia : '=' ∉ "media".toList ∧ ',' ∉ "media".toList := by decide
  cases o with
  | size s => exact ⟨hsize.1, hsize.2, unseparated_text s⟩
  | serial text => exact ⟨hserial.1, hserial.2, h⟩
  | media kind => exact ⟨hmedia.1, hmedia.2, h⟩
  | other key value => exact h.2

theorem driveOption_other {key value k : String} (h : (DriveOption.other key value).Proper)
    (hk : k ∈ ["size", "serial", "media"]) : key ≠ k :=
  fun heq => h.1 (heq ▸ hk)

theorem named_distinct : "size" ≠ "serial" ∧ "size" ≠ "media" ∧ "serial" ≠ "media" := by decide

theorem lookup_size : (d.options.map fun o => (o.key, o.value)).lookup "size" = d.size.map Size.text := by
  refine lookup_typed (fun o ho hkey => ?_) (fun o ho hkey => ?_)
  · cases o with
    | size s => exact ⟨s, rfl, rfl⟩
    | serial text => exact absurd hkey named_distinct.1.symm
    | media kind => exact absurd hkey named_distinct.2.1.symm
    | other key value => exact absurd hkey (driveOption_other (d.options_proper _ ho) (by decide))
  · cases o with
    | size s => exact absurd rfl hkey
    | serial text => rfl
    | media kind => rfl
    | other key value => rfl

theorem lookup_serial : (d.options.map fun o => (o.key, o.value)).lookup "serial" = d.serial := by
  refine (lookup_typed (fun o ho hkey => ?_) (fun o ho hkey => ?_)).trans Option.map_id_apply
  · cases o with
    | size s => exact absurd hkey named_distinct.1
    | serial text => exact ⟨text, rfl, rfl⟩
    | media kind => exact absurd hkey named_distinct.2.2.symm
    | other key value => exact absurd hkey (driveOption_other (d.options_proper _ ho) (by decide))
  · cases o with
    | size s => rfl
    | serial text => exact absurd rfl hkey
    | media kind => rfl
    | other key value => rfl

theorem lookup_media : (d.options.map fun o => (o.key, o.value)).lookup "media" =
    d.options.findSome? DriveOption.media? := by
  refine (lookup_typed (fun o ho hkey => ?_) (fun o ho hkey => ?_)).trans Option.map_id_apply
  · cases o with
    | size s => exact absurd hkey named_distinct.2.1
    | serial text => exact absurd hkey named_distinct.2.2
    | media kind => exact ⟨kind, rfl, rfl⟩
    | other key value => exact absurd hkey (driveOption_other (d.options_proper _ ho) (by decide))
  · cases o with
    | size s => rfl
    | serial text => rfl
    | media kind => exact absurd rfl hkey
    | other key value => rfl

theorem parse_drive : (parseProxmoxDisk d.bus.name d.index d.text).fields = d.fields ∧
    ((parseProxmoxDisk d.bus.name d.index d.text).media = some "cdrom" ↔ d.isCdrom = true) := by
  obtain ⟨hhead, hlookup⟩ := options_read d.volume_plain
    (fun o ho => driveOption_plain (d.options_proper o ho)) d.options_distinct
  have hsize : sizeBytes ((d.size.map Size.text).getD "") = d.size.map fun s : Size => (s.bytes : Int) := by
    cases d.size with
    | none => rfl
    | some s => exact sizeBytes_text s
  constructor
  · unfold parseProxmoxDisk ParsedDisk.fields Drive.fields Drive.text Drive.storage
    dsimp only
    rw [hhead, hlookup, hlookup, lookup_size, lookup_serial, hsize]
  · unfold parseProxmoxDisk Drive.text Drive.isCdrom
    dsimp only
    rw [hlookup, lookup_media, beq_iff_eq]

end Drives

section Nics
variable (n : Nic)

theorem nicOption_plain {o : NicOption} (h : o.Proper) :
    '=' ∉ o.key.toList ∧ Unseparated o.key ∧ Unseparated o.value := by
  have hbridge : '=' ∉ "bridge".toList ∧ ',' ∉ "bridge".toList := by decide
  have htag : '=' ∉ "tag".toList ∧ ',' ∉ "tag".toList := by decide
  cases o with
  | bridge name => exact ⟨hbridge.1, hbridge.2, h⟩
  | tag vlan => exact ⟨htag.1, htag.2, fun hmem => absurd (isDigit_toString hmem) (by decide)⟩
  | other key value => exact h.2

theorem nicOption_other {key value k : String} (h : (NicOption.other key value).Proper) (hk : k ∈ ["bridge", "tag"]) :
    key ≠ k :=
  fun heq => h.1 (heq ▸ hk)

theorem bridge_ne_tag : "bridge" ≠ "tag" := by decide

theorem lookup_bridge : (n.options.map fun o => (o.key, o.value)).lookup "bridge" = n.bridge := by
  refine (lookup_typed (fun o ho hkey => ?_) (fun o ho hkey => ?_)).trans Option.map_id_apply
  · cases o with
    | bridge name => exact ⟨name, rfl, rfl⟩
    | tag vlan => exact absurd hkey bridge_ne_tag.symm
    | other key value => exact absurd hkey (nicOption_other (n.options_proper _ ho) (by decide))
  · cases o with
    | bridge name => exact absurd rfl hkey
    | tag vlan => rfl
    | other key value => rfl

theorem lookup_tag : (n.options.map fun o => (o.key, o.value)).lookup "tag" = n.vlan.map toString := by
  refine lookup_typed (fun o ho hkey => ?_) (fun o ho hkey => ?_)
  · cases o with
    | bridge name => exact absurd hkey bridge_ne_tag
    | tag vlan => exact ⟨vlan, rfl, rfl⟩
    | other key value => exact absurd hkey (nicOption_other (n.options_proper _ ho) (by decide))
  · cases o with
    | bridge name => rfl
    | tag vlan => exact absurd rfl hkey
    | other key value => rfl

theorem unseparated_head : Unseparated n.head := by
  unfold Unseparated Nic.head
  cases hmac : n.mac with
  | none => exact n.model_plain.2
  | some text =>
    have htext := n.mac_plain text hmac
    change ',' ∉ (n.model ++ "=" ++ text).toList
    rw [String.toList_append, String.toList_append, List.mem_append, List.mem_append, not_or, not_or]
    exact ⟨⟨n.model_plain.2, by decide⟩, htext⟩

theorem model_head : (upTo '=' n.head).getD n.head = n.model := by
  have hall : ∀ c ∈ n.model.toList, decide (c ≠ '=') = true := fun c hc =>
    decide_eq_true fun heq => n.model_plain.1 (heq ▸ hc)
  unfold upTo Nic.head
  cases hmac : n.mac with
  | none => exact congrArg (fun o => Option.getD o n.model) (if_neg n.model_plain.1)
  | some text =>
    have hchars : (n.model ++ "=" ++ text).toList = n.model.toList ++ '=' :: text.toList := by
      rw [String.toList_append, String.toList_append, List.append_assoc]
      rfl
    change (if '=' ∈ (n.model ++ "=" ++ text).toList then
      some (String.ofList ((n.model ++ "=" ++ text).toList.takeWhile (· ≠ '='))) else none).getD _ = n.model
    rw [hchars, if_pos (List.mem_append_right _ (List.mem_cons_self ..)), List.takeWhile_append_of_pos hall,
      List.takeWhile_cons_of_neg (by decide), List.append_nil, String.ofList_toList]
    rfl

theorem parseInt_str (text : String) : parseInt (.str text) = intOfText text := rfl

theorem parse_nic : (parseProxmoxNet n.index n.text).fields = n.fields := by
  obtain ⟨hhead, hlookup⟩ := options_read (unseparated_head n)
    (fun o ho => nicOption_plain (n.options_proper o ho)) n.options_distinct
  have hvlan : ((n.vlan.map toString).bind fun tag => parseInt (.str tag)) = n.vlan.map fun vlan : Nat => (vlan : Int) := by
    cases n.vlan with
    | none => rfl
    | some vlan => rw [Option.map_some, Option.bind_some, parseInt_str, intOfText_toString, Option.map_some]
  unfold parseProxmoxNet ParsedNet.fields Nic.fields Nic.text
  dsimp only
  rw [hhead, hlookup, hlookup, lookup_bridge, lookup_tag, hvlan, model_head n]

end Nics

end ProxmoxVEAutopilot.Monitor.PveConfig
