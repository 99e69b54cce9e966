import ProxmoxVEAutopilot.Monitor.ConfigTexts

/-!
# What a config digest says

Two configs have the same digest when they agree on what makes up a configuration, however they
are written down, and another when they do not, as long as their tags stand between commas.
-/

namespace ProxmoxVEAutopilot.Monitor.PveConfig

open Foundation
open Smbios (commaParts)
set_option autoImplicit false

def plainKeys : List String := ["name", "machine", "bios", "smbios1", "args", "vmgenid"]

def intKeys : List String := ["cores", "sockets", "memory", "balloon"]

/-- A config that Proxmox can answer: drives and network cards written as it writes them, among
other entries in any order. -/
structure ProxmoxConfig where
  drives : List Drive
  nics : List Nic
  others : RawConfig
  raw : RawConfig
  entries : raw.Perm (drives.map (fun d => (d.key, .str d.text)) ++ nics.map (fun n => (n.key, .str n.text)) ++ others)
  distinct : (raw.map Prod.fst).Nodup
  others_unnumbered : ∀ o ∈ others, diskKey o.1 = none ∧ netKey o.1 = none
  ints : ∀ key ∈ intKeys, raw.get key = .null ∨ ∃ n, pyInt (raw.get key) = some n
  tags_text : raw.get "tags" = .null ∨ ∃ text, raw.get "tags" = .str text

namespace ProxmoxConfig
variable (c c' : ProxmoxConfig)

def disks : List DiskFields := (c.drives.filter fun d => !d.isCdrom).map Drive.fields

def nets : List NetFields := c.nics.map Nic.fields

def tagText : String :=
  match c.raw.get "tags" with
  | .str text => text
  | _ => ""

/-- The tags, whichever of the two separators stands between them. -/
def tags : List String :=
  ((c.tagText.toList.splitOnP fun d => d == ',' || d == ';').map String.ofList).filter fun t => t ≠ ""

def commaTags : List String := (commaParts c.tagText).filter fun t => t ≠ ""

/-- The same configuration. -/
structure Agree : Prop where
  plain : ∀ key ∈ plainKeys, c.raw.get key = c'.raw.get key
  ints : ∀ key ∈ intKeys, pyInt (c.raw.get key) = pyInt (c'.raw.get key)
  tags : ∀ t, t ∈ c.tags ↔ t ∈ c'.tags
  disks : ∀ d, d ∈ c.disks ↔ d ∈ c'.disks
  nets : ∀ n, n ∈ c.nets ↔ n ∈ c'.nets

/-- The probes of the two have the same digest exactly when they agree. -/
def DigestFaithful {Digest : Type} (sha256 : DigestFields → Digest) : Prop :=
  ∀ vmid vmid' node node' entry entry' now now', ∃ p p',
    probePve sha256 vmid node c.raw entry now = .ok p ∧ probePve sha256 vmid' node' c'.raw entry' now' = .ok p' ∧
      (c.Agree c' ↔ p.configDigest = p'.configDigest)

end ProxmoxConfig

section Sorting
variable {β : Type} {raw raw' : RawConfig} {read : String × Json → Option β} {key : β → String}

theorem sortedItems_strict (h : (raw.map Prod.fst).Nodup) : (sortedItems raw).Pairwise fun a b => a.1 < b.1 := by
  have hsorted : (sortedItems raw).Pairwise fun a b => a.1 ≤ b.1 := List.pairwise_insertionSort _ _
  have hkeys : ((sortedItems raw).map Prod.fst).Nodup :=
    ((List.perm_insertionSort _ raw).map Prod.fst).nodup_iff.mpr h
  have hne : (sortedItems raw).Pairwise fun a b => a.1 ≠ b.1 := List.pairwise_map.mp hkeys
  exact (hsorted.and hne).imp fun hab => lt_of_le_of_ne hab.1 hab.2

theorem filterMap_sorted_eq_iff (hraw : (raw.map Prod.fst).Nodup) (hraw' : (raw'.map Prod.fst).Nodup)
    (hread : ∀ e ∈ raw, ∀ b, read e = some b → key b = e.1) (hread' : ∀ e ∈ raw', ∀ b, read e = some b → key b = e.1) :
    (sortedItems raw).filterMap read = (sortedItems raw').filterMap read ↔
      ∀ b, (∃ e ∈ raw, read e = some b) ↔ ∃ e ∈ raw', read e = some b := by
  have hmem : ∀ {raw : RawConfig} {b : β}, b ∈ (sortedItems raw).filterMap read ↔ ∃ e ∈ raw, read e = some b := by
    intro raw b
    rw [List.mem_filterMap]
    exact exists_congr fun e => and_congr_left fun _ => (List.perm_insertionSort _ raw).mem_iff
  have hpairwise : ∀ {raw : RawConfig}, (raw.map Prod.fst).Nodup → (∀ e ∈ raw, ∀ b, read e = some b → key b = e.1) →
      ((sortedItems raw).filterMap read).Pairwise fun a b => key a < key b := by
    intro raw hraw hread
    rw [List.pairwise_filterMap]
    refine (sortedItems_strict hraw).imp_of_mem fun {a b} ha hb hlt x hx y hy => ?_
    rw [hread a ((List.perm_insertionSort _ raw).mem_iff.mp ha) x hx,
      hread b ((List.perm_insertionSort _ raw).mem_iff.mp hb) y hy]
    exact hlt
  constructor
  · intro heq b
    rw [← hmem, ← hmem, heq]
  · intro h
    have : Std.Antisymm fun a b : β => key a < key b := ⟨fun _ _ hab hba => absurd hab (lt_asymm hba)⟩
    have : Std.Irrefl fun a b : β => key a < key b := ⟨fun _ hlt => lt_irrefl _ hlt⟩
    exact (hpairwise hraw hread).eq_of_mem_iff (hpairwise hraw' hread') fun b => by rw [hmem, hmem, h b]

end Sorting

section Entries
variable {c : ProxmoxConfig} {e : String × Json}

def readDisk (e : String × Json) : Option DiskFields := (diskOf e).map ParsedDisk.fields

def readNet (e : String × Json) : Option NetFields := (netOf e).map ParsedNet.fields

theorem readDisk_drive (d : Drive) : readDisk (d.key, .str d.text) = if d.isCdrom = true then none else some d.fields := by
  obtain ⟨hfields, hmedia⟩ := parse_drive d
  unfold readDisk diskOf
  dsimp only
  rw [diskKey_drive, Option.map_some]
  by_cases hcdrom : d.isCdrom = true
  · rw [if_pos hcdrom, Option.filter_some, if_neg (by simpa using hmedia.mpr hcdrom)]
    rfl
  · have hkept : (parseProxmoxDisk d.bus.name d.index d.text).media ≠ some "cdrom" := fun h => hcdrom (hmedia.mp h)
    rw [if_neg hcdrom, Option.filter_some, if_pos (decide_eq_true hkept), Option.map_some, hfields]

theorem readDisk_none (h : diskKey e.1 = none) : readDisk e = none := by
  obtain ⟨key, value⟩ := e
  have hkey : diskKey key = none := h
  unfold readDisk diskOf
  cases value <;> simp [hkey]

theorem readNet_nic (n : Nic) : readNet (n.key, .str n.text) = some n.fields := by
  have hnet : netKey n.key = some n.index := numbered_append "net" n.index
  have hdisk : (diskKey n.key).isSome = false := by
    rw [Nic.key, diskKey_net]
    rfl
  unfold readNet netOf
  dsimp only
  rw [hdisk, hnet, if_neg Bool.false_ne_true, Option.map_some, Option.map_some, parse_nic]

theorem readNet_none (h : (diskKey e.1).isSome = true ∨ netKey e.1 = none) : readNet e = none := by
  obtain ⟨key, value⟩ := e
  have hkey : (diskKey key).isSome = true ∨ netKey key = none := h
  unfold readNet netOf
  cases value with
  | str spec =>
    dsimp only
    rcases hkey with hkey | hkey
    · rw [if_pos hkey]
      rfl
    · rw [hkey]
      split <;> rfl
  | _ => rfl

theorem mem_raw : e ∈ c.raw ↔ (∃ d ∈ c.drives, (d.key, Json.str d.text) = e) ∨ (∃ n ∈ c.nics, (n.key, Json.str n.text) = e) ∨
    e ∈ c.others := by
  rw [c.entries.mem_iff, List.mem_append, List.mem_append, List.mem_map, List.mem_map, or_assoc]

theorem readDisk_some (he : e ∈ c.raw) {f : DiskFields} (h : readDisk e = some f) :
    ∃ d ∈ c.drives, e = (d.key, .str d.text) ∧ d.isCdrom = false ∧ f = d.fields := by
  rcases mem_raw.mp he with ⟨d, hd, rfl⟩ | ⟨n, hn, rfl⟩ | hother
  · rw [readDisk_drive] at h
    split at h
    · cases h
    · rename_i hcdrom
      exact ⟨d, hd, rfl, by simpa using hcdrom, (Option.some.inj h).symm⟩
  · have hnone : diskKey n.key = none := diskKey_net n.index
    rw [readDisk_none (e := (n.key, .str n.text)) hnone] at h
    cases h
  · rw [readDisk_none (c.others_unnumbered e hother).1] at h
    cases h

theorem readNet_some (he : e ∈ c.raw) {f : NetFields} (h : readNet e = some f) :
    ∃ n ∈ c.nics, e = (n.key, .str n.text) ∧ f = n.fields := by
  rcases mem_raw.mp he with ⟨d, hd, rfl⟩ | ⟨n, hn, rfl⟩ | hother
  · rw [readNet_none (.inl (by rw [diskKey_drive]; rfl))] at h
    cases h
  · rw [readNet_nic] at h
    exact ⟨n, hn, rfl, (Option.some.inj h).symm⟩
  · rw [readNet_none (.inr (c.others_unnumbered e hother).2)] at h
    cases h

theorem exists_readDisk {f : DiskFields} : (∃ e ∈ c.raw, readDisk e = some f) ↔ f ∈ c.disks := by
  unfold ProxmoxConfig.disks
  rw [List.mem_map]
  constructor
  · rintro ⟨e, he, hread⟩
    obtain ⟨d, hd, _, hcdrom, rfl⟩ := readDisk_some he hread
    exact ⟨d, List.mem_filter.mpr ⟨hd, by rw [hcdrom]; rfl⟩, rfl⟩
  · rintro ⟨d, hd, rfl⟩
    obtain ⟨hd, hcdrom⟩ := List.mem_filter.mp hd
    refine ⟨_, mem_raw.mpr (.inl ⟨d, hd, rfl⟩), ?_⟩
    rw [readDisk_drive, if_neg (by simpa using hcdrom)]

theorem exists_readNet {f : NetFields} : (∃ e ∈ c.raw, readNet e = some f) ↔ f ∈ c.nets := by
  unfold ProxmoxConfig.nets
  rw [List.mem_map]
  constructor
  · rintro ⟨e, he, hread⟩
    obtain ⟨n, hn, _, rfl⟩ := readNet_some he hread
    exact ⟨n, hn, rfl⟩
  · rintro ⟨n, hn, rfl⟩
    exact ⟨_, mem_raw.mpr (.inr (.inl ⟨n, hn, rfl⟩)), readNet_nic n⟩

end Entries

section Parts
variable (c c' : ProxmoxConfig)

theorem disks_eq_iff : (disksOf c.raw).map ParsedDisk.fields = (disksOf c'.raw).map ParsedDisk.fields ↔
    ∀ d, d ∈ c.disks ↔ d ∈ c'.disks := by
  have hkey : ∀ (c : ProxmoxConfig), ∀ e ∈ c.raw, ∀ f, readDisk e = some f → f.bus ++ toString f.index = e.1 := by
    intro c e he f hread
    obtain ⟨d, _, rfl, _, rfl⟩ := readDisk_some he hread
    rfl
  have h := filterMap_sorted_eq_iff c.distinct c'.distinct (hkey c) (hkey c')
  unfold disksOf
  rw [List.map_filterMap, List.map_filterMap]
  simp only [exists_readDisk] at h
  exact h

theorem nets_eq_iff : (netsOf c.raw).map ParsedNet.fields = (netsOf c'.raw).map ParsedNet.fields ↔
    ∀ n, n ∈ c.nets ↔ n ∈ c'.nets := by
  have hkey : ∀ (c : ProxmoxConfig), ∀ e ∈ c.raw, ∀ f, readNet e = some f → "net" ++ toString f.index = e.1 := by
    intro c e he f hread
    obtain ⟨n, _, rfl, rfl⟩ := readNet_some he hread
    rfl
  have h := filterMap_sorted_eq_iff c.distinct c'.distinct (hkey c) (hkey c')
  unfold netsOf
  rw [List.map_filterMap, List.map_filterMap]
  simp only [exists_readNet] at h
  exact h

def sortedTags (text : String) : List String := ((commaParts text).insertionSort (· ≤ ·)).filter fun t => t ≠ ""

theorem tagsOf_raw : tagsOf c.raw = .ok (sortedTags c.tagText) := by
  unfold tagsOf ProxmoxConfig.tagText
  rcases c.tags_text with h | ⟨text, h⟩
  · rw [h]
    rfl
  · rw [h]
    rfl

theorem sortedTags_eq_iff : sortedTags c.tagText = sortedTags c'.tagText ↔ c.commaTags.Perm c'.commaTags := by
  have hperm : ∀ text, (sortedTags text).Perm ((commaParts text).filter fun t => t ≠ "") := fun text =>
    (List.perm_insertionSort _ _).filter _
  have hsorted : ∀ text, (sortedTags text).Pairwise (· ≤ ·) := fun text =>
    (List.pairwise_insertionSort _ _).filter _
  constructor
  · intro h
    exact (hperm c.tagText).symm.trans (h ▸ hperm c'.tagText)
  · intro h
    exact ((hperm c.tagText).trans (h.trans (hperm c'.tagText).symm)).eq_of_pairwise' (hsorted _) (hsorted _)

theorem splitOnP_or {α : Type} (p q : α → Bool) (l : List α) :
    l.splitOnP (fun a => p a || q a) = (l.splitOnP p).flatMap fun piece => piece.splitOnP q := by
  induction l with
  | nil => rfl
  | cons a l ih =>
    obtain ⟨first, rest, hsplit⟩ := List.exists_cons_of_ne_nil (List.splitOnP_ne_nil p l)
    rw [List.splitOnP_cons_eq_if_modifyHead, List.splitOnP_cons_eq_if_modifyHead (p := p), ih]
    by_cases hp : p a = true
    · rw [if_pos (by rw [hp]; rfl), if_pos hp]
      rfl
    · have hpa : p a = false := by simpa using hp
      rw [if_neg hp, hsplit, List.modifyHead_cons, List.flatMap_cons, List.flatMap_cons,
        List.splitOnP_cons_eq_if_modifyHead (p := q)]
      by_cases hq : q a = true
      · rw [if_pos (by rw [hpa, hq]; rfl), if_pos hq]
        rfl
      · have hqa : q a = false := by simpa using hq
        obtain ⟨head, more, hhead⟩ := List.exists_cons_of_ne_nil (List.splitOnP_ne_nil q first)
        rw [if_neg (by rw [hpa, hqa]; decide), if_neg hq, hhead]
        rfl

def semicolonTags (piece : String) : List String :=
  ((piece.toList.splitOn ';').map String.ofList).filter fun t => t ≠ ""

theorem mem_tags_iff {t : String} : t ∈ c.tags ↔ ∃ piece ∈ c.commaTags, t ∈ semicolonTags piece := by
  have hsplit : (c.tagText.toList.splitOnP fun d => d == ',' || d == ';') =
      (c.tagText.toList.splitOn ',').flatMap fun piece => piece.splitOn ';' := splitOnP_or _ _ _
  unfold ProxmoxConfig.tags ProxmoxConfig.commaTags semicolonTags commaParts
  rw [hsplit, List.mem_filter, List.mem_map]
  constructor
  · rintro ⟨⟨chars, hchars, rfl⟩, hne⟩
    obtain ⟨piece, hpiece, hmem⟩ := List.mem_flatMap.mp hchars
    have hfilled : String.ofList piece ≠ "" := by
      intro hempty
      have hnil : piece = [] := by rw [← String.toList_ofList (l := piece), hempty]; rfl
      rw [hnil] at hmem
      rw [List.mem_singleton.mp hmem] at hne
      exact absurd hne (by decide)
    refine ⟨String.ofList piece, List.mem_filter.mpr ⟨List.mem_map_of_mem hpiece, decide_eq_true hfilled⟩, ?_⟩
    rw [String.toList_ofList]
    exact List.mem_filter.mpr ⟨List.mem_map_of_mem hmem, hne⟩
  · rintro ⟨piece, hpiece, ht⟩
    obtain ⟨hpiece, _⟩ := List.mem_filter.mp hpiece
    obtain ⟨chars, hchars, rfl⟩ := List.mem_map.mp hpiece
    obtain ⟨ht, hne⟩ := List.mem_filter.mp ht
    obtain ⟨tag, htag, rfl⟩ := List.mem_map.mp ht
    rw [String.toList_ofList] at htag
    exact ⟨⟨tag, List.mem_flatMap.mpr ⟨chars, hchars, htag⟩, rfl⟩, hne⟩

theorem tags_of_commaTags {c c' : ProxmoxConfig} (h : c.commaTags.Perm c'.commaTags) (t : String) :
    t ∈ c.tags ↔ t ∈ c'.tags := by
  rw [mem_tags_iff, mem_tags_iff]
  exact exists_congr fun piece => and_congr_left fun _ => h.mem_iff

end Parts

/-- The digested fields are the same exactly when all else agrees and the pieces between commas do. -/
theorem digestFields_eq_iff (c c' : ProxmoxConfig) :
    digestFields c.raw (sortedTags c.tagText) = digestFields c'.raw (sortedTags c'.tagText) ↔
      c.Agree c' ∧ c.commaTags.Perm c'.commaTags := by
  rw [← sortedTags_eq_iff]
  unfold digestFields parseInt
  rw [DigestFields.mk.injEq, disks_eq_iff, nets_eq_iff]
  constructor
  · rintro ⟨hname, hcores, hsockets, hmemory, hballoon, hmachine, hbios, hsmbios1, hargs, hvmgenid, hdisks, hnets, htags⟩
    refine ⟨⟨?_, ?_, tags_of_commaTags ((sortedTags_eq_iff c c').mp htags), hdisks, hnets⟩, htags⟩
    · intro key hkey
      simp only [plainKeys, List.mem_cons, List.not_mem_nil, or_false] at hkey
      rcases hkey with rfl | rfl | rfl | rfl | rfl | rfl <;> assumption
    · intro key hkey
      simp only [intKeys, List.mem_cons, List.not_mem_nil, or_false] at hkey
      rcases hkey with rfl | rfl | rfl | rfl <;> assumption
  · rintro ⟨hagree, htags⟩
    exact ⟨hagree.plain _ (by decide), hagree.ints _ (by decide), hagree.ints _ (by decide), hagree.ints _ (by decide),
      hagree.ints _ (by decide), hagree.plain _ (by decide), hagree.plain _ (by decide), hagree.plain _ (by decide),
      hagree.plain _ (by decide), hagree.plain _ (by decide), hagree.disks, hagree.nets, htags⟩

theorem probePve_digest {Digest : Type} (sha256 : DigestFields → Digest) (c : ProxmoxConfig) (vmid : Int) (node : String)
    (entry : Option VmEntry) (now : Time) : ∃ p, probePve sha256 vmid node c.raw entry now = .ok p ∧
      p.configDigest = sha256 (digestFields c.raw (sortedTags c.tagText)) := by
  unfold probePve
  rw [tagsOf_raw]
  exact ⟨_, rfl, rfl⟩

/-- The digests say whether two configs agree exactly when these do not, or have the same pieces
between commas in their tags. -/
theorem digest_faithful_iff {Digest : Type} (sha256 : DigestFields → Digest) (hsha : Function.Injective sha256)
    (c c' : ProxmoxConfig) :
    c.DigestFaithful c' sha256 ↔ ¬ c.Agree c' ∨ c.commaTags.Perm c'.commaTags := by
  constructor
  · intro h
    obtain ⟨p, p', hp, hp', hiff⟩ := h 0 0 "" "" none none 0 0
    obtain ⟨q, hq, hdigest⟩ := probePve_digest sha256 c 0 "" none 0
    obtain ⟨q', hq', hdigest'⟩ := probePve_digest sha256 c' 0 "" none 0
    obtain rfl := Except.ok.inj (hp.symm.trans hq)
    obtain rfl := Except.ok.inj (hp'.symm.trans hq')
    rw [hdigest, hdigest', hsha.eq_iff, digestFields_eq_iff] at hiff
    by_cases hagree : c.Agree c'
    · exact .inr (hiff.mp hagree).2
    · exact .inl hagree
  · intro h vmid vmid' node node' entry entry' now now'
    obtain ⟨p, hp, hdigest⟩ := probePve_digest sha256 c vmid node entry now
    obtain ⟨p', hp', hdigest'⟩ := probePve_digest sha256 c' vmid' node' entry' now'
    refine ⟨p, p', hp, hp', ?_⟩
    rw [hdigest, hdigest', hsha.eq_iff, digestFields_eq_iff]
    exact ⟨fun hagree => ⟨hagree, h.resolve_left fun hnot => hnot hagree⟩, And.left⟩

theorem tags_unnumbered : diskKey "tags" = none ∧ netKey "tags" = none := by decide

def tagged (text : String) : ProxmoxConfig where
  drives := []
  nics := []
  others := [("tags", .str text)]
  raw := [("tags", .str text)]
  entries := List.Perm.refl _
  distinct := List.nodup_singleton _
  others_unnumbered := by
    intro o ho
    rw [List.mem_singleton.mp ho]
    exact tags_unnumbered
  ints := by
    intro key hkey
    simp only [intKeys, List.mem_cons, List.not_mem_nil, or_false] at hkey
    rcases hkey with rfl | rfl | rfl | rfl <;> exact .inl rfl
  tags_text := .inr ⟨text, rfl⟩

theorem reordered_tags_faithful : (tagged "autopilot,lab").DigestFaithful (tagged "lab,autopilot") id :=
  (digest_faithful_iff id Function.injective_id _ _).mpr (.inr (by decide +kernel))

/-- The same two tags, as Proxmox separates them, in another order. -/
theorem semicolon_tags_apart : (tagged "autopilot;lab").Agree (tagged "lab;autopilot") ∧
    ¬ (tagged "autopilot;lab").DigestFaithful (tagged "lab;autopilot") id := by
  have htags : (tagged "autopilot;lab").tags = ["autopilot", "lab"] := by decide +kernel
  have htags' : (tagged "lab;autopilot").tags = ["lab", "autopilot"] := by decide +kernel
  have hagree : (tagged "autopilot;lab").Agree (tagged "lab;autopilot") := by
    refine ⟨?_, ?_, ?_, fun _ => Iff.rfl, fun _ => Iff.rfl⟩
    · intro key hkey
      simp only [plainKeys, List.mem_cons, List.not_mem_nil, or_false] at hkey
      rcases hkey with rfl | rfl | rfl | rfl | rfl | rfl <;> rfl
    · intro key hkey
      simp only [intKeys, List.mem_cons, List.not_mem_nil, or_false] at hkey
      rcases hkey with rfl | rfl | rfl | rfl <;> rfl
    · intro t
      rw [htags, htags', List.mem_pair, List.mem_pair]
      exact or_comm
  refine ⟨hagree, fun h => ?_⟩
  obtain ⟨p, p', hp, hp', hiff⟩ := h 0 0 "" "" none none 0 0
  obtain ⟨q, hq, hdigest⟩ := probePve_digest id (tagged "autopilot;lab") 0 "" none 0
  obtain ⟨q', hq', hdigest'⟩ := probePve_digest id (tagged "lab;autopilot") 0 "" none 0
  obtain rfl := Except.ok.inj (hp.symm.trans hq)
  obtain rfl := Except.ok.inj (hp'.symm.trans hq')
  have hsame := hiff.mp hagree
  rw [hdigest, hdigest'] at hsame
  exact absurd ((digestFields_eq_iff _ _).mp hsame).2 (by decide +kernel)

end ProxmoxVEAutopilot.Monitor.PveConfig
