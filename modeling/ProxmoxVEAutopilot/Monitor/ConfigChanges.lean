import ProxmoxVEAutopilot.Monitor.Timeline

/-!
# Config changes across failed snapshots

A snapshot whose config could not be fetched has no digest, and a row is compared with the one
before it only. So a change is reported exactly when the two configs stand side by side.
-/

namespace ProxmoxVEAutopilot.Monitor

open Foundation
set_option autoImplicit false

/-- The config was there; `sweep` writes the empty digest otherwise. -/
def Fetched (row : PveSnapshot) : Prop := row.configDigest ≠ ""

def ConfigEvent (e : Event) : Prop := e.type = "config-changed" ∨ e.type = "smbios-reconfig"

def emittedAfter (first rest : List PveSnapshot) : List Event :=
  (pveTransitions (first ++ rest)).drop (pveTransitions first).length

/-- Between two fetched rows with other digests there is a config event, and between two with the
same digest and no other in between there is none. -/
def ChangesReported (rows : List PveSnapshot) : Prop :=
  ∀ first a between b rest, rows = first ++ a :: (between ++ b :: rest) → Fetched a → Fetched b →
    (a.configDigest ≠ b.configDigest → ∃ e ∈ emittedAfter (first ++ [a]) (between ++ [b]), ConfigEvent e) ∧
    ((∀ r ∈ between ++ [b], Fetched r → r.configDigest = a.configDigest) →
      ∀ e ∈ emittedAfter (first ++ [a]) (between ++ [b]), ¬ ConfigEvent e)

/-- Failed rows, one at least, have the same digest before and behind them. -/
def FailuresBetweenEqual (rows : List PveSnapshot) : Prop :=
  ∀ first a failed b rest, rows = first ++ a :: (failed ++ b :: rest) → Fetched a → Fetched b →
    failed ≠ [] → (∀ r ∈ failed, ¬ Fetched r) → a.configDigest = b.configDigest

/-- The two rows side by side are of different configs. -/
def Changed (prev row : PveSnapshot) : Prop :=
  Fetched prev ∧ Fetched row ∧ prev.configDigest ≠ row.configDigest

theorem pveChange_config_iff {prev row : PveSnapshot} :
    (∀ e ∈ pveChange prev row, ¬ ConfigEvent e) ↔
      ¬ (Changed prev row ∧ ¬ (prev.present = true ∧ row.present = false)) := by
  unfold pveChange
  split
  · rename_i hgone
    rw [Bool.and_eq_true, Bool.not_eq_true'] at hgone
    refine iff_of_true ?_ fun h => h.2 ⟨hgone.2, hgone.1⟩
    intro e he
    rw [List.mem_singleton.mp he]
    simp [ConfigEvent]
  · rename_i hstays
    have hpresent : ¬ (prev.present = true ∧ row.present = false) := fun h => hstays (by simp [h])
    have hother : ∀ l : List Event, (∀ e ∈ l, ¬ ConfigEvent e) → ∀ l' : List Event,
        (∀ e ∈ l ++ l', ¬ ConfigEvent e) ↔ ∀ e ∈ l', ¬ ConfigEvent e := by
      intro l hl l'
      simp only [List.mem_append]
      exact ⟨fun h e he => h e (.inr he), fun h e he => he.elim (hl e) (h e)⟩
    rw [hother]
    · by_cases hchanged : Changed prev row
      · have hcond : prev.configDigest ≠ "" ∧ row.configDigest ≠ "" ∧ prev.configDigest ≠ row.configDigest := hchanged
        rw [if_pos hcond]
        refine iff_of_false ?_ fun h => h ⟨hchanged, hpresent⟩
        split
        · exact fun h => h _ List.mem_cons_self (.inr rfl)
        · exact fun h => h _ List.mem_cons_self (.inl rfl)
      · have hcond : ¬ (prev.configDigest ≠ "" ∧ row.configDigest ≠ "" ∧ prev.configDigest ≠ row.configDigest) :=
          hchanged
        rw [if_neg hcond]
        exact iff_of_true (by simp) fun h => hchanged h.1
    · intro e he
      rcases List.mem_append.mp he with he | he
      · split at he
        · cases he
        · rw [List.mem_singleton.mp he]
          dsimp only [ConfigEvent]
          split_ifs
          · decide
          · decide
          · rintro (htype | htype)
            · have hletters := congrArg String.toList htype
              simp at hletters
            · have hletters := congrArg String.toList htype
              simp at hletters
      · split at he
        · rw [List.mem_singleton.mp he]
          simp [ConfigEvent]
        · cases he

section Walks
variable {first rest : List PveSnapshot}

theorem walk_pveStep_append (first rest : List PveSnapshot) : ∀ s,
    walk pveStep s (first ++ rest) = walk pveStep s first ++ walk pveStep (first.getLast?.or s) rest := by
  induction first with
  | nil => exact fun s => by simp [walk]
  | cons r first ih =>
    intro s
    have hstep : (pveStep s r).2 = some r := by
      cases s <;> rfl
    simp only [List.cons_append, walk]
    rw [ih, hstep, List.append_assoc, List.getLast?_cons]
    cases first.getLast? <;> rfl

theorem emittedAfter_concat (first rest : List PveSnapshot) (a : PveSnapshot) :
    emittedAfter (first ++ [a]) rest = walk pveStep (some a) rest := by
  unfold emittedAfter pveTransitions
  rw [walk_pveStep_append (first ++ [a]) rest, List.drop_left]
  simp

end Walks

theorem emittedAfter_config_iff (first : List PveSnapshot) {rest : List PveSnapshot} (a : PveSnapshot)
    (hpresent : ∀ r ∈ rest, r.present = true) :
    (∀ e ∈ emittedAfter (first ++ [a]) rest, ¬ ConfigEvent e) ↔
      (a :: rest).IsChain fun prev row => ¬ Changed prev row := by
  have hlast : ∀ s r, id (pveStep s r).2 = some r := by
    intro s r
    cases s <;> rfl
  have hfirst : ∀ s r, id s = none → ∀ e ∈ (pveStep s r).1, ¬ ConfigEvent e := by
    rintro _ row rfl e he
    rw [List.mem_singleton.mp he]
    simp [ConfigEvent]
  have hnext : ∀ s p r, id s = some p → ((∀ e ∈ (pveStep s r).1, ¬ ConfigEvent e) ↔
      ¬ (Changed p r ∧ ¬ (p.present = true ∧ r.present = false))) := by
    rintro _ p r rfl
    exact pveChange_config_iff
  rw [emittedAfter_concat]
  refine (forall_walk_iff pveStep id hlast hfirst hnext rest (some a)).trans ?_
  simp only [List.isChain_iff_getElem, id_eq, Option.toList_some, List.singleton_append]
  refine forall_congr' fun i => forall_congr' fun hi => not_congr (and_iff_left ?_)
  rintro ⟨_, habsent⟩
  have hmem : (a :: rest)[i + 1] ∈ rest := by
    rw [List.getElem_cons_succ]
    exact List.getElem_mem _
  rw [hpresent _ hmem] at habsent
  cases habsent

/-! ### From one fetched row to the next -/

theorem exists_fetched (rest : List PveSnapshot) (b : PveSnapshot) (hb : Fetched b) :
    ∃ failed c more, rest ++ [b] = failed ++ c :: more ∧ Fetched c ∧ ∀ r ∈ failed, ¬ Fetched r := by
  induction rest with
  | nil => exact ⟨[], b, [], rfl, hb, by simp⟩
  | cons r rest ih =>
    by_cases hr : Fetched r
    · exact ⟨[], r, rest ++ [b], rfl, hr, by simp⟩
    · obtain ⟨failed, c, more, heq, hc, hfailed⟩ := ih
      refine ⟨r :: failed, c, more, by rw [List.cons_append, heq]; rfl, hc, ?_⟩
      intro q hq
      rcases List.mem_cons.mp hq with rfl | hq
      · exact hr
      · exact hfailed q hq

theorem FailuresBetweenEqual.suffix (pre : List PveSnapshot) {rows : List PveSnapshot} (h : FailuresBetweenEqual (pre ++ rows)) :
    FailuresBetweenEqual rows := by
  rintro first a failed b rest rfl ha hb hne hfailed
  exact h (pre ++ first) a failed b rest (List.append_assoc _ _ _).symm ha hb hne hfailed

/-- Without a change that failures hide, a segment without a visible change has one digest. The
induction is on the rows in between, from one fetched row to the next. -/
theorem digest_eq_of_chain : ∀ (n : Nat) (between : List PveSnapshot) (a b : PveSnapshot), between.length ≤ n →
    FailuresBetweenEqual (a :: (between ++ [b])) → Fetched a → Fetched b →
    (a :: (between ++ [b])).IsChain (fun prev row => ¬ Changed prev row) → a.configDigest = b.configDigest := by
  intro n
  induction n with
  | zero =>
    intro between a b hlen _ ha hb hchain
    rw [List.length_eq_zero_iff.mp (Nat.le_zero.mp hlen)] at hchain
    by_contra hne
    exact (List.isChain_cons_cons.mp hchain).1 ⟨ha, hb, hne⟩
  | succ n ih =>
    intro between a b hlen hequal ha hb hchain
    obtain ⟨failed, c, more, heq, hc, hfailed⟩ := exists_fetched between b hb
    rw [heq] at hequal hchain
    have hac : a.configDigest = c.configDigest := by
      by_cases hnil : failed = []
      · subst hnil
        by_contra hne
        exact (List.isChain_cons_cons.mp hchain).1 ⟨ha, hc, hne⟩
      · exact hequal [] a failed c more rfl ha hc hnil hfailed
    rcases List.eq_nil_or_concat more with rfl | ⟨between', last, rfl⟩
    · obtain ⟨_, hlast⟩ := List.append_inj' heq rfl
      rw [hac, List.singleton_inj.mp hlast]
    · rw [List.concat_eq_append] at heq hequal hchain
      have hsnoc : between ++ [b] = (failed ++ c :: between') ++ [last] := by
        rw [heq, List.append_assoc, List.cons_append]
      obtain ⟨hbetween, hlast⟩ := List.append_inj' hsnoc rfl
      obtain rfl : b = last := List.singleton_inj.mp hlast
      have hlen' : between'.length ≤ n := by
        rw [hbetween, List.length_append, List.length_cons] at hlen
        omega
      refine hac.trans (ih between' c b hlen' ?_ hc hb ?_)
      · exact FailuresBetweenEqual.suffix (a :: failed) hequal
      · exact (List.isChain_cons.mp (List.isChain_append.mp
          (List.IsChain.tail hchain)).2.1 |> fun h => List.isChain_cons.mpr h)

theorem isChain_of_failed {b : PveSnapshot} : ∀ failed : List PveSnapshot, (∀ r ∈ failed, ¬ Fetched r) →
    (failed ++ [b]).IsChain fun prev row => ¬ Changed prev row
  | [], _ => List.isChain_singleton b
  | [r], h => List.isChain_cons_cons.mpr ⟨fun hc => h r List.mem_cons_self hc.1, List.isChain_singleton b⟩
  | r :: q :: failed, h => List.isChain_cons_cons.mpr ⟨fun hc => h r List.mem_cons_self hc.1,
      isChain_of_failed (q :: failed) fun s hs => h s (List.mem_cons_of_mem r hs)⟩

/-- A change is reported exactly when no failed row stands between the two configs. -/
theorem changes_reported_iff {rows : List PveSnapshot} (hpresent : ∀ r ∈ rows, r.present = true) :
    ChangesReported rows ↔ FailuresBetweenEqual rows := by
  have hpart : ∀ first a between (b : PveSnapshot) rest, rows = first ++ a :: (between ++ b :: rest) →
      ∀ r ∈ between ++ [b], r.present = true := by
    rintro first a between b rest rfl r hr
    refine hpresent r ?_
    rcases List.mem_append.mp hr with hr | hr
    · simp [hr]
    · simp [List.mem_singleton.mp hr]
  constructor
  · intro h first a failed b rest hrows ha hb hne hfailed
    by_contra hdigest
    obtain ⟨e, he, hconfig⟩ := (h first a failed b rest hrows ha hb).1 hdigest
    refine (emittedAfter_config_iff first a (hpart first a failed b rest hrows)).mpr ?_ e he hconfig
    -- each pair of neighbours has a failed row
    have htail := isChain_of_failed (b := b) failed hfailed
    obtain ⟨r, failed, rfl⟩ := List.exists_cons_of_ne_nil hne
    exact List.isChain_cons_cons.mpr ⟨fun hc => hfailed r List.mem_cons_self hc.2.1, htail⟩
  · intro h first a between b rest hrows ha hb
    have hrows' : rows = (first ++ (a :: (between ++ [b]))) ++ rest := by
      rw [hrows]
      simp
    have hiff := emittedAfter_config_iff first a (hpart first a between b rest hrows)
    constructor
    · intro hdigest
      by_contra hnone
      have hchain := hiff.mp fun e he hconfig => hnone ⟨e, he, hconfig⟩
      refine hdigest (digest_eq_of_chain between.length between a b le_rfl ?_ ha hb hchain)
      rintro first' a' failed b' rest' hseg
      exact h (first ++ first') a' failed b' (rest' ++ rest) (by rw [hrows', hseg]; simp)
    · intro hsame
      rw [hiff, List.isChain_iff_getElem]
      rintro i hi ⟨hp, hr, hdigest⟩
      have hall : ∀ r ∈ a :: (between ++ [b]), Fetched r → r.configDigest = a.configDigest := by
        intro r hr hfetched
        rcases List.mem_cons.mp hr with rfl | hr
        · rfl
        · exact hsame r hr hfetched
      exact hdigest ((hall _ (List.getElem_mem _) hp).trans (hall _ (List.getElem_mem _) hr).symm)

/-- Two snapshots with the same digest; the one between them failed. -/
theorem changes_reported_same :
    ChangesReported [{ checkedAt := 0, vmid := 1, configDigest := "a" }, { checkedAt := 1, vmid := 1 },
        { checkedAt := 2, vmid := 1, configDigest := "a" }] ↔
      FailuresBetweenEqual [{ checkedAt := 0, vmid := 1, configDigest := "a" }, { checkedAt := 1, vmid := 1 },
        { checkedAt := 2, vmid := 1, configDigest := "a" }] :=
  changes_reported_iff (by simp)

/-- One failed snapshot hides a change of the config. -/
theorem failed_snapshot_hides_change :
    ¬ ∀ rows : List PveSnapshot, (∀ r ∈ rows, r.present = true) → ChangesReported rows := by
  intro h
  have hreported := h [{ checkedAt := 0, vmid := 1, configDigest := "a" }, { checkedAt := 1, vmid := 1 },
    { checkedAt := 2, vmid := 1, configDigest := "b" }] (by simp) [] _ [{ checkedAt := 1, vmid := 1 }] _ [] rfl
    (by simp [Fetched]) (by simp [Fetched])
  obtain ⟨e, he, _⟩ := hreported.1 (by decide)
  simp [emittedAfter, pveTransitions, walk, pveStep, pveChange] at he

end ProxmoxVEAutopilot.Monitor
