import WchIotSdk.PmpAreas
import WchIotSdk.PmpSoundness

/-!
# The configured registers as an ordered list of areas

From the configuration of the static entries over a context with its stack and
any number of requests to the loading of that context: where every region can be
encoded and finds its entries free, the registers give each address the
permissions of the first area that holds it, in the order stack, accepted
requests, program.
-/
namespace WchIotSdk.Pmp
open FirstMatch

/-- The entries of a context. -/
def contextTable (pmp : KPmp) : Table := fun i => ⟨pmp.uPmpcfg i, pmp.uPmpaddr i⟩

section Translate

variable {δ : Type} {cfg : PmpConfig} {put : δ → ℤ → Byte → Word → δ} {view : δ → Table}

/-- Putting an entry of the table changes that entry only. -/
def PutsEntry (cfg : PmpConfig) (put : δ → ℤ → Byte → Word → δ) (view : δ → Table) : Prop :=
  ∀ d (i : ℕ) c v, i < cfg.slots → ∀ j < cfg.slots,
    view (put d i c v) j = if j = i then ⟨c, v⟩ else view d j

lemma putsEntry_context (cfg : PmpConfig) : PutsEntry cfg putContext contextTable := by
  intro pmp i c v _ j _
  rw [contextTable, putContext, Int.toNat_natCast]
  simp only [Function.update_apply]
  by_cases hj : j = i
  · simp only [if_pos hj]
  · simp only [if_neg hj, contextTable]

lemma putsEntry_csr (cfg : PmpConfig) : PutsEntry cfg (putCsr cfg) hwTable := by
  intro csrs i c v hi j hj
  have hslots := cfg.slots_le
  have hindex : uint32 i = i := by
    unfold uint32
    omega
  rw [hwTable, putCsr, hindex, riscvPmpSet_cfgByte cfg rv32_packs csrs hi (by omega),
    riscvPmpSet_addrWord cfg rv32_packs csrs hi]
  by_cases hj : j = i
  · simp only [if_pos hj]
  · simp only [if_neg hj, hwTable]

lemma entries_length_pos (r : RiscvPmpRegion) : 0 < r.entries.length := by
  rw [RiscvPmpRegion.entries]
  split
  · exact Nat.zero_lt_one
  · split
    · exact Nat.zero_lt_two
    · exact Nat.zero_lt_one

lemma entries_length_le (r : RiscvPmpRegion) :
    r.entries.length ≤ if r.mode = .tor then 2 else 1 := by
  rw [RiscvPmpRegion.entries]
  by_cases hmode : r.mode = .tor
  · rw [if_pos hmode, if_pos hmode]
    split
    · exact Nat.le_succ 1
    · exact le_rfl
  · rw [if_neg hmode, if_neg hmode]
    split <;> exact le_rfl

/-- Translating a region for which there is room puts its entries from the index
on and returns the next index. -/
theorem riscvPmpRegionTranslate_spec (hput : PutsEntry cfg put view) (r : RiscvPmpRegion) {i : ℕ}
    (hi : i + r.entries.length ≤ cfg.slots) (d : δ) :
    (riscvPmpRegionTranslate cfg put i r d).2 = i + r.entries.length ∧
    (view (riscvPmpRegionTranslate cfg put i r d).1).Has i r.entries ∧
    ∀ j < cfg.slots, j < i ∨ i + r.entries.length ≤ j →
      view (riscvPmpRegionTranslate cfg put i r d).1 j = view d j := by
  have hone (c : Byte) (v : Word) (h1 : i + 1 ≤ cfg.slots) :
      (view (put d i c v)).Has i [⟨c, v⟩] ∧
      ∀ j < cfg.slots, j < i ∨ i + 1 ≤ j → view (put d i c v) j = view d j := by
    constructor
    · apply Table.Has.cons _ (Table.has_nil _ _)
      rw [hput d i c v (by omega) i (by omega), if_pos rfl]
    · intro j hj hout
      rw [hput d i c v (by omega) j hj, if_neg (by omega)]
  rw [riscvPmpRegionTranslate]
  unfold RiscvPmpRegion.entries at *
  by_cases hwhole : r.start = 0 ∧ r.size = 0
  · simp only [if_pos hwhole, List.length_singleton] at hi ⊢
    rw [if_neg (by omega)]
    exact ⟨rfl, hone _ _ hi⟩
  · by_cases hmode : r.mode = .tor
    · simp only [if_neg hwhole, if_pos hmode, List.length_cons, List.length_nil] at hi ⊢
      have hcast : (i : ℤ) + 1 = ((i + 1 : ℕ) : ℤ) := by push_cast; rfl
      rw [if_neg (by omega), hcast]
      refine ⟨by push_cast; ring, ?_, ?_⟩
      · apply Table.Has.cons _ (Table.Has.cons _ (Table.has_nil _ _))
        · rw [hput _ (i + 1) _ _ (by omega) i (by omega), if_neg (by omega),
            hput _ i _ _ (by omega) i (by omega), if_pos rfl]
        · rw [hput _ (i + 1) _ _ (by omega) (i + 1) (by omega), if_pos rfl]
      · intro j hj hout
        rw [hput _ (i + 1) _ _ (by omega) j hj, if_neg (by omega), hput _ i _ _ (by omega) j hj,
          if_neg (by omega)]
    · simp only [if_neg hwhole, if_neg hmode, List.length_singleton] at hi ⊢
      rw [if_neg (by omega)]
      exact ⟨rfl, hone _ _ hi⟩

end Translate

section Static

variable {cfg : PmpConfig} (csrs : Csrs 32) {romRegionStart romRegionEnd : Word}

lemma slots_ge (cfg : PmpConfig) : 4 ≤ cfg.slots := Nat.le_of_dvd cfg.slots_pos cfg.slots_dvd

lemma pmpUsedEntryDefault_le (cfg : PmpConfig) : pmpUsedEntryDefault cfg ≤ 2 := by
  rw [pmpUsedEntryDefault]
  split
  · exact Nat.le_succ 1
  · exact le_rfl

lemma pmpUsedEntryDefault_eq (cfg : PmpConfig) :
    pmpUsedEntryDefault cfg = if pmpModeDefault cfg = .tor then 2 else 1 := by
  rw [pmpUsedEntryDefault, pmpModeDefault]
  cases cfg.powerOfTwo <;> rfl

/-- Words pass the alignment check of a static region. -/
lemma and_three_eq_zero_iff (v : Word) : v &&& 0x3 = 0 ↔ 4 ∣ v.toNat := by
  have hmask : (v &&& 0x3).toNat = v.toNat % 4 := by
    rw [BitVec.toNat_and]
    exact Nat.and_two_pow_sub_one_eq_mod v.toNat 2
  rw [Nat.dvd_iff_mod_eq_zero, ← hmask]
  constructor
  · intro h
    rw [h]
    rfl
  · intro h
    exact BitVec.eq_of_toNat_eq h

lemma riscvPmpRegionSet_eq {r : RiscvPmpRegion} (hencodable : r.Encodable) (hempty : ¬ r.Empty)
    (cfg : PmpConfig) (index : ℤ) (csrs : Csrs 32) :
    riscvPmpRegionSet cfg index r csrs = riscvPmpRegionTranslate cfg (putCsr cfg) index r csrs := by
  rw [riscvPmpRegionSet, if_neg]
  intro hrejected
  obtain ⟨hwhole, hunaligned⟩ := hrejected
  obtain hw | he | ⟨hstart, hsize, _⟩ := hencodable
  · exact hwhole hw
  · exact hempty he
  · apply hunaligned
    refine ⟨(and_three_eq_zero_iff _).mpr hstart, (and_three_eq_zero_iff _).mpr hsize, ?_⟩
    intro h0
    by_cases hs : r.start = 0
    · exact hwhole ⟨hs, h0⟩
    · exact hempty ⟨h0, hs⟩

/-- The static entries: their number, and where they lie. -/
theorem configured_spec (hrom : (romRegion cfg romRegionStart romRegionEnd).Encodable) :
    (configured cfg romRegionStart romRegionEnd csrs).mprvRegionsNum = 0 ∧
    (configured cfg romRegionStart romRegionEnd csrs).staticRegionsNum ≤ pmpUsedEntryDefault cfg ∧
    ((romRegion cfg romRegionStart romRegionEnd).Empty ∧
        (configured cfg romRegionStart romRegionEnd csrs).staticRegionsNum = 0 ∨
      ¬ (romRegion cfg romRegionStart romRegionEnd).Empty ∧
        (configured cfg romRegionStart romRegionEnd csrs).staticRegionsNum =
          pmpUsedEntryDefault cfg ∧
        (hwTable (configured cfg romRegionStart romRegionEnd csrs).csrs).Has
          (cfg.slots - pmpUsedEntryDefault cfg)
          (romRegion cfg romRegionStart romRegionEnd).entries) := by
  have hslots := slots_ge cfg
  have hslots16 := cfg.slots_le
  have hused := pmpUsedEntryDefault_eq cfg
  have hused2 := pmpUsedEntryDefault_le cfg
  have hroom : PmpState.Room cfg ⟨csrs, 0, 0⟩ := cfg.slots_pos
  have hmax := maxDynamicRegion_eq hroom
  simp only [Nat.add_zero] at hmax
  have hmode : (romRegion cfg romRegionStart romRegionEnd).mode = pmpModeDefault cfg := rfl
  rw [configured, zRiscvConfigureStaticPmpRegions]
  by_cases hempty : (romRegion cfg romRegionStart romRegionEnd).Empty
  · simp only [riscvPmpRegionsSetFromLast, if_pos hempty]
    have hzero : uint8 (((0 : ℕ) : ℤ) + ((maxDynamicRegion cfg ⟨csrs, 0, 0⟩ : ℤ) -
        maxDynamicRegion cfg ⟨csrs, 0, 0⟩)) = 0 := by
      rw [sub_self]
      rfl
    exact ⟨trivial, by rw [hzero]; exact Nat.zero_le _, Or.inl ⟨hempty, hzero⟩⟩
  · have hindex : ((maxDynamicRegion cfg ⟨csrs, 0, 0⟩ : ℤ) -
        if (romRegion cfg romRegionStart romRegionEnd).mode = .tor then 2 else 1) + 1 =
        ((cfg.slots - pmpUsedEntryDefault cfg : ℕ) : ℤ) := by
      rw [hused, hmode]
      split <;> omega
    have hlen := entries_length_le (romRegion cfg romRegionStart romRegionEnd)
    rw [hmode, ← hused] at hlen
    have hspec := riscvPmpRegionTranslate_spec (putsEntry_csr cfg)
      (romRegion cfg romRegionStart romRegionEnd)
      (show cfg.slots - pmpUsedEntryDefault cfg +
        (romRegion cfg romRegionStart romRegionEnd).entries.length ≤ cfg.slots by omega) csrs
    simp only [riscvPmpRegionsSetFromLast, if_neg hempty, riscvPmpRegionSet_eq hrom hempty, hindex]
    have hcount : uint8 (((0 : ℕ) : ℤ) + ((maxDynamicRegion cfg ⟨csrs, 0, 0⟩ : ℤ) -
        ((maxDynamicRegion cfg ⟨csrs, 0, 0⟩ : ℤ) -
          if (romRegion cfg romRegionStart romRegionEnd).mode = .tor then 2 else 1))) =
        pmpUsedEntryDefault cfg := by
      rw [hused, hmode]
      split <;> rw [sub_sub_cancel] <;> rfl
    exact ⟨trivial, hcount.le, Or.inr ⟨hempty, hcount, hspec.2.1⟩⟩

lemma configured_room (hrom : (romRegion cfg romRegionStart romRegionEnd).Encodable) :
    (configured cfg romRegionStart romRegionEnd csrs).Room cfg := by
  obtain ⟨hmprv, hle, _⟩ := configured_spec csrs hrom
  have hslots := slots_ge cfg
  have hused := pmpUsedEntryDefault_le cfg
  unfold PmpState.Room
  omega

/-- The static entries answer as the area of the program. -/
lemma static_answers (hrom : (romRegion cfg romRegionStart romRegionEnd).Encodable) {t : Table}
    (ht : ∀ j < cfg.slots,
      maxDynamicRegion cfg (configured cfg romRegionStart romRegionEnd csrs) < j →
      t j = hwTable (configured cfg romRegionStart romRegionEnd csrs).csrs j)
    {a : ℕ} (ha : a < 2 ^ 32) :
    firstSome (t.answer a)
      (maxDynamicRegion cfg (configured cfg romRegionStart romRegionEnd csrs) + 1)
      (configured cfg romRegionStart romRegionEnd csrs).staticRegionsNum =
      (romRegion cfg romRegionStart romRegionEnd).area.permission a := by
  obtain ⟨hmprv, _, hcase⟩ := configured_spec csrs hrom
  have hmax := maxDynamicRegion_eq (configured_room csrs hrom)
  have hslots := slots_ge cfg
  have hused := pmpUsedEntryDefault_le cfg
  obtain ⟨hempty, hnum⟩ | ⟨hempty, hnum, hhas⟩ := hcase
  · rw [hnum, firstSome_zero, area_of_empty hempty]
  · have hfirst : maxDynamicRegion cfg (configured cfg romRegionStart romRegionEnd csrs) + 1 =
        cfg.slots - pmpUsedEntryDefault cfg := by omega
    have hmode : (romRegion cfg romRegionStart romRegionEnd).mode = pmpModeDefault cfg := rfl
    have hlen := entries_length_le (romRegion cfg romRegionStart romRegionEnd)
    rw [hmode, ← pmpUsedEntryDefault_eq] at hlen
    have hhas' : t.Has (cfg.slots - pmpUsedEntryDefault cfg)
        (romRegion cfg romRegionStart romRegionEnd).entries := by
      intro k hk
      rw [ht _ (by omega) (by omega)]
      exact hhas k hk
    have hblock := answers_entries hrom hempty hhas' ha
    obtain ⟨rest, hrest⟩ := Nat.exists_eq_add_of_le hlen
    rw [hnum, hfirst]
    nth_rewrite 2 [hrest]
    rw [firstSome_add, hblock]
    by_cases hwhole : (romRegion cfg romRegionStart romRegionEnd).start = 0 ∧
        (romRegion cfg romRegionStart romRegionEnd).size = 0
    · -- The whole memory takes one entry where two may have been set aside.
      rw [RiscvPmpRegion.area, if_pos hwhole, Area.permission, if_pos ⟨Nat.zero_le a, ha⟩,
        Option.some_or]
    · have hfull : rest = 0 := by
        have hexact : (romRegion cfg romRegionStart romRegionEnd).entries.length =
            pmpUsedEntryDefault cfg := by
          rw [RiscvPmpRegion.entries, if_neg hwhole, hmode, pmpUsedEntryDefault_eq]
          split <;> rfl
        omega
      rw [hfull, firstSome_zero, Option.or_none]

end Static

section Context

variable {cfg : PmpConfig} {st : PmpState} {pmp : KPmp} {areas : List Area}

/-- The entry at which the search for a free one starts. -/
def firstDynamic (cfg : PmpConfig) : ℕ := 1 + 1 * pmpUsedEntryDefault cfg

/-- A context with the given areas in its dynamic entries: a free entry is
followed by free ones only, and the entries answer as the areas do. -/
structure ContextInv (cfg : PmpConfig) (st : PmpState) (pmp : KPmp) (areas : List Area) : Prop where
  tail : ∀ j k, firstDynamic cfg ≤ j → j ≤ k → k ≤ maxDynamicRegion cfg st →
    pmp.uPmpcfg j = 0 → pmp.uPmpcfg k = 0
  answers : ∀ a < 2 ^ 32,
    firstSome ((contextTable pmp).answer a) 0 (maxDynamicRegion cfg st + 1) =
      firstPermission areas a

/-- The search ends at a free entry or past the last one, over used ones. -/
lemma nextFree_spec (u : ℕ → Byte) (first n : ℕ) :
    first ≤ nextFree u first n ∧ nextFree u first n ≤ first + n ∧
      (∀ j, first ≤ j → j < nextFree u first n → u j ≠ 0) ∧
      (nextFree u first n < first + n → u (nextFree u first n) = 0) := by
  induction n generalizing first with
  | zero =>
    rw [nextFree]
    refine ⟨le_rfl, le_rfl, fun j hj hlt => ?_, fun hlt => ?_⟩
    · omega
    · omega
  | succ n ih =>
    rw [nextFree]
    by_cases hfree : u first ≠ 0
    · obtain ⟨hge, hle, hbefore, hat⟩ := ih (first + 1)
      rw [if_pos hfree]
      refine ⟨by omega, by omega, ?_, fun hlt => hat (by omega)⟩
      intro j hj hlt
      by_cases heq : j = first
      · rwa [heq]
      · exact hbefore j (by omega) hlt
    · rw [if_neg hfree]
      refine ⟨le_rfl, by omega, fun j hj hlt => ?_, fun _ => not_not.mp hfree⟩
      omega

/-- The configuration byte of an entry in use is not zero. -/
lemma entries_cfg_ne_zero (r : RiscvPmpRegion) : ∀ e ∈ r.entries, e.cfg ≠ 0 := by
  have hor (mode : Byte) (hmode : mode ≠ 0) : mode ||| r.perm ≠ 0 := by
    intro h0
    exact hmode (BitVec.or_eq_zero_iff.mp h0).1
  intro e he
  rw [RiscvPmpRegion.entries] at he
  split at he
  · rw [List.mem_singleton.mp he]
    exact hor _ (by decide)
  · split at he
    · rcases List.mem_pair.mp he with rfl | rfl
      · exact hor _ (by decide)
      · exact hor _ (by decide)
    · rw [List.mem_singleton.mp he, RiscvPmpRegion.oneEntryMode]
      split
      · exact hor _ (by decide)
      · exact hor _ (by decide)

/-- Where free entries are followed by free ones only, they still are after the
entries of a region have been put behind the ones in use. -/
lemma tail_put {first last i : ℕ} {r : RiscvPmpRegion} {pmp' : KPmp}
    (htail : ∀ j k, first ≤ j → j ≤ k → k < last → pmp.uPmpcfg j = 0 → pmp.uPmpcfg k = 0)
    (hused : ∀ j, first ≤ j → j < i → pmp.uPmpcfg j ≠ 0)
    (hhas : (contextTable pmp').Has i r.entries)
    (hkeep : ∀ j < last, j < i ∨ i + r.entries.length ≤ j →
      contextTable pmp' j = contextTable pmp j) :
    ∀ j k, first ≤ j → j ≤ k → k < last → pmp'.uPmpcfg j = 0 → pmp'.uPmpcfg k = 0 := by
  have hcfg : ∀ j < last, j < i ∨ i + r.entries.length ≤ j → pmp'.uPmpcfg j = pmp.uPmpcfg j :=
    fun j hj hout => congrArg PmpEntry.cfg (hkeep j hj hout)
  intro j k hj hjk hk hzero
  by_cases hbefore : j < i
  · rw [hcfg j (by omega) (Or.inl hbefore)] at hzero
    exact absurd hzero (hused j hj hbefore)
  · by_cases hafter : i + r.entries.length ≤ j
    · rw [hcfg j (by omega) (Or.inr hafter)] at hzero
      rw [hcfg k hk (Or.inr (by omega))]
      exact htail j k hj hjk hk hzero
    · -- The entries of the region are in use.
      have hentry := hhas (j - i) (by omega)
      rw [Nat.add_sub_cancel' (Nat.le_of_not_lt hbefore)] at hentry
      have hne := entries_cfg_ne_zero r _ (List.get_mem r.entries ⟨j - i, by omega⟩)
      rw [← hentry] at hne
      exact absurd hzero hne

/-- Writing the entries of a region over free ones, from the first free one on,
adds its area at the end. -/
theorem ContextInv.put (h : ContextInv cfg st pmp areas) {r : RiscvPmpRegion}
    (hencodable : r.Encodable) (hempty : ¬ r.Empty) {i : ℕ} {pmp' : KPmp}
    (hfirst : firstDynamic cfg ≤ i) (hroom : i + r.entries.length ≤ maxDynamicRegion cfg st + 1)
    (hused : ∀ j, firstDynamic cfg ≤ j → j < i → pmp.uPmpcfg j ≠ 0) (hfree : pmp.uPmpcfg i = 0)
    (hhas : (contextTable pmp').Has i r.entries)
    (hkeep : ∀ j ≤ maxDynamicRegion cfg st, j < i ∨ i + r.entries.length ≤ j →
      contextTable pmp' j = contextTable pmp j) :
    ContextInv cfg st pmp' (areas ++ [r.area]) := by
  have hoff : ∀ k, i ≤ k → k ≤ maxDynamicRegion cfg st → pmp.uPmpcfg k = 0 :=
    fun k hik hk => h.tail i k hfirst hik hk hfree
  have hcfg : ∀ j ≤ maxDynamicRegion cfg st, j < i ∨ i + r.entries.length ≤ j →
      pmp'.uPmpcfg j = pmp.uPmpcfg j :=
    fun j hj hout => congrArg PmpEntry.cfg (hkeep j hj hout)
  constructor
  · intro j k hj hjk hk hzero
    have htail : ∀ j k, firstDynamic cfg ≤ j → j ≤ k → k < maxDynamicRegion cfg st + 1 →
        pmp.uPmpcfg j = 0 → pmp.uPmpcfg k = 0 :=
      fun j k hj hjk hk => h.tail j k hj hjk (Nat.le_of_lt_succ hk)
    exact tail_put htail hused hhas (fun j hj => hkeep j (Nat.le_of_lt_succ hj)) j k hj hjk
      (Nat.lt_succ_of_le hk) hzero
  · intro a ha
    obtain ⟨rest, hrest⟩ := Nat.exists_eq_add_of_le hroom
    have hold := h.answers a ha
    have hlow : firstSome ((contextTable pmp').answer a) 0 i =
        firstSome ((contextTable pmp).answer a) 0 i := by
      apply Table.firstSome_answer_congr
      intro j hj
      exact hkeep j (by omega) (Or.inl hj)
    have hhigh : firstSome ((contextTable pmp').answer a) (i + r.entries.length) rest = none := by
      apply Table.firstSome_answer_off
      intro j hj hlt
      show pmp'.uPmpcfg j = 0
      rw [hcfg j (by omega) (Or.inr hj)]
      exact hoff j (by omega) (by omega)
    have hoffs : firstSome ((contextTable pmp).answer a) i (r.entries.length + rest) = none := by
      apply Table.firstSome_answer_off
      intro j hj hlt
      exact hoff j hj (by omega)
    rw [hrest, Nat.add_assoc, firstSome_add, Nat.zero_add, hoffs, Option.or_none] at hold
    rw [hrest, Nat.add_assoc, firstSome_add, firstSome_add, Nat.zero_add, hlow, hold,
      answers_entries hencodable hempty hhas ha, hhigh, Option.or_none, firstPermission_concat]

lemma zRiscvPmpInit_free (cfg : PmpConfig) (pmp : KPmp) {j : ℕ} (hj : j < cfg.slots) :
    (zRiscvPmpInit cfg pmp).uPmpcfg j = 0 := by
  have hdvd := cfg.slots_dvd
  rw [zRiscvPmpInit]
  exact if_pos (by omega)

/-- An empty stack takes no entry. -/
lemma contextInv_init_empty (hempty : (stackRegion cfg pmp).Empty) (hroom : st.Room cfg) :
    ContextInv cfg st (zRiscvInitUserAccesses cfg (zRiscvPmpInit cfg pmp))
      [(stackRegion cfg pmp).area] := by
  have hmax := maxDynamicRegion_lt hroom
  have hregion : stackRegion cfg (zRiscvPmpInit cfg pmp) = stackRegion cfg pmp := rfl
  rw [zRiscvInitUserAccesses, hregion, riscvPmpRegionsTranslate, if_pos hempty,
    riscvPmpRegionsTranslate]
  constructor
  · intro j k _ _ hk _
    exact zRiscvPmpInit_free cfg pmp (by omega)
  · intro a ha
    have hnone : firstPermission [(stackRegion cfg pmp).area] a = none := by
      rw [firstPermission, List.findSome?_cons, area_of_empty hempty]
      rfl
    rw [hnone]
    apply Table.firstSome_answer_off
    intro j _ hj
    exact zRiscvPmpInit_free cfg pmp (by omega)

/-- The initialised context holds the area of the stack. -/
theorem contextInv_init (hstack : (stackRegion cfg pmp).Encodable)
    (hused : pmpUsedEntryDefault cfg ≤ maxDynamicRegion cfg st + 1) (hroom : st.Room cfg) :
    ContextInv cfg st (zRiscvInitUserAccesses cfg (zRiscvPmpInit cfg pmp))
      [(stackRegion cfg pmp).area] := by
  by_cases hempty : (stackRegion cfg pmp).Empty
  · exact contextInv_init_empty hempty hroom
  have hmax := maxDynamicRegion_lt hroom
  have hslots := slots_ge cfg
  have hregion : stackRegion cfg (zRiscvPmpInit cfg pmp) = stackRegion cfg pmp := rfl
  have hlen := entries_length_le (stackRegion cfg pmp)
  have hmode : (stackRegion cfg pmp).mode = pmpModeDefault cfg := rfl
  rw [hmode, ← pmpUsedEntryDefault_eq] at hlen
  obtain ⟨hnext, hhas, hkeep⟩ := riscvPmpRegionTranslate_spec (putsEntry_context cfg)
    (stackRegion cfg pmp) (i := 0) (by omega) (zRiscvPmpInit cfg pmp)
  have hcfg : ∀ j < cfg.slots, 0 + (stackRegion cfg pmp).entries.length ≤ j →
      (riscvPmpRegionTranslate cfg putContext ((0 : ℕ) : ℤ) (stackRegion cfg pmp)
        (zRiscvPmpInit cfg pmp)).1.uPmpcfg j = 0 := by
    intro j hj hout
    have hsame := congrArg PmpEntry.cfg (hkeep j hj (Or.inr hout))
    exact hsame.trans (zRiscvPmpInit_free cfg pmp hj)
  rw [Nat.cast_zero] at hnext hhas hcfg
  rw [zRiscvInitUserAccesses, hregion, riscvPmpRegionsTranslate, if_neg hempty]
  simp only [riscvPmpRegionsTranslate, hnext]
  rw [if_neg (by omega)]
  constructor
  · intro j k hj hjk hk _
    rw [firstDynamic] at hj
    exact hcfg k (by omega) (by omega)
  · intro a ha
    obtain ⟨rest, hrest⟩ := Nat.exists_eq_add_of_le
      (show (stackRegion cfg pmp).entries.length ≤ maxDynamicRegion cfg st + 1 by omega)
    have hhigh : firstSome ((contextTable (riscvPmpRegionTranslate cfg putContext 0
        (stackRegion cfg pmp) (zRiscvPmpInit cfg pmp)).1).answer a)
        (0 + (stackRegion cfg pmp).entries.length) rest = none := by
      apply Table.firstSome_answer_off
      intro j hj hlt
      exact hcfg j (by omega) hj
    rw [hrest, firstSome_add, answers_entries hstack hempty hhas ha, hhigh]
    rw [Option.or_none, ← List.nil_append [_], firstPermission_concat]
    rfl

end Context

section Requests

variable {cfg : PmpConfig} {st : PmpState} {pmp : KPmp} {areas : List Area}

/-- The region that a request asks for. -/
def DynamicRequest.region (cfg : PmpConfig) (r : DynamicRequest) : RiscvPmpRegion :=
  ⟨r.addr, r.size, r.flags, if r.size = 4 then .na4 else pmpModeDefault cfg⟩

/-- The check of the arguments. -/
def DynamicRequest.Aligned (r : DynamicRequest) : Prop :=
  r.addr &&& 0x3 = 0 ∧ r.size &&& 0x3 = 0 ∧ r.size ≠ 0

instance (r : DynamicRequest) : Decidable r.Aligned := inferInstanceAs (Decidable (_ ∧ _ ∧ _))

/-- The region can be encoded, and the entries it needs are dynamic ones. -/
def DynamicRequest.Placeable (cfg : PmpConfig) (st : PmpState) (pmp : KPmp) (r : DynamicRequest) :
    Prop :=
  (r.region cfg).Encodable ∧
    nextFree pmp.uPmpcfg (firstDynamic cfg) (maxDynamicRegion cfg st + 1 - firstDynamic cfg) +
      (r.region cfg).entries.length ≤ maxDynamicRegion cfg st + 1

instance (r : DynamicRequest) : Decidable (r.Placeable cfg st pmp) :=
  inferInstanceAs (Decidable (_ ∧ _))

/-- The requests of a run that return 0. -/
def accepted (cfg : PmpConfig) (st : PmpState) : KPmp → List DynamicRequest → List DynamicRequest
  | _, [] => []
  | pmp, r :: rs =>
    let (pmp, result) := zRiscvPmpAddDynamic cfg st pmp r.addr r.size r.flags
    if result = 0 then r :: accepted cfg st pmp rs else accepted cfg st pmp rs

/-- Every request that passes the check of its arguments finds room. -/
def EachPlaceable (cfg : PmpConfig) (st : PmpState) : KPmp → List DynamicRequest → Prop
  | _, [] => True
  | pmp, r :: rs => (r.Aligned → r.Placeable cfg st pmp) ∧
    EachPlaceable cfg st (zRiscvPmpAddDynamic cfg st pmp r.addr r.size r.flags).1 rs

lemma add_unaligned {r : DynamicRequest} (h : ¬ r.Aligned) :
    zRiscvPmpAddDynamic cfg st pmp r.addr r.size r.flags = (pmp, -22) := by
  rw [zRiscvPmpAddDynamic]
  exact if_pos h

/-- With the arguments checked the result is 0, also where no entry was free. -/
lemma add_aligned {r : DynamicRequest} (h : r.Aligned) :
    zRiscvPmpAddDynamic cfg st pmp r.addr r.size r.flags =
      ((riscvPmpRegionTranslate cfg putContext
        (nextFree pmp.uPmpcfg (firstDynamic cfg)
          (maxDynamicRegion cfg st + 1 - firstDynamic cfg) : ℕ) (r.region cfg) pmp).1, 0) := by
  have hreturn (x : ℤ) : (if (uint8 x : ℤ) = -28 then (-28 : ℤ) else 0) = 0 := by
    rw [if_neg (by omega)]
  rw [DynamicRequest.Aligned] at h
  rw [zRiscvPmpAddDynamic, if_neg (not_not.mpr h)]
  simp only [hreturn]
  rfl

/-- A request that is accepted and finds room adds its area at the end. -/
theorem ContextInv.add (h : ContextInv cfg st pmp areas) (hst : st.Room cfg) {r : DynamicRequest}
    (haligned : r.Aligned) (hplace : r.Placeable cfg st pmp) :
    ContextInv cfg st (zRiscvPmpAddDynamic cfg st pmp r.addr r.size r.flags).1
      (areas ++ [(r.region cfg).area]) := by
  obtain ⟨hencodable, hroom⟩ := hplace
  have hmax := maxDynamicRegion_lt hst
  have hpos := entries_length_pos (r.region cfg)
  have hempty : ¬ (r.region cfg).Empty := fun he => haligned.2.2 he.1
  obtain ⟨hge, _, hused, hfree⟩ := nextFree_spec pmp.uPmpcfg (firstDynamic cfg)
    (maxDynamicRegion cfg st + 1 - firstDynamic cfg)
  rw [add_aligned haligned]
  generalize nextFree pmp.uPmpcfg (firstDynamic cfg)
    (maxDynamicRegion cfg st + 1 - firstDynamic cfg) = i at *
  obtain ⟨_, hhas, hkeep⟩ := riscvPmpRegionTranslate_spec (putsEntry_context cfg) (r.region cfg)
    (i := i) (by omega) pmp
  apply h.put hencodable hempty hge hroom hused (hfree (by omega)) hhas
  intro j hj hout
  exact hkeep j (by omega) hout

/-- The invariant along any sequence of requests. -/
theorem ContextInv.run (h : ContextInv cfg st pmp areas) (hst : st.Room cfg)
    {rs : List DynamicRequest} (hrs : EachPlaceable cfg st pmp rs) :
    ContextInv cfg st
      (rs.foldl (fun pmp r => (zRiscvPmpAddDynamic cfg st pmp r.addr r.size r.flags).1) pmp)
      (areas ++ (accepted cfg st pmp rs).map fun r => (r.region cfg).area) := by
  induction rs generalizing pmp areas with
  | nil =>
    rw [accepted, List.map_nil, List.append_nil]
    exact h
  | cons r rs ih =>
    obtain ⟨hhere, hrest⟩ := hrs
    rw [List.foldl_cons, accepted]
    by_cases haligned : r.Aligned
    · have hnext := ih (h.add hst haligned (hhere haligned)) hrest
      rw [add_aligned haligned] at hnext ⊢
      simp only [if_pos, List.map_cons]
      rwa [List.append_assoc] at hnext
    · rw [add_unaligned haligned] at hrest
      have hnext := ih h hrest
      rw [add_unaligned haligned]
      simpa using hnext

end Requests

section Refinement

/-- Two ranges, of which the second finds one entry before the static ones. -/
def twoRanges : List DynamicRequest :=
  [⟨0x20001000, 0x100, pmpR ||| pmpW⟩, ⟨0x20002000, 0x100, pmpR ||| pmpW⟩]

/-- The registers refine the ordered list of areas, over any run whose regions
can be encoded and whose requests find room. -/
theorem registers_refine_areas (cfg : PmpConfig) (csrs : Csrs 32)
    (romRegionStart romRegionEnd : Word) (pmp : KPmp) (rs : List DynamicRequest)
    (hrom : (romRegion cfg romRegionStart romRegionEnd).Encodable)
    (hstack : (stackRegion cfg pmp).Encodable)
    (hrs : EachPlaceable cfg (configured cfg romRegionStart romRegionEnd csrs)
      (zRiscvInitUserAccesses cfg (zRiscvPmpInit cfg pmp)) rs) {a : ℕ} (ha : a < 2 ^ 32) :
    (hwTable (loadedState cfg (configured cfg romRegionStart romRegionEnd csrs) pmp rs).csrs
      ).permission cfg.slots a =
    firstPermission ((stackRegion cfg pmp).area ::
      (accepted cfg (configured cfg romRegionStart romRegionEnd csrs)
        (zRiscvInitUserAccesses cfg (zRiscvPmpInit cfg pmp)) rs).map
          (fun r => (r.region cfg).area) ++
      [(romRegion cfg romRegionStart romRegionEnd).area]) a := by
  have hroom := configured_room csrs hrom
  obtain ⟨hmprv, hle, _⟩ := configured_spec csrs hrom
  have hmax := maxDynamicRegion_eq hroom
  have hslots := slots_ge cfg
  have hused := pmpUsedEntryDefault_le cfg
  have hinv := (contextInv_init hstack (by omega) hroom).run hroom hrs
  have hsplit : cfg.slots =
      maxDynamicRegion cfg (configured cfg romRegionStart romRegionEnd csrs) + 1 +
        (configured cfg romRegionStart romRegionEnd csrs).staticRegionsNum := by omega
  -- Below the last dynamic entry the registers hold the context, above it the static entries.
  have hlow : firstSome ((hwTable (loadedState cfg
      (configured cfg romRegionStart romRegionEnd csrs) pmp rs).csrs).answer a) 0
      (maxDynamicRegion cfg (configured cfg romRegionStart romRegionEnd csrs) + 1) =
      firstSome ((contextTable (userContext cfg
        (configured cfg romRegionStart romRegionEnd csrs) pmp rs)).answer a) 0
        (maxDynamicRegion cfg (configured cfg romRegionStart romRegionEnd csrs) + 1) := by
    apply Table.firstSome_answer_congr
    intro j hj
    rw [hwTable, loadedState, load_cfgByte hroom _ (by omega), load_addrWord hroom,
      if_pos (by omega), if_pos (by omega)]
    rfl
  have hhigh := static_answers csrs hrom (t := hwTable (loadedState cfg
      (configured cfg romRegionStart romRegionEnd csrs) pmp rs).csrs) (by
    intro j hj hout
    rw [hwTable, loadedState, load_cfgByte hroom _ hj, load_addrWord hroom, if_neg (by omega),
      if_neg (by omega), if_neg (by omega)]
    rfl) ha
  have hdynamic := hinv.answers a ha
  rw [← userContext] at hdynamic
  rw [Table.permission_eq, hsplit, firstSome_add, Nat.zero_add, hlow, hhigh]
  rw [hdynamic, firstPermission_concat]
  rfl

/-- Where the last dynamic entry is the base of a TOR range, its end falls on a
static entry and is not loaded: the request returns 0 and one word of it is
granted. -/
theorem second_request_truncated :
    ¬ ∀ a < 2 ^ 32,
      (hwTable (loadedState torConfig (bootState torConfig) threadPmp twoRanges).csrs).permission
        8 a =
      firstPermission ((stackRegion torConfig threadPmp).area ::
        (accepted torConfig (bootState torConfig)
          (zRiscvInitUserAccesses torConfig (zRiscvPmpInit torConfig threadPmp)) twoRanges).map
            (fun r => (r.region torConfig).area) ++
        [(romRegion torConfig 0 0x40000).area]) a := by
  intro hrefine
  have hat := hrefine 0x20002010 (by norm_num)
  revert hat
  decide +kernel

/-- A word and a range that fill the dynamic entries are granted. -/
theorem guarded_word_granted :
    (hwTable (loadedState torConfig (bootState torConfig) threadPmp guardedWord).csrs).permission
      8 0x20001080 = some (pmpR ||| pmpW) := by
  have hrefine := registers_refine_areas torConfig (fun _ => 0) 0 0x40000 threadPmp guardedWord
    (by decide +kernel) (by decide +kernel)
    (by
      refine ⟨fun _ => ?_, fun _ => ?_, trivial⟩
      · decide +kernel
      · decide +kernel)
    (a := 0x20001080) (by norm_num)
  exact hrefine.trans (by decide +kernel)

end Refinement

end WchIotSdk.Pmp
