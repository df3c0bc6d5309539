import WchIotSdk.PmpSoundness

/-!
# The verdict on a buffer inside one entry

Here one entry holds the whole buffer and no entry before it touches a byte, so
the hardware grants the access if that entry does. The walk comes to the same
verdict when it reads the TOR entries as the hardware does. It takes the base of
a TOR entry from the address registers, where another context may be loaded, and
an end at the address zero for the end of the memory.
-/
namespace WchIotSdk.Pmp

/-- The range that the walk takes entry `i` for. -/
def readRange (csrs : Csrs 32) (t : Table) (i : ℕ) : Option (ℕ × ℕ) :=
  if matching (t i).cfg = .tor then
    some (4 * (csrBase csrs i).toNat % 2 ^ 32,
      if (t i).addr = 0 then 2 ^ 32 else 4 * (t i).addr.toNat)
  else t.range i

/-- The range that the walk takes entry `i` for holds the buffer. -/
def ReadHolds (csrs : Csrs 32) (t : Table) (addr size : Word) (i : ℕ) : Prop :=
  ∃ r ∈ readRange csrs t i, Contains r addr size

instance (csrs : Csrs 32) (t : Table) (addr size : Word) (i : ℕ) :
    Decidable (ReadHolds csrs t addr size i) := inferInstanceAs (Decidable (∃ _ ∈ _, _))

/-- Entry `i` is the first of them. -/
def FirstReadHolds (csrs : Csrs 32) (t : Table) (addr size : Word) (i : ℕ) : Prop :=
  ReadHolds csrs t addr size i ∧ ∀ j < i, ¬ ReadHolds csrs t addr size j

/-- About the buffer, the walk agrees with the hardware on entry `i`. -/
def Reads (csrs : Csrs 32) (t : Table) (addr size : Word) (i : ℕ) : Prop :=
  ReadHolds csrs t addr size i ↔ ∃ r ∈ t.range i, Contains r addr size

instance (csrs : Csrs 32) (t : Table) (addr size : Word) (i : ℕ) :
    Decidable (Reads csrs t addr size i) := inferInstanceAs (Decidable (_ ↔ _))

/-- Entries of other modes are read as they are, and so is a TOR entry that does
not end at zero over a base that the registers and the table agree on. -/
theorem reads_of_base {csrs : Csrs 32} {t : Table} {i : ℕ} (addr size : Word)
    (htor : matching (t i).cfg = .tor →
      (t i).addr ≠ 0 ∧ csrBase csrs i = t.base i ∧ (t.base i).toNat < 2 ^ 30) :
    Reads csrs t addr size i := by
  have hrange : readRange csrs t i = t.range i := by
    rw [readRange]
    by_cases hm : matching (t i).cfg = .tor
    · obtain ⟨hne, hbase, hlt⟩ := htor hm
      rw [if_pos hm, if_neg hne, hbase, Nat.mod_eq_of_lt (by omega), Table.range, covered, hm]
    · rw [if_neg hm]
  rw [Reads, ReadHolds, hrange]

section Walk

variable {cfg : PmpConfig} {st : PmpState} {pmp : KPmp} {addr size : Word} {i : ℕ}

/-- With 30 bits in the address register the test of the walk is a comparison
with the range it reads. -/
theorem isInRegion_eq_readRange (h : st.Room cfg) (hi : i < cfg.slots)
    (ha : (combinedTable cfg st pmp i).addr.toNat < 2 ^ 30) (hsize : 0 < size.toNat)
    (hwrap : addr.toNat + size.toNat ≤ 2 ^ 32) :
    isInRegion cfg st pmp i addr size =
      some (decide (ReadHolds st.csrs (combinedTable cfg st pmp) addr size i)) := by
  change _ = some (decide (∃ r ∈ readRange st.csrs (combinedTable cfg st pmp) i, Contains r addr size))
  by_cases hm : matching (combinedTable cfg st pmp i).cfg = .tor
  · have hones := trailingOnes_le_of_lt ha
    have hstart : BitVec.ofNat 32 (4 * (csrBase st.csrs i).toNat) =
        BitVec.ofNat 32 (4 * (csrBase st.csrs i).toNat % 2 ^ 32) := by
      apply BitVec.eq_of_toNat_eq
      rw [BitVec.toNat_ofNat, BitVec.toNat_ofNat, Nat.mod_mod]
    have hend : BitVec.ofNat 32 (4 * (combinedTable cfg st pmp i).addr.toNat) =
        BitVec.ofNat 32 (if (combinedTable cfg st pmp i).addr = 0 then 2 ^ 32
          else 4 * (combinedTable cfg st pmp i).addr.toNat) := by
      by_cases h0 : (combinedTable cfg st pmp i).addr = 0
      · rw [if_pos h0, h0]
        rfl
      · rw [if_neg h0]
    have hplaced : Placed (4 * (csrBase st.csrs i).toNat % 2 ^ 32,
        if (combinedTable cfg st pmp i).addr = 0 then 2 ^ 32
          else 4 * (combinedTable cfg st pmp i).addr.toNat) := by
      by_cases h0 : (combinedTable cfg st pmp i).addr = 0
      · rw [if_pos h0]
        exact ⟨Nat.mod_lt _ (by omega), by norm_num, Or.inl le_rfl⟩
      · have hpos : (combinedTable cfg st pmp i).addr.toNat ≠ 0 :=
          fun hz => h0 (BitVec.eq_of_toNat_eq hz)
        rw [if_neg h0]
        exact ⟨Nat.mod_lt _ (by omega), by simp only; omega, Or.inl (by simp only; omega)⟩
    have htest := hold_bounds hplaced hsize hwrap
    rw [isInRegion_eq h pmp hi, regionBounds_eq _ _ _ _ (fun _ => by omega), covered, readRange,
      if_pos hm]
    simp only [hm]
    rw [hstart, hend, htest]
    simp
  · rw [isInRegion_of_fits h pmp hi ha (fun htor => absurd htor hm) hsize hwrap, readRange,
      if_neg hm, Table.range, covered, covered]
    cases hmode : matching (combinedTable cfg st pmp i).cfg with
    | tor => exact absurd hmode hm
    | off => rfl
    | na4 => rfl
    | napot => rfl

/-- Every address register of the table holds at most 30 bits. -/
def Table.Below (t : Table) (n : ℕ) : Prop := ∀ i < n, (t i).addr.toNat < 2 ^ 30

/-- Entry `i` holds the buffer and no entry before it touches it. -/
structure Table.Single (t : Table) (addr size : Word) (i : ℕ) : Prop where
  covers : ∀ a, InBuffer addr size a → t.Covers i a
  alone : ∀ j < i, ∀ a, InBuffer addr size a → ¬ t.Covers j a

lemma contains_range_iff {t : Table} (hsize : 0 < size.toNat) :
    (∃ r ∈ t.range i, Contains r addr size) ↔ ∀ a, InBuffer addr size a → t.Covers i a := by
  constructor
  · intro hrange a ha
    obtain ⟨r, hr, hcontains⟩ := hrange
    exact ⟨r, hr, (contains_iff hsize).mp hcontains a ha⟩
  · intro hcov
    obtain ⟨r, hr, _⟩ := hcov addr.toNat ⟨le_rfl, by omega⟩
    refine ⟨r, hr, (contains_iff hsize).mpr fun a ha => ?_⟩
    obtain ⟨s, hs, hbyte⟩ := hcov a ha
    rw [Option.mem_def] at hr hs
    rw [hr] at hs
    rwa [Option.some.inj hs]

/-- Ranges that lie before or after the buffer leave it to the entry that holds it. -/
lemma Table.single_of_ranges {t : Table} (hsize : 0 < size.toNat)
    (hhere : ∃ r ∈ t.range i, Contains r addr size)
    (hbefore : ∀ j < i, ∀ r ∈ t.range j, r.2 ≤ addr.toNat ∨ addr.toNat + size.toNat ≤ r.1) :
    t.Single addr size i := by
  refine ⟨(contains_range_iff hsize).mp hhere, ?_⟩
  intro j hj a ha hcov
  obtain ⟨hlo, hhi⟩ := ha
  obtain ⟨r, hr, hbyte⟩ := hcov
  have hout := hbefore j hj r hr
  omega

/-- The walk stops at the first entry whose read range holds the buffer. -/
lemma stops_iff_firstReadHolds (h : st.Room cfg)
    (hbelow : (combinedTable cfg st pmp).Below cfg.slots) (hsize : 0 < size.toNat)
    (hwrap : addr.toNat + size.toNat ≤ 2 ^ 32) (hi : i < cfg.slots) :
    Stops cfg st pmp addr size i ↔
      FirstReadHolds st.csrs (combinedTable cfg st pmp) addr size i := by
  have htest (j : ℕ) (hj : j ≤ i) : isInRegion cfg st pmp j addr size =
      some (decide (ReadHolds st.csrs (combinedTable cfg st pmp) addr size j)) :=
    isInRegion_eq_readRange h (by omega) (hbelow j (by omega)) hsize hwrap
  constructor
  · rintro ⟨hat, hlow⟩
    rw [htest i le_rfl] at hat
    refine ⟨of_decide_eq_true (Option.some.inj hat), fun j hj => ?_⟩
    have hfalse := hlow j hj
    rw [htest j hj.le] at hfalse
    exact of_decide_eq_false (Option.some.inj hfalse)
  · rintro ⟨hat, hlow⟩
    refine ⟨by rw [htest i le_rfl, decide_eq_true hat], fun j hj => ?_⟩
    rw [htest j hj.le, decide_eq_false (hlow j hj)]

/-- The walk stops at the entry that holds the buffer exactly when it reads that
entry and those before it right. -/
theorem stops_iff_reads (h : st.Room cfg) (hbelow : (combinedTable cfg st pmp).Below cfg.slots)
    (hsize : 0 < size.toNat) (hwrap : addr.toNat + size.toNat ≤ 2 ^ 32) (hi : i < cfg.slots)
    (hsingle : (combinedTable cfg st pmp).Single addr size i) :
    Stops cfg st pmp addr size i ↔
      ∀ j ≤ i, Reads st.csrs (combinedTable cfg st pmp) addr size j := by
  have hhere : ∃ r ∈ (combinedTable cfg st pmp).range i, Contains r addr size :=
    (contains_range_iff hsize).mpr hsingle.covers
  have hbefore : ∀ j < i, ¬ ∃ r ∈ (combinedTable cfg st pmp).range j, Contains r addr size := by
    intro j hj hcontains
    have hfirst : InBuffer addr size addr.toNat := ⟨le_rfl, by omega⟩
    exact hsingle.alone j hj _ hfirst ((contains_range_iff hsize).mp hcontains _ hfirst)
  rw [stops_iff_firstReadHolds h hbelow hsize hwrap hi]
  constructor
  · rintro ⟨hat, hlow⟩ j hj
    by_cases heq : j = i
    · subst heq
      exact iff_of_true hat hhere
    · exact iff_of_false (hlow j (by omega)) (hbefore j (by omega))
  · intro hreads
    exact ⟨(hreads i le_rfl).mpr hhere, fun j hj hc => hbefore j hj ((hreads j hj.le).mp hc)⟩

end Walk

section Verdict

variable {cfg : PmpConfig} {st : PmpState} {pmp : KPmp} {addr size : Word} {i : ℕ} {write : Bool}

/-- The read ranges lead to the verdict of entry `i`: of the first that holds the
buffer the W bit, or for reads the R bit, is set just if entry `i` grants the
access, or none holds it and entry `i` does not grant it. -/
def ReadsAlike (csrs : Csrs 32) (t : Table) (n : ℕ) (addr size : Word) (write : Bool)
    (i : ℕ) : Prop :=
  (∃ k < n, FirstReadHolds csrs t addr size k ∧
    ((t k).cfg.getLsbD (if write then 1 else 0) = true ↔ Grants (t i).cfg write)) ∨
  (∀ k < n, ¬ ReadHolds csrs t addr size k) ∧ ¬ Grants (t i).cfg write

lemma verdict_of_stops (hi : i < cfg.slots) (hstops : Stops cfg st pmp addr size i) :
    archBufferValidate cfg st pmp addr size write = some 0 ↔
      isUserAccessibleRegion cfg st pmp i write = true := by
  rw [archBufferValidate_eq_zero_iff]
  constructor
  · intro hfound
    obtain ⟨j, _, hj, hverdict⟩ := hfound
    rwa [hstops.unique hj]
  · intro hverdict
    exact ⟨i, hi, hstops, hverdict⟩

/-- The bit that the walk looks at is the whole verdict unless an entry is
written without being readable. -/
lemma accessible_iff_grants_iff (h : st.Room cfg) (hi : i < cfg.slots) :
    (isUserAccessibleRegion cfg st pmp i write = true ↔
      Grants (combinedTable cfg st pmp i).cfg write) ↔
    ¬ (write = true ∧ (combinedTable cfg st pmp i).cfg.getLsbD 1 = true ∧
      (combinedTable cfg st pmp i).cfg.getLsbD 0 = false) := by
  rw [isUserAccessibleRegion_eq h pmp hi, Grants]
  cases write with
  | false => simp
  | true =>
    rw [if_pos rfl]
    generalize (combinedTable cfg st pmp i).cfg.getLsbD 0 = r
    generalize (combinedTable cfg st pmp i).cfg.getLsbD 1 = w
    cases r <;> cases w <;> decide

lemma exists_firstReadHolds {csrs : Csrs 32} {t : Table} {k : ℕ}
    (h : ReadHolds csrs t addr size k) : ∃ j ≤ k, FirstReadHolds csrs t addr size j := by
  induction k using Nat.strong_induction_on with
  | _ k ih =>
    by_cases hlow : ∃ j < k, ReadHolds csrs t addr size j
    · obtain ⟨j, hj, hholds⟩ := hlow
      obtain ⟨l, hl, hfirst⟩ := ih j hj hholds
      exact ⟨l, by omega, hfirst⟩
    · exact ⟨k, le_rfl, h, fun j hj hholds => hlow ⟨j, hj, hholds⟩⟩

/-- Wherever the walk goes, its verdict follows the first read range that holds
the buffer. -/
lemma verdict_iff_readsAlike (h : st.Room cfg)
    (hbelow : (combinedTable cfg st pmp).Below cfg.slots) (hsize : 0 < size.toNat)
    (hwrap : addr.toNat + size.toNat ≤ 2 ^ 32) (write : Bool) (i : ℕ) :
    (archBufferValidate cfg st pmp addr size write = some 0 ↔
      Grants (combinedTable cfg st pmp i).cfg write) ↔
        ReadsAlike st.csrs (combinedTable cfg st pmp) cfg.slots addr size write i := by
  by_cases hend : ∃ k < cfg.slots, ReadHolds st.csrs (combinedTable cfg st pmp) addr size k
  · obtain ⟨l, hl, hholds⟩ := hend
    obtain ⟨k, hkl, hfirst⟩ := exists_firstReadHolds hholds
    have hk : k < cfg.slots := by omega
    have hstops := (stops_iff_firstReadHolds h hbelow hsize hwrap hk).mpr hfirst
    rw [verdict_of_stops hk hstops, isUserAccessibleRegion_eq h pmp hk]
    constructor
    · intro hsame
      exact Or.inl ⟨k, hk, hfirst, hsame⟩
    · intro hcase
      obtain ⟨m, hm, hfirst', hsame⟩ | ⟨hno, _⟩ := hcase
      · have hstops' := (stops_iff_firstReadHolds h hbelow hsize hwrap hm).mpr hfirst'
        rwa [hstops.unique hstops']
      · exact absurd hholds (hno l hl)
  · have hno : ∀ k < cfg.slots, ¬ ReadHolds st.csrs (combinedTable cfg st pmp) addr size k :=
      fun k hk hholds => hend ⟨k, hk, hholds⟩
    have hdenied : ¬ archBufferValidate cfg st pmp addr size write = some 0 := by
      rw [archBufferValidate_eq_zero_iff]
      rintro ⟨k, hk, hstops, _⟩
      exact hno k hk ((stops_iff_firstReadHolds h hbelow hsize hwrap hk).mp hstops).1
    constructor
    · intro hsame
      exact Or.inr ⟨hno, fun hgrants => hdenied (hsame.mpr hgrants)⟩
    · intro hcase
      obtain ⟨k, hk, hfirst, _⟩ | ⟨_, hdenies⟩ := hcase
      · exact absurd hfirst.1 (hno k hk)
      · exact iff_of_false hdenied hdenies

/-- On a buffer inside one entry the verdict is that entry's exactly when the
walk reads the TOR entries up to it right and does not take it for writable
without being readable; or when, some TOR entry being misread, the first range
that it reads to hold the buffer has the same permission, or no range holds it and
the entry denies the access. -/
theorem single_region_exact_iff (h : st.Room cfg)
    (hbelow : (combinedTable cfg st pmp).Below cfg.slots) (hsize : 0 < size.toNat)
    (hwrap : addr.toNat + size.toNat ≤ 2 ^ 32) (hi : i < cfg.slots)
    (hsingle : (combinedTable cfg st pmp).Single addr size i) :
    (archBufferValidate cfg st pmp addr size write = some 0 ↔
        Grants (combinedTable cfg st pmp i).cfg write) ↔
      (∀ j ≤ i, Reads st.csrs (combinedTable cfg st pmp) addr size j) ∧
          ¬ (write = true ∧ (combinedTable cfg st pmp i).cfg.getLsbD 1 = true ∧
            (combinedTable cfg st pmp i).cfg.getLsbD 0 = false) ∨
        (∃ j ≤ i, ¬ Reads st.csrs (combinedTable cfg st pmp) addr size j) ∧
          ReadsAlike st.csrs (combinedTable cfg st pmp) cfg.slots addr size write i := by
  by_cases hreads : ∀ j ≤ i, Reads st.csrs (combinedTable cfg st pmp) addr size j
  · have hstops := (stops_iff_reads h hbelow hsize hwrap hi hsingle).mpr hreads
    have hnone : ¬ ∃ j ≤ i, ¬ Reads st.csrs (combinedTable cfg st pmp) addr size j := by
      push Not
      exact hreads
    rw [verdict_of_stops hi hstops, accessible_iff_grants_iff h hi]
    constructor
    · intro hright
      exact Or.inl ⟨hreads, hright⟩
    · intro hcase
      obtain ⟨_, hright⟩ | ⟨hmisread, _⟩ := hcase
      · exact hright
      · exact absurd hmisread hnone
  · have hsome : ∃ j ≤ i, ¬ Reads st.csrs (combinedTable cfg st pmp) addr size j := by
      push Not at hreads
      exact hreads
    rw [verdict_iff_readsAlike h hbelow hsize hwrap]
    constructor
    · intro hsame
      exact Or.inr ⟨hsome, hsame⟩
    · intro hcase
      obtain ⟨hall, _⟩ | ⟨_, hsame⟩ := hcase
      · exact absurd hall hreads
      · exact hsame

/-- With the checked context loaded and no TOR entry up to the one that holds the
buffer ending at zero, the verdict is that entry's, unless it is write-only. -/
theorem loaded_region_exact (h : st.Room cfg) (pmp : KPmp)
    (hbelow : (hwTable (zRiscvConfigureUserAllowedStack cfg pmp st).csrs).Below cfg.slots)
    (hsize : 0 < size.toNat) (hwrap : addr.toNat + size.toNat ≤ 2 ^ 32) (hi : i < cfg.slots)
    (hsingle : (hwTable (zRiscvConfigureUserAllowedStack cfg pmp st).csrs).Single addr size i)
    (hend : ∀ j ≤ i, matching (hwTable (zRiscvConfigureUserAllowedStack cfg pmp st).csrs j).cfg =
      .tor → (hwTable (zRiscvConfigureUserAllowedStack cfg pmp st).csrs j).addr ≠ 0)
    (hwriteOnly : ¬ (write = true ∧
      (hwTable (zRiscvConfigureUserAllowedStack cfg pmp st).csrs i).cfg.getLsbD 1 = true ∧
      (hwTable (zRiscvConfigureUserAllowedStack cfg pmp st).csrs i).cfg.getLsbD 0 = false)) :
    archBufferValidate cfg (zRiscvConfigureUserAllowedStack cfg pmp st) pmp addr size write =
        some 0 ↔
      Grants (hwTable (zRiscvConfigureUserAllowedStack cfg pmp st).csrs i).cfg write := by
  have hslots := cfg.slots_le
  rw [← combinedTable_load h pmp] at hbelow hsingle hend hwriteOnly ⊢
  have hstops := (stops_iff_reads (h.load pmp) hbelow hsize hwrap hi hsingle).mpr (by
    intro j hj
    apply reads_of_base
    intro htor
    refine ⟨hend j hj htor, ?_, ?_⟩
    · rw [csrBase_eq (by omega), combinedTable_load h pmp]
    · by_cases h0 : j = 0
      · rw [Table.base, if_pos h0]
        exact Nat.two_pow_pos 30
      · rw [Table.base, if_neg h0]
        exact hbelow (j - 1) (by omega))
  exact (verdict_of_stops hi hstops).trans
    ((accessible_iff_grants_iff (h.load pmp) hi).mpr hwriteOnly)

end Verdict

section Registers

/-- The region behind the stack that a context grants, and a region of another
context elsewhere. -/
def nearRegion : List DynamicRequest := [⟨0x20001000, 0x100, pmpR ||| pmpW⟩]
def farRegion : List DynamicRequest := [⟨0x30000000, 0x100, pmpR ||| pmpW⟩]

/-- A check against the first context, with its own addresses loaded. -/
theorem near_region_exact :
    archBufferValidate torConfig (loadedState torConfig (bootState torConfig) threadPmp nearRegion)
        (userContext torConfig (bootState torConfig) threadPmp nearRegion) 0x20001010 16 true =
      some 0 ↔
    Grants (combinedTable torConfig
      (loadedState torConfig (bootState torConfig) threadPmp nearRegion)
      (userContext torConfig (bootState torConfig) threadPmp nearRegion) 4).cfg true := by
  apply (single_region_exact_iff (by decide +kernel) (by unfold Table.Below; decide +kernel) (by decide)
    (by decide) (by decide) (Table.single_of_ranges (by decide) (by decide +kernel)
      (by decide +kernel))).mpr
  left
  constructor
  · decide +kernel
  · decide +kernel

/-- With the other context loaded the same check of the same context over the
same static entries fails. -/
theorem foreign_registers_deny :
    (∀ i < 8, combinedTable torConfig
        (loadedState torConfig (bootState torConfig) threadPmp nearRegion)
        (userContext torConfig (bootState torConfig) threadPmp nearRegion) i =
      combinedTable torConfig (loadedState torConfig (bootState torConfig) threadPmp farRegion)
        (userContext torConfig (bootState torConfig) threadPmp nearRegion) i) ∧
    (combinedTable torConfig (loadedState torConfig (bootState torConfig) threadPmp farRegion)
      (userContext torConfig (bootState torConfig) threadPmp nearRegion)).Below 8 ∧
    (combinedTable torConfig (loadedState torConfig (bootState torConfig) threadPmp farRegion)
      (userContext torConfig (bootState torConfig) threadPmp nearRegion)).Single 0x20001010 16 4 ∧
    Grants (combinedTable torConfig
      (loadedState torConfig (bootState torConfig) threadPmp farRegion)
      (userContext torConfig (bootState torConfig) threadPmp nearRegion) 4).cfg true ∧
    archBufferValidate torConfig (loadedState torConfig (bootState torConfig) threadPmp nearRegion)
      (userContext torConfig (bootState torConfig) threadPmp nearRegion) 0x20001010 16 true =
        some 0 ∧
    archBufferValidate torConfig (loadedState torConfig (bootState torConfig) threadPmp farRegion)
      (userContext torConfig (bootState torConfig) threadPmp nearRegion) 0x20001010 16 true =
        some (-1) := by
  refine ⟨by decide +kernel, ?_, ?_, by decide +kernel, by decide +kernel, by decide +kernel⟩
  · unfold Table.Below
    decide +kernel
  · apply Table.single_of_ranges (by decide)
    · decide +kernel
    · decide +kernel

end Registers

end WchIotSdk.Pmp
