import WchIotSdk.PmpValidate

/-!
# When a successful check is sound

The walk looks for one entry that holds the whole buffer, while the hardware
decides byte by byte. The two part ways in three cases: a lower-numbered entry
that denies the access holds some bytes of the buffer only, an entry is written
without being readable, and a range whose end does not fit the word is read as
another one.
-/
namespace WchIotSdk.Pmp

/-- The byte at `a` belongs to the buffer. -/
def InBuffer (addr size : Word) (a : ℕ) : Prop := addr.toNat ≤ a ∧ a < addr.toNat + size.toNat

instance (addr size : Word) (a : ℕ) : Decidable (InBuffer addr size a) :=
  inferInstanceAs (Decidable (_ ∧ _))

/-- The addresses of entry `i` have at most 32 bits, and a TOR entry does not
end at the address zero. -/
def Table.Fits (t : Table) (i : ℕ) : Prop :=
  (t i).addr.toNat < 2 ^ 30 ∧
    (matching (t i).cfg = .tor → (t i).addr ≠ 0 ∧ (t.base i).toNat < 2 ^ 30)

instance (t : Table) (i : ℕ) : Decidable (t.Fits i) := inferInstanceAs (Decidable (_ ∧ _))

/-- Success at entry `i` is sound: no lower-numbered entry that denies the access
decides on a byte of the buffer; a write-only entry, which the check takes for
writable, decides on none; and where the entry does not cover what the check
takes it to, the first entry to cover a byte left over grants the access. -/
structure Table.SoundAt (t : Table) (n : ℕ) (addr size : Word) (write : Bool) (i : ℕ) : Prop where
  lower : ∀ j < i, ¬ Grants (t j).cfg write → ∀ a, InBuffer addr size a → ¬ t.Decides j a
  writeOnly : write = true → (t i).cfg.getLsbD 0 = false → ∀ a, InBuffer addr size a →
    ¬ t.Decides i a
  misread : ¬ t.Fits i → ∀ a, InBuffer addr size a → (∀ j ≤ i, ¬ t.Covers j a) →
    ∃ k, i < k ∧ k < n ∧ t.Decides k a ∧ Grants (t k).cfg write

section Decision

variable {t : Table} {n i a : ℕ} {write : Bool}

lemma Table.Decides.unique {j : ℕ} (hi : t.Decides i a) (hj : t.Decides j a) : i = j := by
  rcases Nat.lt_trichotomy i j with hlt | heq | hlt
  · exact absurd hi.1 (hj.2 i hlt)
  · exact heq
  · exact absurd hj.1 (hi.2 j hlt)

/-- The deciding entry allows the access if it grants it. -/
lemma Table.Decides.allows_iff (h : t.Decides i a) (hi : i < n) :
    t.Allows n write a ↔ Grants (t i).cfg write := by
  unfold Table.Allows
  constructor
  · intro hfound
    obtain ⟨c, hc, hgrants⟩ := hfound
    obtain ⟨j, _, hj, rfl⟩ := Table.decision_eq_some_iff.mp hc
    rwa [h.unique hj]
  · intro hgrants
    exact ⟨(t i).cfg, Table.decision_eq_some_iff.mpr ⟨i, hi, h, rfl⟩, hgrants⟩

end Decision

section Sound

variable {cfg : PmpConfig} {st : PmpState} {pmp : KPmp} {addr size : Word} {i : ℕ}

lemma csrBase_eq (hi : i < 17) (csrs : Csrs 32) : csrBase csrs i = (hwTable csrs).base i := by
  rw [csrBase, Table.base]
  by_cases h0 : i = 0
  · rw [if_pos h0, if_pos h0]
  · have hindex : csrPmpaddr0 + i - 1 = csrPmpaddr0 + (i - 1) := by omega
    rw [if_neg h0, if_neg h0, hindex, csrReadEnum, if_pos (by rw [csrPmpaddr0]; omega)]
    rfl

/-- About an entry that fits, the test of the walk is right. -/
theorem isInRegion_of_fits (h : st.Room cfg) (pmp : KPmp) (hi : i < cfg.slots)
    (ha : (combinedTable cfg st pmp i).addr.toNat < 2 ^ 30)
    (htor : matching (combinedTable cfg st pmp i).cfg = .tor →
      (combinedTable cfg st pmp i).addr ≠ 0 ∧ (csrBase st.csrs i).toNat < 2 ^ 30)
    (hsize : 0 < size.toNat) (hwrap : addr.toNat + size.toNat ≤ 2 ^ 32) :
    isInRegion cfg st pmp i addr size =
      some (decide (∃ r ∈ covered (csrBase st.csrs i) (combinedTable cfg st pmp i),
        Contains r addr size)) := by
  have hones := trailingOnes_le_of_lt ha
  rw [isInRegion_eq h pmp hi, regionBounds_eq _ _ _ _ (fun _ => by omega)]
  cases hr : covered (csrBase st.csrs i) (combinedTable cfg st pmp i) with
  | none => simp [RegionBounds.hold]
  | some r =>
    simp only
    rw [hold_bounds (placed_of_covered ha htor hr) hsize hwrap]
    simp

/-- A range contains the buffer if it contains its bytes. -/
lemma contains_iff {r : ℕ × ℕ} (hsize : 0 < size.toNat) :
    Contains r addr size ↔ ∀ a, InBuffer addr size a → r.1 ≤ a ∧ a < r.2 := by
  unfold Contains InBuffer
  constructor
  · intro h a ha
    omega
  · intro h
    have hfirst := h addr.toNat (by omega)
    have hlast := h (addr.toNat + size.toNat - 1) (by omega)
    omega

/-- A loaded entry that fits and holds the buffer covers its bytes. -/
lemma covers_of_isInRegion (h : st.Room cfg) (pmp : KPmp) (hi : i < cfg.slots)
    (hfits : (hwTable (zRiscvConfigureUserAllowedStack cfg pmp st).csrs).Fits i)
    (hsize : 0 < size.toNat) (hwrap : addr.toNat + size.toNat ≤ 2 ^ 32)
    (hin : isInRegion cfg (zRiscvConfigureUserAllowedStack cfg pmp st) pmp i addr size = some true)
    {a : ℕ} (ha : InBuffer addr size a) :
    (hwTable (zRiscvConfigureUserAllowedStack cfg pmp st).csrs).Covers i a := by
  have hslots := cfg.slots_le
  have hentry := combinedTable_load h pmp
  have hbase := csrBase_eq (by omega) (i := i) (zRiscvConfigureUserAllowedStack cfg pmp st).csrs
  have htest := isInRegion_of_fits (h.load pmp) pmp hi (by rw [hentry]; exact hfits.1)
    (by rw [hentry, hbase]; exact hfits.2) hsize hwrap
  rw [hin, hentry, hbase] at htest
  obtain ⟨r, hr, hcontains⟩ := of_decide_eq_true (Option.some.inj htest).symm
  exact ⟨r, hr, (contains_iff hsize).mp hcontains a ha⟩

/-- A check against a loaded context succeeds soundly exactly where the entry at
which it stops makes success sound. -/
theorem loaded_sound_iff (h : st.Room cfg) (pmp : KPmp) (write : Bool)
    (hsize : 0 < size.toNat) (hwrap : addr.toNat + size.toNat ≤ 2 ^ 32) :
    (archBufferValidate cfg (zRiscvConfigureUserAllowedStack cfg pmp st) pmp addr size write =
        some 0 →
      ∀ a, InBuffer addr size a →
        (hwTable (zRiscvConfigureUserAllowedStack cfg pmp st).csrs).Allows cfg.slots write a) ↔
    ∀ i < cfg.slots, Stops cfg (zRiscvConfigureUserAllowedStack cfg pmp st) pmp addr size i →
      isUserAccessibleRegion cfg (zRiscvConfigureUserAllowedStack cfg pmp st) pmp i write = true →
      (hwTable (zRiscvConfigureUserAllowedStack cfg pmp st).csrs).SoundAt
        cfg.slots addr size write i := by
  constructor
  · intro hsound i hi hstops hacc
    have hallows := hsound ((archBufferValidate_eq_zero_iff write).mpr ⟨i, hi, hstops, hacc⟩)
    refine ⟨?_, ?_, ?_⟩
    · intro j hj hdenies a ha hdec
      exact hdenies ((hdec.allows_iff (by omega)).mp (hallows a ha))
    · intro _ hread a ha hdec
      have hgrants := (hdec.allows_iff hi).mp (hallows a ha)
      rw [hgrants.1] at hread
      cases hread
    · intro _ a ha hcov
      obtain ⟨c, hc, hgrants⟩ := hallows a ha
      obtain ⟨k, hk, hdec, rfl⟩ := Table.decision_eq_some_iff.mp hc
      exact ⟨k, not_le.mp fun hle => hcov k hle hdec.1, hk, hdec, hgrants⟩
  · intro hcond hzero a ha
    obtain ⟨i, hi, hstops, hacc⟩ := (archBufferValidate_eq_zero_iff write).mp hzero
    have hat := hcond i hi hstops hacc
    by_cases hcov : ∃ j ≤ i, (hwTable (zRiscvConfigureUserAllowedStack cfg pmp st).csrs).Covers j a
    · obtain ⟨j, hj, hcov⟩ := hcov
      obtain ⟨k, hk, hdec⟩ := Table.exists_decides_le hcov
      apply (hdec.allows_iff (show k < cfg.slots by omega)).mpr
      by_cases hlow : k < i
      · by_contra hdenies
        exact hat.lower k hlow hdenies a ha hdec
      · -- The stopping entry itself decides: the walk has looked at one of its bits.
        have hki : k = i := by omega
        subst hki
        rw [isUserAccessibleRegion_eq (h.load pmp) pmp hi, combinedTable_load h pmp] at hacc
        cases write with
        | false => exact ⟨hacc, fun hw => by cases hw⟩
        | true =>
          refine ⟨?_, fun _ => hacc⟩
          by_contra hread
          exact hat.writeOnly rfl (Bool.eq_false_iff.mpr hread) a ha hdec
    · push Not at hcov
      have hmisread : ¬ (hwTable (zRiscvConfigureUserAllowedStack cfg pmp st).csrs).Fits i :=
        fun hfits =>
          hcov i le_rfl (covers_of_isInRegion h pmp hi hfits hsize hwrap hstops.1 ha)
      obtain ⟨k, _, hk, hdec, hgrants⟩ := hat.misread hmisread a ha hcov
      exact (hdec.allows_iff hk).mpr hgrants

end Sound

section Claims

/-- A successful check of a buffer against the context that is loaded promises
the access to every byte, exactly where the entry at which the walk stops makes
success sound. -/
theorem buffer_validate_sound_iff (cfg : PmpConfig) (st : PmpState) (h : st.Room cfg) (pmp : KPmp)
    (rs : List DynamicRequest) (addr size : Word) (write : Bool) (hsize : 0 < size.toNat)
    (hwrap : addr.toNat + size.toNat ≤ 2 ^ 32) :
    (archBufferValidate cfg (loadedState cfg st pmp rs) (userContext cfg st pmp rs) addr size
        write = some 0 →
      ∀ a, InBuffer addr size a →
        (hwTable (loadedState cfg st pmp rs).csrs).Allows cfg.slots write a) ↔
    ∀ i < cfg.slots, Stops cfg (loadedState cfg st pmp rs) (userContext cfg st pmp rs) addr size i →
      isUserAccessibleRegion cfg (loadedState cfg st pmp rs) (userContext cfg st pmp rs) i write =
        true →
      (hwTable (loadedState cfg st pmp rs).csrs).SoundAt cfg.slots addr size write i :=
  loaded_sound_iff h (userContext cfg st pmp rs) write hsize hwrap

/-- Eight entries, and regions of any size. -/
def torConfig : PmpConfig := ⟨8, false, by decide, by decide, by decide⟩

/-- The static entries for 256 kB of code at the address zero. -/
def bootState (cfg : PmpConfig) : PmpState := configured cfg 0 0x40000 fun _ => 0

/-- A thread with 4 kB of stack in the RAM. -/
def threadPmp : KPmp := ⟨0x20000000, 0x1000, fun _ => 0, fun _ => 0⟩

/-- A word that may only be read, inside a region that may be written. -/
def guardedWord : List DynamicRequest :=
  [⟨0x20001000, 4, pmpR⟩, ⟨0x20001000, 0x100, pmpR ||| pmpW⟩]

/-- The check lets a write through that the hardware denies on the first word. -/
theorem guarded_word_validated :
    ¬ (archBufferValidate torConfig (loadedState torConfig (bootState torConfig) threadPmp guardedWord)
          (userContext torConfig (bootState torConfig) threadPmp guardedWord) 0x20001000 16 true =
        some 0 →
      ∀ a, InBuffer 0x20001000 16 a →
        (hwTable (loadedState torConfig (bootState torConfig) threadPmp guardedWord).csrs).Allows
          8 true a) := by
  intro hsound
  have hzero : archBufferValidate torConfig
      (loadedState torConfig (bootState torConfig) threadPmp guardedWord)
      (userContext torConfig (bootState torConfig) threadPmp guardedWord) 0x20001000 16 true =
        some 0 := by decide +kernel
  have hfirst : (hwTable (loadedState torConfig (bootState torConfig) threadPmp
      guardedWord).csrs).decision 8 0x20001000 = some 0x11 := by decide +kernel
  obtain ⟨c, hc, hgrants⟩ := hsound hzero 0x20001000 (by decide)
  rw [hfirst] at hc
  cases hc
  exact absurd hgrants (by decide)

/-- Reading the stack of the same context is checked soundly. -/
theorem stack_read_sound :
    (hwTable (loadedState torConfig (bootState torConfig) threadPmp guardedWord).csrs).Allows
      8 false 0x20000008 := by
  apply (buffer_validate_sound_iff torConfig (bootState torConfig) (by decide +kernel) threadPmp
    guardedWord 0x20000000 16 false (by decide) (by decide)).mpr
  · intro i hi hstops _
    have hone : Stops torConfig (loadedState torConfig (bootState torConfig) threadPmp guardedWord)
        (userContext torConfig (bootState torConfig) threadPmp guardedWord) 0x20000000 16 1 := by
      decide +kernel
    have heq := hstops.unique hone
    subst heq
    refine ⟨?_, ?_, ?_⟩
    · intro j hj hdenies
      have hj0 : j = 0 := by omega
      subst hj0
      exact absurd (by decide +kernel) hdenies
    · intro hwrite
      cases hwrite
    · intro hmisread
      exact absurd (by decide +kernel) hmisread
  · decide +kernel
  · decide

end Claims

end WchIotSdk.Pmp
