import WchIotSdk.FirstMatch
import WchIotSdk.PmpLoading

/-!
# Checking a buffer against a context

`arch_buffer_validate` walks over the entries, the dynamic ones taken from a
context that need not be loaded and the static ones from the registers, and
stops at the first that holds the whole buffer. A shift by 32 or more, which C
leaves undefined, is `none` here.
-/
namespace WchIotSdk.Pmp
open FirstMatch

/-- The loop of `count_trailing_one`, with `n` shifts left inside the word. -/
def countTrailingOneFrom (value : Word) : ℕ → ℕ → Option ℕ
  | _, 0 => none
  | shift, n + 1 =>
    if (value >>> shift) &&& 0x1#32 ≠ 0 then countTrailingOneFrom value (shift + 1) n
    else some shift

def countTrailingOne (value : Word) : Option ℕ := countTrailingOneFrom value 0 32

/-- What `riscv_pmp_get_user_pmp` stores through its pointers; nothing for a bad
index. -/
def riscvPmpGetUserPmp (cfg : PmpConfig) (st : PmpState) (pmp : KPmp) (index : ℕ) :
    Option (Byte × Word) :=
  let lastStaticIndex := uint8 (maxDynamicRegion cfg st + 1)
  if index ≥ getNumRegions cfg then none
  else if index ≥ lastStaticIndex then riscvPmpGet cfg rv32 st.csrs index
  else some (pmp.uPmpcfg index, pmp.uPmpaddr index)

/-- The variables `addr_start` and `addr_end` of `is_in_region`. -/
inductive RegionBounds where
  | disabled
  | undefined
  | bounds (addrStart addrEnd : Word)
  deriving DecidableEq, Repr

/-- The branches of `is_in_region` on the matching mode. -/
def regionBounds (csrs : Csrs 32) (index : ℕ) (pmpcfg : Byte) (pmpaddr : Word) : RegionBounds :=
  if pmpcfg &&& pmpTypeMask = pmpNa4 then
    let addrStart := fromPmpAddr pmpaddr
    .bounds addrStart (addrStart + 4 - 1)
  else if pmpcfg &&& pmpTypeMask = pmpNapot then
    match countTrailingOne pmpaddr with
    | none => .undefined
    | some shift =>
      if shift + 1 ≥ 32 then .undefined
      else
        let bitmask := (1#32 <<< (shift + 1)) - 1
        let size := fromPmpAddr (bitmask + 1)
        let addrStart := fromPmpAddr (pmpaddr &&& ~~~bitmask)
        .bounds addrStart (addrStart - 1 + size)
  else if pmpcfg &&& pmpTypeMask = pmpTor then
    if index = 0 then .bounds 0 (fromPmpAddr pmpaddr - 1)
    else
      let pmpaddrPrev := csrReadEnum csrs (csrPmpaddr0 + index - 1)
      .bounds (fromPmpAddr pmpaddrPrev) (fromPmpAddr pmpaddr - 1)
  else .disabled

/-- The comparison at the end of `is_in_region`. -/
def RegionBounds.hold (b : RegionBounds) (start size : Word) : Option Bool :=
  match b with
  | .disabled => some false
  | .undefined => none
  | .bounds addrStart addrEnd =>
    let size := if size = 0 then 0 else size - 1
    if start.toNat + size.toNat ≥ 2 ^ 32 then some false
    else some (decide (start ≥ addrStart ∧ start + size ≤ addrEnd))

/-- A bad index leaves the zeros that the variables start with. -/
def isInRegion (cfg : PmpConfig) (st : PmpState) (pmp : KPmp) (index : ℕ) (start size : Word) :
    Option Bool :=
  let (pmpcfg, pmpaddr) := (riscvPmpGetUserPmp cfg st pmp index).getD (0, 0)
  (regionBounds st.csrs index pmpcfg pmpaddr).hold start size

def isUserAccessibleRegion (cfg : PmpConfig) (st : PmpState) (pmp : KPmp) (index : ℕ)
    (write : Bool) : Bool :=
  let pmpcfg := ((riscvPmpGetUserPmp cfg st pmp index).getD (0, 0)).1
  if write then pmpcfg &&& pmpW = pmpW else pmpcfg &&& pmpR = pmpR

/-- The loop of `arch_buffer_validate` from `index` on, with `n` entries left. -/
def archBufferValidateFrom (cfg : PmpConfig) (st : PmpState) (pmp : KPmp) (addr size : Word)
    (write : Bool) : ℕ → ℕ → Option ℤ
  | _, 0 => some (-1)
  | index, n + 1 =>
    match isInRegion cfg st pmp index addr size with
    | none => none
    | some false => archBufferValidateFrom cfg st pmp addr size write (index + 1) n
    | some true => some (if isUserAccessibleRegion cfg st pmp index write then 0 else -1)

def archBufferValidate (cfg : PmpConfig) (st : PmpState) (pmp : KPmp) (addr size : Word)
    (write : Bool) : Option ℤ :=
  archBufferValidateFrom cfg st pmp addr size write 0 (getNumRegions cfg)

section Decoding

lemma and_one_ne_zero_iff (v : Word) (s : ℕ) :
    (v >>> s) &&& 0x1#32 ≠ 0 ↔ v.getLsbD s = true := by
  have hone : ∀ i, (0x1#32).getLsbD i = decide (i = 0) := by
    intro i
    rw [BitVec.getLsbD_one]
    simp
  constructor
  · intro h
    by_contra hbit
    apply h
    apply BitVec.eq_of_getLsbD_eq
    intro i hi
    rw [BitVec.getLsbD_and, hone, BitVec.getLsbD_ushiftRight]
    by_cases h0 : i = 0
    · subst h0
      simpa using hbit
    · simp [h0]
  · intro hbit h
    have h0 := congrArg (fun x => BitVec.getLsbD x 0) h
    simp only [BitVec.getLsbD_and, hone, BitVec.getLsbD_ushiftRight] at h0
    simp [hbit] at h0

lemma countTrailingOneFrom_eq (v : Word) {s n : ℕ} (hs : s + n = 32) (hlow : s ≤ trailingOnes v) :
    countTrailingOneFrom v s n =
      if trailingOnes v < 32 then some (trailingOnes v) else none := by
  obtain ⟨_, hones, hzero⟩ := trailingOnes_spec v
  induction n generalizing s with
  | zero => rw [if_neg (by omega), countTrailingOneFrom]
  | succ n ih =>
    rw [countTrailingOneFrom]
    by_cases heq : s = trailingOnes v
    · have hstop := hzero (by omega)
      rw [← heq] at hstop
      rw [if_neg (by rw [and_one_ne_zero_iff, hstop]; simp), ← heq, if_pos (by omega)]
    · rw [if_pos ((and_one_ne_zero_iff v s).mpr (hones s (by omega)))]
      exact ih (by omega) (by omega)

lemma countTrailingOne_eq (v : Word) :
    countTrailingOne v = if trailingOnes v < 32 then some (trailingOnes v) else none :=
  countTrailingOneFrom_eq v rfl (Nat.zero_le _)

/-- Masking off the low bits rounds down to a block. -/
lemma toNat_and_not_bitmask (v : Word) {k : ℕ} (hk : k < 32) :
    (v &&& ~~~((1#32 <<< k) - 1)).toNat = v.toNat / 2 ^ k * 2 ^ k := by
  have hpow : 2 ^ k < 2 ^ 32 := Nat.pow_lt_pow_right (by omega) hk
  have hmask : (1#32 <<< k) - 1 = BitVec.ofNat 32 (2 ^ k - 1) := by
    apply BitVec.eq_of_toNat_eq
    have hpos := Nat.two_pow_pos k
    have hbit : (1#32 <<< k).toNat = 2 ^ k := by
      rw [BitVec.toNat_shiftLeft, BitVec.toNat_ofNat, Nat.shiftLeft_eq,
        Nat.mod_eq_of_lt (by omega : 1 < 2 ^ 32), Nat.one_mul, Nat.mod_eq_of_lt hpow]
    rw [toNat_sub_one (by omega), hbit, BitVec.toNat_ofNat, Nat.mod_eq_of_lt (by omega)]
  have hround : v &&& ~~~((1#32 <<< k) - 1) = (v >>> k) <<< k := by
    apply BitVec.eq_of_getLsbD_eq
    intro i hi
    rw [hmask, BitVec.getLsbD_and, BitVec.getLsbD_not, BitVec.getLsbD_ofNat,
      Nat.testBit_two_pow_sub_one, BitVec.getLsbD_shiftLeft, BitVec.getLsbD_ushiftRight]
    by_cases hik : i < k
    · simp [hi, hik]
    · simp [hi, hik, Nat.add_sub_cancel' (Nat.le_of_not_lt hik)]
  rw [hround, BitVec.toNat_shiftLeft, BitVec.toNat_ushiftRight, Nat.shiftLeft_eq,
    Nat.shiftRight_eq_div_pow, Nat.mod_eq_of_lt]
  exact lt_of_le_of_lt (Nat.div_mul_le_self _ _) v.isLt

lemma fromPmpAddr_eq (v : Word) : fromPmpAddr v = BitVec.ofNat 32 (4 * v.toNat) := by
  apply BitVec.eq_of_toNat_eq
  rw [fromPmpAddr, BitVec.toNat_shiftLeft, BitVec.toNat_ofNat, Nat.shiftLeft_eq, Nat.mul_comm]

/-- The base that the check uses for a TOR entry, from the registers. -/
def csrBase (csrs : Csrs 32) (index : ℕ) : Word :=
  if index = 0 then 0 else csrReadEnum csrs (csrPmpaddr0 + index - 1)

/-- Where its shifts stay inside the word, the check computes the range that
the entry covers, modulo 2^32 and with the last address for the first one after. -/
theorem regionBounds_eq (csrs : Csrs 32) (index : ℕ) (c : Byte) (a : Word)
    (h : matching c = .napot → trailingOnes a + 1 < 32) :
    regionBounds csrs index c a = match covered (csrBase csrs index) ⟨c, a⟩ with
      | none => .disabled
      | some r => .bounds (BitVec.ofNat 32 r.1) (BitVec.ofNat 32 r.2 - 1) := by
  rw [regionBounds, covered, cfg_and_typeMask]
  cases hm : matching c with
  | off => rfl
  | na4 =>
    have hend : fromPmpAddr a + 4 = BitVec.ofNat 32 (4 * a.toNat + 4) := by
      rw [fromPmpAddr_eq, BitVec.ofNat_add]
      rfl
    rw [if_pos (by decide)]
    simp only [hend]
    rw [fromPmpAddr_eq]
  | napot =>
    have hshift := h hm
    have hmask : (1#32 <<< (trailingOnes a + 1)) - 1 + 1 = 1#32 <<< (trailingOnes a + 1) := by
      rw [BitVec.sub_add_cancel]
    have hsize : fromPmpAddr (1#32 <<< (trailingOnes a + 1)) =
        BitVec.ofNat 32 (4 * 2 ^ (trailingOnes a + 1)) := by
      have hpow : 2 ^ (trailingOnes a + 1) < 2 ^ 32 := Nat.pow_lt_pow_right (by omega) hshift
      rw [fromPmpAddr_eq, BitVec.toNat_shiftLeft, Nat.shiftLeft_eq, BitVec.toNat_ofNat,
        Nat.mod_eq_of_lt (by omega : 1 < 2 ^ 32), Nat.one_mul, Nat.mod_eq_of_lt hpow]
    have hstart := fromPmpAddr_eq (a &&& ~~~((1#32 <<< (trailingOnes a + 1)) - 1))
    rw [toNat_and_not_bitmask a hshift] at hstart
    rw [if_neg (by decide), if_pos (by decide), countTrailingOne_eq, if_pos (by omega)]
    simp only
    rw [if_neg (by omega), hmask, hsize, hstart, Nat.mul_add, BitVec.ofNat_add]
    congr 1
    rw [BitVec.sub_add_comm]
  | tor =>
    rw [if_neg (by decide), if_neg (by decide), if_pos (by decide), csrBase]
    by_cases h0 : index = 0
    · rw [if_pos h0, if_pos h0, fromPmpAddr_eq]
      rfl
    · rw [if_neg h0, if_neg h0]
      simp only [fromPmpAddr_eq]

/-- A range that ends inside the 32-bit addresses, or covers all of them. -/
structure Placed (r : ℕ × ℕ) : Prop where
  start_lt : r.1 < 2 ^ 32
  end_pos : 0 < r.2
  end_le : r.2 ≤ 2 ^ 32 ∨ r.2 = 2 ^ 33

lemma trailingOnes_le_of_lt {a : Word} (ha : a.toNat < 2 ^ 30) : trailingOnes a ≤ 30 := by
  obtain ⟨_, hones, _⟩ := trailingOnes_spec a
  by_contra hlt
  have hbit := hones 30 (by omega)
  rw [← BitVec.testBit_toNat, Nat.testBit_lt_two_pow ha] at hbit
  cases hbit

/-- Entries with addresses of 32 bits: a TOR entry with the address zero covers
nothing, and is the one that the check takes for the whole memory. -/
lemma placed_of_covered {base : Word} {e : PmpEntry} {r : ℕ × ℕ} (ha : e.addr.toNat < 2 ^ 30)
    (htor : matching e.cfg = .tor → e.addr ≠ 0 ∧ base.toNat < 2 ^ 30)
    (hr : covered base e = some r) : Placed r := by
  rw [covered] at hr
  cases hm : matching e.cfg with
  | off => simp [hm] at hr
  | na4 =>
    simp only [hm, Option.some.injEq] at hr
    subst hr
    exact ⟨by simp only; omega, by simp only; omega, Or.inl (by simp only; omega)⟩
  | tor =>
    obtain ⟨hne, hbase⟩ := htor hm
    have hpos : e.addr.toNat ≠ 0 := fun h0 => hne (BitVec.eq_of_toNat_eq h0)
    simp only [hm, Option.some.injEq] at hr
    subst hr
    exact ⟨by simp only; omega, by simp only; omega, Or.inl (by simp only; omega)⟩
  | napot =>
    have hones := trailingOnes_le_of_lt ha
    have hle := Nat.div_mul_le_self e.addr.toNat (2 ^ (trailingOnes e.addr + 1))
    have hpos := Nat.two_pow_pos (trailingOnes e.addr + 1)
    simp only [hm, Option.some.injEq] at hr
    subst hr
    refine ⟨by simp only; omega, by simp only; omega, ?_⟩
    by_cases hall : trailingOnes e.addr = 30
    · right
      have hzero : e.addr.toNat / 2 ^ 31 = 0 := Nat.div_eq_of_lt (by omega)
      simp only [hall, hzero]
      norm_num
    · left
      obtain ⟨k, hk⟩ : 2 ^ (trailingOnes e.addr + 1) ∣ 2 ^ 30 :=
        Nat.pow_dvd_pow 2 (by omega)
      have hquot : e.addr.toNat / 2 ^ (trailingOnes e.addr + 1) < k := by
        rw [Nat.div_lt_iff_lt_mul hpos, Nat.mul_comm, ← hk]
        exact ha
      have hend : (e.addr.toNat / 2 ^ (trailingOnes e.addr + 1) + 1) *
          2 ^ (trailingOnes e.addr + 1) ≤ 2 ^ 30 := by
        rw [hk, Nat.mul_comm]
        exact Nat.mul_le_mul_left _ hquot
      rw [Nat.add_mul, Nat.one_mul] at hend
      simp only
      omega

variable {addr size : Word}

/-- The range contains the whole buffer. -/
def Contains (r : ℕ × ℕ) (addr size : Word) : Prop :=
  r.1 ≤ addr.toNat ∧ addr.toNat + size.toNat ≤ r.2

instance (r : ℕ × ℕ) (addr size : Word) : Decidable (Contains r addr size) :=
  inferInstanceAs (Decidable (_ ∧ _))

/-- The comparison is right about the ranges that end inside the word. -/
lemma hold_bounds {r : ℕ × ℕ} (hr : Placed r) (hsize : 0 < size.toNat)
    (hwrap : addr.toNat + size.toNat ≤ 2 ^ 32) :
    (RegionBounds.bounds (BitVec.ofNat 32 r.1) (BitVec.ofNat 32 r.2 - 1)).hold addr size =
      some (decide (Contains r addr size)) := by
  obtain ⟨hstart, hpos, hend⟩ := hr
  have hone : (1 : Word).toNat = 1 := rfl
  have hne : size ≠ 0 := by
    intro h0
    rw [h0] at hsize
    exact absurd hsize (by decide)
  have hsub := toNat_sub_one hsize
  have hlast : (addr + (size - 1)).toNat = addr.toNat + size.toNat - 1 := by
    rw [BitVec.toNat_add, hsub]
    omega
  have htop : (BitVec.ofNat 32 r.2 - 1).toNat = min r.2 (2 ^ 32) - 1 := by
    rw [BitVec.toNat_sub, hone, BitVec.toNat_ofNat]
    omega
  rw [RegionBounds.hold, if_neg hne, hsub, if_neg (by omega)]
  congr 1
  rw [decide_eq_decide, ge_iff_le, BitVec.le_def, BitVec.le_def, hlast, htop, BitVec.toNat_ofNat,
    Nat.mod_eq_of_lt hstart, Contains]
  omega

end Decoding

section Walk

variable {cfg : PmpConfig} {st : PmpState} {pmp : KPmp} {addr size : Word} {i : ℕ}

lemma riscvPmpGetUserPmp_eq (h : st.Room cfg) (pmp : KPmp) (hi : i < cfg.slots) :
    riscvPmpGetUserPmp cfg st pmp i =
      some ((combinedTable cfg st pmp i).cfg, (combinedTable cfg st pmp i).addr) := by
  have hmax := maxDynamicRegion_lt_16 h
  rw [riscvPmpGetUserPmp, combinedTable, getNumRegions, if_neg (by omega), ← Nat.cast_one,
    ← Nat.cast_add, uint8_of_lt (by omega)]
  by_cases hdyn : i ≤ maxDynamicRegion cfg st
  · rw [if_neg (by omega), if_pos hdyn]
  · rw [if_pos (by omega), if_neg hdyn, riscvPmpGet_eq cfg st.csrs rv32_packs hi]
    rfl

lemma isInRegion_eq (h : st.Room cfg) (pmp : KPmp) (hi : i < cfg.slots) :
    isInRegion cfg st pmp i addr size = (regionBounds st.csrs i (combinedTable cfg st pmp i).cfg
      (combinedTable cfg st pmp i).addr).hold addr size := by
  rw [isInRegion, riscvPmpGetUserPmp_eq h pmp hi]
  rfl

lemma isUserAccessibleRegion_eq (h : st.Room cfg) (pmp : KPmp) (hi : i < cfg.slots)
    (write : Bool) : isUserAccessibleRegion cfg st pmp i write = true ↔
      (combinedTable cfg st pmp i).cfg.getLsbD (if write then 1 else 0) = true := by
  have hbit : ∀ (c : Byte) (b : ℕ), b < 8 →
      (c &&& BitVec.twoPow 8 b = BitVec.twoPow 8 b ↔ c.getLsbD b = true) := by
    intro c b hb
    rw [BitVec.and_twoPow]
    cases c.getLsbD b with
    | true => simp
    | false =>
      have hne : (0 : Byte) ≠ BitVec.twoPow 8 b := by
        intro h0
        have hb' := congrArg (fun x => BitVec.getLsbD x b) h0
        simp [hb] at hb'
      simpa using hne
  rw [isUserAccessibleRegion, riscvPmpGetUserPmp_eq h pmp hi]
  cases write with
  | false => exact decide_eq_true_iff.trans (hbit _ 0 (by omega))
  | true => exact decide_eq_true_iff.trans (hbit _ 1 (by omega))

/-- Entry `i` is the first that the test of the walk accepts. -/
def Stops (cfg : PmpConfig) (st : PmpState) (pmp : KPmp) (addr size : Word) (i : ℕ) : Prop :=
  isInRegion cfg st pmp i addr size = some true ∧
    ∀ j < i, isInRegion cfg st pmp j addr size = some false

instance : Decidable (Stops cfg st pmp addr size i) := inferInstanceAs (Decidable (_ ∧ _))

lemma Stops.unique {j : ℕ} (hi : Stops cfg st pmp addr size i)
    (hj : Stops cfg st pmp addr size j) : i = j := by
  rcases Nat.lt_trichotomy i j with hlt | heq | hlt
  · have hfalse := hj.2 i hlt
    rw [hi.1] at hfalse
    cases hfalse
  · exact heq
  · have hfalse := hi.2 j hlt
    rw [hj.1] at hfalse
    cases hfalse

/-- What an entry makes of the walk: a result, or none to go on. -/
def walkAnswer (cfg : PmpConfig) (st : PmpState) (pmp : KPmp) (addr size : Word) (write : Bool)
    (index : ℕ) : Option (Option ℤ) :=
  match isInRegion cfg st pmp index addr size with
  | none => some none
  | some false => none
  | some true => some (some (if isUserAccessibleRegion cfg st pmp index write then 0 else -1))

lemma walkAnswer_eq_none_iff (write : Bool) (j : ℕ) :
    walkAnswer cfg st pmp addr size write j = none ↔
      isInRegion cfg st pmp j addr size = some false := by
  rw [walkAnswer]
  split
  · next hin => simp [hin]
  · next hin => simp [hin]
  · next hin => simp [hin]

lemma walkAnswer_eq_zero_iff (write : Bool) (j : ℕ) :
    walkAnswer cfg st pmp addr size write j = some (some 0) ↔
      isInRegion cfg st pmp j addr size = some true ∧
        isUserAccessibleRegion cfg st pmp j write = true := by
  rw [walkAnswer]
  split
  · next hin => simp [hin]
  · next hin => simp [hin]
  · next hin => simp [hin]

/-- The loop takes the first answer. -/
lemma archBufferValidateFrom_eq (write : Bool) (i n : ℕ) :
    archBufferValidateFrom cfg st pmp addr size write i n =
      (firstSome (walkAnswer cfg st pmp addr size write) i n).getD (some (-1)) := by
  induction n generalizing i with
  | zero => rfl
  | succ n ih =>
    rw [archBufferValidateFrom, firstSome_succ, walkAnswer]
    cases isInRegion cfg st pmp i addr size with
    | none => rfl
    | some accepts =>
      cases accepts with
      | false => exact ih (i + 1)
      | true => rfl

lemma archBufferValidateFrom_eq_zero_iff (write : Bool) (i n : ℕ) :
    archBufferValidateFrom cfg st pmp addr size write i n = some 0 ↔
      ∃ j, i ≤ j ∧ j < i + n ∧ isInRegion cfg st pmp j addr size = some true ∧
        (∀ k, i ≤ k → k < j → isInRegion cfg st pmp k addr size = some false) ∧
        isUserAccessibleRegion cfg st pmp j write = true := by
  have hfound (found : Option (Option ℤ)) :
      found.getD (some (-1)) = some 0 ↔ found = some (some 0) := by
    cases found <;> simp
  rw [archBufferValidateFrom_eq, hfound, firstSome_eq_some_iff]
  simp only [walkAnswer_eq_zero_iff, walkAnswer_eq_none_iff]
  exact exists_congr fun j => by tauto

/-- The walk succeeds at the entry where it stops, if at all. -/
theorem archBufferValidate_eq_zero_iff (write : Bool) :
    archBufferValidate cfg st pmp addr size write = some 0 ↔
      ∃ j < cfg.slots, Stops cfg st pmp addr size j ∧
        isUserAccessibleRegion cfg st pmp j write = true := by
  rw [archBufferValidate, archBufferValidateFrom_eq_zero_iff, getNumRegions]
  constructor
  · intro hfound
    obtain ⟨j, _, hj, hacc, hbefore, hverdict⟩ := hfound
    exact ⟨j, by omega, ⟨hacc, fun k hk => hbefore k (Nat.zero_le k) hk⟩, hverdict⟩
  · intro hfound
    obtain ⟨j, hj, ⟨hacc, hbefore⟩, hverdict⟩ := hfound
    exact ⟨j, Nat.zero_le j, by omega, hacc, fun k _ hk => hbefore k hk, hverdict⟩

end Walk

end WchIotSdk.Pmp
