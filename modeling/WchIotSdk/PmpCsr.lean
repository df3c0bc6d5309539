import Mathlib.Tactic
import Mathlib.Data.BitVec

/-!
# The PMP registers and the functions that access them

The pmpcfg registers pack one configuration byte for each PMP entry, four to a
register on RV32 and eight to every second register on RV64; the address
registers hold one entry each. The functions are generic in the packing and the
word width.

How the hardware takes a write is a parameter of the functions that may meet a
locked entry. Elsewhere the registers are plain storage.
-/
namespace WchIotSdk.Pmp

abbrev Byte := BitVec 8
abbrev Word := BitVec 32

/-- The options of the build: CONFIG_PMP_SLOT, and whether
CONFIG_PMP_POWER_OF_TWO_ALIGNMENT is set. -/
structure PmpConfig where
  slots : ℕ
  powerOfTwo : Bool
  slots_dvd : 4 ∣ slots
  slots_pos : 0 < slots
  slots_le : slots ≤ 16

/-- `PMPCFG_NUM` and `PMPCFG_SHIFT`: how many entries a register holds, and the
distance between two of the registers in use. -/
structure Packing where
  entries : ℕ
  stride : ℕ

def rv32 : Packing := ⟨4, 1⟩
def rv64 : Packing := ⟨8, 2⟩

def pmpcfgNum (p : Packing) (index : ℕ) : ℕ := index / p.entries * p.stride
def pmpcfgShift (p : Packing) (index : ℕ) : ℕ := index % p.entries * 8

/-- The register file, by the enumeration of `core_pmp.c`: CSR_PMPCFG0 to
CSR_PMPCFG3, and from 4 on CSR_PMPADDR0 to CSR_PMPADDR15. -/
abbrev Csrs (w : ℕ) := ℕ → BitVec w

def csrPmpcfg0 : ℕ := 0
def csrPmpaddr0 : ℕ := 4

variable {w : ℕ}

def csrReadEnum (csrs : Csrs w) (pmpCsrEnum : ℕ) : BitVec w :=
  if pmpCsrEnum < 20 then csrs pmpCsrEnum else BitVec.allOnes w

/-- What the registers hold after a write. -/
abbrev CsrWrite (w : ℕ) := Csrs w → ℕ → BitVec w → Csrs w

/-- Plain storage. -/
def csrWriteEnum (csrs : Csrs w) (pmpCsrEnum : ℕ) (value : BitVec w) : Csrs w :=
  if pmpCsrEnum < 20 then Function.update csrs pmpCsrEnum value else csrs

/-- The new registers and the result of `riscv_pmp_set`. -/
def riscvPmpSet (cfg : PmpConfig) (p : Packing) (csrs : Csrs w) (index : ℕ) (cfgVal : Byte)
    (addrVal : BitVec w) : Csrs w × ℤ :=
  if index ≥ cfg.slots then (csrs, -1)
  else
    let shift := pmpcfgShift p index
    let mask := 0xff#w <<< shift
    let regVal := csrReadEnum csrs (csrPmpcfg0 + pmpcfgNum p index)
    let regVal := (regVal &&& ~~~mask) ||| (cfgVal.setWidth w <<< shift)
    (csrWriteEnum (csrWriteEnum csrs (csrPmpaddr0 + index) addrVal)
      (csrPmpcfg0 + pmpcfgNum p index) regVal, 0)

/-- What `riscv_pmp_get` stores through its pointers; nothing for a bad index. -/
def riscvPmpGet (cfg : PmpConfig) (p : Packing) (csrs : Csrs w) (index : ℕ) :
    Option (Byte × BitVec w) :=
  if index ≥ cfg.slots then none
  else
    let shift := pmpcfgShift p index
    let mask := 0xff#w <<< shift
    let regVal := csrReadEnum csrs (csrPmpcfg0 + pmpcfgNum p index)
    some (((regVal &&& mask) >>> shift).setWidth 8, csrReadEnum csrs (csrPmpaddr0 + index))

/-- The variables of the loop of `riscv_pmpcfg_set_range`. -/
structure RangeLoop (w : ℕ) where
  csrs : Csrs w
  cfgMask : BitVec w
  newPmpcfg : BitVec w

/-- One iteration: collect the byte, and at the end of a register or of the
range write what has been collected. -/
def setRangeStepOn (write : CsrWrite w) (p : Packing) (maxIndex : ℕ)
    (u8Pmpcfg : Option (ℕ → Byte)) (s : RangeLoop w) (index : ℕ) : RangeLoop w :=
  let shift := pmpcfgShift p index
  let cfgMask := s.cfgMask ||| (0xff#w <<< shift)
  let newPmpcfg := match u8Pmpcfg with
    | some u8 => s.newPmpcfg ||| ((u8 index).setWidth w <<< shift)
    | none => s.newPmpcfg
  if pmpcfgShift p (index + 1) = 0 ∨ index = maxIndex then
    let pmpcfgCsr := csrPmpcfg0 + pmpcfgNum p index
    if cfgMask = BitVec.allOnes w then ⟨write s.csrs pmpcfgCsr newPmpcfg, 0, 0⟩
    else
      let pmpcfg := csrReadEnum s.csrs pmpcfgCsr
      ⟨write s.csrs pmpcfgCsr ((pmpcfg &&& ~~~cfgMask) ||| (cfgMask &&& newPmpcfg)), 0, 0⟩
  else ⟨s.csrs, cfgMask, newPmpcfg⟩

/-- `none` stands for a NULL array, which clears the range. -/
def riscvPmpcfgSetRangeOn (write : CsrWrite w) (p : Packing) (csrs : Csrs w)
    (minIndex maxIndex : ℕ) (u8Pmpcfg : Option (ℕ → Byte)) : Csrs w :=
  ((List.range' minIndex (maxIndex + 1 - minIndex)).foldl
    (setRangeStepOn write p maxIndex u8Pmpcfg) ⟨csrs, 0, 0⟩).csrs

def riscvPmpcfgSetRange (p : Packing) (csrs : Csrs w) (minIndex maxIndex : ℕ)
    (u8Pmpcfg : Option (ℕ → Byte)) : Csrs w :=
  riscvPmpcfgSetRangeOn csrWriteEnum p csrs minIndex maxIndex u8Pmpcfg

/-- The configuration byte and the address of an entry, as the registers hold
them. -/
def cfgByte (p : Packing) (csrs : Csrs w) (index : ℕ) : Byte :=
  (csrs (pmpcfgNum p index) >>> pmpcfgShift p index).setWidth 8

def addrWord (csrs : Csrs w) (index : ℕ) : BitVec w := csrs (csrPmpaddr0 + index)

/-- The packing fits the word width and the four pmpcfg registers. -/
structure Packs (p : Packing) (w : ℕ) : Prop where
  width : w = 8 * p.entries
  entries_pos : 0 < p.entries
  stride_pos : 0 < p.stride
  num_lt : ∀ i < 16, pmpcfgNum p i < 4

theorem rv32_packs : Packs rv32 32 := ⟨rfl, by decide, by decide, by decide⟩

theorem rv64_packs : Packs rv64 64 := ⟨rfl, by decide, by decide, by decide⟩

section Bits

variable {p : Packing}

lemma getLsbD_ff (b : ℕ) : (0xff#w).getLsbD b = decide (b < w ∧ b < 8) := by
  rw [BitVec.getLsbD_ofNat, show 0xff = 2 ^ 8 - 1 from rfl, Nat.testBit_two_pow_sub_one]
  rw [Bool.decide_and]

/-- The mask of an entry covers the bits of its byte. -/
lemma getLsbD_mask (hp : Packs p w) (index b : ℕ) :
    (0xff#w <<< pmpcfgShift p index).getLsbD b = decide (b < w ∧ b / 8 = index % p.entries) := by
  have hlt := Nat.mod_lt index hp.entries_pos
  have hw := hp.width
  rw [BitVec.getLsbD_shiftLeft, getLsbD_ff, pmpcfgShift, Bool.eq_iff_iff]
  simp only [Bool.and_eq_true, Bool.not_eq_true', decide_eq_true_eq, decide_eq_false_iff_not]
  generalize index % p.entries = q at hlt ⊢
  omega

lemma getLsbD_shifted (hp : Packs p w) (v : Byte) (index b : ℕ) :
    (v.setWidth w <<< pmpcfgShift p index).getLsbD b =
      (decide (b < w ∧ b / 8 = index % p.entries) && v.getLsbD (b % 8)) := by
  have hlt := Nat.mod_lt index hp.entries_pos
  have hw := hp.width
  rw [BitVec.getLsbD_shiftLeft, BitVec.getLsbD_setWidth, pmpcfgShift]
  generalize index % p.entries = q at hlt ⊢
  by_cases hb : b < w ∧ b / 8 = q
  · have hpos : b - q * 8 = b % 8 := by omega
    have hge : ¬ b < q * 8 := by omega
    have hin : b % 8 < w := by omega
    simp [hb.1, hb.2, hpos, hge, hin]
  · rw [decide_eq_false hb, Bool.false_and]
    by_cases hlow : b < q * 8
    · simp [hlow]
    · by_cases hbw : b < w
      · have hout : 8 ≤ b - q * 8 := by omega
        have hzero : v.getLsbD (b - q * 8) = false := BitVec.getLsbD_of_ge v _ hout
        simp [hzero]
      · simp [hbw]

/-- A byte of a register, bit by bit. -/
lemma getLsbD_cfgByte (csrs : Csrs w) (index t : ℕ) (ht : t < 8) :
    (cfgByte p csrs index).getLsbD t =
      (csrs (pmpcfgNum p index)).getLsbD (index % p.entries * 8 + t) := by
  rw [cfgByte, BitVec.getLsbD_setWidth, BitVec.getLsbD_ushiftRight, pmpcfgShift]
  simp [ht]

/-- Entries in one register are told apart by their place in it. -/
lemma pmpcfgNum_eq_iff (hp : Packs p w) (i j : ℕ) :
    pmpcfgNum p i = pmpcfgNum p j ↔ i / p.entries = j / p.entries :=
  Nat.mul_left_inj hp.stride_pos.ne'

/-- Selecting by a mask. -/
lemma getLsbD_select (mask new old : BitVec w) (b : ℕ) :
    ((old &&& ~~~mask) ||| (mask &&& new)).getLsbD b =
      if mask.getLsbD b then new.getLsbD b else old.getLsbD b := by
  rw [BitVec.getLsbD_or, BitVec.getLsbD_and, BitVec.getLsbD_and, BitVec.getLsbD_not]
  by_cases hb : b < w
  · cases mask.getLsbD b <;> simp [hb]
  · have hold : old.getLsbD b = false := BitVec.getLsbD_of_ge old b (by omega)
    have hmask : mask.getLsbD b = false := BitVec.getLsbD_of_ge mask b (by omega)
    simp [hold, hmask]

end Bits

section Access

variable {p : Packing} (cfg : PmpConfig) (csrs : Csrs w)

/-- `riscv_pmp_get` reads the byte and the address of the entry. -/
theorem riscvPmpGet_eq (hp : Packs p w) {index : ℕ} (h : index < cfg.slots) :
    riscvPmpGet cfg p csrs index = some (cfgByte p csrs index, addrWord csrs index) := by
  have hslots := cfg.slots_le
  have hnum := hp.num_lt index (by omega)
  have hcfg : csrReadEnum csrs (csrPmpcfg0 + pmpcfgNum p index) = csrs (pmpcfgNum p index) := by
    rw [csrPmpcfg0, Nat.zero_add, csrReadEnum, if_pos (by omega)]
  have haddr : csrReadEnum csrs (csrPmpaddr0 + index) = addrWord csrs index := by
    rw [csrReadEnum, if_pos (by rw [csrPmpaddr0]; omega), addrWord]
  have hbyte : ((csrs (pmpcfgNum p index) &&& (0xff#w <<< pmpcfgShift p index)) >>>
      pmpcfgShift p index).setWidth 8 = cfgByte p csrs index := by
    apply BitVec.eq_of_getLsbD_eq
    intro t ht
    have hw := hp.width
    have hlt := Nat.mod_lt index hp.entries_pos
    rw [getLsbD_cfgByte _ _ _ ht, BitVec.getLsbD_setWidth, BitVec.getLsbD_ushiftRight,
      BitVec.getLsbD_and, getLsbD_mask hp, pmpcfgShift]
    generalize index % p.entries = q at hlt ⊢
    have hin : q * 8 + t < w ∧ (q * 8 + t) / 8 = q := by omega
    simp [ht, hin.1, hin.2]
  rw [riscvPmpGet, if_neg (by omega)]
  simp only [hcfg, haddr, hbyte]

end Access

section Set

variable {p : Packing}

lemma addrWord_write_cfg (csrs : Csrs w) {e : ℕ} (he : e < 4) (v : BitVec w) (i : ℕ) :
    addrWord (csrWriteEnum csrs e v) i = addrWord csrs i := by
  rw [csrWriteEnum, if_pos (by omega), addrWord, addrWord, csrPmpaddr0,
    Function.update_of_ne (by omega)]

lemma cfgByte_write_addr (hp : Packs p w) (csrs : Csrs w) {i : ℕ} (hi : i < 16) (j : ℕ)
    (v : BitVec w) : cfgByte p (csrWriteEnum csrs (csrPmpaddr0 + j) v) i = cfgByte p csrs i := by
  have hnum := hp.num_lt i hi
  rw [csrWriteEnum]
  split
  · rw [cfgByte, cfgByte, csrPmpaddr0, Function.update_of_ne (by omega)]
  · rfl

/-- `riscv_pmp_set` writes the byte and the address of one entry and leaves
those of all others. -/
theorem riscvPmpSet_cfgByte (cfg : PmpConfig) (hp : Packs p w) (csrs : Csrs w) {index i : ℕ}
    (h : index < cfg.slots) (hi : i < 16) (cfgVal : Byte) (addrVal : BitVec w) :
    cfgByte p (riscvPmpSet cfg p csrs index cfgVal addrVal).1 i =
      if i = index then cfgVal else cfgByte p csrs i := by
  have hslots := cfg.slots_le
  have hnum := hp.num_lt index (by omega)
  have hlt := Nat.mod_lt index hp.entries_pos
  have hlti := Nat.mod_lt i hp.entries_pos
  have hw := hp.width
  rw [riscvPmpSet, if_neg (by omega)]
  simp only [csrPmpcfg0, Nat.zero_add]
  have hold : csrReadEnum csrs (pmpcfgNum p index) = csrs (pmpcfgNum p index) :=
    if_pos (by omega)
  rw [hold, csrWriteEnum, if_pos (by omega)]
  apply BitVec.eq_of_getLsbD_eq
  intro t ht
  rw [getLsbD_cfgByte _ _ _ ht]
  by_cases hreg : pmpcfgNum p i = pmpcfgNum p index
  · rw [hreg, Function.update_self, BitVec.getLsbD_or, BitVec.getLsbD_and, BitVec.getLsbD_not,
      getLsbD_mask hp, getLsbD_shifted hp]
    have hdiv := (pmpcfgNum_eq_iff hp i index).mp hreg
    have hpos : i % p.entries * 8 + t < w := by
      rw [hw]
      generalize i % p.entries = q at hlti ⊢
      omega
    have hbyte : (i % p.entries * 8 + t) / 8 = i % p.entries := by omega
    have hbit : (i % p.entries * 8 + t) % 8 = t := by omega
    have hmod : i % p.entries = index % p.entries ↔ i = index := by
      constructor
      · intro hm
        rw [← Nat.div_add_mod i p.entries, ← Nat.div_add_mod index p.entries, hdiv, hm]
      · rintro rfl
        rfl
    by_cases hii : i = index
    · subst hii
      simp [hpos, hbyte, hbit]
    · have hne : ¬ i % p.entries = index % p.entries := fun hm => hii (hmod.mp hm)
      rw [if_neg hii, getLsbD_cfgByte _ _ _ ht, hreg]
      simp [hpos, hbyte, hne]
  · have hii : i ≠ index := fun hii => hreg (by rw [hii])
    have haddr := cfgByte_write_addr hp csrs hi index addrVal
    rw [Function.update_of_ne hreg, if_neg hii, ← getLsbD_cfgByte _ _ _ ht, haddr]

theorem riscvPmpSet_addrWord (cfg : PmpConfig) (hp : Packs p w) (csrs : Csrs w) {index i : ℕ}
    (h : index < cfg.slots) (cfgVal : Byte) (addrVal : BitVec w) :
    addrWord (riscvPmpSet cfg p csrs index cfgVal addrVal).1 i =
      if i = index then addrVal else addrWord csrs i := by
  have hslots := cfg.slots_le
  have hnum := hp.num_lt index (by omega)
  rw [riscvPmpSet, if_neg (by omega)]
  simp only [csrPmpcfg0, Nat.zero_add]
  rw [addrWord_write_cfg _ hnum, csrWriteEnum, if_pos (by rw [csrPmpaddr0]; omega), addrWord,
    addrWord, Function.update_apply]
  simp only [Nat.add_right_inj]

end Set

section Range

variable {p : Packing}

/-- The bytes of a range: those of the array, or zeros. -/
def rangeByte : Option (ℕ → Byte) → ℕ → Byte
  | some u8, index => u8 index
  | none, _ => 0

/-- Entry `i` lies in the register of entry `j`, inside the range and before `j`:
its byte has been collected and not yet written. -/
def Pending (p : Packing) (minIndex j i : ℕ) : Prop :=
  minIndex ≤ i ∧ i < j ∧ i / p.entries = j / p.entries

instance (p : Packing) (minIndex j i : ℕ) : Decidable (Pending p minIndex j i) :=
  inferInstanceAs (Decidable (_ ∧ _ ∧ _))

/-- The loop before index `j`, not past the end of the range: the registers
before that of `j` are up to date, and the bytes of its own register have been
collected. -/
structure RangeInv (p : Packing) (csrs : Csrs w) (u8Pmpcfg : Option (ℕ → Byte))
    (minIndex j : ℕ) (s : RangeLoop w) : Prop where
  addr : ∀ i, addrWord s.csrs i = addrWord csrs i
  byte : ∀ i < 16, cfgByte p s.csrs i =
    if minIndex ≤ i ∧ i < j ∧ i / p.entries ≠ j / p.entries then rangeByte u8Pmpcfg i
    else cfgByte p csrs i
  mask : ∀ b < w, s.cfgMask.getLsbD b =
    decide (Pending p minIndex j (j / p.entries * p.entries + b / 8))
  new : ∀ b < w, s.newPmpcfg.getLsbD b =
    (decide (Pending p minIndex j (j / p.entries * p.entries + b / 8)) &&
      (rangeByte u8Pmpcfg (j / p.entries * p.entries + b / 8)).getLsbD (b % 8))

lemma not_pending_start (p : Packing) (j i : ℕ) : ¬ Pending p j j i := by
  intro hrange
  obtain ⟨_, _, _⟩ := hrange
  omega

lemma rangeInv_start (csrs : Csrs w) (u8Pmpcfg : Option (ℕ → Byte)) (minIndex : ℕ) :
    RangeInv p csrs u8Pmpcfg minIndex minIndex ⟨csrs, 0, 0⟩ := by
  refine ⟨fun _ => rfl, fun i _ => ?_, fun b _ => ?_, fun b _ => ?_⟩
  · rw [if_neg (by omega)]
  · rw [decide_eq_false (not_pending_start p minIndex _)]
    exact BitVec.getLsbD_zero
  · rw [decide_eq_false (not_pending_start p minIndex _), Bool.false_and]
    exact BitVec.getLsbD_zero

/-- The mask and the bytes after collecting entry `j`. -/
def collectMask (p : Packing) (s : RangeLoop w) (j : ℕ) : BitVec w :=
  s.cfgMask ||| (0xff#w <<< pmpcfgShift p j)

def collectBytes (p : Packing) (u8Pmpcfg : Option (ℕ → Byte)) (s : RangeLoop w) (j : ℕ) :
    BitVec w :=
  s.newPmpcfg ||| ((rangeByte u8Pmpcfg j).setWidth w <<< pmpcfgShift p j)

/-- What an iteration writes, if it writes a register. -/
def flushValue (p : Packing) (u8Pmpcfg : Option (ℕ → Byte)) (s : RangeLoop w) (j : ℕ) :
    BitVec w :=
  if collectMask p s j = BitVec.allOnes w then collectBytes p u8Pmpcfg s j
  else (csrReadEnum s.csrs (csrPmpcfg0 + pmpcfgNum p j) &&& ~~~collectMask p s j) |||
    (collectMask p s j &&& collectBytes p u8Pmpcfg s j)

def flush (p : Packing) (u8Pmpcfg : Option (ℕ → Byte)) (s : RangeLoop w) (j : ℕ) : Csrs w :=
  csrWriteEnum s.csrs (csrPmpcfg0 + pmpcfgNum p j) (flushValue p u8Pmpcfg s j)

/-- An iteration either writes a register or only collects. -/
lemma setRangeStepOn_eq (write : CsrWrite w) (maxIndex : ℕ) (u8Pmpcfg : Option (ℕ → Byte))
    (s : RangeLoop w) (j : ℕ) :
    setRangeStepOn write p maxIndex u8Pmpcfg s j =
      if pmpcfgShift p (j + 1) = 0 ∨ j = maxIndex then
        ⟨write s.csrs (csrPmpcfg0 + pmpcfgNum p j) (flushValue p u8Pmpcfg s j), 0, 0⟩
      else ⟨s.csrs, collectMask p s j, collectBytes p u8Pmpcfg s j⟩ := by
  have hbytes : (match u8Pmpcfg with
      | some u8 => s.newPmpcfg ||| ((u8 j).setWidth w <<< pmpcfgShift p j)
      | none => s.newPmpcfg) = collectBytes p u8Pmpcfg s j := by
    cases u8Pmpcfg with
    | some u8 => rfl
    | none => simp [collectBytes, rangeByte]
  have hmask : s.cfgMask ||| (0xff#w <<< pmpcfgShift p j) = collectMask p s j := rfl
  simp only [setRangeStepOn, hbytes, hmask]
  by_cases hfull : collectMask p s j = BitVec.allOnes w
  · rw [if_pos hfull, flushValue, if_pos hfull]
  · rw [if_neg hfull, flushValue, if_neg hfull]

variable {csrs : Csrs w} {u8Pmpcfg : Option (ℕ → Byte)} {minIndex j : ℕ} {s : RangeLoop w}

lemma place_div (hp : Packs p w) (j : ℕ) {b : ℕ} (hb : b < w) :
    (j / p.entries * p.entries + b / 8) / p.entries = j / p.entries := by
  have hw := hp.width
  have hlt : b / 8 < p.entries := by omega
  rw [Nat.add_comm, Nat.add_mul_div_right _ _ hp.entries_pos, Nat.div_eq_of_lt hlt, Nat.zero_add]

/-- After collecting, the mask covers the entries up to `j` of its register. -/
lemma RangeInv.collectMask (hp : Packs p w) (h : RangeInv p csrs u8Pmpcfg minIndex j s)
    (hj : minIndex ≤ j) {b : ℕ} (hb : b < w) :
    (collectMask p s j).getLsbD b =
      decide (minIndex ≤ j / p.entries * p.entries + b / 8 ∧
        j / p.entries * p.entries + b / 8 ≤ j) := by
  have hsplit := Nat.div_add_mod' j p.entries
  rw [Pmp.collectMask, BitVec.getLsbD_or, h.mask b hb, getLsbD_mask hp, Bool.eq_iff_iff]
  simp only [Bool.or_eq_true, decide_eq_true_eq, Pending, place_div hp j hb, and_true, hb, true_and]
  generalize j / p.entries * p.entries = base at hsplit ⊢
  omega

lemma RangeInv.collectBytes (hp : Packs p w) (h : RangeInv p csrs u8Pmpcfg minIndex j s)
    (hj : minIndex ≤ j) {b : ℕ} (hb : b < w) :
    (collectBytes p u8Pmpcfg s j).getLsbD b =
      (decide (minIndex ≤ j / p.entries * p.entries + b / 8 ∧
        j / p.entries * p.entries + b / 8 ≤ j) &&
        (rangeByte u8Pmpcfg (j / p.entries * p.entries + b / 8)).getLsbD (b % 8)) := by
  have hsplit := Nat.div_add_mod' j p.entries
  rw [Pmp.collectBytes, BitVec.getLsbD_or, h.new b hb, getLsbD_shifted hp]
  simp only [Pending, place_div hp j hb, and_true, hb, true_and]
  by_cases hplace : b / 8 = j % p.entries
  · have hthis : j / p.entries * p.entries + b / 8 = j := by omega
    rw [hthis]
    simp [hplace, hj]
  · rw [decide_eq_false hplace, Bool.false_and, Bool.or_false]
    congr 1
    rw [decide_eq_decide]
    generalize j / p.entries * p.entries = base at hsplit ⊢
    omega

/-- The register that is written takes the collected bits under the mask. A full
mask is the case in which no old bit is kept. -/
lemma getLsbD_flushValue (hp : Packs p w) (hj16 : j < 16) {b : ℕ} (hb : b < w) :
    (flushValue p u8Pmpcfg s j).getLsbD b =
      if (collectMask p s j).getLsbD b then (collectBytes p u8Pmpcfg s j).getLsbD b
      else (s.csrs (pmpcfgNum p j)).getLsbD b := by
  have hnum := hp.num_lt j hj16
  have hread : csrReadEnum s.csrs (csrPmpcfg0 + pmpcfgNum p j) = s.csrs (pmpcfgNum p j) := by
    rw [csrPmpcfg0, Nat.zero_add, csrReadEnum, if_pos (by omega)]
  rw [flushValue, hread]
  split
  · next hfull =>
    rw [hfull, BitVec.getLsbD_allOnes, decide_eq_true hb, if_pos rfl]
  · exact getLsbD_select _ _ _ _

lemma flush_self (hp : Packs p w) (hj16 : j < 16) :
    flush p u8Pmpcfg s j (pmpcfgNum p j) = flushValue p u8Pmpcfg s j := by
  have hnum := hp.num_lt j hj16
  rw [flush, csrWriteEnum, if_pos (by rw [csrPmpcfg0]; omega), csrPmpcfg0, Nat.zero_add,
    Function.update_self]

/-- The entries of other registers keep their bytes. -/
lemma cfgByte_flush_of_ne (hp : Packs p w) (hj16 : j < 16) {i : ℕ}
    (hreg : pmpcfgNum p i ≠ pmpcfgNum p j) :
    cfgByte p (flush p u8Pmpcfg s j) i = cfgByte p s.csrs i := by
  have hnum := hp.num_lt j hj16
  rw [flush, csrWriteEnum, if_pos (by rw [csrPmpcfg0]; omega), csrPmpcfg0, Nat.zero_add, cfgByte,
    Function.update_of_ne hreg, cfgByte]

/-- Writing the register of `j` brings all bytes up to `j` up to date. -/
lemma RangeInv.flush (hp : Packs p w) (h : RangeInv p csrs u8Pmpcfg minIndex j s)
    (hj : minIndex ≤ j) (hj16 : j < 16) {i : ℕ} (hi : i < 16) :
    cfgByte p (flush p u8Pmpcfg s j) i =
      if minIndex ≤ i ∧ i ≤ j then rangeByte u8Pmpcfg i else cfgByte p csrs i := by
  have hw := hp.width
  by_cases hreg : pmpcfgNum p i = pmpcfgNum p j
  · have hdiv := (pmpcfgNum_eq_iff hp i j).mp hreg
    have hlt := Nat.mod_lt i hp.entries_pos
    apply BitVec.eq_of_getLsbD_eq
    intro t ht
    have hb : i % p.entries * 8 + t < w := by
      rw [hw]
      generalize i % p.entries = q at hlt ⊢
      omega
    have hplace : j / p.entries * p.entries + (i % p.entries * 8 + t) / 8 = i := by
      have hsplit := Nat.div_add_mod' i p.entries
      rw [← hdiv]
      omega
    have hbit : (i % p.entries * 8 + t) % 8 = t := by omega
    have hmask := h.collectMask hp hj hb
    have hbytes := h.collectBytes hp hj hb
    rw [hplace] at hmask
    rw [hplace, hbit] at hbytes
    have hold := h.byte i hi
    rw [if_neg (fun hc => hc.2.2 hdiv)] at hold
    rw [getLsbD_cfgByte _ _ _ ht, hreg, flush_self hp hj16, getLsbD_flushValue hp hj16 hb, hmask, hbytes, ← hreg,
      ← getLsbD_cfgByte s.csrs i t ht, hold]
    by_cases hin : minIndex ≤ i ∧ i ≤ j
    · rw [if_pos hin, decide_eq_true hin, if_pos rfl, Bool.true_and]
    · rw [if_neg hin, decide_eq_false hin]
      rfl
  · have hdiv : i / p.entries ≠ j / p.entries := fun hd =>
      hreg ((pmpcfgNum_eq_iff hp i j).mpr hd)
    have hne : i ≠ j := fun hij => hdiv (by rw [hij])
    rw [cfgByte_flush_of_ne hp hj16 hreg, h.byte i hi]
    congr 1
    rw [eq_iff_iff]
    constructor
    · intro hrange
      obtain ⟨hmin, hlt, _⟩ := hrange
      exact ⟨hmin, hlt.le⟩
    · intro hrange
      obtain ⟨hmin, hle⟩ := hrange
      exact ⟨hmin, lt_of_le_of_ne hle hne, hdiv⟩

lemma addrWord_flush (hp : Packs p w) (hj16 : j < 16) (i : ℕ) :
    addrWord (flush p u8Pmpcfg s j) i = addrWord s.csrs i := by
  have hnum := hp.num_lt j hj16
  exact addrWord_write_cfg _ (by rw [csrPmpcfg0]; omega) _ _

/-- The next entry opens a new register, for which nothing is collected yet. -/
lemma RangeInv.step_next (hp : Packs p w) (h : RangeInv p csrs u8Pmpcfg minIndex j s)
    (hj : minIndex ≤ j) (hj16 : j < 16) (hend : (j + 1) % p.entries = 0) :
    RangeInv p csrs u8Pmpcfg minIndex (j + 1) ⟨Pmp.flush p u8Pmpcfg s j, 0, 0⟩ := by
  have hnext := Nat.div_add_mod' (j + 1) p.entries
  rw [hend, Nat.add_zero] at hnext
  have hdivlt {i : ℕ} (hi : i < j + 1) : i / p.entries ≠ (j + 1) / p.entries := by
    intro hd
    have hle := Nat.div_mul_le_self i p.entries
    rw [hd] at hle
    omega
  have hnone (b : ℕ) : ¬ Pending p minIndex (j + 1) ((j + 1) / p.entries * p.entries + b / 8) := by
    intro hrange
    obtain ⟨_, hlt, _⟩ := hrange
    omega
  refine ⟨fun i => ?_, fun i hi => ?_, fun b _ => ?_, fun b _ => ?_⟩
  · rw [addrWord_flush hp hj16, h.addr]
  · rw [h.flush hp hj hj16 hi]
    congr 1
    rw [eq_iff_iff]
    constructor
    · intro hrange
      obtain ⟨hmin, hle⟩ := hrange
      exact ⟨hmin, by omega, hdivlt (by omega)⟩
    · intro hrange
      obtain ⟨hmin, hlt, _⟩ := hrange
      exact ⟨hmin, by omega⟩
  · rw [decide_eq_false (hnone b)]
    exact BitVec.getLsbD_zero
  · rw [decide_eq_false (hnone b), Bool.false_and]
    exact BitVec.getLsbD_zero

/-- The next entry lies in the same register. -/
lemma RangeInv.step_same (hp : Packs p w) (h : RangeInv p csrs u8Pmpcfg minIndex j s)
    (hj : minIndex ≤ j) (hsame : (j + 1) / p.entries = j / p.entries) :
    RangeInv p csrs u8Pmpcfg minIndex (j + 1)
      ⟨s.csrs, Pmp.collectMask p s j, Pmp.collectBytes p u8Pmpcfg s j⟩ := by
  refine ⟨h.addr, fun i hi => ?_, fun b hb => ?_, fun b hb => ?_⟩
  · rw [h.byte i hi, hsame]
    congr 1
    rw [eq_iff_iff]
    constructor
    · intro hrange
      obtain ⟨hmin, hlt, hd⟩ := hrange
      exact ⟨hmin, by omega, hd⟩
    · intro hrange
      obtain ⟨hmin, hlt, hd⟩ := hrange
      refine ⟨hmin, ?_, hd⟩
      by_contra hge
      exact hd (by rw [show i = j by omega])
  · simp only [h.collectMask hp hj hb, Pending, hsame, place_div hp j hb, and_true,
      Nat.lt_succ_iff]
  · simp only [h.collectBytes hp hj hb, Pending, hsame, place_div hp j hb, and_true,
      Nat.lt_succ_iff]

/-- Every iteration before the last keeps the invariant. -/
theorem RangeInv.step (hp : Packs p w) (h : RangeInv p csrs u8Pmpcfg minIndex j s)
    (hj : minIndex ≤ j) {maxIndex : ℕ} (hmax : j < maxIndex) (hj16 : j < 16) :
    RangeInv p csrs u8Pmpcfg minIndex (j + 1)
      (setRangeStepOn csrWriteEnum p maxIndex u8Pmpcfg s j) := by
  have hne : j ≠ maxIndex := hmax.ne
  rw [setRangeStepOn_eq]
  by_cases hend : pmpcfgShift p (j + 1) = 0
  · have haligned : (j + 1) % p.entries = 0 := by
      rw [pmpcfgShift] at hend
      omega
    rw [if_pos (Or.inl hend)]
    exact h.step_next hp hj hj16 haligned
  · have hsame : (j + 1) / p.entries = j / p.entries := by
      have hnz : (j + 1) % p.entries ≠ 0 := by
        rw [pmpcfgShift] at hend
        omega
      rw [Nat.succ_div, if_neg (fun hd => hnz (Nat.mod_eq_zero_of_dvd hd)), Nat.add_zero]
    rw [if_neg (by tauto)]
    exact h.step_same hp hj hsame

/-- The loop up to the last index, as long as there are registers to write. -/
lemma rangeInv_foldl (hp : Packs p w) (csrs : Csrs w) (u8Pmpcfg : Option (ℕ → Byte))
    {minIndex maxIndex n : ℕ} (hn : minIndex + n ≤ maxIndex) (hn16 : minIndex + n ≤ 16) :
    RangeInv p csrs u8Pmpcfg minIndex (minIndex + n)
      ((List.range' minIndex n).foldl (setRangeStepOn csrWriteEnum p maxIndex u8Pmpcfg)
        ⟨csrs, 0, 0⟩) := by
  induction n with
  | zero => exact rangeInv_start csrs u8Pmpcfg minIndex
  | succ n ih =>
    have hprev := ih (by omega) (by omega)
    rw [List.range'_concat, List.foldl_append, Nat.one_mul]
    exact hprev.step hp (Nat.le_add_right _ _) (by omega) (by omega)

/-- The last iteration writes what the ones before have collected. -/
lemma setRange_of_le (hp : Packs p w) (csrs : Csrs w) {minIndex maxIndex : ℕ}
    (hle : minIndex ≤ maxIndex) (hmax16 : maxIndex < 16) (u8Pmpcfg : Option (ℕ → Byte)) :
    ∃ s, RangeInv p csrs u8Pmpcfg minIndex maxIndex s ∧
      riscvPmpcfgSetRange p csrs minIndex maxIndex u8Pmpcfg = flush p u8Pmpcfg s maxIndex := by
  obtain ⟨n, rfl⟩ := Nat.exists_eq_add_of_le hle
  have hcount : minIndex + n + 1 - minIndex = n + 1 := by omega
  refine ⟨_, rangeInv_foldl hp csrs u8Pmpcfg (le_refl (minIndex + n)) hmax16.le, ?_⟩
  rw [riscvPmpcfgSetRange, riscvPmpcfgSetRangeOn, hcount, List.range'_concat,
    List.foldl_append, Nat.one_mul, List.foldl_cons, List.foldl_nil, setRangeStepOn_eq,
    if_pos (Or.inr rfl)]
  rfl

lemma setRangeOn_of_lt (write : CsrWrite w) (csrs : Csrs w) {minIndex maxIndex : ℕ}
    (hlt : maxIndex < minIndex) (u8Pmpcfg : Option (ℕ → Byte)) :
    riscvPmpcfgSetRangeOn write p csrs minIndex maxIndex u8Pmpcfg = csrs := by
  have hcount : maxIndex + 1 - minIndex = 0 := by omega
  rw [riscvPmpcfgSetRangeOn, hcount]
  rfl

/-- `riscv_pmpcfg_set_range` sets the bytes of the range and no others. -/
theorem riscvPmpcfgSetRange_cfgByte (hp : Packs p w) (csrs : Csrs w) (minIndex : ℕ)
    {maxIndex i : ℕ} (hmax16 : maxIndex < 16) (hi : i < 16) (u8Pmpcfg : Option (ℕ → Byte)) :
    cfgByte p (riscvPmpcfgSetRange p csrs minIndex maxIndex u8Pmpcfg) i =
      if minIndex ≤ i ∧ i ≤ maxIndex then rangeByte u8Pmpcfg i else cfgByte p csrs i := by
  by_cases hle : minIndex ≤ maxIndex
  · obtain ⟨s, hinv, hlast⟩ := setRange_of_le hp csrs hle hmax16 u8Pmpcfg
    rw [hlast]
    exact hinv.flush hp hle hmax16 hi
  · rw [riscvPmpcfgSetRange, setRangeOn_of_lt _ csrs (not_le.mp hle), if_neg (by omega)]

/-- It leaves the address registers alone. -/
theorem riscvPmpcfgSetRange_addrWord (hp : Packs p w) (csrs : Csrs w) (minIndex : ℕ)
    {maxIndex : ℕ} (hmax16 : maxIndex < 16) (i : ℕ) (u8Pmpcfg : Option (ℕ → Byte)) :
    addrWord (riscvPmpcfgSetRange p csrs minIndex maxIndex u8Pmpcfg) i = addrWord csrs i := by
  by_cases hle : minIndex ≤ maxIndex
  · obtain ⟨s, hinv, hlast⟩ := setRange_of_le hp csrs hle hmax16 u8Pmpcfg
    rw [hlast, addrWord_flush hp hmax16, hinv.addr]
  · rw [riscvPmpcfgSetRange, setRangeOn_of_lt _ csrs (not_le.mp hle)]

end Range

end WchIotSdk.Pmp
