import WchIotSdk.PmpSoundness

/-!
# Range updates and the static entries

A range update sets the bytes of its range and no others, for both packings of
the registers. Clearing and loading update the dynamic range, of which the last
index is computed on `uint8_t`: it lies before the static entries as long as these
and the MPRV entries leave a dynamic one. When they fill the table it wraps around
to 255, which the counter of the loop that copies the addresses never passes.

Static entries are locked. What the hardware does with a write is any function that
reaches no other register and takes each bit or leaves it.
-/
namespace WchIotSdk.Pmp

/-- Registers that take the bits of a write or ignore them. -/
structure Hardware (w : ℕ) where
  write : CsrWrite w
  other : ∀ csrs e value e', e' ≠ e → write csrs e value e' = csrs e'
  bit : ∀ csrs e value b, (write csrs e value e).getLsbD b = value.getLsbD b ∨
    (write csrs e value e).getLsbD b = (csrs e).getLsbD b

section Lock

variable {w : ℕ}

/-- PMP_L of an entry. -/
def locked (p : Packing) (csrs : Csrs w) (i : ℕ) : Bool := (cfgByte p csrs i).getLsbD 7

/-- The bits of a configuration register that belong to locked entries. -/
def lockedBits (old : BitVec w) : BitVec w :=
  BitVec.ofNat w (Nat.ofBits fun b : Fin w => old.getLsbD (b / 8 * 8 + 7))

/-- The address of an entry is locked with it, and with the range that it is the
base of. -/
def addrLocked (p : Packing) (csrs : Csrs w) (i : ℕ) : Bool :=
  locked p csrs i || decide (i + 1 < 16) && locked p csrs (i + 1) &&
    cfgByte p csrs (i + 1) &&& pmpTypeMask == pmpTor

/-- A write leaves locked entries as they are. -/
def csrWriteLocked (p : Packing) : CsrWrite w := fun csrs e value =>
  if e < csrPmpaddr0 then
    let kept := lockedBits (csrs e)
    Function.update csrs e ((value &&& ~~~kept) ||| (kept &&& csrs e))
  else if e < 20 ∧ addrLocked p csrs (e - csrPmpaddr0) = false then
    Function.update csrs e value
  else csrs

def plainStorage (w : ℕ) : Hardware w where
  write := csrWriteEnum
  other csrs e value e' he := by
    rw [csrWriteEnum]
    split
    · exact Function.update_of_ne he _ _
    · rfl
  bit csrs e value b := by
    rw [csrWriteEnum]
    split
    · rw [Function.update_self]
      exact Or.inl rfl
    · exact Or.inr rfl

def lockedStorage (p : Packing) (w : ℕ) : Hardware w where
  write := csrWriteLocked p
  other csrs e value e' he := by
    rw [csrWriteLocked]
    split_ifs
    · exact Function.update_of_ne he _ _
    · exact Function.update_of_ne he _ _
    · rfl
  bit csrs e value b := by
    rw [csrWriteLocked]
    split_ifs
    · simp only [Function.update_self, getLsbD_select]
      split
      · exact Or.inr rfl
      · exact Or.inl rfl
    · rw [Function.update_self]
      exact Or.inl rfl
    · exact Or.inr rfl

end Lock

section Frame

variable {w : ℕ} {p : Packing} (hardware : Hardware w)

/-- An entry whose byte is written back keeps it. -/
lemma Hardware.cfgByte_write {csrs : Csrs w} {e : ℕ} {value : BitVec w} {i : ℕ}
    (h : pmpcfgNum p i = e → ∀ t < 8, value.getLsbD (i % p.entries * 8 + t) =
      (csrs e).getLsbD (i % p.entries * 8 + t)) :
    cfgByte p (hardware.write csrs e value) i = cfgByte p csrs i := by
  apply BitVec.eq_of_getLsbD_eq
  intro t ht
  rw [getLsbD_cfgByte _ _ _ ht, getLsbD_cfgByte _ _ _ ht]
  by_cases he : pmpcfgNum p i = e
  · subst he
    rcases hardware.bit csrs (pmpcfgNum p i) value (i % p.entries * 8 + t) with hnew | hold
    · rw [hnew, h rfl t ht]
    · exact hold
  · rw [hardware.other csrs e value _ he]

lemma Hardware.addrWord_write (csrs : Csrs w) {e i : ℕ} (he : e ≠ csrPmpaddr0 + i)
    (value : BitVec w) : addrWord (hardware.write csrs e value) i = addrWord csrs i :=
  hardware.other csrs e value _ he.symm

/-- The loop on the hardware beside that on plain storage: it has collected the same
mask, and has left the bytes outside the range and the addresses alone. -/
structure FrameInv (p : Packing) (csrs : Csrs w) (u8Pmpcfg : Option (ℕ → Byte))
    (minIndex j : ℕ) (plain s : RangeLoop w) : Prop where
  range : RangeInv p csrs u8Pmpcfg minIndex j plain
  mask : s.cfgMask = plain.cfgMask
  addr : ∀ i, addrWord s.csrs i = addrWord csrs i
  byte : ∀ i < 16, ¬ (minIndex ≤ i ∧ i < j) → cfgByte p s.csrs i = cfgByte p csrs i

variable {csrs : Csrs w} {u8Pmpcfg : Option (ℕ → Byte)} {minIndex maxIndex j : ℕ}
  {plain s : RangeLoop w}

lemma FrameInv.collectMask (h : FrameInv p csrs u8Pmpcfg minIndex j plain s) :
    collectMask p s j = collectMask p plain j := by
  rw [Pmp.collectMask, h.mask, Pmp.collectMask]

/-- The write of iteration `j` repeats the bytes outside the range. -/
lemma FrameInv.cfgByte_write (hp : Packs p w) (h : FrameInv p csrs u8Pmpcfg minIndex j plain s)
    (hj : minIndex ≤ j) (hj16 : j < 16) {i : ℕ} (hi : i < 16)
    (hout : ¬ (minIndex ≤ i ∧ i < j + 1)) :
    cfgByte p (hardware.write s.csrs (csrPmpcfg0 + pmpcfgNum p j) (flushValue p u8Pmpcfg s j)) i =
      cfgByte p csrs i := by
  rw [← h.byte i hi (by omega)]
  refine hardware.cfgByte_write fun hreg t ht => ?_
  rw [csrPmpcfg0, Nat.zero_add] at hreg ⊢
  have hw := hp.width
  have hdiv := (pmpcfgNum_eq_iff hp i j).mp hreg
  have hlt := Nat.mod_lt i hp.entries_pos
  have hb : i % p.entries * 8 + t < w := by
    rw [hw]
    generalize i % p.entries = q at hlt ⊢
    omega
  have hplace : j / p.entries * p.entries + (i % p.entries * 8 + t) / 8 = i := by
    have hsplit := Nat.div_add_mod' i p.entries
    rw [← hdiv]
    omega
  rw [getLsbD_flushValue hp hj16 hb, h.collectMask, h.range.collectMask hp hj hb, hplace, if_neg]
  rw [decide_eq_true_eq]
  omega

lemma FrameInv.addrWord_write (hp : Packs p w) (h : FrameInv p csrs u8Pmpcfg minIndex j plain s)
    (hj16 : j < 16) (i : ℕ) :
    addrWord (hardware.write s.csrs (csrPmpcfg0 + pmpcfgNum p j) (flushValue p u8Pmpcfg s j)) i =
      addrWord csrs i := by
  have hnum := hp.num_lt j hj16
  rw [hardware.addrWord_write _ (by rw [csrPmpcfg0, csrPmpaddr0]; omega), h.addr]

lemma FrameInv.step (hp : Packs p w) (h : FrameInv p csrs u8Pmpcfg minIndex j plain s)
    (hj : minIndex ≤ j) (hmax : j < maxIndex) (hj16 : j < 16) :
    FrameInv p csrs u8Pmpcfg minIndex (j + 1)
      (setRangeStepOn csrWriteEnum p maxIndex u8Pmpcfg plain j)
      (setRangeStepOn hardware.write p maxIndex u8Pmpcfg s j) := by
  have hplain := h.range.step hp hj hmax hj16
  rw [setRangeStepOn_eq] at hplain ⊢
  rw [setRangeStepOn_eq]
  split_ifs at hplain ⊢
  · exact ⟨hplain, rfl, h.addrWord_write hardware hp hj16, fun i hi =>
      h.cfgByte_write hardware hp hj hj16 hi⟩
  · exact ⟨hplain, h.collectMask, h.addr, fun i hi hout =>
      h.byte i hi (by omega)⟩

lemma frameInv_foldl (hp : Packs p w) (csrs : Csrs w) (u8Pmpcfg : Option (ℕ → Byte)) {n : ℕ}
    (hn : minIndex + n ≤ maxIndex) (hn16 : minIndex + n ≤ 16) :
    FrameInv p csrs u8Pmpcfg minIndex (minIndex + n)
      ((List.range' minIndex n).foldl (setRangeStepOn csrWriteEnum p maxIndex u8Pmpcfg)
        ⟨csrs, 0, 0⟩)
      ((List.range' minIndex n).foldl (setRangeStepOn hardware.write p maxIndex u8Pmpcfg)
        ⟨csrs, 0, 0⟩) := by
  induction n with
  | zero => exact ⟨rangeInv_start csrs u8Pmpcfg minIndex, rfl, fun _ => rfl, fun _ _ _ => rfl⟩
  | succ n ih =>
    have hprev := ih (by omega) (by omega)
    rw [List.range'_concat, List.foldl_append, List.foldl_append, Nat.one_mul]
    have hlt : minIndex + n < maxIndex := by omega
    have hlt16 : minIndex + n < 16 := by omega
    exact hprev.step hardware hp (Nat.le_add_right _ _) hlt hlt16

/-- Whatever the hardware ignores, a range update leaves the bytes outside its range and
the addresses alone. -/
theorem riscvPmpcfgSetRangeOn_frame (hp : Packs p w) (csrs : Csrs w) (minIndex : ℕ)
    (hmax16 : maxIndex < 16) (u8Pmpcfg : Option (ℕ → Byte)) :
    (∀ i, addrWord (riscvPmpcfgSetRangeOn hardware.write p csrs minIndex maxIndex u8Pmpcfg) i =
      addrWord csrs i) ∧
    ∀ i < 16, ¬ (minIndex ≤ i ∧ i ≤ maxIndex) →
      cfgByte p (riscvPmpcfgSetRangeOn hardware.write p csrs minIndex maxIndex u8Pmpcfg) i =
        cfgByte p csrs i := by
  by_cases hle : minIndex ≤ maxIndex
  · obtain ⟨n, rfl⟩ := Nat.exists_eq_add_of_le hle
    have hinv := frameInv_foldl hardware hp csrs u8Pmpcfg (le_refl (minIndex + n)) hmax16.le
    have hcount : minIndex + n + 1 - minIndex = n + 1 := by omega
    rw [riscvPmpcfgSetRangeOn, hcount, List.range'_concat, List.foldl_append, Nat.one_mul,
      List.foldl_cons, List.foldl_nil, setRangeStepOn_eq, if_pos (Or.inr rfl)]
    exact ⟨hinv.addrWord_write hardware hp hmax16, fun i hi hout =>
      hinv.cfgByte_write hardware hp hle hmax16 hi (by omega)⟩
  · rw [setRangeOn_of_lt _ csrs (not_le.mp hle)]
    exact ⟨fun _ => rfl, fun _ _ _ => rfl⟩

lemma copyAddressesOn_addrWord (csrs : Csrs w) (u : ℕ → BitVec w) {n i : ℕ} (hi : n ≤ i) :
    addrWord (copyAddressesOn hardware.write csrs u n) i = addrWord csrs i := by
  induction n with
  | zero => rfl
  | succ n ih =>
    rw [copyAddressesOn_succ, hardware.addrWord_write _ (by omega), ih (by omega)]

lemma copyAddressesOn_cfgByte (hp : Packs p w) (csrs : Csrs w) (u : ℕ → BitVec w) (n : ℕ) {i : ℕ}
    (hi : i < 16) :
    cfgByte p (copyAddressesOn hardware.write csrs u n) i = cfgByte p csrs i := by
  have hnum := hp.num_lt i hi
  induction n with
  | zero => rfl
  | succ n ih =>
    rw [copyAddressesOn_succ, hardware.cfgByte_write (fun hreg => ?_), ih]
    rw [csrPmpaddr0] at hreg
    omega

end Frame

section Static

variable {w : ℕ} {p : Packing} {cfg : PmpConfig} {st : PmpState}

/-- The entries of static regions, which end where the MPRV entries begin. -/
def PmpState.Static (cfg : PmpConfig) (st : PmpState) (i : ℕ) : Prop :=
  i + st.mprvRegionsNum < cfg.slots ∧ cfg.slots ≤ i + st.mprvRegionsNum + st.staticRegionsNum

/-- Entry `i` has the same byte and address in both. -/
def SameEntry (p : Packing) (csrs csrs' : Csrs w) (i : ℕ) : Prop :=
  cfgByte p csrs' i = cfgByte p csrs i ∧ addrWord csrs' i = addrWord csrs i

/-- Numbers of static and MPRV slots that the table has room for. -/
structure SlotNumbers (cfg : PmpConfig) where
  staticRegionsNum : ℕ
  mprvRegionsNum : ℕ
  fits : staticRegionsNum + mprvRegionsNum ≤ cfg.slots

/-- The static variables with these numbers. -/
def SlotNumbers.state (slots : SlotNumbers cfg) : PmpState :=
  ⟨fun _ => 0, slots.staticRegionsNum, slots.mprvRegionsNum⟩

/-- The update of a range sets its bytes and no others; an empty one writes
nothing. -/
def RangeUpdate (cfg : PmpConfig) (p : Packing) (w : ℕ) : Prop :=
  ∀ (csrs : Csrs w) (minIndex maxIndex : ℕ) (u8Pmpcfg : Option (ℕ → Byte)),
    (minIndex ≤ maxIndex → maxIndex < cfg.slots → ∀ i < cfg.slots,
      cfgByte p (riscvPmpcfgSetRange p csrs minIndex maxIndex u8Pmpcfg) i =
        if minIndex ≤ i ∧ i ≤ maxIndex then rangeByte u8Pmpcfg i else cfgByte p csrs i) ∧
    (maxIndex < minIndex → riscvPmpcfgSetRange p csrs minIndex maxIndex u8Pmpcfg = csrs)

/-- On the hardware, clearing leaves each static entry intact, and loading any context
returns and does so too. -/
def KeepsStatic (hardware : Hardware w) (cfg : PmpConfig) (p : Packing) (st : PmpState) : Prop :=
  ∀ (csrs : Csrs w) (uPmpcfg : ℕ → Byte) (uPmpaddr : ℕ → BitVec w), ∃ rounds csrs',
    loadRegistersOn hardware.write cfg p st uPmpcfg uPmpaddr rounds csrs = some csrs' ∧
    ∀ i, st.Static cfg i →
      SameEntry p csrs (clearRegistersOn hardware.write cfg p st csrs) i ∧ SameEntry p csrs csrs' i

theorem rangeUpdate (hp : Packs p w) (cfg : PmpConfig) : RangeUpdate cfg p w := by
  have hslots := cfg.slots_le
  intro csrs minIndex maxIndex u8Pmpcfg
  constructor
  · intro _ hmax i hi
    exact riscvPmpcfgSetRange_cfgByte hp csrs minIndex (by omega) (by omega) u8Pmpcfg
  · intro hempty
    exact setRangeOn_of_lt _ csrs hempty u8Pmpcfg

lemma static_of_room (h : st.Room cfg) {i : ℕ} (hi : st.Static cfg i) :
    maxDynamicRegion cfg st < i ∧ i ≤ maxDynamicRegion cfg st + st.staticRegionsNum ∧
      i < cfg.slots := by
  have hmax := maxDynamicRegion_eq h
  obtain ⟨hlt, hge⟩ := hi
  omega

/-- Two range updates on either side of a static entry. -/
lemma clearRegistersOn_static (hardware : Hardware w) (hp : Packs p w) (h : st.Room cfg)
    (csrs : Csrs w) {i : ℕ} (hi : st.Static cfg i) :
    SameEntry p csrs (clearRegistersOn hardware.write cfg p st csrs) i := by
  have hmax := maxDynamicRegion_lt_16 h
  have hslots := cfg.slots_le
  obtain ⟨hlow, hhigh, hlt⟩ := static_of_room h hi
  have hdynamic := riscvPmpcfgSetRangeOn_frame hardware hp csrs 0 hmax none
  have hmprv := riscvPmpcfgSetRangeOn_frame hardware hp
    (riscvPmpcfgSetRangeOn hardware.write p csrs 0 (maxDynamicRegion cfg st) none)
    (uint8 ((getNumRegions cfg : ℤ) - st.mprvRegionsNum)) (getNumRegions_lt cfg) none
  rw [mprvIndex_eq h] at hmprv
  rw [clearRegistersOn, mprvIndex_eq h]
  constructor
  · rw [hmprv.2 i (by omega) (by omega), hdynamic.2 i (by omega) (by omega)]
  · rw [hmprv.1, hdynamic.1]

/-- What loading leaves behind, when it returns. -/
lemma loadedOn_static (hardware : Hardware w) (hp : Packs p w) (h : st.Room cfg) (csrs : Csrs w)
    {i : ℕ} (hi : st.Static cfg i) (uPmpcfg : ℕ → Byte) (uPmpaddr : ℕ → BitVec w) :
    SameEntry p csrs (riscvPmpcfgSetRangeOn hardware.write p
      (copyAddressesOn hardware.write (clearRegistersOn hardware.write cfg p st csrs) uPmpaddr
        (maxDynamicRegion cfg st + 1)) 0 (maxDynamicRegion cfg st) (some uPmpcfg)) i := by
  have hmax := maxDynamicRegion_lt_16 h
  have hslots := cfg.slots_le
  obtain ⟨hlow, -, hlt⟩ := static_of_room h hi
  have hclear := clearRegistersOn_static hardware hp h csrs hi
  have hset := riscvPmpcfgSetRangeOn_frame hardware hp
    (copyAddressesOn hardware.write (clearRegistersOn hardware.write cfg p st csrs) uPmpaddr
      (maxDynamicRegion cfg st + 1)) 0 hmax (some uPmpcfg)
  constructor
  · rw [hset.2 i (by omega) (by omega), copyAddressesOn_cfgByte hardware hp _ _ _ (by omega),
      hclear.1]
  · rw [hset.1, copyAddressesOn_addrWord hardware _ _ (by omega), hclear.2]

/-- With a dynamic entry left both functions stay clear of the static ones. -/
lemma keepsStatic_of_room (hardware : Hardware w) (hp : Packs p w) (h : st.Room cfg) :
    KeepsStatic hardware cfg p st := by
  intro csrs uPmpcfg uPmpaddr
  refine ⟨_, _, loadRegistersOn_room hardware.write uPmpaddr h p uPmpcfg csrs, fun i hi => ?_⟩
  exact ⟨clearRegistersOn_static hardware hp h csrs hi,
    loadedOn_static hardware hp h csrs hi uPmpcfg uPmpaddr⟩

/-- When the table is full the loop over the addresses does not end. -/
lemma loadRegistersOn_full (hardware : Hardware w)
    (h : st.staticRegionsNum + st.mprvRegionsNum = cfg.slots) (csrs : Csrs w)
    (uPmpcfg : ℕ → Byte) (uPmpaddr : ℕ → BitVec w) (rounds : ℕ) :
    loadRegistersOn hardware.write cfg p st uPmpcfg uPmpaddr rounds csrs = none := by
  have hwrap : maxDynamicRegion cfg st = 255 := by
    rw [maxDynamicRegion, getNumRegions, ← h, uint8]
    omega
  rw [loadRegistersOn, hwrap]
  exact congrArg _ (copyLoopOn_endless hardware.write uPmpaddr rounds 0 (by decide) _)

lemma keepsStatic_iff (hardware : Hardware w) (hp : Packs p w) (slots : SlotNumbers cfg) :
    KeepsStatic hardware cfg p slots.state ↔
      slots.staticRegionsNum + slots.mprvRegionsNum < cfg.slots := by
  constructor
  · intro h
    by_contra hfull
    obtain ⟨rounds, csrs', hload, -⟩ := h (fun _ => 0) (fun _ => 0) (fun _ => 0)
    have hcount : slots.state.staticRegionsNum + slots.state.mprvRegionsNum = cfg.slots :=
      slots.fits.antisymm (not_lt.mp hfull)
    rw [loadRegistersOn_full hardware hcount] at hload
    cases hload
  · exact fun hroom => keepsStatic_of_room hardware hp hroom

/-- The functions of the kernel, on its own registers. -/
theorem clearConfig_keeps_static (h : st.Room cfg) {i : ℕ} (hi : st.Static cfg i) :
    SameEntry rv32 st.csrs (zRiscvPmpClearConfig cfg st).csrs i := by
  rw [clear_csrs]
  exact clearRegistersOn_static (plainStorage 32) rv32_packs h st.csrs hi

theorem userAllowedStack_keeps_static (h : st.Room cfg) (pmp : KPmp) {i : ℕ}
    (hi : st.Static cfg i) :
    SameEntry rv32 st.csrs (zRiscvConfigureUserAllowedStack cfg pmp st).csrs i := by
  have hload := (load_csrs h pmp).trans
    (loadRegistersOn_room csrWriteEnum pmp.uPmpaddr h rv32 pmp.uPmpcfg st.csrs)
  rw [Option.some.inj hload]
  exact loadedOn_static (plainStorage 32) rv32_packs h st.csrs hi pmp.uPmpcfg pmp.uPmpaddr

/-- For both packings range updates are exact. Whatever bits of a write the hardware
ignores, clearing and loading keep the static entries, and loading returns, exactly when
these and the MPRV entries leave a dynamic one. -/
theorem static_entries_kept_iff (cfg : PmpConfig) (slots : SlotNumbers cfg)
    (hardware32 : Hardware 32) (hardware64 : Hardware 64) :
    (RangeUpdate cfg rv32 32 ∧ RangeUpdate cfg rv64 64 ∧
        KeepsStatic hardware32 cfg rv32 slots.state ∧
        KeepsStatic hardware64 cfg rv64 slots.state) ↔
      slots.staticRegionsNum + slots.mprvRegionsNum < cfg.slots := by
  have h32 := keepsStatic_iff hardware32 rv32_packs slots
  have h64 := keepsStatic_iff hardware64 rv64_packs slots
  constructor
  · intro h
    obtain ⟨-, -, hkeeps, -⟩ := h
    exact h32.mp hkeeps
  · intro h
    exact ⟨rangeUpdate rv32_packs cfg, rangeUpdate rv64_packs cfg, h32.mpr h, h64.mpr h⟩

/-- Four static TOR regions, which take the eight entries of the table. -/
def filledSlots : SlotNumbers torConfig := ⟨8, 0, by decide⟩

/-- On registers with locks, loading any context then goes on for ever. -/
theorem filled_table_not_loaded : ¬ KeepsStatic (lockedStorage rv32 32) torConfig rv32
    filledSlots.state := by
  intro h
  obtain ⟨rounds, csrs', hload, -⟩ := h (fun _ => 0) (fun _ => 0) (fun _ => 0)
  rw [loadRegistersOn_full (lockedStorage rv32 32) (by decide)] at hload
  cases hload

end Static

/-! Locked entries survive even then: it is the loop that fails. -/

section Survive

variable {w : ℕ} {p : Packing}

lemma getLsbD_lockedBits (old : BitVec w) {b : ℕ} (hb : b < w) :
    (lockedBits old).getLsbD b = old.getLsbD (b / 8 * 8 + 7) := by
  rw [lockedBits, BitVec.getLsbD_ofNat, Nat.testBit_ofBits_lt _ _ hb, decide_eq_true hb,
    Bool.true_and]

/-- A write leaves a locked entry and its address. -/
lemma csrWriteLocked_keeps (hp : Packs p w) {csrs : Csrs w} {i : ℕ} (hi : i < 16)
    (hlock : locked p csrs i = true) (e : ℕ) (value : BitVec w) :
    SameEntry p csrs (csrWriteLocked p csrs e value) i := by
  have hnum := hp.num_lt i hi
  have hlt := Nat.mod_lt i hp.entries_pos
  have hw := hp.width
  constructor
  · by_cases he : pmpcfgNum p i = e
    · subst he
      have hbit : (csrs (pmpcfgNum p i)).getLsbD (i % p.entries * 8 + 7) = true := by
        rw [← getLsbD_cfgByte _ _ _ (by norm_num)]
        exact hlock
      apply BitVec.eq_of_getLsbD_eq
      intro t ht
      have hb : i % p.entries * 8 + t < w := by
        rw [hw]
        generalize i % p.entries = q at hlt ⊢
        omega
      have hbyte : (i % p.entries * 8 + t) / 8 = i % p.entries := by omega
      rw [getLsbD_cfgByte _ _ _ ht, getLsbD_cfgByte _ _ _ ht, csrWriteLocked,
        if_pos (by rwa [csrPmpaddr0]), Function.update_self, getLsbD_select,
        getLsbD_lockedBits _ hb, hbyte, if_pos hbit]
    · have hother : csrWriteLocked p csrs e value (pmpcfgNum p i) = csrs (pmpcfgNum p i) :=
        (lockedStorage p w).other csrs e value _ he
      rw [cfgByte, hother, cfgByte]
  · by_cases he : e = csrPmpaddr0 + i
    · have hkept : addrLocked p csrs (e - csrPmpaddr0) = true := by
        rw [he, Nat.add_sub_cancel_left, addrLocked, hlock, Bool.true_or]
      rw [csrWriteLocked, if_neg (by omega), if_neg (by simp [hkept])]
    · exact (lockedStorage p w).other csrs e value _ (Ne.symm he)

/-- A range update leaves locked entries, wherever the range ends. -/
lemma riscvPmpcfgSetRangeOn_locked (hp : Packs p w) {csrs : Csrs w} {i : ℕ} (hi : i < 16)
    (hlock : locked p csrs i = true) (minIndex maxIndex : ℕ) (u8Pmpcfg : Option (ℕ → Byte)) :
    SameEntry p csrs
      (riscvPmpcfgSetRangeOn (csrWriteLocked p) p csrs minIndex maxIndex u8Pmpcfg) i := by
  have hstep (s : RangeLoop w) (j : ℕ) (h : SameEntry p csrs s.csrs i) :
      SameEntry p csrs (setRangeStepOn (csrWriteLocked p) p maxIndex u8Pmpcfg s j).csrs i := by
    have hlock' : locked p s.csrs i = true := by rwa [locked, h.1]
    rw [setRangeStepOn_eq]
    split_ifs
    · have hwrite := csrWriteLocked_keeps hp hi hlock' (csrPmpcfg0 + pmpcfgNum p j)
        (flushValue p u8Pmpcfg s j)
      exact ⟨hwrite.1.trans h.1, hwrite.2.trans h.2⟩
    · exact h
  rw [riscvPmpcfgSetRangeOn]
  exact List.foldlRecOn _ _ ⟨rfl, rfl⟩ fun s hs j _ => hstep s j hs

/-- Clearing leaves locked entries, however many static slots there are. -/
theorem clearRegistersOn_locked (hp : Packs p w) (cfg : PmpConfig) (st : PmpState)
    {csrs : Csrs w} {i : ℕ} (hi : i < 16) (hlock : locked p csrs i = true) :
    SameEntry p csrs (clearRegistersOn (csrWriteLocked p) cfg p st csrs) i := by
  have hdynamic := riscvPmpcfgSetRangeOn_locked hp hi hlock 0 (maxDynamicRegion cfg st) none
  have hmprv := riscvPmpcfgSetRangeOn_locked hp hi
    (show locked p _ i = true by rwa [locked, hdynamic.1])
    (uint8 ((getNumRegions cfg : ℤ) - st.mprvRegionsNum)) (getNumRegions cfg - 1) none
  exact ⟨hmprv.1.trans hdynamic.1, hmprv.2.trans hdynamic.2⟩

end Survive

end WchIotSdk.Pmp
