import WchIotSdk.PmpMatching

/-!
# Loading a context into the registers

Loading leaves the context in the dynamic entries, and in the others what the
static configuration put there, with the MPRV entries at the end of the table
switched off.
-/
namespace WchIotSdk.Pmp

/-- The static and the MPRV entries leave at least one dynamic entry. -/
def PmpState.Room (cfg : PmpConfig) (st : PmpState) : Prop :=
  st.staticRegionsNum + st.mprvRegionsNum < cfg.slots

instance (cfg : PmpConfig) (st : PmpState) : Decidable (st.Room cfg) :=
  inferInstanceAs (Decidable (_ < _))

lemma uint8_of_lt {n : ℕ} (h : n < 256) : uint8 n = n := by
  unfold uint8
  omega

/-- The state after the static entries have been configured, once. -/
def configured (cfg : PmpConfig) (romRegionStart romRegionEnd : Word) (csrs : Csrs 32) :
    PmpState :=
  zRiscvConfigureStaticPmpRegions cfg romRegionStart romRegionEnd ⟨csrs, 0, 0⟩

/-- The arguments of a call of `z_riscv_pmp_add_dynamic`. -/
structure DynamicRequest where
  addr : Word
  size : Word
  flags : Byte
  deriving DecidableEq, Repr

/-- A context after its initialisation, the access to the stack and the given
calls, accepted or not. -/
def userContext (cfg : PmpConfig) (st : PmpState) (pmp : KPmp) (rs : List DynamicRequest) : KPmp :=
  rs.foldl (fun pmp r => (zRiscvPmpAddDynamic cfg st pmp r.addr r.size r.flags).1)
    (zRiscvInitUserAccesses cfg (zRiscvPmpInit cfg pmp))

/-- The registers after a context has been built and loaded. -/
def loadedState (cfg : PmpConfig) (st : PmpState) (pmp : KPmp) (rs : List DynamicRequest) :
    PmpState :=
  zRiscvConfigureUserAllowedStack cfg (userContext cfg st pmp rs) st

section Room

variable {cfg : PmpConfig} {st : PmpState}

/-- With room the subtraction on `uint8_t` does not wrap. -/
lemma maxDynamicRegion_eq (h : st.Room cfg) :
    maxDynamicRegion cfg st + 1 + st.staticRegionsNum + st.mprvRegionsNum = cfg.slots := by
  have hslots := cfg.slots_le
  unfold PmpState.Room at h
  have hint : (getNumRegions cfg : ℤ) - st.staticRegionsNum - st.mprvRegionsNum - 1 =
      ((cfg.slots - st.staticRegionsNum - st.mprvRegionsNum - 1 : ℕ) : ℤ) := by
    rw [getNumRegions]
    omega
  rw [maxDynamicRegion, hint, uint8_of_lt (by omega)]
  omega

lemma maxDynamicRegion_lt (h : st.Room cfg) : maxDynamicRegion cfg st < cfg.slots := by
  have heq := maxDynamicRegion_eq h
  omega

lemma maxDynamicRegion_lt_16 (h : st.Room cfg) : maxDynamicRegion cfg st < 16 :=
  lt_of_lt_of_le (maxDynamicRegion_lt h) cfg.slots_le

lemma mprvIndex_eq (h : st.Room cfg) :
    uint8 ((getNumRegions cfg : ℤ) - st.mprvRegionsNum) =
      maxDynamicRegion cfg st + 1 + st.staticRegionsNum := by
  have heq := maxDynamicRegion_eq h
  have hslots := cfg.slots_le
  have hint : (getNumRegions cfg : ℤ) - st.mprvRegionsNum =
      ((maxDynamicRegion cfg st + 1 + st.staticRegionsNum : ℕ) : ℤ) := by
    rw [getNumRegions]
    omega
  rw [hint, uint8_of_lt (by omega)]

end Room

section Packings

variable {w : ℕ} {p : Packing} {cfg : PmpConfig} {st : PmpState}

/-- `z_riscv_pmp_clear_config` on registers of either width; the static
variables are those of `st`. -/
def clearRegistersOn (write : CsrWrite w) (cfg : PmpConfig) (p : Packing) (st : PmpState)
    (csrs : Csrs w) : Csrs w :=
  let mprvIndex := uint8 ((getNumRegions cfg : ℤ) - st.mprvRegionsNum)
  let csrs := riscvPmpcfgSetRangeOn write p csrs 0 (maxDynamicRegion cfg st) none
  riscvPmpcfgSetRangeOn write p csrs mprvIndex (getNumRegions cfg - 1) none

/-- What the loop of `z_riscv_configure_user_allowed_stack` has done before the entry `n`. -/
def copyAddressesOn (write : CsrWrite w) (csrs : Csrs w) (uPmpaddr : ℕ → BitVec w) (n : ℕ) :
    Csrs w :=
  (List.range n).foldl (fun csrs i => write csrs (csrPmpaddr0 + i) (uPmpaddr i)) csrs

/-- The loop itself, from the counter `i`, a `uint8_t`; `none` if it has not ended
when the rounds are used up. -/
def copyLoopOn (write : CsrWrite w) (uPmpaddr : ℕ → BitVec w) (maxIndex : ℕ) :
    ℕ → ℕ → Csrs w → Option (Csrs w)
  | 0, _, _ => none
  | rounds + 1, i, csrs =>
    if i ≤ maxIndex then
      copyLoopOn write uPmpaddr maxIndex rounds (uint8 (i + 1))
        (write csrs (csrPmpaddr0 + i) (uPmpaddr i))
    else some csrs

/-- `z_riscv_configure_user_allowed_stack` on registers of either width. -/
def loadRegistersOn (write : CsrWrite w) (cfg : PmpConfig) (p : Packing) (st : PmpState)
    (uPmpcfg : ℕ → Byte) (uPmpaddr : ℕ → BitVec w) (rounds : ℕ) (csrs : Csrs w) :
    Option (Csrs w) :=
  let minIndex := 0
  let maxIndex := maxDynamicRegion cfg st
  let csrs := clearRegistersOn write cfg p st csrs
  (copyLoopOn write uPmpaddr maxIndex rounds minIndex csrs).map fun csrs =>
    riscvPmpcfgSetRangeOn write p csrs minIndex maxIndex (some uPmpcfg)

section Loop

variable (write : CsrWrite w) (uPmpaddr : ℕ → BitVec w)

lemma copyAddressesOn_succ (csrs : Csrs w) (n : ℕ) :
    copyAddressesOn write csrs uPmpaddr (n + 1) =
      write (copyAddressesOn write csrs uPmpaddr n) (csrPmpaddr0 + n) (uPmpaddr n) := by
  rw [copyAddressesOn, List.range_succ, List.foldl_append, List.foldl_cons, List.foldl_nil,
    copyAddressesOn]

/-- With `left` entries left the loop ends after them, if the counter can pass the last. -/
lemma copyLoopOn_ends {maxIndex : ℕ} (hmax : maxIndex < 255) (csrs : Csrs w) {left i : ℕ}
    (hleft : i + left = maxIndex + 1) :
    copyLoopOn write uPmpaddr maxIndex (left + 1) i (copyAddressesOn write csrs uPmpaddr i) =
      some (copyAddressesOn write csrs uPmpaddr (maxIndex + 1)) := by
  induction left generalizing i with
  | zero =>
    rw [copyLoopOn, if_neg (by omega)]
    rw [← hleft, Nat.add_zero]
  | succ left ih =>
    have hnext : uint8 ((i : ℤ) + 1) = i + 1 := by
      unfold uint8
      omega
    have hrest := ih (i := i + 1) (by omega)
    rw [copyAddressesOn_succ] at hrest
    rw [copyLoopOn, if_pos (by omega), hnext]
    exact hrest

/-- The counter never passes 255. -/
lemma copyLoopOn_endless (rounds i : ℕ) (hi : i < 256) (csrs : Csrs w) :
    copyLoopOn write uPmpaddr 255 rounds i csrs = none := by
  induction rounds generalizing i csrs with
  | zero => rfl
  | succ rounds ih =>
    rw [copyLoopOn, if_pos (by omega)]
    refine ih _ ?_ _
    unfold uint8
    omega

lemma loadRegistersOn_room {cfg : PmpConfig} {st : PmpState} (h : st.Room cfg) (p : Packing)
    (uPmpcfg : ℕ → Byte) (csrs : Csrs w) :
    loadRegistersOn write cfg p st uPmpcfg uPmpaddr (maxDynamicRegion cfg st + 2) csrs =
      some (riscvPmpcfgSetRangeOn write p
        (copyAddressesOn write (clearRegistersOn write cfg p st csrs) uPmpaddr
          (maxDynamicRegion cfg st + 1)) 0 (maxDynamicRegion cfg st) (some uPmpcfg)) := by
  have hmax := maxDynamicRegion_lt_16 h
  have hends := copyLoopOn_ends write uPmpaddr (by omega)
    (clearRegistersOn write cfg p st csrs) (Nat.zero_add (maxDynamicRegion cfg st + 1))
  rw [loadRegistersOn]
  exact congrArg _ hends

end Loop

section Plain

variable (cfg : PmpConfig) (p : Packing) (st : PmpState)

def clearRegisters (csrs : Csrs w) : Csrs w := clearRegistersOn csrWriteEnum cfg p st csrs

def copyAddresses (csrs : Csrs w) (uPmpaddr : ℕ → BitVec w) (n : ℕ) : Csrs w :=
  copyAddressesOn csrWriteEnum csrs uPmpaddr n

def loadRegisters (uPmpcfg : ℕ → Byte) (uPmpaddr : ℕ → BitVec w) (rounds : ℕ) (csrs : Csrs w) :
    Option (Csrs w) := loadRegistersOn csrWriteEnum cfg p st uPmpcfg uPmpaddr rounds csrs

lemma clearRegisters_eq (csrs : Csrs w) :
    clearRegisters cfg p st csrs =
      riscvPmpcfgSetRange p (riscvPmpcfgSetRange p csrs 0 (maxDynamicRegion cfg st) none)
        (uint8 ((getNumRegions cfg : ℤ) - st.mprvRegionsNum)) (getNumRegions cfg - 1) none := rfl

lemma loadRegisters_room (h : st.Room cfg) (uPmpcfg : ℕ → Byte) (uPmpaddr : ℕ → BitVec w)
    (csrs : Csrs w) :
    loadRegisters cfg p st uPmpcfg uPmpaddr (maxDynamicRegion cfg st + 2) csrs =
      some (riscvPmpcfgSetRange p
        (copyAddresses (clearRegisters cfg p st csrs) uPmpaddr (maxDynamicRegion cfg st + 1)) 0
        (maxDynamicRegion cfg st) (some uPmpcfg)) :=
  loadRegistersOn_room csrWriteEnum uPmpaddr h p uPmpcfg csrs

end Plain

lemma clear_csrs (cfg : PmpConfig) (st : PmpState) :
    (zRiscvPmpClearConfig cfg st).csrs = clearRegisters cfg rv32 st st.csrs := rfl

lemma load_csrs (h : st.Room cfg) (pmp : KPmp) :
    some (zRiscvConfigureUserAllowedStack cfg pmp st).csrs =
      loadRegisters cfg rv32 st pmp.uPmpcfg pmp.uPmpaddr (maxDynamicRegion cfg st + 2) st.csrs := by
  rw [loadRegisters_room cfg rv32 st h]
  rfl

lemma getNumRegions_lt (cfg : PmpConfig) : getNumRegions cfg - 1 < 16 := by
  have hslots := cfg.slots_le
  rw [getNumRegions]
  omega

lemma clearRegisters_addrWord (hp : Packs p w) (h : st.Room cfg) (csrs : Csrs w) (i : ℕ) :
    addrWord (clearRegisters cfg p st csrs) i = addrWord csrs i := by
  have hmax := maxDynamicRegion_lt_16 h
  rw [clearRegisters_eq, riscvPmpcfgSetRange_addrWord hp _ _ (getNumRegions_lt cfg),
    riscvPmpcfgSetRange_addrWord hp _ _ hmax]

/-- Clearing switches off the dynamic and the MPRV entries. -/
theorem clearRegisters_cfgByte (hp : Packs p w) (h : st.Room cfg) (csrs : Csrs w) {i : ℕ}
    (hi : i < cfg.slots) :
    cfgByte p (clearRegisters cfg p st csrs) i =
      if i ≤ maxDynamicRegion cfg st ∨ maxDynamicRegion cfg st + st.staticRegionsNum < i then 0
      else cfgByte p csrs i := by
  have hslots := cfg.slots_le
  have hmax := maxDynamicRegion_lt_16 h
  have hi16 : i < 16 := by omega
  rw [clearRegisters_eq, riscvPmpcfgSetRange_cfgByte hp _ _ (getNumRegions_lt cfg) hi16,
    riscvPmpcfgSetRange_cfgByte hp _ _ hmax hi16, mprvIndex_eq h, getNumRegions]
  simp only [rangeByte, Nat.zero_le, true_and]
  by_cases hdyn : i ≤ maxDynamicRegion cfg st
  · simp [hdyn]
  · by_cases hmprv : maxDynamicRegion cfg st + st.staticRegionsNum < i
    · rw [if_pos (by omega), if_pos (Or.inr hmprv)]
    · rw [if_neg (by omega), if_neg hdyn, if_neg (by omega)]

lemma copyAddresses_succ (csrs : Csrs w) (u : ℕ → BitVec w) (n : ℕ) :
    copyAddresses csrs u (n + 1) =
      csrWriteEnum (copyAddresses csrs u n) (csrPmpaddr0 + n) (u n) := by
  rw [copyAddresses, copyAddressesOn_succ, copyAddresses]

lemma copyAddresses_addrWord (csrs : Csrs w) (u : ℕ → BitVec w) {n : ℕ} (hn : n ≤ 16) (i : ℕ) :
    addrWord (copyAddresses csrs u n) i = if i < n then u i else addrWord csrs i := by
  induction n with
  | zero => rfl
  | succ n ih =>
    rw [copyAddresses_succ, csrWriteEnum, if_pos (by rw [csrPmpaddr0]; omega), addrWord,
      Function.update_apply]
    by_cases hin : i = n
    · rw [if_pos (by rw [hin]), if_pos (by omega), hin]
    · rw [if_neg (by rw [csrPmpaddr0]; omega)]
      show addrWord (copyAddresses csrs u n) i = _
      rw [ih (by omega)]
      by_cases hlt : i < n
      · rw [if_pos hlt, if_pos (by omega)]
      · rw [if_neg hlt, if_neg (by omega)]

lemma copyAddresses_cfgByte (hp : Packs p w) (csrs : Csrs w) (u : ℕ → BitVec w) (n : ℕ) {i : ℕ}
    (hi : i < 16) : cfgByte p (copyAddresses csrs u n) i = cfgByte p csrs i := by
  induction n with
  | zero => rfl
  | succ n ih =>
    rw [copyAddresses_succ, cfgByte_write_addr hp _ hi, ih]

/-- Loading returns, with the context in the dynamic entries. -/
theorem loadRegisters_spec (hp : Packs p w) (h : st.Room cfg) (u : ℕ → Byte)
    (addrs : ℕ → BitVec w) (csrs : Csrs w) :
    ∃ csrs', loadRegisters cfg p st u addrs (maxDynamicRegion cfg st + 2) csrs = some csrs' ∧
      (∀ i, addrWord csrs' i =
        if i ≤ maxDynamicRegion cfg st then addrs i else addrWord csrs i) ∧
      ∀ i < cfg.slots, cfgByte p csrs' i =
        if i ≤ maxDynamicRegion cfg st then u i
        else if maxDynamicRegion cfg st + st.staticRegionsNum < i then 0
        else cfgByte p csrs i := by
  have hslots := cfg.slots_le
  have hmax := maxDynamicRegion_lt_16 h
  rw [loadRegisters_room cfg p st h]
  refine ⟨_, rfl, fun i => ?_, fun i hi => ?_⟩
  · rw [riscvPmpcfgSetRange_addrWord hp _ _ hmax, copyAddresses_addrWord _ _ (by omega),
      clearRegisters_addrWord hp h]
    simp only [Nat.lt_succ_iff]
  · rw [riscvPmpcfgSetRange_cfgByte hp _ _ hmax (by omega),
      copyAddresses_cfgByte hp _ _ _ (by omega), clearRegisters_cfgByte hp h _ hi]
    by_cases hdyn : i ≤ maxDynamicRegion cfg st
    · rw [if_pos ⟨Nat.zero_le i, hdyn⟩, if_pos hdyn]
      rfl
    · rw [if_neg (fun hc => hdyn hc.2), if_neg hdyn]
      simp only [hdyn, false_or]

end Packings

section Load

variable {cfg : PmpConfig} {st : PmpState}

lemma load_addrWord (h : st.Room cfg) (pmp : KPmp) (i : ℕ) :
    addrWord (zRiscvConfigureUserAllowedStack cfg pmp st).csrs i =
      if i ≤ maxDynamicRegion cfg st then pmp.uPmpaddr i else addrWord st.csrs i := by
  obtain ⟨csrs', hload, haddr, -⟩ :=
    loadRegisters_spec rv32_packs h pmp.uPmpcfg pmp.uPmpaddr st.csrs
  rw [← load_csrs h, Option.some_inj] at hload
  rw [hload]
  exact haddr i

lemma load_cfgByte (h : st.Room cfg) (pmp : KPmp) {i : ℕ} (hi : i < cfg.slots) :
    cfgByte rv32 (zRiscvConfigureUserAllowedStack cfg pmp st).csrs i =
      if i ≤ maxDynamicRegion cfg st then pmp.uPmpcfg i
      else if maxDynamicRegion cfg st + st.staticRegionsNum < i then 0
      else cfgByte rv32 st.csrs i := by
  obtain ⟨csrs', hload, -, hcfg⟩ :=
    loadRegisters_spec rv32_packs h pmp.uPmpcfg pmp.uPmpaddr st.csrs
  rw [← load_csrs h, Option.some_inj] at hload
  rw [hload]
  exact hcfg i hi

/-- Loading keeps the counts of entries. -/
lemma maxDynamicRegion_load (pmp : KPmp) :
    maxDynamicRegion cfg (zRiscvConfigureUserAllowedStack cfg pmp st) = maxDynamicRegion cfg st :=
  rfl

lemma PmpState.Room.load (h : st.Room cfg) (pmp : KPmp) :
    (zRiscvConfigureUserAllowedStack cfg pmp st).Room cfg := h

/-- The registers hold the loaded context: shown over them, it changes nothing. -/
theorem combinedTable_load (h : st.Room cfg) (pmp : KPmp) :
    combinedTable cfg (zRiscvConfigureUserAllowedStack cfg pmp st) pmp =
      hwTable (zRiscvConfigureUserAllowedStack cfg pmp st).csrs := by
  have hmax := maxDynamicRegion_lt h
  ext1 i
  rw [combinedTable, maxDynamicRegion_load]
  by_cases hdyn : i ≤ maxDynamicRegion cfg st
  · rw [if_pos hdyn, hwTable, load_cfgByte h pmp (by omega), if_pos hdyn, load_addrWord h,
      if_pos hdyn]
  · rw [if_neg hdyn]

end Load

end WchIotSdk.Pmp
