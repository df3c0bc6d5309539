import Mathlib.Tactic

/-!
# The busy wait of the CH57x

With CONFIG_ARCH_HAS_CUSTOM_BUSY_WAIT `k_busy_wait` is `arch_busy_wait`, which
hands its 32-bit argument to the 16-bit parameter of `hal_sys_delay_us`. The
argument is scaled to the system frequency and counted down by a loop that
decrements before it tests.
-/
namespace WchIotSdk.SysDelay

/-- The values of CONFIG_SOC_SYSTEM_OPERATE_FREQ that `hal_sys_init` accepts. -/
inductive OperateFreq where
  | mhz60 | mhz48 | mhz40 | mhz32 | mhz24 | mhz16 | mhz8 | mhz4 | mhz2 | mhz1
  deriving DecidableEq, Repr

def OperateFreq.megahertz : OperateFreq → ℕ
  | .mhz60 => 60
  | .mhz48 => 48
  | .mhz40 => 40
  | .mhz32 => 32
  | .mhz24 => 24
  | .mhz16 => 16
  | .mhz8 => 8
  | .mhz4 => 4
  | .mhz2 => 2
  | .mhz1 => 1

/-- The count `hal_sys_delay_us` starts from. -/
def delayCount (freq : OperateFreq) (t : BitVec 16) : BitVec 32 :=
  match freq with
  | .mhz60 => t.setWidth 32 * 15
  | .mhz48 => t.setWidth 32 * 12
  | .mhz40 => t.setWidth 32 * 10
  | .mhz32 => t.setWidth 32 <<< 3
  | .mhz24 => t.setWidth 32 * 6
  | .mhz16 => t.setWidth 32 <<< 2
  | .mhz8 => t.setWidth 32 <<< 1
  | .mhz4 => t.setWidth 32
  | .mhz2 => t.setWidth 32 >>> 1
  | .mhz1 => t.setWidth 32 >>> 2

lemma pred_lt {i : BitVec 32} (h : i - 1 ≠ 0) : (i - 1 - 1).toNat < (i - 1).toNat := by
  bv_omega

/-- The loop, `do nop while (--i)`: how often it executes nop. -/
def nopLoop (i : BitVec 32) : ℕ :=
  if i - 1 = 0 then 1 else 1 + nopLoop (i - 1)
termination_by (i - 1).toNat
decreasing_by exact pred_lt ‹_›

def halSysDelayUs (freq : OperateFreq) (t : BitVec 16) : ℕ := nopLoop (delayCount freq t)

/-- The argument is converted to `uint16_t`. -/
def archBusyWait (freq : OperateFreq) (timeUs : BitVec 32) : ℕ :=
  halSysDelayUs freq (timeUs.setWidth 16)

/-- The nops of `k_busy_wait`. -/
def kBusyWait (freq : OperateFreq) (usecToWait : BitVec 32) : ℕ :=
  if usecToWait = 0 then 0 else archBusyWait freq usecToWait

/-- From 0 the loop goes through all values of the counter. -/
theorem nopLoop_eq (i : BitVec 32) : nopLoop i = (i - 1).toNat + 1 := by
  induction i using nopLoop.induct with
  | case1 i hlast =>
    rw [nopLoop, if_pos hlast, hlast]
    rfl
  | case2 i hmore ih =>
    rw [nopLoop, if_neg hmore, ih]
    bv_omega

/-- Nothing wraps in the scaling, which rounds down to 4 MHz. -/
theorem delayCount_toNat (freq : OperateFreq) (t : BitVec 16) :
    (delayCount freq t).toNat = t.toNat * freq.megahertz / 4 := by
  have ht := t.isLt
  cases freq <;> simp only [delayCount, OperateFreq.megahertz] <;> bv_omega

/-- The nops a wait should take, one for each 4 MHz period and at least one. -/
def expectedNops (freq : OperateFreq) (usec : BitVec 32) : ℕ :=
  max 1 (usec.toNat * freq.megahertz / 4)

lemma expectedNops_mono (freq : OperateFreq) {usec usec' : BitVec 32} (h : usec ≤ usec') :
    expectedNops freq usec ≤ expectedNops freq usec' := by
  have hle : usec.toNat ≤ usec'.toNat := h
  exact max_le_max le_rfl (Nat.div_le_div_right (Nat.mul_le_mul_right _ hle))

/-- The wait takes the expected nops, and its count does not start from 0. -/
structure Proportional (freq : OperateFreq) (usec : BitVec 32) : Prop where
  nops : kBusyWait freq usec = expectedNops freq usec
  count_ne_zero : delayCount freq (usec.setWidth 16) ≠ 0

/-- A count other than 0 is the number of nops. -/
lemma nopLoop_of_ne_zero {i : BitVec 32} (h : i ≠ 0) : nopLoop i = i.toNat := by
  rw [nopLoop_eq]
  bv_omega

lemma kBusyWait_eq (freq : OperateFreq) {usec : BitVec 32} (husec : usec ≠ 0)
    (hcount : delayCount freq (usec.setWidth 16) ≠ 0) :
    kBusyWait freq usec = usec.toNat % 2 ^ 16 * freq.megahertz / 4 := by
  rw [kBusyWait, if_neg husec, archBusyWait, halSysDelayUs, nopLoop_of_ne_zero hcount,
    delayCount_toNat, BitVec.toNat_setWidth]

lemma count_ne_zero_iff (freq : OperateFreq) (usec : BitVec 32) :
    delayCount freq (usec.setWidth 16) ≠ 0 ↔ 4 ≤ usec.toNat % 2 ^ 16 * freq.megahertz := by
  have hzero : (0 : BitVec 32).toNat = 0 := rfl
  rw [ne_eq, ← BitVec.toNat_inj, delayCount_toNat, BitVec.toNat_setWidth, hzero]
  omega

/-- The bits lost in the conversion are worth some nops at every frequency. -/
lemma narrowed_lt (freq : OperateFreq) {n : ℕ} (h : 2 ^ 16 ≤ n) :
    n % 2 ^ 16 * freq.megahertz / 4 < n * freq.megahertz / 4 := by
  cases freq <;> simp only [OperateFreq.megahertz] <;> omega

/-- The argument fits the 16-bit parameter and is not scaled to 0. -/
def InRange (freq : OperateFreq) (usec : BitVec 32) : Prop :=
  usec.toNat < 2 ^ 16 ∧ 4 ≤ usec.toNat * freq.megahertz

lemma proportional_iff (freq : OperateFreq) (usec : BitVec 32) :
    Proportional freq usec ↔ InRange freq usec := by
  constructor
  · intro h
    have hcount := (count_ne_zero_iff freq usec).mp h.count_ne_zero
    have husec : usec ≠ 0 := by
      intro hzero
      rw [hzero] at hcount
      simp at hcount
    have hnops := h.nops
    rw [kBusyWait_eq freq husec h.count_ne_zero, expectedNops] at hnops
    have hfits : usec.toNat < 2 ^ 16 := by
      by_contra hlarge
      have hlost := narrowed_lt freq (Nat.le_of_not_lt hlarge)
      omega
    rw [Nat.mod_eq_of_lt hfits] at hcount
    exact ⟨hfits, hcount⟩
  · intro h
    obtain ⟨hfits, hscaled⟩ := h
    have hcount : delayCount freq (usec.setWidth 16) ≠ 0 := by
      rw [count_ne_zero_iff, Nat.mod_eq_of_lt hfits]
      exact hscaled
    have husec : usec ≠ 0 := by
      intro hzero
      rw [hzero] at hscaled
      simp at hscaled
    refine ⟨?_, hcount⟩
    rw [kBusyWait_eq freq husec hcount, expectedNops, Nat.mod_eq_of_lt hfits]
    omega

/-- The wait is right for the arguments in range, and longer for longer ones. -/
theorem delay_proportional_iff (freq : OperateFreq) :
    (∀ usec, Proportional freq usec ↔ InRange freq usec) ∧
      ∀ usec usec', InRange freq usec → InRange freq usec' → usec ≤ usec' →
        kBusyWait freq usec ≤ kBusyWait freq usec' := by
  refine ⟨proportional_iff freq, fun usec usec' h h' hle => ?_⟩
  rw [((proportional_iff freq usec).mpr h).nops, ((proportional_iff freq usec').mpr h').nops]
  exact expectedNops_mono freq hle

/-- 65536 us at 60 MHz are narrowed to 0 and waited for with 2³² nops, 65537 us
with 15. -/
theorem narrowed_to_zero :
    kBusyWait .mhz60 65536 = 2 ^ 32 ∧ expectedNops .mhz60 65536 = 983040 ∧
      kBusyWait .mhz60 65537 = 15 ∧ ¬ Proportional .mhz60 65536 := by
  have hzero : kBusyWait .mhz60 65536 = 2 ^ 32 := by
    rw [kBusyWait, if_neg (by decide), archBusyWait, halSysDelayUs, nopLoop_eq]
    decide
  have hexpected : expectedNops .mhz60 65536 = 983040 := by decide
  have hone : kBusyWait .mhz60 65537 = 15 := by
    rw [kBusyWait, if_neg (by decide), archBusyWait, halSysDelayUs, nopLoop_eq]
    decide
  refine ⟨hzero, hexpected, hone, fun h => ?_⟩
  have hnops := h.nops
  rw [hzero, hexpected] at hnops
  norm_num at hnops

end WchIotSdk.SysDelay
