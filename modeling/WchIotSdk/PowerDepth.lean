import WchIotSdk.PowerPolicy

/-!
# The deepest usable state

The purpose of the policy: of the two sleep states the deepest one that is not
locked and that the idle time, in exact microseconds, is long enough for. The
policy compares a microsecond count of 32 bits, looks at the lock of one state
only and falls back to no other. What it answers is the deepest usable state
under conditions on the tick count and the locks.
-/
namespace WchIotSdk.PowerPolicy

/-- The idle time in microseconds, exactly. -/
def idleTime (ticks : BitVec 32) : ℚ := ticks.toNat * zHzUs / zHzTicks

/-- Its exit latency is 1400 microseconds and its residency 100. -/
def RamUsable (cfg : PolicyConfig) (p : PolicyState) (ticks : BitVec 32) : Prop :=
  p.stateLockCnt .suspendToRam = 0 ∧ cfg.idleUsec < idleTime ticks ∧
    1400 + 100 ≤ idleTime ticks

def IdleUsable (cfg : PolicyConfig) (p : PolicyState) (ticks : BitVec 32) : Prop :=
  p.stateLockCnt .suspendToIdle = 0 ∧ cfg.activeUsec ≤ idleTime ticks

instance (cfg : PolicyConfig) (p : PolicyState) (ticks : BitVec 32) :
    Decidable (RamUsable cfg p ticks) := inferInstanceAs (Decidable (_ ∧ _ ∧ _))

instance (cfg : PolicyConfig) (p : PolicyState) (ticks : BitVec 32) :
    Decidable (IdleUsable cfg p ticks) := inferInstanceAs (Decidable (_ ∧ _))

/-- The deepest usable state; `none` where neither is usable. -/
def deepest (cfg : PolicyConfig) (p : PolicyState) (ticks : BitVec 32) : Option PmState :=
  if RamUsable cfg p ticks then some .suspendToRam
  else if IdleUsable cfg p ticks then some .suspendToIdle
  else none

/-- The state of an answer, or `none` for NULL. -/
def answeredState (cfg : PolicyConfig) (p : PolicyState) (ticks : BitVec 32) : Option PmState :=
  (pmPolicyNextState cfg p ticks).2.map (·.state)

/-- How deep an answer is: the number of its state, 0 for NULL and for
PM_STATE_ACTIVE. -/
def depth : Option PmState → ℕ
  | none => 0
  | some .active => 0
  | some .runtimeIdle => 1
  | some .suspendToIdle => 2
  | some .standby => 3
  | some .suspendToRam => 4
  | some .suspendToDisk => 5
  | some .softOff => 6

/-- The inputs for which the deepest usable state is found. Where the wrapped
time is beyond the threshold of PM_STATE_SUSPEND_TO_RAM there must be no need to
fall back; elsewhere that state must not be usable. Below both thresholds neither
may be, and only a lock on PM_STATE_ACTIVE makes for NULL then. -/
def PicksDeepest (cfg : PolicyConfig) (p : PolicyState) (ticks : BitVec 32) : Prop :=
  if cfg.idleUsec < wrappedUsecs ticks then RamUsable cfg p ticks ∨ ¬ IdleUsable cfg p ticks
  else if cfg.activeUsec ≤ wrappedUsecs ticks then ¬ RamUsable cfg p ticks
  else ¬ RamUsable cfg p ticks ∧ ¬ IdleUsable cfg p ticks ∧ p.stateLockCnt .active ≠ 0

instance (cfg : PolicyConfig) (p : PolicyState) (ticks : BitVec 32) :
    Decidable (PicksDeepest cfg p ticks) := by
  unfold PicksDeepest
  infer_instance

section Deepest

variable {cfg : PolicyConfig} {p : PolicyState} {ticks ticks' : BitVec 32}

lemma idleTime_mono (h : ticks ≤ ticks') : idleTime ticks ≤ idleTime ticks' := by
  have hle : (ticks.toNat : ℚ) ≤ ticks'.toNat := Nat.cast_le.mpr h
  unfold idleTime
  gcongr

/-- With the locks fixed a longer idle time never makes for a lighter sleep. -/
theorem depth_deepest_mono (h : ticks ≤ ticks') :
    depth (deepest cfg p ticks) ≤ depth (deepest cfg p ticks') := by
  have hram (hr : RamUsable cfg p ticks) : RamUsable cfg p ticks' := by
    obtain ⟨hunlocked, hlong, hrequired⟩ := hr
    have hle := idleTime_mono h
    exact ⟨hunlocked, lt_of_lt_of_le hlong hle, le_trans hrequired hle⟩
  have hidle (hi : IdleUsable cfg p ticks) : IdleUsable cfg p ticks' := by
    obtain ⟨hunlocked, hlong⟩ := hi
    exact ⟨hunlocked, le_trans hlong (idleTime_mono h)⟩
  unfold deepest
  by_cases hr : RamUsable cfg p ticks
  · rw [if_pos hr, if_pos (hram hr)]
  · by_cases hi : IdleUsable cfg p ticks
    · rw [if_neg hr, if_pos hi, if_pos (hidle hi)]
      split
      · exact Nat.le_add_right 2 2
      · exact le_rfl
    · rw [if_neg hr, if_neg hi]
      exact Nat.zero_le _

/-- Latency and residency are rounded up to ticks apart, 46 and 4, and yet their
sum asks for no tick more than the exact microseconds do. -/
theorem requiredTicks_le_iff (ticks : BitVec 32) :
    requiredTicks .suspendToRam ≤ ticks.toNat ↔ 1400 + 100 ≤ idleTime ticks := by
  have hexact : (1400 + 100 : ℚ) ≤ idleTime ticks ↔
      ((1500 * zHzTicks : ℕ) : ℚ) ≤ (ticks.toNat * zHzUs : ℕ) := by
    rw [idleTime, le_div_iff₀ (by norm_num [zHzTicks])]
    push_cast
    norm_num
  rw [hexact, Nat.cast_le]
  simp only [requiredTicks, zHzTicks, zHzUs]
  omega

lemma floor_mod_le (a b m : ℕ) : ((a / b % m : ℕ) : ℚ) ≤ (a : ℚ) / b :=
  le_trans (Nat.cast_le.mpr (Nat.mod_le _ _)) Nat.cast_div_le

/-- The wrapped time is no longer than the exact one. -/
lemma wrappedUsecs_le (ticks : BitVec 32) : (wrappedUsecs ticks : ℚ) ≤ idleTime ticks := by
  have hfloor := floor_mod_le (ticks.toNat * zHzUs) zHzTicks (2 ^ 32)
  unfold wrappedUsecs idleTime
  rwa [Nat.cast_mul] at hfloor

lemma answeredState_candidate (cfg : PolicyConfig) (p : PolicyState) (ticks : BitVec 32) :
    answeredState cfg p ticks =
      if p.stateLockCnt (candidate cfg ticks) = 0 ∧
        requiredTicks (candidate cfg ticks) ≤ ticks.toNat then some (candidate cfg ticks)
      else none := by
  rw [answeredState, pmPolicyNextState_answer]
  split
  · rw [Option.map_some, chooseState_state]
  · rfl

/-- The answer by the wrapped time and the locks. -/
lemma answeredState_eq (cfg : PolicyConfig) (p : PolicyState) (ticks : BitVec 32) :
    answeredState cfg p ticks =
      if cfg.idleUsec < wrappedUsecs ticks then
        if RamUsable cfg p ticks then some .suspendToRam else none
      else if cfg.activeUsec ≤ wrappedUsecs ticks then
        if IdleUsable cfg p ticks then some .suspendToIdle else none
      else if p.stateLockCnt .active = 0 then some .active
      else none := by
  have hle := wrappedUsecs_le ticks
  rw [answeredState_candidate, candidate]
  by_cases hdeep : cfg.idleUsec < wrappedUsecs ticks
  · have hlong : (cfg.idleUsec : ℚ) < idleTime ticks :=
      lt_of_lt_of_le (Nat.cast_lt.mpr hdeep) hle
    have husable : p.stateLockCnt .suspendToRam = 0 ∧ requiredTicks .suspendToRam ≤ ticks.toNat ↔
        RamUsable cfg p ticks := by
      rw [RamUsable, and_iff_right hlong, requiredTicks_le_iff]
    rw [if_pos hdeep, if_pos hdeep, ite_cond_congr (propext husable)]
  · by_cases hidle : cfg.activeUsec ≤ wrappedUsecs ticks
    · have hlong : (cfg.activeUsec : ℚ) ≤ idleTime ticks :=
        le_trans (Nat.cast_le.mpr hidle) hle
      have husable : p.stateLockCnt .suspendToIdle = 0 ∧
          requiredTicks .suspendToIdle ≤ ticks.toNat ↔ IdleUsable cfg p ticks := by
        rw [IdleUsable, and_iff_left hlong]
        exact and_iff_left (Nat.zero_le _)
      rw [if_neg hdeep, if_neg hdeep, if_pos hidle, if_pos hidle, ite_cond_congr (propext husable)]
    · have hunlocked : p.stateLockCnt .active = 0 ∧ requiredTicks .active ≤ ticks.toNat ↔
          p.stateLockCnt .active = 0 := and_iff_left (Nat.zero_le _)
      rw [if_neg hdeep, if_neg hdeep, if_neg hidle, if_neg hidle, ite_cond_congr (propext hunlocked)]

/-- The answer is the deepest usable state, or NULL where there is none, exactly
under the condition. -/
lemma answeredState_eq_deepest_iff (cfg : PolicyConfig) (p : PolicyState) (ticks : BitVec 32) :
    answeredState cfg p ticks = deepest cfg p ticks ↔ PicksDeepest cfg p ticks := by
  unfold deepest PicksDeepest
  rw [answeredState_eq]
  by_cases hdeep : cfg.idleUsec < wrappedUsecs ticks
  · rw [if_pos hdeep, if_pos hdeep]
    by_cases hram : RamUsable cfg p ticks
    · simp [hram]
    · by_cases hidle : IdleUsable cfg p ticks
      · simp [hram, hidle]
      · simp [hram, hidle]
  · rw [if_neg hdeep, if_neg hdeep]
    by_cases hlong : cfg.activeUsec ≤ wrappedUsecs ticks
    · rw [if_pos hlong, if_pos hlong]
      by_cases hram : RamUsable cfg p ticks
      · by_cases hidle : IdleUsable cfg p ticks
        · simp [hram, hidle]
        · simp [hram, hidle]
      · simp [hram]
    · rw [if_neg hlong, if_neg hlong]
      by_cases hactive : p.stateLockCnt .active = 0
      · rw [if_pos hactive]
        by_cases hram : RamUsable cfg p ticks
        · simp [hram]
        · by_cases hidle : IdleUsable cfg p ticks
          · simp [hram, hidle]
          · simp [hactive, hram, hidle]
      · have hlocked : p.stateLockCnt .active ≠ 0 := hactive
        rw [if_neg hactive]
        by_cases hram : RamUsable cfg p ticks
        · simp [hram]
        · by_cases hidle : IdleUsable cfg p ticks
          · simp [hram, hidle]
          · simp only [hram, hidle, hlocked, if_false, not_false_eq_true, and_self, ne_eq]

end Deepest

/-- The answer is the deepest usable state, or NULL where there is none, exactly
under the condition; and with the locks fixed it gets no lighter as the idle time
grows, between idle times that meet it. -/
theorem answer_deepest_iff (cfg : PolicyConfig) (p : PolicyState) (ticks : BitVec 32) :
    (answeredState cfg p ticks = deepest cfg p ticks ↔ PicksDeepest cfg p ticks) ∧
      ∀ ticks', ticks ≤ ticks' → PicksDeepest cfg p ticks → PicksDeepest cfg p ticks' →
        depth (answeredState cfg p ticks) ≤ depth (answeredState cfg p ticks') := by
  refine ⟨answeredState_eq_deepest_iff cfg p ticks, fun ticks' hle hpick hpick' => ?_⟩
  rw [(answeredState_eq_deepest_iff cfg p ticks).mpr hpick,
    (answeredState_eq_deepest_iff cfg p ticks').mpr hpick']
  exact depth_deepest_mono hle

/-- The thresholds of the default build. With 46 ticks to idle, 1403
microseconds, the answer is NULL, though PM_STATE_SUSPEND_TO_IDLE is usable. -/
theorem idle_not_fallen_back_to :
    answeredState defaultConfig ⟨fun _ => 0, zeroRecord⟩ 46 = none ∧
      deepest defaultConfig ⟨fun _ => 0, zeroRecord⟩ 46 = some .suspendToIdle := by
  decide +kernel

end WchIotSdk.PowerPolicy
