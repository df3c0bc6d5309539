import WchIotSdk.PowerPolicy
import WchIotSdk.RoundedDivision

/-!
# Conversions between units of time

The functions of `time_units.h` are generated: one for each pair of units, each
direction of rounding and each width of the result, all of them calls of
`z_tmcvt`. That function chooses between an integer ratio, a single division
after the multiplication, and a division before it. The choice between the last
two is made from the longest timeout of the configuration.
-/
namespace WchIotSdk.TimeConversion
open PowerPolicy RoundedDivision

/-- The units of the generator. -/
inductive TimeUnit where
  | ms
  | us
  | ns
  | cyc
  | ticks
  deriving DecidableEq, Repr

/-- The rates the build chooses. The cycles per second are returned as an `int`. -/
structure ClockRates where
  /-- `sys_clock_hw_cycles_per_sec()` -/
  cycHz : ℕ
  /-- CONFIG_SYS_CLOCK_TICKS_PER_SEC -/
  ticksHz : ℕ
  /-- CONFIG_TIMER_READS_ITS_FREQUENCY_AT_RUNTIME -/
  readAtRuntime : Bool
  cycHz_pos : 0 < cycHz
  cycHz_lt : cycHz < 2 ^ 31
  ticksHz_pos : 0 < ticksHz
  ticksHz_lt : ticksHz < 2 ^ 31

variable (rates : ClockRates) (cfg : PolicyConfig)

/-- `Z_HZ_ms` to `Z_HZ_ticks`. -/
def zHz : TimeUnit → ℕ
  | .ms => 1000
  | .us => 1000000
  | .ns => 1000000000
  | .cyc => rates.cycHz
  | .ticks => rates.ticksHz

/-- The generator's `$const_hz`: true, or `Z_CCYC` where cycles take part. -/
def constHz (fromUnit toUnit : TimeUnit) : Bool :=
  if fromUnit = .cyc ∨ toUnit = .cyc then !rates.readAtRuntime else true

/-- The generated function of 32 bits for two units and a rounding. -/
def kConvert32 (fromUnit toUnit : TimeUnit) (r : Rounding) (t : BitVec 32) : BitVec 32 :=
  BitVec.ofNat 32 (zTmcvt cfg t.toNat (zHz rates fromUnit) (zHz rates toUnit)
    (constHz rates fromUnit toUnit) true (r = .ceil) (r = .near))

/-- The generated function of 64 bits for two units and a rounding. -/
def kConvert64 (fromUnit toUnit : TimeUnit) (r : Rounding) (t : BitVec 64) : BitVec 64 :=
  BitVec.ofNat 64 (zTmcvt cfg t.toNat (zHz rates fromUnit) (zHz rates toUnit)
    (constHz rates fromUnit toUnit) false (r = .ceil) (r = .near))

theorem zHz_pos (unit : TimeUnit) : 0 < zHz rates unit := by
  cases unit with
  | cyc => exact rates.cycHz_pos
  | ticks => exact rates.ticksHz_pos
  | ms | us | ns => simp [zHz]

theorem zHz_lt (unit : TimeUnit) : zHz rates unit < 2 ^ 32 := by
  cases unit with
  | cyc => exact rates.cycHz_lt.trans (by norm_num)
  | ticks => exact rates.ticksHz_lt.trans (by norm_num)
  | ms | us | ns => simp [zHz]

/-- The two conversions of the power policy are members of the family. -/
theorem kUsToTicksCeil32_eq (hticks : rates.ticksHz = zHzTicks) (t : BitVec 32) :
    BitVec.ofNat 32 (kUsToTicksCeil32 cfg t.toNat) = kConvert32 rates cfg .us .ticks .ceil t := by
  simp [kUsToTicksCeil32, kConvert32, zHz, constHz, hticks, zHzUs]

theorem kTicksToUsFloor64_eq (hticks : rates.ticksHz = zHzTicks) (t : BitVec 64) :
    BitVec.ofNat 64 (kTicksToUsFloor64 cfg t.toNat) = kConvert64 rates cfg .ticks .us .floor t := by
  simp [kTicksToUsFloor64, kConvert64, zHz, constHz, hticks, zHzUs]

section Paths

variable {cfg : PolicyConfig} {t f h : ℕ} {const result32 : Bool} (r : Rounding)

/-- How the two frequencies of a conversion are related, as far as `z_tmcvt`
looks. -/
inductive Ratio (const : Bool) : ℕ → ℕ → Prop where
  | same (f : ℕ) : Ratio const f f
  | div {h k : ℕ} (hconst : const = true) (hk : 1 < k) : Ratio const (h * k) h
  | mul {f k : ℕ} (hconst : const = true) (hk : 1 < k) : Ratio const f (f * k)
  | other {f h : ℕ} (hne : f ≠ h) (hdiv : const = true → h < f → f % h ≠ 0)
      (hmul : const = true → f < h → h % f ≠ 0) : Ratio const f h

lemma factor (hlt : h < f) (hmod : f % h = 0) : ∃ k, 1 < k ∧ f = h * k := by
  obtain ⟨k, rfl⟩ := Nat.dvd_of_mod_eq_zero hmod
  refine ⟨k, ?_, rfl⟩
  by_contra hk
  have := Nat.mul_le_mul_left h (Nat.not_lt.1 hk)
  omega

theorem ratio (const : Bool) (hf : 0 < f) (hh : 0 < h) : Ratio const f h := by
  by_cases hne : f = h
  · subst hne
    exact .same f
  · by_cases hdiv : const = true ∧ h < f ∧ f % h = 0
    · obtain ⟨k, hk, rfl⟩ := factor hdiv.2.1 hdiv.2.2
      exact .div hdiv.1 hk
    · by_cases hmul : const = true ∧ f < h ∧ h % f = 0
      · obtain ⟨k, hk, rfl⟩ := factor hmul.2.1 hmul.2.2
        exact .mul hmul.1 hk
      · exact .other hne (fun hc hlt h0 => hdiv ⟨hc, hlt, h0⟩)
          (fun hc hlt h0 => hmul ⟨hc, hlt, h0⟩)

/-- The two flags of `z_tmcvt` select an offset. -/
lemma off_eq (d : ℕ) :
    (if r = .near then d / 2 else if r = .ceil then d - 1 else 0) = r.offset d := by
  cases r <;> rfl

lemma zTmcvt_same :
    zTmcvt cfg t f f const result32 (r = .ceil) (r = .near) =
      if result32 then uint32 t else t := by
  simp only [zTmcvt, if_pos]

/-- Truncating a dividend below 2³² first changes nothing. -/
lemma zTmcvt_div (hh : 0 < h) {k : ℕ} (hk : 1 < k) :
    zTmcvt cfg t (h * k) h true result32 (r = .ceil) (r = .near) =
      uint64 (t + r.offset k) / k := by
  have hlt : h < h * k := (Nat.lt_mul_iff_one_lt_right hh).2 hk
  have hquot : h * k / h = k := Nat.mul_div_cancel_left k hh
  simp only [zTmcvt, hlt.ne', hlt.not_gt, hlt, hquot, off_eq, Nat.mul_mod_right, if_false,
    if_true, decide_true, decide_false, Bool.true_and, Bool.false_and, Bool.false_eq_true,
    Bool.and_eq_true, decide_eq_true_eq]
  split_ifs with hfits
  · rw [uint32, Nat.mod_eq_of_lt hfits.2]
  · rfl

lemma zTmcvt_mul (hf : 0 < f) {k : ℕ} (hk : 1 < k) :
    zTmcvt cfg t f (f * k) true result32 (r = .ceil) (r = .near) =
      if result32 then uint32 (uint32 t * k) else uint64 (t * k) := by
  have hlt : f < f * k := (Nat.lt_mul_iff_one_lt_right hf).2 hk
  have hquot : f * k / f = k := Nat.mul_div_cancel_left k hf
  simp only [zTmcvt, hlt.ne, hlt.not_gt, hlt, hquot, Nat.mul_mod_right, if_false, if_true,
    decide_true, decide_false, Bool.true_and, Bool.false_and, Bool.false_eq_true]

lemma zTmcvt_other (hne : f ≠ h) (hdiv : const = true → h < f → f % h ≠ 0)
    (hmul : const = true → f < h → h % f ≠ 0) :
    zTmcvt cfg t f h const result32 (r = .ceil) (r = .near) =
      if result32 then uint32 (uint64 (uint64 (t * h) + r.offset f) / f)
      else if const && zTmcvtUseFastAlgo cfg f h then uint64 (uint64 (t * h) + r.offset f) / f
      else
        uint64 (uint64 (t / f * h) + uint64 (uint64 (t % f * h) + r.offset f) / f) := by
  have hd : (const && decide (f > h) && decide (f % h = 0)) = false := by
    simpa using fun hc hlt => hdiv hc hlt
  have hm : (const && decide (h > f) && decide (h % f = 0)) = false := by
    simpa using fun hc hlt => hmul hc hlt
  simp only [zTmcvt, hd, hm, hne, off_eq, if_false, Bool.false_eq_true, decide_eq_true_eq]

/-- Scaling by an integer ratio, in either direction, is a conversion. -/
lemma round_mul_ratio (hf : 0 < f) (k : ℕ) : r.round (t * (f * k : ℕ) / f) = t * k := by
  have hfq : (f : ℚ) ≠ 0 := by exact_mod_cast hf.ne'
  have hk : (t * (f * k : ℕ) / f : ℚ) = (t * k : ℕ) := by
    push_cast
    field_simp
  rw [hk, r.round_natCast]

lemma round_div_ratio (hh : 0 < h) {k : ℕ} (hk : 0 < k) :
    r.round (t * h / (h * k : ℕ)) = (t + r.offset k) / k := by
  have hhq : (h : ℚ) ≠ 0 := by exact_mod_cast hh.ne'
  have hkq : (t * h / (h * k : ℕ) : ℚ) = t / k := by
    push_cast
    field_simp
  rw [hkq, r.offset_div hk]

lemma uint64_eq {x : ℕ} (hx : x < 2 ^ 64) : uint64 x = x := Nat.mod_eq_of_lt hx

/-- One division after the multiplication, when neither wraps. -/
lemma single_division (hf : 0 < f) (hfits : t * h + r.offset f < 2 ^ 64) :
    uint64 (uint64 (t * h) + r.offset f) / f = r.round (t * h / f) := by
  rw [uint64_eq (x := t * h) (by omega), uint64_eq hfits, r.offset_div hf]
  push_cast
  rfl

/-- A division before the multiplication wraps only in the last sum. -/
lemma double_division (hf : 0 < f) (hf32 : f < 2 ^ 32) (hh32 : h < 2 ^ 32) :
    uint64 (uint64 (t / f * h) + uint64 (uint64 (t % f * h) + r.offset f) / f) =
      r.round (t * h / f) % 2 ^ 64 := by
  have hoff := r.offset_lt hf
  have hrest := Nat.mod_lt t hf
  have hprod : t % f * h ≤ (2 ^ 32 - 1) * (2 ^ 32 - 1) := Nat.mul_le_mul (by omega) (by omega)
  rw [uint64_eq (x := t % f * h) (by omega), uint64_eq (x := t % f * h + _) (by omega)]
  unfold uint64
  rw [Nat.mod_add_mod, r.split_div hf]

/-- The 32-bit result is the exact value reduced to 32 bits, on every path. -/
theorem zTmcvt_result32 (ht : t < 2 ^ 32) (hf : 0 < f) (hf32 : f < 2 ^ 32) (hh : 0 < h)
    (hh32 : h < 2 ^ 32) :
    zTmcvt cfg t f h const true (r = .ceil) (r = .near) % 2 ^ 32 =
      r.round (t * h / f) % 2 ^ 32 := by
  cases ratio const hf hh with
  | same =>
    have hone := round_mul_ratio (t := t) r hf 1
    rw [Nat.mul_one, Nat.mul_one] at hone
    rw [zTmcvt_same, if_pos rfl, hone]
    exact Nat.mod_mod _ _
  | @div _ k hconst hk =>
    have hoff := r.offset_lt (Nat.zero_lt_of_lt hk)
    have hkf : k ≤ h * k := Nat.le_mul_of_pos_left k hh
    subst hconst
    rw [zTmcvt_div r hh hk, round_div_ratio r hh (Nat.zero_lt_of_lt hk), uint64_eq (by omega)]
  | @mul _ k hconst hk =>
    subst hconst
    rw [zTmcvt_mul r hf hk, if_pos rfl, round_mul_ratio r hf]
    simp only [uint32, Nat.mod_mod, Nat.mod_mul_mod]
  | other hne hdiv hmul =>
    have hoff := r.offset_lt hf
    have hprod : t * h ≤ (2 ^ 32 - 1) * (2 ^ 32 - 1) := Nat.mul_le_mul (by omega) (by omega)
    rw [zTmcvt_other r hne hdiv hmul, if_pos rfl, single_division r hf (by omega)]
    exact Nat.mod_mod _ _

/-- The fast path is only chosen when the longest timeout cannot overflow it. -/
lemma fast_fits (hfast : zTmcvtUseFastAlgo cfg f h = true) (hf : 0 < f) (hf32 : f < 2 ^ 32)
    (ht : t ≤ cfg.maxTimeoutDays * 24 * 3600 * f) : t * h + r.offset f < 2 ^ 64 := by
  have hoff := r.offset_lt hf
  simp only [zTmcvtUseFastAlgo, decide_eq_true_eq] at hfast
  generalize cfg.maxTimeoutDays * 24 * 3600 * f = span at ht hfast
  have hceil : span ≤ (span + (2 ^ 32 - 1) - 1) / (2 ^ 32 - 1) * (2 ^ 32 - 1) := by omega
  generalize (span + (2 ^ 32 - 1) - 1) / (2 ^ 32 - 1) = chunks at hfast hceil
  have hprod : t * h ≤ (2 ^ 32 - 1) * (2 ^ 32 - 1) := by
    calc t * h
        ≤ chunks * (2 ^ 32 - 1) * h := Nat.mul_le_mul_right h (ht.trans hceil)
      _ = chunks * h * (2 ^ 32 - 1) := Nat.mul_right_comm _ _ _
      _ ≤ (2 ^ 32 - 1) * (2 ^ 32 - 1) := Nat.mul_le_mul_right _ hfast
  omega

/-- The 64-bit result is the exact value reduced to 64 bits, on every path, for
the timeouts of the configuration. -/
theorem zTmcvt_result64 (ht : t ≤ cfg.maxTimeoutDays * 24 * 3600 * f)
    (hspan : cfg.maxTimeoutDays * 24 * 3600 * f + 2 ^ 32 ≤ 2 ^ 64)
    (hf : 0 < f) (hf32 : f < 2 ^ 32) (hh : 0 < h) (hh32 : h < 2 ^ 32) :
    zTmcvt cfg t f h const false (r = .ceil) (r = .near) % 2 ^ 64 =
      r.round (t * h / f) % 2 ^ 64 := by
  cases ratio const hf hh with
  | same =>
    have hone := round_mul_ratio (t := t) r hf 1
    rw [Nat.mul_one, Nat.mul_one] at hone
    rw [zTmcvt_same, if_neg Bool.false_ne_true, hone]
  | @div _ k hconst hk =>
    have hoff := r.offset_lt (Nat.zero_lt_of_lt hk)
    have hkf : k ≤ h * k := Nat.le_mul_of_pos_left k hh
    subst hconst
    rw [zTmcvt_div r hh hk, round_div_ratio r hh (Nat.zero_lt_of_lt hk), uint64_eq (by omega)]
  | @mul _ k hconst hk =>
    subst hconst
    rw [zTmcvt_mul r hf hk, if_neg Bool.false_ne_true, round_mul_ratio r hf]
    exact Nat.mod_mod _ _
  | other hne hdiv hmul =>
    rw [zTmcvt_other r hne hdiv hmul, if_neg Bool.false_ne_true]
    split_ifs with hpath
    · have hfast := (Bool.and_eq_true_iff.1 hpath).2
      rw [single_division r hf (fast_fits r hfast hf hf32 ht)]
    · rw [double_division r hf hf32 hh32, Nat.mod_mod]

end Paths

section Results

variable {rates cfg} (u v : TimeUnit) (r : Rounding)

/-- The longest timeout of the configuration, in a unit. -/
def longest (rates : ClockRates) (cfg : PolicyConfig) (u : TimeUnit) : ℕ :=
  cfg.maxTimeoutDays * 24 * 3600 * zHz rates u

/-- For up to 2¹⁵ days the compiler's arithmetic on it stays within 64 bits. -/
lemma longest_fits (hdays : cfg.maxTimeoutDays ≤ 2 ^ 15) :
    longest rates cfg u + 2 ^ 32 ≤ 2 ^ 64 := by
  have hhz := zHz_lt rates u
  have hspan : longest rates cfg u ≤ 2 ^ 15 * 24 * 3600 * 2 ^ 32 := by
    unfold longest
    gcongr
  omega

/-- Every 32-bit conversion is exact up to the rounding and the width. -/
theorem kConvert32_toNat (rates : ClockRates) (cfg : PolicyConfig) (t : BitVec 32) :
    (kConvert32 rates cfg u v r t).toNat =
      r.round (t.toNat * zHz rates v / zHz rates u) % 2 ^ 32 := by
  rw [kConvert32, BitVec.toNat_ofNat]
  exact zTmcvt_result32 r t.isLt (zHz_pos rates u) (zHz_lt rates u) (zHz_pos rates v)
    (zHz_lt rates v)

/-- A timeout stays one in the other unit. -/
lemma round_le_longest {t : ℕ} (ht : t ≤ longest rates cfg u) :
    r.round (t * zHz rates v / zHz rates u) ≤ longest rates cfg v := by
  have hu : (0 : ℚ) < zHz rates u := by exact_mod_cast zHz_pos rates u
  refine r.round_le ((div_le_iff₀ hu).2 ?_)
  norm_cast
  calc t * zHz rates v
      ≤ longest rates cfg u * zHz rates v := Nat.mul_le_mul_right _ ht
    _ = longest rates cfg v * zHz rates u := Nat.mul_right_comm _ _ _

/-- So nothing wraps, whichever algorithm was chosen. -/
lemma kConvert64_eq_round (hdays : cfg.maxTimeoutDays ≤ 2 ^ 15) {t : BitVec 64}
    (ht : t.toNat ≤ longest rates cfg u) :
    (kConvert64 rates cfg u v r t).toNat = r.round (t.toNat * zHz rates v / zHz rates u) := by
  have hle := round_le_longest u v r ht
  have hfits : longest rates cfg v + 2 ^ 32 ≤ 2 ^ 64 := longest_fits v hdays
  rw [kConvert64, BitVec.toNat_ofNat, zTmcvt_result64 r ht (longest_fits u hdays)
    (zHz_pos rates u) (zHz_lt rates u) (zHz_pos rates v) (zHz_lt rates v)]
  exact Nat.mod_eq_of_lt (by omega)

/-- Every 64-bit conversion of a timeout is exact up to the rounding, and the
result is a timeout. -/
theorem kConvert64_toNat (hdays : cfg.maxTimeoutDays ≤ 2 ^ 15) {t : BitVec 64}
    (ht : t.toNat ≤ longest rates cfg u) :
    (kConvert64 rates cfg u v r t).toNat = r.round (t.toNat * zHz rates v / zHz rates u) ∧
      (kConvert64 rates cfg u v r t).toNat ≤ longest rates cfg v := by
  rw [kConvert64_eq_round u v r hdays ht]
  exact ⟨rfl, round_le_longest u v r ht⟩

/-- Rounding up into a unit is the least value that covers the timeout, measured
by rounding down out of it. -/
theorem kConvert64_adjoint (hdays : cfg.maxTimeoutDays ≤ 2 ^ 15) {t m : BitVec 64}
    (ht : t.toNat ≤ longest rates cfg u) (hm : m.toNat ≤ longest rates cfg v) :
    kConvert64 rates cfg u v .ceil t ≤ m ↔ t ≤ kConvert64 rates cfg v u .floor m := by
  rw [BitVec.le_def, BitVec.le_def, kConvert64_eq_round u v .ceil hdays ht,
    kConvert64_eq_round v u .floor hdays hm]
  exact Rounding.ceil_le_iff_le_floor (zHz_pos rates u) (zHz_pos rates v)

/-- A timeout survives a finer unit. -/
theorem kConvert64_round_trip (hdays : cfg.maxTimeoutDays ≤ 2 ^ 15)
    (hfiner : zHz rates u ≤ zHz rates v) {t : BitVec 64} (ht : t.toNat ≤ longest rates cfg u) :
    kConvert64 rates cfg v u .floor (kConvert64 rates cfg u v .ceil t) = t := by
  have hup := kConvert64_eq_round u v .ceil hdays ht
  have hlongest : (kConvert64 rates cfg u v .ceil t).toNat ≤ longest rates cfg v :=
    hup ▸ round_le_longest u v .ceil ht
  refine BitVec.eq_of_toNat_eq ?_
  rw [kConvert64_eq_round v u .floor hdays hlongest, hup]
  exact Rounding.floor_ceil_cancel (zHz_pos rates u) hfiner

end Results

/-- The rates of the default configuration. -/
def defaultRates : ClockRates := ⟨32768, 32768, false, by decide, by decide, by decide, by decide⟩

/-- The longest timeout itself, 365 days, to the nearest tick. -/
theorem year_to_ticks :
    (kConvert64 defaultRates defaultConfig .ms .ticks .near 31536000000).toNat =
        Rounding.near.round (31536000000 * 32768 / 1000) ∧
      (kConvert64 defaultRates defaultConfig .ms .ticks .near 31536000000).toNat ≤
        longest defaultRates defaultConfig .ticks := by
  have hyear : (31536000000 : BitVec 64).toNat ≤ longest defaultRates defaultConfig .ms := by
    decide +kernel
  simpa [zHz, defaultRates] using kConvert64_toNat .ms .ticks .near (by decide) hyear

/-- 1001 milliseconds are more than 32800 ticks, and fit into 32801. -/
theorem ticks_for_1001_ms :
    ¬kConvert64 defaultRates defaultConfig .ms .ticks .ceil 1001 ≤ 32800 ∧
      kConvert64 defaultRates defaultConfig .ms .ticks .ceil 1001 ≤ 32801 :=
  ⟨(kConvert64_adjoint .ms .ticks (by decide) (by decide +kernel) (by decide +kernel)).not.2
      (by decide +kernel),
    (kConvert64_adjoint .ms .ticks (by decide) (by decide +kernel) (by decide +kernel)).2
      (by decide +kernel)⟩

theorem timeout_survives_ticks :
    kConvert64 defaultRates defaultConfig .ticks .ms .floor
      (kConvert64 defaultRates defaultConfig .ms .ticks .ceil 1001) = 1001 :=
  kConvert64_round_trip .ms .ticks (by decide) (by decide) (by decide +kernel)

end WchIotSdk.TimeConversion
