import Mathlib.Tactic
import Mathlib.Data.BitVec

/-!
# Calibration of the internal 32 kHz oscillator

The tuning is set, the cycles of the system clock are counted and compared with the
nominal count, until the count is near enough or 20 measurements are made. The tuning
is saved in a variable, of which the code in flash and the code in RAM have one each.

The counter's answers are inputs, and so is the change of the tuning, which the code
computes with floating-point numbers from a difference.
-/
namespace WchIotSdk.LsiCalibration

/-- The values of CONFIG_SOC_RTC_FREQ. -/
inductive SocRtcFreq where
  | hz32768
  | hz32000
  deriving DecidableEq, Repr

def SocRtcFreq.hz : SocRtcFreq → BitVec 32
  | hz32768 => 32768
  | hz32000 => 32000

/-- Which of the two copies of the code runs. -/
inductive Copy where
  | flash
  | ram
  deriving DecidableEq, Repr

structure Lsi where
  r16Int32kTune : BitVec 16
  int32kTuneFlash : BitVec 16
  int32kTuneRam : BitVec 16
  deriving DecidableEq, Repr

namespace Lsi

def saved (lsi : Lsi) : Copy → BitVec 16
  | .flash => lsi.int32kTuneFlash
  | .ram => lsi.int32kTuneRam

def save (lsi : Lsi) (loc : BitVec 16) : Copy → Lsi
  | .flash => { lsi with int32kTuneFlash := loc }
  | .ram => { lsi with int32kTuneRam := loc }

end Lsi

/-- The nominal count for a clock configuration; there is none if the code divides by a
divider of 0. -/
def nominalCount (freq : SocRtcFreq) (r16ClkSysCfg : BitVec 16) : Option (BitVec 16) :=
  let rev := r16ClkSysCfg &&& 0xff
  let div := (rev &&& 0x1f).setWidth 32
  let calv : Option (BitVec 32) :=
    if rev &&& 0xc0 = 2 <<< 6 then some ((5 * 32000000 + freq.hz >>> 1) / freq.hz)
    else if rev &&& 0xc0 = 1 <<< 6 then
      if div = 0 then none else some ((5 * 480000000 / div + freq.hz >>> 1) / freq.hz)
    else if rev &&& 0xc0 = 0 <<< 6 then
      if div = 0 then none else some ((5 * 32000000 / div + freq.hz >>> 1) / freq.hz)
    else some 5
  calv.map (BitVec.setWidth 16)

/-- What a calibration leaves and returns, with its measurements: the tuning and the
count. -/
structure Calibration where
  lsi : Lsi
  ret : BitVec 16
  measured : List (BitVec 16 × BitVec 16)
  deriving DecidableEq, Repr

/-- The variables of the loop. -/
structure Search where
  loc : BitVec 16
  locT : BitVec 16
  diff2 : BitVec 16
  diffc : BitVec 16
  i : BitVec 16
  k : ℕ
  deriving DecidableEq, Repr

section Code

variable (copy : Copy) (basev : BitVec 16) (step : BitVec 16 → BitVec 16) (counts : ℕ → BitVec 16)

/-- The distance of a count from the nominal one, in parts of ten thousand. -/
def error (i : BitVec 16) : ℕ :=
  (if i.toNat > basev.toNat then i.toNat - basev.toNat else basev.toNat - i.toNat) * 10000 /
    basev.toNat

/-- The change of sign of a negative difference. -/
def negated (diff : BitVec 16) : BitVec 16 := ~~~(diff - 1)

/-- The error of a difference, as it is returned. -/
def quotient (diff : BitVec 16) : BitVec 16 :=
  BitVec.ofInt 16 ((diff.toInt * 10000).tdiv basev.toNat)

def changesSign (diff1 diff2 : BitVec 16) : Bool := diff1.toInt * diff2.toInt < 0

def isFine (diffc : BitVec 16) : Bool := diffc = 1 ∨ diffc = -1 ∨ diffc = 0

/-- The tuning of the next measurement. -/
def nextLoc (loc diff1 : BitVec 16) : BitVec 16 :=
  let loc' := loc - step diff1
  if loc' = loc then if diff1.toInt > 0 then loc' + 1 else loc' - 1 else loc'

/-- The loop, with the measurements that are left. -/
def searchLoop : ℕ → Search → Lsi → Calibration
  | 0, s, lsi => ⟨lsi.save s.loc copy, BitVec.ofNat 16 (error basev s.i), []⟩
  | n + 1, s, lsi =>
    let lsi := { lsi with r16Int32kTune := s.loc }
    let i := counts s.k
    let diff1 := i - basev
    let lsi := lsi.save s.loc copy
    if diff1 = 0 then ⟨lsi, 0, [(s.loc, i)]⟩
    else if changesSign diff1 s.diff2 ∧ isFine s.diffc then
      let (diff1, diff2) :=
        if s.diff2.toInt < 0 then (diff1, negated s.diff2) else (negated diff1, s.diff2)
      if diff1.toInt > diff2.toInt then
        ⟨{ lsi with r16Int32kTune := s.locT }, quotient basev diff2, [(s.loc, i)]⟩
      else ⟨lsi, quotient basev diff1, [(s.loc, i)]⟩
    else if error basev i < 11 then ⟨lsi, BitVec.ofNat 16 (error basev i), [(s.loc, i)]⟩
    else
      let r := searchLoop n ⟨nextLoc step s.loc diff1, s.loc, diff1, step diff1, i, s.k + 1⟩ lsi
      { r with measured := (s.loc, i) :: r.measured }

/-- Both copies of the code, after the nominal count is known. -/
def calibrate (lsi : Lsi) : Calibration :=
  let loc := if lsi.saved copy ≠ 0 then lsi.saved copy else 2048
  searchLoop copy basev step counts 20 ⟨loc, 0, 0, 0, 0, 0⟩ lsi

end Code

section Functions

variable (freq : SocRtcFreq) (r16ClkSysCfg : BitVec 16) (step : BitVec 16 → BitVec 16)
  (counts : ℕ → BitVec 16) (lsi : Lsi)

def halClkLsiCalibrateFlash : Option Calibration :=
  (nominalCount freq r16ClkSysCfg).map fun basev => calibrate .flash basev step counts lsi

def halClkLsiCalibrateRam : Option Calibration :=
  (nominalCount freq r16ClkSysCfg).map fun basev => calibrate .ram basev step counts lsi

def halLsiSetTuneFlash : Lsi := { lsi with r16Int32kTune := lsi.int32kTuneFlash }
def halLsiSetTuneRam : Lsi := { lsi with r16Int32kTune := lsi.int32kTuneRam }

end Functions

section Measurements

variable (basev : BitVec 16) (step : BitVec 16 → BitVec 16) (counts : ℕ → BitVec 16) (k : ℕ)

/-- The difference of a measurement, and what the one before it left. -/
def diffAt : BitVec 16 := counts k - basev
def lastDiff : BitVec 16 := if k = 0 then 0 else diffAt basev counts (k - 1)
def lastStep : BitVec 16 := if k = 0 then 0 else step (diffAt basev counts (k - 1))

/-- The nominal count lies between this one and the last, and the tunings are next to
each other. -/
def Between : Prop :=
  changesSign (diffAt basev counts k) (lastDiff basev counts k) ∧
    isFine (lastStep basev step counts k)

/-- The search ends with this measurement. -/
def Ends : Prop :=
  diffAt basev counts k = 0 ∨ Between basev step counts k ∨ error basev (counts k) < 11

def size (diff : BitVec 16) : BitVec 16 := if diff.toInt < 0 then negated diff else diff

/-- The count is no further from the nominal one than the last. -/
def Nearer : Prop :=
  (size (diffAt basev counts k)).toInt ≤ (size (lastDiff basev counts k)).toInt

instance : Decidable (Nearer basev counts k) := inferInstanceAs (Decidable (_ ≤ _))

/-- The error of the difference, computed with 16 bits, is that of the count. -/
def Fits : Prop := (quotient basev (size (diffAt basev counts k))).toNat = error basev (counts k)

/-- The count is near enough to the nominal one for differences and errors of 16 bits. -/
def Near : Prop :=
  |((counts k).toNat : ℤ) - basev.toNat| < 2 ^ 15 ∧ error basev (counts k) < 2 ^ 16

/-- Of the measurements from one on, the first that ends the search does so without going
back to the tuning before it. -/
def SettlesFrom (n : ℕ) : Prop :=
  ∃ j, k ≤ j ∧ j < k + n ∧ Ends basev step counts j ∧
    (∀ m, k ≤ m → m < j → ¬ Ends basev step counts m) ∧
    (Between basev step counts j → Nearer basev counts j ∧ Near basev counts j)

def Settles : Prop := SettlesFrom basev step counts 0 20

variable {basev step counts k}

lemma not_settlesFrom_zero : ¬ SettlesFrom basev step counts k 0 := by
  rintro ⟨j, hk, hj, -⟩
  omega

lemma settlesFrom_of_ends {n : ℕ} (hends : Ends basev step counts k) :
    SettlesFrom basev step counts k (n + 1) ↔
      (Between basev step counts k → Nearer basev counts k ∧ Near basev counts k) := by
  constructor
  · rintro ⟨j, hk, -, -, hfirst, hgood⟩
    obtain rfl | hlt := Nat.eq_or_lt_of_le hk
    · exact hgood
    · exact absurd hends (hfirst k le_rfl hlt)
  · intro hgood
    exact ⟨k, le_rfl, by omega, hends, fun m hm hlt => absurd hm (Nat.not_le.mpr hlt), hgood⟩

lemma settlesFrom_of_not_ends {n : ℕ} (hends : ¬ Ends basev step counts k) :
    SettlesFrom basev step counts k (n + 1) ↔ SettlesFrom basev step counts (k + 1) n := by
  constructor
  · rintro ⟨j, hk, hj, hjends, hfirst, hgood⟩
    have hne : k ≠ j := by
      rintro rfl
      exact hends hjends
    exact ⟨j, by omega, by omega, hjends, fun m hm hlt => hfirst m (by omega) hlt, hgood⟩
  · rintro ⟨j, hk, hj, hjends, hfirst, hgood⟩
    refine ⟨j, by omega, by omega, hjends, fun m hm hlt => ?_, hgood⟩
    obtain rfl | hgt := Nat.eq_or_lt_of_le hm
    · exact hends
    · exact hfirst m hgt hlt

end Measurements

section Loop

variable {copy : Copy} {basev : BitVec 16} {step : BitVec 16 → BitVec 16} {counts : ℕ → BitVec 16}

@[simp] lemma saved_save (lsi : Lsi) (loc : BitVec 16) : (lsi.save loc copy).saved copy = loc := by
  cases copy <;> rfl

@[simp] lemma tune_save (lsi : Lsi) (loc : BitVec 16) :
    (lsi.save loc copy).r16Int32kTune = lsi.r16Int32kTune := by
  cases copy <;> rfl

@[simp] lemma saved_tune (lsi : Lsi) (tune : BitVec 16) :
    ({ lsi with r16Int32kTune := tune } : Lsi).saved copy = lsi.saved copy := by
  cases copy <;> rfl

/-- The tuning always changes. -/
lemma nextLoc_ne (loc diff1 : BitVec 16) : nextLoc step loc diff1 ≠ loc := by
  have hup : loc + 1 ≠ loc := by simp
  have hdown : loc - 1 ≠ loc := by
    intro h
    have := congrArg (· + 1) h
    simp at this
  rw [nextLoc]
  split_ifs with hsame hpos
  · rwa [hsame]
  · rwa [hsame]
  · exact hsame

/-- The last measurement of the tuning that is left. -/
def Calibration.last (r : Calibration) : Option (BitVec 16 × BitVec 16) :=
  (r.measured.filter fun m => m.1 = r.lsi.r16Int32kTune).getLast?

/-- Saved and live tuning are the same, measured, and off by the returned error. -/
structure Kept (copy : Copy) (basev : BitVec 16) (r : Calibration) : Prop where
  saved : r.lsi.saved copy = r.lsi.r16Int32kTune
  error : ∃ m, r.last = some m ∧ r.ret.toNat = error basev m.2

lemma kept_single_iff {lsi : Lsi} {ret loc i : BitVec 16} (hsaved : lsi.saved copy = loc)
    (htune : lsi.r16Int32kTune = loc) :
    Kept copy basev ⟨lsi, ret, [(loc, i)]⟩ ↔ ret.toNat = error basev i := by
  have hlast : Calibration.last ⟨lsi, ret, [(loc, i)]⟩ = some (loc, i) := by
    simp [Calibration.last, htune]
  constructor
  · rintro ⟨-, m, hm, herror⟩
    rw [hlast] at hm
    obtain rfl := Option.some_inj.mp hm
    exact herror
  · exact fun h => ⟨hsaved.trans htune.symm, (loc, i), hlast, h⟩

lemma not_kept {r : Calibration} (h : r.lsi.saved copy ≠ r.lsi.r16Int32kTune) :
    ¬ Kept copy basev r := fun hkept => h hkept.saved

lemma sizes_eq {diff1 diff2 : BitVec 16} (h : changesSign diff1 diff2) :
    (if diff2.toInt < 0 then (diff1, negated diff2) else (negated diff1, diff2)) =
      (size diff1, size diff2) := by
  have hneg : diff1.toInt * diff2.toInt < 0 := of_decide_eq_true h
  obtain ⟨hpos, hlt⟩ | ⟨hlt, hpos⟩ := mul_neg_iff.mp hneg
  · rw [size, size, if_pos hlt, if_pos hlt, if_neg (not_lt.mpr hpos.le)]
  · rw [size, size, if_neg (not_lt.mpr hpos.le), if_neg (not_lt.mpr hpos.le), if_pos hlt]

/-- Where the loop stands before measurement `k`. -/
structure At (basev : BitVec 16) (step : BitVec 16 → BitVec 16) (counts : ℕ → BitVec 16) (k : ℕ)
    (s : Search) (lsi : Lsi) : Prop where
  k_eq : s.k = k
  diff2 : s.diff2 = lastDiff basev counts k
  diffc : s.diffc = lastStep basev step counts k
  live : 0 < k → lsi.r16Int32kTune = s.locT ∧ s.loc ≠ s.locT

section Exits

variable {s : Search} {lsi : Lsi} {k n : ℕ}

/-- The registers and variables after the measurement. -/
def tuned (copy : Copy) (s : Search) (lsi : Lsi) : Lsi :=
  ({ lsi with r16Int32kTune := s.loc } : Lsi).save s.loc copy

lemma searchLoop_exact (h : At basev step counts k s lsi) (hexact : diffAt basev counts k = 0) :
    searchLoop copy basev step counts (n + 1) s lsi =
      ⟨tuned copy s lsi, 0, [(s.loc, counts k)]⟩ := by
  have hdiff : counts k - basev = 0 := hexact
  rw [searchLoop]
  simp only [h.k_eq, if_pos hdiff]
  rfl

lemma searchLoop_between (h : At basev step counts k s lsi) (hexact : diffAt basev counts k ≠ 0)
    (hbetween : Between basev step counts k) : searchLoop copy basev step counts (n + 1) s lsi =
      if Nearer basev counts k then
        ⟨tuned copy s lsi, quotient basev (size (diffAt basev counts k)), [(s.loc, counts k)]⟩
      else
        ⟨{ tuned copy s lsi with r16Int32kTune := s.locT },
          quotient basev (size (lastDiff basev counts k)), [(s.loc, counts k)]⟩ := by
  have hdiff : counts k - basev = diffAt basev counts k := rfl
  have hcond : changesSign (diffAt basev counts k) (lastDiff basev counts k) ∧
      isFine (lastStep basev step counts k) := hbetween
  rw [searchLoop]
  simp only [h.k_eq, hdiff, if_neg hexact, h.diff2, h.diffc, if_pos hcond, sizes_eq hbetween.1]
  by_cases hnearer : Nearer basev counts k
  · rw [if_pos hnearer, if_neg (not_lt.mpr hnearer)]
    rfl
  · rw [if_neg hnearer, if_pos (not_le.mp hnearer)]
    rfl

lemma searchLoop_close (h : At basev step counts k s lsi) (hexact : diffAt basev counts k ≠ 0)
    (hbetween : ¬ Between basev step counts k) (hclose : error basev (counts k) < 11) :
    searchLoop copy basev step counts (n + 1) s lsi =
      ⟨tuned copy s lsi, BitVec.ofNat 16 (error basev (counts k)), [(s.loc, counts k)]⟩ := by
  have hdiff : counts k - basev = diffAt basev counts k := rfl
  have hcond : ¬ (changesSign (diffAt basev counts k) (lastDiff basev counts k) ∧
      isFine (lastStep basev step counts k)) := hbetween
  rw [searchLoop]
  simp only [h.k_eq, hdiff, if_neg hexact, h.diff2, h.diffc, if_neg hcond, if_pos hclose]
  rfl

/-- The search of the next measurement. -/
def next (basev : BitVec 16) (step : BitVec 16 → BitVec 16) (counts : ℕ → BitVec 16) (k : ℕ)
    (s : Search) : Search :=
  ⟨nextLoc step s.loc (diffAt basev counts k), s.loc, diffAt basev counts k,
    step (diffAt basev counts k), counts k, k + 1⟩

def Calibration.cons (m : BitVec 16 × BitVec 16) (r : Calibration) : Calibration :=
  { r with measured := m :: r.measured }

lemma searchLoop_goes (h : At basev step counts k s lsi) (hends : ¬ Ends basev step counts k) :
    searchLoop copy basev step counts (n + 1) s lsi =
      (searchLoop copy basev step counts n (next basev step counts k s) (tuned copy s lsi)).cons
        (s.loc, counts k) := by
  rw [Ends, not_or, not_or] at hends
  obtain ⟨hexact, hbetween, hclose⟩ := hends
  have hdiff : counts k - basev = diffAt basev counts k := rfl
  have hcond : ¬ (changesSign (diffAt basev counts k) (lastDiff basev counts k) ∧
      isFine (lastStep basev step counts k)) := hbetween
  rw [searchLoop]
  simp only [h.k_eq, hdiff, if_neg hexact, h.diff2, h.diffc, if_neg hcond, if_neg hclose]
  rfl

lemma at_next (s : Search) (lsi : Lsi) :
    At basev step counts (k + 1) (next basev step counts k s) (tuned copy s lsi) where
  k_eq := rfl
  diff2 := rfl
  diffc := rfl
  live _ := ⟨tune_save _ _, nextLoc_ne _ _⟩

/-- A loop that leaves both tunings the same leaves a measured one. -/
def Calibration.LastMeasured (copy : Copy) (r : Calibration) : Prop :=
  r.lsi.saved copy = r.lsi.r16Int32kTune → r.last.isSome

lemma last_cons {r : Calibration} (h : r.last.isSome) (m : BitVec 16 × BitVec 16) :
    (r.cons m).last = r.last := by
  obtain ⟨m', hm'⟩ := Option.isSome_iff_exists.mp h
  have hrest : (r.measured.filter fun m => m.1 = r.lsi.r16Int32kTune).getLast? = some m' := hm'
  show ((m :: r.measured).filter fun m => m.1 = r.lsi.r16Int32kTune).getLast? = r.last
  rw [hm', List.filter_cons]
  split_ifs
  · rw [List.getLast?_cons, hrest]
    rfl
  · exact hrest

lemma kept_cons_iff {r : Calibration} (h : r.LastMeasured copy) (m : BitVec 16 × BitVec 16) :
    Kept copy basev (r.cons m) ↔ Kept copy basev r := by
  constructor
  · rintro ⟨hsaved, m', hm', herror⟩
    rw [last_cons (h hsaved)] at hm'
    exact ⟨hsaved, m', hm', herror⟩
  · rintro ⟨hsaved, m', hm', herror⟩
    rw [← last_cons (h hsaved) m] at hm'
    exact ⟨hsaved, m', hm', herror⟩

lemma lastMeasured_cons {r : Calibration} (h : r.LastMeasured copy) (m : BitVec 16 × BitVec 16) :
    (r.cons m).LastMeasured copy := by
  intro hsaved
  rw [last_cons (h hsaved)]
  exact h hsaved

lemma lastMeasured_single {lsi : Lsi} {ret loc i : BitVec 16} (hsaved : lsi.saved copy = loc) :
    Calibration.LastMeasured copy ⟨lsi, ret, [(loc, i)]⟩ := by
  intro hsame
  have htune : lsi.r16Int32kTune = loc := hsame.symm.trans hsaved
  simp [Calibration.last, htune]

lemma saved_tuned (s : Search) (lsi : Lsi) : (tuned copy s lsi).saved copy = s.loc := saved_save _ _

lemma tune_tuned (s : Search) (lsi : Lsi) : (tuned copy s lsi).r16Int32kTune = s.loc :=
  tune_save _ _

lemma toInt_zero : (0 : BitVec 16).toInt = 0 := rfl

lemma not_between_of_exact (hexact : diffAt basev counts k = 0) :
    ¬ Between basev step counts k := by
  rintro ⟨hsign, -⟩
  rw [hexact, changesSign, decide_eq_true_iff, toInt_zero, zero_mul] at hsign
  exact lt_irrefl 0 hsign

/-- The first measurement has no last one. -/
lemma pos_of_between (hbetween : Between basev step counts k) : 0 < k := by
  by_contra hk
  obtain ⟨hsign, -⟩ := hbetween
  rw [lastDiff, if_pos (Nat.eq_zero_of_not_pos hk), changesSign, decide_eq_true_iff,
    toInt_zero, mul_zero] at hsign
  exact lt_irrefl 0 hsign

lemma error_of_exact (hexact : diffAt basev counts k = 0) : error basev (counts k) = 0 := by
  have hsame : counts k = basev := sub_eq_zero.mp hexact
  rw [error, hsame]
  simp

lemma searchLoop_kept_of_ends (h : At basev step counts k s lsi)
    (hfits : Fits basev counts k ↔ Near basev counts k) (hends : Ends basev step counts k) :
    (Kept copy basev (searchLoop copy basev step counts (n + 1) s lsi) ↔
        (Between basev step counts k → Nearer basev counts k ∧ Near basev counts k)) ∧
      (searchLoop copy basev step counts (n + 1) s lsi).LastMeasured copy := by
  by_cases hexact : diffAt basev counts k = 0
  · rw [searchLoop_exact h hexact]
    refine ⟨?_, lastMeasured_single (saved_tuned s lsi)⟩
    rw [kept_single_iff (saved_tuned s lsi) (tune_tuned s lsi), error_of_exact hexact]
    exact iff_of_true rfl fun hbetween => absurd hbetween (not_between_of_exact hexact)
  by_cases hbetween : Between basev step counts k
  · rw [searchLoop_between h hexact hbetween]
    by_cases hnearer : Nearer basev counts k
    · rw [if_pos hnearer]
      refine ⟨?_, lastMeasured_single (saved_tuned s lsi)⟩
      rw [kept_single_iff (saved_tuned s lsi) (tune_tuned s lsi)]
      exact ⟨fun hret _ => ⟨hnearer, hfits.mp hret⟩, fun hgood => hfits.mpr (hgood hbetween).2⟩
    · -- the register goes back to the last tuning, and the variable does not
      rw [if_neg hnearer]
      have hne : s.loc ≠ s.locT := (h.live (pos_of_between hbetween)).2
      have hsaved : ({ tuned copy s lsi with r16Int32kTune := s.locT } : Lsi).saved copy = s.loc :=
        (saved_tune _ _).trans (saved_tuned s lsi)
      refine ⟨iff_of_false (not_kept ?_) fun hgood => hnearer (hgood hbetween).1,
        lastMeasured_single hsaved⟩
      rw [hsaved]
      exact hne
  · have hclose : error basev (counts k) < 11 := (hends.resolve_left hexact).resolve_left hbetween
    rw [searchLoop_close h hexact hbetween hclose]
    refine ⟨?_, lastMeasured_single (saved_tuned s lsi)⟩
    rw [kept_single_iff (saved_tuned s lsi) (tune_tuned s lsi), BitVec.toNat_ofNat]
    exact iff_of_true (Nat.mod_eq_of_lt (by omega)) fun h => absurd h hbetween

/-- The loop keeps both tunings in step exactly if the search settles in the
measurements that are left. -/
lemma searchLoop_kept (hfits : ∀ k, Fits basev counts k ↔ Near basev counts k)
    (h : At basev step counts k s lsi) (hn : k + n = 20) :
    (Kept copy basev (searchLoop copy basev step counts n s lsi) ↔
        SettlesFrom basev step counts k n) ∧
      (searchLoop copy basev step counts n s lsi).LastMeasured copy := by
  induction n generalizing k s lsi with
  | zero =>
    obtain ⟨hlive, hne⟩ := h.live (by omega)
    have hsaved : (searchLoop copy basev step counts 0 s lsi).lsi.saved copy ≠
        (searchLoop copy basev step counts 0 s lsi).lsi.r16Int32kTune := by
      rw [searchLoop, saved_save, tune_save, hlive]
      exact hne
    exact ⟨iff_of_false (not_kept hsaved) not_settlesFrom_zero, fun hsame => absurd hsame hsaved⟩
  | succ n ih =>
    by_cases hends : Ends basev step counts k
    · rw [settlesFrom_of_ends hends]
      exact searchLoop_kept_of_ends h (hfits k) hends
    · obtain ⟨hkept, hlast⟩ := ih (at_next (k := k) s lsi) (by omega)
      rw [searchLoop_goes h hends, kept_cons_iff hlast, settlesFrom_of_not_ends hends]
      exact ⟨hkept, lastMeasured_cons hlast _⟩

lemma searchLoop_measured_le (n : ℕ) (s : Search) (lsi : Lsi) :
    (searchLoop copy basev step counts n s lsi).measured.length ≤ n := by
  induction n generalizing s lsi with
  | zero => exact Nat.le_refl 0
  | succ n ih =>
    have hone : 1 ≤ n + 1 := Nat.le_add_left 1 n
    rw [searchLoop]
    dsimp only
    split_ifs
    any_goals exact hone
    exact Nat.succ_le_succ (ih _ _)

end Exits

end Loop

/-- A calibration keeps saved and live tuning in step, with 20 measurements at most. -/
structure InStep (copy : Copy) (basev : BitVec 16) (r : Calibration) : Prop where
  measured_le : r.measured.length ≤ 20
  kept : Kept copy basev r

/-- The two copies have done the same, each with its own variable. -/
structure Agree (r r' : Calibration) : Prop where
  ret : r.ret = r'.ret
  measured : r.measured = r'.measured
  tune : r.lsi.r16Int32kTune = r'.lsi.r16Int32kTune
  saved : r.lsi.saved .flash = r'.lsi.saved .ram

section Calibrations

variable {basev : BitVec 16} {step : BitVec 16 → BitVec 16} {counts : ℕ → BitVec 16}

lemma searchLoop_agree (n : ℕ) (s : Search) (lsi lsi' : Lsi)
    (htune : n = 0 → lsi.r16Int32kTune = lsi'.r16Int32kTune) :
    Agree (searchLoop .flash basev step counts n s lsi)
      (searchLoop .ram basev step counts n s lsi') := by
  induction n generalizing s lsi lsi' with
  | zero => exact ⟨rfl, rfl, htune rfl, rfl⟩
  | succ n ih =>
    rw [searchLoop, searchLoop]
    dsimp only
    split_ifs
    any_goals exact ⟨rfl, rfl, rfl, rfl⟩
    obtain ⟨hret, hmeasured, htune, hsaved⟩ := ih
      ⟨nextLoc step s.loc (counts s.k - basev), s.loc, counts s.k - basev,
        step (counts s.k - basev), counts s.k, s.k + 1⟩
      (Lsi.save { lsi with r16Int32kTune := s.loc } s.loc .flash)
      (Lsi.save { lsi' with r16Int32kTune := s.loc } s.loc .ram) (fun _ => rfl)
    exact ⟨hret, congrArg (List.cons _) hmeasured, htune, hsaved⟩

theorem calibrate_agree {lsi lsi' : Lsi} (h : lsi.int32kTuneFlash = lsi'.int32kTuneRam) :
    Agree (calibrate .flash basev step counts lsi) (calibrate .ram basev step counts lsi') := by
  rw [calibrate, calibrate, Lsi.saved, Lsi.saved, h]
  exact searchLoop_agree 20 _ lsi lsi' (fun h => absurd h (by decide))

theorem calibrate_inStep_iff (hfits : ∀ k, Fits basev counts k ↔ Near basev counts k)
    (copy : Copy) (lsi : Lsi) :
    InStep copy basev (calibrate copy basev step counts lsi) ↔ Settles basev step counts := by
  have hat : At basev step counts 0
      ⟨if lsi.saved copy ≠ 0 then lsi.saved copy else 2048, 0, 0, 0, 0, 0⟩ lsi :=
    ⟨rfl, rfl, rfl, fun h => absurd h (by decide)⟩
  have hkept : Kept copy basev (calibrate copy basev step counts lsi) ↔
      Settles basev step counts := (searchLoop_kept hfits hat (Nat.zero_add 20)).1
  exact ⟨fun h => hkept.mp h.kept, fun h => ⟨searchLoop_measured_le 20 _ _, hkept.mpr h⟩⟩

lemma tune_self {lsi : Lsi} {tune : BitVec 16} (h : tune = lsi.r16Int32kTune) :
    ({ lsi with r16Int32kTune := tune } : Lsi) = lsi := by
  subst h
  rfl

/-- Setting the saved tuning again changes nothing after a calibration in step. -/
theorem setTune_of_inStep {r : Calibration} :
    (InStep .flash basev r → halLsiSetTuneFlash r.lsi = r.lsi) ∧
      (InStep .ram basev r → halLsiSetTuneRam r.lsi = r.lsi) :=
  ⟨fun h => tune_self h.kept.saved, fun h => tune_self h.kept.saved⟩

end Calibrations

section Counts

variable {basev : BitVec 16} {counts : ℕ → BitVec 16} {k : ℕ}

/-- What the nominal counts have in common: there is one to divide by, and a
distance about 2^15 gives another error than what wraps of it in 16 bits. -/
structure Regular (b : ℕ) : Prop where
  pos : 0 < b
  half : 2 ^ 15 * 10000 / b ≠ 2 ^ 15
  remainder : 2 ^ 15 * 10000 % b < 10000 ∨ b ≤ 2 ^ 15 * 10000 % b + 10000

instance (b : ℕ) : Decidable (Regular b) :=
  decidable_of_iff (0 < b ∧ 2 ^ 15 * 10000 / b ≠ 2 ^ 15 ∧
      (2 ^ 15 * 10000 % b < 10000 ∨ b ≤ 2 ^ 15 * 10000 % b + 10000))
    ⟨fun h => ⟨h.1, h.2.1, h.2.2⟩, fun h => ⟨h.pos, h.half, h.remainder⟩⟩

lemma nominalCount_regular {freq : SocRtcFreq} {r16ClkSysCfg basev : BitVec 16}
    (h : nominalCount freq r16ClkSysCfg = some basev) : Regular basev.toNat := by
  have hlt : (r16ClkSysCfg &&& 0xff &&& 0x1f).toNat < 32 := by
    rw [BitVec.toNat_and]
    exact Nat.lt_of_le_of_lt Nat.and_le_right (by decide)
  obtain ⟨d, hd⟩ : ∃ d : Fin 32, (r16ClkSysCfg &&& 0xff &&& 0x1f).setWidth 32 =
      BitVec.ofNat 32 d := ⟨⟨_, hlt⟩, (BitVec.ofNat_toNat 32 _).symm⟩
  simp only [nominalCount, hd] at h
  split_ifs at h with hdirect hpll hzero hzero
  · obtain rfl := Option.some_inj.mp h
    cases freq <;> decide +kernel
  · cases h
  · obtain rfl := Option.some_inj.mp h
    clear h hd hlt
    revert d
    cases freq <;> decide +kernel
  · cases h
  · obtain rfl := Option.some_inj.mp h
    clear h hd hlt
    revert d
    cases freq <;> decide +kernel
  · obtain rfl := Option.some_inj.mp h
    decide

/-- The distance of a count from the nominal one. -/
def distance (basev i : BitVec 16) : ℕ :=
  if i.toNat > basev.toNat then i.toNat - basev.toNat else basev.toNat - i.toNat

lemma abs_sub_eq_distance (basev i : BitVec 16) :
    |(i.toNat : ℤ) - basev.toNat| = distance basev i := by
  rw [distance]
  split_ifs with h
  · rw [abs_of_nonneg (by omega)]
    omega
  · rw [abs_of_nonpos (by omega)]
    omega

lemma error_eq (basev i : BitVec 16) :
    error basev i = distance basev i * 10000 / basev.toNat := rfl

lemma toNat_negated (diff : BitVec 16) :
    (negated diff).toNat = (2 ^ 16 - diff.toNat) % 2 ^ 16 := by
  have hlt := diff.isLt
  have hone : (1 : BitVec 16).toNat = 1 := rfl
  rw [negated, BitVec.toNat_not, BitVec.toNat_sub]
  omega

/-- The size of the 16-bit difference, for every distance. -/
lemma toInt_size_diffAt (basev : BitVec 16) (counts : ℕ → BitVec 16) (k : ℕ) :
    (size (diffAt basev counts k)).toInt =
      if distance basev (counts k) < 2 ^ 15 then (distance basev (counts k) : ℤ)
      else if distance basev (counts k) = 2 ^ 15 then -2 ^ 15
      else 2 ^ 16 - distance basev (counts k) := by
  have hcount := (counts k).isLt
  have hbase := basev.isLt
  have hdiff : (diffAt basev counts k).toNat =
      (2 ^ 16 - basev.toNat + (counts k).toNat) % 2 ^ 16 := by
    rw [diffAt, BitVec.toNat_sub]
  have hnegated := toNat_negated (diffAt basev counts k)
  have hsign := BitVec.toInt_eq_toNat_cond (diffAt basev counts k)
  have hsize : (size (diffAt basev counts k)).toNat =
      if (diffAt basev counts k).toNat < 2 ^ 15 then (diffAt basev counts k).toNat
      else (negated (diffAt basev counts k)).toNat := by
    rw [size]
    split_ifs at hsign ⊢ <;> first | rfl | omega
  rw [BitVec.toInt_eq_toNat_cond, hsize, hnegated, hdiff, distance]
  split_ifs <;> omega

/-- A quotient of a nonnegative size. -/
lemma toNat_quotient_of_nonneg {basev diff : BitVec 16} {a : ℕ} (h : diff.toInt = a) :
    (quotient basev diff).toNat = a * 10000 / basev.toNat % 2 ^ 16 := by
  have hquotient : quotient basev diff = BitVec.ofNat 16 (a * 10000 / basev.toNat) := by
    rw [quotient, h, ← BitVec.ofInt_natCast, Int.natCast_ediv]
    norm_cast
  rw [hquotient, BitVec.toNat_ofNat]

/-- A distance beyond 2^15 and what wraps of it have different errors. -/
lemma error_wrapped_ne {b a : ℕ} (hb : Regular b) (hlong : 2 ^ 15 < a) (ha : a < 2 ^ 16) :
    (2 ^ 16 - a) * 10000 / b ≠ a * 10000 / b := by
  obtain ⟨hpos, -, hremainder⟩ := hb
  intro hsame
  have hbelow : (2 ^ 16 - a) * 10000 / b ≤ 2 ^ 15 * 10000 / b :=
    Nat.div_le_div_right (Nat.mul_le_mul_right 10000 (by omega))
  have habove : 2 ^ 15 * 10000 / b ≤ a * 10000 / b :=
    Nat.div_le_div_right (Nat.mul_le_mul_right 10000 hlong.le)
  have hmiddle : a * 10000 / b = 2 ^ 15 * 10000 / b := by
    rw [hsame] at hbelow
    exact le_antisymm hbelow habove
  have hsplit := Nat.div_add_mod (2 ^ 15 * 10000) b
  have hlow := Nat.mul_div_le ((2 ^ 16 - a) * 10000) b
  have hhigh := Nat.lt_mul_div_succ (a * 10000) hpos
  rw [hsame, hmiddle] at hlow
  rw [hmiddle, Nat.mul_add, Nat.mul_one] at hhigh
  -- the multiple of `b` below 2^15 * 10000 is below the one distance and next to the other
  generalize b * (2 ^ 15 * 10000 / b) = multiple at hsplit hlow hhigh
  generalize 2 ^ 15 * 10000 % b = rest at hsplit hremainder
  omega

/-- At 2^15 the size is taken for negative. -/
lemma quotient_half_ne {basev diff : BitVec 16} (hb : Regular basev.toNat)
    (h : diff.toInt = -2 ^ 15) :
    (quotient basev diff).toNat ≠ 2 ^ 15 * 10000 / basev.toNat := by
  obtain ⟨hpos, hhalf, -⟩ := hb
  have hquotient : ((-2 ^ 15 : ℤ) * 10000).tdiv basev.toNat =
      -((2 ^ 15 * 10000 / basev.toNat : ℕ) : ℤ) := by
    rw [neg_mul, Int.neg_tdiv, Int.natCast_ediv]
    norm_cast
  have hsome : 0 < 2 ^ 15 * 10000 / basev.toNat := by
    have hbase := basev.isLt
    exact Nat.div_pos (by omega) hpos
  rw [quotient, h, hquotient, BitVec.toNat_ofInt]
  generalize 2 ^ 15 * 10000 / basev.toNat = q at hhalf hsome
  omega

/-- The returned error is right exactly if the count is near enough. -/
lemma fits_iff_near (hb : Regular basev.toNat) (k : ℕ) :
    Fits basev counts k ↔ Near basev counts k := by
  have hsize := toInt_size_diffAt basev counts k
  rw [Fits, Near, abs_sub_eq_distance, error_eq]
  have hlt : distance basev (counts k) < 2 ^ 16 := by
    have hcount := (counts k).isLt
    have hbase := basev.isLt
    rw [distance]
    split_ifs <;> omega
  generalize distance basev (counts k) = a at hsize hlt ⊢
  by_cases hnear : a < 2 ^ 15
  · rw [if_pos hnear] at hsize
    rw [toNat_quotient_of_nonneg hsize, and_iff_right (by exact_mod_cast hnear)]
    constructor
    · intro hsame
      rw [← hsame]
      exact Nat.mod_lt _ (by norm_num)
    · exact Nat.mod_eq_of_lt
  · have hfar : ¬ ((a : ℤ) < 2 ^ 15 ∧ a * 10000 / basev.toNat < 2 ^ 16) :=
      fun h => hnear (by exact_mod_cast h.1)
    rw [if_neg hnear] at hsize
    refine iff_of_false ?_ hfar
    by_cases hhalf : a = 2 ^ 15
    · rw [if_pos hhalf] at hsize
      rw [hhalf]
      exact quotient_half_ne hb hsize
    · rw [if_neg hhalf] at hsize
      have hwrapped : (size (diffAt basev counts k)).toInt = ((2 ^ 16 - a : ℕ) : ℤ) := by
        rw [hsize]
        omega
      have hle : (2 ^ 16 - a) * 10000 / basev.toNat ≤ a * 10000 / basev.toNat :=
        Nat.div_le_div_right (by omega)
      have hne := error_wrapped_ne hb (by omega) hlt
      rw [toNat_quotient_of_nonneg hwrapped]
      intro hsame
      have hsmall : a * 10000 / basev.toNat < 2 ^ 16 := hsame ▸ Nat.mod_lt _ (by norm_num)
      rw [Nat.mod_eq_of_lt (lt_of_le_of_lt hle hsmall)] at hsame
      exact hne hsame

end Counts

section Spec

variable (freq : SocRtcFreq) (r16ClkSysCfg : BitVec 16) (step : BitVec 16 → BitVec 16)
  (counts : ℕ → BitVec 16) (lsi lsi' : Lsi)

/-- Both copies calibrate in step, and alike from the same saved tuning. -/
def Calibrated : Prop :=
  ∃ basev r r', nominalCount freq r16ClkSysCfg = some basev ∧
    halClkLsiCalibrateFlash freq r16ClkSysCfg step counts lsi = some r ∧
    halClkLsiCalibrateRam freq r16ClkSysCfg step counts lsi' = some r' ∧
    InStep .flash basev r ∧ InStep .ram basev r' ∧
    (lsi.int32kTuneFlash = lsi'.int32kTuneRam → Agree r r')

/-- The calibrations are in step exactly if the clock has a nominal count and the search
settles. -/
theorem calibrated_iff_settles : Calibrated freq r16ClkSysCfg step counts lsi lsi' ↔
    ∃ basev, nominalCount freq r16ClkSysCfg = some basev ∧ Settles basev step counts := by
  constructor
  · rintro ⟨basev, r, r', hbasev, hr, -, hinStep, -⟩
    have hfits (k : ℕ) : Fits basev counts k ↔ Near basev counts k :=
      fits_iff_near (nominalCount_regular hbasev) k
    rw [halClkLsiCalibrateFlash, hbasev] at hr
    obtain rfl := Option.some_inj.mp hr
    exact ⟨basev, hbasev, (calibrate_inStep_iff hfits .flash lsi).mp hinStep⟩
  · rintro ⟨basev, hbasev, hsettles⟩
    have hfits (k : ℕ) : Fits basev counts k ↔ Near basev counts k :=
      fits_iff_near (nominalCount_regular hbasev) k
    refine ⟨basev, _, _, hbasev, ?_, ?_, (calibrate_inStep_iff hfits .flash lsi).mpr hsettles,
      (calibrate_inStep_iff hfits .ram lsi').mpr hsettles, calibrate_agree⟩
    · rw [halClkLsiCalibrateFlash, hbasev]
      rfl
    · rw [halClkLsiCalibrateRam, hbasev]
      rfl

variable {freq r16ClkSysCfg step counts lsi lsi'}

lemma not_calibrated_of_differ {β : Type} {f : Calibration → β} {left : Lsi} {b : β}
    (h : (halClkLsiCalibrateFlash freq r16ClkSysCfg step counts lsi).map (fun r => (r.lsi, f r)) =
      some (left, b)) (hne : left.int32kTuneFlash ≠ left.r16Int32kTune) :
    ¬ Calibrated freq r16ClkSysCfg step counts lsi lsi' := by
  rintro ⟨basev, r, r', -, hr, -, hinStep, -⟩
  rw [hr, Option.map_some, Option.some_inj, Prod.mk.injEq] at h
  have hsaved := hinStep.kept.saved
  rw [h.1] at hsaved
  exact hne hsaved

/-- With the 60 MHz clock and a counter that keeps answering 16383 the last tuning is
saved but not set; with the 32 kHz clock the tuning goes back from 2049 to 2048 and 2049
is saved. -/
theorem saved_and_live_differ :
    let step (diff : BitVec 16) : BitVec 16 := BitVec.ofInt 16 ((diff.toInt * -8).tdiv 10)
    let counts (k : ℕ) : BitVec 16 := if k = 0 then 6 else 3
    ((halClkLsiCalibrateFlash .hz32768 0x48 step (fun _ => 16383) ⟨0, 0, 0⟩).map fun r =>
        (r.lsi, r.measured.length)) = some (⟨46370, 52152, 0⟩, 20) ∧
      ((halClkLsiCalibrateFlash .hz32768 0xc0 (fun _ => 0) counts ⟨0, 0, 0⟩).map fun r =>
        (r.lsi, r.ret)) = some (⟨2048, 2049, 0⟩, 2000) ∧
      ¬ Calibrated .hz32768 0x48 step (fun _ => 16383) ⟨0, 0, 0⟩ ⟨0, 0, 0⟩ ∧
      ¬ Calibrated .hz32768 0xc0 (fun _ => 0) counts ⟨0, 0, 0⟩ ⟨0, 0, 0⟩ := by
  intro step counts
  have hlimit : ((halClkLsiCalibrateFlash .hz32768 0x48 step (fun _ => 16383) ⟨0, 0, 0⟩).map
      fun r => (r.lsi, r.measured.length)) = some (⟨46370, 52152, 0⟩, 20) := by decide +kernel
  have hback : ((halClkLsiCalibrateFlash .hz32768 0xc0 (fun _ => 0) counts ⟨0, 0, 0⟩).map
      fun r => (r.lsi, r.ret)) = some (⟨2048, 2049, 0⟩, 2000) := by decide +kernel
  exact ⟨hlimit, hback, not_calibrated_of_differ hlimit (by decide),
    not_calibrated_of_differ hback (by decide)⟩

end Spec

end WchIotSdk.LsiCalibration
