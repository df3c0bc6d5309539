import WchIotSdk.EventRuns
import Mathlib.Data.BitVec

/-!
# The default power policy and its state locks

`pm_policy_next_state` classifies the idle time, in microseconds, against two
configured thresholds, fills one static record and returns its address or NULL.
Locks are per-state counters of the platform's `long`, 32 bits wide on this
target. The extra test of `policy.c` under the macro SOC_SERIES_CH58X is left
out: the configuration only ever defines CONFIG_SOC_SERIES_CH58X.
-/
namespace WchIotSdk.PowerPolicy
open EventRuns

/-- `enum pm_state`. -/
inductive PmState where
  | active
  | runtimeIdle
  | suspendToIdle
  | standby
  | suspendToRam
  | suspendToDisk
  | softOff
  deriving DecidableEq, Repr

/-- `struct pm_state_info`. -/
structure PmStateInfo where
  state : PmState
  substateId : BitVec 8
  minResidencyTicks : BitVec 32
  exitLatencyTicks : BitVec 32
  deriving DecidableEq, Repr

/-- The options of the build the policy depends on. -/
structure PolicyConfig where
  /-- CONFIG_PM_ACTIVE_USEC -/
  activeUsec : ℕ
  /-- CONFIG_PM_IDLE_USEC -/
  idleUsec : ℕ
  /-- CONFIG_SYS_CLOCK_MAX_TIMEOUT_DAYS -/
  maxTimeoutDays : ℕ
  /-- CONFIG_TIMEOUT_64BIT: `k_ticks_t` is `int64_t`, else `uint32_t` -/
  timeout64 : Bool

/-- CONFIG_SYS_CLOCK_TICKS_PER_SEC, and the frequency of microseconds. -/
def zHzTicks : ℕ := 32768
def zHzUs : ℕ := 1000000

def uint32 (x : ℕ) : ℕ := x % 2 ^ 32
def uint64 (x : ℕ) : ℕ := x % 2 ^ 64

/-- `Z_TMCVT_USE_FAST_ALGO`, evaluated by the compiler. -/
def zTmcvtUseFastAlgo (cfg : PolicyConfig) (fromHz toHz : ℕ) : Bool :=
  let span := cfg.maxTimeoutDays * 24 * 3600 * fromHz
  (span + (2 ^ 32 - 1) - 1) / (2 ^ 32 - 1) * toHz ≤ 2 ^ 32 - 1

/-- Time unit conversion, with its three expressions for one ratio. -/
def zTmcvt (cfg : PolicyConfig) (t fromHz toHz : ℕ)
    (constHz result32 roundUp roundOff : Bool) : ℕ :=
  let mulRatio := constHz && decide (toHz > fromHz) && decide (toHz % fromHz = 0)
  let divRatio := constHz && decide (fromHz > toHz) && decide (fromHz % toHz = 0)
  if fromHz = toHz then if result32 then uint32 t else t
  else
    let rdivisor := if divRatio then fromHz / toHz else fromHz
    let off :=
      if mulRatio then 0
      else if roundOff then rdivisor / 2
      else if roundUp then rdivisor - 1
      else 0
    if divRatio then
      let t := uint64 (t + off)
      if result32 && decide (t < 2 ^ 32) then uint32 t / (fromHz / toHz)
      else t / (fromHz / toHz)
    else if mulRatio then
      if result32 then uint32 (uint32 t * (toHz / fromHz))
      else uint64 (t * (toHz / fromHz))
    else if result32 then uint32 (uint64 (uint64 (t * toHz) + off) / fromHz)
    else if constHz && zTmcvtUseFastAlgo cfg fromHz toHz then
      uint64 (uint64 (t * toHz) + off) / fromHz
    else
      uint64 (uint64 (t / fromHz * toHz) + uint64 (uint64 (t % fromHz * toHz) + off) / fromHz)

def kUsToTicksCeil32 (cfg : PolicyConfig) (t : ℕ) : ℕ :=
  zTmcvt cfg t zHzUs zHzTicks true true true false

def kTicksToUsFloor64 (cfg : PolicyConfig) (t : ℕ) : ℕ :=
  zTmcvt cfg t zHzTicks zHzUs true false false false

/-- The lock counters and the static record of `pm_policy_next_state`. -/
structure PolicyState where
  stateLockCnt : PmState → BitVec 32
  state : PmStateInfo

def pmPolicyStateLockGet (p : PolicyState) (st : PmState) : PolicyState :=
  { p with stateLockCnt := Function.update p.stateLockCnt st (p.stateLockCnt st + 1) }

/-- The assertion on the old count is compiled away. -/
def pmPolicyStateLockPut (p : PolicyState) (st : PmState) : PolicyState :=
  { p with stateLockCnt := Function.update p.stateLockCnt st (p.stateLockCnt st - 1) }

def pmPolicyStateLockIsActive (p : PolicyState) (st : PmState) : Bool :=
  p.stateLockCnt st != 0

/-- `ticks == K_TICKS_FOREVER`: a 64-bit -1 is no `uint32_t`. -/
def ticksForever (cfg : PolicyConfig) (ticks : BitVec 32) : Bool :=
  !cfg.timeout64 && ticks == BitVec.allOnes 32

/-- The idle time as the policy stores it, in 32 bits. -/
def idleUsecs (cfg : PolicyConfig) (ticks : BitVec 32) : ℕ :=
  uint32 (kTicksToUsFloor64 cfg ticks.toNat)

/-- The static record after the three assignments of the chosen branch. The
sub-state is never assigned. -/
def chooseState (cfg : PolicyConfig) (record : PmStateInfo) (ticks : BitVec 32) : PmStateInfo :=
  let usecs := idleUsecs cfg ticks
  if usecs > cfg.idleUsec then
    { record with
      state := .suspendToRam
      exitLatencyTicks := BitVec.ofNat 32 (kUsToTicksCeil32 cfg 1400)
      minResidencyTicks := BitVec.ofNat 32 (kUsToTicksCeil32 cfg 100) }
  else if usecs ≥ cfg.activeUsec then
    { record with state := .suspendToIdle, exitLatencyTicks := 0, minResidencyTicks := 0 }
  else
    { record with state := .active, exitLatencyTicks := 0, minResidencyTicks := 0 }

/-- `none` is the NULL answer; otherwise the contents of the static record. -/
def pmPolicyNextState (cfg : PolicyConfig) (p : PolicyState) (ticks : BitVec 32) :
    PolicyState × Option PmStateInfo :=
  let record := chooseState cfg p.state ticks
  let p := { p with state := record }
  if pmPolicyStateLockIsActive p record.state then (p, none)
  else if ticksForever cfg ticks ||
      decide (ticks ≥ record.exitLatencyTicks + record.minResidencyTicks) then (p, some record)
  else (p, none)

/-- The whole microseconds of the idle time, modulo 2^32. -/
def wrappedUsecs (ticks : BitVec 32) : ℕ := ticks.toNat * zHzUs / zHzTicks % 2 ^ 32

/-- Converting the whole seconds apart from the rest loses nothing. -/
lemma split_conversion (t : ℕ) :
    t / 32768 * 1000000 + t % 32768 * 1000000 / 32768 = t * 1000000 / 32768 := by
  have hsplit : t * 1000000 = t % 32768 * 1000000 + 32768 * (t / 32768 * 1000000) := by omega
  rw [hsplit, Nat.add_mul_div_left _ _ (by decide)]
  exact Nat.add_comm _ _

/-- A tick count of 32 bits is converted without overflow on either path. -/
theorem idleUsecs_eq (cfg : PolicyConfig) (ticks : BitVec 32) :
    idleUsecs cfg ticks = wrappedUsecs ticks := by
  have ht := ticks.isLt
  have hexpr : kTicksToUsFloor64 cfg ticks.toNat =
      if zTmcvtUseFastAlgo cfg zHzTicks zHzUs then
        uint64 (uint64 (ticks.toNat * 1000000) + 0) / 32768
      else uint64 (uint64 (ticks.toNat / 32768 * 1000000) +
        uint64 (uint64 (ticks.toNat % 32768 * 1000000) + 0) / 32768) := by
    simp [kTicksToUsFloor64, zTmcvt, zHzTicks, zHzUs]
  have hwhole : uint64 (ticks.toNat * 1000000) = ticks.toNat * 1000000 :=
    Nat.mod_eq_of_lt (by omega)
  have hsecs : uint64 (ticks.toNat / 32768 * 1000000) = ticks.toNat / 32768 * 1000000 :=
    Nat.mod_eq_of_lt (by omega)
  have hrest : uint64 (ticks.toNat % 32768 * 1000000) = ticks.toNat % 32768 * 1000000 :=
    Nat.mod_eq_of_lt (by omega)
  have hfits : uint64 (ticks.toNat * 1000000 / 32768) = ticks.toNat * 1000000 / 32768 :=
    Nat.mod_eq_of_lt (by omega)
  unfold idleUsecs uint32 wrappedUsecs
  congr 1
  rw [hexpr, Nat.add_zero, Nat.add_zero, hwhole, hsecs, hrest, hwhole, hrest, split_conversion,
    hfits, ite_self, zHzUs, zHzTicks]

theorem kUsToTicksCeil32_latency (cfg : PolicyConfig) : kUsToTicksCeil32 cfg 1400 = 46 := by
  simp [kUsToTicksCeil32, zTmcvt, zHzTicks, zHzUs, uint32, uint64]

theorem kUsToTicksCeil32_residency (cfg : PolicyConfig) : kUsToTicksCeil32 cfg 100 = 4 := by
  simp [kUsToTicksCeil32, zTmcvt, zHzTicks, zHzUs, uint32, uint64]

/-- The state the thresholds select for an idle time of `ticks`. -/
def candidate (cfg : PolicyConfig) (ticks : BitVec 32) : PmState :=
  if cfg.idleUsec < wrappedUsecs ticks then .suspendToRam
  else if cfg.activeUsec ≤ wrappedUsecs ticks then .suspendToIdle
  else .active

/-- Ticks a state needs before it is worth entering. -/
def requiredTicks : PmState → ℕ
  | .suspendToRam => 50
  | _ => 0

@[simp] theorem chooseState_state (cfg : PolicyConfig) (record : PmStateInfo)
    (ticks : BitVec 32) : (chooseState cfg record ticks).state = candidate cfg ticks := by
  simp only [chooseState, candidate, idleUsecs_eq]
  split_ifs <;> rfl

theorem chooseState_required (cfg : PolicyConfig) (record : PmStateInfo) (ticks : BitVec 32) :
    (chooseState cfg record ticks).exitLatencyTicks.toNat +
        (chooseState cfg record ticks).minResidencyTicks.toNat =
      requiredTicks (candidate cfg ticks) := by
  simp only [chooseState, candidate, idleUsecs_eq, kUsToTicksCeil32_latency,
    kUsToTicksCeil32_residency]
  split_ifs <;> rfl

lemma requiredTicks_le (st : PmState) : requiredTicks st ≤ 50 := by
  cases st <;> decide

/-- The comparison in 32 bits is exact, since the sum is small; and "forever"
is longer than any state requires. -/
lemma longEnough_eq (cfg : PolicyConfig) (record : PmStateInfo) (ticks : BitVec 32) :
    (ticksForever cfg ticks || decide (ticks ≥ (chooseState cfg record ticks).exitLatencyTicks +
      (chooseState cfg record ticks).minResidencyTicks)) =
    decide (requiredTicks (candidate cfg ticks) ≤ ticks.toNat) := by
  have hreq := chooseState_required cfg record ticks
  have hle := requiredTicks_le (candidate cfg ticks)
  generalize requiredTicks (candidate cfg ticks) = required at hreq hle ⊢
  generalize (chooseState cfg record ticks).exitLatencyTicks = latency at hreq ⊢
  generalize (chooseState cfg record ticks).minResidencyTicks = residency at hreq ⊢
  have hsum : (latency + residency).toNat = required := by
    rw [BitVec.toNat_add, hreq]
    exact Nat.mod_eq_of_lt (lt_of_le_of_lt hle (by norm_num))
  have hge : ticks ≥ latency + residency ↔ required ≤ ticks.toNat := by
    rw [ge_iff_le, BitVec.le_def, hsum]
  have hlong (hf : ticksForever cfg ticks = true) : required ≤ ticks.toNat := by
    simp only [ticksForever, Bool.and_eq_true, beq_iff_eq] at hf
    have hall : ticks.toNat = 4294967295 := by simp [hf.2]
    omega
  rw [Bool.eq_iff_iff]
  simp only [Bool.or_eq_true, decide_eq_true_eq, hge, or_iff_right_iff_imp]
  exact hlong

/-- The answer in closed form: the candidate's record, unless its counter is
nonzero or the idle time is shorter than its latency plus residency. -/
theorem pmPolicyNextState_answer (cfg : PolicyConfig) (p : PolicyState) (ticks : BitVec 32) :
    (pmPolicyNextState cfg p ticks).2 =
      if p.stateLockCnt (candidate cfg ticks) = 0 ∧
          requiredTicks (candidate cfg ticks) ≤ ticks.toNat then
        some (chooseState cfg p.state ticks)
      else none := by
  simp only [pmPolicyNextState, pmPolicyStateLockIsActive, chooseState_state, longEnough_eq,
    bne_iff_ne, decide_eq_true_eq]
  by_cases hz : p.stateLockCnt (candidate cfg ticks) = 0
  · rw [if_neg (not_not_intro hz)]
    by_cases ht : requiredTicks (candidate cfg ticks) ≤ ticks.toNat
    · rw [if_pos ht, if_pos ⟨hz, ht⟩]
    · rw [if_neg ht, if_neg fun h => ht h.2]
  · rw [if_pos hz, if_neg fun h => hz h.1]

/-- One call of the lock interface. -/
inductive LockOp where
  | get (st : PmState)
  | put (st : PmState)
  deriving DecidableEq, Repr

def lockStep (p : PolicyState) : LockOp → PolicyState
  | .get st => pmPolicyStateLockGet p st
  | .put st => pmPolicyStateLockPut p st

/-- Policy state after a history of lock calls, from zero counters and with any
contents left in the static record. -/
def afterHistory (record : PmStateInfo) (history : List LockOp) : PolicyState :=
  run lockStep ⟨fun _ => 0, record⟩ history

def gets (history : List LockOp) (st : PmState) : ℕ := history.count (.get st)
def puts (history : List LockOp) (st : PmState) : ℕ := history.count (.put st)

/-- At no point of the history have the puts of a state exceeded its gets. -/
def Balanced (history : List LockOp) : Prop :=
  ∀ past, past <+: history → ∀ st, puts past st ≤ gets past st

/-- The answer of the policy after a history. -/
def answer (cfg : PolicyConfig) (record : PmStateInfo) (history : List LockOp)
    (ticks : BitVec 32) : Option PmStateInfo :=
  (pmPolicyNextState cfg (afterHistory record history) ticks).2

lemma run_lockStep_state (p : PolicyState) (history : List LockOp) :
    (run lockStep p history).state = p.state := by
  induction history generalizing p with
  | nil => rfl
  | cons op ops ih => cases op <;> exact ih _

lemma gets_append (past rest : List LockOp) (st : PmState) :
    gets (past ++ rest) st = gets past st + gets rest st := List.count_append

lemma puts_append (past rest : List LockOp) (st : PmState) :
    puts (past ++ rest) st = puts past st + puts rest st := List.count_append

/-- What one call does to the counters. -/
lemma lockStep_cnt (p : PolicyState) (op : LockOp) (st : PmState) :
    (lockStep p op).stateLockCnt st =
      p.stateLockCnt st + BitVec.ofNat 32 (gets [op] st) - BitVec.ofNat 32 (puts [op] st) := by
  cases op with
  | get s =>
    by_cases h : s = st
    · subst s
      simp [lockStep, pmPolicyStateLockGet, gets, puts]
    · simp [lockStep, pmPolicyStateLockGet, gets, puts, h, Ne.symm h]
  | put s =>
    by_cases h : s = st
    · subst s
      simp [lockStep, pmPolicyStateLockPut, gets, puts]
    · simp [lockStep, pmPolicyStateLockPut, gets, puts, h, Ne.symm h]

/-- A counter is the number of gets minus the number of puts, in 32 bits. -/
lemma run_lockStep_cnt (p : PolicyState) (history : List LockOp) (st : PmState) :
    (run lockStep p history).stateLockCnt st =
      p.stateLockCnt st + BitVec.ofNat 32 (gets history st) - BitVec.ofNat 32 (puts history st) := by
  induction history generalizing p with
  | nil => simp [gets, puts]
  | cons op ops ih =>
    have hgets : gets (op :: ops) st = gets [op] st + gets ops st := gets_append [op] ops st
    have hputs : puts (op :: ops) st = puts [op] st + puts ops st := puts_append [op] ops st
    rw [run_cons, ih, lockStep_cnt, hgets, hputs, BitVec.ofNat_add, BitVec.ofNat_add]
    ring

/-- Gets of a state not yet undone by a put. -/
def outstanding (history : List LockOp) (st : PmState) : ℕ :=
  gets history st - puts history st

lemma balanced_puts_le {history : List LockOp} (hb : Balanced history) (st : PmState) :
    puts history st ≤ gets history st := hb history List.prefix_rfl st

lemma afterHistory_cnt_eq_zero (record : PmStateInfo) {history : List LockOp}
    (hb : Balanced history) (st : PmState) :
    (afterHistory record history).stateLockCnt st = 0 ↔ outstanding history st % 2 ^ 32 = 0 := by
  have hle := balanced_puts_le hb st
  have hsplit : gets history st = outstanding history st + puts history st := by
    unfold outstanding
    omega
  have hcnt : (afterHistory record history).stateLockCnt st =
      BitVec.ofNat 32 (outstanding history st) := by
    rw [afterHistory, run_lockStep_cnt, hsplit, BitVec.ofNat_add]
    simp only [zero_add, add_sub_cancel_right]
  rw [hcnt]
  constructor
  · intro h
    simpa using congrArg BitVec.toNat h
  · intro h
    apply BitVec.eq_of_toNat_eq
    simpa using h

/-- The answer after a balanced history, in terms of outstanding locks. -/
theorem answer_eq (cfg : PolicyConfig) (record : PmStateInfo) {history : List LockOp}
    (hb : Balanced history) (ticks : BitVec 32) :
    answer cfg record history ticks =
      if outstanding history (candidate cfg ticks) % 2 ^ 32 = 0 ∧
          requiredTicks (candidate cfg ticks) ≤ ticks.toNat then
        some (chooseState cfg record ticks)
      else none := by
  rw [answer, pmPolicyNextState_answer]
  simp only [afterHistory_cnt_eq_zero record hb]
  rw [afterHistory, run_lockStep_state]

/-- What the interface promises of a non-NULL answer: a state that is not
active, has no lock left, and fits into the idle time. -/
structure Admissible (history : List LockOp) (ticks : BitVec 32) (info : PmStateInfo) : Prop where
  notActive : info.state ≠ .active
  unlocked : puts history info.state = gets history info.state
  fits : info.exitLatencyTicks.toNat + info.minResidencyTicks.toNat ≤ ticks.toNat

/-- Calls on PM_STATE_ACTIVE alone. -/
def OnActive (ops : List LockOp) : Prop := ∀ op ∈ ops, op = .get .active ∨ op = .put .active

/-- The promises of the policy interface after a history, for one tick count:
answers are admissible, and locking PM_STATE_ACTIVE has no effect on them. -/
structure PolicyContract (cfg : PolicyConfig) (record : PmStateInfo) (history : List LockOp)
    (ticks : BitVec 32) : Prop where
  admissible : ∀ info, answer cfg record history ticks = some info →
    Admissible history ticks info
  activeNeutral : ∀ more, OnActive more → Balanced (history ++ more) →
    answer cfg record (history ++ more) ticks = answer cfg record history ticks

lemma onActive_outstanding {more : List LockOp} (h : OnActive more) (history : List LockOp)
    {st : PmState} (hst : st ≠ .active) :
    outstanding (history ++ more) st = outstanding history st := by
  have hget : LockOp.get st ∉ more := by
    intro hm
    rcases h _ hm with he | he
    · exact hst (LockOp.get.inj he)
    · cases he
  have hput : LockOp.put st ∉ more := by
    intro hm
    rcases h _ hm with he | he
    · cases he
    · exact hst (LockOp.put.inj he)
  simp [outstanding, gets, puts, List.count_append, List.count_eq_zero_of_not_mem hget,
    List.count_eq_zero_of_not_mem hput]

/-- The idle time is beyond one of the thresholds. -/
def WorthSleeping (cfg : PolicyConfig) (ticks : BitVec 32) : Prop :=
  cfg.idleUsec < wrappedUsecs ticks ∨ cfg.activeUsec ≤ wrappedUsecs ticks

lemma worthSleeping_iff (cfg : PolicyConfig) (ticks : BitVec 32) :
    WorthSleeping cfg ticks ↔ candidate cfg ticks ≠ .active := by
  unfold WorthSleeping candidate
  split_ifs with hdeep hidle
  · simp [hdeep]
  · simp [hidle]
  · simp only [ne_eq, not_true_eq_false, iff_false]
    omega

/-- A locked state has a nonzero 32-bit counter. -/
def LockCounted (history : List LockOp) (st : PmState) : Prop :=
  outstanding history st % 2 ^ 32 = 0 → outstanding history st = 0

/-- Undoing every outstanding lock of a state keeps a history balanced. -/
lemma balanced_release {history : List LockOp} (hb : Balanced history) (st : PmState) :
    Balanced (history ++ List.replicate (outstanding history st) (.put st)) := by
  intro past hpast s
  rcases List.prefix_or_prefix_of_prefix hpast (List.prefix_append history _) with hp | ⟨tail, rfl⟩
  · exact hb past hp s
  · obtain ⟨hk, htail⟩ := List.prefix_replicate_iff.mp ((List.prefix_append_right_inj history).mp hpast)
    rw [htail]
    have hle := balanced_puts_le hb s
    by_cases hs : st = s
    · subst s
      simp only [gets, puts, outstanding, List.count_append, List.count_replicate_self] at *
      omega
    · simpa [gets, puts, List.count_append, List.count_replicate, hs] using hle

/-- While the thresholds select PM_STATE_ACTIVE, the lock counter of that state
decides whether the answer is NULL, which no contract allows. -/
lemma worthSleeping_of_contract {cfg : PolicyConfig} {record : PmStateInfo}
    {history : List LockOp} (hb : Balanced history) {ticks : BitVec 32}
    (h : PolicyContract cfg record history ticks) : WorthSleeping cfg ticks := by
  rw [worthSleeping_iff]
  intro hc
  have hb' := balanced_release hb .active
  have hone := h.activeNeutral _
    (fun op hop => Or.inr (List.eq_of_mem_replicate hop)) hb'
  have hzero : outstanding
      (history ++ List.replicate (outstanding history .active) (.put .active)) .active = 0 := by
    simp only [outstanding, gets, puts, List.count_append, List.count_replicate_self]
    simp only [List.count_replicate, beq_iff_eq, reduceCtorEq, if_false]
    omega
  have hnew := answer_eq cfg record hb' ticks
  rw [hc, hzero, if_pos ⟨rfl, Nat.zero_le _⟩] at hnew
  rw [hnew] at hone
  exact (h.admissible _ hone.symm).notActive (by rw [chooseState_state, hc])

/-- Beyond CONFIG_PM_IDLE_USEC the state to count the locks of is
PM_STATE_SUSPEND_TO_RAM, once 50 ticks leave room for it; from
CONFIG_PM_ACTIVE_USEC on it is PM_STATE_SUSPEND_TO_IDLE. -/
def LocksCounted (cfg : PolicyConfig) (history : List LockOp) (ticks : BitVec 32) : Prop :=
  if cfg.idleUsec < wrappedUsecs ticks then
    50 ≤ ticks.toNat → LockCounted history .suspendToRam
  else LockCounted history .suspendToIdle

lemma locksCounted_iff {cfg : PolicyConfig} {ticks : BitVec 32} (history : List LockOp)
    (h : WorthSleeping cfg ticks) :
    LocksCounted cfg history ticks ↔
      (requiredTicks (candidate cfg ticks) ≤ ticks.toNat →
        LockCounted history (candidate cfg ticks)) := by
  unfold LocksCounted candidate
  by_cases hdeep : cfg.idleUsec < wrappedUsecs ticks
  · rw [if_pos hdeep, if_pos hdeep]
    rfl
  · have hidle : cfg.activeUsec ≤ wrappedUsecs ticks := h.resolve_left hdeep
    rw [if_neg hdeep, if_neg hdeep, if_pos hidle]
    exact (imp_iff_right (Nat.zero_le _)).symm

/-- The policy keeps the promises of its interface exactly when the microseconds
of the idle time, in 32 bits, are beyond one of the thresholds, and the state for
so long an idle time does not carry a multiple of 2^32 outstanding locks. -/
theorem policyContract_iff (cfg : PolicyConfig) (record : PmStateInfo) (history : List LockOp)
    (ticks : BitVec 32) (hb : Balanced history) :
    PolicyContract cfg record history ticks ↔
      (cfg.idleUsec < wrappedUsecs ticks ∨ cfg.activeUsec ≤ wrappedUsecs ticks) ∧
        LocksCounted cfg history ticks := by
  have hanswer := answer_eq cfg record hb ticks
  constructor
  · intro h
    have hsleep := worthSleeping_of_contract hb h
    refine ⟨hsleep, (locksCounted_iff history hsleep).mpr fun hfits hmod => ?_⟩
    rw [if_pos ⟨hmod, hfits⟩] at hanswer
    have hunlocked := (h.admissible _ hanswer).unlocked
    rw [chooseState_state] at hunlocked
    simp [outstanding, hunlocked]
  · rintro ⟨hsleep, hcounted⟩
    have hlocks := (locksCounted_iff history hsleep).mp hcounted
    have hc := (worthSleeping_iff cfg ticks).mp hsleep
    refine ⟨fun info hinfo => ?_, fun more hmore hbm => ?_⟩
    · rw [hanswer] at hinfo
      split_ifs at hinfo with hcond
      cases hinfo
      have hle := balanced_puts_le hb (candidate cfg ticks)
      have hnone := hlocks hcond.2 hcond.1
      refine ⟨by rwa [chooseState_state], ?_, by rw [chooseState_required]; exact hcond.2⟩
      rw [chooseState_state]
      unfold outstanding at hnone
      omega
    · rw [hanswer, answer_eq cfg record hbm ticks, onActive_outstanding hmore history hc]

/-- The default thresholds, 64-bit kernel timeouts. -/
def defaultConfig : PolicyConfig := ⟨100, 1400, 365, true⟩

def zeroRecord : PmStateInfo := ⟨.active, 0, 0, 0⟩

lemma balanced_nil : Balanced [] := by
  intro past hpast st
  rw [List.prefix_nil.mp hpast]
  exact le_rfl

lemma balanced_get {history : List LockOp} (hb : Balanced history) (st : PmState) :
    Balanced (history ++ [.get st]) := by
  intro past hpast s
  rcases List.prefix_concat_iff.mp hpast with rfl | hp
  · have hle := balanced_puts_le hb s
    have hputs : puts [LockOp.get st] s = 0 := rfl
    rw [gets_append, puts_append, hputs]
    omega
  · exact hb past hp s

/-- A put keeps the history balanced while a get is left to undo. -/
lemma balanced_put {history : List LockOp} (hb : Balanced history) {st : PmState}
    (hlocked : puts history st < gets history st) : Balanced (history ++ [.put st]) := by
  intro past hpast s
  rcases List.prefix_concat_iff.mp hpast with rfl | hp
  · have hle := balanced_puts_le hb s
    rw [gets_append, puts_append]
    by_cases hs : st = s
    · subst s
      have hone : puts [LockOp.put st] st = 1 := List.count_singleton_self
      omega
    · have hnone : puts [LockOp.put st] s = 0 := by simp [puts, hs]
      omega
  · exact hb past hp s

/-- PM_STATE_SUSPEND_TO_IDLE locked twice and released once, after
PM_STATE_SUSPEND_TO_RAM was locked and released. -/
def someLocks : List LockOp :=
  [.get .suspendToRam, .get .suspendToIdle, .put .suspendToRam, .get .suspendToIdle,
    .put .suspendToIdle]

lemma balanced_someLocks : Balanced someLocks := by
  have hram : Balanced [.get .suspendToRam, .get .suspendToIdle, .put .suspendToRam] :=
    balanced_put (balanced_get (balanced_get balanced_nil _) _) (by decide)
  exact balanced_put (balanced_get hram _) (by decide)

/-- One second of idle time after those calls: the promises are kept. -/
theorem policyContract_one_second :
    PolicyContract defaultConfig zeroRecord someLocks 32768 := by
  have hdeep : defaultConfig.idleUsec < wrappedUsecs 32768 := by decide
  have hcounted : LocksCounted defaultConfig someLocks 32768 := by
    rw [LocksCounted, if_pos hdeep]
    exact fun _ _ => rfl
  exact (policyContract_iff defaultConfig zeroRecord someLocks 32768 balanced_someLocks).mpr
    ⟨Or.inl hdeep, hcounted⟩

/-- With one tick of idle time and no locks the answer is not NULL but the
active state, so the promises are broken. -/
theorem policyContract_one_tick :
    Balanced [] ∧
      answer defaultConfig zeroRecord [] 1 = some ⟨.active, 0, 0, 0⟩ ∧
      ¬ PolicyContract defaultConfig zeroRecord [] 1 := by
  have hanswer : answer defaultConfig zeroRecord [] 1 = some ⟨.active, 0, 0, 0⟩ := by
    decide
  exact ⟨balanced_nil, hanswer, fun h => (h.admissible _ hanswer).notActive rfl⟩

end WchIotSdk.PowerPolicy
