import WchIotSdk.PowerPolicy
import WchIotSdk.RtcTimer

/-!
# System suspend and the interrupts that end it

`pm_system_suspend` runs in the idle thread; interrupt handlers may call
`pm_system_resume` between any two of its steps. The machine below has one
program point for each step the thread takes on the shared data: the record
`z_pm_state`, the bit `z_post_ops_required` and the alarm register. The loops of
`pm_state_notify` run with interrupts locked and are one step each. An
interrupt's call runs to its end before the thread goes on.

What the policy answers and what the RTC reads are inputs of each call. Every
effect visible outside is recorded, in order, as an observation.
-/
namespace WchIotSdk.PowerSuspend
open EventRuns PowerPolicy RtcTimer

/-- `struct pm_notifier`, by which callbacks are not NULL. -/
structure Notifier where
  stateEntry : Bool
  stateExit : Bool
  deriving DecidableEq, Repr

/-- What a step does outside the shared record and bit. -/
inductive Obs where
  | policyAsked (sleepTicks : BitVec 32)
  | alarm (trig : BitVec 32)
  | callback (notifier : ℕ) (entering : Bool) (state : PmState)
  | stateSet (state : PmState) (substateId : BitVec 8)
  | exitPostOps (state : PmState) (substateId : BitVec 8)
  deriving DecidableEq, Repr

/-- Program points of `pm_system_suspend`. From `resumeTest` on, the thread is
inside its final `pm_system_resume` and `code` is the value it will return. -/
inductive Pc where
  | idle
  | readClock
  | askPolicy (sleepTicks : BitVec 32)
  | record (info : PmStateInfo)
  | setAlarm
  | notifyEntry
  | requirePostOps
  | loadState
  | loadSubstate (state : PmState)
  | firstWait (state : PmState) (substateId : BitVec 8)
  | readLatency
  | secondAlarm
  | secondWait
  | resumeTest (code : ℕ)
  | resumePostOps (code : ℕ)
  | resumeNotify (code : ℕ)
  | resumeReset (code : ℕ)
  | returned (code : ℕ)
  deriving DecidableEq, Repr

/-- Inputs of one call: the argument, the RTC count it reads, and what
`pm_policy_next_state` answers. -/
structure Call where
  ticks : BitVec 32
  now : BitVec 32
  answer : Option PmStateInfo
  deriving DecidableEq, Repr

structure Machine where
  pc : Pc
  call : Call
  zPmState : PmStateInfo
  zPostOpsRequired : Bool
  /-- observations of the earlier calls, and of the latest one -/
  past : List Obs
  trace : List Obs
  deriving DecidableEq, Repr

/-- `(struct pm_state_info){PM_STATE_ACTIVE, 0, 0}`. -/
def activeInfo : PmStateInfo := ⟨.active, 0, 0, 0⟩

def initial : Machine := ⟨.idle, ⟨0, 0, none⟩, activeInfo, false, [], []⟩

namespace Machine

def observe (m : Machine) (os : List Obs) : Machine := { m with trace := m.trace ++ os }

/-- All observations so far. -/
def log (m : Machine) : List Obs := m.past ++ m.trace

/-- No call is running. -/
def AtRest (m : Machine) : Prop := m.pc = .idle ∨ ∃ code, m.pc = .returned code

end Machine

/-- The callbacks of `pm_state_notify`, down the list from position `k`. -/
def notifyFrom (entering : Bool) (state : PmState) : ℕ → List Notifier → List Obs
  | _, [] => []
  | k, n :: ns =>
    (if if entering then n.stateEntry else n.stateExit then [.callback k entering state] else []) ++
      notifyFrom entering state (k + 1) ns

def pmStateNotify (notifiers : List Notifier) (entering : Bool) (m : Machine) : Machine :=
  m.observe (notifyFrom entering m.zPmState.state 0 notifiers)

def pmStateExitPostOps (m : Machine) : Machine :=
  m.observe [.exitPostOps m.zPmState.state m.zPmState.substateId]

/-- The atomic test-and-clear of the bit leaves it clear. -/
def clearPostOps (m : Machine) : Machine := { m with zPostOpsRequired := false }

def resetState (m : Machine) : Machine := { m with zPmState := activeInfo }

/-- A whole `pm_system_resume`, as an interrupt handler runs it. -/
def pmSystemResume (notifiers : List Notifier) (m : Machine) : Machine :=
  if m.zPostOpsRequired then
    resetState (pmStateNotify notifiers false (pmStateExitPostOps (clearPostOps m)))
  else m

/-- The idle time `pm_system_suspend` hands to the policy. -/
def sleepTicks (ticks now : BitVec 32) : BitVec 32 :=
  if ticks ≥ now then ticks - now
  else ticks + BitVec.ofNat 32 configSocRtcMaxTick - now

/-- One step of the thread. -/
def threadStep (notifiers : List Notifier) (m : Machine) : Machine :=
  match m.pc with
  | .idle => m
  | .readClock => { m with pc := .askPolicy (sleepTicks m.call.ticks m.call.now) }
  | .askPolicy sleep =>
    match m.call.answer with
    | none => { m.observe [.policyAsked sleep] with pc := .returned 2 }
    | some info => { m.observe [.policyAsked sleep] with pc := .record info }
  | .record info => { m with zPmState := info, pc := .setAlarm }
  | .setAlarm =>
    { m.observe [.alarm (sysClockSetTicks (m.call.ticks - m.zPmState.exitLatencyTicks) true)] with
      pc := .notifyEntry }
  | .notifyEntry => { pmStateNotify notifiers true m with pc := .requirePostOps }
  | .requirePostOps => { m with zPostOpsRequired := true, pc := .loadState }
  | .loadState => { m with pc := .loadSubstate m.zPmState.state }
  | .loadSubstate state => { m with pc := .firstWait state m.zPmState.substateId }
  | .firstWait state substateId => { m.observe [.stateSet state substateId] with pc := .readLatency }
  | .readLatency =>
    if m.zPmState.exitLatencyTicks ≠ 0 then { m with pc := .secondAlarm }
    else { m with pc := .resumeTest 1 }
  | .secondAlarm =>
    { m.observe [.alarm (sysClockSetTicks m.call.ticks true)] with pc := .secondWait }
  | .secondWait => { m.observe [.stateSet .suspendToIdle 0] with pc := .resumeTest 0 }
  | .resumeTest code =>
    if m.zPostOpsRequired then { clearPostOps m with pc := .resumePostOps code }
    else { m with pc := .returned code }
  | .resumePostOps code => { pmStateExitPostOps m with pc := .resumeNotify code }
  | .resumeNotify code => { pmStateNotify notifiers false m with pc := .resumeReset code }
  | .resumeReset code => { resetState m with pc := .returned code }
  | .returned _ => m

/-- A new call, a step of the thread, or an interrupt that calls
`pm_system_resume`. A call is made only when none is running. -/
inductive Event where
  | call (c : Call)
  | thread
  | isr
  deriving DecidableEq, Repr

def begin (m : Machine) (c : Call) : Machine :=
  { m with pc := .readClock, call := c, past := m.log, trace := [] }

def suspendStep (notifiers : List Notifier) (m : Machine) : Event → Machine
  | .call c =>
    match m.pc with
    | .idle => begin m c
    | .returned _ => begin m c
    | _ => m
  | .thread => threadStep notifiers m
  | .isr => pmSystemResume notifiers m

/-- Thread steps left before the running call returns. -/
def Pc.stepsLeft : Pc → ℕ
  | .idle => 0
  | .readClock => 16
  | .askPolicy _ => 15
  | .record _ => 14
  | .setAlarm => 13
  | .notifyEntry => 12
  | .requirePostOps => 11
  | .loadState => 10
  | .loadSubstate _ => 9
  | .firstWait _ _ => 8
  | .readLatency => 7
  | .secondAlarm => 6
  | .secondWait => 5
  | .resumeTest _ => 4
  | .resumePostOps _ => 3
  | .resumeNotify _ => 2
  | .resumeReset _ => 1
  | .returned _ => 0

@[simp] theorem pmSystemResume_pc (notifiers : List Notifier) (m : Machine) :
    (pmSystemResume notifiers m).pc = m.pc := by
  unfold pmSystemResume
  split <;> rfl

@[simp] theorem pmSystemResume_call (notifiers : List Notifier) (m : Machine) :
    (pmSystemResume notifiers m).call = m.call := by
  unfold pmSystemResume
  split <;> rfl

/-- With the bit clear, an interrupt changes nothing. -/
theorem pmSystemResume_clear (notifiers : List Notifier) (m : Machine)
    (h : m.zPostOpsRequired = false) : pmSystemResume notifiers m = m := by
  simp [pmSystemResume, h]

theorem threadStep_stepsLeft (notifiers : List Notifier) (m : Machine) :
    (threadStep notifiers m).pc.stepsLeft ≤ m.pc.stepsLeft - 1 := by
  unfold threadStep
  cases hpc : m.pc with
  | askPolicy sleep => cases m.call.answer <;> simp [Pc.stepsLeft]
  | readLatency => dsimp only; split <;> simp [Pc.stepsLeft]
  | resumeTest code => dsimp only; split <;> simp [Pc.stepsLeft]
  | idle => simp [hpc, Pc.stepsLeft]
  | returned code => simp [hpc, Pc.stepsLeft]
  | _ => simp [Pc.stepsLeft]

theorem atRest_iff_stepsLeft (m : Machine) : m.AtRest ↔ m.pc.stepsLeft = 0 := by
  unfold Machine.AtRest
  cases m.pc <;> simp [Pc.stepsLeft]

/-- Events within one call. -/
def WithinCall (es : List Event) : Prop := ∀ c, Event.call c ∉ es

lemma WithinCall.tail {e : Event} {es : List Event} (hes : WithinCall (e :: es)) :
    WithinCall es := fun c hc => hes c (List.mem_cons_of_mem e hc)

/-- Interrupts cannot hold the thread up: it returns after its own steps. -/
theorem run_stepsLeft (notifiers : List Notifier) (m : Machine) (es : List Event)
    (hes : WithinCall es) :
    (run (suspendStep notifiers) m es).pc.stepsLeft ≤ m.pc.stepsLeft - es.count .thread := by
  induction es generalizing m with
  | nil => simp
  | cons e es ih =>
    have hrest := ih (suspendStep notifiers m e) hes.tail
    rw [run_cons]
    cases e with
    | call c => exact absurd List.mem_cons_self (hes c)
    | thread =>
      have hstep := threadStep_stepsLeft notifiers m
      simp only [suspendStep, List.count_cons_self] at hrest ⊢
      omega
    | isr =>
      simp only [suspendStep, pmSystemResume_pc] at hrest ⊢
      simpa using hrest

end WchIotSdk.PowerSuspend
