import WchIotSdk.SuspendPairing

/-!
# One suspend call under interrupts

From the atomic set of `z_post_ops_required` on, an interrupt may reset the
record that the thread goes on reading. What the call does then depends on two
windows: the load of the state for the first `pm_state_set`, and the reads up to
the exit latency. The invariant carries, as propositions, whether an interrupt
has fallen into them; at the return they decide what was waited for and which
code is returned.
-/
namespace WchIotSdk.PowerSuspend
open EventRuns PowerPolicy RtcTimer

/-- Alarms and power state requests, in order. -/
inductive Wait where
  | alarm (trig : BitVec 32)
  | set (state : PmState)
  deriving DecidableEq, Repr

def waits (trace : List Obs) : List Wait :=
  trace.filterMap fun
    | .alarm trig => some (.alarm trig)
    | .stateSet state _ => some (.set state)
    | _ => none

/-- Idle times handed to the policy. -/
def asked (trace : List Obs) : List (BitVec 32) :=
  trace.filterMap fun
    | .policyAsked sleep => some sleep
    | _ => none

/-- States announced by entry notifications. -/
def announced (trace : List Obs) : List PmState :=
  trace.filterMap fun
    | .callback _ true state => some state
    | _ => none

/-- States of which a notifier has been told that they are entered. -/
def toldTo (i : ℕ) (trace : List Obs) : List PmState :=
  trace.filterMap fun
    | .callback j true state => if j = i then some state else none
    | _ => none

@[simp] theorem toldTo_append (i : ℕ) (l r : List Obs) :
    toldTo i (l ++ r) = toldTo i l ++ toldTo i r := List.filterMap_append

@[simp] theorem waits_append (l r : List Obs) : waits (l ++ r) = waits l ++ waits r :=
  List.filterMap_append

@[simp] theorem asked_append (l r : List Obs) : asked (l ++ r) = asked l ++ asked r :=
  List.filterMap_append

@[simp] theorem announced_append (l r : List Obs) :
    announced (l ++ r) = announced l ++ announced r := List.filterMap_append

@[simp] theorem waits_notifyFrom (entering : Bool) (state : PmState) (k : ℕ)
    (ns : List Notifier) : waits (notifyFrom entering state k ns) = [] :=
  filterMap_notifyFrom (fun _ _ => rfl) ns

@[simp] theorem asked_notifyFrom (entering : Bool) (state : PmState) (k : ℕ)
    (ns : List Notifier) : asked (notifyFrom entering state k ns) = [] :=
  filterMap_notifyFrom (fun _ _ => rfl) ns

@[simp] theorem announced_notifyFrom_exit (state : PmState) (k : ℕ) (ns : List Notifier) :
    announced (notifyFrom false state k ns) = [] := filterMap_notifyFrom (fun _ _ => rfl) ns

@[simp] theorem toldTo_notifyFrom_exit (i : ℕ) (state : PmState) (k : ℕ) (ns : List Notifier) :
    toldTo i (notifyFrom false state k ns) = [] := filterMap_notifyFrom (fun _ _ => rfl) ns

lemma toldTo_eq (i : ℕ) (trace : List Obs) :
    toldTo i trace = (seenBy i trace).filterMap fun e => if e.1 then some e.2 else none := by
  rw [toldTo, seenBy, List.filterMap_filterMap]
  refine List.filterMap_congr fun o _ => ?_
  cases o with
  | callback j entering state =>
    cases entering <;> by_cases hj : j = i <;> simp [hj]
  | _ => rfl

lemma toldTo_notifyFrom {ns : List Notifier} {i : ℕ} {n : Notifier} (hn : ns[i]? = some n)
    (state : PmState) :
    toldTo i (notifyFrom true state 0 ns) = if n.stateEntry then [state] else [] := by
  have hseen := seenBy_notifyFrom true state 0 ns i n hn
  rw [Nat.zero_add] at hseen
  rw [toldTo_eq, hseen]
  cases hw : n.stateEntry <;> simp [Notifier.wants, hw]

lemma mem_announced_notifyFrom {state s : PmState} {k : ℕ} {ns : List Notifier}
    (h : s ∈ announced (notifyFrom true state k ns)) : s = state := by
  obtain ⟨o, ho, hs⟩ := List.mem_filterMap.mp h
  obtain ⟨j, _, rfl⟩ := mem_notifyFrom ho
  exact (Option.some.inj hs).symm

/-- The alarm of the first wait, as stored in the register. -/
def firstAlarm (c : Call) (info : PmStateInfo) : BitVec 32 :=
  sysClockSetTicks (c.ticks - info.exitLatencyTicks) true

/-- The alarm of the second wait. -/
def lastAlarm (c : Call) : BitVec 32 := sysClockSetTicks c.ticks true

/-- What has been seen of a call that is to enter the state of `info`, before the entry
notifications and after. -/
structure Observed (notifiers : List Notifier) (entered : Bool) (c : Call) (info : PmStateInfo)
    (ws : List Wait) (trace : List Obs) : Prop where
  asked : asked trace = [sleepTicks c.ticks c.now]
  waits : waits trace = ws
  announced : ∀ s ∈ announced trace, s = info.state
  told : ∀ i n, notifiers[i]? = some n →
    toldTo i trace = if entered && n.stateEntry then [info.state] else []

variable {notifiers : List Notifier} {entered : Bool}

/-- Further waits are appended to what has been seen. -/
theorem Observed.append {c : Call} {info : PmStateInfo} {ws : List Wait} {trace : List Obs}
    (h : Observed notifiers entered c info ws trace) (os : List Obs)
    (ha : PowerSuspend.asked os = []) (hn : PowerSuspend.announced os = [])
    (ht : ∀ i, toldTo i os = []) :
    Observed notifiers entered c info (ws ++ PowerSuspend.waits os) (trace ++ os) :=
  ⟨by rw [asked_append, h.asked, ha, List.append_nil], by rw [waits_append, h.waits],
    fun s hs => h.announced s (by rwa [announced_append, hn, List.append_nil] at hs),
    fun i n hi => by rw [toldTo_append, ht, List.append_nil, h.told i n hi]⟩

/-- The record and the bit, as far as interrupts have left them alone. -/
def Undisturbed (info : PmStateInfo) (quiet : Prop) (m : Machine) : Prop :=
  (quiet ∧ m.zPostOpsRequired = true ∧ m.zPmState = info) ∨
    (¬ quiet ∧ m.zPostOpsRequired = false ∧ m.zPmState = activeInfo)

/-- The state loaded for the first wait. -/
def Loaded (info : PmStateInfo) (quiet : Prop) (state : PmState) : Prop :=
  (quiet → state = info.state) ∧ (¬ quiet → state = .active)

/-- How a call ends: `q1` and `q2` say that no interrupt fell into the first
and into the second window. -/
inductive Finished (notifiers : List Notifier) (c : Call) (q1 q2 : Prop) (trace : List Obs) (code : ℕ) : Prop where
  | notSuspended (hanswer : c.answer = none) (hcode : code = 2)
      (hasked : asked trace = [sleepTicks c.ticks c.now]) (hwaits : waits trace = [])
  | oneWait (info : PmStateInfo) (state : PmState) (hanswer : c.answer = some info)
      (hloaded : Loaded info q1 state) (hcode : code = 1)
      (hskip : ¬ (info.exitLatencyTicks ≠ 0 ∧ q1 ∧ q2))
      (hseen : Observed notifiers true c info [.alarm (firstAlarm c info), .set state] trace)
  | twoWaits (info : PmStateInfo) (state : PmState) (hanswer : c.answer = some info)
      (hloaded : Loaded info q1 state) (hcode : code = 0)
      (hlatency : info.exitLatencyTicks ≠ 0 ∧ q1 ∧ q2)
      (hseen : Observed notifiers true c info [.alarm (firstAlarm c info), .set state,
        .alarm (lastAlarm c), .set .suspendToIdle] trace)

/-- The invariant of a running call, by program point. -/
def CallInv (notifiers : List Notifier) (c : Call) (q1 q2 : Prop) (m : Machine) : Prop :=
  m.call = c ∧
  match m.pc with
  | .idle => False
  | .readClock => m.zPostOpsRequired = false ∧ q1 ∧ q2 ∧ m.trace = []
  | .askPolicy sleep =>
    m.zPostOpsRequired = false ∧ q1 ∧ q2 ∧ m.trace = [] ∧ sleep = sleepTicks c.ticks c.now
  | .record info =>
    m.zPostOpsRequired = false ∧ q1 ∧ q2 ∧ c.answer = some info ∧
      Observed notifiers false c info [] m.trace
  | .setAlarm =>
    m.zPostOpsRequired = false ∧ q1 ∧ q2 ∧ c.answer = some m.zPmState ∧
      Observed notifiers false c m.zPmState [] m.trace
  | .notifyEntry =>
    m.zPostOpsRequired = false ∧ q1 ∧ q2 ∧ c.answer = some m.zPmState ∧
      Observed notifiers false c m.zPmState [.alarm (firstAlarm c m.zPmState)] m.trace
  | .requirePostOps =>
    m.zPostOpsRequired = false ∧ q1 ∧ q2 ∧ c.answer = some m.zPmState ∧
      Observed notifiers true c m.zPmState [.alarm (firstAlarm c m.zPmState)] m.trace
  | .loadState => ∃ info, c.answer = some info ∧ q2 ∧ Undisturbed info q1 m ∧
      Observed notifiers true c info [.alarm (firstAlarm c info)] m.trace
  | .loadSubstate state | .firstWait state _ => ∃ info, c.answer = some info ∧
      Loaded info q1 state ∧ Undisturbed info (q1 ∧ q2) m ∧
      Observed notifiers true c info [.alarm (firstAlarm c info)] m.trace
  | .readLatency => ∃ info state, c.answer = some info ∧ Loaded info q1 state ∧
      Undisturbed info (q1 ∧ q2) m ∧
      Observed notifiers true c info [.alarm (firstAlarm c info), .set state] m.trace
  | .secondAlarm => ∃ info state, c.answer = some info ∧ Loaded info q1 state ∧
      (info.exitLatencyTicks ≠ 0 ∧ q1 ∧ q2) ∧
      Observed notifiers true c info [.alarm (firstAlarm c info), .set state] m.trace
  | .secondWait => ∃ info state, c.answer = some info ∧ Loaded info q1 state ∧
      (info.exitLatencyTicks ≠ 0 ∧ q1 ∧ q2) ∧
      Observed notifiers true c info
        [.alarm (firstAlarm c info), .set state, .alarm (lastAlarm c)] m.trace
  | .resumeTest code | .resumePostOps code | .resumeNotify code | .resumeReset code
  | .returned code => Finished notifiers c q1 q2 m.trace code

/-- Observations of a resume: no wait, no question to the policy, no entry. -/
structure ResumeObs (os : List Obs) : Prop where
  waits : waits os = []
  asked : asked os = []
  announced : announced os = []
  told : ∀ i, toldTo i os = []

theorem Observed.resume {c : Call} {info : PmStateInfo} {ws : List Wait} {trace os : List Obs}
    (h : Observed notifiers entered c info ws trace) (hos : ResumeObs os) :
    Observed notifiers entered c info ws (trace ++ os) := by
  have happ := h.append os hos.asked hos.announced hos.told
  rwa [hos.waits, List.append_nil] at happ

theorem Finished.resume {c : Call} {q1 q2 : Prop} {trace os : List Obs} {code : ℕ}
    (h : Finished notifiers c q1 q2 trace code) (hos : ResumeObs os) :
    Finished notifiers c q1 q2 (trace ++ os) code := by
  cases h with
  | notSuspended hanswer hcode hasked hwaits =>
    exact .notSuspended hanswer hcode (by rw [asked_append, hos.asked, List.append_nil, hasked])
      (by rw [waits_append, hos.waits, List.append_nil, hwaits])
  | oneWait info state hanswer hloaded hcode hskip hseen =>
    exact .oneWait info state hanswer hloaded hcode hskip (hseen.resume hos)
  | twoWaits info state hanswer hloaded hcode hlatency hseen =>
    exact .twoWaits info state hanswer hloaded hcode hlatency (hseen.resume hos)

/-- What a resume appends, whoever runs it. -/
lemma pmSystemResume_trace (notifiers : List Notifier) (m : Machine) :
    ∃ os, (pmSystemResume notifiers m).trace = m.trace ++ os ∧ ResumeObs os := by
  unfold pmSystemResume
  split
  · refine ⟨[.exitPostOps m.zPmState.state m.zPmState.substateId] ++
      notifyFrom false m.zPmState.state 0 notifiers, ?_, ?_⟩
    · simp [resetState, pmStateNotify, pmStateExitPostOps, clearPostOps, Machine.observe]
    · constructor
      · rw [waits_append, waits_notifyFrom]
        rfl
      · rw [asked_append, asked_notifyFrom]
        rfl
      · rw [announced_append, announced_notifyFrom_exit]
        rfl
      · intro i
        rw [toldTo_append, toldTo_notifyFrom_exit]
        rfl
  · exact ⟨[], (List.append_nil _).symm, rfl, rfl, rfl, fun _ => rfl⟩

/-- An interrupt in a window ends the undisturbed time. -/
lemma Undisturbed.interrupt {notifiers : List Notifier} {info : PmStateInfo} {quiet : Prop}
    {m : Machine} (h : Undisturbed info quiet m) :
    Undisturbed info False (pmSystemResume notifiers m) := by
  rcases h with ⟨_, hbit, _⟩ | ⟨_, hbit, hz⟩
  · exact Or.inr ⟨id, by simp [pmSystemResume, hbit, resetState, pmStateNotify,
      pmStateExitPostOps, clearPostOps, Machine.observe], by simp [pmSystemResume, hbit, resetState]⟩
  · rw [pmSystemResume_clear notifiers m hbit]
    exact Or.inr ⟨id, hbit, hz⟩

/-- The first window: the bit is set and the state not yet loaded. -/
def BeforeStateLoad (pc : Pc) : Prop := pc = .loadState

/-- The second window: the state is loaded and the latency not yet read. -/
def BeforeLatencyRead : Pc → Prop
  | .loadSubstate _ | .firstWait _ _ | .readLatency => True
  | _ => False

/-- No interrupt falls into a window. -/
def Outside (window : Pc → Prop) (m : Machine) (e : Event) : Prop :=
  e = .isr → ¬ window m.pc

instance : DecidablePred BeforeStateLoad := fun pc => inferInstanceAs (Decidable (pc = .loadState))

instance : DecidablePred BeforeLatencyRead := fun pc => by
  cases pc <;> simp only [BeforeLatencyRead] <;> infer_instance

instance (window : Pc → Prop) [DecidablePred window] (m : Machine) (e : Event) :
    Decidable (Outside window m e) := inferInstanceAs (Decidable (e = .isr → ¬ window m.pc))

/-- The thread keeps the invariant; it never counts as a disturbance. -/
theorem callInv_thread {c : Call} {q1 q2 : Prop} (notifiers : List Notifier) (m : Machine)
    (h : CallInv notifiers c q1 q2 m) : CallInv notifiers c q1 q2 (threadStep notifiers m) := by
  obtain ⟨hcall, h⟩ := h
  unfold threadStep
  cases hpc : m.pc <;> rw [hpc] at h <;> simp only at h ⊢
  case readClock => exact ⟨hcall, h.1, h.2.1, h.2.2.1, h.2.2.2, by rw [hcall]⟩
  case askPolicy sleep =>
    obtain ⟨hbit, h1, h2, htrace, rfl⟩ := h
    have hasked : asked (m.observe [.policyAsked (sleepTicks c.ticks c.now)]).trace =
        [sleepTicks c.ticks c.now] := by
      simp [Machine.observe, htrace, asked]
    have hwaits : waits (m.observe [.policyAsked (sleepTicks c.ticks c.now)]).trace = [] := by
      simp [Machine.observe, htrace, waits]
    cases hans : m.call.answer with
    | none => exact ⟨hcall, .notSuspended (by rw [← hcall, hans]) rfl hasked hwaits⟩
    | some info =>
      refine ⟨hcall, hbit, h1, h2, by rw [← hcall, hans], hasked, hwaits, fun s hs => ?_,
        fun i n hi => ?_⟩
      · simp [Machine.observe, htrace, announced] at hs
      · simp [Machine.observe, htrace, toldTo]
  case record info => exact ⟨hcall, h.1, h.2.1, h.2.2.1, h.2.2.2.1, h.2.2.2.2⟩
  case setAlarm =>
    obtain ⟨hbit, h1, h2, hans, hseen⟩ := h
    rw [hcall]
    exact ⟨hcall, hbit, h1, h2, hans, 
      hseen.append [.alarm (firstAlarm c m.zPmState)] rfl rfl fun _ => rfl⟩
  case notifyEntry =>
    obtain ⟨hbit, h1, h2, hans, hseen⟩ := h
    refine ⟨hcall, hbit, h1, h2, hans, ?_, ?_, fun s hs => ?_, fun i n hi => ?_⟩
    · simp [pmStateNotify, Machine.observe, hseen.asked]
    · simp [pmStateNotify, Machine.observe, hseen.waits]
    · simp only [pmStateNotify, Machine.observe, announced_append, List.mem_append] at hs
      exact hs.elim (hseen.announced s) mem_announced_notifyFrom
    · rw [pmStateNotify, Machine.observe, toldTo_append, hseen.told i n hi, toldTo_notifyFrom hi]
      rfl
  case requirePostOps =>
    obtain ⟨_, h1, h2, hans, hseen⟩ := h
    exact ⟨hcall, m.zPmState, hans, h2, Or.inl ⟨h1, rfl, rfl⟩, hseen⟩
  case loadState =>
    obtain ⟨info, hans, h2, hun, hseen⟩ := h
    refine ⟨hcall, info, hans, ⟨fun hq => ?_, fun hq => ?_⟩, ?_, hseen⟩
    · rcases hun with ⟨_, _, hz⟩ | ⟨hq', _⟩
      · rw [hz]
      · exact absurd hq hq'
    · rcases hun with ⟨hq', _⟩ | ⟨_, _, hz⟩
      · exact absurd hq' hq
      · rw [hz]
        rfl
    · exact hun.imp (fun hu => ⟨⟨hu.1, h2⟩, hu.2⟩) fun hu => ⟨fun hq => hu.1 hq.1, hu.2⟩
  case loadSubstate state =>
    obtain ⟨info, hans, hload, hun, hseen⟩ := h
    exact ⟨hcall, info, hans, hload, hun, hseen⟩
  case firstWait state substateId =>
    obtain ⟨info, hans, hload, hun, hseen⟩ := h
    exact ⟨hcall, info, state, hans, hload, hun,
      hseen.append [.stateSet state substateId] rfl rfl fun _ => rfl⟩
  case readLatency =>
    obtain ⟨info, state, hans, hload, hun, hseen⟩ := h
    rcases hun with ⟨hq, hbit, hz⟩ | ⟨hq, hbit, hz⟩
    · by_cases hl : info.exitLatencyTicks = 0
      · rw [if_neg (by simp [hz, hl])]
        exact ⟨hcall, .oneWait info state hans hload rfl (fun hs => hs.1 hl) hseen⟩
      · rw [if_pos (by rwa [hz])]
        exact ⟨hcall, info, state, hans, hload, ⟨hl, hq⟩, hseen⟩
    · -- The record has been reset, so the latency read is zero.
      rw [if_neg (by simp [hz, activeInfo])]
      exact ⟨hcall, .oneWait info state hans hload rfl (fun hs => hq hs.2) hseen⟩
  case secondAlarm =>
    obtain ⟨info, state, hans, hload, hlat, hseen⟩ := h
    rw [hcall]
    exact ⟨hcall, info, state, hans, hload, hlat,
      hseen.append [.alarm (lastAlarm c)] rfl rfl fun _ => rfl⟩
  case secondWait =>
    obtain ⟨info, state, hans, hload, hlat, hseen⟩ := h
    exact ⟨hcall, .twoWaits info state hans hload rfl hlat
      (hseen.append [.stateSet .suspendToIdle 0] rfl rfl fun _ => rfl)⟩
  case resumeTest code => split <;> exact ⟨hcall, h⟩
  case resumePostOps code =>
    have hos : ResumeObs [.exitPostOps m.zPmState.state m.zPmState.substateId] :=
      ⟨rfl, rfl, rfl, fun _ => rfl⟩
    exact ⟨hcall, h.resume hos⟩
  case resumeNotify code =>
    have hos : ResumeObs (notifyFrom false m.zPmState.state 0 notifiers) :=
      ⟨waits_notifyFrom _ _ _ _, asked_notifyFrom _ _ _ _, announced_notifyFrom_exit _ _ _,
        fun i => toldTo_notifyFrom_exit i _ _ _⟩
    exact ⟨hcall, h.resume hos⟩
  case resumeReset code => exact ⟨hcall, h⟩
  case returned code => exact ⟨hcall, by rwa [hpc]⟩

/-- An interrupt keeps the invariant, and is remembered if it falls into a
window. Before the bit is set and after the windows it does not matter. -/
theorem callInv_isr {c : Call} {q1 q2 : Prop} (notifiers : List Notifier) (m : Machine)
    (h : CallInv notifiers c q1 q2 m) :
    CallInv notifiers c (q1 ∧ Outside BeforeStateLoad m .isr) (q2 ∧ Outside BeforeLatencyRead m .isr)
      (pmSystemResume notifiers m) := by
  obtain ⟨hcall, h⟩ := h
  obtain ⟨os, htrace, hos⟩ := pmSystemResume_trace notifiers m
  refine ⟨by rwa [pmSystemResume_call], ?_⟩
  rw [pmSystemResume_pc]
  cases hpc : m.pc <;> rw [hpc] at h <;> simp only at h ⊢ <;>
    simp only [Outside, hpc, BeforeStateLoad, BeforeLatencyRead, reduceCtorEq, not_false_eq_true,
      not_true_eq_false, implies_true, imp_false, and_true, and_false]
  case readClock => simpa only [pmSystemResume_clear notifiers m h.1] using h
  case askPolicy sleep => simpa only [pmSystemResume_clear notifiers m h.1] using h
  case record info => simpa only [pmSystemResume_clear notifiers m h.1] using h
  case setAlarm => simpa only [pmSystemResume_clear notifiers m h.1] using h
  case notifyEntry => simpa only [pmSystemResume_clear notifiers m h.1] using h
  case requirePostOps => simpa only [pmSystemResume_clear notifiers m h.1] using h
  case loadState =>
    obtain ⟨info, hans, h2, hun, hseen⟩ := h
    exact ⟨info, hans, h2, hun.interrupt, htrace ▸ hseen.resume hos⟩
  case loadSubstate state =>
    obtain ⟨info, hans, hload, hun, hseen⟩ := h
    exact ⟨info, hans, hload, hun.interrupt, htrace ▸ hseen.resume hos⟩
  case firstWait state substateId =>
    obtain ⟨info, hans, hload, hun, hseen⟩ := h
    exact ⟨info, hans, hload, hun.interrupt, htrace ▸ hseen.resume hos⟩
  case readLatency =>
    obtain ⟨info, state, hans, hload, hun, hseen⟩ := h
    exact ⟨info, state, hans, hload, hun.interrupt, htrace ▸ hseen.resume hos⟩
  case secondAlarm =>
    obtain ⟨info, state, hans, hload, hlat, hseen⟩ := h
    exact ⟨info, state, hans, hload, hlat, htrace ▸ hseen.resume hos⟩
  case secondWait =>
    obtain ⟨info, state, hans, hload, hlat, hseen⟩ := h
    exact ⟨info, state, hans, hload, hlat, htrace ▸ hseen.resume hos⟩
  case resumeTest code => exact htrace ▸ h.resume hos
  case resumePostOps code => exact htrace ▸ h.resume hos
  case resumeNotify code => exact htrace ▸ h.resume hos
  case resumeReset code => exact htrace ▸ h.resume hos
  case returned code => exact htrace ▸ h.resume hos

/-- The invariant along the events of one call. -/
theorem callInv_run {c : Call} (notifiers : List Notifier) (m : Machine) (es : List Event)
    (hes : WithinCall es) {q1 q2 : Prop} (h : CallInv notifiers c q1 q2 m) :
    CallInv notifiers c (q1 ∧ Along (suspendStep notifiers) (Outside BeforeStateLoad) m es)
      (q2 ∧ Along (suspendStep notifiers) (Outside BeforeLatencyRead) m es)
      (run (suspendStep notifiers) m es) := by
  induction es generalizing m q1 q2 with
  | nil => simpa using h
  | cons e es ih =>
    rw [run_cons, along_cons, along_cons, ← and_assoc, ← and_assoc]
    cases e with
    | call c' => exact absurd List.mem_cons_self (hes c')
    | thread =>
      have hout (w : Pc → Prop) : Outside w m .thread ↔ True := by simp [Outside]
      simp only [hout, and_true]
      exact ih _ hes.tail (callInv_thread notifiers m h)
    | isr => exact ih _ hes.tail (callInv_isr notifiers m h)

/-- A call made at rest, with no exit owed, ends in one of the three ways. -/
theorem suspend_finished (notifiers : List Notifier) (m : Machine) (c : Call) (es : List Event)
    (hbit : m.zPostOpsRequired = false) (hes : WithinCall es) {code : ℕ}
    (hret : (run (suspendStep notifiers) (begin m c) es).pc = .returned code) :
    Finished notifiers c (Along (suspendStep notifiers) (Outside BeforeStateLoad) (begin m c) es)
      (Along (suspendStep notifiers) (Outside BeforeLatencyRead) (begin m c) es)
      (run (suspendStep notifiers) (begin m c) es).trace code := by
  have hstart : CallInv notifiers c True True (begin m c) := ⟨rfl, hbit, trivial, trivial, rfl⟩
  have h := (callInv_run notifiers (begin m c) es hes hstart).2
  rw [hret] at h
  simpa only [true_and] using h

/-- Every call made in a run from the initial state is made with no exit owed. -/
theorem suspend_finished_after (notifiers : List Notifier) (history es : List Event) (c : Call)
    (code : ℕ) (hrest : (run (suspendStep notifiers) initial history).AtRest)
    (hes : WithinCall es)
    (hret : (run (suspendStep notifiers) initial (history ++ .call c :: es)).pc = .returned code) :
    Finished notifiers c
      (Along (suspendStep notifiers) (Outside BeforeStateLoad)
        (run (suspendStep notifiers) initial (history ++ [.call c])) es)
      (Along (suspendStep notifiers) (Outside BeforeLatencyRead)
        (run (suspendStep notifiers) initial (history ++ [.call c])) es)
      (run (suspendStep notifiers) initial (history ++ .call c :: es)).trace code := by
  have hquiet := pairingInv_atRest (pairingInv_run notifiers history) hrest
  have hbegin : run (suspendStep notifiers) initial (history ++ [.call c]) =
      begin (run (suspendStep notifiers) initial history) c := by
    rw [run_append, run_cons, run_nil]
    rcases hrest with hpc | ⟨r, hpc⟩ <;> simp only [suspendStep, hpc]
  have hsplit : run (suspendStep notifiers) initial (history ++ .call c :: es) =
      run (suspendStep notifiers) (begin (run (suspendStep notifiers) initial history) c) es := by
    rw [← hbegin, ← run_append, List.append_assoc, List.singleton_append]
  rw [hsplit] at hret ⊢
  rw [hbegin]
  exact suspend_finished notifiers _ c es hquiet.1.1 hes hret

/-- The states requested of `pm_state_set`, in order. -/
def requested (trace : List Obs) : List PmState :=
  (waits trace).filterMap fun
    | .set state => some state
    | .alarm _ => none

/-- The pre-wake phase was run: after the first wait, an alarm at the target and
a second wait. -/
def LatencyPhase (c : Call) (trace : List Obs) : Prop :=
  ∃ trig first second,
    waits trace = [.alarm trig, .set first, .alarm (lastAlarm c), .set second]

/-- The state is one in which the processor idles and keeps its registers. -/
def IdleState (state : PmState) : Prop := state = .runtimeIdle ∨ state = .suspendToIdle

/-- What a finished call owes its caller, the notifiers and the alarm. -/
structure Outcome (notifiers : List Notifier) (c : Call) (code : ℕ) (trace : List Obs) : Prop where
  entered : ∀ info, c.answer = some info → (requested trace).head? = some info.state
  announced : ∀ info, c.answer = some info → ∀ s ∈ announced trace, s = info.state
  told : ∀ info, c.answer = some info → ∀ i n, notifiers[i]? = some n →
    toldTo i trace = if n.stateEntry then [info.state] else []
  latency : ∀ info, c.answer = some info → (LatencyPhase c trace ↔ info.exitLatencyTicks ≠ 0)
  ramCode : ∀ info, c.answer = some info → info.state = .suspendToRam → code = 0
  idleCode : ∀ info, c.answer = some info → IdleState info.state → code = 1
  activeCode : (∀ info, c.answer = some info → info.state = .active) → code = 2

/-- The states for which the return code, which tells a call with a second wait
from one without, tells what it should. -/
structure CodeTells (info : PmStateInfo) : Prop where
  notActive : info.state ≠ .active
  ram : info.state = .suspendToRam → info.exitLatencyTicks ≠ 0
  idle : IdleState info.state → info.exitLatencyTicks = 0

/-- No interrupt resumes the system before the thread has read what it needs:
the state, and the latency if it is not zero. -/
def UndisturbedReads (q1 q2 : Prop) (info : PmStateInfo) : Prop :=
  q1 ∧ (info.exitLatencyTicks ≠ 0 → q2)

variable {c : Call} {q1 q2 : Prop} {trace : List Obs} {code : ℕ}

lemma Observed.notLatencyPhase {info : PmStateInfo} {trig : BitVec 32} {state : PmState}
    (h : Observed notifiers entered c info [.alarm trig, .set state] trace) : ¬ LatencyPhase c trace := by
  rintro ⟨t, first, second, hw⟩
  rw [h.waits] at hw
  simp at hw

lemma Observed.requested_head {info : PmStateInfo} {trig : BitVec 32} {state : PmState}
    {ws : List Wait} (h : Observed notifiers entered c info (.alarm trig :: .set state :: ws) trace) :
    (requested trace).head? = some state := by
  simp [requested, h.waits]

/-- A finished call that meets its contract was allowed to read undisturbed and
had an answer its code can tell. -/
lemma Finished.tells (h : Finished notifiers c q1 q2 trace code) (ho : Outcome notifiers c code trace)
    {info : PmStateInfo} (hans : c.answer = some info) :
    CodeTells info ∧ UndisturbedReads q1 q2 info := by
  have hactive (hz : info.state = .active) : code = 2 :=
    ho.activeCode fun info' h' => by rwa [Option.some.inj (h'.symm.trans hans)]
  cases h with
  | notSuspended hanswer _ _ _ => simp [hans] at hanswer
  | oneWait info' state hanswer hloaded hcode hskip hseen =>
    obtain rfl := Option.some.inj (hans.symm.trans hanswer)
    have hstate : state = info.state := by
      simpa [hseen.requested_head] using ho.entered info hans
    have hna : info.state ≠ .active := fun hz => by simp [hcode] at hactive; exact hactive hz
    have hzero : info.exitLatencyTicks = 0 := by
      by_contra hl
      exact hseen.notLatencyPhase ((ho.latency info hans).mpr hl)
    refine ⟨⟨hna, fun hram => ?_, fun _ => hzero⟩, ?_, fun hl => absurd hzero hl⟩
    · have := ho.ramCode info hans hram
      omega
    · by_contra hq
      exact hna (hstate ▸ hloaded.2 hq)
  | twoWaits info' state hanswer hloaded hcode hlatency hseen =>
    obtain rfl := Option.some.inj (hans.symm.trans hanswer)
    refine ⟨⟨fun hz => ?_, fun _ => hlatency.1, fun hidle => ?_⟩, hlatency.2.1,
      fun _ => hlatency.2.2⟩
    · have := hactive hz
      omega
    · have := ho.idleCode info hans hidle
      omega

lemma Finished.outcome (h : Finished notifiers c q1 q2 trace code)
    (hcond : ∀ info, c.answer = some info → CodeTells info ∧ UndisturbedReads q1 q2 info) :
    Outcome notifiers c code trace := by
  cases h with
  | notSuspended hanswer hcode _ _ =>
    constructor <;> simp [hanswer, hcode]
  | oneWait info state hanswer hloaded hcode hskip hseen =>
    obtain ⟨htells, hq1, hq2⟩ := hcond info hanswer
    have hzero : info.exitLatencyTicks = 0 := by
      by_contra hl
      exact hskip ⟨hl, hq1, hq2 hl⟩
    have hsame (info' : PmStateInfo) (h' : c.answer = some info') : info' = info :=
      Option.some.inj (h'.symm.trans hanswer)
    refine ⟨fun i hi => ?_, fun i hi => ?_, fun i hi => ?_, fun i hi => ?_, fun i hi hram => ?_,
      fun _ _ _ => hcode, fun hact => ?_⟩
    · rw [hseen.requested_head, hloaded.1 hq1, hsame i hi]
    · rw [hsame i hi]
      exact hseen.announced
    · rw [hsame i hi]
      exact hseen.told
    · rw [hsame i hi]
      exact iff_of_false hseen.notLatencyPhase fun hl => hl hzero
    · rw [hsame i hi] at hram
      exact absurd hzero (htells.ram hram)
    · exact absurd (hact info hanswer) htells.notActive
  | twoWaits info state hanswer hloaded hcode hlatency hseen =>
    obtain ⟨htells, _, _⟩ := hcond info hanswer
    have hsame (info' : PmStateInfo) (h' : c.answer = some info') : info' = info :=
      Option.some.inj (h'.symm.trans hanswer)
    refine ⟨fun i hi => ?_, fun i hi => ?_, fun i hi => ?_, fun i hi => ?_, fun _ _ _ => hcode,
      fun i hi hidle => ?_, fun hact => ?_⟩
    · rw [hseen.requested_head, hloaded.1 hlatency.2.1, hsame i hi]
    · rw [hsame i hi]
      exact hseen.announced
    · rw [hsame i hi]
      exact hseen.told
    · rw [hsame i hi]
      exact iff_of_true ⟨_, _, _, hseen.waits⟩ hlatency.1
    · rw [hsame i hi] at hidle
      exact absurd (htells.idle hidle) hlatency.1
    · exact absurd (hact info hanswer) htells.notActive

/-- After any history, for any call, any policy answer and any interrupts: the
outcome of the call is the promised one exactly when the chosen state is not
active, it is SUSPEND_TO_RAM only with and an idle state only without an exit
latency, and no interrupt resumes the system between the setting of the bit and
the load of the state, nor, for a state with exit latency, before the latency is
read. -/
theorem suspend_outcome_iff (notifiers : List Notifier) (history es : List Event) (c : Call)
    (code : ℕ) (hrest : (run (suspendStep notifiers) initial history).AtRest)
    (hes : WithinCall es)
    (hret : (run (suspendStep notifiers) initial (history ++ .call c :: es)).pc = .returned code) :
    Outcome notifiers c code (run (suspendStep notifiers) initial (history ++ .call c :: es)).trace ↔
      ∀ info, c.answer = some info → CodeTells info ∧
        UndisturbedReads
          (Along (suspendStep notifiers) (Outside BeforeStateLoad)
            (run (suspendStep notifiers) initial (history ++ [.call c])) es)
          (Along (suspendStep notifiers) (Outside BeforeLatencyRead)
            (run (suspendStep notifiers) initial (history ++ [.call c])) es) info := by
  have hfin := suspend_finished_after notifiers history es c code hrest hes hret
  exact ⟨fun ho info hans => hfin.tells ho hans, hfin.outcome⟩

/-- A second of sleep in SUSPEND_TO_RAM, as the policy answers it. -/
def ramCall : Call := ⟨32768, 0, some ⟨.suspendToRam, 0, 4, 46⟩⟩

/-- Two notifiers, and a call that has entered SUSPEND_TO_IDLE before. -/
def someNotifiers : List Notifier := [⟨true, true⟩, ⟨false, true⟩]

def earlierCall : List Event :=
  .call ⟨3276, 0, some ⟨.suspendToIdle, 0, 0, 0⟩⟩ :: List.replicate 16 .thread

/-- An interrupt after the latency has been read does no harm. -/
theorem ramCall_late_interrupt :
    Outcome someNotifiers ramCall 0 (run (suspendStep someNotifiers) initial
      (earlierCall ++ .call ramCall ::
        (List.replicate 10 .thread ++ .isr :: List.replicate 3 .thread))).trace := by
  refine (suspend_outcome_iff someNotifiers earlierCall _ ramCall 0 (Or.inr ⟨1, rfl⟩)
    (by simp [WithinCall]) rfl).mpr ?_
  intro info hinfo
  obtain rfl := Option.some.inj hinfo
  exact ⟨⟨by decide, by decide, fun h => by rcases h with h | h <;> cases h⟩, by decide,
    fun _ => by decide⟩

/-- The interrupt that ends the first wait resumes the system before the latency
is read: the call returns 1 from SUSPEND_TO_RAM, without its second wait. -/
theorem ramCall_wakeup_interrupt :
    let es := List.replicate 9 .thread ++ .isr :: List.replicate 2 .thread
    let final := run (suspendStep []) initial (.call ramCall :: es)
    final.pc = .returned 1 ∧
      waits final.trace = [.alarm 32722, .set .suspendToRam] ∧
      ¬ Outcome [] ramCall 1 final.trace := by
  refine ⟨rfl, rfl, fun h => ?_⟩
  have hcode := h.ramCode _ rfl rfl
  cases hcode

end WchIotSdk.PowerSuspend
