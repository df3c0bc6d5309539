import WchIotSdk.PowerStates

/-!
# Suspends on the chip

The two deeper states raise the current of the 32 MHz oscillator, their exit operations
lower it. An interrupt that resumes after the thread has loaded the state and before it
has entered it runs the exit operations too early: the thread then raises the current
and nothing lowers it again until a later call enters such a state.
-/
namespace WchIotSdk.PowerStates
open RegisterPrograms EventRuns SafeAccess PowerPolicy PowerSuspend

/-- The states that raise the current. -/
def deep (state : PmState) : Bool := state == .standby || state == .suspendToRam

/-- Whether the current is raised after an observed step. -/
def raise (r : Bool) : Obs → Bool
  | .stateSet state _ => deep state || r
  | .exitPostOps state _ => !deep state && r
  | _ => r

/-- The log leaves the current raised. -/
def raised (log : List Obs) : Bool := run raise false log

lemma run_raise_notifyFrom (r entering : Bool) (state : PmState) (k : ℕ) (ns : List Notifier) :
    run raise r (notifyFrom entering state k ns) = r := by
  have hstep (b : Bool) (o : Obs) (ho : o ∈ notifyFrom entering state k ns) : raise b o = b := by
    obtain ⟨j, -, rfl⟩ := mem_notifyFrom ho
    rfl
  generalize notifyFrom entering state k ns = os at hstep
  induction os with
  | nil => rfl
  | cons o os ih =>
    rw [run_cons, hstep r o List.mem_cons_self]
    exact ih fun b o' ho' => hstep b o' (List.mem_cons_of_mem o ho')

lemma raised_observe (m : Machine) (os : List Obs) :
    raised (m.observe os).log = run raise (raised m.log) os := by
  rw [show (m.observe os).log = m.log ++ os from (List.append_assoc m.past m.trace os).symm,
    raised, run_append]
  rfl

lemma raised_notify (notifiers : List Notifier) (entering : Bool) (m : Machine) :
    raised (pmStateNotify notifiers entering m).log = raised m.log :=
  (raised_observe m _).trans (run_raise_notifyFrom _ entering _ _ notifiers)

/-- What a resume of an interrupt does. -/
lemma resume_owed (notifiers : List Notifier) {m : Machine} (h : m.zPostOpsRequired = true) :
    (pmSystemResume notifiers m).zPostOpsRequired = false ∧
      (pmSystemResume notifiers m).zPmState = activeInfo ∧
      raised (pmSystemResume notifiers m).log = (!deep m.zPmState.state && raised m.log) := by
  rw [pmSystemResume, if_pos h]
  refine ⟨rfl, rfl, ?_⟩
  have hexit : raised (PowerSuspend.pmStateExitPostOps (clearPostOps m)).log =
      (!deep m.zPmState.state && raised m.log) := raised_observe (clearPostOps m) _
  exact (raised_notify notifiers false _).trans hexit

/-- The state is loaded, and would raise the current, but is not yet entered. -/
def SlipWindow : Pc → Prop
  | .loadSubstate state | .firstWait state _ => deep state = true
  | _ => False

instance : DecidablePred SlipWindow
  | .loadSubstate state | .firstWait state _ => instDecidableEqBool (deep state) true
  | .idle | .readClock | .askPolicy _ | .record _ | .setAlarm | .notifyEntry | .requirePostOps
  | .loadState | .readLatency | .secondAlarm | .secondWait | .resumeTest _ | .resumePostOps _
  | .resumeNotify _ | .resumeReset _ | .returned _ => instDecidableFalse

/-- A call leaves the current raised when `q` fails and its state raises it; for another
state, and when nothing is suspended, it leaves the current as it was. -/
def Settled (c : Call) (r : Bool) (q : Prop) (m : Machine) : Prop :=
  match c.answer with
  | none => raised m.log = r
  | some info => if deep info.state then (raised m.log = false ↔ q) else raised m.log = r

/-- The bit still stands, no interrupt has resumed. -/
structure Owed (info : PmStateInfo) (q : Prop) (m : Machine) : Prop where
  bit : m.zPostOpsRequired = true
  record : m.zPmState = info
  quiet : q

/-- The invariant of a call that finds the current as `r` says; `q` says that no interrupt
fell into the window. -/
def CurrentInv (c : Call) (r : Bool) (q : Prop) (m : Machine) : Prop :=
  m.call = c ∧
  match m.pc with
  | .idle => False
  | .readClock | .askPolicy _ => m.zPostOpsRequired = false ∧ raised m.log = r ∧ q
  | .record info =>
    m.zPostOpsRequired = false ∧ raised m.log = r ∧ q ∧ c.answer = some info
  | .setAlarm | .notifyEntry | .requirePostOps =>
    m.zPostOpsRequired = false ∧ raised m.log = r ∧ q ∧ c.answer = some m.zPmState
  | .loadState => ∃ info, c.answer = some info ∧
      ((Owed info q m ∧ raised m.log = r) ∨
        (m.zPostOpsRequired = false ∧ m.zPmState = activeInfo ∧ q ∧
          raised m.log = (!deep info.state && r)))
  | .loadSubstate state | .firstWait state _ => ∃ info, c.answer = some info ∧
      ((Owed info q m ∧ state = info.state ∧ raised m.log = r) ∨
        (m.zPostOpsRequired = false ∧ (q ↔ deep state = false) ∧
          (deep state = true → state = info.state) ∧ raised m.log = (!deep info.state && r)))
  | .readLatency | .secondAlarm | .secondWait | .resumeTest _ =>
    ∃ info, c.answer = some info ∧
      ((Owed info q m ∧ raised m.log = (deep info.state || r)) ∨
        (m.zPostOpsRequired = false ∧ Settled c r q m))
  | .resumePostOps _ => ∃ info, c.answer = some info ∧ m.zPostOpsRequired = false ∧
      m.zPmState = info ∧ q ∧ raised m.log = (deep info.state || r)
  | .resumeNotify _ | .resumeReset _ | .returned _ =>
    m.zPostOpsRequired = false ∧ Settled c r q m

section Invariant

variable {c : Call} {r : Bool} {q : Prop} {info : PmStateInfo}

/-- After the exit operations of the state that was entered. -/
lemma settled_exit (hans : c.answer = some info) (hq : q) {m : Machine}
    (h : raised m.log = (!deep info.state && (deep info.state || r))) : Settled c r q m := by
  rw [Settled, hans]
  cases hdeep : deep info.state with
  | true => simpa [hdeep, hq] using h
  | false => simpa [hdeep] using h

lemma Settled.same {m m' : Machine} (h : Settled c r q m) (hlog : raised m'.log = raised m.log) :
    Settled c r q m' := by
  rwa [Settled, hlog]

/-- The state is entered after an interrupt has run the exit operations. -/
lemma settled_late (hans : c.answer = some info) {state : PmState}
    (hq : q ↔ deep state = false) (hstate : deep state = true → state = info.state)
    {m : Machine} (h : raised m.log = (deep state || (!deep info.state && r))) :
    Settled c r q m := by
  rw [Settled, hans, h]
  cases hdeep : deep info.state with
  | true => simp [hdeep, hq]
  | false =>
    have hshallow : deep state = false := by
      by_contra hs
      rw [Bool.not_eq_false] at hs
      rw [← hstate hs, hs] at hdeep
      cases hdeep
    simp [hdeep, hshallow]

theorem currentInv_thread (notifiers : List Notifier) (m : Machine)
    (h : CurrentInv c r q m) : CurrentInv c r q (threadStep notifiers m) := by
  obtain ⟨hcall, h⟩ := h
  unfold threadStep
  cases hpc : m.pc <;> rw [hpc] at h <;> simp only at h ⊢
  case readClock => exact ⟨hcall, h⟩
  case askPolicy sleep =>
    obtain ⟨hbit, hr, hq⟩ := h
    have hlog : raised (m.observe [.policyAsked sleep]).log = r := (raised_observe m _).trans hr
    cases hans : m.call.answer with
    | none => exact ⟨hcall, hbit, by rw [Settled, ← hcall, hans]; exact hlog⟩
    | some info => exact ⟨hcall, hbit, hlog, hq, by rw [← hcall, hans]⟩
  case record info => exact ⟨hcall, h⟩
  case setAlarm => exact ⟨hcall, h.1, (raised_observe m _).trans h.2.1, h.2.2⟩
  case notifyEntry => exact ⟨hcall, h.1, (raised_notify notifiers true m).trans h.2.1, h.2.2⟩
  case requirePostOps =>
    obtain ⟨-, hr, hq, hans⟩ := h
    exact ⟨hcall, m.zPmState, hans, Or.inl ⟨⟨rfl, rfl, hq⟩, hr⟩⟩
  case loadState =>
    obtain ⟨info, hans, ⟨howed, hr⟩ | ⟨hbit, hz, hq, hr⟩⟩ := h
    · exact ⟨hcall, info, hans, Or.inl ⟨⟨howed.1, howed.2, howed.3⟩, by rw [howed.record], hr⟩⟩
    · rw [hz]
      exact ⟨hcall, info, hans, Or.inr ⟨hbit, iff_of_true hq rfl, nofun, hr⟩⟩
  case loadSubstate state =>
    obtain ⟨info, hans, ⟨howed, hstate, hr⟩ | h⟩ := h
    · exact ⟨hcall, info, hans, Or.inl ⟨⟨howed.1, howed.2, howed.3⟩, hstate, hr⟩⟩
    · exact ⟨hcall, info, hans, Or.inr h⟩
  case firstWait state substateId =>
    have hset : raised (m.observe [.stateSet state substateId]).log =
        (deep state || raised m.log) := raised_observe m _
    obtain ⟨info, hans, ⟨howed, rfl, hr⟩ | ⟨hbit, hq, hstate, hr⟩⟩ := h
    · exact ⟨hcall, info, hans, Or.inl ⟨⟨howed.1, howed.2, howed.3⟩, by rw [← hr]; exact hset⟩⟩
    · refine ⟨hcall, info, hans, Or.inr ⟨hbit, ?_⟩⟩
      exact settled_late hans hq hstate (by rw [← hr]; exact hset)
  case readLatency =>
    obtain ⟨info, hans, ⟨howed, hr⟩ | h⟩ := h
    · split
      all_goals exact ⟨hcall, info, hans, Or.inl ⟨⟨howed.1, howed.2, howed.3⟩, hr⟩⟩
    · split
      all_goals exact ⟨hcall, info, hans, Or.inr h⟩
  case secondAlarm =>
    obtain ⟨info, hans, ⟨howed, hr⟩ | ⟨hbit, h⟩⟩ := h
    · exact ⟨hcall, info, hans,
        Or.inl ⟨⟨howed.1, howed.2, howed.3⟩, (raised_observe m _).trans hr⟩⟩
    · exact ⟨hcall, info, hans, Or.inr ⟨hbit, h.same (raised_observe m _)⟩⟩
  case secondWait =>
    -- The second wait is a plain idle, which leaves the current alone.
    obtain ⟨info, hans, ⟨howed, hr⟩ | ⟨hbit, h⟩⟩ := h
    · exact ⟨hcall, info, hans,
        Or.inl ⟨⟨howed.1, howed.2, howed.3⟩, (raised_observe m _).trans hr⟩⟩
    · exact ⟨hcall, info, hans, Or.inr ⟨hbit, h.same (raised_observe m _)⟩⟩
  case resumeTest code =>
    obtain ⟨info, hans, ⟨howed, hr⟩ | ⟨hbit, h⟩⟩ := h
    · rw [if_pos howed.bit]
      exact ⟨hcall, info, hans, rfl, howed.record, howed.quiet, hr⟩
    · rw [if_neg (by simp [hbit])]
      exact ⟨hcall, hbit, h⟩
  case resumePostOps code =>
    obtain ⟨info, hans, hbit, rfl, hq, hr⟩ := h
    refine ⟨hcall, hbit, settled_exit hans hq ?_⟩
    rw [← hr]
    exact raised_observe m _
  case resumeNotify code =>
    exact ⟨hcall, h.1, h.2.same (raised_notify notifiers false m)⟩
  case resumeReset code => exact ⟨hcall, h.1, h.2⟩
  case returned code => exact ⟨hcall, by rwa [hpc]⟩

/-- A resume in the window lowers the current before it is raised. -/
lemma window_isr (notifiers : List Notifier) {m : Machine} {state : PmState}
    (h : (Owed info q m ∧ state = info.state ∧ raised m.log = r) ∨
      (m.zPostOpsRequired = false ∧ (q ↔ deep state = false) ∧
        (deep state = true → state = info.state) ∧ raised m.log = (!deep info.state && r))) :
    (pmSystemResume notifiers m).zPostOpsRequired = false ∧
      (q ∧ ¬ deep state = true ↔ deep state = false) ∧
      (deep state = true → state = info.state) ∧
      raised (pmSystemResume notifiers m).log = (!deep info.state && r) := by
  rw [Bool.not_eq_true]
  rcases h with ⟨howed, hstate, hr⟩ | ⟨hbit, hq, h⟩
  · obtain ⟨hbit, -, hlog⟩ := resume_owed notifiers howed.bit
    rw [howed.record, hr] at hlog
    exact ⟨hbit, and_iff_right howed.quiet, fun _ => hstate, hlog⟩
  · rw [pmSystemResume_clear notifiers m hbit]
    exact ⟨hbit, and_iff_right_of_imp hq.mpr, h⟩

/-- An interrupt keeps the invariant and is remembered if it falls into the window. -/
theorem currentInv_isr (notifiers : List Notifier) (m : Machine) (h : CurrentInv c r q m) :
    CurrentInv c r (q ∧ Outside SlipWindow m .isr) (pmSystemResume notifiers m) := by
  obtain ⟨hcall, h⟩ := h
  refine ⟨by rwa [pmSystemResume_call], ?_⟩
  rw [pmSystemResume_pc]
  cases hpc : m.pc <;> rw [hpc] at h <;> simp only at h ⊢ <;>
    simp only [Outside, hpc, SlipWindow, not_false_eq_true, implies_true, forall_const, and_true]
  case readClock => simpa only [pmSystemResume_clear notifiers m h.1] using h
  case askPolicy sleep => simpa only [pmSystemResume_clear notifiers m h.1] using h
  case record info => simpa only [pmSystemResume_clear notifiers m h.1] using h
  case setAlarm => simpa only [pmSystemResume_clear notifiers m h.1] using h
  case notifyEntry => simpa only [pmSystemResume_clear notifiers m h.1] using h
  case requirePostOps => simpa only [pmSystemResume_clear notifiers m h.1] using h
  case resumeNotify code => simpa only [pmSystemResume_clear notifiers m h.1] using h
  case resumeReset code => simpa only [pmSystemResume_clear notifiers m h.1] using h
  case returned code => simpa only [pmSystemResume_clear notifiers m h.1] using h
  case resumePostOps code =>
    obtain ⟨info, hans, hbit, h⟩ := h
    rw [pmSystemResume_clear notifiers m hbit]
    exact ⟨info, hans, hbit, h⟩
  case loadState =>
    obtain ⟨info, hans, ⟨howed, hr⟩ | ⟨hbit, h⟩⟩ := h
    · obtain ⟨hbit, hz, hlog⟩ := resume_owed notifiers howed.bit
      rw [howed.record, hr] at hlog
      exact ⟨info, hans, Or.inr ⟨hbit, hz, howed.quiet, hlog⟩⟩
    · rw [pmSystemResume_clear notifiers m hbit]
      exact ⟨info, hans, Or.inr ⟨hbit, h⟩⟩
  case loadSubstate state =>
    obtain ⟨info, hans, h⟩ := h
    exact ⟨info, hans, Or.inr (window_isr notifiers h)⟩
  case firstWait state substateId =>
    obtain ⟨info, hans, h⟩ := h
    exact ⟨info, hans, Or.inr (window_isr notifiers h)⟩
  all_goals
    obtain ⟨info, hans, ⟨howed, hr⟩ | ⟨hbit, h⟩⟩ := h
    · obtain ⟨hbit, -, hlog⟩ := resume_owed notifiers howed.bit
      rw [howed.record, hr] at hlog
      exact ⟨info, hans, Or.inr ⟨hbit, settled_exit hans howed.quiet hlog⟩⟩
    · rw [pmSystemResume_clear notifiers m hbit]
      exact ⟨info, hans, Or.inr ⟨hbit, h⟩⟩

end Invariant

lemma run_call {notifiers : List Notifier} {history : List Event} {c : Call}
    (hrest : (run (suspendStep notifiers) initial history).AtRest) :
    run (suspendStep notifiers) initial (history ++ [.call c]) =
      begin (run (suspendStep notifiers) initial history) c := by
  rw [run_append, run_cons, run_nil]
  rcases hrest with hpc | ⟨code, hpc⟩ <;> simp only [suspendStep, hpc]

/-- A call made at rest leaves the current raised exactly when its state raises it and an
interrupt fell into the window; without such a state it leaves it alone. -/
lemma settled_run (notifiers : List Notifier) {m : Machine} {c : Call} {es : List Event}
    (hbit : m.zPostOpsRequired = false) (hes : WithinCall es) {code : ℕ}
    (hret : (run (suspendStep notifiers) (begin m c) es).pc = .returned code) :
    Settled c (raised m.log) (Along (suspendStep notifiers) (Outside SlipWindow) (begin m c) es)
      (run (suspendStep notifiers) (begin m c) es) := by
  have hlog : (begin m c).log = m.log := List.append_nil m.log
  have hstart : CurrentInv c (raised m.log) True (begin m c) := ⟨rfl, hbit, by rw [hlog], trivial⟩
  have hstep (q : Prop) (s : Machine) (e : Event) (he : ∀ c', e ≠ .call c')
      (h : CurrentInv c (raised m.log) q s) :
      CurrentInv c (raised m.log) (q ∧ Outside SlipWindow s e) (suspendStep notifiers s e) := by
    cases e with
    | call c' => exact absurd rfl (he c')
    | thread => simpa [Outside, suspendStep] using currentInv_thread notifiers s h
    | isr => exact currentInv_isr notifiers s h
  obtain ⟨-, hend⟩ := run_tracked hstep hstart fun e he c' hc => hes c' (hc ▸ he)
  rw [hret, true_and] at hend
  exact hend.2

/-! ## The current on the chip -/

/-- The current field of R8_XT32M_TUNE. -/
def Chip.hseCurrent (c : Chip) : BitVec 8 := c.regs .xt32mTune &&& 0x03

lemma hseCurrent_other {call : HalCall} (hcall : Reg.xt32mTune ∉ call.writes) (c : Chip) :
    Chip.hseCurrent (callOn chipBus c call) = Chip.hseCurrent c := by
  rw [Chip.hseCurrent, callOn_frame hcall (by decide), Chip.hseCurrent]

/-- The field that `hal_clk_hse_cfg_current` puts into the register. -/
lemma tuned_field (v cur : BitVec 8) :
    ((v &&& ~~~0x03) ||| (cur &&& 0x03)) &&& 0x03 = cur &&& 0x03 := by
  ext i hi
  simp only [BitVec.getElem_and, BitVec.getElem_or, BitVec.getElem_not]
  cases v[i] <;> cases cur[i] <;> cases (0x03#8)[i] <;> rfl

lemma hseCurrent_cfg (cur : BitVec 8) (c : Chip) :
    Chip.hseCurrent (callOn chipBus c (.hseCfgCurrent cur)) = cur &&& 0x03 := by
  have hreg : (callOn chipBus c (.hseCfgCurrent cur)).regs .xt32mTune =
      (c.regs .xt32mTune &&& ~~~0x03) ||| (cur &&& 0x03) := by
    simp [callOn, HalCall.prog, halClkHseCfgCurrent, cfgTune, storeWindow, sysSafeAccessEnable,
      sysSafeAccessDisable, chipBus, Chip.write]
  rw [Chip.hseCurrent, hreg]
  exact tuned_field _ cur

/-- The field for a raised current and for a lowered one. -/
def currentOf (r : Bool) : BitVec 8 := if r then hseCurrent150 else hseCurrent100

/-- The calls of one observed step. -/
lemma hseCurrent_obs {r : Bool} {c : Chip} (h : Chip.hseCurrent c = currentOf r) (o : Obs) :
    Chip.hseCurrent (run (callOn chipBus) c (obsCalls o)) = currentOf (raise r o) := by
  cases o with
  | policyAsked sleep => exact h
  | callback notifier entering state => exact h
  | alarm trig => rwa [obsCalls, run_cons, run_nil, hseCurrent_other (by simp [HalCall.writes])]
  | stateSet state substateId =>
    cases state <;> simp only [obsCalls, pmStateSet, run_cons, run_nil] <;>
      first
        | exact h
        | rw [hseCurrent_other (by simp [HalCall.writes])]
          first
            | exact h
            | exact hseCurrent_cfg hseCurrent150 c
  | exitPostOps state substateId =>
    cases state <;> simp only [obsCalls, pmStateExitPostOps, run_cons, run_nil] <;>
      first
        | exact h
        | exact hseCurrent_cfg hseCurrent100 c

/-- The field always holds what the steps so far have made of the current. -/
lemma hseCurrent_log (log : List Obs) {r : Bool} {c : Chip}
    (h : Chip.hseCurrent c = currentOf r) :
    Chip.hseCurrent (run (callOn chipBus) c (log.flatMap obsCalls)) =
      currentOf (run raise r log) := by
  induction log generalizing r c with
  | nil => exact h
  | cons o log ih =>
    rw [List.flatMap_cons, run_append, run_cons]
    exact ih (hseCurrent_obs h o)

/-- The chip, with its lock, after the steps of the log. -/
def chipAfter (chip : Chip) (mode : AccMode) (log : List Obs) : Chip :=
  (run (callOn lockedBus) (chip, mode) (log.flatMap obsCalls)).1

/-- After any history, for any call, any policy answer and any interrupts: a call whose
state raises the current leaves it at 100% exactly when no interrupt resumes the system
between the load of the state and its entry, and else at 150%; any other call leaves it
as it was. -/
theorem current_after_call (notifiers : List Notifier) (history es : List Event) (c : Call)
    (code : ℕ) (hrest : (run (suspendStep notifiers) initial history).AtRest)
    (hes : WithinCall es)
    (hret : (run (suspendStep notifiers) initial (history ++ .call c :: es)).pc = .returned code)
    (chip : Chip) (mode : AccMode) (hchip : Chip.hseCurrent chip = hseCurrent100) :
    let before := run (suspendStep notifiers) initial (history ++ [.call c])
    let after := run (suspendStep notifiers) initial (history ++ .call c :: es)
    let current := fun m : Machine => Chip.hseCurrent (chipAfter chip mode m.log)
    if ∃ info, c.answer = some info ∧ deep info.state = true then
      current after =
        if Along (suspendStep notifiers) (Outside SlipWindow) before es then hseCurrent100
        else hseCurrent150
    else current after = current before := by
  have hquiet := pairingInv_atRest (pairingInv_run notifiers history) hrest
  have hsplit : run (suspendStep notifiers) initial (history ++ .call c :: es) =
      run (suspendStep notifiers) (run (suspendStep notifiers) initial (history ++ [.call c]))
        es := by
    rw [← run_append, List.append_assoc, List.singleton_append]
  have hlog : (begin (run (suspendStep notifiers) initial history) c).log =
      (run (suspendStep notifiers) initial history).log := List.append_nil _
  intro before after current
  have hcurrent (m : Machine) : current m = currentOf (raised m.log) := by
    simp only [current, chipAfter, run_lockedBus]
    exact hseCurrent_log m.log hchip
  have hsettled : Settled c (raised before.log)
      (Along (suspendStep notifiers) (Outside SlipWindow) before es) after := by
    simp only [before, after, hsplit, run_call hrest, hlog] at hret ⊢
    exact settled_run notifiers hquiet.1.1 hes hret
  rw [hcurrent, hcurrent]
  rw [Settled] at hsettled
  cases hans : c.answer with
  | none =>
    rw [hans] at hsettled
    rw [if_neg (by simp), hsettled]
  | some info =>
    rw [hans] at hsettled
    cases hdeep : deep info.state with
    | false =>
      rw [if_neg (by simp [hdeep]), show raised after.log = raised before.log by
        simpa [hdeep] using hsettled]
    | true =>
      rw [if_pos ⟨info, rfl, hdeep⟩]
      have hiff : raised after.log = false ↔
          Along (suspendStep notifiers) (Outside SlipWindow) before es := by
        simpa [hdeep] using hsettled
      split_ifs with hq
      · rw [hiff.mpr hq]
        rfl
      · rw [eq_true_of_ne_false (mt hiff.mp hq)]
        rfl

/-- An interrupt between the load of SUSPEND_TO_RAM and its entry, in the second call. -/
theorem ramCall_left_raised :
    Chip.hseCurrent (chipAfter ⟨fun r => 1#r.width, []⟩ .locked
      (run (suspendStep someNotifiers) initial (earlierCall ++ .call ramCall ::
        (List.replicate 7 .thread ++ .isr :: List.replicate 4 .thread))).log) = hseCurrent150 := by
  have h := current_after_call someNotifiers earlierCall
    (List.replicate 7 .thread ++ .isr :: List.replicate 4 .thread) ramCall 1 (Or.inr ⟨1, rfl⟩)
    (by simp [WithinCall]) rfl ⟨fun r => 1#r.width, []⟩ .locked rfl
  rwa [if_pos ⟨_, rfl, rfl⟩, if_neg (by decide)] at h

/-! ## Interrupts inside the entry

`pm_state_set` raises the current with interrupts enabled. The entry is one step above;
here the exit operations run between its accesses to the registers. -/

/-- What happens between two accesses: an interrupt resumes the system from a state, or
the timer of an open window runs out. -/
inductive Disturbance where
  | resume (state : PmState)
  | timeout
  deriving DecidableEq, Repr

namespace Disturbance

/-- The exit operations, as the interrupt runs them. -/
def events : Disturbance → List GapEvent
  | .resume state => (pmStateExitPostOps state).map .interrupt
  | .timeout => [.timeout]

/-- The exit operations lower the current. -/
def lowers : Disturbance → Bool
  | .resume state => deep state
  | .timeout => false

end Disturbance

/-- The current and the mode, which are all that decides. -/
def currentView (s : Chip × AccMode) : BitVec 8 × AccMode := (Chip.hseCurrent s.1, s.2)

/-- What a gap makes of them: a resume from a deep state lowers the current and locks the
chip. -/
def disturbed (ds : List Disturbance) (v : BitVec 8 × AccMode) : BitVec 8 × AccMode :=
  if ds.any Disturbance.lowers then (hseCurrent100, .locked)
  else if .timeout ∈ ds then (v.1, v.2.expired)
  else v

lemma disturbed_cons (d : Disturbance) (ds : List Disturbance) (v : BitVec 8 × AccMode) :
    disturbed (d :: ds) v = disturbed ds (disturbed [d] v) := by
  have htimeout : Disturbance.lowers .timeout = false := rfl
  cases d with
  | timeout =>
    by_cases hin : Disturbance.timeout ∈ ds <;> cases hds : ds.any Disturbance.lowers <;>
      simp [disturbed, hin, hds, htimeout]
  | resume state =>
    by_cases hin : Disturbance.timeout ∈ ds <;> cases hds : ds.any Disturbance.lowers <;>
      cases hd : Disturbance.lowers (.resume state) <;> simp [disturbed, hin, hds, hd]

lemma currentView_events (d : Disturbance) (s : Chip × AccMode) :
    currentView (run gapStep s d.events) = disturbed [d] (currentView s) := by
  obtain ⟨c, mode⟩ := s
  rw [run_gapStep]
  cases d with
  | timeout => rfl
  | resume state =>
    cases state <;> first
      | rfl
      | exact Prod.ext (hseCurrent_cfg hseCurrent100 c) rfl

lemma currentView_disturbed (ds : List Disturbance) (s : Chip × AccMode) :
    currentView (run gapStep s (ds.flatMap Disturbance.events)) =
      disturbed ds (currentView s) := by
  induction ds generalizing s with
  | nil => rfl
  | cons d ds ih =>
    rw [List.flatMap_cons, run_append, ih, currentView_events, ← disturbed_cons]

lemma disturbed_fst (ds : List Disturbance) (v : BitVec 8 × AccMode) :
    (disturbed ds v).1 = if ds.any Disturbance.lowers then hseCurrent100 else v.1 := by
  rw [disturbed]
  split_ifs <;> rfl

/-- Between the two signatures no timer runs. -/
lemma disturbed_signed (ds : List Disturbance) (cur : BitVec 8) :
    (disturbed ds (cur, .signed)).2 = if ds.any Disturbance.lowers then .locked else .signed := by
  rw [disturbed]
  split_ifs <;> rfl

lemma currentView_sig (s : Chip × AccMode) (v : BitVec 8) :
    currentView (lockedBus.write s .safeAccessSig v) =
      ((currentView s).1, signature (currentView s).2 v) := by
  obtain ⟨c, mode⟩ := s
  rw [lockedBus_write_sig]
  simp [currentView, Chip.hseCurrent, Chip.write]

lemma currentView_tune (s : Chip × AccMode) (v : BitVec 8) :
    currentView (lockedBus.write s .xt32mTune v) =
      if (currentView s).2 = .unlocked then (v &&& 0x03, .unlocked) else currentView s := by
  obtain ⟨c, mode⟩ := s
  rw [lockedBus_write_guarded rfl]
  cases mode <;> simp [currentView, Chip.hseCurrent, Chip.write]

/-- The thread raises the current while interrupts resume from any states between its
accesses, for any time. A resume after the first signature that lowers the current leaves
it lowered. Otherwise the current is raised exactly when the timer of the window does not
run out before the write; the write lost, the current is what it was, or what a resume
before the signature has made of it. -/
theorem current_under_resumes (gaps : ℕ → List Disturbance) (c : Chip) (mode : AccMode) :
    Chip.hseCurrent (interrupted (HalCall.hseCfgCurrent hseCurrent150).prog
      (fun k => (gaps k).flatMap Disturbance.events) (c, mode)).2.1 =
      if (gaps 2 ++ gaps 3 ++ gaps 4 ++ gaps 5).any Disturbance.lowers then hseCurrent100
      else if .timeout ∈ gaps 3 then
        if (gaps 0 ++ gaps 1).any Disturbance.lowers then hseCurrent100 else Chip.hseCurrent c
      else hseCurrent150 := by
  change (currentView (interleaved lockedBus gapStep
    (.load .xt32mTune fun v => .store .safeAccessSig safeAccessSig1
      (.store .safeAccessSig safeAccessSig2
        (.store .xt32mTune ((v &&& ~~~0x03) ||| (hseCurrent150 &&& 0x03))
          (.store .safeAccessSig 0 (.done ()))))) _ (c, mode)).2).1 = _
  have hfirst (m : AccMode) : signature m safeAccessSig1 = .signed := rfl
  have hsecond (b : Bool) : signature (if b then .locked else .signed) safeAccessSig2 =
      if b then .locked else .unlocked := by
    cases b <;> rfl
  have hraised : hseCurrent150 &&& 3#8 = hseCurrent150 := rfl
  simp only [interleaved, currentView_disturbed, currentView_sig, currentView_tune, tuned_field,
    List.any_append, hfirst, hsecond, disturbed_fst, disturbed_signed]
  -- the first signature forgets the mode, so only what happens after it decides
  cases (gaps 5).any Disturbance.lowers <;> cases (gaps 4).any Disturbance.lowers <;>
    cases (gaps 2).any Disturbance.lowers <;> simp only [Bool.or_true, Bool.or_false, if_true]
  all_goals
    cases h3 : (gaps 3).any Disturbance.lowers <;> by_cases ht : Disturbance.timeout ∈ gaps 3 <;>
      cases (gaps 0).any Disturbance.lowers <;> cases (gaps 1).any Disturbance.lowers <;>
      simp [disturbed, h3, ht, hraised, currentView, AccMode.expired]

end WchIotSdk.PowerStates
