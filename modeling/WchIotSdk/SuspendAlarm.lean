import WchIotSdk.SuspendOutcome

/-!
# Wake-up alarms on the RTC day

The idle time and the alarms of a suspend call are computed with `uint32_t`
differences, while the RTC counts modulo the length of a day. The two agree as
long as no difference passes midnight: the idle time is corrected by the day
where it does, the first alarm is not.
-/
namespace WchIotSdk.PowerSuspend
open EventRuns PowerPolicy RtcTimer CyclicClock

/-- The idle time is the distance from the clock to the target, for every clock
value that is not a whole day past the target. -/
theorem sleepTicks_eq_ahead_iff {ticks : BitVec 32} (now : BitVec 32)
    (hticks : ticks.toNat < configSocRtcMaxTick) :
    ((sleepTicks ticks now).toNat : ℤ) = ahead configSocRtcMaxTick now.toNat ticks.toNat ↔
      now.toNat ≤ ticks.toNat + configSocRtcMaxTick := by
  have hnow := now.isLt
  have hD : (BitVec.ofNat 32 configSocRtcMaxTick).toNat = configSocRtcMaxTick := by decide
  unfold sleepTicks
  by_cases hle : ticks ≥ now
  · rw [if_pos hle]
    rw [ge_iff_le, BitVec.le_def] at hle
    rw [BitVec.toNat_sub_of_le (BitVec.le_def.mpr hle), ahead_of_le (by omega) (by omega)]
    omega
  · rw [if_neg hle]
    rw [ge_iff_le, BitVec.le_def, not_le] at hle
    have hvalue : (ticks + BitVec.ofNat 32 configSocRtcMaxTick - now).toNat =
        (2 ^ 32 - now.toNat + (ticks.toNat + configSocRtcMaxTick)) % 2 ^ 32 := by
      rw [BitVec.toNat_sub, BitVec.toNat_add, hD, Nat.add_mod_mod]
    rw [hvalue]
    by_cases hday : now.toNat ≤ ticks.toNat + configSocRtcMaxTick
    · rw [ahead_of_lt (by omega) (by omega)]
      unfold configSocRtcMaxTick at *
      omega
    · -- Then the clock is between one and two days past the target.
      have htwo : ahead configSocRtcMaxTick now.toNat ticks.toNat =
          ticks.toNat + 2 * configSocRtcMaxTick - now.toNat := by
        unfold ahead configSocRtcMaxTick at *
        omega
      rw [htwo]
      unfold configSocRtcMaxTick at *
      omega

/-- The alarm stored for a wake-up `latency` ticks early is the right one on the
day's clock unless the subtraction passes midnight, which is not corrected. -/
theorem alarm_eq_iff {ticks latency : BitVec 32} (hticks : ticks.toNat < configSocRtcMaxTick)
    (hlatency : latency.toNat < configSocRtcMaxTick) (idle : Bool) :
    ((sysClockSetTicks (ticks - latency) idle).toNat : ℤ) =
        ((ticks.toNat : ℤ) - latency.toNat) % configSocRtcMaxTick ↔
      latency.toNat ≤ ticks.toNat := by
  rw [sysClockSetTicks_toNat]
  by_cases hle : latency.toNat ≤ ticks.toNat
  · rw [BitVec.toNat_sub_of_le (BitVec.le_def.mpr hle), if_neg (by omega)]
    unfold configSocRtcMaxTick at *
    omega
  · have hvalue : (ticks - latency).toNat = 2 ^ 32 - (latency.toNat - ticks.toNat) := by
      have hlat := latency.isLt
      rw [BitVec.toNat_sub, Nat.mod_eq_of_lt (by omega)]
      omega
    rw [hvalue]
    unfold configSocRtcMaxTick at *
    split_ifs <;> omega

/-- The values stored in R32_RTC_TRIG, in order. -/
def alarms (trace : List Obs) : List (BitVec 32) :=
  (waits trace).filterMap fun
    | .alarm trig => some trig
    | .set _ => none

lemma along_outside (notifiers : List Notifier) (window : Pc → Prop) (m : Machine)
    {es : List Event} (hes : Event.isr ∉ es) :
    Along (suspendStep notifiers) (Outside window) m es := by
  induction es generalizing m with
  | nil => trivial
  | cons e es ih =>
    rw [List.mem_cons, not_or] at hes
    exact ⟨fun he => absurd he.symm hes.1, ih _ hes.2⟩

/-- The alarms of a finished call: the first one, and the second one where
nothing disturbed the read of the latency and it was not zero. -/
theorem Finished.alarms {notifiers : List Notifier} {c : Call} {q1 q2 : Prop} {trace : List Obs}
    {code : ℕ} (h : Finished notifiers c q1 q2 trace code) {info : PmStateInfo} (hans : c.answer = some info) :
    ∃ rest, PowerSuspend.alarms trace = firstAlarm c info :: rest ∧
      (∀ trig ∈ rest, trig = lastAlarm c) ∧
      (q1 ∧ q2 → rest = if info.exitLatencyTicks = 0 then [] else [lastAlarm c]) := by
  cases h with
  | notSuspended hanswer _ _ _ => simp [hans] at hanswer
  | oneWait info' state hanswer _ _ hskip hseen =>
    obtain rfl := Option.some.inj (hans.symm.trans hanswer)
    refine ⟨[], by simp [PowerSuspend.alarms, hseen.waits], by simp, fun hq => ?_⟩
    rw [if_pos]
    by_contra hl
    exact hskip ⟨hl, hq⟩
  | twoWaits info' state hanswer _ _ hlatency hseen =>
    obtain rfl := Option.some.inj (hans.symm.trans hanswer)
    exact ⟨[lastAlarm c], by simp [PowerSuspend.alarms, hseen.waits], by simp,
      fun _ => by rw [if_neg hlatency.1]⟩

lemma Finished.asked {notifiers : List Notifier} {c : Call} {q1 q2 : Prop} {trace : List Obs}
    {code : ℕ} (h : Finished notifiers c q1 q2 trace code) :
    PowerSuspend.asked trace = [sleepTicks c.ticks c.now] := by
  cases h with
  | notSuspended _ _ hasked _ => exact hasked
  | oneWait _ _ _ _ _ _ hseen => exact hseen.asked
  | twoWaits _ _ _ _ _ _ hseen => exact hseen.asked

/-- What a call must ask of the policy and of the alarm, in counts of the RTC
day: the idle time, a first alarm early by the exit latency and not after the
target, and the target itself if there is a latency. -/
structure WakesInTime (c : Call) (info : PmStateInfo) (interrupted : Prop)
    (trace : List Obs) : Prop where
  asked : ∃ sleep : BitVec 32, asked trace = [sleep] ∧
    (sleep.toNat : ℤ) = ahead configSocRtcMaxTick c.now.toNat c.ticks.toNat
  alarms : ∃ (first : BitVec 32) (rest : List (BitVec 32)), alarms trace = first :: rest ∧
    (first.toNat : ℤ) =
      ((c.ticks.toNat : ℤ) - info.exitLatencyTicks.toNat) % configSocRtcMaxTick ∧
    first.toNat < configSocRtcMaxTick ∧
    ahead configSocRtcMaxTick c.now.toNat first.toNat ≤
      ahead configSocRtcMaxTick c.now.toNat c.ticks.toNat ∧
    (∀ trig ∈ rest, trig = c.ticks) ∧
    (¬ interrupted → rest = if info.exitLatencyTicks = 0 then [] else [c.ticks])

/-- After any history, for any call that suspends to a state whose exit latency
fits into the way to a target within the day: the call wakes in time exactly
when the target is not within the latency after midnight, and the clock not more
than a day past the target. -/
theorem suspend_alarm_iff (notifiers : List Notifier) (history es : List Event) (c : Call)
    (info : PmStateInfo) (code : ℕ)
    (hrest : (run (suspendStep notifiers) initial history).AtRest) (hes : WithinCall es)
    (hret : (run (suspendStep notifiers) initial (history ++ .call c :: es)).pc = .returned code)
    (hans : c.answer = some info) (hticks : c.ticks.toNat < configSocRtcMaxTick)
    (hlatency : (info.exitLatencyTicks.toNat : ℤ) ≤
      ahead configSocRtcMaxTick c.now.toNat c.ticks.toNat) :
    WakesInTime c info (.isr ∈ es)
        (run (suspendStep notifiers) initial (history ++ .call c :: es)).trace ↔
      info.exitLatencyTicks.toNat ≤ c.ticks.toNat ∧
        c.now.toNat ≤ c.ticks.toNat + configSocRtcMaxTick := by
  have hfin := suspend_finished_after notifiers history es c code hrest hes hret
  obtain ⟨rest, halarms, htarget, hwritten⟩ := hfin.alarms hans
  have hday : (0 : ℤ) < configSocRtcMaxTick := by decide
  have hlt : info.exitLatencyTicks.toNat < configSocRtcMaxTick := by
    have := ahead_lt hday c.now.toNat c.ticks.toNat
    omega
  have hlast : lastAlarm c = c.ticks := sysClockSetTicks_of_lt hticks true
  rw [hlast] at htarget hwritten
  have hfirst := alarm_eq_iff hticks hlt true
  have hsleep := sleepTicks_eq_ahead_iff c.now hticks
  constructor
  · rintro ⟨⟨sleep, hasked, heq⟩, first, rest', halarms', hvalue, _, _, _, _⟩
    rw [hfin.asked, List.cons.injEq] at hasked
    rw [halarms, List.cons.injEq] at halarms'
    rw [← hasked.1] at heq
    rw [← halarms'.1] at hvalue
    exact ⟨hfirst.mp hvalue, hsleep.mp heq⟩
  · rintro ⟨hle, hnow⟩
    have hvalue : (firstAlarm c info).toNat =
        ((c.ticks.toNat : ℤ) - info.exitLatencyTicks.toNat) % configSocRtcMaxTick :=
      hfirst.mpr hle
    refine ⟨⟨_, hfin.asked, hsleep.mpr hnow⟩, firstAlarm c info, rest, halarms, hvalue, ?_, ?_,
      htarget, fun hquiet => hwritten ⟨along_outside _ _ _ hquiet, along_outside _ _ _ hquiet⟩⟩
    · have := Int.emod_lt_of_pos ((c.ticks.toNat : ℤ) - info.exitLatencyTicks.toNat) hday
      omega
    · rw [hvalue, ahead_emod_right, ahead_sub hday (by omega) hlatency]
      omega

/-- The policy's deep sleep record, with an exit latency of 46 ticks. -/
def ramInfo : PmStateInfo := ⟨.suspendToRam, 0, 4, 46⟩

/-- A target one second later is met. -/
theorem suspend_alarm_second :
    WakesInTime ⟨32768, 3276, some ramInfo⟩ ramInfo (.isr ∈ List.replicate 16 Event.thread)
      (run (suspendStep someNotifiers) initial
        (earlierCall ++ .call ⟨32768, 3276, some ramInfo⟩ :: List.replicate 16 .thread)).trace :=
  (suspend_alarm_iff someNotifiers earlierCall _ ⟨32768, 3276, some ramInfo⟩ ramInfo 0
    (Or.inr ⟨1, rfl⟩) (by simp [WithinCall]) rfl rfl (by decide) (by decide)).mpr
      ⟨by decide, by decide⟩

/-- A target ten ticks after midnight is missed: the first alarm is past the end
of the day. -/
theorem suspend_alarm_midnight :
    let c : Call := ⟨10, 0xA8BFF000, some ramInfo⟩
    let final := run (suspendStep []) initial (.call c :: List.replicate 16 .thread)
    (ramInfo.exitLatencyTicks.toNat : ℤ) ≤ ahead configSocRtcMaxTick c.now.toNat c.ticks.toNat ∧
      alarms final.trace = [0x573FFFDC, 10] ∧
      ¬ WakesInTime c ramInfo False final.trace := by
  refine ⟨by decide, rfl, ?_⟩
  rintro ⟨_, first, rest, halarms, hvalue, _⟩
  have hfirst : first = 0x573FFFDC := by
    have hhead := congrArg List.head? halarms
    exact (Option.some.inj hhead).symm
  subst first
  revert hvalue
  decide

end WchIotSdk.PowerSuspend
