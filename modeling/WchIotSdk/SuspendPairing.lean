import WchIotSdk.PowerSuspend

/-!
# Pairing of entry and exit notifications

The bit `z_post_ops_required`, the shared record and the notifications sent so
far are tied together at every program point. Either an exit is owed, the bit
stands and the record still names the announced state; or nothing is owed and
whoever took the bit has reset the record. The thread's own final resume holds
the debt itself between its steps.
-/
namespace WchIotSdk.PowerSuspend
open EventRuns PowerPolicy RtcTimer

/-- The callbacks of one notifier: entering or leaving, and the state. -/
def seenBy (i : ℕ) (log : List Obs) : List (Bool × PmState) :=
  log.filterMap fun
    | .callback j entering state => if j = i then some (entering, state) else none
    | _ => none

/-- The states of the calls of `pm_state_exit_post_ops`. -/
def postOpsRun (log : List Obs) : List PmState :=
  log.filterMap fun
    | .exitPostOps state _ => some state
    | _ => none

/-- Whether a notifier has the callback of this notification. -/
def Notifier.wants (n : Notifier) (e : Bool × PmState) : Bool :=
  if e.1 then n.stateEntry else n.stateExit

/-- The strictly alternating sequence: each state is entered and then left. -/
def pairs (ss : List PmState) : List (Bool × PmState) :=
  ss.flatMap fun s => [(true, s), (false, s)]

@[simp] theorem seenBy_append (i : ℕ) (l r : List Obs) :
    seenBy i (l ++ r) = seenBy i l ++ seenBy i r := List.filterMap_append

@[simp] theorem postOpsRun_append (l r : List Obs) :
    postOpsRun (l ++ r) = postOpsRun l ++ postOpsRun r := List.filterMap_append

@[simp] theorem pairs_concat (ss : List PmState) (s : PmState) :
    pairs (ss ++ [s]) = pairs ss ++ [(true, s), (false, s)] := by
  simp [pairs]

lemma mem_notifyFrom {entering : Bool} {state : PmState} {k : ℕ} {ns : List Notifier} {o : Obs}
    (h : o ∈ notifyFrom entering state k ns) : ∃ j, k ≤ j ∧ o = .callback j entering state := by
  induction ns generalizing k with
  | nil => exact absurd h List.not_mem_nil
  | cons n ns ih =>
    rw [notifyFrom, List.mem_append] at h
    rcases h with h | h
    · refine ⟨k, le_rfl, ?_⟩
      split_ifs at h
      all_goals first
        | exact List.mem_singleton.mp h
        | exact absurd h List.not_mem_nil
    · obtain ⟨j, hj, ho⟩ := ih h
      exact ⟨j, by omega, ho⟩

/-- What is not seen of the callbacks of a round is not seen of the round. -/
lemma filterMap_notifyFrom {β : Type*} {f : Obs → Option β} {entering : Bool} {state : PmState}
    {k : ℕ} (hf : ∀ j, k ≤ j → f (.callback j entering state) = none) (ns : List Notifier) :
    (notifyFrom entering state k ns).filterMap f = [] := by
  refine List.filterMap_eq_nil_iff.mpr fun o ho => ?_
  obtain ⟨j, hj, rfl⟩ := mem_notifyFrom ho
  exact hf j hj

@[simp] theorem postOpsRun_notifyFrom (entering : Bool) (state : PmState) (k : ℕ)
    (ns : List Notifier) : postOpsRun (notifyFrom entering state k ns) = [] :=
  filterMap_notifyFrom (fun _ _ => rfl) ns

lemma seenBy_notifyFrom_lt (entering : Bool) (state : PmState) {i k : ℕ} (hik : i < k)
    (ns : List Notifier) : seenBy i (notifyFrom entering state k ns) = [] := by
  refine filterMap_notifyFrom (fun j hj => ?_) ns
  exact if_neg (by omega)

/-- A round of notifications reaches each notifier once, if it has the callback. -/
theorem seenBy_notifyFrom (entering : Bool) (state : PmState) (k : ℕ) (ns : List Notifier)
    (i : ℕ) (n : Notifier) (hn : ns[i]? = some n) :
    seenBy (k + i) (notifyFrom entering state k ns) = [(entering, state)].filter n.wants := by
  induction ns generalizing k i with
  | nil => simp at hn
  | cons m ns ih =>
    cases i with
    | zero =>
      have hm : m = n := by simpa using hn
      subst m
      have hrest := seenBy_notifyFrom_lt entering state (Nat.lt_succ_self k) ns
      have hwants : (if entering then n.stateEntry else n.stateExit) =
          n.wants (entering, state) := rfl
      rw [notifyFrom, seenBy_append, Nat.add_zero, hrest, List.append_nil, hwants]
      by_cases hw : n.wants (entering, state) = true
      · rw [if_pos hw]
        simp [seenBy, hw]
      · rw [if_neg hw]
        simp [seenBy, hw]
    | succ i =>
      have htail := ih (k + 1) i (by simpa using hn)
      have hne : k ≠ k + (i + 1) := by omega
      rw [notifyFrom, seenBy_append, show k + (i + 1) = k + 1 + i by omega, htail]
      rw [show k + (i + 1) = k + 1 + i by omega] at hne
      split_ifs <;> simp [seenBy, hne]

/-- What the notifiers and the post operations have seen: the states `ss` were
entered and left, `pending` is entered and not yet left, and the post operations
ran for `post`. -/
structure Exchanged (notifiers : List Notifier) (log : List Obs) (ss : List PmState)
    (pending : Option PmState) (post : List PmState) : Prop where
  seen : ∀ i n, notifiers[i]? = some n →
    seenBy i log = (pairs ss ++ pending.toList.map (true, ·)).filter n.wants
  postOps : postOpsRun log = post

variable {notifiers : List Notifier} {log : List Obs} {ss post : List PmState}
  {pending : Option PmState}

/-- Observations that concern neither notifiers nor post operations. -/
def Silent (os : List Obs) : Prop := (∀ i, seenBy i os = []) ∧ postOpsRun os = []

theorem Exchanged.silent (h : Exchanged notifiers log ss pending post) {os : List Obs}
    (hos : Silent os) : Exchanged notifiers (log ++ os) ss pending post :=
  ⟨fun i n hn => by rw [seenBy_append, hos.1, List.append_nil, h.seen i n hn],
    by rw [postOpsRun_append, hos.2, List.append_nil, h.postOps]⟩

theorem Exchanged.enter (h : Exchanged notifiers log ss none post) (s : PmState) :
    Exchanged notifiers (log ++ notifyFrom true s 0 notifiers) ss (some s) post := by
  refine ⟨fun i n hn => ?_, by simp [h.postOps]⟩
  have hround := seenBy_notifyFrom true s 0 notifiers i n hn
  rw [Nat.zero_add] at hround
  rw [seenBy_append, h.seen i n hn, hround]
  simp

theorem Exchanged.leave {s : PmState} (h : Exchanged notifiers log ss (some s) post) :
    Exchanged notifiers (log ++ notifyFrom false s 0 notifiers) (ss ++ [s]) none post := by
  refine ⟨fun i n hn => ?_, by simp [h.postOps]⟩
  have hround := seenBy_notifyFrom false s 0 notifiers i n hn
  rw [Nat.zero_add] at hround
  rw [seenBy_append, h.seen i n hn, hround, ← List.filter_append]
  simp

theorem Exchanged.runPostOps (h : Exchanged notifiers log ss pending post) (s : PmState)
    (sub : BitVec 8) :
    Exchanged notifiers (log ++ [.exitPostOps s sub]) ss pending (post ++ [s]) :=
  ⟨fun i n hn => by simpa [seenBy] using h.seen i n hn,
    by rw [postOpsRun_append, h.postOps]; rfl⟩

/-- Nothing is owed: the bit is clear and every state entered has been left. -/
def Settled (notifiers : List Notifier) (m : Machine) : Prop :=
  m.zPostOpsRequired = false ∧ ∃ ss, Exchanged notifiers m.log ss none ss

/-- Settled, and the record names the active state. -/
def Quiet (notifiers : List Notifier) (m : Machine) : Prop :=
  Settled notifiers m ∧ m.zPmState.state = .active

/-- The state in the record is announced and not yet left; `bit` says whether
the bit still stands. -/
def Owed (notifiers : List Notifier) (bit : Bool) (m : Machine) : Prop :=
  m.zPostOpsRequired = bit ∧ ∃ ss, Exchanged notifiers m.log ss (some m.zPmState.state) ss

/-- The announced state has had its post operations, and not its exit. -/
def HalfLeft (notifiers : List Notifier) (m : Machine) : Prop :=
  m.zPostOpsRequired = false ∧
    ∃ ss, Exchanged notifiers m.log ss (some m.zPmState.state) (ss ++ [m.zPmState.state])

/-- The invariant, by program point. While the thread waits, an interrupt may
already have paid the debt. -/
def PairingInv (notifiers : List Notifier) (m : Machine) : Prop :=
  match m.pc with
  | .idle | .readClock | .askPolicy _ | .record _ | .returned _ => Quiet notifiers m
  | .setAlarm | .notifyEntry | .resumeReset _ => Settled notifiers m
  | .requirePostOps | .resumePostOps _ => Owed notifiers false m
  | .loadState | .loadSubstate _ | .firstWait _ _ | .readLatency | .secondAlarm | .secondWait
  | .resumeTest _ => Owed notifiers true m ∨ Quiet notifiers m
  | .resumeNotify _ => HalfLeft notifiers m

theorem pairingInv_initial : PairingInv notifiers initial :=
  ⟨⟨rfl, [], ⟨fun _ _ _ => rfl, rfl⟩⟩, rfl⟩

@[simp] theorem log_observe (m : Machine) (os : List Obs) : (m.observe os).log = m.log ++ os := by
  simp [Machine.observe, Machine.log]

lemma Settled.observe {m : Machine} (h : Settled notifiers m) {os : List Obs} (hos : Silent os) :
    Settled notifiers (m.observe os) := by
  obtain ⟨hbit, ss, hx⟩ := h
  exact ⟨hbit, ss, by rw [log_observe]; exact hx.silent hos⟩

lemma Owed.observe {bit : Bool} {m : Machine} (h : Owed notifiers bit m) {os : List Obs}
    (hos : Silent os) : Owed notifiers bit (m.observe os) := by
  obtain ⟨hbit, ss, hx⟩ := h
  exact ⟨hbit, ss, by rw [log_observe]; exact hx.silent hos⟩

/-- While the thread waits, alarms and power state requests change nothing. -/
lemma waiting_observe {m : Machine} (h : Owed notifiers true m ∨ Quiet notifiers m)
    {os : List Obs} (hos : Silent os) :
    Owed notifiers true (m.observe os) ∨ Quiet notifiers (m.observe os) :=
  h.imp (fun ho => ho.observe hos) fun hq => ⟨hq.1.observe hos, hq.2⟩

/-- Leaving the announced state in one go settles the debt. -/
theorem Owed.settle {m : Machine} (h : Owed notifiers true m) :
    Quiet notifiers (pmSystemResume notifiers m) := by
  obtain ⟨hbit, ss, hx⟩ := h
  simp only [pmSystemResume, hbit, if_true]
  refine ⟨⟨rfl, ss ++ [m.zPmState.state], ?_⟩, rfl⟩
  have hleft := (hx.runPostOps m.zPmState.state m.zPmState.substateId).leave
  simpa [resetState, pmStateNotify, pmStateExitPostOps, clearPostOps, Machine.log,
    Machine.observe] using hleft

/-- An interrupt keeps the invariant: it pays a debt or does nothing. -/
theorem pairingInv_isr (m : Machine) (h : PairingInv notifiers m) :
    PairingInv notifiers (pmSystemResume notifiers m) := by
  cases hbit : m.zPostOpsRequired with
  | false => rwa [pmSystemResume_clear notifiers m hbit]
  | true =>
    -- The bit stands only where an interrupt may find it.
    have hdebt : Owed notifiers true m ∨ Quiet notifiers m →
        Quiet notifiers (pmSystemResume notifiers m) := by
      rintro (ho | hq)
      · exact ho.settle
      · exact absurd hq.1.1 (by simp [hbit])
    unfold PairingInv at h ⊢
    rw [pmSystemResume_pc]
    cases hpc : m.pc <;> rw [hpc] at h <;> simp only at h ⊢
    all_goals first
      | exact Or.inr (hdebt h)
      | exact absurd h.1 (by simp [hbit])
      | exact absurd h.1.1 (by simp [hbit])

/-- Every step of the thread keeps the invariant. -/
theorem pairingInv_thread (m : Machine) (h : PairingInv notifiers m) :
    PairingInv notifiers (threadStep notifiers m) := by
  unfold PairingInv at h
  unfold threadStep
  cases hpc : m.pc <;> rw [hpc] at h <;> simp only at h ⊢
  case idle => simpa [PairingInv, hpc] using h
  case returned code => simpa [PairingInv, hpc] using h
  case readClock => exact h
  case askPolicy sleep =>
    have hq : Quiet notifiers (m.observe [.policyAsked sleep]) :=
      ⟨h.1.observe ⟨fun _ => rfl, rfl⟩, h.2⟩
    cases m.call.answer with
    | none => exact hq
    | some info => exact hq
  case record info => exact h.1
  case setAlarm => exact h.observe ⟨fun _ => rfl, rfl⟩
  case notifyEntry =>
    obtain ⟨hbit, ss, hx⟩ := h
    have hx' := hx.enter m.zPmState.state
    rw [← log_observe] at hx'
    exact ⟨hbit, ss, hx'⟩
  case requirePostOps => exact Or.inl ⟨rfl, h.2⟩
  case loadState => exact h
  case loadSubstate state => exact h
  case firstWait state substateId => exact waiting_observe h ⟨fun _ => rfl, rfl⟩
  case readLatency => split <;> exact h
  case secondAlarm => exact waiting_observe h ⟨fun _ => rfl, rfl⟩
  case secondWait => exact waiting_observe h ⟨fun _ => rfl, rfl⟩
  case resumeTest code =>
    rcases h with ⟨hbit, ss, hx⟩ | hq
    · rw [if_pos hbit]
      exact ⟨rfl, ss, hx⟩
    · rw [if_neg (by simp [hq.1.1])]
      exact hq
  case resumePostOps code =>
    obtain ⟨hbit, ss, hx⟩ := h
    have hx' := hx.runPostOps m.zPmState.state m.zPmState.substateId
    rw [← log_observe] at hx'
    exact ⟨hbit, ss, hx'⟩
  case resumeNotify code =>
    obtain ⟨hbit, ss, hx⟩ := h
    have hx' := hx.leave
    rw [← log_observe] at hx'
    exact ⟨hbit, _, hx'⟩
  case resumeReset code => exact ⟨h, rfl⟩

theorem pairingInv_step (m : Machine) (e : Event) (h : PairingInv notifiers m) :
    PairingInv notifiers (suspendStep notifiers m e) := by
  cases e with
  | thread => exact pairingInv_thread m h
  | isr => exact pairingInv_isr m h
  | call c =>
    have hlog : (begin m c).log = m.log := by simp [begin, Machine.log]
    have hbegin (hq : Quiet notifiers m) : PairingInv notifiers (begin m c) := by
      obtain ⟨⟨hbit, ss, hx⟩, hz⟩ := hq
      exact ⟨⟨hbit, ss, by rwa [hlog]⟩, hz⟩
    simp only [suspendStep]
    split
    · next hpc =>
      rw [PairingInv, hpc] at h
      exact hbegin h
    · next code hpc =>
      rw [PairingInv, hpc] at h
      exact hbegin h
    · exact h

theorem pairingInv_run (notifiers : List Notifier) (es : List Event) :
    PairingInv notifiers (run (suspendStep notifiers) initial es) :=
  run_preserves pairingInv_step pairingInv_initial es

/-- Every program point shows one of these: all paid, an exit owed, or an exit
owed whose post operations have run. -/
theorem pairingInv_exchanged {m : Machine} (h : PairingInv notifiers m) :
    ∃ ss pending, (Exchanged notifiers m.log ss pending ss ∨
      ∃ s, pending = some s ∧ Exchanged notifiers m.log ss pending (ss ++ [s])) := by
  unfold PairingInv at h
  cases hpc : m.pc <;> rw [hpc] at h <;> simp only at h
  all_goals first
    | (obtain ⟨⟨_, ss, hx⟩, _⟩ := h; exact ⟨ss, none, Or.inl hx⟩)
    | (rcases h with ⟨_, ss, hx⟩ | ⟨⟨_, ss, hx⟩, _⟩ <;> exact ⟨ss, _, Or.inl hx⟩)
    | (obtain ⟨_, ss, hx⟩ := h; exact ⟨ss, _, Or.inl hx⟩)
    | (obtain ⟨_, ss, hx⟩ := h; exact ⟨ss, _, Or.inr ⟨_, rfl, hx⟩⟩)

theorem pairingInv_atRest {m : Machine} (h : PairingInv notifiers m) (hrest : m.AtRest) :
    Quiet notifiers m := by
  rcases hrest with hpc | ⟨code, hpc⟩ <;> rwa [PairingInv, hpc] at h

/-- For any notifiers, any calls and any interrupts between their steps, at any
time: there are states `ss`, entered and left in this order, such that every
notifier has seen exactly their entries and exits, and possibly the entry of one
more state, as far as it has the callbacks; the post operations have run once
for each of `ss`, and possibly for the state about to be left. Whenever no call
is running, no exit is owed and the record is active; and every call returns
after at most sixteen steps of its own. -/
theorem suspend_resume_paired (notifiers : List Notifier) (es : List Event) :
    (∃ ss pending,
      Exchanged notifiers (run (suspendStep notifiers) initial es).log ss pending ss ∨
        ∃ s, pending = some s ∧
          Exchanged notifiers (run (suspendStep notifiers) initial es).log ss pending (ss ++ [s])) ∧
    ((run (suspendStep notifiers) initial es).AtRest →
      (∃ ss, Exchanged notifiers (run (suspendStep notifiers) initial es).log ss none ss) ∧
      (run (suspendStep notifiers) initial es).zPostOpsRequired = false ∧
      (run (suspendStep notifiers) initial es).zPmState.state = .active) ∧
    ∀ fs, WithinCall fs → 16 ≤ fs.count .thread →
      (run (suspendStep notifiers) initial (es ++ fs)).AtRest := by
  have hinv := pairingInv_run notifiers es
  refine ⟨pairingInv_exchanged hinv, fun hrest => ?_, fun fs hfs hcount => ?_⟩
  · obtain ⟨⟨hbit, hx⟩, hz⟩ := pairingInv_atRest hinv hrest
    exact ⟨hx, hbit, hz⟩
  · rw [run_append, atRest_iff_stepsLeft]
    have hsteps := run_stepsLeft notifiers (run (suspendStep notifiers) initial es) fs hfs
    have hmax : ∀ pc : Pc, pc.stepsLeft ≤ 16 := by
      intro pc
      cases pc <;> simp [Pc.stepsLeft]
    have hle := hmax (run (suspendStep notifiers) initial es).pc
    omega

end WchIotSdk.PowerSuspend
