import WchIotSdk.EventRuns
import Mathlib.Tactic

/-!
# The transmitter, shared by the thread and an interrupt

Every function that sends polls a register before each byte it writes. The transmitter
takes the bytes out of its FIFO while they run, and the interrupt handler may send
between any two accesses of the thread; it runs to its end before the thread goes on. A
byte written while the FIFO is full is lost.
-/
namespace WchIotSdk.UartTransmit
open EventRuns

/-- What is polled before a byte: `UART_LINE_TX_ALL_EMP`, or a FIFO count that is not
UART_FIFO_SIZE. -/
inductive Wait where
  | txAllEmp
  | txRoom
  deriving DecidableEq, Repr

structure Job where
  wait : Wait
  byte : BitVec 8
  deriving DecidableEq, Repr

def uartWchPollOut (c : BitVec 8) : List Job := [⟨.txAllEmp, c⟩]
def halUartFifoTx (data : List (BitVec 8)) : List Job := data.map (⟨.txRoom, ·⟩)
def uartWchFifoFill (txData : List (BitVec 8)) : List Job := halUartFifoTx txData

/-- `_write`: nothing is sent while the debug port is not ready. -/
def write (deviceIsReady : Bool) (buf : List (BitVec 8)) : List Job :=
  if deviceIsReady then buf.flatMap uartWchPollOut else []

inductive Call where
  | pollOut (c : BitVec 8)
  | fifoFill (txData : List (BitVec 8))
  | write (deviceIsReady : Bool) (buf : List (BitVec 8))
  deriving DecidableEq, Repr

def Call.jobs : Call → List Job
  | .pollOut c => uartWchPollOut c
  | .fifoFill txData => uartWchFifoFill txData
  | .write deviceIsReady buf => UartTransmit.write deviceIsReady buf

inductive Who where
  | thread
  | isr
  deriving DecidableEq, Repr

/-- What is left to send, and whether the poll for the next byte has succeeded. -/
structure Context where
  jobs : List Job
  tested : Bool
  deriving DecidableEq, Repr

/-- A write of THR, and whether the FIFO had room for it. -/
structure ThrWrite where
  who : Who
  byte : BitVec 8
  kept : Bool
  deriving DecidableEq, Repr

structure Uart where
  fifo : List (BitVec 8)
  shifter : Option (BitVec 8)
  /-- what has gone out -/
  line : List (BitVec 8)
  context : Who → Context
  writes : List ThrWrite

def uartFifoSize : ℕ := 8

namespace Uart

def idle : Uart := ⟨[], none, [], fun _ => ⟨[], false⟩, []⟩

def ready (s : Uart) : Wait → Bool
  | .txAllEmp => s.fifo.isEmpty && s.shifter.isNone
  | .txRoom => s.fifo.length != uartFifoSize

def setContext (s : Uart) (who : Who) (c : Context) : Uart :=
  { s with context := Function.update s.context who c }

def halUartTx (s : Uart) (who : Who) (data : BitVec 8) : Uart :=
  if s.fifo.length < uartFifoSize then
    { s with fifo := s.fifo ++ [data], writes := s.writes ++ [⟨who, data, true⟩] }
  else { s with writes := s.writes ++ [⟨who, data, false⟩] }

/-- One access: a poll, or the write of the byte once a poll has succeeded. -/
def access (s : Uart) (who : Who) : Uart :=
  match (s.context who).jobs with
  | [] => s
  | job :: rest =>
    if (s.context who).tested then (s.halUartTx who job.byte).setContext who ⟨rest, false⟩
    else if s.ready job.wait then s.setContext who ⟨job :: rest, true⟩
    else s

end Uart

/-- The next call of a context, an access of it, the loading of the shift register and the
end of its transmission. -/
inductive Event where
  | call (who : Who) (c : Call)
  | access (who : Who)
  | load
  | sent
  deriving DecidableEq, Repr

def step (s : Uart) : Event → Uart
  | .call who c => s.setContext who { s.context who with jobs := (s.context who).jobs ++ c.jobs }
  | .access .isr => s.access .isr
  | .access .thread => if (s.context .isr).jobs = [] then s.access .thread else s
  | .load =>
    match s.shifter, s.fifo with
    | none, b :: fifo => { s with shifter := some b, fifo := fifo }
    | _, _ => s
  | .sent =>
    match s.shifter with
    | some b => { s with line := s.line ++ [b], shifter := none }
    | none => s

/-- The bytes a context has written. -/
def Uart.written (s : Uart) (who : Who) : List (BitVec 8) :=
  (s.writes.filter (·.who = who)).map (·.byte)

/-- The bytes it still has to write. -/
def Uart.pending (s : Uart) (who : Who) : List (BitVec 8) := (s.context who).jobs.map (·.byte)

/-- The bytes on the line and on their way to it. -/
def Uart.stream (s : Uart) : List (BitVec 8) := s.line ++ s.shifter.toList ++ s.fifo

/-- The bytes an event asks a context to send. -/
def asked (who : Who) : Event → List (BitVec 8)
  | .call who' c => if who' = who then c.jobs.map (·.byte) else []
  | _ => []

section Spec

variable {s : Uart} {who : Who}

/-- What an access does. -/
inductive Access (s : Uart) (who : Who) : Uart → Prop where
  | done (hjobs : (s.context who).jobs = []) : Access s who s
  | waits {job : Job} {rest : List Job} (hjobs : (s.context who).jobs = job :: rest)
      (htested : (s.context who).tested = false) (hready : s.ready job.wait = false) :
      Access s who s
  | tests {job : Job} {rest : List Job} (hjobs : (s.context who).jobs = job :: rest)
      (htested : (s.context who).tested = false) (hready : s.ready job.wait = true) :
      Access s who (s.setContext who ⟨job :: rest, true⟩)
  | writes {job : Job} {rest : List Job} (hjobs : (s.context who).jobs = job :: rest)
      (htested : (s.context who).tested = true) :
      Access s who ((s.halUartTx who job.byte).setContext who ⟨rest, false⟩)

theorem access_spec (s : Uart) (who : Who) : Access s who (s.access who) := by
  rw [Uart.access]
  cases hjobs : (s.context who).jobs with
  | nil => exact .done hjobs
  | cons job rest =>
    dsimp only
    split_ifs with htested hready
    · exact .writes hjobs htested
    · exact .tests hjobs (Bool.not_eq_true _ ▸ htested) hready
    · exact .waits hjobs (Bool.not_eq_true _ ▸ htested) (Bool.not_eq_true _ ▸ hready)

@[simp] lemma setContext_same (s : Uart) (who : Who) (c : Context) :
    (s.setContext who c).context who = c := Function.update_self ..

@[simp] lemma setContext_other (s : Uart) (c : Context) {who who' : Who} (h : who' ≠ who) :
    (s.setContext who c).context who' = s.context who' := Function.update_of_ne h ..

@[simp] lemma setContext_fifo (s : Uart) (who : Who) (c : Context) :
    (s.setContext who c).fifo = s.fifo := rfl

@[simp] lemma setContext_writes (s : Uart) (who : Who) (c : Context) :
    (s.setContext who c).writes = s.writes := rfl

@[simp] lemma halUartTx_context (s : Uart) (who : Who) (data : BitVec 8) :
    (s.halUartTx who data).context = s.context := by
  rw [Uart.halUartTx]
  split_ifs <;> rfl

/-- The writes after an access. -/
lemma halUartTx_writes (s : Uart) (who : Who) (data : BitVec 8) :
    (s.halUartTx who data).writes =
      s.writes ++ [⟨who, data, decide (s.fifo.length < uartFifoSize)⟩] := by
  rw [Uart.halUartTx]
  split_ifs with h
  · rw [decide_eq_true h]
  · rw [decide_eq_false h]

end Spec

/-- The bytes of the writes that were kept are on the line or on their way, in the order of
the writes. -/
def Conserved (s : Uart) : Prop := s.stream = (s.writes.filter (·.kept)).map (·.byte)

section Order

variable {s s' : Uart} {who : Who}

lemma conserved_access (h : Conserved s) (ha : Access s who s') : Conserved s' := by
  cases ha with
  | done => exact h
  | waits => exact h
  | tests => exact h
  | @writes job rest =>
    change (s.halUartTx who job.byte).stream =
      ((s.halUartTx who job.byte).writes.filter (·.kept)).map (·.byte)
    unfold Conserved Uart.stream at h
    rw [halUartTx_writes, List.filter_append, List.map_append, ← h, Uart.stream, Uart.halUartTx]
    split_ifs with hroom
    · simp [hroom]
    · simp [hroom]

lemma conserved_step (s : Uart) (e : Event) (h : Conserved s) : Conserved (step s e) := by
  cases e with
  | call who c => exact h
  | access who =>
    cases who with
    | isr => exact conserved_access h (access_spec s .isr)
    | thread =>
      simp only [step]
      split_ifs
      · exact conserved_access h (access_spec s .thread)
      · exact h
  | load =>
    unfold Conserved Uart.stream at h ⊢
    simp only [step]
    split
    · rename_i hshifter hfifo
      rw [← h]
      simp [hshifter, hfifo]
    · exact h
  | sent =>
    unfold Conserved Uart.stream at h ⊢
    simp only [step]
    split
    · rename_i hshifter
      rw [← h]
      simp [hshifter]
    · exact h

lemma written_append (s : Uart) (w : ThrWrite) (who : Who) :
    ({ s with writes := s.writes ++ [w] } : Uart).written who =
      s.written who ++ if w.who = who then [w.byte] else [] := by
  simp only [Uart.written, List.filter_append, List.map_append]
  by_cases h : w.who = who <;> simp [h]

/-- An access moves at most one byte of its context from the pending to the written. -/
lemma order_access (ha : Access s who s') (other : Who) :
    s'.written other ++ s'.pending other = s.written other ++ s.pending other := by
  cases ha with
  | done => rfl
  | waits => rfl
  | @tests job rest hjobs =>
    change s.written other ++ _ = _
    by_cases hother : other = who
    · subst hother
      simp [Uart.pending, hjobs]
    · simp [Uart.pending, hother]
  | @writes job rest hjobs =>
    have hwritten : ((s.halUartTx who job.byte).setContext who ⟨rest, false⟩).written other =
        s.written other ++ if who = other then [job.byte] else [] := by
      rw [← written_append s ⟨who, job.byte, decide (s.fifo.length < uartFifoSize)⟩ other]
      simp only [Uart.written, setContext_writes, halUartTx_writes]
    rw [hwritten]
    by_cases hother : other = who
    · subst hother
      simp [Uart.pending, hjobs]
    · simp [Uart.pending, hother, Ne.symm hother]

lemma order_step (who : Who) (s : Uart) (e : Event) :
    (step s e).written who ++ (step s e).pending who =
      s.written who ++ s.pending who ++ asked who e := by
  cases e with
  | call who' c =>
    change s.written who ++ _ = _
    by_cases h : who = who'
    · subst h
      simp [step, Uart.pending, asked]
    · simp [step, Uart.pending, asked, h, Ne.symm h]
  | access who' =>
    simp only [asked, List.append_nil]
    cases who' with
    | isr => exact order_access (access_spec s .isr) who
    | thread =>
      simp only [step]
      split_ifs
      · exact order_access (access_spec s .thread) who
      · rfl
  | load =>
    simp only [step, asked, List.append_nil]
    split <;> rfl
  | sent =>
    simp only [step, asked, List.append_nil]
    split <;> rfl

lemma order_run (who : Who) (s : Uart) (es : List Event) :
    (run step s es).written who ++ (run step s es).pending who =
      s.written who ++ s.pending who ++ es.flatMap (asked who) := by
  induction es generalizing s with
  | nil => simp
  | cons e es ih => rw [run_cons, ih, order_step, List.flatMap_cons, List.append_assoc]

end Order

/-! ## No byte is lost -/

/-- The interrupt sends nothing between the poll of the thread and its write. -/
def OutsideWindow (s : Uart) (e : Event) : Prop :=
  ∀ c, e = .call .isr c → (s.context .thread).tested = false

/-- A context that has polled with success, and is not held up, finds room. -/
structure Roomy (s : Uart) : Prop where
  capacity : s.fifo.length ≤ uartFifoSize
  kept : ∀ w ∈ s.writes, w.kept = true
  working : (s.context .isr).tested = true → (s.context .isr).jobs ≠ []
  isr : (s.context .isr).tested = true → s.fifo.length < uartFifoSize
  held : (s.context .isr).jobs ≠ [] → (s.context .thread).tested = false
  thread : (s.context .thread).tested = true → s.fifo.length < uartFifoSize

section Room

variable {s s' : Uart}

lemma ready_room (hcap : s.fifo.length ≤ uartFifoSize) {w : Wait} (h : s.ready w = true) :
    s.fifo.length < uartFifoSize := by
  cases w with
  | txAllEmp =>
    simp only [Uart.ready, Bool.and_eq_true, List.isEmpty_iff] at h
    rw [h.1]
    decide
  | txRoom =>
    simp only [Uart.ready, bne_iff_ne] at h
    omega

lemma halUartTx_kept (hroom : s.fifo.length < uartFifoSize) (who : Who) (data : BitVec 8) :
    s.halUartTx who data =
      { s with fifo := s.fifo ++ [data], writes := s.writes ++ [⟨who, data, true⟩] } :=
  if_pos hroom

/-- The interrupt works while the thread is held up outside its window. -/
lemma roomy_isr (h : Roomy s) (ha : Access s .isr s') : Roomy s' := by
  cases ha with
  | done => exact h
  | waits => exact h
  | @tests job rest hjobs htested hready =>
    have hroom := ready_room h.capacity hready
    have hheld := h.held (by simp [hjobs])
    exact ⟨h.capacity, h.kept, by simp, fun _ => hroom, by simp [hheld], by simp [hheld]⟩
  | @writes job rest hjobs htested =>
    have hroom := h.isr htested
    have hheld := h.held (by simp [hjobs])
    rw [halUartTx_kept hroom]
    refine ⟨?_, ?_, by simp, by simp, ?_, ?_⟩
    · simpa [Uart.setContext] using hroom
    · intro w hw
      rcases List.mem_append.mp hw with hw | hw
      · exact h.kept w hw
      · rw [List.mem_singleton.mp hw]
    · intro _
      simpa [Uart.setContext] using hheld
    · simp [Uart.setContext, hheld]

lemma roomy_thread (h : Roomy s) (hidle : (s.context .isr).jobs = [])
    (ha : Access s .thread s') : Roomy s' := by
  have hquiet : (s.context .isr).tested = false := by
    by_contra hne
    exact h.working (by simpa using hne) hidle
  cases ha with
  | done => exact h
  | waits => exact h
  | @tests job rest hjobs htested hready =>
    have hroom := ready_room h.capacity hready
    exact ⟨h.capacity, h.kept, by simpa using h.working, by simpa using h.isr, by simp [hidle],
      fun _ => hroom⟩
  | @writes job rest hjobs htested =>
    have hroom := h.thread htested
    rw [halUartTx_kept hroom]
    refine ⟨?_, ?_, ?_, ?_, ?_, by simp⟩
    · simpa [Uart.setContext] using hroom
    · intro w hw
      rcases List.mem_append.mp hw with hw | hw
      · exact h.kept w hw
      · rw [List.mem_singleton.mp hw]
    · simp [Uart.setContext, hquiet]
    · simp [Uart.setContext, hquiet]
    · simp [Uart.setContext, hidle]

lemma roomy_step (s : Uart) (e : Event) (h : Roomy s) (he : OutsideWindow s e) :
    Roomy (step s e) := by
  cases e with
  | call who c =>
    cases who with
    | isr =>
      have hfree := he c rfl
      refine ⟨h.capacity, h.kept, ?_, ?_, ?_, ?_⟩
      · intro htested
        simp only [step, setContext_same] at htested ⊢
        exact fun hnil => h.working htested (List.append_eq_nil_iff.mp hnil).1
      · simpa [step] using h.isr
      · simp [step, hfree]
      · simp [step, hfree]
    | thread =>
      exact ⟨h.capacity, h.kept, by simpa [step] using h.working, by simpa [step] using h.isr,
        by simpa [step] using h.held, by simpa [step] using h.thread⟩
  | access who =>
    cases who with
    | isr => exact roomy_isr h (access_spec s .isr)
    | thread =>
      simp only [step]
      split_ifs with hidle
      · exact roomy_thread h hidle (access_spec s .thread)
      · exact h
  | load =>
    simp only [step]
    split
    · rename_i b fifo _ hfifo
      have hless : fifo.length < s.fifo.length := by simp [hfifo]
      exact ⟨by have := h.capacity; simp only; omega, h.kept, h.working,
        fun _ => hless.trans_le h.capacity, h.held, fun _ => hless.trans_le h.capacity⟩
    · exact h
  | sent =>
    simp only [step]
    split
    · exact ⟨h.capacity, h.kept, h.working, h.isr, h.held, h.thread⟩
    · exact h

end Room

/-- Whatever the order of the calls of both contexts, their accesses and the work of the
transmitter: each context writes the bytes of its calls in order, each once. What is kept
goes out in the order of the writes. If the interrupt never sends between a poll of the
thread and its write, everything written is kept. -/
theorem transmit_in_order (es : List Event) :
    let s := run step .idle es
    (∀ who, s.written who ++ s.pending who = es.flatMap (asked who)) ∧
      s.stream = (s.writes.filter (·.kept)).map (·.byte) ∧
      (Along step OutsideWindow .idle es → s.stream = s.writes.map (·.byte)) := by
  intro s
  have hstart : Conserved .idle := rfl
  have hconserved : Conserved s := run_preserves conserved_step hstart es
  refine ⟨fun who => order_run who .idle es, hconserved, fun hes => ?_⟩
  have hroomy : Roomy s := by
    refine run_invariant roomy_step ⟨?_, ?_, ?_, ?_, ?_, ?_⟩ hes <;> simp [Uart.idle]
  rw [hconserved, List.filter_eq_self.mpr fun w hw => by simpa using hroomy.kept w hw]

/-- An interrupt that fills the FIFO up in the window. -/
example : ((run step .idle ([.call .thread (.pollOut 0x61), .access .thread,
    .call .isr (.fifoFill (List.replicate 8 0x7a))] ++ List.replicate 16 (.access .isr) ++
    [.access .thread])).writes.filter (!·.kept)).map (·.byte) = [0x61] := by decide

/-! ## Everything goes out -/

/-- Nothing is left to send or on its way. -/
structure Drained (s : Uart) : Prop where
  jobs : ∀ who, (s.context who).jobs = []
  fifo : s.fifo = []
  shifter : s.shifter = none

/-- Accesses left to a context, when the transmitter never keeps it waiting. -/
def Context.left (c : Context) : ℕ := 4 * c.jobs.length + if c.tested then 0 else 1

/-- What is left to do; a byte weighs less the farther it has come. -/
def Uart.left (s : Uart) : ℕ :=
  (s.context .thread).left + (s.context .isr).left + 2 * s.fifo.length + s.shifter.toList.length

/-- No further call. -/
def Event.noCall (e : Event) : Prop := ∀ who c, e ≠ .call who c

/-- Events in which the transmitter works and both contexts have an access. -/
structure Round (es : List Event) : Prop where
  noCall : ∀ e ∈ es, e.noCall
  load : Event.load ∈ es
  sent : Event.sent ∈ es
  access : ∀ who, Event.access who ∈ es

section Progress

variable {s s' : Uart} {who : Who}

lemma left_setContext (s : Uart) (who : Who) (c : Context) :
    (s.setContext who c).left + (s.context who).left = s.left + c.left := by
  cases who <;> simp [Uart.left, Uart.setContext] <;> omega

lemma left_halUartTx (s : Uart) (who : Who) (data : BitVec 8) :
    (s.halUartTx who data).left ≤ s.left + 2 := by
  rw [Uart.halUartTx]
  split_ifs
  · simp only [Uart.left, List.length_append, List.length_singleton]
    omega
  · exact Nat.le_add_right _ _

lemma access_left (ha : Access s who s') : s' = s ∨ s'.left < s.left := by
  cases ha with
  | done => exact Or.inl rfl
  | waits => exact Or.inl rfl
  | @tests job rest hjobs htested =>
    have hleft := left_setContext s who ⟨job :: rest, true⟩
    refine Or.inr ?_
    simp only [Context.left, hjobs, htested, if_true, Bool.false_eq_true, if_false] at hleft
    omega
  | @writes job rest hjobs htested =>
    have hleft := left_setContext (s.halUartTx who job.byte) who ⟨rest, false⟩
    have htx := left_halUartTx s who job.byte
    refine Or.inr ?_
    simp only [halUartTx_context, Context.left, hjobs, htested, List.length_cons, if_true,
      Bool.false_eq_true, if_false] at hleft
    omega

lemma step_left (s : Uart) (e : Event) (he : e.noCall) :
    step s e = s ∨ (step s e).left < s.left := by
  cases e with
  | call who c => exact absurd rfl (he who c)
  | access who =>
    cases who with
    | isr => exact access_left (access_spec s .isr)
    | thread =>
      simp only [step]
      split_ifs
      · exact access_left (access_spec s .thread)
      · exact Or.inl rfl
  | load =>
    simp only [step]
    split
    · rename_i hshifter hfifo
      refine Or.inr ?_
      simp [Uart.left, hshifter, hfifo]
      omega
    · exact Or.inl rfl
  | sent =>
    simp only [step]
    split
    · rename_i hshifter
      refine Or.inr ?_
      simp [Uart.left, hshifter]
    · exact Or.inl rfl

/-- With the transmitter empty, a context that has something to send gets on. -/
lemma access_changes (hfifo : s.fifo = []) (hshifter : s.shifter = none)
    (hjobs : (s.context who).jobs ≠ []) (ha : Access s who s') : s' ≠ s := by
  have hready (w : Wait) : s.ready w = true := by
    cases w <;> simp [Uart.ready, hfifo, hshifter, uartFifoSize]
  cases ha with
  | done h => exact absurd h hjobs
  | waits _ _ h => simp [hready] at h
  | tests hj ht =>
    intro heq
    have hcontext := congrArg (fun t : Uart => (t.context who).tested) heq
    simp [ht] at hcontext
  | @writes job rest hj ht =>
    intro heq
    have hcontext := congrArg (fun t : Uart => (t.context who).jobs.length) heq
    simp [hj] at hcontext

lemma Round.changes {es : List Event} (hes : Round es) (s : Uart) (hs : ¬ Drained s) :
    ∃ e ∈ es, step s e ≠ s := by
  cases hshifter : s.shifter with
  | some b =>
    refine ⟨_, hes.sent, fun heq => ?_⟩
    have hline := congrArg (fun t : Uart => t.line.length) heq
    simp [step, hshifter] at hline
  | none =>
    cases hfifo : s.fifo with
    | cons b fifo =>
      refine ⟨_, hes.load, fun heq => ?_⟩
      have hfull := congrArg (fun t : Uart => t.shifter) heq
      simp [step, hshifter, hfifo] at hfull
    | nil =>
      by_cases hisr : (s.context .isr).jobs = []
      · have hthread : (s.context .thread).jobs ≠ [] := fun h =>
          hs ⟨fun who => by cases who <;> assumption, hfifo, hshifter⟩
        refine ⟨_, hes.access .thread, ?_⟩
        simp only [step, if_pos hisr]
        exact access_changes hfifo hshifter hthread (access_spec s .thread)
      · exact ⟨_, hes.access .isr, access_changes hfifo hshifter hisr (access_spec s .isr)⟩

lemma drained_step (s : Uart) (e : Event) (he : e.noCall) (hs : Drained s) : step s e = s := by
  cases e with
  | call who c => exact absurd rfl (he who c)
  | access who => cases who <;> simp [step, Uart.access, hs.jobs]
  | load => simp [step, hs.fifo, hs.shifter]
  | sent => simp [step, hs.shifter]

end Progress

/-- After any run, as many rounds as there is left to do bring everything out: each
context has written all the bytes of its calls, and all that was kept is on the line. -/
theorem transmit_completes (es : List Event) (rounds : List (List Event))
    (hrounds : ∀ fs ∈ rounds, Round fs) (henough : (run step .idle es).left < rounds.length) :
    let s := run step .idle (es ++ rounds.flatten)
    (∀ who, s.written who = es.flatMap (asked who)) ∧
      s.line = (s.writes.filter (·.kept)).map (·.byte) := by
  intro s
  have hdrained : Drained s := by
    simp only [s, run_append]
    exact run_rounds step_left (fun t e he ht => (drained_step t e he ht).symm ▸ ht)
      (fun fs hfs => (hrounds fs hfs).noCall) (fun fs hfs => (hrounds fs hfs).changes) henough
  have hquiet (who : Who) : rounds.flatten.flatMap (asked who) = [] := by
    refine List.flatMap_eq_nil_iff.mpr fun e he => ?_
    obtain ⟨fs, hfs, he⟩ := List.mem_flatten.mp he
    have hcall := (hrounds fs hfs).noCall e he
    cases e with
    | call who' c => exact absurd rfl (hcall who' c)
    | _ => rfl
  have hstart : Conserved .idle := rfl
  have hconserved : Conserved s := run_preserves conserved_step hstart _
  constructor
  · intro who
    have horder := order_run who .idle (es ++ rounds.flatten)
    rw [List.flatMap_append, hquiet, List.append_nil] at horder
    have hpending : s.pending who = [] := by simp [Uart.pending, hdrained.jobs]
    rw [hpending, List.append_nil] at horder
    exact horder
  · rw [← hconserved, Uart.stream, hdrained.fifo, hdrained.shifter]
    simp

/-- A line of the thread with an interrupt's byte in it. -/
theorem interrupted_line :
    let es : List Event := [.call .thread (.write true [0x61, 0x62]), .access .thread,
      .access .thread, .call .isr (.fifoFill [0x7a])]
    let rounds := List.replicate 20 [Event.load, .sent, .access .thread, .access .isr]
    (run step .idle (es ++ rounds.flatten)).written .thread = [0x61, 0x62] := by
  intro es rounds
  have hround : Round [Event.load, .sent, .access .thread, .access .isr] :=
    ⟨by simp [Event.noCall], by simp, by simp, fun who => by cases who <;> simp⟩
  exact (transmit_completes es rounds
    (fun fs hfs => (List.eq_of_mem_replicate hfs) ▸ hround) (by decide)).1 .thread

end WchIotSdk.UartTransmit
