import WchIotSdk.LastWrite
import WchIotSdk.PeripheralTask
import WchIotSdk.SingleSlot

/-!
# Runs of the Bluetooth tasks

Posts of events, calls of the event function and callbacks come in any order, with any
answers of the library. The three tasks lose no event. The peripheral holds one link
at a time, polls only while it holds one, sends the values of a counter without a gap,
and keeps the system out of suspend to RAM every other time its test event is served.
-/
namespace WchIotSdk.PeripheralTask
open EventRuns LastWrite Notifications PowerPolicy SingleSlot TaskEvents

/-- What the tasks of the host and of the HAL call. -/
inductive HostCall where
  | tmosMsgReceive (result : Option TmosMsg)
  | tmosMsgDeallocate (msg : TmosMsg)
  | bleRegInit
  | bleHalLsiCalibrate
  deriving DecidableEq, Repr

/-- Both process no message, whatever its event. -/
def receiveMsg (pMsg : Option TmosMsg) : List HostCall :=
  .tmosMsgReceive pMsg :: pMsg.toList.map .tmosMsgDeallocate

def bleProcessEvent (pMsg : Option TmosMsg) (event : BitVec 16) : List HostCall × BitVec 16 :=
  if event &&& sysEventMsg ≠ 0 then (receiveMsg pMsg, event ^^^ sysEventMsg) else ([], 0)

def halRegInitEvent : BitVec 16 := 0x0001

/-- `calibration` is CONFIG_BT_CALIBRATION, `lsi` either of CONFIG_SOC_LSI_32000 and
CONFIG_SOC_LSI_32768. -/
def bleHalProcessEvent (calibration lsi : Bool) (pMsg : Option TmosMsg) (events : BitVec 16) :
    List HostCall × BitVec 16 :=
  if events &&& sysEventMsg ≠ 0 then (receiveMsg pMsg, events ^^^ sysEventMsg)
  else if calibration && events &&& halRegInitEvent != 0 then
    (.bleRegInit :: if lsi then [.bleHalLsiCalibrate] else [], events ^^^ halRegInitEvent)
  else ([], 0)

def HostCall.mark : HostCall → Option ℕ
  | .tmosMsgReceive _ => some 15
  | .bleRegInit => some 0
  | _ => none

/-- The events of the three tasks, in the order of their tests. -/
def peripTask : Task 16 := ⟨[15, 0, 1, 4], by decide, by decide⟩
def bleTask : Task 16 := ⟨[15], by decide, by decide⟩
def bleHalTask (calibration : Bool) : Task 16 :=
  ⟨if calibration then [15, 0] else [15], by cases calibration <;> decide,
    by cases calibration <;> decide⟩

def peripProgram (simpleSrv : ℕ → BitVec 16) (cfg : PolicyConfig) :
    Program 16 Perip Answers Callback Call :=
  ⟨peripProcessEvent simpleSrv, callback cfg, mark⟩

/-- The other two tasks have no state and no callbacks. -/
def bleProgram : Program 16 Unit (Option TmosMsg) Empty HostCall :=
  ⟨fun pMsg s event => (s, bleProcessEvent pMsg event), fun s _ => (s, []), HostCall.mark⟩

def bleHalProgram (calibration lsi : Bool) : Program 16 Unit (Option TmosMsg) Empty HostCall :=
  ⟨fun pMsg s events => (s, bleHalProcessEvent calibration lsi pMsg events),
    fun s _ => (s, []), HostCall.mark⟩

section Events

variable (simpleSrv : ℕ → BitVec 16) (cfg : PolicyConfig) (lib : Answers) (p : Perip)

lemma sysEventMsg_eq : sysEventMsg = BitVec.twoPow 16 15 := rfl
lemma prripStartDevice_eq : prripStartDevice = BitVec.twoPow 16 0 := rfl
lemma peripPollNotifyEvent_eq : peripPollNotifyEvent = BitVec.twoPow 16 1 := rfl
lemma testPollEvent_eq : testPollEvent = BitVec.twoPow 16 4 := rfl
lemma halRegInitEvent_eq : halRegInitEvent = BitVec.twoPow 16 0 := rfl

/-- What the event function does for the event it serves. -/
def serve : Option ℕ → Perip × List Call
  | some 15 =>
    (p, .tmosMsgReceive lib.pMsg ::
      lib.pMsg.toList.flatMap fun pMsg => peripProcessMsg pMsg ++ [.tmosMsgDeallocate pMsg])
  | some 0 => (p, [.gapRolePeripheralStartDevice lib.ret])
  | some 1 =>
    let sent := spsNotify simpleSrv p.peripConn.connHandle [p.temp] lib.noti
    ({ p with temp := if sent.2 = success then p.temp + 1 else p.temp },
      .printk .spsNotify :: sent.1.map .gatt ++
        [.printk (if sent.2 = success then .spsNotified p.temp else .spsNotifyError)])
  | some 4 =>
    ({ p with
        flag := !p.flag
        policy := if p.flag then pmPolicyStateLockPut p.policy .suspendToRam
          else pmPolicyStateLockGet p.policy .suspendToRam },
      [.printk .testPoll])
  | _ => (p, [])

/-- A mask that is one bit tests that bit. -/
lemma test_iff {mask : BitVec 16} {i : ℕ} (hi : i < 16) (hmask : mask = BitVec.twoPow 16 i)
    (event : BitVec 16) : event &&& mask ≠ 0 ↔ event.getLsbD i = true := by
  rw [hmask]
  exact and_twoPow_ne_zero hi

lemma peripTask_first (event : BitVec 16) :
    peripTask.first event =
      if event.getLsbD 15 = true then some 15
      else if event.getLsbD 0 = true then some 0
      else if event.getLsbD 1 = true then some 1
      else if event.getLsbD 4 = true then some 4
      else none := by
  simp only [Task.first, peripTask, List.find?_cons, List.find?_nil]
  cases event.getLsbD 15 <;> cases event.getLsbD 0 <;> cases event.getLsbD 1 <;>
    cases event.getLsbD 4 <;> rfl

theorem process_eq (event : BitVec 16) :
    peripProcessEvent simpleSrv lib p event =
      ((serve simpleSrv lib p (peripTask.first event)).1,
        (serve simpleSrv lib p (peripTask.first event)).2, peripTask.rest event) := by
  unfold peripProcessEvent Task.rest
  simp only [peripTask_first, test_iff (by decide) sysEventMsg_eq,
    test_iff (by decide) prripStartDevice_eq, test_iff (by decide) peripPollNotifyEvent_eq,
    test_iff (by decide) testPollEvent_eq]
  split_ifs with b15 b0 b1 hsent b4 hflag
  · cases hmsg : lib.pMsg <;> simp [serve, hmsg] <;> rfl
  · rfl
  · simp only [serve, hsent, if_true]
    rfl
  · simp only [serve, hsent, if_false]
    rfl
  · simp only [serve, hflag, if_true]
    rfl
  · simp only [serve, hflag]
    rfl
  · rfl

lemma first_cases (event : BitVec 16) :
    peripTask.first event = some 15 ∨ peripTask.first event = some 0 ∨
      peripTask.first event = some 1 ∨ peripTask.first event = some 4 ∨
      peripTask.first event = none := by
  rw [peripTask_first]
  split_ifs <;> simp

/-- What a view shows of none of some calls it shows of no list of them. -/
lemma filterMap_none {ο : Type*} {shown : Call → Option ο} {kind : Call → Prop}
    (h : ∀ c, kind c → shown c = none) {calls : List Call} (hcalls : ∀ c ∈ calls, kind c) :
    calls.filterMap shown = [] :=
  List.filterMap_eq_nil_iff.2 fun c hc => h c (hcalls c hc)

/-- The calls made for an event. -/
def ForEvent : Call → Prop
  | .tmosMsgReceive _ => True
  | .tmosMsgDeallocate _ => True
  | .gapRolePeripheralStartDevice _ => True
  | .gatt _ => True
  | .printk (.conn _) => False
  | .printk _ => True
  | _ => False

lemma serve_calls (event : BitVec 16) :
    ∀ c ∈ (serve simpleSrv lib p (peripTask.first event)).2, ForEvent c := by
  rcases first_cases event with h | h | h | h | h <;> rw [h]
  · cases hmsg : lib.pMsg with
    | none => simp [serve, hmsg, ForEvent]
    | some pMsg =>
      simp only [serve, hmsg, Option.toList_some, List.flatMap_cons, peripProcessMsg]
      split_ifs <;> simp [ForEvent]
  · simp [serve, ForEvent]
  · simp only [serve]
    split_ifs <;> simp [ForEvent, or_imp, forall_and]
  · simp [serve, ForEvent]
  · simp [serve]

lemma mark_gatt (calls : List LibCall) : (calls.map Call.gatt).filterMap mark = [] := by
  simp [List.filterMap_map, Function.comp_def, mark]

lemma mark_processMsg (pMsg : TmosMsg) : (peripProcessMsg pMsg).filterMap mark = [] := by
  unfold peripProcessMsg
  split_ifs <;> simp [mark]

lemma serve_mark (event : BitVec 16) :
    (serve simpleSrv lib p (peripTask.first event)).2.filterMap mark =
      (peripTask.first event).toList := by
  rcases first_cases event with h | h | h | h | h <;> rw [h]
  · cases hmsg : lib.pMsg <;> simp [serve, hmsg, mark, mark_processMsg]
  · simp [serve, mark]
  · simp only [serve, List.filterMap_append, List.filterMap_cons, List.cons_append, mark_gatt]
    split_ifs <;> simp [mark]
  · simp [serve, mark]
  · rfl

/-- A line that tells nothing of the events or of the links. -/
def Plain : Call → Prop
  | .printk .spsNotify => False
  | .printk .testPoll => False
  | .printk (.conn _) => False
  | .printk _ => True
  | _ => False

/-- What a change of the role asks of the one link that is held. -/
def linkRequest : GapRoleStates → GapRoleEvent → Option (Request BleConnParam (BitVec 16))
  | .connected, .linkEstablished _ conn => some (.offer conn)
  | .advertising, .linkTerminated connectionHandle _ => some (.giveBack connectionHandle)
  | .waiting, .linkTerminated connectionHandle _ => some (.giveBack connectionHandle)
  | _, _ => none

def linkUpdate : Option (Request BleConnParam (BitVec 16)) → Perip × List Call
  | some (.offer conn) => peripLinkEstablished p conn
  | some (.giveBack connectionHandle) => peripLinkTerminated p connectionHandle
  | none => (p, [])

/-- A change of the role updates the link and prints. -/
theorem stateNotify_eq (newState : GapRoleStates) (pEvent : GapRoleEvent) :
    (peripStateNotify p newState pEvent).1 = (linkUpdate p (linkRequest newState pEvent)).1 ∧
      ∃ lines, (∀ c ∈ lines, Plain c) ∧ (peripStateNotify p newState pEvent).2 =
        (linkUpdate p (linkRequest newState pEvent)).2 ++ lines := by
  cases newState with
  | waiting =>
    cases pEvent with
    | linkEstablished status conn =>
      by_cases hstatus : status = success
      · have hnotify : peripStateNotify p .waiting (.linkEstablished status conn) =
            (p, [.printk .error]) := if_neg (not_not.2 hstatus)
        rw [hnotify]
        exact ⟨rfl, _, by simp [Plain], rfl⟩
      · have hnotify : peripStateNotify p .waiting (.linkEstablished status conn) =
            (p, [.printk .waitingForAdvertising]) := if_pos hstatus
        rw [hnotify]
        exact ⟨rfl, _, by simp [Plain], rfl⟩
    | _ => exact ⟨rfl, _, by simp [Plain], rfl⟩
  | _ => cases pEvent <;> exact ⟨rfl, _, by simp [Plain], rfl⟩

lemma peripPairState_plain (connHandle : BitVec 16) (state status : BitVec 8) :
    ∀ c ∈ peripPairState connHandle state status, Plain c := by
  simp [peripPairState, Plain]

lemma spsValueChanged_plain (charc : BitVec 8) (value : List (BitVec 8)) :
    ∀ c ∈ spsValueChanged charc value, Plain c := by
  have hbyte : ∀ c ∈ value.map fun byte => Call.printk (.byte byte), Plain c := by
    intro c hc
    obtain ⟨byte, -, rfl⟩ := List.mem_map.1 hc
    simp [Plain]
  intro c hc
  rcases List.mem_append.1 hc with hc | hc
  · rcases List.mem_cons.1 hc with rfl | hc
    · simp [Plain]
    · exact hbyte c hc
  · rw [List.mem_singleton.1 hc]
    simp [Plain]

/-- The calls a callback makes. -/
def ForCallback : Call → Prop
  | .bleAdvRestart => True
  | .tmosStartReloadTask _ _ => True
  | .tmosStopTask _ => True
  | .gapRoleTerminateLink _ => True
  | .gapBondMgrPasscodeRsp _ _ _ => True
  | .printk .spsNotify => False
  | .printk .testPoll => False
  | .printk _ => True
  | _ => False

lemma forCallback_of_plain (c : Call) (hc : Plain c) : ForCallback c := by
  cases c with
  | printk line => cases line <;> trivial
  | _ => exact hc.elim

lemma linkUpdate_calls (r : Option (Request BleConnParam (BitVec 16))) :
    ∀ c ∈ (linkUpdate p r).2, ForCallback c := by
  rcases r with _ | conn | connectionHandle
  · simp [linkUpdate]
  · simp only [linkUpdate, peripLinkEstablished]
    split_ifs <;> simp [ForCallback]
  · simp only [linkUpdate, peripLinkTerminated]
    split_ifs <;> simp [ForCallback]

lemma callback_calls (c : Callback) : ∀ call ∈ (callback cfg p c).2, ForCallback call := by
  cases c with
  | peripStateNotify newState pEvent =>
    obtain ⟨-, lines, hlines, hcalls⟩ := stateNotify_eq p newState pEvent
    change ∀ call ∈ (peripStateNotify p newState pEvent).2, ForCallback call
    rw [hcalls]
    intro call hcall
    rcases List.mem_append.1 hcall with h | h
    · exact linkUpdate_calls p _ call h
    · exact forCallback_of_plain call (hlines call h)
  | spsCccChanged config =>
    simp only [callback, spsCccChanged]
    split_ifs <;> simp [ForCallback]
  | spsValueChanged charc value =>
    exact fun call h => forCallback_of_plain call (spsValueChanged_plain charc value call h)
  | peripBondPasscode connectionHandle uiInputs uiOutputs rand =>
    simp only [callback, peripBondPasscode]
    split_ifs <;> simp [ForCallback]
  | peripPairState connHandle state status =>
    exact fun call h =>
      forCallback_of_plain call (peripPairState_plain connHandle state status call h)
  | sleep ticks => simp [callback]

lemma forCallback_mark (c : Call) (hc : ForCallback c) : mark c = none := by
  cases c with
  | printk line => cases line <;> first | rfl | exact hc.elim
  | _ => first | rfl | exact hc.elim

theorem perip_serves : (peripProgram simpleSrv cfg).Serves peripTask where
  returned lib p event := congrArg (·.2.2) (process_eq simpleSrv lib p event)
  marked lib p event := by
    change (peripProcessEvent simpleSrv lib p event).2.1.filterMap mark = _
    rw [process_eq]
    exact serve_mark simpleSrv lib p event
  silent p c := filterMap_none forCallback_mark (callback_calls cfg p c)

lemma receiveMsg_mark (pMsg : Option TmosMsg) :
    (receiveMsg pMsg).filterMap HostCall.mark = [15] := by
  cases pMsg <;> rfl

theorem ble_serves : bleProgram.Serves bleTask where
  returned pMsg _ event := by
    simp only [bleProgram, bleProcessEvent, test_iff (by decide) sysEventMsg_eq, Task.rest,
      Task.first, bleTask, List.find?_cons, List.find?_nil]
    cases event.getLsbD 15 <;> rfl
  marked pMsg _ event := by
    simp only [bleProgram, bleProcessEvent, test_iff (by decide) sysEventMsg_eq, Task.first,
      bleTask, List.find?_cons, List.find?_nil]
    cases event.getLsbD 15
    · rfl
    · exact receiveMsg_mark pMsg
  silent _ c := c.elim

lemma bleHalTask_first (calibration : Bool) (event : BitVec 16) :
    (bleHalTask calibration).first event =
      if event.getLsbD 15 = true then some 15
      else if calibration = true ∧ event.getLsbD 0 = true then some 0
      else none := by
  cases calibration with
  | false =>
    simp only [Task.first, bleHalTask, Bool.false_eq_true, if_false, false_and, List.find?_cons,
      List.find?_nil]
    cases event.getLsbD 15 <;> rfl
  | true =>
    simp only [Task.first, bleHalTask, if_true, true_and, List.find?_cons, List.find?_nil]
    cases event.getLsbD 15 <;> cases event.getLsbD 0 <;> rfl

theorem bleHal_serves (calibration lsi : Bool) :
    (bleHalProgram calibration lsi).Serves (bleHalTask calibration) where
  returned pMsg _ event := by
    simp only [bleHalProgram, bleHalProcessEvent, test_iff (by decide) sysEventMsg_eq, Task.rest,
      bleHalTask_first, Bool.and_eq_true, bne_iff_ne, test_iff (by decide) halRegInitEvent_eq]
    split_ifs <;> rfl
  marked pMsg _ event := by
    simp only [bleHalProgram, bleHalProcessEvent, test_iff (by decide) sysEventMsg_eq,
      bleHalTask_first, Bool.and_eq_true, bne_iff_ne, test_iff (by decide) halRegInitEvent_eq]
    split_ifs
    · exact receiveMsg_mark pMsg
    · rfl
    · rfl
    · rfl
  silent _ c := c.elim

/-- No task of the three loses an event, or serves one twice. -/
theorem tasks_keep_events :
    (peripProgram simpleSrv cfg).KeepsEvents peripTask ∧ bleProgram.KeepsEvents bleTask ∧
      ∀ calibration lsi, (bleHalProgram calibration lsi).KeepsEvents (bleHalTask calibration) :=
  ⟨(perip_serves simpleSrv cfg).keepsEvents, ble_serves.keepsEvents,
    fun calibration lsi => (bleHal_serves calibration lsi).keepsEvents⟩

end Events

section Links

variable (simpleSrv : ℕ → BitVec 16) (cfg : PolicyConfig)

/-- The link the peripheral holds. -/
def held (p : Perip) : Option BleConnParam :=
  if p.peripConn.connHandle = gapConnhandleInit then none else some p.peripConn

/-- The line printed for a link that is taken. -/
def connected (conn : BleConnParam) : Call :=
  .printk (.conn conn)

/-- What becomes of a link: the line, its termination, and the restart of
advertising behind it. -/
def linkCall : Call → Option Call
  | .bleAdvRestart => some .bleAdvRestart
  | .gapRoleTerminateLink connHandle => some (.gapRoleTerminateLink connHandle)
  | .printk (.conn conn) => some (.printk (.conn conn))
  | _ => none

/-- Those that say that a link is taken or has ended. -/
def linkChange : Call → Option Call
  | .bleAdvRestart => some .bleAdvRestart
  | .printk (.conn conn) => some (.printk (.conn conn))
  | _ => none

def linkAnswer : Answer BleConnParam → List Call
  | .taken conn => [connected conn]
  | .refused conn => [.gapRoleTerminateLink conn.connHandle]
  | .givenBack _ => [.bleAdvRestart]
  | .ignored => []

/-- What an input asks of the link. -/
def requests : Input 16 Answers Callback → List (Request BleConnParam (BitVec 16))
  | .callback (.peripStateNotify newState pEvent) => (linkRequest newState pEvent).toList
  | _ => []

/-- The handles of links are those of the controller: no link has the handle that
stands for no link. -/
def RealHandles (e : Input 16 Answers Callback) : Prop :=
  ∀ r ∈ requests e, match r with
    | .offer conn => conn.connHandle ≠ gapConnhandleInit
    | .giveBack connectionHandle => connectionHandle ≠ gapConnhandleInit

lemma held_linkUpdate (p : Perip) (r : Request BleConnParam (BitVec 16))
    (hreal : match r with
      | .offer conn => conn.connHandle ≠ gapConnhandleInit
      | .giveBack connectionHandle => connectionHandle ≠ gapConnhandleInit) :
    held (linkUpdate p (some r)).1 = SingleSlot.step BleConnParam.connHandle (held p) r ∧
      (linkUpdate p (some r)).2.filterMap linkCall =
        linkAnswer (SingleSlot.answer BleConnParam.connHandle (held p) r) := by
  by_cases hnone : p.peripConn.connHandle = gapConnhandleInit
  · cases r with
    | offer conn =>
      simp [linkUpdate, peripLinkEstablished, held, hnone, hreal, SingleSlot.step,
        SingleSlot.answer, linkCall, linkAnswer, connected]
    | giveBack connectionHandle =>
      simp [linkUpdate, peripLinkTerminated, held, hnone, hreal, SingleSlot.step, SingleSlot.answer,
        linkCall, linkAnswer]
  · cases r with
    | offer conn =>
      simp [linkUpdate, peripLinkEstablished, held, hnone, SingleSlot.step, SingleSlot.answer,
        linkCall, linkAnswer]
    | giveBack connectionHandle =>
      by_cases hmatch : connectionHandle = p.peripConn.connHandle
      · simp [linkUpdate, peripLinkTerminated, held, hnone, hmatch, SingleSlot.step,
          SingleSlot.answer, linkAnswer, bleConnParamReset]
        rfl
      · simp [linkUpdate, peripLinkTerminated, held, hnone, hmatch, SingleSlot.step,
          SingleSlot.answer, linkCall, linkAnswer]

lemma plain_linkCall (c : Call) (hc : Plain c) : linkCall c = none := by
  cases c with
  | printk line => cases line <;> first | rfl | exact hc.elim
  | _ => exact hc.elim

lemma forEvent_linkCall (c : Call) (hc : ForEvent c) : linkCall c = none := by
  cases c with
  | printk line => cases line <;> first | rfl | exact hc.elim
  | _ => first | rfl | exact hc.elim

/-- Serving an event leaves the link alone. -/
lemma held_serve (lib : Answers) (p : Perip) (event : BitVec 16) :
    held (serve simpleSrv lib p (peripTask.first event)).1 = held p := by
  rcases first_cases event with h | h | h | h | h <;> rw [h] <;> rfl

/-- One input is to the link what it asks of it. -/
lemma step_links (s : Perip × BitVec 16) (e : Input 16 Answers Callback) (hreal : RealHandles e) :
    held ((peripProgram simpleSrv cfg).step s e).1 =
        run (SingleSlot.step BleConnParam.connHandle) (held s.1) (requests e) ∧
      ((peripProgram simpleSrv cfg).out s e).filterMap linkCall =
        outputs (SingleSlot.step BleConnParam.connHandle)
          (fun slot r => linkAnswer (SingleSlot.answer BleConnParam.connHandle slot r))
          (held s.1) (requests e) := by
  cases e with
  | post events => exact ⟨rfl, rfl⟩
  | call lib =>
    change held (peripProcessEvent simpleSrv lib s.1 s.2).1 = _ ∧
      (peripProcessEvent simpleSrv lib s.1 s.2).2.1.filterMap linkCall = _
    rw [process_eq]
    exact ⟨held_serve simpleSrv lib s.1 s.2,
      filterMap_none forEvent_linkCall (serve_calls simpleSrv lib s.1 s.2)⟩
  | callback c =>
    cases c with
    | peripStateNotify newState pEvent =>
      obtain ⟨hstate, lines, hlines, hcalls⟩ := stateNotify_eq s.1 newState pEvent
      change held (peripStateNotify s.1 newState pEvent).1 = _ ∧
        (peripStateNotify s.1 newState pEvent).2.filterMap linkCall = _
      rw [hstate, hcalls, List.filterMap_append, filterMap_none plain_linkCall hlines,
        List.append_nil]
      simp only [RealHandles, requests] at hreal ⊢
      cases hr : linkRequest newState pEvent with
      | none => exact ⟨rfl, rfl⟩
      | some r =>
        rw [hr] at hreal
        obtain ⟨hheld, hshown⟩ := held_linkUpdate s.1 r (hreal r (by simp))
        exact ⟨hheld, hshown.trans (List.append_nil _).symm⟩
    | spsCccChanged config =>
      refine ⟨rfl, ?_⟩
      simp only [Program.out, peripProgram, callback, spsCccChanged]
      split_ifs <;> rfl
    | spsValueChanged charc value =>
      exact ⟨rfl, filterMap_none plain_linkCall (spsValueChanged_plain charc value)⟩
    | peripBondPasscode connectionHandle uiInputs uiOutputs rand =>
      refine ⟨rfl, ?_⟩
      simp only [Program.out, peripProgram, callback, peripBondPasscode]
      split_ifs <;> rfl
    | peripPairState connHandle state status =>
      exact ⟨rfl, filterMap_none plain_linkCall (peripPairState_plain connHandle state status)⟩
    | sleep ticks => exact ⟨rfl, rfl⟩

lemma linkChange_linkCall (calls : List Call) :
    (calls.filterMap linkCall).filterMap linkChange = calls.filterMap linkChange := by
  rw [List.filterMap_filterMap]
  congr 1
  funext c
  cases c with
  | printk line => cases line <;> rfl
  | _ => rfl

/-- The changes among the calls are the calls of the changes. -/
lemma linkChange_answers (as : List (Answer BleConnParam)) :
    (as.flatMap linkAnswer).filterMap linkChange =
      (as.filterMap Answer.change).flatMap linkAnswer := by
  induction as with
  | nil => rfl
  | cons a as ih =>
    rw [List.flatMap_cons, List.filterMap_append, ih]
    cases a <;> rfl

lemma stays_calls (past : List BleConnParam) (slot : Option BleConnParam) :
    (past.flatMap stay ++ slot.toList.map Answer.taken).flatMap linkAnswer =
      past.flatMap (fun conn => [connected conn, .bleAdvRestart]) ++ slot.toList.map connected := by
  rw [List.flatMap_append, List.flatMap_assoc]
  congr 1
  cases slot <;> rfl

/-- The peripheral is a slot for one link: a second one is terminated, and
advertising starts again once for each link that ends. -/
theorem one_link_at_a_time (s : Perip × BitVec 16) (hnone : held s.1 = none)
    {es : List (Input 16 Answers Callback)} (hreal : ∀ e ∈ es, RealHandles e) :
    (outputs (peripProgram simpleSrv cfg).step (peripProgram simpleSrv cfg).out s es).filterMap
        linkCall =
      (answers BleConnParam.connHandle none (es.flatMap requests)).flatMap linkAnswer ∧
    ∃ past : List BleConnParam,
      (outputs (peripProgram simpleSrv cfg).step (peripProgram simpleSrv cfg).out s es).filterMap
          linkChange =
        past.flatMap (fun conn => [connected conn, .bleAdvRestart]) ++
          (held (run (peripProgram simpleSrv cfg).step s es).1).toList.map connected := by
  have hheld := @run_view _ _ _ _ (fun s => held s.1) requests _ _ RealHandles
    (fun s e he => (step_links simpleSrv cfg s e he).1) s es hreal
  have hcalls := @outputs_view _ _ _ _ _ _ (fun s => held s.1) requests _ _ _ _ linkCall RealHandles
    (fun s e he => (step_links simpleSrv cfg s e he).1)
    (fun s e he => (step_links simpleSrv cfg s e he).2) s es hreal
  rw [hnone, answers_flatMap] at hcalls
  rw [hnone] at hheld
  refine ⟨hcalls, ?_⟩
  obtain ⟨past, hpast⟩ := stays BleConnParam.connHandle none (es.flatMap requests)
  refine ⟨past, ?_⟩
  rw [← linkChange_linkCall, hcalls, linkChange_answers, hheld, ← stays_calls, ← hpast]
  rfl

/-- The task before its first event, and two links. -/
def startPerip : Perip := ⟨bleConnParamReset, 0, false, ⟨fun _ => 0, ⟨.active, 0, 0, 0⟩⟩⟩
def firstConn : BleConnParam := ⟨0x0001, 24, 0, 400⟩
def secondConn : BleConnParam := ⟨0x0002, 24, 0, 400⟩

theorem second_link_terminated :
    (outputs (peripProgram (fun _ => 0) defaultConfig).step
      (peripProgram (fun _ => 0) defaultConfig).out (startPerip, 0)
      [.callback (.peripStateNotify .connected (.linkEstablished 0 firstConn)),
        .callback (.peripStateNotify .connected (.linkEstablished 0 secondConn)),
        .callback (.peripStateNotify .advertising (.linkTerminated 0x0001 0x13))]).filterMap
        linkCall =
      [connected firstConn, .gapRoleTerminateLink 0x0002, .bleAdvRestart] :=
  (one_link_at_a_time (fun _ => 0) defaultConfig (startPerip, 0) rfl
    (by simp [RealHandles, requests, linkRequest, firstConn, secondConn, gapConnhandleInit])).1

end Links

section Polling

variable {simpleSrv : ℕ → BitVec 16} {cfg : PolicyConfig}

/-- Starting and stopping a reload timer. -/
def timerWrite : Call → Option (BitVec 16 × Bool)
  | .tmosStartReloadTask event _ => some (event, true)
  | .tmosStopTask event => some (event, false)
  | _ => none

/-- The timer of the poll, with `armed` at the start. -/
def polling (armed : BitVec 16 → Bool) (calls : List Call) : Bool :=
  lastWritten armed (calls.filterMap timerWrite) peripPollNotifyEvent

/-- The library reports a client that subscribes over a link that is held. -/
def SubscribesLinked (s : Perip × BitVec 16) : Input 16 Answers Callback → Prop
  | .callback (.spsCccChanged config) => config ≠ 0 → held s.1 ≠ none
  | _ => True

lemma forEvent_timerWrite (c : Call) (hc : ForEvent c) : timerWrite c = none := by
  cases c <;> first | rfl | exact hc.elim

lemma plain_timerWrite (c : Call) (hc : Plain c) : timerWrite c = none := by
  cases c <;> first | rfl | exact hc.elim

lemma polling_quiet {armed : BitVec 16 → Bool} {calls : List Call}
    (h : calls.filterMap timerWrite = []) :
    polling armed calls = armed peripPollNotifyEvent := by
  rw [polling, h, lastWritten_nil]

/-- A link that goes stops the poll; one that comes finds none to stop. -/
lemma polling_linkUpdate {armed : BitVec 16 → Bool} (p : Perip)
    (r : Option (Request BleConnParam (BitVec 16)))
    (harmed : armed peripPollNotifyEvent = true → held p ≠ none)
    (hpoll : polling armed (linkUpdate p r).2 = true) : held (linkUpdate p r).1 ≠ none := by
  rcases r with _ | conn | connectionHandle
  · exact harmed hpoll
  · by_cases hconn : p.peripConn.connHandle ≠ gapConnhandleInit
    · have hkept : linkUpdate p (some (.offer conn)) = (p, _) := if_pos hconn
      rw [hkept] at hpoll ⊢
      exact harmed hpoll
    · have htaken : linkUpdate p (some (.offer conn)) = (_, [.printk (.conn conn)]) := if_neg hconn
      rw [htaken] at hpoll
      exact absurd (if_pos (not_not.1 hconn)) (harmed hpoll)
  · by_cases hconn : connectionHandle = p.peripConn.connHandle
    · have hgone : linkUpdate p (some (.giveBack connectionHandle)) =
          (_, [.tmosStopTask peripPollNotifyEvent, .bleAdvRestart]) := if_pos hconn
      rw [hgone] at hpoll
      have hstop : polling armed [.tmosStopTask peripPollNotifyEvent, .bleAdvRestart] = false := rfl
      exact absurd (hstop.symm.trans hpoll) Bool.false_ne_true
    · have hkept : linkUpdate p (some (.giveBack connectionHandle)) = (p, _) := if_neg hconn
      rw [hkept] at hpoll ⊢
      exact harmed hpoll

lemma polling_append_plain {armed : BitVec 16 → Bool} {calls lines : List Call}
    (hlines : ∀ c ∈ lines, Plain c) : polling armed (calls ++ lines) = polling armed calls := by
  rw [polling, List.filterMap_append, filterMap_none plain_timerWrite hlines, List.append_nil,
    polling]

lemma step_polling {armed : BitVec 16 → Bool} {s : Perip × BitVec 16}
    {e : Input 16 Answers Callback} (harmed : armed peripPollNotifyEvent = true → held s.1 ≠ none)
    (hsub : SubscribesLinked s e)
    (hpoll : polling armed ((peripProgram simpleSrv cfg).out s e) = true) :
    held ((peripProgram simpleSrv cfg).step s e).1 ≠ none := by
  cases e with
  | post events => exact harmed hpoll
  | call lib =>
    change polling armed (peripProcessEvent simpleSrv lib s.1 s.2).2.1 = true at hpoll
    change held (peripProcessEvent simpleSrv lib s.1 s.2).1 ≠ none
    rw [process_eq] at hpoll ⊢
    have hquiet := filterMap_none forEvent_timerWrite (serve_calls simpleSrv lib s.1 s.2)
    rw [polling_quiet hquiet] at hpoll
    change held (serve simpleSrv lib s.1 (peripTask.first s.2)).1 ≠ none
    rw [held_serve]
    exact harmed hpoll
  | callback c =>
    cases c with
    | peripStateNotify newState pEvent =>
      obtain ⟨hstate, lines, hlines, hcalls⟩ := stateNotify_eq s.1 newState pEvent
      change polling armed (peripStateNotify s.1 newState pEvent).2 = true at hpoll
      change held (peripStateNotify s.1 newState pEvent).1 ≠ none
      rw [hcalls, polling_append_plain hlines] at hpoll
      rw [hstate]
      exact polling_linkUpdate s.1 _ harmed hpoll
    | spsCccChanged config =>
      by_cases hconfig : config ≠ 0
      · exact hsub hconfig
      · have hstop : spsCccChanged config =
            [.printk (.spsCcc config), .tmosStopTask peripPollNotifyEvent] := by
          rw [spsCccChanged, if_neg hconfig]
        change polling armed (spsCccChanged config) = true at hpoll
        rw [hstop] at hpoll
        exact absurd hpoll Bool.false_ne_true
    | spsValueChanged charc value =>
      have hquiet := filterMap_none plain_timerWrite (spsValueChanged_plain charc value)
      exact harmed ((polling_quiet hquiet).symm.trans hpoll)
    | peripBondPasscode connectionHandle uiInputs uiOutputs rand =>
      have hquiet :
          (peripBondPasscode connectionHandle uiOutputs rand).filterMap timerWrite = [] := by
        unfold peripBondPasscode
        split_ifs <;> rfl
      exact harmed ((polling_quiet hquiet).symm.trans hpoll)
    | peripPairState connHandle state status => exact harmed hpoll
    | sleep ticks => exact harmed hpoll

/-- The poll runs only while a link is held. -/
theorem polls_only_linked (s : Perip × BitVec 16) {armed : BitVec 16 → Bool}
    (harmed : armed peripPollNotifyEvent = true → held s.1 ≠ none)
    {es : List (Input 16 Answers Callback)}
    (hsub : Along (peripProgram simpleSrv cfg).step SubscribesLinked s es)
    (hpoll : polling armed
      (outputs (peripProgram simpleSrv cfg).step (peripProgram simpleSrv cfg).out s es) = true) :
    held (run (peripProgram simpleSrv cfg).step s es).1 ≠ none := by
  induction es generalizing s armed with
  | nil => exact harmed hpoll
  | cons e es ih =>
    rw [outputs_cons, polling, List.filterMap_append, lastWritten_append] at hpoll
    exact ih _ (fun h => step_polling harmed hsub.1 h) hsub.2 hpoll

/-- A client subscribes. -/
theorem subscriber_is_linked :
    held (run (peripProgram (fun _ => 0) defaultConfig).step (startPerip, 0)
      [.callback (.peripStateNotify .connected (.linkEstablished 0 firstConn)),
        .callback (.spsCccChanged 1)]).1 ≠ none :=
  @polls_only_linked _ _ (startPerip, 0) (fun _ => false) (fun h => absurd h Bool.false_ne_true) _
    ⟨trivial, fun _ => Option.some_ne_none firstConn, trivial⟩ rfl

end Polling

section Values

variable (simpleSrv : ℕ → BitVec 16) (cfg : PolicyConfig)

/-- The value of a notification that the library accepts. -/
def sentValue : LibCall → Option (List (BitVec 8))
  | .gattNotification _ noti _ result => if result = success then some noti.contents else none
  | _ => none

def sent : Call → Option (List (BitVec 8))
  | .gatt call => sentValue call
  | _ => none

/-- The value is sent if and only if the function returns success. -/
lemma spsNotify_sent (conn : BitVec 16) (value : List (BitVec 8)) (noti : Notifications.Answers) :
    ((spsNotify simpleSrv conn value noti).1.map Call.gatt).filterMap sent =
      if (spsNotify simpleSrv conn value noti).2 = success then [value] else [] := by
  unfold spsNotify notify
  by_cases hconn : conn = gapConnhandleInit
  · rw [if_pos hconn]
    rfl
  · rw [if_neg hconn]
    cases noti.block with
    | none => rfl
    | some pValue =>
      by_cases hccc : noti.cccCfg &&& gattClientCfgNotify = 0
      · simp only [if_pos hccc]
        rfl
      · simp only [if_neg hccc, List.map_cons, List.map_nil, List.filterMap_cons, sent, sentValue]
        split_ifs <;> rfl

lemma forCallback_sent (c : Call) (hc : ForCallback c) : sent c = none := by
  cases c <;> first | rfl | exact hc.elim

/-- An event sends nothing, or the next value of the counter. -/
lemma serve_values (lib : Answers) (p : Perip) (event : BitVec 16) :
    ((serve simpleSrv lib p (peripTask.first event)).2.filterMap sent = [] ∧
        (serve simpleSrv lib p (peripTask.first event)).1.temp = p.temp) ∨
      ((serve simpleSrv lib p (peripTask.first event)).2.filterMap sent = [[p.temp]] ∧
        (serve simpleSrv lib p (peripTask.first event)).1.temp = p.temp + 1) := by
  rcases first_cases event with h | h | h | h | h <;> rw [h]
  · refine Or.inl ⟨?_, rfl⟩
    cases hmsg : lib.pMsg with
    | none => simp only [serve, hmsg]; rfl
    | some pMsg =>
      simp only [serve, hmsg, Option.toList_some, List.flatMap_cons, peripProcessMsg]
      split_ifs <;> rfl
  · exact Or.inl ⟨rfl, rfl⟩
  · have hsent := spsNotify_sent simpleSrv p.peripConn.connHandle [p.temp] lib.noti
    simp only [serve, List.cons_append, List.filterMap_cons, List.filterMap_append, hsent]
    split_ifs
    · exact Or.inr ⟨rfl, rfl⟩
    · exact Or.inl ⟨rfl, rfl⟩
  · exact Or.inl ⟨rfl, rfl⟩
  · exact Or.inl ⟨rfl, rfl⟩

lemma linkUpdate_kept (p : Perip) (r : Option (Request BleConnParam (BitVec 16))) :
    (linkUpdate p r).1.temp = p.temp ∧ (linkUpdate p r).1.flag = p.flag ∧
      (linkUpdate p r).1.policy = p.policy := by
  rcases r with _ | conn | connectionHandle
  · exact ⟨rfl, rfl, rfl⟩
  · simp only [linkUpdate, peripLinkEstablished]
    split_ifs <;> exact ⟨rfl, rfl, rfl⟩
  · simp only [linkUpdate, peripLinkTerminated]
    split_ifs <;> exact ⟨rfl, rfl, rfl⟩

lemma callback_temp (p : Perip) (c : Callback) : (callback cfg p c).1.temp = p.temp := by
  cases c with
  | peripStateNotify newState pEvent =>
    have hstate := (stateNotify_eq p newState pEvent).1
    change (peripStateNotify p newState pEvent).1.temp = p.temp
    rw [hstate, (linkUpdate_kept p _).1]
  | _ => rfl

lemma step_values (s : Perip × BitVec 16) (e : Input 16 Answers Callback) :
    (((peripProgram simpleSrv cfg).out s e).filterMap sent = [] ∧
        ((peripProgram simpleSrv cfg).step s e).1.temp = s.1.temp) ∨
      (((peripProgram simpleSrv cfg).out s e).filterMap sent = [[s.1.temp]] ∧
        ((peripProgram simpleSrv cfg).step s e).1.temp = s.1.temp + 1) := by
  cases e with
  | post events => exact Or.inl ⟨rfl, rfl⟩
  | call lib =>
    have hprocess := process_eq simpleSrv lib s.1 s.2
    simp only [Program.out, Program.step, peripProgram, hprocess]
    exact serve_values simpleSrv lib s.1 s.2
  | callback c =>
    exact Or.inl ⟨filterMap_none forCallback_sent (callback_calls cfg s.1 c),
      callback_temp cfg s.1 c⟩

/-- The values sent are those of a counter, in order and without a gap. -/
theorem values_sent (s : Perip × BitVec 16) (es : List (Input 16 Answers Callback)) :
    ∃ n, (outputs (peripProgram simpleSrv cfg).step (peripProgram simpleSrv cfg).out s es).filterMap
          sent = (List.range n).map (fun j => [s.1.temp + BitVec.ofNat 8 j]) ∧
      (run (peripProgram simpleSrv cfg).step s es).1.temp = s.1.temp + BitVec.ofNat 8 n := by
  induction es generalizing s with
  | nil => exact ⟨0, rfl, (BitVec.add_zero _).symm⟩
  | cons e es ih =>
    have hsucc (j : ℕ) : s.1.temp + BitVec.ofNat 8 (j + 1) = s.1.temp + 1 + BitVec.ofNat 8 j := by
      rw [BitVec.ofNat_add, BitVec.add_comm (BitVec.ofNat 8 j), ← BitVec.add_assoc]
      rfl
    obtain ⟨n, hvalues, htemp⟩ := ih ((peripProgram simpleSrv cfg).step s e)
    rw [outputs_cons, List.filterMap_append, hvalues, run_cons, htemp]
    rcases step_values simpleSrv cfg s e with ⟨hout, hsame⟩ | ⟨hout, hnext⟩
    · exact ⟨n, by rw [hout, hsame, List.nil_append], by rw [hsame]⟩
    · refine ⟨n + 1, ?_, ?_⟩
      · rw [hout, hnext, List.range_succ_eq_map, List.map_cons, List.map_map, BitVec.add_zero,
          List.singleton_append]
        congr 2
        funext j
        rw [Function.comp_apply, hsucc]
      · rw [hnext, hsucc]

end Values

section Locks

variable (simpleSrv : ℕ → BitVec 16) (cfg : PolicyConfig)

/-- The counters of the locks, with one lock of suspend to RAM more while the flag
is set. -/
def lockedBy (counts : PmState → BitVec 32) (flag : Bool) : PmState → BitVec 32 :=
  if flag then Function.update counts .suspendToRam (counts .suspendToRam + 1) else counts

lemma serve_locks (lib : Answers) {p : Perip} {counts : PmState → BitVec 32}
    (h : p.policy.stateLockCnt = lockedBy counts p.flag) (event : BitVec 16) :
    (serve simpleSrv lib p (peripTask.first event)).1.policy.stateLockCnt =
      lockedBy counts (serve simpleSrv lib p (peripTask.first event)).1.flag := by
  rcases first_cases event with h' | h' | h' | h' | h' <;> rw [h']
  · exact h
  · exact h
  · exact h
  · cases hflag : p.flag with
    | false =>
      simp only [serve, hflag, Bool.not_false, Bool.false_eq_true, if_false, pmPolicyStateLockGet]
      rw [h, hflag]
      rfl
    | true =>
      simp only [serve, hflag, Bool.not_true, if_true, pmPolicyStateLockPut]
      rw [h, hflag, lockedBy, if_pos rfl]
      simp [lockedBy]
  · exact h

lemma nextState_locks (p : PolicyState) (ticks : BitVec 32) :
    (pmPolicyNextState cfg p ticks).1.stateLockCnt = p.stateLockCnt := by
  simp only [pmPolicyNextState]
  generalize pmPolicyStateLockIsActive _ _ = active
  generalize (ticksForever _ _ || _) = longEnough
  cases active <;> cases longEnough <;> simp only [Bool.false_eq_true, if_false, if_true]

lemma callback_locks (p : Perip) (c : Callback) :
    (callback cfg p c).1.flag = p.flag ∧
      (callback cfg p c).1.policy.stateLockCnt = p.policy.stateLockCnt := by
  cases c with
  | peripStateNotify newState pEvent =>
    obtain ⟨-, hflag, hpolicy⟩ := linkUpdate_kept p (linkRequest newState pEvent)
    change (peripStateNotify p newState pEvent).1.flag = _ ∧
      (peripStateNotify p newState pEvent).1.policy.stateLockCnt = _
    rw [(stateNotify_eq p newState pEvent).1, hflag, hpolicy]
    exact ⟨rfl, rfl⟩
  | sleep ticks => exact ⟨rfl, nextState_locks cfg p.policy ticks⟩
  | _ => exact ⟨rfl, rfl⟩

/-- The counters are those of the start, with the lock of the flag. -/
lemma locks_run {counts : PmState → BitVec 32} {s : Perip × BitVec 16}
    (h : s.1.policy.stateLockCnt = lockedBy counts s.1.flag)
    (es : List (Input 16 Answers Callback)) :
    (run (peripProgram simpleSrv cfg).step s es).1.policy.stateLockCnt =
      lockedBy counts (run (peripProgram simpleSrv cfg).step s es).1.flag := by
  refine @run_preserves _ _ _ (fun s => s.1.policy.stateLockCnt = lockedBy counts s.1.flag) ?_ s
    h es
  intro s e hs
  cases e with
  | post events => exact hs
  | call lib =>
    simp only [Program.step, peripProgram, process_eq simpleSrv lib s.1 s.2]
    exact serve_locks simpleSrv lib hs s.2
  | callback c =>
    obtain ⟨hflag, hlocks⟩ := callback_locks cfg s.1 c
    change (callback cfg s.1 c).1.policy.stateLockCnt = lockedBy counts (callback cfg s.1 c).1.flag
    rw [hflag, hlocks, hs]

lemma serve_flag (lib : Answers) (p : Perip) (event : BitVec 16) :
    (serve simpleSrv lib p (peripTask.first event)).1.flag =
      (p.flag ^^ decide (Odd ((peripTask.first event).toList.count 4))) := by
  rcases first_cases event with h | h | h | h | h <;> rw [h] <;> simp [serve]

lemma step_flag (s : Perip × BitVec 16) (e : Input 16 Answers Callback) :
    ((peripProgram simpleSrv cfg).step s e).1.flag =
      (s.1.flag ^^
        decide (Odd ((((peripProgram simpleSrv cfg).out s e).filterMap mark).count 4))) := by
  cases e with
  | post events => exact (Bool.xor_false _).symm
  | call lib =>
    have hmarked := (perip_serves simpleSrv cfg).marked lib s.1 s.2
    have hflag := serve_flag simpleSrv lib s.1 s.2
    simp only [Program.step, Program.out, peripProgram, process_eq simpleSrv lib s.1 s.2] at *
    rw [hflag, hmarked]
  | callback c =>
    have hsilent : (callback cfg s.1 c).2.filterMap mark = [] :=
      (perip_serves simpleSrv cfg).silent s.1 c
    simp only [Program.step, Program.out, peripProgram, hsilent, (callback_locks cfg s.1 c).1]
    simp

lemma odd_add (m n : ℕ) : decide (Odd (m + n)) = (decide (Odd m) ^^ decide (Odd n)) := by
  by_cases hm : Odd m <;> by_cases hn : Odd n <;> simp [Nat.odd_add, ← Nat.not_odd_iff_even, hm, hn]

/-- The flag counts the test events served, modulo two. -/
lemma flag_run (s : Perip × BitVec 16) (es : List (Input 16 Answers Callback)) :
    (run (peripProgram simpleSrv cfg).step s es).1.flag =
      (s.1.flag ^^ decide (Odd (((peripProgram simpleSrv cfg).served s es).count 4))) := by
  induction es generalizing s with
  | nil => exact (Bool.xor_false _).symm
  | cons e es ih =>
    rw [run_cons, ih, step_flag]
    have hserved : (peripProgram simpleSrv cfg).served s (e :: es) =
        ((peripProgram simpleSrv cfg).out s e).filterMap mark ++
          (peripProgram simpleSrv cfg).served ((peripProgram simpleSrv cfg).step s e) es := by
      rw [Program.served, outputs_cons, List.filterMap_append]
      rfl
    rw [hserved, List.count_append, Bool.xor_assoc, odd_add]

/-- Between two services of the test event, from the first one on, the policy never
answers suspend to RAM; otherwise its locks are those of the start. -/
theorem test_locks_ram (s : Perip × BitVec 16) (hflag : s.1.flag = false)
    (hfree : s.1.policy.stateLockCnt .suspendToRam = 0) (es : List (Input 16 Answers Callback)) :
    if Odd (((peripProgram simpleSrv cfg).served s es).count 4) then
      ∀ ticks, (pmPolicyNextState cfg (run (peripProgram simpleSrv cfg).step s es).1.policy
        ticks).2.map (·.state) ≠ some .suspendToRam
    else (run (peripProgram simpleSrv cfg).step s es).1.policy.stateLockCnt =
      s.1.policy.stateLockCnt := by
  have hstart : s.1.policy.stateLockCnt = lockedBy s.1.policy.stateLockCnt s.1.flag := by
    rw [hflag]
    rfl
  have hlocks := locks_run simpleSrv cfg hstart es
  rw [flag_run, hflag, Bool.false_xor] at hlocks
  split_ifs with hodd
  · intro ticks hram
    rw [decide_eq_true hodd] at hlocks
    rw [pmPolicyNextState_answer] at hram
    split_ifs at hram with hanswer
    · rw [Option.map_some, chooseState_state, Option.some_inj] at hram
      rw [hram, hlocks] at hanswer
      exact absurd hanswer.1 (by simp [lockedBy, hfree])
    · simp at hram
  · rw [hlocks, decide_eq_false hodd]
    rfl

/-- One test event is served, and 100 seconds are idle. -/
theorem ram_locked_once :
    (pmPolicyNextState defaultConfig
      (run (peripProgram (fun _ => 0) defaultConfig).step (startPerip, 0)
        [.post testPollEvent, .call ⟨none, 0, ⟨none, 0, 0⟩⟩]).1.policy 3276800).2.map (·.state) ≠
      some .suspendToRam := by
  have hlocked := test_locks_ram (fun _ => 0) defaultConfig (startPerip, 0) rfl rfl
    [.post testPollEvent, .call ⟨none, 0, ⟨none, 0, 0⟩⟩]
  rw [if_pos (by decide)] at hlocked
  exact hlocked 3276800

end Locks

end WchIotSdk.PeripheralTask
