import WchIotSdk.Notifications
import WchIotSdk.PowerPolicy
import WchIotSdk.TaskEvents

/-!
# The task of a Bluetooth peripheral

The scheduler of the BLE library calls `perip_process_event` with the events of the
task, and the library calls it back on changes of its role, on writes to the client
configuration and in pairing. What the library answers is an input of each call; its
calls and the lines printed are what the task puts out. Between events the library
goes to sleep through the power policy. Assertions are compiled away.
-/
namespace WchIotSdk.PeripheralTask
open Notifications PowerPolicy TaskEvents

def sysEventMsg : BitVec 16 := 0x8000
def prripStartDevice : BitVec 16 := 0x0001
def peripPollNotifyEvent : BitVec 16 := 0x0002
def testPollEvent : BitVec 16 := 0x0010
def gattMsgEvent : BitVec 8 := 0xb0
def attMtuUpdatedEvent : BitVec 8 := 0x7f

/-- `MS1_TO_SYSTEM_TIME`, in units of 625 microseconds. -/
def ms1ToSystemTime (x : ℕ) : ℕ := x * 1000 / 625

/-- `struct ble_conn_param`. -/
structure BleConnParam where
  connHandle : BitVec 16
  connInterval : BitVec 16
  connSlaveLatency : BitVec 16
  connTimeout : BitVec 16
  deriving DecidableEq, Repr

/-- `BLE_CONN_PARAM_RESET`, and the value of `BLE_CONN_PARAM_DEFINE`. -/
def bleConnParamReset : BleConnParam := ⟨gapConnhandleInit, 0, 0, 0⟩

/-- A message at an address: `tmos_event_hdr_t`, and the fields read of a
`gattMsgEvent_t`. -/
structure TmosMsg where
  address : ℕ
  event : BitVec 8
  method : BitVec 8
  clientRxMtu : BitVec 16
  deriving DecidableEq, Repr

/-- `gapRole_States_t`. -/
inductive GapRoleStates where
  | init
  | started
  | advertising
  | waiting
  | connected
  | connectedAdv
  | error
  deriving DecidableEq, Repr

/-- `gapRoleEvent_t`: the union by its opcode, with the fields that are read. -/
inductive GapRoleEvent where
  | makeDiscoverableDone
  | endDiscoverableDone
  | linkEstablished (status : BitVec 8) (conn : BleConnParam)
  | linkTerminated (connectionHandle : BitVec 16) (reason : BitVec 8)
  | other (opcode : BitVec 8)
  deriving DecidableEq, Repr

def GapRoleEvent.opcode : GapRoleEvent → BitVec 8
  | .makeDiscoverableDone => 0x03
  | .endDiscoverableDone => 0x04
  | .linkEstablished _ _ => 0x05
  | .linkTerminated _ _ => 0x06
  | .other opcode => opcode

/-- The lines of `printk`, with their arguments. -/
inductive Line where
  | mtuExchange (clientRxMtu : BitVec 16)
  | spsNotify
  | spsNotified (temp : BitVec 8)
  | spsNotifyError
  | testPoll
  | connectionMax
  | conn (param : BleConnParam)
  | err
  | initialized
  | disconnected (reason : BitVec 8)
  | advertising
  | connected
  | connectedAdvertising
  | waitingForAdvertising
  | error
  | errorOpcode (opcode : BitVec 8)
  | spsCcc (config : BitVec 16)
  | char (charc : BitVec 8)
  | byte (value : BitVec 8)
  | newline
  | passKey (passkey : ℕ)
  | pairConn (connHandle : BitVec 16)
  | pairCause (state : BitVec 8)
  | pairStatus (status : BitVec 8)
  deriving DecidableEq, Repr

inductive Call where
  | printk (line : Line)
  | tmosMsgReceive (result : Option TmosMsg)
  | tmosMsgDeallocate (msg : TmosMsg)
  | tmosStartReloadTask (event : BitVec 16) (time : ℕ)
  | tmosStopTask (event : BitVec 16)
  | gapRolePeripheralStartDevice (result : BitVec 8)
  | gapRoleTerminateLink (connHandle : BitVec 16)
  | gapBondMgrPasscodeRsp (connHandle : BitVec 16) (status : BitVec 8) (passkey : ℕ)
  /-- GAPROLE_ADVERT_ENABLED set to TRUE -/
  | bleAdvRestart
  | gatt (call : LibCall)
  deriving DecidableEq, Repr

/-- The static data of the task, and the policy it takes a lock of. -/
structure Perip where
  peripConn : BleConnParam
  /-- of the poll -/
  temp : BitVec 8
  /-- of the test event -/
  flag : Bool
  policy : PolicyState

/-- What a call of the event function is answered. -/
structure Answers where
  pMsg : Option TmosMsg
  ret : BitVec 8
  noti : Notifications.Answers
  deriving DecidableEq, Repr

/-- The library calls back. -/
inductive Callback where
  | peripStateNotify (newState : GapRoleStates) (pEvent : GapRoleEvent)
  | spsCccChanged (config : BitVec 16)
  | spsValueChanged (charc : BitVec 8) (value : List (BitVec 8))
  | peripBondPasscode (connectionHandle : BitVec 16) (uiInputs uiOutputs : BitVec 8) (rand : ℕ)
  | peripPairState (connHandle : BitVec 16) (state status : BitVec 8)
  /-- the policy is asked, in `pm_system_suspend` -/
  | sleep (ticks : BitVec 32)
  deriving DecidableEq, Repr

def peripProcessMsg (pMsg : TmosMsg) : List Call :=
  if pMsg.event = gattMsgEvent ∧ pMsg.method = attMtuUpdatedEvent then
    [.printk (.mtuExchange pMsg.clientRxMtu)]
  else []

/-- The calls of the event function, and the events it returns. -/
def peripProcessEvent (simpleSrv : ℕ → BitVec 16) (lib : Answers) (p : Perip)
    (event : BitVec 16) : Perip × List Call × BitVec 16 :=
  if event &&& sysEventMsg ≠ 0 then
    let received := .tmosMsgReceive lib.pMsg
    match lib.pMsg with
    | some pMsg =>
      (p, received :: peripProcessMsg pMsg ++ [.tmosMsgDeallocate pMsg], event ^^^ sysEventMsg)
    | none => (p, [received], event ^^^ sysEventMsg)
  else if event &&& prripStartDevice ≠ 0 then
    (p, [.gapRolePeripheralStartDevice lib.ret], event ^^^ prripStartDevice)
  else if event &&& peripPollNotifyEvent ≠ 0 then
    let (calls, status) := spsNotify simpleSrv p.peripConn.connHandle [p.temp] lib.noti
    let notify := .printk .spsNotify :: calls.map .gatt
    if status = success then
      ({ p with temp := p.temp + 1 }, notify ++ [.printk (.spsNotified p.temp)],
        event ^^^ peripPollNotifyEvent)
    else (p, notify ++ [.printk .spsNotifyError], event ^^^ peripPollNotifyEvent)
  else if event &&& testPollEvent ≠ 0 then
    if p.flag then
      ({ p with flag := false, policy := pmPolicyStateLockPut p.policy .suspendToRam },
        [.printk .testPoll], event ^^^ testPollEvent)
    else
      ({ p with flag := true, policy := pmPolicyStateLockGet p.policy .suspendToRam },
        [.printk .testPoll], event ^^^ testPollEvent)
  else (p, [], 0)

def peripLinkEstablished (p : Perip) (event : BleConnParam) : Perip × List Call :=
  if p.peripConn.connHandle ≠ gapConnhandleInit then
    (p, [.gapRoleTerminateLink event.connHandle, .printk .connectionMax])
  else
    ({ p with peripConn := event }, [.printk (.conn event)])

def peripLinkTerminated (p : Perip) (connectionHandle : BitVec 16) : Perip × List Call :=
  if connectionHandle = p.peripConn.connHandle then
    ({ p with peripConn := bleConnParamReset },
      [.tmosStopTask peripPollNotifyEvent, .bleAdvRestart])
  else (p, [.printk .err])

def peripStateNotify (p : Perip) (newState : GapRoleStates) (pEvent : GapRoleEvent) :
    Perip × List Call :=
  match newState with
  | .started => (p, [.printk .initialized])
  | .advertising =>
    match pEvent with
    | .linkTerminated connectionHandle reason =>
      let (p, calls) := peripLinkTerminated p connectionHandle
      (p, calls ++ [.printk (.disconnected reason),
        .printk .advertising])
    | .makeDiscoverableDone => (p, [.printk .advertising])
    | _ => (p, [])
  | .connected =>
    match pEvent with
    | .linkEstablished _ conn =>
      let (p, calls) := peripLinkEstablished p conn
      (p, calls ++ [.printk .connected])
    | _ => (p, [])
  | .connectedAdv =>
    match pEvent with
    | .makeDiscoverableDone => (p, [.printk .connectedAdvertising])
    | _ => (p, [])
  | .waiting =>
    match pEvent with
    | .endDiscoverableDone => (p, [.printk .waitingForAdvertising])
    | .linkTerminated connectionHandle reason =>
      let (p, calls) := peripLinkTerminated p connectionHandle
      (p, calls ++ [.printk (.disconnected reason)])
    | .linkEstablished status _ =>
      if status ≠ success then (p, [.printk .waitingForAdvertising])
      else (p, [.printk .error])
    | event => (p, [.printk (.errorOpcode event.opcode)])
  | .error => (p, [.printk .error])
  | .init => (p, [])

def spsCccChanged (config : BitVec 16) : List Call :=
  .printk (.spsCcc config) ::
    if config ≠ 0 then [.tmosStartReloadTask peripPollNotifyEvent (ms1ToSystemTime 1000)]
    else [.tmosStopTask peripPollNotifyEvent]

def spsValueChanged (charc : BitVec 8) (value : List (BitVec 8)) : List Call :=
  .printk (.char charc) ::
    value.map (fun byte => .printk (.byte byte)) ++ [.printk .newline]

def peripBondPasscode (connectionHandle : BitVec 16) (uiOutputs : BitVec 8) (rand : ℕ) :
    List Call :=
  if uiOutputs ≠ 0 then
    let passkey := rand % 1000000
    [.printk (.passKey passkey),
      .gapBondMgrPasscodeRsp connectionHandle success passkey]
  else []

def peripPairState (connHandle : BitVec 16) (state status : BitVec 8) : List Call :=
  [.printk (.pairConn connHandle), .printk (.pairCause state), .printk (.pairStatus status)]

def callback (cfg : PolicyConfig) (p : Perip) : Callback → Perip × List Call
  | .peripStateNotify newState pEvent => PeripheralTask.peripStateNotify p newState pEvent
  | .spsCccChanged config => (p, PeripheralTask.spsCccChanged config)
  | .spsValueChanged charc value => (p, PeripheralTask.spsValueChanged charc value)
  | .peripBondPasscode connectionHandle _ uiOutputs rand =>
    (p, PeripheralTask.peripBondPasscode connectionHandle uiOutputs rand)
  | .peripPairState connHandle state status =>
    (p, PeripheralTask.peripPairState connHandle state status)
  | .sleep ticks => ({ p with policy := (pmPolicyNextState cfg p.policy ticks).1 }, [])

/-- The event an output is made for. -/
def mark : Call → Option ℕ
  | .tmosMsgReceive _ => some 15
  | .gapRolePeripheralStartDevice _ => some 0
  | .printk .spsNotify => some 1
  | .printk .testPoll => some 4
  | _ => none

end WchIotSdk.PeripheralTask
