import WchIotSdk.BufDeque
import WchIotSdk.TypeLengthValue

/-!
# Enabling advertising

`ble_adv_enable` passes the advertising parameters to the GAP library, and then
the two payloads, which it builds one after the other in `adv_data`, a buffer of 31
bytes. Entries are added without a test for room; the assertions in `buf.c` are
compiled away.

The library is outside the repository. What it answers to a call may depend on all
the calls before.
-/
namespace WchIotSdk.Advertising
open ByteDigits ByteMemory Buf TypeLengthValue

def bMaxAdvLen : ℕ := 31

/-- Parameters of the GAP library. -/
def gaproleAdvertEnabled : BitVec 16 := 0x305
def gaproleAdvertData : BitVec 16 := 0x306
def gaproleScanRspData : BitVec 16 := 0x307
def gaproleAdvEventType : BitVec 16 := 0x308
def gaproleAdvDirectType : BitVec 16 := 0x309
def gaproleAdvDirectAddr : BitVec 16 := 0x30a
def gaproleAdvChannelMap : BitVec 16 := 0x30b
def gaproleAdvFilterPolicy : BitVec 16 := 0x30c
def tgapDiscAdvIntMin : BitVec 16 := 3
def tgapDiscAdvIntMax : BitVec 16 := 4

/-- `ble_addr_t`, with the B_ADDR_LEN bytes of the address. -/
structure BleAddr where
  type : Byte
  addr : Vector Byte 6

/-- `struct ble_adv_param`; `dir_addr` may be NULL. -/
structure BleAdvParam where
  type : Byte
  channel : Byte
  filterPolicy : Byte
  intervalMin : BitVec 32
  intervalMax : BitVec 32
  dirAddr : Option BleAddr

/-- `struct ble_data`. Its data lie apart from the storage of `adv_data`, which is
private to the file. -/
structure BleData (storage : ℤ) where
  len : Byte
  type : Byte
  data : ℤ
  apart : data + len.toNat ≤ storage ∨ storage + bMaxAdvLen ≤ data

/-- A call of the GAP library. -/
inductive GapCall
  | setParameter (param : BitVec 16) (value : List Byte)
  | setParamValue (paramId : BitVec 16) (paramValue : BitVec 16)
  deriving DecidableEq

/-- What the library answers, given the calls before. -/
abbrev Gap := List GapCall → GapCall → BitVec 8

/-- What `ble_adv_enable` has done: the state of `adv_data`, the calls of the library,
the error bits they answered with, and the runs of bytes written. -/
structure Enabling where
  store : Store
  err : BitVec 32
  calls : List GapCall
  written : List (ℤ × ℕ)

/-- `err |=` the answer of the library. -/
def Enabling.call (gap : Gap) (r : Enabling) (c : GapCall) : Enabling :=
  { r with err := r.err ||| (gap r.calls c).setWidth 32, calls := r.calls ++ [c] }

/-- The loop over the entries, with the runs that it writes. -/
def addEntries {storage : ℤ} (s : Store) : List (BleData storage) → Store × List (ℤ × ℕ)
  | [] => (s, [])
  | e :: es =>
    let (s, len) := bufSimpleAddU8 s (e.len + 1)
    let (s, type) := bufSimpleAddU8 s e.type
    let (s, data) := bufSimpleAddMem s e.data e.len.toNat
    let (s, written) := addEntries s es
    (s, (len, 1) :: (type, 1) :: (data, e.len.toNat) :: written)

/-- A payload is built in `adv_data` and handed to the library, which takes its
length as a byte. -/
def setPayload {storage : ℤ} (gap : Gap) (param : BitVec 16) (r : Enabling) :
    Option (List (BleData storage)) → Enabling
  | none => r
  | some es =>
    let (s, written) := addEntries (bufSimpleReset r.store) es
    let r := { r with store := s, written := r.written ++ written }
    r.call gap (.setParameter param (readBytes s.mem s.buf.data (s.buf.len % 256)))

/-- `adv_data`, as calls before have left it. -/
def advData (mem : Memory) (storage data : ℤ) (len : ℕ) : Store :=
  ⟨mem, ⟨data, len, bMaxAdvLen, storage⟩, 0⟩

/-- `param` is not NULL: it is read before it is tested. -/
def bleAdvEnable {storage : ℤ} (gap : Gap) (mem : Memory) (data : ℤ) (len : ℕ)
    (param : BleAdvParam) (ad sd : Option (List (BleData storage))) : Enabling :=
  let r : Enabling := ⟨advData mem storage data len, 0, [], []⟩
  let r := r.call gap (.setParameter gaproleAdvertEnabled [1])
  let r := r.call gap (.setParameter gaproleAdvEventType [param.type])
  let r := r.call gap (.setParameter gaproleAdvChannelMap [param.channel])
  let r := r.call gap (.setParameter gaproleAdvFilterPolicy [param.filterPolicy])
  let r := r.call gap (.setParamValue tgapDiscAdvIntMin (param.intervalMin.setWidth 16))
  let r := r.call gap (.setParamValue tgapDiscAdvIntMax (param.intervalMax.setWidth 16))
  let r :=
    match param.dirAddr with
    | some addr =>
      let r := r.call gap (.setParameter gaproleAdvDirectType [addr.type])
      r.call gap (.setParameter gaproleAdvDirectAddr addr.addr.toList)
    | none => r
  let r := setPayload gap gaproleAdvertData r ad
  setPayload gap gaproleScanRspData r sd

end WchIotSdk.Advertising
