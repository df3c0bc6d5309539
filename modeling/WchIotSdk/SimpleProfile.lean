import WchIotSdk.ByteMemory
import WchIotSdk.LastWrite

/-!
# The simple profile service

Five characteristics, each with a byte array of its own, are set and read by the
application through `sps_set_param` and `sps_get_param`, and by clients through the
callbacks `sps_read` and `sps_write` of the attribute table `simple_srv`.

An array is the bytes from its start on, of which the length of the characteristic
counts; so is the memory behind a pointer that a caller passes.
-/
namespace WchIotSdk.SimpleProfile
open ByteDigits

/-- Status codes of the BLE library. -/
def success : Byte := 0x00
def invalidparameter : Byte := 0x02
def bleInvalidRange : Byte := 0x18
def attErrInvalidHandle : Byte := 0x01
def attErrInsufficientAuthor : Byte := 0x08
def attErrAttrNotFound : Byte := 0x0a
def attErrAttrNotLong : Byte := 0x0b
def attErrInvalidValueSize : Byte := 0x0d

def attBtUuidSize : Byte := 2
def gattPermitRead : Byte := 0x01
def gattPermitWrite : Byte := 0x02
def gattPermitAuthenRead : Byte := 0x04
def gattPermitAuthorRead : Byte := 0x10
def gattPermitAuthorWrite : Byte := 0x20
def gattPrimaryServiceUuid : BitVec 16 := 0x2800
def gattCharacterUuid : BitVec 16 := 0x2803
def gattCharUserDescUuid : BitVec 16 := 0x2901
def gattClientCharCfgUuid : BitVec 16 := 0x2902

/-- The characteristics. -/
inductive Charc
  | char1
  | char2
  | char3
  | char4
  | char5
  deriving DecidableEq, Repr

/-- SIMPLEPROFILE_CHAR1 to SIMPLEPROFILE_CHAR5. -/
def Charc.param : Charc → Byte
  | .char1 => 0
  | .char2 => 1
  | .char3 => 2
  | .char4 => 3
  | .char5 => 4

def Charc.uuid : Charc → BitVec 16
  | .char1 => 0xffe1
  | .char2 => 0xffe2
  | .char3 => 0xffe3
  | .char4 => 0xffe4
  | .char5 => 0xffe5

/-- SIMPLEPROFILE_CHAR1_LEN to SIMPLEPROFILE_CHAR5_LEN. -/
def Charc.len : Charc → ℕ
  | .char1 => 1
  | .char2 => 1
  | .char3 => 1
  | .char4 => 1
  | .char5 => 5

/-- What an attribute points to: the array of a characteristic, or something else. -/
inductive Storage
  | charc (k : Charc)
  | other
  deriving DecidableEq, Repr

/-- `gattAttribute_t`, with the first two bytes of the UUID as a number. The value of
a characteristic is kept in its array, as in every attribute of `simple_srv`. -/
structure GattAttribute where
  typeLen : Byte
  uuid : BitVec 16
  permissions : Byte
  pValue : Storage
  own : ∀ k : Charc, typeLen = attBtUuidSize → uuid = k.uuid → pValue = .charc k

/-- `sps_cb_t`: which of the callbacks are there. -/
structure SpsCb where
  spsValueChanged : Bool
  spsCccChanged : Bool

/-- The arrays, and the callbacks of the application. -/
structure Sps where
  bytes : Storage → ℕ → Byte
  spsCb : Option SpsCb

/-- What a function has done: the new state, its status, the length and the bytes it
gives its caller, and its calls of the callbacks. -/
structure Outcome where
  sps : Sps
  status : Byte
  pLen : Option (BitVec 16)
  value : List Byte
  valueChanged : List (Byte × List Byte)
  cccChanged : List (BitVec 16)

/-- The first `n` bytes from a pointer on. -/
def firstBytes (p : ℕ → Byte) (n : ℕ) : List Byte := (List.range n).map p

@[simp] lemma length_firstBytes (p : ℕ → Byte) (n : ℕ) : (firstBytes p n).length = n := by
  rw [firstBytes, List.length_map, List.length_range]

/-- The value of a characteristic. -/
def Sps.value (s : Sps) (k : Charc) : List Byte := firstBytes (s.bytes (.charc k)) k.len

/-- `tmos_memcpy` into an array. -/
def Sps.memcpy (s : Sps) (dst : Storage) (src : ℕ → Byte) (n : ℕ) : Sps :=
  { s with bytes := Function.update s.bytes dst fun i => if i < n then src i else s.bytes dst i }

/-- Nothing but a status. -/
def Outcome.ofStatus (s : Sps) (status : Byte) : Outcome := ⟨s, status, none, [], [], []⟩

section Read

/-- The case of a characteristic with length `len`. -/
def readValue (s : Sps) (pAttr : GattAttribute) (len : ℕ) (maxLen : BitVec 16) : Outcome :=
  let pLen := if maxLen.toNat > len then BitVec.ofNat 16 len else maxLen
  ⟨s, success, some pLen, firstBytes (s.bytes pAttr.pValue) pLen.toNat, [], []⟩

def spsRead (s : Sps) (pAttr : GattAttribute) (offset maxLen : BitVec 16) : Outcome :=
  if pAttr.permissions &&& gattPermitAuthorRead ≠ 0 then .ofStatus s attErrInsufficientAuthor
  else if offset > 0 then .ofStatus s attErrAttrNotLong
  else if pAttr.typeLen = attBtUuidSize then
    if pAttr.uuid = Charc.char1.uuid then readValue s pAttr Charc.char1.len maxLen
    else if pAttr.uuid = Charc.char2.uuid then readValue s pAttr Charc.char2.len maxLen
    else if pAttr.uuid = Charc.char4.uuid then readValue s pAttr Charc.char4.len maxLen
    else if pAttr.uuid = Charc.char5.uuid then readValue s pAttr Charc.char5.len maxLen
    else { Outcome.ofStatus s attErrAttrNotFound with pLen := some 0 }
  else { Outcome.ofStatus s attErrInvalidHandle with pLen := some 0 }

end Read

section Write

/-- `notifyApp` of no characteristic. -/
def notifyNone : Byte := 0xff

/-- The case of a characteristic that is written: the state, the status and
`notifyApp`. What is copied is as long as the characteristic. -/
def writeValue (s : Sps) (pAttr : GattAttribute) (pValue : ℕ → Byte) (len offset : BitVec 16)
    (k : Charc) : Sps × Byte × Byte :=
  let status :=
    if offset = 0 then
      if len.toNat > k.len then attErrInvalidValueSize else success
    else attErrAttrNotLong
  if status = success then (s.memcpy pAttr.pValue pValue k.len, status, k.param)
  else (s, status, notifyNone)

/-- `processed` is what GATTServApp_ProcessCCCWriteReq answers if it is called. -/
def spsWrite (s : Sps) (pAttr : GattAttribute) (pValue : ℕ → Byte) (len offset : BitVec 16)
    (processed : Byte) : Outcome :=
  if pAttr.permissions &&& gattPermitAuthorWrite ≠ 0 then .ofStatus s attErrInsufficientAuthor
  else
    let isCcc := pAttr.typeLen = attBtUuidSize ∧ pAttr.uuid = gattClientCharCfgUuid
    let (s', status, notifyApp) :=
      if pAttr.typeLen = attBtUuidSize then
        if pAttr.uuid = Charc.char1.uuid then writeValue s pAttr pValue len offset .char1
        else if pAttr.uuid = Charc.char3.uuid then writeValue s pAttr pValue len offset .char3
        else if pAttr.uuid = gattClientCharCfgUuid then (s, processed, notifyNone)
        else (s, attErrAttrNotFound, notifyNone)
      else (s, attErrInvalidHandle, notifyNone)
    { sps := s'
      status := status
      pLen := none
      value := []
      valueChanged :=
        if notifyApp ≠ notifyNone ∧ s.spsCb.any SpsCb.spsValueChanged then
          [(notifyApp, firstBytes pValue len.toNat)]
        else []
      cccChanged :=
        if isCcc ∧ status = success ∧ s.spsCb.any SpsCb.spsCccChanged then
          [BitVec.ofNat 16 (leValue (firstBytes pValue 2))]
        else [] }

end Write

section Param

/-- The case of a characteristic. -/
def setValue (s : Sps) (k : Charc) (value : ℕ → Byte) (len : BitVec 32) : Outcome :=
  if len.toNat = k.len then .ofStatus (s.memcpy (.charc k) value k.len) success
  else .ofStatus s bleInvalidRange

def spsSetParam (s : Sps) (charc : Byte) (value : ℕ → Byte) (len : BitVec 32) : Outcome :=
  if charc = Charc.char1.param then setValue s .char1 value len
  else if charc = Charc.char2.param then setValue s .char2 value len
  else if charc = Charc.char3.param then setValue s .char3 value len
  else if charc = Charc.char4.param then setValue s .char4 value len
  else if charc = Charc.char5.param then setValue s .char5 value len
  else .ofStatus s invalidparameter

def getValue (s : Sps) (k : Charc) : Outcome :=
  { Outcome.ofStatus s success with value := firstBytes (s.bytes (.charc k)) k.len }

def spsGetParam (s : Sps) (charc : Byte) : Outcome :=
  if charc = Charc.char1.param then getValue s .char1
  else if charc = Charc.char2.param then getValue s .char2
  else if charc = Charc.char3.param then getValue s .char3
  else if charc = Charc.char4.param then getValue s .char4
  else if charc = Charc.char5.param then getValue s .char5
  else .ofStatus s invalidparameter

end Param

section Table

/-- BLE_GATT_CHRC_VALUE. -/
def bleGattChrcValue (k : Charc) (permissions : Byte) : GattAttribute :=
  ⟨attBtUuidSize, k.uuid, permissions, .charc k, by
    intro j _ huuid
    cases k <;> cases j <;> first | rfl | exact absurd huuid (by decide)⟩

/-- An attribute that is not the value of a characteristic. -/
def bleGattOther (uuid : BitVec 16) (permissions : Byte) (h : ∀ k : Charc, uuid ≠ k.uuid) :
    GattAttribute :=
  ⟨attBtUuidSize, uuid, permissions, .other, fun k _ huuid => absurd huuid (h k)⟩

def bleGattPrimearyService : GattAttribute :=
  bleGattOther gattPrimaryServiceUuid gattPermitRead fun k => by cases k <;> decide

def bleGattChrcDeclaration : GattAttribute :=
  bleGattOther gattCharacterUuid gattPermitRead fun k => by cases k <;> decide

def bleGattChrcDescription : GattAttribute :=
  bleGattOther gattCharUserDescUuid gattPermitRead fun k => by cases k <;> decide

def bleGattCcc : GattAttribute :=
  bleGattOther gattClientCharCfgUuid (gattPermitRead ||| gattPermitWrite) fun k => by
    cases k <;> decide

def simpleSrv : List GattAttribute :=
  [bleGattPrimearyService,
    bleGattChrcDeclaration, bleGattChrcValue .char1 (gattPermitRead ||| gattPermitWrite),
    bleGattChrcDescription,
    bleGattChrcDeclaration, bleGattChrcValue .char2 gattPermitRead, bleGattChrcDescription,
    bleGattChrcDeclaration, bleGattChrcValue .char3 gattPermitWrite, bleGattChrcDescription,
    bleGattChrcDeclaration, bleGattChrcValue .char4 0, bleGattChrcDescription, bleGattCcc,
    bleGattChrcDeclaration, bleGattChrcValue .char5 gattPermitAuthenRead, bleGattChrcDescription]

/-- No attribute of the table asks for authorization. -/
theorem simpleSrv_authorized : ∀ a ∈ simpleSrv,
    a.permissions &&& (gattPermitAuthorRead ||| gattPermitAuthorWrite) = 0 := by
  decide

end Table

end WchIotSdk.SimpleProfile
