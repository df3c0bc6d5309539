import WchIotSdk.ByteMemory
import WchIotSdk.SimpleProfile
import WchIotSdk.ChunkedReads

/-!
# The device information service

Nine values in arrays of their own are read by clients, in chunks, through `dis_read`
and by the application through `dis_get_param`; only the system ID can be set. The
arrays lie somewhere in memory, apart from each other. A pointer that a caller passes
is the bytes from there on.
-/
namespace WchIotSdk.DeviceInformation
open EventRuns ByteDigits ByteMemory ChunkedReads
open SimpleProfile (success invalidparameter attErrAttrNotFound firstBytes length_firstBytes)

def attErrInvalidOffset : Byte := 0x07
def devinfoSystemIdLen : ℕ := 8

/-- The values, in the order of DEVINFO_SYSTEM_ID to DEVINFO_PNP_ID. -/
inductive DevInfo where
  | systemId
  | modelNumber
  | serialNumber
  | firmwareRev
  | hardwareRev
  | softwareRev
  | mfrName
  | cert11073
  | pnpId
  deriving DecidableEq, Repr

namespace DevInfo

def param : DevInfo → Byte
  | systemId => 0
  | modelNumber => 1
  | serialNumber => 2
  | firmwareRev => 3
  | hardwareRev => 4
  | softwareRev => 5
  | mfrName => 6
  | cert11073 => 7
  | pnpId => 8

def uuid : DevInfo → BitVec 16
  | systemId => 0x2a23
  | modelNumber => 0x2a24
  | serialNumber => 0x2a25
  | firmwareRev => 0x2a26
  | hardwareRev => 0x2a27
  | softwareRev => 0x2a28
  | mfrName => 0x2a29
  | cert11073 => 0x2a2a
  | pnpId => 0x2a50

def characters (s : String) : List Byte := s.toList.map fun c => BitVec.ofNat 8 c.toNat

/-- A string literal, with its terminating null. -/
def string (s : String) : List Byte := characters s ++ [0]

/-- What the arrays hold at first. -/
def initial : DevInfo → List Byte
  | systemId => List.replicate devinfoSystemIdLen 0
  | modelNumber => string "Model Number"
  | serialNumber => string "Serial Number"
  | firmwareRev => string "Firmware Revision"
  | hardwareRev => string "Hardware Revision"
  | softwareRev => string "Software Revision"
  | mfrName => string "Manufacturer Name"
  | cert11073 => [254, 0] ++ characters "experimental"
  | pnpId => [1, 0xd7, 0x07, 0x00, 0x00, 0x10, 0x01]

def sizeof (k : DevInfo) : ℕ := k.initial.length

end DevInfo

/-- Where the arrays lie. -/
structure Layout where
  addr : DevInfo → ℤ
  apart : ∀ j k, j ≠ k → addr j + j.sizeof ≤ addr k ∨ addr k + k.sizeof ≤ addr j

/-- The status, the length if it is written, and the bytes copied. -/
structure Answer where
  status : Byte
  pLen : Option (BitVec 16)
  value : List Byte
  deriving DecidableEq, Repr

section Read

variable (l : Layout) (m : Memory)

def MIN (a b : BitVec 32) : BitVec 32 := if a < b then a else b

/-- The case of an array of which `size` bytes are read. -/
def readArray (k : DevInfo) (size : BitVec 32) (offset maxLen : BitVec 16) : Answer :=
  if offset.setWidth 32 ≥ size then ⟨attErrInvalidOffset, none, []⟩
  else
    let pLen := (MIN (maxLen.setWidth 32) (size - offset.setWidth 32)).setWidth 16
    ⟨success, some pLen, readBytes m (l.addr k + offset.toNat) pLen.toNat⟩

/-- `sizeof`, and without the terminating null. -/
def sizeofArray (k : DevInfo) : BitVec 32 := BitVec.ofNat 32 k.sizeof
def sizeofString (k : DevInfo) : BitVec 32 := sizeofArray k - 1

def disRead (uuid offset maxLen : BitVec 16) : Answer :=
  if uuid = DevInfo.systemId.uuid then
    readArray l m .systemId (sizeofArray .systemId) offset maxLen
  else if uuid = DevInfo.modelNumber.uuid then
    readArray l m .modelNumber (sizeofString .modelNumber) offset maxLen
  else if uuid = DevInfo.serialNumber.uuid then
    readArray l m .serialNumber (sizeofString .serialNumber) offset maxLen
  else if uuid = DevInfo.firmwareRev.uuid then
    readArray l m .firmwareRev (sizeofString .firmwareRev) offset maxLen
  else if uuid = DevInfo.hardwareRev.uuid then
    readArray l m .hardwareRev (sizeofString .hardwareRev) offset maxLen
  else if uuid = DevInfo.softwareRev.uuid then
    readArray l m .softwareRev (sizeofString .softwareRev) offset maxLen
  else if uuid = DevInfo.mfrName.uuid then
    readArray l m .mfrName (sizeofString .mfrName) offset maxLen
  else if uuid = DevInfo.cert11073.uuid then
    readArray l m .cert11073 (sizeofArray .cert11073) offset maxLen
  else if uuid = DevInfo.pnpId.uuid then
    readArray l m .pnpId (sizeofArray .pnpId) offset maxLen
  else ⟨attErrAttrNotFound, some 0, []⟩

end Read

section Param

variable (l : Layout) (m : Memory)

/-- The memory and the status. -/
def disSetParam (param len : Byte) (value : ℕ → Byte) : Memory × Byte :=
  if param = DevInfo.systemId.param then
    (writeBytes m (l.addr .systemId) (firstBytes value len.toNat), success)
  else (m, invalidparameter)

def getArray (k : DevInfo) : Byte × List Byte := (success, readBytes m (l.addr k) k.sizeof)

/-- The status and the bytes copied. -/
def disGetParam (param : Byte) : Byte × List Byte :=
  if param = DevInfo.systemId.param then getArray l m .systemId
  else if param = DevInfo.modelNumber.param then getArray l m .modelNumber
  else if param = DevInfo.serialNumber.param then getArray l m .serialNumber
  else if param = DevInfo.firmwareRev.param then getArray l m .firmwareRev
  else if param = DevInfo.hardwareRev.param then getArray l m .hardwareRev
  else if param = DevInfo.softwareRev.param then getArray l m .softwareRev
  else if param = DevInfo.mfrName.param then getArray l m .mfrName
  else if param = DevInfo.cert11073.param then getArray l m .cert11073
  else if param = DevInfo.pnpId.param then getArray l m .pnpId
  else (invalidparameter, [])

end Param

/-- A call of `dis_set_param`. -/
structure SetCall where
  param : Byte
  len : Byte
  value : ℕ → Byte

def step (l : Layout) (m : Memory) (c : SetCall) : Memory :=
  (disSetParam l m c.param c.len c.value).1

/-- The bytes of a value that are read: of a string all but the null. -/
def DevInfo.readSize : DevInfo → ℕ
  | .systemId => DevInfo.sizeof .systemId
  | .cert11073 => DevInfo.sizeof .cert11073
  | .pnpId => DevInfo.sizeof .pnpId
  | k => k.sizeof - 1

/-- The sizes of the arrays as numbers. -/
def DevInfo.bytes : DevInfo → ℕ
  | .systemId => 8
  | .modelNumber => 13
  | .serialNumber => 14
  | .firmwareRev => 18
  | .hardwareRev => 18
  | .softwareRev => 18
  | .mfrName => 18
  | .cert11073 => 14
  | .pnpId => 7

section Arrays

variable (l : Layout) (m : Memory) (k : DevInfo) (offset maxLen : BitVec 16)

/-- The initial values are counted here only. -/
lemma sizeof_eq : k.sizeof = k.bytes := by
  cases k <;> decide +kernel

lemma readSize_le : k.readSize ≤ k.sizeof := by
  cases k with
  | systemId | cert11073 | pnpId => exact le_rfl
  | _ => exact Nat.sub_le _ _

lemma readSize_lt : k.readSize < 2 ^ 16 := by
  have hbytes : k.bytes < 2 ^ 16 := by cases k <;> decide
  have hle := readSize_le k
  rw [sizeof_eq] at hle
  omega

lemma disRead_eq : disRead l m k.uuid offset maxLen =
    readArray l m k (BitVec.ofNat 32 k.readSize) offset maxLen := by
  cases k <;> rfl

lemma disGetParam_eq : disGetParam l m k.param = getArray l m k := by
  cases k <;> rfl

lemma take_readBytes_min (p : ℤ) (n a : ℕ) :
    (readBytes m p n).take a = readBytes m p (min a n) := by
  obtain h | h := Nat.le_total a n
  · rw [Nat.min_eq_left h, take_readBytes m p h]
  · rw [Nat.min_eq_right h, List.take_of_length_le (by rwa [length_readBytes])]

lemma toNat_MIN (a b : BitVec 32) : (MIN a b).toNat = min a.toNat b.toNat := by
  rw [MIN, Nat.min_def]
  split_ifs with h h' h'
  · rfl
  · exact absurd (Nat.le_of_lt (BitVec.lt_def.mp h)) h'
  · exact Nat.le_antisymm (Nat.le_of_not_lt h) h'
  · rfl

/-- A length that is asked for in 16 bits is answered in 16 bits. -/
lemma toNat_ofNat_min (maxLen : BitVec 16) (n : ℕ) :
    (BitVec.ofNat 16 (min maxLen.toNat n)).toNat = min maxLen.toNat n := by
  have hlt := maxLen.isLt
  rw [BitVec.toNat_ofNat, Nat.mod_eq_of_lt (by omega)]

/-- What is read at an offset: the value from there on, as far as it is asked for. -/
theorem disRead_spec : disRead l m k.uuid offset maxLen =
    if k.readSize ≤ offset.toNat then ⟨attErrInvalidOffset, none, []⟩
    else
      ⟨success, some (BitVec.ofNat 16 (min maxLen.toNat (k.readSize - offset.toNat))),
        ((readBytes m (l.addr k) k.readSize).drop offset.toNat).take maxLen.toNat⟩ := by
  have hlt := readSize_lt k
  have hsize : (BitVec.ofNat 32 k.readSize).toNat = k.readSize := by
    rw [BitVec.toNat_ofNat]
    exact Nat.mod_eq_of_lt (by omega)
  have hwide (x : BitVec 16) : (x.setWidth 32).toNat = x.toNat :=
    BitVec.toNat_setWidth_of_le (by norm_num)
  have hguard : offset.setWidth 32 ≥ BitVec.ofNat 32 k.readSize ↔ k.readSize ≤ offset.toNat := by
    rw [ge_iff_le, BitVec.le_def, hsize, hwide]
  rw [disRead_eq, readArray]
  simp only [hguard]
  split_ifs with h
  · rfl
  · have hle : offset.toNat ≤ k.readSize := Nat.le_of_not_le h
    have hmin : (MIN (maxLen.setWidth 32)
        (BitVec.ofNat 32 k.readSize - offset.setWidth 32)).toNat =
          min maxLen.toNat (k.readSize - offset.toNat) := by
      rw [toNat_MIN, hwide, BitVec.toNat_sub_of_le (by rwa [BitVec.le_def, hsize, hwide]), hsize,
        hwide]
    rw [← BitVec.ofNat_toNat 16, hmin, toNat_ofNat_min, drop_readBytes m _ hle, take_readBytes_min]

end Arrays

section Calls

variable (l : Layout) (m : Memory) (c : SetCall) (k : DevInfo)

/-- A system ID with the first bytes replaced by a call. -/
def setSystemId (v : List Byte) (c : SetCall) : List Byte :=
  if c.param = DevInfo.systemId.param then
    firstBytes c.value c.len.toNat ++ v.drop c.len.toNat
  else v

lemma step_systemId (hlen : c.len.toNat ≤ devinfoSystemIdLen) :
    readBytes (step l m c) (l.addr .systemId) (DevInfo.sizeof .systemId) =
      setSystemId (readBytes m (l.addr .systemId) (DevInfo.sizeof .systemId)) c := by
  rw [step, disSetParam, setSystemId]
  split_ifs
  · have hfits : (firstBytes c.value c.len.toNat).length ≤ devinfoSystemIdLen := by
      rwa [length_firstBytes]
    have hread := readBytes_writeBytes_prefix m (l.addr .systemId) hfits
    rwa [length_firstBytes] at hread
  · rfl

/-- What a call of an allowed length leaves outside the system ID. -/
lemma step_outside (hlen : c.len.toNat ≤ devinfoSystemIdLen) {a : ℤ}
    (ha : a < l.addr .systemId ∨ l.addr .systemId + devinfoSystemIdLen ≤ a) :
    step l m c a = m a := by
  rw [step, disSetParam]
  split_ifs
  · apply writeBytes_outside
    rw [length_firstBytes]
    omega
  · rfl

lemma step_other (hlen : c.len.toNat ≤ devinfoSystemIdLen) (hk : k ≠ .systemId) :
    readBytes (step l m c) (l.addr k) k.sizeof = readBytes m (l.addr k) k.sizeof := by
  have hsize : DevInfo.sizeof .systemId = devinfoSystemIdLen := rfl
  have happart := l.apart k .systemId hk
  apply readBytes_congr
  intro a hlo hhi
  exact step_outside l m c hlen (by omega)

end Calls

/-- The arrays hold what the application has put there. -/
def Layout.Holds (l : Layout) (m : Memory) (contents : DevInfo → List Byte) : Prop :=
  ∀ k, readBytes m (l.addr k) k.sizeof = contents k

/-- The contents of the arrays after these calls. -/
def contentsAfter (cs : List SetCall) : DevInfo → List Byte
  | .systemId => cs.foldl setSystemId DevInfo.systemId.initial
  | k => k.initial

/-- The value of an attribute: the array, without the null of a string. -/
def currentValue (cs : List SetCall) (k : DevInfo) : List Byte :=
  (contentsAfter cs k).take k.readSize

/-- The arrays in the order in which they are declared, without a gap. -/
def declared : List DevInfo :=
  [.systemId, .modelNumber, .serialNumber, .firmwareRev, .hardwareRev, .softwareRev, .mfrName,
    .cert11073, .pnpId]

def packed : Layout where
  addr k := ((declared.takeWhile (· ≠ k)).map DevInfo.sizeof).sum
  apart j k := by
    have hsizes : DevInfo.sizeof = DevInfo.bytes := funext sizeof_eq
    rw [hsizes]
    cases j <;> cases k <;> decide

def packedMemory : Memory := fun a => (declared.flatMap DevInfo.initial).getD a.toNat 0

lemma packed_holds : packed.Holds packedMemory DevInfo.initial := by
  intro k
  cases k <;> decide +kernel

section Histories

variable {l : Layout} {m : Memory} {cs : List SetCall}

lemma run_readBytes (hlen : ∀ c ∈ cs, c.len.toNat ≤ devinfoSystemIdLen) (m : Memory) (k : DevInfo) :
    readBytes (run (step l) m cs) (l.addr k) k.sizeof =
      if k = .systemId then cs.foldl setSystemId (readBytes m (l.addr k) k.sizeof)
      else readBytes m (l.addr k) k.sizeof := by
  induction cs generalizing m with
  | nil =>
    split_ifs <;> rfl
  | cons c cs ih =>
    rw [List.forall_mem_cons] at hlen
    rw [run_cons, ih hlen.2]
    split_ifs with hk
    · subst hk
      rw [step_systemId l m c hlen.1, List.foldl_cons]
    · exact step_other l m c k hlen.1 hk

theorem run_holds (hm : l.Holds m DevInfo.initial)
    (hlen : ∀ c ∈ cs, c.len.toNat ≤ devinfoSystemIdLen) :
    l.Holds (run (step l) m cs) (contentsAfter cs) := by
  intro k
  rw [run_readBytes hlen, hm k]
  cases k <;> rfl

/-- A reader of an attribute gets the bytes, or the status of the refusal. -/
def chunkAt (l : Layout) (m : Memory) (k : DevInfo) (maxLen : BitVec 16) (offset : ℕ) :
    Except Byte (List Byte) :=
  let answer := disRead l m k.uuid (BitVec.ofNat 16 offset) maxLen
  if answer.status = success then .ok answer.value else .error answer.status

lemma serves (l : Layout) (m : Memory) (k : DevInfo) (maxLen : BitVec 16) :
    Serves (chunkAt l m k maxLen) (readBytes m (l.addr k) k.readSize) maxLen.toNat
      attErrInvalidOffset := by
  have hlt := readSize_lt k
  have hoffset (offset : ℕ) (h : offset ≤ k.readSize) : (BitVec.ofNat 16 offset).toNat = offset := by
    rw [BitVec.toNat_ofNat]
    exact Nat.mod_eq_of_lt (by omega)
  constructor
  · intro offset h
    rw [length_readBytes] at h
    rw [chunkAt, disRead_spec, hoffset offset (Nat.le_of_lt h), if_neg (Nat.not_le.mpr h)]
    rfl
  · rw [length_readBytes, chunkAt, disRead_spec, hoffset _ le_rfl, if_pos le_rfl]
    rfl

/-- After any calls of allowed lengths, reading on from the end of each chunk comes to
an end and has put the value together; and every chunk, at whatever offset it is read,
is as short as asked for and lies in the value. -/
theorem reads_reassemble (hm : l.Holds m DevInfo.initial)
    (hlen : ∀ c ∈ cs, c.len.toNat ≤ devinfoSystemIdLen) (k : DevInfo) (maxLen : BitVec 16)
    (hmax : maxLen ≥ 1) :
    (∃ chunks, collect (chunkAt l (run (step l) m cs) k maxLen) (k.readSize + 1) 0 =
        some (chunks, attErrInvalidOffset) ∧ chunks.flatten = currentValue cs k) ∧
      ∀ offset pLen value,
        disRead l (run (step l) m cs) k.uuid offset maxLen = ⟨success, some pLen, value⟩ →
          value.length = pLen.toNat ∧ pLen ≤ maxLen ∧
            offset.toNat + pLen.toNat ≤ (currentValue cs k).length ∧
            value = ((currentValue cs k).drop offset.toNat).take pLen.toNat := by
  have hvalue : readBytes (run (step l) m cs) (l.addr k) k.readSize = currentValue cs k := by
    rw [currentValue, ← run_holds hm hlen k, take_readBytes _ _ (readSize_le k)]
  have hlength : (currentValue cs k).length = k.readSize := by
    rw [← hvalue, length_readBytes]
  constructor
  · have hserves := serves l (run (step l) m cs) k maxLen
    rw [hvalue] at hserves
    exact hserves.collect_eq (BitVec.le_def.mp hmax) (Nat.zero_le _)
      (by rw [hlength]; exact Nat.lt_succ_self _)
  · intro offset pLen value hread
    rw [disRead_spec, hvalue] at hread
    split_ifs at hread with h
    · cases hread
    · rw [Answer.mk.injEq, Option.some_inj] at hread
      obtain ⟨-, rfl, rfl⟩ := hread
      have hfits := toNat_ofNat_min maxLen (k.readSize - offset.toNat)
      have hshort : ((currentValue cs k).drop offset.toNat).length = k.readSize - offset.toNat := by
        rw [List.length_drop, hlength]
      refine ⟨?_, ?_, ?_, ?_⟩
      · rw [List.length_take, hshort, hfits]
      · rw [BitVec.le_def, hfits]
        exact Nat.min_le_left _ _
      · rw [hfits, hlength]
        omega
      · rw [hfits, ← hshort, ← List.take_eq_take_min]

/-- The system ID, of which the first two bytes were set, is read by threes. -/
theorem reads_reassemble_packed :
    (∃ chunks, collect (chunkAt packed (run (step packed) packedMemory [⟨0, 2, fun _ => 0xab⟩])
        .systemId 3) 9 0 = some (chunks, attErrInvalidOffset) ∧
      chunks.flatten = [0xab, 0xab, 0, 0, 0, 0, 0, 0]) :=
  (reads_reassemble packed_holds (by decide) .systemId 3 (by decide)).1

end Histories

/-- The first bytes of the system ID, no more than it has, are replaced, and nothing else. -/
structure Replaced (l : Layout) (m : Memory) (c : SetCall) (m' : Memory) : Prop where
  len_le : c.len.toNat ≤ devinfoSystemIdLen
  systemId : readBytes m' (l.addr .systemId) devinfoSystemIdLen =
    firstBytes c.value c.len.toNat ++
      (readBytes m (l.addr .systemId) devinfoSystemIdLen).drop c.len.toNat
  outside : ∀ a, a < l.addr .systemId ∨ l.addr .systemId + devinfoSystemIdLen ≤ a → m' a = m a
  get_others : ∀ k : DevInfo, k ≠ .systemId → disGetParam l m' k.param = disGetParam l m k.param
  read_others : ∀ k : DevInfo, k ≠ .systemId → ∀ offset maxLen,
    disRead l m' k.uuid offset maxLen = disRead l m k.uuid offset maxLen

/-- A call fails and changes nothing, or it replaces bytes of the system ID. -/
def Correct (l : Layout) (m : Memory) (c : SetCall) : Prop :=
  (disSetParam l m c.param c.len c.value).2 ≠ success ∧
      (disSetParam l m c.param c.len c.value).1 = m ∨
    (disSetParam l m c.param c.len c.value).2 = success ∧
      Replaced l m c (disSetParam l m c.param c.len c.value).1

/-- The array is not overrun: the system ID is set with at most its length. -/
def Fits (c : SetCall) : Prop :=
  c.param = DevInfo.systemId.param → c.len.toNat ≤ devinfoSystemIdLen

section Frame

variable (l : Layout) (m : Memory) (c : SetCall)

lemma replaced_of_fits (hparam : c.param = DevInfo.systemId.param)
    (hlen : c.len.toNat ≤ devinfoSystemIdLen) :
    Replaced l m c (disSetParam l m c.param c.len c.value).1 where
  len_le := hlen
  systemId := by
    have hread := step_systemId l m c hlen
    rwa [setSystemId, if_pos hparam] at hread
  outside a ha := step_outside l m c hlen ha
  get_others k hk := by
    rw [disGetParam_eq, disGetParam_eq, getArray, getArray]
    exact congrArg (Prod.mk success) (step_other l m c k hlen hk)
  read_others k hk offset maxLen := by
    have hread : readBytes (step l m c) (l.addr k) k.readSize =
        readBytes m (l.addr k) k.readSize := by
      rw [← take_readBytes _ _ (readSize_le k), step_other l m c k hlen hk,
        take_readBytes _ _ (readSize_le k)]
    rw [disRead_spec, disRead_spec]
    exact congrArg (fun v => if k.readSize ≤ offset.toNat then _ else
      Answer.mk success _ ((v.drop offset.toNat).take maxLen.toNat)) hread

theorem correct_iff_fits : Correct l m c ↔ Fits c := by
  by_cases hparam : c.param = DevInfo.systemId.param
  · have hstatus : (disSetParam l m c.param c.len c.value).2 = success := by
      rw [disSetParam, if_pos hparam]
    constructor
    · rintro (⟨hfailed, -⟩ | ⟨-, hreplaced⟩)
      · exact absurd hstatus hfailed
      · exact fun _ => hreplaced.len_le
    · exact fun hfits => .inr ⟨hstatus, replaced_of_fits l m c hparam (hfits hparam)⟩
  · refine iff_of_true (.inl ⟨?_, ?_⟩) (fun h => absurd h hparam)
    · rw [disSetParam, if_neg hparam]
      exact (by decide : invalidparameter ≠ success)
    · rw [disSetParam, if_neg hparam]

/-- A run of calls keeps to the system ID exactly if none sets it with more bytes than
it has. -/
theorem setParam_correct_iff (cs : List SetCall) :
    Along (step l) (Correct l) m cs ↔ ∀ c ∈ cs, Fits c :=
  along_iff_forall (correct_iff_fits l) m cs

/-- Nine bytes for the system ID go on into the byte behind it, whatever lies there. -/
theorem set_nine_bytes_overruns :
    let c : SetCall := ⟨DevInfo.systemId.param, 9, fun _ => 0xff⟩
    let behind := packed.addr .systemId + 8
    (disSetParam packed packedMemory c.param c.len c.value).2 = success ∧
      packedMemory behind = 0x4d ∧ step packed packedMemory c behind = 0xff ∧
      ¬ Along (step packed) (Correct packed) packedMemory [c] := by
  refine ⟨rfl, by decide +kernel, by decide +kernel, ?_⟩
  rintro ⟨hcorrect, -⟩
  exact absurd ((correct_iff_fits packed packedMemory _).mp hcorrect rfl) (by decide)

end Frame

end WchIotSdk.DeviceInformation
