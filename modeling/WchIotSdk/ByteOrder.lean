import WchIotSdk.ByteMemory

/-!
# Byte order helpers

`sys_put_*` and `sys_get_*` go byte by byte and build the wider widths from the
narrower ones; on this little-endian CPU the conversions of the buffer code load
a word and swap it with shifts and masks. Both are shown to write and read the
digits of the value, from the same end.

24 and 48 bit values are carried in 32 and 64 bit words.
-/
namespace WchIotSdk.ByteOrder
open ByteDigits ByteMemory

/-- `__bswap_16` and its siblings. -/
def bswap16 (x : BitVec 16) : BitVec 16 := ((x >>> 8) &&& 0xff#16) ||| ((x &&& 0xff#16) <<< 8)

def bswap24 (x : BitVec 32) : BitVec 32 :=
  ((x >>> 16) &&& 0xff#32) ||| (x &&& 0xff00#32) ||| ((x &&& 0xff#32) <<< 16)

def bswap32 (x : BitVec 32) : BitVec 32 :=
  ((x >>> 24) &&& 0xff#32) ||| ((x >>> 8) &&& 0xff00#32) ||| ((x &&& 0xff00#32) <<< 8) |||
    ((x &&& 0xff#32) <<< 24)

def bswap48 (x : BitVec 64) : BitVec 64 :=
  ((x >>> 40) &&& 0xff#64) ||| ((x >>> 24) &&& 0xff00#64) ||| ((x >>> 8) &&& 0xff0000#64) |||
    ((x &&& 0xff0000#64) <<< 8) ||| ((x &&& 0xff00#64) <<< 24) ||| ((x &&& 0xff#64) <<< 40)

def bswap64 (x : BitVec 64) : BitVec 64 :=
  ((x >>> 56) &&& 0xff#64) ||| ((x >>> 40) &&& 0xff00#64) ||| ((x >>> 24) &&& 0xff0000#64) |||
    ((x >>> 8) &&& 0xff000000#64) ||| ((x &&& 0xff000000#64) <<< 8) ||| ((x &&& 0xff0000#64) <<< 24) |||
    ((x &&& 0xff00#64) <<< 40) ||| ((x &&& 0xff#64) <<< 56)

/-- `dst[0] = val` with the conversion to `uint8_t`. -/
def store8 {w : ℕ} (m : Memory) (dst : ℤ) (val : BitVec w) : Memory :=
  Function.update m dst (val.setWidth 8)

def sysPutBe16 (val : BitVec 16) (dst : ℤ) (m : Memory) : Memory :=
  store8 (store8 m dst (val >>> 8)) (dst + 1) val

def sysPutBe24 (val : BitVec 32) (dst : ℤ) (m : Memory) : Memory :=
  sysPutBe16 (val.setWidth 16) (dst + 1) (store8 m dst (val >>> 16))

def sysPutBe32 (val : BitVec 32) (dst : ℤ) (m : Memory) : Memory :=
  sysPutBe16 (val.setWidth 16) (dst + 2) (sysPutBe16 ((val >>> 16).setWidth 16) dst m)

def sysPutBe48 (val : BitVec 64) (dst : ℤ) (m : Memory) : Memory :=
  sysPutBe32 (val.setWidth 32) (dst + 2) (sysPutBe16 ((val >>> 32).setWidth 16) dst m)

def sysPutBe64 (val : BitVec 64) (dst : ℤ) (m : Memory) : Memory :=
  sysPutBe32 (val.setWidth 32) (dst + 4) (sysPutBe32 ((val >>> 32).setWidth 32) dst m)

def sysPutLe16 (val : BitVec 16) (dst : ℤ) (m : Memory) : Memory :=
  store8 (store8 m dst val) (dst + 1) (val >>> 8)

def sysPutLe24 (val : BitVec 32) (dst : ℤ) (m : Memory) : Memory :=
  store8 (sysPutLe16 (val.setWidth 16) dst m) (dst + 2) (val >>> 16)

def sysPutLe32 (val : BitVec 32) (dst : ℤ) (m : Memory) : Memory :=
  sysPutLe16 ((val >>> 16).setWidth 16) (dst + 2) (sysPutLe16 (val.setWidth 16) dst m)

def sysPutLe48 (val : BitVec 64) (dst : ℤ) (m : Memory) : Memory :=
  sysPutLe16 ((val >>> 32).setWidth 16) (dst + 4) (sysPutLe32 (val.setWidth 32) dst m)

def sysPutLe64 (val : BitVec 64) (dst : ℤ) (m : Memory) : Memory :=
  sysPutLe32 ((val >>> 32).setWidth 32) (dst + 4) (sysPutLe32 (val.setWidth 32) dst m)

/-- `((T)hi << k) | lo` -/
def joined {a b : ℕ} (w : ℕ) (hi : BitVec a) (k : ℕ) (lo : BitVec b) : BitVec w :=
  (hi.setWidth w <<< k) ||| lo.setWidth w

def sysGetBe16 (m : Memory) (src : ℤ) : BitVec 16 := joined 16 (m src) 8 (m (src + 1))

def sysGetBe24 (m : Memory) (src : ℤ) : BitVec 32 :=
  joined 32 (m src) 16 (sysGetBe16 m (src + 1))

def sysGetBe32 (m : Memory) (src : ℤ) : BitVec 32 :=
  joined 32 (sysGetBe16 m src) 16 (sysGetBe16 m (src + 2))

def sysGetBe48 (m : Memory) (src : ℤ) : BitVec 64 :=
  joined 64 (sysGetBe32 m src) 16 (sysGetBe16 m (src + 4))

def sysGetBe64 (m : Memory) (src : ℤ) : BitVec 64 :=
  joined 64 (sysGetBe32 m src) 32 (sysGetBe32 m (src + 4))

def sysGetLe16 (m : Memory) (src : ℤ) : BitVec 16 := joined 16 (m (src + 1)) 8 (m src)

def sysGetLe24 (m : Memory) (src : ℤ) : BitVec 32 :=
  joined 32 (m (src + 2)) 16 (sysGetLe16 m src)

def sysGetLe32 (m : Memory) (src : ℤ) : BitVec 32 :=
  joined 32 (sysGetLe16 m (src + 2)) 16 (sysGetLe16 m src)

def sysGetLe48 (m : Memory) (src : ℤ) : BitVec 64 :=
  joined 64 (sysGetLe32 m (src + 2)) 16 (sysGetLe16 m src)

def sysGetLe64 (m : Memory) (src : ℤ) : BitVec 64 :=
  joined 64 (sysGetLe32 m (src + 4)) 32 (sysGetLe32 m src)

/-- The widths of the typed accessors. -/
inductive Width where
  | w16
  | w24
  | w32
  | w48
  | w64
  deriving DecidableEq, Repr

namespace Width

/-- Bytes in the buffer. -/
@[simp] def bytes : Width → ℕ
  | w16 => 2
  | w24 => 3
  | w32 => 4
  | w48 => 6
  | w64 => 8

/-- Bits of the C type that carries the value. -/
@[simp] def carrier : Width → ℕ
  | w16 => 16
  | w24 => 32
  | w32 => 32
  | w48 => 64
  | w64 => 64

end Width

def sysPut : (w : Width) → Order → BitVec w.carrier → ℤ → Memory → Memory
  | .w16, .le => sysPutLe16
  | .w16, .be => sysPutBe16
  | .w24, .le => sysPutLe24
  | .w24, .be => sysPutBe24
  | .w32, .le => sysPutLe32
  | .w32, .be => sysPutBe32
  | .w48, .le => sysPutLe48
  | .w48, .be => sysPutBe48
  | .w64, .le => sysPutLe64
  | .w64, .be => sysPutBe64

def sysGet : (w : Width) → Order → Memory → ℤ → BitVec w.carrier
  | .w16, .le => sysGetLe16
  | .w16, .be => sysGetBe16
  | .w24, .le => sysGetLe24
  | .w24, .be => sysGetBe24
  | .w32, .le => sysGetLe32
  | .w32, .be => sysGetBe32
  | .w48, .le => sysGetLe48
  | .w48, .be => sysGetBe48
  | .w64, .le => sysGetLe64
  | .w64, .be => sysGetBe64

/-- `UNALIGNED_GET` of an integer, or of a packed bit-field, by a little-endian
CPU. -/
def unalignedGet (w : Width) (m : Memory) (p : ℤ) : BitVec w.carrier :=
  BitVec.ofNat w.carrier (leValue (readBytes m p w.bytes))

def bswap : (w : Width) → BitVec w.carrier → BitVec w.carrier
  | .w16 => bswap16
  | .w24 => bswap24
  | .w32 => bswap32
  | .w48 => bswap48
  | .w64 => bswap64

/-- `sys_le16_to_cpu` and its siblings. -/
def toCpu (w : Width) : Order → BitVec w.carrier → BitVec w.carrier
  | .le, val => val
  | .be, val => bswap w val

section Put

variable {w : ℕ} (m : Memory) (dst : ℤ)

lemma store8_eq (o : Order) (val : BitVec w) :
    store8 m dst val = writeBytes m dst (o.bytes 1 val.toNat) := by
  have hbyte : val.setWidth 8 = BitVec.ofNat 8 val.toNat := by
    apply BitVec.eq_of_toNat_eq
    rw [BitVec.toNat_setWidth, BitVec.toNat_ofNat]
  rw [store8, hbyte]
  cases o <;> rfl

lemma toNat_shr_setWidth (val : BitVec w) (s n : ℕ) :
    ((val >>> s).setWidth n).toNat = val.toNat / 2 ^ s % 2 ^ n := by
  rw [BitVec.toNat_setWidth, BitVec.toNat_ushiftRight, Nat.shiftRight_eq_div_pow]

lemma toNat_shr (val : BitVec w) (s : ℕ) : (val >>> s).toNat = val.toNat / 2 ^ s := by
  rw [BitVec.toNat_ushiftRight, Nat.shiftRight_eq_div_pow]

/-- The low part and then the high part, little end first. -/
lemma writeBytes_le {a b x y v : ℕ} (hx : x % 256 ^ a = v % 256 ^ a)
    (hy : y % 256 ^ b = v / 256 ^ a % 256 ^ b) :
    writeBytes (writeBytes m dst (Order.le.bytes a x)) (dst + a) (Order.le.bytes b y) =
      writeBytes m dst (Order.le.bytes (a + b) v) := by
  rw [Order.le_bytes_add, writeBytes_append, Order.length_bytes, Order.bytes_congr _ hx,
    Order.bytes_congr _ hy]

/-- The high part and then the low part, big end first. -/
lemma writeBytes_be {a b x y v : ℕ} (hx : x % 256 ^ a = v / 256 ^ b % 256 ^ a)
    (hy : y % 256 ^ b = v % 256 ^ b) :
    writeBytes (writeBytes m dst (Order.be.bytes a x)) (dst + a) (Order.be.bytes b y) =
      writeBytes m dst (Order.be.bytes (a + b) v) := by
  rw [Order.be_bytes_add, writeBytes_append, Order.length_bytes, Order.bytes_congr _ hx,
    Order.bytes_congr _ hy]

lemma sysPutBe16_eq (val : BitVec 16) :
    sysPutBe16 val dst m = writeBytes m dst (Order.be.bytes 2 val.toNat) := by
  rw [sysPutBe16, store8_eq _ _ .be, store8_eq _ _ .be]
  apply writeBytes_be
  · rw [toNat_shr]
    rfl
  · rfl

lemma sysPutLe16_eq (val : BitVec 16) :
    sysPutLe16 val dst m = writeBytes m dst (Order.le.bytes 2 val.toNat) := by
  rw [sysPutLe16, store8_eq _ _ .le, store8_eq _ _ .le]
  apply writeBytes_le
  · rfl
  · rw [toNat_shr]
    rfl

lemma sysPutBe32_eq (val : BitVec 32) :
    sysPutBe32 val dst m = writeBytes m dst (Order.be.bytes 4 val.toNat) := by
  rw [sysPutBe32, sysPutBe16_eq, sysPutBe16_eq]
  apply writeBytes_be
  · rw [toNat_shr_setWidth]
    omega
  · rw [BitVec.toNat_setWidth]
    omega

lemma sysPutLe32_eq (val : BitVec 32) :
    sysPutLe32 val dst m = writeBytes m dst (Order.le.bytes 4 val.toNat) := by
  rw [sysPutLe32, sysPutLe16_eq, sysPutLe16_eq]
  apply writeBytes_le
  · rw [BitVec.toNat_setWidth]
    omega
  · rw [toNat_shr_setWidth]
    omega

lemma sysPutBe24_eq (val : BitVec 32) :
    sysPutBe24 val dst m = writeBytes m dst (Order.be.bytes 3 val.toNat) := by
  rw [sysPutBe24, sysPutBe16_eq, store8_eq _ _ .be]
  apply writeBytes_be
  · rw [toNat_shr]
    rfl
  · rw [BitVec.toNat_setWidth]
    omega

lemma sysPutLe24_eq (val : BitVec 32) :
    sysPutLe24 val dst m = writeBytes m dst (Order.le.bytes 3 val.toNat) := by
  rw [sysPutLe24, sysPutLe16_eq, store8_eq _ _ .le]
  apply writeBytes_le
  · rw [BitVec.toNat_setWidth]
    omega
  · rw [toNat_shr]
    rfl

lemma sysPutBe48_eq (val : BitVec 64) :
    sysPutBe48 val dst m = writeBytes m dst (Order.be.bytes 6 val.toNat) := by
  rw [sysPutBe48, sysPutBe16_eq, sysPutBe32_eq]
  apply writeBytes_be
  · rw [toNat_shr_setWidth]
    omega
  · rw [BitVec.toNat_setWidth]
    omega

lemma sysPutLe48_eq (val : BitVec 64) :
    sysPutLe48 val dst m = writeBytes m dst (Order.le.bytes 6 val.toNat) := by
  rw [sysPutLe48, sysPutLe32_eq, sysPutLe16_eq]
  apply writeBytes_le
  · rw [BitVec.toNat_setWidth]
    omega
  · rw [toNat_shr_setWidth]
    omega

lemma sysPutBe64_eq (val : BitVec 64) :
    sysPutBe64 val dst m = writeBytes m dst (Order.be.bytes 8 val.toNat) := by
  rw [sysPutBe64, sysPutBe32_eq, sysPutBe32_eq]
  apply writeBytes_be
  · rw [toNat_shr_setWidth]
    omega
  · rw [BitVec.toNat_setWidth]
    omega

lemma sysPutLe64_eq (val : BitVec 64) :
    sysPutLe64 val dst m = writeBytes m dst (Order.le.bytes 8 val.toNat) := by
  rw [sysPutLe64, sysPutLe32_eq, sysPutLe32_eq]
  apply writeBytes_le
  · rw [BitVec.toNat_setWidth]
    omega
  · rw [toNat_shr_setWidth]
    omega

/-- The helpers write the digits of the value. -/
theorem sysPut_eq (width : Width) (o : Order) (val : BitVec width.carrier) :
    sysPut width o val dst m = writeBytes m dst (o.bytes width.bytes val.toNat) := by
  cases width <;> cases o
  case w16.le => exact sysPutLe16_eq m dst val
  case w16.be => exact sysPutBe16_eq m dst val
  case w24.le => exact sysPutLe24_eq m dst val
  case w24.be => exact sysPutBe24_eq m dst val
  case w32.le => exact sysPutLe32_eq m dst val
  case w32.be => exact sysPutBe32_eq m dst val
  case w48.le => exact sysPutLe48_eq m dst val
  case w48.be => exact sysPutBe48_eq m dst val
  case w64.le => exact sysPutLe64_eq m dst val
  case w64.be => exact sysPutBe64_eq m dst val

end Put

section Get

variable {w a b : ℕ} (m : Memory) (src : ℤ)

lemma toNat_byte (o : Order) : (m src).toNat = o.value (readBytes m src 1) := by
  cases o <;> simp [Order.value, Order.arrange, readBytes]

/-- A high part read above a low part, little end first. -/
lemma toNat_joined_le {hi : BitVec a} {lo : BitVec b} {j k : ℕ}
    (hhi : hi.toNat = Order.le.value (readBytes m (src + j) k))
    (hlo : lo.toNat = Order.le.value (readBytes m src j)) (hw : a + 8 * j ≤ w) :
    (joined w hi (8 * j) lo).toNat = Order.le.value (readBytes m src (j + k)) := by
  have hpow : 2 ^ (8 * j) = 256 ^ j := by
    rw [pow_mul]
    norm_num
  have hlt := Order.le.value_lt (readBytes m src j)
  rw [length_readBytes, ← hpow, ← hlo] at hlt
  rw [joined, toNat_shl_or hi lo _ hlt hw, readBytes_add, Order.le_value_append, length_readBytes,
    hhi, hlo, hpow, Nat.add_comm]

/-- A high part read before a low part, big end first. -/
lemma toNat_joined_be {hi : BitVec a} {lo : BitVec b} {j k : ℕ}
    (hhi : hi.toNat = Order.be.value (readBytes m src j))
    (hlo : lo.toNat = Order.be.value (readBytes m (src + j) k)) (hw : a + 8 * k ≤ w) :
    (joined w hi (8 * k) lo).toNat = Order.be.value (readBytes m src (j + k)) := by
  have hpow : 2 ^ (8 * k) = 256 ^ k := by
    rw [pow_mul]
    norm_num
  have hlt := Order.be.value_lt (readBytes m (src + j) k)
  rw [length_readBytes, ← hpow, ← hlo] at hlt
  rw [joined, toNat_shl_or hi lo _ hlt hw, readBytes_add, Order.be_value_append, length_readBytes,
    hhi, hlo, hpow]

lemma sysGetBe16_toNat :
    (sysGetBe16 m src).toNat = Order.be.value (readBytes m src 2) :=
  toNat_joined_be m src (j := 1) (k := 1) (toNat_byte m src .be) (toNat_byte m (src + 1) .be) (by norm_num)

lemma sysGetLe16_toNat :
    (sysGetLe16 m src).toNat = Order.le.value (readBytes m src 2) :=
  toNat_joined_le m src (j := 1) (k := 1) (toNat_byte m (src + 1) .le) (toNat_byte m src .le) (by norm_num)

lemma sysGetBe24_toNat :
    (sysGetBe24 m src).toNat = Order.be.value (readBytes m src 3) :=
  toNat_joined_be m src (j := 1) (k := 2) (toNat_byte m src .be) (sysGetBe16_toNat m (src + 1)) (by norm_num)

lemma sysGetLe24_toNat :
    (sysGetLe24 m src).toNat = Order.le.value (readBytes m src 3) :=
  toNat_joined_le m src (j := 2) (k := 1) (toNat_byte m (src + 2) .le) (sysGetLe16_toNat m src) (by norm_num)

lemma sysGetBe32_toNat :
    (sysGetBe32 m src).toNat = Order.be.value (readBytes m src 4) :=
  toNat_joined_be m src (j := 2) (k := 2) (sysGetBe16_toNat m src) (sysGetBe16_toNat m (src + 2)) (by norm_num)

lemma sysGetLe32_toNat :
    (sysGetLe32 m src).toNat = Order.le.value (readBytes m src 4) :=
  toNat_joined_le m src (j := 2) (k := 2) (sysGetLe16_toNat m (src + 2)) (sysGetLe16_toNat m src) (by norm_num)

lemma sysGetBe48_toNat :
    (sysGetBe48 m src).toNat = Order.be.value (readBytes m src 6) :=
  toNat_joined_be m src (j := 4) (k := 2) (sysGetBe32_toNat m src) (sysGetBe16_toNat m (src + 4)) (by norm_num)

lemma sysGetLe48_toNat :
    (sysGetLe48 m src).toNat = Order.le.value (readBytes m src 6) :=
  toNat_joined_le m src (j := 2) (k := 4) (sysGetLe32_toNat m (src + 2)) (sysGetLe16_toNat m src) (by norm_num)

lemma sysGetBe64_toNat :
    (sysGetBe64 m src).toNat = Order.be.value (readBytes m src 8) :=
  toNat_joined_be m src (j := 4) (k := 4) (sysGetBe32_toNat m src) (sysGetBe32_toNat m (src + 4)) (by norm_num)

lemma sysGetLe64_toNat :
    (sysGetLe64 m src).toNat = Order.le.value (readBytes m src 8) :=
  toNat_joined_le m src (j := 4) (k := 4) (sysGetLe32_toNat m (src + 4)) (sysGetLe32_toNat m src) (by norm_num)

/-- The helpers read the number the bytes are the digits of. -/
theorem sysGet_toNat (width : Width) (o : Order) :
    (sysGet width o m src).toNat = o.value (readBytes m src width.bytes) := by
  cases width <;> cases o
  case w16.le => exact sysGetLe16_toNat m src
  case w16.be => exact sysGetBe16_toNat m src
  case w24.le => exact sysGetLe24_toNat m src
  case w24.be => exact sysGetBe24_toNat m src
  case w32.le => exact sysGetLe32_toNat m src
  case w32.be => exact sysGetBe32_toNat m src
  case w48.le => exact sysGetLe48_toNat m src
  case w48.be => exact sysGetBe48_toNat m src
  case w64.le => exact sysGetLe64_toNat m src
  case w64.be => exact sysGetBe64_toNat m src

end Get

section Load

lemma bswap16_toNat (x : BitVec 16) : (bswap16 x).toNat = byteReverse 2 x.toNat := by
  have h0 : ((x >>> 8) &&& 0xff#16).toNat = _ := toNat_shr_and x 8 0 (by norm_num)
  have h1 : ((x &&& 0xff#16) <<< 8).toNat = _ := toNat_and_shl x 0 8 (by norm_num)
  rw [← assemble_revDigits, bswap16, BitVec.toNat_or, h0, h1]
  rfl

lemma bswap24_toNat (x : BitVec 32) : (bswap24 x).toNat = byteReverse 3 x.toNat := by
  have h0 : ((x >>> 16) &&& 0xff#32).toNat = _ := toNat_shr_and x 16 0 (by norm_num)
  have h1 : ((x >>> 0) &&& 0xff00#32).toNat = _ := toNat_shr_and x 0 8 (by norm_num)
  have h2 : ((x &&& 0xff#32) <<< 16).toNat = _ := toNat_and_shl x 0 16 (by norm_num)
  rw [BitVec.ushiftRight_zero] at h1
  rw [← assemble_revDigits, bswap24]
  simp only [BitVec.toNat_or, h0, h1, h2]
  rfl

lemma bswap32_toNat (x : BitVec 32) : (bswap32 x).toNat = byteReverse 4 x.toNat := by
  have h0 : ((x >>> 24) &&& 0xff#32).toNat = _ := toNat_shr_and x 24 0 (by norm_num)
  have h1 : ((x >>> 8) &&& 0xff00#32).toNat = _ := toNat_shr_and x 8 8 (by norm_num)
  have h2 : ((x &&& 0xff00#32) <<< 8).toNat = _ := toNat_and_shl x 8 8 (by norm_num)
  have h3 : ((x &&& 0xff#32) <<< 24).toNat = _ := toNat_and_shl x 0 24 (by norm_num)
  rw [← assemble_revDigits, bswap32]
  simp only [BitVec.toNat_or, h0, h1, h2, h3]
  rfl

lemma bswap48_toNat (x : BitVec 64) : (bswap48 x).toNat = byteReverse 6 x.toNat := by
  have h0 : ((x >>> 40) &&& 0xff#64).toNat = _ := toNat_shr_and x 40 0 (by norm_num)
  have h1 : ((x >>> 24) &&& 0xff00#64).toNat = _ := toNat_shr_and x 24 8 (by norm_num)
  have h2 : ((x >>> 8) &&& 0xff0000#64).toNat = _ := toNat_shr_and x 8 16 (by norm_num)
  have h3 : ((x &&& 0xff0000#64) <<< 8).toNat = _ := toNat_and_shl x 16 8 (by norm_num)
  have h4 : ((x &&& 0xff00#64) <<< 24).toNat = _ := toNat_and_shl x 8 24 (by norm_num)
  have h5 : ((x &&& 0xff#64) <<< 40).toNat = _ := toNat_and_shl x 0 40 (by norm_num)
  rw [← assemble_revDigits, bswap48]
  simp only [BitVec.toNat_or, h0, h1, h2, h3, h4, h5]
  rfl

lemma bswap64_toNat (x : BitVec 64) : (bswap64 x).toNat = byteReverse 8 x.toNat := by
  have h0 : ((x >>> 56) &&& 0xff#64).toNat = _ := toNat_shr_and x 56 0 (by norm_num)
  have h1 : ((x >>> 40) &&& 0xff00#64).toNat = _ := toNat_shr_and x 40 8 (by norm_num)
  have h2 : ((x >>> 24) &&& 0xff0000#64).toNat = _ := toNat_shr_and x 24 16 (by norm_num)
  have h3 : ((x >>> 8) &&& 0xff000000#64).toNat = _ := toNat_shr_and x 8 24 (by norm_num)
  have h4 : ((x &&& 0xff000000#64) <<< 8).toNat = _ := toNat_and_shl x 24 8 (by norm_num)
  have h5 : ((x &&& 0xff0000#64) <<< 24).toNat = _ := toNat_and_shl x 16 24 (by norm_num)
  have h6 : ((x &&& 0xff00#64) <<< 40).toNat = _ := toNat_and_shl x 8 40 (by norm_num)
  have h7 : ((x &&& 0xff#64) <<< 56).toNat = _ := toNat_and_shl x 0 56 (by norm_num)
  rw [← assemble_revDigits, bswap64]
  simp only [BitVec.toNat_or, h0, h1, h2, h3, h4, h5, h6, h7]
  rfl

/-- The swaps reverse the bytes of the value. -/
theorem bswap_toNat (width : Width) (x : BitVec width.carrier) :
    (bswap width x).toNat = byteReverse width.bytes x.toNat := by
  cases width with
  | w16 => exact bswap16_toNat x
  | w24 => exact bswap24_toNat x
  | w32 => exact bswap32_toNat x
  | w48 => exact bswap48_toNat x
  | w64 => exact bswap64_toNat x

lemma Width.pow_bytes_le (width : Width) : 256 ^ width.bytes ≤ 2 ^ width.carrier := by
  cases width <;> norm_num

/-- A load followed by the conversion reads the number the bytes are the digits
of, from either end. -/
theorem toCpu_unalignedGet_toNat (width : Width) (o : Order) (m : Memory) (p : ℤ) :
    (toCpu width o (unalignedGet width m p)).toNat = o.value (readBytes m p width.bytes) := by
  have hload : (unalignedGet width m p).toNat = Order.le.value (readBytes m p width.bytes) := by
    have hlt := leValue_lt (readBytes m p width.bytes)
    rw [length_readBytes] at hlt
    rw [unalignedGet, BitVec.toNat_ofNat, Nat.mod_eq_of_lt (lt_of_lt_of_le hlt width.pow_bytes_le)]
    rfl
  cases o with
  | le => exact hload
  | be =>
    show (bswap width _).toNat = _
    rw [bswap_toNat, hload, byteReverse_le_value (length_readBytes _ _ _)]

end Load

section Swap

/-- The bytes left are copied from the last one down. -/
def memcpySwapLoop (m : Memory) (pdst psrc : ℤ) : ℕ → Memory
  | 0 => m
  | length + 1 =>
    memcpySwapLoop (Function.update m pdst (m psrc)) (pdst + 1) (psrc - 1) length

def sysMemcpySwap (m : Memory) (dst src : ℤ) (length : ℕ) : Memory :=
  memcpySwapLoop m dst (src + (length - 1)) length

/-- The turns left of the loop, which counts `i` up. -/
def memSwapLoop (m : Memory) (buf : ℤ) (length i : ℕ) : ℕ → Memory
  | 0 => m
  | n + 1 =>
    let tmp := m (buf + i)
    let m := Function.update m (buf + i) (m (buf + (length - 1 - i : ℕ)))
    memSwapLoop (Function.update m (buf + (length - 1 - i : ℕ)) tmp) buf length (i + 1) n

def sysMemSwap (m : Memory) (buf : ℤ) (length : ℕ) : Memory :=
  memSwapLoop m buf length 0 (length / 2)

variable {m : Memory} {buf dst src : ℤ} {length : ℕ}

/-- Of areas that do not overlap, one gets the bytes of the other in reverse. -/
theorem sysMemcpySwap_eq (h : src + length ≤ dst ∨ dst + length ≤ src) :
    sysMemcpySwap m dst src length = writeBytes m dst (readBytes m src length).reverse := by
  rw [sysMemcpySwap]
  induction length generalizing m dst with
  | zero => rfl
  | succ n ih =>
    have hlast : src + ((n + 1 : ℕ) - 1 : ℤ) = src + n := by
      push_cast
      ring
    have hnext : src + n - 1 = src + (n - 1) := by ring
    have hsame : readBytes (Function.update m dst (m (src + n))) src n = readBytes m src n := by
      refine readBytes_congr fun a ha hn => Function.update_of_ne ?_ _ _
      push_cast at h
      omega
    push_cast at h
    rw [hlast, memcpySwapLoop, hnext, ih (by omega), hsame, readBytes_add m src n 1,
      List.reverse_append]
    rfl

/-- The loop exchanges the bytes from `i` on with those from the end. -/
lemma memSwapLoop_apply {i n j : ℕ} (hturns : 2 * (i + n) ≤ length) (hj : j < length) :
    memSwapLoop m buf length i n (buf + j) =
      if i ≤ j ∧ j < i + n ∨ i ≤ length - 1 - j ∧ length - 1 - j < i + n then
        m (buf + (length - 1 - j : ℕ))
      else m (buf + j) := by
  induction n generalizing m i with
  | zero => rw [memSwapLoop, if_neg (by omega)]
  | succ n ih =>
    have hread (k : ℕ) : Function.update (Function.update m (buf + i)
        (m (buf + (length - 1 - i : ℕ)))) (buf + (length - 1 - i : ℕ)) (m (buf + i)) (buf + k) =
        if k = i ∨ k = length - 1 - i then m (buf + (length - 1 - k : ℕ)) else m (buf + k) := by
      by_cases hlast : k = length - 1 - i
      · subst hlast
        have hback : length - 1 - (length - 1 - i) = i := by omega
        rw [Function.update_self, if_pos (Or.inr rfl), hback]
      · rw [Function.update_of_ne (by omega)]
        by_cases hfirst : k = i
        · subst hfirst
          rw [Function.update_self, if_pos (Or.inl rfl)]
        · rw [Function.update_of_ne (by omega), if_neg (by omega)]
    rw [memSwapLoop, ih (by omega), hread, hread]
    have hback : length - 1 - (length - 1 - j) = j := by omega
    rw [hback]
    split_ifs <;> first | rfl | omega

lemma memSwapLoop_outside {i n : ℕ} {a : ℤ} (hturns : 2 * (i + n) ≤ length)
    (ha : a < buf ∨ buf + length ≤ a) : memSwapLoop m buf length i n a = m a := by
  induction n generalizing m i with
  | zero => rfl
  | succ n ih =>
    rw [memSwapLoop, ih (by omega), Function.update_of_ne (by omega),
      Function.update_of_ne (by omega)]

theorem sysMemSwap_eq (m : Memory) (buf : ℤ) (length : ℕ) :
    sysMemSwap m buf length = writeBytes m buf (readBytes m buf length).reverse := by
  have hlength : (readBytes m buf length).reverse.length = length := by simp
  refine memory_ext buf length (fun a ha => ?_) ?_
  · rw [sysMemSwap, memSwapLoop_outside (by omega) ha, writeBytes_outside _ _ _ (by rwa [hlength])]
  · have hwritten := readBytes_writeBytes m buf (readBytes m buf length).reverse
    rw [hlength] at hwritten
    rw [hwritten]
    refine List.ext_getElem (by simp) fun j hj _ => ?_
    rw [length_readBytes] at hj
    rw [getElem_readBytes, List.getElem_reverse, getElem_readBytes, length_readBytes, sysMemSwap,
      memSwapLoop_apply (by omega) hj]
    -- only the byte in the middle is not exchanged, and it is its own mirror
    split_ifs with hswapped
    · rfl
    · have hmiddle : length - 1 - j = j := by omega
      rw [hmiddle]

/-- A field with its bytes in reverse is read from the other end. -/
lemma sysGet_reversed (width : Width) (o : Order) {m m' : Memory} {p p' : ℤ}
    (h : readBytes m' p' width.bytes = (readBytes m p width.bytes).reverse) :
    sysGet width o m' p' = sysGet width o.flip m p := by
  have hvalue : o.value (readBytes m p width.bytes).reverse =
      o.flip.value (readBytes m p width.bytes) := by
    cases o <;> simp [Order.value, Order.arrange, Order.flip]
  rw [← BitVec.toNat_inj, sysGet_toNat, sysGet_toNat, h, hvalue]

lemma readBytes_reversed (m : Memory) (p q : ℤ) (n : ℕ) :
    readBytes (writeBytes m q (readBytes m p n).reverse) q n = (readBytes m p n).reverse := by
  have hread := readBytes_writeBytes m q (readBytes m p n).reverse
  rwa [List.length_reverse, length_readBytes] at hread

/-- The swap in place reverses the bytes of its area and writes nothing else. Twice it
changes nothing, and a field is then read from the other end. -/
theorem mem_swap_reverses (m : Memory) (buf : ℤ) (length : ℕ) :
    sysMemSwap m buf length = writeBytes m buf (readBytes m buf length).reverse ∧
      sysMemSwap (sysMemSwap m buf length) buf length = m ∧
      ∀ width o, sysGet width o (sysMemSwap m buf width.bytes) buf = sysGet width o.flip m buf := by
  refine ⟨sysMemSwap_eq m buf length, ?_, fun width o => ?_⟩
  · refine memory_ext buf length (fun a ha => ?_) ?_
    · simp only [sysMemSwap, memSwapLoop_outside (show 2 * (0 + length / 2) ≤ length by omega) ha]
    · rw [sysMemSwap_eq (sysMemSwap m buf length), readBytes_reversed, sysMemSwap_eq,
        readBytes_reversed, List.reverse_reverse]
  · refine sysGet_reversed width o ?_
    rw [sysMemSwap_eq, readBytes_reversed]

/-- The copy reverses the bytes of an area apart, and a field is then read from the other
end. -/
theorem memcpy_swap_reverses (m : Memory) {dst src : ℤ} {length : ℕ}
    (h : src + length ≤ dst ∨ dst + length ≤ src) :
    sysMemcpySwap m dst src length = writeBytes m dst (readBytes m src length).reverse ∧
      ∀ width o, width.bytes = length →
        sysGet width o (sysMemcpySwap m dst src length) dst = sysGet width o.flip m src := by
  refine ⟨sysMemcpySwap_eq h, fun width o hwidth => ?_⟩
  subst hwidth
  refine sysGet_reversed width o ?_
  rw [sysMemcpySwap_eq h, readBytes_reversed]

/-- A field of three bytes is copied behind itself. -/
theorem three_bytes_swapped :
    sysGet .w24 .be (sysMemcpySwap (fun a => BitVec.ofInt 8 a) 3 0 3) 3 =
      sysGet .w24 .le (fun a => BitVec.ofInt 8 a) 0 :=
  (memcpy_swap_reverses (fun a => BitVec.ofInt 8 a) (by decide)).2 .w24 .be rfl

end Swap

end WchIotSdk.ByteOrder
