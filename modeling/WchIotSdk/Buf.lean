import WchIotSdk.ByteOrder

/-!
# Simple buffers

`struct buf_simple` is a window of a byte storage: a data pointer and a 16-bit
length, moved over the storage by about fifty entry points. Pointers are integer
addresses; the counters are numbers below 2^16, and every assignment to one is
reduced to 16 bits. `size_t` has 32 bits.

The assertions of `buf.c` are compiled away in a release build, so the functions
do not check them; they are conditions of their callers.
-/
namespace WchIotSdk.Buf
open ByteDigits ByteMemory ByteOrder

def uint16 (x : ℤ) : ℕ := (x % 2 ^ 16).toNat
def sizeT (x : ℤ) : ℕ := (x % 2 ^ 32).toNat

/-- `struct buf_simple`. -/
structure BufSimple where
  data : ℤ
  len : ℕ
  size : ℕ
  /-- `__buf`, the start of the storage; zero is NULL -/
  bufStart : ℤ
  deriving DecidableEq, Repr

/-- `struct buf_simple_state`. -/
structure BufSimpleState where
  offset : ℕ
  len : ℕ
  deriving DecidableEq, Repr

/-- The memory, the buffer object, and the address at which the object lies. -/
@[ext] structure Store where
  mem : Memory
  buf : BufSimple
  addr : ℤ

/-- `sizeof(struct buf_simple)` on this target. -/
def sizeofBufSimple : ℕ := 12

def bufSimpleTail (b : BufSimple) : ℤ := b.data + b.len

def bufSimpleHeadroom (b : BufSimple) : ℕ := sizeT (b.data - b.bufStart)

/-- Bytes behind the data that may still be added. -/
def bufSimpleTailroom (b : BufSimple) : ℕ :=
  sizeT ((b.size : ℤ) - bufSimpleHeadroom b - b.len)

/-- The longest data from the data pointer on. -/
def bufSimpleMaxLen (b : BufSimple) : ℕ :=
  uint16 (sizeT ((b.size : ℤ) - bufSimpleHeadroom b))

/-- `BUF_SIMPLE_DEFINE`: an object with a storage of its own. -/
def bufSimpleDefine (storage : ℤ) (size : ℕ) : BufSimple := ⟨storage, 0, size, storage⟩

/-- `BUF_SIMPLE`: the storage follows the object, and `__buf` is still NULL. -/
def bufSimpleOnStack (size : ℕ) : BufSimple := ⟨0, 0, size, 0⟩

/-- A NULL `__buf` is set to the storage behind the object. -/
def bufSimpleInit (s : Store) (reserveHead : ℕ) : Store :=
  let start := if s.buf.bufStart = 0 then s.addr + sizeofBufSimple else s.buf.bufStart
  { s with buf := { s.buf with bufStart := start, data := start + reserveHead, len := 0 } }

/-- The headroom is given up as well. -/
def bufSimpleReset (s : Store) : Store :=
  { s with buf := { s.buf with len := 0, data := s.buf.bufStart } }

def bufSimpleSave (s : Store) : BufSimpleState :=
  ⟨uint16 (bufSimpleHeadroom s.buf), s.buf.len⟩

/-- The window as saved; the bytes in it are what is there by now. -/
def bufSimpleRestore (s : Store) (state : BufSimpleState) : Store :=
  { s with buf := { s.buf with data := s.buf.bufStart + state.offset, len := state.len } }

/-- `memcpy`, of runs that do not overlap. -/
def memcpy (s : Store) (dst mem : ℤ) (len : ℕ) : Store :=
  { s with mem := writeBytes s.mem dst (readBytes s.mem mem len) }

/-- Functions that return a pointer give it beside the new store. -/
def bufSimpleAdd (s : Store) (len : ℕ) : Store × ℤ :=
  ({ s with buf := { s.buf with len := uint16 (s.buf.len + len) } }, bufSimpleTail s.buf)

/-- The copy goes behind the old data. -/
def bufSimpleAddMem (s : Store) (mem : ℤ) (len : ℕ) : Store × ℤ :=
  let (s, tail) := bufSimpleAdd s len
  (memcpy s tail mem len, tail)

/-- One byte behind the data. -/
def bufSimpleAddU8 (s : Store) (val : Byte) : Store × ℤ :=
  let (s, u8) := bufSimpleAdd s 1
  ({ s with mem := store8 s.mem u8 val }, u8)

/-- The pointer leads to the bytes cut off. -/
def bufSimpleRemoveMem (s : Store) (len : ℕ) : Store × ℤ :=
  let left := uint16 ((s.buf.len : ℤ) - len)
  ({ s with buf := { s.buf with len := left } }, s.buf.data + left)

/-- The last byte of the data. -/
def bufSimpleRemoveU8 (s : Store) : Store × Byte :=
  let (s, ptr) := bufSimpleRemoveMem s 1
  (s, s.mem ptr)

/-- The data pointer moves down into the headroom. -/
def bufSimplePush (s : Store) (len : ℕ) : Store × ℤ :=
  let data := s.buf.data - len
  ({ s with buf := { s.buf with data := data, len := uint16 (s.buf.len + len) } }, data)

/-- The copy goes before the old data. -/
def bufSimplePushMem (s : Store) (mem : ℤ) (len : ℕ) : Store × ℤ :=
  let (s, data) := bufSimplePush s len
  (memcpy s data mem len, data)

/-- One byte before the data. -/
def bufSimplePushU8 (s : Store) (val : Byte) : Store :=
  let (s, data) := bufSimplePush s 1
  { s with mem := store8 s.mem data val }

/-- The pointer returned is that of the data left. -/
def bufSimplePull (s : Store) (len : ℕ) : Store × ℤ :=
  let data := s.buf.data + len
  ({ s with buf := { s.buf with len := uint16 ((s.buf.len : ℤ) - len), data := data } }, data)

/-- The pointer returned is that of the bytes taken off. -/
def bufSimplePullMem (s : Store) (len : ℕ) : Store × ℤ :=
  let data := s.buf.data
  ({ s with buf := { s.buf with
      len := uint16 ((s.buf.len : ℤ) - len), data := s.buf.data + len } }, data)

/-- The byte is read before the data pointer moves. -/
def bufSimplePullU8 (s : Store) : Store × Byte :=
  let val := s.mem s.buf.data
  let (s, _) := bufSimplePull s 1
  (s, val)

/-- The typed functions, for a width and a byte order. -/
def bufSimpleAddTyped (w : Width) (o : Order) (s : Store) (val : BitVec w.carrier) : Store :=
  let (s, tail) := bufSimpleAdd s w.bytes
  { s with mem := sysPut w o val tail s.mem }

def bufSimplePushTyped (w : Width) (o : Order) (s : Store) (val : BitVec w.carrier) : Store :=
  let (s, data) := bufSimplePush s w.bytes
  { s with mem := sysPut w o val data s.mem }

/-- The length is reduced first, and the value read behind the data left. -/
def bufSimpleRemoveTyped (w : Width) (o : Order) (s : Store) : Store × BitVec w.carrier :=
  let (s, ptr) := bufSimpleRemoveMem s w.bytes
  (s, toCpu w o (unalignedGet w s.mem ptr))

/-- The value is read first, at the data pointer, and the pointer moved after. -/
def bufSimplePullTyped (w : Width) (o : Order) (s : Store) : Store × BitVec w.carrier :=
  let val := unalignedGet w s.mem s.buf.data
  let (s, _) := bufSimplePull s w.bytes
  (s, toCpu w o val)

def bufSimpleAddLe16 (s : Store) (val : BitVec 16) : Store :=
  bufSimpleAddTyped .w16 .le s val

def bufSimpleAddBe16 (s : Store) (val : BitVec 16) : Store :=
  bufSimpleAddTyped .w16 .be s val

def bufSimpleAddLe24 (s : Store) (val : BitVec 32) : Store :=
  bufSimpleAddTyped .w24 .le s val

def bufSimpleAddBe24 (s : Store) (val : BitVec 32) : Store :=
  bufSimpleAddTyped .w24 .be s val

def bufSimpleAddLe32 (s : Store) (val : BitVec 32) : Store :=
  bufSimpleAddTyped .w32 .le s val

def bufSimpleAddBe32 (s : Store) (val : BitVec 32) : Store :=
  bufSimpleAddTyped .w32 .be s val

def bufSimpleAddLe48 (s : Store) (val : BitVec 64) : Store :=
  bufSimpleAddTyped .w48 .le s val

def bufSimpleAddBe48 (s : Store) (val : BitVec 64) : Store :=
  bufSimpleAddTyped .w48 .be s val

def bufSimpleAddLe64 (s : Store) (val : BitVec 64) : Store :=
  bufSimpleAddTyped .w64 .le s val

def bufSimpleAddBe64 (s : Store) (val : BitVec 64) : Store :=
  bufSimpleAddTyped .w64 .be s val

def bufSimpleRemoveLe16 (s : Store) : Store × BitVec 16 :=
  bufSimpleRemoveTyped .w16 .le s

def bufSimpleRemoveBe16 (s : Store) : Store × BitVec 16 :=
  bufSimpleRemoveTyped .w16 .be s

def bufSimpleRemoveLe24 (s : Store) : Store × BitVec 32 :=
  bufSimpleRemoveTyped .w24 .le s

def bufSimpleRemoveBe24 (s : Store) : Store × BitVec 32 :=
  bufSimpleRemoveTyped .w24 .be s

def bufSimpleRemoveLe32 (s : Store) : Store × BitVec 32 :=
  bufSimpleRemoveTyped .w32 .le s

def bufSimpleRemoveBe32 (s : Store) : Store × BitVec 32 :=
  bufSimpleRemoveTyped .w32 .be s

def bufSimpleRemoveLe48 (s : Store) : Store × BitVec 64 :=
  bufSimpleRemoveTyped .w48 .le s

def bufSimpleRemoveBe48 (s : Store) : Store × BitVec 64 :=
  bufSimpleRemoveTyped .w48 .be s

def bufSimpleRemoveLe64 (s : Store) : Store × BitVec 64 :=
  bufSimpleRemoveTyped .w64 .le s

def bufSimpleRemoveBe64 (s : Store) : Store × BitVec 64 :=
  bufSimpleRemoveTyped .w64 .be s

def bufSimplePushLe16 (s : Store) (val : BitVec 16) : Store :=
  bufSimplePushTyped .w16 .le s val

def bufSimplePushBe16 (s : Store) (val : BitVec 16) : Store :=
  bufSimplePushTyped .w16 .be s val

def bufSimplePushLe24 (s : Store) (val : BitVec 32) : Store :=
  bufSimplePushTyped .w24 .le s val

def bufSimplePushBe24 (s : Store) (val : BitVec 32) : Store :=
  bufSimplePushTyped .w24 .be s val

def bufSimplePushLe32 (s : Store) (val : BitVec 32) : Store :=
  bufSimplePushTyped .w32 .le s val

def bufSimplePushBe32 (s : Store) (val : BitVec 32) : Store :=
  bufSimplePushTyped .w32 .be s val

def bufSimplePushLe48 (s : Store) (val : BitVec 64) : Store :=
  bufSimplePushTyped .w48 .le s val

def bufSimplePushBe48 (s : Store) (val : BitVec 64) : Store :=
  bufSimplePushTyped .w48 .be s val

def bufSimplePushLe64 (s : Store) (val : BitVec 64) : Store :=
  bufSimplePushTyped .w64 .le s val

def bufSimplePushBe64 (s : Store) (val : BitVec 64) : Store :=
  bufSimplePushTyped .w64 .be s val

def bufSimplePullLe16 (s : Store) : Store × BitVec 16 :=
  bufSimplePullTyped .w16 .le s

def bufSimplePullBe16 (s : Store) : Store × BitVec 16 :=
  bufSimplePullTyped .w16 .be s

def bufSimplePullLe24 (s : Store) : Store × BitVec 32 :=
  bufSimplePullTyped .w24 .le s

def bufSimplePullBe24 (s : Store) : Store × BitVec 32 :=
  bufSimplePullTyped .w24 .be s

def bufSimplePullLe32 (s : Store) : Store × BitVec 32 :=
  bufSimplePullTyped .w32 .le s

def bufSimplePullBe32 (s : Store) : Store × BitVec 32 :=
  bufSimplePullTyped .w32 .be s

def bufSimplePullLe48 (s : Store) : Store × BitVec 64 :=
  bufSimplePullTyped .w48 .le s

def bufSimplePullBe48 (s : Store) : Store × BitVec 64 :=
  bufSimplePullTyped .w48 .be s

def bufSimplePullLe64 (s : Store) : Store × BitVec 64 :=
  bufSimplePullTyped .w64 .le s

def bufSimplePullBe64 (s : Store) : Store × BitVec 64 :=
  bufSimplePullTyped .w64 .be s

/-- `buf_simple_add_*`, by the width and the byte order in the name. -/
def namedAdd : (w : Width) → Order → Store → BitVec w.carrier → Store
  | .w16, .le => bufSimpleAddLe16
  | .w16, .be => bufSimpleAddBe16
  | .w24, .le => bufSimpleAddLe24
  | .w24, .be => bufSimpleAddBe24
  | .w32, .le => bufSimpleAddLe32
  | .w32, .be => bufSimpleAddBe32
  | .w48, .le => bufSimpleAddLe48
  | .w48, .be => bufSimpleAddBe48
  | .w64, .le => bufSimpleAddLe64
  | .w64, .be => bufSimpleAddBe64

/-- `buf_simple_remove_*`, by the width and the byte order in the name. -/
def namedRemove : (w : Width) → Order → Store → Store × BitVec w.carrier
  | .w16, .le => bufSimpleRemoveLe16
  | .w16, .be => bufSimpleRemoveBe16
  | .w24, .le => bufSimpleRemoveLe24
  | .w24, .be => bufSimpleRemoveBe24
  | .w32, .le => bufSimpleRemoveLe32
  | .w32, .be => bufSimpleRemoveBe32
  | .w48, .le => bufSimpleRemoveLe48
  | .w48, .be => bufSimpleRemoveBe48
  | .w64, .le => bufSimpleRemoveLe64
  | .w64, .be => bufSimpleRemoveBe64

/-- `buf_simple_push_*`, by the width and the byte order in the name. -/
def namedPush : (w : Width) → Order → Store → BitVec w.carrier → Store
  | .w16, .le => bufSimplePushLe16
  | .w16, .be => bufSimplePushBe16
  | .w24, .le => bufSimplePushLe24
  | .w24, .be => bufSimplePushBe24
  | .w32, .le => bufSimplePushLe32
  | .w32, .be => bufSimplePushBe32
  | .w48, .le => bufSimplePushLe48
  | .w48, .be => bufSimplePushBe48
  | .w64, .le => bufSimplePushLe64
  | .w64, .be => bufSimplePushBe64

/-- `buf_simple_pull_*`, by the width and the byte order in the name. -/
def namedPull : (w : Width) → Order → Store → Store × BitVec w.carrier
  | .w16, .le => bufSimplePullLe16
  | .w16, .be => bufSimplePullBe16
  | .w24, .le => bufSimplePullLe24
  | .w24, .be => bufSimplePullBe24
  | .w32, .le => bufSimplePullLe32
  | .w32, .be => bufSimplePullBe32
  | .w48, .le => bufSimplePullLe48
  | .w48, .be => bufSimplePullBe48
  | .w64, .le => bufSimplePullLe64
  | .w64, .be => bufSimplePullBe64

@[simp] theorem namedAdd_eq (w : Width) (o : Order) : namedAdd w o = bufSimpleAddTyped w o := by
  cases w <;> cases o <;> rfl

@[simp] theorem namedRemove_eq (w : Width) (o : Order) : namedRemove w o = bufSimpleRemoveTyped w o := by
  cases w <;> cases o <;> rfl

@[simp] theorem namedPush_eq (w : Width) (o : Order) : namedPush w o = bufSimplePushTyped w o := by
  cases w <;> cases o <;> rfl

@[simp] theorem namedPull_eq (w : Width) (o : Order) : namedPull w o = bufSimplePullTyped w o := by
  cases w <;> cases o <;> rfl

end WchIotSdk.Buf
