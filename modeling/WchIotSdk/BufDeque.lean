import WchIotSdk.Buf
import WchIotSdk.EventRuns
import WchIotSdk.WindowDeque

/-!
# Simple buffers refine a deque of bytes

The abstract state is a storage of bytes with a window on it, and the places at
which the window has been saved. A well placed buffer object shows such a window:
the headroom, the data and the tailroom. Each entry point, under the condition of
its own assertion, performs one operation of the deque, and the pointer it returns
leads to the bytes that the operation names.
-/
namespace WchIotSdk.Buf
open ByteDigits ByteMemory ByteOrder EventRuns WindowDeque

/-- The window of length `n`, between `i` bytes before and `k` bytes after it. -/
def view (m : Memory) (base : ℤ) (i n k : ℕ) : Window Byte :=
  ⟨readBytes m base i, readBytes m (base + i) n, readBytes m (base + i + n) k⟩

section View

variable (m : Memory) (base : ℤ) {i n k : ℕ}

lemma view_storage : (view m base i n k).storage = readBytes m base (i + n + k) := by
  have hpos : base + ((i + n : ℕ) : ℤ) = base + i + n := by
    push_cast
    ring
  rw [readBytes_add, readBytes_add, hpos]
  rfl

theorem view_growBack {x : ℕ} (h : x ≤ k) :
    view m base i (n + x) (k - x) = (view m base i n k).apply (.growBack x) := by
  have hpos : base + i + ((n + x : ℕ) : ℤ) = base + i + n + x := by
    push_cast
    ring
  simp only [view, Window.apply, readBytes_add, take_readBytes _ _ h, drop_readBytes _ _ h, hpos]

theorem view_dropBack {x : ℕ} (h : x ≤ n) :
    view m base i (n - x) (k + x) = (view m base i n k).apply (.dropBack x) := by
  have hle : n - x ≤ n := Nat.sub_le n x
  have hsub : n - (n - x) = x := by omega
  have hpos : base + i + ((n - x : ℕ) : ℤ) + x = base + i + n := by
    push_cast [h]
    ring
  have hback : readBytes m (base + i + ((n - x : ℕ) : ℤ)) (k + x) =
      readBytes m (base + i + ((n - x : ℕ) : ℤ)) x ++ readBytes m (base + i + n) k := by
    rw [Nat.add_comm, readBytes_add, hpos]
  simp only [view, Window.apply, length_readBytes, take_readBytes _ _ hle, drop_readBytes _ _ hle,
    hsub, hback]

theorem view_growFront {x : ℕ} (h : x ≤ i) :
    view m base (i - x) (n + x) k = (view m base i n k).apply (.growFront x) := by
  have hle : i - x ≤ i := Nat.sub_le i x
  have hsub : i - (i - x) = x := by omega
  have hpos : base + ((i - x : ℕ) : ℤ) + x = base + i := by
    push_cast [h]
    ring
  have hend : base + ((i - x : ℕ) : ℤ) + ((n + x : ℕ) : ℤ) = base + i + n := by
    push_cast [h]
    ring
  have hbody : readBytes m (base + ((i - x : ℕ) : ℤ)) (n + x) =
      readBytes m (base + ((i - x : ℕ) : ℤ)) x ++ readBytes m (base + i) n := by
    rw [Nat.add_comm, readBytes_add, hpos]
  simp only [view, Window.apply, length_readBytes, take_readBytes _ _ hle, drop_readBytes _ _ hle,
    hsub, hbody, hend]

theorem view_dropFront {x : ℕ} (h : x ≤ n) :
    view m base (i + x) (n - x) k = (view m base i n k).apply (.dropFront x) := by
  have hpos : base + ((i + x : ℕ) : ℤ) = base + i + x := by
    push_cast
    ring
  have hend : base + i + x + ((n - x : ℕ) : ℤ) = base + i + n := by
    push_cast [h]
    ring
  simp only [view, Window.apply, readBytes_add, take_readBytes _ _ h, drop_readBytes _ _ h, hpos,
    hend]

theorem view_move {j l : ℕ} (h : j + l ≤ i + n + k) :
    view m base j l (i + n + k - j - l) = (view m base i n k).apply (.move j l) := by
  have hj : j ≤ i + n + k := by omega
  have hl : l ≤ i + n + k - j := by omega
  simp only [Window.apply, view_storage, take_readBytes _ _ hj, drop_readBytes _ _ hj,
    take_readBytes _ _ hl, drop_readBytes _ _ hl]
  rfl

/-- Bytes written behind the window and then taken in. -/
theorem view_addBack {xs : List Byte} (h : xs.length ≤ k) :
    view (writeBytes m (base + i + n) xs) base i (n + xs.length) (k - xs.length) =
      (view m base i n k).apply (.addBack xs) := by
  rw [view_growBack _ _ h]
  have hfront : readBytes (writeBytes m (base + i + n) xs) base i = readBytes m base i :=
    readBytes_writeBytes_disjoint _ _ _ (Or.inl (by omega))
  have hbody : readBytes (writeBytes m (base + i + n) xs) (base + i) n =
      readBytes m (base + i) n := readBytes_writeBytes_disjoint _ _ _ (Or.inl (by omega))
  have hrest : readBytes (writeBytes m (base + i + n) xs) (base + i + n + xs.length)
      (k - xs.length) = readBytes m (base + i + n + xs.length) (k - xs.length) :=
    readBytes_writeBytes_disjoint _ _ _ (Or.inr le_rfl)
  simp only [view, Window.apply, take_readBytes _ _ h, drop_readBytes _ _ h, hfront, hbody, hrest,
    readBytes_writeBytes]

/-- Bytes written before the window and then taken in. -/
theorem view_addFront {xs : List Byte} (h : xs.length ≤ i) :
    view (writeBytes m (base + i - xs.length) xs) base (i - xs.length) (n + xs.length) k =
      (view m base i n k).apply (.addFront xs) := by
  rw [view_growFront _ _ h]
  have hle : i - xs.length ≤ i := Nat.sub_le i _
  have hsub : i - (i - xs.length) = xs.length := by omega
  have hpos : base + ((i - xs.length : ℕ) : ℤ) = base + i - xs.length := by
    push_cast [h]
    ring
  have hfront : readBytes (writeBytes m (base + i - xs.length) xs) base (i - xs.length) =
      readBytes m base (i - xs.length) :=
    readBytes_writeBytes_disjoint _ _ _ (Or.inl (by omega))
  have hbody : readBytes (writeBytes m (base + i - xs.length) xs) (base + i) n =
      readBytes m (base + i) n := readBytes_writeBytes_disjoint _ _ _ (Or.inr (by omega))
  have hrest : readBytes (writeBytes m (base + i - xs.length) xs) (base + i + n) k =
      readBytes m (base + i + n) k := readBytes_writeBytes_disjoint _ _ _ (Or.inr (by omega))
  simp only [view, Window.apply, length_readBytes, take_readBytes _ _ hle, drop_readBytes _ _ hle,
    hsub, hpos, hfront, hbody, hrest, readBytes_writeBytes]

end View

/-- A buffer object over the `size` bytes from `base`, with `i` bytes of
headroom and `n` bytes of data. -/
structure Placed (b : BufSimple) (base : ℤ) (size i n : ℕ) : Prop where
  start : b.bufStart = base
  bytes : b.size = size
  data : b.data = base + i
  len : b.len = n
  fits : i + n ≤ size
  small : size < 2 ^ 16

namespace Placed

variable {s : Store} {b : BufSimple} {base : ℤ} {size i n : ℕ}

theorem headroom (h : Placed b base size i n) : bufSimpleHeadroom b = i := by
  have hfits := h.fits
  have hsmall := h.small
  rw [bufSimpleHeadroom, sizeT, h.start, h.data]
  omega

theorem tailroom (h : Placed b base size i n) : bufSimpleTailroom b = size - i - n := by
  have hfits := h.fits
  have hsmall := h.small
  rw [bufSimpleTailroom, sizeT, h.headroom, h.bytes, h.len]
  omega

theorem maxLen (h : Placed b base size i n) : bufSimpleMaxLen b = size - i := by
  have hfits := h.fits
  have hsmall := h.small
  rw [bufSimpleMaxLen, uint16, sizeT, h.headroom, h.bytes]
  omega

theorem tail (h : Placed b base size i n) : bufSimpleTail b = base + i + n := by
  rw [bufSimpleTail, h.data, h.len]

/-- The four ways to move a border of the window. -/
theorem add (h : Placed s.buf base size i n) {x : ℕ} (hx : x ≤ size - i - n) :
    Placed (bufSimpleAdd s x).1.buf base size i (n + x) := by
  have hfits := h.fits
  have hsmall := h.small
  refine ⟨h.start, h.bytes, h.data, ?_, by omega, hsmall⟩
  simp only [bufSimpleAdd, uint16, h.len]
  omega

theorem removeMem (h : Placed s.buf base size i n) {x : ℕ} (hx : x ≤ n) :
    Placed (bufSimpleRemoveMem s x).1.buf base size i (n - x) := by
  have hfits := h.fits
  have hsmall := h.small
  refine ⟨h.start, h.bytes, h.data, ?_, by omega, hsmall⟩
  simp only [bufSimpleRemoveMem, uint16, h.len]
  omega

theorem push (h : Placed s.buf base size i n) {x : ℕ} (hx : x ≤ i) :
    Placed (bufSimplePush s x).1.buf base size (i - x) (n + x) := by
  have hfits := h.fits
  have hsmall := h.small
  refine ⟨h.start, h.bytes, ?_, ?_, by omega, hsmall⟩
  · simp only [bufSimplePush, h.data]
    omega
  · simp only [bufSimplePush, uint16, h.len]
    omega

theorem pull (h : Placed s.buf base size i n) {x : ℕ} (hx : x ≤ n) :
    Placed (bufSimplePull s x).1.buf base size (i + x) (n - x) := by
  have hfits := h.fits
  have hsmall := h.small
  refine ⟨h.start, h.bytes, ?_, ?_, by omega, hsmall⟩
  · simp only [bufSimplePull, h.data]
    omega
  · simp only [bufSimplePull, uint16, h.len]
    omega

/-- The pointer returned by a removal leads behind the data left. -/
theorem removeMem_ptr (h : Placed s.buf base size i n) {x : ℕ} (hx : x ≤ n) :
    (bufSimpleRemoveMem s x).2 = base + ((i + n - x : ℕ) : ℤ) := by
  have hleft := (h.removeMem hx).len
  have hptr : (bufSimpleRemoveMem s x).2 = s.buf.data + (bufSimpleRemoveMem s x).1.buf.len := rfl
  rw [hptr, hleft, h.data]
  omega

theorem init (h : Placed s.buf base size i n) (hbase : base ≠ 0) {x : ℕ} (hx : x ≤ size) :
    Placed (bufSimpleInit s x).buf base size x 0 := by
  have hstart : (bufSimpleInit s x).buf.bufStart = base := by
    simp [bufSimpleInit, h.start, hbase]
  refine ⟨hstart, h.bytes, ?_, rfl, by omega, h.small⟩
  have hdata : (bufSimpleInit s x).buf.data = (bufSimpleInit s x).buf.bufStart + x := rfl
  rw [hdata, hstart]

theorem reset (h : Placed s.buf base size i n) : Placed (bufSimpleReset s).buf base size 0 0 :=
  ⟨h.start, h.bytes, by simp [bufSimpleReset, h.start], rfl, by omega, h.small⟩

/-- What is saved are the headroom and the length. -/
theorem save (h : Placed s.buf base size i n) : bufSimpleSave s = ⟨i, n⟩ := by
  have hfits := h.fits
  have hsmall := h.small
  rw [bufSimpleSave, h.headroom, h.len, uint16]
  congr 1
  omega

theorem restore (h : Placed s.buf base size i n) {state : BufSimpleState}
    (hs : state.offset + state.len ≤ size) :
    Placed (bufSimpleRestore s state).buf base size state.offset state.len :=
  ⟨h.start, h.bytes, by simp [bufSimpleRestore, h.start], rfl, hs, h.small⟩

end Placed

/-- One call of the interface. -/
inductive Call where
  | add (len : ℕ)
  | addMem (mem : ℤ) (len : ℕ)
  | addU8 (val : Byte)
  | addTyped (w : Width) (o : Order) (val : BitVec w.carrier)
  | removeMem (len : ℕ)
  | removeU8
  | removeTyped (w : Width) (o : Order)
  | push (len : ℕ)
  | pushMem (mem : ℤ) (len : ℕ)
  | pushU8 (val : Byte)
  | pushTyped (w : Width) (o : Order) (val : BitVec w.carrier)
  | pull (len : ℕ)
  | pullMem (len : ℕ)
  | pullU8
  | pullTyped (w : Width) (o : Order)
  | reset
  | init (reserveHead : ℕ)
  | save
  | restore (k : ℕ)

/-- A store, and the states saved from its buffer so far. -/
structure World where
  store : Store
  saved : List BufSimpleState

/-- What a call gives back to its caller. -/
inductive Returned where
  | nothing
  | pointer (p : ℤ)
  | value (n : ℕ)

/-- The call itself, and what it returns. -/
@[simp] def call (w : World) : Call → World × Returned
  | .add len => let r := bufSimpleAdd w.store len; (⟨r.1, w.saved⟩, .pointer r.2)
  | .addMem mem len => let r := bufSimpleAddMem w.store mem len; (⟨r.1, w.saved⟩, .pointer r.2)
  | .addU8 val => let r := bufSimpleAddU8 w.store val; (⟨r.1, w.saved⟩, .pointer r.2)
  | .addTyped width o val => (⟨namedAdd width o w.store val, w.saved⟩, .nothing)
  | .removeMem len => let r := bufSimpleRemoveMem w.store len; (⟨r.1, w.saved⟩, .pointer r.2)
  | .removeU8 => let r := bufSimpleRemoveU8 w.store; (⟨r.1, w.saved⟩, .value r.2.toNat)
  | .removeTyped width o =>
    let r := namedRemove width o w.store; (⟨r.1, w.saved⟩, .value r.2.toNat)
  | .push len => let r := bufSimplePush w.store len; (⟨r.1, w.saved⟩, .pointer r.2)
  | .pushMem mem len => let r := bufSimplePushMem w.store mem len; (⟨r.1, w.saved⟩, .pointer r.2)
  | .pushU8 val => (⟨bufSimplePushU8 w.store val, w.saved⟩, .nothing)
  | .pushTyped width o val => (⟨namedPush width o w.store val, w.saved⟩, .nothing)
  | .pull len => let r := bufSimplePull w.store len; (⟨r.1, w.saved⟩, .pointer r.2)
  | .pullMem len => let r := bufSimplePullMem w.store len; (⟨r.1, w.saved⟩, .pointer r.2)
  | .pullU8 => let r := bufSimplePullU8 w.store; (⟨r.1, w.saved⟩, .value r.2.toNat)
  | .pullTyped width o =>
    let r := namedPull width o w.store; (⟨r.1, w.saved⟩, .value r.2.toNat)
  | .reset => (⟨bufSimpleReset w.store, w.saved⟩, .nothing)
  | .init reserveHead => (⟨bufSimpleInit w.store reserveHead, w.saved⟩, .nothing)
  | .save => (⟨w.store, w.saved ++ [bufSimpleSave w.store]⟩, .nothing)
  | .restore k =>
    match w.saved[k]? with
    | some state => (⟨bufSimpleRestore w.store state, w.saved⟩, .nothing)
    | none => (w, .nothing)

def callStep (w : World) (c : Call) : World := (call w c).1

/-- The condition of the call's own assertion, as the code computes it; for
`init`, that the reserve fits; for `restore`, that the state was saved. -/
def Asserts (w : World) : Call → Prop
  | .add len | .addMem _ len => bufSimpleTailroom w.store.buf ≥ len
  | .addU8 _ => bufSimpleTailroom w.store.buf ≥ 1
  | .addTyped width _ _ => bufSimpleTailroom w.store.buf ≥ width.bytes
  | .push len | .pushMem _ len => bufSimpleHeadroom w.store.buf ≥ len
  | .pushU8 _ => bufSimpleHeadroom w.store.buf ≥ 1
  | .pushTyped width _ _ => bufSimpleHeadroom w.store.buf ≥ width.bytes
  | .removeMem len | .pull len | .pullMem len => w.store.buf.len ≥ len
  | .removeU8 | .pullU8 => w.store.buf.len ≥ 1
  | .removeTyped width _ | .pullTyped width _ => w.store.buf.len ≥ width.bytes
  | .init reserveHead => reserveHead ≤ w.store.buf.size
  | .restore k => k < w.saved.length
  | .reset | .save => True

/-- The operation of the deque that a call stands for. From the memory `m` only
the bytes to copy are taken. -/
@[simp] def dequeCmd (m : Memory) : Call → Cmd Byte
  | .add len => .op (.growBack len)
  | .addMem mem len => .op (.addBack (readBytes m mem len))
  | .addU8 val => .op (.addBack [val])
  | .addTyped width o val => .op (.addBack (o.bytes width.bytes val.toNat))
  | .removeMem len => .op (.dropBack len)
  | .removeU8 => .op (.dropBack 1)
  | .removeTyped width _ => .op (.dropBack width.bytes)
  | .push len => .op (.growFront len)
  | .pushMem mem len => .op (.addFront (readBytes m mem len))
  | .pushU8 val => .op (.addFront [val])
  | .pushTyped width o val => .op (.addFront (o.bytes width.bytes val.toNat))
  | .pull len | .pullMem len => .op (.dropFront len)
  | .pullU8 => .op (.dropFront 1)
  | .pullTyped width _ => .op (.dropFront width.bytes)
  | .reset => .op (.move 0 0)
  | .init reserveHead => .op (.move reserveHead 0)
  | .save => .save
  | .restore k => .restore k

/-- The window a buffer object shows: headroom, data and tailroom. -/
def contents (s : Store) : Window Byte :=
  ⟨readBytes s.mem s.buf.bufStart (bufSimpleHeadroom s.buf),
    readBytes s.mem s.buf.data s.buf.len,
    readBytes s.mem (bufSimpleTail s.buf) (bufSimpleTailroom s.buf)⟩

/-- The deque that is shown: the window of the buffer object, and the saved states
as places in the storage. -/
def shown (w : World) : Deque Byte :=
  ⟨contents w.store, w.saved.map fun state => (state.offset, state.len)⟩

/-- The bytes of the storage that a call may write, as a start and a count. -/
def ownWindow (b : BufSimple) : Call → ℤ × ℕ
  | .addMem _ len => (bufSimpleTail b, len)
  | .addU8 _ => (bufSimpleTail b, 1)
  | .addTyped width _ _ => (bufSimpleTail b, width.bytes)
  | .pushMem _ len => (b.data - len, len)
  | .pushU8 _ => (b.data - 1, 1)
  | .pushTyped width _ _ => (b.data - width.bytes, width.bytes)
  | _ => (b.data, 0)

/-- The pointer leads to the bytes `bs` at offset `k` of the storage. -/
def LeadsTo (s : Store) (k : ℕ) (bs : List Byte) (r : Returned) : Prop :=
  ∃ p, r = .pointer p ∧ p = s.buf.bufStart + k ∧ readBytes s.mem p bs.length = bs

/-- What a call must return, by the windows `d` before and `d'` after it: the
place of the bytes that came in, of those that went out, or of the data left; or
the value of the bytes that went out. -/
@[simp] def Names (s' : Store) (d d' : Window Byte) : Call → Returned → Prop
  | .add _ | .addMem _ _ | .addU8 _ =>
    LeadsTo s' (d.front.length + d.body.length) (d'.body.drop d.body.length)
  | .removeMem len =>
    LeadsTo s' (d.front.length + (d.body.length - len)) (d.body.drop (d.body.length - len))
  | .push _ | .pushMem _ _ =>
    LeadsTo s' d'.front.length (d'.body.take (d'.body.length - d.body.length))
  | .pull _ => LeadsTo s' d'.front.length d'.body
  | .pullMem len => LeadsTo s' d.front.length (d.body.take len)
  | .removeU8 => fun r => r = .value (leValue (d.body.drop (d.body.length - 1)))
  | .removeTyped width o => fun r =>
    r = .value (o.value (d.body.drop (d.body.length - width.bytes)))
  | .pullU8 => fun r => r = .value (leValue (d.body.take 1))
  | .pullTyped width o => fun r => r = .value (o.value (d.body.take width.bytes))
  | _ => fun r => r = .nothing

/-- The calls that come next find a storage of `size` bytes from `base`. -/
structure Ready (base : ℤ) (size : ℕ) (w : World) : Prop where
  notNull : base ≠ 0
  placed : ∃ i n, Placed w.store.buf base size i n
  saved : ∀ state ∈ w.saved, state.offset + state.len ≤ size

/-- One call: it performs its operation on the deque, returns what that names,
and writes nothing outside its own window. -/
structure Effect (w : World) (c : Call) : Prop where
  refines : shown (callStep w c) = (shown w).apply (dequeCmd w.store.mem c)
  fits : (shown w).Fits (dequeCmd w.store.mem c)
  returned : Names (callStep w c).store (contents w.store) (contents (callStep w c).store) c
    (call w c).2
  frame : ∀ a, a < (ownWindow w.store.buf c).1 ∨
    (ownWindow w.store.buf c).1 + (ownWindow w.store.buf c).2 ≤ a →
      (callStep w c).store.mem a = w.store.mem a

section Effects

variable {w : World} {base : ℤ} {size i n : ℕ}

theorem Placed.contents {s : Store} (h : Placed s.buf base size i n) :
    contents s = view s.mem base i n (size - i - n) := by
  rw [Buf.contents, h.start, h.headroom, h.tail, h.tailroom, h.data, h.len, view]

lemma writeBytes_byte (m : Memory) (p : ℤ) (val : Byte) : store8 m p val = writeBytes m p [val] := by
  rw [store8, BitVec.setWidth_eq]
  rfl

/-- Bytes that come in at the back. -/
lemma Placed.addBack (h : Placed w.store.buf base size i n) {xs : List Byte} {s' : Store}
    (hx : xs.length ≤ size - i - n) (hbuf : s'.buf = (bufSimpleAdd w.store xs.length).1.buf)
    (hmem : s'.mem = writeBytes w.store.mem (bufSimpleTail w.store.buf) xs) :
    Placed s'.buf base size i (n + xs.length) ∧
      Buf.contents s' = (Buf.contents w.store).apply (.addBack xs) := by
  have hplaced : Placed s'.buf base size i (n + xs.length) := hbuf ▸ h.add hx
  refine ⟨hplaced, ?_⟩
  rw [hplaced.contents, h.contents, ← view_addBack _ _ hx, hmem, h.tail, Nat.sub_add_eq]

/-- Bytes that come in at the front. -/
lemma Placed.addFront (h : Placed w.store.buf base size i n) {xs : List Byte} {s' : Store}
    (hx : xs.length ≤ i) (hbuf : s'.buf = (bufSimplePush w.store xs.length).1.buf)
    (hmem : s'.mem = writeBytes w.store.mem (w.store.buf.data - xs.length) xs) :
    Placed s'.buf base size (i - xs.length) (n + xs.length) ∧
      Buf.contents s' = (Buf.contents w.store).apply (.addFront xs) := by
  have hplaced : Placed s'.buf base size (i - xs.length) (n + xs.length) := hbuf ▸ h.push hx
  have hfits := h.fits
  have hroom : size - (i - xs.length) - (n + xs.length) = size - i - n := by omega
  refine ⟨hplaced, ?_⟩
  rw [hplaced.contents, h.contents, ← view_addFront _ _ hx, hmem, h.data, hroom]

lemma leadsTo_readBytes {s : Store} (hstart : s.buf.bufStart = base) (k x : ℕ) :
    LeadsTo s k (readBytes s.mem (base + k) x) (.pointer (base + k)) :=
  ⟨_, rfl, by rw [hstart], by rw [length_readBytes]⟩

/-- The bytes that came in at the back lie behind the old data. -/
lemma Placed.leadsTo_back {s : Store} {x : ℕ} (h : Placed s.buf base size i (n + x)) {p : ℤ}
    (hp : p = base + i + n) :
    LeadsTo s (i + n) ((Buf.contents s).body.drop n) (.pointer p) := by
  have hpos : base + ((i + n : ℕ) : ℤ) = base + i + n := by
    push_cast
    ring
  have hbody : (Buf.contents s).body.drop n = readBytes s.mem (base + ((i + n : ℕ) : ℤ)) x := by
    rw [h.contents, hpos]
    simp only [view, drop_readBytes _ _ (Nat.le_add_right n x), Nat.add_sub_cancel_left]
  rw [hbody, hp, ← hpos]
  exact leadsTo_readBytes h.start _ _

/-- The bytes that came in at the front are the first of the new data. -/
lemma Placed.leadsTo_front {s : Store} {x : ℕ} (h : Placed s.buf base size i (n + x)) {p : ℤ}
    (hp : p = base + i) : LeadsTo s i ((Buf.contents s).body.take x) (.pointer p) := by
  have hbody : (Buf.contents s).body.take x = readBytes s.mem (base + i) x := by
    rw [h.contents]
    simp only [view, take_readBytes _ _ (Nat.le_add_left x n)]
  rw [hbody, hp]
  exact leadsTo_readBytes h.start _ _

lemma Placed.lengths {s : Store} (h : Placed s.buf base size i n) :
    (Buf.contents s).front.length = i ∧ (Buf.contents s).body.length = n ∧
      (Buf.contents s).back.length = size - i - n := by
  rw [h.contents]
  simp [view]

/-- The last bytes of the data, where they lie. -/
lemma Placed.lastBytes {s : Store} (h : Placed s.buf base size i n) {x : ℕ} (hx : x ≤ n) :
    (Buf.contents s).body.drop (n - x) =
      readBytes s.mem (base + ((i + (n - x) : ℕ) : ℤ)) x := by
  have hpos : base + i + ((n - x : ℕ) : ℤ) = base + ((i + (n - x) : ℕ) : ℤ) := by
    push_cast
    ring
  have hleft : n - (n - x) = x := by omega
  rw [h.contents]
  simp only [view, drop_readBytes _ _ (Nat.sub_le n x), hpos, hleft]

lemma Placed.firstBytes {s : Store} (h : Placed s.buf base size i n) {x : ℕ} (hx : x ≤ n) :
    (Buf.contents s).body.take x = readBytes s.mem (base + i) x := by
  rw [h.contents]
  simp only [view, take_readBytes _ _ hx]

lemma callStep_saved_of_op {c : Call} {o : Op Byte} (hop : dequeCmd w.store.mem c = .op o) :
    (callStep w c).saved = w.saved := by
  cases c
  case save => cases hop
  case restore k => cases hop
  all_goals rfl

/-- An operation on the window leaves the saved states alone. -/
lemma effect_of_op {c : Call} {o : Op Byte} (hop : dequeCmd w.store.mem c = .op o)
    (hrefines : contents (callStep w c).store = (contents w.store).apply o)
    (hfits : (contents w.store).Fits o)
    (hret : Names (callStep w c).store (contents w.store) (contents (callStep w c).store) c
      (call w c).2)
    (hframe : ∀ a, a < (ownWindow w.store.buf c).1 ∨
      (ownWindow w.store.buf c).1 + (ownWindow w.store.buf c).2 ≤ a →
        (callStep w c).store.mem a = w.store.mem a) : Effect w c := by
  refine ⟨?_, by rw [hop]; exact hfits, hret, hframe⟩
  rw [hop, shown, callStep_saved_of_op hop, hrefines]
  rfl

/-- The calls that add at the back. -/
lemma effect_addBack (h : Placed w.store.buf base size i n) {c : Call} {xs : List Byte} {s' : Store}
    (hstep : (callStep w c).store = s') (hop : dequeCmd w.store.mem c = .op (.addBack xs))
    (hx : xs.length ≤ size - i - n) (hbuf : s'.buf = (bufSimpleAdd w.store xs.length).1.buf)
    (hmem : s'.mem = writeBytes w.store.mem (bufSimpleTail w.store.buf) xs)
    (hown : ownWindow w.store.buf c = (bufSimpleTail w.store.buf, xs.length))
    (hret : LeadsTo s' (i + n) ((contents s').body.drop n) (.pointer (bufSimpleTail w.store.buf)) →
      Names s' (contents w.store) (contents s') c (call w c).2) : Effect w c := by
  obtain ⟨hplaced, hrefines⟩ := h.addBack hx hbuf hmem
  subst hstep
  refine effect_of_op hop hrefines ?_ (hret (hplaced.leadsTo_back h.tail)) fun a ha => ?_
  · simp only [Window.Fits, h.lengths.2.2]
    exact hx
  · rw [hmem]
    rw [hown] at ha
    exact writeBytes_outside _ _ _ ha

/-- The calls that add at the front. -/
lemma effect_addFront (h : Placed w.store.buf base size i n) {c : Call} {xs : List Byte}
    {s' : Store} (hstep : (callStep w c).store = s') (hop : dequeCmd w.store.mem c = .op (.addFront xs))
    (hx : xs.length ≤ i) (hbuf : s'.buf = (bufSimplePush w.store xs.length).1.buf)
    (hmem : s'.mem = writeBytes w.store.mem (w.store.buf.data - xs.length) xs)
    (hown : ownWindow w.store.buf c = (w.store.buf.data - xs.length, xs.length))
    (hret : LeadsTo s' (i - xs.length) ((contents s').body.take xs.length)
      (.pointer (w.store.buf.data - xs.length)) →
      Names s' (contents w.store) (contents s') c (call w c).2) : Effect w c := by
  obtain ⟨hplaced, hrefines⟩ := h.addFront hx hbuf hmem
  subst hstep
  have hptr : w.store.buf.data - xs.length = base + ((i - xs.length : ℕ) : ℤ) := by
    rw [h.data]
    omega
  refine effect_of_op hop hrefines ?_ (hret (hplaced.leadsTo_front hptr)) fun a ha => ?_
  · simp only [Window.Fits, h.lengths.1]
    exact hx
  · rw [hmem]
    rw [hown] at ha
    exact writeBytes_outside _ _ _ ha

/-- The calls that only move the borders of the window. -/
lemma effect_move (h : Placed w.store.buf base size i n) {c : Call} {o : Op Byte} {s' : Store}
    {i' n' : ℕ} (hstep : (callStep w c).store = s') (hop : dequeCmd w.store.mem c = .op o)
    (hplaced : Placed s'.buf base size i' n') (hmem : s'.mem = w.store.mem)
    (hview : view w.store.mem base i' n' (size - i' - n') =
      (view w.store.mem base i n (size - i - n)).apply o)
    (hfits : (contents w.store).Fits o)
    (hret : Names s' (contents w.store) (contents s') c (call w c).2) : Effect w c := by
  subst hstep
  refine effect_of_op hop ?_ hfits hret fun a _ => by rw [hmem]
  rw [hplaced.contents, h.contents, hmem, hview]

lemma Placed.storage_length {s : Store} (h : Placed s.buf base size i n) :
    (Buf.contents s).storage.length = size := by
  have hfits := h.fits
  rw [h.contents, view_storage, length_readBytes]
  omega

/-- The window moved to any place inside the storage. -/
lemma Placed.view_move {s : Store} (h : Placed s.buf base size i n) {j l : ℕ} (hjl : j + l ≤ size) :
    view s.mem base j l (size - j - l) =
      (view s.mem base i n (size - i - n)).apply (.move j l) := by
  have hfits := h.fits
  have hall : i + n + (size - i - n) = size := by omega
  have hview := Buf.view_move s.mem base (i := i) (n := n) (k := size - i - n) (j := j) (l := l)
    (by omega)
  rwa [hall] at hview

/-- The call has its effect and leaves the buffer object well placed. -/
def Performs (base : ℤ) (size : ℕ) (w : World) (c : Call) : Prop :=
  Effect w c ∧ ∃ i n, Placed (callStep w c).store.buf base size i n

lemma performs_add (h : Placed w.store.buf base size i n) {len : ℕ} (hx : len ≤ size - i - n) :
    Performs base size w (.add len) := by
  have hplaced := h.add hx
  refine ⟨effect_move h rfl rfl hplaced rfl ?_ ?_ ?_, _, _, hplaced⟩
  · rw [Nat.sub_add_eq]
    exact view_growBack _ _ hx
  · simp only [Window.Fits, h.lengths.2.2]
    exact hx
  · simp only [Names, h.lengths]
    exact hplaced.leadsTo_back h.tail

lemma performs_addMem (h : Placed w.store.buf base size i n) (mem : ℤ) {len : ℕ}
    (hx : len ≤ size - i - n) : Performs base size w (.addMem mem len) := by
  refine ⟨effect_addBack h rfl rfl ?_ ?_ rfl ?_ fun hl => ?_, _, _, h.add hx⟩
  · rwa [length_readBytes]
  · rw [length_readBytes]
    rfl
  · rw [length_readBytes]
    rfl
  · simp only [Names, h.lengths]
    exact hl

lemma performs_addU8 (h : Placed w.store.buf base size i n) (val : Byte)
    (hx : 1 ≤ size - i - n) : Performs base size w (.addU8 val) := by
  refine ⟨effect_addBack h rfl rfl hx rfl ?_ rfl fun hl => ?_, _, _, h.add hx⟩
  · exact writeBytes_byte _ _ _
  · simp only [Names, h.lengths]
    exact hl

lemma performs_addTyped (h : Placed w.store.buf base size i n) (width : Width) (o : Order)
    (val : BitVec width.carrier) (hx : width.bytes ≤ size - i - n) :
    Performs base size w (.addTyped width o val) := by
  have hstep : (callStep w (.addTyped width o val)).store =
      bufSimpleAddTyped width o w.store val := by
    rw [callStep, call, namedAdd_eq]
  refine ⟨effect_addBack h hstep rfl ?_ ?_ ?_ ?_ fun _ => rfl, i, n + width.bytes, ?_⟩
  · rwa [Order.length_bytes]
  · rw [Order.length_bytes]
    rfl
  · exact sysPut_eq _ _ _ _ _
  · rw [Order.length_bytes]
    rfl
  · rw [hstep]
    exact h.add hx

/-- Whatever its result, a removal of `x` bytes drops them at the back. -/
lemma performs_dropBack (h : Placed w.store.buf base size i n) {c : Call} {x : ℕ} (hx : x ≤ n)
    (hop : dequeCmd w.store.mem c = .op (.dropBack x)) (hbuf : (callStep w c).store.buf =
      (bufSimpleRemoveMem w.store x).1.buf) (hmem : (callStep w c).store.mem = w.store.mem)
    (hret : Names (callStep w c).store (contents w.store) (contents (callStep w c).store) c
      (call w c).2) : Performs base size w c := by
  have hplaced : Placed (callStep w c).store.buf base size i (n - x) := hbuf ▸ h.removeMem hx
  have hfits := h.fits
  have hroom : size - i - (n - x) = size - i - n + x := by omega
  refine ⟨effect_move h rfl hop hplaced hmem ?_ ?_ hret, _, _, hplaced⟩
  · rw [hroom]
    exact view_dropBack _ _ hx
  · simp only [Window.Fits, h.lengths]
    exact hx

lemma performs_removeMem (h : Placed w.store.buf base size i n) {len : ℕ} (hx : len ≤ n) :
    Performs base size w (.removeMem len) := by
  refine performs_dropBack h hx rfl rfl rfl ?_
  have hptr : (bufSimpleRemoveMem w.store len).2 = base + ((i + (n - len) : ℕ) : ℤ) := by
    rw [h.removeMem_ptr hx]
    omega
  simp only [Names, h.lengths, h.lastBytes hx, call, hptr]
  exact leadsTo_readBytes (h.removeMem hx).start _ _

lemma performs_removeU8 (h : Placed w.store.buf base size i n) (hx : 1 ≤ n) :
    Performs base size w .removeU8 := by
  refine performs_dropBack h hx rfl rfl rfl ?_
  have hptr : (bufSimpleRemoveMem w.store 1).2 = base + ((i + (n - 1) : ℕ) : ℤ) := by
    rw [h.removeMem_ptr hx]
    omega
  simp only [Names, h.lengths, h.lastBytes hx, call, bufSimpleRemoveU8, hptr]
  simp [readBytes, bufSimpleRemoveMem]

lemma performs_removeTyped (h : Placed w.store.buf base size i n) (width : Width) (o : Order)
    (hx : width.bytes ≤ n) : Performs base size w (.removeTyped width o) := by
  have hcall : call w (.removeTyped width o) = (⟨(bufSimpleRemoveTyped width o w.store).1, w.saved⟩,
      .value (bufSimpleRemoveTyped width o w.store).2.toNat) := by
    rw [call, namedRemove_eq]
  refine performs_dropBack h hx rfl (by rw [callStep, hcall]; rfl) (by rw [callStep, hcall]; rfl) ?_
  have hptr : (bufSimpleRemoveMem w.store width.bytes).2 =
      base + ((i + (n - width.bytes) : ℕ) : ℤ) := by
    rw [h.removeMem_ptr hx]
    omega
  simp only [Names, h.lengths, h.lastBytes hx, hcall, bufSimpleRemoveTyped, hptr,
    toCpu_unalignedGet_toNat]
  rfl

lemma performs_push (h : Placed w.store.buf base size i n) {len : ℕ} (hx : len ≤ i) :
    Performs base size w (.push len) := by
  have hplaced : Placed (callStep w (.push len)).store.buf base size (i - len) (n + len) :=
    h.push hx
  have hfits := h.fits
  have hroom : size - (i - len) - (n + len) = size - i - n := by omega
  have hdata : w.store.buf.data - len = base + ((i - len : ℕ) : ℤ) := by
    rw [h.data]
    omega
  refine ⟨effect_move h rfl rfl hplaced rfl ?_ ?_ ?_, _, _, hplaced⟩
  · rw [hroom]
    exact view_growFront _ _ hx
  · simp only [Window.Fits, h.lengths]
    exact hx
  · simp only [Names, h.lengths, hplaced.lengths, Nat.add_sub_cancel_left]
    exact hplaced.leadsTo_front hdata

lemma performs_pushMem (h : Placed w.store.buf base size i n) (mem : ℤ) {len : ℕ}
    (hx : len ≤ i) : Performs base size w (.pushMem mem len) := by
  have hplaced : Placed (callStep w (.pushMem mem len)).store.buf base size (i - len) (n + len) :=
    h.push hx
  refine ⟨effect_addFront h rfl rfl ?_ ?_ ?_ ?_ fun hl => ?_, _, _, hplaced⟩
  · rwa [length_readBytes]
  · rw [length_readBytes]
    rfl
  · rw [length_readBytes]
    rfl
  · rw [length_readBytes]
    rfl
  · rw [length_readBytes] at hl
    simp only [Names, h.lengths, hplaced.lengths, Nat.add_sub_cancel_left]
    exact hl

lemma performs_pushU8 (h : Placed w.store.buf base size i n) (val : Byte) (hx : 1 ≤ i) :
    Performs base size w (.pushU8 val) := by
  refine ⟨effect_addFront h rfl rfl hx rfl ?_ rfl fun _ => rfl, _, _, h.push hx⟩
  exact writeBytes_byte _ _ _

lemma performs_pushTyped (h : Placed w.store.buf base size i n) (width : Width) (o : Order)
    (val : BitVec width.carrier) (hx : width.bytes ≤ i) :
    Performs base size w (.pushTyped width o val) := by
  have hstep : (callStep w (.pushTyped width o val)).store =
      bufSimplePushTyped width o w.store val := by
    rw [callStep, call, namedPush_eq]
  refine ⟨effect_addFront h hstep rfl ?_ ?_ ?_ ?_ fun _ => rfl, i - width.bytes, n + width.bytes,
    ?_⟩
  · rwa [Order.length_bytes]
  · rw [Order.length_bytes]
    rfl
  · rw [Order.length_bytes]
    exact sysPut_eq _ _ _ _ _
  · rw [Order.length_bytes]
    rfl
  · rw [hstep]
    exact h.push hx

/-- Whatever its result, a pull of `x` bytes drops them at the front. -/
lemma performs_dropFront (h : Placed w.store.buf base size i n) {c : Call} {x : ℕ} (hx : x ≤ n)
    (hop : dequeCmd w.store.mem c = .op (.dropFront x)) (hbuf : (callStep w c).store.buf =
      (bufSimplePull w.store x).1.buf) (hmem : (callStep w c).store.mem = w.store.mem)
    (hret : Names (callStep w c).store (contents w.store) (contents (callStep w c).store) c
      (call w c).2) : Performs base size w c := by
  have hplaced : Placed (callStep w c).store.buf base size (i + x) (n - x) := hbuf ▸ h.pull hx
  have hfits := h.fits
  have hroom : size - (i + x) - (n - x) = size - i - n := by omega
  refine ⟨effect_move h rfl hop hplaced hmem ?_ ?_ hret, _, _, hplaced⟩
  · rw [hroom]
    exact view_dropFront _ _ hx
  · simp only [Window.Fits, h.lengths]
    exact hx

lemma performs_pull (h : Placed w.store.buf base size i n) {len : ℕ} (hx : len ≤ n) :
    Performs base size w (.pull len) := by
  refine performs_dropFront h hx rfl rfl rfl ?_
  have hplaced : Placed (callStep w (.pull len)).store.buf base size (i + len) (n - len) :=
    h.pull hx
  have hptr : (bufSimplePull w.store len).2 = base + ((i + len : ℕ) : ℤ) := hplaced.data
  simp only [Names, hplaced.lengths, call, hptr]
  rw [hplaced.contents]
  exact leadsTo_readBytes hplaced.start _ _

lemma performs_pullMem (h : Placed w.store.buf base size i n) {len : ℕ} (hx : len ≤ n) :
    Performs base size w (.pullMem len) := by
  refine performs_dropFront h hx rfl rfl rfl ?_
  have hptr : (bufSimplePullMem w.store len).2 = base + i := h.data
  simp only [Names, h.lengths, h.firstBytes hx, call, hptr]
  exact leadsTo_readBytes (h.pull hx).start _ _

lemma performs_pullU8 (h : Placed w.store.buf base size i n) (hx : 1 ≤ n) :
    Performs base size w .pullU8 := by
  refine performs_dropFront h hx rfl rfl rfl ?_
  simp [Names, h.firstBytes hx, call, bufSimplePullU8, h.data, readBytes]

lemma performs_pullTyped (h : Placed w.store.buf base size i n) (width : Width) (o : Order)
    (hx : width.bytes ≤ n) : Performs base size w (.pullTyped width o) := by
  have hcall : call w (.pullTyped width o) = (⟨(bufSimplePullTyped width o w.store).1, w.saved⟩,
      .value (bufSimplePullTyped width o w.store).2.toNat) := by
    rw [call, namedPull_eq]
  refine performs_dropFront h hx rfl (by rw [callStep, hcall]; rfl) (by rw [callStep, hcall]; rfl) ?_
  simp only [Names, h.firstBytes hx, hcall, bufSimplePullTyped, toCpu_unalignedGet_toNat, h.data]

/-- A call that only puts the window somewhere else in the storage. -/
lemma performs_move (h : Placed w.store.buf base size i n) {c : Call} {j l : ℕ}
    (hplaced : Placed (callStep w c).store.buf base size j l)
    (hop : dequeCmd w.store.mem c = .op (.move j l))
    (hmem : (callStep w c).store.mem = w.store.mem)
    (hret : Names (callStep w c).store (contents w.store) (contents (callStep w c).store) c
      (call w c).2) : Performs base size w c := by
  refine ⟨effect_move h rfl hop hplaced hmem (h.view_move hplaced.fits) ?_ hret, _, _, hplaced⟩
  simp only [Window.Fits, h.storage_length]
  exact hplaced.fits

/-- The state saved is the place of the window. -/
lemma performs_save (h : Placed w.store.buf base size i n) : Performs base size w .save := by
  refine ⟨⟨?_, trivial, rfl, fun _ _ => rfl⟩, _, _, h⟩
  simp only [shown, callStep, call, dequeCmd, Deque.apply, h.lengths, h.save, List.map_append,
    List.map_cons, List.map_nil]

/-- The window is moved to the place that the deque saved. -/
lemma performs_restore (hr : Ready base size w) {k : ℕ} (hk : k < w.saved.length) :
    Performs base size w (.restore k) := by
  obtain ⟨i, n, h⟩ := hr.placed
  have hget : w.saved[k]? = some w.saved[k] := List.getElem?_eq_getElem hk
  have hplace : (shown w).places[k]? = some (w.saved[k].offset, w.saved[k].len) := by
    simp [shown, hget]
  have hcall : call w (.restore k) = (⟨bufSimpleRestore w.store w.saved[k], w.saved⟩, .nothing) := by
    simp only [call, hget]
  have hfits := hr.saved _ (List.getElem_mem hk)
  have hplaced : Placed (callStep w (.restore k)).store.buf base size w.saved[k].offset
      w.saved[k].len := by
    rw [callStep, hcall]
    exact h.restore hfits
  have hmem : (callStep w (.restore k)).store.mem = w.store.mem := by
    rw [callStep, hcall]
    rfl
  have hwindow : contents (callStep w (.restore k)).store =
      (contents w.store).apply (.move w.saved[k].offset w.saved[k].len) := by
    rw [hplaced.contents, h.contents, hmem, h.view_move hfits]
  refine ⟨⟨?_, ⟨_, hplace, ?_⟩, ?_, fun a _ => by rw [hmem]⟩, _, _, hplaced⟩
  · have hsaved : (callStep w (.restore k)).saved = w.saved := by
      rw [callStep, hcall]
    simp only [dequeCmd, Deque.apply, hplace]
    rw [shown, hsaved, hwindow]
    rfl
  · show w.saved[k].offset + w.saved[k].len ≤ (contents w.store).storage.length
    rw [h.storage_length]
    exact hfits
  · rw [hcall]
    rfl

/-- Every call whose assertion holds performs its operation. -/
theorem call_performs (hr : Ready base size w) {c : Call} (hok : Asserts w c) :
    Performs base size w c := by
  obtain ⟨i, n, h⟩ := hr.placed
  cases c <;> simp only [Asserts, ge_iff_le, h.tailroom, h.headroom, h.len, h.bytes] at hok
  case add len => exact performs_add h hok
  case addMem mem len => exact performs_addMem h mem hok
  case addU8 val => exact performs_addU8 h val hok
  case addTyped width o val => exact performs_addTyped h width o val hok
  case removeMem len => exact performs_removeMem h hok
  case removeU8 => exact performs_removeU8 h hok
  case removeTyped width o => exact performs_removeTyped h width o hok
  case push len => exact performs_push h hok
  case pushMem mem len => exact performs_pushMem h mem hok
  case pushU8 val => exact performs_pushU8 h val hok
  case pushTyped width o val => exact performs_pushTyped h width o val hok
  case pull len => exact performs_pull h hok
  case pullMem len => exact performs_pullMem h hok
  case pullU8 => exact performs_pullU8 h hok
  case pullTyped width o => exact performs_pullTyped h width o hok
  case reset => exact performs_move h h.reset rfl rfl rfl
  case init reserveHead => exact performs_move h (h.init hr.notNull hok) rfl rfl rfl
  case save => exact performs_save h
  case restore k => exact performs_restore hr hok

theorem callStep_ready (hr : Ready base size w) {c : Call} (hok : Asserts w c) :
    Ready base size (callStep w c) := by
  refine ⟨hr.notNull, (call_performs hr hok).2, ?_⟩
  cases c
  case save =>
    obtain ⟨i, n, h⟩ := hr.placed
    intro state hstate
    rcases List.mem_append.mp hstate with hold | hnew
    · exact hr.saved state hold
    · rw [List.mem_singleton.mp hnew, h.save]
      exact h.fits
  case restore k =>
    have hsaved : (callStep w (.restore k)).saved = w.saved := by
      simp only [callStep, call]
      split <;> rfl
    rw [hsaved]
    exact hr.saved
  all_goals exact hr.saved

/-- A call writes inside the storage. -/
lemma ownWindow_inside (hr : Ready base size w) {c : Call} (hok : Asserts w c) :
    base ≤ (ownWindow w.store.buf c).1 ∧
      (ownWindow w.store.buf c).1 + (ownWindow w.store.buf c).2 ≤ base + size := by
  obtain ⟨i, n, h⟩ := hr.placed
  have hfits := h.fits
  cases c <;> simp only [Asserts, ge_iff_le, h.tailroom, h.headroom, h.len] at hok <;>
    simp only [ownWindow, h.tail, h.data] <;> omega

end Effects

/-- The deque after the operations that the calls stand for. -/
def dequeRun : World → Deque Byte → List Call → Deque Byte
  | _, d, [] => d
  | w, d, c :: cs => dequeRun (callStep w c) (d.apply (dequeCmd w.store.mem c)) cs

section Runs

variable {base : ℤ} {size : ℕ}

theorem run_ready {w : World} (hr : Ready base size w) {cs : List Call}
    (hok : Along callStep Asserts w cs) : Ready base size (run callStep w cs) := by
  have hstep : ∀ v c, Ready base size v → Asserts v c → Ready base size (callStep v c) := by
    intro v c hv hc
    exact callStep_ready hv hc
  exact run_invariant hstep hr hok

theorem run_effects {w : World} (hr : Ready base size w) {cs : List Call}
    (hok : Along callStep Asserts w cs) : Along callStep Effect w cs := by
  have hstep : ∀ v c, Ready base size v → Asserts v c →
      Effect v c ∧ Ready base size (callStep v c) := by
    intro v c hv hc
    exact ⟨(call_performs hv hc).1, callStep_ready hv hc⟩
  exact along_mono hstep hr hok

/-- Calls that perform their operations one by one perform them in a row. -/
theorem run_shown {w : World} {cs : List Call} (h : Along callStep Effect w cs) :
    shown (run callStep w cs) = dequeRun w (shown w) cs := by
  induction cs generalizing w with
  | nil => rfl
  | cons c cs ih => rw [run_cons, ih h.2, h.1.refines, dequeRun]

/-- Memory outside the storage is never written. -/
theorem run_outside {w : World} (hr : Ready base size w) {cs : List Call}
    (hok : Along callStep Asserts w cs) {a : ℤ} (ha : a < base ∨ base + size ≤ a) :
    (run callStep w cs).store.mem a = w.store.mem a := by
  have hstep : ∀ v c, Ready base size v ∧ v.store.mem a = w.store.mem a → Asserts v c →
      Ready base size (callStep v c) ∧ (callStep v c).store.mem a = w.store.mem a := by
    rintro v c ⟨hv, hsame⟩ hc
    have hin := ownWindow_inside hv hc
    have hframe := (call_performs hv hc).1.frame a (by omega)
    exact ⟨callStep_ready hv hc, hframe.trans hsame⟩
  exact (run_invariant hstep ⟨hr, rfl⟩ hok).2

/-- The operation of the call only moves the borders of the window. -/
def OnlyMoves (w : World) (c : Call) : Prop := Deque.OnlyMoves (dequeCmd w.store.mem c)

lemma run_storage {w : World} {cs : List Call} (h : Along callStep Effect w cs)
    (hmoves : Along callStep OnlyMoves w cs) :
    (contents (run callStep w cs).store).storage = (contents w.store).storage := by
  induction cs generalizing w with
  | nil => rfl
  | cons c cs ih =>
    have hstep : (shown (callStep w c)).window.storage = (shown w).window.storage := by
      rw [h.1.refines]
      exact Deque.storage_apply_of_onlyMoves _ hmoves.1
    rw [run_cons, ih h.2 hmoves.2]
    exact hstep

lemma run_places {w : World} {cs : List Call} (h : Along callStep Effect w cs) :
    ∃ more, (shown (run callStep w cs)).places = (shown w).places ++ more := by
  induction cs generalizing w with
  | nil => exact ⟨[], (List.append_nil _).symm⟩
  | cons c cs ih =>
    obtain ⟨first, hfirst⟩ := (shown w).places_apply (dequeCmd w.store.mem c)
    obtain ⟨rest, hrest⟩ := ih h.2
    exact ⟨first ++ rest, by rw [run_cons, hrest, h.1.refines, hfirst, List.append_assoc]⟩

/-- What is saved can be restored after any calls that have not written: the
window comes back with the same data. -/
theorem restore_after_moves {w : World} (hr : Ready base size w) {cs : List Call}
    (hok : Along callStep Asserts (callStep w .save) cs)
    (hmoves : Along callStep OnlyMoves (callStep w .save) cs) :
    contents (callStep (run callStep (callStep w .save) cs) (.restore w.saved.length)).store =
      contents w.store := by
  have hsave : shown (callStep w .save) = (shown w).apply .save :=
    (call_performs hr (c := .save) trivial).1.refines
  have hstart : Ready base size (callStep w .save) := callStep_ready hr trivial
  have heffects := run_effects hstart hok
  have hstorage := run_storage heffects hmoves
  obtain ⟨more, hmore⟩ := run_places heffects
  rw [hsave] at hmore
  have hlen : Asserts (run callStep (callStep w .save) cs) (.restore w.saved.length) := by
    have hcount := congrArg List.length hmore
    simp only [shown, Deque.apply, List.length_append, List.length_map, List.length_singleton]
      at hcount
    rw [Asserts]
    omega
  have hback := (call_performs (run_ready hstart hok) hlen).1.refines
  have hkept := Deque.restore_saved (shown w) (shown (run callStep (callStep w .save) cs)) hstorage
    hmore
  have hcount : (shown w).places.length = w.saved.length := List.length_map _
  rw [hcount] at hkept
  exact (congrArg Deque.window hback).trans hkept

end Runs

/-- A buffer object as the definition macros leave it: over a storage of its
own, or with the storage behind the object and `__buf` still NULL. -/
def Defined (b : BufSimple) (addr base : ℤ) (size : ℕ) : Prop :=
  b = bufSimpleDefine base size ∨ (b = bufSimpleOnStack size ∧ base = addr + sizeofBufSimple)

lemma init_defined {mem : Memory} {b : BufSimple} {addr base : ℤ} {size reserve : ℕ}
    (hb : Defined b addr base size) (hbase : base ≠ 0) (hsize : size < 2 ^ 16)
    (hreserve : reserve ≤ size) :
    Placed (bufSimpleInit ⟨mem, b, addr⟩ reserve).buf base size reserve 0 := by
  have hstart : (bufSimpleInit ⟨mem, b, addr⟩ reserve).buf.bufStart = base := by
    rcases hb with rfl | ⟨rfl, rfl⟩
    · simp [bufSimpleInit, bufSimpleDefine, hbase]
    · simp [bufSimpleInit, bufSimpleOnStack]
  have hbytes : (bufSimpleInit ⟨mem, b, addr⟩ reserve).buf.size = size := by
    rcases hb with rfl | ⟨rfl, rfl⟩ <;> rfl
  have hdata : (bufSimpleInit ⟨mem, b, addr⟩ reserve).buf.data =
      (bufSimpleInit ⟨mem, b, addr⟩ reserve).buf.bufStart + reserve := rfl
  exact ⟨hstart, hbytes, by rw [hdata, hstart], rfl, by omega, hsize⟩

/-- A simple buffer over any storage of at most 65535 bytes, initialised with any
reserve that fits, is a deque of bytes under any calls whose assertions hold. Each
call performs its operation on the deque, returns what the operation names, and
writes in its own window only; so the window and the saved places shown at the
end are those of the deque. The storage does not move or change size, the three
parts of it add up without wrapping, and no other memory is written. -/
theorem buf_simple_refines_deque (mem : Memory) (b : BufSimple) (addr base : ℤ)
    (size reserve : ℕ) (calls : List Call) (hb : Defined b addr base size) (hbase : base ≠ 0)
    (hsize : size ≤ 65535) (hreserve : reserve ≤ size)
    (hok : Along callStep Asserts ⟨bufSimpleInit ⟨mem, b, addr⟩ reserve, []⟩ calls) :
    let start : World := ⟨bufSimpleInit ⟨mem, b, addr⟩ reserve, []⟩
    let final := run callStep start calls
    let empty : Window Byte :=
      ⟨readBytes mem base reserve, [], readBytes mem (base + reserve) (size - reserve)⟩
    Along callStep Effect start calls ∧
      shown final = dequeRun start ⟨empty, []⟩ calls ∧
      final.store.buf.bufStart = base ∧ final.store.buf.size = size ∧
      bufSimpleHeadroom final.store.buf + final.store.buf.len +
        bufSimpleTailroom final.store.buf = size ∧
      bufSimpleMaxLen final.store.buf =
        final.store.buf.len + bufSimpleTailroom final.store.buf ∧
      ∀ a, a < base ∨ base + size ≤ a → final.store.mem a = mem a := by
  intro start final empty
  have hplaced : Placed start.store.buf base size reserve 0 :=
    init_defined hb hbase (by omega) hreserve
  have hready : Ready base size start :=
    ⟨hbase, ⟨reserve, 0, hplaced⟩, fun state hs => absurd hs List.not_mem_nil⟩
  have heffects := run_effects hready hok
  have hempty : shown start = ⟨empty, []⟩ := by
    rw [shown, hplaced.contents]
    simp [view, readBytes, empty, start, bufSimpleInit]
  obtain ⟨i, n, h⟩ := (run_ready hready hok).placed
  have hfits := h.fits
  refine ⟨heffects, ?_, h.start, h.bytes, ?_, ?_, fun a ha => run_outside hready hok ha⟩
  · rw [← hempty]
    exact run_shown heffects
  · rw [h.headroom, h.len, h.tailroom]
    omega
  · rw [h.maxLen, h.len, h.tailroom]
    omega

/-- Eight bytes of zeroed storage with two bytes of headroom, as the stack macro
defines them, and a mix of calls at both ends. -/
def sampleStart : World := ⟨bufSimpleInit ⟨fun _ => 0, bufSimpleOnStack 8, 0x20000000⟩ 2, []⟩

def sampleCalls : List Call :=
  [.addTyped .w16 .le 0x1234, .pushU8 0xAB, .save, .pullTyped .w16 .be, .restore 0, .removeU8]

theorem sample_refines :
    Along callStep Effect sampleStart sampleCalls ∧
      (contents (run callStep sampleStart sampleCalls).store).body = [0xAB, 0x34] := by
  have hok : Along callStep Asserts sampleStart sampleCalls :=
    ⟨Nat.le_of_ble_eq_true rfl, Nat.le_of_ble_eq_true rfl, trivial, Nat.le_of_ble_eq_true rfl,
      Nat.le_of_ble_eq_true rfl, Nat.le_of_ble_eq_true rfl, trivial⟩
  have h := buf_simple_refines_deque (fun _ => 0) (bufSimpleOnStack 8) 0x20000000
    (0x20000000 + sizeofBufSimple) 8 2 sampleCalls (Or.inr ⟨rfl, rfl⟩) (by decide) (by decide)
    (by decide) hok
  refine ⟨h.1, ?_⟩
  exact (congrArg (fun d => d.window.body) h.2.1).trans rfl

/-- A header that is pulled off comes back with the saved state. -/
theorem sample_restored :
    contents (callStep (run callStep (callStep
        (callStep sampleStart (.addTyped .w16 .le 0x1234)) .save) [.pullTyped .w16 .be])
        (.restore 0)).store =
      contents (callStep sampleStart (.addTyped .w16 .le 0x1234)).store := by
  have hplaced : Placed sampleStart.store.buf (0x20000000 + sizeofBufSimple) 8 2 0 :=
    init_defined (Or.inr ⟨rfl, rfl⟩) (by decide) (by decide) (by decide)
  have hstart : Ready (0x20000000 + sizeofBufSimple) 8 sampleStart :=
    ⟨by decide, ⟨2, 0, hplaced⟩, fun state hs => absurd hs List.not_mem_nil⟩
  exact restore_after_moves (callStep_ready hstart (Nat.le_of_ble_eq_true rfl))
    ⟨Nat.le_of_ble_eq_true rfl, trivial⟩ ⟨trivial, trivial⟩

end WchIotSdk.Buf
