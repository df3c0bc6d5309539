import WchIotSdk.BufDeque

/-!
# Round trips of the typed buffer accessors

What is put into a buffer goes through the byte-wise `sys_put_*`, what is taken
out through a load and a swap. At each end of the data the two are inverse, in
either order; and a value taken out is the one that the byte-wise `sys_get_*`
would read.
-/
namespace WchIotSdk.Buf
open ByteDigits ByteMemory ByteOrder

section RoundTrips

variable {s : Store} {base : ℤ} {size i n : ℕ}

theorem Placed.unique {b b' : BufSimple} (h : Placed b base size i n)
    (h' : Placed b' base size i n) : b = b' := by
  cases b
  cases b'
  have hdata := h.data.trans h'.data.symm
  have hlen := h.len.trans h'.len.symm
  have hsize := h.bytes.trans h'.bytes.symm
  have hstart := h.start.trans h'.start.symm
  simp only at hdata hlen hsize hstart
  rw [hdata, hlen, hsize, hstart]

lemma bufSimpleAddTyped_mem (w : Width) (o : Order) (s : Store) (val : BitVec w.carrier) :
    (bufSimpleAddTyped w o s val).mem =
      writeBytes s.mem (bufSimpleTail s.buf) (o.bytes w.bytes val.toNat) := sysPut_eq _ _ _ _ _

lemma bufSimplePushTyped_mem (w : Width) (o : Order) (s : Store) (val : BitVec w.carrier) :
    (bufSimplePushTyped w o s val).mem =
      writeBytes s.mem (s.buf.data - w.bytes) (o.bytes w.bytes val.toNat) := sysPut_eq _ _ _ _ _

/-- The value taken out at the front is read at the data pointer. -/
lemma bufSimplePullTyped_value (w : Width) (o : Order) (s : Store) :
    (bufSimplePullTyped w o s).2.toNat = o.value (readBytes s.mem s.buf.data w.bytes) :=
  toCpu_unalignedGet_toNat w o s.mem s.buf.data

/-- The value taken out at the back is read behind the data left. -/
lemma bufSimpleRemoveTyped_value (h : Placed s.buf base size i n) (w : Width) (o : Order)
    (hw : w.bytes ≤ n) :
    (bufSimpleRemoveTyped w o s).2.toNat =
      o.value (readBytes s.mem (base + ((i + n - w.bytes : ℕ) : ℤ)) w.bytes) := by
  rw [← h.removeMem_ptr hw]
  exact toCpu_unalignedGet_toNat w o s.mem _

/-- The pulled value is the one the byte-wise helper reads, as a word. -/
theorem bufSimplePullTyped_eq_sysGet (w : Width) (o : Order) (s : Store) :
    (bufSimplePullTyped w o s).2 = sysGet w o s.mem s.buf.data := by
  apply BitVec.eq_of_toNat_eq
  rw [bufSimplePullTyped_value, sysGet_toNat]

theorem bufSimpleRemoveTyped_eq_sysGet (h : Placed s.buf base size i n) (w : Width) (o : Order)
    (hw : w.bytes ≤ n) :
    (bufSimpleRemoveTyped w o s).2 = sysGet w o s.mem (bufSimpleTail s.buf - w.bytes) := by
  apply BitVec.eq_of_toNat_eq
  have hptr : bufSimpleTail s.buf - w.bytes = base + ((i + n - w.bytes : ℕ) : ℤ) := by
    rw [h.tail]
    omega
  rw [bufSimpleRemoveTyped_value h w o hw, sysGet_toNat, hptr]

/-- The bytes just added are the last of the data. -/
lemma readBytes_addTyped (h : Placed s.buf base size i n) (w : Width) (o : Order)
    (val : BitVec w.carrier) :
    readBytes (bufSimpleAddTyped w o s val).mem
      (base + ((i + (n + w.bytes) - w.bytes : ℕ) : ℤ)) w.bytes = o.bytes w.bytes val.toNat := by
  have hptr : base + ((i + (n + w.bytes) - w.bytes : ℕ) : ℤ) = base + i + n := by
    omega
  have hread := readBytes_writeBytes s.mem (base + i + n) (o.bytes w.bytes val.toNat)
  rw [Order.length_bytes] at hread
  rw [hptr, bufSimpleAddTyped_mem, h.tail, hread]

lemma readBytes_pushTyped (w : Width) (o : Order) (s : Store) (val : BitVec w.carrier) :
    readBytes (bufSimplePushTyped w o s val).mem (bufSimplePushTyped w o s val).buf.data w.bytes =
      o.bytes w.bytes val.toNat := by
  have hread := readBytes_writeBytes s.mem (s.buf.data - w.bytes) (o.bytes w.bytes val.toNat)
  rw [Order.length_bytes] at hread
  rw [bufSimplePushTyped_mem]
  exact hread

/-- Removing what has been added: the value comes back, from the wrong end
reversed, and nothing but the tailroom it lay in has changed. -/
theorem remove_addTyped (h : Placed s.buf base size i n) (w : Width) (o : Order)
    (val : BitVec w.carrier) (hroom : w.bytes ≤ size - i - n) :
    (bufSimpleRemoveTyped w o (bufSimpleAddTyped w o s val)).2.toNat =
        val.toNat % 256 ^ w.bytes ∧
      (bufSimpleRemoveTyped w o.flip (bufSimpleAddTyped w o s val)).2.toNat =
        byteReverse w.bytes val.toNat ∧
      (bufSimpleRemoveTyped w o (bufSimpleAddTyped w o s val)).1.buf = s.buf ∧
      ∀ a, a < bufSimpleTail s.buf ∨ bufSimpleTail s.buf + w.bytes ≤ a →
        (bufSimpleRemoveTyped w o (bufSimpleAddTyped w o s val)).1.mem a = s.mem a := by
  have hadded : Placed (bufSimpleAddTyped w o s val).buf base size i (n + w.bytes) := h.add hroom
  have hle : w.bytes ≤ n + w.bytes := Nat.le_add_left _ _
  have hback := hadded.removeMem hle
  rw [Nat.add_sub_cancel] at hback
  refine ⟨?_, ?_, hback.unique h, fun a ha => ?_⟩
  · rw [bufSimpleRemoveTyped_value hadded w o hle, readBytes_addTyped h, Order.value_bytes]
  · rw [bufSimpleRemoveTyped_value hadded w o.flip hle, readBytes_addTyped h,
      Order.value_flip_bytes]
  · show (bufSimpleAddTyped w o s val).mem a = s.mem a
    rw [bufSimpleAddTyped_mem]
    exact writeBytes_outside _ _ _ (by rwa [Order.length_bytes])

/-- Pulling what has been pushed. -/
theorem pull_pushTyped (h : Placed s.buf base size i n) (w : Width) (o : Order)
    (val : BitVec w.carrier) (hroom : w.bytes ≤ i) :
    (bufSimplePullTyped w o (bufSimplePushTyped w o s val)).2.toNat =
        val.toNat % 256 ^ w.bytes ∧
      (bufSimplePullTyped w o.flip (bufSimplePushTyped w o s val)).2.toNat =
        byteReverse w.bytes val.toNat ∧
      (bufSimplePullTyped w o (bufSimplePushTyped w o s val)).1.buf = s.buf ∧
      ∀ a, a < s.buf.data - w.bytes ∨ s.buf.data ≤ a →
        (bufSimplePullTyped w o (bufSimplePushTyped w o s val)).1.mem a = s.mem a := by
  have hpushed : Placed (bufSimplePushTyped w o s val).buf base size (i - w.bytes) (n + w.bytes) :=
    h.push hroom
  have hback := hpushed.pull (Nat.le_add_left w.bytes n)
  rw [Nat.add_sub_cancel, Nat.sub_add_cancel hroom] at hback
  refine ⟨?_, ?_, hback.unique h, fun a ha => ?_⟩
  · rw [bufSimplePullTyped_value, readBytes_pushTyped, Order.value_bytes]
  · rw [bufSimplePullTyped_value, readBytes_pushTyped, Order.value_flip_bytes]
  · show (bufSimplePushTyped w o s val).mem a = s.mem a
    rw [bufSimplePushTyped_mem]
    exact writeBytes_outside _ _ _ (by rw [Order.length_bytes]; omega)

/-- Adding again what has been removed restores the store. -/
theorem add_removeTyped (h : Placed s.buf base size i n) (w : Width) (o : Order)
    (hlen : w.bytes ≤ n) :
    bufSimpleAddTyped w o (bufSimpleRemoveTyped w o s).1 (bufSimpleRemoveTyped w o s).2 = s := by
  have hremoved : Placed (bufSimpleRemoveTyped w o s).1.buf base size i (n - w.bytes) :=
    h.removeMem hlen
  have hfits := h.fits
  have hback := hremoved.add (x := w.bytes) (by omega)
  rw [Nat.sub_add_cancel hlen] at hback
  have hptr : bufSimpleTail (bufSimpleRemoveTyped w o s).1.buf =
      base + ((i + n - w.bytes : ℕ) : ℤ) := by
    rw [hremoved.tail]
    omega
  have hmem : (bufSimpleAddTyped w o (bufSimpleRemoveTyped w o s).1
      (bufSimpleRemoveTyped w o s).2).mem = s.mem := by
    rw [bufSimpleAddTyped_mem, hptr, bufSimpleRemoveTyped_value h w o hlen,
      Order.bytes_value o (length_readBytes _ _ _)]
    exact writeBytes_readBytes s.mem _ _
  have hbuf : (bufSimpleAddTyped w o (bufSimpleRemoveTyped w o s).1
      (bufSimpleRemoveTyped w o s).2).buf = s.buf := hback.unique h
  exact Store.ext hmem hbuf rfl

/-- Pushing again what has been pulled restores the store. -/
theorem push_pullTyped (h : Placed s.buf base size i n) (w : Width) (o : Order)
    (hlen : w.bytes ≤ n) :
    bufSimplePushTyped w o (bufSimplePullTyped w o s).1 (bufSimplePullTyped w o s).2 = s := by
  have hpulled : Placed (bufSimplePullTyped w o s).1.buf base size (i + w.bytes) (n - w.bytes) :=
    h.pull hlen
  have hback := hpulled.push (Nat.le_add_left w.bytes i)
  rw [Nat.sub_add_cancel hlen, Nat.add_sub_cancel] at hback
  have hptr : (bufSimplePullTyped w o s).1.buf.data - w.bytes = s.buf.data := by
    show s.buf.data + w.bytes - w.bytes = s.buf.data
    ring
  have hmem : (bufSimplePushTyped w o (bufSimplePullTyped w o s).1
      (bufSimplePullTyped w o s).2).mem = s.mem := by
    rw [bufSimplePushTyped_mem, hptr, bufSimplePullTyped_value,
      Order.bytes_value o (length_readBytes _ _ _)]
    exact writeBytes_readBytes s.mem _ _
  have hbuf : (bufSimplePushTyped w o (bufSimplePullTyped w o s).1
      (bufSimplePullTyped w o s).2).buf = s.buf := hback.unique h
  exact Store.ext hmem hbuf rfl

end RoundTrips

/-- For the functions of every width and byte order, every value, and every well
placed buffer that has the room or the data: what is added is removed and what is
pushed is pulled, modulo the width and with the buffer object and all other memory as
before; the opposite order gives the value with its bytes reversed; what is
removed or pulled can be put back exactly; and it is the value the byte-wise
helpers read. -/
theorem typed_round_trips (s : Store) (base : ℤ) (size i n : ℕ) (w : Width) (o : Order)
    (val : BitVec w.carrier) (h : Placed s.buf base size i n) :
    (w.bytes ≤ bufSimpleTailroom s.buf →
      (namedRemove w o (namedAdd w o s val)).2.toNat =
          val.toNat % 2 ^ (8 * w.bytes) ∧
        (namedRemove w o.flip (namedAdd w o s val)).2.toNat =
          byteReverse w.bytes val.toNat ∧
        (namedRemove w o (namedAdd w o s val)).1.buf = s.buf ∧
        ∀ a, a < bufSimpleTail s.buf ∨ bufSimpleTail s.buf + w.bytes ≤ a →
          (namedRemove w o (namedAdd w o s val)).1.mem a = s.mem a) ∧
    (w.bytes ≤ bufSimpleHeadroom s.buf →
      (namedPull w o (namedPush w o s val)).2.toNat =
          val.toNat % 2 ^ (8 * w.bytes) ∧
        (namedPull w o.flip (namedPush w o s val)).2.toNat =
          byteReverse w.bytes val.toNat ∧
        (namedPull w o (namedPush w o s val)).1.buf = s.buf ∧
        ∀ a, a < s.buf.data - w.bytes ∨ s.buf.data ≤ a →
          (namedPull w o (namedPush w o s val)).1.mem a = s.mem a) ∧
    (w.bytes ≤ s.buf.len →
      namedAdd w o (namedRemove w o s).1 (namedRemove w o s).2 = s ∧
        namedPush w o (namedPull w o s).1 (namedPull w o s).2 = s ∧
        (namedPull w o s).2 = sysGet w o s.mem s.buf.data ∧
        (namedRemove w o s).2 = sysGet w o s.mem (bufSimpleTail s.buf - w.bytes)) := by
  have hpow : 2 ^ (8 * w.bytes) = 256 ^ w.bytes := by
    rw [pow_mul]
    norm_num
  simp only [namedAdd_eq, namedRemove_eq, namedPush_eq, namedPull_eq]
  rw [h.tailroom, h.headroom, h.len, hpow]
  refine ⟨remove_addTyped h w o val, pull_pushTyped h w o val, fun hlen => ?_⟩
  exact ⟨add_removeTyped h w o hlen, push_pullTyped h w o hlen,
    bufSimplePullTyped_eq_sysGet w o s, bufSimpleRemoveTyped_eq_sysGet h w o hlen⟩

/-- A storage of eight bytes with three bytes of headroom and two of data. -/
def sampleStore : Store := ⟨fun a => BitVec.ofInt 8 a, ⟨0x20000003, 2, 8, 0x20000000⟩, 0⟩

lemma sampleStore_placed : Placed sampleStore.buf 0x20000000 8 3 2 :=
  ⟨rfl, rfl, rfl, rfl, by decide, by decide⟩

/-- A 24-bit value loses the top byte of its word, and comes back reversed from
the wrong end. -/
theorem sample_round_trip :
    (bufSimplePullBe24 (bufSimplePushBe24 sampleStore 0xAB123456)).2.toNat = 0x123456 ∧
      (bufSimplePullLe24 (bufSimplePushBe24 sampleStore 0xAB123456)).2.toNat = 0x563412 := by
  have h := (typed_round_trips sampleStore 0x20000000 8 3 2 .w24 .be 0xAB123456
    sampleStore_placed).2.1 (by decide)
  exact ⟨h.1, h.2.1⟩

end WchIotSdk.Buf
