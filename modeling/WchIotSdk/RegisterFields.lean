import Mathlib.Tactic
import Mathlib.Data.BitVec

/-!
# Fields of a register

A mask selects a field. Writing a field gives it the selected bits of a value and
leaves fields that do not overlap it alone. Setting and clearing bits are writes of
the field they make up.
-/
namespace WchIotSdk.RegisterFields

variable {w : ℕ}

/-- The bits that the mask selects. -/
def field (mask reg : BitVec w) : BitVec w := reg &&& mask

def writeField (mask reg value : BitVec w) : BitVec w := (reg &&& ~~~mask) ||| (value &&& mask)

/-- The fields do not overlap. -/
def Apart (mask mask' : BitVec w) : Prop := mask &&& mask' = 0#w

instance (mask mask' : BitVec w) : Decidable (Apart mask mask') :=
  inferInstanceAs (Decidable (_ = _))

lemma getLsbD_writeField (mask reg value : BitVec w) (i : ℕ) :
    (writeField mask reg value).getLsbD i =
      if mask.getLsbD i then value.getLsbD i else reg.getLsbD i := by
  rw [writeField, BitVec.getLsbD_or, BitVec.getLsbD_and, BitVec.getLsbD_and, BitVec.getLsbD_not]
  by_cases hi : i < w
  · cases mask.getLsbD i <;> simp [hi]
  · simp [BitVec.getLsbD_of_ge _ i (Nat.le_of_not_lt hi)]

@[simp] theorem field_writeField (mask reg value : BitVec w) :
    field mask (writeField mask reg value) = field mask value := by
  apply BitVec.eq_of_getLsbD_eq
  intro i _
  rw [field, field, BitVec.getLsbD_and, BitVec.getLsbD_and, getLsbD_writeField]
  cases mask.getLsbD i <;> simp

theorem field_writeField_of_apart {mask mask' : BitVec w} (h : Apart mask mask')
    (reg value : BitVec w) : field mask (writeField mask' reg value) = field mask reg := by
  apply BitVec.eq_of_getLsbD_eq
  intro i _
  have hbit := congrArg (fun v => v.getLsbD i) h
  simp only [BitVec.getLsbD_and, BitVec.getLsbD_zero] at hbit
  rw [field, field, BitVec.getLsbD_and, BitVec.getLsbD_and, getLsbD_writeField]
  cases hm : mask.getLsbD i
  · simp
  · rw [hm, Bool.true_and] at hbit
    simp [hbit]

theorem or_eq_writeField (reg bits : BitVec w) : reg ||| bits = writeField bits reg bits := by
  apply BitVec.eq_of_getLsbD_eq
  intro i _
  rw [BitVec.getLsbD_or, getLsbD_writeField]
  cases bits.getLsbD i <;> simp

theorem and_not_eq_writeField (reg bits : BitVec w) :
    reg &&& ~~~bits = writeField bits reg 0#w := by
  rw [writeField, BitVec.zero_and, BitVec.or_zero]

/-- Setting the bits, or clearing them. -/
theorem setOrClear_eq_writeField (reg bits : BitVec w) (enable : Bool) :
    (if enable then reg ||| bits else reg &&& ~~~bits) =
      writeField bits reg (if enable then bits else 0#w) := by
  cases enable with
  | true => exact or_eq_writeField reg bits
  | false => exact and_not_eq_writeField reg bits

end WchIotSdk.RegisterFields
