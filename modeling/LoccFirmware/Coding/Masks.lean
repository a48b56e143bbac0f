import Mathlib.Data.List.Basic

/-!
# Bit Masks of an 8-bit Register

Setting the bits of a mask (`x ||| m`) and clearing them (`x &&& ~~~m`), seen
through a mask: the mask that was written, or one that shares no bit with it.
-/

namespace LoccFirmware.Coding

section Masks

variable (x m : UInt8)

theorem or_and_self_mask : (x ||| m) &&& m = m := by
  apply UInt8.eq_of_toBitVec_eq
  ext i hi
  simp only [UInt8.toBitVec_and, UInt8.toBitVec_or, BitVec.getElem_and, BitVec.getElem_or]
  cases m.toBitVec[i] <;> simp

theorem andNot_and_self_mask : x &&& ~~~m &&& m = 0 := by
  apply UInt8.eq_of_toBitVec_eq
  ext i hi
  simp only [UInt8.toBitVec_and, UInt8.toBitVec_not, BitVec.getElem_and, BitVec.getElem_not]
  cases m.toBitVec[i] <;> simp

theorem or_or_self_mask : x ||| m ||| m = x ||| m := by
  rw [UInt8.or_assoc, UInt8.or_self]

theorem andNot_or_self_mask : x &&& ~~~m ||| m = x ||| m := by
  apply UInt8.eq_of_toBitVec_eq
  ext i hi
  simp only [UInt8.toBitVec_and, UInt8.toBitVec_or, UInt8.toBitVec_not, BitVec.getElem_and,
    BitVec.getElem_or, BitVec.getElem_not]
  cases m.toBitVec[i] <;> simp

theorem or_andNot_self_mask : (x ||| m) &&& ~~~m = x &&& ~~~m := by
  apply UInt8.eq_of_toBitVec_eq
  ext i hi
  simp only [UInt8.toBitVec_and, UInt8.toBitVec_or, UInt8.toBitVec_not, BitVec.getElem_and,
    BitVec.getElem_or, BitVec.getElem_not]
  cases m.toBitVec[i] <;> simp

variable {m} {k : UInt8}

/-- Disjoint masks, bit by bit. -/
private theorem disjoint_getElem (h : m &&& k = 0) {i : ℕ} (hi : i < 8)
    (hm : m.toBitVec[i] = true) : k.toBitVec[i] = false := by
  have hbit := congrArg (fun z : UInt8 => z.toBitVec[i]) h
  simpa [hm] using hbit

theorem or_and_other_mask (h : m &&& k = 0) : (x ||| m) &&& k = x &&& k := by
  apply UInt8.eq_of_toBitVec_eq
  ext i hi
  simp only [UInt8.toBitVec_and, UInt8.toBitVec_or, BitVec.getElem_and, BitVec.getElem_or]
  cases hm : m.toBitVec[i] with
  | false => simp
  | true => simp [disjoint_getElem h hi hm]

theorem andNot_and_other_mask (h : m &&& k = 0) : x &&& ~~~m &&& k = x &&& k := by
  apply UInt8.eq_of_toBitVec_eq
  ext i hi
  simp only [UInt8.toBitVec_and, UInt8.toBitVec_not, BitVec.getElem_and, BitVec.getElem_not]
  cases hm : m.toBitVec[i] with
  | false => simp
  | true => simp [disjoint_getElem h hi hm]

end Masks

end LoccFirmware.Coding
