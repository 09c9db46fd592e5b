import Mathlib.Data.UInt

/-! # Bits under a mask

A byte of which the bits under a mask are replaced, and the others kept.
-/

namespace Bits

theorem or_and_distrib (a b c : UInt8) : (a ||| b) &&& c = (a &&& c) ||| (b &&& c) :=
  UInt8.toBitVec_inj.mp BitVec.and_or_distrib_right

theorem and_or_not (a b : UInt8) : (a &&& b) ||| (a &&& ~~~b) = a := by
  apply UInt8.toBitVec_inj.mp
  ext i inside
  simp only [UInt8.toBitVec_or, UInt8.toBitVec_and, UInt8.toBitVec_not, BitVec.getElem_or, BitVec.getElem_and,
    BitVec.getElem_not]
  cases a.toBitVec[i] <;> simp

/-- Setting all the bits of a mask. -/
theorem replaced_same (x mask : UInt8) : ((x &&& ~~~mask) ||| (mask &&& mask)) &&& mask = mask := by
  rw [or_and_distrib, UInt8.and_assoc, UInt8.not_and_self, UInt8.and_zero, UInt8.zero_or, UInt8.and_self, UInt8.and_self]

theorem replaced_zero (x mask : UInt8) : ((x &&& ~~~mask) ||| (mask &&& 0)) &&& mask = 0 := by
  rw [UInt8.and_zero, UInt8.or_zero, UInt8.and_assoc, UInt8.not_and_self, UInt8.and_zero]

theorem not_and_of_apart {mask other : UInt8} (apart : mask &&& other = 0) : ~~~mask &&& other = other := by
  calc ~~~mask &&& other = (mask &&& other) ||| (~~~mask &&& other) := by rw [apart, UInt8.zero_or]
    _ = other := by rw [← or_and_distrib, UInt8.or_not_self, UInt8.neg_one_and]

/-- Bits outside a mask stay as they are. -/
theorem replaced_apart {x mask other : UInt8} (bits : UInt8) (apart : mask &&& other = 0) :
    ((x &&& ~~~mask) ||| (mask &&& bits)) &&& other = x &&& other := by
  rw [or_and_distrib, UInt8.and_assoc, not_and_of_apart apart, UInt8.and_comm mask bits, UInt8.and_assoc, apart,
    UInt8.and_zero, UInt8.or_zero]

end Bits
