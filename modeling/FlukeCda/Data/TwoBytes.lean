import Mathlib.Data.Nat.Bitwise

namespace TwoBytes

/-- A number put together from two byte registers, of which the upper one has
only so many bits that count. -/
def join (bits high low : Nat) : Nat := (high % 2 ^ bits) * 256 + low

theorem mask_low (word : Nat) : word &&& 0xff = word % 256 := Nat.and_two_pow_sub_one_eq_mod word 8

theorem mask_high (word : Nat) : (word &&& 0xff00) >>> 8 = word / 256 % 256 := by
  rw [Nat.shiftRight_and_distrib, Nat.shiftRight_eq_div_pow]
  exact mask_low (word / 256)

/-- Joining by shift and disjunction is joining by sum, as the lower byte is
below the shifted one. -/
theorem shift_or_low {low : Nat} (byte : low < 256) (high : Nat) : (high <<< 8) ||| low = high * 256 + low := by
  rw [← Nat.shiftLeft_add_eq_or_of_lt byte, Nat.shiftLeft_eq]

theorem join_masked {low : Nat} (byte : low < 256) (bits high : Nat) :
    ((high &&& (2 ^ bits - 1)) <<< 8) ||| low = join bits high low := by
  rw [Nat.and_two_pow_sub_one_eq_mod, shift_or_low byte]
  rfl

/-- What is read back of a number written as two bytes. -/
theorem join_split {bits : Nat} (narrow : bits ≤ 8) (word : Nat) :
    join bits (word / 256 % 256) (word % 256) = word % 2 ^ (bits + 8) := by
  have divides : 2 ^ bits ∣ 256 := pow_dvd_pow 2 narrow
  have scale : 2 ^ (bits + 8) = 256 * 2 ^ bits := by rw [pow_add, Nat.mul_comm]; rfl
  rw [join, Nat.mod_mod_of_dvd _ divides, scale, Nat.mod_mul]
  omega

end TwoBytes
