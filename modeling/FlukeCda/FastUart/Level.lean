import FlukeCda.FastUart.Source
import FlukeCda.Data.TwoBytes
import Mathlib.Order.Monotone.Basic

/-! # Reading a level that grows while it is read

`rx_fifo_level` alone against a FIFO that only fills: `level i` is the number of
bytes in it at the `i`th register read.
-/

namespace FlukeCda.FastUart
open Interaction Program

/-- How many registers have been read, and which of the reads was the last of
the least significant byte. -/
structure Sampling where
  next : Nat
  lsb : Nat

/-- The two level registers; `rx_fifo_level` asks for nothing else. -/
def sample (level : Nat → Nat) : (op : Op) → Sampling → Option (Answer op) × Sampling
  | .readFifoMsb, s => (some (level s.next / 256), { s with next := s.next + 1 })
  | .readFifoLsb, s => (some (level s.next % 256), ⟨s.next + 1, s.next⟩)
  | _, s => (none, s)

/-- The reading that ended at `s`: its value is the level of the last read of
the least significant byte, which no later level is below. -/
structure Sampled (level : Nat → Nat) (start : Sampling) (rounds value : Nat) (s : Sampling) : Prop where
  value_eq : value = level s.lsb
  started : start.next ≤ s.lsb
  last : s.next = s.lsb + 2
  ended : s.next ≤ start.next + 2 * rounds
  below : ∀ later, s.lsb ≤ later → value ≤ level later

/-- A number between two that agree in the upper byte has that upper byte too. -/
theorem msb_between {low mid high : Nat} (first : low ≤ mid) (second : mid ≤ high)
    (same : low / 256 = high / 256) : mid / 256 = high / 256 := by
  have up := Nat.div_le_div_right (c := 256) first
  have down := Nat.div_le_div_right (c := 256) second
  omega

theorem join_registers {level : Nat} (small : level < 2 ^ 16) :
    ((level / 256 &&& 0xff) <<< 8) ||| (level % 256 &&& 0xff) = level := by
  have byte : level % 256 &&& 0xff < 256 := Nat.lt_of_le_of_lt Nat.and_le_right (by decide)
  have low : level % 256 &&& 0xff = level % 256 := by rw [TwoBytes.mask_low, Nat.mod_mod]
  have joined : ((level / 256 &&& 0xff) <<< 8) ||| (level % 256 &&& 0xff) =
      TwoBytes.join 8 (level / 256) (level % 256 &&& 0xff) := TwoBytes.join_masked byte 8 (level / 256)
  rw [joined, low, TwoBytes.join]
  omega

section
variable {level : Nat → Nat} (grows : Monotone level) (small : ∀ i, level i < 2 ^ 16)
include grows small

/-- Every round that goes on has seen a larger upper byte, of which there are
only so many: the watch on the loop never runs out. -/
theorem rxFifoLevelFrom_sampled (rounds : Nat) (s : Sampling) (old : Nat) (read : old < s.next)
    (enough : 256 < level old / 256 + rounds) :
    ∃ value t, (rxFifoLevelFrom rounds (level old / 256)).run (sample level) s = (some value, t) ∧
      Sampled level s (256 - level old / 256) value t := by
  have byte : ∀ i, level i / 256 < 256 := fun i => Nat.div_lt_of_lt_mul (small i)
  induction rounds generalizing s old with
  | zero => exact absurd (byte old) (by omega)
  | succ rounds ih =>
    have first : level old ≤ level s.next := grows (by omega)
    have second : level s.next ≤ level (s.next + 1) := grows (by omega)
    have bound := byte old
    by_cases same : level old / 256 = level (s.next + 1) / 256
    · refine ⟨level s.next, ⟨s.next + 2, s.next⟩, ?_, rfl, le_rfl, rfl, ?_, fun later after => grows after⟩
      · have upper := msb_between first second same
        simp only [rxFifoLevelFrom, readFifoLsb, readFifoMsb, perform_bind, run, sample, if_pos same, run_pure]
        rw [← upper, join_registers (small s.next)]
      · show s.next + 2 ≤ s.next + 2 * _
        omega
    · have larger : level old / 256 < level (s.next + 1) / 256 :=
        lt_of_le_of_ne (Nat.div_le_div_right (first.trans second)) same
      obtain ⟨value, t, ran, done⟩ := ih ⟨s.next + 2, s.next⟩ (s.next + 1) (by simp) (by omega)
      refine ⟨value, t, ?_, done.value_eq, ?_, done.last, ?_, done.below⟩
      · simp only [rxFifoLevelFrom, readFifoLsb, readFifoMsb, perform_bind, run, sample, if_neg same]
        exact ran
      · have started := done.started
        simp only at started
        omega
      · have ended := done.ended
        simp only at ended
        omega

/-- Whatever arrives between the reads, the loop ends and returns the level as
it was when the least significant byte was last read. -/
theorem rxFifoLevel_sampled (s : Sampling) :
    ∃ value t, rxFifoLevel.run (sample level) s = (some value, t) ∧
      Sampled level ⟨s.next + 1, s.lsb⟩ 256 value t := by
  obtain ⟨value, t, ran, done⟩ :=
    rxFifoLevelFrom_sampled grows small 257 ⟨s.next + 1, s.lsb⟩ s.next (by simp) (by omega)
  refine ⟨value, t, ?_, done.value_eq, done.started, done.last, ?_, done.below⟩
  · simp only [rxFifoLevel, readFifoMsb, perform_bind, run, sample]
    exact ran
  · have ended := done.ended
    omega

end

/-- A carry between the two registers: 255 bytes at the first read, one more at each later one. -/
theorem rxFifoLevel_carry :
    ∃ value t, rxFifoLevel.run (sample fun i => min (255 + i) 300) ⟨0, 0⟩ = (some value, t) ∧
      Sampled (fun i => min (255 + i) 300) ⟨1, 0⟩ 256 value t :=
  have grows : Monotone fun i => min (255 + i) 300 := fun i j le => show min _ _ ≤ min _ _ by omega
  have small : ∀ i, min (255 + i) 300 < 2 ^ 16 := fun i => by omega
  rxFifoLevel_sampled grows small ⟨0, 0⟩

end FlukeCda.FastUart
