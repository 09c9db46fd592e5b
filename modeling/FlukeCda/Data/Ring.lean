import Mathlib.Data.Fin.Basic
import Mathlib.Data.Nat.ModEq
import Mathlib.Logic.Function.Basic

namespace Ring

section
variable {n : Nat} [NeZero n] {α : Type}

/-- The cell an offset from the front of a circular array lands in. -/
def slot (n : Nat) [NeZero n] (front offset : Nat) : Fin n := Fin.ofNat n (front + offset)

theorem slot_val (front offset : Nat) : (slot n front offset).val = (front + offset) % n := rfl

theorem slot_mod (front offset : Nat) : slot n (front % n) offset = slot n front offset := by
  apply Fin.ext
  rw [slot_val, slot_val, Nat.mod_add_mod]

theorem slot_succ (front offset : Nat) : slot n (front + 1) offset = slot n front (offset + 1) := by
  apply Fin.ext
  rw [slot_val, slot_val, Nat.add_right_comm, Nat.add_assoc]

/-- Offsets below the capacity never meet. -/
theorem slot_injective {front i j : Nat} (hi : i < n) (hj : j < n) (same : slot n front i = slot n front j) :
    i = j := by
  have residues : (front + i) % n = (front + j) % n := congrArg Fin.val same
  have offsets : i % n = j % n := Nat.ModEq.add_left_cancel' front residues
  rwa [Nat.mod_eq_of_lt hi, Nat.mod_eq_of_lt hj] at offsets

/-- The array holds these items in order, the first one at the front. -/
def Holds (cells : Fin n → α) (front : Nat) (items : List α) : Prop :=
  ∀ i, (h : i < items.length) → cells (slot n front i) = items[i]

theorem Holds.nil (cells : Fin n → α) (front : Nat) : Holds cells front [] :=
  fun _ h => absurd h (Nat.not_lt_zero _)

theorem Holds.mod_iff {cells : Fin n → α} {front : Nat} {items : List α} :
    Holds cells (front % n) items ↔ Holds cells front items := by
  simp only [Holds, slot_mod]

/-- Storing behind the last item appends it, and overwrites no other. -/
theorem Holds.push {cells : Fin n → α} {front : Nat} {items : List α} (holds : Holds cells front items)
    (room : items.length < n) (x : α) :
    Holds (Function.update cells (slot n front items.length) x) front (items ++ [x]) := by
  intro i hi
  rw [List.length_append, List.length_singleton] at hi
  rcases Nat.lt_succ_iff_lt_or_eq.mp hi with earlier | rfl
  · have apart : slot n front i ≠ slot n front items.length := by
      intro same
      have := slot_injective (by omega) room same
      omega
    rw [Function.update_of_ne apart, List.getElem_append_left earlier]
    exact holds i earlier
  · rw [Function.update_self, List.getElem_concat_length]
    rfl

theorem Holds.head {cells : Fin n → α} {front : Nat} {x : α} {items : List α}
    (holds : Holds cells front (x :: items)) :
    cells (slot n front 0) = x :=
  holds 0 (Nat.succ_pos _)

/-- Moving the front one cell on drops the first item. -/
theorem Holds.pop {cells : Fin n → α} {front : Nat} {x : α} {items : List α}
    (holds : Holds cells front (x :: items)) :
    Holds cells (front + 1) items := by
  intro i hi
  rw [slot_succ]
  exact holds (i + 1) (Nat.succ_lt_succ hi)

end
end Ring
