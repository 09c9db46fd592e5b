import Mathlib.Algebra.BigOperators.Group.Finset.Piecewise
import Mathlib.Algebra.BigOperators.Group.Multiset.Basic
import Mathlib.Algebra.Order.Group.Multiset
import Mathlib.Algebra.Order.BigOperators.Group.Finset
import Mathlib.Data.Fintype.Card
import Mathlib.Tactic.Abel

/-! # Counted references

A table of keys that counts the references to each, against the slots that hold
them. What both stand for is the multiset of the keys referred to.
-/

namespace References

section Held
variable {ι κ : Type}

/-- What one slot refers to. -/
def single : Option κ → Multiset κ
  | none => 0
  | some k => {k}

@[simp] theorem single_none : single (none : Option κ) = 0 := rfl

@[simp] theorem single_some (k : κ) : single (some k) = {k} := rfl

/-- The references that all slots hold together. -/
def held [Fintype ι] (slots : ι → Option κ) : Multiset κ := ∑ i, single (slots i)

/-- A slot that is written gives one reference up for another. -/
theorem held_update [Fintype ι] [DecidableEq ι] (slots : ι → Option κ) (i : ι) (value : Option κ) :
    held (Function.update slots i value) + single (slots i) = held slots + single value := by
  have others : ∑ j ∈ Finset.univ.erase i, single (Function.update slots i value j) =
      ∑ j ∈ Finset.univ.erase i, single (slots j) :=
    Finset.sum_congr rfl fun j member =>
      congrArg single (Function.update_of_ne (Finset.ne_of_mem_erase member) value slots)
  unfold held
  rw [← Finset.add_sum_erase _ _ (Finset.mem_univ i), ← Finset.add_sum_erase (a := i) _ (fun i => single (slots i))
    (Finset.mem_univ i), others, Function.update_self]
  abel

/-- A slot refers to one key at most. -/
theorem card_held_le [Fintype ι] (slots : ι → Option κ) : (held slots).card ≤ Fintype.card ι := by
  unfold held
  rw [Multiset.card_sum, ← Finset.card_univ, Finset.card_eq_sum_ones]
  refine Finset.sum_le_sum fun i _ => ?_
  cases slots i with
  | none => exact Nat.zero_le 1
  | some k => exact Nat.le_refl 1

theorem mem_held [Fintype ι] {slots : ι → Option κ} {k : κ} : k ∈ held slots ↔ ∃ i, slots i = some k := by
  unfold held
  rw [Multiset.mem_sum]
  constructor
  · rintro ⟨i, -, member⟩
    refine ⟨i, ?_⟩
    cases here : slots i with
    | none => simp [here] at member
    | some k' =>
      rw [here, single_some, Multiset.mem_singleton] at member
      rw [member]
  · rintro ⟨i, here⟩
    exact ⟨i, Finset.mem_univ i, by simp [here]⟩

end Held

section Table
variable {κ ε : Type} (key : ε → κ) (count : ε → Nat)

/-- The references that a table counts. -/
def counted (entries : List ε) : Multiset κ := (entries.map fun e => Multiset.replicate (count e) (key e)).sum

/-- Every key has one entry, which counts a reference at least. -/
structure Tidy (entries : List ε) : Prop where
  nodup : (entries.map key).Nodup
  positive : ∀ e ∈ entries, 0 < count e

/-- The first entry with the name is changed, or taken out where there is nothing left of it. -/
def changeFirst (named : ε → Bool) (change : ε → Option ε) : List ε → List ε
  | [] => []
  | e :: rest => if named e = true then (change e).toList ++ rest else e :: changeFirst named change rest

variable {key count} {entries : List ε} {named : ε → Bool} {change : ε → Option ε} {k : κ} {e : ε}

@[simp] theorem counted_nil : counted key count [] = 0 := rfl

@[simp] theorem counted_cons (e : ε) (entries : List ε) :
    counted key count (e :: entries) = Multiset.replicate (count e) (key e) + counted key count entries := by
  rw [counted, List.map_cons, List.sum_cons]
  rfl

theorem Tidy.nil : Tidy key count [] := ⟨.nil, fun _ member => absurd member (List.not_mem_nil)⟩

theorem Tidy.tail (tidy : Tidy key count (e :: entries)) : Tidy key count entries :=
  ⟨(List.nodup_cons.mp tidy.nodup).2, fun other member => tidy.positive other (List.mem_cons_of_mem e member)⟩

theorem Tidy.cons (tidy : Tidy key count entries) (fresh : key e ∉ entries.map key) (positive : 0 < count e) :
    Tidy key count (e :: entries) := by
  refine ⟨List.nodup_cons.mpr ⟨fresh, tidy.nodup⟩, fun other member => ?_⟩
  rcases List.mem_cons.mp member with rfl | later
  · exact positive
  · exact tidy.positive other later

/-- A key is counted where it has an entry. -/
theorem Tidy.mem_counted (tidy : Tidy key count entries) : k ∈ counted key count entries ↔ k ∈ entries.map key := by
  induction entries with
  | nil => simp
  | cons e entries ih =>
    have positive := tidy.positive e List.mem_cons_self
    rw [counted_cons, Multiset.mem_add, ih tidy.tail, Multiset.mem_replicate, List.map_cons, List.mem_cons]
    exact or_congr ⟨fun member => member.2, fun same => ⟨by omega, same⟩⟩ Iff.rfl

theorem keys_changeFirst_subset (same : ∀ e e', change e = some e' → key e' = key e) :
    (changeFirst named change entries).map key ⊆ entries.map key := by
  induction entries with
  | nil => exact List.Subset.refl _
  | cons e entries ih =>
    unfold changeFirst
    split_ifs with found
    · cases changed : change e with
      | none => exact List.subset_cons_of_subset _ (List.Subset.refl _)
      | some e' =>
        rw [Option.toList_some, List.singleton_append, List.map_cons, List.map_cons, same e e' changed]
        exact List.Subset.refl _
    · rw [List.map_cons, List.map_cons]
      exact List.cons_subset_cons _ ih

theorem Tidy.changeFirst (tidy : Tidy key count entries) (same : ∀ e e', change e = some e' → key e' = key e)
    (positive : ∀ e ∈ entries, ∀ e', change e = some e' → 0 < count e') :
    Tidy key count (changeFirst named change entries) := by
  induction entries with
  | nil => exact .nil
  | cons e entries ih =>
    have fresh := (List.nodup_cons.mp tidy.nodup).1
    unfold References.changeFirst
    split_ifs with found
    · cases changed : change e with
      | none => exact tidy.tail
      | some e' =>
        refine tidy.tail.cons ?_ (positive e List.mem_cons_self e' changed)
        rwa [same e e' changed]
    · have kept := ih tidy.tail fun other member => positive other (List.mem_cons_of_mem e member)
      refine kept.cons ?_ (tidy.positive e List.mem_cons_self)
      exact fun member => fresh (keys_changeFirst_subset same member)

section Named
variable (names : ∀ e, named e = true ↔ key e = k)
include names

theorem find_none_iff : entries.find? named = none ↔ k ∉ entries.map key := by
  rw [List.find?_eq_none, List.mem_map]
  constructor
  · rintro none ⟨e, member, same⟩
    exact none e member ((names e).mpr same)
  · intro absent e member found
    exact absent ⟨e, member, (names e).mp found⟩

/-- How the count of the changed entry moves, the references move. -/
theorem counted_changeFirst {left : Nat} (found : entries.find? named = some e)
    (changed : (change e).elim 0 count = left) (same : ∀ e', change e = some e' → key e' = key e) :
    counted key count (References.changeFirst named change entries) + Multiset.replicate (count e) k =
      counted key count entries + Multiset.replicate left k := by
  induction entries with
  | nil => cases found
  | cons head entries ih =>
    unfold References.changeFirst
    by_cases here : named head = true
    · rw [List.find?_cons_of_pos here] at found
      cases found
      have keyed := (names e).mp here
      rw [if_pos here, counted_cons, keyed, ← changed]
      cases became : change e with
      | none =>
        simp only [Option.toList_none, List.nil_append, Option.elim_none, Multiset.replicate_zero, add_zero]
        exact add_comm _ _
      | some e' =>
        simp only [Option.toList_some, List.singleton_append, Option.elim_some, counted_cons, same e' became, keyed]
        abel
    · rw [List.find?_cons_of_neg here] at found
      rw [if_neg here, counted_cons, counted_cons, add_assoc, ih found, add_assoc]

end Named
end Table
end References
