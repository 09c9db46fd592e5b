import FlukeCda.Gpib.Core.Devices

/-! # The counts of the open devices

What a call does to the references that the list counts and to those that the
descriptors hold.
-/

namespace FlukeCda.Gpib.Core
open Interaction References

/-- All negative secondary addresses stand for none. -/
abbrev Address := UInt32 × Option Int32

def addressOf (pad : UInt32) (sad : Int32) : Address := (pad, if sad < 0 then none else some sad)

theorem gpibAddressEqual_iff (pad1 : UInt32) (sad1 : Int32) (pad2 : UInt32) (sad2 : Int32) :
    gpibAddressEqual pad1 sad1 pad2 sad2 = true ↔ addressOf pad1 sad1 = addressOf pad2 sad2 := by
  unfold gpibAddressEqual addressOf
  rw [Prod.mk.injEq]
  by_cases pads : pad1 = pad2
  · rw [if_pos pads]
    by_cases sads : sad1 = sad2
    · simp [pads, sads]
    · rw [if_neg sads]
      by_cases first : sad1 < 0 <;> by_cases second : sad2 < 0 <;> simp [pads, sads, first, second]
  · simp [pads]

def GpibStatusQueue.address (device : GpibStatusQueue) : Address := addressOf device.pad device.sad

def GpibStatusQueue.count (device : GpibStatusQueue) : Nat := device.referenceCount.toNat

def GpibDescriptor.address (desc : GpibDescriptor) : Address := addressOf desc.pad desc.sad

theorem isAt_iff (pad : UInt32) (sad : Int32) (device : GpibStatusQueue) :
    isAt pad sad device = true ↔ device.address = addressOf pad sad := gpibAddressEqual_iff ..

abbrev TidyList : List GpibStatusQueue → Prop := Tidy GpibStatusQueue.address GpibStatusQueue.count

abbrev countedIn : List GpibStatusQueue → Multiset Address := counted GpibStatusQueue.address GpibStatusQueue.count

section Counts
variable {head : List GpibStatusQueue} {pad : UInt32} {sad : Int32}

theorem find_isAt_none (tidy : TidyList head) :
    head.find? (isAt pad sad) = none ↔ addressOf pad sad ∉ countedIn head := by
  rw [find_none_iff (isAt_iff pad sad), tidy.mem_counted]

theorem dropReferences_count {device : GpibStatusQueue} (positive : 0 < device.count) :
    (dropReferences 1 device).elim 0 GpibStatusQueue.count = device.count - 1 := by
  have shrinks : (device.referenceCount - 1).toNat = device.count - 1 :=
    UInt32.toNat_sub_of_le _ _ (UInt32.le_iff_toNat_le.mpr positive)
  unfold dropReferences
  split_ifs with zero
  · rw [Option.elim_none, ← shrinks, zero]
    rfl
  · exact shrinks

theorem dropReferences_some {device kept : GpibStatusQueue} {count : UInt32}
    (changed : dropReferences count device = some kept) : kept.address = device.address ∧ 0 < kept.count := by
  unfold dropReferences at changed
  split_ifs at changed with zero
  cases changed
  exact ⟨rfl, Nat.pos_of_ne_zero fun none => zero (UInt32.toNat_inj.mp none)⟩

/-- The list counts one reference less. -/
theorem decrement_counts (tidy : TidyList head) (listed : addressOf pad sad ∈ countedIn head) :
    (decrementOpenDeviceCount head pad sad).1 = 0 ∧ TidyList (decrementOpenDeviceCount head pad sad).2 ∧
      countedIn (decrementOpenDeviceCount head pad sad).2 + {addressOf pad sad} = countedIn head := by
  unfold decrementOpenDeviceCount subtractOpenDeviceCount
  cases found : head.find? (isAt pad sad) with
  | none => exact absurd listed ((find_isAt_none tidy).mp found)
  | some device =>
    have positive : 0 < device.count := tidy.positive device (List.mem_of_find?_eq_some found)
    have enough : ¬ (1 : UInt32) > device.referenceCount := UInt32.not_lt.mpr (UInt32.le_iff_toNat_le.mpr positive)
    have moved : countedIn (changeFirst (isAt pad sad) (dropReferences 1) head) +
        Multiset.replicate device.count (addressOf pad sad) =
        countedIn head + Multiset.replicate (device.count - 1) (addressOf pad sad) :=
      counted_changeFirst (isAt_iff pad sad) found (dropReferences_count positive)
        fun _ changed => (dropReferences_some changed).1
    have split : Multiset.replicate device.count (addressOf pad sad) =
        {addressOf pad sad} + Multiset.replicate (device.count - 1) (addressOf pad sad) := by
      rw [← Multiset.replicate_one, ← Multiset.replicate_add, Nat.add_sub_cancel' positive]
    simp only [if_neg enough]
    refine ⟨trivial, tidy.changeFirst (fun _ _ changed => (dropReferences_some changed).1)
      fun _ _ _ changed => (dropReferences_some changed).2, ?_⟩
    rw [split, ← add_assoc] at moved
    exact add_right_cancel moved

end Counts

section Balance
variable {ι : Type}

/-- What a descriptor refers to; the board itself is not on the list of devices. -/
def GpibDescriptor.reference (desc : GpibDescriptor) : Option Address :=
  if desc.isBoard = true then none else some desc.address

def refs (board : DeviceBoard ι) (slot : ι × Handle) : Option Address :=
  (board.files slot.1).bind fun file => (file.descriptors slot.2).bind GpibDescriptor.reference

/-- The list has one entry for each address in use, and counts its descriptors. -/
structure Balanced [Fintype ι] (board : DeviceBoard ι) : Prop where
  tidy : TidyList board.deviceList
  counts : countedIn board.deviceList = held (refs board)

/-- Each file private takes 16 KiB of the 4 GiB that a 32-bit kernel can address. -/
def FewFiles (ι : Type) [Fintype ι] : Prop := Fintype.card ι ≤ 2 ^ 18

variable {board : DeviceBoard ι} {i : ι} {file : GpibFilePrivate} {h : Handle} {desc : GpibDescriptor}

theorem GpibDescriptor.reference_device (device : desc.isBoard = false) : desc.reference = some desc.address := by
  rw [GpibDescriptor.reference, device, if_neg Bool.false_ne_true]

theorem refs_at (opened : board.files i = some file) (here : file.descriptors h = some desc) :
    refs board (i, h) = desc.reference := by
  simp only [refs, opened, Option.bind_some, here]

section Fintype
variable [Fintype ι]

theorem Balanced.room (balanced : Balanced board) (few : FewFiles ι) :
    (countedIn board.deviceList).card + 1 < 2 ^ 32 := by
  have bound := card_held_le (refs board)
  rw [Fintype.card_prod, Fintype.card_fin] at bound
  rw [balanced.counts]
  unfold FewFiles gpibMaxNumDescriptors at *
  omega

theorem Balanced.listed_iff (balanced : Balanced board) {k : Address} :
    k ∈ countedIn board.deviceList ↔ ∃ slot, refs board slot = some k := by
  rw [balanced.counts, mem_held]

/-- Nothing has changed that the counts are about. -/
theorem Balanced.same {board' : DeviceBoard ι} (balanced : Balanced board)
    (list : board'.deviceList = board.deviceList) (refers : refs board' = refs board) : Balanced board' :=
  ⟨list ▸ balanced.tidy, by rw [list, refers, balanced.counts]⟩

end Fintype

variable [DecidableEq ι]

theorem refs_put (opened : board.files i = some file) (h : Handle) (desc : Option GpibDescriptor) :
    refs (board.putFile i (some (file.put h desc))) =
      Function.update (refs board) (i, h) (desc.bind GpibDescriptor.reference) := by
  funext ⟨j, h'⟩
  by_cases file_same : j = i
  · subst file_same
    by_cases handle_same : h' = h
    · subst handle_same
      simp only [refs, DeviceBoard.putFile, GpibFilePrivate.put, Function.update_self, Option.bind_some]
    · have other : (j, h') ≠ (j, h) := fun same => handle_same (Prod.mk.inj same).2
      simp only [refs, DeviceBoard.putFile, GpibFilePrivate.put, Function.update_self, Option.bind_some,
        Function.update_of_ne handle_same, Function.update_of_ne other, opened]
  · have other : (j, h') ≠ (i, h) := fun same => file_same (Prod.mk.inj same).1
    simp only [refs, DeviceBoard.putFile, Function.update_of_ne file_same, Function.update_of_ne other]

/-- The board where a descriptor of a file is cleared and its address has lost a reference. -/
def released (board : DeviceBoard ι) (i : ι) (file : GpibFilePrivate) (h : Handle) (desc : GpibDescriptor) :
    DeviceBoard ι :=
  { board with deviceList := (decrementOpenDeviceCount board.deviceList desc.pad desc.sad).2 }.putFile i
    (some (file.put h none))

/-- The board where a descriptor of a file is set and its address is to gain a reference. -/
def taken (board : DeviceBoard ι) (i : ι) (file : GpibFilePrivate) (h : Handle) (desc : GpibDescriptor)
    (memory : Bool) : DeviceBoard ι :=
  { board with deviceList := (incrementOpenDeviceCount board.deviceList desc.pad desc.sad memory).2 }.putFile i
    (some (file.put h (some desc)))

theorem refs_released (opened : board.files i = some file) :
    refs (released board i file h desc) = Function.update (refs board) (i, h) none := refs_put opened h none

section Fintype
variable [Fintype ι]

theorem Balanced.release (balanced : Balanced board) (opened : board.files i = some file)
    (here : file.descriptors h = some desc) (device : desc.isBoard = false) :
    (decrementOpenDeviceCount board.deviceList desc.pad desc.sad).1 = 0 ∧ Balanced (released board i file h desc) := by
  have refers : refs board (i, h) = some desc.address := by
    rw [refs_at opened here, GpibDescriptor.reference_device device]
  obtain ⟨accepted, tidy, counts⟩ := decrement_counts balanced.tidy (balanced.listed_iff.mpr ⟨_, refers⟩)
  have moved := held_update (refs board) (i, h) none
  rw [refers, single_some, single_none, add_zero, ← balanced.counts, ← counts] at moved
  refine ⟨accepted, tidy, ?_⟩
  rw [refs_released opened]
  exact (add_right_cancel moved).symm

end Fintype
end Balance
end FlukeCda.Gpib.Core
