import FlukeCda.Gpib.Core.DeviceCounts

/-! # The open devices over whole runs -/

namespace FlukeCda.Gpib.Core
open Interaction References

variable {ι : Type}

/-- The opening of a device gets as far as to fill a free slot. -/
structure Fills (file : GpibFilePrivate) (fortune : Fortune) : Prop where
  copiedIn : fortune.copiedIn = true
  uninterrupted : fortune.interrupted = false
  unlocked : file.descriptorsMutex = .unlocked
  free : ∃ h, file.descriptors h = none
  memory : fortune.memory = true

/-- A descriptor other than that in the slot refers to the device. -/
def Shared (board : DeviceBoard ι) (slot : ι × Handle) (k : Address) : Prop :=
  ∃ other, other ≠ slot ∧ refs board other = some k

/-- What a caller must keep to, and the memory that must be there: descriptors opened
here are those of devices, the descriptor of the board is not closed while its address
is that of an open device, and no entry is missing for want of memory. -/
def HarmlessOn (board : DeviceBoard ι) (file : GpibFilePrivate) : DeviceCall ι → Prop
  | .ibopen _ _ _ | .ibclose _ => True
  | .openDev _ cmd fortune => Fills file fortune →
    (cmd.isBoard = false ↔ fortune.queueMemory = true ∨ ∃ slot, refs board slot = some (addressOf cmd.pad cmd.sad))
  | .closeDev _ handle copiedIn => ∀ h desc, copiedIn = true →
    handleToDescriptor file handle.toNat = some (h, desc) → desc.isBoard = true →
      ∀ slot, refs board slot ≠ some desc.address
  | .pad i handle pad copiedIn memory => ∀ h desc, copiedIn = true →
    handleToDescriptor file handle.toInt32.toInt = some (h, desc) → desc.isBoard = false →
      memory = true ∨ Shared board (i, h) { desc with pad }.address
  | .sad i handle sad copiedIn memory => ∀ h desc, copiedIn = true →
    handleToDescriptor file handle.toInt32.toInt = some (h, desc) → desc.isBoard = false →
      memory = true ∨ Shared board (i, h) { desc with sad }.address

def Harmless (call : DeviceCall ι) (board : DeviceBoard ι) : Prop :=
  ∀ file, board.files call.file = some file → HarmlessOn board file call

variable [Fintype ι] [DecidableEq ι] {board : DeviceBoard ι} {i : ι} {file : GpibFilePrivate}
  {call : DeviceCall ι}

end FlukeCda.Gpib.Core
