import FlukeCda.Data.References
import FlukeCda.Gpib.Core.Queues
import Mathlib.Data.Fin.Basic
import Mathlib.Data.Fintype.Prod

/-! # The open devices of a board

A file holds descriptors of devices. The list of devices of the board counts, for
each address, the descriptors that refer to it.
-/

namespace FlukeCda.Gpib.Core
open Interaction References

abbrev gpibMaxNumDescriptors : Nat := 0x1000

abbrev Handle := Fin gpibMaxNumDescriptors

structure GpibDescriptor where
  pad : UInt32
  sad : Int32
  isBoard : Bool
  deriving DecidableEq

structure GpibStatusQueue where
  pad : UInt32
  sad : Int32
  status : StatusBytes
  referenceCount : UInt32

/-- `ibopen` goes on where `init_gpib_file_private` gives up, and leaves the mutex zeroed. -/
inductive Mutex
  | zeroed
  | unlocked
  | locked
  deriving DecidableEq

structure GpibFilePrivate where
  descriptors : Handle → Option GpibDescriptor
  descriptorsMutex : Mutex

def GpibFilePrivate.put (file : GpibFilePrivate) (h : Handle) (desc : Option GpibDescriptor) : GpibFilePrivate :=
  { file with descriptors := Function.update file.descriptors h desc }

/-- The board with its list of devices, and the files that are open on it. -/
structure DeviceBoard (ι : Type) where
  pad : UInt32
  sad : Int32
  stuckSrq : Bool
  deviceList : List GpibStatusQueue
  files : ι → Option GpibFilePrivate

def DeviceBoard.putFile {ι : Type} [DecidableEq ι] (board : DeviceBoard ι) (i : ι) (file : Option GpibFilePrivate) :
    DeviceBoard ι :=
  { board with files := Function.update board.files i file }

def gpibAddressEqual (pad1 : UInt32) (sad1 : Int32) (pad2 : UInt32) (sad2 : Int32) : Bool :=
  if pad1 = pad2 then
    if sad1 = sad2 then true
    else if sad1 < 0 ∧ sad2 < 0 then true else false
  else false

section Source

def initGpibStatusQueue (pad : UInt32) (sad : Int32) (referenceCount : UInt32) : GpibStatusQueue :=
  ⟨pad, sad, initStatusBytes, referenceCount⟩

def isAt (pad : UInt32) (sad : Int32) (device : GpibStatusQueue) : Bool :=
  gpibAddressEqual device.pad device.sad pad sad

def getGpibStatusQueue (deviceList : List GpibStatusQueue) (pad : UInt32) (sad : Int32) : Option GpibStatusQueue :=
  deviceList.find? (isAt pad sad)

def addReference (device : GpibStatusQueue) : Option GpibStatusQueue :=
  some { device with referenceCount := device.referenceCount + 1 }

/-- A device without references is taken off the list. -/
def dropReferences (count : UInt32) (device : GpibStatusQueue) : Option GpibStatusQueue :=
  if device.referenceCount - count = 0 then none
  else some { device with referenceCount := device.referenceCount - count }

def incrementOpenDeviceCount (head : List GpibStatusQueue) (pad : UInt32) (sad : Int32) (memory : Bool) :
    Int × List GpibStatusQueue :=
  match head.find? (isAt pad sad) with
  | some _ => (0, changeFirst (isAt pad sad) addReference head)
  | none => if memory = false then (- ENOMEM, head) else (0, initGpibStatusQueue pad sad 1 :: head)

def subtractOpenDeviceCount (head : List GpibStatusQueue) (pad : UInt32) (sad : Int32) (count : UInt32) :
    Int × List GpibStatusQueue :=
  match head.find? (isAt pad sad) with
  | none => (- EINVAL, head)
  | some device =>
    if count > device.referenceCount then (- EINVAL, head)
    else (0, changeFirst (isAt pad sad) (dropReferences count) head)

def decrementOpenDeviceCount (head : List GpibStatusQueue) (pad : UInt32) (sad : Int32) :
    Int × List GpibStatusQueue :=
  subtractOpenDeviceCount head pad sad 1

/-- The slot of a handle; a handle that is not one gets none. -/
def slotOf (handle : Int) : Option Handle :=
  if inRange : 0 ≤ handle ∧ handle < gpibMaxNumDescriptors then some ⟨handle.toNat, by omega⟩ else none

def handleToDescriptor (file : GpibFilePrivate) (handle : Int) : Option (Handle × GpibDescriptor) :=
  (slotOf handle).bind fun h => (file.descriptors h).map (h, ·)

def initGpibDescriptor : GpibDescriptor := ⟨0, -1, false⟩

def initGpibFilePrivate (memory : Bool) : GpibFilePrivate :=
  let priv : GpibFilePrivate := ⟨fun _ => none, .zeroed⟩
  if memory = false then priv
  else { priv.put ⟨0, by decide⟩ (some { initGpibDescriptor with isBoard := true }) with descriptorsMutex := .unlocked }

/-- The loop of `cleanup_open_devices` over the handles from one on. -/
def cleanupDescriptors : List Handle → GpibFilePrivate → List GpibStatusQueue →
    Int × GpibFilePrivate × List GpibStatusQueue
  | [], file, deviceList => (0, file, deviceList)
  | h :: rest, file, deviceList =>
    match file.descriptors h with
    | none => cleanupDescriptors rest file deviceList
    | some desc =>
      if desc.isBoard = false then
        let (retval, deviceList) := decrementOpenDeviceCount deviceList desc.pad desc.sad
        if retval < 0 then (retval, file, deviceList) else cleanupDescriptors rest (file.put h none) deviceList
      else cleanupDescriptors rest (file.put h none) deviceList

def cleanupOpenDevices (file : GpibFilePrivate) (deviceList : List GpibStatusQueue) :
    Int × GpibFilePrivate × List GpibStatusQueue :=
  cleanupDescriptors (List.finRange gpibMaxNumDescriptors) file deviceList

structure OpenDevIoctl where
  pad : UInt32
  sad : Int32
  isBoard : Bool

/-- What befalls the opening of a device: faults of the caller's memory, a signal
while it waits for the mutex, and what memory there is. -/
structure Fortune where
  copiedIn : Bool
  interrupted : Bool
  memory : Bool
  queueMemory : Bool
  copiedOut : Bool

variable {ι : Type} [DecidableEq ι]

/-- A mutex that is not free is left by a signal only. Where no slot is free the
call returns with the mutex locked. -/
def openDevIoctl (board : DeviceBoard ι) (i : ι) (file : GpibFilePrivate) (cmd : OpenDevIoctl) (fortune : Fortune) :
    Returned Handle × DeviceBoard ι :=
  if fortune.copiedIn = false then ((- EFAULT, none), board)
  else if fortune.interrupted = true ∨ file.descriptorsMutex ≠ .unlocked then ((- ERESTARTSYS, none), board)
  else
    match Fin.find? fun h => (file.descriptors h).isNone with
    | none => ((- ERANGE, none), board.putFile i (some { file with descriptorsMutex := .locked }))
    | some h =>
      if fortune.memory = false then ((- ENOMEM, none), board)
      else
        let board := board.putFile i (some (file.put h (some ⟨cmd.pad, cmd.sad, cmd.isBoard⟩)))
        let (retval, deviceList) := incrementOpenDeviceCount board.deviceList cmd.pad cmd.sad fortune.queueMemory
        let board := { board with deviceList }
        if retval < 0 then ((retval, none), board)
        else
          let board := { board with stuckSrq := false }
          if fortune.copiedOut = false then ((- EFAULT, none), board) else ((0, some h), board)

/-- The handle is unsigned here. -/
def closeDevIoctl (board : DeviceBoard ι) (i : ι) (file : GpibFilePrivate) (handle : UInt32) (copiedIn : Bool) :
    Returned Handle × DeviceBoard ι :=
  if copiedIn = false then ((- EFAULT, none), board)
  else
    match handleToDescriptor file handle.toNat with
    | none => ((- EINVAL, none), board)
    | some (h, desc) =>
      let (retval, deviceList) := decrementOpenDeviceCount board.deviceList desc.pad desc.sad
      let board := { board with deviceList }
      if retval < 0 then ((retval, none), board) else ((0, none), board.putFile i (some (file.put h none)))

def ibpad (board : DeviceBoard ι) (addr : UInt32) : Int × DeviceBoard ι :=
  if addr > 30 then (- 1, board) else (0, { board with pad := addr })

def ibsad (board : DeviceBoard ι) (addr : Int32) : Int × DeviceBoard ι :=
  if addr > 30 then (- 1, board) else (0, { board with sad := addr })

/-- What `pad_ioctl` and `sad_ioctl` do with the descriptor of a device, for an
address with one half changed. -/
def moveDescriptor (board : DeviceBoard ι) (i : ι) (file : GpibFilePrivate) (h : Handle) (desc moved : GpibDescriptor)
    (memory : Bool) : Int × DeviceBoard ι :=
  let (retval, deviceList) := decrementOpenDeviceCount board.deviceList desc.pad desc.sad
  let board := { board with deviceList }
  if retval < 0 then (retval, board)
  else
    let board := board.putFile i (some (file.put h (some moved)))
    let (retval, deviceList) := incrementOpenDeviceCount board.deviceList moved.pad moved.sad memory
    (retval, { board with deviceList })

/-- The common course of `pad_ioctl` and `sad_ioctl`. The handle is converted to a signed one. -/
def addressIoctl (board : DeviceBoard ι) (i : ι) (file : GpibFilePrivate) (handle : UInt32)
    (setBoard : DeviceBoard ι → Int × DeviceBoard ι) (move : GpibDescriptor → GpibDescriptor)
    (copiedIn memory : Bool) : Returned Handle × DeviceBoard ι :=
  if copiedIn = false then ((- EFAULT, none), board)
  else
    match handleToDescriptor file handle.toInt32.toInt with
    | none => ((- EINVAL, none), board)
    | some (h, desc) =>
      let (retval, board) :=
        if desc.isBoard = true then setBoard board else moveDescriptor board i file h desc (move desc) memory
      ((retval, none), board)

def padIoctl (board : DeviceBoard ι) (i : ι) (file : GpibFilePrivate) (handle pad : UInt32)
    (copiedIn memory : Bool) : Returned Handle × DeviceBoard ι :=
  addressIoctl board i file handle (ibpad · pad) (fun desc => { desc with pad }) copiedIn memory

def sadIoctl (board : DeviceBoard ι) (i : ι) (file : GpibFilePrivate) (handle : UInt32) (sad : Int32)
    (copiedIn memory : Bool) : Returned Handle × DeviceBoard ι :=
  addressIoctl board i file handle (ibsad · sad) (fun desc => { desc with sad }) copiedIn memory

def ibopen (board : DeviceBoard ι) (i : ι) (memory descriptorMemory : Bool) : Returned Handle × DeviceBoard ι :=
  if memory = false then ((- ENOMEM, none), board)
  else ((0, none), board.putFile i (some (initGpibFilePrivate descriptorMemory)))

/-- What `cleanup_open_devices` returns is not looked at. -/
def ibclose (board : DeviceBoard ι) (i : ι) (file : GpibFilePrivate) : Returned Handle × DeviceBoard ι :=
  let (_, _, deviceList) := cleanupOpenDevices file board.deviceList
  ((0, none), { board with deviceList }.putFile i none)

inductive DeviceCall (ι : Type)
  | ibopen (i : ι) (memory descriptorMemory : Bool)
  | ibclose (i : ι)
  | openDev (i : ι) (cmd : OpenDevIoctl) (fortune : Fortune)
  | closeDev (i : ι) (handle : UInt32) (copiedIn : Bool)
  | pad (i : ι) (handle pad : UInt32) (copiedIn memory : Bool)
  | sad (i : ι) (handle : UInt32) (sad : Int32) (copiedIn memory : Bool)

def DeviceCall.file : DeviceCall ι → ι
  | .ibopen i _ _ | .ibclose i | .openDev i _ _ | .closeDev i _ _ | .pad i _ _ _ _ | .sad i _ _ _ _ => i

end Source

end FlukeCda.Gpib.Core
