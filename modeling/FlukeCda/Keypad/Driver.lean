import FlukeCda.Interaction.Interference
import FlukeCda.Keypad.Handler

namespace FlukeCda.Keypad
open Interaction Program

/-- What probe and remove ask of the kernel, and their stores into the driver data. -/
inductive Op
  | kzalloc
  | devSetDrvdata
  | devGetDrvdata
  | inputAllocateDevice
  | inputRegisterDevice
  | inputFreeDevice
  | storeInputDev
  | ofAddressToResource
  | requestMemRegion
  | zeroStart
  | ioremapNocache
  | irqOfParseAndMap
  | requestIrq (irq : Nat)
  | freeIrq (irq : Nat)
  | iounmap
  | releaseMemRegion
  | inputUnregisterDevice
  | kfree

@[reducible] def Answer : Op → Type
  | .kzalloc | .inputAllocateDevice | .requestMemRegion => Bool
  | .devGetDrvdata => Option Acquired
  | .inputRegisterDevice | .ofAddressToResource | .requestIrq _ => Int
  | .irqOfParseAndMap => Nat
  | _ => Unit

abbrev Code := Program Op Answer

def kzalloc : Code Bool := perform Op.kzalloc
def devSetDrvdata : Code Unit := perform Op.devSetDrvdata
def devGetDrvdata : Code (Option Acquired) := perform Op.devGetDrvdata
def inputAllocateDevice : Code Bool := perform Op.inputAllocateDevice
def inputRegisterDevice : Code Int := perform Op.inputRegisterDevice
def inputFreeDevice : Code Unit := perform Op.inputFreeDevice
def storeInputDev : Code Unit := perform Op.storeInputDev
def ofAddressToResource : Code Int := perform Op.ofAddressToResource
def requestMemRegion : Code Bool := perform Op.requestMemRegion
def zeroStart : Code Unit := perform Op.zeroStart
def ioremapNocache : Code Unit := perform Op.ioremapNocache
def irqOfParseAndMap : Code Nat := perform Op.irqOfParseAndMap
def requestIrq (irq : Nat) : Code Int := perform (Op.requestIrq irq)
def freeIrq (irq : Nat) : Code Unit := perform (Op.freeIrq irq)
def iounmap : Code Unit := perform Op.iounmap
def releaseMemRegion : Code Unit := perform Op.releaseMemRegion
def inputUnregisterDevice : Code Unit := perform Op.inputUnregisterDevice
def kfree : Code Unit := perform Op.kfree

def ENOMEM : Int := 12
def ENODEV : Int := 19

/-- `fluke_keypad_remove`: the fields say what there is to undo. -/
def flukeKeypadRemove : Code Int := do
  let drvData ← devGetDrvdata
  match drvData with
  | none => pure 0
  | some acquired => do
    onlyIf (acquired.irq ≠ 0) (freeIrq acquired.irq)
    onlyIf (acquired.mapbase = true) iounmap
    onlyIf (acquired.start ≠ 0) releaseMemRegion
    onlyIf (acquired.inputDev = true) inputUnregisterDevice
    kfree
    pure 0

def flukeKeypadProbe : Code Int := do
  let allocated ← kzalloc
  if allocated = false then pure (-ENOMEM) else
  devSetDrvdata
  let inputDev ← inputAllocateDevice
  if inputDev = false then do
    let _ ← flukeKeypadRemove
    pure (-ENOMEM)
  else
  let rc ← inputRegisterDevice
  if rc ≠ 0 then do
    inputFreeDevice
    let _ ← flukeKeypadRemove
    pure rc
  else
  storeInputDev
  let rc ← ofAddressToResource
  if rc ≠ 0 then do
    let _ ← flukeKeypadRemove
    pure rc
  else
  let region ← requestMemRegion
  if region = false then do
    zeroStart
    let _ ← flukeKeypadRemove
    pure (-ENODEV)
  else
  ioremapNocache
  let irq ← irqOfParseAndMap
  -- the number stays in this local variable: `drv_data->irq` is never set
  let rc ← requestIrq irq
  if rc ≠ 0 then do
    let _ ← flukeKeypadRemove
    pure (-ENODEV)
  else
  pure 0

/-- How each acquisition of one probe turns out. -/
structure Outcomes where
  kzalloc : Bool
  inputAllocate : Bool
  inputRegister : Int
  address : Int
  start : Nat
  region : Bool
  ioremap : Bool
  irq : Nat
  requestIrq : Int

/-- One keypad device as the kernel sees it: its driver data while that is
allocated, and how many of each resource its driver holds for it. -/
structure Device where
  drvData : Option FlukeKeypadData
  handlers : Nat
  regions : Nat
  mappings : Nat
  inputsAllocated : Nat
  inputsRegistered : Nat

def initialData : FlukeKeypadData where
  acquired := ⟨false, 0, 0, false⟩
  keycode := fun i => UInt8.ofNat (i.val + 1)
  active := fun _ => -1

def Device.update (dev : Device) (f : Acquired → Acquired) : Device :=
  { dev with drvData := dev.drvData.map fun data => { data with acquired := f data.acquired } }

def Device.iounmap (dev : Device) : Device := { dev with mappings := dev.mappings - 1 }

def Device.releaseMemRegion (dev : Device) : Device := { dev with regions := dev.regions - 1 }

def Device.inputUnregisterDevice (dev : Device) : Device :=
  { dev with inputsAllocated := dev.inputsAllocated - 1, inputsRegistered := dev.inputsRegistered - 1 }

/-- Every operation returns; what it answers is fixed by the outcomes. -/
def handle (o : Outcomes) : (op : Op) → Device → Option (Answer op) × Device
  | .kzalloc, dev => (some o.kzalloc, dev)
  | .devSetDrvdata, dev => (some (), { dev with drvData := some initialData })
  | .devGetDrvdata, dev => (some (dev.drvData.map FlukeKeypadData.acquired), dev)
  | .inputAllocateDevice, dev =>
    (some o.inputAllocate,
      if o.inputAllocate then { dev with inputsAllocated := dev.inputsAllocated + 1 } else dev)
  | .inputRegisterDevice, dev =>
    (some o.inputRegister,
      if o.inputRegister = 0 then { dev with inputsRegistered := dev.inputsRegistered + 1 } else dev)
  | .inputFreeDevice, dev => (some (), { dev with inputsAllocated := dev.inputsAllocated - 1 })
  | .storeInputDev, dev => (some (), dev.update fun acquired => { acquired with inputDev := true })
  | .ofAddressToResource, dev =>
    (some o.address,
      if o.address = 0 then dev.update fun acquired => { acquired with start := o.start } else dev)
  | .requestMemRegion, dev => (some o.region, if o.region then { dev with regions := dev.regions + 1 } else dev)
  | .zeroStart, dev => (some (), dev.update fun acquired => { acquired with start := 0 })
  | .ioremapNocache, dev =>
    (some (),
      if o.ioremap then
        { dev.update fun acquired => { acquired with mapbase := true } with mappings := dev.mappings + 1 }
      else dev)
  | .irqOfParseAndMap, dev => (some o.irq, dev)
  | .requestIrq _, dev =>
    (some o.requestIrq, if o.requestIrq = 0 then { dev with handlers := dev.handlers + 1 } else dev)
  | .freeIrq _, dev => (some (), { dev with handlers := dev.handlers - 1 })
  | .iounmap, dev => (some (), dev.iounmap)
  | .releaseMemRegion, dev => (some (), dev.releaseMemRegion)
  | .inputUnregisterDevice, dev => (some (), dev.inputUnregisterDevice)
  | .kfree, dev => (some (), { dev with drvData := none })

end FlukeCda.Keypad
