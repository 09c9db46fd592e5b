import FlukeCda.Gpib.Source
import Mathlib.Logic.Function.Basic

/-! # Commands of the controller

While it asserts ATN the controller sends command bytes, one at a time through
CDOR, and every instrument on the bus hears them.
-/

namespace FlukeCda.Gpib.Command
open Interaction Program

/-- The bits of `board->status` and of `priv->state` that are looked at. -/
inductive Flag
  | timo
  | cic
  | commandReady
  | busError
  deriving DecidableEq

/-- AUX_TCS and AUX_TCA take control, AUX_GTS gives it up. -/
inductive Aux
  | tcs
  | tca
  | gts
  deriving DecidableEq

/-- `readAdsr` answers whether ATN is asserted, that is whether HR_NATN is clear. -/
inductive Op
  | waitEventInterruptible
  | testBit (flag : Flag)
  | testAndClearBit (flag : Flag)
  | clearBit (flag : Flag)
  | spinLockIrqsave
  | spinUnlockIrqrestore
  | writeCdor (byte : UInt8)
  | writeAuxmr (command : Aux)
  | readAdsr
  | udelay
  | scheduleTimeout
  | updateStatus
  deriving DecidableEq

@[reducible] def Answer : Op → Type
  | .testBit _ | .testAndClearBit _ | .readAdsr => Bool
  | .waitEventInterruptible | .scheduleTimeout => Int
  | _ => Unit

abbrev Code := Program Op Answer

def testBit (flag : Flag) : Code Bool := perform (Op.testBit flag)
def testAndClearBit (flag : Flag) : Code Bool := perform (Op.testAndClearBit flag)

/-- The part of `nec7210_command` under the spin lock. -/
def sendByte (byte : UInt8) : Code Unit := do
  perform Op.spinLockIrqsave
  perform (Op.clearBit .commandReady)
  perform (Op.writeCdor byte)
  perform Op.spinUnlockIrqrestore

/-- The loop of `nec7210_command`, with `retval` and `count` at its end. -/
def sendBytes : List UInt8 → Nat → Code (Int × Nat)
  | [], count => pure (0, count)
  | byte :: buffer, count => do
    let waited ← perform Op.waitEventInterruptible
    if waited ≠ 0 then pure (- ERESTARTSYS, count)
    else do
      let timedOut ← testBit .timo
      if timedOut = true then pure (0, count)
      else do
        let error ← testAndClearBit .busError
        if error = true then pure (0, count)
        else do
          sendByte byte
          sendBytes buffer (count + 1)

/-- Waits for the last byte to get sent. -/
def finishCommand (retval : Int) (count : Nat) : Code Int := do
  let waited ← perform Op.waitEventInterruptible
  let retval ← overrideIf (testBit .timo) (- ETIMEDOUT) (if waited ≠ 0 then - ERESTARTSYS else retval)
  let retval ← overrideIf (testAndClearBit .busError) (- EIO) retval
  pure (if retval ≠ 0 then retval else count)

def nec7210Command (buffer : List UInt8) : Code Int := do
  perform (Op.clearBit .busError)
  let (retval, count) ← sendBytes buffer 0
  finishCommand retval count

/-- Busy waits until ATN is asserted, or released. -/
def awaitAtn (asserted : Bool) : Nat → Code Bool
  | 0 => pure false
  | rounds + 1 => do
    let seen ← perform Op.readAdsr
    if seen = asserted then pure true
    else do
      perform Op.udelay
      awaitAtn asserted rounds

/-- If the busy wait has failed, tries sleeping. -/
def sleepForAtn (asserted : Bool) : Nat → Code Int
  | 0 => pure (- ETIMEDOUT)
  | rounds + 1 => do
    let left ← perform Op.scheduleTimeout
    if left ≠ 0 then pure (- ERESTARTSYS)
    else do
      let seen ← perform Op.readAdsr
      if seen = asserted then pure 0 else sleepForAtn asserted rounds

def waitForAtn (hz : Nat) (asserted : Bool) : Code Int := do
  let settled ← awaitAtn asserted 1000
  if settled = true then pure 0 else sleepForAtn asserted hz

def nec7210TakeControl (hz : Nat) (synchronous : Bool) : Code Int := do
  perform (Op.writeAuxmr (if synchronous = true then .tcs else .tca))
  waitForAtn hz true

def nec7210GoToStandby (hz : Nat) : Code Int := do
  perform (Op.writeAuxmr .gts)
  let retval ← waitForAtn hz false
  if retval ≠ 0 then pure retval
  else do
    perform (Op.clearBit .commandReady)
    pure 0

/-- `ibcac` and `ibgts`, but for what they have the interface do. -/
def asController (function : Code Int) : Code Int := do
  let controls ← testBit .cic
  if controls = false then pure (- 1)
  else do
    let retval ← function
    perform Op.updateStatus
    pure retval

def ibcac (hz : Nat) (sync : Bool) : Code Int := asController (nec7210TakeControl hz sync)

def ibgts (hz : Nat) : Code Int := asController (nec7210GoToStandby hz)

/-- The chip and the driver's data. `heard` are the commands that went over the bus,
`err` says that one was lost and no interrupt has recorded it yet, and `ordered` is
what the chip was last told to do with ATN. -/
structure Chip where
  cdor : Option UInt8
  heard : List UInt8
  err : Bool
  atn : Bool
  ordered : Bool
  flags : Flag → Bool
  locked : Bool

def Chip.putFlag (chip : Chip) (flag : Flag) (value : Bool) : Chip :=
  { chip with flags := Function.update chip.flags flag value }

/-- The controller is active, and not on its way to standby. -/
def Chip.Active (chip : Chip) : Prop := chip.atn = true ∧ chip.ordered = true

/-- The condition that ends a wait. -/
def Chip.ready (chip : Chip) : Bool := chip.flags .commandReady || chip.flags .busError || chip.flags .timo

/-- The byte in CDOR goes over the bus. -/
def Chip.transmit (chip : Chip) (byte : UInt8) : Chip := { chip with cdor := none, heard := chip.heard ++ [byte] }

/-- Nobody was there to hear the byte. -/
def Chip.lose (chip : Chip) : Chip := { chip with cdor := none, err := true }

/-- A byte was lost, and the controller has yet to notice. -/
def Chip.Lossy (chip : Chip) : Prop := chip.err = true ∨ chip.flags .busError = true

/-- What happens to the chip while the controller does nothing. The interrupt handler
needs the spin lock, and sets COMMAND_READY before BUS_ERROR; the chip takes CO back
when CDOR is written. -/
inductive Drift (chip : Chip) : Chip → Prop
  | transmit {byte : UInt8} (active : chip.Active) (full : chip.cdor = some byte) : Drift chip (chip.transmit byte)
  | lose {byte : UInt8} (active : chip.Active) (full : chip.cdor = some byte) : Drift chip chip.lose
  | commandReady (free : chip.locked = false) (empty : chip.cdor = none) : Drift chip (chip.putFlag .commandReady true)
  | busError (free : chip.locked = false) (err : chip.err = true) :
      Drift chip ({ chip with err := false }.putFlag .busError true)
  | control : Drift chip { chip with atn := chip.ordered }
  | flags {flags : Flag → Bool} (same : flags .commandReady = chip.flags .commandReady)
      (sets : ∀ flag, flag = .timo ∨ flag = .busError → chip.flags flag = true → flags flag = true) :
      Drift chip { chip with flags }

/-- What an operation of the controller answers and does. A wait that is not
interrupted by a signal ends with its condition true. -/
inductive Act : (op : Op) → Answer op → Chip → Chip → Prop
  | waited {chip} (ready : chip.ready = true) : Act .waitEventInterruptible (0 : Int) chip chip
  | signalled {chip} : Act .waitEventInterruptible (- ERESTARTSYS) chip chip
  | testBit {chip} {flag : Flag} : Act (.testBit flag) (chip.flags flag) chip chip
  | testAndClearBit {chip} {flag : Flag} :
      Act (.testAndClearBit flag) (chip.flags flag) chip (chip.putFlag flag false)
  | clearBit {chip} {flag : Flag} : Act (.clearBit flag) () chip (chip.putFlag flag false)
  | spinLockIrqsave {chip} (free : chip.locked = false) : Act .spinLockIrqsave () chip { chip with locked := true }
  | spinUnlockIrqrestore {chip} : Act .spinUnlockIrqrestore () chip { chip with locked := false }
  | writeCdor {chip} {byte : UInt8} : Act (.writeCdor byte) () chip { chip with cdor := some byte }
  | writeAuxmr {chip} {command : Aux} :
      Act (.writeAuxmr command) () chip { chip with ordered := command != .gts }
  | readAdsr {chip} : Act .readAdsr chip.atn chip chip
  | udelay {chip} : Act .udelay () chip chip
  | scheduled {chip} {left : Int} : Act .scheduleTimeout left chip chip
  | updateStatus {chip} : Act .updateStatus () chip chip

end FlukeCda.Gpib.Command
