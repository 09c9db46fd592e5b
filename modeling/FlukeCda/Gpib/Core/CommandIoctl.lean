import FlukeCda.Gpib.Command.Sending
import FlukeCda.Gpib.Core.WriteIoctl

/-! # Commands from the caller

`command_ioctl` is written like `write_ioctl`, but after the first load it takes the
number of bytes it sent for an error of the copy.
-/

namespace FlukeCda.Gpib.Core
open Interaction Program
open Command (Chip ibcac nec7210Command)

abbrev CommandCode := IoCode Command.Answer

def ibcmd (hz : Nat) (buf : Nat → UInt8) (length : Nat) : CommandCode Int := do
  let controls ← fromDriver (Command.testBit .cic)
  if length = 0 then pure 0
  else if controls = false then pure (- 1)
  else do
    osStartTimer
    let ret ← fromDriver (ibcac hz false)
    let ret ← if ret = 0 then fromDriver (nec7210Command ((List.range length).map buf)) else pure ret
    osRemoveTimer
    let timedOut ← ioTimedOut
    pure (if timedOut = true then - ETIMEDOUT else ret)

/-- A load of the board's buffer, whether the copy failed or not. -/
def loadBuffer (userbuf count : Nat) : CommandCode (Bool × (Nat → UInt8)) := do
  let copied ← perform (IoOp.copyFromUser userbuf count)
  match copied with
  | some bytes => pure (false, bytes)
  | none => do
    let bytes ← perform IoOp.boardBuffer
    pure (true, bytes)

/-- The loop of `command_ioctl`, watched for a number of rounds. `retval` is what the
round before has left in it. -/
def commandLoads (hz : Nat) : Nat → Int → Nat → Nat → Bool → CommandCode Left
  | 0, _, _, _, _ => .call .outOfRounds Empty.elim
  | rounds + 1, retval, userbuf, remain, fault =>
    if remain > 0 then do
      let (fault, buffer) ← loadBuffer userbuf (loadSize remain)
      let retval ← if retval ≠ 0 then pure (- EFAULT) else ibcmd hz buffer (loadSize remain)
      if retval < 0 then do
        perform (IoOp.setIoInProgress false)
        perform IoOp.wakeUpInterruptible
        pure ⟨retval, remain, fault⟩
      else if retval = 0 then pure ⟨retval, remain, fault⟩
      else commandLoads hz rounds retval (userbuf + retval.toNat) (remain - retval.toNat) fault
    else pure ⟨retval, remain, fault⟩

/-- After the loop. -/
def finishCommandIoctl (cmd : ReadWriteIoctl) (left : Left) : CommandCode Int := do
  let completed := cmd.requestedTransferCount - left.remain
  let fault ←
    if left.fault = true then pure true
    else do
      let copied ← perform (IoOp.copyCommandOut { cmd with completedTransferCount := completed })
      pure (!copied)
  perform (IoOp.setIoInProgress false)
  perform IoOp.wakeUpInterruptible
  pure (if fault = true then - EFAULT else left.retval)

def commandIoctl (hz : Nat) : CommandCode Int := do
  let copied ← perform IoOp.copyCommandIn
  match copied with
  | none => pure (- EFAULT)
  | some cmd =>
    if cmd.completedTransferCount > cmd.requestedTransferCount then pure (- EINVAL)
    else do
      let found ← perform (IoOp.handleToDescriptor cmd.handle)
      if found = false then pure (- EINVAL)
      else do
        let remain := cmd.requestedTransferCount - cmd.completedTransferCount
        let fine ← perform (IoOp.accessOk cmd.completedTransferCount remain)
        if fine = false then pure (- EFAULT)
        else do
          perform (IoOp.setIoInProgress true)
          let left ← commandLoads hz (remain + 1) 0 cmd.completedTransferCount remain false
          finishCommandIoctl cmd left

/-- The board as the controller sees it. -/
def commandBelow : Below Command.Op Command.Answer Chip where
  act := Command.Act
  drift := Command.Drift
  timo := fun chip => chip.flags .timo
  putTimo := fun chip value => chip.putFlag .timo value
  standby := fun _ _ => False

end FlukeCda.Gpib.Core
