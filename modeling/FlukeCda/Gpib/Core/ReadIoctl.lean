import FlukeCda.Gpib.Core.Errno
import FlukeCda.Gpib.Core.Io
import FlukeCda.Gpib.Read.Framing

/-! # Reading from the chip to the caller

`read_ioctl` takes load after load from `ibrd`, which takes chunk after chunk from
`fluke_accel_read`.
-/

namespace FlukeCda.Gpib.Core
open Interaction Program
open Gpib.Read (Incoming Outcome flukeAccelRead)

abbrev ReadCode := IoCode Read.Answer

section Source
variable (dmaBufferSize rounds : Nat)

/-- The loop of `ibrd`, watched for a number of rounds. -/
def ibrdChunks (length : Nat) : Nat → Outcome → ReadCode Outcome
  | 0, _ => .call .outOfRounds Empty.elim
  | again + 1, sofar => do
    let chunk ← fromDriver (flukeAccelRead dmaBufferSize rounds (length - sofar.bytes.length))
    let sofar := sofar.followed chunk
    if sofar.retval = 0 ∧ sofar.bytes.length > 0 ∧ sofar.bytes.length < length ∧ sofar.ended = false then
      ibrdChunks length again sofar
    else pure sofar

/-- The returned value, what was put into the board's buffer, and `*end_flag`. -/
def ibrd (length : Nat) : ReadCode Outcome :=
  if length = 0 then pure ⟨0, [], false⟩
  else do
    let retval ← standby
    if retval < 0 then pure ⟨retval, [], false⟩
    else do
      osStartTimer
      let outcome ← ibrdChunks dmaBufferSize rounds length rounds ⟨0, [], false⟩
      osRemoveTimer
      pure outcome

/-- What the loop of `read_ioctl` leaves: `read_ret`, `remain`, `end_flag`, and
whether a copy failed. -/
structure Taken where
  readRet : Int
  remain : Nat
  ended : Bool
  fault : Bool

/-- The loop of `read_ioctl`, watched for a number of rounds. -/
def readLoads : Nat → Int → Nat → Nat → Bool → ReadCode Taken
  | 0, _, _, _, _ => .call .outOfRounds Empty.elim
  | again + 1, readRet, userbuf, remain, ended =>
    if remain > 0 ∧ ended = false then do
      let load ← ibrd dmaBufferSize rounds (loadSize remain)
      if load.bytes.length = 0 then pure ⟨load.retval, remain, load.ended, false⟩
      else do
        let copied ← perform (IoOp.copyToUser userbuf load.bytes)
        if copied = false then pure ⟨load.retval, remain, load.ended, true⟩
        else if load.retval < 0 then pure ⟨load.retval, remain - load.bytes.length, load.ended, false⟩
        else readLoads again load.retval (userbuf + load.bytes.length) (remain - load.bytes.length) load.ended
    else pure ⟨readRet, remain, ended, false⟩

/-- After the loop. An error is suppressed where all bytes or END got received. -/
def finishRead (readCmd : ReadWriteIoctl) (taken : Taken) : ReadCode Int := do
  let completed := readCmd.requestedTransferCount - taken.remain
  let readRet := if taken.remain = 0 ∨ taken.ended = true then 0 else taken.readRet
  let fault ←
    if taken.fault = true then pure true
    else do
      let copied ← perform
        (IoOp.copyCommandOut { readCmd with completedTransferCount := completed, ended := taken.ended })
      pure (!copied)
  perform (IoOp.setIoInProgress false)
  perform IoOp.wakeUpInterruptible
  pure (if fault = true then - EFAULT else readRet)

def readIoctl : ReadCode Int := do
  let copied ← perform IoOp.copyCommandIn
  match copied with
  | none => pure (- EFAULT)
  | some readCmd =>
    if readCmd.completedTransferCount > readCmd.requestedTransferCount then pure (- EINVAL)
    else do
      let found ← perform (IoOp.handleToDescriptor readCmd.handle)
      if found = false then pure (- EINVAL)
      else do
        let remain := readCmd.requestedTransferCount - readCmd.completedTransferCount
        let fine ← perform (IoOp.accessOk readCmd.completedTransferCount remain)
        if fine = false then pure (- EFAULT)
        else do
          perform (IoOp.setIoInProgress true)
          let taken ← readLoads dmaBufferSize rounds rounds 0 readCmd.completedTransferCount remain false
          finishRead readCmd taken

end Source

/-- The board as the read's driver sees it. What `go_to_standby` and
`update_status` change is the status. -/
def readBelow : Below Read.Op Read.Answer Read.Board where
  act := Read.Act
  drift := Read.Drift
  timo := fun board => board.flags .timo
  putTimo := fun board value => board.putFlag .timo value
  standby := fun board after =>
    ∃ flags, (∀ flag, Read.Flag.Own flag → flags flag = board.flags flag) ∧ after = { board with flags }

end FlukeCda.Gpib.Core
