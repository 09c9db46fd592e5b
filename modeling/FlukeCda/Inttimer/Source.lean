import FlukeCda.Port.Kernel

namespace FlukeCda.Inttimer
open Interaction Program Port

def inttimerIocMagicNumber : UInt32 := 0x78
def inttimerIocMaxnumber : UInt32 := 3
def inttimerReadReg0 : UInt32 := iorInt inttimerIocMagicNumber 0
def inttimerWriteFreql : UInt32 := iowInt inttimerIocMagicNumber 1
def inttimerWriteFreqh : UInt32 := iowInt inttimerIocMagicNumber 2

/-- The loop of `hw_read`. -/
def readRegister : Nat → Code (List UInt8)
  | 0 => pure []
  | n + 1 => do
    let value ← ioread32 4
    let rest ← readRegister n
    pure (value.toUInt8 :: rest)

/-- Unlike its sibling for the general purpose port, this returns without
releasing the semaphore when there is no memory. -/
def hwRead (count : Nat) : Code Int := do
  let result ← downInterruptible
  if result ≠ 0 then pure (-ERESTARTSYS)
  else
    let tbuf ← kmalloc count
    if tbuf = false then pure (-ENOMEM)
    else
      let bytes ← readRegister count
      let left ← copyToUser bytes
      let retval : Int := if left ≠ 0 then -EFAULT else bytes.length
      kfree
      up
      pure retval

/-- The loop of `hw_write`, from index `i` on. -/
def writeRegister (tbuf : Nat → UInt8) (i : Nat) : Nat → Code Unit
  | 0 => pure ()
  | n + 1 => do
    iowrite32 (tbuf i).toUInt32 4
    writeRegister tbuf (i + 1) n

def drainBuffer (count : Nat) (copied : CopiedIn) : Code Int :=
  if copied.left ≠ 0 then pure (-EFAULT)
  else do
    writeRegister copied.bytes 0 count
    pure count

def hwWrite (count : Nat) : Code Int := do
  let result ← downInterruptible
  if result ≠ 0 then pure (-ERESTARTSYS)
  else
    let tbuf ← kmalloc count
    if tbuf = false then pure (-ENOMEM)
    else
      let copied ← copyFromUser count
      let retval ← drainBuffer count copied
      kfree
      up
      pure retval

def readReg0 (arg : UInt32) : Code Unit := do
  let ok ← accessOk arg sizeofInt
  if ok = true then
    let data ← ioread32 0
    storeUser arg data
  else pure ()

/-- The two frequency commands differ in the register only. -/
def writeFreq (arg : UInt32) (offset : Nat) : Code Unit := do
  let data := arg &&& 0x0ffff
  let ok ← accessOk arg sizeofInt
  if ok = true then iowrite32 data offset else pure ()

def ioctlSwitch (cmd arg : UInt32) : Code Int :=
  let finish : Code Int := do
    up
    pure 0
  if cmd = inttimerReadReg0 then readReg0 arg >>= fun _ => finish
  else if cmd = inttimerWriteFreql then writeFreq arg 0x08 >>= fun _ => finish
  else if cmd = inttimerWriteFreqh then writeFreq arg 0x0c >>= fun _ => finish
  else do
    up
    pure (-ENOTTY)

/-- The semaphore is taken before the command word is looked at. -/
def hwIoctl (cmd arg : UInt32) : Code Int := do
  down
  if iocType cmd ≠ inttimerIocMagicNumber then pure (-ENOTTY)
  else if iocNr cmd ≥ inttimerIocMaxnumber then pure (-ENOTTY)
  else
    -- both directions ask for the same range
    let ok ← if iocDir cmd &&& iocRead ≠ 0 then accessOk arg (iocSize cmd) else accessOk arg (iocSize cmd)
    if ok = false then pure (-EFAULT) else ioctlSwitch cmd arg

inductive Call
  | read (count : Nat)
  | write (count : Nat)
  | ioctl (cmd arg : UInt32)

def Call.code : Call → Code Int
  | read count => hwRead count
  | write count => hwWrite count
  | ioctl cmd arg => hwIoctl cmd arg

end FlukeCda.Inttimer
