import FlukeCda.Port.Kernel

namespace FlukeCda.Gpio
open Interaction Program Port

def fgpioIocMagicNumber : UInt32 := 0x78
def fgpioIocMaxnumber : UInt32 := 5
def fgpioIntsOff : UInt32 := iowInt fgpioIocMagicNumber 0
def fgpioGetintMask : UInt32 := iorInt fgpioIocMagicNumber 1
def fgpioSetintMask : UInt32 := iowInt fgpioIocMagicNumber 2
def fgpioFlushQueue : UInt32 := iowInt fgpioIocMagicNumber 3
def fgpioReadReg0 : UInt32 := iorInt fgpioIocMagicNumber 4

/-- The fields of `struct fgpio_port` that the operations read; none writes them. -/
structure FgpioPort where
  irq : UInt32
  bits : UInt32
  direction : UInt32

def qInitOp : Code Unit := perform Op.qInit
def qEnqueueOp (x : UInt32) : Code Int := perform (Op.qEnqueue x)
def qDequeueOp : Code UInt32 := perform Op.qDequeue

/-- The loop of `hw_read` in interrupt mode; a zero byte ends it. -/
def readEvents : Nat → Code (List UInt8)
  | 0 => pure []
  | n + 1 => do
    let x ← qDequeueOp
    if x.toUInt8 = 0 then pure []
    else
      let rest ← readEvents n
      pure (x.toUInt8 :: rest)

/-- The loop of `hw_read` without interrupts. -/
def readPins (fgpiop : FgpioPort) : Nat → Code (List UInt8)
  | 0 => pure []
  | n + 1 => do
    let value ← ioread32 0
    let rest ← readPins fgpiop n
    pure ((value &&& fgpiop.bits).toUInt8 :: rest)

def makeReadable (fgpiop : FgpioPort) : Code Unit :=
  if fgpiop.direction &&& 0x100 ≠ 0 then iowrite32 0x00 4 else pure ()

/-- In interrupt mode `hw_read` takes events, otherwise samples of the pins. -/
def fillBuffer (fgpiop : FgpioPort) (count : Nat) : Code (List UInt8) :=
  if fgpiop.irq ≠ 0 then readEvents count
  else do
    makeReadable fgpiop
    readPins fgpiop count

def hwRead (fgpiop : FgpioPort) (count : Nat) : Code Int := do
  let result ← downInterruptible
  if result ≠ 0 then pure (-ERESTARTSYS)
  else
    let tbuf ← kmalloc count
    if tbuf = false then
      up
      pure (-ENOMEM)
    else
      let bytes ← fillBuffer fgpiop count
      let left ← copyToUser bytes
      let retval : Int := if left ≠ 0 then -EFAULT else bytes.length
      kfree
      up
      pure retval

/-- The loop of `hw_write`, from index `i` on. -/
def writePins (fgpiop : FgpioPort) (direction : UInt8) (tbuf : Nat → UInt8) (i : Nat) : Nat → Code Unit
  | 0 => pure ()
  | n + 1 => do
    let data := (tbuf i).toUInt32 &&& fgpiop.bits &&& direction.toUInt32
    iowrite32 data.toUInt8.toUInt32 0
    writePins fgpiop direction tbuf (i + 1) n

def drainBuffer (fgpiop : FgpioPort) (count : Nat) (copied : CopiedIn) : Code Int :=
  if copied.left ≠ 0 then pure (-EFAULT)
  else do
    let direction : UInt8 := if fgpiop.direction &&& 0x100 ≠ 0 then 0xff else fgpiop.direction.toUInt8
    iowrite32 direction.toUInt32 4
    writePins fgpiop direction copied.bytes 0 count
    pure count

def hwWrite (fgpiop : FgpioPort) (count : Nat) : Code Int := do
  let result ← downInterruptible
  if result ≠ 0 then pure (-ERESTARTSYS)
  else
    let tbuf ← kmalloc count
    if tbuf = false then
      up
      pure (-ENOMEM)
    else
      let copied ← copyFromUser count
      let retval ← drainBuffer fgpiop count copied
      kfree
      up
      pure retval

def intsOff (fgpiop : FgpioPort) : Code Unit := if fgpiop.irq ≠ 0 then iowrite32 0x00 8 else pure ()

def getintMask (fgpiop : FgpioPort) (arg : UInt32) : Code Unit := do
  let ok ← accessOk arg sizeofInt
  if ok = true ∧ fgpiop.irq ≠ 0 then
    let mask ← ioread32 8
    storeUser arg mask
  else pure ()

def setintMask (fgpiop : FgpioPort) (arg : UInt32) : Code Unit := do
  let ok ← accessOk arg sizeofInt
  if ok = true ∧ fgpiop.irq ≠ 0 then iowrite32 arg 8 else pure ()

def readReg0 (arg : UInt32) : Code Unit := do
  let ok ← accessOk arg sizeofInt
  if ok = true then
    let data ← ioread32 0
    storeUser arg data
  else pure ()

/-- The `switch` of `hw_ioctl`; its default branch releases the semaphore by hand. -/
def ioctlSwitch (fgpiop : FgpioPort) (cmd arg : UInt32) : Code Int :=
  let finish : Code Int := do
    up
    pure 0
  if cmd = fgpioIntsOff then intsOff fgpiop >>= fun _ => finish
  else if cmd = fgpioGetintMask then getintMask fgpiop arg >>= fun _ => finish
  else if cmd = fgpioSetintMask then setintMask fgpiop arg >>= fun _ => finish
  else if cmd = fgpioFlushQueue then qInitOp >>= fun _ => finish
  else if cmd = fgpioReadReg0 then readReg0 arg >>= fun _ => finish
  else do
    up
    pure (-ENOTTY)

def hwIoctl (fgpiop : FgpioPort) (cmd arg : UInt32) : Code Int :=
  if iocType cmd ≠ fgpioIocMagicNumber then pure (-ENOTTY)
  else if iocNr cmd ≥ fgpioIocMaxnumber then pure (-ENOTTY)
  else do
    -- both directions ask for the same range
    let ok ← if iocDir cmd &&& iocRead ≠ 0 then accessOk arg (iocSize cmd) else accessOk arg (iocSize cmd)
    if ok = false then pure (-EFAULT)
    else
      let result ← downInterruptible
      if result ≠ 0 then pure (-ERESTARTSYS)
      else ioctlSwitch fgpiop cmd arg

def irqHandled : Int := 1

def fgpioIrq (fgpiop : FgpioPort) : Code Int := do
  down
  makeReadable fgpiop
  let edges ← ioread32 12
  let _ ← qEnqueueOp (edges &&& fgpiop.bits &&& ~~~fgpiop.direction)
  iowrite32 0xff 12
  up
  pure irqHandled

/-- The entry points of the driver, with the arguments a caller chooses. -/
inductive Call
  | read (count : Nat)
  | write (count : Nat)
  | ioctl (cmd arg : UInt32)
  | irq

def Call.code (fgpiop : FgpioPort) : Call → Code Int
  | read count => hwRead fgpiop count
  | write count => hwWrite fgpiop count
  | ioctl cmd arg => hwIoctl fgpiop cmd arg
  | irq => fgpioIrq fgpiop

end FlukeCda.Gpio
