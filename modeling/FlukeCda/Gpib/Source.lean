import FlukeCda.Interaction.Interference

namespace FlukeCda.Gpib
open Interaction Program

def ENXIO : Int := 6
def EINTR : Int := 4
def EIO : Int := 5
def ETIMEDOUT : Int := 110
def ERESTARTSYS : Int := 512

section
variable {Op : Type} {Answer : Op → Type} {allowed : Op → Prop}

/-- A status flag seen after a wait overrides what is to be returned. -/
def overrideIf (test : Program Op Answer Bool) (error retval : Int) : Program Op Answer Int := do
  let seen ← test
  pure (if seen = true then error else retval)

/-- What is to be returned after a wait. -/
def afterWait (timedOut deviceClear : Program Op Answer Bool) (waited : Int) : Program Op Answer Int := do
  let retval ← overrideIf timedOut (-ETIMEDOUT) (if waited ≠ 0 then -ERESTARTSYS else 0)
  overrideIf deviceClear (-EINTR) retval

theorem overrideIf_only {test : Program Op Answer Bool} (only : OnlyPerforms allowed test) (error retval : Int) :
    OnlyPerforms allowed (overrideIf test error retval) := onlyPerforms_bind only fun _ => trivial

theorem afterWait_only {timedOut deviceClear : Program Op Answer Bool} (first : OnlyPerforms allowed timedOut)
    (second : OnlyPerforms allowed deviceClear) (waited : Int) :
    OnlyPerforms allowed (afterWait timedOut deviceClear waited) :=
  onlyPerforms_bind (overrideIf_only first _ _) fun retval => overrideIf_only second _ retval

end

def HR_DIIE : UInt8 := 0x01
def HR_DOIE : UInt8 := 0x02
def HR_DMAO : UInt8 := 0x20

def writeTransferCounterMask : Nat := 0x7ff

/-- Set once, when the private data is allocated. -/
def dmaBufferSize : Nat := 0x7ff

/-- The bits of `board->status` and of `nec_priv->state` that a write looks at. -/
inductive Flag
  | timo
  | lacs
  | tacs
  | devClear
  | busError
  | writeReady
  | dmaWriteInProgress
  | dmaReadInProgress
  deriving DecidableEq

/-- The registers with a shadow in `reg_bits`. -/
inductive Reg
  | imr1
  | imr2
  deriving DecidableEq

/-- The commands of the auxiliary mode register that a write issues. -/
inductive Aux
  | seoi
  | nbaf

/-- What a process sleeps for. -/
inductive Wait
  | idle (wakeOnListenerIdle wakeOnTalkerIdle : Bool)
  | written (length : Nat)

/-- A prepared transfer from memory to the device. -/
structure Desc where
  length : Nat

/-- What a write asks of the kernel and of the board. `memcpy` fills the DMA
buffer. -/
inductive Op
  | dmaChannel
  | bug
  | outOfRounds
  | terminateAll
  | clearWriteTransferCounter
  | readWriteTransferCounter
  | waitEventInterruptible (condition : Wait)
  | testBit (flag : Flag)
  | testAndClearBit (flag : Flag)
  | setBit (flag : Flag)
  | clearBit (flag : Flag)
  | memcpy (bytes : Nat → UInt8) (length : Nat)
  | mapSingle (length : Nat)
  | unmapSingle (length : Nat)
  | slaveConfig
  | prepSlaveSingle (length : Nat)
  | spinLockIrqsave
  | spinUnlockIrqrestore
  | setRegBits (reg : Reg) (mask bits : UInt8)
  | submit (desc : Desc)
  | issuePending
  | wakeUpInterruptible
  | internalInterrupt
  | writeAuxmr (command : Aux)

@[reducible] def Answer : Op → Type
  | .dmaChannel | .testBit _ | .testAndClearBit _ => Bool
  | .bug | .outOfRounds => Empty
  | .readWriteTransferCounter => Nat
  | .waitEventInterruptible _ | .slaveConfig => Int
  | .prepSlaveSingle _ => Option Desc
  | _ => Unit

abbrev Code := Program Op Answer

def dmaChannel : Code Bool := perform Op.dmaChannel
def bug {α : Type} : Code α := .call .bug Empty.elim
def outOfRounds {α : Type} : Code α := .call .outOfRounds Empty.elim
def terminateAll : Code Unit := perform Op.terminateAll
def clearWriteTransferCounter : Code Unit := perform Op.clearWriteTransferCounter
def readWriteTransferCounter : Code Nat := perform Op.readWriteTransferCounter
def waitEventInterruptible (condition : Wait) : Code Int := perform (Op.waitEventInterruptible condition)
def testBit (flag : Flag) : Code Bool := perform (Op.testBit flag)
def testAndClearBit (flag : Flag) : Code Bool := perform (Op.testAndClearBit flag)
def setBit (flag : Flag) : Code Unit := perform (Op.setBit flag)
def clearBit (flag : Flag) : Code Unit := perform (Op.clearBit flag)
def memcpy (bytes : Nat → UInt8) (length : Nat) : Code Unit := perform (Op.memcpy bytes length)
def mapSingle (length : Nat) : Code Unit := perform (Op.mapSingle length)
def unmapSingle (length : Nat) : Code Unit := perform (Op.unmapSingle length)
def slaveConfig : Code Int := perform Op.slaveConfig
def prepSlaveSingle (length : Nat) : Code (Option Desc) := perform (Op.prepSlaveSingle length)
def spinLockIrqsave : Code Unit := perform Op.spinLockIrqsave
def spinUnlockIrqrestore : Code Unit := perform Op.spinUnlockIrqrestore
def setRegBits (reg : Reg) (mask bits : UInt8) : Code Unit := perform (Op.setRegBits reg mask bits)
def submit (desc : Desc) : Code Unit := perform (Op.submit desc)
def issuePending : Code Unit := perform Op.issuePending
def wakeUpInterruptible : Code Unit := perform Op.wakeUpInterruptible
def internalInterrupt : Code Unit := perform Op.internalInterrupt
def writeAuxmr (command : Aux) : Code Unit := perform (Op.writeAuxmr command)

def waitForIdle (wakeOnListenerIdle wakeOnTalkerIdle : Bool) : Code Int := do
  let waited ← waitEventInterruptible (.idle wakeOnListenerIdle wakeOnTalkerIdle)
  afterWait (testBit .timo) (testAndClearBit .devClear) waited

def flukeDmaCallback : Code Unit := do
  spinLockIrqsave
  setRegBits .imr1 (HR_DOIE ||| HR_DIIE) (HR_DOIE ||| HR_DIIE)
  wakeUpInterruptible
  internalInterrupt
  clearBit .dmaWriteInProgress
  clearBit .dmaReadInProgress
  spinUnlockIrqrestore

/-- The part of `fluke_dma_write` under the spin lock. -/
def startDmaWrite (desc : Desc) : Code Unit := do
  spinLockIrqsave
  setRegBits .imr1 HR_DOIE 0
  setRegBits .imr2 HR_DMAO HR_DMAO
  submit desc
  issuePending
  clearBit .writeReady
  setBit .dmaWriteInProgress
  spinUnlockIrqrestore

/-- Suspends until the message is sent. -/
def waitWritten (length : Nat) : Code Int := do
  let waited ← waitEventInterruptible (.written length)
  let retval ← afterWait (testBit .timo) (testAndClearBit .devClear) waited
  overrideIf (testAndClearBit .busError) (- EIO) retval

/-- Disables the board's DMA, and makes sure that the callback got called. -/
def stopDmaWrite : Code Unit := do
  setRegBits .imr2 HR_DMAO 0
  terminateAll
  let inProgress ← testBit .dmaWriteInProgress
  onlyIf (inProgress = true) flukeDmaCallback

/-- How many bytes were sent is read off the counter. -/
def countDmaWrite (length : Nat) (retval : Int) : Code (Int × Nat) := do
  let counter ← readWriteTransferCounter
  let bytesWritten := counter &&& writeTransferCounterMask
  if bytesWritten > length then bug
  else do
    unmapSingle length
    pure (retval, bytesWritten)

/-- From the submission of the transfer to its end. -/
def transferDma (length : Nat) (desc : Desc) : Code (Int × Nat) := do
  startDmaWrite desc
  let retval ← waitWritten length
  stopDmaWrite
  onlyIf (retval ≠ 0) (writeAuxmr .nbaf)
  countDmaWrite length retval

/-- The jump to the clean-up. -/
def abandonDmaWrite (length : Nat) (retval : Int) : Code (Int × Nat) := do
  unmapSingle length
  pure (retval, 0)

/-- Programs the DMA controller with the filled buffer. -/
def programDma (length : Nat) : Code (Int × Nat) := do
  mapSingle length
  let retval ← slaveConfig
  if retval ≠ 0 then abandonDmaWrite length retval
  else do
    let desc ← prepSlaveSingle length
    match desc with
    | none => abandonDmaWrite length (- EIO)
    | some desc => transferDma length desc

/-- The returned value, and `*bytes_written`. -/
def flukeDmaWrite (buffer : Nat → UInt8) (length : Nat) : Code (Int × Nat) :=
  if length > dmaBufferSize then bug
  else do
    terminateAll
    clearWriteTransferCounter
    let retval ← waitForIdle true false
    if retval < 0 then pure (retval, 0)
    else do
      memcpy buffer length
      programDma length

/-- The variables of `fluke_accel_write` that its loop changes. -/
structure Progress where
  buffer : Nat → UInt8
  dmaRemainder : Nat
  remainder : Nat
  bytesWritten : Nat

/-- After a chunk, whether it failed or not. -/
def Progress.count (at_ : Progress) (numBytes : Nat) : Progress :=
  { at_ with bytesWritten := at_.bytesWritten + numBytes }

/-- After a chunk that went well. -/
def Progress.advance (at_ : Progress) (numBytes : Nat) : Progress :=
  { at_.count numBytes with
    dmaRemainder := at_.dmaRemainder - numBytes
    remainder := at_.remainder - numBytes
    buffer := fun i => at_.buffer (numBytes + i) }

/-- As much as the DMA buffer holds. -/
def transferSize (dmaRemainder : Nat) : Nat :=
  if dmaBufferSize < dmaRemainder then dmaBufferSize else dmaRemainder

/-- The loop of `fluke_accel_write`, watched for a number of rounds. -/
def writeChunks : Nat → Progress → Code (Int × Progress)
  | 0, _ => outOfRounds
  | rounds + 1, at_ =>
    if at_.dmaRemainder > 0 then do
      let (retval, numBytes) ← flukeDmaWrite at_.buffer (transferSize at_.dmaRemainder)
      if retval < 0 then pure (retval, at_.count numBytes) else writeChunks rounds (at_.advance numBytes)
    else pure (0, at_)

/-- The last byte, with EOI. -/
def writeLastByte (at_ : Progress) : Code (Int × Nat) :=
  if at_.remainder ≠ 1 then bug
  else do
    writeAuxmr .seoi
    let (retval, numBytes) ← flukeDmaWrite at_.buffer at_.remainder
    pure (if retval < 0 then retval else 0, at_.bytesWritten + numBytes)

/-- After the loop. -/
def finishAccelWrite (sendEoi : Bool) (retval : Int) (at_ : Progress) : Code (Int × Nat) :=
  if retval < 0 then pure (retval, at_.bytesWritten)
  else if sendEoi = true then writeLastByte at_
  else pure (0, at_.bytesWritten)

/-- With EOI the last byte is not left to the loop. -/
def dmaTotal (length : Nat) (sendEoi : Bool) : Nat := if sendEoi = true then length - 1 else length

/-- The returned value, and `*bytes_written`, which keeps its value where there
is no DMA channel. -/
def flukeAccelWrite (buffer : Nat → UInt8) (length : Nat) (sendEoi : Bool) (bytesWritten : Nat) :
    Code (Int × Nat) := do
  let channel ← dmaChannel
  if channel = false then pure (- ENXIO, bytesWritten)
  else if length < 1 then pure (0, 0)
  else
    clearBit .devClear
    let (retval, at_) ← writeChunks (length + 1) ⟨buffer, dmaTotal length sendEoi, length, 0⟩
    finishAccelWrite sendEoi retval at_

end FlukeCda.Gpib
