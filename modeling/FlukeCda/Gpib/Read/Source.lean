import FlukeCda.Gpib.Source
import Mathlib.Logic.Function.Basic

/-! # Accelerated read

The interrupt's bookkeeping is spelled out here, for a read depends on when it
happens.
-/

namespace FlukeCda.Gpib.Read
open Interaction Program

def HR_DMAI : UInt8 := 0x10
def HR_HANDSHAKE_MASK : UInt8 := 0x03
def HR_HLDA : UInt8 := 0x01
def HR_HLDE : UInt8 := 0x02

/-- The bits of `board->status` and of `nec_priv->state` that a read looks at. -/
inductive Flag
  | timo
  | lacs
  | tacs
  | devClear
  | readReady
  | receivedEnd
  | rfdHoldoff
  | dmaWriteInProgress
  | dmaReadInProgress
  deriving DecidableEq

/-- The bits of ISR1 that tell of a received byte, HR_END and HR_DI. -/
structure Isr1 where
  endRx : Bool
  di : Bool

/-- What a process sleeps for. -/
inductive Wait
  | idle (wakeOnListenerIdle wakeOnTalkerIdle : Bool)
  | read

/-- What a read asks of the kernel and of the board. `memcpy` answers with what
it copies out of the DMA buffer. -/
inductive Op
  | bug
  | outOfRounds
  | waitEventInterruptible (condition : Wait)
  | testBit (flag : Flag)
  | testAndClearBit (flag : Flag)
  | setBit (flag : Flag)
  | clearBit (flag : Flag)
  | mapSingle (length : Nat)
  | unmapSingle (length : Nat)
  | slaveConfig
  | prepSlaveSingle (length : Nat)
  | spinLockIrqsave
  | spinUnlockIrqrestore
  | setRegBits (reg : Reg) (mask bits : UInt8)
  | submit (desc : Desc)
  | issuePending
  | udelay (microseconds : Nat)
  | pause
  | txStatus
  | terminateAll
  | memcpy (length : Nat)
  | wakeUpInterruptible
  | readIsr1
  | haveStatus (status1 : Isr1)
  | readAdr0
  | finishHandshake

/-- Of ADR0 only DATA_IN_STATUS is looked at. -/
@[reducible] def Answer : Op → Type
  | .testBit _ | .testAndClearBit _ | .readAdr0 => Bool
  | .bug | .outOfRounds => Empty
  | .waitEventInterruptible _ | .slaveConfig | .pause => Int
  | .prepSlaveSingle _ => Option Desc
  | .txStatus => Nat
  | .memcpy _ => List UInt8
  | .readIsr1 => Isr1
  | _ => Unit

abbrev Code := Program Op Answer

def bug {α : Type} : Code α := .call .bug Empty.elim
def outOfRounds {α : Type} : Code α := .call .outOfRounds Empty.elim
def waitEventInterruptible (condition : Wait) : Code Int := perform (Op.waitEventInterruptible condition)
def testBit (flag : Flag) : Code Bool := perform (Op.testBit flag)
def testAndClearBit (flag : Flag) : Code Bool := perform (Op.testAndClearBit flag)
def setBit (flag : Flag) : Code Unit := perform (Op.setBit flag)
def clearBit (flag : Flag) : Code Unit := perform (Op.clearBit flag)
def mapSingle (length : Nat) : Code Unit := perform (Op.mapSingle length)
def unmapSingle (length : Nat) : Code Unit := perform (Op.unmapSingle length)
def slaveConfig : Code Int := perform Op.slaveConfig
def prepSlaveSingle (length : Nat) : Code (Option Desc) := perform (Op.prepSlaveSingle length)
def spinLockIrqsave : Code Unit := perform Op.spinLockIrqsave
def spinUnlockIrqrestore : Code Unit := perform Op.spinUnlockIrqrestore
def setRegBits (reg : Reg) (mask bits : UInt8) : Code Unit := perform (Op.setRegBits reg mask bits)
def submit (desc : Desc) : Code Unit := perform (Op.submit desc)
def issuePending : Code Unit := perform Op.issuePending
def udelay (microseconds : Nat) : Code Unit := perform (Op.udelay microseconds)
def pause : Code Int := perform Op.pause
def txStatus : Code Nat := perform Op.txStatus
def terminateAll : Code Unit := perform Op.terminateAll
def memcpy (length : Nat) : Code (List UInt8) := perform (Op.memcpy length)
def wakeUpInterruptible : Code Unit := perform Op.wakeUpInterruptible
def readIsr1 : Code Isr1 := perform Op.readIsr1
def haveStatus (status1 : Isr1) : Code Unit := perform (Op.haveStatus status1)
def readAdr0 : Code Bool := perform Op.readAdr0
def finishHandshake : Code Unit := perform Op.finishHandshake

/-- What `nec7210_interrupt_have_status` records of a received byte. -/
def nec7210InterruptHaveStatus (auxaBits : UInt8) (status1 : Isr1) (flags : Flag → Bool) : Flag → Bool :=
  let received :=
    if status1.endRx = true then
      let ended := Function.update flags .receivedEnd true
      if auxaBits &&& HR_HANDSHAKE_MASK = HR_HLDE then Function.update ended .rfdHoldoff true else ended
    else flags
  if status1.di = true then
    let ready := Function.update received .readReady true
    if auxaBits &&& HR_HANDSHAKE_MASK = HR_HLDA then Function.update ready .rfdHoldoff true else ready
  else received

def waitForIdle (wakeOnListenerIdle wakeOnTalkerIdle : Bool) : Code Int := do
  let waited ← waitEventInterruptible (.idle wakeOnListenerIdle wakeOnTalkerIdle)
  afterWait (testBit .timo) (testAndClearBit .devClear) waited

def flukeGpibInternalInterrupt : Code Unit := do
  let status1 ← readIsr1
  haveStatus status1

def flukeDmaCallback : Code Unit := do
  spinLockIrqsave
  setRegBits .imr1 (HR_DOIE ||| HR_DIIE) (HR_DOIE ||| HR_DIIE)
  wakeUpInterruptible
  flukeGpibInternalInterrupt
  clearBit .dmaWriteInProgress
  clearBit .dmaReadInProgress
  spinUnlockIrqrestore

/-- Writes AUX_FH where nothing is left to be read. -/
def finishHoldoff : Code Unit := do
  let ready ← testBit .readReady
  onlyIf (ready = false) do
    finishHandshake
    clearBit .rfdHoldoff

def nec7210ReleaseRfdHoldoff : Code Unit := do
  spinLockIrqsave
  let holdoff ← testBit .rfdHoldoff
  onlyIf (holdoff = true) finishHoldoff
  spinUnlockIrqrestore

/-- The part of `fluke_dma_read` under the spin lock for the first time. -/
def startDmaRead (desc : Desc) : Code Unit := do
  spinLockIrqsave
  setRegBits .imr1 HR_DIIE 0
  setRegBits .imr2 HR_DMAI HR_DMAI
  submit desc
  issuePending
  setBit .dmaReadInProgress
  clearBit .readReady
  spinUnlockIrqrestore

/-- Waits for data to transfer. -/
def waitRead : Code Int := do
  let waited ← waitEventInterruptible .read
  afterWait (testBit .timo) (testBit .devClear) waited

def flukeGetDmaResidue : Code Nat := do
  let result ← pause
  if result < 0 then bug else txStatus

/-- Makes sure that the callback got called. -/
def finishCallback : Code Unit := do
  let inProgress ← testBit .dmaReadInProgress
  onlyIf (inProgress = true) flukeDmaCallback

/-- Stops the transfer, with the number of bytes read. -/
def stopDmaRead (length : Nat) : Code Nat := do
  setRegBits .imr2 HR_DMAI 0
  udelay 10
  let residue ← flukeGetDmaResidue
  if residue > length then bug
  else do
    terminateAll
    finishCallback
    pure (length - residue)

/-- With a byte still on the cb7210 an END is that byte's. -/
def readEnd : Code Bool := do
  let dataIn ← readAdr0
  if dataIn = true then do
    setBit .readReady
    pure false
  else do
    clearBit .readReady
    testAndClearBit .receivedEnd

/-- The part of `fluke_dma_read` under the spin lock for the second time. -/
def settleEnd : Code Bool := do
  spinLockIrqsave
  let ended ← readEnd
  spinUnlockIrqrestore
  pure ended

/-- The returned value, what was put into the caller's buffer, and `*end`. -/
structure Outcome where
  retval : Int
  bytes : List UInt8
  ended : Bool

/-- From the submission of the transfer to its end. -/
def transferDma (length : Nat) (desc : Desc) : Code Outcome := do
  startDmaRead desc
  let retval ← waitRead
  let bytesRead ← stopDmaRead length
  unmapSingle length
  let bytes ← memcpy bytesRead
  let ended ← settleEnd
  pure ⟨retval, bytes, ended⟩

/-- The return after a clean-up. -/
def abandonDmaRead (length : Nat) (retval : Int) : Code Outcome := do
  unmapSingle length
  pure ⟨retval, [], false⟩

/-- Programs the DMA controller. -/
def programDma (length : Nat) : Code Outcome := do
  mapSingle length
  let retval ← slaveConfig
  if retval ≠ 0 then abandonDmaRead length retval
  else do
    let desc ← prepSlaveSingle length
    match desc with
    | none => abandonDmaRead length (- EIO)
    | some desc => transferDma length desc

def flukeDmaRead (length : Nat) : Code Outcome :=
  if length = 0 then pure ⟨0, [], false⟩
  else do
    let retval ← waitForIdle false true
    if retval < 0 then pure ⟨retval, [], false⟩ else programDma length

/-- After a further chunk. -/
def Outcome.followed (sofar chunk : Outcome) : Outcome := ⟨chunk.retval, sofar.bytes ++ chunk.bytes, chunk.ended⟩

/-- As much as the DMA buffer holds. -/
def transferSize (dmaBufferSize remain : Nat) : Nat := if dmaBufferSize < remain then dmaBufferSize else remain

/-- The loop of `fluke_accel_read`, watched for a number of rounds. -/
def readChunks (dmaBufferSize : Nat) : Nat → Nat → Outcome → Code Outcome
  | 0, _, _ => outOfRounds
  | rounds + 1, remain, sofar =>
    if remain > 0 then do
      let chunk ← flukeDmaRead (transferSize dmaBufferSize remain)
      if chunk.ended = true then pure (sofar.followed chunk)
      else if chunk.retval < 0 then pure (sofar.followed chunk)
      else readChunks dmaBufferSize rounds (remain - chunk.bytes.length) (sofar.followed chunk)
    else pure sofar

def flukeAccelRead (dmaBufferSize rounds length : Nat) : Code Outcome := do
  clearBit .devClear
  nec7210ReleaseRfdHoldoff
  readChunks dmaBufferSize rounds length ⟨0, [], false⟩

end FlukeCda.Gpib.Read
