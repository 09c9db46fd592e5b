import FlukeCda.Interaction.Program

namespace FlukeCda.FastUart
open Interaction Program

def uartIirNoInt : UInt32 := 0x01
def uartIirRlsi : UInt32 := 0x06
def uartIirRxTimeout : UInt32 := 0x0c
def uartLsrDr : UInt8 := 0x01
def uartLsrBi : UInt8 := 0x10
def uartLsrThre : UInt8 := 0x20
def uartIerRdi : UInt8 := 0x01
def EBUSY : Int := 16

/-- A prepared transfer from the device to memory. -/
structure Desc where
  length : Nat

/-- What the receive path asks of the kernel and of the hardware, and its
accesses to the fields of the port. -/
inductive Op
  | spinLockIrqsave
  | spinUnlockIrqrestore
  | serialPortInLsr
  | hasDma
  | txErr
  | rxRunning
  | setRxRunning (running : Bool)
  | readFifoMsb
  | readFifoLsb
  | spin
  | rxSize
  | rxXferLength
  | setRxXferLength (length : Nat)
  | prepSlaveSingle (length : Nat)
  | ier
  | setIer (value : UInt8)
  | serialOutIer (value : UInt8)
  | submit (desc : Desc)
  | issuePending
  | syncSingleForCpu (length : Nat)
  | syncSingleForDevice (length : Nat)
  | txStatusResidue
  | ttyInsertFlipString (count : Nat)
  | rxCharsCount
  | rxChar
  | rxCharsStatus
  | modemStatus
  | txChars

@[reducible] def Answer : Op → Type
  | .serialPortInLsr | .ier | .rxCharsStatus => UInt8
  | .hasDma | .txErr | .rxRunning => Bool
  | .readFifoMsb | .readFifoLsb | .rxSize | .rxXferLength | .txStatusResidue | .rxCharsCount => Nat
  | .prepSlaveSingle _ => Option Desc
  | .spin => Empty
  | _ => Unit

abbrev Code := Program Op Answer

def spinLockIrqsave : Code Unit := perform Op.spinLockIrqsave
def spinUnlockIrqrestore : Code Unit := perform Op.spinUnlockIrqrestore
def serialPortInLsr : Code UInt8 := perform Op.serialPortInLsr
def hasDma : Code Bool := perform Op.hasDma
def txErr : Code Bool := perform Op.txErr
def rxRunning : Code Bool := perform Op.rxRunning
def setRxRunning (running : Bool) : Code Unit := perform (Op.setRxRunning running)
def readFifoMsb : Code Nat := perform Op.readFifoMsb
def readFifoLsb : Code Nat := perform Op.readFifoLsb
def rxSize : Code Nat := perform Op.rxSize
def rxXferLength : Code Nat := perform Op.rxXferLength
def setRxXferLength (length : Nat) : Code Unit := perform (Op.setRxXferLength length)
def prepSlaveSingle (length : Nat) : Code (Option Desc) := perform (Op.prepSlaveSingle length)
def ier : Code UInt8 := perform Op.ier
def setIer (value : UInt8) : Code Unit := perform (Op.setIer value)
def serialOutIer (value : UInt8) : Code Unit := perform (Op.serialOutIer value)
def submit (desc : Desc) : Code Unit := perform (Op.submit desc)
def issuePending : Code Unit := perform Op.issuePending
def syncSingleForCpu (length : Nat) : Code Unit := perform (Op.syncSingleForCpu length)
def syncSingleForDevice (length : Nat) : Code Unit := perform (Op.syncSingleForDevice length)
def txStatusResidue : Code Nat := perform Op.txStatusResidue
def ttyInsertFlipString (count : Nat) : Code Unit := perform (Op.ttyInsertFlipString count)
def rxCharsCount : Code Nat := perform Op.rxCharsCount
def rxChar : Code Unit := perform Op.rxChar
def rxCharsStatus : Code UInt8 := perform Op.rxCharsStatus
def modemStatus : Code Unit := perform Op.modemStatus
def txChars : Code Unit := perform Op.txChars

/-- The loop of `rx_fifo_level`, watched for a number of rounds; one that needs
more never gets past `spin`. -/
def rxFifoLevelFrom : Nat → Nat → Code Nat
  | 0, _ => .call .spin Empty.elim
  | rounds + 1, oldFifoLevelMsb => do
    let fifoLevelLsb ← readFifoLsb
    let fifoLevelMsb ← readFifoMsb
    if oldFifoLevelMsb = fifoLevelMsb then pure (((fifoLevelMsb &&& 0xff) <<< 8) ||| (fifoLevelLsb &&& 0xff))
    else rxFifoLevelFrom rounds fifoLevelMsb

/-- The most significant byte has 256 values. -/
def rxFifoLevel : Code Nat := readFifoMsb >>= rxFifoLevelFrom 257

/-- The interrupt enable bits are changed in memory and then written out. -/
def updateIer (f : UInt8 → UInt8) : Code Unit := do
  let old ← ier
  setIer (f old)
  let new ← ier
  serialOutIer new

/-- The end of `fn_fast_uart_rx_dma`, once there is a descriptor. -/
def startRxDma (desc : Desc) : Code Int := do
  setRxRunning true
  updateIer fun value => value &&& ~~~ uartIerRdi
  submit desc
  let length ← rxXferLength
  syncSingleForDevice length
  issuePending
  pure 0

def prepareRxDma : Code Int := do
  let length ← rxXferLength
  let desc ← prepSlaveSingle length
  match desc with
  | none => pure (-EBUSY)
  | some desc => startRxDma desc

/-- All but one of the bytes in the FIFO, and no more than the buffer holds. -/
def limitRxXferLength (fifoLevel : Nat) : Code Unit := do
  setRxXferLength (fifoLevel - 1)
  let length ← rxXferLength
  let size ← rxSize
  onlyIf (length > size) (setRxXferLength size)

def fnFastUartRxDma : Code Int := do
  let running ← rxRunning
  if running = true then pure 0
  else
    let fifoLevel ← rxFifoLevel
    if fifoLevel ≤ 1 then pure 0
    else
      limitRxXferLength fifoLevel
      prepareRxDma

def fnFastUartDmaRxComplete : Code Unit := do
  spinLockIrqsave
  let length ← rxXferLength
  syncSingleForCpu length
  setRxRunning false
  updateIer fun value => value ||| uartIerRdi
  let residue ← txStatusResidue
  let length ← rxXferLength
  ttyInsertFlipString (length - residue)
  spinUnlockIrqrestore

/-- Whether programmed I/O is to drain the FIFO. -/
def fnFastUartHandleRxDma (iir : UInt32) : Code Bool :=
  if iir &&& 0x3f = uartIirRxTimeout then do
    let running ← rxRunning
    pure (decide (running = false))
  else if iir &&& 0x3f = uartIirRlsi then pure true
  else do
    let result ← fnFastUartRxDma
    pure (decide (result ≠ 0))

def rxCharsLoop : Nat → Code Unit
  | 0 => pure ()
  | n + 1 => do
    rxChar
    rxCharsLoop n

/-- Takes characters while the line status shows some, and returns the last status. -/
def serial8250RxChars : Code UInt8 := do
  let count ← rxCharsCount
  rxCharsLoop count
  rxCharsStatus

/-- Without DMA everything is left to programmed I/O. -/
def unlessDma (dma : Bool) (programmed : Code Bool) : Code Bool := if dma = false then pure true else programmed

/-- The receiving part of `fn_fast_uart_handle_irq`. -/
def receive (iir : UInt32) (status : UInt8) : Code UInt8 :=
  if status &&& (uartLsrDr ||| uartLsrBi) = 0 then pure status
  else do
    let dma ← hasDma
    let programmed ← unlessDma dma (fnFastUartHandleRxDma iir)
    if programmed = true then serial8250RxChars else pure status

def fnFastUartHandleIrq (iir : UInt32) : Code Int :=
  if iir &&& uartIirNoInt ≠ 0 then pure 0
  else do
    spinLockIrqsave
    let status ← serialPortInLsr
    let status ← receive iir status
    modemStatus
    let dma ← hasDma
    let programmed ← unlessDma dma txErr
    onlyIf (programmed = true ∧ status &&& uartLsrThre ≠ 0) txChars
    spinUnlockIrqrestore
    pure 1

end FlukeCda.FastUart
