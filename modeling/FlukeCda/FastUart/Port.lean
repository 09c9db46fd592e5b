import FlukeCda.FastUart.Source

namespace FlukeCda.FastUart
open Interaction Program

def fnFastUartRxFifoSize : Nat := 0x800

/-- A byte of the line, with its place in the order of arrival, which tells
equal bytes apart. -/
structure Received where
  place : Nat
  value : UInt8
  deriving DecidableEq

/-- The DMA channel: nothing to do, a transfer submitted but not issued, or one
that moves bytes. -/
inductive Engine
  | idle
  | queued (length : Nat)
  | moving (length : Nat)
  deriving DecidableEq

/-- The port with its FIFO and its DMA channel. `arrived` and `tty` record what
has come over the line and what was handed on; `rxBuf` is what the last
transfer has written so far. -/
structure Device where
  fifo : List Received
  arrived : List Received
  tty : List Received
  rxBuf : List Received
  engine : Engine
  dma : Bool
  rxSize : Nat
  rxRunning : Bool
  rxXferLength : Nat
  ier : UInt8
  ierRegister : UInt8

def Device.started (dma : Bool) (rxSize : Nat) (ier : UInt8) : Device :=
  ⟨[], [], [], [], .idle, dma, rxSize, false, 0, ier, ier⟩

/-- What the environment decides in one interrupt: the line status before and
after programmed I/O and how many characters that takes, whether a descriptor
can be prepared, and whether transmit DMA is in error. -/
structure Outcomes where
  lsr : UInt8
  prepared : Bool
  chars : Nat
  lsrAfter : UInt8
  txErr : Bool

/-- One character of programmed I/O; with the FIFO empty there is none. -/
def Device.rxChar (dev : Device) : Device :=
  match dev.fifo with
  | [] => dev
  | byte :: rest => { dev with tty := dev.tty ++ [byte], fifo := rest }

def Device.residue (dev : Device) : Nat :=
  match dev.engine with
  | .idle => 0
  | .queued length | .moving length => length - dev.rxBuf.length

def Device.issue (dev : Device) : Device :=
  match dev.engine with
  | .queued length => { dev with engine := .moving length }
  | _ => dev

def handle (o : Outcomes) : (op : Op) → Device → Option (Answer op) × Device
  | .spinLockIrqsave, dev | .spinUnlockIrqrestore, dev => (some (), dev)
  | .serialPortInLsr, dev => (some o.lsr, dev)
  | .hasDma, dev => (some dev.dma, dev)
  | .txErr, dev => (some o.txErr, dev)
  | .rxRunning, dev => (some dev.rxRunning, dev)
  | .setRxRunning running, dev => (some (), { dev with rxRunning := running })
  | .readFifoMsb, dev => (some (dev.fifo.length / 256), dev)
  | .readFifoLsb, dev => (some (dev.fifo.length % 256), dev)
  | .spin, dev => (none, dev)
  | .rxSize, dev => (some dev.rxSize, dev)
  | .rxXferLength, dev => (some dev.rxXferLength, dev)
  | .setRxXferLength length, dev => (some (), { dev with rxXferLength := length })
  | .prepSlaveSingle length, dev => (some (if o.prepared = true then some ⟨length⟩ else none), dev)
  | .ier, dev => (some dev.ier, dev)
  | .setIer value, dev => (some (), { dev with ier := value })
  | .serialOutIer value, dev => (some (), { dev with ierRegister := value })
  | .submit desc, dev => (some (), { dev with engine := .queued desc.length, rxBuf := [] })
  | .issuePending, dev => (some (), dev.issue)
  | .syncSingleForCpu _, dev | .syncSingleForDevice _, dev => (some (), dev)
  | .txStatusResidue, dev => (some dev.residue, dev)
  | .ttyInsertFlipString count, dev => (some (), { dev with tty := dev.tty ++ dev.rxBuf.take count })
  | .rxCharsCount, dev => (some o.chars, dev)
  | .rxChar, dev => (some (), dev.rxChar)
  | .rxCharsStatus, dev => (some o.lsrAfter, dev)
  | .modemStatus, dev | .txChars, dev => (some (), dev)

/-- A byte comes over the line, while the FIFO has room for it. -/
def Device.arrive (value : UInt8) (dev : Device) : Option Device :=
  let byte : Received := ⟨dev.arrived.length, value⟩
  if dev.fifo.length < fnFastUartRxFifoSize then
    some { dev with fifo := dev.fifo ++ [byte], arrived := dev.arrived ++ [byte] }
  else none

/-- The DMA channel moves the byte at the head of the FIFO. -/
def Device.move (dev : Device) : Option Device :=
  match dev.engine, dev.fifo with
  | .moving length, byte :: rest =>
    if dev.rxBuf.length < length then some { dev with rxBuf := dev.rxBuf ++ [byte], fifo := rest } else none
  | _, _ => none

/-- A call of the interrupt handler, or of the completion callback. -/
inductive Call
  | handleIrq (iir : UInt32) (o : Outcomes)
  | rxComplete

def Call.code : Call → Code Unit
  | .handleIrq iir _ => fnFastUartHandleIrq iir >>= fun _ => pure ()
  | .rxComplete => fnFastUartDmaRxComplete

/-- The callback prepares nothing and takes no characters, so no outcome matters to it. -/
def Call.outcomes : Call → Outcomes
  | .handleIrq _ o => o
  | .rxComplete => ⟨0, false, 0, 0, false⟩

/-- Both calls begin by taking the port lock and end by releasing it, so one of
them runs at a time; a call that waits for the lock has done nothing yet and
is not shown. -/
structure System where
  dev : Device
  running : Option (Call × Code Unit)

inductive Label
  | arrive (value : UInt8)
  | move
  | handleIrq (iir : UInt32) (o : Outcomes)
  | rxComplete
  | perform
  | finish

def System.started (dma : Bool) (rxSize : Nat) (ier : UInt8) : System := ⟨.started dma rxSize ier, none⟩

/-- One step: a byte arrives or is moved, a call begins, performs its next
operation or returns. The callback is called once for each transfer, when the
submitted length has been moved. -/
def System.step (s : System) : Label → Option System
  | .arrive value => (s.dev.arrive value).map fun dev => { s with dev }
  | .move => s.dev.move.map fun dev => { s with dev }
  | .handleIrq iir o =>
    let current := Call.handleIrq iir o
    if s.running.isNone then some { s with running := some (current, current.code) } else none
  | .rxComplete =>
    if s.running.isNone ∧ s.dev.engine = .moving s.dev.rxBuf.length then
      some ⟨{ s.dev with engine := .idle }, some (.rxComplete, Call.rxComplete.code)⟩
    else none
  | .perform =>
    match s.running with
    | some (current, .call op next) =>
      match handle current.outcomes op s.dev with
      | (some answer, dev) => some ⟨dev, some (current, next answer)⟩
      | (none, _) => none
    | _ => none
  | .finish =>
    match s.running with
    | some (_, .done _) => some { s with running := none }
    | _ => none

def System.run : List Label → System → Option System
  | [], s => some s
  | label :: rest, s => (s.step label).bind (run rest)

end FlukeCda.FastUart
