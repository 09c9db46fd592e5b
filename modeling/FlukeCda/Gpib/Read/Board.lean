import FlukeCda.Gpib.Read.Source

namespace FlukeCda.Gpib.Read

/-- A byte on the bus, and whether END goes with it. -/
structure Incoming where
  value : UInt8
  eoi : Bool

inductive Channel
  | idle
  | queued
  | running
  | paused
  deriving DecidableEq

/-- Who, apart from the read itself, has the spin lock. -/
inductive Handler
  | interrupt
  | dmaCallback
  deriving DecidableEq

/-- The chip, the DMA channel and the driver's data. `held` is the byte on the
chip, `rest` what will come over the bus. `latch` is what the holder of the spin
lock has read from ISR1 and not yet recorded. `moved` are the bytes that the
transfer of `length` bytes has put into the DMA buffer, and `due` says that its
callback is still to run. -/
structure Board where
  rest : List Incoming
  held : Option Incoming
  holdoff : Bool
  isr1 : Isr1
  latch : Isr1
  auxaBits : UInt8
  dmaBuffer : Nat → UInt8
  moved : List Incoming
  channel : Channel
  length : Nat
  due : Bool
  flags : Flag → Bool
  regBits : Reg → UInt8
  chipRegs : Reg → UInt8
  serving : Option Handler
  locked : Bool

def Isr1.clear : Isr1 := ⟨false, false⟩

def Board.putFlag (board : Board) (flag : Flag) (value : Bool) : Board :=
  { board with flags := Function.update board.flags flag value }

/-- The new bits go to the shadow and from there to the chip. -/
def Board.putRegBits (board : Board) (reg : Reg) (mask bits : UInt8) : Board :=
  let value := (board.regBits reg &&& ~~~mask) ||| (mask &&& bits)
  { board with regBits := Function.update board.regBits reg value,
               chipRegs := Function.update board.chipRegs reg value }

/-- The condition that ends a wait. -/
def Board.ready (board : Board) : Wait → Bool
  | .idle wakeOnListenerIdle wakeOnTalkerIdle =>
    (wakeOnListenerIdle && !board.flags .lacs) ||
      (wakeOnTalkerIdle && !board.flags .tacs) || board.flags .devClear || board.flags .timo
  | .read =>
    !board.flags .dmaReadInProgress || board.flags .receivedEnd || board.flags .devClear || board.flags .timo

/-- The chip takes a byte from the bus. With END it takes no other before AUX_FH. -/
def Board.receive (board : Board) (byte : Incoming) (rest : List Incoming) : Board :=
  { board with rest, held := some byte, holdoff := byte.eoi, isr1 := ⟨board.isr1.endRx || byte.eoi, true⟩ }

/-- The DMA channel takes the byte from the chip, which may take DI back. -/
def Board.take (board : Board) (byte : Incoming) (di : Bool) : Board :=
  { board with held := none, dmaBuffer := Function.update board.dmaBuffer board.moved.length byte.value,
               moved := board.moved ++ [byte], isr1 := { board.isr1 with di } }

/-- A handler has got the spin lock, and read ISR1, which clears it. -/
def Board.enter (board : Board) (handler : Handler) : Board :=
  { board with locked := true, serving := some handler, latch := board.isr1, isr1 := .clear }

/-- What was read from ISR1 is recorded. -/
def Board.record (board : Board) (status1 : Isr1) : Board :=
  { board with flags := nec7210InterruptHaveStatus board.auxaBits status1 board.flags, latch := .clear }

/-- The callback enables the chip's interrupts again. -/
def Board.enterCallback (board : Board) : Board :=
  { board.putRegBits .imr1 (HR_DOIE ||| HR_DIIE) (HR_DOIE ||| HR_DIIE) with due := false }.enter .dmaCallback

/-- A handler comes to its end. -/
def Board.leave (board : Board) : Handler → Board
  | .interrupt => { board with serving := none, locked := false }
  | .dmaCallback =>
    { (board.putFlag .dmaWriteInProgress false).putFlag .dmaReadInProgress false with
      serving := none, locked := false }

/-- The flags that nobody but the read and the handlers sets and clears. -/
def Flag.Own (flag : Flag) : Prop :=
  flag = .readReady ∨ flag = .receivedEnd ∨ flag = .rfdHoldoff ∨ flag = .dmaReadInProgress

/-- What happens to the board while the read does nothing. A byte is moved when
the channel takes it, for the read does not look before the stop delay is over. A
handler has the spin lock from its reading of ISR1 on. A callback may come late,
even after its transfer was terminated, but not after the next one is submitted. -/
inductive Drift (board : Board) : Board → Prop
  | receive {byte : Incoming} {rest : List Incoming} (empty : board.held = none) (open_ : board.holdoff = false)
      (coming : board.rest = byte :: rest) : Drift board (board.receive byte rest)
  | take {byte : Incoming} {di : Bool} (held : board.held = some byte) (running : board.channel = .running)
      (enabled : board.chipRegs .imr2 &&& HR_DMAI ≠ 0) (room : board.moved.length < board.length)
      (seen : di = true → board.isr1.di = true) : Drift board (board.take byte di)
  | complete (moved : board.channel = .running ∨ board.channel = .paused)
      (full : board.moved.length = board.length) : Drift board { board with channel := .idle, due := true }
  | interrupt (free : board.locked = false) : Drift board (board.enter .interrupt)
  | callback (free : board.locked = false) (due : board.due = true) : Drift board board.enterCallback
  | record {handler : Handler} (serving : board.serving = some handler) : Drift board (board.record board.latch)
  | leave {handler : Handler} (serving : board.serving = some handler) (recorded : board.latch = .clear) :
      Drift board (board.leave handler)
  | flags {flags : Flag → Bool} (own : ∀ flag, flag.Own → flags flag = board.flags flag) :
      Drift board { board with flags }

/-- A paused transfer moves nothing. -/
def Board.pause (board : Board) : Board :=
  { board with channel := if board.channel = .running then .paused else board.channel }

/-- What an operation of the read answers and does. A wait that is not
interrupted by a signal ends with its condition true. -/
inductive Act : (op : Op) → Answer op → Board → Board → Prop
  | waited {board} {condition : Wait} (ready : board.ready condition = true) :
      Act (.waitEventInterruptible condition) (0 : Int) board board
  | signalled {board} {condition : Wait} : Act (.waitEventInterruptible condition) (-ERESTARTSYS) board board
  | testBit {board} {flag : Flag} : Act (.testBit flag) (board.flags flag) board board
  | testAndClearBit {board} {flag : Flag} :
      Act (.testAndClearBit flag) (board.flags flag) board (board.putFlag flag false)
  | setBit {board} {flag : Flag} : Act (.setBit flag) () board (board.putFlag flag true)
  | clearBit {board} {flag : Flag} : Act (.clearBit flag) () board (board.putFlag flag false)
  | mapSingle {board} {length : Nat} : Act (.mapSingle length) () board board
  | unmapSingle {board} {length : Nat} : Act (.unmapSingle length) () board board
  | slaveConfig {board} {retval : Int} (error : retval ≤ 0) : Act .slaveConfig retval board board
  | prepared {board} {length : Nat} : Act (.prepSlaveSingle length) (some ⟨length⟩) board board
  | unprepared {board} {length : Nat} : Act (.prepSlaveSingle length) none board board
  | spinLockIrqsave {board} (free : board.locked = false) :
      Act .spinLockIrqsave () board { board with locked := true }
  | spinUnlockIrqrestore {board} : Act .spinUnlockIrqrestore () board { board with locked := false }
  | setRegBits {board} {reg : Reg} {mask bits : UInt8} :
      Act (.setRegBits reg mask bits) () board (board.putRegBits reg mask bits)
  | submit {board} {desc : Desc} :
      Act (.submit desc) () board
        { board with channel := .queued, length := desc.length, moved := [], due := false }
  | issuePending {board} (queued : board.channel = .queued) :
      Act .issuePending () board { board with channel := .running }
  | udelay {board} {microseconds : Nat} : Act (.udelay microseconds) () board board
  | paused {board} {result : Int} (fine : 0 ≤ result) : Act .pause result board board.pause
  | refused {board} {result : Int} (error : result < 0) : Act .pause result board board
  | txStatus {board} : Act .txStatus (board.length - board.moved.length) board board
  | terminateAll {board} : Act .terminateAll () board { board with channel := .idle }
  | memcpy {board} {length : Nat} :
      Act (.memcpy length) ((List.range length).map board.dmaBuffer) board board
  | wakeUpInterruptible {board} : Act .wakeUpInterruptible () board board
  | readIsr1 {board} : Act .readIsr1 board.isr1 board { board with latch := board.isr1, isr1 := .clear }
  | haveStatus {board} {status1 : Isr1} : Act (.haveStatus status1) () board (board.record status1)
  | readAdr0 {board} : Act .readAdr0 board.held.isSome board board
  | finishHandshake {board} : Act .finishHandshake () board { board with holdoff := false }

end FlukeCda.Gpib.Read
