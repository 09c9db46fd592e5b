import FlukeCda.Gpib.Source
import Mathlib.Logic.Function.Basic

namespace FlukeCda.Gpib

/-- A byte that the chip accepted, and whether END goes with it. -/
structure Accepted where
  value : UInt8
  eoi : Bool

/-- The DMA channel: without a transfer, with one that is submitted but not
issued, or with one that has moved the bytes before `next`. -/
inductive Channel
  | idle
  | queued (length : Nat)
  | running (next length : Nat)
  deriving DecidableEq

/-- The driver's data, the DMA channel and the chip. `seoi` says that END is
armed for the next byte. -/
structure Board where
  accepted : List Accepted
  seoi : Bool
  writeTransferCounter : Nat
  dmaBuffer : Nat → UInt8
  channel : Channel
  hasDmaChannel : Bool
  flags : Flag → Bool
  regBits : Reg → UInt8
  chipRegs : Reg → UInt8
  locked : Bool

/-- The values of the bytes accepted so far, in order. -/
def Board.values (board : Board) : List UInt8 := board.accepted.map Accepted.value

def Board.putFlag (board : Board) (flag : Flag) (value : Bool) : Board :=
  { board with flags := Function.update board.flags flag value }

/-- The new bits go to the shadow and from there to the chip. -/
def Board.putRegBits (board : Board) (reg : Reg) (mask bits : UInt8) : Board :=
  let value := (board.regBits reg &&& ~~~mask) ||| (mask &&& bits)
  { board with regBits := Function.update board.regBits reg value,
               chipRegs := Function.update board.chipRegs reg value }

/-- The condition that ends a wait. -/
def Board.ready (board : Board) : Wait → Bool
  | .idle wakeOnListenerIdle wakeOnTalkerIdle =>
    (wakeOnListenerIdle && !board.flags .lacs) ||
      (wakeOnTalkerIdle && !board.flags .tacs) || board.flags .devClear || board.flags .timo
  | .written length =>
    board.writeTransferCounter &&& writeTransferCounterMask == length || board.flags .busError ||
      board.flags .devClear ||
      board.flags .timo

/-- The chip accepts the next byte of the running transfer. -/
def Board.accept (board : Board) : Option Board :=
  match board.channel with
  | .running next length =>
    if next < length then
      some { board with accepted := board.accepted ++ [⟨board.dmaBuffer next, board.seoi⟩], seoi := false
                        writeTransferCounter := board.writeTransferCounter + 1,
                        channel := .running (next + 1) length }
    else none
  | _ => none

/-- The engine calls `fluke_dma_callback` when the whole transfer is moved, and
the callback gets the spin lock. -/
def Board.complete (board : Board) : Option Board :=
  match board.channel with
  | .running next length =>
    if next = length ∧ board.locked = false then
      some ((({ board with channel := .idle }.putRegBits .imr1 (HR_DOIE ||| HR_DIIE)
        (HR_DOIE ||| HR_DIIE)).putFlag .dmaWriteInProgress false).putFlag .dmaReadInProgress false)
    else none
  | _ => none

/-- The flags that are tested after a wait are set by others at any time, and
cleared by nobody else; the in-progress flags are not touched. -/
def Interrupted (before after : Flag → Bool) : Prop :=
  (∀ flag, flag = .timo ∨ flag = .devClear ∨ flag = .busError → before flag = true → after flag = true) ∧
    ∀ flag, flag = .dmaWriteInProgress ∨ flag = .dmaReadInProgress → after flag = before flag

/-- What happens to the board while the write does nothing. -/
inductive Drift (board : Board) : Board → Prop
  | accept {after : Board} (accepts : board.accept = some after) : Drift board after
  | complete {after : Board} (completes : board.complete = some after) : Drift board after
  | interrupt {flags : Flag → Bool} (interrupted : Interrupted board.flags flags) :
      Drift board { board with flags }

/-- What an operation of the write answers and does. A wait that is not
interrupted by a signal ends with its condition true; the functions of the
kernel that can fail return a negative error or 0. -/
inductive Act : (op : Op) → Answer op → Board → Board → Prop
  | dmaChannel {board} : Act .dmaChannel board.hasDmaChannel board board
  | terminateAll {board} : Act .terminateAll () board { board with channel := .idle }
  | clearWriteTransferCounter {board} :
      Act .clearWriteTransferCounter () board { board with writeTransferCounter := 0 }
  | readWriteTransferCounter {board} : Act .readWriteTransferCounter board.writeTransferCounter board board
  | waited {board} {condition : Wait} (ready : board.ready condition = true) :
      Act (.waitEventInterruptible condition) (0 : Int) board board
  | signalled {board} {condition : Wait} : Act (.waitEventInterruptible condition) (-ERESTARTSYS) board board
  | testBit {board} {flag : Flag} : Act (.testBit flag) (board.flags flag) board board
  | testAndClearBit {board} {flag : Flag} :
      Act (.testAndClearBit flag) (board.flags flag) board (board.putFlag flag false)
  | setBit {board} {flag : Flag} : Act (.setBit flag) () board (board.putFlag flag true)
  | clearBit {board} {flag : Flag} : Act (.clearBit flag) () board (board.putFlag flag false)
  | memcpy {board} {bytes : Nat → UInt8} {length : Nat} :
      Act (.memcpy bytes length) () board
        { board with dmaBuffer := fun i => if i < length then bytes i else board.dmaBuffer i }
  | mapSingle {board} {length : Nat} : Act (.mapSingle length) () board board
  | unmapSingle {board} {length : Nat} : Act (.unmapSingle length) () board board
  | slaveConfig {board} {retval : Int} (error : retval ≤ 0) : Act .slaveConfig retval board board
  | prepared {board} {length : Nat} : Act (.prepSlaveSingle length) (some ⟨length⟩) board board
  | unprepared {board} {length : Nat} : Act (.prepSlaveSingle length) none board board
  | spinLockIrqsave {board} (free : board.locked = false) :
      Act .spinLockIrqsave () board { board with locked := true }
  | spinUnlockIrqrestore {board} : Act .spinUnlockIrqrestore () board { board with locked := false }
  | setRegBits {board} {reg : Reg} {mask bits : UInt8} :
      Act (.setRegBits reg mask bits) () board (board.putRegBits reg mask bits)
  | submit {board} {desc : Desc} : Act (.submit desc) () board { board with channel := .queued desc.length }
  | issuePending {board} {length : Nat} (queued : board.channel = .queued length) :
      Act .issuePending () board { board with channel := .running 0 length }
  | wakeUpInterruptible {board} : Act .wakeUpInterruptible () board board
  | internalInterrupt {board} {flags : Flag → Bool} (interrupted : Interrupted board.flags flags) :
      Act .internalInterrupt () board { board with flags }
  | seoi {board} : Act (.writeAuxmr .seoi) () board { board with seoi := true }
  | nbaf {board} : Act (.writeAuxmr .nbaf) () board { board with seoi := false }

end FlukeCda.Gpib
