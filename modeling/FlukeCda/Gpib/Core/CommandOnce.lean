import FlukeCda.Gpib.Core.CommandIoctl

/-! # What a command request sends

At most one load of the board's buffer goes out, each byte once and in order. What is
longer is refused after that load.
-/

namespace FlukeCda.Gpib.Core
open Interaction Program
open Command (Chip Hears Idle Commanded Settled Went Sound)
open Relation (ReflTransGen)

/-- A load with these bytes. -/
def load (bytes : Nat → UInt8) (remain : Nat) : List UInt8 := (List.range (loadSize remain)).map bytes

/-- Some bytes of one load were heard, in order. -/
def HearsLoad (start : Io Chip) (chip : Chip) : Prop :=
  ∃ bytes, Hears start.board.heard start.board.cdor (load bytes (asked start)) chip

def Commands (start io : Io Chip) : Prop := HearsLoad start io.board

/-- The load was written, and so much is returned. -/
abbrev SentLoad (start : Io Chip) (bytes : Nat → UInt8) : Int → Chip → Prop :=
  Commanded start.board.heard start.board.cdor (load bytes (asked start))

/-- What the chip does, and the timer, leaves it true. -/
structure Lasting (P : Chip → Prop) : Prop where
  drift : ∀ chip after, Command.Drift chip after → P chip → P after
  timo : ∀ chip value, P chip → P (chip.putFlag .timo value)

/-- So much is known of the chip, and of its command the caller knows so much. -/
structure Standing (start : Io Chip) (known : ReadWriteIoctl → Prop) (P : Chip → Prop) (io : Io Chip) : Prop where
  chip : P io.board
  user : io.user = start.user
  cmd : known io.cmd

section
variable {start io after : Io Chip} {known : ReadWriteIoctl → Prop} {P : Chip → Prop} {retval : Int} {n : Nat}
  {base : List UInt8} {pending : Option UInt8} {buffer : List UInt8} {told : Bool} {chip : Chip}

theorem Standing.steady (lasting : Lasting P) (hears : ∀ chip, P chip → HearsLoad start chip) :
    Steady (IoDrift commandBelow) (Commands start) (Standing start known P) := by
  refine ⟨fun io after drifts here => ?_, fun io here => hears io.board here.chip⟩
  obtain ⟨chip, user, cmd⟩ := here
  cases drifts with
  | board drifts => exact ⟨lasting.drift _ _ drifts chip, user, cmd⟩
  | watchdogTimeout => exact ⟨lasting.timo _ _ chip, user, cmd⟩
  | settings => exact ⟨chip, user, cmd⟩

theorem Standing.aside {op : IoOp Command.Op} {answer : IoAnswer Command.Answer op} (lasting : Lasting P)
    (here : Standing start known P io) (aside : op.Aside) (acts : IoAct commandBelow op answer io after) :
    Standing start known P after := by
  obtain ⟨chip, user, cmd⟩ := here
  cases acts with
  | driver | copiedOut | faultOut | copiedTo | faultTo => exact aside.elim
  | ibgts stands => exact stands.elim
  | clearTimo => exact ⟨lasting.timo _ _ chip, user, cmd⟩
  | copiedIn | faultIn | handleToDescriptor | accessOk | copiedFrom | faultFrom | boardBuffer | setIoInProgress
  | testMaster | timerPending | usecTimeout | testTimo | addTimer | delTimerSync | wakeUpInterruptible =>
    exact ⟨chip, user, cmd⟩

/-- What the chip has heard when the loop is left: where a number of bytes is
returned, and the copy was fine, all that the caller sends, or a loss is to be noticed. -/
structure SentOnce (start : Io Chip) (retval : Int) (fault : Bool) (chip : Chip) : Prop where
  part : ∃ bytes ret, SentLoad start bytes ret chip
  whole : 0 < retval → fault = false →
    Settled start.board.heard start.board.cdor (load (sent start) (asked start)) (loadSize (asked start)) chip

theorem SentOnce.error {fault : Bool} {error : Int} (once : SentOnce start retval fault chip) (failed : error < 0) :
    SentOnce start error fault chip :=
  ⟨once.part, fun positive => absurd positive (Int.not_lt.mpr (Int.le_of_lt failed))⟩

end

/-- An active controller, and a caller that sends one command byte. -/
def oneCommand : Io Chip :=
  ⟨⟨none, [], false, true, true, fun flag => flag == .commandReady || flag == .cic, false⟩, fun _ => 0x3f,
    ⟨1, 0, false, 0⟩, false, 0, true, false⟩

/-- The call returns 1 whatever becomes of the byte. -/
theorem oneCommand_returns {heard : List UInt8} {err : Bool}
    (drifts : ∀ chip : Chip, chip.Active → chip.cdor = some 0x3f → chip.heard = [] → chip.err = false →
      Command.Drift chip { chip with cdor := none, heard, err }) :
    ∃ io, ReflTransGen (Moves (IoAct commandBelow) (IoDrift commandBelow)) (commandIoctl 100, oneCommand) (.done 1, io) ∧
      io.board.heard = heard := by
  have same : ∀ i, i < 1 → oneCommand.user i = oneCommand.user (0 + i) := fun _ _ => rfl
  have run : ∃ io retval, ReflTransGen (Moves (IoAct commandBelow) (IoDrift commandBelow))
      (commandIoctl 100, oneCommand) (.done retval, io) ∧ io.board.heard = heard ∧ retval = 1 := by
    refine ⟨?io, ?retval, ?run, ?heard, ?one⟩
    case run =>
      refine .head (.perform .copiedIn) ?_
      refine .head (.perform (IoAct.handleToDescriptor : IoAct commandBelow _ true _ _)) ?_
      refine .head (.perform (IoAct.accessOk : IoAct commandBelow _ true _ _)) ?_
      refine .head (.perform .setIoInProgress) ?_
      refine .head (.perform (.copiedFrom same)) ?_
      refine .head (.perform (.driver .testBit)) ?_
      refine .head (.perform .timerPending) ?_
      refine .head (.perform .clearTimo) ?_
      refine .head (.perform .usecTimeout) ?_
      refine .head (.perform (.driver .testBit)) ?_
      refine .head (.perform (.driver .writeAuxmr)) ?_
      refine .head (.perform (.driver .readAdsr)) ?_
      refine .head (.perform (.driver .updateStatus)) ?_
      refine .head (.perform (.driver .clearBit)) ?_
      refine .head (.perform (.driver (.waited rfl))) ?_
      refine .head (.perform (.driver .testBit)) ?_
      refine .head (.perform (.driver .testAndClearBit)) ?_
      refine .head (.perform (.driver (.spinLockIrqsave rfl))) ?_
      refine .head (.perform (.driver .clearBit)) ?_
      refine .head (.perform (.driver .writeCdor)) ?_
      refine .head (.perform (.driver .spinUnlockIrqrestore)) ?_
      refine .head (.drift (.board (drifts _ ⟨rfl, rfl⟩ rfl rfl rfl))) ?_
      refine .head (.drift (.board (.commandReady rfl rfl))) ?_
      refine .head (.perform (.driver (.waited rfl))) ?_
      refine .head (.perform (.driver .testBit)) ?_
      refine .head (.perform (.driver .testAndClearBit)) ?_
      refine .head (.perform .timerPending) ?_
      refine .head (.perform .testTimo) ?_
      refine .head (.perform .copiedOut) ?_
      refine .head (.perform .setIoInProgress) ?_
      refine .head (.perform .wakeUpInterruptible) ?_
      change ReflTransGen _ (Program.done _, _) _
      exact .refl
    case heard => rfl
    case one => rfl
  obtain ⟨io, _, run, heard, rfl⟩ := run
  exact ⟨io, run, heard⟩

/-- The byte is lost and the call returns 1, for COMMAND_READY is set before BUS_ERROR. -/
theorem command_lost_unnoticed :
    ∃ io, ReflTransGen (Moves (IoAct commandBelow) (IoDrift commandBelow)) (commandIoctl 100, oneCommand) (.done 1, io) ∧
      io.board.heard = [] := by
  have loses : ∀ chip : Chip, chip.Active → chip.cdor = some 0x3f → chip.heard = [] → chip.err = false →
      Command.Drift chip { chip with cdor := none, heard := [], err := true } := by
    rintro ⟨cdor, heard, err⟩ active full rfl rfl
    exact .lose active full
  exact oneCommand_returns loses

end FlukeCda.Gpib.Core
