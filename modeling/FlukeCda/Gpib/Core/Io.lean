import FlukeCda.Interaction.Embedding

/-! # The transfers of the core

What `read_ioctl` and `write_ioctl` ask of the kernel, of the board and of the
driver below them.
-/

namespace FlukeCda.Gpib.Core
open Interaction Program

/-- Set by `gpib_allocate_board`. -/
def bufferLength : Nat := 0x4000

/-- `read_write_ioctl_t` without the address of the caller's buffer. -/
structure ReadWriteIoctl where
  requestedTransferCount : Nat
  completedTransferCount : Nat
  ended : Bool
  handle : Int

/-- Positions in the caller's buffer are counted from its start. `boardBuffer` is what a
copy that failed has left in the board's buffer. -/
inductive IoOp (Driver : Type)
  | driver (op : Driver)
  | outOfRounds
  | copyCommandIn
  | copyCommandOut (cmd : ReadWriteIoctl)
  | handleToDescriptor (handle : Int)
  | accessOk (offset count : Nat)
  | copyFromUser (offset count : Nat)
  | boardBuffer
  | copyToUser (offset : Nat) (bytes : List UInt8)
  | setIoInProgress (value : Bool)
  | testMaster
  | ibgts
  | timerPending
  | usecTimeout
  | clearTimo
  | testTimo
  | addTimer
  | delTimerSync
  | wakeUpInterruptible

/-- A copy that fails answers with nothing, or with false. -/
@[reducible] def IoAnswer {Driver : Type} (Answer : Driver → Type) : IoOp Driver → Type
  | .driver op => Answer op
  | .outOfRounds => Empty
  | .copyCommandIn => Option ReadWriteIoctl
  | .copyFromUser _ _ => Option (Nat → UInt8)
  | .boardBuffer => Nat → UInt8
  | .copyCommandOut _ | .handleToDescriptor _ | .accessOk _ _ | .copyToUser _ _ => Bool
  | .testMaster | .timerPending | .testTimo => Bool
  | .ibgts => Int
  | .usecTimeout => Nat
  | .setIoInProgress _ | .clearTimo | .addTimer | .delTimerSync | .wakeUpInterruptible => Unit

section
variable {Driver : Type} {Answer : Driver → Type}

abbrev IoCode (Answer : Driver → Type) := Program (IoOp Driver) (IoAnswer Answer)

/-- A function of the driver. -/
def fromDriver {α : Type} (p : Program Driver Answer α) : IoCode Answer α :=
  embed IoOp.driver (fun _ answer => answer) p

def osStartTimer : IoCode Answer Unit := do
  let pending ← perform IoOp.timerPending
  onlyIf (pending = false) do
    perform IoOp.clearTimo
    let timeout ← perform IoOp.usecTimeout
    onlyIf (timeout > 0) (perform IoOp.addTimer)

def osRemoveTimer : IoCode Answer Unit := do
  let pending ← perform IoOp.timerPending
  onlyIf (pending = true) (perform IoOp.delTimerSync)

def ioTimedOut : IoCode Answer Bool := perform IoOp.testTimo

/-- The controller goes to standby first. -/
def standby : IoCode Answer Int := do
  let master ← perform IoOp.testMaster
  if master = true then perform IoOp.ibgts else pure 0

/-- The operations that neither reach the driver nor the caller's memory. -/
def IoOp.Aside {Driver : Type} : IoOp Driver → Prop
  | .driver _ | .outOfRounds | .copyCommandOut _ | .copyToUser _ _ => False
  | _ => True

theorem standby_aside : OnlyPerforms IoOp.Aside (standby : IoCode Answer Int) := by
  refine onlyPerforms_step trivial fun master => ?_
  cases master with
  | false => exact trivial
  | true => exact ⟨trivial, fun _ => trivial⟩

theorem osStartTimer_aside : OnlyPerforms IoOp.Aside (osStartTimer : IoCode Answer Unit) := by
  refine onlyPerforms_step trivial fun pending => ?_
  unfold onlyIf
  split_ifs
  · refine ⟨trivial, fun _ => ⟨trivial, fun timeout => ?_⟩⟩
    change OnlyPerforms IoOp.Aside (if timeout > 0 then perform IoOp.addTimer else done () : IoCode Answer Unit)
    split_ifs
    · exact ⟨trivial, fun _ => trivial⟩
    · exact trivial
  · exact trivial

theorem osRemoveTimer_aside : OnlyPerforms IoOp.Aside (osRemoveTimer : IoCode Answer Unit) := by
  refine onlyPerforms_step trivial fun pending => ?_
  unfold onlyIf
  split_ifs
  · exact ⟨trivial, fun _ => trivial⟩
  · exact trivial

/-- As much as the board's buffer holds. -/
def loadSize (remain : Nat) : Nat := if bufferLength < remain then bufferLength else remain

theorem loadSize_bounds (remain : Nat) (more : remain > 0) : 0 < loadSize remain ∧ loadSize remain ≤ remain ∧
    (remain ≤ bufferLength → loadSize remain = remain) := by
  unfold loadSize bufferLength
  split_ifs <;> omega

end

/-- The board as its driver sees it, with what the core does to it. -/
structure Below (Driver : Type) (Answer : Driver → Type) (Board : Type) where
  act : (op : Driver) → Answer op → Board → Board → Prop
  drift : Board → Board → Prop
  timo : Board → Bool
  putTimo : Board → Bool → Board
  standby : Board → Board → Prop

/-- The board and the caller. `user` is the caller's buffer, `cmd` its command. -/
structure Io (Board : Type) where
  board : Board
  user : Nat → UInt8
  cmd : ReadWriteIoctl
  timer : Bool
  usecTimeout : Nat
  master : Bool
  ioInProgress : Bool

section
variable {Driver Board : Type} {Answer : Driver → Type}

/-- The bytes from where the caller wants to go on. -/
def sent (start : Io Board) (i : Nat) : UInt8 := start.user (start.cmd.completedTransferCount + i)

/-- How many there are. -/
def asked (start : Io Board) : Nat := start.cmd.requestedTransferCount - start.cmd.completedTransferCount

variable (below : Below Driver Answer Board)

/-- The caller's buffer with the bytes from a position on. -/
def overwrite (user : Nat → UInt8) (offset : Nat) (bytes : List UInt8) (i : Nat) : UInt8 :=
  if offset ≤ i then (bytes[i - offset]?).getD (user i) else user i

theorem overwrite_nil (user : Nat → UInt8) (offset : Nat) : overwrite user offset [] = user := by
  funext i
  simp [overwrite]

theorem overwrite_append (user : Nat → UInt8) (offset : Nat) (bytes more : List UInt8) :
    overwrite (overwrite user offset bytes) (offset + bytes.length) more = overwrite user offset (bytes ++ more) := by
  funext i
  unfold overwrite
  by_cases later : offset + bytes.length ≤ i
  · have inside : offset ≤ i := by omega
    have beyond : bytes.length ≤ i - offset := by omega
    rw [if_pos later, if_pos inside, if_pos inside, List.getElem?_append_right beyond, List.getElem?_eq_none beyond,
      Nat.sub_add_eq]
    rfl
  · rw [if_neg later]
    by_cases inside : offset ≤ i
    · have before : i - offset < bytes.length := by omega
      rw [if_pos inside, if_pos inside, List.getElem?_append_left before]
    · rw [if_neg inside, if_neg inside]

/-- A copy that fails may have written some of what it was to write. -/
inductive IoAct : (op : IoOp Driver) → IoAnswer Answer op → Io Board → Io Board → Prop
  | driver {op : Driver} {answer : Answer op} {io} {board : Board} (acts : below.act op answer io.board board) :
      IoAct (.driver op) answer io { io with board }
  | copiedIn {io} : IoAct .copyCommandIn (some io.cmd) io io
  | faultIn {io} : IoAct .copyCommandIn none io io
  | copiedOut {io} {cmd : ReadWriteIoctl} : IoAct (.copyCommandOut cmd) true io { io with cmd }
  | faultOut {io} {cmd part : ReadWriteIoctl} : IoAct (.copyCommandOut cmd) false io { io with cmd := part }
  | handleToDescriptor {io} {handle : Int} {found : Bool} : IoAct (.handleToDescriptor handle) found io io
  | accessOk {io} {offset count : Nat} {fine : Bool} : IoAct (.accessOk offset count) fine io io
  | copiedFrom {io} {offset count : Nat} {bytes : Nat → UInt8}
      (same : ∀ i, i < count → bytes i = io.user (offset + i)) :
      IoAct (.copyFromUser offset count) (some bytes) io io
  | faultFrom {io} {offset count : Nat} : IoAct (.copyFromUser offset count) none io io
  | boardBuffer {io} {bytes : Nat → UInt8} : IoAct .boardBuffer bytes io io
  | copiedTo {io} {offset : Nat} {bytes : List UInt8} :
      IoAct (.copyToUser offset bytes) true io { io with user := overwrite io.user offset bytes }
  | faultTo {io} {offset : Nat} {bytes : List UInt8} {user : Nat → UInt8}
      (before : ∀ i, i < offset → user i = io.user i) :
      IoAct (.copyToUser offset bytes) false io { io with user }
  | setIoInProgress {io} {value : Bool} : IoAct (.setIoInProgress value) () io { io with ioInProgress := value }
  | testMaster {io} : IoAct .testMaster io.master io io
  | ibgts {io} {retval : Int} {board : Board} (stands : below.standby io.board board) :
      IoAct .ibgts retval io { io with board }
  | timerPending {io} : IoAct .timerPending io.timer io io
  | usecTimeout {io} : IoAct .usecTimeout io.usecTimeout io io
  | clearTimo {io} : IoAct .clearTimo () io { io with board := below.putTimo io.board false }
  | testTimo {io} : IoAct .testTimo (below.timo io.board) io io
  | addTimer {io} : IoAct .addTimer () io { io with timer := true }
  | delTimerSync {io} : IoAct .delTimerSync () io { io with timer := false }
  | wakeUpInterruptible {io} : IoAct .wakeUpInterruptible () io io

def watchdogTimeout (io : Io Board) : Io Board := { io with board := below.putTimo io.board true, timer := false }

/-- What happens while the call does nothing. The caller leaves its memory alone. -/
inductive IoDrift (io : Io Board) : Io Board → Prop
  | board {board : Board} (drifts : below.drift io.board board) : IoDrift io { io with board }
  | watchdogTimeout (pending : io.timer = true) : IoDrift io (watchdogTimeout below io)
  | settings {usecTimeout : Nat} {master : Bool} : IoDrift io { io with usecTimeout, master }

variable {below}

/-- What the driver runs on its board it runs in a transfer. -/
theorem fromDriver_run (io : Io Board) {α : Type} {p q : Program Driver Answer α} {s t : Board}
    (run : Relation.ReflTransGen (Moves below.act below.drift) (p, s) (q, t)) :
    Relation.ReflTransGen (Moves (IoAct below) (IoDrift below)) (fromDriver p, { io with board := s })
      (fromDriver q, { io with board := t }) :=
  run_embed IoOp.driver (fun _ answer => answer) (fun board => { io with board })
    (fun _ answer _ _ acts => ⟨answer, rfl, IoAct.driver acts⟩)
    (fun _ _ drifts => IoDrift.board drifts) run

end
end FlukeCda.Gpib.Core
