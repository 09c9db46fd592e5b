import FlukeCda.Interaction.Program
import FlukeCda.Rescue.Commands

namespace FlukeCda.Rescue

/-- Outcome of one `getline` call. A failing call may have allocated its
buffer all the same. -/
inductive GetlineResult
  | line (bytes : List UInt8)
  | failed (errno : Int) (allocated : Bool)
  deriving DecidableEq

/-- What `getline` leaves in its arguments, with its return value. -/
structure GetlineReply where
  retval : Int
  errno : Int
  buffer : Option Nat
  bytes : List UInt8

/-- Calls of the rescue program into the C library. Buffers are named by the
number of their allocation; `none` is the null pointer. -/
inductive Op
  | printf (text : String)
  | fprintf (text : String)
  | getline
  | malloc
  | free (buffer : Option Nat)
  | system (command : Command)

@[reducible] def Answer : Op → Type
  | .printf _ | .fprintf _ | .free _ => Unit
  | .getline => GetlineReply
  | .malloc => Option Nat
  | .system _ => Int

abbrev Code := Interaction.Program Op Answer

inductive Event
  | printed (text : String)
  | reported (text : String)
  | read (result : GetlineResult) (buffer : Option Nat)
  | allocated (buffer : Option Nat)
  | freed (buffer : Option Nat)
  | executed (command : Command) (status : Option Int)
  deriving DecidableEq

/-- Everything a session does not decide itself: the input lines, the exit
status of each command (`none` when it never returns), which allocations
succeed, and what a failing copy leaves in its destination. -/
structure Inputs (Contents : Type) where
  lines : Nat → GetlineResult
  exits : Nat → Option Int
  mallocs : Nat → Bool
  garbage : Nat → Contents

structure Machine (Contents : Type) where
  linesRead : Nat
  commandsRun : Nat
  mallocCalls : Nat
  buffers : Nat
  storage : File → Contents
  trace : List Event

def Machine.start {Contents : Type} (storage : File → Contents) : Machine Contents :=
  ⟨0, 0, 0, 0, storage, []⟩

section Handler
variable {Contents : Type} (io : Inputs Contents)

def Machine.log (m : Machine Contents) (event : Event) : Machine Contents :=
  { m with trace := m.trace ++ [event] }

def Machine.getline (m : Machine Contents) : GetlineReply × Machine Contents :=
  match io.lines m.linesRead with
  | .line bytes =>
    (⟨bytes.length, 0, some m.buffers, bytes⟩,
      { m with linesRead := m.linesRead + 1, buffers := m.buffers + 1,
               trace := m.trace ++ [.read (.line bytes) (some m.buffers)] })
  | .failed errno true =>
    (⟨-1, errno, some m.buffers, []⟩,
      { m with linesRead := m.linesRead + 1, buffers := m.buffers + 1,
               trace := m.trace ++ [.read (.failed errno true) (some m.buffers)] })
  | .failed errno false =>
    (⟨-1, errno, none, []⟩,
      { m with linesRead := m.linesRead + 1, trace := m.trace ++ [.read (.failed errno false) none] })

def Machine.malloc (m : Machine Contents) : Option Nat × Machine Contents :=
  if io.mallocs m.mallocCalls then
    (some m.buffers, { m with mallocCalls := m.mallocCalls + 1, buffers := m.buffers + 1,
                              trace := m.trace ++ [.allocated (some m.buffers)] })
  else
    (none, { m with mallocCalls := m.mallocCalls + 1, trace := m.trace ++ [.allocated none] })

def Machine.execute (command : Command) (m : Machine Contents) : Machine Contents :=
  { m with commandsRun := m.commandsRun + 1
           storage := command.effect (io.exits m.commandsRun) (io.garbage m.commandsRun) m.storage
           trace := m.trace ++ [.executed command (io.exits m.commandsRun)] }

/-- Freeing a buffer again is recorded like the first time, and the program goes on; a
C library may abort it there. -/
def handle : (op : Op) → Machine Contents → Option (Answer op) × Machine Contents
  | .printf text, m => (some (), m.log (.printed text))
  | .fprintf text, m => (some (), m.log (.reported text))
  | .getline, m => (some (m.getline io).1, (m.getline io).2)
  | .malloc, m => (some (m.malloc io).1, (m.malloc io).2)
  | .free buffer, m => (some (), m.log (.freed buffer))
  | .system command, m => (io.exits m.commandsRun, m.execute io command)

end Handler

/-- The commands an event list executes, with their exit status. -/
def executed : List Event → List (Command × Option Int)
  | [] => []
  | .executed command status :: rest => (command, status) :: executed rest
  | _ :: rest => executed rest

theorem executed_append (xs ys : List Event) : executed (xs ++ ys) = executed xs ++ executed ys := by
  induction xs with
  | nil => rfl
  | cons event rest ih => cases event <;> simp [executed, ih]

def Machine.commands {Contents : Type} (m : Machine Contents) : List (Command × Option Int) := executed m.trace

end FlukeCda.Rescue
