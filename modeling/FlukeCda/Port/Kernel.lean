import FlukeCda.Interaction.Guarded

namespace FlukeCda.Port
open Interaction Program

/-- What `copy_from_user` leaves: the number of bytes it did not copy, and the buffer. -/
structure CopiedIn where
  left : Nat
  bytes : Nat → UInt8

/-- What the operations of a port driver ask of the kernel and of the port. A
store through a user pointer that is not mapped never completes. -/
inductive Op
  | downInterruptible
  | down
  | up
  | kmalloc (size : Nat)
  | kfree
  | copyToUser (bytes : List UInt8)
  | copyFromUser (count : Nat)
  | accessOk (arg size : UInt32)
  | storeUser (arg value : UInt32)
  | ioread32 (offset : Nat)
  | iowrite32 (value : UInt32) (offset : Nat)
  | qInit
  | qEnqueue (x : UInt32)
  | qDequeue

@[reducible] def Answer : Op → Type
  | .downInterruptible | .qEnqueue _ => Int
  | .down | .up | .kfree | .storeUser _ _ | .iowrite32 _ _ | .qInit => Unit
  | .kmalloc _ | .accessOk _ _ => Bool
  | .copyToUser _ => Nat
  | .copyFromUser _ => CopiedIn
  | .ioread32 _ | .qDequeue => UInt32

abbrev Code := Program Op Answer

def downInterruptible : Code Int := perform Op.downInterruptible
def down : Code Unit := perform Op.down
def up : Code Unit := perform Op.up
def kmalloc (size : Nat) : Code Bool := perform (Op.kmalloc size)
def kfree : Code Unit := perform Op.kfree
def copyToUser (bytes : List UInt8) : Code Nat := perform (Op.copyToUser bytes)
def copyFromUser (count : Nat) : Code CopiedIn := perform (Op.copyFromUser count)
def accessOk (arg size : UInt32) : Code Bool := perform (Op.accessOk arg size)
def storeUser (arg value : UInt32) : Code Unit := perform (Op.storeUser arg value)
def ioread32 (offset : Nat) : Code UInt32 := perform (Op.ioread32 offset)
def iowrite32 (value : UInt32) (offset : Nat) : Code Unit := perform (Op.iowrite32 value offset)

def ENOMEM : Int := 12
def EFAULT : Int := 14
def ENOTTY : Int := 25
def ERESTARTSYS : Int := 512

/-- The fields of an ioctl number: 8 bits of number, 8 of type, 14 of size, 2 of direction. -/
def iocNr (cmd : UInt32) : UInt32 := cmd &&& 0xff
def iocType (cmd : UInt32) : UInt32 := (cmd >>> 8) &&& 0xff
def iocSize (cmd : UInt32) : UInt32 := (cmd >>> 16) &&& 0x3fff
def iocDir (cmd : UInt32) : UInt32 := (cmd >>> 30) &&& 3

def iocWrite : UInt32 := 1
def iocRead : UInt32 := 2

def ioc (dir type nr size : UInt32) : UInt32 := (dir <<< 30) ||| (type <<< 8) ||| nr ||| (size <<< 16)

def sizeofInt : UInt32 := 4

/-- `_IOR` and `_IOW` with an `int` argument. -/
def iorInt (type nr : UInt32) : UInt32 := ioc iocRead type nr sizeofInt
def iowInt (type nr : UInt32) : UInt32 := ioc iocWrite type nr sizeofInt

/-- The part each operation plays for the semaphore of the port. -/
def roleOf : (op : Op) → Answer op → Role
  | .downInterruptible, result => if result = 0 then .acquire else .neutral
  | .down, _ => .acquire
  | .up, _ => .release
  | .ioread32 _, _ | .iowrite32 _ _, _ | .qInit, _ | .qEnqueue _, _ | .qDequeue, _ => .access
  | .kmalloc _, _ | .kfree, _ | .copyToUser _, _ | .copyFromUser _, _
  | .accessOk _ _, _ | .storeUser _ _, _ => .neutral

end FlukeCda.Port
