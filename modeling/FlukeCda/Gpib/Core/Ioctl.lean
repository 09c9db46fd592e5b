import FlukeCda.Gpib.Core.Errno
import FlukeCda.Gpib.Source

/-! # The locks of the core

`ibioctl`, `ibclose` and the autospoll thread, with every path on which they take and
release a mutex. What the functions in between do is left open, as long as they do
not touch a mutex.
-/

namespace FlukeCda.Gpib.Core.Locks
open Interaction Program

/-- `user_mutex` and `big_gpib_mutex` of the board, and `descriptors_mutex` of a file. -/
inductive GpibMutex (φ : Type)
  | user
  | big
  | descriptors (file : φ)
  deriving DecidableEq

/-- The functions that touch no mutex. -/
inductive Handler
  | boardTypeIoctl
  | gpibAllocateBoard
  | gpibDeallocateBoard
  | attach
  | detach
  | iobaseIoctl
  | irqIoctl
  | dmaIoctl
  | autospollIoctl
  | boardInfoIoctl
  | padIoctl
  | sadIoctl
  | selectPciIoctl
  | eventIoctl
  | closeDevIoctl
  | incrementOpenDeviceCount
  | statusBytesIoctl
  | getGpibStatusQueue
  | generalIbstatus
  | lineStatusIoctl
  | returnToLocal
  | t1DelayIoctl
  | takeControlIoctl
  | eosIoctl
  | ibgts
  | ppcIoctl
  | queryBoardRsvIoctl
  | parallelPollIoctl
  | requestSystemControlIoctl
  | serialPollIoctl
  | requestServiceIoctl
  | interfaceClearIoctl
  | remoteEnableIoctl
  | timeoutIoctl
  | serialPollAll
  | commandIoctl
  | readIoctl
  | writeIoctl
  deriving DecidableEq

/-- What is tested on the way, with an answer that may be any. -/
inductive Query
  | copyFromUser
  | copyToUser
  | interface
  | getModule
  | online
  | lockMutex
  | freeDescriptor
  | kmalloc
  | handleToDescriptor
  | isBoard
  | waitMask
  | waitSatisfied
  | statusToClear
  | master
  | autospollers
  | tryModuleGet
  deriving DecidableEq

inductive LockOp (φ : Type)
  | lock (m : GpibMutex φ)
  | lockInterruptible (m : GpibMutex φ)
  | unlock (m : GpibMutex φ)
  | enter (handler : Handler)
  | leave (handler : Handler)
  | query (q : Query)
  | onlineCmd
  | sleep
  | outOfRounds
  | holdsLockingPid
  | setLockingPid
  | clearLockingPid
  | setHoldingMutex (file : φ) (value : Bool)
  | holdingMutex (file : φ)
  | cleanupOpenDevices (file : φ)
  | freePrivateData (file : φ)
  | readStuckSrq
  | setStuckSrq (value : Bool)
  | testAndClearSrqi
  | setSrqi
  | kthreadRun
  | kthreadShouldStop
  | autospollTask
  | clearAutospollTask
  | kthreadRequestStop (task : Nat)
  | kthreadAwaitExit (task : Nat)

/-- Taking a mutex interruptibly answers whether it was taken, and so does the
test that clears `locking_pid`; a sleep answers whether a signal ended it. -/
@[reducible] def LockAnswer {φ : Type} : LockOp φ → Type
  | .lockInterruptible _ | .query _ | .sleep | .holdsLockingPid | .clearLockingPid | .holdingMutex _ | .readStuckSrq
  | .testAndClearSrqi | .kthreadRun | .kthreadShouldStop => Bool
  | .leave _ | .kthreadAwaitExit _ => Int
  | .autospollTask => Option Nat
  | .onlineCmd => Except Int Bool
  | .outOfRounds => Empty
  | .lock _ | .unlock _ | .enter _ | .setLockingPid | .setHoldingMutex _ _ | .cleanupOpenDevices _ | .freePrivateData _
  | .setStuckSrq _ | .setSrqi | .clearAutospollTask | .kthreadRequestStop _ => Unit

section
variable {φ : Type}

abbrev LockCode (φ : Type) := Program (LockOp φ) LockAnswer

def lock (m : GpibMutex φ) : LockCode φ Unit := perform (LockOp.lock m)
def lockInterruptible (m : GpibMutex φ) : LockCode φ Bool := perform (LockOp.lockInterruptible m)
def unlock (m : GpibMutex φ) : LockCode φ Unit := perform (LockOp.unlock m)
def query (q : Query) : LockCode φ Bool := perform (LockOp.query q)

def invoke (handler : Handler) : LockCode φ Int := do
  perform (LockOp.enter handler)
  perform (LockOp.leave handler)

def kthreadStop (task : Nat) : LockCode φ Int := do
  perform (LockOp.kthreadRequestStop task)
  perform (LockOp.kthreadAwaitExit task)

/-- `autospoll_task` is stopped, if there is one. -/
def stopAutospoll : LockCode φ Unit := do
  let task ← perform LockOp.autospollTask
  match task with
  | none => pure ()
  | some task => do
    let _ ← kthreadStop task
    perform LockOp.clearAutospollTask

/-- After the attachment of the board. -/
def startAutospoll : LockCode φ Int := do
  let created ← perform LockOp.kthreadRun
  if created = false then do
    let _ ← invoke .detach
    pure 1
  else pure 0

def ibonline : LockCode φ Int := do
  let online ← query .online
  if online = true then pure (- EBUSY)
  else do
    let interface ← query .interface
    if interface = false then pure (- ENODEV)
    else do
      let retval ← invoke .gpibAllocateBoard
      if retval < 0 then pure retval
      else do
        let retval ← invoke .attach
        if retval < 0 then do
          let _ ← invoke .detach
          pure retval
        else startAutospoll

def iboffline : LockCode φ Int := do
  let online ← query .online
  if online = false then pure 0
  else do
    let interface ← query .interface
    if interface = false then pure (- ENODEV)
    else do
      stopAutospoll
      let _ ← invoke .detach
      let _ ← invoke .gpibDeallocateBoard
      pure 0

/-- The command comes with the init data, or with an error. -/
def onlineIoctl : LockCode φ Int := do
  let cmd ← perform LockOp.onlineCmd
  match cmd with
  | .error retval => pure retval
  | .ok true => ibonline
  | .ok false => iboffline

/-- With the number of a free descriptor. -/
def allocateDescriptor (file : φ) : LockCode φ Int := do
  let allocated ← query .kmalloc
  if allocated = false then do
    unlock (.descriptors file)
    pure (- ENOMEM)
  else do
    unlock (.descriptors file)
    let retval ← invoke .incrementOpenDeviceCount
    if retval < 0 then pure retval
    else do
      perform (LockOp.setStuckSrq false)
      let copied ← query .copyToUser
      if copied = false then pure (- EFAULT) else pure 0

/-- Without a free descriptor the mutex is not released. -/
def openDevIoctl (file : φ) : LockCode φ Int := do
  let copied ← query .copyFromUser
  if copied = false then pure (- EFAULT)
  else do
    let locked ← lockInterruptible (.descriptors file)
    if locked = false then pure (- ERESTARTSYS)
    else do
      let free ← query .freeDescriptor
      if free = false then pure (- ERANGE) else allocateDescriptor file

/-- The board's lock is taken. -/
def mutexLock (file : φ) : LockCode φ Int := do
  let locked ← lockInterruptible .user
  if locked = false then pure (- ERESTARTSYS)
  else do
    perform LockOp.setLockingPid
    perform (LockOp.setHoldingMutex file true)
    pure 0

/-- The board's lock is given back. -/
def mutexUnlock (file : φ) : LockCode φ Int := do
  let held ← perform LockOp.clearLockingPid
  if held = false then pure (- EPERM)
  else do
    perform (LockOp.setHoldingMutex file false)
    unlock .user
    pure 0

def mutexIoctl (file : φ) : LockCode φ Int := do
  let copied ← query .copyFromUser
  if copied = false then pure (- EFAULT)
  else do
    let lockMutex ← query .lockMutex
    if lockMutex = true then mutexLock file else mutexUnlock file

/-- Nonzero where the wait is over, also for an interruption. -/
def waitSatisfied : LockCode φ Bool := do
  let locked ← lockInterruptible .big
  if locked = false then pure true
  else do
    let _ ← invoke .generalIbstatus
    unlock .big
    query .waitSatisfied

/-- `wait_event_interruptible` for `wait_satisfied`, watched for a number of rounds. -/
def waitEvent : Nat → LockCode φ Int
  | 0 => .call .outOfRounds Empty.elim
  | rounds + 1 => do
    let satisfied ← waitSatisfied
    if satisfied = true then pure 0
    else do
      let signal ← perform LockOp.sleep
      if signal = true then pure (- ERESTARTSYS) else waitEvent rounds

def ibwait (rounds : Nat) : LockCode φ Int := do
  let isBoard ← query .isBoard
  onlyIf (isBoard = false) do
    let _ ← invoke .getGpibStatusQueue
    pure ()
  let waitMask ← query .waitMask
  if waitMask = false then do
    let _ ← invoke .generalIbstatus
    pure 0
  else do
    unlock .big
    let retval ← waitEvent rounds
    if retval ≠ 0 then pure retval
    else do
      let locked ← lockInterruptible .big
      if locked = false then pure (- ERESTARTSYS)
      else do
        let statusToClear ← query .statusToClear
        onlyIf (statusToClear = true) do
          let _ ← invoke .generalIbstatus
          pure ()
        pure 0

def waitIoctl (rounds : Nat) : LockCode φ Int := do
  let copied ← query .copyFromUser
  if copied = false then pure (- EFAULT)
  else do
    let found ← query .handleToDescriptor
    if found = false then pure (- EINVAL)
    else do
      let retval ← ibwait rounds
      if retval < 0 then pure retval
      else do
        let copied ← query .copyToUser
        if copied = false then pure (- EFAULT) else pure 0

/-- `cmd` of `ibioctl`. -/
inductive Ioctl
  | cfcBoardType
  | ibOnl
  | cfcBase
  | cfcIrq
  | cfcDma
  | ibAutospoll
  | ibBoardInfo
  | ibMutex
  | ibPad
  | ibSad
  | ibSelectPci
  | ibEvent
  | ibCloseDev
  | ibOpenDev
  | ibSpollBytes
  | ibWait
  | ibLines
  | ibLoc
  | ibT1Delay
  | ibCac
  | ibCmd
  | ibEos
  | ibGts
  | ibPpc
  | ibQueryBoardRsv
  | ibRd
  | ibRpp
  | ibRsc
  | ibRsp
  | ibRsv
  | ibSic
  | ibSre
  | ibTmo
  | ibWrt
  | other

/-- Whether `big_gpib_mutex` is still to be unlocked. -/
inductive Exit
  | done (retval : Int)
  | return_ (retval : Int)

def gotoDone (p : LockCode φ Int) : LockCode φ Exit := do
  let retval ← p
  pure (.done retval)

/-- A transfer can take a long time. -/
def transfer (handler : Handler) : LockCode φ Exit := do
  unlock .big
  let retval ← invoke handler
  pure (.return_ retval)

/-- What needs no interface. -/
def switchAny : Ioctl → Option (LockCode φ Exit)
  | .cfcBoardType => some (gotoDone (invoke .boardTypeIoctl))
  | .ibOnl => some (gotoDone onlineIoctl)
  | _ => none

/-- What needs no board online. -/
def switchConfigured (file : φ) : Ioctl → Option (LockCode φ Exit)
  | .cfcBase => some (gotoDone (invoke .iobaseIoctl))
  | .cfcIrq => some (gotoDone (invoke .irqIoctl))
  | .cfcDma => some (gotoDone (invoke .dmaIoctl))
  | .ibAutospoll => some (gotoDone (invoke .autospollIoctl))
  | .ibBoardInfo => some (gotoDone (invoke .boardInfoIoctl))
  | .ibMutex => some do
    unlock .big
    let retval ← mutexIoctl file
    pure (.return_ retval)
  | .ibPad => some (gotoDone (invoke .padIoctl))
  | .ibSad => some (gotoDone (invoke .sadIoctl))
  | .ibSelectPci => some (gotoDone (invoke .selectPciIoctl))
  | _ => none

/-- What does not need the board's lock. -/
def switchOnline (file : φ) (rounds : Nat) : Ioctl → Option (LockCode φ Exit)
  | .ibEvent => some (gotoDone (invoke .eventIoctl))
  | .ibCloseDev => some (gotoDone (invoke .closeDevIoctl))
  | .ibOpenDev => some (gotoDone (openDevIoctl file))
  | .ibSpollBytes => some (gotoDone (invoke .statusBytesIoctl))
  | .ibWait => some do
    let retval ← waitIoctl rounds
    if retval = - ERESTARTSYS then pure (.return_ retval) else pure (.done retval)
  | .ibLines => some (gotoDone (invoke .lineStatusIoctl))
  | .ibLoc => some do
    let _ ← invoke .returnToLocal
    pure (.done 0)
  | _ => none

/-- What needs the board's lock. -/
def switchLocked : Ioctl → LockCode φ Exit
  | .ibT1Delay => gotoDone (invoke .t1DelayIoctl)
  | .ibCac => gotoDone (invoke .takeControlIoctl)
  | .ibCmd => transfer .commandIoctl
  | .ibEos => gotoDone (invoke .eosIoctl)
  | .ibGts => gotoDone (invoke .ibgts)
  | .ibPpc => gotoDone (invoke .ppcIoctl)
  | .ibQueryBoardRsv => gotoDone (invoke .queryBoardRsvIoctl)
  | .ibRd => transfer .readIoctl
  | .ibRpp => gotoDone (invoke .parallelPollIoctl)
  | .ibRsc => gotoDone (invoke .requestSystemControlIoctl)
  | .ibRsp => gotoDone (invoke .serialPollIoctl)
  | .ibRsv => gotoDone (invoke .requestServiceIoctl)
  | .ibSic => gotoDone (invoke .interfaceClearIoctl)
  | .ibSre => gotoDone (invoke .remoteEnableIoctl)
  | .ibTmo => gotoDone (invoke .timeoutIoctl)
  | .ibWrt => transfer .writeIoctl
  | _ => pure (.done (- ENOTTY))

/-- From the test of `online` on. -/
def dispatchOnline (file : φ) (rounds : Nat) (cmd : Ioctl) : LockCode φ Exit := do
  let online ← query .online
  if online = false then pure (.done (- EINVAL))
  else
    match switchOnline file rounds cmd with
    | some p => p
    | none => do
      let locked ← perform LockOp.holdsLockingPid
      if locked = false then pure (.done (- EPERM)) else switchLocked cmd

/-- Under `big_gpib_mutex`. -/
def dispatch (file : φ) (rounds : Nat) (cmd : Ioctl) : LockCode φ Exit :=
  match switchAny cmd with
  | some p => p
  | none => do
    let interface ← query .interface
    if interface = false then pure (.done (- ENODEV))
    else do
      let got ← query .getModule
      if got = false then pure (.done (- ENOSYS))
      else
        match switchConfigured file cmd with
        | some p => p
        | none => dispatchOnline file rounds cmd

def ibioctl (file : φ) (rounds : Nat) (cmd : Ioctl) : LockCode φ Int := do
  let locked ← lockInterruptible .big
  if locked = false then pure (- ERESTARTSYS)
  else do
    let exit ← dispatch file rounds cmd
    match exit with
    | .done retval => do
      unlock .big
      pure retval
    | .return_ retval => pure retval

/-- A file that holds the board's lock gives the mutex back, and `locking_pid` stays. -/
def ibclose (file : φ) : LockCode φ Int := do
  perform (LockOp.cleanupOpenDevices file)
  let holdingMutex ← perform (LockOp.holdingMutex file)
  onlyIf (holdingMutex = true) (unlock .user)
  perform (LockOp.freePrivateData file)
  pure 0

/-- A test that is made only after the others. -/
def andAlso (first second : LockCode φ Bool) : LockCode φ Bool := do
  let holds ← first
  if holds = true then second else pure false

def autospollWaitShouldWakeUp : LockCode φ Bool := do
  lock .big
  let retval ← andAlso (query .master) (andAlso (query .autospollers)
    (andAlso (perform LockOp.readStuckSrq) (perform LockOp.testAndClearSrqi)))
  unlock .big
  pure retval

/-- `wait_event_interruptible` in the autospoll thread, which gets no signals. -/
def awaitAutospoll : Nat → LockCode φ Unit
  | 0 => .call .outOfRounds Empty.elim
  | rounds + 1 => do
    let stop ← perform LockOp.kthreadShouldStop
    if stop = true then pure ()
    else do
      let wake ← autospollWaitShouldWakeUp
      if wake = true then pure ()
      else do
        let _ ← perform LockOp.sleep
        awaitAutospoll rounds

def autopollAllDevices : LockCode φ Int := do
  let locked ← lockInterruptible .user
  if locked = false then pure (- ERESTARTSYS)
  else do
    let locked ← lockInterruptible .big
    if locked = false then do
      unlock .user
      pure (- ERESTARTSYS)
    else do
      let retval ← invoke .serialPollAll
      unlock .big
      unlock .user
      pure retval

/-- After a wait: the poll, unless there is nobody to poll for. -/
def autospollOnce (retval : Int) : LockCode φ Int := do
  let got ← query .tryModuleGet
  let retval ← if got = true then autopollAllDevices else pure retval
  onlyIf (retval ≤ 0) do
    perform (LockOp.setStuckSrq true)
    perform LockOp.setSrqi
  pure retval

/-- The loop of `autospoll_thread`, watched for a number of rounds. -/
def autospollThread : Nat → Int → LockCode φ Int
  | 0, _ => .call .outOfRounds Empty.elim
  | rounds + 1, retval => do
    awaitAutospoll rounds
    let stop ← perform LockOp.kthreadShouldStop
    if stop = true then pure retval
    else do
      lock .big
      let wanted ← andAlso (query .autospollers) (query .master)
      unlock .big
      if wanted = false then autospollThread rounds retval
      else do
        let retval ← autospollOnce retval
        autospollThread rounds retval

end
end FlukeCda.Gpib.Core.Locks
