import FlukeCda.Gpib.Core.Ioctl
import FlukeCda.Interaction.Crowd

/-! # Who holds which mutex

Processes that call `ibioctl` and `ibclose`, and the autospoll thread, in any
interleaving.
-/

namespace FlukeCda.Gpib.Core.Locks
open Interaction Program
open Relation (ReflTransGen)

/-- Each `kthread_run` makes another autospoll thread. -/
inductive Task (π : Type)
  | autospoll (task : Nat)
  | process (pid : π)
  deriving DecidableEq

def Task.IsThread {π : Type} : Task π → Prop
  | .autospoll _ => True
  | .process _ => False

/-- A mutex is abandoned when the call that took it is over, and no code is left to
release it. -/
inductive Owner (ι : Type)
  | free
  | held (holder : ι)
  | abandoned
  deriving DecidableEq

structure LockState (π φ : Type) where
  owner : GpibMutex φ → Owner (Task π)
  lockingPid : Option (Task π)
  holdingMutex : φ → Bool
  stuckSrq : Bool
  autospollTask : Option Nat
  shouldStop : Nat → Bool
  exited : Nat → Bool

/-- As `init_gpib_board` leaves it. -/
def LockState.initial (π φ : Type) : LockState π φ :=
  ⟨fun _ => .free, none, fun _ => false, false, none, fun _ => false, fun _ => false⟩

section
variable {π φ : Type}

def GpibMutex.rank : GpibMutex φ → Nat
  | .user => 0
  | .big => 1
  | .descriptors _ => 2

/-- What `ibioctl` runs for the process of `locking_pid` only, and the poll of all
devices. Other functions drive the bus as well: `attach` and `detach` set the chip
up, and `pad_ioctl`, `sad_ioctl` and `return_to_local` write to it. -/
def Handler.Guarded : Handler → Prop
  | .t1DelayIoctl | .takeControlIoctl | .eosIoctl | .ibgts | .ppcIoctl | .queryBoardRsvIoctl | .parallelPollIoctl
  | .requestSystemControlIoctl | .serialPollIoctl | .requestServiceIoctl | .interfaceClearIoctl | .remoteEnableIoctl
  | .timeoutIoctl | .serialPollAll | .commandIoctl | .readIoctl | .writeIoctl => True
  | _ => False

/-- The functions that run without `big_gpib_mutex`. -/
def Handler.Transfers : Handler → Prop
  | .commandIoctl | .readIoctl | .writeIoctl => True
  | _ => False

/-- What is held by whoever runs the function. -/
def Handler.Needs (handler : Handler) : GpibMutex φ → Prop
  | .user => handler.Guarded
  | .big => ¬ handler.Transfers
  | .descriptors _ => False

/-- In an orderly run no file is closed that holds the board's lock, so that nobody
else unlocks any mutex. In other runs this is so of all but `user_mutex`. -/
def Kept (orderly : Prop) (m : GpibMutex φ) : Prop := m = .user → orderly

/-- A mutex is taken after those of lower rank, save the board's lock by a process
that holds it already. It is released by its holder, the board's lock not before
`locking_pid` is cleared. A function runs with what it needs. A thread is stopped
under `big_gpib_mutex`. The autospoll thread runs no function but the poll of all
devices, and only it runs that, takes note of SRQI and sets `stuck_srq`. -/
def MayLock (orderly : Prop) (i : Task π) : LockOp φ → LockState π φ → Prop
  | .lock m, s | .lockInterruptible m, s => ∀ k, s.owner k = .held i → k = m ∧ m = .user ∨ k.rank < m.rank
  | .unlock m, s => Kept orderly m → s.owner m = .held i ∧ (m = .user → s.lockingPid ≠ some i)
  | .enter handler, s | .leave handler, s =>
    (handler = .serialPollAll ↔ i.IsThread) ∧ ∀ m, Kept orderly m → handler.Needs m → s.owner m = .held i
  | .setLockingPid, s => orderly → s.owner .user = .held i
  | .kthreadAwaitExit _, s => s.owner .big = .held i
  | .setStuckSrq value, _ => value = true → i.IsThread
  | .testAndClearSrqi, _ | .setSrqi, _ => i.IsThread
  | _, _ => True

/-- In an orderly run `locking_pid` is the holder of the board's lock, if it is
anybody. No mutex of the board is ever abandoned. -/
structure Locking (orderly : Prop) (s : LockState π φ) : Prop where
  lockingPid : orderly → ∀ i, s.lockingPid = some i → s.owner .user = .held i
  abandoned : ∀ m, s.owner m = .abandoned → ∃ file, m = .descriptors file

/-- Nobody else gives a task anything, or takes from it what is kept. -/
structure Unchanged (orderly : Prop) (i : Task π) (s t : LockState π φ) : Prop where
  held : ∀ m, t.owner m = .held i → s.owner m = .held i
  kept : ∀ m, Kept orderly m → s.owner m = .held i → t.owner m = .held i
  lockingPid : orderly → (s.lockingPid = some i ↔ t.lockingPid = some i)

/-- Between calls only processes hold anything, and only the board's lock. -/
def Rests (i : Task π) (s : LockState π φ) : Prop := ∀ m, s.owner m = .held i → ¬ i.IsThread ∧ m = .user

/-- At the end of a call: the same, or the mutex that `open_dev_ioctl` leaves locked. -/
def Leaves (i : Task π) (value : Int) (s : LockState π φ) : Prop :=
  ∀ m, s.owner m = .held i → ¬ i.IsThread ∧ (m = .user ∨ value = - ERANGE ∧ ∃ file, m = .descriptors file)

theorem Rests.stable (orderly : Prop) (i : Task π) :
    Stable (Unchanged orderly i : LockState π φ → _ → Prop) (Rests i) := by
  intro s t unchanged rests m holds
  exact rests m (unchanged.held m holds)

/-- What a task holds, all that is kept of it, and whether `locking_pid` is its own. -/
structure Holds (orderly : Prop) (i : Task π) (held : GpibMutex φ → Prop) (pid : Prop) (s : LockState π φ) : Prop where
  listed : ∀ m, s.owner m = .held i → held m
  kept : ∀ m, Kept orderly m → held m → s.owner m = .held i
  lockingPid : orderly → (s.lockingPid = some i ↔ pid)

/-- With `big_gpib_mutex` as well. -/
def Under (base : GpibMutex φ → Prop) (m : GpibMutex φ) : Prop := m = .big ∨ base m

theorem kept_big {orderly : Prop} : Kept orderly (.big : GpibMutex φ) := by
  intro user
  cases user

/-- The operations that change nothing of this, with what is held. -/
def LockOp.Aside (orderly : Prop) (i : Task π) (held : GpibMutex φ → Prop) : LockOp φ → Prop
  | .lock _ | .lockInterruptible _ | .unlock _ | .setLockingPid | .clearLockingPid => False
  | .enter handler | .leave handler =>
    (handler = .serialPollAll ↔ i.IsThread) ∧ ∀ m, Kept orderly m → handler.Needs m → held m
  | .kthreadAwaitExit _ => held .big
  | .setStuckSrq value => value = true → i.IsThread
  | .testAndClearSrqi | .setSrqi => i.IsThread
  | _ => True

section
variable [DecidableEq φ]

def LockState.give (s : LockState π φ) (m : GpibMutex φ) (owner : Owner (Task π)) : LockState π φ :=
  { s with owner := Function.update s.owner m owner }

/-- What an operation of a task answers and does. In an orderly run a file that is
closed does not hold the board's lock. -/
inductive LockAct (orderly : Prop) (i : Task π) :
    (op : LockOp φ) → LockAnswer op → LockState π φ → LockState π φ → Prop
  | lock {s} {m : GpibMutex φ} (free : s.owner m = .free) : LockAct orderly i (.lock m) () s (s.give m (.held i))
  | locked {s} {m : GpibMutex φ} (free : s.owner m = .free) :
      LockAct orderly i (.lockInterruptible m) true s (s.give m (.held i))
  | interrupted {s} {m : GpibMutex φ} : LockAct orderly i (.lockInterruptible m) false s s
  | unlock {s} {m : GpibMutex φ} : LockAct orderly i (.unlock m) () s (s.give m .free)
  | enter {s} {handler : Handler} : LockAct orderly i (.enter handler) () s s
  | leave {s} {handler : Handler} {retval : Int} : LockAct orderly i (.leave handler) retval s s
  | query {s} {q : Query} {answer : Bool} : LockAct orderly i (.query q) answer s s
  | onlineCmd {s} {cmd : Except Int Bool} : LockAct orderly i .onlineCmd cmd s s
  | sleep {s} {signal : Bool} : LockAct orderly i .sleep signal s s
  | holdsLockingPid {s} (own : s.lockingPid = some i) : LockAct orderly i .holdsLockingPid true s s
  | lacksLockingPid {s} (other : s.lockingPid ≠ some i) : LockAct orderly i .holdsLockingPid false s s
  | setLockingPid {s} : LockAct orderly i .setLockingPid () s { s with lockingPid := some i }
  | clearLockingPid {s} (own : s.lockingPid = some i) :
      LockAct orderly i .clearLockingPid true s { s with lockingPid := none }
  | refused {s} (other : s.lockingPid ≠ some i) : LockAct orderly i .clearLockingPid false s s
  | setHoldingMutex {s} {file : φ} {value : Bool} :
      LockAct orderly i (.setHoldingMutex file value) () s
        { s with holdingMutex := Function.update s.holdingMutex file value }
  | holdingMutex {s} {file : φ} (spared : orderly → s.holdingMutex file = false) :
      LockAct orderly i (.holdingMutex file) (s.holdingMutex file) s s
  | cleanupOpenDevices {s} {file : φ} : LockAct orderly i (.cleanupOpenDevices file) () s s
  | freePrivateData {s} {file : φ} :
      LockAct orderly i (.freePrivateData file) () s { s with holdingMutex := Function.update s.holdingMutex file false }
  | readStuckSrq {s} : LockAct orderly i .readStuckSrq s.stuckSrq s s
  | setStuckSrq {s} {value : Bool} : LockAct orderly i (.setStuckSrq value) () s { s with stuckSrq := value }
  | testAndClearSrqi {s} {set : Bool} : LockAct orderly i .testAndClearSrqi set s s
  | setSrqi {s} : LockAct orderly i .setSrqi () s s
  | kthreadRun {s} {task : Nat} (fresh : s.shouldStop task = false ∧ s.exited task = false) :
      LockAct orderly i .kthreadRun true s { s with autospollTask := some task }
  | kthreadError {s} : LockAct orderly i .kthreadRun false s s
  | kthreadShouldStop {s} {task : Nat} (own : i = .autospoll task) :
      LockAct orderly i .kthreadShouldStop (s.shouldStop task) s s
  | autospollTask {s} : LockAct orderly i .autospollTask s.autospollTask s s
  | clearAutospollTask {s} : LockAct orderly i .clearAutospollTask () s { s with autospollTask := none }
  | kthreadRequestStop {s} {task : Nat} :
      LockAct orderly i (.kthreadRequestStop task) () s { s with shouldStop := Function.update s.shouldStop task true }
  | kthreadAwaitExit {s} {task : Nat} {retval : Int} (exited : s.exited task = true) :
      LockAct orderly i (.kthreadAwaitExit task) retval s s

section
variable {orderly : Prop} {i j : Task π} {s t : LockState π φ} {m : GpibMutex φ} {owner : Owner (Task π)}

/-- What a task takes or releases is its own business, save the board's lock of a file that is closed. -/
theorem give_others (locking : Locking orderly s) (before : Kept orderly m → ∀ j, s.owner m = .held j → j = i)
    (given : owner = .held i ∨ owner = .free)
    (cleared : orderly → m = .user → s.lockingPid = none ∨ owner = .held i) :
    Locking orderly (s.give m owner) ∧ ∀ j, j ≠ i → Unchanged orderly j s (s.give m owner) := by
  refine ⟨⟨fun orderly j own => ?_, fun k lost => ?_⟩, fun j other => ⟨fun k => ?_, fun k kept => ?_, fun _ => Iff.rfl⟩⟩
  · have holds := locking.lockingPid orderly j own
    by_cases same : GpibMutex.user = m
    · subst same
      have mine := before (fun _ => orderly) j holds
      subst mine
      rcases cleared orderly rfl with none | again
      · rw [show s.lockingPid = some j from own] at none
        cases none
      · simp only [LockState.give, Function.update_self]
        exact again
    · simp only [LockState.give, Function.update_of_ne same]
      exact holds
  · by_cases same : k = m
    · subst same
      simp only [LockState.give, Function.update_self] at lost
      rcases given with rfl | rfl <;> cases lost
    · simp only [LockState.give, Function.update_of_ne same] at lost
      exact locking.abandoned k lost
  · by_cases same : k = m
    · subst same
      simp only [LockState.give, Function.update_self]
      intro holds
      rcases given with rfl | rfl <;> cases holds
      exact absurd rfl other
    · simp only [LockState.give, Function.update_of_ne same]
      exact id
  · intro holds
    have different : k ≠ m := by
      rintro rfl
      exact other (before kept j holds)
    simp only [LockState.give, Function.update_of_ne different]
    exact holds

/-- What a task does within its rights leaves the others what they hold. -/
theorem LockAct.others {op : LockOp φ} {answer : LockAnswer op} (acts : LockAct orderly i op answer s t)
    (locking : Locking orderly s) (may : MayLock orderly i op s) :
    Locking orderly t ∧ ∀ j, j ≠ i → Unchanged orderly j s t := by
  have nobody : ∀ {m j}, s.owner m = .free → s.owner m = .held j → j = i := by
    intro m j free holds
    rw [free] at holds
    cases holds
  have same : ∀ {u : LockState π φ}, u.owner = s.owner → u.lockingPid = s.lockingPid →
      Locking orderly u ∧ ∀ j, j ≠ i → Unchanged orderly j s u := by
    intro u owner lockingPid
    refine ⟨⟨fun orderly j own => ?_, fun m lost => ?_⟩, fun j _ => ⟨fun m => ?_, fun m _ => ?_, fun _ => ?_⟩⟩
    · rw [owner]
      exact locking.lockingPid orderly j (lockingPid ▸ own)
    · rw [owner] at lost
      exact locking.abandoned m lost
    · rw [owner]
      exact id
    · rw [owner]
      exact id
    · rw [lockingPid]
  cases acts with
  | lock free => exact give_others locking (fun _ _ => nobody free) (.inl rfl) fun _ _ => .inr rfl
  | locked free => exact give_others locking (fun _ _ => nobody free) (.inl rfl) fun _ _ => .inr rfl
  | @unlock _ m =>
    have mine : Kept orderly m → ∀ j, s.owner m = .held j → j = i := by
      intro kept j holds
      rw [(may kept).1] at holds
      cases holds
      rfl
    refine give_others locking mine (.inr rfl) fun orderly user => .inl ?_
    cases pid : s.lockingPid with
    | none => rfl
    | some j =>
      have holds := locking.lockingPid orderly j pid
      rw [← user] at holds
      rw [mine (fun _ => orderly) j holds] at pid
      exact absurd pid ((may fun _ => orderly).2 user)
  | setLockingPid =>
    refine ⟨⟨fun orderly j own => ?_, locking.abandoned⟩, fun j other => ⟨fun m => id, fun m _ => id, fun orderly => ?_⟩⟩
    · cases own
      exact may orderly
    · refine iff_of_false (fun own => ?_) fun own => ?_
      · have user := locking.lockingPid orderly j own
        rw [show s.owner .user = .held i from may orderly] at user
        cases user
        exact other rfl
      · cases own
        exact other rfl
  | clearLockingPid own =>
    refine ⟨⟨fun _ j none => ?_, locking.abandoned⟩, fun j other => ⟨fun m => id, fun m _ => id, fun _ => ?_⟩⟩
    · cases none
    · refine iff_of_false (fun mine => ?_) fun none => ?_
      · rw [own] at mine
        cases mine
        exact other rfl
      · cases none
  | _ => exact same rfl rfl

end
end

section
variable {orderly : Prop} [DecidableEq π] [DecidableEq φ] {i j : Task π} {s t : LockState π φ}

/-- After a call. The board's lock may be held from one call to the next. -/
def LockState.afterCall (s : LockState π φ) (i : Task π) : LockState π φ :=
  { s with owner := fun m => if s.owner m = .held i ∧ m ≠ .user then .abandoned else s.owner m,
           exited := match i with
             | .autospoll task => Function.update s.exited task true
             | .process _ => s.exited }

/-- The tasks of a board: processes that make any calls, and autospoll threads. -/
def board (π φ : Type) [DecidableEq π] [DecidableEq φ] (orderly : Prop) :
    Joint (Task π) (LockOp φ) LockAnswer Int (LockState π φ) where
  calls := fun i p => match i with
    | .autospoll _ => ∃ rounds, p = autospollThread rounds 0
    | .process _ => (∃ file rounds cmd, p = ibioctl file rounds cmd) ∨ ∃ file, p = ibclose file
  act := LockAct orderly
  ends := fun i _ s t => t = s.afterCall i

theorem Leaves.ends {value : Int} (leaves : Leaves i value s) (locking : Locking orderly s) :
    (Locking orderly (s.afterCall i) ∧ Rests i (s.afterCall i)) ∧
      ∀ j, j ≠ i → Unchanged orderly j s (s.afterCall i) := by
  have others : ∀ j, j ≠ i → ∀ m, s.owner m = .held j ↔ (s.afterCall i).owner m = .held j := by
    intro j other m
    by_cases lost : s.owner m = .held i ∧ m ≠ .user
    · simp only [LockState.afterCall, if_pos lost]
      refine iff_of_false (fun holds => ?_) fun abandoned => ?_
      · rw [lost.1] at holds
        cases holds
        exact other rfl
      · cases abandoned
    · simp only [LockState.afterCall, if_neg lost]
  refine ⟨⟨⟨fun orderly j own => ?_, fun m lost => ?_⟩, fun m holds => ?_⟩, fun j other => ?_⟩
  · have user := locking.lockingPid orderly j own
    simp [LockState.afterCall, user]
  · by_cases left : s.owner m = .held i ∧ m ≠ .user
    · rcases (leaves m left.1).2 with user | ⟨-, descriptors⟩
      · exact absurd user left.2
      · exact descriptors
    · simp only [LockState.afterCall, if_neg left] at lost
      exact locking.abandoned m lost
  · by_cases lost : s.owner m = .held i ∧ m ≠ .user
    · simp only [LockState.afterCall, if_pos lost] at holds
      cases holds
    · simp only [LockState.afterCall, if_neg lost] at holds
      have user : m = .user := by
        by_contra different
        exact lost ⟨holds, different⟩
      exact ⟨(leaves m holds).1, user⟩
  · exact ⟨fun m => (others j other m).mpr, fun m _ => (others j other m).mp, fun _ => Iff.rfl⟩

end

section
variable {orderly : Prop} {i : Task π} {s : LockState π φ} {held held' base : GpibMutex φ → Prop} {pid : Prop}

theorem Holds.steady : Steady (fun s t => Unchanged orderly i s t ∧ Locking orderly s ∧ Locking orderly t) (fun _ => True)
    (Holds orderly i held pid : LockState π φ → Prop) := by
  refine ⟨fun s t relied holds => ?_, fun _ _ => trivial⟩
  obtain ⟨unchanged, -⟩ := relied
  refine ⟨fun m own => holds.listed m (unchanged.held m own), fun m kept own => ?_, fun orderly => ?_⟩
  · exact unchanged.kept m kept (holds.kept m kept own)
  · exact (unchanged.lockingPid orderly).symm.trans (holds.lockingPid orderly)

theorem Holds.congr (holds : Holds orderly i held pid s) (same : ∀ m, held m ↔ held' m) : Holds orderly i held' pid s :=
  ⟨fun m own => (same m).mp (holds.listed m own), fun m kept own => holds.kept m kept ((same m).mpr own),
    holds.lockingPid⟩

theorem Holds.may {op : LockOp φ} (holds : Holds orderly i held pid s) (aside : op.Aside orderly i held) :
    MayLock orderly i op s := by
  cases op with
  | lock | lockInterruptible | unlock | setLockingPid | clearLockingPid => exact aside.elim
  | enter handler => exact ⟨aside.1, fun m kept needs => holds.kept m kept (aside.2 m kept needs)⟩
  | leave handler => exact ⟨aside.1, fun m kept needs => holds.kept m kept (aside.2 m kept needs)⟩
  | kthreadAwaitExit => exact holds.kept .big kept_big aside
  | setStuckSrq | testAndClearSrqi | setSrqi => exact aside
  | _ => exact trivial

theorem invoke_aside {handler : Handler} (thread : handler = .serialPollAll ↔ i.IsThread)
    (needs : ∀ m, Kept orderly m → handler.Needs m → held m) :
    OnlyPerforms (LockOp.Aside orderly i held) (invoke handler) :=
  ⟨⟨thread, needs⟩, fun _ => ⟨⟨thread, needs⟩, fun _ => trivial⟩⟩

end

section
variable {orderly : Prop} {process : π} {i : Task π} {base : GpibMutex φ → Prop}

/-- A function that is run under `big_gpib_mutex` only. -/
theorem plain_aside {handler : Handler} (plain : ¬ handler.Guarded) :
    OnlyPerforms (LockOp.Aside orderly (.process process) (Under base)) (invoke handler) := by
  refine invoke_aside (iff_of_false (fun poll => ?_) id) fun m _ needs => ?_
  · subst poll
    exact plain trivial
  · cases m with
    | user => exact absurd needs plain
    | big => exact .inl rfl
    | descriptors file => exact needs.elim

/-- A function that is run under both mutexes of the board. -/
theorem guarded_aside {handler : Handler} (thread : handler = .serialPollAll ↔ i.IsThread) (user : orderly → base .user) :
    OnlyPerforms (LockOp.Aside orderly i (Under base)) (invoke handler) := by
  refine invoke_aside thread fun m kept needs => ?_
  cases m with
  | user => exact .inr (user (kept rfl))
  | big => exact .inl rfl
  | descriptors file => exact needs.elim

theorem startAutospoll_aside : OnlyPerforms (LockOp.Aside orderly (.process process) (Under base))
    (startAutospoll : LockCode φ Int) := by
  refine onlyPerforms_step trivial fun created => ?_
  split_ifs
  · exact onlyPerforms_bind (plain_aside id) fun _ => trivial
  · exact trivial

theorem ibonline_aside : OnlyPerforms (LockOp.Aside orderly (.process process) (Under base))
    (ibonline : LockCode φ Int) := by
  refine onlyPerforms_step trivial fun online => ?_
  split_ifs
  · exact trivial
  refine onlyPerforms_step trivial fun interface => ?_
  split_ifs
  · exact trivial
  refine onlyPerforms_bind (plain_aside id) fun retval => ?_
  split_ifs
  · exact trivial
  refine onlyPerforms_bind (plain_aside id) fun retval => ?_
  split_ifs
  · exact onlyPerforms_bind (plain_aside id) fun _ => trivial
  · exact startAutospoll_aside

theorem stopAutospoll_aside : OnlyPerforms (LockOp.Aside orderly (.process process) (Under base))
    (stopAutospoll : LockCode φ Unit) := by
  refine onlyPerforms_step trivial fun task => ?_
  cases task with
  | none => exact trivial
  | some task => exact ⟨trivial, fun _ => ⟨.inl rfl, fun _ => ⟨trivial, fun _ => trivial⟩⟩⟩

theorem iboffline_aside : OnlyPerforms (LockOp.Aside orderly (.process process) (Under base))
    (iboffline : LockCode φ Int) := by
  refine onlyPerforms_step trivial fun online => ?_
  split_ifs
  · exact trivial
  refine onlyPerforms_step trivial fun interface => ?_
  split_ifs
  · exact trivial
  refine onlyPerforms_bind stopAutospoll_aside fun _ => ?_
  exact onlyPerforms_bind (plain_aside id) fun _ => onlyPerforms_bind (plain_aside id) fun _ => trivial

theorem onlineIoctl_aside : OnlyPerforms (LockOp.Aside orderly (.process process) (Under base))
    (onlineIoctl : LockCode φ Int) := by
  refine onlyPerforms_step trivial fun cmd => ?_
  match cmd with
  | .error retval => exact trivial
  | .ok true => exact ibonline_aside
  | .ok false => exact iboffline_aside

end

section
variable [DecidableEq φ]

/-- The rest of a call of `i`, among the others. -/
abbrev Keeps {α : Type} (orderly : Prop) (i : Task π) (Q : α → LockState π φ → Prop) :
    LockCode φ α → LockState π φ → Prop :=
  Safe (fun op answer s t => LockAct orderly i op answer s t ∧ Locking orderly s ∧ Locking orderly t)
    (fun s t => Unchanged orderly i s t ∧ Locking orderly s ∧ Locking orderly t) (MayLock orderly i) (fun _ => True) Q

end

section
variable {orderly : Prop} [DecidableEq φ] {α : Type} {i : Task π} {Q : α → LockState π φ → Prop}
  {s t : LockState π φ} {m : GpibMutex φ}
  {held held' base : GpibMutex φ → Prop} {pid : Prop}

/-- An operation that takes and releases nothing. -/
theorem Holds.aside {op : LockOp φ} {answer : LockAnswer op} (holds : Holds orderly i held pid s)
    (aside : op.Aside orderly i held)
    (acts : LockAct orderly i op answer s t) : Holds orderly i held pid t := by
  cases acts with
  | lock | locked | interrupted | unlock | setLockingPid | clearLockingPid | refused => exact aside.elim
  | _ => exact ⟨holds.listed, holds.kept, holds.lockingPid⟩

theorem Holds.taken (holds : Holds orderly i held pid s) :
    Holds orderly i (fun k => k = m ∨ held k) pid (s.give m (.held i)) := by
  refine ⟨fun k own => ?_, fun k kept held => ?_, holds.lockingPid⟩
  · by_cases same : k = m
    · exact .inl same
    · simp only [LockState.give, Function.update_of_ne same] at own
      exact .inr (holds.listed k own)
  · by_cases same : k = m
    · subst same
      exact Function.update_self ..
    · simp only [LockState.give, Function.update_of_ne same]
      exact holds.kept k kept (held.resolve_left same)

theorem Holds.released (holds : Holds orderly i held pid s) :
    Holds orderly i (fun k => k ≠ m ∧ held k) pid (s.give m .free) := by
  refine ⟨fun k own => ?_, fun k kept held => ?_, holds.lockingPid⟩
  · by_cases same : k = m
    · subst same
      simp only [LockState.give, Function.update_self] at own
      cases own
    · simp only [LockState.give, Function.update_of_ne same] at own
      exact ⟨same, holds.listed k own⟩
  · simp only [LockState.give, Function.update_of_ne held.1]
    exact holds.kept k kept held.2

theorem keeps_done {value : α} (post : ∀ s, Holds orderly i held pid s → Q value s) (holds : Holds orderly i held pid s) :
    Keeps orderly i Q (pure value) s := safe_done Holds.steady post holds

theorem keeps_only {p : LockCode φ α} (only : OnlyPerforms (LockOp.Aside orderly i held) p)
    (holds : Holds orderly i held pid s) :
    Keeps orderly i (fun _ => Holds orderly i held pid) p s :=
  safe_only Holds.steady (fun _ _ aside holds => holds.may aside)
    (fun _ _ _ _ aside holds acts => holds.aside aside acts.1) only holds

theorem keeps_aside {op : LockOp φ} {f : LockAnswer op → LockCode φ α} (aside : op.Aside orderly i held)
    (rest : ∀ answer s, Holds orderly i held pid s → Keeps orderly i Q (f answer) s)
    (holds : Holds orderly i held pid s) :
    Keeps orderly i Q (perform op >>= f) s :=
  safe_perform Holds.steady (fun _ holds => holds.may aside)
    (fun _ answer t holds acts => rest answer t (holds.aside aside acts.1)) holds

theorem keeps_lock {f : Unit → LockCode φ α} (ranks : ∀ k, held k → k = m ∧ m = .user ∨ k.rank < m.rank)
    (rest : ∀ s, Holds orderly i (fun k => k = m ∨ held k) pid s → Keeps orderly i Q (f ()) s)
    (holds : Holds orderly i held pid s) :
    Keeps orderly i Q (lock m >>= f) s := by
  refine safe_perform Holds.steady (fun s holds k own => ranks k (holds.listed k own))
    (fun s answer t holds acts => ?_) holds
  obtain ⟨acts, -⟩ := acts
  cases acts with
  | lock => exact rest _ holds.taken

theorem keeps_lockInterruptible {f : Bool → LockCode φ α} (ranks : ∀ k, held k → k = m ∧ m = .user ∨ k.rank < m.rank)
    (rest : ∀ s, Holds orderly i (fun k => k = m ∨ held k) pid s → Keeps orderly i Q (f true) s)
    (refused : ∀ s, Holds orderly i held pid s → Keeps orderly i Q (f false) s) (holds : Holds orderly i held pid s) :
    Keeps orderly i Q (lockInterruptible m >>= f) s := by
  refine safe_perform Holds.steady (fun s holds k own => ranks k (holds.listed k own))
    (fun s answer t holds acts => ?_) holds
  obtain ⟨acts, -⟩ := acts
  cases acts with
  | locked => exact rest _ holds.taken
  | interrupted => exact refused s holds

theorem keeps_unlock {f : Unit → LockCode φ α} (own : Kept orderly m → held m) (cleared : m = .user → orderly → ¬ pid)
    (rest : ∀ s, Holds orderly i (fun k => k ≠ m ∧ held k) pid s → Keeps orderly i Q (f ()) s)
    (holds : Holds orderly i held pid s) :
    Keeps orderly i Q (unlock m >>= f) s := by
  refine safe_perform Holds.steady (fun s holds kept => ?_) (fun s answer t holds acts => ?_) holds
  · exact ⟨holds.kept m kept (own kept),
      fun user mine => cleared user (kept user) ((holds.lockingPid (kept user)).mp mine)⟩
  · obtain ⟨acts, -⟩ := acts
    cases acts with
    | unlock => exact rest _ holds.released

end
end
end FlukeCda.Gpib.Core.Locks
