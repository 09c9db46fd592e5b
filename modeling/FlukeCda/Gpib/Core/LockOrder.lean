import FlukeCda.Gpib.Core.IoctlLocks

/-! # The order of the locks

Every path of `ibioctl` and of the autospoll thread takes the mutexes in one order
and gives them back.
-/

namespace FlukeCda.Gpib.Core.Locks
open Interaction Program
open Relation (ReflTransGen)

section
variable {orderly : Prop} {π φ : Type} {i : Task π} {process : π} {s : LockState π φ}
  {base held : GpibMutex φ → Prop} {pid : Prop} {file : φ}

theorem big_ranks (onlyUser : ∀ m, base m → m = .user) (k : GpibMutex φ) (held : base k) :
    k = .big ∧ (.big : GpibMutex φ) = .user ∨ k.rank < GpibMutex.rank (.big : GpibMutex φ) := by
  rw [onlyUser k held]
  exact .inr Nat.zero_lt_one

theorem descriptors_ranks (onlyUser : ∀ m, base m → m = .user) (k : GpibMutex φ) (held : Under base k) :
    k = .descriptors file ∧ (.descriptors file : GpibMutex φ) = .user ∨ k.rank < GpibMutex.rank (.descriptors file) := by
  rcases held with rfl | own
  · exact .inr Nat.one_lt_two
  · rw [onlyUser k own]
    exact .inr Nat.zero_lt_two

theorem not_big (onlyUser : ∀ m, base m → m = .user) : ¬ base .big := by
  intro held
  cases onlyUser _ held

theorem process_not_thread (process : π) : ¬ (Task.process process).IsThread := id

theorem Holds.rests (onlyUser : ∀ m, held m → m = .user) (holds : Holds orderly (.process process) held pid s) :
    Rests (.process process) s := by
  intro m own
  exact ⟨process_not_thread process, onlyUser m (holds.listed m own)⟩

/-- The autospoll thread between two locks. -/
def nothing (_ : GpibMutex φ) : Prop := False

/-- During the poll. -/
def boardLock (m : GpibMutex φ) : Prop := m = .user

theorem nothing_onlyUser (m : GpibMutex φ) (held : nothing m) : m = .user := held.elim

theorem andAlso_aside {first second : LockCode φ Bool}
    (aside : OnlyPerforms (LockOp.Aside orderly i held) first)
    (also : OnlyPerforms (LockOp.Aside orderly i held) second) :
    OnlyPerforms (LockOp.Aside orderly i held) (andAlso first second) := by
  refine onlyPerforms_bind aside fun holds => ?_
  split_ifs
  · exact also
  · exact trivial

theorem query_only (q : Query) : OnlyPerforms (LockOp.Aside orderly i held) (query q) :=
  ⟨trivial, fun _ => trivial⟩

end

section
variable {orderly : Prop} {π φ : Type} [DecidableEq φ] {α : Type} {process : π} {i : Task π} {s : LockState π φ}
  {base : GpibMutex φ → Prop} {pid : Prop}
  {file : φ} {rounds : Nat}

/-- `big_gpib_mutex` is released again. -/
theorem keeps_unlockBig {Q : α → LockState π φ → Prop} {f : Unit → LockCode φ α} (onlyUser : ∀ m, base m → m = .user)
    (rest : ∀ s, Holds orderly i base pid s → Keeps orderly i Q (f ()) s) (holds : Holds orderly i (Under base) pid s) :
    Keeps orderly i Q (unlock .big >>= f) s := by
  refine keeps_unlock (fun _ => .inl rfl) (fun user => by cases user)
    (fun s holds => rest s (holds.congr fun k => ?_)) holds
  constructor
  · rintro ⟨other, rfl | own⟩
    · exact absurd rfl other
    · exact own
  · intro own
    refine ⟨?_, .inr own⟩
    rintro rfl
    exact not_big onlyUser own

/-- After `open_dev_ioctl`, which leaves its mutex locked where it returns ERANGE. -/
def Opened (orderly : Prop) (i : Task π) (base : GpibMutex φ → Prop) (pid : Prop) (file : φ) (value : Int)
    (s : LockState π φ) : Prop :=
  Holds orderly i (Under base) pid s ∨
    value = - ERANGE ∧ Holds orderly i (fun k => k = .descriptors file ∨ Under base k) pid s

theorem opened_done {value : Int} (holds : Holds orderly (.process process) (Under base) pid s) :
    Keeps orderly (.process process) (Opened orderly (.process process) base pid file) (pure value) s :=
  keeps_done (fun _ holds => .inl holds) holds

theorem opened_unlock {f : Unit → LockCode φ Int} (onlyUser : ∀ m, base m → m = .user)
    (rest : ∀ s, Holds orderly (.process process) (Under base) pid s →
      Keeps orderly (.process process) (Opened orderly (.process process) base pid file) (f ()) s)
    (holds : Holds orderly (.process process) (fun k => k = .descriptors file ∨ Under base k) pid s) :
    Keeps orderly (.process process) (Opened orderly (.process process) base pid file)
      (unlock (.descriptors file) >>= f) s := by
  refine keeps_unlock (fun _ => .inl rfl) (fun user => by cases user)
    (fun s holds => rest s (holds.congr fun k => ?_)) holds
  constructor
  · rintro ⟨other, same | held⟩
    · exact absurd same other
    · exact held
  · intro held
    refine ⟨?_, .inr held⟩
    rintro rfl
    rcases held with big | own
    · cases big
    · cases onlyUser _ own

theorem allocateDescriptor_keeps (onlyUser : ∀ m, base m → m = .user)
    (holds : Holds orderly (.process process) (fun k => k = .descriptors file ∨ Under base k) pid s) :
    Keeps orderly (.process process) (Opened orderly (.process process) base pid file) (allocateDescriptor file) s := by
  refine keeps_aside trivial (fun allocated s holds => ?_) holds
  split_ifs
  · exact opened_unlock onlyUser (fun s holds => opened_done holds) holds
  refine opened_unlock onlyUser (fun s holds => ?_) holds
  refine (keeps_only (plain_aside id) holds).andThen fun retval s holds => ?_
  split_ifs
  · exact opened_done holds
  refine keeps_aside (fun set => absurd set Bool.false_ne_true) (fun _ s holds => ?_) holds
  refine keeps_aside trivial (fun copied s holds => ?_) holds
  split_ifs
  · exact opened_done holds
  · exact opened_done holds

theorem openDevIoctl_keeps (onlyUser : ∀ m, base m → m = .user)
    (holds : Holds orderly (.process process) (Under base) pid s) :
    Keeps orderly (.process process) (Opened orderly (.process process) base pid file) (openDevIoctl file) s := by
  refine keeps_aside trivial (fun copied s holds => ?_) holds
  split_ifs
  · exact opened_done holds
  refine keeps_lockInterruptible (descriptors_ranks onlyUser) (fun s holds => ?_) (fun s holds => ?_) holds
  · rw [if_neg (Ne.symm Bool.false_ne_true)]
    refine keeps_aside trivial (fun free s holds => ?_) holds
    split_ifs
    · exact keeps_done (fun _ holds => .inr ⟨rfl, holds⟩) holds
    · exact allocateDescriptor_keeps onlyUser holds
  · exact opened_done holds

theorem waitSatisfied_keeps (onlyUser : ∀ m, base m → m = .user) (holds : Holds orderly (.process process) base pid s) :
    Keeps orderly (.process process) (fun _ => Holds orderly (.process process) base pid) waitSatisfied s := by
  refine keeps_lockInterruptible (big_ranks onlyUser) (fun s holds => ?_) (fun s holds => ?_) holds
  · rw [if_neg (Ne.symm Bool.false_ne_true)]
    refine (keeps_only (plain_aside id) holds).andThen fun _ s holds => ?_
    refine keeps_unlockBig onlyUser (fun s holds => ?_) holds
    exact keeps_only ⟨trivial, fun _ => trivial⟩ holds
  · exact keeps_done (fun _ holds => holds) holds

theorem waitEvent_keeps (onlyUser : ∀ m, base m → m = .user) (holds : Holds orderly (.process process) base pid s) :
    Keeps orderly (.process process)
      (fun value s => (value = 0 ∨ value = - ERESTARTSYS) ∧ Holds orderly (.process process) base pid s)
      (waitEvent rounds) s := by
  induction rounds generalizing s with
  | zero => exact safe_never Empty.elim Holds.steady (fun _ _ => trivial) holds
  | succ rounds ih =>
    unfold waitEvent
    refine (waitSatisfied_keeps onlyUser holds).andThen fun satisfied s holds => ?_
    split_ifs
    · exact keeps_done (fun _ holds => ⟨.inl rfl, holds⟩) holds
    refine keeps_aside trivial (fun signal s holds => ?_) holds
    split_ifs
    · exact keeps_done (fun _ holds => ⟨.inr rfl, holds⟩) holds
    · exact ih holds

/-- After a wait `big_gpib_mutex` is held, except after an interruption. -/
def Waited (orderly : Prop) (i : Task π) (base : GpibMutex φ → Prop) (pid : Prop) (value : Int)
    (s : LockState π φ) : Prop :=
  Holds orderly i (if value = - ERESTARTSYS then base else Under base) pid s

theorem waited_done {value : Int} (other : value ≠ - ERESTARTSYS)
    (holds : Holds orderly (.process process) (Under base) pid s) :
    Keeps orderly (.process process) (Waited orderly (.process process) base pid) (pure value) s :=
  keeps_done (fun _ holds => by rwa [Waited, if_neg other]) holds

theorem waited_interrupted (holds : Holds orderly (.process process) base pid s) :
    Keeps orderly (.process process) (Waited orderly (.process process) base pid) (pure (- ERESTARTSYS)) s :=
  keeps_done (fun _ holds => by rwa [Waited, if_pos rfl]) holds

theorem ibwait_keeps (onlyUser : ∀ m, base m → m = .user) (holds : Holds orderly (.process process) (Under base) pid s) :
    Keeps orderly (.process process) (Waited orderly (.process process) base pid) (ibwait rounds) s := by
  have fine : (0 : Int) ≠ - ERESTARTSYS := by decide
  refine keeps_aside trivial (fun isBoard s holds => ?_) holds
  have queue : OnlyPerforms (LockOp.Aside orderly (.process process) (Under base))
      (onlyIf (isBoard = false) (invoke .getGpibStatusQueue >>= fun _ => pure ()) : LockCode φ Unit) := by
    unfold onlyIf
    split_ifs
    · exact onlyPerforms_bind (plain_aside id) fun _ => trivial
    · exact trivial
  refine (keeps_only queue holds).andThen fun _ s holds => ?_
  refine keeps_aside trivial (fun waitMask s holds => ?_) holds
  split_ifs
  · exact (keeps_only (plain_aside id) holds).andThen fun _ s holds => waited_done fine holds
  refine keeps_unlockBig onlyUser (fun s holds => ?_) holds
  refine (waitEvent_keeps onlyUser holds).andThen fun retval s waited => ?_
  obtain ⟨zero | interrupted, holds⟩ := waited
  · rw [zero, if_neg (not_not_intro rfl)]
    refine keeps_lockInterruptible (big_ranks onlyUser) (fun s holds => ?_) (fun s holds => ?_) holds
    · rw [if_neg (Ne.symm Bool.false_ne_true)]
      refine keeps_aside trivial (fun statusToClear s holds => ?_) holds
      have status : OnlyPerforms (LockOp.Aside orderly (.process process) (Under base))
          (onlyIf (statusToClear = true) (invoke .generalIbstatus >>= fun _ => pure ()) : LockCode φ Unit) := by
        unfold onlyIf
        split_ifs
        · exact onlyPerforms_bind (plain_aside id) fun _ => trivial
        · exact trivial
      exact (keeps_only status holds).andThen fun _ s holds => waited_done fine holds
    · exact waited_interrupted holds
  · rw [interrupted, if_pos (by decide)]
    exact waited_interrupted holds

theorem waitIoctl_keeps (onlyUser : ∀ m, base m → m = .user)
    (holds : Holds orderly (.process process) (Under base) pid s) :
    Keeps orderly (.process process) (Waited orderly (.process process) base pid) (waitIoctl rounds) s := by
  refine keeps_aside trivial (fun copied s holds => ?_) holds
  split_ifs
  · exact waited_done (by decide) holds
  refine keeps_aside trivial (fun found s holds => ?_) holds
  split_ifs
  · exact waited_done (by decide) holds
  refine (ibwait_keeps onlyUser holds).andThen fun retval s waited => ?_
  by_cases failed : retval < 0
  · rw [if_pos failed]
    exact keeps_done (fun _ waited => waited) waited
  · rw [if_neg failed]
    have fine : retval ≠ - ERESTARTSYS := by
      rintro rfl
      exact failed (by decide)
    rw [Waited, if_neg fine] at waited
    refine keeps_aside trivial (fun copied s holds => ?_) waited
    split_ifs
    · exact waited_done (by decide) holds
    · exact waited_done (by decide) holds

end

section
variable {orderly : Prop} {π φ : Type} [DecidableEq φ] {process : π} {s : LockState π φ}
  {base held : GpibMutex φ → Prop} {pid : Prop}
  {file : φ} {rounds : Nat}

theorem rests_done {value : Int} (onlyUser : ∀ m, held m → m = .user)
    (holds : Holds orderly (.process process) held pid s) :
    Keeps orderly (.process process) (fun _ => Rests (.process process)) (pure value) s :=
  keeps_done (fun _ holds => holds.rests onlyUser) holds

theorem mutexLock_rests (onlyUser : ∀ m, base m → m = .user) (holds : Holds orderly (.process process) base pid s) :
    Keeps orderly (.process process) (fun _ => Rests (.process process)) (mutexLock file) s := by
  have user : ∀ m : GpibMutex φ, m = .user ∨ base m → m = .user := by
    rintro m (rfl | own)
    · rfl
    · exact onlyUser m own
  refine keeps_lockInterruptible (fun k own => .inl ⟨onlyUser k own, rfl⟩) (fun s holds => ?_) (fun s holds => ?_) holds
  · rw [if_neg (Ne.symm Bool.false_ne_true)]
    refine safe_perform Holds.steady (fun s holds orderly => holds.kept .user (fun _ => orderly) (.inl rfl))
      (fun s _ t holds acts => ?_) holds
    obtain ⟨acts, -⟩ := acts
    cases acts with
    | setLockingPid =>
      have now : Holds orderly (.process process) (fun k => k = .user ∨ base k) True
          { s with lockingPid := some (.process process) } :=
        ⟨holds.listed, holds.kept, fun _ => iff_of_true rfl trivial⟩
      refine keeps_aside trivial (fun _ s holds => ?_) now
      exact rests_done user holds
  · exact rests_done onlyUser holds

theorem mutexUnlock_rests (onlyUser : ∀ m, base m → m = .user) (holds : Holds orderly (.process process) base pid s) :
    Keeps orderly (.process process) (fun _ => Rests (.process process)) (mutexUnlock file) s := by
  refine safe_perform Holds.steady (fun _ _ => trivial) (fun s cleared t holds acts => ?_) holds
  obtain ⟨acts, locking, -⟩ := acts
  cases acts with
  | refused other => exact rests_done onlyUser holds
  | clearLockingPid own =>
    rw [if_neg (Ne.symm Bool.false_ne_true)]
    have user : Kept orderly (.user : GpibMutex φ) → base .user :=
      fun kept => holds.listed .user (locking.lockingPid (kept rfl) _ own)
    have now : Holds orderly (.process process) base False { s with lockingPid := none } :=
      ⟨holds.listed, holds.kept, fun _ => iff_of_false (fun none => by cases none) id⟩
    refine keeps_aside trivial (fun _ s holds => ?_) now
    refine keeps_unlock user (fun _ _ => id) (fun s holds => ?_) holds
    exact rests_done (fun m own => onlyUser m own.2) holds

theorem mutexIoctl_rests (onlyUser : ∀ m, base m → m = .user) (holds : Holds orderly (.process process) base pid s) :
    Keeps orderly (.process process) (fun _ => Rests (.process process)) (mutexIoctl file) s := by
  refine keeps_aside trivial (fun copied s holds => ?_) holds
  split_ifs
  · exact rests_done onlyUser holds
  refine keeps_aside trivial (fun lockMutex s holds => ?_) holds
  split_ifs
  · exact mutexLock_rests onlyUser holds
  · exact mutexUnlock_rests onlyUser holds

/-- `big_gpib_mutex` is held where it is still to be unlocked, and not where it is not. -/
def Dispatched (orderly : Prop) (process : π) (base : GpibMutex φ → Prop) (pid : Prop) (file : φ) (exit : Exit)
    (s : LockState π φ) : Prop :=
  match exit with
  | .done value => Opened orderly (.process process) base pid file value s
  | .return_ _ => Rests (.process process) s

theorem dispatched_done {value : Int} (holds : Holds orderly (.process process) (Under base) pid s) :
    Keeps orderly (.process process) (Dispatched orderly process base pid file) (pure (.done value)) s :=
  keeps_done (fun _ holds => .inl holds) holds

theorem gotoDone_keeps {p : LockCode φ Int} (only : OnlyPerforms (LockOp.Aside orderly (.process process) (Under base)) p)
    (holds : Holds orderly (.process process) (Under base) pid s) :
    Keeps orderly (.process process) (Dispatched orderly process base pid file) (gotoDone p) s :=
  (keeps_only only holds).andThen fun _ _ holds => dispatched_done holds

theorem switchAny_keeps {cmd : Ioctl} {p : LockCode φ Exit} (same : switchAny cmd = some p)
    (holds : Holds orderly (.process process) (Under base) pid s) :
    Keeps orderly (.process process) (Dispatched orderly process base pid file) p s := by
  cases cmd with
  | cfcBoardType =>
    cases same
    exact gotoDone_keeps (plain_aside id) holds
  | ibOnl =>
    cases same
    exact gotoDone_keeps onlineIoctl_aside holds
  | _ => cases same

theorem switchConfigured_keeps {cmd : Ioctl} {p : LockCode φ Exit} (onlyUser : ∀ m, base m → m = .user)
    (same : switchConfigured file cmd = some p) (holds : Holds orderly (.process process) (Under base) pid s) :
    Keeps orderly (.process process) (Dispatched orderly process base pid file) p s := by
  cases cmd with
  | ibMutex =>
    cases same
    refine keeps_unlockBig onlyUser (fun s holds => ?_) holds
    refine (mutexIoctl_rests onlyUser holds).andThen fun value s rests => ?_
    exact safe_done ⟨fun s t relied => Rests.stable orderly _ s t relied.1, fun _ _ => trivial⟩
      (fun _ rests => rests) rests
  | cfcBase | cfcIrq | cfcDma | ibAutospoll | ibBoardInfo | ibPad | ibSad | ibSelectPci =>
    cases same
    exact gotoDone_keeps (plain_aside id) holds
  | _ => cases same

theorem switchOnline_keeps {cmd : Ioctl} {p : LockCode φ Exit} (onlyUser : ∀ m, base m → m = .user)
    (same : switchOnline file rounds cmd = some p) (holds : Holds orderly (.process process) (Under base) pid s) :
    Keeps orderly (.process process) (Dispatched orderly process base pid file) p s := by
  cases cmd with
  | ibOpenDev =>
    cases same
    refine (openDevIoctl_keeps onlyUser holds).andThen fun value s opened => ?_
    rcases opened with holds | ⟨full, holds⟩
    · exact dispatched_done holds
    · exact keeps_done (fun _ holds => .inr ⟨full, holds⟩) holds
  | ibWait =>
    cases same
    refine (waitIoctl_keeps onlyUser holds).andThen fun value s waited => ?_
    by_cases interrupted : value = - ERESTARTSYS
    · rw [Waited, if_pos interrupted] at waited
      rw [if_pos interrupted]
      exact keeps_done (fun _ holds => holds.rests onlyUser) waited
    · rw [Waited, if_neg interrupted] at waited
      rw [if_neg interrupted]
      exact dispatched_done waited
  | ibLoc =>
    cases same
    exact (keeps_only (plain_aside id) holds).andThen fun _ s holds => dispatched_done holds
  | ibEvent | ibCloseDev | ibSpollBytes | ibLines =>
    cases same
    exact gotoDone_keeps (plain_aside id) holds
  | _ => cases same

theorem transfer_keeps {handler : Handler} (transfers : handler.Transfers) (onlyUser : ∀ m, base m → m = .user)
    (user : orderly → base .user) (holds : Holds orderly (.process process) (Under base) pid s) :
    Keeps orderly (.process process) (Dispatched orderly process base pid file) (transfer handler) s := by
  refine keeps_unlockBig onlyUser (fun s holds => ?_) holds
  have needs : ∀ m : GpibMutex φ, Kept orderly m → handler.Needs m → base m := by
    intro m kept needs
    cases m with
    | user => exact user (kept rfl)
    | big => exact absurd transfers needs
    | descriptors file => exact needs.elim
  have poll : handler = .serialPollAll ↔ (Task.process process).IsThread := by
    refine iff_of_false ?_ id
    rintro rfl
    exact transfers.elim
  refine (keeps_only (invoke_aside poll needs) holds).andThen fun retval s holds => ?_
  exact keeps_done (fun _ holds => holds.rests onlyUser) holds

theorem switchLocked_keeps {cmd : Ioctl} (onlyUser : ∀ m, base m → m = .user) (user : orderly → base .user)
    (holds : Holds orderly (.process process) (Under base) pid s) :
    Keeps orderly (.process process) (Dispatched orderly process base pid file) (switchLocked cmd) s := by
  cases cmd with
  | ibCmd => exact transfer_keeps trivial onlyUser user holds
  | ibRd => exact transfer_keeps trivial onlyUser user holds
  | ibWrt => exact transfer_keeps trivial onlyUser user holds
  | ibT1Delay | ibCac | ibEos | ibGts | ibPpc | ibQueryBoardRsv | ibRpp | ibRsc | ibRsp | ibRsv | ibSic | ibSre | ibTmo =>
    exact gotoDone_keeps (guarded_aside (iff_of_false (fun poll => by cases poll) id) user) holds
  | _ => exact dispatched_done holds

theorem dispatchOnline_keeps {cmd : Ioctl} (onlyUser : ∀ m, base m → m = .user)
    (holds : Holds orderly (.process process) (Under base) pid s) :
    Keeps orderly (.process process) (Dispatched orderly process base pid file) (dispatchOnline file rounds cmd) s := by
  refine keeps_aside trivial (fun online s holds => ?_) holds
  split_ifs
  · exact dispatched_done holds
  cases third : switchOnline file rounds cmd with
  | some p => exact switchOnline_keeps onlyUser third holds
  | none =>
    refine safe_perform Holds.steady (fun _ _ => trivial) (fun s locked t holds acts => ?_) holds
    obtain ⟨acts, locking, -⟩ := acts
    cases acts with
    | lacksLockingPid other => exact dispatched_done holds
    | holdsLockingPid own =>
      rw [if_neg (Ne.symm Bool.false_ne_true)]
      have user : orderly → base .user := by
        intro orderly
        rcases holds.listed .user (locking.lockingPid orderly _ own) with big | user
        · cases big
        · exact user
      exact switchLocked_keeps onlyUser user holds

theorem dispatch_keeps {cmd : Ioctl} (onlyUser : ∀ m, base m → m = .user)
    (holds : Holds orderly (.process process) (Under base) pid s) :
    Keeps orderly (.process process) (Dispatched orderly process base pid file) (dispatch file rounds cmd) s := by
  unfold dispatch
  cases first : (switchAny cmd : Option (LockCode φ Exit)) with
  | some p => exact switchAny_keeps first holds
  | none =>
    refine keeps_aside trivial (fun interface s holds => ?_) holds
    split_ifs
    · exact dispatched_done holds
    refine keeps_aside trivial (fun got s holds => ?_) holds
    split_ifs
    · exact dispatched_done holds
    cases second : switchConfigured file cmd with
    | some p => exact switchConfigured_keeps onlyUser second holds
    | none => exact dispatchOnline_keeps onlyUser holds

theorem leaves_done {value : Int} (holds : Holds orderly (.process process) held pid s)
    (left : ∀ m, held m → m = .user ∨ value = - ERANGE ∧ ∃ file, m = .descriptors file) :
    Keeps orderly (.process process) (Leaves (.process process)) (pure value) s := by
  refine keeps_done (fun s holds m own => ?_) holds
  exact ⟨process_not_thread process, left m (holds.listed m own)⟩

theorem ibioctl_leaves {cmd : Ioctl} (rests : Rests (.process process) s) :
    Keeps orderly (.process process) (Leaves (.process process)) (ibioctl file rounds cmd) s := by
  let base (m : GpibMutex φ) : Prop := s.owner m = .held (.process process)
  have onlyUser : ∀ m, base m → m = .user := fun m own => (rests m own).2
  have holds : Holds orderly (.process process) base (s.lockingPid = some (.process process)) s :=
    ⟨fun _ => id, fun _ _ => id, fun _ => Iff.rfl⟩
  refine keeps_lockInterruptible (big_ranks onlyUser) (fun s holds => ?_) (fun s holds => ?_) holds
  · rw [if_neg (Ne.symm Bool.false_ne_true)]
    refine (dispatch_keeps  onlyUser holds).andThen fun exit s dispatched => ?_
    cases exit with
    | return_ value =>
      refine safe_done ⟨fun s t relied => Rests.stable orderly _ s t relied.1, fun _ _ => trivial⟩
        (fun s rests m own => ?_) dispatched
      obtain ⟨process, user⟩ := rests m own
      exact ⟨process, .inl user⟩
    | done value =>
      rcases dispatched with holds | ⟨full, holds⟩
      · refine keeps_unlockBig onlyUser (fun s holds => ?_) holds
        exact leaves_done holds fun m own => .inl (onlyUser m own)
      · refine keeps_unlock (fun _ => .inr (.inl rfl)) (fun user => by cases user) (fun s holds => ?_) holds
        refine leaves_done holds fun m own => ?_
        obtain ⟨other, same | big | user⟩ := own
        · exact .inr ⟨full, file, same⟩
        · exact absurd big other
        · exact .inl (onlyUser m user)
  · exact leaves_done holds fun m own => .inl (onlyUser m own)

/-- Closing a file that holds the board's lock unlocks the mutex for whoever has taken it. -/
theorem ibclose_leaves (rests : Rests (.process process) s) :
    Keeps orderly (.process process) (Leaves (.process process)) (ibclose file) s := by
  let base (m : GpibMutex φ) : Prop := s.owner m = .held (.process process)
  have onlyUser : ∀ m, base m → m = .user := fun m own => (rests m own).2
  have holds : Holds orderly (.process process) base (s.lockingPid = some (.process process)) s :=
    ⟨fun _ => id, fun _ _ => id, fun _ => Iff.rfl⟩
  refine keeps_aside trivial (fun _ s holds => ?_) holds
  refine safe_perform Holds.steady (fun _ _ => trivial) (fun s holdingMutex t holds acts => ?_) holds
  obtain ⟨acts, -⟩ := acts
  cases acts with
  | holdingMutex spared =>
    by_cases holding : s.holdingMutex file = true
    · have disorderly : ¬ orderly := fun orderly => Bool.false_ne_true ((spared orderly).symm.trans holding)
      rw [onlyIf, if_pos holding]
      refine keeps_unlock (fun kept => absurd (kept rfl) disorderly) (fun _ orderly => absurd orderly disorderly)
        (fun s holds => ?_) holds
      refine keeps_aside trivial (fun _ s holds => ?_) holds
      exact leaves_done holds fun m own => .inl (onlyUser m own.2)
    · rw [onlyIf, if_neg holding]
      refine keeps_aside trivial (fun _ s holds => ?_) holds
      exact leaves_done holds fun m own => .inl (onlyUser m own)

end

section
variable {orderly : Prop} {π φ : Type} [DecidableEq φ] {s : LockState π φ} {rounds task : Nat} {retval : Int}

/-- A test under `big_gpib_mutex`. -/
theorem testUnderBig_keeps {test : LockCode φ Bool} {α : Type} {Q : α → LockState π φ → Prop} {f : Bool → LockCode φ α}
    (aside : OnlyPerforms (LockOp.Aside orderly (.autospoll task : Task π) (Under nothing)) test)
    (rest : ∀ answer s, Holds orderly (.autospoll task) nothing False s → Keeps orderly (.autospoll task) Q (f answer) s)
    (holds : Holds orderly (.autospoll task) nothing False s) :
    Keeps orderly (.autospoll task) Q (do
      lock .big
      let answer ← test
      unlock .big
      f answer) s := by
  refine keeps_lock (big_ranks nothing_onlyUser) (fun s holds => ?_) holds
  refine (keeps_only aside holds).andThen fun answer s holds => ?_
  exact keeps_unlockBig nothing_onlyUser (rest answer) holds

theorem autospollWaitShouldWakeUp_keeps (holds : Holds orderly (.autospoll task) nothing False s) :
    Keeps orderly (.autospoll task) (fun _ => Holds orderly (.autospoll task) nothing False)
      autospollWaitShouldWakeUp s := by
  refine testUnderBig_keeps ?_ (fun answer s holds => keeps_done (fun _ holds => holds) holds) holds
  refine andAlso_aside (query_only _) (andAlso_aside (query_only _) (andAlso_aside ?_ ?_))
  · exact ⟨trivial, fun _ => trivial⟩
  · exact ⟨trivial, fun _ => trivial⟩

theorem awaitAutospoll_keeps (holds : Holds orderly (.autospoll task) nothing False s) :
    Keeps orderly (.autospoll task) (fun _ => Holds orderly (.autospoll task) nothing False) (awaitAutospoll rounds)
      s := by
  induction rounds generalizing s with
  | zero => exact safe_never Empty.elim Holds.steady (fun _ _ => trivial) holds
  | succ rounds ih =>
    unfold awaitAutospoll
    refine keeps_aside trivial (fun stop s holds => ?_) holds
    split_ifs
    · exact keeps_done (fun _ holds => holds) holds
    refine (autospollWaitShouldWakeUp_keeps holds).andThen fun wake s holds => ?_
    split_ifs
    · exact keeps_done (fun _ holds => holds) holds
    · exact keeps_aside trivial (fun _ s holds => ih holds) holds

theorem autopollAllDevices_keeps (holds : Holds orderly (.autospoll task) nothing False s) :
    Keeps orderly (.autospoll task) (fun _ => Holds orderly (.autospoll task) nothing False) autopollAllDevices s := by
  have onlyUser : ∀ m : GpibMutex φ, boardLock m → m = .user := fun _ same => same
  have leaves : ∀ {value s}, Holds orderly (.autospoll task) boardLock False s →
      Keeps (π := π) orderly (.autospoll task) (fun _ => Holds orderly (.autospoll task) nothing False)
        (unlock .user >>= fun _ => pure value : LockCode φ Int) s := by
    intro value s holds
    have own : boardLock (.user : GpibMutex φ) := rfl
    refine keeps_unlock (fun _ => own) (fun _ _ => id) (fun s holds => ?_) holds
    exact keeps_done (fun _ holds => holds.congr fun m => ⟨fun own => own.1 own.2, False.elim⟩) holds
  refine keeps_lockInterruptible (fun k own => own.elim) (fun s holds => ?_) (fun s holds => ?_) holds
  · rw [if_neg (Ne.symm Bool.false_ne_true)]
    have taken : Holds orderly (.autospoll task) boardLock False s := holds.congr fun m => or_iff_left id
    have own : boardLock (.user : GpibMutex φ) := rfl
    refine keeps_lockInterruptible (big_ranks onlyUser) (fun s holds => ?_) (fun s holds => ?_) taken
    · rw [if_neg (Ne.symm Bool.false_ne_true)]
      have poll : Handler.serialPollAll = .serialPollAll ↔ (.autospoll task : Task π).IsThread := iff_of_true rfl trivial
      refine (keeps_only (guarded_aside poll fun _ => own) holds).andThen fun retval s holds => ?_
      exact keeps_unlockBig onlyUser (fun s holds => leaves holds) holds
    · exact leaves holds
  · exact keeps_done (fun _ holds => holds) holds

theorem autospollOnce_keeps (holds : Holds orderly (.autospoll task) nothing False s) :
    Keeps orderly (.autospoll task) (fun _ => Holds orderly (.autospoll task) nothing False) (autospollOnce retval)
      s := by
  have ends : ∀ {retval s}, Holds orderly (.autospoll task) nothing False s →
      Keeps (π := π) orderly (.autospoll task) (fun _ => Holds orderly (.autospoll task) nothing False) (do
        onlyIf (retval ≤ 0) do
          perform (LockOp.setStuckSrq true)
          perform LockOp.setSrqi
        pure retval : LockCode φ Int) s := by
    intro retval s holds
    have stuck : OnlyPerforms (LockOp.Aside orderly (.autospoll task : Task π) nothing)
        (onlyIf (retval ≤ 0) (perform (LockOp.setStuckSrq true) >>= fun _ => perform LockOp.setSrqi) :
          LockCode φ Unit) := by
      unfold onlyIf
      split_ifs
      · exact ⟨fun _ => trivial, fun _ => ⟨trivial, fun _ => trivial⟩⟩
      · exact trivial
    exact (keeps_only stuck holds).andThen fun _ s holds => keeps_done (fun _ holds => holds) holds
  refine keeps_aside trivial (fun got s holds => ?_) holds
  cases got with
  | true => exact (autopollAllDevices_keeps holds).andThen fun retval s holds => ends holds
  | false => exact ends holds

theorem autospollThread_keeps (holds : Holds orderly (.autospoll task) nothing False s) :
    Keeps orderly (.autospoll task) (fun _ => Holds orderly (.autospoll task) nothing False)
      (autospollThread rounds retval) s := by
  induction rounds generalizing retval s with
  | zero => exact safe_never Empty.elim Holds.steady (fun _ _ => trivial) holds
  | succ rounds ih =>
    unfold autospollThread
    refine (awaitAutospoll_keeps holds).andThen fun _ s holds => ?_
    refine keeps_aside trivial (fun stop s holds => ?_) holds
    split_ifs
    · exact keeps_done (fun _ holds => holds) holds
    refine testUnderBig_keeps (andAlso_aside (query_only _) (query_only _)) (fun wanted s holds => ?_) holds
    split_ifs
    · exact ih holds
    · exact (autospollOnce_keeps holds).andThen fun retval s holds => ih holds

theorem autospollThread_leaves (locking : Locking orderly s) (rests : Rests (.autospoll task) s) :
    Keeps orderly (.autospoll task) (Leaves (.autospoll task)) (autospollThread rounds retval) s := by
  have nobody : ∀ m, ¬ s.owner m = .held (.autospoll task) := fun m own => (rests m own).1 trivial
  have holds : Holds orderly (.autospoll task) nothing False s :=
    ⟨fun m own => nobody m own, fun _ _ => False.elim,
      fun orderly => iff_of_false (fun own => nobody _ (locking.lockingPid orderly _ own)) id⟩
  refine (autospollThread_keeps holds).mono (fun _ here => here) fun value s holds m own => ?_
  exact (holds.listed m own).elim

end

section
variable {π φ : Type} {later : Crowd (Task π) (LockOp φ) LockAnswer Int (LockState π φ)}

/-- What a task is about to take. -/
def awaited (crowd : Crowd (Task π) (LockOp φ) LockAnswer Int (LockState π φ)) (i : Task π) : Option (GpibMutex φ) :=
  match crowd.running i with
  | some (.call (.lock m) _) => some m
  | some (.call (.lockInterruptible m) _) => some m
  | _ => none

def holder (crowd : Crowd (Task π) (LockOp φ) LockAnswer Int (LockState π φ)) (m : GpibMutex φ) : Option (Task π) :=
  match crowd.state.owner m with
  | .held i => some i
  | _ => none

theorem holder_eq_some {m : GpibMutex φ} {i : Task π} (holds : holder later m = some i) :
    later.state.owner m = .held i := by
  unfold holder at holds
  split at holds
  · cases holds
    assumption
  · cases holds

theorem holder_eq_none {m : GpibMutex φ} (nobody : holder later m = none) :
    later.state.owner m = .free ∨ later.state.owner m = .abandoned := by
  unfold holder at nobody
  cases owner : later.state.owner m with
  | free => exact .inl rfl
  | abandoned => exact .inr rfl
  | held i =>
    rw [owner] at nobody
    cases nobody

/-- Where a line of waiting tasks ends: with one that is at no mutex, or at one that
is free to take; or with one that waits for the board's lock, which it has already,
or for a mutex that `open_dev_ioctl` has left locked. -/
inductive LineEnd (crowd : Crowd (Task π) (LockOp φ) LockAnswer Int (LockState π φ)) (i : Task π) : Prop
  | apart (none : awaited crowd i = none)
  | free (m : GpibMutex φ) (waits : awaited crowd i = some m) (free : crowd.state.owner m = .free)
  | again (waits : awaited crowd i = some .user) (own : crowd.state.owner .user = .held i)
  | lost (file : φ) (waits : awaited crowd i = some (.descriptors file))
      (abandoned : crowd.state.owner (.descriptors file) = .abandoned)

end

section
variable {π φ : Type} [DecidableEq π] [DecidableEq φ] {orderly : Prop}

theorem calls_ibioctl (process : π) (file : φ) (rounds : Nat) (cmd : Ioctl) :
    (board π φ orderly).calls (.process process) (ibioctl file rounds cmd) := .inl ⟨file, rounds, cmd, rfl⟩

theorem board_sound :
    (board π φ orderly).Sound (MayLock orderly) (Unchanged orderly) (Locking orderly) Rests Leaves := by
  refine ⟨fun i op answer s t locking may acts => acts.others locking may, ?_, Rests.stable orderly, ?_⟩
  · rintro i value s _ locking leaves rfl
    exact leaves.ends locking
  · intro i p s locking rests calls
    cases i with
    | autospoll task =>
      obtain ⟨rounds, rfl⟩ := calls
      exact autospollThread_leaves locking rests
    | process process =>
      obtain ⟨file, rounds, cmd, rfl⟩ | ⟨file, rfl⟩ := calls
      · exact ibioctl_leaves rests
      · exact ibclose_leaves rests

variable {later : Crowd (Task π) (LockOp φ) LockAnswer Int (LockState π φ)}

theorem board_ok (run : ReflTransGen (board π φ orderly).Step ⟨.initial π φ, fun _ => none⟩ later) :
    later.Ok (board π φ orderly) (MayLock orderly) (Unchanged orderly) (Locking orderly) Rests Leaves := by
  have first : Crowd.Ok (board π φ orderly) (MayLock orderly) (Unchanged orderly) (Locking orderly) Rests Leaves
      ⟨.initial π φ, fun _ => none⟩ := by
    refine ⟨⟨fun _ i own => ?_, fun m lost => ?_⟩, fun i => Crowd.okAt_none rfl fun m own => ?_⟩
    · cases own
    · cases lost
    · cases own
  exact first.run board_sound run

theorem may_take
    (ok : later.Ok (board π φ orderly) (MayLock orderly) (Unchanged orderly) (Locking orderly) Rests Leaves)
    {i : Task π} {m k : GpibMutex φ} (waits : awaited later i = some m) (owner : later.state.owner k = .held i) :
    k = m ∧ m = .user ∨ k.rank < m.rank := by
  unfold awaited at waits
  split at waits
  · next running =>
      cases waits
      have may := ok.permitted running
      exact may k owner
  · next running =>
      cases waits
      have may := ok.permitted running
      exact may k owner
  · cases waits

/-- What the last one of a line waits for. -/
theorem ends_line
    (ok : later.Ok (board π φ orderly) (MayLock orderly) (Unchanged orderly) (Locking orderly) Rests Leaves)
    {i : Task π} (last : LastInLine (awaited later) (holder later) i) : LineEnd later i := by
  cases waits : awaited later i with
  | none => exact .apart waits
  | some m =>
    rcases last m waits with nobody | own
    · rcases holder_eq_none nobody with free | abandoned
      · exact .free m waits free
      · obtain ⟨file, rfl⟩ := ok.1.abandoned m abandoned
        exact .lost file waits abandoned
    · have owner := holder_eq_some own
      rcases may_take ok waits owner with ⟨-, rfl⟩ | lower
      · exact .again waits owner
      · exact absurd lower (Nat.lt_irrefl _)

/-- In every interleaving of any calls of any processes and of the autospoll threads:
each mutex is taken in order, and released by its holder; at its end a call holds
none but the board's lock, save the one that `open_dev_ioctl` leaves locked; and
of those who wait for each other none wait in a circle: each line of them has an end. -/
theorem locks_ordered (run : ReflTransGen (board π φ orderly).Step ⟨.initial π φ, fun _ => none⟩ later) :
    (∀ i op next, later.running i = some (.call op next) → MayLock orderly i op later.state) ∧
      (∀ i value, later.running i = some (.done value) → Leaves i value later.state) ∧
      (∀ m, later.state.owner m = .abandoned → ∃ file, m = .descriptors file) ∧
      ∀ i, ∃ j, ReflTransGen (WaitsFor (awaited later) (holder later)) i j ∧ LineEnd later j := by
  have ok := board_ok run
  refine ⟨fun i op next running => ok.permitted running, fun i value running => ok.leaves running, ok.1.abandoned, ?_⟩
  have bounded : ∀ m : GpibMutex φ, m.rank < 3 := by
    intro m
    cases m with
    | user => exact Nat.zero_lt_succ 2
    | big => exact Nat.one_lt_succ_succ 1
    | descriptors file => exact Nat.lt_succ_self 2
  have ordered : ∀ i m k, awaited later i = some m → holder later k = some i → k = m ∨ k.rank < m.rank :=
    fun i m k waits holds => (may_take ok waits (holder_eq_some holds)).imp_left And.left
  intro i
  obtain ⟨j, line, last⟩ := waits_end bounded ordered i
  exact ⟨j, line, ends_line ok last⟩

end

/-- The second process waits for the first one. -/
theorem locks_ordered_two :
    ∃ later : Crowd (Task Bool) (LockOp Unit) LockAnswer Int (LockState Bool Unit),
      WaitsFor (awaited later) (holder later) (.process true) (.process false) ∧
        ∃ j, ReflTransGen (WaitsFor (awaited later) (holder later)) (.process true) j ∧ LineEnd later j := by
  have run : ∃ later, ReflTransGen (board Bool Unit False).Step ⟨.initial Bool Unit, fun _ => none⟩ later ∧
      awaited later (.process true) = some .big ∧ holder later .big = some (.process false) := by
    refine ⟨?later, ?run, ?waits, ?holds⟩
    case run =>
      refine .head (.begin rfl (calls_ibioctl false () 0 .ibPad)) ?_
      refine .head (.perform (i := .process false) rfl (.locked rfl)) ?_
      refine .head (.perform (i := .process false) rfl (.query : LockAct _ _ (.query .interface) true _ _)) ?_
      refine .head (.perform (i := .process false) rfl (.query : LockAct _ _ (.query .getModule) true _ _)) ?_
      refine .head (.begin rfl (calls_ibioctl true () 0 .ibSad)) ?_
      exact .refl
    case waits => rfl
    case holds => rfl
  obtain ⟨later, run, waits, holds⟩ := run
  exact ⟨later, ⟨.big, waits, holds⟩, (locks_ordered run).2.2.2 (.process true)⟩

end FlukeCda.Gpib.Core.Locks
