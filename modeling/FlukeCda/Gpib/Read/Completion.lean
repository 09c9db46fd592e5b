import FlukeCda.Gpib.Read.Board
import FlukeCda.Interaction.Companion

/-! # The end of a transfer and the reader that waits for it

The wait of `fluke_dma_read`, step by step, beside the callback on another CPU.
-/

namespace FlukeCda.Gpib.Read.Completion
open Interaction Program Accompanied Relation

/-- What `wait_event_interruptible` asks of the kernel, and of the flags. -/
inductive WaitOp
  | prepareToWait
  | testBit (flag : Flag)
  | schedule
  | finishWait
  | outOfRounds

@[reducible] def WaitAnswer : WaitOp → Type
  | .testBit _ => Bool
  | .outOfRounds => Empty
  | _ => Unit

abbrev Waiting := Program WaitOp WaitAnswer

def prepareToWait : Waiting Unit := perform WaitOp.prepareToWait
def testBit (flag : Flag) : Waiting Bool := perform (WaitOp.testBit flag)
def schedule : Waiting Unit := perform WaitOp.schedule
def finishWait : Waiting Unit := perform WaitOp.finishWait
def outOfRounds {α : Type} : Waiting α := .call .outOfRounds Empty.elim

/-- The condition, as far as it has to be evaluated. -/
def condition : Waiting Bool := do
  let inProgress ← testBit .dmaReadInProgress
  if inProgress = false then pure true
  else do
    let receivedEnd ← testBit .receivedEnd
    if receivedEnd = true then pure true
    else do
      let devClear ← testBit .devClear
      if devClear = true then pure true else testBit .timo

/-- The loop of `wait_event_interruptible` without a signal, watched for a number of rounds. -/
def waitLoop : Nat → Waiting Unit
  | 0 => outOfRounds
  | rounds + 1 => do
    prepareToWait
    let holds ← condition
    if holds = true then finishWait
    else do
      schedule
      waitLoop rounds

/-- The condition is tested for a first time before there is any thought of sleep. -/
def waitEventInterruptible (rounds : Nat) : Waiting Unit := do
  let holds ← condition
  if holds = true then pure () else waitLoop rounds

/-- The board, and whether the reader is on the wait queue with its state
TASK_INTERRUPTIBLE, which a wake-up takes back. -/
structure Scene where
  board : Board
  interruptible : Bool

/-- The reader's steps. `schedule` comes back when its state is TASK_RUNNING. -/
inductive ReaderAct : (op : WaitOp) → WaitAnswer op → Scene → Scene → Prop
  | prepareToWait {scene} : ReaderAct .prepareToWait () scene { scene with interruptible := true }
  | testBit {scene} {flag : Flag} : ReaderAct (.testBit flag) (scene.board.flags flag) scene scene
  | schedule {scene} (running : scene.interruptible = false) : ReaderAct .schedule () scene scene
  | finishWait {scene} : ReaderAct .finishWait () scene { scene with interruptible := false }

/-- The operations of the callback that have nothing to do with the wait queue. -/
def Op.Silent : Op → Prop
  | .wakeUpInterruptible | .haveStatus _ => False
  | _ => True

/-- The callback's steps. The interrupt routine may also record a device clear, and
wakes the queue when it finds the bit of an enabled interrupt, of which DI is one. -/
inductive CallbackAct : (op : Op) → Answer op → Scene → Scene → Prop
  | wakeUpInterruptible {scene} : CallbackAct .wakeUpInterruptible () scene { scene with interruptible := false }
  | haveStatus {scene} {status1 : Isr1} {devClear wakes : Bool}
      (enabled : status1.di = true → scene.board.regBits .imr1 &&& HR_DIIE ≠ 0 → wakes = true) :
      CallbackAct (.haveStatus status1) () scene
        { board := (scene.board.record status1).putFlag .devClear (scene.board.flags .devClear || devClear)
          interruptible := scene.interruptible && !wakes }
  | silent {scene} {op : Op} {answer : Answer op} {board : Board} (silent : Op.Silent op)
      (acts : Act op answer scene.board board) : CallbackAct op answer scene { scene with board }

/-- The reader and the scene, with the callback in it. -/
abbrev Course := Waiting Unit × Accompanied Op Answer Scene

/-- One step of either; the engine may call the callback at any moment. -/
abbrev CourseStep : Course → Course → Prop :=
  Moves (Acts ReaderAct) (Accompanied.Drift CallbackAct (fun scene after => after = scene) (fun _ _ => False)
    flukeDmaCallback)

def start (rounds : Nat) (board : Board) : Course := (waitEventInterruptible rounds, ⟨⟨board, false⟩, none⟩)

/-- The callback is over, and the reader asleep although its condition holds. -/
structure Missed (x : Course) : Prop where
  finished : x.2.companion = some (.done ())
  asleep : (∃ next, x.1 = .call .schedule next) ∧ x.2.state.interruptible = true
  holds : x.2.state.board.ready .read = true

/-- The reader goes to sleep if it finds such flags. -/
def Sleeps (flags : Flag → Bool) : Waiting Unit → Prop
  | .call .schedule _ => True
  | .call (.testBit flag) next => Sleeps flags (next (flags flag))
  | _ => False

/-- The reader has set its sleep state and found the bit still set, nobody has woken
it since, and there is nothing else for it to find. -/
def Committed (x : Course) : Prop :=
  x.2.state.interruptible = true ∧
    Sleeps (Function.update x.2.state.board.flags .dmaReadInProgress false) x.1

/-- The callback clears DMA_READ_IN_PROGRESS. -/
def Clears (x y : Course) : Prop :=
  ∃ next, x.2.companion = some (.call (.clearBit .dmaReadInProgress) next) ∧ y.2.companion = some (next ())

/-- The bit is not cleared behind the back of a reader that is past its test. -/
def Timely (x y : Course) : Prop := Clears x y → ¬ Committed x

/-- The callback is still to clear the bit, and then only releases the lock. -/
def ToClear : Code Unit → Prop
  | .done _ => False
  | .call op next =>
    (op = .clearBit .dmaReadInProgress ∧ ∀ answer, OnlyPerforms (· = .spinUnlockIrqrestore) (next answer)) ∨
      op ≠ .clearBit .dmaReadInProgress ∧ ∀ answer, ToClear (next answer)

/-- Each time it has set its sleep state, the reader looks at the bit before it sleeps. -/
def Rechecks : Waiting Unit → Prop
  | .done _ => True
  | .call op next =>
    (op = .prepareToWait → ∀ answer flags, flags .dmaReadInProgress = false → ¬ Sleeps flags (next answer)) ∧
      ∀ answer, Rechecks (next answer)

theorem flukeDmaCallback_toClear : ToClear flukeDmaCallback := by
  refine Or.inr ⟨nofun, fun _ => Or.inr ⟨nofun, fun _ => Or.inr ⟨nofun, fun _ => ?_⟩⟩⟩
  refine Or.inr ⟨nofun, fun _ => Or.inr ⟨nofun, fun _ => Or.inr ⟨nofun, fun _ => ?_⟩⟩⟩
  exact Or.inl ⟨rfl, fun _ => onlyPerforms_step rfl fun _ => trivial⟩

theorem rechecks_bind {α : Type} {p : Waiting α} {f : α → Waiting Unit}
    (only : OnlyPerforms (· ≠ .prepareToWait) p) (rest : ∀ value, Rechecks (f value)) : Rechecks (p >>= f) := by
  induction p with
  | done value => exact rest value
  | call op next ih => exact ⟨fun same => absurd same only.1, fun answer => ih answer (only.2 answer)⟩

theorem condition_only : OnlyPerforms (· ≠ .prepareToWait) condition := by
  refine onlyPerforms_step nofun fun inProgress => ?_
  split_ifs
  · trivial
  · refine onlyPerforms_step nofun fun receivedEnd => ?_
    split_ifs
    · trivial
    · refine onlyPerforms_step nofun fun devClear => ?_
      split_ifs
      · trivial
      · exact onlyPerforms_step nofun fun _ => trivial

/-- With the bit clear the condition is found to hold. -/
theorem condition_awake {flags : Flag → Bool} (cleared : flags .dmaReadInProgress = false)
    {f : Bool → Waiting Unit} (awake : ¬ Sleeps flags (f true)) : ¬ Sleeps flags (condition >>= f) := by
  intro sleeps
  change Sleeps flags ((if flags .dmaReadInProgress = false then pure true else _) >>= f) at sleeps
  rw [if_pos cleared] at sleeps
  exact awake sleeps

theorem waitLoop_rechecks (rounds : Nat) : Rechecks (waitLoop rounds) := by
  induction rounds with
  | zero => exact ⟨nofun, nofun⟩
  | succ rounds ih =>
    refine ⟨fun _ _ flags cleared => condition_awake cleared id, fun _ => ?_⟩
    refine rechecks_bind (p := condition) condition_only fun holds => ?_
    split_ifs
    · exact ⟨nofun, fun _ => trivial⟩
    · exact ⟨nofun, fun _ => ih⟩

theorem waitEventInterruptible_rechecks (rounds : Nat) : Rechecks (waitEventInterruptible rounds) := by
  refine rechecks_bind condition_only fun holds => ?_
  split_ifs
  · trivial
  · exact waitLoop_rechecks rounds

/-- Before the bit is cleared nothing has to hold; afterwards the reader is not on
its way to sleep. -/
structure InTime (x : Course) : Prop where
  rechecks : Rechecks x.1
  callback : (∀ p, x.2.companion = some p → ToClear p) ∨
    (∃ p, x.2.companion = some p ∧ OnlyPerforms (· = .spinUnlockIrqrestore) p) ∧
      x.2.state.board.flags .dmaReadInProgress = false ∧
      ¬ (x.2.state.interruptible = true ∧ Sleeps x.2.state.board.flags x.1)

theorem start_inTime (rounds : Nat) (board : Board) : InTime (start rounds board) :=
  ⟨waitEventInterruptible_rechecks rounds, Or.inl nofun⟩

/-- With the bit clear no step of the reader leads to sleep. -/
theorem ReaderAct.awake {op : WaitOp} {next : WaitAnswer op → Waiting Unit} {answer : WaitAnswer op}
    {scene after : Scene} (acts : ReaderAct op answer scene after) (rechecks : Rechecks (.call op next))
    (cleared : scene.board.flags .dmaReadInProgress = false)
    (awake : ¬ (scene.interruptible = true ∧ Sleeps scene.board.flags (.call op next))) :
    after.board = scene.board ∧ ¬ (after.interruptible = true ∧ Sleeps after.board.flags (next answer)) := by
  cases acts with
  | prepareToWait => exact ⟨rfl, fun both => rechecks.1 rfl () _ cleared both.2⟩
  | testBit => exact ⟨rfl, awake⟩
  | schedule running =>
    refine ⟨rfl, fun both => ?_⟩
    rw [running] at both
    cases both.1
  | finishWait =>
    refine ⟨rfl, fun both => ?_⟩
    cases both.1

theorem flags_cleared (board : Board) :
    (board.putFlag .dmaReadInProgress false).flags .dmaReadInProgress = false := by
  exact Function.update_self Flag.dmaReadInProgress false board.flags

theorem CallbackAct.clears {scene after : Scene} {answer : Answer (.clearBit .dmaReadInProgress)}
    (acts : CallbackAct (.clearBit .dmaReadInProgress) answer scene after) :
    after = { scene with board := scene.board.putFlag .dmaReadInProgress false } := by
  cases acts with
  | silent _ acts =>
    cases acts
    rfl

theorem CallbackAct.unlocks {scene after : Scene} {answer : Answer .spinUnlockIrqrestore}
    (acts : CallbackAct .spinUnlockIrqrestore answer scene after) :
    after = { scene with board := { scene.board with locked := false } } := by
  cases acts with
  | silent _ acts =>
    cases acts
    rfl

theorem InTime.step {x y : Course} (inTime : InTime x) (step : CourseStep x y) (timely : Timely x y) : InTime y := by
  obtain ⟨rechecks, callback⟩ := inTime
  cases step with
  | @perform op next answer a b acts =>
    obtain ⟨scene, acted, rfl⟩ := acts
    refine ⟨rechecks.2 answer, ?_⟩
    rcases callback with before | ⟨after, cleared, awake⟩
    · exact Or.inl before
    · obtain ⟨same, still⟩ := acted.awake rechecks cleared awake
      refine Or.inr ⟨after, ?_, still⟩
      rw [same]
      exact cleared
  | @drift p a b drifts =>
    refine ⟨rechecks, ?_⟩
    cases drifts with
    | begin fresh starts =>
      refine Or.inl fun p left => ?_
      cases left
      exact flukeDmaCallback_toClear
    | @perform op next answer scene at_call acts =>
      rcases callback with before | ⟨⟨p, left, unlocks⟩, cleared, awake⟩
      · rcases before _ at_call with ⟨rfl, rest⟩ | ⟨other, rest⟩
        · have late := timely ⟨next, at_call, rfl⟩
          rw [acts.clears]
          exact Or.inr ⟨⟨next answer, rfl, rest answer⟩, flags_cleared a.state.board, late⟩
        · refine Or.inl fun p left => ?_
          cases left
          exact rest answer
      · rw [at_call] at left
        cases left
        obtain ⟨rfl, rest⟩ := unlocks
        rw [acts.unlocks]
        exact Or.inr ⟨⟨next answer, rfl, rest answer⟩, cleared, awake⟩
    | outside drifts => exact drifts.elim

theorem InTime.not_missed {x : Course} (inTime : InTime x) : ¬ Missed x := by
  rintro ⟨finished, ⟨⟨next, asleep⟩, interruptible⟩, -⟩
  rcases inTime.callback with before | ⟨-, -, awake⟩
  · exact before _ finished
  · rw [asleep] at awake
    exact awake ⟨interruptible, trivial⟩

/-- The callback is on its way, wherever the reader is. -/
theorem callback_proceeds {x : Course} {rounds : Nat} {board : Board}
    (run : ReflTransGen CourseStep (start rounds board) x) :
    ∀ p, x.2.companion = some p → ToClear p ∨ OnlyPerforms (· = .spinUnlockIrqrestore) p := by
  induction run with
  | refl => exact nofun
  | @tail x y _ step ih =>
    cases step with
    | perform acts =>
      obtain ⟨scene, -, rfl⟩ := acts
      exact ih
    | drift drifts =>
      cases drifts with
      | begin fresh starts =>
        intro p left
        cases left
        exact Or.inl flukeDmaCallback_toClear
      | perform at_call acts =>
        intro p left
        cases left
        rcases ih _ at_call with (⟨-, rest⟩ | ⟨-, rest⟩) | ⟨-, rest⟩
        · exact Or.inr (rest _)
        · exact Or.inl (rest _)
        · exact Or.inr (rest _)
      | outside drifts => exact drifts.elim

theorem ready_cleared {board : Board} (cleared : board.flags .dmaReadInProgress = false) :
    board.ready .read = true := by
  rw [Board.ready, cleared]
  rfl

/-- A reader that goes to sleep does so with nobody's help. -/
theorem sleeps_reaches {p : Waiting Unit} {a : Accompanied Op Answer Scene} (sleeps : Sleeps a.state.board.flags p) :
    ∃ next, ReflTransGen CourseStep (p, a) (.call .schedule next, a) := by
  induction p with
  | done value => exact sleeps.elim
  | call op next ih =>
    cases op with
    | schedule => exact ⟨next, .refl⟩
    | testBit flag =>
      obtain ⟨rest, run⟩ := ih (a.state.board.flags flag) sleeps
      exact ⟨rest, .head (.perform ⟨a.state, .testBit, rfl⟩) run⟩
    | _ => exact sleeps.elim

theorem unlocks_reaches {p : Code Unit} (q : Waiting Unit) (scene : Scene)
    (unlocks : OnlyPerforms (· = .spinUnlockIrqrestore) p) :
    ∃ locked, ReflTransGen CourseStep (q, ⟨scene, some p⟩)
      (q, ⟨{ scene with board := { scene.board with locked } }, some (.done ())⟩) := by
  induction p generalizing scene with
  | done value => exact ⟨scene.board.locked, .refl⟩
  | call op next ih =>
    obtain ⟨rfl, rest⟩ := unlocks
    let released : Scene := { scene with board := { scene.board with locked := false } }
    obtain ⟨locked, run⟩ := ih () released (rest ())
    exact ⟨locked, .head (.drift (.perform rfl (.silent trivial .spinUnlockIrqrestore))) run⟩

/-- Cleared behind the back of the reader, the bit is missed. -/
theorem committed_missed {x y : Course} (callback : ∀ p, x.2.companion = some p → ToClear p ∨
    OnlyPerforms (· = .spinUnlockIrqrestore) p) (step : CourseStep x y) (late : ¬ Timely x y) :
    ∃ z, ReflTransGen CourseStep y z ∧ Missed z := by
  obtain ⟨⟨next, at_clear, after⟩, unheard⟩ := Classical.not_imp.mp late
  obtain ⟨interruptible, sleeps⟩ := not_not.mp unheard
  have unlocks : OnlyPerforms (· = .spinUnlockIrqrestore) (next ()) := by
    rcases callback _ at_clear with (⟨-, rest⟩ | ⟨other, -⟩) | ⟨other, -⟩
    · exact rest ()
    · exact absurd rfl other
    · cases other
  cases step with
  | perform acts =>
    -- the reader leaves the callback where it is
    obtain ⟨scene, -, rfl⟩ := acts
    have same : some (.call (.clearBit .dmaReadInProgress) next) = some (next ()) := at_clear.symm.trans after
    rw [← Option.some.inj same] at unlocks
    cases unlocks.1
  | @drift p a b drifts =>
    cases drifts with
    | begin fresh starts =>
      cases fresh.symm.trans at_clear
    | @perform op _ answer scene at_call acts =>
      cases at_call.symm.trans at_clear
      rw [acts.clears]
      let cleared : Scene := { a.state with board := a.state.board.putFlag .dmaReadInProgress false }
      obtain ⟨rest, asleep⟩ := sleeps_reaches (a := ⟨cleared, some (next answer)⟩) sleeps
      obtain ⟨locked, finished⟩ := unlocks_reaches (.call .schedule rest) cleared unlocks
      exact ⟨_, asleep.trans finished, rfl, ⟨⟨rest, rfl⟩, interruptible⟩, ready_cleared (flags_cleared a.state.board)⟩
    | outside drifts => exact drifts.elim

/-- The completion of a read is seen as long as the callback does not clear the bit
behind the back of the reader, and only then. -/
theorem completion_seen (rounds : Nat) (board : Board) :
    (∀ x, ReflTransGen (fun x y => CourseStep x y ∧ Timely x y) (start rounds board) x → ¬ Missed x) ∧
    ∀ x y, ReflTransGen CourseStep (start rounds board) x → CourseStep x y → ¬ Timely x y →
      ∃ z, ReflTransGen CourseStep y z ∧ Missed z := by
  constructor
  · intro x run
    have inTime : InTime x := by
      induction run with
      | refl => exact start_inTime rounds board
      | tail _ step ih => exact ih.step step.1 step.2
    exact inTime.not_missed
  · exact fun x y run step late => committed_missed (callback_proceeds run) step late

/-- A transfer of one byte, which is moved, is in progress. -/
def moved : Board :=
  ⟨[], none, false, .clear, .clear, HR_HLDE, fun _ => 7, [⟨7, false⟩], .running, 1, false,
    (· = .dmaReadInProgress), fun | .imr1 => HR_DOIE | .imr2 => HR_DMAI, fun | .imr1 => HR_DOIE | .imr2 => HR_DMAI,
    none, false⟩

/-- The reader first looks when the callback is over. -/
theorem late_reader_awake : ∃ x, x.2.companion = some (.done ()) ∧ x.1 = .done () ∧
    ReflTransGen (fun x y => CourseStep x y ∧ Timely x y) (start 1 moved) x ∧ ¬ Missed x := by
  have run : ∃ x, x.2.companion = some (.done ()) ∧ x.1 = .done () ∧
      ReflTransGen (fun x y => CourseStep x y ∧ Timely x y) (start 1 moved) x := by
    refine ⟨?later, ?finished, ?returned, ?run⟩
    case run =>
      refine .head ⟨.drift (.begin rfl rfl), fun _ committed => nomatch committed.1⟩ ?_
      refine .head ⟨.drift (.perform rfl (.silent trivial (.spinLockIrqsave rfl))), fun _ committed =>
        nomatch committed.1⟩ ?_
      refine .head ⟨.drift (.perform rfl (.silent trivial .setRegBits)), fun _ committed => nomatch committed.1⟩ ?_
      refine .head ⟨.drift (.perform rfl .wakeUpInterruptible), fun _ committed => nomatch committed.1⟩ ?_
      refine .head ⟨.drift (.perform rfl (.silent trivial .readIsr1)), fun _ committed => nomatch committed.1⟩ ?_
      refine .head ⟨.drift (.perform rfl (@CallbackAct.haveStatus _ _ false false nofun)), fun _ committed =>
        nomatch committed.1⟩ ?_
      refine .head ⟨.drift (.perform rfl (.silent trivial .clearBit)), fun _ committed => nomatch committed.1⟩ ?_
      refine .head ⟨.drift (.perform rfl (.silent trivial .clearBit)), fun _ committed => nomatch committed.1⟩ ?_
      refine .head ⟨.drift (.perform rfl (.silent trivial .spinUnlockIrqrestore)), fun _ committed =>
        nomatch committed.1⟩ ?_
      refine .head ⟨.perform ⟨_, .testBit, rfl⟩, fun _ committed => nomatch committed.1⟩ ?_
      exact .refl
    case finished => rfl
    case returned => rfl
  obtain ⟨x, finished, returned, run⟩ := run
  exact ⟨x, finished, returned, run, (completion_seen 1 moved).1 x run⟩

/-- The reader tests the bit between the callback's wake-up and its clearing of it. -/
theorem completion_missed : ¬ ∀ rounds board x, ReflTransGen CourseStep (start rounds board) x → ¬ Missed x := by
  have run : ∃ x, ReflTransGen CourseStep (start 1 moved) x ∧ Missed x := by
    refine ⟨?later, ?run, ?finished, ⟨⟨?next, ?asleep⟩, ?interruptible⟩, ?holds⟩
    case run =>
      refine .head (.perform ⟨_, .testBit, rfl⟩) ?_
      refine .head (.perform ⟨_, .testBit, rfl⟩) ?_
      refine .head (.perform ⟨_, .testBit, rfl⟩) ?_
      refine .head (.perform ⟨_, .testBit, rfl⟩) ?_
      refine .head (.drift (.begin rfl rfl)) ?_
      refine .head (.drift (.perform rfl (.silent trivial (.spinLockIrqsave rfl)))) ?_
      refine .head (.drift (.perform rfl (.silent trivial .setRegBits))) ?_
      refine .head (.drift (.perform rfl .wakeUpInterruptible)) ?_
      refine .head (.perform ⟨_, .prepareToWait, rfl⟩) ?_
      refine .head (.perform ⟨_, .testBit, rfl⟩) ?_
      refine .head (.perform ⟨_, .testBit, rfl⟩) ?_
      refine .head (.perform ⟨_, .testBit, rfl⟩) ?_
      refine .head (.perform ⟨_, .testBit, rfl⟩) ?_
      refine .head (.drift (.perform rfl (.silent trivial .readIsr1))) ?_
      refine .head (.drift (.perform rfl (@CallbackAct.haveStatus _ _ false false nofun))) ?_
      refine .head (.drift (.perform rfl (.silent trivial .clearBit))) ?_
      refine .head (.drift (.perform rfl (.silent trivial .clearBit))) ?_
      refine .head (.drift (.perform rfl (.silent trivial .spinUnlockIrqrestore))) ?_
      exact .refl
    case finished => rfl
    case asleep => rfl
    case interruptible => rfl
    case holds => rfl
  obtain ⟨x, run, missed⟩ := run
  exact fun never => never 1 moved x run missed

end FlukeCda.Gpib.Read.Completion
