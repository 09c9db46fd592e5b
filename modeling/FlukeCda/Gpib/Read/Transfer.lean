import FlukeCda.Gpib.Read.Flow
import FlukeCda.Interaction.Interference

namespace FlukeCda.Gpib.Read
open Interaction Program

/-- The operations that look only, or write what no handler and no read looks at. -/
def Op.Aside : Op → Prop
  | .setBit flag | .clearBit flag | .testAndClearBit flag => ¬ flag.Own
  | .waitEventInterruptible _ | .testBit _ | .mapSingle _ | .unmapSingle _ | .slaveConfig | .prepSlaveSingle _
  | .setRegBits .. | .udelay _ | .memcpy _ | .wakeUpInterruptible => True
  | _ => False

theorem aside_refl (board : Board) : Aside board board :=
  ⟨board.flags, board.regBits, board.chipRegs, fun _ _ => rfl, rfl⟩

theorem aside_putFlag {flag : Flag} (other : ¬ flag.Own) (board : Board) (value : Bool) :
    Aside board (board.putFlag flag value) := by
  refine ⟨_, board.regBits, board.chipRegs, fun flag' own => Function.update_of_ne ?_ _ _, rfl⟩
  rintro rfl
  exact other own

theorem aside_putRegBits (board : Board) (reg : Reg) (mask bits : UInt8) :
    Aside board (board.putRegBits reg mask bits) := ⟨board.flags, _, _, fun _ _ => rfl, rfl⟩

theorem Act.aside {op : Op} {answer : Answer op} {board after : Board} (acts : Act op answer board after)
    (quiet : op.Aside) : Read.Aside board after := by
  cases acts with
  | setBit | clearBit | testAndClearBit => exact aside_putFlag quiet _ _
  | setRegBits => exact aside_putRegBits _ _ _ _
  | waited | signalled | testBit | mapSingle | unmapSingle | slaveConfig | prepared | unprepared | udelay | memcpy
  | wakeUpInterruptible => exact aside_refl _
  | _ => exact quiet.elim

/-- An assertion that neither the environment nor a look at the board makes false. -/
structure Lasting (P : Board → Prop) : Prop where
  drift : ∀ board after, Drift board after → P board → P after
  aside : ∀ board after, Aside board after → P board → P after

abbrev Reads {α : Type} (Q : α → Board → Prop) : Code α → Board → Prop :=
  Safe Act Drift anything (fun _ => True) Q

theorem Lasting.steady {P : Board → Prop} (lasting : Lasting P) : Steady Drift (fun _ => True) P :=
  ⟨lasting.drift, fun _ _ => trivial⟩

theorem Lasting.and {P Q : Board → Prop} (lasting : Lasting P) (also : Lasting Q) :
    Lasting fun board => P board ∧ Q board :=
  ⟨fun board after drifts holds => ⟨lasting.drift board after drifts holds.1, also.drift board after drifts holds.2⟩,
    fun board after aside holds => ⟨lasting.aside board after aside holds.1, also.aside board after aside holds.2⟩⟩

section
variable {α : Type} {Q : α → Board → Prop} {P : Board → Prop} {board : Board}

theorem reads_perform (lasting : Lasting P) {op : Op} {f : Answer op → Code α}
    (step : ∀ before answer after, P before → Act op answer before after → Reads Q (f answer) after)
    (holds : P board) : Reads Q (perform op >>= f) board :=
  safe_perform lasting.steady (fun _ _ => trivial) step holds

theorem reads_aside (lasting : Lasting P) {op : Op} {f : Answer op → Code α} (quiet : op.Aside)
    (rest : ∀ answer board, P board → Reads Q (f answer) board) (holds : P board) :
    Reads Q (perform op >>= f) board :=
  reads_perform lasting (fun before answer after holds acts =>
    rest answer after (lasting.aside before after (acts.aside quiet) holds)) holds

theorem reads_done (lasting : Lasting P) {value : α} (post : ∀ board, P board → Q value board) (holds : P board) :
    Reads Q (pure value) board := safe_done lasting.steady post holds

theorem reads_bug (lasting : Lasting P) (holds : P board) : Reads Q (bug : Code α) board :=
  safe_never Empty.elim lasting.steady (fun _ _ => trivial) holds

theorem reads_only (lasting : Lasting P) {p : Code α} (only : OnlyPerforms Op.Aside p) (holds : P board) :
    Reads (fun _ => P) p board :=
  safe_only lasting.steady (fun _ _ _ _ => trivial)
    (fun _ _ before after quiet holds acts => lasting.aside before after (acts.aside quiet) holds) only holds

end

theorem waitForIdle_aside (listener talker : Bool) : OnlyPerforms Op.Aside (waitForIdle listener talker) := by
  have other : ¬ Flag.Own .devClear := by simp [Flag.Own]
  refine onlyPerforms_step trivial fun waited => ?_
  refine afterWait_only ?_ ?_ waited
  · exact ⟨trivial, fun _ => trivial⟩
  · exact ⟨other, fun _ => trivial⟩

theorem waitRead_aside : OnlyPerforms Op.Aside waitRead := by
  refine onlyPerforms_step trivial fun waited => ?_
  refine afterWait_only ?_ ?_ waited <;> exact ⟨trivial, fun _ => trivial⟩

/-- Nothing moves, and `got` is what the call has got. -/
structure Rests (stream before got : List Incoming) (board : Board) : Prop where
  flows : Flows stream before got board
  still : Still board

/-- As it is between two transfers. -/
structure AtRest (stream before got : List Incoming) (board : Board) : Prop where
  rests : Rests stream before got board
  ready : Ready board

/-- A transfer of `length` bytes has been submitted after the call got `done`. -/
structure Moving (stream before done : List Incoming) (length : Nat) (board : Board) : Prop where
  flows : Flows stream before (done ++ board.moved) board
  length_eq : board.length = length
  bound : board.moved.length ≤ length
  due : board.due = true → Full board

/-- The transfer has moved `new`, and moves no more. -/
structure Halts (stream before done new : List Incoming) (board : Board) : Prop where
  rests : Rests stream before (done ++ new) board
  moved : board.moved = new

section
variable {stream before done new got : List Incoming} {length : Nat} {latch : Isr1}

theorem Still.aside {board after : Board} (still : Still board) (aside : Aside board after) : Still after := by
  obtain ⟨flags, regBits, chipRegs, own, rfl⟩ := aside
  exact still

theorem Swept.aside {board after : Board} (swept : Swept board) (aside : Aside board after) : Swept after := by
  obtain ⟨flags, regBits, chipRegs, own, rfl⟩ := aside
  exact swept

theorem Inside.lasting (latch : Isr1) : Lasting (Inside latch) :=
  ⟨fun _ _ drifts inside => (inside.drift drifts).1, fun _ _ aside inside => inside.aside aside⟩

/-- With the lock held a flag of the read keeps its value. -/
theorem knows_lasting {flag : Flag} (own : flag.Own) (latch : Isr1) (value : Bool) :
    Lasting fun board => Inside latch board ∧ board.flags flag = value := by
  refine ⟨fun board after drifts ⟨inside, known⟩ => ?_, fun board after aside ⟨inside, known⟩ => ?_⟩
  · obtain ⟨inside, same⟩ := inside.drift drifts
    exact ⟨inside, (same flag own).trans known⟩
  · refine ⟨inside.aside aside, ?_⟩
    obtain ⟨flags, regBits, chipRegs, same, rfl⟩ := aside
    exact (same flag own).trans known

theorem Rests.lasting (stream before got : List Incoming) : Lasting (Rests stream before got) :=
  ⟨fun _ _ drifts rests => ⟨(rests.flows.still rests.still drifts).2, rests.still.drift drifts⟩,
    fun _ _ aside rests => ⟨rests.flows.aside aside, rests.still.aside aside⟩⟩

theorem AtRest.lasting (stream before got : List Incoming) : Lasting (AtRest stream before got) := by
  have lasting := Rests.lasting stream before got
  refine ⟨fun board after drifts at_ => ?_, fun board after aside at_ => ?_⟩
  · exact ⟨lasting.drift board after drifts at_.rests, at_.ready.drift at_.rests.flows drifts⟩
  · exact ⟨lasting.aside board after aside at_.rests, at_.ready.aside aside⟩

theorem Moving.drift {board after : Board} (moving : Moving stream before done length board)
    (drifts : Drift board after) (due : after.due = true → Full after) : Moving stream before done length after := by
  have same := drift_length drifts
  have total := moving.length_eq
  rcases moving.flows.drift drifts with ⟨moved, flows⟩ | ⟨byte, running, room, moved, flows⟩
  · refine ⟨?_, same.trans total, ?_, due⟩
    · rw [moved]
      exact flows
    · rw [moved]
      exact moving.bound
  · refine ⟨?_, same.trans total, ?_, due⟩
    · rw [moved, ← List.append_assoc]
      exact flows
    · rw [moved, List.length_append, List.length_singleton]
      omega

theorem Moving.aside {board after : Board} (moving : Moving stream before done length board)
    (aside : Aside board after) : Moving stream before done length after := by
  have flows := moving.flows.aside aside
  obtain ⟨flags, regBits, chipRegs, own, rfl⟩ := aside
  exact ⟨flows, moving.length_eq, moving.bound, moving.due⟩

/-- Before the read takes its transfer for started. -/
theorem starting_lasting :
    Lasting fun board => Moving stream before done length board ∧ Inside .clear board := by
  refine ⟨fun board after drifts ⟨moving, inside⟩ => ?_, fun board after aside ⟨moving, inside⟩ => ?_⟩
  · refine ⟨moving.drift drifts ?_, (inside.drift drifts).1⟩
    have whole := moving.due
    cases drifts with
    | complete moved full => exact fun _ => full
    | take held running enabled room seen => exact fun due => absurd (whole due) room.ne
    | callback free due => exact fun _ => whole due
    | @leave handler serving => cases handler <;> exact whole
    | _ => exact whole
  · exact ⟨moving.aside aside, inside.aside aside⟩

theorem moving_lasting :
    Lasting fun board => Moving stream before done length board ∧ Finishes board := by
  refine ⟨fun board after drifts ⟨moving, finishes⟩ => ?_, fun board after aside ⟨moving, finishes⟩ => ?_⟩
  · have later := finishes.drift drifts
    exact ⟨moving.drift drifts later.due, later⟩
  · exact ⟨moving.aside aside, finishes.aside aside⟩

theorem Halts.lasting (stream before done new : List Incoming) : Lasting (Halts stream before done new) := by
  have lasting := Rests.lasting stream before (done ++ new)
  refine ⟨fun board after drifts halts => ?_, fun board after aside halts => ?_⟩
  · have same := (halts.rests.flows.still halts.rests.still drifts).1
    exact ⟨lasting.drift board after drifts halts.rests, same.trans halts.moved⟩
  · refine ⟨lasting.aside board after aside halts.rests, ?_⟩
    obtain ⟨flags, regBits, chipRegs, own, rfl⟩ := aside
    exact halts.moved

/-- The spin lock is taken from a board that no handler is at. -/
theorem Flows.lock {board : Board} (flows : Flows stream before got board) (free : board.locked = false) :
    Flows stream before got { board with locked := true } ∧ Inside .clear { board with locked := true } := by
  obtain ⟨serving, clean⟩ := flows.free free
  refine ⟨flows.same rfl rfl rfl rfl rfl fun unlocked => ?_, rfl, serving, clean⟩
  cases unlocked

theorem Flows.unlock {board : Board} (flows : Flows stream before got board) (inside : Inside .clear board) :
    Flows stream before got { board with locked := false } :=
  flows.same rfl rfl rfl rfl rfl fun _ => ⟨inside.serving, inside.latched⟩

end

end FlukeCda.Gpib.Read
