import FlukeCda.Gpib.Read.Course

/-! # Bytes on their way

What holds of the board whatever happens to it while the read does nothing.
-/

namespace FlukeCda.Gpib.Read

/-- Of a stream of bytes earlier calls have got `before` and this one `got`; the
others are still to come. -/
structure Flows (stream before got : List Incoming) (board : Board) : Prop where
  order : stream = before ++ got ++ (board.held.toList ++ board.rest)
  course : Course got board.signals
  hlde : board.auxaBits &&& HR_HANDSHAKE_MASK = HR_HLDE
  loaded : board.moved.map Incoming.value = (List.range board.moved.length).map board.dmaBuffer
  free : board.locked = false → board.serving = none ∧ board.latch = .clear

/-- The read has the spin lock. -/
structure Inside (latch : Isr1) (board : Board) : Prop where
  locked : board.locked = true
  serving : board.serving = none
  latched : board.latch = latch

/-- No transfer moves anything. -/
def Still (board : Board) : Prop := board.channel ≠ .running

/-- ISR1 has no news of an END that has left the chip. -/
def Swept (board : Board) : Prop := board.held = none → board.isr1.endRx = false

/-- All news of an END that has left the chip is recorded. -/
structure Settled (board : Board) : Prop where
  swept : Swept board
  latch : board.held = none → board.latch.endRx = false

def Full (board : Board) : Prop := board.moved.length = board.length

/-- The transfer is taken for finished only when it has moved everything, and the
news of what it moved is recorded. -/
structure Finishes (board : Board) : Prop where
  due : board.due = true → Full board
  callback : board.serving = some .dmaCallback → Full board ∧ Swept board
  finished : board.flags .dmaReadInProgress = false → Full board ∧ Settled board

/-- READ_READY goes with an END on the chip that is recorded. -/
def Ready (board : Board) : Prop :=
  ∀ byte, board.held = some byte → byte.eoi = true → board.flags .receivedEnd = true → board.flags .readReady = true

/-- Nothing has happened but to the registers and to the flags of others. -/
def Aside (board after : Board) : Prop :=
  ∃ flags regBits chipRegs, (∀ flag, Flag.Own flag → flags flag = board.flags flag) ∧
    after = { board with flags, regBits, chipRegs }

/-- The buffer holds one byte more. -/
theorem loaded_snoc {moved : List Incoming} {buffer : Nat → UInt8} (byte : Incoming)
    (loaded : moved.map Incoming.value = (List.range moved.length).map buffer) :
    (moved ++ [byte]).map Incoming.value =
      (List.range (moved ++ [byte]).length).map (Function.update buffer moved.length byte.value) := by
  have earlier : (List.range moved.length).map (Function.update buffer moved.length byte.value) =
      (List.range moved.length).map buffer := by
    refine List.map_congr_left fun i inside => Function.update_of_ne ?_ _ _
    exact (List.mem_range.mp inside).ne
  rw [List.length_append, List.length_singleton, List.range_succ, List.map_append, List.map_append, earlier, loaded]
  simp

section
variable {stream before got : List Incoming} {board after : Board} {latch : Isr1}

theorem Flows.clean (flows : Flows stream before got board) (free : board.locked = false) : board.latch = .clear :=
  (flows.free free).2

theorem Flows.receive {byte : Incoming} {rest : List Incoming} (flows : Flows stream before got board)
    (empty : board.held = none) (open_ : board.holdoff = false) (coming : board.rest = byte :: rest) :
    Flows stream before got (board.receive byte rest) := by
  refine ⟨?_, flows.course.receive open_, flows.hlde, flows.loaded, flows.free⟩
  have order := flows.order
  rw [empty, coming] at order
  exact order

theorem Flows.take {byte : Incoming} {di : Bool} (flows : Flows stream before got board)
    (held : board.held = some byte) : Flows stream before (got ++ [byte]) (board.take byte di) := by
  refine ⟨?_, flows.course.take held, flows.hlde, loaded_snoc byte flows.loaded, flows.free⟩
  have order := flows.order
  rw [held] at order
  rw [order]
  simp [Board.take]

/-- A handler reads ISR1 when it has got the lock. -/
theorem Flows.enter (flows : Flows stream before got board) (free : board.locked = false) (handler : Handler) :
    Flows stream before got (board.enter handler) := by
  refine ⟨flows.order, flows.course.latched (flows.clean free), flows.hlde, flows.loaded, fun unlocked => ?_⟩
  cases unlocked

theorem Flows.record (flows : Flows stream before got board) : Flows stream before got (board.record board.latch) :=
  ⟨flows.order, flows.course.record flows.hlde, flows.hlde, flows.loaded, fun free => ⟨(flows.free free).1, rfl⟩⟩

/-- What is neither recorded nor moved is left where it is. -/
theorem Flows.same (flows : Flows stream before got board) (signals : after.signals = board.signals)
    (rest : after.rest = board.rest) (auxaBits : after.auxaBits = board.auxaBits)
    (moved : after.moved = board.moved) (dmaBuffer : after.dmaBuffer = board.dmaBuffer)
    (free : after.locked = false → after.serving = none ∧ after.latch = .clear) : Flows stream before got after := by
  have held : after.held = board.held := congrArg Signals.held signals
  refine ⟨?_, ?_, ?_, ?_, free⟩
  · rw [held, rest]
    exact flows.order
  · rw [signals]
    exact flows.course
  · rw [auxaBits]
    exact flows.hlde
  · rw [moved, dmaBuffer]
    exact flows.loaded

theorem Flows.leave (flows : Flows stream before got board) (recorded : board.latch = .clear) (handler : Handler) :
    Flows stream before got (board.leave handler) := by
  cases handler <;> exact flows.same rfl rfl rfl rfl rfl fun _ => ⟨rfl, recorded⟩

theorem Flows.aside (flows : Flows stream before got board) (aside : Aside board after) :
    Flows stream before got after := by
  obtain ⟨flags, regBits, chipRegs, own, rfl⟩ := aside
  refine flows.same ?_ rfl rfl rfl rfl flows.free
  have receivedEnd := own .receivedEnd (by simp [Flag.Own])
  have rfdHoldoff := own .rfdHoldoff (by simp [Flag.Own])
  simp only [Board.signals, receivedEnd, rfdHoldoff]

theorem Inside.aside (inside : Inside latch board) (aside : Aside board after) : Inside latch after := by
  obtain ⟨flags, regBits, chipRegs, own, rfl⟩ := aside
  exact ⟨inside.locked, inside.serving, inside.latched⟩

theorem Settled.same (settled : Settled board) (held : after.held = board.held) (isr1 : after.isr1 = board.isr1)
    (latch : after.latch = board.latch) : Settled after := by
  constructor
  · rw [Swept, held, isr1]
    exact settled.swept
  · rw [held, latch]
    exact settled.latch

theorem Settled.aside (settled : Settled board) (aside : Aside board after) : Settled after := by
  obtain ⟨flags, regBits, chipRegs, own, rfl⟩ := aside
  exact settled.same rfl rfl rfl

theorem Finishes.same (finishes : Finishes board) (held : after.held = board.held) (isr1 : after.isr1 = board.isr1)
    (latch : after.latch = board.latch) (full : Full board → Full after) (due : after.due = board.due)
    (serving : after.serving = board.serving)
    (inProgress : after.flags .dmaReadInProgress = board.flags .dmaReadInProgress) : Finishes after := by
  refine ⟨fun owed => full (finishes.due (due ▸ owed)), fun served => ?_, fun done => ?_⟩
  · obtain ⟨whole, swept⟩ := finishes.callback (serving ▸ served)
    refine ⟨full whole, ?_⟩
    rw [Swept, held, isr1]
    exact swept
  · obtain ⟨whole, settled⟩ := finishes.finished (inProgress ▸ done)
    exact ⟨full whole, settled.same held isr1 latch⟩

theorem Finishes.aside (finishes : Finishes board) (aside : Aside board after) : Finishes after := by
  obtain ⟨flags, regBits, chipRegs, own, rfl⟩ := aside
  exact finishes.same rfl rfl rfl id rfl rfl (own .dmaReadInProgress (by simp [Flag.Own]))

theorem Ready.aside (ready : Ready board) (aside : Aside board after) : Ready after := by
  obtain ⟨flags, regBits, chipRegs, own, rfl⟩ := aside
  intro byte held eoi receivedEnd
  have same := own .receivedEnd (by simp [Flag.Own])
  exact (own .readReady (by simp [Flag.Own])).trans (ready byte held eoi (same.symm.trans receivedEnd))

theorem aside_flags {flags : Flag → Bool} (own : ∀ flag, flag.Own → flags flag = board.flags flag) :
    Aside board { board with flags } := ⟨flags, board.regBits, board.chipRegs, own, rfl⟩

/-- The environment moves a byte from the chip to the buffer, or moves nothing. -/
theorem Flows.drift (flows : Flows stream before got board) (drifts : Drift board after) :
    (after.moved = board.moved ∧ Flows stream before got after) ∨
      ∃ byte, board.channel = .running ∧ board.moved.length < board.length ∧ after.moved = board.moved ++ [byte] ∧
        Flows stream before (got ++ [byte]) after := by
  cases drifts with
  | receive empty open_ coming => exact .inl ⟨rfl, flows.receive empty open_ coming⟩
  | @take byte di held running enabled room seen => exact .inr ⟨byte, running, room, rfl, flows.take held⟩
  | complete moved full => exact .inl ⟨rfl, flows.same rfl rfl rfl rfl rfl flows.free⟩
  | interrupt free => exact .inl ⟨rfl, flows.enter free .interrupt⟩
  | callback free due =>
    have registers : Flows stream before got
        { board.putRegBits .imr1 (HR_DOIE ||| HR_DIIE) (HR_DOIE ||| HR_DIIE) with due := false } :=
      flows.same rfl rfl rfl rfl rfl flows.free
    exact .inl ⟨rfl, registers.enter free .dmaCallback⟩
  | record serving => exact .inl ⟨rfl, flows.record⟩
  | @leave handler serving recorded =>
    refine .inl ⟨?_, flows.leave recorded handler⟩
    cases handler <;> rfl
  | flags own => exact .inl ⟨rfl, flows.aside (aside_flags own)⟩

theorem drift_length (drifts : Drift board after) : after.length = board.length := by
  cases drifts with
  | @leave handler serving => cases handler <;> rfl
  | _ => rfl

theorem Still.drift (still : Still board) (drifts : Drift board after) : Still after := by
  cases drifts with
  | complete moved full =>
    intro running
    cases running
  | @leave handler serving => cases handler <;> exact still
  | _ => exact still

theorem Flows.still (flows : Flows stream before got board) (still : Still board) (drifts : Drift board after) :
    after.moved = board.moved ∧ Flows stream before got after := by
  rcases flows.drift drifts with same | ⟨byte, running, -⟩
  · exact same
  · exact absurd running still

/-- With the lock held nobody else records anything. -/
theorem Inside.drift (inside : Inside latch board) (drifts : Drift board after) :
    Inside latch after ∧ ∀ flag, flag.Own → after.flags flag = board.flags flag := by
  have locked := inside.locked
  cases drifts with
  | interrupt free | callback free due =>
    rw [locked] at free
    cases free
  | record serving | leave serving =>
    rw [inside.serving] at serving
    cases serving
  | flags own => exact ⟨inside.aside (aside_flags own), own⟩
  | _ => exact ⟨⟨locked, inside.serving, inside.latched⟩, fun _ _ => rfl⟩

theorem Swept.drift (swept : Swept board) (still : Still board) (drifts : Drift board after) : Swept after := by
  cases drifts with
  | receive empty open_ coming =>
    intro gone
    cases gone
  | take held running => exact absurd running still
  | interrupt free | callback free due => exact fun _ => rfl
  | @leave handler serving => cases handler <;> exact swept
  | _ => exact swept

theorem Settled.drift (settled : Settled board) (still : Still board) (drifts : Drift board after) :
    Settled after := by
  refine ⟨settled.swept.drift still drifts, ?_⟩
  cases drifts with
  | receive empty open_ coming =>
    intro gone
    cases gone
  | take held running => exact absurd running still
  | interrupt free | callback free due => exact settled.swept
  | record serving => exact fun _ => rfl
  | @leave handler serving => cases handler <;> exact settled.latch
  | _ => exact settled.latch

theorem Finishes.drift (finishes : Finishes board) (drifts : Drift board after) : Finishes after := by
  cases drifts with
  | receive empty open_ coming =>
    have swept : ∀ b : Board, b.held ≠ none → Swept b := fun b held none => absurd none held
    refine ⟨finishes.due, fun serving => ⟨(finishes.callback serving).1, swept _ (by simp [Board.receive])⟩, ?_⟩
    refine fun done => ⟨(finishes.finished done).1, swept _ (by simp [Board.receive]), fun gone => ?_⟩
    cases gone
  | @take byte di held running enabled room seen =>
    -- a transfer with room left is in progress, and nobody takes it for finished
    have unfinished : ¬ Full board := room.ne
    exact ⟨fun due => absurd (finishes.due due) unfinished,
      fun serving => absurd (finishes.callback serving).1 unfinished,
      fun done => absurd (finishes.finished done).1 unfinished⟩
  | complete moved full =>
    refine ⟨fun _ => full, finishes.callback, fun done => ?_⟩
    obtain ⟨full, settled⟩ := finishes.finished done
    exact ⟨full, settled.swept, settled.latch⟩
  | interrupt free =>
    refine ⟨finishes.due, fun serving => ?_, fun done => ?_⟩
    · cases serving
    · obtain ⟨full, settled⟩ := finishes.finished done
      exact ⟨full, fun _ => rfl, settled.swept⟩
  | callback free due =>
    refine ⟨fun due => ?_, fun _ => ⟨finishes.due due, fun _ => rfl⟩, fun done => ?_⟩
    · cases due
    · obtain ⟨full, settled⟩ := finishes.finished done
      exact ⟨full, fun _ => rfl, settled.swept⟩
  | record serving =>
    refine ⟨finishes.due, finishes.callback, fun done => ?_⟩
    obtain ⟨full, settled⟩ := finishes.finished ((record_dmaReadInProgress board board.latch).symm.trans done)
    exact ⟨full, settled.swept, fun _ => rfl⟩
  | @leave handler serving recorded =>
    cases handler with
    | interrupt =>
      refine ⟨finishes.due, fun served => ?_, fun done => ?_⟩
      · cases served
      · obtain ⟨full, settled⟩ := finishes.finished done
        exact ⟨full, settled.swept, settled.latch⟩
    | dmaCallback =>
      obtain ⟨full, swept⟩ := finishes.callback serving
      refine ⟨fun _ => full, fun served => ?_, fun _ => ⟨full, swept, fun _ => ?_⟩⟩
      · cases served
      · exact congrArg Isr1.endRx recorded
  | flags own => exact finishes.aside (aside_flags own)

/-- A handler that records END for the byte on the chip records DI as well. -/
theorem Ready.record (ready : Ready board) (flows : Flows stream before got board) :
    Ready (board.record board.latch) := by
  intro byte held eoi receivedEnd
  rw [record_readReady]
  rw [record_receivedEnd] at receivedEnd
  rcases Bool.or_eq_true_iff.mp receivedEnd with earlier | pending
  · rw [ready byte held eoi earlier, Bool.true_or]
  · have there : board.signals.held = some byte := held
    rcases flows.course with ⟨_, plain, _, _, _⟩ | ⟨_, _, _, _, _, withDi⟩ | ⟨_, _, _, gone, _, _⟩ | ⟨_, gone, _, _, _⟩
    · have contrary := plain byte there
      rw [eoi] at contrary
      cases contrary
    · have di : board.latch.di = true := withDi.latch pending
      rw [di, Bool.or_true]
    · rw [there] at gone
      cases gone
    · rw [there] at gone
      cases gone

theorem Ready.drift (ready : Ready board) (flows : Flows stream before got board) (drifts : Drift board after) :
    Ready after := by
  cases drifts with
  | receive empty open_ coming =>
    intro byte held eoi receivedEnd
    have silent := (flows.course.open_cases open_).2.1
    have never : board.flags .receivedEnd = false := silent.receivedEnd
    change board.flags .receivedEnd = true at receivedEnd
    rw [never] at receivedEnd
    cases receivedEnd
  | take held running =>
    intro byte gone
    cases gone
  | record serving => exact ready.record flows
  | @leave handler serving => cases handler <;> exact ready
  | flags own => exact ready.aside (aside_flags own)
  | _ => exact ready

end

end FlukeCda.Gpib.Read
