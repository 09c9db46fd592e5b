import FlukeCda.Gpib.Read.AccelRead
import FlukeCda.Interaction.Session
import Mathlib.Data.List.Forall2

/-! # Messages

Reads one after another, in the mode in which the chip holds the bus off after END.
-/

namespace FlukeCda.Gpib.Read
open Interaction Program Relation

/-- A read of so many bytes, whose loop is watched for so many rounds. -/
structure ReadCall where
  length : Nat
  rounds : Nat

/-- The board, with what was read and how it came out. -/
structure Line where
  board : Board
  history : List (ReadCall × Outcome)

def readService (dmaBufferSize : Nat) : Service ReadCall Op Answer Outcome Line where
  code := fun made => flukeAccelRead dmaBufferSize made.rounds made.length
  begins := fun _ line after => after = line
  ends := fun made outcome line after => after = { line with history := line.history ++ [(made, outcome)] }
  act := fun _ op answer line after => ∃ board, Act op answer line.board board ∧ after = { line with board }
  drift := fun line after => ∃ board, Drift line.board board ∧ after = { line with board }

/-- A call returns `got`: no more than it was asked for, nothing after an END, and
with `*end` exactly for an END at the end. -/
structure Framed (made : ReadCall) (outcome : Outcome) (got : List Incoming) : Prop where
  bytes : outcome.bytes = got.map Incoming.value
  bound : got.length ≤ made.length
  oneMessage : Plain got.dropLast
  ended : outcome.ended = true ↔ ∃ byte, got.getLast? = some byte ∧ byte.eoi = true

/-- The calls have returned a first part of the stream, each a piece of it, and the
rest is left. -/
def Delivered (stream : List Incoming) (history : List (ReadCall × Outcome)) (left : List Incoming) : Prop :=
  ∃ pieces, List.Forall₂ (fun call got => Framed call.1 call.2 got) history pieces ∧ stream = pieces.flatten ++ left

theorem Plain.dropLast {bytes : List Incoming} (plain : Plain bytes) : Plain bytes.dropLast :=
  fun byte member => plain byte (List.dropLast_subset bytes member)

section
variable {stream before got left : List Incoming} {history : List (ReadCall × Outcome)} {made : ReadCall}
  {outcome : Outcome} {board : Board}

theorem Plain.getLast_eoi {bytes : List Incoming} (plain : Plain bytes) :
    ¬ ∃ byte, bytes.getLast? = some byte ∧ byte.eoi = true := by
  rintro ⟨byte, last, eoi⟩
  have contrary := plain byte (List.mem_of_getLast? last)
  rw [eoi] at contrary
  cases contrary

theorem Answers.framed (answers : Answers stream before got outcome.ended board)
    (bytes : outcome.bytes = got.map Incoming.value) (bound : got.length ≤ made.length) :
    Framed made outcome got := by
  cases ended : outcome.ended with
  | false =>
    have plain := (answers.plain ended).1
    refine ⟨bytes, bound, plain.dropLast, fun yes => ?_, fun last => absurd last plain.getLast_eoi⟩
    rw [ended] at yes
    cases yes
  | true =>
    obtain ⟨first, byte, rfl, plain, eoi⟩ := (answers.ends ended).1
    refine ⟨bytes, bound, ?_, fun _ => ⟨byte, List.getLast?_concat, eoi⟩, fun _ => ended⟩
    rw [List.dropLast_concat]
    exact plain

/-- What is returned without END lies in the past for the next call as well. -/
theorem Course.delivered {signals : Signals} (course : Course got signals) (plain : Plain got) : Course [] signals := by
  cases course with
  | coming _ held holdoff silent rfdHoldoff => exact .coming .nil held holdoff silent rfdHoldoff
  | onChip _ held eoi holdoff news withDi => exact .onChip .nil held eoi holdoff news withDi
  | @moved first byte last _ eoi held holdoff news =>
    have ends : Ends got := ⟨first, byte, last, by assumption, eoi⟩
    exact absurd plain ends.not_plain
  | returned _ held holdoff silent rfdHoldoff => exact .returned rfl held holdoff silent rfdHoldoff

theorem Answers.delivered {ended : Bool} (answers : Answers stream before got ended board) :
    AtRest stream (before ++ got) [] board := by
  cases ended with
  | true => exact (answers.ends rfl).2
  | false =>
    obtain ⟨plain, rest⟩ := answers.plain rfl
    have flows := rest.rests.flows
    refine ⟨⟨⟨?_, flows.course.delivered plain, flows.hlde, flows.loaded, flows.free⟩, rest.rests.still⟩, rest.ready⟩
    rw [List.append_nil]
    exact flows.order

theorem Delivered.bytes_prefix (delivered : Delivered stream history left) :
    (history.flatMap fun call => call.2.bytes) <+: stream.map Incoming.value := by
  obtain ⟨pieces, framed, rfl⟩ := delivered
  have bytes : (history.flatMap fun call => call.2.bytes) = pieces.flatten.map Incoming.value := by
    induction framed with
    | nil => rfl
    | cons first _ ih => rw [List.flatMap_cons, ih, first.bytes, List.flatten_cons, List.map_append]
  rw [bytes, List.map_append]
  exact List.prefix_append _ _

end

/-- Between two calls: what was not returned is on the chip or still to come. -/
def Line.Resting (stream : List Incoming) (line : Line) : Prop :=
  ∃ pieces, List.Forall₂ (fun call got => Framed call.1 call.2 got) line.history pieces ∧
    AtRest stream pieces.flatten [] line.board

def Line.Ok (stream : List Incoming) (line : Line) : Prop := ∃ left, Delivered stream line.history left

theorem Line.Resting.delivered {stream : List Incoming} {line : Line} (resting : line.Resting stream) :
    Delivered stream line.history (line.board.held.toList ++ line.board.rest) := by
  obtain ⟨pieces, framed, rest⟩ := resting
  have order := rest.rests.flows.order
  rw [List.append_nil] at order
  exact ⟨pieces, framed, order⟩

theorem Line.Resting.steady (dmaBufferSize : Nat) (stream : List Incoming) :
    Steady (readService dmaBufferSize).drift (Line.Ok stream) (Line.Resting stream) := by
  refine ⟨?_, fun line resting => ⟨_, resting.delivered⟩⟩
  rintro line after ⟨board, drifts, rfl⟩ ⟨pieces, framed, rest⟩
  exact ⟨pieces, framed, (AtRest.lasting stream pieces.flatten []).drift line.board board drifts rest⟩

theorem readService_sound (dmaBufferSize : Nat) (stream : List Incoming) :
    (readService dmaBufferSize).Sound (fun _ => anything) (Line.Ok stream) (Line.Resting stream) := by
  refine ⟨Line.Resting.steady dmaBufferSize stream, ?_⟩
  rintro made _ line resting rfl
  have ok : line.Ok stream := ⟨_, resting.delivered⟩
  obtain ⟨pieces, framed, rest⟩ := resting
  let static (now : Line) : Prop := now.history = line.history
  have kept : ∀ (now : Line) board, static now → static { now with board } := fun _ _ same => same
  have reads : Reads (Adds stream pieces.flatten [] made.length)
      (flukeAccelRead dmaBufferSize made.rounds made.length) line.board := flukeAccelRead_adds rest
  have initially : static line := rfl
  have safe := Safe.part Line.board (fun now board => { now with board }) (fun _ _ => rfl) kept reads initially
  refine safe.mono ?_ ?_
  · rintro now ⟨-, same⟩
    rw [Line.Ok, show now.history = line.history from same]
    exact ok
  · rintro outcome now ⟨⟨new, bytes, bound, answers⟩, same⟩ after rfl
    refine ⟨pieces ++ [new], ?_, ?_⟩
    · rw [show now.history = line.history from same]
      exact List.rel_append framed (.cons (answers.framed bytes bound) .nil)
    · rw [List.flatten_append, List.flatten_singleton]
      exact answers.delivered

/-- A board in the mode HR_HLDE that has not received anything. -/
structure Board.Opened (stream : List Incoming) (board : Board) : Prop where
  rest : board.rest = stream
  held : board.held = none
  holdoff : board.holdoff = false
  isr1 : board.isr1 = .clear
  latch : board.latch = .clear
  hlde : board.auxaBits &&& HR_HANDSHAKE_MASK = HR_HLDE
  moved : board.moved = []
  channel : board.channel = .idle
  receivedEnd : board.flags .receivedEnd = false
  rfdHoldoff : board.flags .rfdHoldoff = false
  serving : board.serving = none

theorem Board.Opened.resting {stream : List Incoming} {board : Board} (opened : board.Opened stream) :
    Line.Resting stream ⟨board, []⟩ := by
  have silent : board.signals.Silent := by
    refine ⟨opened.receivedEnd, ?_, ?_⟩
    · exact congrArg Isr1.endRx opened.isr1
    · exact congrArg Isr1.endRx opened.latch
  have course : Course [] board.signals := by
    refine .coming .nil (fun byte held => ?_) opened.holdoff silent opened.rfdHoldoff
    have there : board.held = some byte := held
    rw [opened.held] at there
    cases there
  refine ⟨[], .nil, ⟨⟨?_, course, opened.hlde, ?_, fun _ => ⟨opened.serving, opened.latch⟩⟩, ?_⟩, ?_⟩
  · rw [opened.held, opened.rest]
    rfl
  · rw [opened.moved]
    rfl
  · rw [Still, opened.channel]
    simp
  · exact ready_of_clear opened.receivedEnd

/-- Over every sequence of reads, of any lengths, through a buffer of any size and
interrupted at any point: the bytes returned are the first bytes of the stream,
each call's of one message and no more than it was asked for, `*end` says whether
the last of them has END, and between calls the others are still there. -/
theorem accelRead_framed {dmaBufferSize : Nat} {stream : List Incoming} {start : Board}
    (opened : start.Opened stream) {later : Session ReadCall Op Answer Outcome Line}
    (run : ReflTransGen (readService dmaBufferSize).Step ⟨⟨start, []⟩, none⟩ later) :
    (later.state.history.flatMap fun call => call.2.bytes) <+: stream.map Incoming.value ∧
      (∃ left, Delivered stream later.state.history left) ∧
      (later.running = none →
        Delivered stream later.state.history (later.state.board.held.toList ++ later.state.board.rest)) := by
  have sound := readService_sound dmaBufferSize stream
  have first : Session.Ok (readService dmaBufferSize) (fun _ => anything) (Line.Ok stream) (Line.Resting stream)
    ⟨⟨start, []⟩, none⟩ := opened.resting
  have ok := first.run sound run
  obtain ⟨left, delivered⟩ := ok.here sound
  refine ⟨delivered.bytes_prefix, ⟨left, delivered⟩, fun returned => ?_⟩
  obtain ⟨line, running⟩ := later
  subst returned
  exact Line.Resting.delivered ok

/-- The byte of a message of one byte is coming. -/
def Board.coming : Board :=
  ⟨[⟨7, true⟩], none, false, .clear, .clear, HR_HLDE, fun _ => 0, [], .idle, 0, false, fun _ => false, fun _ => 0,
    fun _ => 0, none, false⟩

/-- The byte is moved, and its END recorded from the interrupt; the read has asked
for two bytes and stops at the one. -/
theorem accelRead_framed_message :
    ∃ later : Session ReadCall Op Answer Outcome Line,
      ReflTransGen (readService 2047).Step ⟨⟨.coming, []⟩, none⟩ later ∧
        later.state.history = [(⟨2, 2⟩, ⟨0, [7], true⟩)] ∧
        Delivered [⟨7, true⟩] later.state.history (later.state.board.held.toList ++ later.state.board.rest) := by
  have begins : (readService 2047).begins ⟨2, 2⟩ ⟨.coming, []⟩ ⟨.coming, []⟩ := rfl
  have run : ∃ later : Session ReadCall Op Answer Outcome Line,
      ReflTransGen (readService 2047).Step ⟨⟨.coming, []⟩, none⟩ later ∧ later.running = none ∧
        later.state.history = [(⟨2, 2⟩, ⟨0, [7], true⟩)] := by
    refine ⟨?later, ?run, ?returned, ?history⟩
    case run =>
      refine .head (.begin begins) ?_
      refine .head (.perform ⟨_, .clearBit, rfl⟩) ?_
      refine .head (.perform ⟨_, .spinLockIrqsave rfl, rfl⟩) ?_
      refine .head (.perform ⟨_, .testBit, rfl⟩) ?_
      refine .head (.perform ⟨_, .spinUnlockIrqrestore, rfl⟩) ?_
      refine .head (.perform ⟨_, .waited rfl, rfl⟩) ?_
      refine .head (.perform ⟨_, .testBit, rfl⟩) ?_
      refine .head (.perform ⟨_, .testAndClearBit, rfl⟩) ?_
      refine .head (.perform ⟨_, .mapSingle, rfl⟩) ?_
      refine .head (.perform ⟨_, .slaveConfig (Int.le_refl 0), rfl⟩) ?_
      refine .head (.perform ⟨_, .prepared, rfl⟩) ?_
      refine .head (.perform ⟨_, .spinLockIrqsave rfl, rfl⟩) ?_
      refine .head (.perform ⟨_, .setRegBits, rfl⟩) ?_
      refine .head (.perform ⟨_, .setRegBits, rfl⟩) ?_
      refine .head (.perform ⟨_, .submit, rfl⟩) ?_
      refine .head (.perform ⟨_, .issuePending rfl, rfl⟩) ?_
      refine .head (.perform ⟨_, .setBit, rfl⟩) ?_
      refine .head (.perform ⟨_, .clearBit, rfl⟩) ?_
      refine .head (.perform ⟨_, .spinUnlockIrqrestore, rfl⟩) ?_
      refine .head (.drift ⟨_, .receive rfl rfl rfl, rfl⟩) ?_
      refine .head (.drift ⟨_, @Drift.take _ _ false rfl rfl (by decide) (by decide) (by decide), rfl⟩) ?_
      refine .head (.drift ⟨_, .interrupt rfl, rfl⟩) ?_
      refine .head (.drift ⟨_, .record rfl, rfl⟩) ?_
      refine .head (.drift ⟨_, .leave rfl rfl, rfl⟩) ?_
      refine .head (.perform ⟨_, .waited rfl, rfl⟩) ?_
      refine .head (.perform ⟨_, .testBit, rfl⟩) ?_
      refine .head (.perform ⟨_, .testBit, rfl⟩) ?_
      refine .head (.perform ⟨_, .setRegBits, rfl⟩) ?_
      refine .head (.perform ⟨_, .udelay, rfl⟩) ?_
      refine .head (.perform ⟨_, .paused (Int.le_refl 0), rfl⟩) ?_
      refine .head (.perform ⟨_, .txStatus, rfl⟩) ?_
      refine .head (.perform ⟨_, .terminateAll, rfl⟩) ?_
      refine .head (.perform ⟨_, .testBit, rfl⟩) ?_
      refine .head (.perform ⟨_, .spinLockIrqsave rfl, rfl⟩) ?_
      refine .head (.perform ⟨_, .setRegBits, rfl⟩) ?_
      refine .head (.perform ⟨_, .wakeUpInterruptible, rfl⟩) ?_
      refine .head (.perform ⟨_, .readIsr1, rfl⟩) ?_
      refine .head (.perform ⟨_, .haveStatus, rfl⟩) ?_
      refine .head (.perform ⟨_, .clearBit, rfl⟩) ?_
      refine .head (.perform ⟨_, .clearBit, rfl⟩) ?_
      refine .head (.perform ⟨_, .spinUnlockIrqrestore, rfl⟩) ?_
      refine .head (.perform ⟨_, .unmapSingle, rfl⟩) ?_
      refine .head (.perform ⟨_, .memcpy, rfl⟩) ?_
      refine .head (.perform ⟨_, .spinLockIrqsave rfl, rfl⟩) ?_
      refine .head (.perform ⟨_, .readAdr0, rfl⟩) ?_
      refine .head (.perform ⟨_, .clearBit, rfl⟩) ?_
      refine .head (.perform ⟨_, .testAndClearBit, rfl⟩) ?_
      refine .head (.perform ⟨_, .spinUnlockIrqrestore, rfl⟩) ?_
      refine .head (.finish rfl) ?_
      exact .refl
    case returned => rfl
    case history => rfl
  obtain ⟨later, run, returned, history⟩ := run
  have opened : Board.coming.Opened [⟨7, true⟩] := ⟨rfl, rfl, rfl, rfl, rfl, by decide, rfl, rfl, rfl, rfl, rfl⟩
  exact ⟨later, run, history, (accelRead_framed opened run).2.2 returned⟩

end FlukeCda.Gpib.Read
