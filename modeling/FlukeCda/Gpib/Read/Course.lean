import FlukeCda.Gpib.Read.Board
import Mathlib.Data.List.Basic

/-! # Where END is

A byte with END is on its way from the chip to the caller, and the news of it
from ISR1 to the driver's flags. Neither overtakes the other unnoticed.
-/

namespace FlukeCda.Gpib.Read

section
variable (auxaBits : UInt8) (status1 : Isr1) (flags : Flag → Bool)

theorem haveStatus_receivedEnd :
    nec7210InterruptHaveStatus auxaBits status1 flags .receivedEnd = (flags .receivedEnd || status1.endRx) := by
  obtain ⟨endRx, di⟩ := status1
  cases endRx <;> cases di <;> simp [nec7210InterruptHaveStatus] <;> split_ifs <;> simp

theorem haveStatus_rfdHoldoff (hlde : auxaBits &&& HR_HANDSHAKE_MASK = HR_HLDE) :
    nec7210InterruptHaveStatus auxaBits status1 flags .rfdHoldoff = (flags .rfdHoldoff || status1.endRx) := by
  have other : ¬ HR_HLDE = HR_HLDA := by decide
  obtain ⟨endRx, di⟩ := status1
  cases endRx <;> cases di <;> simp [nec7210InterruptHaveStatus, hlde, other]

theorem haveStatus_readReady :
    nec7210InterruptHaveStatus auxaBits status1 flags .readReady = (flags .readReady || status1.di) := by
  obtain ⟨endRx, di⟩ := status1
  cases endRx <;> cases di <;> simp [nec7210InterruptHaveStatus] <;> split_ifs <;> simp

theorem haveStatus_dmaReadInProgress :
    nec7210InterruptHaveStatus auxaBits status1 flags .dmaReadInProgress = flags .dmaReadInProgress := by
  obtain ⟨endRx, di⟩ := status1
  cases endRx <;> cases di <;> simp [nec7210InterruptHaveStatus] <;> split_ifs <;> simp

end

/-- The byte on the chip, and what is known of END. -/
structure Signals where
  held : Option Incoming
  holdoff : Bool
  isr1 : Isr1
  latch : Isr1
  receivedEnd : Bool
  rfdHoldoff : Bool

def Board.signals (board : Board) : Signals :=
  ⟨board.held, board.holdoff, board.isr1, board.latch, board.flags .receivedEnd, board.flags .rfdHoldoff⟩

/-- END is recorded. -/
structure Signals.Told (signals : Signals) : Prop where
  receivedEnd : signals.receivedEnd = true
  rfdHoldoff : signals.rfdHoldoff = true
  isr1 : signals.isr1.endRx = false
  latch : signals.latch.endRx = false

/-- END is in ISR1, or read from it, and still to be recorded. -/
structure Signals.Untold (signals : Signals) : Prop where
  receivedEnd : signals.receivedEnd = false
  rfdHoldoff : signals.rfdHoldoff = false
  pending : signals.isr1.endRx = !signals.latch.endRx

/-- There is no news of END. -/
structure Signals.Silent (signals : Signals) : Prop where
  receivedEnd : signals.receivedEnd = false
  isr1 : signals.isr1.endRx = false
  latch : signals.latch.endRx = false

/-- The news of a byte on the chip comes with DI. -/
structure Signals.WithDi (signals : Signals) : Prop where
  isr1 : signals.isr1.endRx = true → signals.isr1.di = true
  latch : signals.latch.endRx = true → signals.latch.di = true

/-- No END among the bytes. -/
def Plain (bytes : List Incoming) : Prop := ∀ byte ∈ bytes, byte.eoi = false

/-- Where the last byte with END is, after what a call has got so far: not yet
received, on the chip, moved by the call, or returned by an earlier one. -/
inductive Course (got : List Incoming) (signals : Signals) : Prop
  | coming (plain : Plain got) (held : ∀ byte, signals.held = some byte → byte.eoi = false)
      (holdoff : signals.holdoff = false) (silent : signals.Silent) (rfdHoldoff : signals.rfdHoldoff = false)
  | onChip {byte : Incoming} (plain : Plain got) (held : signals.held = some byte) (eoi : byte.eoi = true)
      (holdoff : signals.holdoff = true) (news : signals.Told ∨ signals.Untold) (withDi : signals.WithDi)
  | moved {first : List Incoming} {byte : Incoming} (last : got = first ++ [byte]) (plain : Plain first)
      (eoi : byte.eoi = true) (held : signals.held = none) (holdoff : signals.holdoff = true)
      (news : signals.Told ∨ signals.Untold)
  | returned (nothing : got = []) (held : signals.held = none) (holdoff : signals.holdoff = true)
      (silent : signals.Silent) (rfdHoldoff : signals.rfdHoldoff = true)

theorem Plain.nil : Plain [] := by
  intro byte member
  cases member

theorem Plain.snoc {bytes : List Incoming} {byte : Incoming} (plain : Plain bytes) (eoi : byte.eoi = false) :
    Plain (bytes ++ [byte]) := by
  intro other member
  rcases List.mem_append.mp member with old | new
  · exact plain other old
  · rw [List.mem_singleton.mp new]
    exact eoi

section
variable {got : List Incoming} {board : Board}

/-- Only without holdoff is anything received. -/
theorem Course.open_cases (course : Course got board.signals) (open_ : board.holdoff = false) :
    Plain got ∧ board.signals.Silent ∧ board.flags .rfdHoldoff = false := by
  have contrary : ¬ board.signals.holdoff = true := by
    change ¬ board.holdoff = true
    simp [open_]
  cases course with
  | coming plain held holdoff silent rfdHoldoff => exact ⟨plain, silent, rfdHoldoff⟩
  | onChip plain held eoi holdoff => exact absurd holdoff contrary
  | moved last plain eoi held holdoff => exact absurd holdoff contrary
  | returned nothing held holdoff => exact absurd holdoff contrary

theorem Course.receive {byte : Incoming} {rest : List Incoming} (course : Course got board.signals)
    (open_ : board.holdoff = false) : Course got (board.receive byte rest).signals := by
  obtain ⟨plain, silent, rfdHoldoff⟩ := course.open_cases open_
  have before : board.isr1.endRx = false := silent.isr1
  have latched : board.latch.endRx = false := silent.latch
  have news : (board.receive byte rest).isr1.endRx = byte.eoi := by
    change (board.isr1.endRx || byte.eoi) = byte.eoi
    rw [before, Bool.false_or]
  cases ends : byte.eoi with
  | false =>
    rw [ends] at news
    refine .coming plain (fun other held => ?_) ends ⟨silent.receivedEnd, news, latched⟩ rfdHoldoff
    cases held
    exact ends
  | true =>
    rw [ends] at news
    refine .onChip plain rfl ends ends (.inr ⟨silent.receivedEnd, rfdHoldoff, ?_⟩) ⟨fun _ => rfl, fun pending => ?_⟩
    · change (board.receive byte rest).isr1.endRx = !board.latch.endRx
      rw [news, latched]
      rfl
    · change board.latch.endRx = true at pending
      rw [latched] at pending
      cases pending

theorem Course.take {byte : Incoming} {di : Bool} (course : Course got board.signals)
    (holds : board.held = some byte) : Course (got ++ [byte]) (board.take byte di).signals := by
  have there : board.signals.held = some byte := holds
  cases course with
  | coming plain held holdoff silent rfdHoldoff =>
    refine .coming (plain.snoc (held byte there)) (fun other gone => ?_) holdoff
      ⟨silent.receivedEnd, silent.isr1, silent.latch⟩ rfdHoldoff
    cases gone
  | @onChip other plain held eoi holdoff news =>
    have same : byte = other := Option.some.inj (there.symm.trans held)
    subst same
    refine .moved rfl plain eoi rfl holdoff ?_
    rcases news with told | untold
    · exact .inl ⟨told.receivedEnd, told.rfdHoldoff, told.isr1, told.latch⟩
    · exact .inr ⟨untold.receivedEnd, untold.rfdHoldoff, untold.pending⟩
  | moved last plain eoi held =>
    rw [there] at held
    cases held
  | returned nothing held =>
    rw [there] at held
    cases held

/-- ISR1 is read. -/
def Board.latched (board : Board) : Board := { board with latch := board.isr1, isr1 := .clear }

theorem Signals.Silent.latched (silent : board.signals.Silent) : board.latched.signals.Silent :=
  ⟨silent.receivedEnd, rfl, silent.isr1⟩

theorem news_latched (clean : board.latch = .clear) (news : board.signals.Told ∨ board.signals.Untold) :
    board.latched.signals.Told ∨ board.latched.signals.Untold := by
  rcases news with told | untold
  · exact .inl ⟨told.receivedEnd, told.rfdHoldoff, rfl, told.isr1⟩
  · have pending : board.isr1.endRx = !board.latch.endRx := untold.pending
    rw [clean] at pending
    refine .inr ⟨untold.receivedEnd, untold.rfdHoldoff, ?_⟩
    change false = !board.isr1.endRx
    rw [pending]
    rfl

/-- What is read from ISR1 is all there, as long as nothing else was read before. -/
theorem Course.latched (course : Course got board.signals) (clean : board.latch = .clear) :
    Course got board.latched.signals := by
  cases course with
  | coming plain held holdoff silent rfdHoldoff => exact .coming plain held holdoff silent.latched rfdHoldoff
  | onChip plain held eoi holdoff news withDi =>
    refine .onChip plain held eoi holdoff (news_latched clean news) ⟨fun ended => ?_, withDi.isr1⟩
    cases ended
  | moved last plain eoi held holdoff news => exact .moved last plain eoi held holdoff (news_latched clean news)
  | returned nothing held holdoff silent rfdHoldoff => exact .returned nothing held holdoff silent.latched rfdHoldoff

theorem record_receivedEnd (board : Board) (status1 : Isr1) :
    (board.record status1).flags .receivedEnd = (board.flags .receivedEnd || status1.endRx) :=
  haveStatus_receivedEnd board.auxaBits status1 board.flags

theorem record_readReady (board : Board) (status1 : Isr1) :
    (board.record status1).flags .readReady = (board.flags .readReady || status1.di) :=
  haveStatus_readReady board.auxaBits status1 board.flags

theorem record_rfdHoldoff (status1 : Isr1) (hlde : board.auxaBits &&& HR_HANDSHAKE_MASK = HR_HLDE) :
    (board.record status1).flags .rfdHoldoff = (board.flags .rfdHoldoff || status1.endRx) :=
  haveStatus_rfdHoldoff board.auxaBits status1 board.flags hlde

theorem record_dmaReadInProgress (board : Board) (status1 : Isr1) :
    (board.record status1).flags .dmaReadInProgress = board.flags .dmaReadInProgress :=
  haveStatus_dmaReadInProgress board.auxaBits status1 board.flags

/-- Without news of END nothing is recorded of it. -/
theorem Signals.Silent.record (silent : board.signals.Silent) : (board.record board.latch).signals.Silent := by
  have recorded := record_receivedEnd board board.latch
  have before : board.flags .receivedEnd = false := silent.receivedEnd
  have latched : board.latch.endRx = false := silent.latch
  rw [before, latched] at recorded
  exact ⟨recorded, silent.isr1, rfl⟩

theorem Signals.Silent.record_rfdHoldoff (silent : board.signals.Silent)
    (hlde : board.auxaBits &&& HR_HANDSHAKE_MASK = HR_HLDE) :
    (board.record board.latch).flags .rfdHoldoff = board.flags .rfdHoldoff := by
  have latched : board.latch.endRx = false := silent.latch
  rw [Read.record_rfdHoldoff board.latch hlde, latched, Bool.or_false]

theorem news_record (hlde : board.auxaBits &&& HR_HANDSHAKE_MASK = HR_HLDE)
    (news : board.signals.Told ∨ board.signals.Untold) :
    (board.record board.latch).signals.Told ∨ (board.record board.latch).signals.Untold := by
  have receivedEnd := record_receivedEnd board board.latch
  have rfdHoldoff := record_rfdHoldoff board.latch hlde
  rcases news with told | untold
  · have earlier : board.flags .receivedEnd = true := told.receivedEnd
    have held : board.flags .rfdHoldoff = true := told.rfdHoldoff
    rw [earlier, Bool.true_or] at receivedEnd
    rw [held, Bool.true_or] at rfdHoldoff
    exact .inl ⟨receivedEnd, rfdHoldoff, told.isr1, rfl⟩
  · have earlier : board.flags .receivedEnd = false := untold.receivedEnd
    have free : board.flags .rfdHoldoff = false := untold.rfdHoldoff
    have pending : board.isr1.endRx = !board.latch.endRx := untold.pending
    rw [earlier, Bool.false_or] at receivedEnd
    rw [free, Bool.false_or] at rfdHoldoff
    cases latched : board.latch.endRx with
    | true =>
      rw [latched] at receivedEnd rfdHoldoff pending
      exact .inl ⟨receivedEnd, rfdHoldoff, pending, rfl⟩
    | false =>
      rw [latched] at receivedEnd rfdHoldoff pending
      exact .inr ⟨receivedEnd, rfdHoldoff, pending⟩

/-- What was read from ISR1 is recorded. -/
theorem Course.record (course : Course got board.signals) (hlde : board.auxaBits &&& HR_HANDSHAKE_MASK = HR_HLDE) :
    Course got (board.record board.latch).signals := by
  cases course with
  | coming plain held holdoff silent rfdHoldoff =>
    exact .coming plain held holdoff silent.record ((silent.record_rfdHoldoff hlde).trans rfdHoldoff)
  | onChip plain held eoi holdoff news withDi =>
    refine .onChip plain held eoi holdoff (news_record hlde news) ⟨withDi.isr1, fun ended => ?_⟩
    cases ended
  | moved last plain eoi held holdoff news => exact .moved last plain eoi held holdoff (news_record hlde news)
  | returned nothing held holdoff silent rfdHoldoff =>
    exact .returned nothing held holdoff silent.record ((silent.record_rfdHoldoff hlde).trans rfdHoldoff)

end

end FlukeCda.Gpib.Read
