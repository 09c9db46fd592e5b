import FlukeCda.Gpib.Read.Transfer

namespace FlukeCda.Gpib.Read
open Interaction Program

section
variable {stream before done new got : List Incoming} {length : Nat} {latch : Isr1} {board : Board}

theorem length_lasting (length : Nat) : Lasting fun board => board.length = length := by
  refine ⟨fun board after drifts same => (drift_length drifts).trans same, fun board after aside same => ?_⟩
  obtain ⟨flags, regBits, chipRegs, own, rfl⟩ := aside
  exact same

theorem Finishes.lasting : Lasting Finishes :=
  ⟨fun _ _ drifts finishes => finishes.drift drifts, fun _ _ aside finishes => finishes.aside aside⟩

theorem settled_lasting : Lasting fun board => Halts stream before done new board ∧ Settled board := by
  have lasting := Halts.lasting stream before done new
  refine ⟨fun board after drifts ⟨halts, settled⟩ => ?_, fun board after aside ⟨halts, settled⟩ => ?_⟩
  · exact ⟨lasting.drift board after drifts halts, settled.drift halts.rests.still drifts⟩
  · exact ⟨lasting.aside board after aside halts, settled.aside aside⟩

/-- A halted transfer under the spin lock. -/
def Held (stream before done new : List Incoming) (latch : Isr1) (board : Board) : Prop :=
  Halts stream before done new board ∧ Inside latch board

theorem Held.lasting (stream before done new : List Incoming) (latch : Isr1) :
    Lasting (Held stream before done new latch) :=
  (Halts.lasting stream before done new).and (Inside.lasting latch)

theorem swept_lasting : Lasting fun board => Held stream before done new latch board ∧ Swept board := by
  have lasting := Held.lasting stream before done new latch
  refine ⟨fun board after drifts ⟨held, swept⟩ => ?_, fun board after aside ⟨held, swept⟩ => ?_⟩
  · exact ⟨lasting.drift board after drifts held, swept.drift held.1.rests.still drifts⟩
  · exact ⟨lasting.aside board after aside held, swept.aside aside⟩

theorem Rests.lock (rests : Rests stream before got board) (free : board.locked = false) :
    Rests stream before got { board with locked := true } ∧ Inside .clear { board with locked := true } :=
  ⟨⟨(rests.flows.lock free).1, rests.still⟩, (rests.flows.lock free).2⟩

theorem Rests.unlock (rests : Rests stream before got board) (inside : Inside .clear board) :
    Rests stream before got { board with locked := false } := ⟨rests.flows.unlock inside, rests.still⟩

theorem AtRest.lock (rest : AtRest stream before got board) (free : board.locked = false) :
    AtRest stream before got { board with locked := true } ∧ Inside .clear { board with locked := true } :=
  ⟨⟨(rest.rests.lock free).1, rest.ready⟩, (rest.rests.lock free).2⟩

theorem AtRest.unlock (rest : AtRest stream before got board) (inside : Inside .clear board) :
    AtRest stream before got { board with locked := false } := ⟨rest.rests.unlock inside, rest.ready⟩

/-- With the submission the DMA buffer is there for new bytes. -/
theorem Flows.submit (flows : Flows stream before done board) (length : Nat) :
    Moving stream before done length { board with channel := .queued, length, moved := [], due := false } := by
  refine ⟨⟨?_, ?_, flows.hlde, rfl, flows.free⟩, rfl, Nat.zero_le length, fun due => ?_⟩
  · rw [List.append_nil]
    exact flows.order
  · rw [List.append_nil]
    exact flows.course
  · cases due

/-- Nobody but the read is there when it takes the transfer for started. -/
theorem Moving.started (moving : Moving stream before done length board) (inside : Inside .clear board) :
    Moving stream before done length (board.putFlag .dmaReadInProgress true) ∧
      Finishes (board.putFlag .dmaReadInProgress true) ∧ Inside .clear (board.putFlag .dmaReadInProgress true) := by
  refine ⟨⟨moving.flows.same rfl rfl rfl rfl rfl moving.flows.free, moving.length_eq, moving.bound, moving.due⟩,
    ⟨moving.due, fun serving => ?_, fun done => ?_⟩, inside.locked, inside.serving, inside.latched⟩
  · rw [show (board.putFlag .dmaReadInProgress true).serving = none from inside.serving] at serving
    cases serving
  · simp [Board.putFlag] at done

theorem startDmaRead_moving (length : Nat) (rest : AtRest stream before done board) :
    Reads (fun _ board => Moving stream before done length board ∧ Finishes board) (startDmaRead ⟨length⟩) board := by
  have resting := AtRest.lasting stream before done
  have holding := resting.and (Inside.lasting .clear)
  have starting : Lasting fun board => Moving stream before done length board ∧ Inside .clear board := starting_lasting
  have started : Lasting fun board =>
      (Moving stream before done length board ∧ Finishes board) ∧ Inside .clear board :=
    moving_lasting.and (Inside.lasting .clear)
  refine reads_perform resting (fun earlier _ after rest acts => ?_) rest
  cases acts with
  | spinLockIrqsave free =>
    refine reads_aside holding trivial (fun _ board held => ?_) (rest.lock free)
    refine reads_aside holding trivial (fun _ board held => ?_) held
    refine reads_perform holding (fun earlier _ after held acts => ?_) held
    cases acts
    obtain ⟨rest, inside⟩ := held
    have submitted := rest.rests.flows.submit length
    refine reads_perform starting (fun earlier _ after held acts => ?_)
      ⟨submitted, inside.locked, inside.serving, inside.latched⟩
    cases acts
    obtain ⟨moving, inside⟩ := held
    have issued : Moving stream before done length { earlier with channel := .running } :=
      ⟨moving.flows.same rfl rfl rfl rfl rfl moving.flows.free, moving.length_eq, moving.bound, moving.due⟩
    refine reads_perform starting (fun earlier _ after held acts => ?_)
      ⟨issued, inside.locked, inside.serving, inside.latched⟩
    cases acts
    obtain ⟨moving, finishes, inside⟩ := held.1.started held.2
    refine reads_perform started (fun earlier _ after held acts => ?_) ⟨⟨moving, finishes⟩, inside⟩
    cases acts
    obtain ⟨⟨moving, finishes⟩, inside⟩ := held
    have cleared : Moving stream before done length (earlier.putFlag .readReady false) :=
      ⟨moving.flows.same rfl rfl rfl rfl rfl moving.flows.free, moving.length_eq, moving.bound, moving.due⟩
    have watched : Finishes (earlier.putFlag .readReady false) := finishes.same rfl rfl rfl id rfl rfl rfl
    refine reads_perform started (fun earlier _ after held acts => ?_)
      ⟨⟨cleared, watched⟩, inside.locked, inside.serving, inside.latched⟩
    cases acts
    obtain ⟨⟨moving, finishes⟩, inside⟩ := held
    have left : Moving stream before done length { earlier with locked := false } :=
      ⟨moving.flows.unlock inside, moving.length_eq, moving.bound, moving.due⟩
    have watched : Finishes { earlier with locked := false } := finishes.same rfl rfl rfl id rfl rfl rfl
    exact reads_done moving_lasting (fun _ holds => holds) ⟨left, watched⟩

/-- What is in ISR1 when the read looks there is recorded. -/
theorem internalInterrupt_sweeps (held : Held stream before done new .clear board) :
    Reads (fun _ board => Held stream before done new .clear board ∧ Swept board) flukeGpibInternalInterrupt
      board := by
  refine reads_perform (Held.lasting stream before done new .clear) (fun earlier status1 after held acts => ?_) held
  cases acts
  obtain ⟨halts, inside⟩ := held
  have flows := halts.rests.flows
  have read : Flows stream before (done ++ new) earlier.latched := by
    refine ⟨flows.order, flows.course.latched inside.latched, flows.hlde, flows.loaded, fun free => ?_⟩
    rw [show earlier.latched.locked = true from inside.locked] at free
    cases free
  have swept : Swept earlier.latched := fun _ => rfl
  have latched : Held stream before done new earlier.isr1 earlier.latched :=
    ⟨⟨⟨read, halts.rests.still⟩, halts.moved⟩, inside.locked, inside.serving, rfl⟩
  refine reads_perform swept_lasting (fun now _ after held acts => ?_) ⟨latched, swept⟩
  cases acts
  obtain ⟨⟨halts, inside⟩, swept⟩ := held
  have flows := halts.rests.flows
  rw [← inside.latched]
  have recorded : Flows stream before (done ++ new) (now.record now.latch) := by
    refine ⟨flows.order, flows.course.record flows.hlde, flows.hlde, flows.loaded, fun free => ?_⟩
    rw [show (now.record now.latch).locked = true from inside.locked] at free
    cases free
  exact reads_done swept_lasting (fun _ holds => holds)
    ⟨⟨⟨⟨recorded, halts.rests.still⟩, halts.moved⟩, inside.locked, inside.serving, rfl⟩, swept⟩

/-- Flags that say nothing of END. -/
theorem Held.putFlag (held : Held stream before done new latch board) {flag : Flag} {value : Bool}
    (other : flag ≠ .receivedEnd ∧ flag ≠ .rfdHoldoff) :
    Held stream before done new latch (board.putFlag flag value) := by
  obtain ⟨halts, inside⟩ := held
  refine ⟨⟨⟨halts.rests.flows.same ?_ rfl rfl rfl rfl halts.rests.flows.free, halts.rests.still⟩, halts.moved⟩,
    inside.locked, inside.serving, inside.latched⟩
  simp only [Board.signals, Board.putFlag, Function.update_of_ne other.1.symm, Function.update_of_ne other.2.symm]

theorem Halts.lock (halts : Halts stream before done new board) (free : board.locked = false) :
    Held stream before done new .clear { board with locked := true } :=
  ⟨⟨(halts.rests.lock free).1, halts.moved⟩, (halts.rests.lock free).2⟩

/-- The callback leaves no news behind. -/
theorem flukeDmaCallback_settles (halts : Halts stream before done new board) :
    Reads (fun _ board => Halts stream before done new board ∧ Settled board) flukeDmaCallback board := by
  have holding := Held.lasting stream before done new .clear
  refine reads_perform (Halts.lasting stream before done new) (fun earlier _ after halts acts => ?_) halts
  cases acts with
  | spinLockIrqsave free =>
    refine reads_aside holding trivial (fun _ board held => ?_) (halts.lock free)
    refine reads_aside holding trivial (fun _ board held => ?_) held
    refine (internalInterrupt_sweeps held).andThen fun _ board swept => ?_
    have other : ¬ Flag.Own .dmaWriteInProgress := by simp [Flag.Own]
    refine reads_aside swept_lasting other (fun _ board swept => ?_) swept
    refine reads_perform swept_lasting (fun earlier _ after held acts => ?_) swept
    cases acts
    have finished : Held stream before done new .clear (earlier.putFlag .dmaReadInProgress false) :=
      held.1.putFlag (by simp)
    refine reads_perform swept_lasting (fun earlier _ after held acts => ?_) ⟨finished, held.2⟩
    cases acts
    obtain ⟨⟨halts, inside⟩, swept⟩ := held
    have left : Halts stream before done new { earlier with locked := false } :=
      ⟨halts.rests.unlock inside, halts.moved⟩
    refine reads_done settled_lasting (fun _ holds => holds) ⟨left, swept, fun _ => ?_⟩
    rw [show ({ earlier with locked := false } : Board).latch = .clear from inside.latched]
    rfl

/-- A halted transfer, of which the driver may not know yet. -/
def Stopped (stream before done new : List Incoming) (length : Nat) (board : Board) : Prop :=
  (Halts stream before done new board ∧ Finishes board) ∧ board.length = length

theorem Stopped.lasting (stream before done new : List Incoming) (length : Nat) :
    Lasting (Stopped stream before done new length) :=
  ((Halts.lasting stream before done new).and Finishes.lasting).and (length_lasting length)

theorem flukeGetDmaResidue_counts (moving : Moving stream before done length board) (finishes : Finishes board) :
    Reads (fun residue board => ∃ new, residue = length - new.length ∧ new.length ≤ length ∧
      Stopped stream before done new length board) flukeGetDmaResidue board := by
  refine reads_perform moving_lasting (fun earlier result after holds acts => ?_) ⟨moving, finishes⟩
  obtain ⟨moving, finishes⟩ := holds
  cases acts with
  | refused error =>
    rw [if_pos error]
    exact reads_bug moving_lasting ⟨moving, finishes⟩
  | paused fine =>
    rw [if_neg (by omega)]
    have still : Still earlier.pause := by
      unfold Still Board.pause
      split_ifs with running
      · simp
      · exact running
    have flows : Flows stream before (done ++ earlier.moved) earlier.pause :=
      moving.flows.same rfl rfl rfl rfl rfl moving.flows.free
    have watched : Finishes earlier.pause := finishes.same rfl rfl rfl id rfl rfl rfl
    have stopped : Stopped stream before done earlier.moved length earlier.pause :=
      ⟨⟨⟨⟨flows, still⟩, rfl⟩, watched⟩, moving.length_eq⟩
    have lasting := Stopped.lasting stream before done earlier.moved length
    refine reads_perform lasting (fun now residue after stopped acts => ?_) stopped
    cases acts
    have left : now.length - now.moved.length = length - earlier.moved.length := by
      rw [stopped.2, stopped.1.1.moved]
    exact reads_done lasting (fun board stopped => ⟨earlier.moved, left, moving.bound, stopped⟩) stopped

theorem finishCallback_settles (stopped : Stopped stream before done new length board) :
    Reads (fun _ board => Halts stream before done new board ∧ Settled board) finishCallback board := by
  refine reads_perform (Stopped.lasting stream before done new length) (fun earlier seen after stopped acts => ?_)
    stopped
  cases acts
  obtain ⟨⟨halts, finishes⟩, -⟩ := stopped
  unfold onlyIf
  by_cases inProgress : earlier.flags .dmaReadInProgress = true
  · rw [if_pos inProgress]
    exact flukeDmaCallback_settles halts
  · rw [if_neg inProgress]
    have finished := finishes.finished (Bool.eq_false_iff.mpr inProgress)
    exact reads_done settled_lasting (fun _ holds => holds) ⟨halts, finished.2⟩

/-- What the residue leaves has been moved, and what is to be known of it is recorded. -/
theorem stopDmaRead_settles (moving : Moving stream before done length board) (finishes : Finishes board) :
    Reads (fun bytesRead board => ∃ new, bytesRead = new.length ∧ new.length ≤ length ∧
      Halts stream before done new board ∧ Settled board) (stopDmaRead length) board := by
  refine reads_aside moving_lasting trivial (fun _ board holds => ?_) ⟨moving, finishes⟩
  refine reads_aside moving_lasting trivial (fun _ board holds => ?_) holds
  refine (flukeGetDmaResidue_counts holds.1 holds.2).andThen ?_
  rintro residue board ⟨new, rfl, bound, stopped⟩
  have counted : length - (length - new.length) = new.length := by omega
  rw [if_neg (by omega), counted]
  refine reads_perform (Stopped.lasting stream before done new length) (fun earlier _ after stopped acts => ?_) stopped
  cases acts
  obtain ⟨⟨halts, finishes⟩, total⟩ := stopped
  have flows : Flows stream before (done ++ new) { earlier with channel := .idle } :=
    halts.rests.flows.same rfl rfl rfl rfl rfl halts.rests.flows.free
  have still : Still { earlier with channel := .idle } := by simp [Still]
  have watched : Finishes { earlier with channel := .idle } := finishes.same rfl rfl rfl id rfl rfl rfl
  have terminated : Stopped stream before done new length { earlier with channel := .idle } :=
    ⟨⟨⟨⟨flows, still⟩, halts.moved⟩, watched⟩, total⟩
  refine (finishCallback_settles terminated).andThen fun _ board settled => ?_
  exact reads_done settled_lasting (fun board settled => ⟨new, rfl, bound, settled⟩) settled

end

end FlukeCda.Gpib.Read
