import FlukeCda.Gpib.AccelWrite
import FlukeCda.Gpib.Core.Io
import FlukeCda.Gpib.Core.Errno

/-! # Writing from the caller to the chip

`write_ioctl` cuts what the caller sends into loads of the board's buffer, and
`fluke_accel_write` cuts each load into transfers.
-/

namespace FlukeCda.Gpib.Core
open Interaction Program

abbrev WriteCode := IoCode Gpib.Answer

/-- The returned value, and `*bytes_written`. -/
def ibwrt (buf : Nat → UInt8) (cnt : Nat) (sendEoi : Bool) : WriteCode (Int × Nat) :=
  if cnt = 0 then pure (0, 0)
  else do
    let retval ← standby
    if retval < 0 then pure (retval, 0)
    else do
      osStartTimer
      let (ret, bytesWritten) ← fromDriver (flukeAccelWrite buf cnt sendEoi 0)
      let timedOut ← ioTimedOut
      osRemoveTimer
      pure (if timedOut = true then - ETIMEDOUT else ret, bytesWritten)

/-- What the loop of `write_ioctl` leaves: `retval`, `remain` and `fault`. -/
structure Left where
  retval : Int
  remain : Nat
  fault : Bool

/-- The loop of `write_ioctl`, watched for a number of rounds. -/
def writeLoads (ended : Bool) : Nat → Int → Nat → Nat → WriteCode Left
  | 0, _, _, _ => .call .outOfRounds Empty.elim
  | rounds + 1, retval, userbuf, remain =>
    if remain > 0 then do
      let sendEoi := decide (remain ≤ bufferLength) && ended
      let copied ← perform (IoOp.copyFromUser userbuf (loadSize remain))
      match copied with
      | none => pure ⟨- EFAULT, remain, true⟩
      | some buffer => do
        let (retval, bytesWritten) ← ibwrt buffer (loadSize remain) sendEoi
        if retval < 0 then pure ⟨retval, remain - bytesWritten, false⟩
        else writeLoads ended rounds retval (userbuf + bytesWritten) (remain - bytesWritten)
    else pure ⟨retval, remain, false⟩

/-- After the loop. An error is suppressed where all bytes got sent. -/
def finishWrite (writeCmd : ReadWriteIoctl) (left : Left) : WriteCode Int := do
  let retval := if left.remain = 0 then 0 else left.retval
  let completed := writeCmd.requestedTransferCount - left.remain
  let fault ←
    if left.fault = true then pure true
    else do
      let copied ← perform (IoOp.copyCommandOut { writeCmd with completedTransferCount := completed })
      pure (!copied)
  perform (IoOp.setIoInProgress false)
  perform IoOp.wakeUpInterruptible
  pure (if fault = true then - EFAULT else retval)

def writeIoctl : WriteCode Int := do
  let copied ← perform IoOp.copyCommandIn
  match copied with
  | none => pure (- EFAULT)
  | some writeCmd =>
    if writeCmd.completedTransferCount > writeCmd.requestedTransferCount then pure (- EINVAL)
    else do
      let found ← perform (IoOp.handleToDescriptor writeCmd.handle)
      if found = false then pure (- EINVAL)
      else do
        let remain := writeCmd.requestedTransferCount - writeCmd.completedTransferCount
        let fine ← perform (IoOp.accessOk writeCmd.completedTransferCount remain)
        if fine = false then pure (- EFAULT)
        else do
          perform (IoOp.setIoInProgress true)
          let left ← writeLoads writeCmd.ended (remain + 1) 0 writeCmd.completedTransferCount remain
          finishWrite writeCmd left

/-- The board as the write's driver sees it. What `go_to_standby` and
`update_status` change is the status. -/
def writeBelow : Below Gpib.Op Gpib.Answer Board where
  act := Act
  drift := Drift
  timo := fun board => board.flags .timo
  putTimo := fun board value => board.putFlag .timo value
  standby := fun board after => ∃ flags, Interrupted board.flags flags ∧ after = { board with flags }

section Closes
variable {start board : Board} {buffer : Nat → UInt8} {length k : Nat}

/-- A write that stops has no transfer left running, and reports what it wrote. -/
def Closed (start : Board) (buffer : Nat → UInt8) (length : Nat) (result : Int × Nat) (board : Board) : Prop :=
  Between start buffer result.2 board ∧ result.2 ≤ length ∧ (¬ result.1 < 0 → result.1 = 0 ∧ result.2 = length)

theorem close_safe {sendEoi : Bool} {retval : Int} (between : Between start buffer k board)
    (bound : k ≤ length) (complete : ¬ retval < 0 → retval = 0 ∧ k = length) :
    Safe Act Drift (Permitted start buffer length sendEoi) (Exact start buffer length)
      (Closed start buffer length) (pure (retval, k)) board :=
  safe_done (Between.inert bound).steady (fun _ between => ⟨between, bound, complete⟩) between

theorem writeLastByte_closes {at_ : Progress} {sendEoi : Bool} (eoi : sendEoi = true) (last : k + 1 = length)
    (tracks : Tracks buffer length k k at_) (between : Between start buffer k board) :
    Safe Act Drift (Permitted start buffer length sendEoi) (Exact start buffer length)
      (Closed start buffer length) (writeLastByte at_) board := by
  have inert : Inert (Exact start buffer length) (Between start buffer k) := Between.inert (by omega)
  have single : at_.remainder = 1 := by
    have remainder := tracks.remainder_eq
    omega
  unfold writeLastByte
  rw [if_neg (by omega), single, tracks.buffer_eq, tracks.bytesWritten_eq]
  refine safe_perform inert.steady (fun board between => ⟨eoi, k, last, between.1⟩)
    (fun before _ after between acts => ?_) between
  refine (chunk_safe (between.same (acts.sameBytes trivial)) (by omega) (by decide)).andThen ?_
  rintro ⟨retval, n⟩ board ⟨between, bound, error, complete⟩
  refine close_safe between (by omega) fun passed => ?_
  by_cases failed : retval < 0
  · rw [if_pos failed] at passed
    exact absurd failed passed
  · have whole : n = 1 := complete (by omega)
    exact ⟨if_neg failed, by omega⟩

theorem finishAccelWrite_closes {sendEoi : Bool} {retval : Int} {at_ : Progress} (positive : 0 < length)
    (looped : Looped start buffer length (dmaTotal length sendEoi) (retval, at_) board) :
    Safe Act Drift (Permitted start buffer length sendEoi) (Exact start buffer length)
      (Closed start buffer length) (finishAccelWrite sendEoi retval at_) board := by
  obtain ⟨between, bound, tracks⟩ := looped
  unfold finishAccelWrite
  by_cases failed : retval < 0
  · rw [if_pos failed]
    exact close_safe between bound fun passed => absurd failed passed
  rw [if_neg failed]
  have done := tracks failed
  have all := done.bytesWritten_eq
  simp only at between bound all
  rw [all] at between
  by_cases eoi : sendEoi = true
  · rw [if_pos eoi]
    have last : dmaTotal length sendEoi + 1 = length := by
      rw [dmaTotal, if_pos eoi]
      omega
    exact writeLastByte_closes eoi last done between
  · rw [if_neg eoi]
    have whole : dmaTotal length sendEoi = length := if_neg eoi
    rw [all]
    exact close_safe between whole.le fun _ => ⟨rfl, whole⟩

/-- Without a DMA channel nothing is done. -/
theorem flukeAccelWrite_closes (start : Board) (buffer : Nat → UInt8) {length : Nat} (positive : 0 < length)
    (sendEoi : Bool) : Safe Act Drift (Permitted start buffer length sendEoi) (Exact start buffer length)
      (Closed start buffer length) (flukeAccelWrite buffer length sendEoi 0) start := by
  have lenient := permitted_lenient start buffer length sendEoi
  have inert : Inert (Exact start buffer length) (Between start buffer 0) := Between.inert (Nat.zero_le length)
  refine safe_quiet lenient inert trivial trivial (fun channel board between => ?_) (.initial start buffer)
  split_ifs with unwired empty
  · exact close_safe between (Nat.zero_le length) fun passed => absurd (by decide) passed
  · omega
  refine safe_quiet lenient inert trivial trivial (fun _ board between => ?_) between
  have tracks : Tracks buffer length (dmaTotal length sendEoi) 0
      ⟨buffer, dmaTotal length sendEoi, length, 0⟩ := by
    refine ⟨?_, rfl, rfl, rfl⟩
    funext i
    rw [Nat.zero_add]
  have within : dmaTotal length sendEoi ≤ length := by
    unfold dmaTotal
    split_ifs <;> omega
  refine (writeChunks_safe tracks within (Nat.lt_succ_of_le within) between).andThen ?_
  rintro ⟨retval, at_⟩ board looped
  exact finishAccelWrite_closes positive looped

end Closes

end FlukeCda.Gpib.Core
