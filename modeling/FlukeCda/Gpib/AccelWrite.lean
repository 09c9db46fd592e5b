import FlukeCda.Gpib.DmaWrite

namespace FlukeCda.Gpib
open Interaction Program
open Relation (ReflTransGen)

/-- What was accepted since the start: whatever a transfer left running before
may still deliver, and then the first `n` bytes of the buffer. -/
def Wrote (start : Board) (buffer : Nat → UInt8) (n : Nat) (board : Board) : Prop :=
  ∃ stale, (start.channel = .idle → stale = []) ∧
    board.values = start.values ++ stale ++ (List.range n).map buffer

/-- At every moment the chip has accepted a first part of the buffer. -/
def Exact (start : Board) (buffer : Nat → UInt8) (length : Nat) (board : Board) : Prop :=
  ∃ n, n ≤ length ∧ Wrote start buffer n board

/-- The bugs the driver looks for are never there, AUX_SEOI is issued when the
last byte remains, and the counter is looked at while eleven bits hold it. -/
def Permitted (start : Board) (buffer : Nat → UInt8) (length : Nat) (sendEoi : Bool) : Op → Board → Prop
  | .bug, _ | .outOfRounds, _ => False
  | .writeAuxmr .seoi, board => sendEoi = true ∧ ∃ n, n + 1 = length ∧ Wrote start buffer n board
  | .readWriteTransferCounter, board | .waitEventInterruptible (.written _), board =>
    board.writeTransferCounter &&& writeTransferCounterMask = board.writeTransferCounter
  | _, _ => True

/-- The bytes reported are the bytes accepted, and a return of 0 reports them all. -/
def Reported (start : Board) (buffer : Nat → UInt8) (length : Nat) (result : Int × Nat)
    (board : Board) : Prop :=
  Wrote start buffer result.2 board ∧ result.2 ≤ length ∧ (result.1 = 0 → result.2 = length)

theorem permitted_lenient (start : Board) (buffer : Nat → UInt8) (length : Nat) (sendEoi : Bool) :
    Lenient (Permitted start buffer length sendEoi) := by
  refine ⟨fun op board plain => ?_, fun op board counting bound => ?_⟩
  · unfold Permitted
    split <;> first | exact trivial | exact plain.elim
  · unfold Permitted
    split <;> first | exact masked_eq bound | exact trivial | exact counting.elim

/-- Between two transfers `k` bytes are written; before the first one an older
transfer may still run. -/
def Between (start : Board) (buffer : Nat → UInt8) (k : Nat) (board : Board) : Prop :=
  Wrote start buffer k board ∧ (board.channel = .idle ∨ k = 0 ∧ start.channel ≠ .idle)

section
variable {start base board : Board} {buffer : Nat → UInt8} {length k : Nat}

theorem Between.same {before after : Board} (between : Between start buffer k before)
    (same : SameBytes before after) :
    Between start buffer k after := by
  obtain ⟨⟨stale, leftOver, values⟩, free⟩ := between
  refine ⟨⟨stale, leftOver, same.values.trans values⟩, ?_⟩
  rw [same.channel]
  exact free

theorem Between.drift {before after : Board} (between : Between start buffer k before)
    (drifts : Drift before after) :
    Between start buffer k after := by
  rcases drift_cases drifts with same | ⟨next, total, running, more, values, -⟩ |
    ⟨total, running, values, -, idle⟩
  · exact between.same same
  · obtain ⟨⟨stale, leftOver, sofar⟩, idle | ⟨rfl, busy⟩⟩ := between
    · rw [idle] at running
      cases running
    · refine ⟨⟨stale ++ [before.dmaBuffer next], fun idle => absurd idle busy, ?_⟩, .inr ⟨rfl, busy⟩⟩
      rw [values, sofar]
      simp only [List.range_zero, List.map_nil, List.append_nil, List.append_assoc]
  · obtain ⟨⟨stale, leftOver, sofar⟩, -⟩ := between
    exact ⟨⟨stale, leftOver, values.trans sofar⟩, .inl idle⟩

theorem Between.inert (bound : k ≤ length) : Inert (Exact start buffer length) (Between start buffer k) :=
  ⟨⟨fun _ _ drifts between => between.drift drifts, fun _ between => ⟨k, bound, between.1⟩⟩,
    fun _ _ same between => between.same same⟩

/-- The next `n` bytes after the first `k`. -/
theorem Wrote.extend {n : Nat} (wrote : Wrote start buffer k base)
    (values : board.values = base.values ++ (List.range n).map fun i => buffer (k + i)) :
    Wrote start buffer (k + n) board := by
  obtain ⟨stale, leftOver, sofar⟩ := wrote
  refine ⟨stale, leftOver, ?_⟩
  have split : (List.range (k + n)).map buffer = (List.range k).map buffer ++
      (List.range n).map fun i => buffer (k + i) := by
    rw [List.range_add, List.map_append, List.map_map]
    rfl
  rw [values, sofar, split, List.append_assoc]

theorem Between.covers {n : Nat} (between : Between start buffer k base) (room : k + n ≤ length) :
    Covers (Exact start buffer length) base (fun i => buffer (k + i)) n := by
  intro m board bound values
  exact ⟨k + m, by omega, between.1.extend values⟩

theorem Between.ended {n : Nat} {result : Int × Nat} (between : Between start buffer k base)
    (ended : Ended base (fun i => buffer (k + i)) n result board) : Between start buffer (k + result.2) board :=
  ⟨between.1.extend ended.sent.values, .inl ended.sent.channel_eq⟩

/-- One transfer, from where the last one stopped. -/
theorem chunk_safe {sendEoi : Bool} {size : Nat} (between : Between start buffer k board)
    (room : k + size ≤ length) (fits : size ≤ dmaBufferSize) :
    Safe Act Drift (Permitted start buffer length sendEoi) (Exact start buffer length)
      (fun result after => Between start buffer (k + result.2) after ∧ result.2 ≤ size ∧ result.1 ≤ 0 ∧
        (result.1 = 0 → result.2 = size))
      (flukeDmaWrite (fun i => buffer (k + i)) size) board := by
  have lenient := permitted_lenient start buffer length sendEoi
  have inert : Inert (Exact start buffer length) (Between start buffer k) := Between.inert (by omega)
  refine (flukeDmaWrite_safe lenient inert.steady (fun base between => between.covers room) fits between).mono
    (fun _ here => here) ?_
  rintro result after ⟨base, between, ended⟩
  exact ⟨between.ended ended, ended.bound, ended.error, ended.complete⟩

/-- The variables of the loop after `k` bytes. -/
structure Tracks (buffer : Nat → UInt8) (length total k : Nat) (at_ : Progress) : Prop where
  buffer_eq : at_.buffer = fun i => buffer (k + i)
  dmaRemainder_eq : at_.dmaRemainder + k = total
  remainder_eq : at_.remainder + k = length
  bytesWritten_eq : at_.bytesWritten = k

theorem Tracks.advance {total n : Nat} {at_ : Progress} (tracks : Tracks buffer length total k at_)
    (bound : n ≤ at_.dmaRemainder) (within : total ≤ length) :
    Tracks buffer length total (k + n) (at_.advance n) := by
  obtain ⟨buffer_eq, dmaRemainder_eq, remainder_eq, bytesWritten_eq⟩ := tracks
  refine ⟨?_, ?_, ?_, ?_⟩
  · funext i
    simp only [Progress.advance, buffer_eq, Nat.add_assoc]
  · simp only [Progress.advance]
    omega
  · simp only [Progress.advance]
    omega
  · simp only [Progress.advance, Progress.count]
    omega

/-- What the loop leaves: a failure, or everything up to `total` written. -/
def Looped (start : Board) (buffer : Nat → UInt8) (length total : Nat) (result : Int × Progress)
    (board : Board) : Prop :=
  Between start buffer result.2.bytesWritten board ∧ result.2.bytesWritten ≤ length ∧
    (¬ result.1 < 0 → Tracks buffer length total total result.2)

theorem transferSize_bounds (dmaRemainder : Nat) :
    transferSize dmaRemainder ≤ dmaBufferSize ∧ transferSize dmaRemainder ≤ dmaRemainder ∧
      (0 < dmaRemainder → 0 < transferSize dmaRemainder) := by
  unfold transferSize dmaBufferSize
  split_ifs <;> omega

theorem Looped.finish {sendEoi : Bool} {total : Nat} {result : Int × Progress}
    (between : Between start buffer result.2.bytesWritten board) (bound : result.2.bytesWritten ≤ length)
    (done : ¬ result.1 < 0 → Tracks buffer length total total result.2) :
    Safe Act Drift (Permitted start buffer length sendEoi) (Exact start buffer length)
      (Looped start buffer length total) (pure result) board :=
  safe_done (Between.inert bound).steady (fun _ between => ⟨between, bound, done⟩) between

/-- The loop ends before its rounds do, since a chunk that does not fail is not empty. -/
theorem writeChunks_safe {sendEoi : Bool} {total rounds : Nat} {at_ : Progress}
    (tracks : Tracks buffer length total k at_) (within : total ≤ length) (enough : at_.dmaRemainder < rounds)
    (between : Between start buffer k board) :
    Safe Act Drift (Permitted start buffer length sendEoi) (Exact start buffer length)
      (Looped start buffer length total) (writeChunks rounds at_) board := by
  induction rounds generalizing k at_ board with
  | zero => omega
  | succ rounds ih =>
    have written := tracks.bytesWritten_eq
    have remains := tracks.dmaRemainder_eq
    unfold writeChunks
    by_cases more : at_.dmaRemainder > 0
    · obtain ⟨fits, room, positive⟩ := transferSize_bounds at_.dmaRemainder
      rw [if_pos more, tracks.buffer_eq]
      refine (chunk_safe between (by omega) fits).andThen ?_
      rintro ⟨retval, n⟩ board ⟨between, bound, error, complete⟩
      by_cases failed : retval < 0
      · simp only [if_pos failed]
        have counted : (at_.count n).bytesWritten = k + n := congrArg (· + n) written
        refine Looped.finish ?_ ?_ fun passed => absurd failed passed
        · rw [counted]
          exact between
        · rw [counted]
          omega
      · simp only [if_neg failed]
        have whole : n = transferSize at_.dmaRemainder := complete (by omega)
        have advanced := tracks.advance (n := n) (by omega) within
        refine ih advanced ?_ between
        simp only [Progress.advance]
        have := positive more
        omega
    · rw [if_neg more]
      have all : k = total := by omega
      subst all
      refine Looped.finish ?_ ?_ fun _ => tracks
      · rw [written]
        exact between
      · rw [written]
        exact within

/-- The last byte is what remains after everything else was written. -/
theorem writeLastByte_safe {at_ : Progress} {sendEoi : Bool} (eoi : sendEoi = true) (last : k + 1 = length)
    (tracks : Tracks buffer length k k at_) (between : Between start buffer k board) :
    Safe Act Drift (Permitted start buffer length sendEoi) (Exact start buffer length)
      (Reported start buffer length) (writeLastByte at_) board := by
  have inert : Inert (Exact start buffer length) (Between start buffer k) := Between.inert (by omega)
  have single : at_.remainder = 1 := by
    have remainder := tracks.remainder_eq
    omega
  unfold writeLastByte
  rw [if_neg (by omega), single, tracks.buffer_eq, tracks.bytesWritten_eq]
  refine safe_perform inert.steady (fun board between => ⟨eoi, k, last, between.1⟩)
    (fun before _ after between acts => ?_) between
  have armed := between.same (acts.sameBytes trivial)
  refine (chunk_safe armed (by omega) (by decide)).andThen ?_
  rintro ⟨retval, n⟩ board ⟨between, bound, error, complete⟩
  have done : Inert (Exact start buffer length) (Between start buffer (k + n)) := Between.inert (by omega)
  refine safe_done done.steady (fun board between => ⟨between.1, by omega, fun success => ?_⟩) between
  split_ifs at success with failed
  · omega
  · have whole : n = 1 := complete (by omega)
    omega

/-- At the start nothing is written. -/
theorem Between.initial (start : Board) (buffer : Nat → UInt8) : Between start buffer 0 start := by
  refine ⟨⟨[], fun _ => rfl, ?_⟩, ?_⟩
  · simp only [List.range_zero, List.map_nil, List.append_nil]
  · by_cases idle : start.channel = .idle
    · exact .inl idle
    · exact .inr ⟨rfl, idle⟩

theorem Between.report {sendEoi : Bool} {retval : Int} (between : Between start buffer k board)
    (bound : k ≤ length) (complete : retval = 0 → k = length) :
    Safe Act Drift (Permitted start buffer length sendEoi) (Exact start buffer length)
      (Reported start buffer length) (pure (retval, k)) board :=
  safe_done (Between.inert bound).steady (fun _ between => ⟨between.1, bound, complete⟩) between

theorem finishAccelWrite_safe {sendEoi : Bool} {retval : Int} {at_ : Progress} (positive : 0 < length)
    (looped : Looped start buffer length (dmaTotal length sendEoi) (retval, at_) board) :
    Safe Act Drift (Permitted start buffer length sendEoi) (Exact start buffer length)
      (Reported start buffer length) (finishAccelWrite sendEoi retval at_) board := by
  obtain ⟨between, bound, tracks⟩ := looped
  unfold finishAccelWrite
  by_cases failed : retval < 0
  · rw [if_pos failed]
    exact between.report bound fun zero => by omega
  rw [if_neg failed]
  have done := tracks failed
  have all := done.bytesWritten_eq
  simp only at between bound all
  rw [all] at between
  by_cases eoi : sendEoi = true
  · rw [if_pos eoi]
    have last : dmaTotal length sendEoi + 1 = length := by
      rw [dmaTotal, if_pos eoi]
      omega
    exact writeLastByte_safe eoi last done between
  · rw [if_neg eoi]
    have whole : dmaTotal length sendEoi = length := if_neg eoi
    rw [all]
    exact between.report whole.le fun _ => whole

end

theorem flukeAccelWrite_safe {start : Board} (wired : start.hasDmaChannel = true) (buffer : Nat → UInt8)
    (length : Nat) (sendEoi : Bool) (bytesWritten : Nat) :
    Safe Act Drift (Permitted start buffer length sendEoi) (Exact start buffer length)
      (Reported start buffer length) (flukeAccelWrite buffer length sendEoi bytesWritten) start := by
  have lenient := permitted_lenient start buffer length sendEoi
  have inert : Inert (Exact start buffer length) (Between start buffer 0) := Between.inert (Nat.zero_le length)
  have attached : Steady Drift (Exact start buffer length)
      (fun board => Between start buffer 0 board ∧ board.hasDmaChannel = true) := by
    refine ⟨?_, fun board holds => inert.steady.here board holds.1⟩
    rintro before after drifts ⟨between, wired⟩
    exact ⟨between.drift drifts, (drift_hasDmaChannel drifts).trans wired⟩
  refine safe_plain lenient attached trivial (fun before channel after holds acts => ?_)
    ⟨.initial start buffer, wired⟩
  cases acts
  obtain ⟨between, wired⟩ := holds
  rw [wired, if_neg (by decide)]
  by_cases empty : length < 1
  · rw [if_pos empty]
    exact between.report (Nat.zero_le length) fun _ => by omega
  rw [if_neg empty]
  refine safe_quiet lenient inert trivial trivial (fun _ board between => ?_) between
  have tracks : Tracks buffer length (dmaTotal length sendEoi) 0
      ⟨buffer, dmaTotal length sendEoi, length, 0⟩ := by
    refine ⟨?_, rfl, rfl, rfl⟩
    funext i
    rw [Nat.zero_add]
  have within : dmaTotal length sendEoi ≤ length := by
    unfold dmaTotal
    split_ifs <;> omega
  refine (writeChunks_safe tracks within (Nat.lt_succ_of_le within) between).andThen ?_
  rintro ⟨retval, at_⟩ board looped
  exact finishAccelWrite_safe (by omega) looped

/-- In every run of an accelerated write on a board with a DMA channel the chip
accepts the first bytes of the buffer, each once and in order, no operation is
performed where it may not be, and the bytes reported at the end are the bytes
accepted, all of them where 0 is returned. -/
theorem accelWrite_exact {start board : Board} (wired : start.hasDmaChannel = true) {buffer : Nat → UInt8}
    {length : Nat} {sendEoi : Bool} {bytesWritten : Nat} {p : Code (Int × Nat)}
    (run : ReflTransGen (Moves Act Drift) (flukeAccelWrite buffer length sendEoi bytesWritten, start) (p, board)) :
    Exact start buffer length board ∧
      (∀ op next, p = .call op next → Permitted start buffer length sendEoi op board) ∧
      ∀ result, p = .done result → Reported start buffer length result board := by
  have safe := (flukeAccelWrite_safe wired buffer length sendEoi bytesWritten).reaches run
  refine ⟨safe.here, ?_, ?_⟩
  · rintro op next rfl
    exact safe.permitted
  · rintro result rfl
    exact safe.finished

/-- A board that has just been attached. -/
def Board.attached : Board :=
  ⟨[], false, 0, fun _ => 0, .idle, true, fun _ => false, fun _ => 0, fun _ => 0, false⟩

theorem quiet_interrupt (flags : Flag → Bool) : Interrupted flags flags := ⟨fun _ _ set => set, fun _ _ => rfl⟩

/-- One byte without EOI, accepted while the write waits for it. -/
theorem attached_write_exact :
    ∃ board,
      ReflTransGen (Moves Act Drift) (flukeAccelWrite UInt8.ofNat 1 false 0, .attached) (.done (0, 1), board) ∧
      Reported .attached UInt8.ofNat 1 (0, 1) board := by
  have run : ∃ board,
      ReflTransGen (Moves Act Drift) (flukeAccelWrite UInt8.ofNat 1 false 0, .attached) (.done (0, 1), board) := by
    apply Exists.intro
    refine .head (.perform .dmaChannel) ?_
    refine .head (.perform .clearBit) ?_
    refine .head (.perform .terminateAll) ?_
    refine .head (.perform .clearWriteTransferCounter) ?_
    refine .head (.perform (.waited rfl)) ?_
    refine .head (.perform .testBit) ?_
    refine .head (.perform .testAndClearBit) ?_
    refine .head (.perform .memcpy) ?_
    refine .head (.perform .mapSingle) ?_
    refine .head (.perform (.slaveConfig (Int.le_refl 0))) ?_
    refine .head (.perform .prepared) ?_
    refine .head (.perform (.spinLockIrqsave rfl)) ?_
    refine .head (.perform .setRegBits) ?_
    refine .head (.perform .setRegBits) ?_
    refine .head (.perform .submit) ?_
    refine .head (.perform (.issuePending rfl)) ?_
    refine .head (.perform .clearBit) ?_
    refine .head (.perform .setBit) ?_
    refine .head (.perform .spinUnlockIrqrestore) ?_
    refine .head (.drift (.accept rfl)) ?_
    refine .head (.perform (.waited rfl)) ?_
    refine .head (.perform .testBit) ?_
    refine .head (.perform .testAndClearBit) ?_
    refine .head (.perform .testAndClearBit) ?_
    refine .head (.perform .setRegBits) ?_
    refine .head (.perform .terminateAll) ?_
    refine .head (.perform .testBit) ?_
    refine .head (.perform (.spinLockIrqsave rfl)) ?_
    refine .head (.perform .setRegBits) ?_
    refine .head (.perform .wakeUpInterruptible) ?_
    refine .head (.perform (.internalInterrupt (quiet_interrupt _))) ?_
    refine .head (.perform .clearBit) ?_
    refine .head (.perform .clearBit) ?_
    refine .head (.perform .spinUnlockIrqrestore) ?_
    refine .head (.perform .readWriteTransferCounter) ?_
    refine .head (.perform .unmapSingle) ?_
    exact .refl
  obtain ⟨board, run⟩ := run
  exact ⟨board, run, (accelWrite_exact rfl run).2.2 (0, 1) rfl⟩

end FlukeCda.Gpib
