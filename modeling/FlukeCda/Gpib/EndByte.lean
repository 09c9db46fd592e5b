import FlukeCda.Gpib.AccelWrite
import FlukeCda.Interaction.Session

/-! # END and its byte

AUX_SEOI arms END for the next byte before that byte's transfer is set up. Over
a sequence of writes END stays with the last byte of its own write exactly if
no write gives up in between.
-/

namespace FlukeCda.Gpib
open Interaction Program Relation

/-- What decides, with END armed and no transfer under way, that the transfer is
set up after all: the idle wait is not interrupted, no timeout or device clear is
seen after it, and the DMA channel takes the transfer. -/
def GoesOn : (op : Op) → Answer op → Prop
  | .waitEventInterruptible (.idle _ _), waited => waited = 0
  | .testBit .timo, seen | .testAndClearBit .devClear, seen => seen = false
  | .slaveConfig, retval => retval = 0
  | .prepSlaveSingle _, desc => desc ≠ none
  | _, _ => True

def goingOn (op : Op) (answer : Answer op) (board after : Board) : Prop :=
  Act op answer board after ∧ (board.seoi = true → board.channel = .idle → GoesOn op answer)

/-- No END is armed. -/
def Disarmed (board : Board) : Prop := board.seoi = false

/-- The only operation that arms END. -/
def Op.Arms : Op → Prop
  | .writeAuxmr .seoi => True
  | _ => False

theorem Act.seoi_cases {op : Op} {answer : Answer op} {board after : Board} (acts : Act op answer board after)
    (other : ¬ op.Arms) : after.seoi = board.seoi ∨ Disarmed after := by
  cases acts with
  | seoi => exact absurd trivial other
  | nbaf => exact .inr rfl
  | _ => exact .inl rfl

theorem Act.accepted_eq {op : Op} {answer : Answer op} {board after : Board} (acts : Act op answer board after) :
    after.accepted = board.accepted := by
  cases acts <;> rfl

/-- END goes with the byte that is accepted next, and with no other. -/
theorem Drift.accepted_cases {board after : Board} (drifts : Drift board after) :
    after.accepted = board.accepted ∧ after.seoi = board.seoi ∨
      (∃ value, after.accepted = board.accepted ++ [⟨value, board.seoi⟩]) ∧ Disarmed after := by
  cases drifts with
  | accept accepts =>
    obtain ⟨next, length, -, -, rfl⟩ := accept_cases accepts
    exact .inr ⟨⟨_, rfl⟩, rfl⟩
  | complete completes =>
    have seoi : after.seoi = board.seoi := by
      unfold Board.complete at completes
      split at completes
      · simp only [Option.ite_none_right_eq_some, Option.some.injEq] at completes
        rw [← completes.2]
        rfl
      · cases completes
    obtain ⟨length, -, accepted, -⟩ := complete_cases completes
    exact .inl ⟨accepted, seoi⟩
  | interrupt => exact .inl ⟨rfl, rfl⟩

theorem Disarmed.drift {board after : Board} (disarmed : Disarmed board) (drifts : Drift board after) :
    Disarmed after := by
  rcases drifts.accepted_cases with ⟨-, same⟩ | ⟨-, disarmed⟩
  · exact same.trans disarmed
  · exact disarmed

theorem idle_drift {board after : Board} (idle : board.channel = .idle) (drifts : Drift board after) :
    after.channel = .idle := by
  rcases drift_cases drifts with same | ⟨next, length, running, -⟩ | ⟨length, running, -⟩
  · exact same.channel.trans idle
  · rw [idle] at running
    cases running
  · rw [idle] at running
    cases running

theorem idle_steady : Steady Drift (fun _ => True) fun board => board.channel = .idle :=
  ⟨fun _ _ drifts idle => idle_drift idle drifts, fun _ _ => trivial⟩

/-- No transfer is under way, and an error has not left END armed. -/
structure Poised (retval : Int) (board : Board) : Prop where
  idle : board.channel = .idle
  failed : retval ≠ 0 → Disarmed board

/-- Safe as long as the transfer of an armed byte is set up. -/
abbrev GoingOn {α : Type} (Q : α → Board → Prop) : Code α → Board → Prop :=
  Safe goingOn Drift anything (fun _ => True) Q

/-- The operations that neither start a transfer nor arm END. -/
def Op.Calm : Op → Prop
  | .submit _ | .issuePending | .writeAuxmr .seoi => False
  | _ => True

theorem Op.Calm.arms_not {op : Op} (calm : op.Calm) : ¬ op.Arms := by
  intro arms
  unfold Op.Arms at arms
  split at arms
  · exact calm
  · exact arms

theorem Act.idle {op : Op} {answer : Answer op} {board after : Board} (acts : Act op answer board after)
    (calm : op.Calm) (idle : board.channel = .idle) : after.channel = .idle := by
  cases acts with
  | submit | issuePending => exact calm.elim
  | terminateAll => rfl
  | _ => exact idle

theorem Poised.steady (retval : Int) : Steady Drift (fun _ => True) (Poised retval) := by
  refine ⟨fun board after drifts poised => ?_, fun _ _ => trivial⟩
  exact ⟨idle_drift poised.idle drifts, fun failed => (poised.failed failed).drift drifts⟩

section
variable {α : Type} {Q : α → Board → Prop} {board : Board} {retval retval' : Int}

/-- With END still armed nothing has failed so far. -/
theorem Poised.next (poised : Poised retval board) (goes : board.seoi = true → retval = 0 → retval' = 0) :
    Poised retval' board := by
  refine ⟨poised.idle, fun failed => ?_⟩
  cases armed : board.seoi with
  | false => exact armed
  | true =>
    have earlier : retval ≠ 0 := fun zero => failed (goes armed zero)
    have disarmed : board.seoi = false := poised.failed earlier
    rw [armed] at disarmed
    cases disarmed

theorem Poised.act {op : Op} {answer : Answer op} {after : Board} (poised : Poised retval board) (calm : op.Calm)
    (acts : Act op answer board after) : Poised retval after := by
  refine ⟨acts.idle calm poised.idle, fun failed => ?_⟩
  rcases acts.seoi_cases calm.arms_not with same | disarmed
  · exact same.trans (poised.failed failed)
  · exact disarmed

/-- An operation before the submission, with what its answer must be if END is armed. -/
theorem poised_perform {op : Op} {f : Answer op → Code α} (calm : op.Calm)
    (rest : ∀ answer board, Poised retval board → (board.seoi = true → GoesOn op answer) → GoingOn Q (f answer) board)
    (poised : Poised retval board) : GoingOn Q (perform op >>= f) board := by
  refine safe_perform (Poised.steady retval) (fun _ _ => trivial) (fun before answer after poised acts => ?_) poised
  obtain ⟨acts, goes⟩ := acts
  refine rest answer after (poised.act calm acts) fun armed => goes ?_ poised.idle
  rcases acts.seoi_cases calm.arms_not with same | disarmed
  · rwa [← same]
  · rw [disarmed] at armed
    cases armed

theorem poised_done {value : α} (post : ∀ board, Poised retval board → Q value board) (poised : Poised retval board) :
    GoingOn Q (pure value) board := safe_done (Poised.steady retval) post poised

theorem poised_bug (poised : Poised retval board) : GoingOn Q (bug : Code α) board :=
  safe_never Empty.elim (Poised.steady retval) (fun _ _ => trivial) poised

theorem overrideIf_poised {test : Code Bool} {error : Int}
    (tests : test = testBit .timo ∨ test = testAndClearBit .devClear) (poised : Poised retval board) :
    GoingOn Poised (overrideIf test error retval) board := by
  have finish : ∀ (seen : Bool) board, Poised retval board → (board.seoi = true → seen = false) →
      GoingOn Poised (pure (if seen = true then error else retval)) board := by
    intro seen board poised unseen
    refine poised_done (fun _ poised => poised) (poised.next fun armed zero => ?_)
    rw [unseen armed, zero]
    rfl
  rcases tests with rfl | rfl
  · exact poised_perform trivial finish poised
  · exact poised_perform trivial finish poised

theorem waitForIdle_poised {listener talker : Bool} (poised : Poised 0 board) :
    GoingOn Poised (waitForIdle listener talker) board := by
  refine poised_perform trivial (fun waited board poised goes => ?_) poised
  have waiting : Poised (if waited ≠ 0 then -ERESTARTSYS else 0) board := by
    refine poised.next fun armed _ => ?_
    rw [show waited = 0 from goes armed]
    rfl
  refine (overrideIf_poised (.inl rfl) waiting).andThen fun retval board poised => ?_
  exact overrideIf_poised (.inr rfl) poised

theorem abandonDmaWrite_poised {length : Nat} (poised : Poised retval board) :
    GoingOn (fun result => Poised result.1) (abandonDmaWrite length retval) board :=
  poised_perform trivial (fun _ _ poised _ => poised_done (fun _ poised => poised) poised) poised

theorem countDmaWrite_poised {length : Nat} (poised : Poised retval board) :
    GoingOn (fun result => Poised result.1) (countDmaWrite length retval) board := by
  refine poised_perform trivial (fun counter board poised _ => ?_) poised
  by_cases more : counter &&& writeTransferCounterMask > length
  · simp only [if_pos more]
    exact poised_bug poised
  · simp only [if_neg more]
    exact poised_perform trivial (fun _ _ poised _ => poised_done (fun _ poised => poised) poised) poised

/-- Without a transfer under way. -/
theorem idle_perform {op : Op} {f : Answer op → Code α} (step : ∀ before answer after, before.channel = .idle →
      goingOn op answer before after → GoingOn Q (f answer) after) (idle : board.channel = .idle) :
    GoingOn Q (perform op >>= f) board :=
  safe_perform idle_steady (fun _ _ => trivial) step idle

theorem idle_only {p : Code α} (only : OnlyPerforms Op.Calm p) (idle : board.channel = .idle) :
    GoingOn (fun _ board => board.channel = .idle) p board :=
  safe_only idle_steady (fun _ _ _ _ => trivial) (fun _ _ _ _ calm idle acts => acts.1.idle calm idle) only idle

theorem calm_callback : OnlyPerforms Op.Calm flukeDmaCallback :=
  onlyPerforms_step trivial fun _ => onlyPerforms_step trivial fun _ => onlyPerforms_step trivial fun _ =>
    onlyPerforms_step trivial fun _ => onlyPerforms_step trivial fun _ => onlyPerforms_step trivial fun _ =>
      ⟨trivial, fun _ => trivial⟩

/-- However far the transfer has come, it is stopped. -/
theorem stopDmaWrite_idle (board : Board) : GoingOn (fun _ board => board.channel = .idle) stopDmaWrite board := by
  have masks : GoingOn (fun _ _ => True) (setRegBits .imr2 HR_DMAO 0) board := safe_anyhow _ board
  refine masks.andThen fun _ board _ => ?_
  have anywhere : Steady Drift (fun _ => True) fun _ => True := ⟨fun _ _ _ _ => trivial, fun _ _ => trivial⟩
  refine safe_perform anywhere (fun _ _ => trivial) (fun before _ after _ acts => ?_) trivial
  obtain ⟨acts, -⟩ := acts
  cases acts
  refine idle_only (onlyPerforms_step trivial fun inProgress => ?_) rfl
  unfold onlyIf
  split_ifs
  · exact calm_callback
  · trivial

/-- A transfer that fails takes END back. -/
theorem transferDma_poised {length : Nat} {desc : Desc} (board : Board) :
    GoingOn (fun result => Poised result.1) (transferDma length desc) board := by
  have starts : GoingOn (fun _ _ => True) (startDmaWrite desc) board := safe_anyhow _ board
  refine starts.andThen fun _ board _ => ?_
  have waits : GoingOn (fun _ _ => True) (waitWritten length) board := safe_anyhow _ board
  refine waits.andThen fun retval board _ => ?_
  refine (stopDmaWrite_idle board).andThen fun _ board idle => ?_
  unfold onlyIf
  by_cases failed : retval ≠ 0
  · rw [if_pos failed]
    refine idle_perform (fun before _ after idle acts => ?_) idle
    obtain ⟨acts, -⟩ := acts
    cases acts
    exact countDmaWrite_poised ⟨idle, fun _ => rfl⟩
  · rw [if_neg failed]
    exact countDmaWrite_poised ⟨idle, fun other => absurd other failed⟩

theorem programDma_poised {length : Nat} (poised : Poised 0 board) :
    GoingOn (fun result => Poised result.1) (programDma length) board := by
  refine poised_perform trivial (fun _ board poised _ => ?_) poised
  refine poised_perform trivial (fun retval board poised goes => ?_) poised
  have configured : Poised retval board := poised.next fun armed _ => goes armed
  by_cases failed : retval ≠ 0
  · rw [if_pos failed]
    exact abandonDmaWrite_poised configured
  · rw [if_neg failed]
    refine poised_perform trivial (fun desc board poised goes => ?_) poised
    cases desc with
    | none => exact abandonDmaWrite_poised (poised.next fun armed _ => absurd rfl (goes armed))
    | some desc => exact transferDma_poised board

theorem flukeDmaWrite_poised {buffer : Nat → UInt8} {length : Nat} (idle : board.channel = .idle) :
    GoingOn (fun result => Poised result.1) (flukeDmaWrite buffer length) board := by
  have poised : Poised 0 board := ⟨idle, fun other => absurd rfl other⟩
  unfold flukeDmaWrite
  by_cases large : length > dmaBufferSize
  · rw [if_pos large]
    exact poised_bug poised
  rw [if_neg large]
  refine poised_perform trivial (fun _ board poised _ => ?_) poised
  refine poised_perform trivial (fun _ board poised _ => ?_) poised
  refine (waitForIdle_poised poised).andThen fun retval board poised => ?_
  by_cases failed : retval < 0
  · simp only [if_pos failed]
    exact poised_done (fun _ poised => poised) poised
  · simp only [if_neg failed]
    have waited : Poised 0 board := ⟨poised.idle, fun other => absurd rfl other⟩
    exact poised_perform trivial (fun _ board poised _ => programDma_poised poised) waited

theorem writeChunks_poised {rounds : Nat} {at_ : Progress} (idle : board.channel = .idle) :
    GoingOn (fun result => Poised result.1) (writeChunks rounds at_) board := by
  have poised : ∀ {board : Board}, board.channel = .idle → Poised 0 board :=
    fun idle => ⟨idle, fun other => absurd rfl other⟩
  induction rounds generalizing at_ board with
  | zero => exact safe_never Empty.elim (Poised.steady 0) (fun _ _ => trivial) (poised idle)
  | succ rounds ih =>
    unfold writeChunks
    by_cases more : at_.dmaRemainder > 0
    · rw [if_pos more]
      refine (flukeDmaWrite_poised idle).andThen fun result board sent => ?_
      by_cases failed : result.1 < 0
      · simp only [if_pos failed]
        exact poised_done (fun _ poised => poised) sent
      · simp only [if_neg failed]
        exact ih sent.idle
    · rw [if_neg more]
      exact poised_done (fun _ poised => poised) (poised idle)

theorem finishAccelWrite_poised {sendEoi : Bool} {at_ : Progress} (poised : Poised retval board) :
    GoingOn (fun result => Poised result.1) (finishAccelWrite sendEoi retval at_) board := by
  unfold finishAccelWrite
  by_cases failed : retval < 0
  · rw [if_pos failed]
    exact poised_done (fun _ poised => poised) poised
  rw [if_neg failed]
  have fine : Poised 0 board := ⟨poised.idle, fun other => absurd rfl other⟩
  by_cases eoi : sendEoi = true
  · rw [if_pos eoi]
    unfold writeLastByte
    by_cases other : at_.remainder ≠ 1
    · rw [if_pos other]
      exact poised_bug fine
    rw [if_neg other]
    refine idle_perform (fun before _ after idle acts => ?_) poised.idle
    obtain ⟨acts, -⟩ := acts
    cases acts
    have armed : ({ before with seoi := true } : Board).channel = .idle := idle
    refine (flukeDmaWrite_poised armed).andThen fun result board sent => ?_
    refine poised_done (fun _ poised => poised) (sent.next fun _ zero => ?_)
    rw [zero]
    rfl
  · rw [if_neg eoi]
    exact poised_done (fun _ poised => poised) fine

/-- A write that starts with nothing armed or under way comes back so, or with success. -/
theorem flukeAccelWrite_poised {buffer : Nat → UInt8} {length bytesWritten : Nat} {sendEoi : Bool}
    (idle : board.channel = .idle) (disarmed : Disarmed board) :
    GoingOn (fun result => Poised result.1) (flukeAccelWrite buffer length sendEoi bytesWritten) board := by
  have ready : Poised (- ENXIO) board := ⟨idle, fun _ => disarmed⟩
  refine poised_perform trivial (fun channel board ready _ => ?_) ready
  have fine : Poised 0 board := ⟨ready.idle, fun other => absurd rfl other⟩
  by_cases missing : channel = false
  · rw [if_pos missing]
    exact poised_done (fun _ poised => poised) ready
  rw [if_neg missing]
  by_cases empty : length < 1
  · rw [if_pos empty]
    exact poised_done (fun _ poised => poised) fine
  rw [if_neg empty]
  refine poised_perform trivial (fun _ board poised _ => ?_) fine
  exact (writeChunks_poised poised.idle).andThen fun result board poised => finishAccelWrite_poised poised

end

/-- The arguments of a call of `fluke_accel_write`. -/
structure WriteCall where
  buffer : Nat → UInt8
  length : Nat
  sendEoi : Bool
  bytesWritten : Nat

/-- What the chip has accepted during a call: a first part of its buffer, and END
only with the last byte of a buffer to be sent with EOI. -/
structure Framed (made : WriteCall) (since : List Accepted) : Prop where
  values : since.map Accepted.value = (List.range since.length).map made.buffer
  bound : since.length ≤ made.length
  eoi : ∀ i byte, since[i]? = some byte → byte.eoi = true → made.sendEoi = true ∧ i + 1 = made.length

/-- Within a call: END goes, or will go, with the last byte only. -/
structure Coupling (start : Board) (made : WriteCall) (since : List Accepted) (board : Board) : Prop where
  accepted : board.accepted = start.accepted ++ since
  eoi : ∀ i byte, since[i]? = some byte → byte.eoi = true → made.sendEoi = true ∧ i + 1 = made.length
  armed : board.seoi = true → made.sendEoi = true ∧ since.length + 1 = made.length

def Coupled (start : Board) (made : WriteCall) (board : Board) : Prop := ∃ since, Coupling start made since board

section
variable {start board after : Board} {made : WriteCall}

theorem Coupled.drift (coupled : Coupled start made board) (drifts : Drift board after) : Coupled start made after := by
  obtain ⟨since, accepted, eoi, armed⟩ := coupled
  rcases drifts.accepted_cases with ⟨same, seoi⟩ | ⟨⟨value, more⟩, disarmed⟩
  · refine ⟨since, same.trans accepted, eoi, ?_⟩
    rwa [seoi]
  · refine ⟨since ++ [⟨value, board.seoi⟩], ?_, fun i byte found ended => ?_, fun again => ?_⟩
    · rw [more, accepted, List.append_assoc]
    · rcases Nat.lt_trichotomy i since.length with earlier | last | later
      · rw [List.getElem?_append_left earlier] at found
        exact eoi i byte found ended
      · subst last
        rw [List.getElem?_concat_length] at found
        cases found
        exact armed ended
      · rw [List.getElem?_eq_none (by rw [List.length_append, List.length_singleton]; omega)] at found
        cases found
    · rw [disarmed] at again
      cases again

/-- On a board without a transfer the bytes accepted since are counted by the part written. -/
theorem Wrote.count {n : Nat} {since : List Accepted} (idle : start.channel = .idle)
    (wrote : Wrote start made.buffer n board) (accepted : board.accepted = start.accepted ++ since) :
    since.length = n ∧ since.map Accepted.value = (List.range n).map made.buffer := by
  obtain ⟨stale, leftOver, values⟩ := wrote
  rw [leftOver idle, List.append_nil, Board.values, accepted, List.map_append] at values
  have own := List.append_cancel_left values
  refine ⟨?_, own⟩
  have lengths := congrArg List.length own
  rwa [List.length_map, List.length_map, List.length_range] at lengths

theorem Coupled.act {op : Op} {answer : Answer op} (idle : start.channel = .idle) (coupled : Coupled start made board)
    (permitted : Permitted start made.buffer made.length made.sendEoi op board) (acts : Act op answer board after) :
    Coupled start made after := by
  obtain ⟨since, accepted, eoi, armed⟩ := coupled
  refine ⟨since, acts.accepted_eq.trans accepted, eoi, fun again => ?_⟩
  by_cases arms : op.Arms
  · unfold Op.Arms at arms
    split at arms
    · obtain ⟨sendEoi, n, last, wrote⟩ := permitted
      exact ⟨sendEoi, by rw [(wrote.count idle accepted).1, last]⟩
    · exact arms.elim
  · rcases acts.seoi_cases arms with same | disarmed
    · exact armed (same ▸ again)
    · rw [disarmed] at again
      cases again

/-- Everything that was accepted since was the call's own. -/
theorem Coupled.framed (idle : start.channel = .idle) (coupled : Coupled start made board)
    (exact_ : Exact start made.buffer made.length board) :
    ∃ since, board.accepted = start.accepted ++ since ∧ Framed made since := by
  obtain ⟨since, accepted, eoi, -⟩ := coupled
  obtain ⟨n, bound, wrote⟩ := exact_
  obtain ⟨count, values⟩ := wrote.count idle accepted
  refine ⟨since, accepted, ?_, ?_, eoi⟩
  · rwa [count]
  · rwa [count]

/-- After a success the last byte has taken its END with it. -/
theorem Coupled.disarmed {result : Int × Nat} (idle : start.channel = .idle) (coupled : Coupled start made board)
    (poised : Poised result.1 board) (success : result.1 = 0 → Wrote start made.buffer made.length board) :
    Disarmed board := by
  obtain ⟨since, accepted, -, armed⟩ := coupled
  cases again : board.seoi with
  | false => exact again
  | true =>
    by_cases zero : result.1 = 0
    · have all := ((success zero).count idle accepted).1
      have missing := (armed again).2
      omega
    · exact absurd (poised.failed zero) (by rw [Disarmed, again]; decide)

/-- A return of 0 reports all the bytes, on a board with a DMA channel or without. -/
theorem flukeAccelWrite_success (start : Board) (made : WriteCall) :
    Safe Act Drift (Permitted start made.buffer made.length made.sendEoi) (Exact start made.buffer made.length)
      (fun result board => result.1 = 0 → Wrote start made.buffer made.length board)
      (flukeAccelWrite made.buffer made.length made.sendEoi made.bytesWritten) start := by
  cases wired : start.hasDmaChannel with
  | true =>
    refine (flukeAccelWrite_safe wired made.buffer made.length made.sendEoi made.bytesWritten).mono
      (fun _ here => here) fun result board reported success => ?_
    obtain ⟨wrote, -, complete⟩ := reported
    rwa [complete success] at wrote
  | false =>
    have inert : Inert (Exact start made.buffer made.length) (Between start made.buffer 0) :=
      Between.inert (Nat.zero_le made.length)
    have unattached : Steady Drift (Exact start made.buffer made.length)
        (fun board => Between start made.buffer 0 board ∧ board.hasDmaChannel = false) := by
      refine ⟨?_, fun board holds => inert.steady.here board holds.1⟩
      rintro before after drifts ⟨between, unwired⟩
      exact ⟨between.drift drifts, (drift_hasDmaChannel drifts).trans unwired⟩
    refine safe_perform unattached (fun _ _ => trivial) (fun before channel after holds acts => ?_)
      ⟨.initial start made.buffer, wired⟩
    cases acts
    rw [if_pos holds.2]
    have error : (- ENXIO : Int) ≠ 0 := by decide
    exact safe_done unattached (fun _ _ success => absurd success error) holds

/-- A write that starts with nothing armed and no transfer under way ends so. -/
theorem flukeAccelWrite_couples (idle : start.channel = .idle) (disarmed : Disarmed start) (made : WriteCall) :
    Safe goingOn Drift anything (fun board => Exact start made.buffer made.length board ∧ Coupled start made board)
      (fun _ board => Disarmed board ∧ board.channel = .idle)
      (flukeAccelWrite made.buffer made.length made.sendEoi made.bytesWritten) start := by
  have successes := (flukeAccelWrite_success start made).restrict fun _ _ _ _ (acts : goingOn _ _ _ _) => acts.1
  have nothing : Coupled start made start := by
    refine ⟨[], (List.append_nil _).symm, fun i byte found => ?_, fun armed => ?_⟩
    · cases found
    · rw [disarmed] at armed
      cases armed
  have couples := (successes.both (flukeAccelWrite_poised idle disarmed)).and
    (fun _ _ _ coupled drifts => coupled.drift drifts)
    (fun _ _ _ _ _ permitted coupled acts => coupled.act idle permitted acts.1) nothing
  refine (couples.loosen fun _ _ _ => trivial).mono (fun _ here => ⟨here.1.1, here.2⟩) ?_
  rintro result board ⟨⟨success, poised⟩, coupled⟩
  exact ⟨coupled.disarmed idle poised success, poised.idle⟩

end

/-- The board over a sequence of writes: `base` is the board on which the last
call began, or to which it returned, and `history` has the bytes accepted during
each call before. -/
structure Line where
  board : Board
  base : Board
  made : WriteCall
  history : List (WriteCall × List Accepted)

def Line.since (line : Line) : List Accepted := line.board.accepted.drop line.base.accepted.length

/-- Writes one after another; before a call anybody may set and clear flags. -/
def writeService (act : (op : Op) → Answer op → Board → Board → Prop) :
    Service WriteCall Op Answer (Int × Nat) Line where
  code := fun made => flukeAccelWrite made.buffer made.length made.sendEoi made.bytesWritten
  begins := fun made line after =>
    ∃ flags, after = { line with board := { line.board with flags }, base := { line.board with flags }, made }
  ends := fun made _ line after =>
    after = { line with base := line.board, history := line.history ++ [(made, line.since)] }
  act := fun _ op answer line after => ∃ board, act op answer line.board board ∧ after = { line with board }
  drift := fun line after => ∃ board, Drift line.board board ∧ after = { line with board }

/-- Every byte on the line belongs to one call, and END to the last byte of one made with EOI. -/
structure Line.Ok (line : Line) : Prop where
  accepted : line.board.accepted = (line.history.map Prod.snd).flatten ++ line.since
  current : Framed line.made line.since
  history : ∀ segment ∈ line.history, Framed segment.1 segment.2

def Line.opened (board : Board) : Line := ⟨board, board, ⟨fun _ => 0, 0, false, 0⟩, []⟩

/-- Between two calls. -/
structure Line.Resting (line : Line) : Prop where
  ok : line.Ok
  idle : line.board.channel = .idle
  disarmed : Disarmed line.board
  returned : line.base.accepted = line.board.accepted

theorem Framed.nil (made : WriteCall) : Framed made [] := by
  refine ⟨rfl, Nat.zero_le _, fun i byte found => ?_⟩
  cases found

theorem Line.since_of_append {line : Line} {since : List Accepted}
    (accepted : line.board.accepted = line.base.accepted ++ since) : line.since = since := by
  rw [Line.since, accepted, List.drop_left]

/-- A call begins with nothing accepted. -/
theorem Line.Resting.whole {line : Line} (resting : line.Resting) :
    line.board.accepted = (line.history.map Prod.snd).flatten := by
  have none : line.since = [] := Line.since_of_append (by rw [resting.returned, List.append_nil])
  have accepted := resting.ok.accepted
  rwa [none, List.append_nil] at accepted

theorem Line.ok_of_framed {line : Line} {since : List Accepted}
    (whole : line.base.accepted = (line.history.map Prod.snd).flatten)
    (accepted : line.board.accepted = line.base.accepted ++ since) (framed : Framed line.made since)
    (history : ∀ segment ∈ line.history, Framed segment.1 segment.2) : line.Ok := by
  have same := Line.since_of_append accepted
  refine ⟨?_, ?_, history⟩
  · rw [accepted, whole, same]
  · rwa [same]

/-- What a call has sent goes to the history when it returns. -/
theorem Line.Ok.returns {line : Line} (ok : line.Ok) (idle : line.board.channel = .idle)
    (disarmed : Disarmed line.board) :
    Line.Resting { line with base := line.board, history := line.history ++ [(line.made, line.since)] } := by
  refine ⟨?_, idle, disarmed, rfl⟩
  refine Line.ok_of_framed ?_ (List.append_nil _).symm (.nil line.made) fun segment member => ?_
  · rw [List.map_append, List.flatten_append]
    simpa using ok.accepted
  · rcases List.mem_append.mp member with old | new
    · exact ok.history segment old
    · rw [List.mem_singleton.mp new]
      exact ok.current

theorem Line.Resting.steady : Steady (writeService goingOn).drift Line.Ok Line.Resting := by
  refine ⟨?_, fun _ resting => resting.ok⟩
  rintro line after ⟨board, drifts, rfl⟩ resting
  have accepted : board.accepted = line.board.accepted := by
    rcases drifts.accepted_cases with ⟨same, -⟩ | ⟨⟨value, more⟩, -⟩
    · exact same
    · rcases drift_cases drifts with same | ⟨next, length, running, -⟩ | ⟨length, running, -⟩
      · exact same.accepted
      · rw [resting.idle] at running
        cases running
      · rw [resting.idle] at running
        cases running
  have since : board.accepted = line.base.accepted ++ [] := by
    rw [accepted, List.append_nil, resting.returned]
  have whole : line.base.accepted = (line.history.map Prod.snd).flatten := resting.returned.trans resting.whole
  exact ⟨Line.ok_of_framed whole since (.nil _) resting.ok.history, idle_drift resting.idle drifts,
    resting.disarmed.drift drifts, resting.returned.trans accepted.symm⟩

theorem writeService_sound : (writeService goingOn).Sound (fun _ => anything) Line.Ok Line.Resting := by
  refine ⟨Line.Resting.steady, ?_⟩
  rintro made line _ resting ⟨flags, rfl⟩
  let start : Board := { line.board with flags }
  have idle : start.channel = .idle := resting.idle
  have disarmed : Disarmed start := resting.disarmed
  let static (now : Line) : Prop := now.base = start ∧ now.made = made ∧ now.history = line.history
  have couples := flukeAccelWrite_couples idle disarmed made
  let begun : Line := { line with board := start, base := start, made }
  have initially : static begun := ⟨rfl, rfl, rfl⟩
  have kept : ∀ (now : Line) board, static now → static { now with board } := fun _ _ same => same
  have safe := Safe.part Line.board (fun now board => { now with board }) (fun _ _ => rfl) kept couples initially
  have ok : ∀ now : Line, (Exact start made.buffer made.length now.board ∧ Coupled start made now.board) ∧
      static now → now.Ok := by
    rintro now ⟨⟨sent, coupled⟩, base, made_eq, history⟩
    obtain ⟨since, accepted, framed⟩ := coupled.framed idle sent
    refine Line.ok_of_framed ?_ ?_ (made_eq ▸ framed) ?_
    · rw [base, history]
      exact resting.whole
    · rw [base]
      exact accepted
    · rw [history]
      exact resting.ok.history
  refine safe.and_here.mono (fun now here => ok now here) ?_
  rintro result now ⟨⟨⟨disarmed, idle⟩, static⟩, here⟩ after rfl
  obtain ⟨-, made_eq, -⟩ := static
  subst made_eq
  exact (ok now here).returns idle disarmed

/-- A call has returned, or is about to. -/
def Returning (session : Session WriteCall Op Answer (Int × Nat) Line) : Prop :=
  session.running = none ∨ ∃ made result, session.running = some (made, .done result)

/-- Over every sequence of writes, whatever fails and whenever, none of which
gives up between AUX_SEOI and the submission of its transfer: END is accepted
with the last byte of a write with EOI only, and is not armed when a write returns. -/
theorem end_coupled {start : Board} (empty : start.accepted = []) (idle : start.channel = .idle)
    (disarmed : start.seoi = false) {later : Session WriteCall Op Answer (Int × Nat) Line}
    (run : ReflTransGen (writeService goingOn).Step ⟨.opened start, none⟩ later) :
    later.state.Ok ∧ (Returning later → later.state.board.seoi = false) := by
  have opened : (Line.opened start).Resting := by
    refine ⟨Line.ok_of_framed empty (List.append_nil _).symm (.nil _) fun segment member => ?_, idle, disarmed, rfl⟩
    cases member
  have first : Session.Ok (writeService goingOn) (fun _ => anything) Line.Ok Line.Resting ⟨.opened start, none⟩ :=
    opened
  have ok := first.run writeService_sound run
  refine ⟨ok.here writeService_sound, fun returning => ?_⟩
  obtain ⟨line, running⟩ := later
  rcases returning with none | ⟨made, result, ended⟩
  · subst none
    exact Line.Resting.disarmed ok
  · subst ended
    have stopped : Safe ((writeService goingOn).act made) (writeService goingOn).drift anything Line.Ok
      (fun value now => ∀ after, (writeService goingOn).ends made value now after → after.Resting) (.done result)
      line := ok
    exact (stopped.finished _ rfl).disarmed

/-- A single byte with END. -/
def endByte : WriteCall := ⟨UInt8.ofNat, 1, true, 0⟩

/-- END is armed, its byte is accepted with it, and the call returns. -/
theorem end_coupled_accepted :
    ∃ armed later : Session WriteCall Op Answer (Int × Nat) Line,
      ReflTransGen (writeService goingOn).Step ⟨.opened .attached, none⟩ armed ∧ armed.state.board.seoi = true ∧
        armed.state.Ok ∧ ReflTransGen (writeService goingOn).Step armed later ∧ later.running = none ∧
        later.state.board.accepted = [⟨0, true⟩] ∧ later.state.Ok ∧ later.state.board.seoi = false := by
  have begins : (writeService goingOn).begins endByte (.opened .attached)
      ⟨.attached, .attached, endByte, []⟩ := ⟨fun _ => false, rfl⟩
  have runs : ∃ armed : Session WriteCall Op Answer (Int × Nat) Line,
      ReflTransGen (writeService goingOn).Step ⟨.opened .attached, none⟩ armed ∧ armed.state.board.seoi = true ∧
      ∃ later, ReflTransGen (writeService goingOn).Step armed later ∧ later.running = none ∧
        later.state.board.accepted = [⟨0, true⟩] := by
    refine ⟨?armed, ?arms, ?seoi, ?later, ?accepts, ?returned, ?accepted⟩
    case arms =>
      refine .head (.begin begins) ?_
      refine .head (.perform ⟨_, ⟨.dmaChannel, fun _ _ => trivial⟩, rfl⟩) ?_
      refine .head (.perform ⟨_, ⟨.clearBit, fun _ _ => trivial⟩, rfl⟩) ?_
      refine .head (.perform ⟨_, ⟨.seoi, fun _ _ => trivial⟩, rfl⟩) ?_
      exact .refl
    case seoi => rfl
    case accepts =>
      refine .head (.perform ⟨_, ⟨.terminateAll, fun _ _ => trivial⟩, rfl⟩) ?_
      refine .head (.perform ⟨_, ⟨.clearWriteTransferCounter, fun _ _ => trivial⟩, rfl⟩) ?_
      refine .head (.perform ⟨_, ⟨.waited rfl, fun _ _ => rfl⟩, rfl⟩) ?_
      refine .head (.perform ⟨_, ⟨.testBit, fun _ _ => rfl⟩, rfl⟩) ?_
      refine .head (.perform ⟨_, ⟨.testAndClearBit, fun _ _ => rfl⟩, rfl⟩) ?_
      refine .head (.perform ⟨_, ⟨.memcpy, fun _ _ => trivial⟩, rfl⟩) ?_
      refine .head (.perform ⟨_, ⟨.mapSingle, fun _ _ => trivial⟩, rfl⟩) ?_
      refine .head (.perform ⟨_, ⟨.slaveConfig (Int.le_refl 0), fun _ _ => rfl⟩, rfl⟩) ?_
      refine .head (.perform ⟨_, ⟨.prepared, fun _ _ => Option.some_ne_none _⟩, rfl⟩) ?_
      refine .head (.perform ⟨_, ⟨.spinLockIrqsave rfl, fun _ _ => trivial⟩, rfl⟩) ?_
      refine .head (.perform ⟨_, ⟨.setRegBits, fun _ _ => trivial⟩, rfl⟩) ?_
      refine .head (.perform ⟨_, ⟨.setRegBits, fun _ _ => trivial⟩, rfl⟩) ?_
      refine .head (.perform ⟨_, ⟨.submit, fun _ _ => trivial⟩, rfl⟩) ?_
      refine .head (.perform ⟨_, ⟨.issuePending rfl, fun _ _ => trivial⟩, rfl⟩) ?_
      refine .head (.perform ⟨_, ⟨.clearBit, fun _ _ => trivial⟩, rfl⟩) ?_
      refine .head (.perform ⟨_, ⟨.setBit, fun _ _ => trivial⟩, rfl⟩) ?_
      refine .head (.perform ⟨_, ⟨.spinUnlockIrqrestore, fun _ _ => trivial⟩, rfl⟩) ?_
      -- the chip accepts the byte, and the engine calls back
      refine .head (.drift ⟨_, .accept rfl, rfl⟩) ?_
      refine .head (.drift ⟨_, .complete rfl, rfl⟩) ?_
      refine .head (.perform ⟨_, ⟨.waited rfl, fun _ _ => trivial⟩, rfl⟩) ?_
      refine .head (.perform ⟨_, ⟨.testBit, fun _ _ => rfl⟩, rfl⟩) ?_
      refine .head (.perform ⟨_, ⟨.testAndClearBit, fun _ _ => rfl⟩, rfl⟩) ?_
      refine .head (.perform ⟨_, ⟨.testAndClearBit, fun _ _ => trivial⟩, rfl⟩) ?_
      refine .head (.perform ⟨_, ⟨.setRegBits, fun _ _ => trivial⟩, rfl⟩) ?_
      refine .head (.perform ⟨_, ⟨.terminateAll, fun _ _ => trivial⟩, rfl⟩) ?_
      refine .head (.perform ⟨_, ⟨.testBit, fun _ _ => trivial⟩, rfl⟩) ?_
      refine .head (.perform ⟨_, ⟨.readWriteTransferCounter, fun _ _ => trivial⟩, rfl⟩) ?_
      refine .head (.perform ⟨_, ⟨.unmapSingle, fun _ _ => trivial⟩, rfl⟩) ?_
      refine .head (.finish rfl) ?_
      exact .refl
    case returned => rfl
    case accepted => rfl
  obtain ⟨armed, arms, seoi, later, accepts, returned, accepted⟩ := runs
  have coupled := end_coupled rfl rfl rfl (arms.trans accepts)
  exact ⟨armed, later, arms, seoi, (end_coupled rfl rfl rfl arms).1, accepts, returned, accepted, coupled.1,
    coupled.2 (.inl returned)⟩

/-- Two bytes without END. -/
def plainBytes : WriteCall := ⟨UInt8.ofNat, 2, false, 0⟩

/-- What is left when a signal has interrupted the idle wait of a single byte with END. -/
def leftArmed : Board :=
  { (Board.attached.putFlag .devClear false).putFlag .devClear false with seoi := true }

theorem endByte_gives_up :
    ReflTransGen (writeService Act).Step ⟨.opened .attached, none⟩
      ⟨⟨leftArmed, leftArmed, endByte, [(endByte, [])]⟩, none⟩ := by
  have begins : (writeService Act).begins endByte (.opened .attached) ⟨.attached, .attached, endByte, []⟩ :=
    ⟨fun _ => false, rfl⟩
  refine .head (.begin begins) ?_
  refine .head (.perform ⟨_, .dmaChannel, rfl⟩) ?_
  refine .head (.perform ⟨_, .clearBit, rfl⟩) ?_
  refine .head (.perform ⟨_, .seoi, rfl⟩) ?_
  refine .head (.perform ⟨_, .terminateAll, rfl⟩) ?_
  refine .head (.perform ⟨_, .clearWriteTransferCounter, rfl⟩) ?_
  refine .head (.perform ⟨_, .signalled, rfl⟩) ?_
  refine .head (.perform ⟨_, .testBit, rfl⟩) ?_
  refine .head (.perform ⟨_, .testAndClearBit, rfl⟩) ?_
  refine .head (.finish rfl) ?_
  exact .refl

/-- The call has returned with END armed, and END goes with the first byte of the next one. -/
theorem end_left_armed :
    ∃ returned later : Session WriteCall Op Answer (Int × Nat) Line,
      ReflTransGen (writeService Act).Step ⟨.opened .attached, none⟩ returned ∧
        returned.running = none ∧ returned.state.board.seoi = true ∧
        ReflTransGen (writeService Act).Step returned later ∧
        later.state.made = plainBytes ∧ later.state.since = [⟨0, true⟩] ∧ ¬ later.state.Ok := by
  have begins : (writeService Act).begins plainBytes ⟨leftArmed, leftArmed, endByte, [(endByte, [])]⟩
      ⟨leftArmed, leftArmed, plainBytes, [(endByte, [])]⟩ := ⟨leftArmed.flags, rfl⟩
  have second : ∃ later : Session WriteCall Op Answer (Int × Nat) Line,
      ReflTransGen (writeService Act).Step ⟨⟨leftArmed, leftArmed, endByte, [(endByte, [])]⟩, none⟩ later ∧
        later.state.made = plainBytes ∧ later.state.since = [⟨0, true⟩] := by
    refine ⟨?later, ?run, ?made, ?since⟩
    case run =>
      refine .head (.begin begins) ?_
      refine .head (.perform ⟨_, .dmaChannel, rfl⟩) ?_
      refine .head (.perform ⟨_, .clearBit, rfl⟩) ?_
      refine .head (.perform ⟨_, .terminateAll, rfl⟩) ?_
      refine .head (.perform ⟨_, .clearWriteTransferCounter, rfl⟩) ?_
      refine .head (.perform ⟨_, .waited rfl, rfl⟩) ?_
      refine .head (.perform ⟨_, .testBit, rfl⟩) ?_
      refine .head (.perform ⟨_, .testAndClearBit, rfl⟩) ?_
      refine .head (.perform ⟨_, .memcpy, rfl⟩) ?_
      refine .head (.perform ⟨_, .mapSingle, rfl⟩) ?_
      refine .head (.perform ⟨_, .slaveConfig (Int.le_refl 0), rfl⟩) ?_
      refine .head (.perform ⟨_, .prepared, rfl⟩) ?_
      refine .head (.perform ⟨_, .spinLockIrqsave rfl, rfl⟩) ?_
      refine .head (.perform ⟨_, .setRegBits, rfl⟩) ?_
      refine .head (.perform ⟨_, .setRegBits, rfl⟩) ?_
      refine .head (.perform ⟨_, .submit, rfl⟩) ?_
      refine .head (.perform ⟨_, .issuePending rfl, rfl⟩) ?_
      refine .head (.drift ⟨_, .accept rfl, rfl⟩) ?_
      exact .refl
    case made => rfl
    case since => rfl
  obtain ⟨later, run, made, since⟩ := second
  refine ⟨_, later, endByte_gives_up, rfl, rfl, run, made, since, fun ok => ?_⟩
  have own : later.state.since[0]? = some ⟨0, true⟩ := by
    rw [since]
    rfl
  have eoi := (ok.current.eoi 0 ⟨0, true⟩ own rfl).1
  rw [made] at eoi
  cases eoi

end FlukeCda.Gpib
