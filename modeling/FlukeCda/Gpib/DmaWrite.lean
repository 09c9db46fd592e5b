import FlukeCda.Gpib.Board
import FlukeCda.Interaction.Interference

namespace FlukeCda.Gpib
open Interaction Program

/-- Nothing has happened to the bytes on their way. -/
structure SameBytes (before after : Board) : Prop where
  accepted : after.accepted = before.accepted
  counter : after.writeTransferCounter = before.writeTransferCounter
  dmaBuffer : after.dmaBuffer = before.dmaBuffer
  channel : after.channel = before.channel

/-- The operations that leave the bytes on their way alone. -/
def Op.Quiet : Op → Prop
  | .terminateAll | .clearWriteTransferCounter | .memcpy .. | .submit _ | .issuePending => False
  | _ => True

theorem Act.sameBytes {op : Op} {answer : Answer op} {before after : Board} (acts : Act op answer before after)
    (quiet : op.Quiet) : SameBytes before after := by
  cases acts <;> first | exact ⟨rfl, rfl, rfl, rfl⟩ | exact quiet.elim

theorem accept_cases {before after : Board} (accepts : before.accept = some after) :
    ∃ next length, before.channel = .running next length ∧ next < length ∧
      after = { before with accepted := before.accepted ++ [⟨before.dmaBuffer next, before.seoi⟩], seoi := false
                            writeTransferCounter := before.writeTransferCounter + 1,
                            channel := .running (next + 1) length } := by
  unfold Board.accept at accepts
  split at accepts
  · rename_i next length running
    simp only [Option.ite_none_right_eq_some, Option.some.injEq] at accepts
    exact ⟨next, length, running, accepts.1, accepts.2.symm⟩
  · cases accepts

theorem complete_cases {before after : Board} (completes : before.complete = some after) :
    ∃ length, before.channel = .running length length ∧ after.accepted = before.accepted ∧
      after.writeTransferCounter = before.writeTransferCounter ∧ after.channel = .idle ∧
      after.hasDmaChannel = before.hasDmaChannel ∧
      ∀ flag, flag ≠ .dmaWriteInProgress → flag ≠ .dmaReadInProgress →
        after.flags flag = before.flags flag := by
  unfold Board.complete at completes
  split at completes
  · rename_i next length running
    simp only [Option.ite_none_right_eq_some, Option.some.injEq] at completes
    obtain ⟨⟨rfl, -⟩, rfl⟩ := completes
    refine ⟨next, running, rfl, rfl, rfl, rfl, fun flag notWrite notRead => ?_⟩
    exact (Function.update_of_ne notRead _ _).trans (Function.update_of_ne notWrite _ _)
  · cases completes

/-- What the environment can do to the bytes on their way. -/
theorem drift_cases {before after : Board} (drifts : Drift before after) :
    SameBytes before after ∨
      (∃ next length, before.channel = .running next length ∧ next < length ∧
        after.values = before.values ++ [before.dmaBuffer next] ∧
        after.writeTransferCounter = before.writeTransferCounter + 1 ∧ after.dmaBuffer = before.dmaBuffer ∧
        after.channel = .running (next + 1) length) ∨
      ∃ length, before.channel = .running length length ∧ after.values = before.values ∧
        after.writeTransferCounter = before.writeTransferCounter ∧ after.channel = .idle := by
  cases drifts with
  | accept accepts =>
    obtain ⟨next, length, running, more, rfl⟩ := accept_cases accepts
    refine .inr (.inl ⟨next, length, running, more, ?_, rfl, rfl, rfl⟩)
    simp only [Board.values, List.map_append, List.map_cons, List.map_nil]
  | complete completes =>
    obtain ⟨length, running, accepted, counter, idle, -⟩ := complete_cases completes
    exact .inr (.inr ⟨length, running, congrArg (List.map Accepted.value) accepted, counter, idle⟩)
  | interrupt interrupted => exact .inl ⟨rfl, rfl, rfl, rfl⟩

theorem drift_hasDmaChannel {before after : Board} (drifts : Drift before after) :
    after.hasDmaChannel = before.hasDmaChannel := by
  cases drifts with
  | accept accepts =>
    obtain ⟨next, length, running, more, rfl⟩ := accept_cases accepts
    rfl
  | complete completes =>
    obtain ⟨length, running, -, -, -, same, -⟩ := complete_cases completes
    exact same
  | interrupt interrupted => rfl

theorem drift_raises {before after : Board} {flag : Flag} (drifts : Drift before after)
    (tested : flag = .timo ∨ flag = .devClear ∨ flag = .busError) (set : before.flags flag = true) :
    after.flags flag = true := by
  cases drifts with
  | accept accepts =>
    obtain ⟨next, length, running, more, rfl⟩ := accept_cases accepts
    exact set
  | complete completes =>
    obtain ⟨length, running, -, -, -, -, kept⟩ := complete_cases completes
    rw [kept flag (by rintro rfl; simp at tested) (by rintro rfl; simp at tested)]
    exact set
  | interrupt interrupted => exact interrupted.1 flag tested set

/-- Since `base` the first `n` bytes of the buffer were accepted, which the
counter has counted. -/
structure Sent (base : Board) (buffer : Nat → UInt8) (n : Nat) (channel : Channel) (board : Board) : Prop where
  values : board.values = base.values ++ (List.range n).map buffer
  counter : board.writeTransferCounter = n
  channel_eq : board.channel = channel

def Loaded (buffer : Nat → UInt8) (length : Nat) (board : Board) : Prop :=
  ∀ i, i < length → board.dmaBuffer i = buffer i

/-- `I` holds as long as what was accepted since `base` is a first part of the buffer. -/
def Covers (I : Board → Prop) (base : Board) (buffer : Nat → UInt8) (length : Nat) : Prop :=
  ∀ n board, n ≤ length → board.values = base.values ++ (List.range n).map buffer → I board

/-- A steady assertion about the bytes on their way. -/
structure Inert (I P : Board → Prop) : Prop where
  steady : Steady Drift I P
  same : ∀ before after, SameBytes before after → P before → P after

theorem SameBytes.values {before after : Board} (same : SameBytes before after) :
    after.values = before.values := by
  simp only [Board.values, same.accepted]

theorem Sent.same {base : Board} {buffer : Nat → UInt8} {n : Nat} {channel : Channel} {before after : Board}
    (sent : Sent base buffer n channel before) (same : SameBytes before after) :
    Sent base buffer n channel after :=
  ⟨same.values.trans sent.values, same.counter.trans sent.counter, same.channel.trans sent.channel_eq⟩

/-- Only a running transfer moves. -/
def Channel.Still : Channel → Prop
  | .running _ _ => False
  | _ => True

theorem Sent.inert {I : Board → Prop} {base : Board} {buffer : Nat → UInt8} {n length : Nat} {channel : Channel}
    (covers : Covers I base buffer length) (bound : n ≤ length) (still : channel.Still) :
    Inert I (Sent base buffer n channel) := by
  refine ⟨⟨?_, fun board sent => covers n board bound sent.values⟩, fun _ _ same sent => sent.same same⟩
  intro before after drifts sent
  rcases drift_cases drifts with same | ⟨next, total, running, -⟩ | ⟨total, running, -⟩
  · exact sent.same same
  · rw [← sent.channel_eq, running] at still
    exact still.elim
  · rw [← sent.channel_eq, running] at still
    exact still.elim

/-- The buffer is filled, and nothing of it was accepted. -/
def Filled (base : Board) (buffer : Nat → UInt8) (length : Nat) (channel : Channel) (board : Board) : Prop :=
  Sent base buffer 0 channel board ∧ Loaded buffer length board

theorem Loaded.same {buffer : Nat → UInt8} {length : Nat} {before after : Board}
    (loaded : Loaded buffer length before) (same : SameBytes before after) : Loaded buffer length after := by
  unfold Loaded
  rw [same.dmaBuffer]
  exact loaded

theorem Filled.inert {I : Board → Prop} {base : Board} {buffer : Nat → UInt8} {length : Nat} {channel : Channel}
    (covers : Covers I base buffer length) (still : channel.Still) :
    Inert I (Filled base buffer length channel) := by
  have inert := Sent.inert covers (Nat.zero_le length) still
  refine ⟨⟨?_, fun board filled => inert.steady.here board filled.1⟩,
    fun _ _ same filled => ⟨filled.1.same same, filled.2.same same⟩⟩
  rintro before after drifts ⟨sent, loaded⟩
  refine ⟨inert.steady.stable before after drifts sent, ?_⟩
  rcases drift_cases drifts with same | ⟨next, total, running, -⟩ | ⟨total, running, -⟩
  · exact loaded.same same
  · rw [← sent.channel_eq, running] at still
    exact still.elim
  · rw [← sent.channel_eq, running] at still
    exact still.elim

/-- A transfer of the whole buffer is on its way, or has been completed. -/
def Moving (base : Board) (buffer : Nat → UInt8) (length : Nat) (board : Board) : Prop :=
  (∃ n, n ≤ length ∧ Sent base buffer n (.running n length) board ∧ Loaded buffer length board) ∨
    Sent base buffer length .idle board

theorem Moving.counter_le {base : Board} {buffer : Nat → UInt8} {length : Nat} {board : Board}
    (moving : Moving base buffer length board) : board.writeTransferCounter ≤ length := by
  rcases moving with ⟨n, bound, sent, -⟩ | sent
  · exact sent.counter.le.trans bound
  · exact sent.counter.le

theorem Moving.same {base : Board} {buffer : Nat → UInt8} {length : Nat} {before after : Board}
    (moving : Moving base buffer length before) (same : SameBytes before after) :
    Moving base buffer length after := by
  rcases moving with ⟨n, bound, sent, loaded⟩ | sent
  · exact .inl ⟨n, bound, sent.same same, loaded.same same⟩
  · exact .inr (sent.same same)

/-- The chip goes through the buffer in order; the counter never goes back. -/
theorem Moving.drift {base : Board} {buffer : Nat → UInt8} {length : Nat} {before after : Board}
    (moving : Moving base buffer length before) (drifts : Drift before after) :
    Moving base buffer length after ∧ before.writeTransferCounter ≤ after.writeTransferCounter := by
  rcases drift_cases drifts with same | ⟨next, total, running, more, values, counter, dmaBuffer, channel⟩ |
    ⟨total, running, values, counter, idle⟩
  · exact ⟨moving.same same, same.counter.ge⟩
  · rcases moving with ⟨n, bound, sent, loaded⟩ | sent
    · have here : Channel.running n length = .running next total := sent.channel_eq.symm.trans running
      cases here
      refine ⟨.inl ⟨next + 1, more, ⟨?_, ?_, channel⟩, ?_⟩, by omega⟩
      · rw [values, sent.values, loaded next more, List.range_succ, List.map_append, List.append_assoc]
        rfl
      · rw [counter, sent.counter]
      · unfold Loaded
        rw [dmaBuffer]
        exact loaded
    · rw [sent.channel_eq] at running
      cases running
  · rcases moving with ⟨n, bound, sent, loaded⟩ | sent
    · have here : Channel.running n length = .running total total := sent.channel_eq.symm.trans running
      cases here
      exact ⟨.inr ⟨values.trans sent.values, counter.trans sent.counter, idle⟩, counter.ge⟩
    · rw [sent.channel_eq] at running
      cases running

theorem Moving.covered {I : Board → Prop} {base : Board} {buffer : Nat → UInt8} {length : Nat} {board : Board}
    (moving : Moving base buffer length board) (covers : Covers I base buffer length) : I board := by
  rcases moving with ⟨n, bound, sent, -⟩ | sent
  · exact covers n board bound sent.values
  · exact covers length board le_rfl sent.values

theorem Moving.inert {I : Board → Prop} {base : Board} {buffer : Nat → UInt8} {length : Nat}
    (covers : Covers I base buffer length) : Inert I (Moving base buffer length) :=
  ⟨⟨fun _ _ drifts moving => (moving.drift drifts).1, fun _ moving => moving.covered covers⟩,
    fun _ _ same moving => moving.same same⟩

/-- While the flags are looked at: what is to be returned is 0 only if
everything was accepted, or a flag is set that is still to be tested. -/
structure Settling (base : Board) (buffer : Nat → UInt8) (length : Nat) (untested : List Flag) (retval : Int)
    (board : Board) : Prop where
  moving : Moving base buffer length board
  error : retval ≤ 0
  settled : retval = 0 → board.writeTransferCounter = length ∨ ∃ flag ∈ untested, board.flags flag = true

theorem Settling.steady {I : Board → Prop} {base : Board} {buffer : Nat → UInt8} {length : Nat}
    {untested : List Flag} (covers : Covers I base buffer length)
    (tested : ∀ flag ∈ untested, flag = .timo ∨ flag = .devClear ∨ flag = .busError) (retval : Int) :
    Steady Drift I (Settling base buffer length untested retval) := by
  refine ⟨?_, fun board settling => settling.moving.covered covers⟩
  intro before after drifts settling
  obtain ⟨moving, counted⟩ := settling.moving.drift drifts
  refine ⟨moving, settling.error, fun zero => ?_⟩
  rcases settling.settled zero with complete | ⟨flag, member, set⟩
  · left
    have bound := moving.counter_le
    omega
  · exact .inr ⟨flag, member, drift_raises drifts (tested flag member) set⟩

/-- Testing a flag, which may clear it. -/
theorem Settling.tested {base : Board} {buffer : Nat → UInt8} {length : Nat} {flag : Flag}
    {untested : List Flag} {retval error : Int} {before after : Board}
    (settling : Settling base buffer length (flag :: untested) retval before) (negative : error < 0)
    (same : SameBytes before after) (others : ∀ other ∈ untested, after.flags other = before.flags other) :
    Settling base buffer length untested (if before.flags flag = true then error else retval) after := by
  refine ⟨settling.moving.same same, ?_, fun zero => ?_⟩
  · split_ifs
    · omega
    · exact settling.error
  · split_ifs at zero with set
    · omega
    · rcases settling.settled zero with complete | ⟨other, member, raised⟩
      · exact .inl (same.counter.trans complete)
      · rcases List.mem_cons.mp member with rfl | later
        · exact absurd raised set
        · exact .inr ⟨other, later, (others other later).trans raised⟩

/-- The operations that may be performed at any time. -/
def Op.Plain : Op → Prop
  | .bug | .outOfRounds | .writeAuxmr .seoi | .readWriteTransferCounter
  | .waitEventInterruptible (.written _) => False
  | _ => True

/-- The operations that look at the counter. -/
def Op.Counting : Op → Prop
  | .readWriteTransferCounter | .waitEventInterruptible (.written _) => True
  | _ => False

/-- The counter may be looked at while its eleven bits hold the whole count. -/
structure Lenient (may : Op → Board → Prop) : Prop where
  plain : ∀ op board, op.Plain → may op board
  counting : ∀ op board, op.Counting → board.writeTransferCounter ≤ writeTransferCounterMask → may op board

section
variable {may : Op → Board → Prop} {I P : Board → Prop} {α : Type} {R : α → Board → Prop} {board base : Board}
  {buffer : Nat → UInt8} {length : Nat}

theorem safe_plain (lenient : Lenient may) (steady : Steady Drift I P) {op : Op} {f : Answer op → Code α}
    (plain : op.Plain)
    (step : ∀ before answer after, P before → Act op answer before after →
      Safe Act Drift may I R (f answer) after)
    (holds : P board) :
    Safe Act Drift may I R (perform op >>= f) board :=
  safe_perform steady (fun board _ => lenient.plain op board plain) step holds

theorem safe_quiet (lenient : Lenient may) (inert : Inert I P) {op : Op} {f : Answer op → Code α}
    (quiet : op.Quiet) (plain : op.Plain)
    (rest : ∀ answer board, P board → Safe Act Drift may I R (f answer) board) (holds : P board) :
    Safe Act Drift may I R (perform op >>= f) board := by
  refine safe_plain lenient inert.steady plain (fun before answer after holds acts => ?_) holds
  exact rest answer after (inert.same before after (acts.sameBytes quiet) holds)

/-- Looking at the counter while it has not gone past its mask. -/
theorem safe_counting (lenient : Lenient may) (steady : Steady Drift I P) {op : Op} {f : Answer op → Code α}
    (counting : op.Counting) (bound : ∀ board, P board → board.writeTransferCounter ≤ writeTransferCounterMask)
    (step : ∀ before answer after, P before → Act op answer before after →
      Safe Act Drift may I R (f answer) after)
    (holds : P board) :
    Safe Act Drift may I R (perform op >>= f) board :=
  safe_perform steady (fun board holds => lenient.counting op board counting (bound board holds)) step holds

/-- Testing a flag where its value does not matter. -/
theorem overrideIf_safe (lenient : Lenient may) (inert : Inert I P) {flag : Flag} {test : Code Bool}
    {error retval : Int} (tests : test = testBit flag ∨ test = testAndClearBit flag) (negative : error ≤ 0)
    (bound : retval ≤ 0) (holds : P board) :
    Safe Act Drift may I (fun retval board => P board ∧ retval ≤ 0) (overrideIf test error retval) board := by
  have finish : ∀ (seen : Bool) board, P board → Safe Act Drift may I (fun retval board => P board ∧ retval ≤ 0)
      (pure (if seen = true then error else retval)) board := by
    intro seen board holds
    refine safe_done inert.steady (fun board holds => ⟨holds, ?_⟩) holds
    split_ifs
    · exact negative
    · exact bound
  rcases tests with rfl | rfl
  · exact safe_quiet lenient inert trivial trivial finish holds
  · exact safe_quiet lenient inert trivial trivial finish holds

theorem waitForIdle_safe (lenient : Lenient may) (inert : Inert I P)
    {listener talker : Bool} (holds : P board) :
    Safe Act Drift may I (fun retval board => P board ∧ retval ≤ 0) (waitForIdle listener talker) board := by
  refine safe_quiet lenient inert trivial trivial (fun waited board holds => ?_) holds
  have initial : (if waited ≠ 0 then -ERESTARTSYS else 0) ≤ 0 := by split_ifs <;> decide
  refine (overrideIf_safe lenient inert (.inl rfl) (by decide) initial holds).andThen ?_
  rintro retval board ⟨holds, bound⟩
  exact overrideIf_safe lenient inert (.inr rfl) (by decide) bound holds

theorem flukeDmaCallback_safe (lenient : Lenient may) (inert : Inert I P) (holds : P board) :
    Safe Act Drift may I (fun _ => P) flukeDmaCallback board := by
  refine safe_quiet lenient inert trivial trivial (fun _ board holds => ?_) holds
  refine safe_quiet lenient inert trivial trivial (fun _ board holds => ?_) holds
  refine safe_quiet lenient inert trivial trivial (fun _ board holds => ?_) holds
  refine safe_quiet lenient inert trivial trivial (fun _ board holds => ?_) holds
  refine safe_quiet lenient inert trivial trivial (fun _ board holds => ?_) holds
  refine safe_quiet lenient inert trivial trivial (fun _ board holds => ?_) holds
  exact safe_quiet lenient inert trivial trivial
    (fun _ board => safe_done inert.steady fun _ holds => holds) holds

/-- A transfer is started from a filled buffer. -/
theorem startDmaWrite_safe (lenient : Lenient may) (covers : Covers I base buffer length)
    (filled : Filled base buffer length .idle board) :
    Safe Act Drift may I (fun _ => Moving base buffer length) (startDmaWrite ⟨length⟩) board := by
  have waiting : Inert I (Filled base buffer length .idle) := Filled.inert covers trivial
  have queued : Inert I (Filled base buffer length (.queued length)) := Filled.inert covers trivial
  have moving : Inert I (Moving base buffer length) := Moving.inert covers
  refine safe_quiet lenient waiting trivial trivial (fun _ board filled => ?_) filled
  refine safe_quiet lenient waiting trivial trivial (fun _ board filled => ?_) filled
  refine safe_quiet lenient waiting trivial trivial (fun _ board filled => ?_) filled
  refine safe_plain lenient waiting.steady trivial (fun before answer after filled acts => ?_) filled
  cases acts
  have submitted : Filled base buffer length (.queued length) { before with channel := .queued length } :=
    ⟨⟨filled.1.values, filled.1.counter, rfl⟩, filled.2⟩
  refine safe_plain lenient queued.steady trivial (fun before answer after filled acts => ?_) submitted
  cases acts with
  | @issuePending _ total isQueued =>
    have same : Channel.queued length = .queued total := filled.1.channel_eq.symm.trans isQueued
    cases same
    have issued : Moving base buffer length { before with channel := .running 0 length } :=
      .inl ⟨0, Nat.zero_le length, ⟨filled.1.values, filled.1.counter, rfl⟩, filled.2⟩
    refine safe_quiet lenient moving trivial trivial (fun _ board holds => ?_) issued
    refine safe_quiet lenient moving trivial trivial (fun _ board holds => ?_) holds
    exact safe_quiet lenient moving trivial trivial
      (fun _ board => safe_done moving.steady fun _ holds => holds) holds

/-- Eleven bits hold every count up to the size of the buffer. -/
theorem masked_eq {count : Nat} (bound : count ≤ writeTransferCounterMask) :
    count &&& writeTransferCounterMask = count := by
  have mask := Nat.and_two_pow_sub_one_eq_mod count 11
  have small : count % 2 ^ 11 = count := Nat.mod_eq_of_lt (Nat.lt_succ_of_le bound)
  exact mask.trans small

/-- The flags whose setting ends the wait for a transfer. -/
def Failing (untested : List Flag) : Prop :=
  ∀ flag ∈ untested, flag = .timo ∨ flag = .devClear ∨ flag = .busError

/-- A wait ends by a signal, by a flag or with everything accepted. -/
theorem Moving.waited {waited : Int} {before after : Board} (moving : Moving base buffer length before)
    (fits : length ≤ writeTransferCounterMask)
    (acts : Act (.waitEventInterruptible (.written length)) waited before after) :
    Settling base buffer length [.timo, .devClear, .busError]
      (if waited ≠ 0 then -ERESTARTSYS else 0) after := by
  have counted := masked_eq (moving.counter_le.trans fits)
  cases acts with
  | waited ready =>
    refine ⟨moving, by decide, fun _ => ?_⟩
    simp only [Board.ready, counted, Bool.or_eq_true, beq_iff_eq] at ready
    rcases ready with ((complete | busError) | devClear) | timo
    · exact .inl complete
    · exact .inr ⟨.busError, by simp, busError⟩
    · exact .inr ⟨.devClear, by simp, devClear⟩
    · exact .inr ⟨.timo, by simp, timo⟩
  | signalled => exact ⟨moving, by decide, fun zero => absurd zero (by decide)⟩

theorem settle_safe (lenient : Lenient may) (covers : Covers I base buffer length) {flag : Flag}
    {untested : List Flag} {test : Code Bool} {retval error : Int}
    (tests : test = testBit flag ∨ test = testAndClearBit flag) (failing : Failing (flag :: untested))
    (absent : flag ∉ untested) (negative : error < 0)
    (settling : Settling base buffer length (flag :: untested) retval board) :
    Safe Act Drift may I (Settling base buffer length untested) (overrideIf test error retval) board := by
  have steady := Settling.steady covers failing retval
  have finish : ∀ retval board, Settling base buffer length untested retval board →
      Safe Act Drift may I (Settling base buffer length untested) (pure retval) board := by
    intro retval board settling
    have later : Failing untested := fun other member => failing other (List.mem_cons_of_mem flag member)
    exact safe_done (Settling.steady covers later retval) (fun _ settling => settling) settling
  rcases tests with rfl | rfl
  · refine safe_plain lenient steady trivial (fun before seen after settling acts => ?_) settling
    cases acts
    exact finish _ _ (settling.tested negative ⟨rfl, rfl, rfl, rfl⟩ fun _ _ => rfl)
  · refine safe_plain lenient steady trivial (fun before seen after settling acts => ?_) settling
    cases acts
    refine finish _ _ (settling.tested negative ⟨rfl, rfl, rfl, rfl⟩ fun other member => ?_)
    have different : other ≠ flag := by
      rintro rfl
      exact absent member
    exact Function.update_of_ne different _ _

theorem afterWait_settles (lenient : Lenient may) (covers : Covers I base buffer length) {waited : Int}
    (settling : Settling base buffer length [.timo, .devClear, .busError]
      (if waited ≠ 0 then -ERESTARTSYS else 0) board) :
    Safe Act Drift may I (Settling base buffer length [.busError])
      (afterWait (testBit .timo) (testAndClearBit .devClear) waited) board := by
  refine (settle_safe lenient covers (.inl rfl) ?_ (by decide) (by decide) settling).andThen
    fun retval board settling => ?_
  · simp [Failing]
  refine settle_safe lenient covers (.inr rfl) ?_ (by decide) (by decide) settling
  simp [Failing]

theorem waitWritten_safe (lenient : Lenient may) (covers : Covers I base buffer length)
    (fits : length ≤ writeTransferCounterMask) (moving : Moving base buffer length board) :
    Safe Act Drift may I (Settling base buffer length []) (waitWritten length) board := by
  have inert : Inert I (Moving base buffer length) := Moving.inert covers
  refine safe_counting lenient inert.steady trivial (fun board moving => moving.counter_le.trans fits)
    (fun before waited after moving acts => ?_) moving
  refine (afterWait_settles lenient covers (moving.waited fits acts)).andThen fun retval board settling => ?_
  exact settle_safe lenient covers (.inr rfl) (by simp [Failing]) (by decide) (by decide) settling

/-- The transfer is over, and what is to be returned is 0 only if everything was accepted. -/
def Stopped (base : Board) (buffer : Nat → UInt8) (length : Nat) (retval : Int) (board : Board) : Prop :=
  ∃ n, n ≤ length ∧ Sent base buffer n .idle board ∧ retval ≤ 0 ∧ (retval = 0 → n = length)

theorem Stopped.inert (covers : Covers I base buffer length) (retval : Int) :
    Inert I (Stopped base buffer length retval) := by
  refine ⟨⟨?_, ?_⟩, ?_⟩
  · rintro before after drifts ⟨n, bound, sent, rest⟩
    have inert : Inert I (Sent base buffer n .idle) := Sent.inert covers bound trivial
    exact ⟨n, bound, inert.steady.stable before after drifts sent, rest⟩
  · rintro board ⟨n, bound, sent, -⟩
    exact covers n board bound sent.values
  · rintro before after same ⟨n, bound, sent, rest⟩
    exact ⟨n, bound, sent.same same, rest⟩

theorem Settling.same {retval : Int} {before after : Board}
    (settling : Settling base buffer length [] retval before) (same : SameBytes before after) :
    Settling base buffer length [] retval after := by
  refine ⟨settling.moving.same same, settling.error, fun zero => ?_⟩
  rcases settling.settled zero with complete | ⟨flag, member, -⟩
  · exact .inl (same.counter.trans complete)
  · cases member

/-- The engine is stopped, whatever it has moved. -/
theorem Settling.stopped {retval : Int} (settling : Settling base buffer length [] retval board) :
    Stopped base buffer length retval { board with channel := .idle } := by
  have complete : retval = 0 → board.writeTransferCounter = length := by
    intro zero
    rcases settling.settled zero with complete | ⟨flag, member, -⟩
    · exact complete
    · cases member
  rcases settling.moving with ⟨n, bound, sent, -⟩ | sent
  · refine ⟨n, bound, ⟨sent.values, sent.counter, rfl⟩, settling.error, fun zero => ?_⟩
    exact sent.counter.symm.trans (complete zero)
  · exact ⟨length, le_rfl, ⟨sent.values, sent.counter, rfl⟩, settling.error, fun _ => rfl⟩

theorem stopDmaWrite_safe (lenient : Lenient may) (covers : Covers I base buffer length) {retval : Int}
    (settling : Settling base buffer length [] retval board) :
    Safe Act Drift may I (fun _ => Stopped base buffer length retval) stopDmaWrite board := by
  have settled : Inert I (Settling base buffer length [] retval) :=
    ⟨Settling.steady covers (fun _ member => by cases member) retval,
      fun _ _ same settling => settling.same same⟩
  have stopped := Stopped.inert covers retval
  refine safe_quiet lenient settled trivial trivial (fun _ board settling => ?_) settling
  refine safe_plain lenient settled.steady trivial (fun before _ after settling acts => ?_) settling
  cases acts
  refine safe_quiet lenient stopped trivial trivial (fun inProgress board holds => ?_) settling.stopped
  unfold onlyIf
  split_ifs
  · exact flukeDmaCallback_safe lenient stopped holds
  · exact safe_done stopped.steady (fun _ holds => holds) holds

/-- A transfer that has ended: what it returns, and how many bytes were accepted. -/
structure Ended (base : Board) (buffer : Nat → UInt8) (length : Nat) (result : Int × Nat)
    (board : Board) : Prop where
  sent : Sent base buffer result.2 .idle board
  bound : result.2 ≤ length
  error : result.1 ≤ 0
  complete : result.1 = 0 → result.2 = length

theorem Ended.inert (covers : Covers I base buffer length) (result : Int × Nat) :
    Inert I (Ended base buffer length result) := by
  have inert : result.2 ≤ length → Inert I (Sent base buffer result.2 .idle) :=
    fun bound => Sent.inert covers bound trivial
  refine ⟨⟨?_, fun board ended => covers result.2 board ended.bound ended.sent.values⟩, ?_⟩
  · intro before after drifts ended
    exact ⟨(inert ended.bound).steady.stable before after drifts ended.sent, ended.bound,
      ended.error, ended.complete⟩
  · intro before after same ended
    exact ⟨ended.sent.same same, ended.bound, ended.error, ended.complete⟩

theorem Ended.finish (covers : Covers I base buffer length) {result : Int × Nat}
    (ended : Ended base buffer length result board) :
    Safe Act Drift may I (Ended base buffer length) (pure result) board :=
  safe_done (Ended.inert covers result).steady (fun _ ended => ended) ended

theorem countDmaWrite_safe (lenient : Lenient may) (covers : Covers I base buffer length)
    (fits : length ≤ writeTransferCounterMask) {retval : Int}
    (stopped : Stopped base buffer length retval board) :
    Safe Act Drift may I (Ended base buffer length) (countDmaWrite length retval) board := by
  have counted : ∀ board, Stopped base buffer length retval board →
      board.writeTransferCounter ≤ writeTransferCounterMask := by
    rintro board ⟨n, bound, sent, -⟩
    rw [sent.counter]
    exact bound.trans fits
  refine safe_counting lenient (Stopped.inert covers retval).steady trivial counted
    (fun before counter after stopped acts => ?_) stopped
  cases acts
  obtain ⟨n, bound, sent, error, complete⟩ := stopped
  have ended : Ended base buffer length (retval, n) before := ⟨sent, bound, error, complete⟩
  rw [sent.counter, masked_eq (bound.trans fits), if_neg (by omega)]
  exact safe_quiet lenient (Ended.inert covers (retval, n)) trivial trivial
    (fun _ _ ended => ended.finish covers) ended

theorem transferDma_safe (lenient : Lenient may) (covers : Covers I base buffer length)
    (fits : length ≤ writeTransferCounterMask) (filled : Filled base buffer length .idle board) :
    Safe Act Drift may I (Ended base buffer length) (transferDma length ⟨length⟩) board := by
  refine (startDmaWrite_safe lenient covers filled).andThen fun _ board moving => ?_
  refine (waitWritten_safe lenient covers fits moving).andThen fun retval board settling => ?_
  refine (stopDmaWrite_safe lenient covers settling).andThen fun _ board stopped => ?_
  unfold onlyIf
  split_ifs
  · exact safe_quiet lenient (Stopped.inert covers retval) trivial trivial
      (fun _ _ => countDmaWrite_safe lenient covers fits) stopped
  · exact countDmaWrite_safe lenient covers fits stopped

/-- The engine is stopped, and nothing was accepted since `base`. -/
def Halted (base board : Board) : Prop := board.values = base.values ∧ board.channel = .idle

theorem Halted.inert (covers : Covers I base buffer length) : Inert I (Halted base) := by
  refine ⟨⟨?_, fun board halted => covers 0 board (Nat.zero_le length) ?_⟩, fun before after same halted => ?_⟩
  · rintro before after drifts ⟨values, idle⟩
    rcases drift_cases drifts with same | ⟨next, total, running, -⟩ | ⟨total, running, -⟩
    · exact ⟨same.values.trans values, same.channel.trans idle⟩
    · rw [idle] at running
      cases running
    · rw [idle] at running
      cases running
  · rw [halted.1, List.range_zero, List.map_nil, List.append_nil]
  · exact ⟨same.values.trans halted.1, same.channel.trans halted.2⟩

/-- A transfer for which nothing was submitted. -/
theorem Sent.ended {retval : Int} (sent : Sent base buffer 0 .idle board) (failed : retval < 0) :
    Ended base buffer length (retval, 0) board :=
  ⟨sent, Nat.zero_le length, by omega, fun zero => by omega⟩

theorem abandonDmaWrite_safe (lenient : Lenient may) (covers : Covers I base buffer length) {retval : Int}
    (failed : retval < 0) (sent : Sent base buffer 0 .idle board) :
    Safe Act Drift may I (Ended base buffer length) (abandonDmaWrite length retval) board :=
  safe_quiet lenient (Ended.inert covers (retval, 0)) trivial trivial
    (fun _ _ ended => ended.finish covers) (sent.ended failed)

theorem programDma_safe (lenient : Lenient may) (covers : Covers I base buffer length)
    (fits : length ≤ writeTransferCounterMask) (filled : Filled base buffer length .idle board) :
    Safe Act Drift may I (Ended base buffer length) (programDma length) board := by
  have inert : Inert I (Filled base buffer length .idle) := Filled.inert covers trivial
  refine safe_quiet lenient inert trivial trivial (fun _ board filled => ?_) filled
  refine safe_plain lenient inert.steady trivial (fun before retval after filled acts => ?_) filled
  cases acts with
  | slaveConfig error =>
    split_ifs with failed
    · exact abandonDmaWrite_safe lenient covers (by omega) filled.1
    · refine safe_plain lenient inert.steady trivial (fun before desc after filled acts => ?_) filled
      cases acts with
      | prepared => exact transferDma_safe lenient covers fits filled
      | unprepared => exact abandonDmaWrite_safe lenient covers (by decide) filled.1

/-- What is sent is a first part of the buffer, all of it where 0 is returned;
`base` is the board on which the engine was stopped. -/
theorem flukeDmaWrite_safe (lenient : Lenient may) (steady : Steady Drift I P)
    (covers : ∀ base, P base → Covers I base buffer length) (fits : length ≤ dmaBufferSize) (holds : P board) :
    Safe Act Drift may I (fun result after => ∃ base, P base ∧ Ended base buffer length result after)
    (flukeDmaWrite buffer length) board := by
  unfold flukeDmaWrite
  rw [if_neg (by omega)]
  refine safe_plain lenient steady trivial (fun base _ after holds acts => ?_) holds
  cases acts
  have covered := covers base holds
  have halted : Halted base { base with channel := .idle } := ⟨rfl, rfl⟩
  have stopped : Inert I (Halted base) := Halted.inert covered
  have cleared : Inert I (Sent base buffer 0 .idle) := Sent.inert covered (Nat.zero_le length) trivial
  have from_base : ∀ result after, Ended base buffer length result after → ∃ base, P base ∧
    Ended base buffer length result after :=
    fun _ _ ended => ⟨base, holds, ended⟩
  refine Safe.mono (fun _ here => here) from_base ?_
  refine safe_plain lenient stopped.steady trivial (fun before _ after halted acts => ?_) halted
  cases acts
  have sent : Sent base buffer 0 .idle { before with writeTransferCounter := 0 } := by
    refine ⟨?_, rfl, halted.2⟩
    rw [List.range_zero, List.map_nil, List.append_nil]
    exact halted.1
  refine (waitForIdle_safe lenient cleared sent).andThen ?_
  rintro retval board ⟨sent, error⟩
  split_ifs with failed
  · exact (sent.ended failed).finish covered
  · refine safe_plain lenient cleared.steady trivial (fun before _ after sent acts => ?_) sent
    cases acts
    refine programDma_safe lenient covered fits
      ⟨⟨sent.values, sent.counter, sent.channel_eq⟩, fun i inside => ?_⟩
    exact if_pos inside

end

end FlukeCda.Gpib
