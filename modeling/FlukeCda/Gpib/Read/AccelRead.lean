import FlukeCda.Gpib.Read.DmaRead

namespace FlukeCda.Gpib.Read
open Interaction Program

/-- The bytes end with their only END. -/
def Ends (bytes : List Incoming) : Prop := ∃ first byte, bytes = first ++ [byte] ∧ Plain first ∧ byte.eoi = true

theorem Ends.not_plain {bytes : List Incoming} (ends : Ends bytes) : ¬ Plain bytes := by
  obtain ⟨first, byte, rfl, -, eoi⟩ := ends
  intro plain
  have contrary := plain byte (List.mem_append_right first (List.mem_singleton_self byte))
  rw [eoi] at contrary
  cases contrary

/-- What the call has got when it stops: without END it may go on, with END it is
over and done with. -/
structure Answers (stream before got : List Incoming) (ended : Bool) (board : Board) : Prop where
  plain : ended = false → Plain got ∧ AtRest stream before got board
  ends : ended = true → Ends got ∧ AtRest stream (before ++ got) [] board

section
variable {stream before done new got : List Incoming} {length : Nat} {board : Board} {ended : Bool}

theorem Answers.lasting (stream before got : List Incoming) (ended : Bool) :
    Lasting (Answers stream before got ended) := by
  have open_ := AtRest.lasting stream before got
  have closed := AtRest.lasting stream (before ++ got) []
  refine ⟨fun board after drifts answers => ⟨fun no => ?_, fun yes => ?_⟩, fun board after aside answers =>
    ⟨fun no => ?_, fun yes => ?_⟩⟩
  · exact ⟨(answers.plain no).1, open_.drift board after drifts (answers.plain no).2⟩
  · exact ⟨(answers.ends yes).1, closed.drift board after drifts (answers.ends yes).2⟩
  · exact ⟨(answers.plain no).1, open_.aside board after aside (answers.plain no).2⟩
  · exact ⟨(answers.ends yes).1, closed.aside board after aside (answers.ends yes).2⟩

theorem Answers.unlock (answers : Answers stream before got ended board) (inside : Inside .clear board) :
    Answers stream before got ended { board with locked := false } :=
  ⟨fun no => ⟨(answers.plain no).1, (answers.plain no).2.unlock inside⟩,
    fun yes => ⟨(answers.ends yes).1, (answers.ends yes).2.unlock inside⟩⟩

/-- A byte still on the chip comes after everything that was moved, and no END before it. -/
theorem Flows.plain_of_held {byte : Incoming} (flows : Flows stream before got board)
    (held : board.held = some byte) : Plain got := by
  have there : board.signals.held = some byte := held
  cases flows.course with
  | coming plain => exact plain
  | onChip plain => exact plain
  | moved last plain eoi gone =>
    rw [there] at gone
    cases gone
  | returned nothing gone =>
    rw [there] at gone
    cases gone

/-- With nothing left on the chip RECEIVED_END tells whether an END was moved. -/
theorem Flows.receivedEnd_cases (flows : Flows stream before got board) (inside : Inside .clear board)
    (swept : Swept board) (gone : board.held = none) :
    (board.flags .receivedEnd = false → Plain got) ∧ (board.flags .receivedEnd = true → Ends got) := by
  have unread : board.isr1.endRx = false := swept gone
  have unrecorded : board.latch.endRx = false := by
    rw [inside.latched]
    rfl
  have unset : board.signals.Silent → ∀ {P : Prop}, board.flags .receivedEnd = true → P := by
    intro silent P set
    have never : board.flags .receivedEnd = false := silent.receivedEnd
    rw [never] at set
    cases set
  cases flows.course with
  | coming plain held holdoff silent => exact ⟨fun _ => plain, fun set => unset silent set⟩
  | onChip plain held =>
    have there : board.signals.held = none := gone
    rw [there] at held
    cases held
  | @moved first byte last plain eoi held holdoff news =>
    refine ⟨fun clear => ?_, fun _ => ⟨first, byte, last, plain, eoi⟩⟩
    rcases news with told | untold
    · have set : board.flags .receivedEnd = true := told.receivedEnd
      rw [clear] at set
      cases set
    · have pending : board.isr1.endRx = !board.latch.endRx := untold.pending
      rw [unread, unrecorded] at pending
      cases pending
  | returned nothing held holdoff silent =>
    subst nothing
    exact ⟨fun _ => .nil, fun set => unset silent set⟩

/-- The END that was moved is the caller's. -/
theorem Flows.return_end (flows : Flows stream before got board) (ends : Ends got)
    (set : board.flags .receivedEnd = true) :
    Flows stream (before ++ got) [] (board.putFlag .receivedEnd false) := by
  refine ⟨?_, ?_, flows.hlde, flows.loaded, flows.free⟩
  · rw [List.append_nil]
    exact flows.order
  · cases flows.course with
    | coming plain => exact absurd plain ends.not_plain
    | onChip plain => exact absurd plain ends.not_plain
    | returned nothing =>
      subst nothing
      exact absurd .nil ends.not_plain
    | moved last plain eoi held holdoff news =>
      rcases news with told | untold
      · exact .returned rfl held holdoff ⟨by simp [Board.signals, Board.putFlag], told.isr1, told.latch⟩ told.rfdHoldoff
      · have clear : board.flags .receivedEnd = false := untold.receivedEnd
        rw [set] at clear
        cases clear

/-- Without RECEIVED_END there is nothing to be cleared. -/
theorem Flows.clear_end (flows : Flows stream before got board) (clear : board.flags .receivedEnd = false) :
    Flows stream before got (board.putFlag .receivedEnd false) := by
  refine flows.same ?_ rfl rfl rfl rfl flows.free
  simp [Board.signals, Board.putFlag, clear]

theorem ready_of_clear (clear : board.flags .receivedEnd = false) : Ready board := by
  intro byte held eoi set
  rw [clear] at set
  cases set

theorem readEnd_answers (held : Held stream before done new .clear board) (swept : Swept board) :
    Reads (fun ended board => Answers stream before (done ++ new) ended board ∧ Inside .clear board) readEnd board := by
  refine reads_perform swept_lasting (fun earlier dataIn after holds acts => ?_) ⟨held, swept⟩
  cases acts
  obtain ⟨⟨halts, inside⟩, swept⟩ := holds
  have answered : ∀ ended, Lasting fun board =>
      Answers stream before (done ++ new) ended board ∧ Inside .clear board :=
    fun ended => (Answers.lasting stream before (done ++ new) ended).and (Inside.lasting .clear)
  cases onChip : earlier.held with
  | some byte =>
    rw [if_pos Option.isSome_some]
    have plain := halts.rests.flows.plain_of_held onChip
    have holding := Held.lasting stream before done new .clear
    refine reads_perform holding (fun earlier _ after held acts => ?_) ⟨halts, inside⟩
    cases acts
    have shown : Held stream before done new .clear (earlier.putFlag .readReady true) := held.putFlag (by simp)
    obtain ⟨halts, inside⟩ := shown
    have ready : Ready (earlier.putFlag .readReady true) := fun _ _ _ _ => by simp [Board.putFlag]
    refine reads_done (answered false) (fun _ holds => holds) ⟨⟨fun _ => ⟨plain, halts.rests, ready⟩, ?_⟩, inside⟩
    intro yes
    cases yes
  | none =>
    rw [if_neg (by simp)]
    obtain ⟨unset, set⟩ := halts.rests.flows.receivedEnd_cases inside swept onChip
    let value := earlier.flags .receivedEnd
    have own : Flag.Own .receivedEnd := by simp [Flag.Own]
    have knowing : Lasting fun board => Held stream before done new .clear board ∧
        (Inside .clear board ∧ board.flags .receivedEnd = value) :=
      (Held.lasting stream before done new .clear).and (knows_lasting own .clear value)
    refine reads_perform knowing (fun earlier _ after holds acts => ?_) ⟨⟨halts, inside⟩, inside, rfl⟩
    cases acts
    obtain ⟨held, inside, known⟩ := holds
    have cleared : Held stream before done new .clear (earlier.putFlag .readReady false) := held.putFlag (by simp)
    refine reads_perform knowing (fun now ended after holds acts => ?_) ⟨cleared, cleared.2, known⟩
    cases acts
    obtain ⟨⟨halts, inside⟩, -, known⟩ := holds
    have without : Ready (now.putFlag .receivedEnd false) := ready_of_clear (by simp [Board.putFlag])
    refine reads_done (answered _) (fun _ holds => holds) ⟨⟨fun no => ?_, fun yes => ?_⟩, inside.locked, inside.serving,
      inside.latched⟩
    · exact ⟨unset (known.symm.trans no), ⟨halts.rests.flows.clear_end no, halts.rests.still⟩, without⟩
    · have ends := set (known.symm.trans yes)
      exact ⟨ends, ⟨halts.rests.flows.return_end ends yes, halts.rests.still⟩, without⟩

theorem settleEnd_answers (halts : Halts stream before done new board) (settled : Settled board) :
    Reads (Answers stream before (done ++ new)) settleEnd board := by
  refine reads_perform settled_lasting (fun earlier _ after holds acts => ?_) ⟨halts, settled⟩
  obtain ⟨halts, settled⟩ := holds
  cases acts with
  | spinLockIrqsave free =>
    refine (readEnd_answers (halts.lock free) settled.swept).andThen ?_
    rintro ended board ⟨answers, inside⟩
    have answered := (Answers.lasting stream before (done ++ new) ended).and (Inside.lasting .clear)
    refine reads_perform answered (fun earlier _ after holds acts => ?_) ⟨answers, inside⟩
    cases acts
    exact reads_done (Answers.lasting stream before (done ++ new) ended) (fun _ answers => answers)
      (holds.1.unlock holds.2)

/-- What a chunk adds to what the call has got. -/
def Adds (stream before done : List Incoming) (length : Nat) (outcome : Outcome) (board : Board) : Prop :=
  ∃ new, outcome.bytes = new.map Incoming.value ∧ new.length ≤ length ∧
    Answers stream before (done ++ new) outcome.ended board

theorem Halts.memory (halts : Halts stream before done new board) :
    (List.range new.length).map board.dmaBuffer = new.map Incoming.value := by
  have loaded := halts.rests.flows.loaded
  rw [halts.moved] at loaded
  exact loaded.symm

theorem transferDma_adds (rest : AtRest stream before done board) :
    Reads (Adds stream before done length) (transferDma length ⟨length⟩) board := by
  refine (startDmaRead_moving length rest).andThen fun _ board moving => ?_
  refine (reads_only moving_lasting waitRead_aside moving).andThen fun retval board moving => ?_
  refine (stopDmaRead_settles moving.1 moving.2).andThen ?_
  rintro bytesRead board ⟨new, rfl, bound, halted⟩
  refine reads_aside settled_lasting trivial (fun _ board halted => ?_) halted
  refine reads_perform settled_lasting (fun earlier bytes after halted acts => ?_) halted
  cases acts
  rw [halted.1.memory]
  refine (settleEnd_answers halted.1 halted.2).andThen fun ended board answers => ?_
  exact reads_done (Answers.lasting stream before (done ++ new) ended)
    (fun _ answers => ⟨new, rfl, bound, answers⟩) answers

/-- Nothing was added. -/
theorem adds_nothing {retval : Int} (plain : Plain done) (rest : AtRest stream before done board) :
    Reads (Adds stream before done length) (pure ⟨retval, [], false⟩) board := by
  refine reads_done (AtRest.lasting stream before done) (fun board rest => ?_) rest
  refine ⟨[], rfl, Nat.zero_le length, ?_⟩
  rw [List.append_nil]
  refine ⟨fun _ => ⟨plain, rest⟩, fun yes => ?_⟩
  cases yes

theorem programDma_adds (plain : Plain done) (rest : AtRest stream before done board) :
    Reads (Adds stream before done length) (programDma length) board := by
  have resting := AtRest.lasting stream before done
  have abandons : ∀ {retval board}, AtRest stream before done board →
      Reads (Adds stream before done length) (abandonDmaRead length retval) board :=
    fun rest => reads_aside resting trivial (fun _ _ rest => adds_nothing plain rest) rest
  refine reads_aside resting trivial (fun _ board rest => ?_) rest
  refine reads_aside resting trivial (fun retval board rest => ?_) rest
  by_cases failed : retval ≠ 0
  · rw [if_pos failed]
    exact abandons rest
  · rw [if_neg failed]
    refine reads_perform resting (fun earlier desc after rest acts => ?_) rest
    cases acts with
    | prepared => exact transferDma_adds rest
    | unprepared => exact abandons rest

theorem flukeDmaRead_adds (length : Nat) (plain : Plain done) (rest : AtRest stream before done board) :
    Reads (Adds stream before done length) (flukeDmaRead length) board := by
  unfold flukeDmaRead
  by_cases nothing : length = 0
  · rw [if_pos nothing]
    exact adds_nothing plain rest
  rw [if_neg nothing]
  have resting := AtRest.lasting stream before done
  refine (reads_only resting (waitForIdle_aside false true) rest).andThen fun retval board rest => ?_
  by_cases failed : retval < 0
  · rw [if_pos failed]
    exact adds_nothing plain rest
  · rw [if_neg failed]
    exact programDma_adds plain rest

theorem transferSize_le (dmaBufferSize remain : Nat) : transferSize dmaBufferSize remain ≤ remain := by
  unfold transferSize
  split_ifs <;> omega

/-- The induction is on the rounds; `done` is what the call has got before. -/
theorem readChunks_adds {dmaBufferSize rounds remain : Nat} {sofar : Outcome}
    (bytes : sofar.bytes = done.map Incoming.value) (bound : done.length + remain ≤ length)
    (unended : sofar.ended = false) (plain : Plain done) (rest : AtRest stream before done board) :
    Reads (Adds stream before [] length) (readChunks dmaBufferSize rounds remain sofar) board := by
  induction rounds generalizing done remain sofar board with
  | zero => exact safe_never Empty.elim (AtRest.lasting stream before done).steady (fun _ _ => trivial) rest
  | succ rounds ih =>
    unfold readChunks
    by_cases more : remain > 0
    · rw [if_pos more]
      refine (flukeDmaRead_adds (transferSize dmaBufferSize remain) plain rest).andThen ?_
      rintro chunk board ⟨new, added, within, answers⟩
      have small := transferSize_le dmaBufferSize remain
      have all : (sofar.followed chunk).bytes = (done ++ new).map Incoming.value := by
        rw [List.map_append, ← bytes, ← added]
        rfl
      have total : (done ++ new).length ≤ length := by
        rw [List.length_append]
        omega
      have stops : Reads (Adds stream before [] length) (pure (sofar.followed chunk)) board :=
        reads_done (Answers.lasting stream before (done ++ new) chunk.ended)
          (fun _ answers => ⟨done ++ new, all, total, answers⟩) answers
      by_cases ended : chunk.ended = true
      · rw [if_pos ended]
        exact stops
      rw [if_neg ended]
      by_cases failed : chunk.retval < 0
      · rw [if_pos failed]
        exact stops
      · rw [if_neg failed]
        obtain ⟨plain, rest⟩ := answers.plain (Bool.eq_false_iff.mpr ended)
        refine ih all ?_ (Bool.eq_false_iff.mpr ended) plain rest
        rw [List.length_append, added, List.length_map]
        omega
    · rw [if_neg more]
      refine reads_done (AtRest.lasting stream before done) (fun board rest => ?_) rest
      refine ⟨done, bytes, by omega, fun _ => ⟨plain, rest⟩, fun yes => ?_⟩
      rw [unended] at yes
      cases yes

theorem own_update {flags flags' : Flag → Bool} (own : ∀ flag, Flag.Own flag → flags flag = flags' flag) (flag : Flag)
    (value : Bool) (other : Flag) (owns : other.Own) :
    Function.update flags flag value other = Function.update flags' flag value other := by
  by_cases same : other = flag
  · subst same
    rw [Function.update_self, Function.update_self]
  · rw [Function.update_of_ne same, Function.update_of_ne same, own other owns]

/-- Under the lock a flag may as well be changed earlier. -/
theorem Inside.drift_putFlag {after : Board} {latch : Isr1} {flag : Flag} {value : Bool} (inside : Inside latch board)
    (drifts : Drift board after) : Drift (board.putFlag flag value) (after.putFlag flag value) := by
  cases drifts with
  | receive empty open_ coming => exact .receive empty open_ coming
  | take held running enabled room seen => exact .take held running enabled room seen
  | complete moved full => exact .complete moved full
  | interrupt free | callback free due =>
    rw [inside.locked] at free
    cases free
  | record serving | leave serving =>
    rw [inside.serving] at serving
    cases serving
  | flags own => exact .flags (own_update own flag value)

theorem aside_putFlag_of_aside {after : Board} {flag : Flag} {value : Bool} (aside : Aside board after) :
    Aside (board.putFlag flag value) (after.putFlag flag value) := by
  obtain ⟨flags, regBits, chipRegs, own, rfl⟩ := aside
  exact ⟨_, regBits, chipRegs, own_update own flag value, rfl⟩

/-- AUX_FH has been written, and RFD_HOLDOFF not yet cleared. -/
def Freed (stream before : List Incoming) (board : Board) : Prop :=
  AtRest stream before [] (board.putFlag .rfdHoldoff false) ∧ Inside .clear board

theorem Freed.lasting (stream before : List Incoming) : Lasting (Freed stream before) := by
  have lasting := AtRest.lasting stream before []
  refine ⟨fun board after drifts ⟨rest, inside⟩ => ?_, fun board after aside ⟨rest, inside⟩ => ?_⟩
  · exact ⟨lasting.drift _ _ (inside.drift_putFlag drifts) rest, (inside.drift drifts).1⟩
  · exact ⟨lasting.aside _ _ (aside_putFlag_of_aside aside) rest, inside.aside aside⟩

/-- With RFD_HOLDOFF and without READ_READY the last END has gone to the caller. -/
theorem AtRest.free (rest : AtRest stream before [] board) (rfdHoldoff : board.flags .rfdHoldoff = true)
    (unready : board.flags .readReady = false) :
    AtRest stream before [] ({ board with holdoff := false }.putFlag .rfdHoldoff false) := by
  have flows := rest.rests.flows
  have course : Course [] ({ board with holdoff := false }.putFlag .rfdHoldoff false).signals := by
    cases flows.course with
    | coming plain held holdoff silent free =>
      have clear : board.flags .rfdHoldoff = false := free
      rw [rfdHoldoff] at clear
      cases clear
    | @onChip byte plain held eoi holdoff news =>
      rcases news with told | untold
      · have ready := rest.ready byte held eoi told.receivedEnd
        rw [unready] at ready
        cases ready
      · have clear : board.flags .rfdHoldoff = false := untold.rfdHoldoff
        rw [rfdHoldoff] at clear
        cases clear
    | moved last => simp at last
    | returned nothing held holdoff silent =>
      refine .coming .nil (fun byte there => ?_) rfl ⟨silent.receivedEnd, silent.isr1, silent.latch⟩ ?_
      · have gone : board.held = some byte := there
        rw [show board.held = none from held] at gone
        cases gone
      · simp [Board.signals, Board.putFlag]
  exact ⟨⟨⟨flows.order, course, flows.hlde, flows.loaded, flows.free⟩, rest.rests.still⟩, rest.ready⟩

theorem finishHoldoff_rests (rest : AtRest stream before [] board) (inside : Inside .clear board)
    (rfdHoldoff : board.flags .rfdHoldoff = true) :
    Reads (fun _ board => AtRest stream before [] board ∧ Inside .clear board) finishHoldoff board := by
  have resting := AtRest.lasting stream before []
  have holding := resting.and (Inside.lasting .clear)
  have ownHoldoff : Flag.Own .rfdHoldoff := by simp [Flag.Own]
  have ownReady : Flag.Own .readReady := by simp [Flag.Own]
  have heldOff := resting.and (knows_lasting ownHoldoff .clear true)
  refine reads_perform heldOff (fun earlier ready after holds acts => ?_) ⟨rest, inside, rfdHoldoff⟩
  cases acts
  obtain ⟨rest, inside, rfdHoldoff⟩ := holds
  unfold onlyIf
  by_cases unready : earlier.flags .readReady = false
  · rw [if_pos unready]
    have unreadable := heldOff.and (knows_lasting ownReady .clear false)
    refine reads_perform unreadable (fun earlier _ after holds acts => ?_)
      ⟨⟨rest, inside, rfdHoldoff⟩, inside, unready⟩
    cases acts
    obtain ⟨⟨rest, inside, rfdHoldoff⟩, -, unready⟩ := holds
    have freed : Freed stream before { earlier with holdoff := false } :=
      ⟨rest.free rfdHoldoff unready, inside.locked, inside.serving, inside.latched⟩
    refine reads_perform (Freed.lasting stream before) (fun earlier _ after freed acts => ?_) freed
    cases acts
    obtain ⟨rest, inside⟩ := freed
    exact reads_done holding (fun _ holds => holds) ⟨rest, inside.locked, inside.serving, inside.latched⟩
  · rw [if_neg unready]
    exact reads_done holding (fun _ holds => holds) ⟨rest, inside⟩

theorem releaseRfdHoldoff_rests (rest : AtRest stream before [] board) :
    Reads (fun _ => AtRest stream before []) nec7210ReleaseRfdHoldoff board := by
  have resting := AtRest.lasting stream before []
  have holding := resting.and (Inside.lasting .clear)
  have leaves : ∀ {board}, AtRest stream before [] board ∧ Inside .clear board →
      Reads (fun _ => AtRest stream before []) spinUnlockIrqrestore board := by
    intro board holds
    refine reads_perform holding (fun earlier _ after holds acts => ?_) holds
    cases acts
    exact reads_done resting (fun _ rest => rest) (holds.1.unlock holds.2)
  refine reads_perform resting (fun earlier _ after rest acts => ?_) rest
  cases acts with
  | spinLockIrqsave free =>
    refine reads_perform holding (fun earlier holdoff after holds acts => ?_) (rest.lock free)
    cases acts
    obtain ⟨rest, inside⟩ := holds
    unfold onlyIf
    by_cases rfdHoldoff : earlier.flags .rfdHoldoff = true
    · rw [if_pos rfdHoldoff]
      exact (finishHoldoff_rests rest inside rfdHoldoff).andThen fun _ board holds => leaves holds
    · rw [if_neg rfdHoldoff]
      exact leaves ⟨rest, inside⟩

/-- A read gets bytes of one message, in order, whatever happens to it. -/
theorem flukeAccelRead_adds {dmaBufferSize rounds : Nat} (rest : AtRest stream before [] board) :
    Reads (Adds stream before [] length) (flukeAccelRead dmaBufferSize rounds length) board := by
  have other : ¬ Flag.Own .devClear := by simp [Flag.Own]
  refine reads_aside (AtRest.lasting stream before []) other (fun _ board rest => ?_) rest
  refine (releaseRfdHoldoff_rests rest).andThen fun _ board rest => ?_
  exact readChunks_adds rfl (by simp) rfl .nil rest

end

end FlukeCda.Gpib.Read
