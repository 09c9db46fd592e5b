import FlukeCda.Gpib.Core.ReadIoctl
import FlukeCda.Interaction.Session

/-! # What a read receives

The bytes that the chip gives up are in the caller's buffers, in order, unless a
copy to them failed.
-/

namespace FlukeCda.Gpib.Core
open Interaction Program
open Gpib.Read (Incoming Outcome Plain Ends AtRest Answers Adds flukeAccelRead readChunks)
open Relation (ReflTransGen)

/-- Whether bytes end with END, and nowhere else. -/
structure Message (ended : Bool) (bytes : List Incoming) : Prop where
  plain : ended = false → Plain bytes
  ends : ended = true → Ends bytes

section
variable {done new bytes : List Incoming} {ended : Bool}

theorem Plain.append (plain : Plain done) (more : Plain new) : Plain (done ++ new) := by
  intro byte member
  rcases List.mem_append.mp member with first | second
  · exact plain byte first
  · exact more byte second

theorem Message.append (plain : Plain done) (message : Message ended new) : Message ended (done ++ new) := by
  constructor
  · intro unended
    exact Plain.append plain (message.plain unended)
  · intro finished
    obtain ⟨first, byte, rfl, before, eoi⟩ := message.ends finished
    exact ⟨done ++ first, byte, (List.append_assoc _ _ _).symm, Plain.append plain before, eoi⟩

theorem Message.nothing : Message false [] := ⟨fun _ => .nil, fun finished => absurd finished Bool.false_ne_true⟩

theorem Message.oneMessage (message : Message ended bytes) : Plain bytes.dropLast := by
  cases ended with
  | false => exact (message.plain rfl).dropLast
  | true =>
    obtain ⟨first, byte, rfl, plain, -⟩ := message.ends rfl
    rw [List.dropLast_concat]
    exact plain

theorem Message.ended_iff (message : Message ended bytes) : ended = true ↔ Ends bytes := by
  cases ended with
  | false =>
    exact ⟨fun finished => absurd finished Bool.false_ne_true, fun ends => absurd (message.plain rfl) ends.not_plain⟩
  | true => exact ⟨fun _ => message.ends rfl, fun _ => rfl⟩

end

/-- Of the stream the chip has given up a first part, and so much is known of the caller. -/
structure Given (stream given : List Incoming) (knows : (Nat → UInt8) → ReadWriteIoctl → Prop) (io : Io Read.Board) :
    Prop where
  rest : AtRest stream given [] io.board
  caller : knows io.user io.cmd

/-- What is read of the stream after `before`. -/
def Gives (stream before : List Incoming) (knows : (Nat → UInt8) → ReadWriteIoctl → Prop) (length : Nat)
    (outcome : Outcome) (io : Io Read.Board) : Prop :=
  ∃ new, outcome.bytes = new.map Incoming.value ∧ new.length ≤ length ∧ Message outcome.ended new ∧
    Given stream (before ++ new) knows io

/-- A read without an error is not short, but for END. -/
def Whole (length : Nat) (outcome : Outcome) : Prop :=
  outcome.ended = true ∨ outcome.retval < 0 ∨ length ≤ outcome.bytes.length

abbrev Receives {α : Type} (Q : α → Io Read.Board → Prop) : ReadCode α → Io Read.Board → Prop :=
  Safe (IoAct readBelow) (IoDrift readBelow) anything (fun _ => True) Q

section
variable {stream before given done : List Incoming} {knows : (Nat → UInt8) → ReadWriteIoctl → Prop} {io : Io Read.Board}
  {dmaBufferSize rounds length again : Nat} {sofar : Outcome}

theorem own_timo (board : Read.Board) (value : Bool) (flag : Read.Flag) (own : flag.Own) :
    (board.putFlag .timo value).flags flag = board.flags flag := by
  rcases own with rfl | rfl | rfl | rfl <;> simp [Read.Board.putFlag]

theorem aside_timo (board : Read.Board) (value : Bool) : Read.Aside board (board.putFlag .timo value) :=
  Read.aside_flags (own_timo board value)

theorem Given.steady : Steady (IoDrift readBelow) (fun _ => True) (Given stream given knows) := by
  have lasting := AtRest.lasting stream given []
  refine ⟨?_, fun _ _ => trivial⟩
  intro io after drifts ⟨rest, caller⟩
  cases drifts with
  | board drifts => exact ⟨lasting.drift _ _ drifts rest, caller⟩
  | watchdogTimeout => exact ⟨lasting.aside _ _ (aside_timo io.board true) rest, caller⟩
  | settings => exact ⟨rest, caller⟩

theorem Given.aside {op : IoOp Read.Op} {answer : IoAnswer Read.Answer op} {after : Io Read.Board}
    (here : Given stream given knows io) (aside : op.Aside) (acts : IoAct readBelow op answer io after) :
    Given stream given knows after := by
  have lasting := AtRest.lasting stream given []
  obtain ⟨rest, caller⟩ := here
  cases acts with
  | driver | copiedOut | faultOut | copiedTo | faultTo => exact aside.elim
  | ibgts stands =>
    obtain ⟨flags, own, rfl⟩ := stands
    exact ⟨lasting.aside _ _ (Read.aside_flags own) rest, caller⟩
  | clearTimo => exact ⟨lasting.aside _ _ (aside_timo io.board false) rest, caller⟩
  | copiedIn | faultIn | handleToDescriptor | accessOk | copiedFrom | faultFrom | boardBuffer | setIoInProgress
  | testMaster | timerPending | usecTimeout | testTimo | addTimer | delTimerSync | wakeUpInterruptible =>
    exact ⟨rest, caller⟩

theorem given_only {α : Type} {p : ReadCode α} (only : OnlyPerforms IoOp.Aside p) (here : Given stream given knows io) :
    Receives (fun _ => Given stream given knows) p io :=
  safe_only Given.steady (fun _ _ _ _ => trivial) (fun _ _ _ _ aside here acts => here.aside aside acts) only here

theorem given_perform {α : Type} {Q : α → Io Read.Board → Prop} {op : IoOp Read.Op}
    {f : IoAnswer Read.Answer op → ReadCode α} (aside : op.Aside)
    (rest : ∀ answer io, Given stream given knows io → Receives Q (f answer) io) (here : Given stream given knows io) :
    Receives Q (perform op >>= f) io :=
  safe_perform Given.steady (fun _ _ => trivial)
    (fun _ answer after here acts => rest answer after (here.aside aside acts)) here

/-- A read of the driver. -/
theorem driverRead_gives (here : Given stream before knows io) :
    Receives (Gives stream before knows length) (fromDriver (flukeAccelRead dmaBufferSize rounds length)) io := by
  have reads : Read.Reads (Adds stream before [] length) (flukeAccelRead dmaBufferSize rounds length) io.board :=
    Read.flukeAccelRead_adds here.rest
  let J (io : Io Read.Board) : Prop := knows io.user io.cmd
  refine (Safe.embed (J := J) Io.board ?_ ?_ ?_ reads here.caller : Safe _ _ anything _ _ _ io).mono
    (fun _ _ => trivial) ?_
  · rintro op answer before _ caller - ⟨acts⟩
    exact ⟨acts, caller⟩
  · intro before after caller drifts
    cases drifts with
    | board drifts => exact ⟨drifts, caller⟩
    | watchdogTimeout => exact ⟨.flags (own_timo before.board true), caller⟩
    | settings => exact ⟨.flags fun _ _ => rfl, caller⟩
  · exact fun _ _ _ _ => trivial
  · rintro outcome after ⟨⟨new, bytes, bound, answers⟩, caller⟩
    rw [List.nil_append] at answers
    exact ⟨new, bytes, bound, ⟨fun unended => (answers.plain unended).1, fun finished => (answers.ends finished).1⟩,
      answers.delivered, caller⟩

theorem gives_nothing {retval : Int} (here : Given stream before knows io) :
    Receives (Gives stream before knows length) (pure ⟨retval, [], false⟩) io :=
  safe_done Given.steady (fun io here => ⟨[], rfl, Nat.zero_le length, .nothing, by rwa [List.append_nil]⟩) here

/-- The induction is on the rounds; `done` is what the call has got before. -/
theorem ibrdChunks_gives (bytes : sofar.bytes = done.map Incoming.value) (bound : done.length ≤ length)
    (plain : Plain done) (here : Given stream (before ++ done) knows io) :
    Receives (Gives stream before knows length) (ibrdChunks dmaBufferSize rounds length again sofar) io := by
  induction again generalizing done sofar io with
  | zero => exact safe_never Empty.elim Given.steady (fun _ _ => trivial) here
  | succ again ih =>
    unfold ibrdChunks
    refine (driverRead_gives here).andThen ?_
    rintro chunk io ⟨new, added, within, message, here⟩
    have all : (sofar.followed chunk).bytes = (done ++ new).map Incoming.value := by
      rw [List.map_append, ← bytes, ← added]
      rfl
    have total : (done ++ new).length ≤ length := by
      rw [bytes, List.length_map] at within
      rw [List.length_append]
      omega
    have both : Message chunk.ended (done ++ new) := Message.append plain message
    rw [List.append_assoc] at here
    change Receives _ (if _ then _ else _) io
    split_ifs with more
    · exact ih all total (both.plain more.2.2.2) here
    · exact safe_done Given.steady (fun io here => ⟨done ++ new, all, total, both, here⟩) here

theorem ibrd_gives (here : Given stream before knows io) :
    Receives (Gives stream before knows length) (ibrd dmaBufferSize rounds length) io := by
  unfold ibrd
  split_ifs with nothing
  · exact gives_nothing here
  refine (given_only standby_aside here).andThen fun retval io here => ?_
  split_ifs with refused
  · exact gives_nothing here
  refine (given_only osStartTimer_aside here).andThen fun _ io here => ?_
  have first : Given stream (before ++ []) knows io := by rwa [List.append_nil]
  refine (ibrdChunks_gives rfl (Nat.zero_le length) .nil first).andThen ?_
  rintro outcome io ⟨new, bytes, bound, message, here⟩
  refine (given_only osRemoveTimer_aside here).andThen fun _ io here => ?_
  exact safe_done Given.steady (fun io here => ⟨new, bytes, bound, message, here⟩) here

theorem readChunks_whole {remain : Nat} (enough : length ≤ sofar.bytes.length + remain) :
    Returns (Whole length) (readChunks dmaBufferSize rounds remain sofar) := by
  induction rounds generalizing remain sofar with
  | zero => exact fun never => never.elim
  | succ rounds ih =>
    unfold readChunks
    by_cases more : remain > 0
    · rw [if_pos more]
      refine (returns_any _).andThen fun chunk _ => ?_
      by_cases ended : chunk.ended = true
      · rw [if_pos ended]
        exact .inl ended
      rw [if_neg ended]
      by_cases failed : chunk.retval < 0
      · rw [if_pos failed]
        exact .inr (.inl failed)
      · rw [if_neg failed]
        apply ih
        change length ≤ (sofar.bytes ++ chunk.bytes).length + (remain - chunk.bytes.length)
        rw [List.length_append]
        omega
    · rw [if_neg more]
      exact .inr (.inr (by omega))

theorem flukeAccelRead_whole : Returns (Whole length) (flukeAccelRead dmaBufferSize rounds length) := by
  refine returns_perform fun _ => ?_
  refine (returns_any _).andThen fun _ _ => ?_
  exact readChunks_whole (Nat.le_add_left length 0)

theorem ibrdChunks_whole : Returns (Whole length) (ibrdChunks dmaBufferSize rounds length again sofar) := by
  induction again generalizing sofar with
  | zero => exact fun never => never.elim
  | succ again ih =>
    unfold ibrdChunks
    refine flukeAccelRead_whole.embed.andThen fun chunk whole => ?_
    change Returns _ (if _ then _ else _)
    split_ifs with more
    · exact ih
    · rcases whole with ended | failed | enough
      · exact .inl ended
      · exact .inr (.inl failed)
      · refine .inr (.inr ?_)
        change length ≤ (sofar.bytes ++ chunk.bytes).length
        rw [List.length_append]
        omega

theorem ibrd_whole : Returns (Whole length) (ibrd dmaBufferSize rounds length) := by
  unfold ibrd
  split_ifs with nothing
  · exact .inr (.inr nothing.le)
  refine (returns_any _).andThen fun retval _ => ?_
  split_ifs with refused
  · exact .inr (.inl refused)
  refine (returns_any _).andThen fun _ _ => ?_
  refine ibrdChunks_whole.andThen fun outcome whole => ?_
  exact (returns_any _).andThen fun _ _ => whole

end

/-- A call with its command and its buffer; its loops are watched for a number of rounds. -/
structure ReadIoctlCall where
  cmd : ReadWriteIoctl
  user : Nat → UInt8
  rounds : Nat

/-- What the caller finds after the call. -/
structure ReadReturn where
  retval : Int
  cmd : ReadWriteIoctl
  user : Nat → UInt8

def ReadIoctlCall.asked (made : ReadIoctlCall) : Nat :=
  made.cmd.requestedTransferCount - made.cmd.completedTransferCount

/-- The caller's buffer has what the call got, and is otherwise as it was: up to
there, or everywhere. -/
def InMemory (made : ReadIoctlCall) (got : List Incoming) (everywhere : Prop) (user : Nat → UInt8) : Prop :=
  ∀ i, i < made.cmd.completedTransferCount + got.length ∨ everywhere →
    user i = overwrite made.user made.cmd.completedTransferCount (got.map Incoming.value) i

/-- A call takes `got` and `lost` from the chip: no more than it was asked for, and
nothing after an END. `got` is in the caller's buffer, `lost` is not; nothing is
lost unless the call returns EFAULT. -/
structure Received (made : ReadIoctlCall) (out : ReadReturn) (got lost : List Incoming) : Prop where
  bound : (got ++ lost).length ≤ made.asked
  oneMessage : Plain (got ++ lost).dropLast
  memory : InMemory made got (out.retval ≠ - EFAULT) out.user
  lost : out.retval ≠ - EFAULT → lost = []
  told : out.retval ≠ - EFAULT → out.cmd =
    { made.cmd with completedTransferCount := made.cmd.completedTransferCount + got.length, ended := out.cmd.ended }
  ended : out.retval ≠ - EFAULT → (out.cmd.ended = true ↔ Ends got) ∨ out.retval = - EINVAL ∧ got = []
  complete : out.retval = 0 → got.length = made.asked ∨ Ends got

/-- What the loop of `read_ioctl` leaves. The load that could not be copied is lost. -/
structure Took (made : ReadIoctlCall) (stream before : List Incoming) (taken : Taken) (got lost : List Incoming)
    (io : Io Read.Board) : Prop where
  given : Given stream (before ++ (got ++ lost))
    (fun user cmd => InMemory made got (taken.fault = false) user ∧ cmd = made.cmd) io
  remain : got.length + taken.remain = made.asked
  bound : lost.length ≤ taken.remain
  message : Message taken.ended (got ++ lost)
  lost : taken.fault = false → lost = []
  settled : taken.fault = false → taken.remain = 0 ∨ taken.ended = true ∨ taken.readRet < 0

section
variable {made : ReadIoctlCall} {stream before got lost copied : List Incoming} {io : Io Read.Board}
  {dmaBufferSize rounds : Nat} {taken : Taken}

/-- Between two loads. -/
def Filled (made : ReadIoctlCall) (copied : List Incoming) (user : Nat → UInt8) (cmd : ReadWriteIoctl) : Prop :=
  user = overwrite made.user made.cmd.completedTransferCount (copied.map Incoming.value) ∧ cmd = made.cmd

theorem took_done {given : List Incoming} {knows : (Nat → UInt8) → ReadWriteIoctl → Prop}
    (here : Given stream given knows io)
    (took : ∀ io, Given stream given knows io → Took made stream before taken got lost io) :
    Receives (fun taken io => ∃ got lost, Took made stream before taken got lost io) (pure taken) io :=
  safe_done Given.steady (fun io here => ⟨got, lost, took io here⟩) here

theorem Given.filled_took {readRet : Int} {remain : Nat} {ended : Bool}
    (here : Given stream (before ++ copied) (Filled made copied) io) (split : copied.length + remain = made.asked)
    (message : Message ended copied) (settled : remain = 0 ∨ ended = true ∨ readRet < 0) :
    Took made stream before ⟨readRet, remain, ended, false⟩ copied [] io := by
  refine ⟨⟨?_, ?_⟩, split, Nat.zero_le remain, ?_, fun _ => rfl, fun _ => settled⟩
  · rw [List.append_nil]
    exact here.rest
  · exact ⟨fun i _ => congrFun here.caller.1 i, here.caller.2⟩
  · rwa [List.append_nil]

/-- The induction is on the rounds; `copied` is what the caller has got before. -/
theorem readLoads_took {again userbuf remain : Nat} {readRet : Int} {ended : Bool}
    (split : copied.length + remain = made.asked) (position : userbuf = made.cmd.completedTransferCount + copied.length)
    (message : Message ended copied) (here : Given stream (before ++ copied) (Filled made copied) io) :
    Receives (fun taken io => ∃ got lost, Took made stream before taken got lost io)
      (readLoads dmaBufferSize rounds again readRet userbuf remain ended) io := by
  induction again generalizing copied readRet userbuf remain ended io with
  | zero => exact safe_never Empty.elim Given.steady (fun _ _ => trivial) here
  | succ again ih =>
    unfold readLoads
    by_cases more : remain > 0 ∧ ended = false
    · rw [if_pos more]
      obtain ⟨positive, within, -⟩ := loadSize_bounds remain more.1
      refine ((ibrd_gives here).returning ibrd_whole).andThen ?_
      rintro load io ⟨⟨new, bytes, bound, after, here⟩, whole⟩
      have both : Message load.ended (copied ++ new) := Message.append (message.plain more.2) after
      have count : load.bytes.length = new.length := by rw [bytes, List.length_map]
      have total : (copied ++ new).length = copied.length + new.length := List.length_append
      rw [List.append_assoc] at here
      by_cases nothing : load.bytes.length = 0
      · rw [if_pos nothing]
        have empty : new = [] := List.eq_nil_of_length_eq_zero (count.symm.trans nothing)
        rw [empty, List.append_nil] at here both
        refine took_done here fun io here => here.filled_took split both ?_
        rcases whole with finished | failed | enough
        · exact .inr (.inl finished)
        · exact .inr (.inr failed)
        · omega
      rw [if_neg nothing]
      refine safe_perform Given.steady (fun _ _ => trivial) (fun io answer after here acts => ?_) here
      cases acts with
      | @faultTo _ _ _ user untouched =>
        obtain ⟨rest, memory, cmd⟩ := here
        have kept : InMemory made copied (true = false) user := by
          rintro i (inside | never)
          · rw [untouched i (by omega), memory]
          · cases never
        have faulted : Given stream (before ++ (copied ++ new))
            (fun user cmd => InMemory made copied (true = false) user ∧ cmd = made.cmd) { io with user } :=
          ⟨rest, kept, cmd⟩
        refine took_done faulted fun io here => ⟨here, split, ?_, both, fun fine => ?_, fun fine => ?_⟩
        · change new.length ≤ remain
          omega
        · cases fine
        · cases fine
      | copiedTo =>
        obtain ⟨rest, memory, cmd⟩ := here
        have filled : Given stream (before ++ (copied ++ new)) (Filled made (copied ++ new))
            { io with user := overwrite io.user userbuf load.bytes } := by
          refine ⟨rest, ?_, cmd⟩
          have place : userbuf = made.cmd.completedTransferCount + (copied.map Incoming.value).length := by
            rw [List.length_map]
            exact position
          rw [memory, bytes, place, overwrite_append, List.map_append]
        rw [if_neg (Ne.symm Bool.false_ne_true)]
        by_cases failed : load.retval < 0
        · rw [if_pos failed]
          exact took_done filled fun io here => here.filled_took (by omega) both (.inr (.inr failed))
        · rw [if_neg failed]
          exact ih (by omega) (by omega) both filled
    · rw [if_neg more]
      refine took_done here fun io here => here.filled_took split message ?_
      cases finished : ended with
      | true => exact .inr (.inl rfl)
      | false => exact .inl (by simpa [finished] using more)

/-- After a call: what it took from the chip is the next part of the stream. -/
def Follows (made : ReadIoctlCall) (stream before : List Incoming) (retval : Int) (io : Io Read.Board) : Prop :=
  ∃ got lost, AtRest stream (before ++ (got ++ lost)) [] io.board ∧ Received made ⟨retval, io.cmd, io.user⟩ got lost

theorem leave_follows {given : List Incoming} {retval : Int} {knows : (Nat → UInt8) → ReadWriteIoctl → Prop}
    (here : Given stream given knows io)
    (follows : ∀ io, Given stream given knows io → Follows made stream before retval io) :
    Receives (Follows made stream before) (do
      perform (IoOp.setIoInProgress false)
      perform IoOp.wakeUpInterruptible
      pure retval) io := by
  refine given_perform trivial (fun _ io here => ?_) here
  refine given_perform trivial (fun _ io here => ?_) here
  exact safe_done Given.steady follows here

theorem Took.lost_bound (took : Took made stream before taken got lost io) : (got ++ lost).length ≤ made.asked := by
  have remain := took.remain
  have bound := took.bound
  rw [List.length_append]
  omega

theorem finishRead_follows (valid : made.cmd.completedTransferCount ≤ made.cmd.requestedTransferCount)
    (took : Took made stream before taken got lost io) :
    Receives (Follows made stream before) (finishRead made.cmd taken) io := by
  have bound := took.lost_bound
  have oneMessage := took.message.oneMessage
  -- a call that returns EFAULT tells nothing
  have faulted : ∀ {everywhere : Prop} {io : Io Read.Board},
      Given stream (before ++ (got ++ lost)) (fun user _ => InMemory made got everywhere user) io →
      Follows made stream before (- EFAULT) io := by
    intro everywhere io here
    refine ⟨got, lost, here.rest, bound, oneMessage, fun i here' => ?_, ?_, ?_, ?_, fun zero => ?_⟩
    · rcases here' with inside | fine
      · exact here.caller i (.inl inside)
      · exact absurd rfl fine
    · exact fun fine => absurd rfl fine
    · exact fun fine => absurd rfl fine
    · exact fun fine => absurd rfl fine
    · cases zero
  unfold finishRead
  cases fault : taken.fault with
  | true =>
    have here : Given stream (before ++ (got ++ lost)) (fun user _ => InMemory made got (taken.fault = false) user) io :=
      ⟨took.given.rest, took.given.caller.1⟩
    exact leave_follows here fun io => faulted
  | false =>
    rw [if_neg Bool.false_ne_true]
    refine safe_perform Given.steady (fun _ _ => trivial) (fun io copied after here acts => ?_) took.given
    cases acts with
    | @faultOut _ _ part =>
      have untold : Given stream (before ++ (got ++ lost)) (fun user _ => InMemory made got (taken.fault = false) user)
          { io with cmd := part } := ⟨here.rest, here.caller.1⟩
      exact leave_follows untold fun io => faulted
    | copiedOut =>
      have nothing := took.lost fault
      have message := took.message
      have remain := took.remain
      have settled := took.settled fault
      subst nothing
      rw [List.append_nil] at message here oneMessage bound
      let completed := made.cmd.requestedTransferCount - taken.remain
      let cmd := { made.cmd with completedTransferCount := completed, ended := taken.ended }
      have told : Given stream (before ++ got) (fun user now => InMemory made got True user ∧ now = cmd)
          { io with cmd } := ⟨here.rest, fun i _ => here.caller.1 i (.inr fault), rfl⟩
      have counted : completed = made.cmd.completedTransferCount + got.length := by
        unfold ReadIoctlCall.asked at remain
        omega
      refine leave_follows told fun io here => ⟨got, [], ?_, ?_⟩
      · rw [List.append_nil]
        exact here.rest
      obtain ⟨-, memory, same⟩ := here
      refine ⟨?_, ?_, fun i _ => memory i (.inr trivial), fun _ => rfl, fun _ => ?_, fun _ => .inl ?_, fun zero => ?_⟩
      · rwa [List.append_nil]
      · rwa [List.append_nil]
      · simp only [same, cmd, counted]
      · simp only [same, cmd]
        exact message.ended_iff
      · rcases settled with none | finished | failed
        · exact .inl (by omega)
        · exact .inr (message.ends finished)
        · by_cases suppressed : taken.remain = 0 ∨ taken.ended = true
          · rcases suppressed with none | finished
            · exact .inl (by omega)
            · exact .inr (message.ends finished)
          · simp only [Bool.not_true, if_neg suppressed] at zero
            have contrary : taken.readRet = 0 := zero
            omega

theorem readIoctl_follows (here : Given stream before (Filled made []) io) :
    Receives (Follows made stream before) (readIoctl dmaBufferSize rounds) io := by
  have gives_up : ∀ {io} {retval : Int}, retval = - EFAULT ∨ retval = - EINVAL →
      Given stream before (Filled made []) io → Receives (Follows made stream before) (pure retval) io := by
    intro io retval failed here
    refine safe_done Given.steady (fun io here => ⟨[], [], ?_, ?_⟩) here
    · rw [List.append_nil, List.append_nil]
      exact here.rest
    obtain ⟨-, memory, cmd⟩ := here
    refine ⟨Nat.zero_le _, .nil, fun i _ => congrFun memory i, fun _ => rfl, fun _ => ?_, fun fine => ?_, fun zero => ?_⟩
    · exact cmd.trans (by rw [show io.cmd.ended = made.cmd.ended by rw [cmd]]; rfl)
    · exact .inr ⟨failed.resolve_left fine, rfl⟩
    · rcases failed with rfl | rfl <;> cases zero
  unfold readIoctl
  refine safe_perform Given.steady (fun _ _ => trivial) (fun io copied after here acts => ?_) here
  cases acts with
  | faultIn => exact gives_up (.inl rfl) here
  | copiedIn =>
    rw [here.caller.2]
    change Receives (Follows made stream before) (if _ then _ else _) io
    split_ifs with wrong
    · exact gives_up (.inr rfl) here
    refine given_perform trivial (fun found io here => ?_) here
    split_ifs with unfound
    · exact gives_up (.inr rfl) here
    refine given_perform trivial (fun fine io here => ?_) here
    split_ifs with outside
    · exact gives_up (.inl rfl) here
    refine given_perform trivial (fun _ io here => ?_) here
    have first : Given stream (before ++ []) (Filled made []) io := by rwa [List.append_nil]
    refine (readLoads_took (Nat.zero_add _) rfl .nothing first).andThen fun taken io took => ?_
    obtain ⟨got, lost, took⟩ := took
    exact finishRead_follows (Nat.not_lt.mp wrong) took

end

/-- The board and its caller, with what the caller asked for and found. -/
structure Reader where
  io : Io Read.Board
  history : List (ReadIoctlCall × ReadReturn)

def readIoctlService (dmaBufferSize : Nat) : Service ReadIoctlCall (IoOp Read.Op) (IoAnswer Read.Answer) Int Reader where
  code := fun made => readIoctl dmaBufferSize made.rounds
  begins := fun made reader after => after = { reader with io := { reader.io with cmd := made.cmd, user := made.user } }
  ends := fun made retval reader after =>
    after = { reader with history := reader.history ++ [(made, ⟨retval, reader.io.cmd, reader.io.user⟩)] }
  act := fun _ op answer reader after => ∃ io, IoAct readBelow op answer reader.io io ∧ after = { reader with io }
  drift := fun reader after => ∃ io, IoDrift readBelow reader.io io ∧ after = { reader with io }

/-- What the calls took from the chip, one after the other. -/
def allTaken (pieces : List (List Incoming × List Incoming)) : List Incoming :=
  pieces.flatMap fun piece => piece.1 ++ piece.2

/-- Each call received its piece. -/
def AllReceived (history : List (ReadIoctlCall × ReadReturn)) (pieces : List (List Incoming × List Incoming)) : Prop :=
  List.Forall₂ (fun call piece => Received call.1 call.2 piece.1 piece.2) history pieces

/-- What the caller finds in its buffer where it told the call to go on. -/
def found (call : ReadIoctlCall × ReadReturn) : List UInt8 :=
  (List.range (call.2.cmd.completedTransferCount - call.1.cmd.completedTransferCount)).map fun i =>
    call.2.user (call.1.cmd.completedTransferCount + i)

section
variable {dmaBufferSize : Nat} {stream got lost : List Incoming} {pieces : List (List Incoming × List Incoming)}
  {history : List (ReadIoctlCall × ReadReturn)} {reader : Reader}

theorem Received.found {call : ReadIoctlCall × ReadReturn} (received : Received call.1 call.2 got lost)
    (fine : call.2.retval ≠ - EFAULT) : found call = (got ++ lost).map Incoming.value := by
  have count : call.2.cmd.completedTransferCount - call.1.cmd.completedTransferCount = got.length := by
    rw [received.told fine]
    exact Nat.add_sub_cancel_left _ _
  rw [received.lost fine, List.append_nil, Core.found, count]
  apply List.ext_getElem
  · rw [List.length_map, List.length_map, List.length_range]
  · intro i inside there
    rw [List.getElem_map, List.getElem_range, received.memory _ (.inr fine), overwrite, if_pos (Nat.le_add_right _ _),
      Nat.add_sub_cancel_left, List.getElem?_eq_getElem there]
    rfl

theorem AllReceived.found_prefix (all : AllReceived history pieces) (fine : ∀ call ∈ history, call.2.retval ≠ - EFAULT)
    (left : List Incoming) : history.flatMap found <+: (allTaken pieces ++ left).map Incoming.value := by
  have same : history.flatMap found = (allTaken pieces).map Incoming.value := by
    induction all with
    | nil => rfl
    | @cons call piece history pieces first _ ih =>
      have others := ih fun call member => fine call (List.mem_cons_of_mem _ member)
      rw [List.flatMap_cons, others, first.found (fine call List.mem_cons_self), ← List.map_append]
      rfl
  rw [same, List.map_append]
  exact List.prefix_append _ _

/-- Between two calls: what no call took is on the chip or still to come. -/
def Reader.Resting (stream : List Incoming) (reader : Reader) : Prop :=
  ∃ pieces, AllReceived reader.history pieces ∧ AtRest stream (allTaken pieces) [] reader.io.board

def Reader.Ok (stream : List Incoming) (reader : Reader) : Prop :=
  ∃ pieces left, AllReceived reader.history pieces ∧ stream = allTaken pieces ++ left

theorem AtRest.order {board : Read.Board} {given : List Incoming} (rest : AtRest stream given [] board) :
    stream = given ++ (board.held.toList ++ board.rest) := by
  have order := rest.rests.flows.order
  rwa [List.append_nil] at order

theorem Reader.Resting.steady (dmaBufferSize : Nat) (stream : List Incoming) :
    Steady (readIoctlService dmaBufferSize).drift (Reader.Ok stream) (Reader.Resting stream) := by
  constructor
  · rintro reader after ⟨io, drifts, rfl⟩ ⟨pieces, all, rest⟩
    have here : Given stream (allTaken pieces) (fun _ _ => True) reader.io := ⟨rest, trivial⟩
    exact ⟨pieces, all, (Given.steady.stable _ _ drifts here).rest⟩
  · rintro reader ⟨pieces, all, rest⟩
    exact ⟨pieces, _, all, AtRest.order rest⟩

theorem readIoctlService_sound (dmaBufferSize : Nat) (stream : List Incoming) :
    (readIoctlService dmaBufferSize).Sound (fun _ => anything) (Reader.Ok stream) (Reader.Resting stream) := by
  refine ⟨Reader.Resting.steady dmaBufferSize stream, ?_⟩
  rintro made reader _ ⟨pieces, all, rest⟩ rfl
  let begun : Io Read.Board := { reader.io with cmd := made.cmd, user := made.user }
  let static (now : Reader) : Prop := now.history = reader.history
  have kept : ∀ (now : Reader) io, static now → static { now with io } := fun _ _ same => same
  have filled : Filled made [] begun.user begun.cmd := ⟨(overwrite_nil _ _).symm, rfl⟩
  have initially : static { reader with io := begun } := rfl
  have reads : Receives (Follows made stream (allTaken pieces)) (readIoctl dmaBufferSize made.rounds) begun :=
    readIoctl_follows ⟨rest, filled⟩
  have safe := Safe.part Reader.io (fun now io => { now with io }) (fun _ _ => rfl) kept reads initially
  refine safe.mono ?_ ?_
  · rintro now ⟨-, same⟩
    have history : now.history = reader.history := same
    rw [Reader.Ok, history]
    exact ⟨pieces, _, all, AtRest.order rest⟩
  · rintro retval now ⟨⟨got, lost, rest, received⟩, same⟩ after rfl
    have history : now.history = reader.history := same
    refine ⟨pieces ++ [(got, lost)], ?_, ?_⟩
    · rw [AllReceived, history]
      exact List.rel_append all (.cons received .nil)
    · rw [allTaken, List.flatMap_append, List.flatMap_singleton]
      exact rest

theorem Reader.Resting.opened {io : Io Read.Board} (opened : io.board.Opened stream) :
    Reader.Resting stream ⟨io, []⟩ := by
  obtain ⟨pieces, framed, rest⟩ := opened.resting
  have nothing : pieces = [] := List.forall₂_nil_left_iff.mp framed
  subst nothing
  exact ⟨[], .nil, rest⟩

/-- Over every sequence of `read_ioctl`, of any commands and into any buffers,
interrupted and failing at any point: what the calls take from the chip are the next
bytes of the stream, of one message each. They are in the caller's buffer, and the
caller is told how many, unless it is told EFAULT; so without EFAULT the buffers
have the first bytes of the stream, and between calls the others are still there. -/
theorem readIoctl_streams {start : Io Read.Board} (opened : start.board.Opened stream)
    {later : Session ReadIoctlCall (IoOp Read.Op) (IoAnswer Read.Answer) Int Reader}
    (run : ReflTransGen (readIoctlService dmaBufferSize).Step ⟨⟨start, []⟩, none⟩ later) :
    (∃ pieces left, AllReceived later.state.history pieces ∧ stream = allTaken pieces ++ left ∧
        (later.running = none → left = later.state.io.board.held.toList ++ later.state.io.board.rest)) ∧
      ((∀ call ∈ later.state.history, call.2.retval ≠ - EFAULT) →
        later.state.history.flatMap found <+: stream.map Incoming.value) := by
  have sound := readIoctlService_sound dmaBufferSize stream
  have first : Session.Ok (readIoctlService dmaBufferSize) (fun _ => anything) (Reader.Ok stream) (Reader.Resting stream)
    ⟨⟨start, []⟩, none⟩ := Reader.Resting.opened opened
  have ok := first.run sound run
  obtain ⟨reader, running⟩ := later
  constructor
  · cases running with
    | none =>
      obtain ⟨pieces, all, rest⟩ := ok
      exact ⟨pieces, _, all, AtRest.order rest, fun _ => rfl⟩
    | some current =>
      obtain ⟨pieces, left, all, order⟩ := ok.here sound
      refine ⟨pieces, left, all, order, fun returned => ?_⟩
      cases returned
  · intro fine
    obtain ⟨pieces, left, all, rfl⟩ := ok.here sound
    exact all.found_prefix fine left

/-- The caller has room for two bytes after the first. -/
def twoBytes : ReadIoctlCall := ⟨⟨3, 1, false, 0⟩, fun _ => 0, 2⟩

def waiting : Io Read.Board := ⟨.coming, fun _ => 0, ⟨0, 0, false, 0⟩, false, 0, false, false⟩

/-- The message of one byte is in the caller's buffer, and the caller knows it. -/
theorem readIoctl_streams_message :
    ∃ later : Session ReadIoctlCall (IoOp Read.Op) (IoAnswer Read.Answer) Int Reader,
      ReflTransGen (readIoctlService 2047).Step ⟨⟨waiting, []⟩, none⟩ later ∧ later.state.history.flatMap found = [7] ∧
        ∃ pieces left, AllReceived later.state.history pieces ∧ [⟨7, true⟩] = allTaken pieces ++ left := by
  have begins : (readIoctlService 2047).begins twoBytes ⟨waiting, []⟩
      ⟨{ waiting with cmd := twoBytes.cmd, user := twoBytes.user }, []⟩ := rfl
  have run : ∃ later : Session ReadIoctlCall (IoOp Read.Op) (IoAnswer Read.Answer) Int Reader,
      ReflTransGen (readIoctlService 2047).Step ⟨⟨waiting, []⟩, none⟩ later ∧
        later.state.history.flatMap found = [7] := by
    refine ⟨?later, ?run, ?found⟩
    case run =>
      refine .head (.begin begins) ?_
      refine .head (.perform ⟨_, .copiedIn, rfl⟩) ?_
      refine .head (.perform ⟨_, (.handleToDescriptor : IoAct readBelow _ true _ _), rfl⟩) ?_
      refine .head (.perform ⟨_, (.accessOk : IoAct readBelow _ true _ _), rfl⟩) ?_
      refine .head (.perform ⟨_, .setIoInProgress, rfl⟩) ?_
      refine .head (.perform ⟨_, .testMaster, rfl⟩) ?_
      refine .head (.perform ⟨_, .timerPending, rfl⟩) ?_
      refine .head (.perform ⟨_, .clearTimo, rfl⟩) ?_
      refine .head (.perform ⟨_, .usecTimeout, rfl⟩) ?_
      refine .head (.perform ⟨_, .driver .clearBit, rfl⟩) ?_
      refine .head (.perform ⟨_, .driver (.spinLockIrqsave rfl), rfl⟩) ?_
      refine .head (.perform ⟨_, .driver .testBit, rfl⟩) ?_
      refine .head (.perform ⟨_, .driver .spinUnlockIrqrestore, rfl⟩) ?_
      refine .head (.perform ⟨_, .driver (.waited rfl), rfl⟩) ?_
      refine .head (.perform ⟨_, .driver .testBit, rfl⟩) ?_
      refine .head (.perform ⟨_, .driver .testAndClearBit, rfl⟩) ?_
      refine .head (.perform ⟨_, .driver .mapSingle, rfl⟩) ?_
      refine .head (.perform ⟨_, .driver (.slaveConfig (Int.le_refl 0)), rfl⟩) ?_
      refine .head (.perform ⟨_, .driver .prepared, rfl⟩) ?_
      refine .head (.perform ⟨_, .driver (.spinLockIrqsave rfl), rfl⟩) ?_
      refine .head (.perform ⟨_, .driver .setRegBits, rfl⟩) ?_
      refine .head (.perform ⟨_, .driver .setRegBits, rfl⟩) ?_
      refine .head (.perform ⟨_, .driver .submit, rfl⟩) ?_
      refine .head (.perform ⟨_, .driver (.issuePending rfl), rfl⟩) ?_
      refine .head (.perform ⟨_, .driver .setBit, rfl⟩) ?_
      refine .head (.perform ⟨_, .driver .clearBit, rfl⟩) ?_
      refine .head (.perform ⟨_, .driver .spinUnlockIrqrestore, rfl⟩) ?_
      refine .head (.drift ⟨_, .board (.receive rfl rfl rfl), rfl⟩) ?_
      refine .head (.drift ⟨_, .board (@Read.Drift.take _ _ false rfl rfl (by decide) (by decide) (by decide)), rfl⟩) ?_
      refine .head (.drift ⟨_, .board (.interrupt rfl), rfl⟩) ?_
      refine .head (.drift ⟨_, .board (.record rfl), rfl⟩) ?_
      refine .head (.drift ⟨_, .board (.leave rfl rfl), rfl⟩) ?_
      refine .head (.perform ⟨_, .driver (.waited rfl), rfl⟩) ?_
      refine .head (.perform ⟨_, .driver .testBit, rfl⟩) ?_
      refine .head (.perform ⟨_, .driver .testBit, rfl⟩) ?_
      refine .head (.perform ⟨_, .driver .setRegBits, rfl⟩) ?_
      refine .head (.perform ⟨_, .driver .udelay, rfl⟩) ?_
      refine .head (.perform ⟨_, .driver (.paused (Int.le_refl 0)), rfl⟩) ?_
      refine .head (.perform ⟨_, .driver .txStatus, rfl⟩) ?_
      refine .head (.perform ⟨_, .driver .terminateAll, rfl⟩) ?_
      refine .head (.perform ⟨_, .driver .testBit, rfl⟩) ?_
      refine .head (.perform ⟨_, .driver (.spinLockIrqsave rfl), rfl⟩) ?_
      refine .head (.perform ⟨_, .driver .setRegBits, rfl⟩) ?_
      refine .head (.perform ⟨_, .driver .wakeUpInterruptible, rfl⟩) ?_
      refine .head (.perform ⟨_, .driver .readIsr1, rfl⟩) ?_
      refine .head (.perform ⟨_, .driver .haveStatus, rfl⟩) ?_
      refine .head (.perform ⟨_, .driver .clearBit, rfl⟩) ?_
      refine .head (.perform ⟨_, .driver .clearBit, rfl⟩) ?_
      refine .head (.perform ⟨_, .driver .spinUnlockIrqrestore, rfl⟩) ?_
      refine .head (.perform ⟨_, .driver .unmapSingle, rfl⟩) ?_
      refine .head (.perform ⟨_, .driver .memcpy, rfl⟩) ?_
      refine .head (.perform ⟨_, .driver (.spinLockIrqsave rfl), rfl⟩) ?_
      refine .head (.perform ⟨_, .driver .readAdr0, rfl⟩) ?_
      refine .head (.perform ⟨_, .driver .clearBit, rfl⟩) ?_
      refine .head (.perform ⟨_, .driver .testAndClearBit, rfl⟩) ?_
      refine .head (.perform ⟨_, .driver .spinUnlockIrqrestore, rfl⟩) ?_
      refine .head (.perform ⟨_, .timerPending, rfl⟩) ?_
      refine .head (.perform ⟨_, .copiedTo, rfl⟩) ?_
      refine .head (.perform ⟨_, .copiedOut, rfl⟩) ?_
      refine .head (.perform ⟨_, .setIoInProgress, rfl⟩) ?_
      refine .head (.perform ⟨_, .wakeUpInterruptible, rfl⟩) ?_
      refine .head (.finish rfl) ?_
      exact .refl
    case found => rfl
  obtain ⟨later, run, received⟩ := run
  have opened : waiting.board.Opened [⟨7, true⟩] := ⟨rfl, rfl, rfl, rfl, rfl, by decide, rfl, rfl, rfl, rfl, rfl⟩
  obtain ⟨⟨pieces, left, all, order, -⟩, -⟩ := readIoctl_streams opened run
  exact ⟨later, run, received, pieces, left, all, order⟩

end
end FlukeCda.Gpib.Core
