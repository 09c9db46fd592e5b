import FlukeCda.Gpib.Core.WriteIoctl

/-! # What a write sends

The bytes the chip accepts are those of the caller's buffer, however they are cut.
-/

namespace FlukeCda.Gpib.Core
open Interaction Program
open Relation (ReflTransGen)

section
variable {first start board : Board} {data bytes : Nat → UInt8} {total length k n : Nat}

/-- A load that starts where the loads before it stopped. -/
theorem Between.wrote (between : Between first data k start) (same : ∀ i, i < length → bytes i = data (k + i))
    (bound : n ≤ length) (wrote : Wrote start bytes n board) : Wrote first data (k + n) board := by
  obtain ⟨⟨stale, leftOver, sofar⟩, free⟩ := between
  obtain ⟨more, nothing, values⟩ := wrote
  have part : (List.range n).map bytes = (List.range n).map fun i => data (k + i) :=
    List.map_congr_left fun i member => same i (Nat.lt_of_lt_of_le (List.mem_range.mp member) bound)
  have split : (List.range (k + n)).map data = (List.range k).map data ++
      (List.range n).map fun i => data (k + i) := by
    rw [List.range_add, List.map_append, List.map_map]
    rfl
  rw [part] at values
  rcases free with idle | ⟨rfl, busy⟩
  · refine ⟨stale, leftOver, ?_⟩
    rw [values, nothing idle, sofar, split]
    simp only [List.append_nil, List.append_assoc]
  · refine ⟨stale ++ more, fun idle => absurd idle busy, ?_⟩
    rw [values, sofar, split]
    simp only [List.range_zero, List.map_nil, List.append_nil, List.nil_append, List.append_assoc]

theorem Between.next (between : Between first data k start) (same : ∀ i, i < length → bytes i = data (k + i))
    (bound : n ≤ length) (later : Between start bytes n board) : Between first data (k + n) board := by
  refine ⟨Between.wrote between same bound later.1, ?_⟩
  rcases later.2 with idle | ⟨rfl, busy⟩
  · exact .inl idle
  · rcases between.2 with idle | ⟨rfl, busy'⟩
    · exact absurd idle busy
    · exact .inr ⟨rfl, busy'⟩

end

/-- At every moment the chip has accepted a first part of what the caller sends. -/
def Sends (start io : Io Board) : Prop := Exact start.board (sent start) (asked start) io.board

/-- END is armed when the last byte of all remains, and if the caller wants it. -/
def MaySend (start : Io Board) : IoOp Gpib.Op → Io Board → Prop
  | .outOfRounds, _ => False
  | .driver op, io => Permitted start.board (sent start) (asked start) start.cmd.ended op io.board
  | _, _ => True

/-- With no load under way: `k` bytes are sent, and of its command the caller knows so much. -/
structure Sending (start : Io Board) (known : ReadWriteIoctl → Prop) (k : Nat) (io : Io Board) : Prop where
  between : Between start.board (sent start) k io.board
  user : io.user = start.user
  cmd : known io.cmd

section
variable {start io : Io Board} {k : Nat} {known : ReadWriteIoctl → Prop}

abbrev Writes {α : Type} (start : Io Board) (Q : α → Io Board → Prop) : WriteCode α → Io Board → Prop :=
  Safe (IoAct writeBelow) (IoDrift writeBelow) (MaySend start) (Sends start) Q

theorem sameBytes_interrupt (board : Board) (flags : Flag → Bool) : SameBytes board { board with flags } :=
  ⟨rfl, rfl, rfl, rfl⟩

theorem interrupted_timo (board : Board) : Interrupted board.flags (board.putFlag .timo true).flags := by
  refine ⟨fun flag _ set => ?_, fun flag own => ?_⟩
  · by_cases timo : flag = .timo
    · simp [Board.putFlag, timo]
    · simp [Board.putFlag, timo, set]
  · rcases own with rfl | rfl <;> simp [Board.putFlag]

theorem Sending.steady (bound : k ≤ asked start) :
    Steady (IoDrift writeBelow) (Sends start) (Sending start known k) := by
  refine ⟨?_, fun io sending => ⟨k, bound, sending.between.1⟩⟩
  intro io after drifts sending
  cases drifts with
  | board drifts => exact ⟨sending.between.drift drifts, sending.user, sending.cmd⟩
  | watchdogTimeout => exact ⟨sending.between.same (sameBytes_interrupt _ _), sending.user, sending.cmd⟩
  | settings => exact ⟨sending.between, sending.user, sending.cmd⟩

theorem Sending.aside {op : IoOp Gpib.Op} {answer : IoAnswer Gpib.Answer op} {after : Io Board}
    (sending : Sending start known k io) (aside : op.Aside) (acts : IoAct writeBelow op answer io after) :
    Sending start known k after := by
  obtain ⟨between, user, cmd⟩ := sending
  cases acts with
  | driver | copiedOut | faultOut | copiedTo | faultTo => exact aside.elim
  | ibgts stands =>
    obtain ⟨flags, -, rfl⟩ := stands
    exact ⟨between.same (sameBytes_interrupt _ _), user, cmd⟩
  | clearTimo => exact ⟨between.same (sameBytes_interrupt _ _), user, cmd⟩
  | copiedIn | faultIn | handleToDescriptor | accessOk | copiedFrom | faultFrom | boardBuffer | setIoInProgress
  | testMaster | timerPending | usecTimeout | testTimo | addTimer | delTimerSync | wakeUpInterruptible =>
    exact ⟨between, user, cmd⟩

theorem maySend_aside {op : IoOp Gpib.Op} (aside : op.Aside) (io : Io Board) : MaySend start op io := by
  cases op <;> first | exact aside.elim | exact trivial

theorem sending_only {α : Type} {p : WriteCode α} (only : OnlyPerforms IoOp.Aside p) (bound : k ≤ asked start)
    (sending : Sending start known k io) : Writes start (fun _ => Sending start known k) p io :=
  safe_only (Sending.steady bound) (fun _ io aside _ => maySend_aside aside io)
    (fun _ _ _ _ aside sending acts => sending.aside aside acts) only sending

theorem sending_perform {α : Type} {Q : α → Io Board → Prop} {op : IoOp Gpib.Op}
    {f : IoAnswer Gpib.Answer op → WriteCode α} (aside : op.Aside) (bound : k ≤ asked start)
    (rest : ∀ answer io, Sending start known k io → Writes start Q (f answer) io) (sending : Sending start known k io) :
    Writes start Q (perform op >>= f) io :=
  safe_perform (Sending.steady bound) (fun io _ => maySend_aside aside io)
    (fun _ answer after sending acts => rest answer after (sending.aside aside acts)) sending

/-- What the driver writes of a load it writes of the whole. -/
theorem driverWrite_sends {buffer : Nat → UInt8} {length : Nat} {sendEoi : Bool} (positive : 0 < length)
    (room : k + length ≤ asked start) (same : ∀ i, i < length → buffer i = sent start (k + i))
    (eoi : sendEoi = true → start.cmd.ended = true ∧ k + length = asked start) (sending : Sending start known k io) :
    Writes start (fun result after => Sending start known (k + result.2) after ∧ result.2 ≤ length ∧
        (¬ result.1 < 0 → result.1 = 0 ∧ result.2 = length))
      (fromDriver (flukeAccelWrite buffer length sendEoi 0)) io := by
  have between := sending.between
  have whole : Safe Act Drift (Permitted start.board (sent start) (asked start) start.cmd.ended)
      (Exact start.board (sent start) (asked start))
      (fun result after => Between start.board (sent start) (k + result.2) after ∧ result.2 ≤ length ∧
        (¬ result.1 < 0 → result.1 = 0 ∧ result.2 = length))
      (flukeAccelWrite buffer length sendEoi 0) io.board := by
    refine ((flukeAccelWrite_closes io.board buffer positive sendEoi).loosen ?_).mono ?_ ?_
    · intro op board permitted
      unfold Permitted at permitted ⊢
      split at permitted
      · exact permitted
      · exact permitted
      · obtain ⟨wanted, n, last, wrote⟩ := permitted
        obtain ⟨ended, all⟩ := eoi wanted
        exact ⟨ended, k + n, by omega, Between.wrote between same (by omega) wrote⟩
      · exact permitted
      · exact permitted
      · exact trivial
    · rintro board ⟨n, bound, wrote⟩
      exact ⟨k + n, by omega, Between.wrote between same bound wrote⟩
    · rintro result board ⟨later, bound, complete⟩
      exact ⟨Between.next between same bound later, bound, complete⟩
  have told : io.user = start.user ∧ known io.cmd := ⟨sending.user, sending.cmd⟩
  refine (Safe.embed (J := fun io => io.user = start.user ∧ known io.cmd) Io.board
    ?_ ?_ ?_ whole told : Safe _ _ (MaySend start) _ _ _ io).mono (fun _ here => here.1) ?_
  · rintro op answer before _ told - ⟨acts⟩
    exact ⟨acts, told⟩
  · rintro before after told drifts
    cases drifts with
    | board drifts => exact ⟨drifts, told⟩
    | watchdogTimeout => exact ⟨.interrupt (interrupted_timo before.board), told⟩
    | settings => exact ⟨.interrupt (quiet_interrupt before.board.flags), told⟩
  · exact fun _ _ _ permitted => permitted
  · rintro result after ⟨⟨between, bound, complete⟩, user, cmd⟩
    exact ⟨⟨between, user, cmd⟩, bound, complete⟩

/-- One load. -/
theorem ibwrt_sends {buffer : Nat → UInt8} {cnt : Nat} {sendEoi : Bool} (positive : 0 < cnt)
    (room : k + cnt ≤ asked start) (same : ∀ i, i < cnt → buffer i = sent start (k + i))
    (eoi : sendEoi = true → start.cmd.ended = true ∧ k + cnt = asked start) (sending : Sending start known k io) :
    Writes start (fun result after => Sending start known (k + result.2) after ∧ result.2 ≤ cnt ∧
      (¬ result.1 < 0 → result.2 = cnt)) (ibwrt buffer cnt sendEoi) io := by
  have stops : ∀ {io} {result : Int × Nat}, Sending start known (k + result.2) io → result.2 ≤ cnt →
    (¬ result.1 < 0 → result.2 = cnt) →
      Writes start (fun result after => Sending start known (k + result.2) after ∧ result.2 ≤ cnt ∧
        (¬ result.1 < 0 → result.2 = cnt)) (pure result) io := fun {io result} sending bound complete =>
    safe_done (Sending.steady (by omega)) (fun _ sending => ⟨sending, bound, complete⟩) sending
  unfold ibwrt
  rw [if_neg (by omega)]
  refine (sending_only standby_aside (by omega) sending).andThen fun retval io sending => ?_
  split_ifs with refused
  · exact stops sending (Nat.zero_le cnt) fun passed => absurd refused passed
  refine (sending_only osStartTimer_aside (by omega) sending).andThen fun _ io sending => ?_
  refine (driverWrite_sends positive room same eoi sending).andThen ?_
  rintro ⟨ret, bytesWritten⟩ io ⟨sending, bound, complete⟩
  have within : k + bytesWritten ≤ asked start := by omega
  refine sending_perform trivial within (fun timedOut io sending => ?_) sending
  refine (sending_only osRemoveTimer_aside within sending).andThen fun _ io sending => ?_
  refine stops sending bound fun passed => (complete ?_).2
  cases timedOut with
  | false => exact passed
  | true => exact absurd (show (- ETIMEDOUT : Int) < 0 by decide) passed

/-- What the loop leaves: what remains is what was not sent. -/
def Loaded (start : Io Board) (left : Left) (io : Io Board) : Prop :=
  left.remain ≤ asked start ∧ Sending start (· = start.cmd) (asked start - left.remain) io ∧
    (left.fault = false → left.remain = 0 ∨ left.retval < 0)

/-- A load that does not fail is sent whole, so that the rounds suffice. -/
theorem writeLoads_sends {rounds userbuf remain : Nat} {retval : Int} (enough : remain < rounds)
    (split : k + remain = asked start) (position : userbuf = start.cmd.completedTransferCount + k)
    (sending : Sending start (· = start.cmd) k io) :
    Writes start (Loaded start) (writeLoads start.cmd.ended rounds retval userbuf remain) io := by
  have stops : ∀ {k io} {left : Left}, k + left.remain = asked start → Sending start (· = start.cmd) k io →
      (left.fault = false → left.remain = 0 ∨ left.retval < 0) → Writes start (Loaded start) (pure left) io := by
    intro k io left split sending settled
    refine safe_done (Sending.steady (by omega)) (fun io sending => ⟨by omega, ?_, settled⟩) sending
    rwa [show asked start - left.remain = k by omega]
  induction rounds generalizing k retval userbuf remain io with
  | zero => omega
  | succ rounds ih =>
    unfold writeLoads
    by_cases more : remain > 0
    · rw [if_pos more]
      obtain ⟨positive, within, last⟩ := loadSize_bounds remain more
      have steady : Steady (IoDrift writeBelow) (Sends start) (Sending start (· = start.cmd) k) :=
        Sending.steady (by omega)
      refine safe_perform steady (fun io _ => trivial) (fun io copied after sending acts => ?_) sending
      cases acts with
      | faultFrom => exact stops split sending fun fine => absurd fine Bool.noConfusion
      | @copiedFrom _ _ _ bytes same =>
        have load : ∀ i, i < loadSize remain → bytes i = sent start (k + i) := by
          intro i inside
          rw [same i inside, sending.user, position, sent, Nat.add_assoc]
        refine (ibwrt_sends positive (by omega) load (fun wanted => ?_) sending).andThen ?_
        · simp only [Bool.and_eq_true, decide_eq_true_eq] at wanted
          exact ⟨wanted.2, by rw [last wanted.1]; exact split⟩
        rintro ⟨retval, bytesWritten⟩ io ⟨sending, bound, complete⟩
        simp only at sending bound complete
        by_cases failed : retval < 0
        · simp only [if_pos failed]
          exact stops (by simp only; omega) sending fun _ => .inr failed
        · simp only [if_neg failed]
          have whole := complete failed
          exact ih (by omega) (by omega) (by omega) sending
    · rw [if_neg more]
      exact stops split sending fun _ => .inl (by simp only; omega)

/-- What the caller is told: of the bytes that were sent, all where 0 is returned. -/
def Told (start : Io Board) (retval : Int) (io : Io Board) : Prop :=
  ∃ n, n ≤ asked start ∧ Wrote start.board (sent start) n io.board ∧ io.user = start.user ∧
    (retval ≠ - EFAULT →
      io.cmd = { start.cmd with completedTransferCount := start.cmd.completedTransferCount + n }) ∧
    (retval = 0 → n = asked start)

theorem Sending.told {retval : Int} (bound : k ≤ asked start) (sending : Sending start known k io)
    (knows : ∀ cmd, known cmd → retval ≠ - EFAULT →
      cmd = { start.cmd with completedTransferCount := start.cmd.completedTransferCount + k })
    (all : retval = 0 → k = asked start) : Writes start (Told start) (pure retval) io := by
  refine safe_done (Sending.steady bound) (fun io sending => ?_) sending
  exact ⟨k, bound, sending.between.1, sending.user, fun fine => knows io.cmd sending.cmd fine, all⟩

/-- The end of the call, with what is known of the command. -/
theorem leave_tells {retval : Int} (bound : k ≤ asked start) (sending : Sending start known k io)
    (knows : ∀ cmd, known cmd → retval ≠ - EFAULT →
      cmd = { start.cmd with completedTransferCount := start.cmd.completedTransferCount + k })
    (all : retval = 0 → k = asked start) :
    Writes start (Told start) (do
      perform (IoOp.setIoInProgress false)
      perform IoOp.wakeUpInterruptible
      pure retval) io := by
  refine sending_perform trivial bound (fun _ io sending => ?_) sending
  refine sending_perform trivial bound (fun _ io sending => ?_) sending
  exact sending.told bound knows all

theorem finishWrite_tells {left : Left} (valid : start.cmd.completedTransferCount ≤ start.cmd.requestedTransferCount)
    (loaded : Loaded start left io) : Writes start (Told start) (finishWrite start.cmd left) io := by
  obtain ⟨within, sending, settled⟩ := loaded
  have bound : asked start - left.remain ≤ asked start := Nat.sub_le _ _
  have faulted : (- EFAULT : Int) ≠ 0 := by decide
  unfold finishWrite
  cases fault : left.fault with
  | true =>
    exact leave_tells bound sending (fun _ _ fine => absurd rfl fine) fun none => absurd none faulted
  | false =>
    have completed : start.cmd.requestedTransferCount - left.remain =
        start.cmd.completedTransferCount + (asked start - left.remain) := by
      unfold asked at within ⊢
      omega
    rw [if_neg Bool.false_ne_true]
    refine safe_perform (Sending.steady bound) (fun io _ => trivial) (fun io copied after sending acts => ?_) sending
    cases acts with
    | @faultOut _ _ part =>
      have unknown : Sending start (fun _ => True) (asked start - left.remain) { io with cmd := part } :=
        ⟨sending.between, sending.user, trivial⟩
      exact leave_tells bound unknown (fun _ _ fine => absurd rfl fine) fun none => absurd none faulted
    | copiedOut =>
      let cmd := { start.cmd with completedTransferCount := start.cmd.requestedTransferCount - left.remain }
      have known : Sending start (· = cmd) (asked start - left.remain) { io with cmd } :=
        ⟨sending.between, sending.user, rfl⟩
      refine leave_tells bound known (fun _ same _ => by rw [same, ← completed]) fun zero => ?_
      rcases settled fault with none | failed
      · rw [none, Nat.sub_zero]
      · by_cases none : left.remain = 0
        · rw [none, Nat.sub_zero]
        · simp only [Bool.not_true, if_neg none] at zero
          omega

theorem writeIoctl_tells (start : Io Board) : Writes start (Told start) writeIoctl start := by
  have sending : Sending start (· = start.cmd) 0 start := ⟨.initial start.board (sent start), rfl, rfl⟩
  have nothing : 0 ≤ asked start := Nat.zero_le _
  have gives_up : ∀ {io} {retval : Int}, retval ≠ 0 → Sending start (· = start.cmd) 0 io →
      Writes start (Told start) (pure retval) io := fun {io retval} failed sending =>
    sending.told nothing (fun cmd same _ => same) fun zero => absurd zero failed
  unfold writeIoctl
  refine safe_perform (Sending.steady nothing) (fun io _ => trivial) (fun io copied after sending acts => ?_) sending
  cases acts with
  | faultIn => exact gives_up (by decide) sending
  | copiedIn =>
    rw [sending.cmd]
    change Writes start (Told start) (if _ then _ else _) io
    split_ifs with wrong
    · exact gives_up (by decide) sending
    refine sending_perform trivial nothing (fun found io sending => ?_) sending
    split_ifs with unfound
    · exact gives_up (by decide) sending
    refine sending_perform trivial nothing (fun fine io sending => ?_) sending
    split_ifs with outside
    · exact gives_up (by decide) sending
    refine sending_perform trivial nothing (fun _ io sending => ?_) sending
    refine (writeLoads_sends (Nat.lt_succ_self _) (Nat.zero_add _) rfl sending).andThen fun left io loaded => ?_
    exact finishWrite_tells (Nat.not_lt.mp wrong) loaded

/-- In every run of `write_ioctl`, whatever fails in it: at each moment the chip has
accepted a first part of what the caller sends, each byte once and in order, however
it is cut; END is armed only when the last byte of all remains, and if the caller
wants it; no round is lost, and at the end the caller is told how many bytes went out. -/
theorem writeIoctl_exact {start io : Io Board} {p : WriteCode Int}
    (run : ReflTransGen (Moves (IoAct writeBelow) (IoDrift writeBelow)) (writeIoctl, start) (p, io)) :
    Sends start io ∧ (∀ op next, p = .call op next → MaySend start op io) ∧
      ∀ retval, p = .done retval → Told start retval io := by
  have safe := (writeIoctl_tells start).reaches run
  refine ⟨safe.here, ?_, ?_⟩
  · rintro op next rfl
    exact safe.permitted
  · rintro retval rfl
    exact safe.finished

/-- A caller that sends the byte 0 without END. -/
def oneByte : Io Board := ⟨.attached, UInt8.ofNat, ⟨1, 0, false, 0⟩, false, 0, false, false⟩

theorem ibwrt_oneByte : ∃ board, ReflTransGen (Moves (IoAct writeBelow) (IoDrift writeBelow))
    (ibwrt UInt8.ofNat 1 false, { oneByte with ioInProgress := true })
    (.done (if board.flags .timo = true then - ETIMEDOUT else 0, 1), { oneByte with board, ioInProgress := true }) := by
  obtain ⟨board, below, -⟩ := attached_write_exact
  have started : Board.attached.putFlag .timo false = .attached := by
    simp [Board.putFlag, Board.attached]
  have driver : ReflTransGen (Moves (IoAct writeBelow) (IoDrift writeBelow))
      (fromDriver (flukeAccelWrite UInt8.ofNat 1 false 0), { oneByte with board := .attached, ioInProgress := true })
      (fromDriver (.done (0, 1)), { oneByte with board, ioInProgress := true }) :=
    fromDriver_run { oneByte with ioInProgress := true } below
  refine ⟨board, ?_⟩
  refine .head (.perform .testMaster) ?_
  refine .head (.perform .timerPending) ?_
  refine .head (.perform .clearTimo) ?_
  refine .head (.perform .usecTimeout) ?_
  rw [show writeBelow.putTimo oneByte.board false = .attached from started]
  refine (run_first driver).trans ?_
  refine .head (.perform .testTimo) ?_
  refine .head (.perform .timerPending) ?_
  exact .refl

theorem writeLoads_oneByte : ∃ board retval, ReflTransGen (Moves (IoAct writeBelow) (IoDrift writeBelow))
    (writeLoads false 2 0 0 1, { oneByte with ioInProgress := true })
    (.done ⟨retval, 0, false⟩, { oneByte with board, ioInProgress := true }) := by
  obtain ⟨board, load⟩ := ibwrt_oneByte
  have same : ∀ i, i < 1 → UInt8.ofNat i = oneByte.user (0 + i) := fun i _ => by rw [Nat.zero_add]; rfl
  refine ⟨board, if board.flags .timo = true then - ETIMEDOUT else 0, ?_⟩
  refine .head (.perform (IoAct.copiedFrom same)) ((run_first load).trans ?_)
  cases board.flags .timo with
  | true => exact .refl
  | false => exact .refl

/-- The byte goes out. -/
theorem writeIoctl_exact_oneByte :
    ∃ io, ReflTransGen (Moves (IoAct writeBelow) (IoDrift writeBelow)) (writeIoctl, oneByte) (.done 0, io) ∧
      Told oneByte 0 io := by
  obtain ⟨board, retval, loads⟩ := writeLoads_oneByte
  have rest : ∃ io, ReflTransGen (Moves (IoAct writeBelow) (IoDrift writeBelow))
      (writeLoads false 2 0 0 1 >>= finishWrite oneByte.cmd, { oneByte with ioInProgress := true }) (.done 0, io) := by
    apply Exists.intro
    refine (run_first loads).trans ?_
    refine .head (.perform .copiedOut) ?_
    refine .head (.perform .setIoInProgress) ?_
    exact .head (.perform .wakeUpInterruptible) .refl
  obtain ⟨io, rest⟩ := rest
  have run : ReflTransGen (Moves (IoAct writeBelow) (IoDrift writeBelow)) (writeIoctl, oneByte) (.done 0, io) := by
    refine .head (.perform .copiedIn) ?_
    refine .head (.perform (IoAct.handleToDescriptor : IoAct writeBelow _ true _ _)) ?_
    refine .head (.perform (IoAct.accessOk : IoAct writeBelow _ true _ _)) ?_
    exact .head (.perform .setIoInProgress) rest
  exact ⟨io, run, (writeIoctl_exact run).2.2 0 rfl⟩

end
end FlukeCda.Gpib.Core
