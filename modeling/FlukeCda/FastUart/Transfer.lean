import FlukeCda.FastUart.Receive
import FlukeCda.FastUart.Level

/-! # The length of a receive transfer

A transfer is limited to all but one of the bytes in the FIFO, so that it never
has to be paused, whatever arrives while its length is worked out.
-/

namespace FlukeCda.FastUart
open Interaction Program Relation

/-- The port, with the number of bytes that were in the FIFO when the least
significant byte of its level was last read, and the length submitted so far. -/
structure Watched where
  dev : Device
  level : Nat
  submitted : Option Nat

def Watched.note (w : Watched) (dev : Device) : Op → Watched
  | .readFifoLsb => ⟨dev, w.dev.fifo.length, w.submitted⟩
  | .submit desc => ⟨dev, w.level, some desc.length⟩
  | _ => { w with dev }

def watchedAct (o : Outcomes) (op : Op) (answer : Answer op) (w after : Watched) : Prop :=
  (handle o op w.dev).1 = some answer ∧ after = w.note (handle o op w.dev).2 op

/-- Bytes arrive, and are moved by the DMA channel and by nobody else. -/
def watchedDrift (w after : Watched) : Prop := ∃ dev, drift w.dev dev ∧ after = { w with dev }

/-- A submitted transfer fits its buffer, and the FIFO holds more than the bytes it still has to move. -/
def Covered (start : Device) (w : Watched) : Prop :=
  ∀ length, w.submitted = some length → 1 ≤ length ∧ length ≤ start.rxSize ∧ w.dev.residue < w.dev.fifo.length

/-- When a transfer is submitted, and of what length. -/
structure Submits (o : Outcomes) (start : Device) (w : Watched) (length : Nat) : Prop where
  stopped : start.rxRunning = false
  prepared : o.prepared = true
  level : 1 < w.level
  length_eq : length = min (w.level - 1) start.rxSize
  positive : 1 ≤ length
  below : length ≤ w.dev.fifo.length - 1

def maySubmit (o : Outcomes) (start : Device) : Op → Watched → Prop
  | .submit desc, w => Submits o start w desc.length
  | _, _ => True

/-- The fields of the driver, as they were when the call began. -/
structure Untouched (start dev : Device) : Prop where
  running : dev.rxRunning = start.rxRunning
  ier : dev.ier = start.ier
  register : dev.ierRegister = start.ierRegister

/-- No transfer yet: the FIFO only fills. -/
structure Filling (start : Device) (w : Watched) : Prop where
  stopped : start.rxRunning = false
  idle : w.dev.engine = .idle
  size : w.dev.rxSize = start.rxSize
  fits : w.dev.fifo.length ≤ fnFastUartRxFifoSize
  none : w.submitted = none
  fields : Untouched start w.dev

def Watched.push (w : Watched) (byte : Received) : Watched :=
  { w with dev := { w.dev with fifo := w.dev.fifo ++ [byte], arrived := w.dev.arrived ++ [byte] } }

/-- While there is no transfer, whatever happens by itself is an arrival. -/
theorem idle_drift {w after : Watched} (idle : w.dev.engine = .idle) (drifts : watchedDrift w after) :
    w.dev.fifo.length < fnFastUartRxFifoSize ∧ ∃ byte, after = w.push byte := by
  obtain ⟨dev, moved, rfl⟩ := drifts
  rcases moved with ⟨value, arrived⟩ | moved
  · have room := arrived
    simp only [Device.arrive, Option.ite_none_right_eq_some] at room
    exact ⟨room.1, _, by rw [arrive_eq arrived]; rfl⟩
  · obtain ⟨length, byte, rest, moving, -⟩ := move_cases moved
    rw [idle] at moving
    cases moving

section
variable {o : Outcomes} {start : Device} {P : Watched → Prop} {α : Type} {Q : α → Watched → Prop}

/-- What arrivals keep is steady as long as there is no transfer. -/
theorem filling_steady (kept : ∀ w byte, P w → P (w.push byte)) :
    Steady watchedDrift (Covered start) fun w => Filling start w ∧ P w := by
  refine ⟨?_, fun w holds length submitted => ?_⟩
  · rintro w after drifts ⟨filling, holds⟩
    obtain ⟨room, byte, rfl⟩ := idle_drift filling.idle drifts
    refine ⟨⟨filling.stopped, filling.idle, filling.size, ?_, filling.none, ?_⟩, kept w byte holds⟩
    · simp only [Watched.push, List.length_append, List.length_singleton]
      omega
    · exact ⟨filling.fields.running, filling.fields.ier, filling.fields.register⟩
  · rw [holds.1.none] at submitted
    cases submitted

/-- Reading a register or a field changes nothing. -/
theorem watched_read {op : Op} {f : Answer op → Code α} {w : Watched} (value : Device → Answer op)
    (kept : ∀ w byte, P w → P (w.push byte)) (reads : ∀ dev, handle o op dev = (some (value dev), dev))
    (unnoted : ∀ w dev, Watched.note w dev op = { w with dev })
    (permitted : ∀ w, maySubmit o start op w)
    (rest : ∀ w, Filling start w → P w →
      Safe (watchedAct o) watchedDrift (maySubmit o start) (Covered start) Q (f (value w.dev)) w)
    (filling : Filling start w) (holds : P w) :
    Safe (watchedAct o) watchedDrift (maySubmit o start) (Covered start) Q (perform op >>= f) w := by
  refine safe_perform (filling_steady kept) (fun w _ => permitted w) (fun w answer after now acts => ?_)
    ⟨filling, holds⟩
  obtain ⟨answered, rfl⟩ := acts
  rw [reads] at answered
  cases answered
  rw [reads, unnoted]
  exact rest w now.1 now.2

/-- The level at the last read of its least significant byte, which no later level is below. -/
def Levelled (level : Nat) (w : Watched) : Prop := w.level = level ∧ level ≤ w.dev.fifo.length

theorem Levelled.push {level : Nat} {w : Watched} (levelled : Levelled level w) (byte : Received) :
    Levelled level (w.push byte) := by
  refine ⟨levelled.1, levelled.2.trans ?_⟩
  simp only [Watched.push, List.length_append]
  omega

theorem push_length (w : Watched) (byte : Received) : (w.push byte).dev.fifo.length = w.dev.fifo.length + 1 := by
  simp only [Watched.push, List.length_append, List.length_singleton]

theorem rxFifoLevelFrom_levels (rounds old : Nat) {w : Watched} (filling : Filling start w)
    (below : old ≤ w.dev.fifo.length / 256) :
    Safe (watchedAct o) watchedDrift (maySubmit o start) (Covered start)
      (fun value w => Filling start w ∧ Levelled value w) (rxFifoLevelFrom rounds old) w := by
  have grown : ∀ (w : Watched) (byte : Received), old ≤ w.dev.fifo.length / 256 →
      old ≤ (w.push byte).dev.fifo.length / 256 := by
    intro w byte below
    rw [push_length]
    omega
  induction rounds generalizing old w with
  | zero => exact safe_never Empty.elim (filling_steady grown) (fun _ _ => trivial) ⟨filling, below⟩
  | succ rounds ih =>
    refine safe_perform (filling_steady grown) (fun _ _ => trivial) (fun w lsb after now acts => ?_) ⟨filling, below⟩
    obtain ⟨filling, below⟩ := now
    obtain ⟨answered, rfl⟩ := acts
    cases answered
    let sampled (now : Watched) : Prop := Levelled w.dev.fifo.length now ∧ old ≤ w.dev.fifo.length / 256
    have kept : ∀ now byte, sampled now → sampled (now.push byte) :=
      fun now byte sampled => ⟨sampled.1.push byte, sampled.2⟩
    have noted : Filling start ⟨w.dev, w.dev.fifo.length, w.submitted⟩ :=
      ⟨filling.stopped, filling.idle, filling.size, filling.fits, filling.none, filling.fields⟩
    refine watched_read (fun dev => dev.fifo.length / 256) kept (fun _ => rfl) (fun _ _ => rfl) (fun _ => trivial)
      (fun now filling sampled => ?_) noted ⟨⟨rfl, le_rfl⟩, below⟩
    obtain ⟨⟨level, later⟩, below⟩ := sampled
    split_ifs with same
    · have fits := filling.fits
      have small : w.dev.fifo.length < 2 ^ 16 := by
        simp only [fnFastUartRxFifoSize] at fits
        omega
      have upper : w.dev.fifo.length / 256 = old := by omega
      have value := join_registers small
      rw [upper, same] at value
      have levelled : Levelled w.dev.fifo.length now := ⟨level, later⟩
      show Safe _ _ _ _ _ (pure _) now
      rw [value]
      exact safe_done (filling_steady fun _ byte levelled => levelled.push byte) (fun _ now => now)
        ⟨filling, levelled⟩
    · exact ih (now.dev.fifo.length / 256) filling le_rfl fun w byte below => by
        rw [push_length]
        omega

theorem rxFifoLevel_levels {w : Watched} (filling : Filling start w) :
    Safe (watchedAct o) watchedDrift (maySubmit o start) (Covered start)
      (fun value w => Filling start w ∧ Levelled value w) rxFifoLevel w :=
  watched_read (fun dev => dev.fifo.length / 256) (P := fun _ => True) (fun _ _ _ => trivial) (fun _ => rfl)
    (fun _ _ => rfl) (fun _ => trivial) (fun _ filling _ => rxFifoLevelFrom_levels 257 _ filling le_rfl) filling trivial

/-- The length to be asked for, with more bytes than that in the FIFO. -/
structure Limited (start : Device) (length : Nat) (w : Watched) : Prop where
  length_eq : w.dev.rxXferLength = length
  limit : length = min (w.level - 1) start.rxSize
  level : 1 < w.level
  below : w.level ≤ w.dev.fifo.length

theorem Limited.push {length : Nat} {w : Watched} (limited : Limited start length w) (byte : Received) :
    Limited start length (w.push byte) := by
  refine ⟨limited.length_eq, limited.limit, limited.level, ?_⟩
  rw [push_length]
  exact limited.below.trans (Nat.le_succ _)

/-- An operation that only sets the length. -/
theorem watched_resize {level length : Nat} {f : Unit → Code α} {w : Watched}
    (rest : ∀ w, Filling start w → Levelled level w ∧ w.dev.rxXferLength = length →
      Safe (watchedAct o) watchedDrift (maySubmit o start) (Covered start) Q (f ()) w)
    (filling : Filling start w) (levelled : Levelled level w) :
    Safe (watchedAct o) watchedDrift (maySubmit o start) (Covered start) Q (setRxXferLength length >>= f) w := by
  refine safe_perform (filling_steady fun _ byte levelled => levelled.push byte) (fun _ _ => trivial)
    (fun w _ after now acts => ?_) ⟨filling, levelled⟩
  obtain ⟨-, rfl⟩ := acts
  obtain ⟨filling, levelled⟩ := now
  exact rest _ ⟨filling.stopped, filling.idle, filling.size, filling.fits, filling.none,
    ⟨filling.fields.running, filling.fields.ier, filling.fields.register⟩⟩ ⟨levelled, rfl⟩

theorem Filling.steady_limited (length : Nat) :
    Steady watchedDrift (Covered start) fun w => Filling start w ∧ Limited start length w :=
  filling_steady fun _ byte limited => limited.push byte

theorem limitRxXferLength_limits {level : Nat} {w : Watched} (many : 1 < level) (filling : Filling start w)
    (levelled : Levelled level w) :
    Safe (watchedAct o) watchedDrift (maySubmit o start) (Covered start)
      (fun _ w => Filling start w ∧ Limited start (min (level - 1) start.rxSize) w) (limitRxXferLength level) w := by
  have kept : ∀ length (w : Watched) byte, Levelled level w ∧ w.dev.rxXferLength = length →
      Levelled level (w.push byte) ∧ (w.push byte).dev.rxXferLength = length :=
    fun _ _ byte both => ⟨both.1.push byte, both.2⟩
  have limits : ∀ w : Watched, Filling start w → Levelled level w ∧
      w.dev.rxXferLength = min (level - 1) start.rxSize → Limited start (min (level - 1) start.rxSize) w :=
    fun w filling ⟨levelled, same⟩ => ⟨same, by rw [levelled.1], levelled.1 ▸ many, levelled.1.trans_le levelled.2⟩
  have stops : ∀ w : Watched, Filling start w → Levelled level w ∧
      w.dev.rxXferLength = min (level - 1) start.rxSize →
      Safe (watchedAct o) watchedDrift (maySubmit o start) (Covered start)
        (fun (_ : Unit) w => Filling start w ∧ Limited start (min (level - 1) start.rxSize) w) (.done ()) w :=
    fun w filling both => safe_done (Filling.steady_limited _) (fun _ now => now) ⟨filling, limits w filling both⟩
  refine watched_resize (fun w filling both => ?_) filling levelled
  refine watched_read Device.rxXferLength (kept (level - 1)) (fun _ => rfl) (fun _ _ => rfl) (fun _ => trivial)
    (fun w filling both => ?_) filling both
  rw [both.2]
  refine watched_read Device.rxSize (kept (level - 1)) (fun _ => rfl) (fun _ _ => rfl) (fun _ => trivial)
    (fun w filling both => ?_) filling both
  rw [filling.size]
  unfold onlyIf
  split_ifs with large
  · refine watched_resize (fun w filling both => stops w filling ⟨both.1, ?_⟩) filling both.1
    rw [both.2]
    omega
  · refine stops w filling ⟨both.1, ?_⟩
    rw [both.2]
    omega

/-- A transfer that is submitted or moves bytes, with more than its residue in the FIFO. -/
structure Transferring (start : Device) (length : Nat) (w : Watched) : Prop where
  submitted : w.submitted = some length
  engine : w.dev.engine = .queued length ∧ w.dev.rxBuf = [] ∨ w.dev.engine = .moving length
  positive : 1 ≤ length
  size : length ≤ start.rxSize
  moved : w.dev.rxBuf.length ≤ length
  covered : length < w.dev.rxBuf.length + w.dev.fifo.length

theorem Transferring.residue {length : Nat} {w : Watched} (transferring : Transferring start length w) :
    w.dev.residue = length - w.dev.rxBuf.length := by
  unfold Device.residue
  rcases transferring.engine with ⟨queued, -⟩ | moving
  · rw [queued]
  · rw [moving]

/-- A byte is moved only while some are missing. -/
theorem move_room {dev after : Device} {length : Nat} (moved : dev.move = some after)
    (moving : dev.engine = .moving length) : dev.rxBuf.length < length := by
  unfold Device.move at moved
  split at moved
  · rename_i running byte rest same fifo
    rw [moving] at same
    cases same
    simp only [Option.ite_none_right_eq_some] at moved
    exact moved.1
  · cases moved

theorem Transferring.steady (length : Nat) : Steady watchedDrift (Covered start) (Transferring start length) := by
  refine ⟨?_, fun w transferring other submitted => ?_⟩
  · rintro w after ⟨dev, arrived | moves, rfl⟩ transferring
    · obtain ⟨value, arrived⟩ := arrived
      have covered := transferring.covered
      rw [arrive_eq arrived]
      refine ⟨transferring.submitted, transferring.engine, transferring.positive, transferring.size,
        transferring.moved, ?_⟩
      simp only [List.length_append, List.length_singleton]
      omega
    · obtain ⟨running, byte, rest, moving, fifo, rfl⟩ := move_cases moves
      have same : Engine.moving running = .moving length := by
        rcases transferring.engine with ⟨queued, -⟩ | own
        · rw [queued] at moving
          cases moving
        · exact moving.symm.trans own
      cases same
      have room := move_room moves moving
      have covered := transferring.covered
      rw [fifo, List.length_cons] at covered
      refine ⟨transferring.submitted, .inr moving, transferring.positive, transferring.size, ?_, ?_⟩
      · simp only [List.length_append, List.length_singleton]
        omega
      · simp only [List.length_append, List.length_singleton]
        omega
  · have same := transferring.submitted.symm.trans submitted
    cases same
    refine ⟨transferring.positive, transferring.size, ?_⟩
    have moved := transferring.moved
    have covered := transferring.covered
    rw [transferring.residue]
    omega

/-- The length is settled and the fields of the driver are being set. -/
structure Starting (start : Device) (length : Nat) (w : Watched) : Prop where
  stopped : start.rxRunning = false
  idle : w.dev.engine = .idle
  none : w.submitted = none
  limited : Limited start length w

theorem Starting.steady (length : Nat) : Steady watchedDrift (Covered start) (Starting start length) := by
  refine ⟨fun w after drifts starting => ?_, fun w starting other submitted => ?_⟩
  · obtain ⟨-, byte, rfl⟩ := idle_drift starting.idle drifts
    exact ⟨starting.stopped, starting.idle, starting.none, starting.limited.push byte⟩
  · rw [starting.none] at submitted
    cases submitted

/-- Operations on the fields of the driver that say whether a transfer runs. -/
def Marks : Op → Prop
  | .setRxRunning _ | .ier | .setIer _ | .serialOutIer _ => True
  | _ => False

theorem marks_safe {p : Code α} {length : Nat} {w : Watched} (only : OnlyPerforms Marks p)
    (starting : Starting start length w) :
    Safe (watchedAct o) watchedDrift (maySubmit o start) (Covered start) (fun _ => Starting start length) p w := by
  refine safe_only (Starting.steady length) (fun op w marks _ => ?_) (fun op answer w after marks starting acts => ?_)
    only starting
  · cases op <;> trivial
  · obtain ⟨stopped, idle, none, limited⟩ := starting
    have kept : Limited start length w := limited
    cases op with
    | setRxRunning | ier | setIer | serialOutIer =>
      cases acts.2
      exact ⟨stopped, idle, none, ⟨kept.length_eq, kept.limit, kept.level, kept.below⟩⟩
    | _ => exact marks.elim

/-- Operations that let a submitted transfer go. -/
def Issues : Op → Prop
  | .rxXferLength | .syncSingleForDevice _ | .issuePending => True
  | _ => False

theorem Transferring.issued {length : Nat} {w : Watched} (transferring : Transferring start length w) :
    Transferring start length { w with dev := w.dev.issue } := by
  obtain ⟨submitted, engine, positive, size, moved, covered⟩ := transferring
  unfold Device.issue
  rcases engine with ⟨queued, empty⟩ | moving
  · rw [queued]
    exact ⟨submitted, .inr rfl, positive, size, moved, covered⟩
  · rw [moving]
    exact ⟨submitted, .inr moving, positive, size, moved, covered⟩

theorem issues_safe {p : Code α} {length : Nat} {w : Watched} (only : OnlyPerforms Issues p)
    (transferring : Transferring start length w) :
    Safe (watchedAct o) watchedDrift (maySubmit o start) (Covered start) (fun _ => Transferring start length) p w := by
  refine safe_only (Transferring.steady length) (fun op w issues _ => ?_)
    (fun op answer w after issues transferring acts => ?_) only transferring
  · cases op <;> trivial
  · cases op with
    | rxXferLength | syncSingleForDevice =>
      cases acts.2
      exact transferring
    | issuePending =>
      cases acts.2
      exact transferring.issued
    | _ => exact issues.elim

/-- What the call has done when it returns without having submitted anything. -/
def Concluded (start : Device) (w : Watched) : Prop := w.submitted = none → Untouched start w.dev

theorem Starting.submits {length : Nat} {w : Watched} (room : 1 ≤ start.rxSize) (prepared : o.prepared = true)
    (starting : Starting start length w) : Submits o start w length := by
  obtain ⟨stopped, -, -, -, limit, level, below⟩ := starting
  exact ⟨stopped, prepared, level, limit, by omega, by omega⟩

theorem startRxDma_transfers {desc : Desc} {w : Watched} (room : 1 ≤ start.rxSize) (prepared : o.prepared = true)
    (starting : Starting start desc.length w) :
    Safe (watchedAct o) watchedDrift (maySubmit o start) (Covered start) (fun _ => Concluded start)
      (startRxDma desc) w := by
  have marks : OnlyPerforms Marks (setRxRunning true) := ⟨trivial, fun _ => trivial⟩
  have masks : OnlyPerforms Marks (updateIer fun value => value &&& ~~~uartIerRdi) :=
    onlyPerforms_step trivial fun _ => onlyPerforms_step trivial fun _ => onlyPerforms_step trivial fun _ =>
      ⟨trivial, fun _ => trivial⟩
  refine (marks_safe marks starting).andThen fun _ w starting => ?_
  refine (marks_safe masks starting).andThen fun _ w starting => ?_
  refine safe_perform (Starting.steady desc.length) (fun w starting => starting.submits room prepared)
    (fun w _ after starting acts => ?_) starting
  cases acts.2
  have submits := starting.submits room prepared
  have below := submits.below
  have positive := submits.positive
  have transferring : Transferring start desc.length
      ⟨{ w.dev with engine := .queued desc.length, rxBuf := [] }, w.level, some desc.length⟩ := by
    refine ⟨rfl, .inl ⟨rfl, rfl⟩, positive, ?_, Nat.zero_le _, ?_⟩
    · rw [submits.length_eq]
      exact Nat.min_le_right _ _
    · simp only [List.length_nil]
      omega
  have issues : OnlyPerforms Issues (do
      let length ← rxXferLength
      syncSingleForDevice length
      issuePending
      pure (0 : Int)) :=
    onlyPerforms_step trivial fun _ => onlyPerforms_step trivial fun _ => onlyPerforms_step trivial fun _ => trivial
  refine (issues_safe issues transferring).mono (fun _ here => here) fun _ w transferring unsubmitted => ?_
  rw [transferring.submitted] at unsubmitted
  cases unsubmitted

theorem Filling.concluded {w : Watched} (filling : Filling start w) : Concluded start w := fun _ => filling.fields

theorem prepareRxDma_transfers {length : Nat} {w : Watched} (room : 1 ≤ start.rxSize) (filling : Filling start w)
    (limited : Limited start length w) :
    Safe (watchedAct o) watchedDrift (maySubmit o start) (Covered start) (fun _ => Concluded start) prepareRxDma w := by
  have kept : ∀ (w : Watched) byte, Limited start length w → Limited start length (w.push byte) :=
    fun _ byte limited => limited.push byte
  refine watched_read Device.rxXferLength kept (fun _ => rfl) (fun _ _ => rfl) (fun _ => trivial)
    (fun w filling limited => ?_) filling limited
  rw [limited.length_eq]
  refine watched_read (fun _ => if o.prepared = true then some ⟨length⟩ else none) kept (fun _ => rfl) (fun _ _ => rfl)
    (fun _ => trivial) (fun w filling limited => ?_) filling limited
  split_ifs with prepared
  · exact startRxDma_transfers room prepared ⟨filling.stopped, filling.idle, filling.none, limited⟩
  · exact safe_done (Filling.steady_limited length) (fun _ now => now.1.concluded) ⟨filling, limited⟩

theorem filling_done {value : Int} {w : Watched} (filling : Filling start w) :
    Safe (watchedAct o) watchedDrift (maySubmit o start) (Covered start) (fun _ => Concluded start) (pure value) w :=
  safe_done (filling_steady (P := fun _ => True) fun _ _ _ => trivial) (fun _ now => now.1.concluded)
    ⟨filling, trivial⟩

/-- A transfer of an earlier call is left alone. -/
theorem untouched_steady :
    Steady watchedDrift (Covered start) fun w => w.submitted = none ∧ Untouched start w.dev := by
  refine ⟨?_, fun w idle length submitted => ?_⟩
  · rintro w after ⟨dev, drifts, rfl⟩ ⟨none, running, ier, register⟩
    rcases drift_cases drifts with ⟨byte, rfl⟩ | ⟨_, byte, rest, -, -, rfl⟩ <;> exact ⟨none, running, ier, register⟩
  · rw [idle.1] at submitted
    cases submitted

theorem fnFastUartRxDma_transfers (consistent : start.rxRunning = false → start.engine = .idle)
    (fits : start.fifo.length ≤ fnFastUartRxFifoSize) (room : 1 ≤ start.rxSize) :
    Safe (watchedAct o) watchedDrift (maySubmit o start) (Covered start) (fun _ => Concluded start) fnFastUartRxDma
      ⟨start, 0, none⟩ := by
  cases stopped : start.rxRunning with
  | true =>
    refine safe_perform untouched_steady (fun _ _ => trivial) (fun w running after idle acts => ?_)
      ⟨rfl, rfl, rfl, rfl⟩
    obtain ⟨answered, rfl⟩ := acts
    cases answered
    rw [if_pos (idle.2.running.trans stopped)]
    exact safe_done untouched_steady (fun _ idle _ => idle.2) idle
  | false =>
    have filling : Filling start ⟨start, 0, none⟩ := ⟨stopped, consistent stopped, rfl, fits, rfl, ⟨rfl, rfl, rfl⟩⟩
    refine watched_read Device.rxRunning (P := fun _ => True) (fun _ _ _ => trivial) (fun _ => rfl) (fun _ _ => rfl)
      (fun _ => trivial) (fun w filling _ => ?_) filling trivial
    rw [filling.fields.running, stopped]
    refine rxFifoLevel_levels filling |>.andThen fun level w levels => ?_
    obtain ⟨filling, levelled⟩ := levels
    split_ifs with few
    · exact filling_done filling
    · exact (limitRxXferLength_limits (by omega) filling levelled).andThen fun _ w limits =>
        prepareRxDma_transfers room limits.1 limits.2

end

/-- Along every run of `fn_fast_uart_rx_dma`, and after it, a transfer is
submitted only as it may be, never has to wait for bytes and leaves one behind;
a call that submits nothing leaves the port as it was. -/
theorem rxDma_never_pauses {o : Outcomes} {start : Device} (consistent : start.rxRunning = false → start.engine = .idle)
    (fits : start.fifo.length ≤ fnFastUartRxFifoSize) (room : 1 ≤ start.rxSize) {p : Code Int} {w : Watched}
    (run : ReflTransGen (Moves (watchedAct o) watchedDrift) (fnFastUartRxDma, ⟨start, 0, none⟩) (p, w)) :
    Covered start w ∧
      (∀ desc next, p = .call (.submit desc) next → Submits o start w desc.length) ∧
      ∀ result, p = .done result → Concluded start w := by
  have safe := (fnFastUartRxDma_transfers consistent fits room).reaches run
  refine ⟨safe.here, fun desc next same => ?_, fun result same => ?_⟩
  · subst same
    exact safe.permitted
  · subst same
    exact safe.finished

/-- Four bytes arrive before the call begins to look. A transfer of three of them is
submitted and moves them, another byte arriving meanwhile, until it is completed. -/
theorem rxDma_never_pauses_three :
    ∃ (next : Unit → Code Int) (before after : Watched),
      ReflTransGen (Moves (watchedAct ⟨0, true, 0, 0, false⟩) watchedDrift)
          (fnFastUartRxDma, ⟨.started true 3 5, 0, none⟩) (.call (.submit ⟨3⟩) next, before) ∧
        Submits ⟨0, true, 0, 0, false⟩ (.started true 3 5) before 3 ∧
        ReflTransGen (Moves (watchedAct ⟨0, true, 0, 0, false⟩) watchedDrift)
          (.call (.submit ⟨3⟩) next, before) (.done 0, after) ∧
        after.dev.rxBuf = [⟨0, 10⟩, ⟨1, 11⟩, ⟨2, 12⟩] ∧ after.dev.engine = .moving after.dev.rxBuf.length ∧
        after.submitted = some 3 ∧ after.dev.residue < after.dev.fifo.length := by
  have arrives : ∀ {p : Code Int} {w : Watched} {dev : Device} (value : UInt8), w.dev.arrive value = some dev →
      Moves (watchedAct ⟨0, true, 0, 0, false⟩) watchedDrift (p, w) (p, { w with dev }) :=
    fun value arrived => .drift ⟨_, .inl ⟨value, arrived⟩, rfl⟩
  have moves : ∀ {p : Code Int} {w : Watched} {dev : Device}, w.dev.move = some dev →
      Moves (watchedAct ⟨0, true, 0, 0, false⟩) watchedDrift (p, w) (p, { w with dev }) :=
    fun moved => .drift ⟨_, .inr moved, rfl⟩
  have performs : ∀ {op : Op} {next : Answer op → Code Int} {answer : Answer op} {w : Watched},
      (handle ⟨0, true, 0, 0, false⟩ op w.dev).1 = some answer →
      Moves (watchedAct ⟨0, true, 0, 0, false⟩) watchedDrift (.call op next, w)
        (next answer, w.note (handle ⟨0, true, 0, 0, false⟩ op w.dev).2 op) :=
    fun answered => .perform ⟨answered, rfl⟩
  have runs : ∃ (next : Unit → Code Int) (before : Watched),
      ReflTransGen (Moves (watchedAct ⟨0, true, 0, 0, false⟩) watchedDrift)
        (fnFastUartRxDma, ⟨.started true 3 5, 0, none⟩) (.call (.submit ⟨3⟩) next, before) ∧
      ∃ after, ReflTransGen (Moves (watchedAct ⟨0, true, 0, 0, false⟩) watchedDrift)
          (.call (.submit ⟨3⟩) next, before) (.done 0, after) ∧
        after.dev.rxBuf = [⟨0, 10⟩, ⟨1, 11⟩, ⟨2, 12⟩] ∧ after.dev.engine = .moving after.dev.rxBuf.length ∧
        after.submitted = some 3 := by
    refine ⟨?next, ?before, ?submits, ?after, ?completes, ?buf, ?engine, ?submitted⟩
    case submits =>
      refine .head (arrives 10 rfl) ?_
      refine .head (arrives 11 rfl) ?_
      refine .head (arrives 12 rfl) ?_
      refine .head (arrives 13 rfl) ?_
      -- `rx_running`, and the level until two reads of its upper byte agree
      refine .head (performs rfl) ?_
      refine .head (performs rfl) ?_
      refine .head (performs rfl) ?_
      refine .head (performs rfl) ?_
      -- the length, its limit and the descriptor
      refine .head (performs rfl) ?_
      refine .head (performs rfl) ?_
      refine .head (performs rfl) ?_
      refine .head (performs rfl) ?_
      refine .head (performs rfl) ?_
      -- `rx_running` and the receive interrupt
      refine .head (performs rfl) ?_
      refine .head (performs rfl) ?_
      refine .head (performs rfl) ?_
      refine .head (performs rfl) ?_
      refine .head (performs rfl) ?_
      exact .refl
    case completes =>
      refine .head (performs rfl) ?_
      refine .head (performs rfl) ?_
      refine .head (performs rfl) ?_
      refine .head (performs rfl) ?_
      refine .head (moves rfl) ?_
      refine .head (moves rfl) ?_
      refine .head (arrives 14 rfl) ?_
      refine .head (moves rfl) ?_
      exact .refl
    case buf => rfl
    case engine => rfl
    case submitted => rfl
  obtain ⟨next, before, submits, after, completes, buf, engine, submitted⟩ := runs
  have fits : (Device.started true 3 5).fifo.length ≤ fnFastUartRxFifoSize := by decide
  have room : 1 ≤ (Device.started true 3 5).rxSize := by decide
  have permitted := (rxDma_never_pauses (fun _ => rfl) fits room submits).2.1 ⟨3⟩ next rfl
  have covered := (rxDma_never_pauses (fun _ => rfl) fits room (submits.trans completes)).1
  exact ⟨next, before, after, submits, permitted, completes, buf, engine, submitted, (covered 3 submitted).2.2⟩

end FlukeCda.FastUart
