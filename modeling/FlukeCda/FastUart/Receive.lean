import FlukeCda.FastUart.Port
import FlukeCda.Interaction.Interference

namespace FlukeCda.FastUart
open Interaction Program

/-- The bytes a running transfer has moved, which wait in the buffer to be handed on. -/
def Device.inFlight (dev : Device) : List Received :=
  match dev.engine with
  | .moving _ => dev.rxBuf
  | _ => []

/-- Everything that arrived is handed on, in flight or in the FIFO, in this order. -/
def Conserved (dev : Device) : Prop := dev.tty ++ dev.inFlight ++ dev.fifo = dev.arrived

/-- Bytes arrive and are moved at any time, whatever the processor does. -/
def drift (dev after : Device) : Prop := (∃ value, dev.arrive value = some after) ∨ dev.move = some after

theorem arrive_eq {value : UInt8} {dev after : Device} (arrived : dev.arrive value = some after) :
    after = { dev with fifo := dev.fifo ++ [⟨dev.arrived.length, value⟩],
                       arrived := dev.arrived ++ [⟨dev.arrived.length, value⟩] } := by
  simp only [Device.arrive, Option.ite_none_right_eq_some, Option.some.injEq] at arrived
  exact arrived.2.symm

theorem move_cases {dev after : Device} (moved : dev.move = some after) :
    ∃ length byte rest, dev.engine = .moving length ∧ dev.fifo = byte :: rest ∧
      after = { dev with rxBuf := dev.rxBuf ++ [byte], fifo := rest } := by
  unfold Device.move at moved
  split at moved
  · rename_i length byte rest moving fifo
    simp only [Option.ite_none_right_eq_some, Option.some.injEq] at moved
    exact ⟨length, byte, rest, moving, fifo, moved.2.symm⟩
  · cases moved

theorem drift_cases {dev after : Device} (drifts : drift dev after) :
    (∃ byte, after = { dev with fifo := dev.fifo ++ [byte], arrived := dev.arrived ++ [byte] }) ∨
      ∃ length byte rest, dev.engine = .moving length ∧ dev.fifo = byte :: rest ∧
        after = { dev with rxBuf := dev.rxBuf ++ [byte], fifo := rest } := by
  rcases drifts with ⟨value, arrived⟩ | moved
  · exact .inl ⟨_, arrive_eq arrived⟩
  · exact .inr (move_cases moved)

theorem Conserved.drift {dev after : Device} (conserved : Conserved dev) (drifts : drift dev after) :
    Conserved after := by
  rcases drift_cases drifts with ⟨byte, rfl⟩ | ⟨length, byte, rest, moving, fifo, rfl⟩
  · unfold Conserved Device.inFlight at conserved ⊢
    simp only [← conserved, List.append_assoc]
  · unfold Conserved Device.inFlight at conserved ⊢
    simp only [moving, fifo] at conserved ⊢
    simp only [← conserved, List.append_assoc, List.cons_append, List.nil_append]

/-- Where the engine and the driver of a port with or without DMA are, with
nothing lost so far. -/
structure Phase (dma : Bool) (engine : Engine) (running : Bool) (dev : Device) : Prop where
  dma_eq : dev.dma = dma
  engine_eq : dev.engine = engine
  running_eq : dev.rxRunning = running
  conserved : Conserved dev

theorem Phase.stable (dma : Bool) (engine : Engine) (running : Bool) :
    Stable drift (Phase dma engine running) := by
  intro dev after drifts phase
  have conserved := phase.conserved.drift drifts
  rcases drift_cases drifts with ⟨byte, rfl⟩ | ⟨length, byte, rest, moving, fifo, rfl⟩
  · exact ⟨phase.dma_eq, phase.engine_eq, phase.running_eq, conserved⟩
  · exact ⟨phase.dma_eq, phase.engine_eq, phase.running_eq, conserved⟩

/-- The engine has a transfer of the given length, or none, and the driver remembers the length. -/
def Sized (dma : Bool) (engine : Engine) (running : Bool) (length : Nat) (dev : Device) : Prop :=
  Phase dma engine running dev ∧ dev.rxXferLength = length

theorem Sized.stable (dma : Bool) (engine : Engine) (running : Bool) (length : Nat) :
    Stable drift (Sized dma engine running length) := by
  intro dev after drifts sized
  refine ⟨Phase.stable dma engine running dev after drifts sized.1, ?_⟩
  rcases drift_cases drifts with ⟨byte, rfl⟩ | ⟨_, byte, rest, moving, fifo, rfl⟩ <;> exact sized.2

/-- A transfer is submitted, and nothing of it has been moved. -/
def Queued (length : Nat) (dev : Device) : Prop := Sized true (.queued length) true length dev ∧ dev.rxBuf = []

theorem Queued.stable (length : Nat) : Stable drift (Queued length) := by
  intro dev after drifts queued
  refine ⟨Sized.stable _ _ _ _ dev after drifts queued.1, ?_⟩
  rcases drift_cases drifts with ⟨byte, rfl⟩ | ⟨_, byte, rest, moving, fifo, rfl⟩
  · exact queued.2
  · rw [queued.1.1.engine_eq] at moving
    cases moving

/-- What holds whenever the port lock is free; without DMA there is never a transfer. -/
def Resting (dma : Bool) (dev : Device) : Prop :=
  Phase dma .idle false dev ∨ dma = true ∧ ∃ length, Sized dma (.moving length) true length dev

theorem Resting.stable (dma : Bool) : Stable drift (Resting dma) := by
  rintro dev after drifts (phase | ⟨wired, length, sized⟩)
  · exact .inl (Phase.stable _ _ _ dev after drifts phase)
  · exact .inr ⟨wired, length, Sized.stable _ _ _ _ dev after drifts sized⟩

/-- What holds at every moment. -/
structure InOrder (dev : Device) : Prop where
  ordered : dev.tty <+: dev.arrived
  accounted : ∀ length, dev.engine = .moving length → Conserved dev

theorem Conserved.inOrder {dev : Device} (conserved : Conserved dev) : InOrder dev := by
  refine ⟨⟨dev.inFlight ++ dev.fifo, ?_⟩, fun _ _ => conserved⟩
  rw [← List.append_assoc]
  exact conserved

theorem Resting.conserved {dma : Bool} {dev : Device} (resting : Resting dma dev) : Conserved dev := by
  rcases resting with phase | ⟨-, length, phase, -⟩
  · exact phase.conserved
  · exact phase.conserved

theorem Resting.dma_eq {dma : Bool} {dev : Device} (resting : Resting dma dev) : dev.dma = dma := by
  rcases resting with phase | ⟨-, length, phase, -⟩
  · exact phase.dma_eq
  · exact phase.dma_eq

/-- A receiver line status interrupt. -/
def Call.LineStatus : Call → Prop
  | .handleIrq iir _ => iir &&& 0x3f = uartIirRlsi
  | .rxComplete => False

/-- Taking a character from the FIFO passes nothing that waits in the buffer. -/
def Device.PassesNothing (dev : Device) : Prop := dev.inFlight = [] ∨ dev.fifo = []

/-- What an operation of a call does, when line status interrupts pass nothing. -/
def act (c : Call) (op : Op) (answer : Answer op) (dev after : Device) : Prop :=
  handle c.outcomes op dev = (some answer, after) ∧ (op = .rxChar → c.LineStatus → dev.PassesNothing)

theorem Phase.steady (dma : Bool) (engine : Engine) (running : Bool) :
    Steady drift InOrder (Phase dma engine running) :=
  ⟨Phase.stable dma engine running, fun _ phase => phase.conserved.inOrder⟩

theorem Sized.steady (dma : Bool) (engine : Engine) (running : Bool) (length : Nat) :
    Steady drift InOrder (Sized dma engine running length) :=
  ⟨Sized.stable dma engine running length, fun _ sized => sized.1.conserved.inOrder⟩

theorem Queued.steady (length : Nat) : Steady drift InOrder (Queued length) :=
  ⟨Queued.stable length, fun _ queued => queued.1.1.conserved.inOrder⟩

theorem Resting.steady (dma : Bool) : Steady drift InOrder (Resting dma) :=
  ⟨Resting.stable dma, fun _ resting => resting.conserved.inOrder⟩

section
variable {c : Call} {α : Type} {R : α → Device → Prop} {P Q : Device → Prop} {dev : Device}

/-- An operation that leads from one assertion to another. -/
theorem safe_effect (steady : Steady drift InOrder P) {op : Op} {f : Answer op → Code α}
    (leads : ∀ dev, P dev → Q (handle c.outcomes op dev).2)
    (rest : ∀ answer dev, Q dev → Safe (act c) drift anything InOrder R (f answer) dev) (holds : P dev) :
    Safe (act c) drift anything InOrder R (perform op >>= f) dev := by
  refine safe_perform steady (fun _ _ => trivial)
    (fun dev answer after holds acts => rest answer after ?_) holds
  have led := leads dev holds
  rw [acts.1] at led
  exact led

/-- An operation whose answer is a field, and which changes nothing. -/
theorem safe_read (op : Op) (value : Device → Answer op) (steady : Steady drift InOrder P)
    {f : Answer op → Code α} (reads : ∀ dev, handle c.outcomes op dev = (some (value dev), dev))
    (rest : ∀ dev, P dev → Safe (act c) drift anything InOrder R (f (value dev)) dev) (holds : P dev) :
    Safe (act c) drift anything InOrder R (perform op >>= f) dev := by
  refine safe_perform steady (fun _ _ => trivial) (fun dev answer after holds acts => ?_) holds
  have ran := acts.1
  rw [reads] at ran
  cases ran
  exact rest dev holds

theorem safe_value (steady : Steady drift InOrder P) {value : α} (post : ∀ dev, P dev → R value dev)
    (holds : P dev) :
    Safe (act c) drift anything InOrder R (pure value) dev := safe_done steady post holds

theorem rxFifoLevelFrom_safe (steady : Steady drift InOrder P) (rounds old : Nat) (holds : P dev) :
    Safe (act c) drift anything InOrder (fun _ => P) (rxFifoLevelFrom rounds old) dev := by
  induction rounds generalizing old dev with
  | zero => exact safe_never Empty.elim steady (fun _ _ => trivial) holds
  | succ rounds ih =>
    refine safe_effect steady (fun _ holds => holds) (fun lsb dev holds => ?_) holds
    refine safe_effect steady (fun _ holds => holds) (fun msb dev holds => ?_) holds
    split_ifs
    · exact safe_value steady (fun _ holds => holds) holds
    · exact ih msb holds

theorem rxFifoLevel_safe (steady : Steady drift InOrder P) (holds : P dev) :
    Safe (act c) drift anything InOrder (fun _ => P) rxFifoLevel dev :=
  safe_effect steady (fun _ holds => holds) (fun old _ holds => rxFifoLevelFrom_safe steady 257 old holds) holds

theorem updateIer_safe (steady : Steady drift InOrder P)
    (free : ∀ dev value register, P dev → P { dev with ier := value, ierRegister := register })
    (f : UInt8 → UInt8) (holds : P dev) :
    Safe (act c) drift anything InOrder (fun _ => P) (updateIer f) dev := by
  refine safe_effect steady (fun _ holds => holds) (fun old dev holds => ?_) holds
  refine safe_effect steady (fun dev holds => free dev (f old) dev.ierRegister holds)
    (fun _ dev holds => ?_) holds
  refine safe_effect steady (fun _ holds => holds) (fun new dev holds => ?_) holds
  exact safe_effect steady (fun dev holds => free dev dev.ier new holds)
    (fun _ dev holds => safe_value steady (fun _ h => h) holds) holds

/-- What a receive DMA attempt leaves: only without a transfer may it ask for programmed I/O. -/
def Attempted (result : Int) (dev : Device) : Prop := Resting true dev ∧ (result ≠ 0 → dev.engine = .idle)

theorem Sized.submitted {length : Nat} (sized : Sized true .idle true length dev) :
    Queued length { dev with engine := .queued length, rxBuf := [] } := by
  obtain ⟨⟨dma, engine, running, conserved⟩, remembered⟩ := sized
  refine ⟨⟨⟨dma, rfl, running, ?_⟩, remembered⟩, rfl⟩
  unfold Conserved Device.inFlight at conserved ⊢
  rw [engine] at conserved
  exact conserved

theorem Queued.issued {length : Nat} (queued : Queued length dev) :
    Sized true (.moving length) true length dev.issue := by
  obtain ⟨⟨⟨dma, engine, running, conserved⟩, remembered⟩, empty⟩ := queued
  unfold Device.issue
  rw [engine]
  refine ⟨⟨dma, rfl, running, ?_⟩, remembered⟩
  unfold Conserved Device.inFlight at conserved ⊢
  rw [engine] at conserved
  rw [empty]
  exact conserved

theorem startRxDma_safe {desc : Desc} (idle : Sized true .idle false desc.length dev) :
    Safe (act c) drift anything InOrder Attempted (startRxDma desc) dev := by
  have running := Sized.steady true .idle true desc.length
  have queued := Queued.steady desc.length
  have free : ∀ dev value register, Sized true .idle true desc.length dev →
      Sized true .idle true desc.length { dev with ier := value, ierRegister := register } :=
    fun dev value register sized =>
      ⟨⟨sized.1.dma_eq, sized.1.engine_eq, sized.1.running_eq, sized.1.conserved⟩, sized.2⟩
  have started : ∀ dev, Sized true .idle false desc.length dev →
      Sized true .idle true desc.length { dev with rxRunning := true } :=
    fun dev sized => ⟨⟨sized.1.dma_eq, sized.1.engine_eq, rfl, sized.1.conserved⟩, sized.2⟩
  refine safe_effect (Sized.steady true .idle false desc.length) started (fun _ dev sized => ?_) idle
  refine (updateIer_safe running free _ sized).andThen fun _ dev sized => ?_
  refine safe_effect running (fun dev sized => sized.submitted) (fun _ dev holds => ?_) sized
  refine safe_effect queued (fun _ holds => holds) (fun length dev holds => ?_) holds
  refine safe_effect queued (fun _ holds => holds) (fun _ dev holds => ?_) holds
  refine safe_effect queued (fun dev holds => holds.issued) (fun _ dev sized => ?_) holds
  have attempted : ∀ dev, Sized true (.moving desc.length) true desc.length dev → Attempted 0 dev :=
    fun dev sized => ⟨.inr ⟨rfl, _, sized⟩, fun nonzero => absurd rfl nonzero⟩
  exact safe_value (Sized.steady _ _ _ _) attempted sized

/-- Setting the length while there is no transfer. -/
theorem Phase.sized {length : Nat} (phase : Phase true .idle false dev) :
    Sized true .idle false length { dev with rxXferLength := length } :=
  ⟨⟨phase.dma_eq, phase.engine_eq, phase.running_eq, phase.conserved⟩, rfl⟩

theorem prepareRxDma_safe {length : Nat} (sized : Sized true .idle false length dev) :
    Safe (act c) drift anything InOrder Attempted prepareRxDma dev := by
  have steady := Sized.steady true .idle false length
  refine safe_read .rxXferLength Device.rxXferLength steady (fun _ => rfl) (fun dev sized => ?_) sized
  rw [sized.2]
  refine safe_read (.prepSlaveSingle length)
    (fun _ => if c.outcomes.prepared = true then some ⟨length⟩ else none) steady (fun _ => rfl)
    (fun dev sized => ?_) sized
  split_ifs
  · exact startRxDma_safe sized
  · exact safe_value steady (fun dev sized => ⟨.inl sized.1, fun _ => sized.1.engine_eq⟩) sized

theorem limitRxXferLength_safe {fifoLevel : Nat} (phase : Phase true .idle false dev) :
    Safe (act c) drift anything InOrder (fun _ dev => Sized true .idle false dev.rxXferLength dev)
      (limitRxXferLength fifoLevel) dev := by
  have idle := Phase.steady true .idle false
  have remembered : ∀ dev, Phase true .idle false dev → Sized true .idle false dev.rxXferLength dev :=
    fun _ phase => ⟨phase, rfl⟩
  have resize : ∀ length dev, Phase true .idle false dev →
      Phase true .idle false { dev with rxXferLength := length } :=
    fun _ _ phase => phase.sized.1
  refine safe_effect idle (resize _) (fun _ dev phase => ?_) phase
  refine safe_effect idle (fun _ phase => phase) (fun length dev phase => ?_) phase
  refine safe_effect idle (fun _ phase => phase) (fun size dev phase => ?_) phase
  unfold onlyIf
  split_ifs
  · exact safe_effect idle (resize _) (fun _ dev phase => safe_value idle remembered phase) phase
  · exact safe_value idle remembered phase

theorem fnFastUartRxDma_safe (resting : Resting true dev) :
    Safe (act c) drift anything InOrder Attempted fnFastUartRxDma dev := by
  have idle := Phase.steady true .idle false
  have untried : ∀ dev, Resting true dev → Attempted 0 dev :=
    fun dev resting => ⟨resting, fun nonzero => absurd rfl nonzero⟩
  refine safe_read .rxRunning Device.rxRunning (Resting.steady _) (fun _ => rfl) (fun dev resting => ?_) resting
  split_ifs with running
  · exact safe_value (Resting.steady _) untried resting
  · rcases resting with phase | ⟨-, length, sized⟩
    · refine (rxFifoLevel_safe idle phase).andThen fun fifoLevel dev phase => ?_
      split_ifs
      · exact safe_value idle (fun dev phase => untried dev (.inl phase)) phase
      · exact (limitRxXferLength_safe phase).andThen fun _ dev sized => prepareRxDma_safe sized
    · exact absurd sized.1.running_eq running

/-- Programmed I/O is selected by a line status interrupt, or while there is no transfer. -/
def Drainable (dma : Bool) (c : Call) (dev : Device) : Prop :=
  Resting dma dev ∧ (c.LineStatus ∨ dev.engine = .idle)

theorem Drainable.steady (dma : Bool) (c : Call) : Steady drift InOrder (Drainable dma c) := by
  refine ⟨?_, fun dev drainable => drainable.1.conserved.inOrder⟩
  rintro dev after drifts ⟨resting, selected⟩
  refine ⟨Resting.stable dma dev after drifts resting, selected.imp_right fun idle => ?_⟩
  rcases drift_cases drifts with ⟨byte, rfl⟩ | ⟨_, byte, rest, moving, fifo, rfl⟩ <;> exact idle

theorem Conserved.rxChar (conserved : Conserved dev) (passes : dev.PassesNothing) : Conserved dev.rxChar := by
  unfold Device.rxChar
  split
  · exact conserved
  · rename_i byte rest fifo
    have empty : dev.inFlight = [] := by
      rcases passes with empty | drained
      · exact empty
      · rw [fifo] at drained
        cases drained
    unfold Conserved at conserved ⊢
    rw [empty, fifo] at conserved
    have kept : Device.inFlight { dev with tty := dev.tty ++ [byte], fifo := rest } = [] := empty
    rw [kept, ← conserved]
    simp only [List.append_nil, List.append_assoc, List.cons_append, List.nil_append]

theorem rxChar_frame (dev : Device) :
    dev.rxChar.dma = dev.dma ∧ dev.rxChar.engine = dev.engine ∧ dev.rxChar.rxRunning = dev.rxRunning ∧
      dev.rxChar.rxXferLength = dev.rxXferLength := by
  unfold Device.rxChar
  split <;> exact ⟨rfl, rfl, rfl, rfl⟩

theorem Phase.rxChar {dma running : Bool} {engine : Engine} (phase : Phase dma engine running dev)
    (passes : dev.PassesNothing) :
    Phase dma engine running dev.rxChar := by
  obtain ⟨wiring, phases, flag, -⟩ := rxChar_frame dev
  exact ⟨wiring.trans phase.dma_eq, phases.trans phase.engine_eq, flag.trans phase.running_eq,
    phase.conserved.rxChar passes⟩

theorem Resting.rxChar {dma : Bool} (resting : Resting dma dev) (passes : dev.PassesNothing) :
    Resting dma dev.rxChar := by
  rcases resting with phase | ⟨wired, length, phase, remembered⟩
  · exact .inl (phase.rxChar passes)
  · exact .inr ⟨wired, length, phase.rxChar passes, (rxChar_frame dev).2.2.2.trans remembered⟩

theorem rxCharsLoop_safe {dma : Bool} (n : Nat) (drainable : Drainable dma c dev) :
    Safe (act c) drift anything InOrder (fun _ => Drainable dma c) (rxCharsLoop n) dev := by
  have steady := Drainable.steady dma c
  induction n generalizing dev with
  | zero => exact safe_value steady (fun _ holds => holds) drainable
  | succ n ih =>
    refine safe_perform steady (fun _ _ => trivial) (fun dev answer after drainable acts => ih ?_) drainable
    obtain ⟨ran, harmless⟩ := acts
    cases ran
    obtain ⟨resting, selected⟩ := drainable
    have passes : dev.PassesNothing := by
      rcases selected with lineStatus | idle
      · exact harmless rfl lineStatus
      · left
        simp only [Device.inFlight, idle]
    exact ⟨resting.rxChar passes, selected.imp_right (rxChar_frame dev).2.1.trans⟩

theorem serial8250RxChars_safe {dma : Bool} (drainable : Drainable dma c dev) :
    Safe (act c) drift anything InOrder (fun _ => Resting dma) serial8250RxChars dev := by
  have steady := Drainable.steady dma c
  refine safe_effect steady (fun _ holds => holds) (fun count dev drainable => ?_) drainable
  refine (rxCharsLoop_safe count drainable).andThen fun _ dev drainable => ?_
  exact safe_effect steady (fun _ holds => holds)
    (fun status dev drainable => safe_value steady (fun dev drainable => drainable.1) drainable) drainable

theorem Attempted.steady (result : Int) : Steady drift InOrder (Attempted result) := by
  refine ⟨?_, fun dev attempted => attempted.1.conserved.inOrder⟩
  rintro dev after drifts ⟨resting, idle⟩
  refine ⟨Resting.stable true dev after drifts resting, fun failed => ?_⟩
  rcases drift_cases drifts with ⟨byte, rfl⟩ | ⟨_, byte, rest, moving, fifo, rfl⟩ <;> exact idle failed

/-- What the choice between the two drains leaves. -/
def Chosen (dma : Bool) (c : Call) (programmed : Bool) (dev : Device) : Prop :=
  Resting dma dev ∧ (programmed = true → Drainable dma c dev)

theorem fnFastUartHandleRxDma_safe {iir : UInt32} (kind : iir &&& 0x3f = uartIirRlsi → c.LineStatus)
    (resting : Resting true dev) :
    Safe (act c) drift anything InOrder (Chosen true c) (fnFastUartHandleRxDma iir) dev := by
  unfold fnFastUartHandleRxDma
  split_ifs with timeout status
  · refine safe_read .rxRunning Device.rxRunning (Resting.steady _) (fun _ => rfl)
      (fun dev resting => ?_) resting
    rcases resting with phase | ⟨-, length, sized⟩
    · have free : ∀ programmed dev, Phase true .idle false dev → Chosen true c programmed dev :=
        fun _ dev phase => ⟨.inl phase, fun _ => ⟨.inl phase, .inr phase.engine_eq⟩⟩
      exact safe_value (Phase.steady true .idle false) (free _) phase
    · have busy : ∀ dev, Sized true (.moving length) true length dev → Chosen true c false dev :=
        fun dev sized => ⟨.inr ⟨rfl, length, sized⟩, fun programmed => absurd programmed Bool.false_ne_true⟩
      rw [sized.1.running_eq]
      exact safe_value (Sized.steady _ _ _ _) busy sized
  · have selected := kind status
    have free : ∀ dev, Resting true dev → Chosen true c true dev :=
      fun dev resting => ⟨resting, fun _ => ⟨resting, .inl selected⟩⟩
    exact safe_value (Resting.steady _) free resting
  · refine (fnFastUartRxDma_safe resting).andThen fun result dev attempted => ?_
    refine safe_value (Attempted.steady result)
      (fun dev attempted => ⟨attempted.1, fun programmed => ?_⟩) attempted
    exact ⟨attempted.1, .inr (attempted.2 (of_decide_eq_true programmed))⟩

theorem choose_safe {iir : UInt32} {dma : Bool} (kind : iir &&& 0x3f = uartIirRlsi → c.LineStatus)
    (resting : Resting dma dev) :
    Safe (act c) drift anything InOrder (Chosen dma c) (unlessDma dma (fnFastUartHandleRxDma iir)) dev := by
  unfold unlessDma
  split_ifs with unwired
  · rcases resting with phase | ⟨wired, -⟩
    · have free : ∀ dev, Phase dma .idle false dev → Chosen dma c true dev :=
        fun dev phase => ⟨.inl phase, fun _ => ⟨.inl phase, .inr phase.engine_eq⟩⟩
      exact safe_value (Phase.steady dma .idle false) free phase
    · rw [unwired] at wired
      cases wired
  · have wired : dma = true := by simpa using unwired
    subst wired
    exact fnFastUartHandleRxDma_safe kind resting

theorem receive_safe {iir : UInt32} {dma : Bool} {status : UInt8}
    (kind : iir &&& 0x3f = uartIirRlsi → c.LineStatus) (resting : Resting dma dev) :
    Safe (act c) drift anything InOrder (fun _ => Resting dma) (receive iir status) dev := by
  have steady := Resting.steady dma
  unfold receive
  split_ifs
  · exact safe_value steady (fun _ resting => resting) resting
  · refine safe_read .hasDma Device.dma steady (fun _ => rfl) (fun dev resting => ?_) resting
    rw [resting.dma_eq]
    refine (choose_safe kind resting).andThen fun programmed dev chosen => ?_
    split_ifs with selected
    · exact serial8250RxChars_safe (chosen.2 selected)
    · exact safe_value steady (fun _ resting => resting) chosen.1

theorem transmitError_safe {wired : Bool} (steady : Steady drift InOrder P) (holds : P dev) :
    Safe (act c) drift anything InOrder (fun _ => P) (unlessDma wired txErr) dev := by
  have kept : ∀ dev, P dev → P dev := fun _ holds => holds
  unfold unlessDma
  split_ifs
  · exact safe_value steady kept holds
  · exact safe_effect steady kept (fun _ _ => safe_done steady kept) holds

theorem fnFastUartHandleIrq_safe {iir : UInt32} {dma : Bool} (kind : iir &&& 0x3f = uartIirRlsi → c.LineStatus)
    (resting : Resting dma dev) :
    Safe (act c) drift anything InOrder (fun _ => Resting dma) (fnFastUartHandleIrq iir) dev := by
  have steady := Resting.steady dma
  have unlocked : ∀ dev, Resting dma dev → Safe (act c) drift anything InOrder (fun _ => Resting dma)
      (spinUnlockIrqrestore >>= fun _ => pure (1 : Int)) dev :=
    fun dev => safe_effect steady (fun _ resting => resting)
      fun _ dev => safe_value steady fun _ resting => resting
  unfold fnFastUartHandleIrq
  split_ifs
  · exact safe_value steady (fun _ resting => resting) resting
  refine safe_effect steady (fun _ resting => resting) (fun _ dev resting => ?_) resting
  refine safe_effect steady (fun _ resting => resting) (fun status dev resting => ?_) resting
  refine (receive_safe kind resting).andThen fun status dev resting => ?_
  refine safe_effect steady (fun _ resting => resting) (fun _ dev resting => ?_) resting
  refine safe_effect steady (fun _ resting => resting) (fun wired dev resting => ?_) resting
  refine (transmitError_safe steady resting).andThen fun programmed dev resting => ?_
  unfold onlyIf
  split_ifs
  · refine safe_effect steady (fun _ resting => resting) (fun _ dev resting => ?_) resting
    exact unlocked dev resting
  · exact unlocked dev resting

end

end FlukeCda.FastUart
