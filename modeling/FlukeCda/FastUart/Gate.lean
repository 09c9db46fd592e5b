import FlukeCda.Data.Bits
import FlukeCda.FastUart.Source
import FlukeCda.Interaction.Session

/-! # The receive interrupt gate

Which of the receive interrupt and the receive DMA is at work, over every
sequence of interrupts and completions. What the line, the FIFO and the DMA
channel answer is left open.
-/

namespace FlukeCda.FastUart
open Interaction Program Relation Bits

/-- The fields that gate reception, and the number of transfers that are
submitted and not completed. `settings` is what the functions of the serial core
have made of the interrupt enable bits other than the receive one. -/
structure Gate where
  rxRunning : Bool
  ier : UInt8
  ierRegister : UInt8
  outstanding : Nat
  settings : UInt8
  locked : Bool

def Gate.started (ier : UInt8) : Gate := ⟨false, ier, ier, 0, ier &&& ~~~uartIerRdi, false⟩

inductive GateCall
  | handleIrq (iir : UInt32)
  | rxComplete

def GateCall.code : GateCall → Code Unit
  | .handleIrq iir => fnFastUartHandleIrq iir >>= fun _ => pure ()
  | .rxComplete => fnFastUartDmaRxComplete

/-- Transfers that count as completed from the moment this call has the lock. -/
def GateCall.completes : GateCall → Nat
  | .handleIrq _ => 0
  | .rxComplete => 1

/-- What an operation does to the gate. The functions of the serial core may
change every other enable bit, in memory and in the hardware alike. -/
def gateAct (made : GateCall) : (op : Op) → Answer op → Gate → Gate → Prop
  | .spinLockIrqsave, _, gate, after =>
    gate.locked = false ∧ after = { gate with locked := true, outstanding := gate.outstanding - made.completes }
  | .spinUnlockIrqrestore, _, gate, after => after = { gate with locked := false }
  | .hasDma, answer, gate, after => answer = true ∧ after = gate
  | .rxRunning, answer, gate, after => answer = gate.rxRunning ∧ after = gate
  | .setRxRunning running, _, gate, after => after = { gate with rxRunning := running }
  | .ier, answer, gate, after => answer = gate.ier ∧ after = gate
  | .setIer value, _, gate, after => after = { gate with ier := value }
  | .serialOutIer value, _, gate, after => after = { gate with ierRegister := value }
  | .submit _, _, gate, after => after = { gate with outstanding := gate.outstanding + 1 }
  | .rxChar, _, gate, after | .rxCharsStatus, _, gate, after | .modemStatus, _, gate, after
  | .txChars, _, gate, after => ∃ settings, settings &&& uartIerRdi = 0 ∧
      after = { gate with settings, ier := (gate.ier &&& uartIerRdi) ||| settings,
                          ierRegister := (gate.ierRegister &&& uartIerRdi) ||| settings }
  | _, _, gate, after => after = gate

/-- The callback is called only for a transfer that is still outstanding. -/
def gateBegins : GateCall → Gate → Gate → Prop
  | .handleIrq _, gate, after => after = gate
  | .rxComplete, gate, after => 0 < gate.outstanding ∧ after = gate

/-- Interrupts and completions one after another: both take the port lock first
and release it last. -/
def gateService : Service GateCall Op Answer Unit Gate where
  code := GateCall.code
  begins := gateBegins
  ends := fun _ _ gate after => after = gate
  act := gateAct
  drift := fun _ _ => False

/-- The gate is open with no transfer, or closed with a single one. -/
structure Gated (gate : Gate) : Prop where
  single : gate.rxRunning = true ↔ gate.outstanding = 1
  atMost : gate.outstanding ≤ 1
  masked : gate.ier &&& uartIerRdi = 0 ↔ gate.rxRunning = true
  written : gate.ierRegister = gate.ier
  others : gate.ier &&& ~~~uartIerRdi = gate.settings

/-- The enable bits with the receive bit masked, or not. -/
def gateBits (masked : Bool) (settings : UInt8) : UInt8 := if masked then settings else settings ||| uartIerRdi

section Bits

variable {settings : UInt8} (clear : settings &&& uartIerRdi = 0) (masked : Bool)
include clear

theorem clear_others : settings &&& ~~~uartIerRdi = settings := by
  have split := and_or_not settings uartIerRdi
  rwa [clear, UInt8.zero_or] at split

theorem gateBits_rdi : gateBits masked settings &&& uartIerRdi = if masked then 0 else uartIerRdi := by
  cases masked with
  | false =>
    have own : (settings ||| uartIerRdi) &&& uartIerRdi = uartIerRdi := by
      rw [or_and_distrib, clear, UInt8.zero_or, UInt8.and_self]
    exact own
  | true => exact clear

theorem gateBits_others : gateBits masked settings &&& ~~~uartIerRdi = settings := by
  have own := clear_others clear
  cases masked with
  | false =>
    have same : (settings ||| uartIerRdi) &&& ~~~uartIerRdi = settings := by
      rw [or_and_distrib, own, UInt8.and_not_self, UInt8.or_zero]
    exact same
  | true => exact own

theorem gateBits_masked : gateBits masked settings &&& uartIerRdi = 0 ↔ masked = true := by
  rw [gateBits_rdi clear]
  cases masked <;> decide

theorem gateBits_settings (other : UInt8) :
    (gateBits masked settings &&& uartIerRdi) ||| other = gateBits masked other := by
  rw [gateBits_rdi clear]
  cases masked with
  | false => exact UInt8.or_comm uartIerRdi other
  | true => exact UInt8.zero_or

theorem gateBits_close : gateBits false settings &&& ~~~uartIerRdi = gateBits true settings :=
  gateBits_others clear false

end Bits

/-- Where the gate stands: the lock, `rx_running`, the mask and the number of outstanding transfers. -/
structure Held (locked running masked : Bool) (outstanding : Nat) (gate : Gate) : Prop where
  locked_eq : gate.locked = locked
  running_eq : gate.rxRunning = running
  outstanding_eq : gate.outstanding = outstanding
  clear : gate.settings &&& uartIerRdi = 0
  ier_eq : gate.ier = gateBits masked gate.settings
  written : gate.ierRegister = gate.ier

/-- Closed with one transfer, or open with none. -/
def Shut (locked closed : Bool) : Gate → Prop := Held locked closed closed closed.toNat

theorem Shut.gated {locked closed : Bool} {gate : Gate} (shut : Shut locked closed gate) : Gated gate := by
  obtain ⟨-, running, outstanding, clear, ier, written⟩ := shut
  refine ⟨?_, ?_, ?_, written, ?_⟩
  · rw [running, outstanding]
    cases closed <;> decide
  · rw [outstanding]
    cases closed <;> decide
  · rw [ier, running]
    exact gateBits_masked clear closed
  · rw [ier]
    exact gateBits_others clear closed

/-- What holds at every moment. -/
def GateOk (gate : Gate) : Prop := gate.locked = false → Gated gate

def Idle (gate : Gate) : Prop := ∃ closed, Shut false closed gate

def Inside (gate : Gate) : Prop := ∃ closed, Shut true closed gate

theorem undisturbed (P : Gate → Prop) : Stable gateService.drift P := fun _ _ impossible => impossible.elim

theorem locked_steady {P : Gate → Prop} (locked : ∀ gate, P gate → gate.locked = true) :
    Steady gateService.drift GateOk P := by
  refine ⟨undisturbed P, fun gate holds free => ?_⟩
  rw [locked gate holds] at free
  cases free

theorem Held.steady (running masked : Bool) (outstanding : Nat) :
    Steady gateService.drift GateOk (Held true running masked outstanding) :=
  locked_steady fun _ held => held.locked_eq

theorem Inside.steady : Steady gateService.drift GateOk Inside :=
  locked_steady fun _ ⟨_, shut⟩ => shut.locked_eq

theorem Idle.steady : Steady gateService.drift GateOk Idle :=
  ⟨undisturbed Idle, fun _ ⟨_, shut⟩ _ => shut.gated⟩

/-- The operations that leave the gate alone. -/
def Neutral : Op → Prop
  | .spinLockIrqsave | .spinUnlockIrqrestore | .setRxRunning _ | .setIer _ | .serialOutIer _ | .submit _ => False
  | _ => True

theorem Held.neutral {made : GateCall} {op : Op} {answer : Answer op} {locked running masked : Bool}
    {outstanding : Nat} {gate after : Gate} (neutral : Neutral op) (held : Held locked running masked outstanding gate)
    (acts : gateAct made op answer gate after) : Held locked running masked outstanding after := by
  have core : (∃ settings, settings &&& uartIerRdi = 0 ∧
      after = { gate with settings, ier := (gate.ier &&& uartIerRdi) ||| settings,
                          ierRegister := (gate.ierRegister &&& uartIerRdi) ||| settings }) →
      Held locked running masked outstanding after := by
    rintro ⟨settings, clear, rfl⟩
    refine ⟨held.locked_eq, held.running_eq, held.outstanding_eq, clear, ?_, ?_⟩
    · simp only [held.ier_eq]
      exact gateBits_settings held.clear masked settings
    · simp only [held.written]
  cases op with
  | spinLockIrqsave | spinUnlockIrqrestore | setRxRunning | setIer | serialOutIer | submit => exact neutral.elim
  | hasDma | rxRunning | ier =>
    obtain ⟨-, rfl⟩ := acts
    exact held
  | rxChar | rxCharsStatus | modemStatus | txChars => exact core acts
  | _ =>
    cases acts
    exact held

section Programs
variable {made : GateCall} {α : Type}

/-- Safe for the gate: the gate is as it should be whenever the lock is free. -/
abbrev GateSafe (made : GateCall) (Q : α → Gate → Prop) : Code α → Gate → Prop :=
  Safe (gateAct made) gateService.drift anything GateOk Q

theorem neutral_held {p : Code α} {running masked : Bool} {outstanding : Nat} {gate : Gate}
    (only : OnlyPerforms Neutral p) (held : Held true running masked outstanding gate) :
    GateSafe made (fun _ => Held true running masked outstanding) p gate :=
  safe_only (Held.steady running masked outstanding) (fun _ _ _ _ => trivial)
    (fun _ _ _ _ neutral held acts => held.neutral neutral acts) only held

theorem neutral_inside {p : Code α} {gate : Gate} (only : OnlyPerforms Neutral p) (inside : Inside gate) :
    GateSafe made (fun _ => Inside) p gate :=
  safe_only Inside.steady (fun _ _ _ _ => trivial)
    (fun _ _ _ _ neutral ⟨closed, shut⟩ acts => ⟨closed, Held.neutral neutral shut acts⟩) only inside

theorem neutral_rxFifoLevelFrom (rounds old : Nat) : OnlyPerforms Neutral (rxFifoLevelFrom rounds old) := by
  induction rounds generalizing old with
  | zero => exact ⟨trivial, fun never => never.elim⟩
  | succ rounds ih =>
    refine onlyPerforms_step trivial fun lsb => onlyPerforms_step trivial fun msb => ?_
    split_ifs
    · trivial
    · exact ih msb

theorem neutral_rxFifoLevel : OnlyPerforms Neutral rxFifoLevel :=
  onlyPerforms_step trivial (neutral_rxFifoLevelFrom 257)

theorem neutral_limitRxXferLength (fifoLevel : Nat) : OnlyPerforms Neutral (limitRxXferLength fifoLevel) := by
  refine onlyPerforms_step trivial fun _ => onlyPerforms_step trivial fun length =>
    onlyPerforms_step trivial fun size => ?_
  unfold onlyIf
  split_ifs
  · exact ⟨trivial, fun _ => trivial⟩
  · trivial

theorem neutral_rxCharsLoop (n : Nat) : OnlyPerforms Neutral (rxCharsLoop n) := by
  induction n with
  | zero => trivial
  | succ n ih => exact onlyPerforms_step trivial fun _ => ih

theorem neutral_serial8250RxChars : OnlyPerforms Neutral serial8250RxChars :=
  onlyPerforms_step trivial fun count => onlyPerforms_bind (neutral_rxCharsLoop count) fun _ =>
    ⟨trivial, fun _ => trivial⟩

theorem neutral_transmitError (wired : Bool) : OnlyPerforms Neutral (unlessDma wired txErr) := by
  unfold unlessDma
  split_ifs
  · trivial
  · exact ⟨trivial, fun _ => trivial⟩

/-- With the lock held, an operation is safe when what comes after it is. -/
theorem gate_perform {Q : α → Gate → Prop} {op : Op} {f : Answer op → Code α} {gate : Gate}
    (locked : gate.locked = true)
    (step : ∀ answer after, gateAct made op answer gate after → GateSafe made Q (f answer) after) :
    GateSafe made Q (perform op >>= f) gate := by
  have steady : Steady gateService.drift GateOk fun now => now = gate :=
    locked_steady fun now same => same ▸ locked
  refine safe_perform steady (fun _ _ => trivial) (fun now answer after same acts => ?_) rfl
  exact step answer after (same ▸ acts)

theorem gate_done {P : Gate → Prop} {Q : α → Gate → Prop} {value : α} {gate : Gate}
    (steady : Steady gateService.drift GateOk P) (post : ∀ gate, P gate → Q value gate) (holds : P gate) :
    GateSafe made Q (pure value) gate := safe_done steady post holds

/-- The new mask goes to memory and from there to the hardware. -/
theorem updateIer_gate {f : UInt8 → UInt8} {running masked masked' : Bool} {outstanding : Nat} {gate : Gate}
    (turns : ∀ settings, settings &&& uartIerRdi = 0 → f (gateBits masked settings) = gateBits masked' settings)
    (held : Held true running masked outstanding gate) :
    GateSafe made (fun _ => Held true running masked' outstanding) (updateIer f) gate := by
  have turned := turns gate.settings held.clear
  rw [← held.ier_eq] at turned
  refine gate_perform held.locked_eq fun old after acts => ?_
  obtain ⟨rfl, rfl⟩ := acts
  refine gate_perform held.locked_eq fun _ after acts => ?_
  cases acts
  refine gate_perform held.locked_eq fun new after acts => ?_
  obtain ⟨rfl, rfl⟩ := acts
  refine gate_perform held.locked_eq fun _ after acts => ?_
  cases acts
  exact gate_done (Held.steady running masked' outstanding) (fun _ now => now)
    ⟨held.locked_eq, held.running_eq, held.outstanding_eq, held.clear, turned, rfl⟩

/-- Starting a transfer closes the gate. -/
theorem startRxDma_gate {desc : Desc} {gate : Gate} (opened : Shut true false gate) :
    GateSafe made (fun _ => Inside) (startRxDma desc) gate := by
  refine gate_perform opened.locked_eq fun _ after acts => ?_
  cases acts
  have marked : Held true true false 0 { gate with rxRunning := true } :=
    ⟨opened.locked_eq, rfl, opened.outstanding_eq, opened.clear, opened.ier_eq, opened.written⟩
  have closes : ∀ settings, settings &&& uartIerRdi = 0 →
      gateBits false settings &&& ~~~uartIerRdi = gateBits true settings := fun _ clear => gateBits_close clear
  refine (updateIer_gate closes marked).andThen fun _ gate masked => ?_
  refine gate_perform masked.locked_eq fun _ after acts => ?_
  cases acts
  have shut : Shut true true { gate with outstanding := gate.outstanding + 1 } :=
    ⟨masked.locked_eq, masked.running_eq, congrArg (· + 1) masked.outstanding_eq, masked.clear, masked.ier_eq,
      masked.written⟩
  refine neutral_inside ?_ ⟨true, shut⟩
  exact onlyPerforms_step trivial fun length => onlyPerforms_step trivial fun _ =>
    onlyPerforms_step trivial fun _ => trivial

theorem prepareRxDma_gate {gate : Gate} (opened : Shut true false gate) :
    GateSafe made (fun _ => Inside) prepareRxDma gate := by
  refine gate_perform opened.locked_eq fun length after acts => ?_
  cases acts
  refine gate_perform opened.locked_eq fun desc after acts => ?_
  cases acts
  cases desc with
  | none => exact gate_done Inside.steady (fun _ inside => inside) ⟨false, opened⟩
  | some desc => exact startRxDma_gate opened

theorem fnFastUartRxDma_gate {gate : Gate} (inside : Inside gate) :
    GateSafe made (fun _ => Inside) fnFastUartRxDma gate := by
  obtain ⟨closed, shut⟩ := inside
  refine gate_perform shut.locked_eq fun running after acts => ?_
  obtain ⟨rfl, rfl⟩ := acts
  rw [shut.running_eq]
  cases closed with
  | true => exact gate_done Inside.steady (fun _ inside => inside) ⟨true, shut⟩
  | false =>
    refine (neutral_held neutral_rxFifoLevel shut).andThen fun fifoLevel gate opened => ?_
    split_ifs
    · exact gate_done Inside.steady (fun _ inside => inside) ⟨false, opened⟩
    · exact (neutral_held (neutral_limitRxXferLength fifoLevel) opened).andThen fun _ gate opened =>
        prepareRxDma_gate opened

theorem fnFastUartHandleRxDma_gate {iir : UInt32} {gate : Gate} (inside : Inside gate) :
    GateSafe made (fun _ => Inside) (fnFastUartHandleRxDma iir) gate := by
  unfold fnFastUartHandleRxDma
  split_ifs
  · exact neutral_inside (onlyPerforms_step trivial fun _ => trivial) inside
  · exact gate_done Inside.steady (fun _ inside => inside) inside
  · exact (fnFastUartRxDma_gate inside).andThen fun result gate inside =>
      gate_done Inside.steady (fun _ inside => inside) inside

theorem receive_gate {iir : UInt32} {status : UInt8} {gate : Gate} (inside : Inside gate) :
    GateSafe made (fun _ => Inside) (receive iir status) gate := by
  have kept : ∀ gate, Inside gate → Inside gate := fun _ inside => inside
  unfold receive
  split_ifs
  · exact gate_done Inside.steady kept inside
  · have wired : OnlyPerforms Neutral hasDma := ⟨trivial, fun _ => trivial⟩
    refine (neutral_inside wired inside).andThen fun dma gate inside => ?_
    have chosen : GateSafe made (fun _ => Inside) (unlessDma dma (fnFastUartHandleRxDma iir)) gate := by
      unfold unlessDma
      split_ifs
      · exact gate_done Inside.steady kept inside
      · exact fnFastUartHandleRxDma_gate inside
    refine chosen.andThen fun programmed gate inside => ?_
    split_ifs
    · exact neutral_inside neutral_serial8250RxChars inside
    · exact gate_done Inside.steady kept inside

/-- Releasing the lock, with nothing but a result left to give. -/
theorem unlock_gate {value : α} {gate : Gate} (inside : Inside gate) :
    GateSafe made (fun _ => Idle) (spinUnlockIrqrestore >>= fun _ => pure value) gate := by
  obtain ⟨closed, shut⟩ := inside
  refine gate_perform shut.locked_eq fun _ after acts => ?_
  cases acts
  have free : Shut false closed { gate with locked := false } :=
    ⟨rfl, shut.running_eq, shut.outstanding_eq, shut.clear, shut.ier_eq, shut.written⟩
  exact gate_done Idle.steady (fun _ idle => idle) ⟨closed, free⟩

theorem fnFastUartHandleIrq_gate {iir : UInt32} {gate : Gate} (idle : Idle gate) :
    GateSafe (.handleIrq iir) (fun _ => Idle) (fnFastUartHandleIrq iir) gate := by
  unfold fnFastUartHandleIrq
  split_ifs
  · exact gate_done Idle.steady (fun _ idle => idle) idle
  refine safe_perform Idle.steady (fun _ _ => trivial) (fun gate _ after idle acts => ?_) idle
  obtain ⟨closed, shut⟩ := idle
  obtain ⟨-, rfl⟩ := acts
  have inside : Inside { gate with locked := true, outstanding := gate.outstanding - 0 } :=
    ⟨closed, rfl, shut.running_eq, shut.outstanding_eq, shut.clear, shut.ier_eq, shut.written⟩
  have status : OnlyPerforms Neutral serialPortInLsr := ⟨trivial, fun _ => trivial⟩
  have modem : OnlyPerforms Neutral modemStatus := ⟨trivial, fun _ => trivial⟩
  have wired : OnlyPerforms Neutral hasDma := ⟨trivial, fun _ => trivial⟩
  refine (neutral_inside status inside).andThen fun status gate inside => ?_
  refine (receive_gate inside).andThen fun status gate inside => ?_
  refine (neutral_inside modem inside).andThen fun _ gate inside => ?_
  refine (neutral_inside wired inside).andThen fun dma gate inside => ?_
  refine (neutral_inside (neutral_transmitError dma) inside).andThen fun programmed gate inside => ?_
  have transmits : OnlyPerforms Neutral (onlyIf (programmed = true ∧ status &&& uartLsrThre ≠ 0) txChars) := by
    unfold onlyIf
    split_ifs
    · exact ⟨trivial, fun _ => trivial⟩
    · trivial
  exact (neutral_inside transmits inside).andThen fun _ gate inside => unlock_gate inside

/-- A completion opens the gate again. -/
theorem fnFastUartDmaRxComplete_gate {gate : Gate} (shut : Shut false true gate) :
    GateSafe .rxComplete (fun _ => Idle) fnFastUartDmaRxComplete gate := by
  have waiting : Steady gateService.drift GateOk (Shut false true) :=
    ⟨undisturbed _, fun _ shut _ => shut.gated⟩
  refine safe_perform waiting (fun _ _ => trivial) (fun gate _ after shut acts => ?_) shut
  obtain ⟨-, rfl⟩ := acts
  have completed : Held true true true 0 { gate with locked := true, outstanding := gate.outstanding - 1 } :=
    ⟨rfl, shut.running_eq, congrArg (· - 1) shut.outstanding_eq, shut.clear, shut.ier_eq, shut.written⟩
  have opens : ∀ settings, settings &&& uartIerRdi = 0 →
      gateBits true settings ||| uartIerRdi = gateBits false settings := fun _ _ => rfl
  refine gate_perform completed.locked_eq fun length after acts => ?_
  cases acts
  refine gate_perform completed.locked_eq fun _ after acts => ?_
  cases acts
  refine gate_perform completed.locked_eq fun _ after acts => ?_
  cases acts
  have stopped : Held true false true 0
      { gate with locked := true, outstanding := gate.outstanding - 1, rxRunning := false } :=
    ⟨rfl, rfl, completed.outstanding_eq, shut.clear, shut.ier_eq, shut.written⟩
  refine (updateIer_gate opens stopped).andThen fun _ gate opened => ?_
  refine gate_perform opened.locked_eq fun residue after acts => ?_
  cases acts
  refine gate_perform opened.locked_eq fun length after acts => ?_
  cases acts
  refine gate_perform opened.locked_eq fun _ after acts => ?_
  cases acts
  exact @unlock_gate _ _ () _ ⟨false, opened⟩

end Programs

/-- Calls keep the gate. -/
theorem gateService_sound : gateService.Sound (fun _ => anything) GateOk Idle := by
  refine ⟨Idle.steady, fun made gate after idle begins => ?_⟩
  have ended : ∀ (value : Unit) gate, Idle gate → ∀ after, after = gate → Idle after :=
    fun _ gate idle after same => same ▸ idle
  cases made with
  | handleIrq iir =>
    cases begins
    have safe : GateSafe (.handleIrq iir) (fun _ => Idle) (fnFastUartHandleIrq iir) gate :=
      fnFastUartHandleIrq_gate idle
    refine (safe.andThen fun result gate idle => ?_).mono (fun _ here => here) ended
    exact gate_done Idle.steady (fun _ idle => idle) idle
  | rxComplete =>
    obtain ⟨outstanding, rfl⟩ := begins
    obtain ⟨closed, shut⟩ := idle
    cases closed with
    | false =>
      have none := shut.outstanding_eq
      rw [none] at outstanding
      exact absurd outstanding (Nat.lt_irrefl 0)
    | true => exact (fnFastUartDmaRxComplete_gate shut).mono (fun _ here => here) ended

/-- The receive bit is a single one. -/
theorem rdi_set {ier : UInt8} (enabled : ier &&& uartIerRdi ≠ 0) : ier &&& uartIerRdi = uartIerRdi := by
  have bit : (ier &&& uartIerRdi).toNat = ier.toNat % 2 := Nat.and_two_pow_sub_one_eq_mod ier.toNat 1
  have nonzero : (ier &&& uartIerRdi).toNat ≠ 0 := fun zero => enabled (UInt8.toNat_inj.mp zero)
  have one : uartIerRdi.toNat = 1 := rfl
  apply UInt8.toNat_inj.mp
  omega

theorem Gate.started_idle {ier : UInt8} (enabled : ier &&& uartIerRdi ≠ 0) : Idle (Gate.started ier) := by
  have clear : (ier &&& ~~~uartIerRdi) &&& uartIerRdi = 0 := by
    rw [UInt8.and_assoc, UInt8.not_and_self, UInt8.and_zero]
  have whole : ier = (ier &&& ~~~uartIerRdi) ||| uartIerRdi := by
    have split := and_or_not ier uartIerRdi
    rw [rdi_set enabled, UInt8.or_comm] at split
    exact split.symm
  exact ⟨false, rfl, rfl, rfl, clear, whole, rfl⟩

/-- Whenever the port lock is free, over every sequence of interrupts and
completions, reception is masked exactly while its one transfer is outstanding. -/
theorem reception_gated {ier : UInt8} (enabled : ier &&& uartIerRdi ≠ 0)
    {later : Session GateCall Op Answer Unit Gate}
    (run : ReflTransGen gateService.Step ⟨Gate.started ier, none⟩ later) (free : later.state.locked = false) :
    Gated later.state :=
  gateService_sound.invariant (Gate.started_idle enabled) run free

/-- An interrupt with four bytes in the FIFO submits a transfer of three and masks
reception; its completion unmasks it. -/
theorem reception_gated_completed :
    ∃ masked unmasked : Session GateCall Op Answer Unit Gate,
      ReflTransGen gateService.Step ⟨Gate.started 0x05, none⟩ masked ∧ ReflTransGen gateService.Step masked unmasked ∧
        masked.state.outstanding = 1 ∧ masked.state.ierRegister = 0x04 ∧ Gated masked.state ∧
        unmasked.state.outstanding = 0 ∧ unmasked.state.ierRegister = 0x05 ∧ Gated unmasked.state := by
  have enabled : (0x05 : UInt8) &&& uartIerRdi ≠ 0 := by decide
  have begins : ∀ {made : GateCall} {s t : Gate}, gateBegins made s t →
      gateService.Step ⟨s, none⟩ ⟨t, some (made, made.code)⟩ := fun begins => .begin begins
  have performs : ∀ {made : GateCall} {op : Op} {next : Answer op → Code Unit} {answer : Answer op} {s t : Gate},
      gateAct made op answer s t →
      gateService.Step ⟨s, some (made, .call op next)⟩ ⟨t, some (made, next answer)⟩ := fun acts => .perform acts
  have finishes : ∀ {made : GateCall} {s : Gate}, gateService.Step ⟨s, some (made, .done ())⟩ ⟨s, none⟩ := .finish rfl
  have runs : ∃ masked : Session GateCall Op Answer Unit Gate,
      ReflTransGen gateService.Step ⟨Gate.started 0x05, none⟩ masked ∧
        (masked.state.locked = false ∧ masked.state.outstanding = 1 ∧ masked.state.ierRegister = 0x04) ∧
        ∃ unmasked, ReflTransGen gateService.Step masked unmasked ∧
          unmasked.state.locked = false ∧ unmasked.state.outstanding = 0 ∧ unmasked.state.ierRegister = 0x05 := by
    refine ⟨?masked, ?submits, ?closed, ?unmasked, ?completes, ?opened⟩
    case submits =>
      refine .head (begins (show gateBegins (.handleIrq 0x04) _ _ from rfl)) ?_
      refine .head (performs (show gateAct _ .spinLockIrqsave () _ _ from ⟨rfl, rfl⟩)) ?_
      refine .head (performs (show gateAct _ .serialPortInLsr 0x01 _ _ from rfl)) ?_
      refine .head (performs (show gateAct _ .hasDma true _ _ from ⟨rfl, rfl⟩)) ?_
      refine .head (performs (show gateAct _ .rxRunning false _ _ from ⟨rfl, rfl⟩)) ?_
      refine .head (performs (show gateAct _ .readFifoMsb (0 : Nat) _ _ from rfl)) ?_
      refine .head (performs (show gateAct _ .readFifoLsb (4 : Nat) _ _ from rfl)) ?_
      refine .head (performs (show gateAct _ .readFifoMsb (0 : Nat) _ _ from rfl)) ?_
      refine .head (performs (show gateAct _ (.setRxXferLength 3) () _ _ from rfl)) ?_
      refine .head (performs (show gateAct _ .rxXferLength (3 : Nat) _ _ from rfl)) ?_
      refine .head (performs (show gateAct _ .rxSize (5 : Nat) _ _ from rfl)) ?_
      refine .head (performs (show gateAct _ .rxXferLength (3 : Nat) _ _ from rfl)) ?_
      refine .head (performs (show gateAct _ (.prepSlaveSingle 3) (some ⟨3⟩) _ _ from rfl)) ?_
      refine .head (performs (show gateAct _ (.setRxRunning true) () _ _ from rfl)) ?_
      refine .head (performs (show gateAct _ .ier 0x05 _ _ from ⟨rfl, rfl⟩)) ?_
      refine .head (performs (show gateAct _ (.setIer 0x04) () _ _ from rfl)) ?_
      refine .head (performs (show gateAct _ .ier 0x04 _ _ from ⟨rfl, rfl⟩)) ?_
      refine .head (performs (show gateAct _ (.serialOutIer 0x04) () _ _ from rfl)) ?_
      refine .head (performs (show gateAct _ (.submit ⟨3⟩) () _ _ from rfl)) ?_
      refine .head (performs (show gateAct _ .rxXferLength (3 : Nat) _ _ from rfl)) ?_
      refine .head (performs (show gateAct _ (.syncSingleForDevice 3) () _ _ from rfl)) ?_
      refine .head (performs (show gateAct _ .issuePending () _ _ from rfl)) ?_
      refine .head (performs (show gateAct _ .modemStatus () _ _ from ⟨0x04, rfl, rfl⟩)) ?_
      refine .head (performs (show gateAct _ .hasDma true _ _ from ⟨rfl, rfl⟩)) ?_
      refine .head (performs (show gateAct _ .txErr false _ _ from rfl)) ?_
      refine .head (performs (show gateAct _ .spinUnlockIrqrestore () _ _ from rfl)) ?_
      change ReflTransGen gateService.Step ⟨_, some (_, Program.done ())⟩ _
      refine .head finishes ?_
      exact .refl
    case closed => exact ⟨rfl, rfl, rfl⟩
    case completes =>
      refine .head (begins (show gateBegins .rxComplete _ _ from ⟨Nat.zero_lt_one, rfl⟩)) ?_
      refine .head (performs (show gateAct _ .spinLockIrqsave () _ _ from ⟨rfl, rfl⟩)) ?_
      refine .head (performs (show gateAct _ .rxXferLength (3 : Nat) _ _ from rfl)) ?_
      refine .head (performs (show gateAct _ (.syncSingleForCpu 3) () _ _ from rfl)) ?_
      refine .head (performs (show gateAct _ (.setRxRunning false) () _ _ from rfl)) ?_
      refine .head (performs (show gateAct _ .ier 0x04 _ _ from ⟨rfl, rfl⟩)) ?_
      refine .head (performs (show gateAct _ (.setIer 0x05) () _ _ from rfl)) ?_
      refine .head (performs (show gateAct _ .ier 0x05 _ _ from ⟨rfl, rfl⟩)) ?_
      refine .head (performs (show gateAct _ (.serialOutIer 0x05) () _ _ from rfl)) ?_
      refine .head (performs (show gateAct _ .txStatusResidue (0 : Nat) _ _ from rfl)) ?_
      refine .head (performs (show gateAct _ .rxXferLength (3 : Nat) _ _ from rfl)) ?_
      refine .head (performs (show gateAct _ (.ttyInsertFlipString 3) () _ _ from rfl)) ?_
      refine .head (performs (show gateAct _ .spinUnlockIrqrestore () _ _ from rfl)) ?_
      change ReflTransGen gateService.Step ⟨_, some (_, Program.done ())⟩ _
      refine .head finishes ?_
      exact .refl
    case opened => exact ⟨rfl, rfl, rfl⟩
  obtain ⟨masked, submits, ⟨free, outstanding, register⟩, unmasked, completes, free', outstanding', register'⟩ := runs
  exact ⟨masked, unmasked, submits, completes, outstanding, register, reception_gated enabled submits free,
    outstanding', register', reception_gated enabled (submits.trans completes) free'⟩

end FlukeCda.FastUart
