import FlukeCda.Gpio.Exclusion
import FlukeCda.Interaction.Careful

/-! # The direction register

Readers, writers and the interrupt handler turn the pins around for themselves.
Each of them does so inside the semaphore, before it touches the data.
-/

namespace FlukeCda.Gpio
open Interaction Program Port

/-- The port asks for its pins to be turned around. -/
def TurnsAround (fgpiop : FgpioPort) : Prop := fgpiop.direction &&& 0x100 ≠ 0

/-- The pins that writers drive. -/
def outputMask (fgpiop : FgpioPort) : UInt32 := if fgpiop.direction &&& 0x100 ≠ 0 then 0xff else fgpiop.direction &&& 0xff

/-- What a call may put in the direction register. -/
def Call.Directs (fgpiop : FgpioPort) : Call → UInt32 → Prop
  | .write _, value => value = outputMask fgpiop
  | .read _, value => fgpiop.irq = 0 ∧ TurnsAround fgpiop ∧ value = 0
  | .irq, value => TurnsAround fgpiop ∧ value = 0
  | .ioctl _ _, _ => False

/-- What an operation of a call needs of the data it is performed on. -/
structure Permitted (fgpiop : FgpioPort) (x : Call × Op) (d : PortData) : Prop where
  written : ∀ value, x.2 = .iowrite32 value 0 → (∃ count, x.1 = .write count) ∧
    d.registers 4 = outputMask fgpiop ∧ value &&& ~~~(fgpiop.bits &&& outputMask fgpiop) = 0
  sampled : ∀ count, x = (.read count, .ioread32 0) → TurnsAround fgpiop → d.registers 4 = 0
  edges : x = (.irq, .ioread32 12) → TurnsAround fgpiop → d.registers 4 = 0
  directed : ∀ value, x.2 = .iowrite32 value 4 → x.1.Directs fgpiop value

/-- The direction register after an operation, with the one before it. -/
structure Disciplined (fgpiop : FgpioPort) (x : Call × Op) (d d' : PortData) : Prop where
  permitted : Permitted fgpiop x d
  changed : d'.registers 4 = d.registers 4 ∨ x.1.Directs fgpiop (d'.registers 4)

def IsTaggedCall (fgpiop : FgpioPort) (p : Program (Call × Op) (fun x => Answer x.2) Int) : Prop :=
  ∃ call : Call, p = (call.code fgpiop).tagged call

/-- Neither a read nor a write of a register. -/
def Beside : Op → Prop
  | .ioread32 _ | .iowrite32 _ _ => False
  | _ => True

section
variable {fgpiop : FgpioPort} {call : Call} {d : PortData}

/-- A part of one of the port's calls. -/
abbrev Keeps {α : Type} (fgpiop : FgpioPort) (call : Call) (post : α → Phase → PortData → Prop) :
    Phase → Code α → PortData → Prop :=
  Careful roleOf act (fun op => Permitted fgpiop (call, op)) post

/-- The rest of one of the port's calls. -/
abbrev Orderly {α : Type} (fgpiop : FgpioPort) (call : Call) : Phase → Code α → PortData → Prop :=
  CarefulCall roleOf act fun op => Permitted fgpiop (call, op)

/-- What the sampling of the pins needs. -/
def Readable (fgpiop : FgpioPort) (d : PortData) : Prop := TurnsAround fgpiop → d.registers 4 = 0

theorem permitted_beside {op : Op} (apart : Beside op) : Permitted fgpiop (call, op) d := by
  cases op with
  | ioread32 | iowrite32 => exact apart.elim
  | _ => refine ⟨fun _ same => ?_, fun _ same => ?_, fun same => ?_, fun _ same => ?_⟩ <;> cases same

theorem permitted_read {offset : Nat} (fine : offset = 0 ∨ offset = 12 → Readable fgpiop d) :
    Permitted fgpiop (call, .ioread32 offset) d := by
  refine ⟨fun _ same => ?_, fun _ same => ?_, fun same => ?_, fun _ same => ?_⟩ <;> cases same
  · exact fine (Or.inl rfl)
  · exact fine (Or.inr rfl)

/-- A register that is neither the data nor the direction. -/
theorem permitted_write {value : UInt32} {offset : Nat} (data : offset ≠ 0) (direction : offset ≠ 4) :
    Permitted fgpiop (call, .iowrite32 value offset) d := by
  refine ⟨fun _ same => ?_, fun _ same => ?_, fun same => ?_, fun _ same => ?_⟩ <;> cases same
  · exact absurd rfl data
  · exact absurd rfl direction

theorem permitted_direct {value : UInt32} (directs : call.Directs fgpiop value) :
    Permitted fgpiop (call, .iowrite32 value 4) d := by
  refine ⟨fun _ same => ?_, fun _ same => ?_, fun same => ?_, fun _ same => ?_⟩ <;> cases same
  exact directs

theorem neutral_aside (op : Op) (answer : Answer op) (d d' : PortData) (neutral : roleOf op answer = .neutral)
    (acts : act op answer d d') : d' = d := by
  cases op with
  | ioread32 | iowrite32 | qInit | qEnqueue | qDequeue => cases neutral
  | _ => exact acts

/-- One operation inside that is none of the registers' business. -/
theorem keeps_beside {α : Type} {post : α → Phase → PortData → Prop} {op : Op} {f : Answer op → Code α} {always : Role}
    (same : ∀ answer, roleOf op answer = always) (stays : always.step .inside = some .inside) (apart : Beside op)
    (rest : ∀ answer d', act op answer d d' → Keeps fgpiop call post .inside (f answer) d') :
    Keeps fgpiop call post .inside (perform op >>= f) d :=
  careful_perform same stays (fun _ _ => permitted_beside apart) fun answer _ d' here acts =>
    rest answer d' (here rfl ▸ acts)

theorem orderly_up (value : Int) : Orderly fgpiop call .inside (up >>= fun _ => (pure value : Code Int)) d :=
  careful_perform (fun _ => rfl) (rfl : Role.release.step .inside = some .after)
    (fun _ _ => permitted_beside trivial) fun _ _ _ _ _ => trivial

theorem orderly_downInterruptible {body : Code Int} (inside : ∀ d, Orderly fgpiop call .inside body d) :
    Orderly fgpiop call .before
      (downInterruptible >>= fun result => if result ≠ 0 then pure (-ERESTARTSYS) else body) d := by
  intro found _
  refine ⟨permitted_beside trivial, fun result d' phase' acts stepped => ?_⟩
  by_cases zero : result = 0
  · simp only [roleOf, zero, if_true, Role.step, Option.some.injEq] at stepped
    subst stepped
    change Orderly fgpiop call .inside (if result ≠ 0 then _ else body) d'
    rw [if_neg (not_not.mpr zero)]
    exact inside d'
  · change Orderly fgpiop call phase' (if result ≠ 0 then pure (-ERESTARTSYS) else body) d'
    rw [if_pos zero]
    trivial

theorem makeReadable_keeps (directs : TurnsAround fgpiop → call.Directs fgpiop 0) :
    Keeps fgpiop call (fun _ phase d => phase = .inside ∧ Readable fgpiop d) .inside (makeReadable fgpiop) d := by
  unfold makeReadable
  by_cases turns : fgpiop.direction &&& 0x100 ≠ 0
  · rw [if_pos turns]
    intro found _
    refine ⟨permitted_direct (directs turns), fun _ d' phase' acts stepped => ?_⟩
    cases acts
    cases stepped
    exact ⟨rfl, fun _ => Function.update_self 4 0x00 found.registers⟩
  · rw [if_neg turns]
    exact ⟨rfl, fun around => absurd around turns⟩

theorem readPins_only (n : Nat) : OnlyPerforms (fun op => op = .ioread32 0) (readPins fgpiop n) := by
  induction n with
  | zero => trivial
  | succ n ih => exact onlyPerforms_step rfl fun _ => onlyPerforms_bind ih fun _ => trivial

theorem readPins_keeps (n : Nat) (readable : Readable fgpiop d) :
    Keeps fgpiop call (fun _ phase d => phase = .inside ∧ Readable fgpiop d) .inside (readPins fgpiop n) d := by
  refine careful_only ?_ ?_ ?_ (readPins_only n) readable
  · rintro _ answer rfl
    exact Or.inl rfl
  · rintro _ d rfl readable
    exact permitted_read fun _ => readable
  · rintro _ answer d d' rfl readable rfl
    exact readable

theorem readEvents_only (n : Nat) : OnlyPerforms (fun op => op = .qDequeue) (readEvents n) := by
  induction n with
  | zero => trivial
  | succ n ih =>
    refine onlyPerforms_step rfl fun x => ?_
    split_ifs
    · trivial
    · exact onlyPerforms_bind ih fun _ => trivial

theorem readEvents_keeps (n : Nat) :
    Keeps fgpiop call (fun _ phase _ => phase = .inside ∧ True) .inside (readEvents n) d := by
  refine careful_only ?_ ?_ ?_ (readEvents_only n) trivial
  · rintro _ answer rfl
    exact Or.inl rfl
  · rintro _ d rfl _
    exact permitted_beside trivial
  · exact fun _ _ _ _ _ _ _ => trivial

theorem fillBuffer_keeps (count n : Nat) :
    Keeps fgpiop (.read count) (fun _ phase _ => phase = .inside) .inside (fillBuffer fgpiop n) d := by
  unfold fillBuffer
  by_cases events : fgpiop.irq ≠ 0
  · rw [if_pos events]
    exact (readEvents_keeps n).mono fun _ _ _ now => now.1
  · rw [if_neg events]
    have directs : TurnsAround fgpiop → Call.Directs fgpiop (.read count) 0 :=
      fun turns => ⟨not_not.mp events, turns, rfl⟩
    refine careful_bind ((makeReadable_keeps directs).mono ?_)
    rintro _ phase d ⟨rfl, readable⟩
    exact (readPins_keeps n readable).mono fun _ _ _ now => now.1

theorem hwRead_orderly (count : Nat) : Orderly fgpiop (.read count) .before (hwRead fgpiop count) d := by
  refine orderly_downInterruptible fun d => keeps_beside (fun _ => rfl) rfl trivial fun tbuf d _ => ?_
  split_ifs
  · exact orderly_up _
  · refine careful_bind ((fillBuffer_keeps count count).mono ?_)
    rintro bytes phase d rfl
    refine keeps_beside (fun _ => rfl) rfl trivial fun left d _ => ?_
    exact keeps_beside (fun _ => rfl) rfl trivial fun _ d _ => orderly_up _

/-- The byte that a writer computes has no bit outside the mask. -/
theorem data_masked (byte direction : UInt8) (mask : direction.toUInt32 = outputMask fgpiop) :
    (byte.toUInt32 &&& fgpiop.bits &&& direction.toUInt32).toUInt8.toUInt32 &&&
      ~~~(fgpiop.bits &&& outputMask fgpiop) = 0 := by
  have small : (byte.toUInt32 &&& fgpiop.bits &&& direction.toUInt32).toNat < 256 := by
    rw [UInt32.toNat_and]
    exact Nat.and_le_right.trans_lt direction.toNat_lt
  have whole : (byte.toUInt32 &&& fgpiop.bits &&& direction.toUInt32).toUInt8.toUInt32 =
      byte.toUInt32 &&& fgpiop.bits &&& direction.toUInt32 := by
    apply UInt32.toNat_inj.mp
    rw [UInt8.toNat_toUInt32, UInt32.toNat_toUInt8]
    exact Nat.mod_eq_of_lt small
  rw [whole, mask, UInt32.and_assoc byte.toUInt32, UInt32.and_assoc, UInt32.and_not_self, UInt32.and_zero]

theorem direction_mask : (if fgpiop.direction &&& 0x100 ≠ 0 then 0xff else fgpiop.direction.toUInt8).toUInt32 =
    outputMask fgpiop := by
  unfold outputMask
  split_ifs
  · rfl
  · apply UInt32.toNat_inj.mp
    rw [UInt8.toNat_toUInt32, UInt32.toNat_toUInt8, UInt32.toNat_and]
    exact (Nat.and_two_pow_sub_one_eq_mod _ 8).symm

def MaskedWrite (fgpiop : FgpioPort) (op : Op) : Prop :=
  ∃ value, op = .iowrite32 value 0 ∧ value &&& ~~~(fgpiop.bits &&& outputMask fgpiop) = 0

theorem writePins_only (direction : UInt8) (mask : direction.toUInt32 = outputMask fgpiop) (tbuf : Nat → UInt8)
    (i n : Nat) : OnlyPerforms (MaskedWrite fgpiop) (writePins fgpiop direction tbuf i n) := by
  induction n generalizing i with
  | zero => trivial
  | succ n ih => exact onlyPerforms_step ⟨_, rfl, data_masked (tbuf i) direction mask⟩ fun _ => ih (i + 1)

theorem writePins_keeps {count : Nat} {direction : UInt8} (mask : direction.toUInt32 = outputMask fgpiop)
    (tbuf : Nat → UInt8) (i n : Nat) (writable : d.registers 4 = outputMask fgpiop) :
    Keeps fgpiop (.write count) (fun _ phase d => phase = .inside ∧ d.registers 4 = outputMask fgpiop) .inside
      (writePins fgpiop direction tbuf i n) d := by
  refine careful_only ?_ ?_ ?_ (writePins_only direction mask tbuf i n) writable
  · rintro _ answer ⟨value, rfl, -⟩
    exact Or.inl rfl
  · rintro _ d ⟨value, rfl, masked⟩ writable
    refine ⟨fun _ same => ?_, fun _ same => ?_, fun same => ?_, fun _ same => ?_⟩ <;> cases same
    exact ⟨⟨count, rfl⟩, writable, masked⟩
  · rintro _ answer d d' ⟨value, rfl, -⟩ writable rfl
    exact writable

theorem drainBuffer_keeps (count : Nat) (copied : CopiedIn) :
    Keeps fgpiop (.write count) (fun _ phase _ => phase = .inside) .inside (drainBuffer fgpiop count copied) d := by
  unfold drainBuffer
  by_cases failed : copied.left ≠ 0
  · rw [if_pos failed]
    exact rfl
  · rw [if_neg failed]
    refine careful_perform (fun _ => rfl) (rfl : Role.access.step .inside = some .inside)
      (fun _ _ => permitted_direct direction_mask) ?_
    rintro _ found _ _ rfl
    have writable : (Function.update found.registers 4 _) 4 = outputMask fgpiop :=
      (Function.update_self ..).trans direction_mask
    refine careful_bind ((writePins_keeps direction_mask copied.bytes 0 count writable).mono ?_)
    exact fun _ _ _ now => now.1

theorem hwWrite_orderly (count : Nat) : Orderly fgpiop (.write count) .before (hwWrite fgpiop count) d := by
  refine orderly_downInterruptible fun d => keeps_beside (fun _ => rfl) rfl trivial fun tbuf d _ => ?_
  split_ifs
  · exact orderly_up _
  · refine keeps_beside (fun _ => rfl) rfl trivial fun copied d _ => ?_
    refine careful_bind ((drainBuffer_keeps count copied).mono ?_)
    rintro retval phase d rfl
    exact keeps_beside (fun _ => rfl) rfl trivial fun _ d _ => orderly_up _

/-- What the branches of `hw_ioctl` do: of the registers they only write the interrupt mask. -/
def Harmless : Op → Prop
  | .iowrite32 _ offset => offset = 8
  | .downInterruptible | .down | .up => False
  | _ => True

theorem Harmless.role {op : Op} (harmless : Harmless op) (answer : Answer op) :
    roleOf op answer = .access ∨ roleOf op answer = .neutral := by
  cases op with
  | downInterruptible | down | up => exact harmless.elim
  | ioread32 | iowrite32 | qInit | qEnqueue | qDequeue => exact Or.inl rfl
  | _ => exact Or.inr rfl

theorem Harmless.permitted {op : Op} {cmd arg : UInt32} (harmless : Harmless op) (d : PortData) :
    Permitted fgpiop (.ioctl cmd arg, op) d := by
  cases op with
  | ioread32 offset =>
    refine ⟨fun _ same => ?_, fun _ same => ?_, fun same => ?_, fun _ same => ?_⟩ <;> cases same
  | iowrite32 value offset =>
    cases harmless
    exact permitted_write (by decide) (by decide)
  | _ => exact permitted_beside trivial

theorem harmless_keeps {α : Type} {p : Code α} {cmd arg : UInt32} (only : OnlyPerforms Harmless p) :
    Keeps fgpiop (.ioctl cmd arg) (fun _ phase _ => phase = .inside ∧ True) .inside p d :=
  careful_only (fun _ answer harmless => harmless.role answer) (fun _ d harmless _ => harmless.permitted d)
    (fun _ _ _ _ _ _ _ => trivial) only trivial

theorem intsOff_harmless : OnlyPerforms Harmless (intsOff fgpiop) := by
  unfold intsOff
  split_ifs
  · exact ⟨rfl, fun _ => trivial⟩
  · trivial

theorem getintMask_harmless (arg : UInt32) : OnlyPerforms Harmless (getintMask fgpiop arg) := by
  refine onlyPerforms_step trivial fun ok => ?_
  split_ifs
  · exact onlyPerforms_step trivial fun _ => ⟨trivial, fun _ => trivial⟩
  · trivial

theorem setintMask_harmless (arg : UInt32) : OnlyPerforms Harmless (setintMask fgpiop arg) := by
  refine onlyPerforms_step trivial fun ok => ?_
  split_ifs
  · exact ⟨rfl, fun _ => trivial⟩
  · trivial

theorem readReg0_harmless (arg : UInt32) : OnlyPerforms Harmless (readReg0 arg) := by
  refine onlyPerforms_step trivial fun ok => ?_
  split_ifs
  · exact onlyPerforms_step trivial fun _ => ⟨trivial, fun _ => trivial⟩
  · trivial

theorem ioctlSwitch_orderly (cmd arg cmd' arg' : UInt32) :
    Orderly fgpiop (.ioctl cmd' arg') .inside (ioctlSwitch fgpiop cmd arg) d := by
  have finish : ∀ {p : Code Unit}, OnlyPerforms Harmless p →
      Orderly fgpiop (.ioctl cmd' arg') .inside (p >>= fun _ => up >>= fun _ => (pure 0 : Code Int)) d := by
    intro p only
    refine careful_bind ((harmless_keeps only).mono ?_)
    rintro _ phase d ⟨rfl, -⟩
    exact orderly_up 0
  unfold ioctlSwitch
  split_ifs
  · exact finish intsOff_harmless
  · exact finish (getintMask_harmless arg)
  · exact finish (setintMask_harmless arg)
  · exact finish (p := qInitOp) ⟨trivial, fun _ => trivial⟩
  · exact finish (readReg0_harmless arg)
  · exact orderly_up _

theorem hwIoctl_orderly (cmd arg : UInt32) : Orderly fgpiop (.ioctl cmd arg) .before (hwIoctl fgpiop cmd arg) d := by
  have checked : Orderly fgpiop (.ioctl cmd arg) .before (accessOk arg (iocSize cmd) >>= fun ok =>
      if ok = false then pure (-EFAULT)
      else downInterruptible >>= fun result =>
        if result ≠ 0 then pure (-ERESTARTSYS) else ioctlSwitch fgpiop cmd arg) d := by
    refine careful_perform (fun _ => rfl) (rfl : Role.neutral.step .before = some .before)
      (fun _ _ => permitted_beside trivial) fun ok _ d _ _ => ?_
    by_cases refused : ok = false
    · rw [if_pos refused]
      trivial
    · rw [if_neg refused]
      exact orderly_downInterruptible fun d => ioctlSwitch_orderly cmd arg cmd arg
  unfold hwIoctl
  split_ifs
  · trivial
  · trivial
  · exact checked
  · exact checked

theorem fgpioIrq_orderly : Orderly fgpiop .irq .before (fgpioIrq fgpiop) d := by
  refine careful_perform (fun _ => rfl) (rfl : Role.acquire.step .before = some .inside)
    (fun _ _ => permitted_beside trivial) fun _ _ d _ _ => ?_
  have directs : TurnsAround fgpiop → Call.Directs fgpiop .irq 0 := fun turns => ⟨turns, rfl⟩
  refine careful_bind ((makeReadable_keeps directs).mono ?_)
  rintro _ phase d ⟨rfl, readable⟩
  refine careful_perform (fun _ => rfl) (rfl : Role.access.step .inside = some .inside) ?_ fun edges _ d _ _ => ?_
  · intro found same
    rw [same rfl]
    exact permitted_read fun _ => readable
  · refine keeps_beside (fun _ => rfl) rfl trivial fun queued d _ => ?_
    refine careful_perform (fun _ => rfl) (rfl : Role.access.step .inside = some .inside)
      (fun _ _ => permitted_write (by decide) (by decide)) fun _ _ d _ _ => ?_
    exact orderly_up _

theorem call_orderly (call : Call) (d : PortData) : Orderly fgpiop call .before (call.code fgpiop) d := by
  cases call with
  | read count => exact hwRead_orderly count
  | write count => exact hwWrite_orderly count
  | ioctl cmd arg => exact hwIoctl_orderly cmd arg
  | irq => exact fgpioIrq_orderly

end

/-- Runs and steps of the port's calls, with the call that each operation belongs to. -/
abbrev TaggedRun {ι : Type} [DecidableEq ι] (fgpiop : FgpioPort) (data : PortData) :=
  Run (ι := ι) (taggedRole roleOf) (taggedAct act) (IsTaggedCall fgpiop) (Pool.idle data)

abbrev TaggedStep {ι : Type} [DecidableEq ι] (fgpiop : FgpioPort) :=
  Step (ι := ι) (taggedRole roleOf) (taggedAct act) (IsTaggedCall fgpiop)

section
variable {ι : Type} [DecidableEq ι] {fgpiop : FgpioPort} {data : PortData}

/-- Every interleaving of the calls is one of these, without the tags. -/
theorem calls_tagged {events : List (Event ι Op Answer Int)} {s : Pool ι Op Answer Int PortData}
    (run : Run roleOf act (IsCall fgpiop) (Pool.idle data) events s) :
    ∃ events' s', TaggedRun fgpiop data events' s' ∧ events'.map Event.untag = events ∧ s'.untag = s :=
  run.tagged fun _ ⟨made, same⟩ => ⟨made, made, by rw [same]⟩

theorem taggedCall_guarded (p : Program (Call × Op) (fun x => Answer x.2) Int) (isCall : IsTaggedCall fgpiop p) :
    p.Guarded (taggedRole roleOf) Settled .before := by
  obtain ⟨call, rfl⟩ := isCall
  exact (call_guarded fgpiop _ ⟨call, rfl⟩).tagged call

theorem taggedCall_orderly (p : Program (Call × Op) (fun x => Answer x.2) Int) (isCall : IsTaggedCall fgpiop p)
    (d : PortData) : CarefulCall (taggedRole roleOf) (taggedAct act) (Permitted fgpiop) .before p d := by
  obtain ⟨call, rfl⟩ := isCall
  exact Careful.tagged (call_orderly call d)

/-- Only a write to the direction register changes it. -/
theorem direction_changed {op : Op} {answer : Answer op} {d d' : PortData} (acts : act op answer d d') :
    d'.registers 4 = d.registers 4 ∨ op = .iowrite32 (d'.registers 4) 4 := by
  cases op with
  | iowrite32 value offset =>
    cases acts
    by_cases direction : offset = 4
    · subst direction
      exact Or.inr (congrArg (Op.iowrite32 · 4) (Function.update_self 4 value d.registers).symm)
    · exact Or.inl (Function.update_of_ne (Ne.symm direction) _ _)
  | qInit =>
    cases acts
    exact Or.inl rfl
  | qEnqueue x =>
    obtain ⟨Q, -, rfl⟩ := acts
    exact Or.inl rfl
  | qDequeue =>
    obtain ⟨Q, -, rfl⟩ := acts
    exact Or.inl rfl
  | _ =>
    cases acts
    exact Or.inl rfl

/-- Whoever runs beside it: a writer's bytes meet the output mask in the
direction register, samples and edges meet zero there when the port turns its
pins around, and `hw_ioctl` never turns them. -/
theorem direction_disciplined {events : List (Event ι (Call × Op) (fun x => Answer x.2) Int)}
    {s t : Pool ι (Call × Op) (fun x => Answer x.2) Int PortData} {i : ι} {x : Call × Op} {answer : Answer x.2}
    (run : TaggedRun fgpiop data events s) (step : TaggedStep fgpiop s (.performed i x answer) t) :
    Disciplined fgpiop x s.data t.data := by
  obtain ⟨permitted, acts⟩ := run.may_perform taggedCall_guarded
    (fun x answer d d' neutral acts => neutral_aside x.2 answer d d' neutral acts) taggedCall_orderly step
  refine ⟨permitted, ?_⟩
  rcases direction_changed acts with same | turned
  · exact Or.inl same
  · exact Or.inr (permitted.directed _ turned)

end

/-- The handler takes its edges with the pins turned around. -/
theorem edges_readable :
    Disciplined ⟨1, 0xff, 0x100⟩ (.irq, .ioread32 12)
      ⟨⟨qSize, 1, 0, 0, fun _ => 0⟩, Function.update (fun _ => 0xff) 4 0⟩
      ⟨⟨qSize, 1, 0, 0, fun _ => 0⟩, Function.update (fun _ => 0xff) 4 0⟩ := by
  let data : PortData := ⟨⟨qSize, 1, 0, 0, fun _ => 0⟩, fun _ => 0xff⟩
  let turned : PortData := ⟨⟨qSize, 1, 0, 0, fun _ => 0⟩, Function.update (fun _ => 0xff) 4 0⟩
  let enqueue : UInt32 → Code Int := fun found =>
    qEnqueueOp (found &&& 0xff &&& ~~~0x100) >>= fun _ => iowrite32 0xff 12 >>= fun _ => up >>= fun _ => pure irqHandled
  let edges : UInt32 → Program (Call × Op) (fun x => Answer x.2) Int := fun found => (enqueue found).tagged Call.irq
  let sample : Unit → Program (Call × Op) (fun x => Answer x.2) Int := fun _ =>
    (ioread32 12 >>= enqueue).tagged Call.irq
  let turn : Unit → Program (Call × Op) (fun x => Answer x.2) Int := fun _ =>
    (iowrite32 0x00 4 >>= fun _ => ioread32 12 >>= enqueue).tagged Call.irq
  let idle : Pool Bool (Call × Op) (fun x => Answer x.2) Int PortData := Pool.idle data
  let waiting := Function.update idle.running true (some ((fgpioIrq ⟨1, 0xff, 0x100⟩).tagged Call.irq))
  let inside := Function.update waiting true (some (turn ()))
  let reading := Function.update inside true (some (sample ()))
  have start : TaggedStep ⟨1, 0xff, 0x100⟩ idle (.started true) ⟨waiting, 1, data⟩ := Step.start rfl ⟨.irq, rfl⟩
  have enter : TaggedStep ⟨1, 0xff, 0x100⟩ ⟨waiting, 1, data⟩ (.performed true (.irq, .down) ())
      ⟨Function.update waiting true (some (turn ())), 0, data⟩ := Step.perform rfl rfl rfl
  have direct : TaggedStep ⟨1, 0xff, 0x100⟩ ⟨inside, 0, data⟩ (.performed true (.irq, .iowrite32 0 4) ())
      ⟨Function.update inside true (some (sample ())), 0, turned⟩ := Step.perform rfl rfl rfl
  have take : TaggedStep ⟨1, 0xff, 0x100⟩ ⟨reading, 0, turned⟩ (.performed true (.irq, .ioread32 12) (0 : UInt32))
      ⟨Function.update reading true (some (edges 0)), 0, turned⟩ := Step.perform rfl rfl rfl
  exact direction_disciplined (((Run.nil.snoc start).snoc enter).snoc direct) take

end FlukeCda.Gpio
