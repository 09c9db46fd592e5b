import FlukeCda.Gpio.Queue
import FlukeCda.Gpio.Source
import FlukeCda.Interaction.Pool

namespace FlukeCda.Gpio
open Interaction Program Port

/-- What the semaphore of a port guards: the event queue and the registers,
of which only the values written last are known. -/
structure PortData where
  queue : Queue
  registers : Nat → UInt32

/-- What an operation does to the guarded data. A register may read as anything. -/
def act : (op : Op) → Answer op → PortData → PortData → Prop
  | .qInit, _, d, d' => d' = { d with queue := qInit d.queue }
  | .qEnqueue x, result, d, d' => ∃ Q, qEnqueue x d.queue = some (result, Q) ∧ d' = { d with queue := Q }
  | .qDequeue, x, d, d' => ∃ Q, qDequeue d.queue = some (x, Q) ∧ d' = { d with queue := Q }
  | .iowrite32 value offset, _, d, d' => d' = { d with registers := Function.update d.registers offset value }
  | _, _, d, d' => d' = d

def IsCall (fgpiop : FgpioPort) (p : Code Int) : Prop := ∃ call : Call, p = call.code fgpiop

section
variable (fgpiop : FgpioPort)

/-- Releasing ends the part of a call that has to be inside. -/
theorem guarded_up {α : Type} {value : α} :
    Guarded roleOf Settled .inside (up >>= fun _ => (pure value : Code α)) :=
  guarded_perform roleOf (fun _ => rfl) rfl fun _ => Phase.noConfusion

/-- Taking the semaphore or being interrupted: the second outcome ends the call. -/
theorem guarded_downInterruptible {body : Code Int} (inside : Guarded roleOf Settled .inside body) :
    Guarded roleOf Settled .before
      (downInterruptible >>= fun result => if result ≠ 0 then pure (-ERESTARTSYS) else body) := by
  intro result
  by_cases zero : result = 0
  · refine ⟨.inside, by simp [roleOf, zero, Role.step], ?_⟩
    change Guarded roleOf Settled .inside (if result ≠ 0 then _ else body)
    rwa [if_neg (not_not.mpr zero)]
  · refine ⟨.before, by simp [roleOf, zero, Role.step], ?_⟩
    change Guarded roleOf Settled .before (if result ≠ 0 then _ else body)
    rw [if_pos zero]
    exact Phase.noConfusion

theorem readEvents_inside (n : Nat) : Guarded roleOf Inside .inside (readEvents n) := by
  induction n with
  | zero => rfl
  | succ n ih =>
    refine guarded_access roleOf (fun _ => rfl) fun x => ?_
    split_ifs
    · rfl
    · exact guarded_inside_bind roleOf ih fun _ => rfl

theorem readPins_inside (n : Nat) : Guarded roleOf Inside .inside (readPins fgpiop n) := by
  induction n with
  | zero => rfl
  | succ n ih => exact guarded_access roleOf (fun _ => rfl) fun _ => guarded_inside_bind roleOf ih fun _ => rfl

theorem writePins_inside (direction : UInt8) (tbuf : Nat → UInt8) (i n : Nat) :
    Guarded roleOf Inside .inside (writePins fgpiop direction tbuf i n) := by
  induction n generalizing i with
  | zero => rfl
  | succ n ih => exact guarded_access roleOf (fun _ => rfl) fun _ => ih (i + 1)

theorem makeReadable_inside : Guarded roleOf Inside .inside (makeReadable fgpiop) := by
  unfold makeReadable
  split_ifs
  · exact guarded_inside_perform roleOf fun _ => Or.inl rfl
  · rfl

theorem fillBuffer_inside (count : Nat) : Guarded roleOf Inside .inside (fillBuffer fgpiop count) := by
  unfold fillBuffer
  split_ifs
  · exact readEvents_inside count
  · exact guarded_inside_bind roleOf (makeReadable_inside fgpiop) fun _ => readPins_inside fgpiop count

theorem hwRead_guarded (count : Nat) : Guarded roleOf Settled .before (hwRead fgpiop count) := by
  refine guarded_downInterruptible (guarded_neutral roleOf (fun _ => rfl) fun tbuf => ?_)
  split_ifs
  · exact guarded_up
  · refine guarded_inside_bind roleOf (fillBuffer_inside fgpiop count) fun bytes => ?_
    refine guarded_neutral roleOf (fun _ => rfl) fun left => ?_
    exact guarded_neutral roleOf (fun _ => rfl) fun _ => guarded_up

theorem drainBuffer_inside (count : Nat) (copied : CopiedIn) :
    Guarded roleOf Inside .inside (drainBuffer fgpiop count copied) := by
  unfold drainBuffer
  by_cases failed : copied.left ≠ 0
  · rw [if_pos failed]
    rfl
  · rw [if_neg failed]
    exact guarded_access roleOf (fun _ => rfl) fun _ =>
      guarded_inside_bind roleOf (writePins_inside fgpiop _ copied.bytes 0 count) fun _ => rfl

theorem hwWrite_guarded (count : Nat) : Guarded roleOf Settled .before (hwWrite fgpiop count) := by
  refine guarded_downInterruptible (guarded_neutral roleOf (fun _ => rfl) fun tbuf => ?_)
  split_ifs
  · exact guarded_up
  · refine guarded_neutral roleOf (fun _ => rfl) fun copied => ?_
    refine guarded_inside_bind roleOf (drainBuffer_inside fgpiop count copied) fun retval => ?_
    exact guarded_neutral roleOf (fun _ => rfl) fun _ => guarded_up

theorem intsOff_inside : Guarded roleOf Inside .inside (intsOff fgpiop) := by
  unfold intsOff
  split_ifs
  · exact guarded_inside_perform roleOf fun _ => Or.inl rfl
  · rfl

theorem getintMask_inside (arg : UInt32) : Guarded roleOf Inside .inside (getintMask fgpiop arg) := by
  refine guarded_neutral roleOf (fun _ => rfl) fun ok => ?_
  split_ifs
  · exact guarded_access roleOf (fun _ => rfl) fun _ => guarded_inside_perform roleOf fun _ => Or.inr rfl
  · rfl

theorem setintMask_inside (arg : UInt32) : Guarded roleOf Inside .inside (setintMask fgpiop arg) := by
  refine guarded_neutral roleOf (fun _ => rfl) fun ok => ?_
  split_ifs
  · exact guarded_inside_perform roleOf fun _ => Or.inl rfl
  · rfl

theorem readReg0_inside (arg : UInt32) : Guarded roleOf Inside .inside (readReg0 arg) := by
  refine guarded_neutral roleOf (fun _ => rfl) fun ok => ?_
  split_ifs
  · exact guarded_access roleOf (fun _ => rfl) fun _ => guarded_inside_perform roleOf fun _ => Or.inr rfl
  · rfl

/-- Every branch of the switch, the default one included, releases exactly once. -/
theorem ioctlSwitch_guarded (cmd arg : UInt32) :
    Guarded roleOf Settled .inside (ioctlSwitch fgpiop cmd arg) := by
  unfold ioctlSwitch
  split_ifs
  · exact guarded_inside_bind roleOf (intsOff_inside fgpiop) fun _ => guarded_up
  · exact guarded_inside_bind roleOf (getintMask_inside fgpiop arg) fun _ => guarded_up
  · exact guarded_inside_bind roleOf (setintMask_inside fgpiop arg) fun _ => guarded_up
  · exact guarded_access roleOf (fun _ => rfl) fun _ => guarded_up
  · exact guarded_inside_bind roleOf (readReg0_inside arg) fun _ => guarded_up
  · exact guarded_up

theorem hwIoctl_guarded (cmd arg : UInt32) : Guarded roleOf Settled .before (hwIoctl fgpiop cmd arg) := by
  have checked : Guarded roleOf Settled .before (accessOk arg (iocSize cmd) >>= fun ok =>
      if ok = false then pure (-EFAULT)
      else downInterruptible >>= fun result =>
        if result ≠ 0 then pure (-ERESTARTSYS) else ioctlSwitch fgpiop cmd arg) := by
    refine guarded_neutral roleOf (fun _ => rfl) fun ok => ?_
    by_cases refused : ok = false
    · rw [if_pos refused]
      exact Phase.noConfusion
    · rw [if_neg refused]
      exact guarded_downInterruptible (ioctlSwitch_guarded fgpiop cmd arg)
  unfold hwIoctl
  split_ifs
  · exact Phase.noConfusion
  · exact Phase.noConfusion
  · exact checked
  · exact checked

theorem fgpioIrq_guarded : Guarded roleOf Settled .before (fgpioIrq fgpiop) := by
  refine guarded_perform roleOf (fun _ => rfl) (rfl : Role.acquire.step .before = some .inside) fun _ => ?_
  refine guarded_inside_bind roleOf (makeReadable_inside fgpiop) fun _ => ?_
  refine guarded_access roleOf (fun _ => rfl) fun edges => ?_
  refine guarded_access roleOf (fun _ => rfl) fun queued => ?_
  exact guarded_access roleOf (fun _ => rfl) fun _ => guarded_up

theorem call_guarded (p : Code Int) (isCall : IsCall fgpiop p) : Guarded roleOf Settled .before p := by
  obtain ⟨call, rfl⟩ := isCall
  cases call with
  | read count => exact hwRead_guarded fgpiop count
  | write count => exact hwWrite_guarded fgpiop count
  | ioctl cmd arg => exact hwIoctl_guarded fgpiop cmd arg
  | irq => exact fgpioIrq_guarded fgpiop

end

section
variable {ι : Type} [DecidableEq ι] (fgpiop : FgpioPort) {data : PortData}
variable {events : List (Event ι Op Answer Int)} {s : Pool ι Op Answer Int PortData}

/-- Any number of processes, in any interleaving: at most one call is inside
the semaphore, each acquires and releases at most once and has released what
it acquired when it returns, the count is 1 exactly while nobody is inside,
and what one call does to registers and queue is never cut into by another. -/
theorem calls_exclude_each_other (run : Run roleOf act (IsCall fgpiop) (Pool.idle data) events s) :
    (∀ i j, Holding roleOf events i → Holding roleOf events j → i = j) ∧
    (∀ i, (tallyOf roleOf events i).released ≤ (tallyOf roleOf events i).acquired ∧
      (tallyOf roleOf events i).acquired ≤ 1) ∧
    (∀ i, s.running i = none → (tallyOf roleOf events i).released = (tallyOf roleOf events i).acquired) ∧
    (s.count = 1 ↔ ∀ i, ¬ Holding roleOf events i) ∧ AccessesApart roleOf events := by
  have guarded := call_guarded fgpiop
  refine ⟨fun i j hi hj => run.exclusive guarded hi hj, run.tally_le guarded,
    fun i idle => run.returned_balanced guarded idle, ?_, ?_⟩
  · exact run.count_eq_one_iff guarded
  · exact run.accesses_apart guarded

end

/-- The interrupt handler has taken the semaphore when the other process asks for
events, so that one waits where it takes the semaphore. -/
theorem handler_alone :
    ∃ (fgpiop : FgpioPort) (data : PortData) (events : List (Event Bool Op Answer Int))
      (s : Pool Bool Op Answer Int PortData),
      Run roleOf act (IsCall fgpiop) (Pool.idle data) events s ∧ s.running false = some (hwRead fgpiop 4) ∧
        Holding roleOf events true ∧ ¬ Holding roleOf events false ∧ s.count ≠ 1 ∧
        ∀ t, ¬ Step roleOf act (IsCall fgpiop) s (.performed false .downInterruptible 0) t := by
  let fgpiop : FgpioPort := ⟨1, 0xff, 0x100⟩
  let data : PortData := ⟨⟨qSize, 1, 0, 0, fun _ => 0⟩, fun _ => 0⟩
  let rest : Unit → Code Int := fun _ => makeReadable fgpiop >>= fun _ => ioread32 12 >>= fun edges =>
    qEnqueueOp (edges &&& fgpiop.bits &&& ~~~fgpiop.direction) >>= fun _ =>
      iowrite32 0xff 12 >>= fun _ => up >>= fun _ => pure irqHandled
  let idle : Pool Bool Op Answer Int PortData := Pool.idle data
  let waiting : Pool Bool Op Answer Int PortData :=
    { idle with running := Function.update idle.running true (some (fgpioIrq fgpiop)) }
  let inside : Pool Bool Op Answer Int PortData := ⟨Function.update waiting.running true (some (rest ())), 0, data⟩
  have start : Step roleOf act (IsCall fgpiop) idle (.started true) waiting := Step.start rfl ⟨.irq, rfl⟩
  have enter : Step roleOf act (IsCall fgpiop) waiting (.performed true .down ()) inside := Step.perform rfl rfl rfl
  have ask : Step roleOf act (IsCall fgpiop) inside (.started false)
      { inside with running := Function.update inside.running false (some (hwRead fgpiop 4)) } :=
    Step.start rfl ⟨.read 4, rfl⟩
  have run := ((Run.nil.snoc start).snoc enter).snoc ask
  have exclude := calls_exclude_each_other fgpiop run
  have holds : Holding roleOf ([] ++ [.started true] ++ [.performed true .down ()] ++ [.started false] :
      List (Event Bool Op Answer Int)) true := Nat.zero_lt_one
  refine ⟨fgpiop, data, _, _, run, rfl, holds, fun other => ?_, fun free => exclude.2.2.2.1.mp free true holds, ?_⟩
  · exact Bool.false_ne_true (exclude.1 false true other holds)
  · intro t step
    cases step with
    | perform at_call counts acts => cases counts

end FlukeCda.Gpio
