import FlukeCda.Gpio.Exclusion
import FlukeCda.Interaction.Resource

/-! # What becomes of the events

The events a port in interrupt mode has queued, the bytes its readers have
received, and what a failing `copy_to_user` does to both.
-/

namespace FlukeCda.Gpio
open Interaction Program Port

/-- The guarded data with a record of the events. `kept` are the events that the
queue has accepted and no flush has discarded, `copied` the bytes that have
reached user space. The rest is about the call that has the semaphore: the queue
as it was found, the size of the buffer, and what was handed to `copy_to_user`,
with the number of bytes that it left. -/
structure Ledger where
  port : PortData
  kept : List UInt32
  copied : List UInt8
  entered : Queue
  asked : Nat
  handed : Option (List UInt8 × Nat)

def Ledger.opened (registers : Nat → UInt32) (Q : Queue) : Ledger := ⟨⟨qInit Q, registers⟩, [], [], qInit Q, 0, none⟩

namespace Ledger
variable (l : Ledger)

/-- Among the events kept, those that have left the queue and those that are in it. -/
def passed : List UInt32 := l.kept.take (l.kept.length - l.port.queue.size.toNat)

def waiting : List UInt32 := l.kept.drop (l.kept.length - l.port.queue.size.toNat)

def enter (port : PortData) : Ledger := { l with port, entered := l.port.queue, asked := 0, handed := none }

def note (port : PortData) : (op : Op) → Answer op → Ledger
  | .down, _ => l.enter port
  | .downInterruptible, result => if result = 0 then l.enter port else { l with port }
  | .kmalloc size, _ => { l with port, asked := size }
  | .copyToUser bytes, left =>
    { l with port, copied := if left = 0 then l.copied ++ bytes else l.copied, handed := some (bytes, left) }
  | .qEnqueue x, result => { l with port, kept := if result = 0 then l.kept ++ [x] else l.kept }
  | .qInit, _ => { l with port, kept := l.passed }
  | _, _ => { l with port }

end Ledger

def ledgerAct (op : Op) (answer : Answer op) (l l' : Ledger) : Prop :=
  ∃ port, act op answer l.port port ∧ l' = l.note port op answer

/-- A copy fails only in a read that asks for nothing, or has found the queue empty. -/
def HarmlessCopy (l : Ledger) : (op : Op) → Answer op → Prop
  | .copyToUser _, left => left ≠ 0 → l.asked = 0 ∨ qEmpty l.entered = true
  | _, _ => True

def harmlessAct (op : Op) (answer : Answer op) (l l' : Ledger) : Prop :=
  ledgerAct op answer l l' ∧ HarmlessCopy l op answer

/-- A port whose eight pins are all inputs and raise interrupts. -/
structure EventMode (fgpiop : FgpioPort) : Prop where
  irq : fgpiop.irq ≠ 0
  bits : fgpiop.bits = 0xff
  direction : fgpiop.direction = 0x100

/-- Every event that is not in the queue any more, zero apart, has been copied, once and in order. -/
structure Delivered (l : Ledger) : Prop where
  queued : Represents l.port.queue l.waiting
  bytes : l.copied.map UInt8.toUInt32 = l.passed.filter (· ≠ 0)

/-- What a call may return when it releases the semaphore. -/
structure Answered (value : Int) (l : Ledger) : Prop where
  error : value < 0 → l.port.queue = l.entered
  read : ∀ bytes left, l.handed = some (bytes, left) → value = if left ≠ 0 then -EFAULT else (bytes.length : Int)

/-- In the middle of a read, with these bytes in its buffer. -/
structure Reading (buffer : List UInt8) (l : Ledger) : Prop where
  queued : Represents l.port.queue l.waiting
  bytes : (l.copied ++ buffer).map UInt8.toUInt32 = l.passed.filter (· ≠ 0)
  narrow : ∀ x ∈ l.kept, x.toNat < 256

theorem Ledger.passed_append_waiting (l : Ledger) : l.passed ++ l.waiting = l.kept := List.take_append_drop _ _

/-- What the queue holds tells where the events kept are to be cut. -/
theorem Ledger.split {l : Ledger} {out items : List UInt32} (kept : l.kept = out ++ items)
    (represents : Represents l.port.queue items) : l.passed = out ∧ l.waiting = items := by
  have size : l.port.queue.size.toNat = items.length := by
    rw [represents.size]
    rfl
  have cut : l.kept.length - l.port.queue.size.toNat = out.length := by
    rw [kept, size, List.length_append]
    omega
  refine ⟨?_, ?_⟩
  · rw [Ledger.passed, cut, kept, List.take_left]
  · rw [Ledger.waiting, cut, kept, List.drop_left]

section
variable {l l' : Ledger} {buffer bytes : List UInt8} {out items : List UInt32}

theorem Reading.of_split (kept : l.kept = out ++ items) (represents : Represents l.port.queue items)
    (copied : (l.copied ++ buffer).map UInt8.toUInt32 = out.filter (· ≠ 0)) (narrow : ∀ x ∈ l.kept, x.toNat < 256) :
    Reading buffer l := by
  obtain ⟨passed, waiting⟩ := Ledger.split kept represents
  refine ⟨?_, ?_, narrow⟩
  · rwa [waiting]
  · rwa [passed]

theorem Ledger.opened_reading (registers : Nat → UInt32) (Q : Queue) : Reading [] (.opened registers Q) := by
  have kept : (Ledger.opened registers Q).kept = [] ++ [] := rfl
  exact Reading.of_split kept (qInit_represents Q) rfl fun _ none => nomatch none

/-- Taking an event out of the queue. -/
theorem Reading.dequeue {x : UInt32} {Q : Queue} (reading : Reading buffer l)
    (ran : qDequeue l.port.queue = some (x, Q)) (after : l' = { l with port := { l.port with queue := Q } }) :
    (x.toUInt8 = 0 → Reading buffer l') ∧ (x.toUInt8 ≠ 0 → Reading (buffer ++ [x.toUInt8]) l') ∧
      (qEmpty l.port.queue = true → x.toUInt8 = 0 ∧ Q = l.port.queue) := by
  subst after
  have kept := l.passed_append_waiting
  cases waiting : l.waiting with
  | nil =>
    have empty : Represents l.port.queue [] := waiting ▸ reading.queued
    rw [empty.dequeue_empty] at ran
    cases ran
    exact ⟨fun _ => reading, fun nonzero => absurd rfl nonzero, fun _ => ⟨rfl, rfl⟩⟩
  | cons first rest =>
    have full : Represents l.port.queue (first :: rest) := waiting ▸ reading.queued
    obtain ⟨R, dequeued, represents⟩ := full.dequeue_cons
    rw [dequeued] at ran
    cases ran
    rw [waiting] at kept
    have narrow : x.toNat < 256 := reading.narrow x (by simp [← kept])
    have cut : l.kept = (l.passed ++ [x]) ++ rest := by
      rw [List.append_assoc]
      exact kept.symm
    have wide : x.toUInt8.toUInt32 = x := by
      apply UInt32.toNat_inj.mp
      simp only [UInt8.toNat_toUInt32, UInt32.toNat_toUInt8]
      omega
    have before := reading.bytes
    refine ⟨fun zero => ?_, fun nonzero => ?_, fun empty => ?_⟩
    · have own : x = 0 := by
        rw [← wide, zero]
        rfl
      refine Reading.of_split cut represents ?_ reading.narrow
      rw [List.filter_append, ← before, own]
      simp
    · have own : x ≠ 0 := by
        rintro rfl
        exact nonzero rfl
      refine Reading.of_split cut represents ?_ reading.narrow
      rw [List.filter_append, ← before, ← List.append_assoc, List.map_append]
      congr 1
      simp [wide, own]
    · cases full.empty_iff.mp empty

/-- A flush discards what is in the queue. -/
theorem Reading.flush (reading : Reading [] l)
    (after : l' = { l with port := { l.port with queue := qInit l.port.queue }, kept := l.passed }) :
    Reading [] l' := by
  subst after
  refine Reading.of_split (List.append_nil _).symm (qInit_represents _) reading.bytes fun x member => ?_
  exact reading.narrow x (List.mem_of_mem_take member)

/-- An interrupt adds an event, or finds the queue full. -/
theorem Reading.enqueue {x : UInt32} {result : Int} {Q : Queue} (reading : Reading [] l) (narrow : x.toNat < 256)
    (ran : qEnqueue x l.port.queue = some (result, Q))
    (after : l' = { l with port := { l.port with queue := Q }, kept := if result = 0 then l.kept ++ [x] else l.kept }) :
    Reading [] l' := by
  subst after
  by_cases full : l.waiting.length = qSize
  · rw [reading.queued.enqueue_full x full] at ran
    cases ran
    exact reading
  · obtain ⟨R, enqueued, represents⟩ := reading.queued.enqueue_room x full
    rw [enqueued] at ran
    cases ran
    have kept := l.passed_append_waiting
    have whole : l.kept ++ [x] = l.passed ++ (l.waiting ++ [x]) := by rw [← List.append_assoc, kept]
    refine Reading.of_split whole represents reading.bytes fun y member => ?_
    · rcases List.mem_append.mp member with old | new
      · exact reading.narrow y old
      · rw [List.mem_singleton.mp new]
        exact narrow

/-- What the queue operations and `copy_to_user` leave alone is left alone by everything else. -/
structure Apart (l l' : Ledger) : Prop where
  queue : l'.port.queue = l.port.queue
  kept : l'.kept = l.kept
  copied : l'.copied = l.copied
  entered : l'.entered = l.entered
  handed : l'.handed = l.handed

theorem Reading.apart (reading : Reading buffer l) (apart : Apart l l') : Reading buffer l' := by
  have kept : l'.kept = l.passed ++ l.waiting := apart.kept.trans l.passed_append_waiting.symm
  refine Reading.of_split kept ?_ ?_ ?_
  · rw [apart.queue]
    exact reading.queued
  · rw [apart.copied]
    exact reading.bytes
  · rw [apart.kept]
    exact reading.narrow

theorem Answered.apart {value : Int} (answered : Answered value l) (apart : Apart l l') : Answered value l' := by
  refine ⟨?_, ?_⟩
  · rw [apart.queue, apart.entered]
    exact answered.error
  · rw [apart.handed]
    exact answered.read

end

/-- Neither about the semaphore, nor about the queue, nor about the reader's buffer. -/
def Plain : Op → Prop
  | .downInterruptible | .down | .up | .copyToUser _ | .qInit | .qEnqueue _ | .qDequeue => False
  | _ => True

theorem Plain.role {op : Op} (answer : Answer op) (plain : Plain op) :
    roleOf op answer = .access ∨ roleOf op answer = .neutral := by
  cases op with
  | downInterruptible | down | up | copyToUser | qInit | qEnqueue | qDequeue => exact plain.elim
  | ioread32 | iowrite32 => exact .inl rfl
  | _ => exact .inr rfl

theorem Plain.apart {op : Op} {answer : Answer op} {l l' : Ledger} (plain : Plain op)
    (acts : harmlessAct op answer l l') : Apart l l' := by
  obtain ⟨⟨port, acts, rfl⟩, -⟩ := acts
  cases op with
  | downInterruptible | down | up | copyToUser | qInit | qEnqueue | qDequeue => exact plain.elim
  | _ =>
    cases acts
    exact ⟨rfl, rfl, rfl, rfl, rfl⟩

/-- The holder has just come in. -/
structure Begun (l : Ledger) : Prop where
  reading : Reading [] l
  entered : l.entered = l.port.queue
  handed : l.handed = none

/-- The holder may release and return this value. -/
structure Leaving (value : Int) (l : Ledger) : Prop where
  reading : Reading [] l
  answered : Answered value l

abbrev Holder (p : Code Int) (l : Ledger) : Prop := Owned roleOf harmlessAct (Reading []) Answered p l

section
variable {α : Type} {p : Code α} {f : α → Code Int} {value : Int} {l l' : Ledger}

theorem Begun.leaving (begun : Begun l) (value : Int) : Leaving value l := by
  refine ⟨begun.reading, fun _ => begun.entered.symm, fun bytes left some => ?_⟩
  rw [begun.handed] at some
  cases some

theorem Begun.apart (begun : Begun l) (apart : Apart l l') : Begun l' := by
  refine ⟨begun.reading.apart apart, ?_, ?_⟩
  · rw [apart.entered, apart.queue]
    exact begun.entered
  · rw [apart.handed]
    exact begun.handed

theorem Leaving.apart (leaving : Leaving value l) (apart : Apart l l') : Leaving value l' :=
  ⟨leaving.reading.apart apart, leaving.answered.apart apart⟩

theorem begun_plain (only : OnlyPerforms Plain p) (begun : Begun l)
    (rest : ∀ value l, Begun l → Holder (f value) l) : Holder (p >>= f) l := by
  have kept : ∀ op answer l l', Plain op → Begun l → harmlessAct op answer l l' → Begun l' :=
    fun _ _ _ _ plain begun acts => begun.apart (plain.apart acts)
  exact (within_only (fun _ answer plain => plain.role answer) kept only begun).owned rest

theorem leaving_plain (only : OnlyPerforms Plain p) (leaving : Leaving value l)
    (rest : ∀ result l, Leaving value l → Holder (f result) l) : Holder (p >>= f) l := by
  have kept : ∀ op answer l l', Plain op → Leaving value l → harmlessAct op answer l l' → Leaving value l' :=
    fun _ _ _ _ plain leaving acts => leaving.apart (plain.apart acts)
  exact (within_only (fun _ answer plain => plain.role answer) kept only leaving).owned rest

theorem leaving_up (leaving : Leaving value l) : Holder (up >>= fun _ => pure value) l := by
  refine owned_release (fun _ => rfl) fun _ l' acts => ?_
  obtain ⟨⟨port, acts, rfl⟩, -⟩ := acts
  cases acts
  exact ⟨leaving.reading, leaving.answered⟩

theorem Reading.begun {port : PortData} (reading : Reading [] l) (same : port = l.port) : Begun (l.enter port) := by
  subst same
  exact ⟨⟨reading.queued, reading.bytes, reading.narrow⟩, rfl, rfl⟩

end

abbrev Caller (p : Code Int) : Prop := Waiting roleOf harmlessAct (Reading []) Answered p

theorem downInterruptible_caller {body : Code Int} (holds : ∀ l, Begun l → Holder body l) :
    Caller (downInterruptible >>= fun result => if result ≠ 0 then pure (-ERESTARTSYS) else body) := by
  intro result l l' acts
  obtain ⟨⟨port, acts, rfl⟩, -⟩ := acts
  by_cases zero : result = 0
  · simp only [roleOf, if_pos zero, Ledger.note]
    intro reading
    show Holder (if result ≠ 0 then pure (-ERESTARTSYS) else body) _
    rw [if_neg (not_not.mpr zero)]
    exact holds _ (reading.begun acts)
  · simp only [roleOf, if_neg zero, Ledger.note]
    cases acts
    refine ⟨rfl, ?_⟩
    show Caller (if result ≠ 0 then pure (-ERESTARTSYS) else body)
    rw [if_pos zero]
    trivial

section
variable {fgpiop : FgpioPort}

theorem plain_makeReadable : OnlyPerforms Plain (makeReadable fgpiop) := by
  unfold makeReadable
  split_ifs
  · exact ⟨trivial, fun _ => trivial⟩
  · trivial

theorem plain_writePins (direction : UInt8) (tbuf : Nat → UInt8) (i n : Nat) :
    OnlyPerforms Plain (writePins fgpiop direction tbuf i n) := by
  induction n generalizing i with
  | zero => trivial
  | succ n ih => exact onlyPerforms_step trivial fun _ => ih (i + 1)

theorem plain_drainBuffer (count : Nat) (copied : CopiedIn) : OnlyPerforms Plain (drainBuffer fgpiop count copied) := by
  unfold drainBuffer
  by_cases failed : copied.left ≠ 0
  · rw [if_pos failed]
    trivial
  · rw [if_neg failed]
    exact onlyPerforms_step trivial fun _ => onlyPerforms_bind (plain_writePins _ _ 0 count) fun _ => trivial

/-- The loop of a read moves events from the queue to its buffer; from an empty queue it takes nothing. -/
theorem readEvents_reads (n : Nat) {buffer : List UInt8} {l : Ledger} (reading : Reading buffer l) :
    Within roleOf harmlessAct (fun bytes l' => Reading (buffer ++ bytes) l' ∧ (∃ port, l' = { l with port }) ∧
      (n = 0 ∨ qEmpty l.port.queue = true → bytes = [] ∧ l'.port.queue = l.port.queue)) (readEvents n) l := by
  induction n generalizing buffer l with
  | zero =>
    refine ⟨?_, ⟨l.port, rfl⟩, fun _ => ⟨rfl, rfl⟩⟩
    rwa [List.append_nil]
  | succ n ih =>
    intro x l' acts
    refine ⟨.inl rfl, ?_⟩
    obtain ⟨⟨port, ⟨Q, ran, rfl⟩, rfl⟩, -⟩ := acts
    obtain ⟨stops, goes, empty⟩ := reading.dequeue ran rfl
    show Within _ _ _ (if x.toUInt8 = 0 then pure [] else readEvents n >>= fun rest => pure (x.toUInt8 :: rest)) _
    split_ifs with zero
    · refine ⟨?_, ⟨_, rfl⟩, fun quiet => ⟨rfl, ?_⟩⟩
      · rw [List.append_nil]
        exact stops zero
      · exact (empty (quiet.resolve_left not_false)).2
    · refine (ih (goes zero)).andThen fun rest l' later => ?_
      obtain ⟨reading, ⟨port, rfl⟩, -⟩ := later
      refine ⟨?_, ⟨port, rfl⟩, fun quiet => absurd (empty (quiet.resolve_left not_false)).1 zero⟩
      rwa [List.append_assoc] at reading

/-- The outcome of the copy decides what the read returns. -/
theorem copyToUser_leaving {bytes : List UInt8} {left : Nat} {l l' : Ledger} (reading : Reading bytes l)
    (quiet : l.asked = 0 ∨ qEmpty l.entered = true → bytes = [] ∧ l.port.queue = l.entered)
    (acts : harmlessAct (.copyToUser bytes) left l l') :
    Leaving (if left ≠ 0 then -EFAULT else bytes.length) l' := by
  obtain ⟨⟨port, kept, rfl⟩, harmless⟩ := acts
  cases kept
  have copied : (l.note l.port (.copyToUser bytes) left).copied = l.copied ++ bytes := by
    by_cases zero : left = 0
    · exact if_pos zero
    · rw [(quiet (harmless zero)).1, List.append_nil]
      exact if_neg zero
  refine ⟨⟨reading.queued, ?_, reading.narrow⟩, fun error => ?_, ?_⟩
  · rw [List.append_nil, copied]
    exact reading.bytes
  · by_cases zero : left = 0
    · rw [if_neg (not_not.mpr zero)] at error
      omega
    · exact (quiet (harmless zero)).2
  · rintro _ _ ⟨⟩
    rfl

theorem hwRead_caller (mode : EventMode fgpiop) (count : Nat) : Caller (hwRead fgpiop count) := by
  refine downInterruptible_caller fun l begun => owned_step fun tbuf l' acts => ⟨.inr rfl, ?_⟩
  have plain : Plain (.kmalloc count) := trivial
  have begun' := begun.apart (plain.apart acts)
  obtain ⟨⟨port, kept, rfl⟩, -⟩ := acts
  cases kept
  split_ifs
  · exact leaving_up (begun'.leaving _)
  · have fills : fillBuffer fgpiop count = readEvents count := if_pos mode.irq
    rw [fills]
    refine (readEvents_reads count begun'.reading).owned fun bytes l' taken => ?_
    obtain ⟨reading, ⟨port, rfl⟩, quiet⟩ := taken
    have quietly : count = 0 ∨ qEmpty l.entered = true → bytes = [] ∧ port.queue = l.entered := by
      rw [begun.entered]
      exact quiet
    have done : OnlyPerforms Plain kfree := ⟨trivial, fun _ => trivial⟩
    refine owned_step fun left l' acts => ⟨.inr rfl, ?_⟩
    exact leaving_plain done (copyToUser_leaving reading quietly acts) fun _ _ => leaving_up

theorem hwWrite_caller (count : Nat) : Caller (hwWrite fgpiop count) := by
  refine downInterruptible_caller fun l begun => ?_
  refine begun_plain (p := kmalloc count) ⟨trivial, fun _ => trivial⟩ begun fun tbuf l begun => ?_
  split_ifs
  · exact leaving_up (begun.leaving _)
  · refine begun_plain (p := copyFromUser count) ⟨trivial, fun _ => trivial⟩ begun fun copied l begun => ?_
    refine begun_plain (plain_drainBuffer count copied) begun fun retval l begun => ?_
    exact begun_plain (p := kfree) ⟨trivial, fun _ => trivial⟩ begun fun _ _ begun => leaving_up (begun.leaving retval)

theorem plain_intsOff : OnlyPerforms Plain (intsOff fgpiop) := by
  unfold intsOff
  split_ifs
  · exact ⟨trivial, fun _ => trivial⟩
  · trivial

theorem plain_getintMask (arg : UInt32) : OnlyPerforms Plain (getintMask fgpiop arg) := by
  refine onlyPerforms_step trivial fun ok => ?_
  split_ifs
  · exact onlyPerforms_step trivial fun _ => ⟨trivial, fun _ => trivial⟩
  · trivial

theorem plain_setintMask (arg : UInt32) : OnlyPerforms Plain (setintMask fgpiop arg) := by
  refine onlyPerforms_step trivial fun ok => ?_
  split_ifs
  · exact ⟨trivial, fun _ => trivial⟩
  · trivial

theorem plain_readReg0 (arg : UInt32) : OnlyPerforms Plain (readReg0 arg) := by
  refine onlyPerforms_step trivial fun ok => ?_
  split_ifs
  · exact onlyPerforms_step trivial fun _ => ⟨trivial, fun _ => trivial⟩
  · trivial

theorem ioctlSwitch_holder (cmd arg : UInt32) {l : Ledger} (begun : Begun l) :
    Holder (ioctlSwitch fgpiop cmd arg) l := by
  have finish : ∀ (_ : Unit) l, Begun l → Holder (up >>= fun _ => pure 0) l :=
    fun _ _ begun => leaving_up (begun.leaving 0)
  unfold ioctlSwitch
  split_ifs
  · exact begun_plain plain_intsOff begun finish
  · exact begun_plain (plain_getintMask arg) begun finish
  · exact begun_plain (plain_setintMask arg) begun finish
  · refine owned_step fun _ l' acts => ⟨.inl rfl, ?_⟩
    obtain ⟨⟨port, acts, rfl⟩, -⟩ := acts
    cases acts
    refine leaving_up ⟨begun.reading.flush rfl, fun error => absurd error (lt_irrefl 0), fun bytes left some => ?_⟩
    cases begun.handed.symm.trans some
  · exact begun_plain (plain_readReg0 arg) begun finish
  · exact leaving_up (begun.leaving _)

theorem hwIoctl_caller (cmd arg : UInt32) : Caller (hwIoctl fgpiop cmd arg) := by
  have unchanged : ∀ (size : UInt32) (ok : Bool) l l', harmlessAct (.accessOk arg size) ok l l' → l' = l := by
    rintro size ok l l' ⟨⟨port, acts, rfl⟩, -⟩
    cases acts
    rfl
  have checked : Caller (accessOk arg (iocSize cmd) >>= fun ok =>
      if ok = false then pure (-EFAULT)
      else downInterruptible >>= fun result =>
        if result ≠ 0 then pure (-ERESTARTSYS) else ioctlSwitch fgpiop cmd arg) := by
    refine waiting_neutral (fun _ => rfl) (unchanged _) fun ok => ?_
    by_cases refused : ok = false
    · rw [if_pos refused]
      trivial
    · rw [if_neg refused]
      exact downInterruptible_caller fun l begun => ioctlSwitch_holder cmd arg begun
  unfold hwIoctl
  split_ifs
  · trivial
  · trivial
  · exact checked
  · exact checked

/-- The pins of the edge register come in the low eight bits. -/
theorem edges_narrow (mode : EventMode fgpiop) (edges : UInt32) :
    (edges &&& fgpiop.bits &&& ~~~fgpiop.direction).toNat < 256 := by
  have below : (edges &&& fgpiop.bits &&& ~~~fgpiop.direction).toNat ≤ fgpiop.bits.toNat := by
    rw [UInt32.toNat_and, UInt32.toNat_and]
    exact Nat.and_le_left.trans Nat.and_le_right
  have byte : fgpiop.bits.toNat = 255 := by
    rw [mode.bits]
    rfl
  omega

theorem fgpioIrq_caller (mode : EventMode fgpiop) : Caller (fgpioIrq fgpiop) := by
  refine waiting_acquire (fun _ => rfl) fun _ l l' reading acts => ?_
  obtain ⟨⟨port, acts, rfl⟩, -⟩ := acts
  refine begun_plain plain_makeReadable (reading.begun acts) fun _ l begun => ?_
  refine begun_plain (p := ioread32 12) ⟨trivial, fun _ => trivial⟩ begun fun edges l begun => ?_
  refine owned_step fun result l' acts => ⟨.inl rfl, ?_⟩
  obtain ⟨⟨port, ⟨Q, ran, rfl⟩, rfl⟩, -⟩ := acts
  have enqueued := begun.reading.enqueue (edges_narrow mode edges) ran rfl
  have acknowledges : OnlyPerforms Plain (iowrite32 0xff 12) := ⟨trivial, fun _ => trivial⟩
  refine leaving_plain acknowledges ⟨enqueued, fun error => ?_, fun bytes left some => ?_⟩ fun _ _ => leaving_up
  · exact absurd error (by decide)
  · cases begun.handed.symm.trans some

theorem call_caller (mode : EventMode fgpiop) (p : Code Int) (isCall : IsCall fgpiop p) : Caller p := by
  obtain ⟨call, rfl⟩ := isCall
  cases call with
  | read count => exact hwRead_caller mode count
  | write count => exact hwWrite_caller count
  | ioctl cmd arg => exact hwIoctl_caller cmd arg
  | irq => exact fgpioIrq_caller mode

end

/-- Over every interleaving of interrupts, reads, flushes and other calls in
which a copy fails only where there was nothing to copy, every event that has
left the queue, zero and flushed ones apart, has been copied once and in order
whenever the semaphore is free; and a call that returns an error either never
had the semaphore and changed nothing, or leaves the queue as it found it. -/
theorem events_delivered {ι : Type} [DecidableEq ι] {fgpiop : FgpioPort} (mode : EventMode fgpiop)
    {registers : Nat → UInt32} {Q : Queue} {events : List (Event ι Op Answer Int)} {s : Pool ι Op Answer Int Ledger}
    (run : Run roleOf harmlessAct (IsCall fgpiop) (Pool.idle (.opened registers Q)) events s) :
    (s.count = 1 → Delivered s.data) ∧
      ∀ (i : ι) (op : Op) (answer : Answer op) (value : Int) (t : Pool ι Op Answer Int Ledger),
        Step roleOf harmlessAct (IsCall fgpiop) s (.performed i op answer) t → t.running i = some (.done value) →
          (tallyOf roleOf (events ++ [.performed i op answer]) i = ⟨0, 0⟩ ∧ t.data = s.data) ∨
            Answered value t.data := by
  have guarded := call_guarded fgpiop
  have waits := call_caller mode
  have initial := Ledger.opened_reading registers Q
  refine ⟨fun free => ?_, fun i op answer value t step done => ?_⟩
  · have reading := (run.resourced guarded waits initial).free free
    have bytes := reading.bytes
    rw [List.append_nil] at bytes
    exact ⟨reading.queued, bytes⟩
  · rcases run.returns guarded waits initial step done with unentered | ⟨-, -, answered⟩
    · exact .inl unentered
    · exact .inr answered

def eventPort : FgpioPort := ⟨1, 0xff, 0x100⟩

/-- The edge register shows one pin, and every copy to user space leaves so many bytes. -/
def onePin (left : Nat) : (op : Op) → Ledger → Option (Answer op) × Ledger
  | .downInterruptible, l => (some 0, l.note l.port .downInterruptible 0)
  | .down, l => (some (), l.note l.port .down ())
  | .kmalloc size, l => (some true, l.note l.port (.kmalloc size) true)
  | .copyToUser bytes, l => (some left, l.note l.port (.copyToUser bytes) left)
  | .ioread32 _, l => (some 0x04, l)
  | .iowrite32 value offset, l =>
    (some (), { l with port := { l.port with registers := Function.update l.port.registers offset value } })
  | .qEnqueue x, l =>
    match qEnqueue x l.port.queue with
    | some (result, Q) => (some result, l.note { l.port with queue := Q } (.qEnqueue x) result)
    | none => (none, l)
  | .qDequeue, l =>
    match qDequeue l.port.queue with
    | some (x, Q) => (some x, l.note { l.port with queue := Q } .qDequeue x)
    | none => (none, l)
  | .up, l | .kfree, l => (some (), l)
  | .copyFromUser _, l | .accessOk _ _, l | .storeUser _ _, l | .qInit, l => (none, l)

theorem onePin_sound {left : Nat} (op : Op) (answer : Answer op) (l l' : Ledger)
    (ran : onePin left op l = (some answer, l')) : ledgerAct op answer l l' := by
  cases op with
  | qEnqueue x =>
    simp only [onePin] at ran
    split at ran
    · rename_i result Q enqueued
      cases ran
      exact ⟨_, ⟨Q, enqueued, rfl⟩, rfl⟩
    · cases ran
  | qDequeue =>
    simp only [onePin] at ran
    split at ran
    · rename_i x Q dequeued
      cases ran
      exact ⟨_, ⟨Q, dequeued, rfl⟩, rfl⟩
    · cases ran
  | iowrite32 value offset =>
    cases ran
    exact ⟨_, rfl, rfl⟩
  | copyFromUser | accessOk | storeUser | qInit => cases ran
  | _ =>
    cases ran
    exact ⟨l.port, rfl, rfl⟩

theorem onePin_harmless (op : Op) (answer : Answer op) (l l' : Ledger) (ran : onePin 0 op l = (some answer, l')) :
    harmlessAct op answer l l' := by
  refine ⟨onePin_sound op answer l l' ran, ?_⟩
  cases op with
  | copyToUser bytes =>
    cases ran
    exact fun failed => absurd rfl failed
  | _ => trivial

/-- One process takes an interrupt, and the other one then reads. -/
theorem interrupt_then_read {acts : (op : Op) → Answer op → Ledger → Ledger → Prop}
    {handle : (op : Op) → Ledger → Option (Answer op) × Ledger}
    (sound : ∀ op answer l l', handle op l = (some answer, l') → acts op answer l l') {fgpiop : FgpioPort} {count : Nat}
    {opened queued after : Ledger} {handled value : Int}
    (interrupt : (fgpioIrq fgpiop).run handle opened = (some handled, queued))
    (read : (hwRead fgpiop count).run handle queued = (some value, after)) :
    ∃ (events : List (Event Bool Op Answer Int)) (s : Pool Bool Op Answer Int Ledger),
      Run roleOf acts (IsCall fgpiop) (Pool.idle opened) events s ∧
        s.count = 1 ∧ s.running false = some (.done value) ∧ s.data = after := by
  let raised : Pool Bool Op Answer Int Ledger :=
    ⟨Function.update (fun _ => none) true (some (fgpioIrq fgpiop)), 1, opened⟩
  let returned : Pool Bool Op Answer Int Ledger :=
    ⟨Function.update raised.running true (some (.done handled)), 1, queued⟩
  let asked : Pool Bool Op Answer Int Ledger :=
    { returned with running := Function.update returned.running false (some (hwRead fgpiop count)) }
  have raises : Step roleOf acts (IsCall fgpiop) (Pool.idle opened) (.started true) raised :=
    Step.start rfl ⟨.irq, rfl⟩
  have asks : Step roleOf acts (IsCall fgpiop) returned (.started false) asked := Step.start rfl ⟨.read count, rfl⟩
  obtain ⟨_, first⟩ := (Run.nil.snoc raises).played sound (i := true) rfl (fgpioIrq_guarded fgpiop) rfl interrupt
  obtain ⟨events, second⟩ := (first.snoc asks).played sound (i := false) rfl (hwRead_guarded fgpiop count) rfl read
  exact ⟨events, _, second, rfl, rfl, rfl⟩

/-- The interrupt queues one event, and the read that takes it delivers it. -/
theorem event_delivered :
    ∃ s : Pool Bool Op Answer Int Ledger,
      s.running false = some (.done 1) ∧ s.data.kept = [0x04] ∧ s.data.copied = [0x04] ∧ Delivered s.data := by
  let opened : Ledger := .opened (fun _ => 0) ⟨0, 0, 0, 0, fun _ => 0⟩
  let queued : Ledger := ((fgpioIrq eventPort).run (onePin 0) opened).2
  let after : Ledger := ((hwRead eventPort 1).run (onePin 0) queued).2
  have interrupt : (fgpioIrq eventPort).run (onePin 0) opened = (some irqHandled, queued) := rfl
  have read : (hwRead eventPort 1).run (onePin 0) queued = (some 1, after) := rfl
  have mode : EventMode eventPort := ⟨by decide, rfl, rfl⟩
  obtain ⟨events, s, run, free, returned, same⟩ := interrupt_then_read onePin_harmless interrupt read
  refine ⟨s, returned, ?_, ?_, (events_delivered mode run).1 free⟩
  · rw [same]
    rfl
  · rw [same]
    rfl

/-- The interrupt queues one event, and the read that takes it cannot deliver it. -/
theorem event_lost :
    ∃ (events : List (Event Bool Op Answer Int)) (s : Pool Bool Op Answer Int Ledger),
      Run roleOf ledgerAct (IsCall eventPort) (Pool.idle (.opened (fun _ => 0) ⟨0, 0, 0, 0, fun _ => 0⟩)) events s ∧
        s.count = 1 ∧ s.running false = some (.done (-EFAULT)) ∧ s.data.kept = [0x04] ∧ s.data.copied = [] ∧
        ¬ Delivered s.data ∧ ¬ Answered (-EFAULT) s.data := by
  let opened : Ledger := .opened (fun _ => 0) ⟨0, 0, 0, 0, fun _ => 0⟩
  let queued : Ledger := ((fgpioIrq eventPort).run (onePin 1) opened).2
  let after : Ledger := ((hwRead eventPort 1).run (onePin 1) queued).2
  have interrupt : (fgpioIrq eventPort).run (onePin 1) opened = (some irqHandled, queued) := rfl
  have read : (hwRead eventPort 1).run (onePin 1) queued = (some (-EFAULT), after) := rfl
  obtain ⟨events, s, run, free, returned, same⟩ := interrupt_then_read onePin_sound interrupt read
  refine ⟨events, s, run, free, returned, ?_, ?_, fun delivered => ?_, fun answered => ?_⟩
  · rw [same]
    rfl
  · rw [same]
    rfl
  · have copied : after.copied = [] := rfl
    have passed : after.passed = [0x04] := rfl
    have bytes := delivered.bytes
    rw [same, copied, passed] at bytes
    exact absurd bytes (by decide)
  · rw [same] at answered
    have unchanged := answered.error (by decide)
    have sizes : (0 : Int) = 1 := congrArg Queue.size unchanged
    cases sizes

end FlukeCda.Gpio
