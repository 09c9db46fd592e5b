import FlukeCda.Inttimer.Source

namespace FlukeCda.Inttimer
open Interaction Program Port

/-- What one call meets with: the answer to its k-th operation, and whether a
store through the user's pointer faults. -/
structure Outcomes where
  answers : Nat → (op : Op) → Answer op
  faults : Bool

/-- The semaphore of the port during one call, with what the call did to it. -/
structure Progress where
  step : Nat
  count : Nat
  acquired : Nat
  released : Nat

/-- Nobody else is there to release the semaphore, so taking it at count 0
never returns; neither does a store that faults. -/
def handle (o : Outcomes) : (op : Op) → Progress → Option (Answer op) × Progress
  | .storeUser _ _, s => if o.faults then (none, s) else (some (), { s with step := s.step + 1 })
  | op, s =>
    match roleOf op (o.answers s.step op) with
    | .acquire =>
      if s.count = 0 then (none, s)
      else (some (o.answers s.step op),
        { s with step := s.step + 1, count := s.count - 1, acquired := s.acquired + 1 })
    | .release =>
      (some (o.answers s.step op),
        { s with step := s.step + 1, count := s.count + 1, released := s.released + 1 })
    | _ => (some (o.answers s.step op), { s with step := s.step + 1 })

def perform (c : Call × Outcomes) (count : Nat) : Option Int × Progress :=
  c.1.code.run (handle c.2) ⟨0, count, 0, 0⟩

/-- The call returns, has released the semaphore once if it acquired it and not
otherwise, and leaves its count at 1. -/
def Paired (c : Call × Outcomes) (count : Nat) : Prop :=
  (perform c count).1 ≠ none ∧ (perform c count).2.released = (perform c count).2.acquired ∧
    (perform c count).2.acquired ≤ 1 ∧ (perform c count).2.count = 1

/-- The count after a sequence of calls on a port whose semaphore starts at 1. -/
def countAfter (calls : List (Call × Outcomes)) : Nat :=
  calls.foldl (fun count c => (perform c count).2.count) 1

/-- The failures behind which a call ends without releasing the semaphore. -/
def Leaks : Call × Outcomes → Prop
  | (.read count, o) | (.write count, o) =>
    o.answers 0 .downInterruptible = 0 ∧ o.answers 1 (.kmalloc count) = false
  | (.ioctl cmd arg, o) =>
    iocType cmd ≠ inttimerIocMagicNumber ∨ iocNr cmd ≥ inttimerIocMaxnumber ∨
      o.answers 1 (.accessOk arg (iocSize cmd)) = false ∨
      cmd = inttimerReadReg0 ∧ o.answers 2 (.accessOk arg sizeofInt) = true ∧ o.faults = true

section
variable (o : Outcomes)

@[simp] theorem handle_ioread32 (offset : Nat) (s : Progress) :
    handle o (.ioread32 offset) s = (some (o.answers s.step (.ioread32 offset)),
      { s with step := s.step + 1 }) := rfl
@[simp] theorem handle_iowrite32 (value : UInt32) (offset : Nat) (s : Progress) :
    handle o (.iowrite32 value offset) s = (some (), { s with step := s.step + 1 }) := rfl
@[simp] theorem handle_kmalloc (size : Nat) (s : Progress) :
    handle o (.kmalloc size) s = (some (o.answers s.step (.kmalloc size)), { s with step := s.step + 1 }) := rfl
@[simp] theorem handle_kfree (s : Progress) : handle o .kfree s = (some (), { s with step := s.step + 1 }) :=
  rfl
@[simp] theorem handle_copyToUser (bytes : List UInt8) (s : Progress) :
    handle o (.copyToUser bytes) s = (some (o.answers s.step (.copyToUser bytes)),
      { s with step := s.step + 1 }) := rfl
@[simp] theorem handle_copyFromUser (count : Nat) (s : Progress) :
    handle o (.copyFromUser count) s = (some (o.answers s.step (.copyFromUser count)),
      { s with step := s.step + 1 }) := rfl
@[simp] theorem handle_accessOk (arg size : UInt32) (s : Progress) :
    handle o (.accessOk arg size) s = (some (o.answers s.step (.accessOk arg size)),
      { s with step := s.step + 1 }) := rfl
@[simp] theorem handle_up (s : Progress) :
    handle o .up s =
      (some (), { s with step := s.step + 1, count := s.count + 1, released := s.released + 1 }) := rfl
@[simp] theorem handle_down (step acquired released n : Nat) :
    handle o .down ⟨step, n + 1, acquired, released⟩ = (some (), ⟨step + 1, n, acquired + 1, released⟩) := rfl
@[simp] theorem handle_storeUser (arg value : UInt32) (s : Progress) :
    handle o (.storeUser arg value) s =
      if o.faults then (none, s) else (some (), { s with step := s.step + 1 }) := rfl

theorem handle_downInterruptible (step acquired released n : Nat) :
    handle o .downInterruptible ⟨step, n + 1, acquired, released⟩ =
      (some (o.answers step .downInterruptible),
        if o.answers step .downInterruptible = 0 then ⟨step + 1, n, acquired + 1, released⟩
        else ⟨step + 1, n + 1, acquired, released⟩) := by
  by_cases zero : o.answers step .downInterruptible = 0 <;> simp [handle, roleOf, zero]

theorem readRegister_run (n : Nat) (s : Progress) :
    ∃ bytes, (readRegister n).run (handle o) s = (some bytes, { s with step := s.step + n }) := by
  induction n generalizing s with
  | zero => exact ⟨[], rfl⟩
  | succ n ih =>
    obtain ⟨bytes, ran⟩ := ih { s with step := s.step + 1 }
    refine ⟨(o.answers s.step (.ioread32 4)).toUInt8 :: bytes, ?_⟩
    simp only [readRegister, ioread32, perform_bind, run, handle_ioread32]
    rw [run_bind_some (handle o) ran, run_pure]
    simp only [Nat.add_assoc, Nat.add_comm 1 n]

theorem writeRegister_run (tbuf : Nat → UInt8) (i n : Nat) (s : Progress) :
    (writeRegister tbuf i n).run (handle o) s = (some (), { s with step := s.step + n }) := by
  induction n generalizing i s with
  | zero => rfl
  | succ n ih =>
    simp only [writeRegister, iowrite32, perform_bind, run, handle_iowrite32, ih]
    simp only [Nat.add_assoc, Nat.add_comm 1 n]

theorem drainBuffer_run (count : Nat) (copied : CopiedIn) (s : Progress) :
    ∃ retval step, (drainBuffer count copied).run (handle o) s = (some retval, { s with step }) := by
  unfold drainBuffer
  by_cases failed : copied.left ≠ 0
  · exact ⟨-EFAULT, s.step, by rw [if_pos failed, run_pure]⟩
  · refine ⟨count, s.step + count, ?_⟩
    rw [if_neg failed, run_bind_some (handle o) (writeRegister_run o copied.bytes 0 count s), run_pure]

/-- A call that comes back with its acquire and its release behind it. -/
theorem paired_of_run {call : Call} {value : Int} {step : Nat}
    (ran : call.code.run (handle o) ⟨0, 1, 0, 0⟩ = (some value, ⟨step, 1, 1, 1⟩)) : Paired (call, o) 1 := by
  unfold Paired perform
  rw [ran]
  simp

theorem not_paired_of_run {call : Call} {result : Option Int} {step : Nat}
    (ran : call.code.run (handle o) ⟨0, 1, 0, 0⟩ = (result, ⟨step, 0, 1, 0⟩)) : ¬ Paired (call, o) 1 := by
  unfold Paired perform
  rw [ran]
  simp

/-- An interrupted `down_interruptible` ends the call before it has acquired anything. -/
theorem paired_of_signal {call : Call} {body : Code Int}
    (code : call.code = downInterruptible >>= fun result => if result ≠ 0 then pure (-ERESTARTSYS) else body)
    (signalled : o.answers 0 .downInterruptible ≠ 0) : Paired (call, o) 1 := by
  unfold Paired perform
  rw [code]
  simp [downInterruptible, run, handle_downInterruptible, signalled]

/-- Otherwise the rest of the call runs with the semaphore down. -/
theorem run_acquired (call : Call) {body : Code Int}
    (code : call.code = downInterruptible >>= fun result => if result ≠ 0 then pure (-ERESTARTSYS) else body)
    (acquired : o.answers 0 .downInterruptible = 0) :
    call.code.run (handle o) ⟨0, 1, 0, 0⟩ = body.run (handle o) ⟨1, 0, 1, 0⟩ := by
  rw [code]
  simp [downInterruptible, run, handle_downInterruptible, acquired]

theorem read_paired_iff (count : Nat) : Paired (.read count, o) 1 ↔ ¬ Leaks (.read count, o) := by
  unfold Leaks
  by_cases acquired : o.answers 0 .downInterruptible = 0
  · have ran := run_acquired o (.read count) rfl acquired
    simp only [kmalloc, perform_bind, run, handle_kmalloc] at ran
    by_cases granted : o.answers 1 (.kmalloc count) = false
    · rw [if_pos granted, run_pure] at ran
      exact iff_of_false (not_paired_of_run o ran) fun kept => kept ⟨acquired, granted⟩
    · obtain ⟨bytes, read⟩ := readRegister_run o count ⟨2, 0, 1, 0⟩
      rw [if_neg granted, run_bind_some (handle o) read] at ran
      exact iff_of_true (paired_of_run o ran) fun leaks => granted leaks.2
  · exact iff_of_true (paired_of_signal o rfl acquired) fun leaks => acquired leaks.1

theorem write_paired_iff (count : Nat) : Paired (.write count, o) 1 ↔ ¬ Leaks (.write count, o) := by
  unfold Leaks
  by_cases acquired : o.answers 0 .downInterruptible = 0
  · have ran := run_acquired o (.write count) rfl acquired
    simp only [kmalloc, perform_bind, run, handle_kmalloc] at ran
    by_cases granted : o.answers 1 (.kmalloc count) = false
    · rw [if_pos granted, run_pure] at ran
      exact iff_of_false (not_paired_of_run o ran) fun kept => kept ⟨acquired, granted⟩
    · obtain ⟨retval, step, drained⟩ := drainBuffer_run o count (o.answers 2 (.copyFromUser count)) ⟨3, 0, 1, 0⟩
      rw [if_neg granted] at ran
      simp only [copyFromUser, perform_bind, run, handle_copyFromUser] at ran
      rw [run_bind_some (handle o) drained] at ran
      exact iff_of_true (paired_of_run o ran) fun leaks => granted leaks.2
  · exact iff_of_true (paired_of_signal o rfl acquired) fun leaks => acquired leaks.1

/-- The switch releases the semaphore unless its store to the user faults. -/
theorem ioctlSwitch_run (cmd arg : UInt32) :
    if cmd = inttimerReadReg0 ∧ o.answers 2 (.accessOk arg sizeofInt) = true ∧ o.faults = true then
      ∃ step, (ioctlSwitch cmd arg).run (handle o) ⟨2, 0, 1, 0⟩ = (none, ⟨step, 0, 1, 0⟩)
    else ∃ value step, (ioctlSwitch cmd arg).run (handle o) ⟨2, 0, 1, 0⟩ = (some value, ⟨step, 1, 1, 1⟩) := by
  have write : ∀ offset, ∃ step,
      (writeFreq arg offset).run (handle o) ⟨2, 0, 1, 0⟩ = (some (), ⟨step, 0, 1, 0⟩) := by
    intro offset
    simp only [writeFreq, accessOk, perform_bind, run, handle_accessOk]
    split_ifs
    · exact ⟨4, rfl⟩
    · exact ⟨3, rfl⟩
  unfold ioctlSwitch
  by_cases read : cmd = inttimerReadReg0
  · simp only [read, true_and, if_true]
    by_cases ok : o.answers 2 (.accessOk arg sizeofInt) = true
    · have ran : (readReg0 arg).run (handle o) ⟨2, 0, 1, 0⟩ =
          if o.faults then (none, ⟨4, 0, 1, 0⟩) else (some (), ⟨5, 0, 1, 0⟩) := by
        simp only [readReg0, accessOk, ioread32, storeUser, perform_bind, run, handle_accessOk, ok,
          if_true, handle_ioread32]
        simp only [Interaction.Program.perform, run, handle_storeUser]
        split_ifs <;> rfl
      by_cases faults : o.faults = true
      · simp only [ok, faults, and_self, if_true]
        exact ⟨4, run_bind_none (handle o) (ran.trans (by rw [faults]; rfl))⟩
      · rw [if_neg fun faulty => faults faulty.2]
        exact ⟨0, 6, (run_bind_some (handle o) (ran.trans (by rw [if_neg faults]))).trans rfl⟩
    · have ran : (readReg0 arg).run (handle o) ⟨2, 0, 1, 0⟩ = (some (), ⟨3, 0, 1, 0⟩) := by
        simp only [readReg0, accessOk, perform_bind, run, handle_accessOk, ok,
          Bool.false_eq_true, if_false, run_pure]
      simp only [ok, false_and, if_false, Bool.false_eq_true]
      exact ⟨0, 4, (run_bind_some (handle o) ran).trans rfl⟩
  · simp only [read, false_and, if_false]
    split_ifs
    · obtain ⟨step, ran⟩ := write 0x08
      exact ⟨0, step + 1, (run_bind_some (handle o) ran).trans rfl⟩
    · obtain ⟨step, ran⟩ := write 0x0c
      exact ⟨0, step + 1, (run_bind_some (handle o) ran).trans rfl⟩
    · exact ⟨-ENOTTY, 3, rfl⟩

theorem ioctl_paired_iff (cmd arg : UInt32) : Paired (.ioctl cmd arg, o) 1 ↔ ¬ Leaks (.ioctl cmd arg, o) := by
  have early : ∀ value step, (hwIoctl cmd arg).run (handle o) ⟨0, 1, 0, 0⟩ = (some value, ⟨step, 0, 1, 0⟩) →
      Leaks (.ioctl cmd arg, o) → (Paired (.ioctl cmd arg, o) 1 ↔ ¬ Leaks (.ioctl cmd arg, o)) :=
    fun value step ran leaks => iff_of_false (not_paired_of_run o ran) fun kept => kept leaks
  by_cases magic : iocType cmd ≠ inttimerIocMagicNumber
  · refine early (-ENOTTY) 1 ?_ (Or.inl magic)
    simp only [hwIoctl, down, perform_bind, run, handle_down, magic, ne_eq,
      not_false_eq_true, if_true, run_pure]
  · by_cases number : iocNr cmd ≥ inttimerIocMaxnumber
    · refine early (-ENOTTY) 1 ?_ (Or.inr (Or.inl number))
      simp only [hwIoctl, down, perform_bind, run, handle_down, magic, number, if_false, if_true, run_pure]
    · have checked : (hwIoctl cmd arg).run (handle o) ⟨0, 1, 0, 0⟩ =
          (if o.answers 1 (.accessOk arg (iocSize cmd)) = false then pure (-EFAULT)
            else ioctlSwitch cmd arg).run
            (handle o) ⟨2, 0, 1, 0⟩ := by
        simp only [hwIoctl, down, accessOk, perform_bind, run, handle_down, magic, number, if_false,
          ite_self, handle_accessOk]
      by_cases refused : o.answers 1 (.accessOk arg (iocSize cmd)) = false
      · refine early (-EFAULT) 2 ?_ (Or.inr (Or.inr (Or.inl refused)))
        rw [checked, if_pos refused, run_pure]
      · rw [if_neg refused] at checked
        have finish := ioctlSwitch_run o cmd arg
        split_ifs at finish with faulty
        · obtain ⟨step, ran⟩ := finish
          refine iff_of_false (not_paired_of_run o (checked.trans ran)) fun kept => ?_
          exact kept (Or.inr (Or.inr (Or.inr faulty)))
        · obtain ⟨value, step, ran⟩ := finish
          refine iff_of_true (paired_of_run o (checked.trans ran)) ?_
          rintro (leaks | leaks | leaks | leaks)
          · exact magic leaks
          · exact number leaks
          · exact refused leaks
          · exact faulty leaks

end

theorem call_paired_iff (c : Call × Outcomes) : Paired c 1 ↔ ¬ Leaks c := by
  obtain ⟨call, o⟩ := c
  cases call with
  | read count => exact read_paired_iff o count
  | write count => exact write_paired_iff o count
  | ioctl cmd arg => exact ioctl_paired_iff o cmd arg

theorem countAfter_snoc (calls : List (Call × Outcomes)) (c : Call × Outcomes) :
    countAfter (calls ++ [c]) = (perform c (countAfter calls)).2.count := by
  rw [countAfter, List.foldl_append]
  rfl

theorem countAfter_of_paired {calls : List (Call × Outcomes)}
    (paired : ∀ before c after, calls = before ++ c :: after → Paired c (countAfter before)) :
    countAfter calls = 1 := by
  rcases List.eq_nil_or_concat calls with rfl | ⟨before, last, rfl⟩
  · rfl
  · rw [List.concat_eq_append] at paired ⊢
    rw [countAfter_snoc]
    exact (paired before last [] rfl).2.2.2

theorem countAfter_of_not_leaks {calls : List (Call × Outcomes)} (kept : ∀ c ∈ calls, ¬ Leaks c) :
    countAfter calls = 1 := by
  induction calls using List.reverseRecOn with
  | nil => rfl
  | append_singleton before last ih =>
    have one := ih fun c member => kept c (List.mem_append_left _ member)
    rw [countAfter_snoc, one]
    exact ((call_paired_iff last).mpr (kept last (by simp))).2.2.2

/-- In every sequence of calls each one is paired, and leaves the semaphore for
the next one, exactly when none of them leaks. -/
theorem calls_paired_iff (calls : List (Call × Outcomes)) :
    (∀ before c after, calls = before ++ c :: after → Paired c (countAfter before)) ↔
    ∀ c ∈ calls, ¬ Leaks c := by
  constructor
  · intro paired c member
    obtain ⟨before, after, rfl⟩ := List.append_of_mem member
    have one : countAfter before = 1 := by
      refine countAfter_of_paired fun first d rest parts => paired first d (rest ++ c :: after) ?_
      rw [parts, List.append_assoc, List.cons_append]
    rw [← call_paired_iff, ← one]
    exact paired before c after rfl
  · rintro kept before c after rfl
    have one := countAfter_of_not_leaks fun d member => kept d (List.mem_append_left (c :: after) member)
    rw [one, call_paired_iff]
    exact kept c (by simp)

/-- Nothing fails but the allocation. -/
def outOfMemory : Outcomes where
  answers := fun _ op =>
    match op with
    | .downInterruptible | .qEnqueue _ => 0
    | .down | .up | .kfree | .storeUser _ _ | .iowrite32 _ _ | .qInit => ()
    | .kmalloc _ => false
    | .accessOk _ _ => true
    | .copyToUser _ => 0
    | .copyFromUser _ => ⟨0, fun _ => 0⟩
    | .ioread32 _ | .qDequeue => 0
  faults := false

/-- A read without memory keeps the semaphore, and the next call waits for ever;
so does an ioctl with a number of another driver. -/
theorem semaphore_lost :
    (¬ Paired (.read 1, outOfMemory) 1 ∧
      (perform (.ioctl inttimerReadReg0 0, outOfMemory) (countAfter [(.read 1, outOfMemory)])).1 = none) ∧
    ¬ Paired (.ioctl 0 0, outOfMemory) 1 := by
  refine ⟨⟨?_, rfl⟩, ?_⟩
  · rintro ⟨_, balanced, _⟩
    exact absurd balanced Nat.zero_ne_one
  · rintro ⟨_, balanced, _⟩
    exact absurd balanced Nat.zero_ne_one

end FlukeCda.Inttimer
