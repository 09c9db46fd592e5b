import FlukeCda.Data.Ring

namespace FlukeCda.Gpio

def qSize : Nat := 128

instance : NeZero qSize := ⟨by decide⟩

/-- `struct Queue`. -/
structure Queue where
  capacity : Int
  front : Int
  rear : Int
  size : Int
  array : Fin qSize → UInt32

namespace Queue

/-- An access outside the array has no result. -/
def load (Q : Queue) (i : Int) : Option UInt32 :=
  if h : 0 ≤ i ∧ i < qSize then some (Q.array ⟨i.toNat, by omega⟩) else none

def store (Q : Queue) (i : Int) (x : UInt32) : Option Queue :=
  if h : 0 ≤ i ∧ i < qSize then some { Q with array := Function.update Q.array ⟨i.toNat, by omega⟩ x } else none

end Queue

def qFull (Q : Queue) : Bool := Q.size == Q.capacity

def qEmpty (Q : Queue) : Bool := Q.size == 0

def qInit (Q : Queue) : Queue := { Q with capacity := qSize, size := 0, front := 1, rear := 0 }

def qNext (value : Int) (Q : Queue) : Int := if value + 1 = Q.capacity then 0 else value + 1

def qEnqueue (x : UInt32) (Q : Queue) : Option (Int × Queue) :=
  if qFull Q then some (-1, Q)
  else do
    let Q := { Q with size := Q.size + 1 }
    let Q := { Q with rear := qNext Q.rear Q }
    let Q ← Q.store Q.rear x
    some (0, Q)

def qDequeue (Q : Queue) : Option (UInt32 × Queue) :=
  if !qEmpty Q then do
    let Q := { Q with size := Q.size - 1 }
    let x ← Q.load Q.front
    let Q := { Q with front := qNext Q.front Q }
    some (x, Q)
  else some (0, Q)

inductive QueueCall
  | enqueue (x : UInt32)
  | dequeue
  | init

/-- What a call returns. -/
inductive QueueResult
  | status (retval : Int)
  | event (x : UInt32)
  | unit
  deriving DecidableEq

def QueueCall.run : QueueCall → Queue → Option (QueueResult × Queue)
  | enqueue x, Q => (qEnqueue x Q).map fun (retval, Q) => (.status retval, Q)
  | dequeue, Q => (qDequeue Q).map fun (x, Q) => (.event x, Q)
  | init, Q => some (.unit, qInit Q)

def runCalls : List QueueCall → Queue → Option (List QueueResult × Queue)
  | [], Q => some ([], Q)
  | call :: rest, Q => do
    let (result, Q) ← call.run Q
    let (results, Q) ← runCalls rest Q
    some (result :: results, Q)

/-- What the queue is for: a first-in first-out list of at most `qSize` events. -/
def QueueCall.spec : QueueCall → List UInt32 → QueueResult × List UInt32
  | enqueue x, items => if items.length = qSize then (.status (-1), items) else (.status 0, items ++ [x])
  | dequeue, [] => (.event 0, [])
  | dequeue, x :: items => (.event x, items)
  | init, _ => (.unit, [])

def specCalls : List QueueCall → List UInt32 → List QueueResult × List UInt32
  | [], items => ([], items)
  | call :: rest, items =>
    ((call.spec items).1 :: (specCalls rest (call.spec items).2).1, (specCalls rest (call.spec items).2).2)

/-- The four counters agree with each other and with the events still unread. -/
structure Represents (Q : Queue) (items : List UInt32) : Prop where
  capacity : Q.capacity = qSize
  size : Q.size = items.length
  bounded : Q.size ≤ qSize
  front : 0 ≤ Q.front ∧ Q.front < qSize
  rear : 0 ≤ Q.rear ∧ Q.rear < qSize
  link : (Q.rear + 1) % qSize = (Q.front + Q.size) % qSize
  holds : Ring.Holds Q.array Q.front.toNat items

theorem qInit_represents (Q : Queue) : Represents (qInit Q) [] := by
  refine ⟨rfl, rfl, ?_, ?_, ?_, rfl, Ring.Holds.nil _ _⟩ <;> simp [qInit, qSize]

/-- Stepping an index and wrapping it by comparison is arithmetic modulo the capacity. -/
theorem qNext_eq {value : Int} {Q : Queue} (capacity : Q.capacity = qSize) (range : 0 ≤ value ∧ value < qSize) :
    qNext value Q = (value + 1) % qSize := by
  unfold qNext
  rw [capacity]
  split_ifs with last
  · rw [last, Int.emod_self]
  · rw [Int.emod_eq_of_lt] <;> omega

theorem emod_qSize_range (value : Int) : 0 ≤ value % qSize ∧ value % qSize < qSize := by
  simp only [qSize]
  omega

namespace Represents
variable {Q : Queue} {items : List UInt32}

theorem length_le (represents : Represents Q items) : items.length ≤ qSize := by
  have := represents.size
  have := represents.bounded
  omega

theorem full_iff (represents : Represents Q items) : qFull Q = true ↔ items.length = qSize := by
  rw [qFull, represents.size, represents.capacity, beq_iff_eq, Int.ofNat_inj]

theorem empty_iff (represents : Represents Q items) : qEmpty Q = true ↔ items = [] := by
  rw [qEmpty, represents.size, beq_iff_eq]
  exact Int.natCast_eq_zero.trans List.length_eq_zero_iff

/-- A full queue refuses the event and is left alone. -/
theorem enqueue_full (represents : Represents Q items) (x : UInt32) (full : items.length = qSize) :
    qEnqueue x Q = some (-1, Q) := by
  rw [qEnqueue, if_pos (represents.full_iff.mpr full)]

/-- Otherwise the event goes to the first free cell. -/
theorem enqueue_room (represents : Represents Q items) (x : UInt32) (room : items.length ≠ qSize) :
    ∃ R, qEnqueue x Q = some (0, R) ∧ Represents R (items ++ [x]) := by
  have fits : items.length < qSize := Nat.lt_of_le_of_ne represents.length_le room
  obtain ⟨low, high⟩ := emod_qSize_range (Q.rear + 1)
  have next : qNext Q.rear { Q with size := Q.size + 1 } = (Q.rear + 1) % qSize :=
    qNext_eq represents.capacity represents.rear
  have cell : (⟨((Q.rear + 1) % qSize).toNat, by omega⟩ : Fin qSize)
    = Ring.slot qSize Q.front.toNat items.length := by
    apply Fin.ext
    have link := represents.link
    have size := represents.size
    have front := represents.front
    rw [Ring.slot_val]
    simp only [qSize] at link front ⊢
    omega
  refine ⟨{ Q with
    size := Q.size + 1
    rear := (Q.rear + 1) % qSize
    array := Function.update Q.array (Ring.slot qSize Q.front.toNat items.length) x }, ?_, ?_⟩
  · rw [qEnqueue, if_neg (fun full => room (represents.full_iff.mp full))]
    simp only [next, Queue.store, low, high, and_self, dif_pos, cell]
    rfl
  · have size := represents.size
    refine ⟨represents.capacity, ?_, ?_, represents.front, ⟨low, high⟩, ?_, represents.holds.push fits x⟩
    · rw [List.length_append]
      simp only [List.length_singleton]
      omega
    · simp only
      omega
    · simp only
      rw [Int.emod_add_emod, ← Int.add_assoc, Int.add_emod (Q.rear + 1), represents.link, ← Int.add_emod]

/-- An empty queue answers 0 and is left alone. -/
theorem dequeue_empty (represents : Represents Q []) : qDequeue Q = some (0, Q) := by
  simp [qDequeue, represents.empty_iff.mpr rfl]

/-- Otherwise the oldest event comes out. -/
theorem dequeue_cons {x : UInt32} (represents : Represents Q (x :: items)) :
    ∃ R, qDequeue Q = some (x, R) ∧ Represents R items := by
  have occupied : qEmpty Q = false := by
    rw [← Bool.not_eq_true, represents.empty_iff]
    exact List.cons_ne_nil x items
  obtain ⟨low, high⟩ := represents.front
  have next : qNext Q.front { Q with size := Q.size - 1 } = (Q.front + 1) % qSize :=
    qNext_eq represents.capacity represents.front
  have oldest : Q.array ⟨Q.front.toNat, by omega⟩ = x := by
    rw [← represents.holds.head]
    congr 1
    apply Fin.ext
    rw [Ring.slot_val, Nat.add_zero, Nat.mod_eq_of_lt]
    omega
  refine ⟨{ Q with size := Q.size - 1, front := (Q.front + 1) % qSize }, ?_, ?_⟩
  · simp only [qDequeue, occupied, Bool.not_false, if_true, Queue.load, low, high, and_self,
      dif_pos, next, oldest]
    rfl
  · have size := represents.size
    have bounded := represents.bounded
    rw [List.length_cons] at size
    refine ⟨represents.capacity, ?_, ?_, emod_qSize_range _, represents.rear, ?_, ?_⟩
    · simp only
      omega
    · simp only
      omega
    · simp only
      rw [Int.emod_add_emod, represents.link]
      congr 1
      omega
    · have wrapped : ((Q.front + 1) % qSize).toNat = (Q.front.toNat + 1) % qSize := by
        simp only [qSize]
        omega
      simp only [wrapped]
      exact Ring.Holds.mod_iff.mpr represents.holds.pop

/-- Every call does to the queue what its specification does to the list. -/
theorem run (represents : Represents Q items) (call : QueueCall) :
    ∃ R, call.run Q = some ((call.spec items).1, R) ∧ Represents R (call.spec items).2 := by
  cases call with
  | enqueue x =>
    by_cases full : items.length = qSize
    · refine ⟨Q, ?_, ?_⟩
      · simp only [QueueCall.run, represents.enqueue_full x full, QueueCall.spec, full,
          if_true, Option.map_some]
      · simpa only [QueueCall.spec, full, if_true] using represents
    · obtain ⟨R, ran, represents'⟩ := represents.enqueue_room x full
      refine ⟨R, ?_, ?_⟩
      · simp only [QueueCall.run, ran, QueueCall.spec, full, if_false, Option.map_some]
      · simpa only [QueueCall.spec, full, if_false] using represents'
  | dequeue =>
    cases items with
    | nil => exact ⟨Q, by simp only [QueueCall.run, represents.dequeue_empty, QueueCall.spec, Option.map_some],
        represents⟩
    | cons x items =>
      obtain ⟨R, ran, represents'⟩ := represents.dequeue_cons
      exact ⟨R, by simp only [QueueCall.run, ran, QueueCall.spec, Option.map_some], represents'⟩
  | init => exact ⟨qInit Q, rfl, qInit_represents Q⟩

theorem runCalls (represents : Represents Q items) (calls : List QueueCall) :
    ∃ R, FlukeCda.Gpio.runCalls calls Q = some ((specCalls calls items).1, R) ∧
    Represents R (specCalls calls items).2 := by
  induction calls generalizing Q items with
  | nil => exact ⟨Q, rfl, represents⟩
  | cons call rest ih =>
    obtain ⟨R, ran, represents'⟩ := represents.run call
    obtain ⟨S, ran', represents''⟩ := ih represents'
    refine ⟨S, ?_, represents''⟩
    simp only [FlukeCda.Gpio.runCalls, ran, Option.bind_eq_bind, Option.bind_some, ran']
    rfl

end Represents

/-- Any sequence of calls on an initialised queue runs without leaving the
array, answers as a bounded first-in first-out list does, and leaves the
counters in step with that list; a refused call changes nothing at all. -/
theorem queue_refines_fifo (Q : Queue) (calls : List QueueCall) :
    ∃ R, runCalls calls (qInit Q) = some ((specCalls calls []).1, R) ∧ Represents R (specCalls calls []).2 ∧
      (∀ x, (specCalls calls []).2.length = qSize → qEnqueue x R = some (-1, R)) ∧
      ((specCalls calls []).2 = [] → qDequeue R = some (0, R)) := by
  obtain ⟨R, ran, represents⟩ := (qInit_represents Q).runCalls calls
  refine ⟨R, ran, represents, fun x full => represents.enqueue_full x full, fun empty => ?_⟩
  rw [empty] at represents
  exact represents.dequeue_empty

end FlukeCda.Gpio
