import FlukeCda.Data.Mailbox
import FlukeCda.Gpib.Core.Errno
import FlukeCda.Gpib.Source

/-! # The queues of the core

Events of the bus wait for IBEVENT, and the status bytes of polled devices for
IBRSP, each in a list of at most 1024 with a flag that tells of a loss.
-/

namespace FlukeCda.Gpib.Core
open Interaction

def maxNumEvents : Nat := 1024
/-- EventNone is the absence of one. -/
inductive GpibEvent
  | devTrg
  | devClr
  | ifc
  deriving DecidableEq

structure GpibEventQueue where
  eventHead : List GpibEvent
  numEvents : Nat
  droppedEvent : Bool

def initEventQueue : GpibEventQueue := ⟨[], 0, false⟩

/-- `*event_type` is only written where the returned value is 0. -/
def popGpibEventNolock (queue : GpibEventQueue) : Int × Option GpibEvent × GpibEventQueue :=
  if queue.numEvents = 0 then (0, none, queue)
  else
    match queue.eventHead with
    | [] => (- EIO, none, queue)
    | front :: rest =>
      if queue.droppedEvent = true then (- EPIPE, none, { queue with droppedEvent := false })
      else (0, some front, { queue with eventHead := rest, numEvents := queue.numEvents - 1 })

/-- `push_gpib_event_nolock` from the allocation on. -/
def linkGpibEvent (queue : GpibEventQueue) (eventType : GpibEvent) (memory : Bool) :
    Int × GpibEventQueue :=
  if memory = false then (- ENOMEM, { queue with droppedEvent := true })
  else (0, { queue with eventHead := queue.eventHead ++ [eventType], numEvents := queue.numEvents + 1 })

def pushGpibEventNolock (queue : GpibEventQueue) (eventType : GpibEvent) (memory : Bool) :
    Int × GpibEventQueue :=
  if queue.numEvents ≥ maxNumEvents then
    let (retval, _, queue) := popGpibEventNolock { queue with droppedEvent := true }
    if retval < 0 then (retval, queue) else linkGpibEvent queue eventType memory
  else linkGpibEvent queue eventType memory

/-- The loop of `gpib_deallocate_board`, watched for a number of rounds. -/
def drainEvents : Nat → GpibEventQueue → Option GpibEventQueue
  | 0, _ => none
  | rounds + 1, queue =>
    if queue.numEvents = 0 then some queue else drainEvents rounds (popGpibEventNolock queue).2.2

/-- The part of `gpib_status_queue_t` that is a queue. -/
structure StatusBytes where
  statusBytes : List UInt8
  numStatusBytes : Nat
  droppedByte : Bool

def initStatusBytes : StatusBytes := ⟨[], 0, false⟩

/-- What a call on either queue returns. -/
abbrev Returned (α : Type) := Int × Option α

def eventStep : Mailbox.Call GpibEvent → GpibEventQueue → Returned GpibEvent × GpibEventQueue
  | .put eventType memory, queue =>
    let (retval, queue) := pushGpibEventNolock queue eventType memory
    ((retval, none), queue)
  | .take, queue =>
    let (retval, event, queue) := popGpibEventNolock queue
    ((retval, event), queue)

/-- The message of a push that returned 0. -/
def acceptedOf {α : Type} : Mailbox.Call α × Returned α → Option α
  | (.put x _, returned) => if returned.1 = 0 then some x else none
  | (.take, _) => none

/-- The message that a pop returned. -/
def deliveredOf {α : Type} : Mailbox.Call α × Returned α → Option α
  | (.put _ _, _) => none
  | (.take, returned) => returned.2

def accepted {α : Type} (history : List (Mailbox.Call α × Returned α)) : List α := history.filterMap acceptedOf

def delivered {α : Type} (history : List (Mailbox.Call α × Returned α)) : List α := history.filterMap deliveredOf

/-- A loss was reported neither to a reader nor by a refusal since memory was missing. -/
def Unreported {α : Type} (history : List (Mailbox.Call α × Returned α)) : Prop :=
  ∃ before call after, history = before ++ (call, (- ENOMEM, none)) :: after ∧ ∀ entry ∈ after, entry.2.1 ≠ - EPIPE

/-- How a mailbox says what it did; `empty` is what it says where there is nothing. -/
def reported {α : Type} (empty : Int) : Mailbox.Reply α → Returned α
  | .accepted => (0, none)
  | .full | .loss => (- EPIPE, none)
  | .noMemory => (- ENOMEM, none)
  | .empty => (empty, none)
  | .delivered x => (0, some x)

section Refinement

/-- The queue that a mailbox stands for, with the number of what waits beside it. -/
def GpibEventQueue.of (box : Mailbox.Box GpibEvent) : GpibEventQueue := ⟨box.pending, box.pending.length, box.lost⟩

def StatusBytes.of (box : Mailbox.Box UInt8) : StatusBytes := ⟨box.pending, box.pending.length, box.lost⟩

theorem popGpibEventNolock_of (box : Mailbox.Box GpibEvent) (marks : Bool) :
    eventStep .take (.of box) = (reported 0 (Mailbox.step maxNumEvents marks .take box).1,
      .of (Mailbox.step maxNumEvents marks .take box).2) := by
  obtain ⟨_ | ⟨front, rest⟩, _ | _⟩ := box <;> rfl

/-- A full queue is popped with the mark set, which only takes the mark away. -/
theorem pushGpibEventNolock_of {box : Mailbox.Box GpibEvent} (bounded : box.pending.length ≤ maxNumEvents)
    (eventType : GpibEvent) (memory : Bool) :
    eventStep (.put eventType memory) (.of box) =
      (reported 0 (Mailbox.step maxNumEvents true (.put eventType memory) box).1,
        .of (Mailbox.step maxNumEvents true (.put eventType memory) box).2) := by
  obtain ⟨pending, lost⟩ := box
  by_cases full : pending.length = maxNumEvents
  · obtain ⟨front, rest, rfl⟩ := List.exists_cons_of_length_eq_add_one full
    have overflows : (GpibEventQueue.of ⟨front :: rest, lost⟩).numEvents ≥ maxNumEvents := full.ge
    simp only [eventStep, pushGpibEventNolock, if_pos overflows, Mailbox.step, if_pos full]
    rfl
  · have room : ¬ (GpibEventQueue.of ⟨pending, lost⟩).numEvents ≥ maxNumEvents := by
      simp only [GpibEventQueue.of]
      simp only at bounded
      omega
    simp only [eventStep, pushGpibEventNolock, if_neg room, Mailbox.step, if_neg full, linkGpibEvent]
    cases memory with
    | false => simp [GpibEventQueue.of, reported]
    | true => simp [GpibEventQueue.of, reported]

section Histories
variable {α : Type} {empty : Int} {record : List (Mailbox.Call α × Mailbox.Reply α)}

/-- A record as the caller sees it. -/
def seen (empty : Int) (record : List (Mailbox.Call α × Mailbox.Reply α)) : List (Mailbox.Call α × Returned α) :=
  record.map (Prod.map id (reported empty))

theorem accepted_seen (fits : ∀ entry ∈ record, Mailbox.Fits entry) :
    accepted (seen empty record) = Mailbox.accepted record := by
  rw [accepted, seen, Mailbox.accepted, List.filterMap_map]
  refine List.filterMap_congr fun entry member => ?_
  have fit := fits entry member
  rcases entry with ⟨_ | _, _ | _ | _ | _ | _ | _⟩ <;>
    first
    | exact fit.elim
    | rfl

theorem delivered_seen (fits : ∀ entry ∈ record, Mailbox.Fits entry) :
    delivered (seen empty record) = Mailbox.delivered record := by
  rw [delivered, seen, Mailbox.delivered, List.filterMap_map]
  refine List.filterMap_congr fun entry member => ?_
  have fit := fits entry member
  rcases entry with ⟨_ | _, _ | _ | _ | _ | _ | _⟩ <;>
    first
    | exact fit.elim
    | rfl

/-- A piece of what is seen is what is seen of a piece. -/
theorem seen_split {before after : List (Mailbox.Call α × Returned α)} {call : Mailbox.Call α} {returned : Returned α}
    (split : seen empty record = before ++ (call, returned) :: after) :
    ∃ before' after' reply, record = before' ++ (call, reply) :: after' ∧ before = seen empty before' ∧
      after = seen empty after' ∧ returned = reported empty reply := by
  obtain ⟨before', rest, rfl, rfl, same⟩ := List.map_eq_append_iff.mp split
  obtain ⟨entry, after', rfl, same, rfl⟩ := List.map_eq_cons_iff.mp same
  cases same
  exact ⟨before', after', entry.2, rfl, rfl, rfl, rfl⟩

theorem pipe_iff (nonpipe : empty ≠ - EPIPE) (reply : Mailbox.Reply α) :
    (reported empty reply).1 = - EPIPE ↔ reply = .loss ∨ reply = .full := by
  cases reply with
  | accepted | delivered | noMemory => simp [reported, EPIPE, ENOMEM]
  | empty => simp [reported, nonpipe]
  | full | loss => simp [reported]

theorem unreported_seen (nonpipe : empty ≠ - EPIPE) (nonmemory : empty ≠ - ENOMEM) :
    Unreported (seen empty record) ↔ Mailbox.Unreported record := by
  constructor
  · rintro ⟨before, call, after, split, quiet⟩
    obtain ⟨before, rest, reply, rfl, rfl, rfl, same⟩ := seen_split split
    have missing : reply = .noMemory := by
      cases reply with
      | noMemory => rfl
      | empty => exact absurd (congrArg Prod.fst same).symm nonmemory
      | accepted | full | loss | delivered => cases same
    subst missing
    refine ⟨before, call, rest, rfl, fun entry member => ?_⟩
    have silent := quiet _ (List.mem_map_of_mem member)
    exact ⟨fun loss => silent ((pipe_iff nonpipe entry.2).mpr (.inl loss)),
      fun full => silent ((pipe_iff nonpipe entry.2).mpr (.inr full))⟩
  · rintro ⟨before, call, after, rfl, quiet⟩
    refine ⟨seen empty before, call, seen empty after, by simp [seen, reported], fun entry among pipe => ?_⟩
    obtain ⟨⟨call, reply⟩, member, rfl⟩ := List.mem_map.mp among
    exact ((pipe_iff nonpipe reply).mp pipe).elim (quiet _ member).1 (quiet _ member).2

/-- What callers may rely on: accepted messages come out once and in order, at most
1024 wait, and one is refused with -EPIPE just when so many do. A reader is told of a
loss, where losses are marked, just when memory was missing since the last -EPIPE of
either kind and something waits. -/
structure KeptInOrder (marks : Bool) (history : List (Mailbox.Call α × Returned α)) (pending : List α) : Prop where
  ledger : accepted history = delivered history ++ pending
  bounded : pending.length ≤ 1024
  refused : ∀ before after x memory returned, history = before ++ (.put x memory, returned) :: after →
    (returned.1 = - EPIPE ↔ (accepted before).length = (delivered before).length + 1024)
  told : ∀ before after returned, history = before ++ (.take, returned) :: after →
    (returned.1 = - EPIPE ↔ marks = true ∧ Unreported before ∧ delivered before ≠ accepted before)

theorem keptInOrder_of_record {marks : Bool} {box : Mailbox.Box α} (nonpipe : empty ≠ - EPIPE)
    (nonmemory : empty ≠ - ENOMEM) (kept : Mailbox.Record 1024 marks record box) :
    KeptInOrder marks (seen empty record) box.pending := by
  have fits := kept.fits
  refine ⟨?_, kept.bounded, fun before after x memory returned split => ?_, fun before after returned split => ?_⟩
  · rw [accepted_seen fits, delivered_seen fits, kept.ledger]
  · obtain ⟨before, after, reply, rfl, rfl, rfl, rfl⟩ := seen_split split
    have earlier : ∀ entry ∈ before, Mailbox.Fits entry := fun entry member => fits entry (List.mem_append_left _ member)
    have fit := fits (.put x memory, reply) (by simp)
    have other : reply ≠ .loss := by
      rintro rfl
      exact fit.elim
    rw [accepted_seen earlier, delivered_seen earlier, ← kept.full_iff, pipe_iff nonpipe]
    exact or_iff_right other
  · obtain ⟨before, after, reply, rfl, rfl, rfl, rfl⟩ := seen_split split
    have earlier : ∀ entry ∈ before, Mailbox.Fits entry := fun entry member => fits entry (List.mem_append_left _ member)
    have fit := fits (.take, reply) (by simp)
    have other : reply ≠ .full := by
      rintro rfl
      exact fit.elim
    rw [accepted_seen earlier, delivered_seen earlier, unreported_seen nonpipe nonmemory, ← kept.loss_iff,
      pipe_iff nonpipe]
    exact or_iff_left other

end Histories

/-- Every round of the loop takes an event, or the mark away. -/
theorem drainEvents_of (box : Mailbox.Box GpibEvent) (rounds : Nat) (enough : box.pending.length + 2 ≤ rounds) :
    ∃ lost, drainEvents rounds (.of box) = some (.of ⟨[], lost⟩) := by
  have unmarked : ∀ (pending : List GpibEvent) (rounds : Nat), pending.length + 1 ≤ rounds →
      drainEvents rounds (.of ⟨pending, false⟩) = some (.of ⟨[], false⟩) := by
    intro pending
    induction pending with
    | nil =>
      intro rounds enough
      obtain ⟨rounds, rfl⟩ := Nat.exists_eq_succ_of_ne_zero (by omega : rounds ≠ 0)
      rfl
    | cons front rest ih =>
      intro rounds enough
      obtain ⟨rounds, rfl⟩ := Nat.exists_eq_succ_of_ne_zero (by omega : rounds ≠ 0)
      exact ih rounds (by simpa using enough)
  obtain ⟨_ | ⟨front, rest⟩, _ | _⟩ := box
  · exact ⟨false, unmarked [] rounds (by simp only [List.length_nil] at enough ⊢; omega)⟩
  · obtain ⟨rounds, rfl⟩ := Nat.exists_eq_succ_of_ne_zero (by omega : rounds ≠ 0)
    exact ⟨true, rfl⟩
  · exact ⟨false, unmarked (front :: rest) rounds (by simp only at enough; omega)⟩
  · obtain ⟨rounds, rfl⟩ := Nat.exists_eq_succ_of_ne_zero (by omega : rounds ≠ 0)
    exact ⟨false, unmarked (front :: rest) rounds (by simp only at enough; omega)⟩

end Refinement

/-- As long as no more waits than may, an event queue does what its mailbox does. -/
theorem eventStep_of (queue : GpibEventQueue) (box : Mailbox.Box GpibEvent) (call : Mailbox.Call GpibEvent)
    (is : queue = .of box ∧ box.pending.length ≤ maxNumEvents) :
    (eventStep call queue).1 = reported 0 (Mailbox.step maxNumEvents true call box).1 ∧
      (eventStep call queue).2 = .of (Mailbox.step maxNumEvents true call box).2 ∧
      (Mailbox.step maxNumEvents true call box).2.pending.length ≤ maxNumEvents := by
  obtain ⟨rfl, bounded⟩ := is
  have bounded' := (Mailbox.step_moves maxNumEvents true call box).bounded bounded
  cases call with
  | put eventType memory =>
    rw [pushGpibEventNolock_of bounded]
    exact ⟨rfl, rfl, bounded'⟩
  | take =>
    rw [popGpibEventNolock_of box true]
    exact ⟨rfl, rfl, bounded'⟩

/-- Over every sequence of pushes and pops, whatever memory there is: the events are
kept in order, their number is right, and taking the board offline empties the queue. -/
theorem events_kept_in_order {history : List (Mailbox.Call GpibEvent × Returned GpibEvent)} {queue : GpibEventQueue}
    (answered : Answered eventStep (fun _ _ => True) initEventQueue history queue) :
    KeptInOrder true history queue.eventHead ∧ queue.numEvents = queue.eventHead.length ∧
      ∃ drained, drainEvents (queue.numEvents + 2) queue = some drained ∧ drained.eventHead = [] ∧
        drained.numEvents = 0 := by
  have start : initEventQueue = .of ⟨[], false⟩ ∧ ([] : List GpibEvent).length ≤ maxNumEvents :=
    ⟨rfl, Nat.zero_le _⟩
  obtain ⟨record, box, kept, rfl, rfl, -⟩ := answered.simulates (reported 0) start
    fun queue box call is _ => eventStep_of queue box call is
  obtain ⟨lost, drained⟩ := drainEvents_of box _ (Nat.le_refl _)
  exact ⟨keptInOrder_of_record (by decide) (by decide) kept, rfl, _, drained, rfl, rfl⟩

/-- No memory is left for the second event, and the reader is told so before it gets
the first one. -/
theorem events_kept_in_order_trigger :
    KeptInOrder true [(.put .devTrg true, (0, none)), (.put .devClr false, (- ENOMEM, none)), (.take, (- EPIPE, none)),
      (.take, (0, some GpibEvent.devTrg))] [] := by
  have pushed : Answered eventStep (fun _ _ => True) initEventQueue
    [(.put .devTrg true, (0, none)), (.put .devClr false, (- ENOMEM, none))] ⟨[.devTrg], 1, true⟩ :=
    (Answered.snoc .nil (Mailbox.Call.put GpibEvent.devTrg true) trivial).snoc (.put .devClr false) trivial
  have popped : Answered eventStep (fun _ _ => True) initEventQueue [(.put .devTrg true, (0, none)),
      (.put .devClr false, (- ENOMEM, none)), (.take, (- EPIPE, none)), (.take, (0, some .devTrg))] ⟨[], 0, false⟩ :=
    (pushed.snoc .take trivial).snoc .take trivial
  exact (events_kept_in_order popped).1

end FlukeCda.Gpib.Core
