import FlukeCda.Interaction.Calls

/-! # Bounded mailboxes

What is put in comes out in order, as far as there is room and memory for it. A
loss may be marked, and is then reported once, ahead of the next message.
-/

namespace Mailbox
open Interaction

/-- The messages that wait, and the mark of a loss. -/
structure Box (α : Type) where
  pending : List α
  lost : Bool

/-- A message comes, with memory for it or without; or somebody looks for one. -/
inductive Call (α : Type)
  | put (x : α) (memory : Bool)
  | take

inductive Reply (α : Type)
  | accepted
  | full
  | noMemory
  | empty
  | loss
  | delivered (x : α)

section
variable {α : Type} (capacity : Nat) (marks : Bool)

/-- A full box refuses, and forgets the mark. -/
def step : Call α → Box α → Reply α × Box α
  | .put x memory, box =>
    if box.pending.length = capacity then (.full, { box with lost := false })
    else if memory = false then (.noMemory, { box with lost := box.lost || marks })
    else (.accepted, { box with pending := box.pending ++ [x] })
  | .take, box =>
    match box.pending with
    | [] => (.empty, box)
    | x :: rest => if box.lost = true then (.loss, { box with lost := false }) else (.delivered x, ⟨rest, box.lost⟩)

/-- What a call can come to. -/
inductive Moves : Call α → Box α → Reply α → Box α → Prop
  | full {x : α} {memory : Bool} {box : Box α} (full : box.pending.length = capacity) :
      Moves (.put x memory) box .full { box with lost := false }
  | noMemory {x : α} {box : Box α} (room : box.pending.length ≠ capacity) :
      Moves (.put x false) box .noMemory { box with lost := box.lost || marks }
  | accepted {x : α} {box : Box α} (room : box.pending.length ≠ capacity) :
      Moves (.put x true) box .accepted { box with pending := box.pending ++ [x] }
  | empty {lost : Bool} : Moves .take ⟨[], lost⟩ .empty ⟨[], lost⟩
  | loss {pending : List α} (waiting : pending ≠ []) : Moves .take ⟨pending, true⟩ .loss ⟨pending, false⟩
  | delivered {x : α} {rest : List α} : Moves .take ⟨x :: rest, false⟩ (.delivered x) ⟨rest, false⟩

theorem step_moves (call : Call α) (box : Box α) :
    Moves capacity marks call box (step capacity marks call box).1 (step capacity marks call box).2 := by
  cases call with
  | put x memory =>
    by_cases full : box.pending.length = capacity
    · simp only [step, if_pos full]
      exact .full full
    · cases memory with
      | false =>
        simp only [step, if_neg full, if_true]
        exact .noMemory full
      | true =>
        simp only [step, if_neg full, Bool.true_eq_false, if_false]
        exact .accepted full
  | take =>
    obtain ⟨_ | ⟨x, rest⟩, lost⟩ := box
    · exact .empty
    · cases lost with
      | true => exact .loss (List.cons_ne_nil x rest)
      | false => exact .delivered

def acceptedOf : Call α × Reply α → Option α
  | (.put x _, .accepted) => some x
  | _ => none

def deliveredOf : Call α × Reply α → Option α
  | (_, .delivered x) => some x
  | _ => none

/-- The messages accepted over a record, in order. -/
def accepted (history : List (Call α × Reply α)) : List α := history.filterMap acceptedOf

def delivered (history : List (Call α × Reply α)) : List α := history.filterMap deliveredOf

variable {capacity marks} {box : Box α} {history : List (Call α × Reply α)}

abbrev Record (capacity : Nat) (marks : Bool) (history : List (Call α × Reply α)) (box : Box α) : Prop :=
  Answered (step capacity marks) (fun _ _ => True) ⟨[], false⟩ history box

@[simp] theorem accepted_snoc (entry : Call α × Reply α) :
    accepted (history ++ [entry]) = accepted history ++ (acceptedOf entry).toList := by
  rw [accepted, List.filterMap_append]
  cases same : acceptedOf entry <;> simp [same, accepted]

@[simp] theorem delivered_snoc (entry : Call α × Reply α) :
    delivered (history ++ [entry]) = delivered history ++ (deliveredOf entry).toList := by
  rw [delivered, List.filterMap_append]
  cases same : deliveredOf entry <;> simp [same, delivered]

/-- What every move keeps holds of every record. -/
theorem Record.induct {I : List (Call α × Reply α) → Box α → Prop} (record : Record capacity marks history box)
    (start : I [] ⟨[], false⟩)
    (kept : ∀ history call box reply after, I history box → Moves capacity marks call box reply after →
      I (history ++ [(call, reply)]) after) : I history box :=
  record.invariant start fun history box call sofar _ =>
    kept history call box _ _ sofar (step_moves capacity marks call box)

/-- Each message that was accepted is delivered once and in order, or still waits. -/
theorem Record.ledger (record : Record capacity marks history box) :
    accepted history = delivered history ++ box.pending := by
  refine record.induct (I := fun history box => accepted history = delivered history ++ box.pending) rfl ?_
  intro history call box reply after sofar moves
  rw [accepted_snoc, delivered_snoc, sofar]
  cases moves <;> simp [acceptedOf, deliveredOf]

theorem Moves.bounded {call : Call α} {reply : Reply α} {after : Box α}
    (moves : Moves capacity marks call box reply after)
    (bounded : box.pending.length ≤ capacity) : after.pending.length ≤ capacity := by
  cases moves with
  | accepted room =>
    simp only [List.length_append, List.length_singleton]
    omega
  | delivered => exact Nat.le_trans (Nat.le_succ _) bounded
  | full | noMemory | empty | loss => exact bounded

theorem Record.bounded (record : Record capacity marks history box) : box.pending.length ≤ capacity :=
  record.induct (I := fun _ box => box.pending.length ≤ capacity) (Nat.zero_le capacity)
    fun _ _ _ _ _ bounded moves => moves.bounded bounded

/-- A reply to what was called. -/
def Fits : Call α × Reply α → Prop
  | (.put _ _, .accepted) | (.put _ _, .full) | (.put _ _, .noMemory) => True
  | (.take, .empty) | (.take, .loss) | (.take, .delivered _) => True
  | _ => False

theorem Record.fits (record : Record capacity marks history box) : ∀ entry ∈ history, Fits entry := by
  refine record.induct (I := fun history _ => ∀ entry ∈ history, Fits entry) (fun _ none => by cases none) ?_
  intro history call box reply after sofar moves entry member
  rcases List.mem_append.mp member with earlier | last
  · exact sofar entry earlier
  · rw [List.mem_singleton.mp last]
    cases moves <;> exact trivial

/-- Neither the report of a loss nor a refusal has taken the mark away since. -/
def Unreported (history : List (Call α × Reply α)) : Prop :=
  ∃ before call after, history = before ++ (call, .noMemory) :: after ∧ ∀ entry ∈ after, entry.2 ≠ .loss ∧ entry.2 ≠ .full

theorem unreported_snoc_iff (entry : Call α × Reply α) :
    Unreported (history ++ [entry]) ↔ entry.2 = .noMemory ∨ Unreported history ∧ entry.2 ≠ .loss ∧ entry.2 ≠ .full := by
  constructor
  · rintro ⟨before, call, after, split, quiet⟩
    rcases List.eq_nil_or_concat after with rfl | ⟨rest, last, rfl⟩
    · obtain ⟨-, same⟩ := List.append_inj' split rfl
      cases same
      exact .inl rfl
    · rw [List.concat_eq_append] at split quiet
      rw [← List.cons_append, ← List.append_assoc] at split
      obtain ⟨rfl, same⟩ := List.append_inj' split rfl
      cases same
      exact .inr ⟨⟨before, call, rest, rfl, fun other member => quiet other (by simp [member])⟩, quiet entry (by simp)⟩
  · rintro (missing | ⟨⟨before, call, after, rfl, quiet⟩, silent⟩)
    · obtain ⟨call, reply⟩ := entry
      cases missing
      exact ⟨history, call, [], rfl, by simp⟩
    · refine ⟨before, call, after ++ [entry], by simp, fun other member => ?_⟩
      rcases List.mem_append.mp member with earlier | last
      · exact quiet other earlier
      · rw [List.mem_singleton.mp last]
        exact silent

/-- The mark stands for memory that was missing, where that is marked at all. -/
theorem Record.lost_iff (record : Record capacity marks history box) :
    box.lost = true ↔ marks = true ∧ Unreported history := by
  refine record.induct (I := fun history box => box.lost = true ↔ marks = true ∧ Unreported history) ?_ ?_
  · simp [Unreported]
  · intro history call box reply after origin moves
    rw [unreported_snoc_iff]
    cases moves with
    | full | loss => simp
    | accepted | empty | delivered => simpa using origin
    | noMemory =>
      simp only [Bool.or_eq_true, true_or, and_true]
      exact ⟨fun either => either.elim (fun earlier => (origin.mp earlier).1) id, .inr⟩

/-- A loss is reported just when memory was missing since the last report or refusal
and a message waits. -/
theorem Record.loss_iff {before after : List (Call α × Reply α)} {reply : Reply α}
    (record : Record capacity marks (before ++ (.take, reply) :: after) box) :
    reply = .loss ↔ marks = true ∧ Unreported before ∧ delivered before ≠ accepted before := by
  obtain ⟨earlier, sofar, -, rfl⟩ := record.entry rfl
  rw [Record.ledger sofar, ← and_assoc, ← Record.lost_iff sofar]
  obtain ⟨_ | ⟨x, rest⟩, lost⟩ := earlier
  · simp [step]
  · cases lost <;> simp [step]

/-- A message is refused where a whole box of accepted ones is undelivered. -/
theorem Record.full_iff {before after : List (Call α × Reply α)} {x : α} {memory : Bool} {reply : Reply α}
    (record : Record capacity marks (before ++ (.put x memory, reply) :: after) box) :
    reply = .full ↔ (accepted before).length = (delivered before).length + capacity := by
  obtain ⟨earlier, sofar, -, rfl⟩ := record.entry rfl
  rw [Record.ledger sofar, List.length_append, Nat.add_left_cancel_iff]
  by_cases full : earlier.pending.length = capacity
  · exact iff_of_true (by simp [step, full]) full
  · refine iff_of_false ?_ full
    cases memory <;> simp [step, full]

end
end Mailbox
