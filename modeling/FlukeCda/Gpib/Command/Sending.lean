import FlukeCda.Gpib.Command.Source
import FlukeCda.Interaction.Embedding

/-! # What a command sends

No byte is written before the one before it has left CDOR. Where all are counted all
were heard, unless the loss of one came too late to be noticed.
-/

namespace FlukeCda.Gpib.Command
open Interaction Program

/-- COMMAND_READY is only set while CDOR is empty. -/
def Sound (chip : Chip) : Prop := chip.flags .commandReady = true → chip.cdor = none

/-- After `base`, these were heard or wait in CDOR: some of what waited there before
and of the first `n` bytes of the buffer, in order. If `told`, the latter are all
there, or the controller has yet to notice a loss. -/
def Went (base : List UInt8) (pending : Option UInt8) (buffer : List UInt8) (told : Bool) (n : Nat)
    (chip : Chip) : Prop :=
  ∃ more, chip.heard = base ++ more ∧ (more ++ chip.cdor.toList).Sublist (pending.toList ++ buffer.take n) ∧
    (told = true → chip.Lossy ∨ buffer.take n <:+ more ++ chip.cdor.toList)

/-- At every moment some bytes of the buffer were heard, in order. -/
def Hears (base : List UInt8) (pending : Option UInt8) (buffer : List UInt8) (chip : Chip) : Prop :=
  ∃ more, chip.heard = base ++ more ∧ more.Sublist (pending.toList ++ buffer)

/-- CDOR is empty when the next byte is written. -/
def MaySend : Op → Chip → Prop
  | .writeCdor _, chip => chip.cdor = none
  | _, _ => True

section
variable {base buffer : List UInt8} {pending : Option UInt8} {told : Bool} {n : Nat} {chip after : Chip}

theorem Sound.drift (sound : Sound chip) (drifts : Drift chip after) : Sound after := by
  cases drifts with
  | transmit | lose => exact fun _ => rfl
  | commandReady free empty => exact fun _ => empty
  | busError => exact fun ready => sound (by simpa [Chip.putFlag] using ready)
  | control => exact sound
  | flags same sets =>
    intro ready
    exact sound (same.symm.trans ready)

theorem Chip.Lossy.drift (lossy : chip.Lossy) (drifts : Drift chip after) : after.Lossy := by
  cases drifts with
  | transmit | control => exact lossy
  | lose => exact .inl rfl
  | commandReady => simpa [Chip.Lossy, Chip.putFlag] using lossy
  | busError => exact .inr (by simp [Chip.putFlag])
  | flags same sets => exact lossy.imp_right (sets .busError (.inr rfl))

/-- Only what was heard, what waits and what is lost matters. -/
theorem Went.same (went : Went base pending buffer told n chip) (heard : after.heard = chip.heard)
    (cdor : after.cdor = chip.cdor) (lossy : told = true → chip.Lossy → after.Lossy) :
    Went base pending buffer told n after := by
  obtain ⟨more, sofar, part, all⟩ := went
  exact ⟨more, heard.trans sofar, cdor ▸ part, fun yes => (all yes).imp (lossy yes) fun all => cdor ▸ all⟩

theorem Went.drift (went : Went base pending buffer told n chip) (drifts : Drift chip after) :
    Went base pending buffer told n after := by
  have lossy : told = true → chip.Lossy → after.Lossy := fun _ lossy => lossy.drift drifts
  cases drifts with
  | @transmit byte active full =>
    obtain ⟨more, sofar, part, all⟩ := went
    rw [full] at part all
    refine ⟨more ++ [byte], ?_, by simpa [Chip.transmit] using part, ?_⟩
    · simp only [Chip.transmit, sofar, List.append_assoc]
    · exact fun yes => (all yes).imp (lossy yes) fun all => by simpa [Chip.transmit] using all
  | lose active full =>
    obtain ⟨more, sofar, part, -⟩ := went
    refine ⟨more, sofar, ?_, fun _ => .inl (.inl rfl)⟩
    simpa [Chip.lose] using (List.sublist_append_left more _).trans part
  | commandReady | busError | control | flags => exact went.same rfl rfl lossy

theorem Went.hears (went : Went base pending buffer told n chip) : Hears base pending buffer chip := by
  obtain ⟨more, sofar, part, -⟩ := went
  refine ⟨more, sofar, ((List.sublist_append_left more _).trans part).trans ?_⟩
  exact (List.take_sublist n buffer).append_left _

/-- A byte that is written waits behind those before it. -/
theorem Went.write {byte : UInt8} (went : Went base pending buffer told n chip) (empty : chip.cdor = none)
    (next : buffer[n]? = some byte) : Went base pending buffer told (n + 1) { chip with cdor := some byte } := by
  obtain ⟨more, sofar, part, all⟩ := went
  rw [empty] at part all
  simp only [Option.toList_none, List.append_nil] at part all
  have longer : buffer.take (n + 1) = buffer.take n ++ [byte] := by rw [List.take_add_one, next, Option.toList_some]
  refine ⟨more, sofar, ?_, fun yes => (all yes).imp id fun all => ?_⟩
  · rw [longer, ← List.append_assoc]
    exact part.append (.refl _)
  · rw [longer]
    obtain ⟨first, rfl⟩ := all
    exact ⟨first, (List.append_assoc ..).symm⟩

abbrev Sends {α : Type} (base : List UInt8) (pending : Option UInt8) (buffer : List UInt8) (Q : α → Chip → Prop) :
    Code α → Chip → Prop :=
  Safe Act Drift MaySend (Hears base pending buffer) Q

/-- Before the next byte: `n` were written. -/
structure Loop (base : List UInt8) (pending : Option UInt8) (buffer : List UInt8) (told : Bool) (n : Nat) (chip : Chip) :
    Prop where
  sound : Sound chip
  went : Went base pending buffer told n chip

/-- The next byte can be written. -/
structure Settled (base : List UInt8) (pending : Option UInt8) (buffer : List UInt8) (n : Nat) (chip : Chip) : Prop
    extends Loop base pending buffer true n chip where
  empty : chip.cdor = none

theorem Loop.drift (loop : Loop base pending buffer told n chip) (drifts : Drift chip after) :
    Loop base pending buffer told n after := ⟨loop.sound.drift drifts, loop.went.drift drifts⟩

theorem empty_drift (empty : chip.cdor = none) (drifts : Drift chip after) : after.cdor = none := by
  cases drifts with
  | transmit | lose => rfl
  | commandReady | busError | control | flags => exact empty

theorem Settled.drift (settled : Settled base pending buffer n chip) (drifts : Drift chip after) :
    Settled base pending buffer n after := ⟨settled.toLoop.drift drifts, empty_drift settled.empty drifts⟩

/-- A flag that is set stays so. -/
theorem flag_drift {flag : Flag} (kept : flag ≠ .cic) (set : chip.flags flag = true) (drifts : Drift chip after) :
    after.flags flag = true := by
  cases drifts with
  | transmit | lose | control => exact set
  | commandReady | busError => simp [Chip.putFlag, Function.update_apply, set]
  | flags same sets =>
    cases flag with
    | cic => exact absurd rfl kept
    | commandReady => exact same.trans set
    | timo => exact sets .timo (.inl rfl) set
    | busError => exact sets .busError (.inr rfl) set

/-- The wait has ended for one of these. -/
def Woken (wakes : List Flag) (chip : Chip) : Prop := ∃ flag ∈ wakes, flag ≠ .cic ∧ chip.flags flag = true

theorem Woken.drift {wakes : List Flag} (woken : Woken wakes chip) (drifts : Drift chip after) : Woken wakes after := by
  obtain ⟨flag, member, kept, set⟩ := woken
  exact ⟨flag, member, kept, flag_drift kept set drifts⟩

theorem Woken.ready (ready : chip.ready = true) : Woken [.commandReady, .busError, .timo] chip := by
  simp only [Chip.ready, Bool.or_eq_true] at ready
  rcases ready with (ready | ready) | ready
  · exact ⟨.commandReady, by simp, by simp, ready⟩
  · exact ⟨.busError, by simp, by simp, ready⟩
  · exact ⟨.timo, by simp, by simp, ready⟩

theorem Loop.steady : Steady Drift (Hears base pending buffer) (Loop base pending buffer told n) :=
  ⟨fun _ _ drifts loop => loop.drift drifts, fun _ loop => loop.went.hears⟩

theorem Settled.steady : Steady Drift (Hears base pending buffer) (Settled base pending buffer n) :=
  ⟨fun _ _ drifts settled => settled.drift drifts, fun _ settled => settled.went.hears⟩

/-- Woken without an error, the controller finds CDOR empty. -/
theorem Loop.empty (loop : Loop base pending buffer told n chip) (woken : Woken [.commandReady, .busError] chip)
    (fine : chip.flags .busError = false) : chip.cdor = none := by
  obtain ⟨flag, member, -, set⟩ := woken
  rcases List.mem_cons.mp member with rfl | member
  · exact loop.sound set
  · rw [List.mem_singleton] at member
    subst member
    rw [fine] at set
    cases set

/-- What the loop leaves. Where it wrote everything, an error is still to be noticed. -/
def Looped (base : List UInt8) (pending : Option UInt8) (buffer : List UInt8) (result : Int × Nat) (chip : Chip) : Prop :=
  result.2 ≤ buffer.length ∧ result.1 ≤ 0 ∧
    Loop base pending buffer (decide (result.2 = buffer.length)) result.2 chip

/-- What a command returns: as many bytes as it counts. If it counts all, all were
heard, or a loss is to be noticed. -/
structure Commanded (base : List UInt8) (pending : Option UInt8) (buffer : List UInt8) (retval : Int) (chip : Chip) :
    Prop where
  sound : Sound chip
  part : ∃ n, n ≤ buffer.length ∧ Went base pending buffer false n chip ∧ (0 ≤ retval → retval = n)
  whole : retval = buffer.length → Settled base pending buffer buffer.length chip

theorem Commanded.steady {retval : Int} :
    Steady Drift (Hears base pending buffer) (Commanded base pending buffer retval) := by
  refine ⟨fun chip after drifts here => ?_, fun chip here => ?_⟩
  · obtain ⟨n, bound, went, counts⟩ := here.part
    exact ⟨here.sound.drift drifts, ⟨n, bound, went.drift drifts, counts⟩, fun all => (here.whole all).drift drifts⟩
  · obtain ⟨n, -, went, -⟩ := here.part
    exact went.hears

/-- Before a command: of what came before it only `pending` may still be sent. -/
structure Idle (base : List UInt8) (pending : Option UInt8) (chip : Chip) : Prop where
  sound : Sound chip
  went : Went base pending [] false 0 chip

theorem Idle.loop (idle : Idle base pending chip) : Loop base pending buffer false 0 chip := by
  refine ⟨idle.sound, ?_⟩
  simpa [Went] using idle.went

theorem Idle.start (sound : Sound chip) : Idle chip.heard chip.cdor chip :=
  ⟨sound, [], (List.append_nil _).symm, by simp, fun no => by cases no⟩

theorem Idle.drift (idle : Idle base pending chip) (drifts : Drift chip after) : Idle base pending after :=
  ⟨idle.sound.drift drifts, idle.went.drift drifts⟩

theorem Idle.refused {retval : Int} (idle : Idle base pending chip) (failed : retval < 0) :
    Commanded base pending buffer retval chip :=
  ⟨idle.sound, ⟨0, Nat.zero_le _, idle.loop.went, fun positive => by omega⟩, fun all => by omega⟩

theorem Commanded.failed {retval other : Int} (commanded : Commanded base pending buffer other chip)
    (failed : retval < 0) : Commanded base pending buffer retval chip := by
  obtain ⟨sound, ⟨n, bound, went, -⟩, -⟩ := commanded
  exact ⟨sound, ⟨n, bound, went, fun positive => by omega⟩, fun all => by omega⟩

/-- What writes no byte. -/
def Controls : Op → Prop
  | .writeCdor _ => False
  | _ => True

theorem Controls.permits {op : Op} (controls : Controls op) : MaySend op chip := by
  cases op <;> first | exact controls.elim | exact trivial

/-- Taking control leaves what is to be sent where it is. -/
theorem Idle.act {op : Op} {answer : Answer op} (idle : Idle base pending chip) (controls : Controls op)
    (acts : Act op answer chip after) : Idle base pending after := by
  have same : ∀ {after : Chip}, (after.flags .commandReady = true → chip.flags .commandReady = true) →
      after.heard = chip.heard → after.cdor = chip.cdor → Idle base pending after := by
    intro after ready heard cdor
    exact ⟨fun set => cdor ▸ idle.sound (ready set), idle.went.same heard cdor fun no => by cases no⟩
  cases acts with
  | writeCdor => exact controls.elim
  | @testAndClearBit _ flag | @clearBit _ flag =>
    refine same (fun ready => ?_) rfl rfl
    by_cases own : flag = .commandReady
    · subst own
      simp [Chip.putFlag] at ready
    · exact (Function.update_of_ne (Ne.symm own) _ _).symm.trans ready
  | waited | signalled | testBit | readAdsr | udelay | scheduled | updateStatus => exact idle
  | writeAuxmr | spinLockIrqsave | spinUnlockIrqrestore => exact same id rfl rfl

end
end FlukeCda.Gpib.Command
