import FlukeCda.Rescue.Session

namespace FlukeCda.Rescue
open Interaction Program

section
variable {Contents : Type} (io : Inputs Contents)

theorem planRun_append_passed {xs ys : List Step} {m t : Machine Contents}
    (passed : planRun io xs m = (some 0, t)) :
    planRun io (xs ++ ys) m = planRun io ys t := by
  induction xs generalizing m with
  | nil =>
    cases passed
    rfl
  | cons step rest ih =>
    simp only [planRun, List.cons_append] at passed ⊢
    split_ifs at passed ⊢ with zero
    · exact ih passed
    · exact absurd (congrArg Prod.fst passed) zero

theorem planRun_append_stopped {xs : List Step} {m t : Machine Contents} {result : Option Int} (ys : List Step)
    (ran : planRun io xs m = (result, t)) (stopped : result ≠ some 0) :
    planRun io (xs ++ ys) m = (result, t) := by
  induction xs generalizing m with
  | nil =>
    cases ran
    exact absurd rfl stopped
  | cons step rest ih =>
    simp only [planRun, List.cons_append] at ran ⊢
    split_ifs at ran ⊢ with zero
    · exact ih ran
    · exact ran

theorem Step.success_mem_events {step : Step} (m : Machine Contents) (other : step ≠ .success) :
    .printed successText ∉ step.events io m := by
  have quiet : ∀ (command : Command) (status : Option Int),
    .printed successText ∉ systemEvents command status := by
    intro command status
    cases status with
    | none => simp [systemEvents]
    | some status => by_cases zero : status = 0 <;> simp [systemEvents, zero]
  cases step with
  | run command => exact quiet command _
  | runFormatted command =>
    simp only [Step.events]
    split_ifs <;> simp [quiet]
  | success => exact absurd rfl other

theorem afterFormatted_mallocCalls (m : Machine Contents) (command : Command) :
    (m.afterFormatted io command).mallocCalls = m.mallocCalls + 1 := by
  simp only [Machine.afterFormatted, Machine.malloc]
  split_ifs <;> rfl

theorem afterFormatted_granted {m : Machine Contents} (command : Command)
    (granted : io.mallocs m.mallocCalls = true) :
    (m.afterFormatted io command).commandsRun = m.commandsRun + 1 ∧
      (m.afterFormatted io command).storage = command.effect (io.exits m.commandsRun)
      (io.garbage m.commandsRun) m.storage := by
  simp only [Machine.afterFormatted, Machine.malloc, granted, if_true]
  split_ifs <;> exact ⟨rfl, rfl⟩

theorem afterFormatted_refused {m : Machine Contents} (command : Command)
    (refused : ¬ io.mallocs m.mallocCalls = true) :
    (m.afterFormatted io command).storage = m.storage := by
  simp only [Machine.afterFormatted, Machine.malloc, refused, Bool.false_eq_true, if_false]

/-- From these counts of allocations and commands on, a restore of one flash
partition gets to its copy into flash: the image was read, both buffers were there. -/
def FlashReached (allocations commands : Nat) : Prop :=
  io.mallocs allocations = true ∧ io.exits commands = some 0 ∧ io.mallocs (allocations + 1) = true

instance (allocations commands : Nat) : Decidable (FlashReached io allocations commands) := by
  unfold FlashReached
  infer_instance

/-- The copy into flash is attempted and succeeds. -/
def FlashRestored (allocations commands : Nat) : Prop :=
  FlashReached io allocations commands ∧ io.exits (commands + 1) = some 0

/-- One of the two commands of a restore never returns. -/
def FlashHangs (allocations commands : Nat) : Prop :=
  io.mallocs allocations = true ∧ io.exits commands = none ∨
    FlashReached io allocations commands ∧ io.exits (commands + 1) = none

theorem planRun_cons_passed {step : Step} {rest : List Step} {m : Machine Contents}
    (passed : step.result io m = some 0) :
    planRun io (step :: rest) m = planRun io rest (step.after io m) := by
  simp only [planRun, passed, if_true]

theorem planRun_cons_stopped {step : Step} {m : Machine Contents} (rest : List Step)
    (stopped : step.result io m ≠ some 0) :
    planRun io (step :: rest) m = (step.result io m, step.after io m) := by
  simp only [planRun, stopped, if_false]

theorem formatted_passed_iff {m : Machine Contents} {command : Command} :
    (Step.runFormatted command).result io m = some 0 ↔
      io.mallocs m.mallocCalls = true ∧ io.exits m.commandsRun = some 0 := by
  by_cases granted : io.mallocs m.mallocCalls = true <;> simp [Step.result, granted]

theorem executed_formatted_only (m : Machine Contents) (command : Command) :
    ∀ e ∈ executed ((Step.runFormatted command).events io m), e.1 = command := by
  by_cases granted : io.mallocs m.mallocCalls = true
  · rw [executed_formatted io m command granted]
    simp
  · simp [Step.events, granted, executed]

theorem dd_frame (m : Machine Contents) (backup : Int) {file : File} (other : file ≠ .tmpMtdX) :
    (m.afterFormatted io (.ddMtdToTmpCmd backup)).storage file = m.storage file := by
  by_cases granted : io.mallocs m.mallocCalls = true
  · rw [(afterFormatted_granted io _ granted).2]
    refine Command.effect_frame _ _ _ fun source copies => ?_
    exact other (congrArg Prod.snd (Option.some.inj copies)).symm
  · rw [afterFormatted_refused io _ granted]

/-- A restore that does not get as far as the flash copy changes nothing but
the temporary file. -/
theorem mtdPlan_unreached {m : Machine Contents} (backup destination : Int)
    (unreached : ¬ FlashReached io m.mallocCalls m.commandsRun) :
    ∃ result t events, planRun io (mtdPlan backup destination) m = (result, t) ∧ result ≠ some 0 ∧
      (result = none ↔ FlashHangs io m.mallocCalls m.commandsRun) ∧ t.trace = m.trace ++ events ∧
      .printed successText ∉ events ∧
      (∀ e ∈ executed events, e.1 = .ddMtdToTmpCmd backup) ∧ ∀ file ≠ .tmpMtdX,
      t.storage file = m.storage file := by
  let dd : Step := .runFormatted (.ddMtdToTmpCmd backup)
  let flash : Step := .runFormatted (.flashcpTmpToMtdCmd destination)
  have silent := dd.success_mem_events io m (by simp [dd])
  have ran := executed_formatted_only io m (.ddMtdToTmpCmd backup)
  by_cases passed : dd.result io m = some 0
  · obtain ⟨granted, exit⟩ := (formatted_passed_iff io).mp passed
    let q := dd.after io m
    have refused : ¬ io.mallocs q.mallocCalls = true := by
      rw [show q.mallocCalls = m.mallocCalls + 1 from afterFormatted_mallocCalls io m _]
      exact fun second => unreached ⟨granted, exit, second⟩
    have stopped : flash.result io q ≠ some 0 := fun zero => refused ((formatted_passed_iff io).mp zero).1
    have quiet : flash.events io q = [.allocated none] := by
      simp only [flash, Step.events, refused, Bool.false_eq_true, if_false]
    have returns : flash.result io q = none ↔ FlashHangs io m.mallocCalls m.commandsRun := by
      simp [flash, Step.result, refused, FlashHangs, unreached, exit]
    refine ⟨flash.result io q, flash.after io q, dd.events io m ++ [.allocated none], ?_, stopped, returns,
      ?_, ?_, ?_, ?_⟩
    · exact (planRun_cons_passed io passed).trans (planRun_cons_stopped io _ stopped)
    · rw [flash.after_trace io q, quiet, dd.after_trace io m, List.append_assoc]
    · simpa using silent
    · rw [executed_append, show executed [Event.allocated none] = [] from rfl, List.append_nil]
      exact ran
    · intro file other
      exact (congrFun (afterFormatted_refused io _ refused) file).trans (dd_frame io m backup other)
  · have hangs : dd.result io m = none ↔ FlashHangs io m.mallocCalls m.commandsRun := by
      by_cases granted : io.mallocs m.mallocCalls = true <;> simp [dd, Step.result,
        FlashHangs, unreached, granted]
    exact ⟨_, _, _, planRun_cons_stopped io _ passed, passed, hangs, dd.after_trace io m, silent, ran,
      fun _ => dd_frame io m backup⟩

/-- A restore that gets to the flash copy runs both commands, leaves in the
destination what that copy left there, and reports success exactly when the
copy exits with status 0. -/
theorem mtdPlan_reached {m : Machine Contents} (backup destination : Int)
    (reached : FlashReached io m.mallocCalls m.commandsRun) :
    ∃ t events, planRun io (mtdPlan backup destination) m = (io.exits (m.commandsRun + 1), t) ∧
      t.trace = m.trace ++ events ∧ (.printed successText ∈ events ↔ io.exits (m.commandsRun + 1) = some 0) ∧
      executed events = [(.ddMtdToTmpCmd backup, some 0),
      (.flashcpTmpToMtdCmd destination, io.exits (m.commandsRun + 1))] ∧
      t.storage (.mtd destination) =
        (if io.exits (m.commandsRun + 1) = some 0 then m.storage (.mtd backup)
          else io.garbage (m.commandsRun + 1)) ∧
      (∀ file ≠ .tmpMtdX, file ≠ .mtd destination → t.storage file = m.storage file) ∧
      t.mallocCalls = m.mallocCalls + 2 ∧ t.commandsRun = m.commandsRun + 2 := by
  obtain ⟨granted, exit, again⟩ := reached
  let dd : Step := .runFormatted (.ddMtdToTmpCmd backup)
  let flash : Step := .runFormatted (.flashcpTmpToMtdCmd destination)
  let q := dd.after io m
  have passed : dd.result io m = some 0 := (formatted_passed_iff io).mpr ⟨granted, exit⟩
  have mallocCalls : q.mallocCalls = m.mallocCalls + 1 := afterFormatted_mallocCalls io m _
  obtain ⟨commandsRun, stored⟩ := afterFormatted_granted io (.ddMtdToTmpCmd backup) granted
  have granted' : io.mallocs q.mallocCalls = true := by rw [mallocCalls, again]
  obtain ⟨commandsRun', stored'⟩ := afterFormatted_granted io (.flashcpTmpToMtdCmd destination) granted'
  have image : q.storage .tmpMtdX = m.storage (.mtd backup) := by
    rw [show q.storage = _ from stored, exit]
    rfl
  have status : io.exits q.commandsRun = io.exits (m.commandsRun + 1) := by
    rw [show q.commandsRun = _ from commandsRun]
  have outcome : flash.result io q = io.exits (m.commandsRun + 1) := by
    simp only [flash, Step.result, granted', if_true, status]
  let t := flash.after io q
  have destinationHolds : t.storage (.mtd destination) =
      if io.exits (m.commandsRun + 1) = some 0 then m.storage (.mtd backup)
      else io.garbage (m.commandsRun + 1) := by
    rw [show t.storage = _ from stored', status, show q.commandsRun = _ from commandsRun, ← image]
    simp [Command.effect, Command.copies]
  have frame : ∀ file ≠ .tmpMtdX, file ≠ .mtd destination → t.storage file = m.storage file := by
    intro file notTmp other
    have untouched : t.storage file = q.storage file := by
      rw [show t.storage = _ from stored']
      refine Command.effect_frame _ _ _ fun source copies => ?_
      exact other (congrArg Prod.snd (Option.some.inj copies)).symm
    rw [untouched]
    exact dd_frame io m backup notTmp
  have mallocCalls' : t.mallocCalls = m.mallocCalls + 2 := by
    rw [show t.mallocCalls = q.mallocCalls + 1 from afterFormatted_mallocCalls io q _, mallocCalls]
  have commandsRun'' : t.commandsRun = m.commandsRun + 2 := by
    rw [show t.commandsRun = q.commandsRun + 1 from commandsRun', show q.commandsRun = _ from commandsRun]
  have silent := dd.success_mem_events io m (by simp [dd])
  have silent' := flash.success_mem_events io q (by simp [flash])
  have ran : executed (dd.events io m ++ flash.events io q) =
      [(.ddMtdToTmpCmd backup, some 0), (.flashcpTmpToMtdCmd destination, io.exits (m.commandsRun + 1))] := by
    rw [executed_append, executed_formatted io m _ granted, executed_formatted io q _ granted', exit, status]
    rfl
  have traced : t.trace = m.trace ++ (dd.events io m ++ flash.events io q) := by
    rw [flash.after_trace io q, dd.after_trace io m, List.append_assoc]
  by_cases restored : io.exits (m.commandsRun + 1) = some 0
  · refine ⟨t.log (.printed successText), dd.events io m ++ flash.events io q ++ [.printed successText],
      ?_, ?_, ?_, ?_, destinationHolds, frame, mallocCalls', commandsRun''⟩
    · rw [restored]
      exact (planRun_cons_passed io passed).trans ((planRun_cons_passed io (outcome.trans restored)).trans rfl)
    · simp only [Machine.log, traced, List.append_assoc]
    · simp [restored]
    · rw [executed_append, ran]
      rfl
  · refine ⟨t, dd.events io m ++ flash.events io q, ?_, traced, ?_, ran, destinationHolds, frame,
      mallocCalls', commandsRun''⟩
    · rw [← outcome] at restored ⊢
      exact (planRun_cons_passed io passed).trans (planRun_cons_stopped io _ restored)
    · simp [restored, silent, silent']

/-- What a run of a restore comes to, all at once. -/
structure MtdOutcome (backup destination : Int) (m u : Machine Contents) (result : Option Int)
    (events : List Event) : Prop where
  ran : planRun io (mtdPlan backup destination) m = (result, u)
  trace : u.trace = m.trace ++ events
  passed : result = some 0 ↔ FlashRestored io m.mallocCalls m.commandsRun
  hangs : result = none ↔ FlashHangs io m.mallocCalls m.commandsRun
  success : .printed successText ∈ events ↔ FlashRestored io m.mallocCalls m.commandsRun
  written : u.storage (.mtd destination) =
    if FlashReached io m.mallocCalls m.commandsRun then
      if io.exits (m.commandsRun + 1) = some 0 then m.storage (.mtd backup) else io.garbage (m.commandsRun + 1)
    else m.storage (.mtd destination)
  frame : ∀ file ≠ .tmpMtdX, file ≠ .mtd destination → u.storage file = m.storage file
  counted : FlashRestored io m.mallocCalls m.commandsRun →
    u.mallocCalls = m.mallocCalls + 2 ∧ u.commandsRun = m.commandsRun + 2

theorem mtdPlan_outcome (backup destination : Int) (m : Machine Contents) :
    ∃ u result events, MtdOutcome io backup destination m u result events := by
  by_cases reached : FlashReached io m.mallocCalls m.commandsRun
  · obtain ⟨u, events, ran, traced, success, _, stored, frame, counted⟩ :=
      mtdPlan_reached io backup destination reached
    refine ⟨u, _, events, ran, traced, ?_, ?_, ?_, ?_, frame, fun _ => counted⟩
    · simp only [FlashRestored, reached, true_and]
    · have reads : io.exits m.commandsRun ≠ none := by simp [reached.2.1]
      simp only [FlashHangs, reached, true_and, reads, and_false, false_or]
    · simp only [FlashRestored, reached, true_and, success]
    · simp only [reached, if_true, stored]
  · obtain ⟨result, u, events, ran, stopped, hangs, traced, silent, _, frame⟩ :=
      mtdPlan_unreached io backup destination reached
    have failed : ¬ FlashRestored io m.mallocCalls m.commandsRun := fun restored => reached restored.1
    refine ⟨u, result, events, ran, traced, ?_, hangs, ?_, ?_, fun file notTmp _ => frame file notTmp,
      fun restored => absurd restored failed⟩
    · simp only [stopped, failed]
    · simp only [silent, failed]
    · simp only [reached, if_false]
      exact frame _ (by simp)

end
end FlukeCda.Rescue
