import FlukeCda.Rescue.Plan

namespace FlukeCda.Rescue
open Interaction Program

section
variable {Contents : Type} (io : Inputs Contents) (m : Machine Contents)

@[simp] theorem handle_printf (text : String) : handle io (.printf text) m = (some (), m.log (.printed text)) :=
  rfl
@[simp] theorem handle_fprintf (text : String) :
  handle io (.fprintf text) m = (some (), m.log (.reported text)) := rfl
@[simp] theorem handle_getline : handle io .getline m = (some (m.getline io).1, (m.getline io).2) := rfl
@[simp] theorem handle_malloc : handle io .malloc m = (some (m.malloc io).1, (m.malloc io).2) := rfl
@[simp] theorem handle_free (buffer : Option Nat) :
  handle io (.free buffer) m = (some (), m.log (.freed buffer)) := rfl
@[simp] theorem handle_system (command : Command) :
    handle io (.system command) m = (io.exits m.commandsRun, m.execute io command) := rfl

/-- Events of `systemWrapper`: the command, and the report of a nonzero status. -/
def systemEvents (command : Command) (status : Option Int) : List Event :=
  match status with
  | some status =>
    .executed command (some status) :: if status ≠ 0 then [.reported s!"Error code = {status}\n"] else []
  | none => [.executed command none]

def Machine.afterSystem (command : Command) : Machine Contents :=
  { m.execute io command with trace := m.trace ++ systemEvents command (io.exits m.commandsRun) }

def Machine.afterFormatted (command : Command) : Machine Contents :=
  if io.mallocs m.mallocCalls then
    let after := (m.malloc io).2.afterSystem io command
    if (io.exits m.commandsRun).isSome then after.log (.freed (some m.buffers)) else after
  else (m.malloc io).2

def Step.result : Step → Option Int
  | run _ => io.exits m.commandsRun
  | runFormatted _ => if io.mallocs m.mallocCalls then io.exits m.commandsRun else some (-1)
  | success => some 0

def Step.after : Step → Machine Contents
  | run command => m.afterSystem io command
  | runFormatted command => m.afterFormatted io command
  | success => m.log (.printed successText)

def Step.events : Step → List Event
  | run command => systemEvents command (io.exits m.commandsRun)
  | runFormatted command =>
    if io.mallocs m.mallocCalls then
      .allocated (some m.buffers) :: systemEvents command (io.exits m.commandsRun) ++
        if (io.exits m.commandsRun).isSome then [.freed (some m.buffers)] else []
    else [.allocated none]
  | success => [.printed successText]

theorem systemWrapper_run (command : Command) :
    (systemWrapper command 0 0).run (handle io) m = (io.exits m.commandsRun, m.afterSystem io command) := by
  simp only [systemWrapper, system, fprintf, ne_eq, not_true_eq_false, if_false, if_true, perform_bind,
    run, handle_system, Machine.afterSystem, systemEvents]
  cases exit : io.exits m.commandsRun with
  | none => simp only [Machine.execute, exit]
  | some status =>
    by_cases zero : status = 0
    · simp only [zero, not_true_eq_false, if_false, run_pure, Machine.execute, exit]
    · simp only [zero, not_false_eq_true, if_true, run, handle_fprintf, run_pure, Machine.execute,
        Machine.log, exit, List.append_assoc, List.singleton_append]

theorem systemFormatted_run (command : Command) :
    (systemFormatted command 0 0).run (handle io) m =
      ((Step.runFormatted command).result io m, m.afterFormatted io command) := by
  simp only [systemFormatted, malloc, perform_bind, run, handle_malloc, Machine.malloc,
    Machine.afterFormatted, Step.result]
  by_cases granted : io.mallocs m.mallocCalls = true
  · simp only [granted, if_true, reduceCtorEq, if_false]
    cases exit : io.exits m.commandsRun with
    | none =>
      rw [run_bind_none (handle io) ((systemWrapper_run io _ command).trans (by rw [exit]))]
      simp only [Option.isSome_none, Bool.false_eq_true, if_false]
    | some status =>
      rw [run_bind_some (handle io) ((systemWrapper_run io _ command).trans (by rw [exit]))]
      simp only [free, perform_bind, run, handle_free, run_pure, Option.isSome_some, if_true]
  · simp only [granted, Bool.false_eq_true, if_false, if_true, run_pure]

theorem Step.code_run (step : Step) : step.code.run (handle io) m = (step.result io m, step.after io m) := by
  cases step with
  | run command => exact systemWrapper_run io m command
  | runFormatted command => exact systemFormatted_run io m command
  | success => rfl

theorem Step.after_trace (step : Step) : (step.after io m).trace = m.trace ++ step.events io m := by
  cases step with
  | run command => rfl
  | runFormatted command =>
    simp only [Step.after, Machine.afterFormatted, Step.events, Machine.malloc]
    split_ifs <;> simp [Machine.afterSystem, Machine.log]
  | success => rfl

end

/-- The whole plan, step by step: it stops at the first result that is not zero. -/
def planRun {Contents : Type} (io : Inputs Contents) : List Step → Machine Contents →
    Option Int × Machine Contents
  | [], m => (some 0, m)
  | step :: rest, m =>
    if step.result io m = some 0 then planRun io rest (step.after io m) else (step.result io m, step.after io m)

theorem planCode_run {Contents : Type} (io : Inputs Contents) (steps : List Step) (m : Machine Contents) :
    (planCode steps).run (handle io) m = planRun io steps m := by
  induction steps generalizing m with
  | nil => rfl
  | cons step rest ih =>
    have ran := step.code_run io m
    simp only [planCode, planRun]
    cases outcome : step.result io m with
    | none =>
      rw [run_bind_none (handle io) (ran.trans (by rw [outcome]))]
      simp only [reduceCtorEq, if_false]
    | some result =>
      rw [run_bind_some (handle io) (ran.trans (by rw [outcome]))]
      by_cases zero : result = 0
      · simp only [zero, ne_eq, not_true_eq_false, if_false, if_true, ih]
      · simp only [ne_eq, zero, not_false_eq_true, if_true, run_pure, Option.some.injEq, if_false]

end FlukeCda.Rescue
