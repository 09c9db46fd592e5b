import FlukeCda.Rescue.Source

namespace FlukeCda.Rescue
open Interaction Program

/-- One step of a menu entry: a command, a command formatted into an
allocated buffer, or the success report. -/
inductive Step
  | run (command : Command)
  | runFormatted (command : Command)
  | success

namespace Step

def code : Step → Code Int
  | run command => systemWrapper command 0 0
  | runFormatted command => systemFormatted command 0 0
  | success => do
    printSuccess
    pure 0

def command : Step → Option Command
  | run command | runFormatted command => some command
  | success => none

end Step

/-- The C idiom of the whole program: go on only after a zero result. -/
def planCode : List Step → Code Int
  | [] => pure 0
  | step :: rest => do
    let result ← step.code
    if result ≠ 0 then pure result else planCode rest

def planCommands (steps : List Step) : List Command := steps.filterMap Step.command

theorem planCode_append (xs ys : List Step) :
    planCode (xs ++ ys) = planCode xs >>= fun result => if result ≠ 0 then pure result else planCode ys := by
  induction xs with
  | nil => rfl
  | cons step rest ih =>
    simp only [List.cons_append, planCode, ih, bind_assoc]
    congr 1
    funext result
    by_cases zero : result = 0
    · simp only [zero, ne_eq, not_true_eq_false, if_false]
    · simp only [ne_eq, zero, not_false_eq_true, if_true, Program.pure_bind]

def mtdPlan (backup destination : Int) : List Step :=
  [.runFormatted (.ddMtdToTmpCmd backup), .runFormatted (.flashcpTmpToMtdCmd destination), .success]

inductive Entry
  | boot
  | filesystems
  | deviceTree
  | fpga
  | uboot
  | ubootEnvironment
  | rescue
  deriving DecidableEq

/-- The entry a menu number stands for. -/
def Entry.ofSelection (selection : Int) : Option Entry :=
  if selection = 1 then some .boot
  else if selection = 2 then some .filesystems
  else if selection = 3 then some .deviceTree
  else if selection = 4 then some .fpga
  else if selection = 5 then some .uboot
  else if selection = 6 then some .ubootEnvironment
  else if selection = 7 then some .rescue
  else none

def Entry.plan : Entry → List Step
  | boot => [.run .mountCmd, .run .kexecLoadCmd, .run .kexecExecCmd]
  | filesystems => [.run .ddBootCmd, .run .ddRootCmd, .success]
  | deviceTree => mtdPlan deviceTreeBackupPartition deviceTreePartition
  | fpga => mtdPlan fpgaBackupPartition fpgaBackupPartition
  | uboot => mtdPlan ubootBackupPartition ubootPartition
  | ubootEnvironment => mtdPlan ubootEnvironmentBackupPartition ubootEnvironmentPartition
  | rescue => mtdPlan kernelBackupPartition kernelPartition ++ mtdPlan initrdBackupPartition initrdPartition

theorem doInteractiveRestoreRescue_eq_plan :
    doInteractiveRestoreRescue = doInteractive (planCode Entry.rescue.plan) := by
  simp only [Entry.plan, planCode_append]
  rfl

/-- Whatever the selection, the switch asks for confirmation of exactly the
plan of the entry it names. -/
theorem switchSelection_eq_plan (selection : Int) :
    switchSelection selection =
      match Entry.ofSelection selection with
      | some entry => do let _ ← doInteractive (planCode entry.plan)
      | none => printf "Invalid selection.\n" := by
  unfold switchSelection Entry.ofSelection
  rw [doInteractiveRestoreRescue_eq_plan]
  split_ifs <;> rfl

end FlukeCda.Rescue
