import FlukeCda.Rescue.Machine
import FlukeCda.Rescue.Strtol

namespace FlukeCda.Rescue
open Interaction Program

def mainMenuOptions : List String :=
  ["Exit rescue program and continue normal boot process",
   "Restore filesystems to factory state",
   "Restore flattened device tree to factory state",
   "Restore FPGA RBF image to factory state",
   "Restore U-Boot with SPL to factory state",
   "Restore U-Boot environment to factory state",
   "Restore rescue kernel and initrd to factory state"]

def printf (text : String) : Code Unit := perform (Op.printf text)
def fprintf (text : String) : Code Unit := perform (Op.fprintf text)
def getline : Code GetlineReply := perform Op.getline
def malloc : Code (Option Nat) := perform Op.malloc
def free (buffer : Option Nat) : Code Unit := perform (Op.free buffer)
def system (command : Command) : Code Int := perform (Op.system command)

def systemWrapper (command : Command) (verbose dryRun : Int) : Code Int := do
  if verbose ≠ 0 then
    printf (command.text ++ "\n")
  if dryRun = 0 then
    let result ← system command
    if result ≠ 0 then
      fprintf s!"Error code = {result}\n"
    pure result
  else
    pure 0

/-- Shared body of the two wrappers that format their command into a
freshly allocated buffer. -/
def systemFormatted (command : Command) (verbose dryRun : Int) : Code Int := do
  let buffer ← malloc
  if buffer = none then
    pure (-1)
  else
    let result ← systemWrapper command verbose dryRun
    free buffer
    pure result

def systemDdMtdToTmp (sourceMtdPartition verbose dryRun : Int) : Code Int :=
  systemFormatted (.ddMtdToTmpCmd sourceMtdPartition) verbose dryRun

def systemFlashcpTmpToMtd (destinationMtdPartition verbose dryRun : Int) : Code Int :=
  systemFormatted (.flashcpTmpToMtdCmd destinationMtdPartition) verbose dryRun

def doBoot (verbose dryRun : Int) : Code Int := do
  let result ← systemWrapper .mountCmd verbose dryRun
  if result ≠ 0 then pure result else
  let result ← systemWrapper .kexecLoadCmd verbose dryRun
  if result ≠ 0 then pure result else
  let result ← systemWrapper .kexecExecCmd verbose dryRun
  if result ≠ 0 then pure result else
  pure 0

def successText : String := "Operation completed successfully.\n"

def printSuccess : Code Unit := printf successText

def doRestoreFilesystems (verbose dryRun : Int) : Code Int := do
  let result ← systemWrapper .ddBootCmd verbose dryRun
  if result ≠ 0 then pure result else
  let result ← systemWrapper .ddRootCmd verbose dryRun
  if result ≠ 0 then pure result else
  printSuccess
  pure 0

def doRestoreMtdPartition (backupMtdPartition destinationMtdPartition verbose dryRun : Int) : Code Int := do
  let result ← systemDdMtdToTmp backupMtdPartition verbose dryRun
  if result ≠ 0 then pure result else
  let result ← systemFlashcpTmpToMtd destinationMtdPartition verbose dryRun
  if result ≠ 0 then pure result else
  printSuccess
  pure 0

/-- The characters '1', 'y' and 'Y'. -/
def confirms (c : UInt8) : Bool := c == 0x31 || c == 0x79 || c == 0x59

/-- The return value, then what `*confirmed` is set to. -/
def confirmSelection : Code (Int × Int) := do
  printf "Enter \"y\" or \"1\" to confirm and execute commands > "
  let reply ← getline
  if reply.retval < 0 then
    fprintf s!"getline returned error, errno={reply.errno}\n"
    pure (-1, 0)
  else if reply.retval ≥ 1 then
    if reply.bytes.head?.any confirms then
      free reply.buffer
      pure (0, 1)
    else
      printf "Execution NOT confirmed.\n"
      free reply.buffer
      pure (0, 0)
  else
    printf "Execution NOT confirmed.\n"
    free reply.buffer
    pure (0, 0)

/-- Shared body of the menu entries: ask, then act. -/
def doInteractive (action : Code Int) : Code Int := do
  let (retval, confirmed) ← confirmSelection
  if retval < 0 then pure retval
  else if confirmed ≠ 0 then action
  else pure 0

def doInteractiveBoot : Code Int := doInteractive (doBoot 0 0)

def doInteractiveRestoreFilesystems : Code Int := doInteractive (doRestoreFilesystems 0 0)

def doInteractiveRestoreMtdPartition (backupPartition destinationPartition : Int) : Code Int :=
  doInteractive (doRestoreMtdPartition backupPartition destinationPartition 0 0)

def doInteractiveRestoreDeviceTree : Code Int :=
  doInteractiveRestoreMtdPartition deviceTreeBackupPartition deviceTreePartition

def doInteractiveRestoreFpga : Code Int :=
  doInteractiveRestoreMtdPartition fpgaBackupPartition fpgaBackupPartition

def doInteractiveRestoreUboot : Code Int :=
  doInteractiveRestoreMtdPartition ubootBackupPartition ubootPartition

def doInteractiveRestoreUbootEnvironment : Code Int :=
  doInteractiveRestoreMtdPartition ubootEnvironmentBackupPartition ubootEnvironmentPartition

def doInteractiveRestoreRescue : Code Int :=
  doInteractive do
    let retval ← doRestoreMtdPartition kernelBackupPartition kernelPartition 0 0
    if retval ≠ 0 then pure retval else
    doRestoreMtdPartition initrdBackupPartition initrdPartition 0 0

def printMenu : Nat → List String → Code Unit
  | _, [] => pure ()
  | i, option :: rest => do
    printf s!"{i + 1}) {option}.\n"
    printMenu (i + 1) rest

/-- The `switch` over the selection. The results of the entries are dropped. -/
def switchSelection (selection : Int) : Code Unit := do
  if selection = 1 then let _ ← doInteractiveBoot
  else if selection = 2 then let _ ← doInteractiveRestoreFilesystems
  else if selection = 3 then let _ ← doInteractiveRestoreDeviceTree
  else if selection = 4 then let _ ← doInteractiveRestoreFpga
  else if selection = 5 then let _ ← doInteractiveRestoreUboot
  else if selection = 6 then let _ ← doInteractiveRestoreUbootEnvironment
  else if selection = 7 then let _ ← doInteractiveRestoreRescue
  else printf "Invalid selection.\n"

def selectedText (option : String) : String := s!"\nYou have selected \"{option}\".\n"

/-- One pass of the endless loop. After a failing `getline` the buffer is
freed in the branch and again at the end of the loop. -/
def promptRound : Code Unit := do
  printf "\nSelect one of the following actions by number:\n"
  printMenu 0 mainMenuOptions
  printf "> "
  let reply ← getline
  if reply.retval < 0 then
    free reply.buffer
    fprintf s!"getline returned error, errno={reply.errno}\n"
  else
    let selection := strtol reply.bytes
    if selection > 0 ∧ selection ≤ mainMenuOptions.length then
      printf (selectedText (mainMenuOptions.getD (selection - 1).toNat ""))
    switchSelection selection
  free reply.buffer

/-- The session: `promptRound` again and again, observed for a number of rounds. -/
def promptInteractively (n : Nat) : Code Unit := rounds promptRound n

end FlukeCda.Rescue
