import Mathlib.Logic.Function.Basic

namespace FlukeCda.Rescue

/-- What the shell commands of the rescue program read and write. -/
inductive File
  | mtd (partition : Int)
  | mmcblk0p (partition : Nat)
  | tmpMtdX
  deriving DecidableEq

def ubootPartition : Int := 0
def ubootEnvironmentPartition : Int := 1
def deviceTreePartition : Int := 2
def kernelPartition : Int := 3
def fpgaPartition : Int := 4
def initrdPartition : Int := 5
def ubootBackupPartition : Int := 6
def ubootEnvironmentBackupPartition : Int := 7
def deviceTreeBackupPartition : Int := 8
def kernelBackupPartition : Int := 9
def fpgaBackupPartition : Int := 10
def initrdBackupPartition : Int := 11

/-- The factory backups: flash partitions 6 to 11 and the two eMMC partitions
the boot and root filesystems are restored from. -/
def File.FactoryBackup : File → Prop
  | .mtd partition => ubootBackupPartition ≤ partition ∧ partition ≤ initrdBackupPartition
  | .mmcblk0p partition => partition = 3 ∨ partition = 4
  | .tmpMtdX => False

instance (file : File) : Decidable file.FactoryBackup := by
  cases file <;> unfold File.FactoryBackup <;> infer_instance

/-- One constructor for each command string or format of the program. -/
inductive Command
  | mountCmd
  | kexecLoadCmd
  | kexecExecCmd
  | ddBootCmd
  | ddRootCmd
  | ddMtdToTmpCmd (sourceMtdPartition : Int)
  | flashcpTmpToMtdCmd (destinationMtdPartition : Int)
  deriving DecidableEq

namespace Command

def text : Command → String
  | mountCmd => "mount -o ro /dev/mmcblk0p1 /mnt/target_boot"
  | kexecLoadCmd => "kexec --load /mnt/target_boot/zImage " ++
      "--append \"console=ttyS0,115200 vt.global_cursor_default=0 vt.cur_default=1 coherent_pool=256K isolcpus=1 root=/dev/mmcblk0p2 rw rootwait rootfstype=ext4 2>/dev/null\""
  | kexecExecCmd => "kexec --exec"
  | ddBootCmd => "dd if=/dev/mmcblk0p3 of=/dev/mmcblk0p1 bs=1M conv=fsync"
  | ddRootCmd => "dd if=/dev/mmcblk0p4 of=/dev/mmcblk0p2 bs=1M conv=fsync"
  | ddMtdToTmpCmd partition => s!"dd if=/dev/mtd{partition} of=/tmp/mtdX bs=1M"
  | flashcpTmpToMtdCmd partition => s!"flashcp /tmp/mtdX /dev/mtd{partition}"

/-- Source and destination of the commands that copy. -/
def copies : Command → Option (File × File)
  | mountCmd | kexecLoadCmd | kexecExecCmd => none
  | ddBootCmd => some (.mmcblk0p 3, .mmcblk0p 1)
  | ddRootCmd => some (.mmcblk0p 4, .mmcblk0p 2)
  | ddMtdToTmpCmd partition => some (.mtd partition, .tmpMtdX)
  | flashcpTmpToMtdCmd partition => some (.tmpMtdX, .mtd partition)

def WritesBackup (command : Command) : Prop :=
  ∃ source destination, command.copies = some (source, destination) ∧ destination.FactoryBackup

/-- A copy that exits with status 0 makes the destination equal to the source;
one that fails, or never returns, leaves it as the environment has it. -/
def effect {Contents : Type} (command : Command) (status : Option Int) (garbage : Contents)
    (storage : File → Contents) : File → Contents :=
  match command.copies with
  | none => storage
  | some (source, destination) =>
    Function.update storage destination (if status = some 0 then storage source else garbage)

theorem effect_frame {Contents : Type} {command : Command} {file : File} (status : Option Int)
    (garbage : Contents) (storage : File → Contents)
    (untouched : ∀ source, command.copies ≠ some (source, file)) :
    command.effect status garbage storage file = storage file := by
  cases copied : command.copies with
  | none => simp only [effect, copied]
  | some pair =>
    have different : file ≠ pair.2 := fun same => untouched pair.1 (same ▸ copied)
    simp only [effect, copied, Function.update_of_ne different]

/-- No command but one that writes a backup changes a backup. -/
theorem effect_backup {Contents : Type} {command : Command} {file : File} (status : Option Int)
    (garbage : Contents) (storage : File → Contents) (backup : file.FactoryBackup)
    (harmless : ¬ command.WritesBackup) :
    command.effect status garbage storage file = storage file :=
  effect_frame status garbage storage fun source copied => harmless ⟨source, file, copied, backup⟩

end Command
end FlukeCda.Rescue
