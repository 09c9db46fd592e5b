import FlukeCda.Rescue.MtdPlan

namespace FlukeCda.Rescue
open Interaction Program

/-- The partitions a menu entry promises to restore, with their factory backups. -/
def Entry.restores : Entry → List (File × File)
  | boot => []
  | filesystems => [(.mmcblk0p 1, .mmcblk0p 3), (.mmcblk0p 2, .mmcblk0p 4)]
  | deviceTree => [(.mtd deviceTreePartition, .mtd deviceTreeBackupPartition)]
  | fpga => [(.mtd fpgaPartition, .mtd fpgaBackupPartition)]
  | uboot => [(.mtd ubootPartition, .mtd ubootBackupPartition)]
  | ubootEnvironment => [(.mtd ubootEnvironmentPartition, .mtd ubootEnvironmentBackupPartition)]
  | rescue =>
    [(.mtd kernelPartition, .mtd kernelBackupPartition),
      (.mtd initrdPartition, .mtd initrdBackupPartition)]

def Entry.Restored {Contents : Type} (entry : Entry) (storage : File → Contents) : Prop :=
  ∀ pair ∈ entry.restores, storage pair.1 = storage pair.2

section
variable {Contents : Type} (io : Inputs Contents)

/-- A plan that reports success and returns has restored what its entry names. -/
def PlanHonest (entry : Entry) (m : Machine Contents) : Prop :=
  ∀ result u events, planRun io entry.plan m = (some result, u) → u.trace = m.trace ++ events →
    .printed successText ∈ events → entry.Restored u.storage

/-- The initrd half of a restore does not succeed, and still leaves the initrd
partition with the contents of its backup. -/
def InitrdAsBackup (m : Machine Contents) : Prop :=
  if FlashReached io (m.mallocCalls + 2) (m.commandsRun + 2) then
    io.garbage (m.commandsRun + 3) = m.storage (.mtd initrdBackupPartition)
  else m.storage (.mtd initrdPartition) = m.storage (.mtd initrdBackupPartition)

/-- The FPGA image is left alone by its entry, and the success report of the
kernel half says nothing about the initrd half. -/
def EntryHonest (m : Machine Contents) : Entry → Prop
  | .fpga => FlashRestored io m.mallocCalls m.commandsRun →
      m.storage (.mtd fpgaPartition) = m.storage (.mtd fpgaBackupPartition)
  | .rescue => FlashRestored io m.mallocCalls m.commandsRun →
      FlashRestored io (m.mallocCalls + 2) (m.commandsRun + 2) ∨
        FlashHangs io (m.mallocCalls + 2) (m.commandsRun + 2) ∨
        InitrdAsBackup io m
  | _ => True

theorem MtdOutcome.planHonest {backup destination : Int} {entry : Entry} {m u : Machine Contents}
    {result : Option Int} {events : List Event} (outcome : MtdOutcome io backup destination m u result events)
    (plan : entry.plan = mtdPlan backup destination) :
    PlanHonest io entry m ↔ (FlashRestored io m.mallocCalls m.commandsRun → entry.Restored u.storage) := by
  unfold PlanHonest
  rw [plan, outcome.ran]
  constructor
  · intro honest restored
    exact honest 0 u events (by rw [outcome.passed.mpr restored]) outcome.trace (outcome.success.mpr restored)
  · rintro honest retval t events' ran traced success
    cases ran
    rw [List.append_cancel_left (outcome.trace.symm.trans traced)] at outcome
    exact honest (outcome.success.mp success)

/-- A restore of one partition from another is honest. -/
theorem mtd_honest {backup destination : Int} {entry : Entry} (m : Machine Contents)
    (plan : entry.plan = mtdPlan backup destination)
    (restores : entry.restores = [(.mtd destination, .mtd backup)]) (different : backup ≠ destination) :
    PlanHonest io entry m := by
  obtain ⟨u, result, events, outcome⟩ := mtdPlan_outcome io backup destination m
  rw [outcome.planHonest io plan]
  intro restored
  have copied := outcome.written
  rw [if_pos restored.1, if_pos restored.2] at copied
  have source := outcome.frame (.mtd backup) (by simp) (by simpa using different)
  intro pair member
  rw [restores, List.mem_singleton] at member
  subst member
  exact copied.trans source.symm

theorem fpga_honest_iff (m : Machine Contents) : PlanHonest io .fpga m ↔ EntryHonest io m .fpga := by
  obtain ⟨u, result, events, outcome⟩ := mtdPlan_outcome io fpgaBackupPartition fpgaBackupPartition m
  rw [outcome.planHonest io rfl]
  have target := outcome.frame (.mtd fpgaPartition) (by decide) (by decide)
  refine forall_congr' fun restored => ?_
  have backup := outcome.written
  rw [if_pos restored.1, if_pos restored.2] at backup
  simp only [Entry.Restored, Entry.restores, List.mem_singleton, forall_eq, target, backup]

/-- What the initrd half leaves, in terms of the machine before the kernel half. -/
theorem initrd_restored_iff {m v u : Machine Contents} {result : Option Int} {events : List Event}
    (outcome : MtdOutcome io initrdBackupPartition initrdPartition v u result events)
    (mallocCalls : v.mallocCalls = m.mallocCalls + 2) (commandsRun : v.commandsRun = m.commandsRun + 2)
    (target : v.storage (.mtd initrdPartition) = m.storage (.mtd initrdPartition))
    (backup : v.storage (.mtd initrdBackupPartition) = m.storage (.mtd initrdBackupPartition)) :
    u.storage (.mtd initrdPartition) = m.storage (.mtd initrdBackupPartition) ↔
      FlashRestored io (m.mallocCalls + 2) (m.commandsRun + 2) ∨ InitrdAsBackup io m := by
  rw [outcome.written, mallocCalls, commandsRun, target, backup]
  unfold InitrdAsBackup FlashRestored
  by_cases reached : FlashReached io (m.mallocCalls + 2) (m.commandsRun + 2)
  · by_cases exit : io.exits (m.commandsRun + 2 + 1) = some 0
    · simp only [reached, exit, if_true, and_self, true_or]
    · simp only [reached, exit, if_true, if_false, and_false, false_or]
  · simp only [reached, if_false, false_and, false_or]

theorem rescue_honest_iff (m : Machine Contents) : PlanHonest io .rescue m ↔ EntryHonest io m .rescue := by
  obtain ⟨v, first, before, kernel⟩ := mtdPlan_outcome io kernelBackupPartition kernelPartition m
  by_cases restored : FlashRestored io m.mallocCalls m.commandsRun
  · obtain ⟨mallocCalls, commandsRun⟩ := kernel.counted restored
    obtain ⟨u, second, after, initrd⟩ := mtdPlan_outcome io initrdBackupPartition initrdPartition v
    have ran : planRun io Entry.rescue.plan m = (second, u) := by
      have passed := kernel.ran
      rw [kernel.passed.mpr restored] at passed
      exact (planRun_append_passed io passed).trans initrd.ran
    have trace : u.trace = m.trace ++ (before ++ after) := by rw [initrd.trace, kernel.trace, List.append_assoc]
    have success : .printed successText ∈ before ++ after :=
      List.mem_append_left _ (kernel.success.mpr restored)
    have copied := kernel.written
    rw [if_pos restored.1, if_pos restored.2] at copied
    have kernelBackup := kernel.frame (.mtd kernelBackupPartition) (by decide) (by decide)
    have kernelKept := initrd.frame (.mtd kernelPartition) (by decide) (by decide)
    have kernelBackupKept := initrd.frame (.mtd kernelBackupPartition) (by decide) (by decide)
    have initrdKept := kernel.frame (.mtd initrdPartition) (by decide) (by decide)
    have initrdBackup := kernel.frame (.mtd initrdBackupPartition) (by decide) (by decide)
    have initrdBackupKept := initrd.frame (.mtd initrdBackupPartition) (by decide) (by decide)
    have whole : Entry.rescue.Restored u.storage ↔
        FlashRestored io (m.mallocCalls + 2) (m.commandsRun + 2) ∨ InitrdAsBackup io m := by
      rw [← initrd_restored_iff io initrd mallocCalls commandsRun initrdKept initrdBackup]
      simp only [Entry.Restored, Entry.restores, List.forall_mem_cons, List.not_mem_nil, false_implies,
        implies_true, and_true, kernelKept, kernelBackupKept, copied, kernelBackup, initrdBackupKept,
        initrdBackup, true_and]
    have hangs := initrd.hangs
    rw [mallocCalls, commandsRun] at hangs
    constructor
    · intro honest _
      cases returned : second with
      | none => exact Or.inr (Or.inl (hangs.mp returned))
      | some result =>
        have done := whole.mp (honest result u _ (by rw [ran, returned]) trace success)
        exact done.imp_right Or.inr
    · rintro honest result t events ran' traced _
      obtain ⟨returned, rfl⟩ := Prod.mk.inj (ran.symm.trans ran')
      refine whole.mpr ?_
      rcases honest restored with initrdRestored | hung | same
      · exact Or.inl initrdRestored
      · rw [hangs.mpr hung] at returned
        simp at returned
      · exact Or.inr same
  · have stopped := planRun_append_stopped io (mtdPlan initrdBackupPartition initrdPartition) kernel.ran
      fun passed => restored (kernel.passed.mp passed)
    constructor
    · exact fun _ done => absurd done restored
    · rintro _ result t events ran traced success
      obtain ⟨_, rfl⟩ := Prod.mk.inj (stopped.symm.trans ran)
      rw [← List.append_cancel_left (kernel.trace.symm.trans traced)] at success
      exact absurd (kernel.success.mp success) restored

theorem filesystems_honest (m : Machine Contents) : PlanHonest io .filesystems m := by
  intro result u events ran traced success
  let boot : Step := .run .ddBootCmd
  let root : Step := .run .ddRootCmd
  have silent := boot.success_mem_events io m (by simp [boot])
  by_cases first : io.exits m.commandsRun = some 0
  · have passed : planRun io Entry.filesystems.plan m = planRun io [root, .success] (boot.after io m) :=
      planRun_cons_passed io first
    have silent' := root.success_mem_events io (boot.after io m) (by simp [root])
    by_cases second : io.exits (m.commandsRun + 1) = some 0
    · have passed' : planRun io [root, .success] (boot.after io m) = planRun io [.success]
        (root.after io (boot.after io m)) :=
        planRun_cons_passed io second
      have last := (passed.trans passed').symm.trans ran
      cases last
      intro pair member
      simp only [Entry.restores, List.mem_cons, List.not_mem_nil, or_false] at member
      have exits : io.exits (m.commandsRun + 1) = some 0 := second
      rcases member with rfl | rfl <;>
        simp [Machine.log, Step.after, boot, root, Machine.afterSystem, Machine.execute, Command.effect,
          Command.copies, first, exits]
    · have failed : root.result io (boot.after io m) ≠ some 0 := second
      have stopped := passed.trans (planRun_cons_stopped io [.success] failed)
      obtain ⟨_, rfl⟩ := Prod.mk.inj (stopped.symm.trans ran)
      rw [root.after_trace io, boot.after_trace io, List.append_assoc] at traced
      rw [← List.append_cancel_left traced] at success
      exact absurd success (by simp [silent, silent'])
  · have failed : boot.result io m ≠ some 0 := first
    have stopped := planRun_cons_stopped io [root, .success] failed
    obtain ⟨_, rfl⟩ := Prod.mk.inj (stopped.symm.trans ran)
    rw [boot.after_trace io] at traced
    rw [← List.append_cancel_left traced] at success
    exact absurd success silent

/-- Which entries are honest, and when. -/
theorem planHonest_iff (entry : Entry) (m : Machine Contents) :
    PlanHonest io entry m ↔ EntryHonest io m entry := by
  cases entry with
  | boot => exact iff_of_true (fun _ _ _ _ _ _ _ member => absurd member List.not_mem_nil) trivial
  | filesystems => exact iff_of_true (filesystems_honest io m) trivial
  | fpga => exact fpga_honest_iff io m
  | rescue => exact rescue_honest_iff io m
  | deviceTree | uboot | ubootEnvironment => exact iff_of_true (mtd_honest io m rfl rfl (by decide)) trivial

/-- In its n-th round the session does not report success without the
partitions of the confirmed entry being as their backups when the entry ends. -/
def RoundHonest (storage : File → Contents) (n : Nat) : Prop :=
  ∀ entry t, consent io (menuPosition io n) = some entry → RoundStart io storage (n + 1) t →
    .printed successText ∈ roundEvents io storage n → entry.Restored t.storage

def ConsentHonest (m : Machine Contents) : Prop :=
  ∀ entry, consent io m.linesRead = some entry → EntryHonest io m entry

theorem EntryHonest.quiet {m t : Machine Contents} {lines : Nat} (quiet : Quiet m t lines) (entry : Entry) :
    EntryHonest io t entry ↔ EntryHonest io m entry := by
  cases entry <;> simp only [EntryHonest, InitrdAsBackup, quiet.mallocCalls, quiet.commandsRun, quiet.storage]

theorem roundHonest_iff {storage : File → Contents} {n : Nat} {m : Machine Contents}
    (start : RoundStart io storage n m) :
    RoundHonest io storage n ↔ ConsentHonest io m := by
  unfold RoundHonest ConsentHonest
  rw [← start.linesRead]
  refine forall_congr' fun entry => ?_
  rw [forall_comm]
  refine forall_congr' fun agreed => ?_
  obtain ⟨t, quiet, returns, stored, whole⟩ := promptRound_plan io agreed
  rw [← EntryHonest.quiet io quiet, ← planHonest_iff]
  have traced := roundEvents_reached io start
  have next := session_succ io start
  have grows := planRun_follows io entry.plan t
  cases planned : planRun io entry.plan t with
  | mk result u =>
    rw [planned] at returns stored whole grows
    have same : ∀ events, u.trace = t.trace ++ events →
        (.printed successText ∈ roundEvents io storage n ↔ .printed successText ∈ events) := by
      intro events trace
      obtain ⟨before, after, parts, _, _, silent, silent'⟩ := whole events trace
      rw [List.append_cancel_left (traced.symm.trans parts)]
      simp only [List.mem_append, silent, silent', false_or, or_false]
    constructor
    · intro honest retval v events ran trace success
      obtain ⟨rfl, rfl⟩ := Prod.mk.inj (planned.symm.trans ran)
      cases ended : promptRound.run (handle io) m with
      | mk reached w =>
        rw [ended] at returns stored
        cases reached with
        | none => exact absurd (returns.mp rfl) (by simp)
        | some _ =>
          have restored := honest w (next.trans ended) ((same events trace).mpr success)
          rwa [show w.storage = u.storage from stored] at restored
    · intro honest w start' success
      obtain ⟨events, trace, _⟩ := grows
      have ended : promptRound.run (handle io) m = (some (), w) := next.symm.trans start'
      rw [ended] at returns stored
      cases result with
      | none => exact absurd (returns.mpr rfl) (by simp)
      | some retval =>
        have restored := honest retval u events planned trace ((same events trace).mp success)
        rwa [← show w.storage = u.storage from stored] at restored

/-- The success reports of a session are true exactly as long as no confirmed
entry takes the FPGA image to be restored, or the initrd with the kernel. -/
theorem success_reports_iff (storage : File → Contents) :
    (∀ n, RoundHonest io storage n) ↔ ∀ n m, RoundStart io storage n m → ConsentHonest io m := by
  refine forall_congr' fun n => ⟨fun honest m start => (roundHonest_iff io start).mp honest, fun honest => ?_⟩
  cases before : session io storage n with
  | mk reached m =>
    cases reached with
    | some _ => exact (roundHonest_iff io before).mpr (honest m before)
    | none =>
      intro entry t _ start
      rw [RoundStart, session_stuck io before] at start
      simp at start

end

/-- A partition holds its own name, and the first entry is selected and confirmed;
every command but the given one exits with status 0. -/
def confirmedWith (digit : UInt8) (failing : Nat) : Inputs (Option File) where
  lines := fun k => if k = 0 then .line [digit, 0x0a] else if k = 1 then .line [0x79, 0x0a] else .failed 0 false
  exits := fun k => if k = failing then some 1 else some 0
  mallocs := fun _ => true
  garbage := fun _ => none

/-- Entry 4 succeeds without touching the FPGA image; entry 7 reports success
for the kernel, and then loses the initrd. -/
theorem success_reports_false :
    (¬ ∀ n, RoundHonest (confirmedWith 0x34 9) some n) ∧ ¬ ∀ n, RoundHonest (confirmedWith 0x37 3) some n := by
  have start : ∀ digit failing, RoundStart (confirmedWith digit failing) some 0
    (Machine.start some) := fun _ _ => rfl
  constructor
  · intro honest
    have fpga := (roundHonest_iff _ (start 0x34 9)).mp (honest 0) .fpga (by decide)
    have same := fpga ⟨⟨rfl, rfl, rfl⟩, rfl⟩
    exact absurd same (by decide)
  · intro honest
    have rescue := (roundHonest_iff _ (start 0x37 3)).mp (honest 0) .rescue (by decide)
    rcases rescue ⟨⟨rfl, rfl, rfl⟩, rfl⟩ with restored | hung | same
    · exact absurd restored.2 (by decide)
    · rcases hung with ⟨_, hung⟩ | ⟨_, hung⟩ <;> exact absurd hung (by decide)
    · unfold InitrdAsBackup at same
      exact absurd same (by decide)

end FlukeCda.Rescue
