import FlukeCda.Rescue.MtdPlan

namespace FlukeCda.Rescue
open Interaction Program

section
variable {Contents : Type} (io : Inputs Contents) (storage : File → Contents)

/-- The machine as an observer finds it after some calls of the session. -/
def point (n calls : Nat) : Machine Contents :=
  runFor (handle io) calls (promptInteractively n) (Machine.start storage)

/-- A confirmed restore of the FPGA image gets to its copy into flash. -/
def FpgaFlashReached (m : Machine Contents) : Prop :=
  consent io m.linesRead = some .fpga ∧ FlashReached io m.mallocCalls m.commandsRun

theorem handle_trace (op : Op) (m : Machine Contents) : m.trace <+: (handle io op m).2.trace := by
  cases op with
  | getline =>
    obtain ⟨events, traced, _⟩ := (Quiet.getline io m).trace
    exact ⟨events, traced.symm⟩
  | malloc =>
    simp only [handle_malloc, Machine.malloc]
    split_ifs <;> exact List.prefix_append _ _
  | printf | fprintf | free | system => exact List.prefix_append _ _

theorem executed_mono {xs ys : List Event} (initial : xs <+: ys) : executed xs <+: executed ys := by
  obtain ⟨rest, rfl⟩ := initial
  rw [executed_append]
  exact List.prefix_append _ _

/-- As long as no executed command writes a backup, no backup has changed. -/
def BackupsKept (m : Machine Contents) : Prop :=
  (∀ e ∈ m.commands, ¬ e.1.WritesBackup) → ∀ file : File, file.FactoryBackup → m.storage file = storage file

theorem handle_backupsKept (op : Op) (m : Machine Contents) (kept : BackupsKept storage m) :
    BackupsKept storage (handle io op m).2 := by
  intro harmless file backup
  have before : m.storage file = storage file := by
    refine kept (fun e member => harmless e ?_) file backup
    exact (executed_mono (handle_trace io op m)).subset member
  have after : (handle io op m).2.storage file = m.storage file := by
    cases op with
    | getline => exact congrFun (Quiet.getline io m).storage file
    | malloc =>
      simp only [handle_malloc, Machine.malloc]
      split_ifs <;> rfl
    | system command =>
      refine Command.effect_backup _ _ _ backup (harmless (command, io.exits m.commandsRun) ?_)
      simp [Machine.execute, Machine.commands, executed_append, executed]
    | printf | fprintf | free => rfl
  exact after.trans before

/-- Every entry but the FPGA one has only harmless commands in its list. -/
theorem Entry.plan_harmless {entry : Entry} (other : entry ≠ .fpga) :
    ∀ command ∈ planCommands entry.plan, ¬ command.WritesBackup := by
  intro command member
  rintro ⟨source, destination, copied, backup⟩
  cases entry with
  | fpga => exact other rfl
  | _ =>
    simp only [Entry.plan, mtdPlan, planCommands, List.filterMap, Step.command, List.cons_append,
      List.nil_append, List.mem_cons, List.not_mem_nil, or_false] at member
    rcases member with rfl | rfl | rfl | rfl <;> cases copied <;> revert backup <;> decide

/-- A round that does not get to the FPGA flash copy writes no backup. -/
theorem round_harmless {n : Nat} {m : Machine Contents} (start : RoundStart io storage n m)
    (unreached : ¬ FpgaFlashReached io m) : ∀ e ∈ executed (roundEvents io storage n), ¬ e.1.WritesBackup := by
  have traced := roundEvents_reached io start
  obtain ⟨events, traced', refused, follows⟩ := promptRound_events io m
  have same : roundEvents io storage n = events := List.append_cancel_left (traced.symm.trans traced')
  cases agreed : consent io m.linesRead with
  | none =>
    rw [same, refused agreed]
    simp
  | some entry =>
    by_cases fpga : entry = .fpga
    · subst fpga
      obtain ⟨t, quiet, _, _, whole⟩ := promptRound_plan io agreed
      have stopped : ¬ FlashReached io t.mallocCalls t.commandsRun := by
        rw [quiet.mallocCalls, quiet.commandsRun]
        exact fun reached => unreached ⟨agreed, reached⟩
      obtain ⟨result, u, planned, ran, _, _, traced'', _, only, _⟩ :=
        mtdPlan_unreached io fpgaBackupPartition fpgaBackupPartition stopped
      obtain ⟨before, after, parts, empty, empty', _⟩ :=
        whole planned (by rw [← traced'']; exact congrArg (·.2.trace) ran)
      have split : executed (roundEvents io storage n) = executed planned := by
        rw [List.append_cancel_left (traced.symm.trans parts), executed_append, executed_append, empty, empty',
          List.nil_append, List.append_nil]
      intro e member
      rw [split] at member
      rw [only e member]
      rintro ⟨source, destination, copied, backup⟩
      cases copied
      exact backup
    · intro e member
      rw [same] at member
      have listed : e.1 ∈ planCommands entry.plan :=
        (follows entry agreed).initial.subset (List.mem_map_of_mem (f := Prod.fst) member)
      exact Entry.plan_harmless fpga e.1 listed

/-- A round that gets to the FPGA flash copy writes the FPGA backup. -/
theorem round_writes_fpga_backup {n : Nat} {m : Machine Contents} (start : RoundStart io storage n m)
    (reached : FpgaFlashReached io m) :
    ∃ e ∈ executed (roundEvents io storage n), e.1 = .flashcpTmpToMtdCmd fpgaBackupPartition := by
  obtain ⟨agreed, flash⟩ := reached
  obtain ⟨t, quiet, _, _, whole⟩ := promptRound_plan io agreed
  rw [← quiet.mallocCalls, ← quiet.commandsRun] at flash
  obtain ⟨u, planned, ran, traced, _, commands, _⟩ :=
    mtdPlan_reached io fpgaBackupPartition fpgaBackupPartition flash
  obtain ⟨before, after, parts, _⟩ := whole planned (by rw [← traced]; exact congrArg (·.2.trace) ran)
  refine ⟨(.flashcpTmpToMtdCmd fpgaBackupPartition, io.exits (t.commandsRun + 1)), ?_, rfl⟩
  rw [List.append_cancel_left ((roundEvents_reached io start).symm.trans parts), executed_append,
    executed_append, commands]
  simp

theorem session_commands_succ (n : Nat) :
    (session io storage (n + 1)).2.commands =
      (session io storage n).2.commands ++ executed (roundEvents io storage n) := by
  rw [Machine.commands, session_trace_succ, executed_append]
  rfl

/-- Until a round gets to the FPGA flash copy, the whole session is harmless. -/
theorem session_harmless (unreached : ∀ n m, RoundStart io storage n m → ¬ FpgaFlashReached io m) (n : Nat) :
    ∀ e ∈ (session io storage n).2.commands, ¬ e.1.WritesBackup := by
  induction n with
  | zero => exact fun e member => absurd member List.not_mem_nil
  | succ n ih =>
    intro e member
    rw [session_commands_succ] at member
    rcases List.mem_append.mp member with earlier | latest
    · exact ih e earlier
    · cases before : session io storage n with
      | mk reached m =>
        cases reached with
        | some _ => exact round_harmless io storage before (unreached n m before) e latest
        | none =>
          rw [roundEvents, session_stuck io before, before, List.drop_length] at latest
          exact absurd latest List.not_mem_nil

/-- The session only ever appends to its trace. -/
theorem point_trace (n calls : Nat) : (point io storage n calls).trace <+: (session io storage n).2.trace :=
  runFor_extends (handle io) (R := fun m t : Machine Contents => m.trace <+: t.trace) (fun _ => List.prefix_rfl)
    (fun first second => first.trans second) (handle_trace io) calls _ _

/-- Every factory backup is safe, at every point of every session, exactly as
long as no confirmed restore of the FPGA image gets to its copy into flash. -/
theorem backups_kept_iff :
    (∀ n calls, (∀ e ∈ (point io storage n calls).commands, ¬ e.1.WritesBackup) ∧
      ∀ file : File, file.FactoryBackup → (point io storage n calls).storage file = storage file) ↔
    ∀ n m, RoundStart io storage n m → ¬ FpgaFlashReached io m := by
  constructor
  · intro kept n m start reached
    obtain ⟨e, member, writes⟩ := round_writes_fpga_backup io storage start reached
    obtain ⟨calls, last⟩ := run_eq_runFor (handle io) (promptInteractively (n + 1)) (Machine.start storage)
    have harmless := (kept (n + 1) calls).1 e
    rw [show point io storage (n + 1) calls = (session io storage (n + 1)).2 from last,
      session_commands_succ] at harmless
    refine harmless (List.mem_append_right _ member) ⟨.tmpMtdX, .mtd fpgaBackupPartition, ?_, ?_⟩
    · rw [writes]
      rfl
    · decide
  · intro unreached n calls
    have harmless : ∀ e ∈ (point io storage n calls).commands, ¬ e.1.WritesBackup := by
      intro e member
      refine session_harmless io storage unreached n e ?_
      exact (executed_mono (point_trace io storage n calls)).subset member
    refine ⟨harmless, ?_⟩
    have kept : BackupsKept storage (point io storage n calls) :=
      runFor_invariant (handle io) (handle_backupsKept io storage) calls _ _ fun _ _ _ => rfl
    exact kept harmless

end

/-- Entry 4 is selected and confirmed, the image is read, and its copy into flash fails. -/
def fpgaConfirmed : Inputs Bool where
  lines := fun k => if k = 0 then .line [0x34, 0x0a] else if k = 1 then .line [0x79, 0x0a] else .failed 0 false
  exits := fun k => if k = 1 then some 1 else some 0
  mallocs := fun _ => true
  garbage := fun _ => false

theorem fpga_backup_destroyed :
    (¬ ∀ n calls, ∀ e ∈ (point fpgaConfirmed (fun _ => true) n calls).commands, ¬ e.1.WritesBackup) ∧
    ¬ ∀ n calls, ∀ file : File, file.FactoryBackup →
      (point fpgaConfirmed (fun _ => true) n calls).storage file = true := by
  let m : Machine Bool := Machine.start fun _ => true
  have start : RoundStart fpgaConfirmed (fun _ => true) 0 m := rfl
  have agreed : consent fpgaConfirmed m.linesRead = some .fpga := by decide
  have flash : FlashReached fpgaConfirmed m.mallocCalls m.commandsRun := ⟨rfl, rfl, rfl⟩
  obtain ⟨calls, last⟩ := run_eq_runFor (handle fpgaConfirmed) (promptInteractively 1) m
  have ended : point fpgaConfirmed (fun _ => true) 1 calls = (session fpgaConfirmed (fun _ => true) 1).2 := last
  constructor
  · intro harmless
    obtain ⟨e, member, writes⟩ := round_writes_fpga_backup fpgaConfirmed (fun _ => true) start ⟨agreed, flash⟩
    refine harmless 1 calls e ?_ ⟨.tmpMtdX, .mtd fpgaBackupPartition, by rw [writes]; rfl, by decide⟩
    rw [ended, session_commands_succ]
    exact List.mem_append_right _ member
  · intro kept
    obtain ⟨t, quiet, _, stored, _⟩ := promptRound_plan fpgaConfirmed agreed
    rw [← quiet.mallocCalls, ← quiet.commandsRun] at flash
    obtain ⟨u, _, ran, _, _, _, destroyed, _⟩ :=
      mtdPlan_reached fpgaConfirmed fpgaBackupPartition fpgaBackupPartition flash
    have same : (planRun fpgaConfirmed Entry.fpga.plan t).2 = u := congrArg Prod.snd ran
    have backup := kept 1 calls (.mtd fpgaBackupPartition) (by decide)
    rw [ended, session_succ fpgaConfirmed start, stored, same, destroyed, quiet.commandsRun] at backup
    rw [if_neg (by decide)] at backup
    exact Bool.false_ne_true backup

end FlukeCda.Rescue
