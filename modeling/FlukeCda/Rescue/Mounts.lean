import FlukeCda.Rescue.Backups

/-! # The boot filesystem between rounds

`do_boot` mounts `/dev/mmcblk0p1` before its two `kexec` steps. What happens to
the mount when one of these fails is seen in the rounds that come after.
-/

namespace FlukeCda.Rescue
open Interaction Program

/-- No command of the program unmounts: a mount that exited with status 0 lasts. -/
def MountedBy (commands : List (Command × Option Int)) : Prop := (.mountCmd, some 0) ∈ commands

instance (commands : List (Command × Option Int)) : Decidable (MountedBy commands) :=
  inferInstanceAs (Decidable (_ ∈ commands))

/-- From this count of commands on, a boot mounts its filesystem and then comes
back, from `kexec --load` or from `kexec --exec`. -/
def BootReturns {Contents : Type} (io : Inputs Contents) (commands : Nat) : Prop :=
  io.exits commands = some 0 ∧ io.exits (commands + 1) ≠ none ∧
    (io.exits (commands + 1) = some 0 → io.exits (commands + 2) ≠ none)

section
variable {Contents : Type} (io : Inputs Contents)

/-- A confirmed boot that mounts and comes back. -/
def BootComesBack (m : Machine Contents) : Prop :=
  consent io m.linesRead = some .boot ∧ BootReturns io m.commandsRun

/-- A boot: what it comes to, and whether the mount is among its commands. -/
structure BootOutcome (m u : Machine Contents) (result : Option Int) (events : List Event) : Prop where
  ran : planRun io Entry.boot.plan m = (result, u)
  trace : u.trace = m.trace ++ events
  mounted : MountedBy (executed events) ↔ io.exits m.commandsRun = some 0
  returns : io.exits m.commandsRun = some 0 → (result ≠ none ↔ BootReturns io m.commandsRun)

/-- Two commands in a row, the second one only after a zero status of the first. -/
theorem planRun_pair (first second : Command) (m : Machine Contents) :
    (planRun io [.run first, .run second] m).1 =
      if io.exits m.commandsRun = some 0 then io.exits (m.commandsRun + 1) else io.exits m.commandsRun := by
  have head : (Step.run first).result io m = io.exits m.commandsRun := rfl
  have next : (Step.run second).result io ((Step.run first).after io m) = io.exits (m.commandsRun + 1) := rfl
  rw [← head, ← next]
  by_cases passed : (Step.run first).result io m = some 0
  · rw [planRun_cons_passed io passed, if_pos passed]
    by_cases last : (Step.run second).result io ((Step.run first).after io m) = some 0
    · rw [planRun_cons_passed io last, last]
      rfl
    · rw [planRun_cons_stopped io [] last]
  · rw [planRun_cons_stopped io [.run second] passed, if_neg passed]

theorem bootPlan_outcome (m : Machine Contents) :
    ∃ u result events, BootOutcome io m u result events := by
  let mount : Step := .run .mountCmd
  let kexec : List Step := [.run .kexecLoadCmd, .run .kexecExecCmd]
  have mountTrace := mount.after_trace io m
  have mountRuns : executed (mount.events io m) = [(.mountCmd, io.exits m.commandsRun)] :=
    executed_systemEvents .mountCmd _
  by_cases first : io.exits m.commandsRun = some 0
  · have passed : planRun io Entry.boot.plan m = planRun io kexec (mount.after io m) :=
      planRun_cons_passed io first
    obtain ⟨events, traced, -⟩ := planRun_follows io kexec (mount.after io m)
    have value := planRun_pair io .kexecLoadCmd .kexecExecCmd (mount.after io m)
    obtain ⟨u, result, tail⟩ : ∃ u result, planRun io kexec (mount.after io m) = (result, u) := ⟨_, _, rfl⟩
    rw [tail] at traced passed
    have same : result = _ := (congrArg Prod.fst tail).symm.trans value
    refine ⟨u, result, mount.events io m ++ events, passed, ?_, ?_, fun _ => ?_⟩
    · rw [traced, mountTrace, List.append_assoc]
    · rw [MountedBy, executed_append, mountRuns, first]
      simp
    · have count : (mount.after io m).commandsRun = m.commandsRun + 1 := rfl
      rw [same, count, BootReturns]
      by_cases second : io.exits (m.commandsRun + 1) = some 0
      · simp [first, second]
      · simp [first, second]
  · have stopped := planRun_cons_stopped io kexec (show mount.result io m ≠ some 0 from first)
    refine ⟨_, _, mount.events io m, stopped, mountTrace, ?_, fun zero => absurd zero first⟩
    rw [mountRuns, MountedBy, List.mem_singleton, Prod.mk.injEq]
    exact ⟨fun same => same.2.symm, fun zero => ⟨rfl, zero.symm⟩⟩

/-- No other entry mounts anything. -/
theorem Entry.plan_mounts {entry : Entry} (other : entry ≠ .boot) : .mountCmd ∉ planCommands entry.plan := by
  cases entry with
  | boot => exact absurd rfl other
  | _ => decide

/-- Whether the events of a round mount the boot filesystem; when they do, the
round comes back exactly if the boot does. -/
theorem round_mounts {storage : File → Contents} {n : Nat} {m : Machine Contents} (start : RoundStart io storage n m) :
    (MountedBy (executed (roundEvents io storage n)) → consent io m.linesRead = some .boot ∧
      io.exits m.commandsRun = some 0) ∧
    (consent io m.linesRead = some .boot → io.exits m.commandsRun = some 0 →
      MountedBy (executed (roundEvents io storage n)) ∧
      ((session io storage (n + 1)).1 ≠ none ↔ BootReturns io m.commandsRun)) := by
  have traced := roundEvents_reached io start
  cases agreed : consent io m.linesRead with
  | none =>
    obtain ⟨events, traced', refused, -⟩ := promptRound_events io m
    have same : roundEvents io storage n = events := List.append_cancel_left (traced.symm.trans traced')
    rw [same, refused agreed]
    exact ⟨fun mounted => absurd mounted List.not_mem_nil, fun absent => by cases absent⟩
  | some entry =>
    by_cases boot : entry = .boot
    · subst boot
      obtain ⟨t, quiet, returns, -, whole⟩ := promptRound_plan io agreed
      obtain ⟨u, result, events, outcome⟩ := bootPlan_outcome io t
      rw [outcome.ran] at returns whole
      obtain ⟨before, after, parts, empty, empty', -⟩ := whole events outcome.trace
      have split : executed (roundEvents io storage n) = executed events := by
        rw [List.append_cancel_left (traced.symm.trans parts), executed_append, executed_append, empty, empty',
          List.nil_append, List.append_nil]
      have mounted := outcome.mounted
      have back := outcome.returns
      rw [quiet.commandsRun] at mounted back
      rw [split, session_succ io start]
      exact ⟨fun now => ⟨rfl, mounted.mp now⟩, fun _ zero => ⟨mounted.mpr zero, (not_congr returns).trans (back zero)⟩⟩
    · obtain ⟨events, traced', -, follows⟩ := promptRound_events io m
      have same : roundEvents io storage n = events := List.append_cancel_left (traced.symm.trans traced')
      refine ⟨fun mounted => ?_, fun same => absurd (Option.some.inj same) boot⟩
      rw [same] at mounted
      have listed := (follows entry agreed).initial.subset (List.mem_map_of_mem mounted)
      exact absurd listed (Entry.plan_mounts boot)

variable (storage : File → Contents)

/-- Where the menu prompt is shown, the boot filesystem is not mounted. -/
def PromptsUnmounted : Prop := ∀ n m, RoundStart io storage n m → ¬MountedBy m.commands

/-- Where this command is run, at any point of a session, the boot filesystem is not mounted. -/
def RunsUnmounted (command : Command) : Prop :=
  ∀ n calls before status after,
    (point io storage n calls).commands = before ++ (command, status) :: after → ¬MountedBy before

/-- A boot that comes back leaves nothing mounted: no prompt, no command that
writes the boot partition and no further mount meets a mounted filesystem. -/
structure MountsUndone : Prop where
  prompts : PromptsUnmounted io storage
  restores : ∀ command source, command.copies = some (source, .mmcblk0p 1) → RunsUnmounted io storage command
  boots : RunsUnmounted io storage .mountCmd

theorem session_unmounted (stays : ∀ n m, RoundStart io storage n m → ¬BootComesBack io m) :
    PromptsUnmounted io storage := by
  intro n
  induction n with
  | zero =>
    intro m start mounted
    cases start
    exact absurd mounted List.not_mem_nil
  | succ n ih =>
    intro t next mounted
    cases before : session io storage n with
    | mk reached m =>
      cases reached with
      | none =>
        rw [RoundStart, session_stuck io before] at next
        cases next
      | some _ =>
        have split := session_commands_succ io storage n
        rw [show session io storage (n + 1) = (some (), t) from next, before] at split
        obtain ⟨only, mounts⟩ := round_mounts io before
        rw [MountedBy, split] at mounted
        rcases List.mem_append.mp mounted with earlier | latest
        · exact ih m before earlier
        · obtain ⟨boot, zero⟩ := only latest
          obtain ⟨-, back⟩ := mounts boot zero
          rw [show session io storage (n + 1) = (some (), t) from next] at back
          exact stays n m before ⟨boot, back.mp (Option.some_ne_none ())⟩

/-- In the list of an entry nothing is mounted before a mount, nor before a
command that writes the boot partition. -/
theorem Entry.plan_unmounted {entry : Entry} {command : Command} {inner : List Command}
    (part : inner ++ [command] <+: planCommands entry.plan)
    (sensitive : command = .mountCmd ∨ command = .ddBootCmd) : .mountCmd ∉ inner := by
  intro mounts
  have listed : .mountCmd ∈ planCommands entry.plan := part.subset (List.mem_append_left _ mounts)
  have boot : entry = .boot := by
    by_contra other
    exact Entry.plan_mounts other listed
  subst boot
  cases inner with
  | nil => exact absurd mounts List.not_mem_nil
  | cons head tail =>
    obtain ⟨rest, parts⟩ := part
    have behind : tail ++ [command] ++ rest = [.kexecLoadCmd, .kexecExecCmd] := (List.cons.inj parts).2
    have later : command ∈ [Command.kexecLoadCmd, .kexecExecCmd] := by
      rw [← behind]
      simp
    rcases sensitive with rfl | rfl <;> exact absurd later (by decide)

/-- Within a round, a command of the list follows no mount of that round. -/
theorem round_unmounted {n : Nat} {m : Machine Contents} (start : RoundStart io storage n m)
    {inner after : List (Command × Option Int)} {command : Command} {status : Option Int}
    (split : executed (roundEvents io storage n) = inner ++ (command, status) :: after)
    (sensitive : command = .mountCmd ∨ command = .ddBootCmd) : ¬MountedBy inner := by
  have traced := roundEvents_reached io start
  obtain ⟨events, traced', refused, follows⟩ := promptRound_events io m
  have same : roundEvents io storage n = events := List.append_cancel_left (traced.symm.trans traced')
  rw [same] at split
  cases agreed : consent io m.linesRead with
  | none =>
    have nothing := (refused agreed).symm.trans split
    simp at nothing
  | some entry =>
    have initial := (follows entry agreed).initial
    rw [split, List.map_append, List.map_cons] at initial
    have part : inner.map Prod.fst ++ [command] <+: planCommands entry.plan := by
      refine List.IsPrefix.trans ?_ initial
      exact (List.prefix_append_right_inj _).mpr ⟨_, rfl⟩
    intro mounted
    exact Entry.plan_unmounted part sensitive (List.mem_map_of_mem mounted)

theorem session_split (unmounted : PromptsUnmounted io storage) {command : Command}
    (sensitive : command = .mountCmd ∨ command = .ddBootCmd) (n : Nat)
    {before after : List (Command × Option Int)} {status : Option Int}
    (split : (session io storage n).2.commands = before ++ (command, status) :: after) : ¬MountedBy before := by
  induction n generalizing after with
  | zero =>
    have nothing : [] = before ++ (command, status) :: after := split
    simp at nothing
  | succ n ih =>
    cases begun : session io storage n with
    | mk reached m =>
      cases reached with
      | none => exact ih (by rwa [session_stuck io begun, ← begun] at split)
      | some _ =>
        rw [session_commands_succ] at split
        rcases List.append_eq_append_iff.mp split with ⟨inner, earlier, latest⟩ | ⟨later, earlier, latest⟩
        · have fresh : ¬MountedBy (session io storage n).2.commands := by
            rw [begun]
            exact unmounted n m begun
          rw [MountedBy, earlier, List.mem_append]
          exact fun mounted => mounted.elim fresh (round_unmounted io storage begun latest sensitive)
        · cases later with
          | nil =>
            rw [List.append_nil] at earlier
            rw [← earlier, begun]
            exact unmounted n m begun
          | cons first rest =>
            obtain ⟨rfl, -⟩ := List.cons.inj latest
            exact ih earlier

theorem PromptsUnmounted.runs (unmounted : PromptsUnmounted io storage) {command : Command}
    (sensitive : command = .mountCmd ∨ command = .ddBootCmd) : RunsUnmounted io storage command := by
  intro n calls before status after split
  obtain ⟨rest, whole⟩ := executed_mono (point_trace io storage n calls)
  have longer : (session io storage n).2.commands = before ++ (command, status) :: (after ++ rest) := by
    rw [Machine.commands, ← whole, show executed (point io storage n calls).trace = _ from split, List.append_assoc]
    rfl
  exact session_split io storage unmounted sensitive n longer

/-- The mount of a boot is never undone: all is well exactly in the sessions in
which no boot that has mounted comes back. -/
theorem mountsUndone_iff :
    MountsUndone io storage ↔ ∀ n m, RoundStart io storage n m → ¬BootComesBack io m := by
  constructor
  · rintro undone n m start ⟨boot, returns⟩
    obtain ⟨mounted, back⟩ := (round_mounts io start).2 boot returns.1
    cases next : session io storage (n + 1) with
    | mk reached t =>
      cases reached with
      | none => exact back.mpr returns (congrArg Prod.fst next)
      | some _ =>
        refine undone.prompts (n + 1) t next ?_
        have split := session_commands_succ io storage n
        rw [next] at split
        rw [split]
        exact List.mem_append_right _ mounted
  · intro stays
    have unmounted := session_unmounted io storage stays
    refine ⟨unmounted, fun command source copied => ?_, unmounted.runs io storage (Or.inl rfl)⟩
    have writes : command = .ddBootCmd := by
      cases command <;> first | rfl | cases copied
    exact unmounted.runs io storage (Or.inr writes)

end

/-- Entries 1, 2 and 1 are selected and confirmed. The first boot mounts and
fails to load its kernel; the mount of the second one meets the mounted filesystem. -/
def bootRepeated : Inputs Unit where
  lines := fun k =>
    if k = 0 ∨ k = 4 then .line [0x31, 0x0a] else if k = 2 then .line [0x32, 0x0a] else .line [0x79, 0x0a]
  exits := fun k => if k = 1 then some 1 else if k = 4 then some 32 else some 0
  mallocs := fun _ => true
  garbage := fun _ => ()

theorem boot_left_mounted :
    ¬PromptsUnmounted bootRepeated (fun _ => ()) ∧ ¬RunsUnmounted bootRepeated (fun _ => ()) .ddBootCmd ∧
    ¬RunsUnmounted bootRepeated (fun _ => ()) .mountCmd := by
  have commands : (session bootRepeated (fun _ => ()) 3).2.commands =
      [(.mountCmd, some 0), (.kexecLoadCmd, some 1), (.ddBootCmd, some 0), (.ddRootCmd, some 0),
        (.mountCmd, some 32)] := rfl
  obtain ⟨calls, last⟩ := run_eq_runFor (handle bootRepeated) (promptInteractively 3) (Machine.start fun _ => ())
  have ended : (point bootRepeated (fun _ => ()) 3 calls).commands = _ :=
    (congrArg Machine.commands last).trans commands
  refine ⟨fun unmounted => ?_, fun unmounted => ?_, fun unmounted => ?_⟩
  · have mounted : MountedBy (session bootRepeated (fun _ => ()) 1).2.commands := by decide
    exact unmounted 1 _ rfl mounted
  · exact unmounted 3 calls [(.mountCmd, some 0), (.kexecLoadCmd, some 1)] (some 0) _ ended (by decide)
  · exact unmounted 3 calls [(.mountCmd, some 0), (.kexecLoadCmd, some 1), (.ddBootCmd, some 0), (.ddRootCmd, some 0)]
      (some 32) [] ended (by decide)

end FlukeCda.Rescue
