import FlukeCda.Rescue.PlanRun

namespace FlukeCda.Rescue

/-- The commands among some events follow a command list: they are an initial
part of it, nothing comes after a command that did not exit with status 0,
and they are all of it when every status is zero and no allocation failed. -/
structure Follows (commands : List Command) (events : List Event) : Prop where
  initial : (executed events).map Prod.fst <+: commands
  halts : ∀ before entry after, executed events = before ++ entry :: after → after ≠ [] → entry.2 = some 0
  whole : (∀ entry ∈ executed events, entry.2 = some 0) → .allocated none ∉ events →
    (executed events).map Prod.fst = commands

theorem Follows.nil : Follows [] [] := ⟨List.nil_prefix, by simp [executed], by simp [executed]⟩

/-- Events without a command in front change nothing. -/
theorem Follows.quiet_append {commands : List Command} {quiet events : List Event}
    (empty : executed quiet = []) (rest : Follows commands events) : Follows commands (quiet ++ events) := by
  have same : executed (quiet ++ events) = executed events := by rw [executed_append, empty, List.nil_append]
  refine ⟨same ▸ rest.initial, same ▸ rest.halts, fun zero granted => ?_⟩
  rw [same] at zero ⊢
  exact rest.whole zero fun failed => granted (List.mem_append_right _ failed)

/-- A command that exits with status 0 in front of events that follow the rest. -/
theorem Follows.command_append {command : Command} {commands : List Command} {first events : List Event}
    (ran : executed first = [(command, some 0)]) (rest : Follows commands events) :
    Follows (command :: commands) (first ++ events) := by
  have split : executed (first ++ events) = (command, some 0) :: executed events := by
    rw [executed_append, ran, List.singleton_append]
  refine ⟨?_, ?_, ?_⟩
  · rw [split, List.map_cons]
    exact (List.prefix_cons_inj command).mpr rest.initial
  · intro before entry after parts more
    rw [split] at parts
    cases before with
    | nil =>
      obtain ⟨same, _⟩ := List.cons.inj parts
      rw [← same]
    | cons head tail => exact rest.halts tail entry after (List.cons.inj parts).2 more
  · intro zero granted
    rw [split] at zero ⊢
    have tail := rest.whole (fun entry member => zero entry (List.mem_cons_of_mem _ member))
      (fun failed => granted (List.mem_append_right _ failed))
    rw [List.map_cons, tail]

/-- A last command whose status is not zero. -/
theorem Follows.last {command : Command} {commands : List Command} {status : Option Int} {events : List Event}
    (ran : executed events = [(command, status)]) (nonzero : status ≠ some 0) :
    Follows (command :: commands) events := by
  refine ⟨?_, ?_, ?_⟩
  · rw [ran]
    exact ⟨commands, rfl⟩
  · intro before entry after parts more
    rw [ran] at parts
    have lengths := congrArg List.length parts
    have positive := List.length_pos_of_ne_nil more
    simp only [List.length_cons, List.length_nil, List.length_append] at lengths
    omega
  · intro zero
    exact absurd (zero (command, status) (by simp [ran])) nonzero

/-- An allocation that failed before anything ran. -/
theorem Follows.refused {commands : List Command} {events : List Event}
    (empty : executed events = []) (failed : .allocated none ∈ events) : Follows commands events := by
  refine ⟨?_, ?_, fun _ granted => absurd failed granted⟩
  · rw [empty]
    exact List.nil_prefix
  · intro before entry after parts
    rw [empty] at parts
    simp at parts

theorem executed_systemEvents (command : Command) (status : Option Int) :
    executed (systemEvents command status) = [(command, status)] := by
  cases status with
  | none => rfl
  | some status =>
    simp only [systemEvents, executed]
    split_ifs <;> rfl

section
variable {Contents : Type} (io : Inputs Contents) (m : Machine Contents)

theorem executed_formatted (command : Command) (granted : io.mallocs m.mallocCalls = true) :
    executed ((Step.runFormatted command).events io m) = [(command, io.exits m.commandsRun)] := by
  have freed : ∀ buffer,
      executed (if (io.exits m.commandsRun).isSome then [Event.freed buffer] else []) = [] := by
    intro buffer
    split_ifs <;> rfl
  simp only [Step.events, granted, if_true, List.cons_append, executed, executed_append,
    executed_systemEvents, freed, List.append_nil]

/-- What a step has executed when the plan goes on after it. -/
theorem Step.executed_passed (step : Step) (passed : step.result io m = some 0) :
    executed (step.events io m) = step.command.toList.map fun command => (command, some 0) := by
  cases step with
  | run command =>
    change io.exits m.commandsRun = some 0 at passed
    simp [Step.events, executed_systemEvents, Step.command, passed]
  | runFormatted command =>
    by_cases granted : io.mallocs m.mallocCalls = true
    · simp only [Step.result, granted, if_true] at passed
      rw [executed_formatted io m command granted, passed]
      rfl
    · simp [Step.result, granted] at passed
  | success => rfl

/-- A step the plan stops at follows every list that begins with its command. -/
theorem Step.follows_stopped (step : Step) (commands : List Command) (stopped : step.result io m ≠ some 0) :
    Follows (step.command.toList ++ commands) (step.events io m) := by
  cases step with
  | run command => exact Follows.last (executed_systemEvents command _) stopped
  | runFormatted command =>
    by_cases granted : io.mallocs m.mallocCalls = true
    · simp only [Step.result, granted, if_true] at stopped
      exact Follows.last (executed_formatted io m command granted) stopped
    · refine Follows.refused ?_ ?_ <;> simp [Step.events, granted, executed]
  | success => exact absurd rfl stopped

end

/-- Every run of a plan appends events that follow the commands of the plan. -/
theorem planRun_follows {Contents : Type} (io : Inputs Contents) (steps : List Step) (m : Machine Contents) :
    ∃ events, (planRun io steps m).2.trace = m.trace ++ events ∧ Follows (planCommands steps) events := by
  induction steps generalizing m with
  | nil => exact ⟨[], (List.append_nil _).symm, Follows.nil⟩
  | cons step rest ih =>
    have trace := step.after_trace io m
    have commands : planCommands (step :: rest) = step.command.toList ++ planCommands rest := by
      cases step <;> rfl
    rw [commands]
    by_cases passed : step.result io m = some 0
    · obtain ⟨events, traced, follows⟩ := ih (step.after io m)
      refine ⟨step.events io m ++ events, ?_, ?_⟩
      · simp only [planRun, passed, if_true, traced, trace, List.append_assoc]
      · have ran := step.executed_passed io m passed
        cases named : step.command with
        | none => exact follows.quiet_append (by simpa [named] using ran)
        | some command => exact follows.command_append (by simpa [named] using ran)
    · refine ⟨step.events io m, ?_, step.follows_stopped io m _ passed⟩
      simp only [planRun, passed, if_false, trace]

end FlukeCda.Rescue
