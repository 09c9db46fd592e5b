import FlukeCda.Rescue.Groups

namespace FlukeCda.Rescue
open Interaction Program

section Lines
variable {Contents : Type} (io : Inputs Contents)

/-- The entry the line at a stream position selects, read as a menu line. -/
def entryAt (position : Nat) : Option Entry :=
  match io.lines position with
  | .line bytes => Entry.ofSelection (strtol bytes)
  | .failed _ _ => none

/-- The line at a stream position was read and begins with 1, y or Y. -/
def confirmedAt (position : Nat) : Bool :=
  match io.lines position with
  | .line bytes => bytes.head?.any confirms
  | .failed _ _ => false

/-- The entry a menu line at this position executes, given the line after it. -/
def consent (position : Nat) : Option Entry :=
  if confirmedAt io (position + 1) then entryAt io position else none

/-- A valid selection also consumes the line after it. -/
def nextMenu (position : Nat) : Nat := if (entryAt io position).isSome then position + 2 else position + 1

/-- Stream position of the menu line of each round. -/
def menuPosition : Nat → Nat
  | 0 => 0
  | round + 1 => nextMenu io (menuPosition round)

end Lines

/-- Nothing but input and output: some lines are read, nothing is executed,
allocated by the program or reported as a success. -/
structure Quiet {Contents : Type} (m t : Machine Contents) (lines : Nat) : Prop where
  linesRead : t.linesRead = m.linesRead + lines
  commandsRun : t.commandsRun = m.commandsRun
  mallocCalls : t.mallocCalls = m.mallocCalls
  storage : t.storage = m.storage
  trace : ∃ events, t.trace = m.trace ++ events ∧ executed events = [] ∧ .allocated none ∉ events ∧
    .printed successText ∉ events

namespace Quiet
variable {Contents : Type} {m t u : Machine Contents}

theorem trans {first second : Nat} (h : Quiet m t first) (h' : Quiet t u second) :
    Quiet m u (first + second) := by
  obtain ⟨events, traced, none, granted, silent⟩ := h.trace
  obtain ⟨events', traced', none', granted', silent'⟩ := h'.trace
  refine ⟨by rw [h'.linesRead, h.linesRead, Nat.add_assoc], h'.commandsRun.trans h.commandsRun,
    h'.mallocCalls.trans h.mallocCalls, h'.storage.trans h.storage, events ++ events', ?_, ?_, ?_, ?_⟩
  · rw [traced', traced, List.append_assoc]
  · rw [executed_append, none, none', List.nil_append]
  · exact fun member => (List.mem_append.mp member).elim granted granted'
  · exact fun member => (List.mem_append.mp member).elim silent silent'

/-- Appending events that say nothing about commands, allocations or success. -/
theorem of_events (events : List Event) (none : executed events = []) (granted : .allocated .none ∉ events)
    (silent : .printed successText ∉ events) : Quiet m { m with trace := m.trace ++ events } 0 :=
  ⟨rfl, rfl, rfl, rfl, events, rfl, none, granted, silent⟩

theorem printed (text : String) (other : text ≠ successText) : Quiet m (m.log (.printed text)) 0 :=
  of_events [.printed text] rfl (by simp) (by simpa using other.symm)

theorem reported (text : String) : Quiet m (m.log (.reported text)) 0 :=
  of_events [.reported text] rfl (by simp) (by simp)

theorem freed (buffer : Option Nat) : Quiet m (m.log (.freed buffer)) 0 :=
  of_events [.freed buffer] rfl (by simp) (by simp)

theorem getline (io : Inputs Contents) (m : Machine Contents) : Quiet m (m.getline io).2 1 := by
  unfold Machine.getline
  split <;> exact ⟨rfl, rfl, rfl, rfl, [_], rfl, rfl, by simp, by simp⟩

end Quiet

def menuEvents : Nat → List String → List Event
  | _, [] => []
  | i, option :: rest => .printed s!"{i + 1}) {option}.\n" :: menuEvents (i + 1) rest

theorem printMenu_run {Contents : Type} (io : Inputs Contents) (i : Nat) (options : List String)
    (m : Machine Contents) :
    (printMenu i options).run (handle io) m =
      (some (), { m with trace := m.trace ++ menuEvents i options }) := by
  induction options generalizing i m with
  | nil => simp only [printMenu, run_pure, menuEvents, List.append_nil]
  | cons option rest ih =>
    simp only [printMenu, printf, perform_bind, run, handle_printf, ih, menuEvents, Machine.log,
      List.append_assoc, List.singleton_append]

section Interactive
variable {Contents : Type} (io : Inputs Contents)

theorem getline_line {m : Machine Contents} (bytes : List UInt8) (line : io.lines m.linesRead = .line bytes) :
    (m.getline io).1.retval = bytes.length ∧ (m.getline io).1.bytes = bytes := by
  simp only [Machine.getline, line, and_self]

theorem getline_failed {m : Machine Contents} (errno : Int) (allocated : Bool)
    (line : io.lines m.linesRead = .failed errno allocated) : (m.getline io).1.retval = -1 := by
  cases allocated <;> simp only [Machine.getline, line]

/-- The question is answered with a zero return and `*confirmed` set exactly
when the next line says so; nothing is executed meanwhile. -/
theorem confirmSelection_run (m : Machine Contents) :
    ∃ retval t, confirmSelection.run (handle io) m =
    (some (retval, if confirmedAt io m.linesRead then 1 else 0), t) ∧
      (confirmedAt io m.linesRead = true → retval = 0) ∧ Quiet m t 1 := by
  have asked : Quiet m (m.log (.printed "Enter \"y\" or \"1\" to confirm and execute commands > ")) 0 :=
    .printed _ (by decide)
  have refused : ∀ t : Machine Contents, Quiet t (t.log (.printed "Execution NOT confirmed.\n")) 0 :=
    fun _ => .printed _ (by decide)
  simp only [confirmSelection, printf, fprintf, FlukeCda.Rescue.getline, free, perform_bind, run,
    handle_printf, handle_getline]
  revert asked
  generalize questioned : m.log (.printed _) = q
  intro asked
  have sameLine : q.linesRead = m.linesRead := asked.linesRead
  have answered := asked.trans (Quiet.getline io q)
  have reply := getline_line io (m := q)
  have failure := getline_failed io (m := q)
  revert answered reply failure
  generalize q.getline io = got
  intro answered reply failure
  rw [sameLine] at reply failure
  unfold confirmedAt
  cases line : io.lines m.linesRead with
  | failed errno allocated =>
    refine ⟨-1, _, ?_, by simp, answered.trans (.reported s!"getline returned error, errno={got.1.errno}\n")⟩
    simp [failure _ _ line, run]
  | line bytes =>
    obtain ⟨length, content⟩ := reply _ line
    have nonnegative : ¬ (bytes.length : Int) < 0 := by omega
    cases bytes with
    | nil =>
      refine ⟨0, _, ?_, fun _ => rfl, (answered.trans (refused _)).trans (.freed got.1.buffer)⟩
      simp [length, run]
    | cons c rest =>
      have positive : ((c :: rest).length : Int) ≥ 1 := by simp only [List.length_cons]; omega
      by_cases yes : confirms c = true
      · refine ⟨0, _, ?_, fun _ => rfl, answered.trans (.freed got.1.buffer)⟩
        simp only [length, content, nonnegative, positive, if_false, if_true, List.head?_cons,
          Option.any_some, yes, run, handle_free, run_pure]
      · refine ⟨0, _, ?_, fun _ => rfl, (answered.trans (refused _)).trans (.freed got.1.buffer)⟩
        simp only [length, content, nonnegative, positive, if_false, if_true, List.head?_cons,
          Option.any_some, yes, run, Bool.false_eq_true, handle_printf, handle_free, run_pure]

theorem doInteractive_confirmed (action : Code Int) {m : Machine Contents}
    (yes : confirmedAt io m.linesRead = true) :
    ∃ t, Quiet m t 1 ∧ (doInteractive action).run (handle io) m = action.run (handle io) t := by
  obtain ⟨retval, t, ran, zero, quiet⟩ := confirmSelection_run io m
  refine ⟨t, quiet, ?_⟩
  unfold doInteractive
  rw [run_bind_some (handle io) ran, zero yes, yes]
  rfl

theorem doInteractive_unconfirmed (action : Code Int) {m : Machine Contents}
    (no : confirmedAt io m.linesRead = false) :
    ∃ result t, (doInteractive action).run (handle io) m = (some result, t) ∧ Quiet m t 1 := by
  obtain ⟨retval, t, ran, _, quiet⟩ := confirmSelection_run io m
  refine ⟨if retval < 0 then retval else 0, t, ?_, quiet⟩
  unfold doInteractive
  rw [run_bind_some (handle io) ran, no]
  by_cases failed : retval < 0 <;> simp [failed]

theorem selected_ne_success (option : String) : selectedText option ≠ successText := by
  intro same
  have head := congrArg (fun text : String => text.toList.head?) same
  change ("\nYou have selected \"" ++ option ++ "\".\n").toList.head? = successText.toList.head? at head
  simp [String.toList_append, successText] at head

/-- The part of a round after its menu line was read. -/
def afterMenu (reply : GetlineReply) : Code Unit := do
  if reply.retval < 0 then
    free reply.buffer
    fprintf s!"getline returned error, errno={reply.errno}\n"
  else
    let selection := strtol reply.bytes
    if selection > 0 ∧ selection ≤ mainMenuOptions.length then
      printf (selectedText (mainMenuOptions.getD (selection - 1).toNat ""))
    switchSelection selection
  free reply.buffer

theorem promptRound_menu (m : Machine Contents) :
    ∃ q, Quiet m q 0 ∧
      promptRound.run (handle io) m = (afterMenu (q.getline io).1).run (handle io) (q.getline io).2 := by
  have opened : Quiet m (m.log (.printed "\nSelect one of the following actions by number:\n")) 0 :=
    .printed _ (by decide)
  have listed : ∀ t : Machine Contents, Quiet t { t with trace := t.trace ++ menuEvents 0 mainMenuOptions } 0 :=
    fun _ => .of_events _ (by decide) (by decide) (by decide)
  have prompted : ∀ t : Machine Contents, Quiet t (t.log (.printed "> ")) 0 := fun _ => .printed _ (by decide)
  refine ⟨_, (opened.trans (listed _)).trans (prompted _), ?_⟩
  simp only [promptRound, printf, FlukeCda.Rescue.getline, perform_bind, run, handle_printf]
  rw [run_bind_some (handle io) (printMenu_run io _ _ _)]
  rfl

/-- A menu line that was read leads to the switch over its number. -/
theorem promptRound_line {m : Machine Contents} {bytes : List UInt8}
    (line : io.lines m.linesRead = .line bytes) :
    ∃ t buffer, Quiet m t 1 ∧ promptRound.run (handle io) m =
      (switchSelection (strtol bytes) >>= fun _ => free buffer).run (handle io) t := by
  obtain ⟨q, opened, ran⟩ := promptRound_menu io m
  have sameLine : io.lines q.linesRead = .line bytes := by rw [opened.linesRead]; exact line
  obtain ⟨length, content⟩ := getline_line io _ sameLine
  have answered := opened.trans (Quiet.getline io q)
  have nonnegative : ¬ (q.getline io).1.retval < 0 := by omega
  by_cases valid : strtol bytes > 0 ∧ strtol bytes ≤ mainMenuOptions.length
  · refine ⟨_, (q.getline io).1.buffer,
      answered.trans (.printed _ (selected_ne_success (mainMenuOptions.getD (strtol bytes - 1).toNat ""))), ?_⟩
    rw [ran, afterMenu]
    simp only [nonnegative, if_false, content, valid, and_self, if_true, printf,
      perform_bind, run, handle_printf]
  · refine ⟨_, (q.getline io).1.buffer, answered, ?_⟩
    rw [ran, afterMenu]
    simp only [nonnegative, if_false, content, valid]

/-- A round without consent executes nothing and allocates nothing. -/
theorem promptRound_refused {m : Machine Contents} (refused : consent io m.linesRead = none) :
    ∃ t, promptRound.run (handle io) m = (some (), t) ∧ Quiet m t (nextMenu io m.linesRead - m.linesRead) := by
  cases line : io.lines m.linesRead with
  | failed errno allocated =>
    obtain ⟨q, opened, ran⟩ := promptRound_menu io m
    have negative : (q.getline io).1.retval < 0 := by
      rw [getline_failed io _ _ (by rw [opened.linesRead]; exact line)]
      decide
    have answered := opened.trans (Quiet.getline io q)
    have next : nextMenu io m.linesRead - m.linesRead = 1 := by simp [nextMenu, entryAt, line]
    have quiet := ((answered.trans (.freed (q.getline io).1.buffer)).trans
      (.reported s!"getline returned error, errno={(q.getline io).1.errno}\n")).trans (.freed (q.getline io).1.buffer)
    rw [next]
    refine ⟨_, ?_, quiet⟩
    rw [ran, afterMenu]
    simp only [negative, if_true, free, fprintf, perform_bind, run, handle_free, handle_fprintf]
    rfl
  | line bytes =>
    obtain ⟨t, buffer, answered, ran⟩ := promptRound_line io line
    have entry : entryAt io m.linesRead = Entry.ofSelection (strtol bytes) := by simp only [entryAt, line]
    rw [switchSelection_eq_plan, ← entry] at ran
    cases selected : entryAt io m.linesRead with
    | none =>
      have next : nextMenu io m.linesRead - m.linesRead = 1 := by simp [nextMenu, selected]
      have quiet := (answered.trans (.printed "Invalid selection.\n" (by decide))).trans (.freed buffer)
      rw [next]
      refine ⟨_, ?_, quiet⟩
      simp only [ran, selected, printf, perform_bind, run, handle_printf]
      rfl
    | some chosen =>
      have unconfirmed : confirmedAt io t.linesRead = false := by
        rw [answered.linesRead]
        by_contra confirmed
        simp [consent, confirmed, selected] at refused
      have next : nextMenu io m.linesRead - m.linesRead = 2 := by simp [nextMenu, selected]
      obtain ⟨result, u, ran', quiet⟩ := doInteractive_unconfirmed io (planCode chosen.plan) unconfirmed
      have quiet' := (answered.trans quiet).trans (.freed buffer)
      rw [next]
      refine ⟨_, ?_, quiet'⟩
      simp only [ran, selected, bind_assoc, run_bind_some (handle io) ran']
      rfl

/-- A round with consent reads its two lines and runs the plan of its entry. -/
theorem promptRound_consented {m : Machine Contents} {entry : Entry}
    (consented : consent io m.linesRead = some entry) :
    ∃ t buffer, Quiet m t 2 ∧ promptRound.run (handle io) m =
      match planRun io entry.plan t with
      | (some _, u) => (some (), u.log (.freed buffer))
      | (none, u) => (none, u) := by
  have confirmed : confirmedAt io (m.linesRead + 1) = true ∧ entryAt io m.linesRead = some entry := by
    unfold consent at consented
    split at consented
    · exact ⟨‹_›, consented⟩
    · simp at consented
  cases line : io.lines m.linesRead with
  | failed errno allocated => simp [entryAt, line] at confirmed
  | line bytes =>
    obtain ⟨q, buffer, answered, ran⟩ := promptRound_line io line
    have selected : Entry.ofSelection (strtol bytes) = some entry := by
      rw [← confirmed.2]
      simp only [entryAt, line]
    obtain ⟨t, quiet, ran'⟩ := doInteractive_confirmed io (planCode entry.plan) (m := q)
      (by rw [answered.linesRead]; exact confirmed.1)
    refine ⟨t, buffer, answered.trans quiet, ?_⟩
    rw [planCode_run] at ran'
    rw [ran, switchSelection_eq_plan, selected]
    simp only [bind_assoc, Program.pure_bind]
    cases outcome : planRun io entry.plan t with
    | mk result u =>
      cases result with
      | none => rw [run_bind_none (handle io) (ran'.trans outcome)]
      | some result =>
        rw [run_bind_some (handle io) (ran'.trans outcome)]
        rfl

end Interactive
end FlukeCda.Rescue
