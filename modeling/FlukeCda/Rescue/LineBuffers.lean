import FlukeCda.Rescue.Session

/-! # The buffers of the input lines

Each `getline` is given a null pointer, so a buffer it leaves is a new one. The
program has to free it, once, before the loop turns or the function returns.
-/

namespace FlukeCda.Rescue
open Interaction Program

/-- What happens to a buffer. -/
inductive Use
  | line (buffer : Nat)
  | block (buffer : Nat)
  | freed (buffer : Nat)
  deriving DecidableEq

def Use.buffer : Use → Nat
  | line buffer | block buffer | freed buffer => buffer

def Use.allocates : Use → Bool
  | line _ | block _ => true
  | freed _ => false

def Event.use : Event → Option Use
  | .read _ (some buffer) => some (.line buffer)
  | .allocated (some buffer) => some (.block buffer)
  | .freed (some buffer) => some (.freed buffer)
  | _ => none

def uses (events : List Event) : List Use := events.filterMap Event.use

/-- Every line buffer is freed, and only once. -/
def FreedOnce (used : List Use) : Prop := ∀ buffer, Use.line buffer ∈ used → used.count (.freed buffer) = 1

/-- No line buffer is freed a second time. -/
def NeverTwice (used : List Use) : Prop := ∀ buffer, Use.line buffer ∈ used → used.count (.freed buffer) ≤ 1

/-- What happened between two states of the machine. -/
def since {Contents : Type} (m t : Machine Contents) : List Use := uses (t.trace.drop m.trace.length)

section
variable {Contents : Type} (io : Inputs Contents)

/-- The promise for one round: its line buffers are freed when the loop turns,
and those of each call of `confirm_selection` when that returns. -/
structure RoundAccounted (m : Machine Contents) : Prop where
  looped : ∀ t, promptRound.run (handle io) m = (some (), t) → FreedOnce (since m t)
  returned : ∀ (next : Int × Int → Code Unit) q, Reaches (handle io) promptRound m (confirmSelection >>= next) q →
    ∀ answer t, confirmSelection.run (handle io) q = (some answer, t) → FreedOnce (since q t)

/-- The promise for a session, however long it is watched. -/
structure SessionAccounted (storage : File → Contents) : Prop where
  rounds : ∀ n m, RoundStart io storage n m → RoundAccounted io m
  never_twice : ∀ n, NeverTwice (uses (session io storage n).2.trace)

end

/-- A `getline` that fails and leaves a buffer all the same. -/
def GetlineResult.FailsAllocated (result : GetlineResult) : Prop := ∃ errno, result = .failed errno true

/-- The buffer that `getline` leaves when the next one is `fresh`. -/
def GetlineResult.buffer : GetlineResult → Nat → Option Nat
  | .line _, fresh | .failed _ true, fresh => some fresh
  | .failed _ false, _ => none

def linesOf (buffer : Option Nat) : List Use := buffer.toList.map .line
def freesOf (buffer : Option Nat) : List Use := buffer.toList.map .freed

theorem uses_append (xs ys : List Event) : uses (xs ++ ys) = uses xs ++ uses ys := List.filterMap_append

/-- From one state of the machine to a later one: the lines read and what was
done with buffers. -/
structure Passes {Contents : Type} (m t : Machine Contents) (lines : Nat) (used : List Use) : Prop where
  linesRead : t.linesRead = m.linesRead + lines
  buffers : t.buffers = m.buffers + used.countP Use.allocates
  trace : ∃ events, t.trace = m.trace ++ events ∧ uses events = used

namespace Passes
variable {Contents : Type} {m t u : Machine Contents}

theorem trans {lines lines' : Nat} {used used' : List Use} (first : Passes m t lines used)
    (second : Passes t u lines' used') : Passes m u (lines + lines') (used ++ used') := by
  obtain ⟨events, traced, same⟩ := first.trace
  obtain ⟨events', traced', same'⟩ := second.trace
  refine ⟨?_, ?_, events ++ events', ?_, ?_⟩
  · rw [second.linesRead, first.linesRead, Nat.add_assoc]
  · rw [second.buffers, first.buffers, List.countP_append, Nat.add_assoc]
  · rw [traced', traced, List.append_assoc]
  · rw [uses_append, same, same']

theorem refl (m : Machine Contents) : Passes m m 0 [] := ⟨rfl, rfl, [], (List.append_nil _).symm, rfl⟩

theorem quiet {lines : Nat} {used : List Use} (first : Passes m t lines used) (second : Passes t u 0 []) :
    Passes m u lines used := by
  have both := first.trans second
  rwa [List.append_nil] at both

theorem since_eq {lines : Nat} {used : List Use} (passes : Passes m t lines used) : since m t = used := by
  obtain ⟨events, traced, same⟩ := passes.trace
  rw [since, traced, List.drop_left, same]

/-- Events that allocate nothing. -/
theorem of_events (events : List Event) (nothing : (uses events).countP Use.allocates = 0) :
    Passes m { m with trace := m.trace ++ events } 0 (uses events) :=
  ⟨rfl, by rw [nothing]; rfl, events, rfl, rfl⟩

theorem printed (text : String) : Passes m (m.log (.printed text)) 0 [] := of_events [.printed text] rfl

theorem reported (text : String) : Passes m (m.log (.reported text)) 0 [] := of_events [.reported text] rfl

theorem freed (buffer : Option Nat) : Passes m (m.log (.freed buffer)) 0 (freesOf buffer) := by
  cases buffer with
  | none => exact of_events [.freed none] rfl
  | some buffer => exact of_events [.freed (some buffer)] rfl

theorem getline (io : Inputs Contents) (m : Machine Contents) :
    Passes m (m.getline io).2 1 (linesOf ((io.lines m.linesRead).buffer m.buffers)) := by
  unfold Machine.getline
  split
  all_goals
    rename_i line
    rw [line]
    exact ⟨rfl, rfl, [_], rfl, rfl⟩

end Passes

theorem getline_buffer {Contents : Type} (io : Inputs Contents) (m : Machine Contents) :
    (m.getline io).1.buffer = (io.lines m.linesRead).buffer m.buffers := by
  unfold Machine.getline
  split
  all_goals
    rename_i line
    rw [line]
    rfl

theorem menuEvents_uses (i : Nat) (options : List String) : uses (menuEvents i options) = [] := by
  induction options generalizing i with
  | nil => rfl
  | cons option rest ih => exact ih (i + 1)

section Confirm
variable {Contents : Type} (io : Inputs Contents)

/-- What one call of `confirm_selection` does with buffers. -/
def confirmUses : GetlineResult → Nat → List Use
  | .line _, fresh => [.line fresh, .freed fresh]
  | .failed errno allocated, fresh => linesOf ((GetlineResult.failed errno allocated).buffer fresh)

theorem confirmSelection_passes (m : Machine Contents) :
    ∃ answer t, confirmSelection.run (handle io) m = (some answer, t) ∧
      Passes m t 1 (confirmUses (io.lines m.linesRead) m.buffers) := by
  have asked : Passes m (m.log (.printed "Enter \"y\" or \"1\" to confirm and execute commands > ")) 0 [] :=
    .printed _
  simp only [confirmSelection, printf, fprintf, FlukeCda.Rescue.getline, free, perform_bind, run,
    handle_printf, handle_getline]
  revert asked
  generalize questioned : m.log (.printed _) = q
  intro asked
  have sameLine : q.linesRead = m.linesRead := asked.linesRead
  have sameBuffers : q.buffers = m.buffers := asked.buffers
  have answered := asked.trans (Passes.getline io q)
  have given := getline_buffer io q
  have reply := getline_line io (m := q)
  have failure := getline_failed io (m := q)
  revert answered given reply failure
  generalize q.getline io = got
  intro answered given reply failure
  rw [sameLine] at reply failure
  rw [sameLine, sameBuffers] at answered given
  cases line : io.lines m.linesRead with
  | failed errno allocated =>
    rw [line] at answered
    simp only [failure _ _ line]
    exact ⟨_, _, rfl, answered.quiet (.reported _)⟩
  | line bytes =>
    obtain ⟨length, content⟩ := reply _ line
    have nonnegative : ¬(bytes.length : Int) < 0 := by omega
    rw [line] at answered given
    have freeing : ∀ t : Machine Contents, Passes t (t.log (.freed got.1.buffer)) 0 [.freed m.buffers] := by
      intro t
      rw [given]
      exact .freed _
    simp only [length, content, nonnegative, if_false]
    split_ifs
    · exact ⟨_, _, rfl, answered.trans (freeing _)⟩
    · exact ⟨_, _, rfl, (answered.quiet (.printed _)).trans (freeing _)⟩
    · exact ⟨_, _, rfl, (answered.quiet (.printed _)).trans (freeing _)⟩

/-- Then either the entry returns, or its action is what is left. -/
theorem doInteractive_passes (action : Code Int) (m : Machine Contents) :
    ∃ t, Passes m t 1 (confirmUses (io.lines m.linesRead) m.buffers) ∧
      ((∃ result, (doInteractive action).run (handle io) m = (some result, t)) ∨
        (doInteractive action).run (handle io) m = action.run (handle io) t) := by
  obtain ⟨⟨retval, confirmed⟩, t, ran, passes⟩ := confirmSelection_passes io m
  refine ⟨t, passes, ?_⟩
  unfold doInteractive
  rw [run_bind_some (handle io) ran]
  by_cases failed : retval < 0
  · exact Or.inl ⟨retval, by simp only [failed, if_true, run_pure]⟩
  · by_cases yes : confirmed = 0
    · exact Or.inl ⟨0, by simp only [failed, yes, ne_eq, not_true_eq_false, if_false, run_pure]⟩
    · exact Or.inr (by simp only [failed, ne_eq, yes, not_false_eq_true, if_false, if_true])

/-- Only buffers with a number in this range. -/
def Within (low high : Nat) (used : List Use) : Prop := ∀ use ∈ used, low ≤ use.buffer ∧ use.buffer < high

/-- Blocks of the program itself, with numbers in this range. -/
structure Blocks (low high : Nat) (used : List Use) : Prop where
  within : Within low high used
  no_line : ∀ buffer, .line buffer ∉ used

theorem Within.append {low middle high : Nat} {used more : List Use} (first : Within low middle used)
    (second : Within middle high more) (less : low ≤ middle) (greater : middle ≤ high) :
    Within low high (used ++ more) := by
  intro use member
  rcases List.mem_append.mp member with early | late
  · exact ⟨(first use early).1, (first use early).2.trans_le greater⟩
  · exact ⟨less.trans (second use late).1, (second use late).2⟩

theorem Blocks.nil {low high : Nat} : Blocks low high [] :=
  ⟨fun _ absent => absurd absent List.not_mem_nil, fun _ => List.not_mem_nil⟩

theorem Blocks.append {low middle high : Nat} {used more : List Use} (first : Blocks low middle used)
    (second : Blocks middle high more) (less : low ≤ middle) (greater : middle ≤ high) :
    Blocks low high (used ++ more) := by
  refine ⟨first.within.append second.within less greater, fun buffer member => ?_⟩
  rcases List.mem_append.mp member with early | late
  · exact first.no_line buffer early
  · exact second.no_line buffer late

theorem systemEvents_uses (command : Command) (status : Option Int) : uses (systemEvents command status) = [] := by
  cases status with
  | none => rfl
  | some status =>
    simp only [systemEvents]
    split_ifs <;> rfl

theorem formatted_uses (command : Command) (m : Machine Contents) :
    uses ((Step.runFormatted command).events io m) =
      if io.mallocs m.mallocCalls then
        .block m.buffers :: if (io.exits m.commandsRun).isSome then [.freed m.buffers] else []
      else [] := by
  simp only [Step.events]
  split_ifs
  · rw [uses_append]
    change Use.block m.buffers :: uses (systemEvents command _) ++ [.freed m.buffers] = _
    rw [systemEvents_uses]
    rfl
  · rw [List.append_nil]
    exact congrArg (Use.block m.buffers :: ·) (systemEvents_uses command _)
  · rfl

theorem Step.passes (step : Step) (m : Machine Contents) :
    ∃ used, Passes m (step.after io m) 0 used ∧ Blocks m.buffers (step.after io m).buffers used := by
  have trace := step.after_trace io m
  cases step with
  | run command => exact ⟨[], ⟨rfl, rfl, _, trace, systemEvents_uses command _⟩, .nil⟩
  | success => exact ⟨[], ⟨rfl, rfl, _, trace, rfl⟩, .nil⟩
  | runFormatted command =>
    have used := formatted_uses io command m
    have lines := (Step.runFormatted command).after_linesRead io m
    have buffers : ((Step.runFormatted command).after io m).buffers =
        if io.mallocs m.mallocCalls then m.buffers + 1 else m.buffers := by
      simp only [Step.after, Machine.afterFormatted, Machine.malloc]
      split_ifs <;> rfl
    refine ⟨_, ⟨lines, ?_, _, trace, used⟩, ?_⟩
    · rw [buffers]
      split_ifs <;> rfl
    · rw [buffers]
      split_ifs
      · constructor <;> simp [Within, Use.buffer]
      · constructor <;> simp [Within, Use.buffer]
      · exact .nil

theorem Passes.grows {m t : Machine Contents} {lines : Nat} {used : List Use} (passes : Passes m t lines used) :
    m.buffers ≤ t.buffers := by
  rw [passes.buffers]
  exact Nat.le_add_right _ _

/-- A plan touches blocks it has allocated itself. -/
theorem planRun_passes (steps : List Step) (m : Machine Contents) :
    ∃ used, Passes m (planRun io steps m).2 0 used ∧ Blocks m.buffers (planRun io steps m).2.buffers used := by
  induction steps generalizing m with
  | nil => exact ⟨[], .refl m, .nil⟩
  | cons step rest ih =>
    obtain ⟨used, passes, blocks⟩ := step.passes io m
    simp only [planRun]
    split_ifs
    · obtain ⟨more, passes', blocks'⟩ := ih (step.after io m)
      exact ⟨used ++ more, passes.trans passes', blocks.append blocks' passes.grows passes'.grows⟩
    · exact ⟨used, passes, blocks⟩

end Confirm

section Round
variable {Contents : Type} (io : Inputs Contents)

theorem promptRound_opens (m : Machine Contents) :
    ∃ q, Passes m q 0 [] ∧
      Reaches (handle io) promptRound m (afterMenu (q.getline io).1) (q.getline io).2 := by
  have opened : Passes m (m.log (.printed "\nSelect one of the following actions by number:\n")) 0 [] := .printed _
  have listed : ∀ t : Machine Contents, Passes t { t with trace := t.trace ++ menuEvents 0 mainMenuOptions } 0 [] :=
    fun _ => ⟨rfl, rfl, _, rfl, menuEvents_uses 0 mainMenuOptions⟩
  refine ⟨_, (opened.quiet (listed _)).quiet (.printed "> "), ?_⟩
  simp only [promptRound, printf, FlukeCda.Rescue.getline, perform_bind]
  refine .step (handle_printf io _ _) (.trans (.of_run_bind (printMenu_run io _ _ _)) ?_)
  exact .step (handle_printf io _ _) (.step (handle_getline io _) (.here _ _))

/-- A failing `getline`: the buffer is freed in the branch and at the end of the loop. -/
theorem promptRound_failed {m : Machine Contents} {errno : Int} {allocated : Bool}
    (line : io.lines m.linesRead = .failed errno allocated) :
    ∃ t, promptRound.run (handle io) m = (some (), t) ∧
      Passes m t 1 (linesOf ((GetlineResult.failed errno allocated).buffer m.buffers) ++
        freesOf ((GetlineResult.failed errno allocated).buffer m.buffers) ++
        freesOf ((GetlineResult.failed errno allocated).buffer m.buffers)) := by
  obtain ⟨q, opened, reaches⟩ := promptRound_opens io m
  have sameLine : io.lines q.linesRead = .failed errno allocated := by rw [opened.linesRead]; exact line
  have sameBuffers : q.buffers = m.buffers := opened.buffers
  have negative : (q.getline io).1.retval < 0 := by
    rw [getline_failed io _ _ sameLine]
    decide
  have answered := opened.trans (Passes.getline io q)
  have given := getline_buffer io q
  rw [sameLine, sameBuffers] at answered given
  have freeing : ∀ t : Machine Contents, Passes t (t.log (.freed (q.getline io).1.buffer)) 0
      (freesOf ((GetlineResult.failed errno allocated).buffer m.buffers)) := by
    intro t
    rw [given]
    exact .freed _
  refine ⟨_, ?_, ((answered.trans (freeing _)).quiet
    (.reported s!"getline returned error, errno={(q.getline io).1.errno}\n")).trans (freeing _)⟩
  rw [reaches.run_eq, afterMenu]
  simp only [negative, if_true, free, fprintf, perform_bind, run, handle_free, handle_fprintf]
  rfl

/-- A line that was read leads to the switch over its number. -/
theorem afterMenu_switch {reply : GetlineReply} (ok : ¬reply.retval < 0) (m : Machine Contents) :
    ∃ t, Passes m t 0 [] ∧ Reaches (handle io) (afterMenu reply) m
      (switchSelection (strtol reply.bytes) >>= fun _ => free reply.buffer) t := by
  by_cases valid : strtol reply.bytes > 0 ∧ strtol reply.bytes ≤ mainMenuOptions.length
  · refine ⟨_, .printed (selectedText (mainMenuOptions.getD (strtol reply.bytes - 1).toNat "")), ?_⟩
    simp only [afterMenu, ok, if_false, valid, and_self, if_true, printf, perform_bind]
    exact .step (handle_printf io _ _) (.here _ _)
  · refine ⟨m, .refl m, ?_⟩
    simp only [afterMenu, ok, if_false, valid]
    exact .here _ _

theorem promptRound_switch {m : Machine Contents} {bytes : List UInt8} (line : io.lines m.linesRead = .line bytes) :
    ∃ t, Passes m t 1 [.line m.buffers] ∧ Reaches (handle io) promptRound m
      (switchSelection (strtol bytes) >>= fun _ => free (some m.buffers)) t := by
  obtain ⟨q, opened, reaches⟩ := promptRound_opens io m
  have sameLine : io.lines q.linesRead = .line bytes := by rw [opened.linesRead]; exact line
  have sameBuffers : q.buffers = m.buffers := opened.buffers
  obtain ⟨length, content⟩ := getline_line io _ sameLine
  have answered := opened.trans (Passes.getline io q)
  have given := getline_buffer io q
  rw [sameLine, sameBuffers] at answered given
  have ok : ¬(q.getline io).1.retval < 0 := by omega
  obtain ⟨t, quiet, rest⟩ := afterMenu_switch io ok (q.getline io).2
  rw [content, given] at rest
  exact ⟨t, answered.quiet quiet, reaches.trans rest⟩

/-- What a round that asks for confirmation does with buffers, given the line it
gets in answer and the uses of the plan. -/
def askedUses (answer : GetlineResult) (fresh : Nat) (used : List Use) (ended : Bool) : List Use :=
  [.line fresh] ++ confirmUses answer (fresh + 1) ++ used ++ if ended then [.freed fresh] else []

/-- How a round can go, with what it does to buffers. -/
inductive RoundCourse (m : Machine Contents) : Prop
  | failed {errno : Int} {allocated : Bool} {t : Machine Contents}
      (line : io.lines m.linesRead = .failed errno allocated) (ran : promptRound.run (handle io) m = (some (), t))
      (passes : Passes m t 1 (linesOf ((GetlineResult.failed errno allocated).buffer m.buffers) ++
        freesOf ((GetlineResult.failed errno allocated).buffer m.buffers) ++
        freesOf ((GetlineResult.failed errno allocated).buffer m.buffers)))
  | invalid {bytes : List UInt8} {t : Machine Contents} (line : io.lines m.linesRead = .line bytes)
      (ran : promptRound.run (handle io) m = (some (), t))
      (passes : Passes m t 1 [.line m.buffers, .freed m.buffers])
  | asked {bytes : List UInt8} {q t : Machine Contents} {next : Int × Int → Code Unit} {result : Option Unit}
      {used : List Use} (line : io.lines m.linesRead = .line bytes) (menu : Passes m q 1 [.line m.buffers])
      (reaches : Reaches (handle io) promptRound m (confirmSelection >>= next) q)
      (ran : promptRound.run (handle io) m = (result, t))
      (passes : Passes m t 2 (askedUses (io.lines (m.linesRead + 1)) m.buffers used result.isSome))
      (blocks : Blocks (m.buffers + 1 +
        (confirmUses (io.lines (m.linesRead + 1)) (m.buffers + 1)).countP Use.allocates) t.buffers used)

theorem promptRound_course (m : Machine Contents) : RoundCourse io m := by
  cases line : io.lines m.linesRead with
  | failed errno allocated =>
    obtain ⟨t, ran, passes⟩ := promptRound_failed io line
    exact .failed line ran passes
  | line bytes =>
    obtain ⟨q, menu, reaches⟩ := promptRound_switch io line
    rw [switchSelection_eq_plan] at reaches
    have freeing : ∀ u : Machine Contents, Passes u (u.log (.freed (some m.buffers))) 0 [.freed m.buffers] :=
      fun _ => .freed _
    cases selected : Entry.ofSelection (strtol bytes) with
    | none =>
      rw [selected] at reaches
      refine .invalid line reaches.run_eq ((menu.quiet (.printed "Invalid selection.\n")).trans (freeing _))
    | some entry =>
      rw [selected] at reaches
      simp only [bind_assoc, Program.pure_bind] at reaches
      obtain ⟨u, confirmed, course⟩ := doInteractive_passes io (planCode entry.plan) q
      have lines : q.linesRead = m.linesRead + 1 := menu.linesRead
      have buffers : q.buffers = m.buffers + 1 := menu.buffers
      have asked := menu.trans confirmed
      rw [lines, buffers] at asked
      have fresh := asked.buffers
      rw [List.countP_append, ← Nat.add_assoc] at fresh
      have whole := reaches.run_eq
      rw [doInteractive, bind_assoc] at reaches
      rcases course with ⟨result, returned⟩ | planned
      · rw [run_bind_some (handle io) returned] at whole
        exact .asked line menu reaches whole ((asked.trans (.refl u)).trans (freeing u)) .nil
      · obtain ⟨used, passes, blocks⟩ := planRun_passes io entry.plan u
        rw [planCode_run] at planned
        rw [fresh] at blocks
        cases outcome : planRun io entry.plan u with
        | mk result v =>
          rw [outcome] at passes blocks
          cases result with
          | none =>
            rw [run_bind_none (handle io) (planned.trans outcome)] at whole
            exact .asked line menu reaches whole ((asked.trans passes).trans (.refl v)) blocks
          | some result =>
            rw [run_bind_some (handle io) (planned.trans outcome)] at whole
            exact .asked line menu reaches whole ((asked.trans passes).trans (freeing v)) blocks

/-- Uses of other buffers free none of this one. -/
theorem count_freed_zero {used : List Use} {buffer : Nat} (others : ∀ use ∈ used, use.buffer ≠ buffer) :
    used.count (.freed buffer) = 0 :=
  List.count_eq_zero.mpr fun member => others _ member rfl

theorem Within.count_freed {low high : Nat} {used : List Use} (within : Within low high used) (buffer : Nat)
    (older : buffer < low) : used.count (.freed buffer) = 0 :=
  count_freed_zero fun use member => (older.trans_le (within use member).1).ne'

section
variable {answer : GetlineResult} {fresh high : Nat} {used : List Use}
  (blocks : Blocks (fresh + 1 + (confirmUses answer (fresh + 1)).countP Use.allocates) high used)
include blocks

/-- The buffer of the menu line is freed when the round comes to its end. -/
theorem askedUses_menu (ended : Bool) :
    (askedUses answer fresh used ended).count (.freed fresh) = if ended then 1 else 0 := by
  have later := blocks.within.count_freed fresh (by omega)
  have confirm : (confirmUses answer (fresh + 1)).count (.freed fresh) = 0 := by
    rw [List.count_eq_zero]
    rcases answer with bytes | ⟨errno, _ | _⟩ <;> simp [confirmUses, linesOf, GetlineResult.buffer]
  simp only [askedUses, List.count_append, later, confirm]
  cases ended <;> simp

/-- The buffer of the answer is freed whenever the line was read. -/
theorem askedUses_answer (fine : ¬answer.FailsAllocated) (ended : Bool)
    (member : .line (fresh + 1) ∈ askedUses answer fresh used ended) :
    (askedUses answer fresh used ended).count (.freed (fresh + 1)) = 1 := by
  have none := blocks.no_line (fresh + 1)
  rcases answer with bytes | ⟨errno, _ | _⟩
  · have later := blocks.within.count_freed (fresh + 1) (by simp [confirmUses, Use.allocates])
    simp only [askedUses, List.count_append, later, confirmUses]
    cases ended <;> simp
  · cases ended <;> simp [askedUses, confirmUses, linesOf, GetlineResult.buffer, none] at member
  · exact absurd ⟨errno, rfl⟩ fine

theorem askedUses_lines {ended : Bool} {buffer : Nat} (member : .line buffer ∈ askedUses answer fresh used ended) :
    buffer = fresh ∨ buffer = fresh + 1 := by
  have none := blocks.no_line buffer
  rcases answer with bytes | ⟨errno, _ | _⟩ <;> cases ended <;>
    simp [askedUses, confirmUses, linesOf, GetlineResult.buffer, none] at member <;> omega

theorem askedUses_neverTwice (fine : ¬answer.FailsAllocated) (ended : Bool) :
    NeverTwice (askedUses answer fresh used ended) := by
  intro buffer member
  rcases askedUses_lines blocks member with rfl | rfl
  · rw [askedUses_menu blocks]
    split_ifs <;> decide
  · exact (askedUses_answer blocks fine ended member).le

theorem askedUses_freedOnce (fine : ¬answer.FailsAllocated) : FreedOnce (askedUses answer fresh used true) := by
  intro buffer member
  rcases askedUses_lines blocks member with rfl | rfl
  · exact askedUses_menu blocks true
  · exact askedUses_answer blocks fine true member

omit blocks in
theorem confirmUses_within (answer : GetlineResult) (fresh : Nat) :
    Within fresh (fresh + (confirmUses answer fresh).countP Use.allocates) (confirmUses answer fresh) := by
  rcases answer with bytes | ⟨errno, _ | _⟩ <;>
    simp [Within, confirmUses, linesOf, GetlineResult.buffer, Use.buffer, Use.allocates]

/-- A round only touches the buffers it has allocated itself. -/
theorem askedUses_within (ended : Bool)
    (total : high = fresh + (askedUses answer fresh used ended).countP Use.allocates) :
    Within fresh high (askedUses answer fresh used ended) := by
  have menu : [Use.line fresh].countP Use.allocates = 1 := rfl
  have last : (if ended = true then [Use.freed fresh] else []).countP Use.allocates = 0 := by cases ended <;> rfl
  simp only [askedUses, List.countP_append, menu, last] at total
  have confirm := confirmUses_within answer (fresh + 1)
  intro use member
  simp only [askedUses, List.mem_append] at member
  rcases member with ((first | second) | third) | fourth
  · rw [List.mem_singleton.mp first]
    simp only [Use.buffer]
    omega
  · have bounds := confirm use second
    omega
  · have bounds := blocks.within use third
    omega
  · have same : use = .freed fresh := by
      split at fourth
      · exact List.mem_singleton.mp fourth
      · exact absurd fourth List.not_mem_nil
    rw [same]
    simp only [Use.buffer]
    omega

end

theorem handle_linesRead (op : Op) (m : Machine Contents) : m.linesRead ≤ (handle io op m).2.linesRead := by
  cases op with
  | getline =>
    have read := (Passes.getline io m).linesRead
    simp only [handle_getline]
    omega
  | malloc =>
    simp only [handle_malloc, Machine.malloc]
    split_ifs <;> exact le_refl _
  | printf | fprintf | free | system => exact le_refl _

theorem run_linesRead {α : Type} (p : Code α) (m : Machine Contents) :
    m.linesRead ≤ (p.run (handle io) m).2.linesRead :=
  run_invariant (handle io) (I := fun s => m.linesRead ≤ s.linesRead)
    (fun op s kept => kept.trans (handle_linesRead io op s)) p m (le_refl _)

theorem freedOnce_nil : FreedOnce [] := fun _ absent => absurd absent List.not_mem_nil

theorem freedOnce_pair (buffer : Nat) : FreedOnce [.line buffer, .freed buffer] := by
  intro other member
  simp only [List.mem_cons, Use.line.injEq, reduceCtorEq, List.not_mem_nil, or_false] at member
  rw [member]
  simp

/-- `confirm_selection` forgets the buffer of a failing call. -/
theorem confirmUses_freedOnce_iff (answer : GetlineResult) (fresh : Nat) :
    FreedOnce (confirmUses answer fresh) ↔ ¬answer.FailsAllocated := by
  rcases answer with bytes | ⟨errno, _ | _⟩
  · exact iff_of_true (freedOnce_pair fresh) (by rintro ⟨errno, ⟨⟩⟩)
  · exact iff_of_true freedOnce_nil (by rintro ⟨errno, ⟨⟩⟩)
  · refine iff_of_false (fun freed => ?_) (fun fine => fine ⟨errno, rfl⟩)
    exact absurd (freed fresh List.mem_cons_self) (by simp [confirmUses, linesOf, GetlineResult.buffer])

/-- The loop frees the buffer of a failing call twice. -/
theorem failedUses_freedOnce_iff (result : GetlineResult) (fresh : Nat) (errno : Int) (allocated : Bool)
    (failed : result = .failed errno allocated) :
    FreedOnce (linesOf (result.buffer fresh) ++ freesOf (result.buffer fresh) ++ freesOf (result.buffer fresh)) ↔
      ¬result.FailsAllocated := by
  subst failed
  cases allocated with
  | false => exact iff_of_true freedOnce_nil (by rintro ⟨errno, ⟨⟩⟩)
  | true =>
    refine iff_of_false (fun freed => ?_) (fun fine => fine ⟨errno, rfl⟩)
    exact absurd (freed fresh List.mem_cons_self) (by simp [linesOf, freesOf, GetlineResult.buffer])

/-- No line read in this round leaves a buffer although its `getline` failed. -/
def RoundFine (m : Machine Contents) : Prop :=
  ∀ position, m.linesRead ≤ position → position < (promptRound.run (handle io) m).2.linesRead →
    ¬(io.lines position).FailsAllocated

theorem RoundAccounted.fine {m : Machine Contents} (accounted : RoundAccounted io m) : RoundFine io m := by
  intro position low high
  cases promptRound_course io m with
  | failed line ran passes =>
    rw [ran, passes.linesRead] at high
    have same : position = m.linesRead := by omega
    have freed := accounted.looped _ ran
    rw [passes.since_eq, ← line] at freed
    rw [same]
    exact (failedUses_freedOnce_iff _ _ _ _ line).mp freed
  | invalid line ran passes =>
    rw [ran, passes.linesRead] at high
    have same : position = m.linesRead := by omega
    rw [same, line]
    rintro ⟨errno, ⟨⟩⟩
  | @asked bytes q t next result used line menu reaches ran passes blocks =>
    rw [ran, passes.linesRead] at high
    rcases (by omega : position = m.linesRead ∨ position = m.linesRead + 1) with first | second
    · rw [first, line]
      rintro ⟨errno, ⟨⟩⟩
    · obtain ⟨answer, u, answered, confirmed⟩ := confirmSelection_passes io q
      have freed := accounted.returned next q reaches answer u answered
      rw [confirmed.since_eq, menu.linesRead, ← second] at freed
      exact (confirmUses_freedOnce_iff _ _).mp freed

/-- What is used in a round without such a line. -/
theorem promptRound_fine {m : Machine Contents} (fine : RoundFine io m) :
    ∃ lines used, Passes m (promptRound.run (handle io) m).2 lines used ∧
      Within m.buffers (promptRound.run (handle io) m).2.buffers used ∧ NeverTwice used ∧
      ((promptRound.run (handle io) m).1 = some () → FreedOnce used) := by
  cases promptRound_course io m with
  | @failed errno allocated t line ran passes =>
    have harmless := fine m.linesRead (le_refl _) (by rw [ran, passes.linesRead]; exact Nat.lt_succ_self _)
    rw [ran]
    cases allocated with
    | true => exact absurd ⟨errno, line⟩ harmless
    | false => exact ⟨1, [], passes, Blocks.nil.within, fun _ absent => absurd absent List.not_mem_nil,
        fun _ => freedOnce_nil⟩
  | @invalid bytes t line ran passes =>
    have buffers : t.buffers = m.buffers + 1 := passes.buffers
    have once := freedOnce_pair m.buffers
    rw [ran]
    refine ⟨1, _, passes, ?_, fun buffer member => (once buffer member).le, fun _ => once⟩
    rw [buffers]
    simp [Within, Use.buffer]
  | @asked bytes q t next result used line menu reaches ran passes blocks =>
    have harmless := fine (m.linesRead + 1) (Nat.le_succ _) (by rw [ran, passes.linesRead]; exact Nat.lt_succ_self _)
    rw [ran]
    refine ⟨2, _, passes, askedUses_within blocks _ passes.buffers, askedUses_neverTwice blocks harmless _, ?_⟩
    rintro rfl
    exact askedUses_freedOnce blocks harmless

theorem RoundFine.accounted {m : Machine Contents} (fine : RoundFine io m) : RoundAccounted io m := by
  refine ⟨?_, ?_⟩
  · intro t ended
    obtain ⟨lines, used, passes, -, -, once⟩ := promptRound_fine io fine
    rw [ended] at passes once
    rw [passes.since_eq]
    exact once rfl
  · intro next q reaches answer t answered
    obtain ⟨answer', u, ran, confirmed⟩ := confirmSelection_passes io q
    cases ran.symm.trans answered
    have low : m.linesRead ≤ q.linesRead :=
      reaches.invariant (I := fun s => m.linesRead ≤ s.linesRead)
        (fun op s kept => kept.trans (handle_linesRead io op s)) (le_refl _)
    have high : q.linesRead + 1 ≤ (promptRound.run (handle io) m).2.linesRead := by
      rw [reaches.run_eq, run_bind_some (handle io) ran]
      exact confirmed.linesRead.ge.trans (run_linesRead io _ _)
    rw [confirmed.since_eq]
    exact (confirmUses_freedOnce_iff _ _).mpr (fine q.linesRead low high)

end Round

section Session
variable {Contents : Type} (io : Inputs Contents) {storage : File → Contents}

theorem NeverTwice.append {used more : List Use} {middle high : Nat} (first : NeverTwice used)
    (second : NeverTwice more) (older : ∀ use ∈ used, use.buffer < middle) (newer : Within middle high more) :
    NeverTwice (used ++ more) := by
  intro buffer member
  rw [List.count_append]
  rcases List.mem_append.mp member with early | late
  · have below : buffer < middle := older _ early
    have none := newer.count_freed buffer below
    have once := first buffer early
    omega
  · have above : middle ≤ buffer := (newer _ late).1
    have none : used.count (.freed buffer) = 0 :=
      count_freed_zero fun use member => ((older use member).trans_le above).ne
    have once := second buffer late
    omega

/-- No line read so far leaves a buffer although its `getline` failed. -/
def LinesFine (storage : File → Contents) (n : Nat) : Prop :=
  ∀ position, position < (session io storage n).2.linesRead → ¬(io.lines position).FailsAllocated

theorem session_linesRead_succ (storage : File → Contents) (n : Nat) :
    (session io storage n).2.linesRead ≤ (session io storage (n + 1)).2.linesRead := by
  cases before : session io storage n with
  | mk reached m =>
    cases reached with
    | none => rw [session_stuck io before]
    | some _ =>
      rw [session_succ io before]
      exact run_linesRead io promptRound m

theorem LinesFine.before {n : Nat} (fine : LinesFine io storage (n + 1)) : LinesFine io storage n :=
  fun position read => fine position (read.trans_le (session_linesRead_succ io storage n))

theorem LinesFine.round {n : Nat} {m : Machine Contents} (fine : LinesFine io storage (n + 1))
    (start : RoundStart io storage n m) : RoundFine io m := by
  intro position _ high
  rw [← session_succ io start] at high
  exact fine position high

/-- Over the whole session: a round never touches the buffers of an earlier one. -/
theorem session_neverTwice {n : Nat} (fine : LinesFine io storage n) :
    (∀ use ∈ uses (session io storage n).2.trace, use.buffer < (session io storage n).2.buffers) ∧
      NeverTwice (uses (session io storage n).2.trace) := by
  induction n with
  | zero => exact ⟨fun _ absent => absurd absent List.not_mem_nil, fun _ absent => absurd absent List.not_mem_nil⟩
  | succ n ih =>
    obtain ⟨older, never⟩ := ih fine.before
    cases before : session io storage n with
    | mk reached m =>
      rw [before] at older never
      cases reached with
      | none =>
        rw [session_stuck io before]
        exact ⟨older, never⟩
      | some _ =>
        obtain ⟨lines, used, passes, within, twice, -⟩ := promptRound_fine io (fine.round io before)
        obtain ⟨events, traced, same⟩ := passes.trace
        rw [session_succ io before, traced, uses_append, same]
        refine ⟨?_, NeverTwice.append never twice older within⟩
        intro use member
        rcases List.mem_append.mp member with early | late
        · exact (older use early).trans_le passes.grows
        · exact (within use late).2

/-- Every line buffer of the session is accounted for exactly when no `getline`
of the session fails and leaves a buffer. -/
theorem sessionAccounted_iff (storage : File → Contents) :
    SessionAccounted io storage ↔ ∀ n, LinesFine io storage n := by
  constructor
  · intro accounted n
    induction n with
    | zero => exact fun position read => absurd read (Nat.not_lt_zero position)
    | succ n ih =>
      intro position read
      cases before : session io storage n with
      | mk reached m =>
        rw [LinesFine, before] at ih
        cases reached with
        | none =>
          rw [session_stuck io before] at read
          exact ih position read
        | some _ =>
          rw [session_succ io before] at read
          rcases Nat.lt_or_ge position m.linesRead with early | late
          · exact ih position early
          · exact (accounted.rounds n m before).fine io position late read
  · intro fine
    exact ⟨fun n m start => ((fine (n + 1)).round io start).accounted io, fun n => (session_neverTwice io (fine n)).2⟩

end Session

/-- The end of the input, on which `getline` has allocated a buffer all the same. -/
def endOfInput : Inputs Unit := ⟨fun _ => .failed 0 true, fun _ => some 0, fun _ => true, fun _ => ()⟩

theorem end_of_input_spoils : ¬∀ (Contents : Type) (io : Inputs Contents) (storage : File → Contents),
    SessionAccounted io storage := by
  intro claim
  have start : RoundStart endOfInput (fun _ => ()) 0 (Machine.start fun _ => ()) := rfl
  have fine := ((claim Unit endOfInput fun _ => ()).rounds 0 _ start).fine
  obtain ⟨t, ran, passes⟩ := promptRound_failed endOfInput (m := Machine.start fun _ => ()) rfl
  refine fine 0 (le_refl _) ?_ ⟨0, rfl⟩
  rw [ran, passes.linesRead]
  exact Nat.one_pos

end FlukeCda.Rescue
