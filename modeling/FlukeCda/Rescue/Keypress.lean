import FlukeCda.Interaction.Program

/-! # The countdown before booting

`wait_for_keypress_timeout` against a standard input that delivers bytes at any
times and then falls silent or ends. Time is counted while `select` waits, which
is the only time that the one-second intervals measure.
-/

namespace FlukeCda.Rescue.Keypress
open Interaction Program

/-- What the function asks of the system, and its accesses to `*timed_out`, to
`one_second_timeval` and to `buffer[0]`. -/
inductive Op
  | setTimedOut (value : Int)
  | printf (text : String)
  | fflush
  | setTimeval (sec usec : Nat)
  | select
  | read
  | buffer
  | errno
  | fprintf (text : String)
  | spin

@[reducible] def Answer : Op → Type
  | .select | .read | .errno => Int
  | .buffer => UInt8
  | .spin => Empty
  | _ => Unit

abbrev Code := Program Op Answer

def setTimedOut (value : Int) : Code Unit := perform (Op.setTimedOut value)
def printf (text : String) : Code Unit := perform (Op.printf text)
def fflush : Code Unit := perform Op.fflush
def setTimeval (sec usec : Nat) : Code Unit := perform (Op.setTimeval sec usec)
def select : Code Int := perform Op.select
def read : Code Int := perform Op.read
def buffer : Code UInt8 := perform Op.buffer
def errno : Code Int := perform Op.errno
def fprintf (text : String) : Code Unit := perform (Op.fprintf text)

def timeoutSeconds : Nat := 4
def magicKey : UInt8 := 0x0a

/-- The `do … while` loop, watched for a number of rounds; one that needs more
never gets past `spin`. It returns from the function, or leaves the loop. -/
def keyLoop : Nat → Code (Option Int)
  | 0 => .call .spin Empty.elim
  | rounds + 1 => do
    let retval ← select
    if retval < 0 then do
      let number ← errno
      fprintf s!"select error, errno={number}\n"
      pure (some retval)
    else if retval = 0 then pure none
    else do
      let readRetval ← read
      if readRetval < 0 then do
        let number ← errno
        fprintf s!"read error, errno={number}\n"
        pure (some readRetval)
      else do
        let key ← buffer
        if key = magicKey then pure (some 0) else keyLoop rounds

/-- The intervals that are left, the last one numbered 1. -/
def countdown (rounds : Nat) : Nat → Code Int
  | 0 => do
    setTimedOut 1
    pure 0
  | i + 1 => do
    printf s!"\r{i + 1} "
    fflush
    setTimeval 1 0
    let returned ← keyLoop rounds
    match returned with
    | some retval => pure retval
    | none => countdown rounds i

def waitForKeypressTimeout (rounds : Nat) : Code Int := do
  setTimedOut 0
  countdown rounds timeoutSeconds

/-- Where `main` goes on when the wait is over. -/
inductive Continuation
  | exit (result : Int)
  | doBoot
  | promptInteractively
  deriving DecidableEq

def mainContinuation (result timedOut : Int) : Continuation :=
  if result ≠ 0 then .exit result else if timedOut ≠ 0 then .doBoot else .promptInteractively

/-- What will come over standard input: bytes, each with the microseconds of
waiting before it can be read, and then end-of-file after some more, or nothing. -/
structure Stdin where
  arrivals : List (Nat × UInt8)
  ending : Option Nat

/-- `remaining` is `one_second_timeval` in microseconds; `key` is `buffer[0]`,
which nobody initialises. -/
structure Terminal where
  stdin : Stdin
  remaining : Nat
  key : UInt8
  timedOut : Int

/-- `select` waits for a byte or the end-of-file, no longer than the time that
remains, and writes back what is left of it. -/
def Terminal.select (t : Terminal) : Int × Terminal :=
  match t.stdin with
  | ⟨(wait, byte) :: rest, ending⟩ =>
    if wait ≤ t.remaining then (1, { t with stdin := ⟨(0, byte) :: rest, ending⟩, remaining := t.remaining - wait })
    else (0, { t with stdin := ⟨(wait - t.remaining, byte) :: rest, ending⟩, remaining := 0 })
  | ⟨[], some wait⟩ =>
    if wait ≤ t.remaining then (1, { t with stdin := ⟨[], some 0⟩, remaining := t.remaining - wait })
    else (0, { t with stdin := ⟨[], some (wait - t.remaining)⟩, remaining := 0 })
  | ⟨[], none⟩ => (0, { t with remaining := 0 })

/-- `read` takes a byte; at the end of the file it takes none and leaves the buffer as it is. -/
def Terminal.read (t : Terminal) : Option Int × Terminal :=
  match t.stdin with
  | ⟨(_, byte) :: rest, ending⟩ => (some 1, { t with stdin := ⟨rest, ending⟩, key := byte })
  | ⟨[], some _⟩ => (some 0, t)
  | ⟨[], none⟩ => (none, t)

def handle : (op : Op) → Terminal → Option (Answer op) × Terminal
  | .setTimedOut value, t => (some (), { t with timedOut := value })
  | .printf _, t | .fflush, t | .fprintf _, t => (some (), t)
  | .setTimeval sec usec, t => (some (), { t with remaining := sec * 1000000 + usec })
  | .select, t => (some t.select.1, t.select.2)
  | .read, t => t.read
  | .buffer, t => (some t.key, t)
  | .errno, t => (some 0, t)
  | .spin, t => (none, t)

/-- What a stretch of waiting comes to: the magic key is read, the end of the
file is reached, or the time is used up with this input still to come. -/
inductive Outcome
  | pressed
  | ended
  | quiet (stdin : Stdin)

def awaitFrom (ending : Option Nat) : Nat → List (Nat × UInt8) → Outcome
  | budget, (wait, byte) :: rest =>
    if wait ≤ budget then if byte = magicKey then .pressed else awaitFrom ending (budget - wait) rest
    else .quiet ⟨(wait - budget, byte) :: rest, ending⟩
  | budget, [] =>
    match ending with
    | some wait => if wait ≤ budget then .ended else .quiet ⟨[], some (wait - budget)⟩
    | none => .quiet ⟨[], none⟩

def Stdin.await (stdin : Stdin) (budget : Nat) : Outcome := awaitFrom stdin.ending budget stdin.arrivals

theorem await_end {wait budget : Nat} (early : wait ≤ budget) : Stdin.await ⟨[], some wait⟩ budget = .ended := by
  simp only [Stdin.await, awaitFrom, if_pos early]

/-- Waiting goes on where the last stretch of it stopped. -/
def Outcome.andThen (outcome : Outcome) (budget : Nat) : Outcome :=
  match outcome with
  | .quiet stdin => stdin.await budget
  | other => other

theorem awaitFrom_add (ending : Option Nat) (first second : Nat) (arrivals : List (Nat × UInt8)) :
    awaitFrom ending (first + second) arrivals = (awaitFrom ending first arrivals).andThen second := by
  induction arrivals generalizing first with
  | nil =>
    cases ending with
    | none => rfl
    | some wait =>
      simp only [awaitFrom]
      by_cases early : wait ≤ first
      · rw [if_pos early, if_pos (by omega)]
        rfl
      · rw [if_neg early]
        simp only [Outcome.andThen, Stdin.await, awaitFrom, Nat.sub_sub]
        exact if_congr (by omega) rfl rfl
  | cons arrival rest ih =>
    obtain ⟨wait, byte⟩ := arrival
    simp only [awaitFrom]
    by_cases early : wait ≤ first
    · rw [if_pos early, if_pos (by omega)]
      split
      · rfl
      · rw [← ih, Nat.sub_add_comm early]
    · rw [if_neg early]
      simp only [Outcome.andThen, Stdin.await, awaitFrom, Nat.sub_sub]
      have left : first + second - wait = second - (wait - first) := by omega
      rw [left]
      exact if_congr (by omega) rfl rfl

theorem Stdin.await_add (stdin : Stdin) (first second : Nat) :
    stdin.await (first + second) = (stdin.await first).andThen second :=
  awaitFrom_add stdin.ending first second stdin.arrivals

section Rounds
variable {t u v : Terminal} (rounds : Nat)

theorem keyLoop_quiet (nothing : t.select = (0, u)) : (keyLoop (rounds + 1)).run handle t = (some none, u) := by
  have positive : ¬(0 : Int) < 0 := by decide
  simp only [keyLoop, select, perform_bind, run, handle, nothing, if_neg positive, if_pos, run_pure]

theorem keyLoop_ready {count : Int} (ready : t.select = (1, u)) (got : u.read = (some count, v)) (fine : 0 ≤ count) :
    (keyLoop (rounds + 1)).run handle t =
      if v.key = magicKey then (some (some 0), v) else (keyLoop rounds).run handle v := by
  have positive : ¬(1 : Int) < 0 := by decide
  have nonzero : ¬(1 : Int) = 0 := by decide
  simp only [keyLoop, select, read, buffer, perform_bind, run, handle, ready, got, if_neg positive, if_neg nonzero,
    if_neg (Int.not_lt.mpr fine)]
  split <;> rfl

end Rounds

section Select
variable {wait remaining : Nat} (byte key : UInt8) (rest : List (Nat × UInt8)) (ending : Option Nat) (timedOut : Int)

theorem select_byte_early (early : wait ≤ remaining) :
    Terminal.select ⟨⟨(wait, byte) :: rest, ending⟩, remaining, key, timedOut⟩ =
      (1, ⟨⟨(0, byte) :: rest, ending⟩, remaining - wait, key, timedOut⟩) := if_pos early

theorem select_byte_late (late : ¬wait ≤ remaining) :
    Terminal.select ⟨⟨(wait, byte) :: rest, ending⟩, remaining, key, timedOut⟩ =
      (0, ⟨⟨(wait - remaining, byte) :: rest, ending⟩, 0, key, timedOut⟩) := if_neg late

theorem select_end_early (early : wait ≤ remaining) :
    Terminal.select ⟨⟨[], some wait⟩, remaining, key, timedOut⟩ =
      (1, ⟨⟨[], some 0⟩, remaining - wait, key, timedOut⟩) := if_pos early

theorem select_end_late (late : ¬wait ≤ remaining) :
    Terminal.select ⟨⟨[], some wait⟩, remaining, key, timedOut⟩ =
      (0, ⟨⟨[], some (wait - remaining)⟩, 0, key, timedOut⟩) := if_neg late

end Select

/-- How a loop that waited is left: as waiting came out, or never, because the
file has ended or the watch on the loop was too short. -/
def Outcome.Fits (outcome : Outcome) (short : Prop) (timedOut : Int) (left : Option (Option Int) × Terminal) : Prop :=
  (left.1 = none ∧ (outcome = .ended ∨ short)) ∨
    (left.2.timedOut = timedOut ∧
      match outcome with
      | .pressed | .ended => left.1 = some (some 0)
      | .quiet stdin => left.1 = some none ∧ left.2.stdin = stdin)

theorem Outcome.Fits.mono {outcome : Outcome} {short shorter : Prop} {timedOut : Int}
    {left : Option (Option Int) × Terminal} (fits : outcome.Fits short timedOut left) (imp : short → shorter) :
    outcome.Fits shorter timedOut left :=
  fits.imp_left fun ⟨never, cause⟩ => ⟨never, cause.imp_right imp⟩

/-- The loop does what waiting comes to, given a round for every byte and one
more. At the end of the file it spins, unless the buffer happens to hold the
magic key. -/
theorem keyLoop_fits (rounds : Nat) (t : Terminal) :
    (t.stdin.await t.remaining).Fits (rounds ≤ t.stdin.arrivals.length) t.timedOut
      ((keyLoop rounds).run handle t) := by
  induction rounds generalizing t with
  | zero => exact Or.inl ⟨rfl, Or.inr (Nat.zero_le _)⟩
  | succ rounds ih =>
    obtain ⟨⟨arrivals, ending⟩, remaining, key, timedOut⟩ := t
    cases arrivals with
    | cons arrival rest =>
      obtain ⟨wait, byte⟩ := arrival
      by_cases early : wait ≤ remaining
      · have step := keyLoop_ready rounds (select_byte_early byte key rest ending timedOut early) rfl (by decide)
        simp only [Stdin.await, awaitFrom, if_pos early]
        rw [step]
        by_cases magic : byte = magicKey
        · rw [if_pos magic, if_pos magic]
          exact Or.inr ⟨rfl, rfl⟩
        · rw [if_neg magic, if_neg magic]
          exact (ih ⟨⟨rest, ending⟩, remaining - wait, byte, timedOut⟩).mono Nat.succ_le_succ
      · rw [keyLoop_quiet rounds (select_byte_late byte key rest ending timedOut early)]
        simp only [Stdin.await, awaitFrom, if_neg early]
        exact Or.inr ⟨rfl, rfl, rfl⟩
    | nil =>
      cases ending with
      | none =>
        rw [keyLoop_quiet rounds rfl]
        exact Or.inr ⟨rfl, rfl, rfl⟩
      | some wait =>
        by_cases early : wait ≤ remaining
        · have step := keyLoop_ready rounds (select_end_early key timedOut early) rfl (Int.le_refl 0)
          have again := await_end (Nat.zero_le (remaining - wait))
          have fits := ih ⟨⟨[], some 0⟩, remaining - wait, key, timedOut⟩
          rw [again] at fits
          rw [await_end early, step]
          split
          · exact Or.inr ⟨rfl, rfl⟩
          · exact fits.imp_left fun ⟨never, _⟩ => ⟨never, Or.inl rfl⟩
        · rw [keyLoop_quiet rounds (select_end_late key timedOut early)]
          simp only [Stdin.await, awaitFrom, if_neg early]
          exact Or.inr ⟨rfl, rfl, rfl⟩

theorem awaitFrom_quiet_length {ending : Option Nat} {budget : Nat} {arrivals : List (Nat × UInt8)} {stdin : Stdin}
    (quiet : awaitFrom ending budget arrivals = .quiet stdin) : stdin.arrivals.length ≤ arrivals.length := by
  induction arrivals generalizing budget with
  | nil =>
    cases ending with
    | none =>
      cases quiet
      exact le_rfl
    | some wait =>
      simp only [awaitFrom] at quiet
      split at quiet <;> cases quiet
      exact le_rfl
  | cons arrival rest ih =>
    simp only [awaitFrom] at quiet
    split at quiet
    · split at quiet
      · cases quiet
      · exact (ih quiet).trans (Nat.le_succ _)
    · cases quiet
      exact le_rfl

def intervalMicroseconds : Nat := 1000000

/-- How the countdown ends. -/
def Outcome.Returns (outcome : Outcome) (short : Prop) (timedOut : Int) (returned : Option Int × Terminal) : Prop :=
  (returned.1 = none ∧ (outcome = .ended ∨ short)) ∨
    (returned.1 = some 0 ∧
      match outcome with
      | .pressed | .ended => returned.2.timedOut = timedOut
      | .quiet _ => returned.2.timedOut = 1)

theorem Outcome.Returns.mono {outcome : Outcome} {short shorter : Prop} {timedOut : Int}
    {returned : Option Int × Terminal} (returns : outcome.Returns short timedOut returned) (imp : short → shorter) :
    outcome.Returns shorter timedOut returned :=
  returns.imp_left fun ⟨never, cause⟩ => ⟨never, cause.imp_right imp⟩

/-- Where waiting stopped, nothing can be read before more time has passed. -/
theorem quiet_later {stdin rest : Stdin} {budget : Nat} (quiet : stdin.await budget = .quiet rest) :
    rest.await 0 = .quiet rest := by
  have split := stdin.await_add budget 0
  rw [Nat.add_zero, quiet] at split
  exact split.symm

theorem quiet_length {stdin rest : Stdin} {budget : Nat} (quiet : stdin.await budget = .quiet rest) :
    rest.arrivals.length ≤ stdin.arrivals.length := awaitFrom_quiet_length quiet

/-- The intervals in a row are one wait of their whole length. -/
theorem countdown_returns (rounds i : Nat) (t : Terminal) (later : 0 < i ∨ t.stdin.await 0 = .quiet t.stdin) :
    (t.stdin.await (i * intervalMicroseconds)).Returns (rounds ≤ t.stdin.arrivals.length) t.timedOut
      ((countdown rounds i).run handle t) := by
  induction i generalizing t with
  | zero =>
    rw [Nat.zero_mul, later.resolve_left (Nat.lt_irrefl 0)]
    exact Or.inr ⟨rfl, rfl⟩
  | succ i ih =>
    have whole : (i + 1) * intervalMicroseconds = intervalMicroseconds + i * intervalMicroseconds := by
      rw [Nat.succ_mul, Nat.add_comm]
    have first := keyLoop_fits rounds { t with remaining := intervalMicroseconds }
    have begun : (countdown rounds (i + 1)).run handle t = (keyLoop rounds >>= fun returned =>
      match returned with
      | some retval => pure retval
      | none => countdown rounds i).run handle { t with remaining := intervalMicroseconds } := rfl
    rw [whole, t.stdin.await_add, begun, run_bind]
    generalize (keyLoop rounds).run handle { t with remaining := intervalMicroseconds } = left at first
    obtain ⟨returned, u⟩ := left
    simp only at first
    cases outcome : t.stdin.await intervalMicroseconds with
    | pressed =>
      rw [outcome] at first
      rcases first with ⟨never, cause⟩ | ⟨same, returns⟩
      · cases never
        exact Or.inl ⟨rfl, cause⟩
      · cases returns
        exact Or.inr ⟨rfl, same⟩
    | ended =>
      rw [outcome] at first
      rcases first with ⟨never, cause⟩ | ⟨same, returns⟩
      · cases never
        exact Or.inl ⟨rfl, cause⟩
      · cases returns
        exact Or.inr ⟨rfl, same⟩
    | quiet rest =>
      rw [outcome] at first
      rcases first with ⟨never, cause⟩ | ⟨same, returns, remains⟩
      · cases never
        exact Or.inl ⟨rfl, Or.inr (cause.resolve_left (fun absurd => by cases absurd))⟩
      · cases returns
        subst remains
        have rest := ih u (Or.inr (quiet_later outcome))
        rw [same] at rest
        exact rest.mono fun short => short.trans (quiet_length outcome)

/-- Waiting time before the first newline, when there is one. -/
def newlineAt : List (Nat × UInt8) → Option Nat
  | [] => none
  | (wait, byte) :: rest => if byte = magicKey then some wait else (newlineAt rest).map (wait + ·)

def totalWait (arrivals : List (Nat × UInt8)) : Nat := arrivals.foldr (fun arrival total => arrival.1 + total) 0

/-- The four intervals. -/
def budget : Nat := timeoutSeconds * intervalMicroseconds

def Stdin.NewlineInTime (stdin : Stdin) : Prop := ∃ wait, newlineAt stdin.arrivals = some wait ∧ wait ≤ budget

def Stdin.EndInTime (stdin : Stdin) : Prop :=
  ∃ wait, stdin.ending = some wait ∧ totalWait stdin.arrivals + wait ≤ budget

theorem awaitFrom_pressed_iff (ending : Option Nat) (budget : Nat) (arrivals : List (Nat × UInt8)) :
    awaitFrom ending budget arrivals = .pressed ↔ ∃ wait, newlineAt arrivals = some wait ∧ wait ≤ budget := by
  induction arrivals generalizing budget with
  | nil =>
    cases ending <;> simp only [awaitFrom, newlineAt]
    · simp
    · split <;> simp
  | cons arrival rest ih =>
    obtain ⟨wait, byte⟩ := arrival
    simp only [awaitFrom, newlineAt]
    by_cases magic : byte = magicKey
    · simp only [if_pos magic, Option.some.injEq, exists_eq_left']
      by_cases early : wait ≤ budget <;> simp [early]
    · simp only [if_neg magic, Option.map_eq_some_iff]
      by_cases early : wait ≤ budget
      · rw [if_pos early, ih]
        constructor
        · rintro ⟨later, first, within⟩
          exact ⟨wait + later, ⟨later, first, rfl⟩, by omega⟩
        · rintro ⟨_, ⟨later, first, rfl⟩, within⟩
          exact ⟨later, first, by omega⟩
      · rw [if_neg early]
        constructor
        · intro quiet
          cases quiet
        · rintro ⟨_, ⟨later, first, rfl⟩, within⟩
          omega

theorem awaitFrom_ended {ending : Option Nat} {budget : Nat} {arrivals : List (Nat × UInt8)}
    (ended : awaitFrom ending budget arrivals = .ended) :
    ∃ wait, ending = some wait ∧ totalWait arrivals + wait ≤ budget := by
  induction arrivals generalizing budget with
  | nil =>
    cases ending with
    | none => cases ended
    | some wait =>
      simp only [awaitFrom] at ended
      split at ended
      · exact ⟨wait, rfl, by simpa [totalWait]⟩
      · cases ended
  | cons arrival rest ih =>
    obtain ⟨wait, byte⟩ := arrival
    simp only [awaitFrom] at ended
    split at ended
    · split at ended
      · cases ended
      · obtain ⟨last, same, within⟩ := ih ended
        refine ⟨last, same, ?_⟩
        simp only [totalWait, List.foldr_cons] at within ⊢
        omega
    · cases ended

theorem awaitFrom_quiet {ending : Option Nat} {budget : Nat} {arrivals : List (Nat × UInt8)} {rest : Stdin}
    (quiet : awaitFrom ending budget arrivals = .quiet rest) :
    ∀ wait, ending = some wait → budget < totalWait arrivals + wait := by
  induction arrivals generalizing budget with
  | nil =>
    rintro wait rfl
    simp only [awaitFrom] at quiet
    split at quiet
    · cases quiet
    · simp only [totalWait, List.foldr_nil]
      omega
  | cons arrival arrivals ih =>
    obtain ⟨wait, byte⟩ := arrival
    intro last same
    simp only [awaitFrom] at quiet
    simp only [totalWait, List.foldr_cons]
    split at quiet
    · split at quiet
      · cases quiet
      · have later := ih quiet last same
        simp only [totalWait] at later
        omega
    · omega

/-- The function returns 0; `*timed_out` tells whether a newline came in time,
and on it depends whether the unit goes on to boot. -/
def WaitEnds (t : Terminal) : Prop :=
  ∃ rounds u, (waitForKeypressTimeout rounds).run handle t = (some 0, u) ∧
    (t.stdin.NewlineInTime → u.timedOut = 0 ∧ mainContinuation 0 u.timedOut = .promptInteractively) ∧
    (¬t.stdin.NewlineInTime → u.timedOut = 1 ∧ mainContinuation 0 u.timedOut = .doBoot)

theorem wait_returns (rounds : Nat) (t : Terminal) :
    (t.stdin.await budget).Returns (rounds ≤ t.stdin.arrivals.length) 0
      ((waitForKeypressTimeout rounds).run handle t) :=
  countdown_returns rounds timeoutSeconds { t with timedOut := 0 } (Or.inl (by decide))

/-- A read that returns nothing is taken for a byte: the wait ends as it should
unless the file ends within the four seconds and before a newline. -/
theorem waitEnds_iff (t : Terminal) : WaitEnds t ↔ t.stdin.NewlineInTime ∨ ¬t.stdin.EndInTime := by
  have pressed : t.stdin.await budget = .pressed ↔ t.stdin.NewlineInTime :=
    awaitFrom_pressed_iff t.stdin.ending budget t.stdin.arrivals
  constructor
  · rintro ⟨rounds, u, ran, newline, silence⟩
    have returns := wait_returns rounds t
    rw [ran] at returns
    obtain ⟨never, -⟩ | ⟨-, flag⟩ := returns
    · cases never
    · by_contra neither
      obtain ⟨noNewline, inTime⟩ := not_or.mp neither
      cases outcome : t.stdin.await budget with
      | pressed => exact noNewline (pressed.mp outcome)
      | ended =>
        rw [outcome] at flag
        have set := (silence noNewline).1
        simp only at flag
        omega
      | quiet rest =>
        obtain ⟨wait, ending, within⟩ := not_not.mp inTime
        have late := awaitFrom_quiet outcome wait ending
        omega
  · intro condition
    have returns := wait_returns (t.stdin.arrivals.length + 1) t
    generalize left : (waitForKeypressTimeout (t.stdin.arrivals.length + 1)).run handle t = result at returns
    obtain ⟨returned, u⟩ := result
    have settled : t.stdin.await budget ≠ .ended := by
      intro ended
      rcases condition with newline | late
      · rw [pressed.mpr newline] at ended
        cases ended
      · exact late (awaitFrom_ended ended)
    obtain ⟨-, cause⟩ | ⟨zero, flag⟩ := returns
    · exact absurd cause (by simp [settled])
    · have flagged : ∀ value, u.timedOut = value → mainContinuation 0 u.timedOut = mainContinuation 0 value :=
        fun value same => congrArg (mainContinuation 0) same
      refine ⟨_, u, left.trans (congrArg (·, u) zero), ?_, ?_⟩
      · intro newline
        rw [pressed.mpr newline] at flag
        exact ⟨flag, flagged 0 flag⟩
      · intro noNewline
        cases outcome : t.stdin.await budget with
        | pressed => exact absurd (pressed.mp outcome) noNewline
        | ended => exact absurd outcome settled
        | quiet rest =>
          rw [outcome] at flag
          exact ⟨flag, flagged 1 flag⟩

/-- A file that ends at once: the function does not return with the time used
up, as it should. -/
theorem end_of_file_hangs : ¬WaitEnds ⟨⟨[], some 0⟩, 0, 0, 0⟩ := by
  rintro ⟨rounds, u, ran, -, silence⟩
  have noNewline : ¬Stdin.NewlineInTime ⟨[], some 0⟩ := fun ⟨_, first, _⟩ => by cases first
  have ended : Stdin.await ⟨[], some 0⟩ budget = .ended := await_end (Nat.zero_le budget)
  have returns := wait_returns rounds ⟨⟨[], some 0⟩, 0, 0, 0⟩
  rw [ran, ended] at returns
  obtain ⟨never, -⟩ | ⟨-, flag⟩ := returns
  · cases never
  · exact absurd ((silence noNewline).1.symm.trans flag) (by decide)

end FlukeCda.Rescue.Keypress
