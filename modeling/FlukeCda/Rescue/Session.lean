import FlukeCda.Rescue.Rounds

namespace FlukeCda.Rescue
open Interaction Program

section
variable {Contents : Type} (io : Inputs Contents)

theorem Step.after_linesRead (step : Step) (m : Machine Contents) :
    (step.after io m).linesRead = m.linesRead := by
  cases step with
  | run command => rfl
  | runFormatted command =>
    simp only [Step.after, Machine.afterFormatted, Machine.malloc]
    split_ifs <;> rfl
  | success => rfl

theorem planRun_linesRead (steps : List Step) (m : Machine Contents) :
    (planRun io steps m).2.linesRead = m.linesRead := by
  induction steps generalizing m with
  | nil => rfl
  | cons step rest ih =>
    simp only [planRun]
    split_ifs
    · rw [ih, step.after_linesRead]
    · exact step.after_linesRead io m

/-- The session after a number of rounds, with the round still to come if the
last command returned. -/
def session (storage : File → Contents) (n : Nat) : Option Unit × Machine Contents :=
  (promptInteractively n).run (handle io) (Machine.start storage)

/-- The session gets to its n-th round, in this machine state. -/
def RoundStart (storage : File → Contents) (n : Nat) (m : Machine Contents) : Prop :=
  session io storage n = (some (), m)

theorem session_succ {storage : File → Contents} {n : Nat} {m : Machine Contents}
    (start : RoundStart io storage n m) :
    session io storage (n + 1) = promptRound.run (handle io) m :=
  run_bind_some (handle io) start

theorem session_stuck {storage : File → Contents} {n : Nat} {m : Machine Contents}
    (stuck : session io storage n = (none, m)) :
    session io storage (n + 1) = (none, m) :=
  run_bind_none (handle io) stuck

/-- A round that comes to its end has read its menu line and, after a valid
selection, the line behind it. -/
theorem promptRound_linesRead {m t : Machine Contents} (ran : promptRound.run (handle io) m = (some (), t)) :
    t.linesRead = nextMenu io m.linesRead := by
  have advance : m.linesRead ≤ nextMenu io m.linesRead := by
    unfold nextMenu
    split_ifs <;> omega
  cases agreed : consent io m.linesRead with
  | none =>
    obtain ⟨u, ran', quiet⟩ := promptRound_refused io agreed
    rw [ran'] at ran
    cases ran
    rw [quiet.linesRead]
    omega
  | some entry =>
    obtain ⟨q, buffer, quiet, ran'⟩ := promptRound_consented io agreed
    have kept := planRun_linesRead io entry.plan q
    have next : nextMenu io m.linesRead = m.linesRead + 2 := by
      unfold consent at agreed
      split at agreed
      · simp [nextMenu, agreed]
      · simp at agreed
    rw [ran'] at ran
    cases outcome : planRun io entry.plan q with
    | mk result u =>
      rw [outcome] at ran kept
      cases result with
      | none => simp at ran
      | some result =>
        cases ran
        rw [next, ← quiet.linesRead, ← kept]
        rfl

/-- Menu lines stand where the pure reading of the input stream puts them. -/
theorem RoundStart.linesRead {storage : File → Contents} {n : Nat} {m : Machine Contents}
    (start : RoundStart io storage n m) :
    m.linesRead = menuPosition io n := by
  induction n generalizing m with
  | zero =>
    cases start
    rfl
  | succ n ih =>
    cases before : session io storage n with
    | mk reached q =>
      cases reached with
      | none =>
        have stuck := session_stuck io before
        rw [start] at stuck
        simp at stuck
      | some _ =>
        have ran := session_succ io before
        rw [start] at ran
        rw [promptRound_linesRead io ran.symm, ih before]
        rfl

theorem Follows.append_quiet {commands : List Command} {events quiet : List Event}
    (follows : Follows commands events) (empty : executed quiet = []) : Follows commands (events ++ quiet) := by
  have same : executed (events ++ quiet) = executed events := by rw [executed_append, empty, List.append_nil]
  refine ⟨same ▸ follows.initial, same ▸ follows.halts, fun zero granted => ?_⟩
  rw [same] at zero ⊢
  exact follows.whole zero fun failed => granted (List.mem_append_left _ failed)

/-- A round with consent is the run of its entry's plan, with input and output
in front of it and, if it returns, the release of the line buffer behind it. -/
theorem promptRound_plan {m : Machine Contents} {entry : Entry} (agreed : consent io m.linesRead = some entry) :
    ∃ t, Quiet m t 2 ∧
      ((promptRound.run (handle io) m).1 = none ↔ (planRun io entry.plan t).1 = none) ∧
      (promptRound.run (handle io) m).2.storage = (planRun io entry.plan t).2.storage ∧
      ∀ events, (planRun io entry.plan t).2.trace = t.trace ++ events →
        ∃ before after, (promptRound.run (handle io) m).2.trace = m.trace ++ (before ++ events ++ after) ∧
          executed before = [] ∧ executed after = [] ∧
          .printed successText ∉ before ∧ .printed successText ∉ after := by
  obtain ⟨t, buffer, quiet, ran⟩ := promptRound_consented io agreed
  obtain ⟨asked, traced, empty, _, silent⟩ := quiet.trace
  refine ⟨t, quiet, ?_⟩
  rw [ran]
  cases outcome : planRun io entry.plan t with
  | mk result u =>
    cases result with
    | none =>
      refine ⟨by simp, rfl, fun events planned => ⟨asked, [], ?_, empty, rfl, silent, by simp⟩⟩
      change u.trace = _
      rw [planned, traced, List.append_nil, List.append_assoc]
    | some result =>
      refine ⟨by simp, rfl, fun events planned => ⟨asked, [.freed buffer], ?_, empty, rfl, silent, by simp⟩⟩
      change u.trace ++ [.freed buffer] = _
      rw [planned, traced]
      simp only [List.append_assoc]

/-- What one round appends to the trace, whether or not it comes to its end. -/
theorem promptRound_events (m : Machine Contents) :
    ∃ events, (promptRound.run (handle io) m).2.trace = m.trace ++ events ∧
      (consent io m.linesRead = none → executed events = []) ∧
      ∀ entry, consent io m.linesRead = some entry → Follows (planCommands entry.plan) events := by
  cases agreed : consent io m.linesRead with
  | none =>
    obtain ⟨t, ran, quiet⟩ := promptRound_refused io agreed
    obtain ⟨events, traced, empty, _⟩ := quiet.trace
    exact ⟨events, by rw [ran, traced], fun _ => empty, by simp⟩
  | some entry =>
    obtain ⟨t, quiet, _, _, whole⟩ := promptRound_plan io agreed
    obtain ⟨events, planned, follows⟩ := planRun_follows io entry.plan t
    obtain ⟨before, after, traced, empty, empty', _⟩ := whole events planned
    refine ⟨before ++ events ++ after, traced, by simp, ?_⟩
    simpa using (follows.quiet_append empty).append_quiet empty'

/-- The events a session appends in its r-th round; none when it never gets there. -/
def roundEvents (storage : File → Contents) (r : Nat) : List Event :=
  (session io storage (r + 1)).2.trace.drop (session io storage r).2.trace.length

theorem session_trace_succ (storage : File → Contents) (r : Nat) :
    (session io storage (r + 1)).2.trace = (session io storage r).2.trace ++ roundEvents io storage r := by
  cases before : session io storage r with
  | mk reached m =>
    unfold roundEvents
    cases reached with
    | none => rw [session_stuck io before, before, List.drop_length, List.append_nil]
    | some _ =>
      obtain ⟨events, traced, _⟩ := promptRound_events io m
      rw [session_succ io before, before, traced, List.drop_left]

theorem roundEvents_reached {storage : File → Contents} {r : Nat} {m : Machine Contents}
    (start : RoundStart io storage r m) :
    (promptRound.run (handle io) m).2.trace = m.trace ++ roundEvents io storage r := by
  have split := session_trace_succ io storage r
  rwa [session_succ io start, start] at split

theorem session_trace (storage : File → Contents) (n : Nat) :
    (session io storage n).2.trace = ((List.range n).map (roundEvents io storage)).flatten := by
  induction n with
  | zero => rfl
  | succ n ih => rw [session_trace_succ, ih, List.range_succ, List.map_append, List.flatten_append]; simp

theorem executed_flatten (segments : List (List Event)) :
    executed segments.flatten = (segments.map executed).flatten := by
  induction segments with
  | nil => rfl
  | cons segment rest ih => rw [List.flatten_cons, executed_append, ih, List.map_cons, List.flatten_cons]

end
end FlukeCda.Rescue
