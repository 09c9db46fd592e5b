import FlukeCda.Rescue.Session

namespace FlukeCda.Rescue

/-- The commands of a session fall into one group of events per round, and a
group executes something only where its menu line selects an entry and the
line behind it confirms: then its commands follow the list of that entry. A
round behind a command that never returned has no events at all. -/
theorem session_follows_consent {Contents : Type} (io : Inputs Contents) (storage : File → Contents) :
    ∃ group : Nat → List Event,
      (∀ n, (session io storage n).2.trace = ((List.range n).map group).flatten) ∧
      (∀ n, (session io storage n).2.commands = ((List.range n).map fun r => executed (group r)).flatten) ∧
      ∀ r, (consent io (menuPosition io r) = none → executed (group r) = []) ∧
        ∀ entry, consent io (menuPosition io r) = some entry →
          (∃ m, RoundStart io storage r m) ∧ Follows (planCommands entry.plan) (group r) ∨
          (¬ ∃ m, RoundStart io storage r m) ∧ group r = [] := by
  have trace := session_trace io storage
  refine ⟨roundEvents io storage, trace, fun n => ?_, fun r => ?_⟩
  · rw [Machine.commands, trace n, executed_flatten, List.map_map]
    rfl
  · cases before : session io storage r with
    | mk reached m =>
      cases reached with
      | none =>
        have unreached : ¬ ∃ m, RoundStart io storage r m := by
          rintro ⟨t, start⟩
          rw [RoundStart, before] at start
          simp at start
        have nothing : roundEvents io storage r = [] := by
          rw [roundEvents, session_stuck io before, before, List.drop_length]
        exact ⟨fun _ => by rw [nothing]; rfl, fun _ _ => Or.inr ⟨unreached, nothing⟩⟩
      | some _ =>
        have start : RoundStart io storage r m := before
        obtain ⟨events, traced, refused, follows⟩ := promptRound_events io m
        have same : roundEvents io storage r = events :=
          List.append_cancel_left ((roundEvents_reached io start).symm.trans traced)
        rw [start.linesRead] at refused follows
        rw [same]
        exact ⟨refused, fun entry agreed => Or.inl ⟨⟨m, start⟩, follows entry agreed⟩⟩

/-- Restoring the device tree is confirmed, and the first buffer is refused. -/
def bufferRefused : Inputs Unit where
  lines := fun k => if k = 0 then .line [0x33, 0x0a] else if k = 1 then .line [0x79, 0x0a] else .failed 0 false
  exits := fun _ => some 0
  mallocs := fun _ => false
  garbage := fun _ => ()

/-- Zero statuses alone do not make a group its whole list: a refused buffer
ends the entry before any command has run. -/
theorem group_not_whole :
    ¬ ∀ (io : Inputs Unit) (storage : File → Unit), ∃ group : Nat → List (Command × Option Int),
      (∀ n, (session io storage n).2.commands = ((List.range n).map group).flatten) ∧
      ∀ r, (consent io (menuPosition io r) = none → group r = []) ∧
        ∀ entry, consent io (menuPosition io r) = some entry → (∃ m, RoundStart io storage r m) →
          (group r).map Prod.fst <+: planCommands entry.plan ∧
          (∀ before e after, group r = before ++ e :: after → after ≠ [] → e.2 = some 0) ∧
          ((∀ e ∈ group r, e.2 = some 0) → (group r).map Prod.fst = planCommands entry.plan) := by
  intro claimed
  obtain ⟨group, split, spec⟩ := claimed bufferRefused fun _ => ()
  have nothing : (session bufferRefused (fun _ => ()) 1).2.commands = [] := rfl
  have first : group 0 = [] := by
    have flat := (split 1).symm.trans nothing
    simpa using flat
  have agreed : consent bufferRefused (menuPosition bufferRefused 0) = some .deviceTree := by decide
  have whole := ((spec 0).2 .deviceTree agreed ⟨_, rfl⟩).2.2
  rw [first] at whole
  exact absurd (whole (by simp)) (by decide)

end FlukeCda.Rescue
