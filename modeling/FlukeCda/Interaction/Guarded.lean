import FlukeCda.Interaction.Program

namespace Interaction

/-- What an operation, with the answer it got, means for a binary semaphore
and the data that the semaphore guards. -/
inductive Role
  | acquire
  | release
  | access
  | neutral
  deriving DecidableEq

/-- Where a call stands towards the semaphore. -/
inductive Phase
  | before
  | inside
  | after
  deriving DecidableEq

/-- A call acquires once, then accesses, then releases once. -/
def Role.step : Role → Phase → Option Phase
  | .acquire, .before => some .inside
  | .release, .inside => some .after
  | .access, .inside => some .inside
  | .neutral, phase => some phase
  | _, _ => none

namespace Program
variable {Op : Type} {Answer : Op → Type} {α β : Type} (role : (op : Op) → Answer op → Role)

/-- Whatever its operations answer, the program goes through the phases in
order, and what it stops with satisfies `post`. -/
def Guarded (post : α → Phase → Prop) : Phase → Program Op Answer α → Prop
  | phase, .done value => post value phase
  | phase, .call op next => ∀ answer, ∃ phase', (role op answer).step phase = some phase' ∧
      Guarded post phase' (next answer)

theorem guarded_call {post : α → Phase → Prop} {phase : Phase} {op : Op}
    {next : Answer op → Program Op Answer α} :
    Guarded role post phase (.call op next) ↔
      ∀ answer, ∃ phase', (role op answer).step phase = some phase' ∧ Guarded role post phase' (next answer) :=
  Iff.rfl

/-- Sequencing: the first part leaves the second one in a phase it can go on from. -/
theorem guarded_bind {post : β → Phase → Prop} {phase : Phase} {p : Program Op Answer α}
    {f : α → Program Op Answer β} :
    Guarded role post phase (p >>= f) ↔
      Guarded role (fun value phase' => Guarded role post phase' (f value)) phase p := by
  induction p generalizing phase with
  | done value => rfl
  | call op next ih =>
    rw [call_bind, guarded_call, guarded_call]
    refine forall_congr' fun answer => exists_congr fun phase' => and_congr_right fun _ => ih answer

theorem Guarded.mono {post post' : α → Phase → Prop}
    (weaker : ∀ value phase, post value phase → post' value phase) {phase : Phase} {p : Program Op Answer α}
    (guarded : Guarded role post phase p) : Guarded role post' phase p := by
  induction p generalizing phase with
  | done value => exact weaker value phase guarded
  | call op next ih =>
    intro answer
    obtain ⟨phase', stepped, rest⟩ := guarded answer
    exact ⟨phase', stepped, ih answer rest⟩

/-- An operation whose role does not depend on its answer. -/
theorem guarded_perform {post : β → Phase → Prop} {phase phase' : Phase} {op : Op}
    {f : Answer op → Program Op Answer β} {always : Role} (same : ∀ answer, role op answer = always)
    (stepped : always.step phase = some phase') (rest : ∀ answer, Guarded role post phase' (f answer)) :
    Guarded role post phase (perform op >>= f) :=
  fun answer => ⟨phase', (congrArg (Role.step · phase) (same answer)).trans stepped, rest answer⟩

theorem guarded_access {post : β → Phase → Prop} {op : Op} {f : Answer op → Program Op Answer β}
    (accesses : ∀ answer, role op answer = .access) (rest : ∀ answer, Guarded role post .inside (f answer)) :
    Guarded role post .inside (perform op >>= f) :=
  guarded_perform role accesses rfl rest

theorem guarded_neutral {post : β → Phase → Prop} {phase : Phase} {op : Op}
    {f : Answer op → Program Op Answer β} (neutral : ∀ answer, role op answer = .neutral)
    (rest : ∀ answer, Guarded role post phase (f answer)) :
    Guarded role post phase (perform op >>= f) :=
  guarded_perform role neutral rfl rest

/-- A part of a call that stays inside. -/
def Inside (_ : α) (phase : Phase) : Prop := phase = .inside

theorem guarded_inside_bind {post : β → Phase → Prop} {p : Program Op Answer α} {f : α → Program Op Answer β}
    (stays : Guarded role Inside .inside p) (rest : ∀ value, Guarded role post .inside (f value)) :
    Guarded role post .inside (p >>= f) := by
  refine (guarded_bind role).mpr (stays.mono role ?_)
  rintro value phase rfl
  exact rest value

/-- One operation of a part that stays inside. -/
theorem guarded_inside_perform {op : Op}
    (accesses : ∀ answer, role op answer = .access ∨ role op answer = .neutral) :
    Guarded role Inside .inside (perform op) := by
  intro answer
  refine ⟨.inside, ?_, rfl⟩
  rcases accesses answer with access | neutral
  · rw [access]
    rfl
  · rw [neutral]
    rfl

/-- A call has come to its end when it never entered, or has left. -/
def Settled (_ : α) (phase : Phase) : Prop := phase ≠ .inside

end Program
end Interaction
