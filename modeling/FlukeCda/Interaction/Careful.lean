import FlukeCda.Interaction.Interference
import FlukeCda.Interaction.Pool

/-! # Operations on data that are found in order

Inside the semaphore a call knows the data it goes on from, outside it may find
any. A call is careful when each operation it comes to is one it may perform on
the data it finds there. Tags tell the operations of different calls apart.
-/

namespace Interaction
namespace Program
variable {Op : Type} {Answer : Op → Type} {α β σ τ : Type}
variable (role : (op : Op) → Answer op → Role) (act : (op : Op) → Answer op → σ → σ → Prop) (may : Op → σ → Prop)

/-- From a phase on, and inside from these data on, the program only performs what it may. -/
def Careful (post : α → Phase → σ → Prop) : Phase → Program Op Answer α → σ → Prop
  | phase, .done value, d => post value phase d
  | phase, .call op next, d => ∀ found, (phase = .inside → found = d) → may op found ∧
      ∀ answer d' phase', act op answer found d' → (role op answer).step phase = some phase' →
        Careful post phase' (next answer) d'

/-- A whole call, of which nothing more is asked. -/
abbrev CarefulCall (phase : Phase) (p : Program Op Answer α) (d : σ) : Prop :=
  Careful role act may (fun _ _ _ => True) phase p d

variable {role act may} {post : α → Phase → σ → Prop} {phase phase' : Phase} {d : σ}

theorem careful_bind {post : β → Phase → σ → Prop} {p : Program Op Answer α} {f : α → Program Op Answer β}
    (careful : Careful role act may (fun value phase' d' => Careful role act may post phase' (f value) d') phase p d) :
    Careful role act may post phase (p >>= f) d := by
  induction p generalizing phase d with
  | done value => exact careful
  | call op next ih =>
    intro found same
    obtain ⟨permitted, rest⟩ := careful found same
    exact ⟨permitted, fun answer d' phase' acts stepped => ih answer (rest answer d' phase' acts stepped)⟩

theorem Careful.mono {post' : α → Phase → σ → Prop} {p : Program Op Answer α}
    (careful : Careful role act may post phase p d)
    (weaker : ∀ value phase d, post value phase d → post' value phase d) : Careful role act may post' phase p d := by
  induction p generalizing phase d with
  | done value => exact weaker value phase d careful
  | call op next ih =>
    intro found same
    obtain ⟨permitted, rest⟩ := careful found same
    exact ⟨permitted, fun answer d' phase' acts stepped => ih answer (rest answer d' phase' acts stepped)⟩

/-- An operation whose role does not depend on its answer. -/
theorem careful_perform {op : Op} {f : Answer op → Program Op Answer α} {always : Role}
    (same : ∀ answer, role op answer = always) (stepped : always.step phase = some phase')
    (permitted : ∀ found, (phase = .inside → found = d) → may op found)
    (rest : ∀ answer found d', (phase = .inside → found = d) → act op answer found d' →
      Careful role act may post phase' (f answer) d') :
    Careful role act may post phase (perform op >>= f) d := by
  intro found here
  refine ⟨permitted found here, fun answer d' next acts goes => ?_⟩
  rw [same answer, stepped] at goes
  cases goes
  exact rest answer found d' here acts

/-- Operations that keep an assertion under which they may all be performed. -/
theorem careful_only {allowed : Op → Prop} {P : σ → Prop} {p : Program Op Answer α}
    (fine : ∀ op answer, allowed op → role op answer = .access ∨ role op answer = .neutral)
    (permitted : ∀ op d, allowed op → P d → may op d)
    (kept : ∀ op answer d d', allowed op → P d → act op answer d d' → P d') (only : OnlyPerforms allowed p)
    (holds : P d) : Careful role act may (fun _ phase d => phase = .inside ∧ P d) .inside p d := by
  induction p generalizing d with
  | done value => exact ⟨rfl, holds⟩
  | call op next ih =>
    intro found same
    rw [same rfl]
    refine ⟨permitted op d only.1 holds, fun answer d' phase' acts stepped => ?_⟩
    have stays : phase' = .inside := by
      rcases fine op answer only.1 with meaning | meaning <;>
        · rw [meaning] at stepped
          cases stepped
          rfl
    rw [stays]
    exact ih answer (only.2 answer) (kept op answer d d' only.1 holds acts)

/-- Outside the semaphore the data do not matter. -/
theorem Careful.outside {p : Program Op Answer α} (careful : CarefulCall role act may phase p d)
    (outside : phase ≠ .inside) (d' : σ) : CarefulCall role act may phase p d' := by
  cases p with
  | done value => trivial
  | call op next => exact fun found _ => careful found fun inside => absurd inside outside

/-- The program with a tag on each of its operations. -/
def tagged (tag : τ) : Program Op Answer α → Program (τ × Op) (fun x => Answer x.2) α
  | .done value => .done value
  | .call op next => .call (tag, op) fun answer => (next answer).tagged tag

def taggedRole (role : (op : Op) → Answer op → Role) (x : τ × Op) (answer : Answer x.2) : Role := role x.2 answer

def taggedAct (act : (op : Op) → Answer op → σ → σ → Prop) (x : τ × Op) (answer : Answer x.2) : σ → σ → Prop :=
  act x.2 answer

theorem Guarded.tagged {post : α → Phase → Prop} {p : Program Op Answer α} (tag : τ)
    (guarded : p.Guarded role post phase) : (p.tagged tag).Guarded (taggedRole role) post phase := by
  induction p generalizing phase with
  | done value => exact guarded
  | call op next ih =>
    intro answer
    obtain ⟨phase', stepped, rest⟩ := guarded answer
    exact ⟨phase', stepped, ih answer rest⟩

theorem Careful.tagged {may : τ × Op → σ → Prop} {p : Program Op Answer α} {tag : τ}
    (careful : Careful role act (fun op => may (tag, op)) post phase p d) :
    Careful (taggedRole role) (taggedAct act) may post phase (p.tagged tag) d := by
  induction p generalizing phase d with
  | done value => exact careful
  | call op next ih =>
    intro found same
    obtain ⟨permitted, rest⟩ := careful found same
    exact ⟨permitted, fun answer d' phase' acts stepped => ih answer (rest answer d' phase' acts stepped)⟩

end Program
open Program

section
variable {ι : Type} [DecidableEq ι] {Op : Type} {Answer : Op → Type} {α σ : Type}
variable {role : (op : Op) → Answer op → Role} {act : (op : Op) → Answer op → σ → σ → Prop} {may : Op → σ → Prop}
variable {calls : Program Op Answer α → Prop} {events : List (Event ι Op Answer α)} {s t : Pool ι Op Answer α σ}

theorem Phase.tally_injective (phase phase' : Phase) (same : phase.tally = phase'.tally) : phase = phase' := by
  cases phase <;> cases phase' <;> first | rfl | cases same

/-- The rest of every call is careful from where its tally puts it. -/
def AllCareful (role : (op : Op) → Answer op → Role) (act : (op : Op) → Answer op → σ → σ → Prop)
    (may : Op → σ → Prop) (events : List (Event ι Op Answer α)) (s : Pool ι Op Answer α σ) : Prop :=
  ∀ i p phase, s.running i = some p → tallyOf role events i = phase.tally → CarefulCall role act may phase p s.data

/-- While one call is inside, what another one performs leaves the data alone. -/
theorem data_kept {i j : ι} {op : Op} {next : Answer op → Program Op Answer α} {answer : Answer op} {count : Nat}
    {data : σ} (aside : ∀ op answer d d', role op answer = .neutral → act op answer d d' → d' = d)
    (processes : ∀ i, ProcessOk role events s i) (counted : CountOk role events s)
    (at_call : s.running j = some (.call op next)) (counts : (role op answer).Counts s.count count)
    (acts : act op answer s.data data) (holding : Holding role events i) (other : j ≠ i) : data = s.data := by
  obtain ⟨phase, tallied, rest⟩ := processes j
  rw [at_call] at rest
  obtain ⟨phase', stepped, -⟩ := rest answer
  rcases counted with ⟨-, nobody⟩ | ⟨zero, k, only⟩
  · exact absurd holding (nobody i)
  have alone : phase ≠ .inside := by
    intro inside
    have also := (ProcessOk.holding_iff tallied).mpr inside
    rw [(only j).mp also, (only i).mp holding] at other
    exact other rfl
  cases meaning : role op answer with
  | neutral => exact aside op answer s.data data meaning acts
  | acquire =>
    rw [meaning] at counts
    change s.count = count + 1 at counts
    omega
  | access | release =>
    rw [meaning] at stepped
    cases phase with
    | inside => exact absurd rfl alone
    | before | after => cases stepped

theorem AllCareful.step {event : Event ι Op Answer α}
    (aside : ∀ op answer d d', role op answer = .neutral → act op answer d d' → d' = d)
    (begins : ∀ p, calls p → ∀ d, CarefulCall role act may .before p d) (processes : ∀ i, ProcessOk role events s i)
    (counted : CountOk role events s) (careful : AllCareful role act may events s)
    (step : Step role act calls s event t) : AllCareful role act may (events ++ [event]) t := by
  intro i p phase running tallied
  rw [tallyOf_snoc] at tallied
  cases step with
  | @start j q idle allowed =>
    by_cases same : j = i
    · subst same
      rw [Tally.step, if_pos rfl] at tallied
      simp only [Function.update_self, Option.some.injEq] at running
      subst running
      cases Phase.tally_injective .before phase tallied
      exact begins q allowed s.data
    · rw [Tally.step, if_neg same] at tallied
      simp only [Function.update_of_ne (Ne.symm same)] at running
      exact careful i p phase running tallied
  | @perform j op next answer count data at_call counts acts =>
    by_cases same : j = i
    · subst same
      obtain ⟨phase', earlier, rest⟩ := processes j
      have guarded := rest
      rw [at_call] at guarded
      obtain ⟨now, stepped, -⟩ := guarded answer
      rw [Tally.step, if_pos rfl, earlier, Role.step_tally stepped] at tallied
      simp only [Function.update_self, Option.some.injEq] at running
      subst running
      cases Phase.tally_injective now phase tallied
      exact (careful j _ phase' at_call earlier s.data fun _ => rfl).2 answer data phase acts stepped
    · rw [Tally.step, if_neg same] at tallied
      simp only [Function.update_of_ne (Ne.symm same)] at running
      have earlier := careful i p phase running tallied
      by_cases inside : phase = .inside
      · have holding := (ProcessOk.holding_iff tallied).mpr inside
        have kept := data_kept aside processes counted at_call counts acts holding same
        rwa [← kept] at earlier
      · exact earlier.outside inside data
  | @finish j value at_end =>
    by_cases same : j = i
    · subst same
      simp only [Function.update_self, reduceCtorEq] at running
    · simp only [Function.update_of_ne (Ne.symm same)] at running
      exact careful i p phase running tallied

/-- In every run of careful calls each operation is one that may be performed on
the data it is performed on. -/
theorem Run.careful (guarded : ∀ p, calls p → p.Guarded role Program.Settled .before)
    (aside : ∀ op answer d d', role op answer = .neutral → act op answer d d' → d' = d)
    (begins : ∀ p, calls p → ∀ d, CarefulCall role act may .before p d) {data : σ}
    (run : Run role act calls (Pool.idle data) events s) : AllCareful role act may events s := by
  induction run with
  | nil => exact fun i p phase running => by cases running
  | @snoc events t u event run step ih =>
    obtain ⟨processes, counted⟩ := run.invariant guarded
    exact ih.step aside begins processes counted step

theorem Run.may_perform (guarded : ∀ p, calls p → p.Guarded role Program.Settled .before)
    (aside : ∀ op answer d d', role op answer = .neutral → act op answer d d' → d' = d)
    (begins : ∀ p, calls p → ∀ d, CarefulCall role act may .before p d) {data : σ}
    (run : Run role act calls (Pool.idle data) events s) {i : ι} {op : Op} {answer : Answer op}
    (step : Step role act calls s (.performed i op answer) t) : may op s.data ∧ act op answer s.data t.data := by
  obtain ⟨phase, tallied, -⟩ := (run.invariant guarded).1 i
  cases step with
  | perform at_call counts acts =>
    have careful := run.careful guarded aside begins i _ phase at_call tallied
    exact ⟨(careful s.data fun _ => rfl).1, acts⟩

end

section Tags
variable {ι : Type} [DecidableEq ι] {Op τ : Type} {Answer : Op → Type} {α σ : Type}

namespace Program

/-- The program without its tags. -/
def untagged : Program (τ × Op) (fun x => Answer x.2) α → Program Op Answer α
  | .done value => .done value
  | .call x next => .call x.2 fun answer => (next answer).untagged

theorem untagged_tagged (tag : τ) (p : Program Op Answer α) : (p.tagged tag).untagged = p := by
  induction p with
  | done value => rfl
  | call op next ih => exact congrArg (Program.call op) (funext ih)

end Program

def Event.untag : Event ι (τ × Op) (fun x => Answer x.2) α → Event ι Op Answer α
  | .started i => .started i
  | .performed i x answer => .performed i x.2 answer
  | .returned i value => .returned i value

def Pool.untag (s : Pool ι (τ × Op) (fun x => Answer x.2) α σ) : Pool ι Op Answer α σ where
  running := fun i => (s.running i).map untagged
  count := s.count
  data := s.data

theorem Pool.untag_update (running : ι → Option (Program (τ × Op) (fun x => Answer x.2) α)) (j : ι)
    (p : Option (Program (τ × Op) (fun x => Answer x.2) α)) :
    (fun i => (Function.update running j p i).map untagged) =
      Function.update (fun i => (running i).map untagged) j (p.map untagged) := by
  funext i
  by_cases same : i = j
  · subst same
    simp only [Function.update_self]
  · simp only [Function.update_of_ne same]

variable {role : (op : Op) → Answer op → Role} {act : (op : Op) → Answer op → σ → σ → Prop}
variable {calls : Program Op Answer α → Prop} {tagCalls : Program (τ × Op) (fun x => Answer x.2) α → Prop}

/-- A step of tagged calls does for the untagged ones what it does. -/
theorem Step.tagged (begins : ∀ p, calls p → ∃ tag, tagCalls (p.tagged tag))
    {s : Pool ι (τ × Op) (fun x => Answer x.2) α σ} {event : Event ι Op Answer α} {t : Pool ι Op Answer α σ}
    (step : Step role act calls s.untag event t) :
    ∃ event' t', Step (taggedRole role) (taggedAct act) tagCalls s event' t' ∧ event'.untag = event ∧ t'.untag = t := by
  generalize whole : s.untag = u at step
  cases step with
  | @start i p idle allowed =>
    subst whole
    obtain ⟨tag, tagged⟩ := begins p allowed
    refine ⟨.started i, _, .start (Option.map_eq_none_iff.mp idle) tagged, rfl, ?_⟩
    simp only [Pool.untag, Pool.untag_update, Option.map_some, untagged_tagged]
  | @perform i op next answer count data at_call counts acts =>
    subst whole
    obtain ⟨p, running, same⟩ := Option.map_eq_some_iff.mp at_call
    cases p with
    | done value => cases same
    | call x next' =>
      cases same
      refine ⟨.performed i x answer, _, .perform running counts acts, rfl, ?_⟩
      simp only [Pool.untag, Pool.untag_update, Option.map_some]
  | @finish i value at_end =>
    subst whole
    obtain ⟨p, running, same⟩ := Option.map_eq_some_iff.mp at_end
    cases p with
    | done other =>
      cases same
      refine ⟨.returned i value, _, .finish running, rfl, ?_⟩
      simp only [Pool.untag, Pool.untag_update, Option.map_none]
    | call x next' => cases same

/-- Every run of calls is one of tagged calls that has lost its tags. -/
theorem Run.tagged (begins : ∀ p, calls p → ∃ tag, tagCalls (p.tagged tag)) {data : σ}
    {events : List (Event ι Op Answer α)} {s : Pool ι Op Answer α σ}
    (run : Run role act calls (Pool.idle data) events s) :
    ∃ events' s', Run (taggedRole role) (taggedAct act) tagCalls (Pool.idle data) events' s' ∧
      events'.map Event.untag = events ∧ s'.untag = s := by
  induction run with
  | nil => exact ⟨[], Pool.idle data, .nil, rfl, rfl⟩
  | snoc run step ih =>
    obtain ⟨events', t', run', rfl, rfl⟩ := ih
    obtain ⟨event', u', step', rfl, rfl⟩ := step.tagged begins
    exact ⟨events' ++ [event'], u', run'.snoc step', List.map_append, rfl⟩

end Tags
end Interaction
