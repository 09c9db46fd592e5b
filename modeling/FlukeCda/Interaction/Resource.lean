import FlukeCda.Interaction.Interference
import FlukeCda.Interaction.Pool

/-! # The data behind the semaphore

A call that takes the semaphore finds the data as the last holder left them, has
them for itself, and has to leave them in order when it releases.
-/

namespace Interaction
namespace Program
variable {Op : Type} {Answer : Op → Type} {α β σ : Type}
variable (role : (op : Op) → Answer op → Role) (act : (op : Op) → Answer op → σ → σ → Prop)

/-- The holder, from here to its release, with which the call ends. -/
def Owned (I : σ → Prop) (post : α → σ → Prop) : Program Op Answer α → σ → Prop
  | .done _, _ => False
  | .call op next, d => ∀ answer d', act op answer d d' →
      match role op answer with
      | .acquire => False
      | .release => I d' ∧ ∃ value, next answer = .done value ∧ post value d'
      | .access | .neutral => Owned I post (next answer) d'

/-- A call that does not hold the semaphore yet. -/
def Waiting (I : σ → Prop) (post : α → σ → Prop) : Program Op Answer α → Prop
  | .done _ => True
  | .call op next => ∀ answer d d', act op answer d d' →
      match role op answer with
      | .acquire => I d → Owned role act I post (next answer) d'
      | .neutral => d' = d ∧ Waiting I post (next answer)
      | .access | .release => False

/-- A part of a call in which it keeps the semaphore. -/
def Within (Q : α → σ → Prop) : Program Op Answer α → σ → Prop
  | .done value, d => Q value d
  | .call op next, d => ∀ answer d', act op answer d d' →
      (role op answer = .access ∨ role op answer = .neutral) ∧ Within Q (next answer) d'

variable {role act} {I : σ → Prop} {post : α → σ → Prop} {d : σ}

theorem owned_step {op : Op} {f : Answer op → Program Op Answer α}
    (step : ∀ answer d', act op answer d d' →
      (role op answer = .access ∨ role op answer = .neutral) ∧ Owned role act I post (f answer) d') :
    Owned role act I post (perform op >>= f) d := by
  intro answer d' acts
  obtain ⟨meaning | meaning, rest⟩ := step answer d' acts
  · rw [meaning]
    exact rest
  · rw [meaning]
    exact rest

theorem waiting_neutral {op : Op} {f : Answer op → Program Op Answer α}
    (neutral : ∀ answer, role op answer = .neutral) (same : ∀ answer d d', act op answer d d' → d' = d)
    (rest : ∀ answer, Waiting role act I post (f answer)) : Waiting role act I post (perform op >>= f) := by
  intro answer d d' acts
  rw [neutral answer]
  exact ⟨same answer d d' acts, rest answer⟩

theorem waiting_acquire {op : Op} {f : Answer op → Program Op Answer α}
    (acquires : ∀ answer, role op answer = .acquire)
    (owns : ∀ answer d d', I d → act op answer d d' → Owned role act I post (f answer) d') :
    Waiting role act I post (perform op >>= f) := by
  intro answer d d' acts
  rw [acquires answer]
  exact fun holds => owns answer d d' holds acts

theorem owned_release {op : Op} {value : α} (releases : ∀ answer, role op answer = .release)
    (left : ∀ answer d', act op answer d d' → I d' ∧ post value d') :
    Owned role act I post (perform op >>= fun _ => .done value) d := by
  intro answer d' acts
  rw [releases answer]
  obtain ⟨kept, returned⟩ := left answer d' acts
  exact ⟨kept, value, rfl, returned⟩

theorem Within.andThen {Q : β → σ → Prop} {Q' : α → σ → Prop} {p : Program Op Answer β} {f : β → Program Op Answer α}
    (within : Within role act Q p d) (rest : ∀ value d, Q value d → Within role act Q' (f value) d) :
    Within role act Q' (p >>= f) d := by
  induction p generalizing d with
  | done value => exact rest value d within
  | call op next ih =>
    intro answer d' acts
    obtain ⟨meaning, later⟩ := within answer d' acts
    exact ⟨meaning, ih answer later⟩

theorem Within.owned {Q : β → σ → Prop} {p : Program Op Answer β} {f : β → Program Op Answer α}
    (within : Within role act Q p d) (rest : ∀ value d, Q value d → Owned role act I post (f value) d) :
    Owned role act I post (p >>= f) d := by
  induction p generalizing d with
  | done value => exact rest value d within
  | call op next ih =>
    refine owned_step fun answer d' acts => ?_
    obtain ⟨meaning, later⟩ := within answer d' acts
    exact ⟨meaning, ih answer later⟩

/-- Operations that keep an assertion and the semaphore. -/
theorem within_only {allowed : Op → Prop} {P : σ → Prop} {p : Program Op Answer α}
    (fine : ∀ op answer, allowed op → role op answer = .access ∨ role op answer = .neutral)
    (kept : ∀ op answer d d', allowed op → P d → act op answer d d' → P d') (only : OnlyPerforms allowed p)
    (holds : P d) : Within role act (fun _ => P) p d := by
  induction p generalizing d with
  | done value => exact holds
  | call op next ih =>
    intro answer d' acts
    exact ⟨fine op answer only.1, ih answer (only.2 answer) (kept op answer d d' only.1 holds acts)⟩

end Program
open Program

section
variable {ι : Type} [DecidableEq ι] {Op : Type} {Answer : Op → Type} {α σ : Type}
variable {role : (op : Op) → Answer op → Role} {act : (op : Op) → Answer op → σ → σ → Prop}
variable {calls : Program Op Answer α → Prop} {I : σ → Prop} {post : α → σ → Prop}
variable {events : List (Event ι Op Answer α)} {s t : Pool ι Op Answer α σ} {event : Event ι Op Answer α}

/-- Where a call stands, with the rest of its program. -/
inductive Standing (role : (op : Op) → Answer op → Role) (act : (op : Op) → Answer op → σ → σ → Prop) (I : σ → Prop)
    (post : α → σ → Prop) (tally : Tally) (data : σ) (p : Program Op Answer α) : Prop
  | waiting (before : tally = Phase.tally .before) (waits : Waiting role act I post p)
  | owned (inside : tally = Phase.tally .inside) (owns : Owned role act I post p data)
  | ended (after : tally = Phase.tally .after) (value : α) (done : p = .done value)

/-- The data are in order while the semaphore is free, and every call is in its place. -/
structure Resourced (role : (op : Op) → Answer op → Role) (act : (op : Op) → Answer op → σ → σ → Prop) (I : σ → Prop)
    (post : α → σ → Prop) (events : List (Event ι Op Answer α)) (s : Pool ι Op Answer α σ) : Prop where
  free : s.count = 1 → I s.data
  standing : ∀ i p, s.running i = some p → Standing role act I post (tallyOf role events i) s.data p

/-- Data that nobody holds may change. -/
theorem Standing.outside {tally : Tally} {data data' : σ} {p : Program Op Answer α}
    (standing : Standing role act I post tally data p) (outside : ¬ tally.released < tally.acquired) :
    Standing role act I post tally data' p := by
  cases standing with
  | waiting before waits => exact .waiting before waits
  | owned inside owns =>
    rw [inside] at outside
    exact absurd Nat.zero_lt_one outside
  | ended after value done => exact .ended after value done

theorem tallyOf_performed (role : (op : Op) → Answer op → Role) (events : List (Event ι Op Answer α)) (j : ι) (op : Op)
    (answer : Answer op) :
    tallyOf role (events ++ [.performed j op answer]) j = (tallyOf role events j).note (role op answer) := by
  rw [tallyOf_snoc, Tally.step, if_pos rfl]

/-- A step of another call, which changes the data only if nobody else holds them. -/
theorem Resourced.other (ok : Resourced role act I post events s) {i : ι} {p : Program Op Answer α}
    (running : s.running i = some p) (tally : tallyOf role (events ++ [event]) i = tallyOf role events i)
    (aside : t.data = s.data ∨ ¬ Holding role events i) :
    Standing role act I post (tallyOf role (events ++ [event]) i) t.data p := by
  rw [tally]
  have standing := ok.standing i p running
  rcases aside with same | outside
  · rwa [same]
  · exact standing.outside outside

/-- What an operation makes of the call that performs it, of the semaphore and of the data. -/
theorem Resourced.performed (count : CountOk role events s) (ok : Resourced role act I post events s) {j : ι} {op : Op}
    {next : Answer op → Program Op Answer α} {answer : Answer op} {left : Nat} {data : σ}
    (at_call : s.running j = some (.call op next)) (counts : (role op answer).Counts s.count left)
    (acts : act op answer s.data data) :
    Standing role act I post ((tallyOf role events j).note (role op answer)) data (next answer) ∧
      (left = 1 → I data) ∧ ∀ i, i ≠ j → data = s.data ∨ ¬ Holding role events i := by
  have standing := ok.standing j _ at_call
  cases standing with
  | waiting before waits =>
    have rest := waits answer s.data data acts
    rw [before]
    cases meaning : role op answer with
    | acquire =>
      rw [meaning] at rest counts
      change s.count = left + 1 at counts
      rcases count with ⟨one, nobody⟩ | ⟨zero, -⟩
      · refine ⟨.owned rfl (rest (ok.free one)), fun free => ?_, fun i _ => .inr (nobody i)⟩
        omega
      · omega
    | neutral =>
      rw [meaning] at rest counts
      obtain ⟨same, rest⟩ := rest
      refine ⟨.waiting rfl rest, fun free => ?_, fun i _ => .inl same⟩
      rw [same]
      exact ok.free (counts ▸ free)
    | access | release =>
      rw [meaning] at rest
      exact rest.elim
  | owned inside owns =>
    have rest := owns answer data acts
    have holding : Holding role events j := by
      rw [Holding, inside]
      exact Nat.zero_lt_one
    rcases count with ⟨-, nobody⟩ | ⟨zero, k, only⟩
    · exact absurd holding (nobody j)
    have alone : ∀ i, i ≠ j → data = s.data ∨ ¬ Holding role events i := by
      intro i other
      refine .inr fun also => other ?_
      rw [(only i).mp also, (only j).mp holding]
    rw [inside]
    cases meaning : role op answer with
    | acquire =>
      rw [meaning] at rest
      exact rest.elim
    | release =>
      rw [meaning] at rest
      obtain ⟨kept, value, done, -⟩ := rest
      exact ⟨.ended rfl value done, fun _ => kept, alone⟩
    | access | neutral =>
      rw [meaning] at rest counts
      change left = s.count at counts
      refine ⟨.owned rfl rest, fun free => ?_, alone⟩
      omega
  | ended after value done => cases done

theorem Resourced.step (waits : ∀ p, calls p → Waiting role act I post p) (count : CountOk role events s)
    (ok : Resourced role act I post events s) (step : Step role act calls s event t) :
    Resourced role act I post (events ++ [event]) t := by
  have tally := tallyOf_snoc role events event
  cases step with
  | @start j p idle allowed =>
    refine ⟨ok.free, fun i q running => ?_⟩
    by_cases same : j = i
    · subst same
      simp only [Function.update_self, Option.some.injEq] at running
      subst running
      refine .waiting ?_ (waits p allowed)
      rw [tally, Tally.step, if_pos rfl]
      rfl
    · simp only [Function.update_of_ne (Ne.symm same)] at running
      refine ok.other running ?_ (.inl rfl)
      rw [tally, Tally.step, if_neg same]
  | @perform j op next answer left data at_call counts acts =>
    obtain ⟨itself, free, alone⟩ := Resourced.performed count ok at_call counts acts
    refine ⟨free, fun i q running => ?_⟩
    by_cases same : j = i
    · subst same
      simp only [Function.update_self, Option.some.injEq] at running
      subst running
      rwa [tallyOf_performed]
    · simp only [Function.update_of_ne (Ne.symm same)] at running
      refine ok.other running ?_ (alone i (Ne.symm same))
      rw [tally, Tally.step, if_neg same]
  | @finish j value at_end =>
    refine ⟨ok.free, fun i q running => ?_⟩
    by_cases same : j = i
    · subst same
      simp only [Function.update_self] at running
      cases running
    · simp only [Function.update_of_ne (Ne.symm same)] at running
      exact ok.other running (tally i) (.inl rfl)

section Runs
variable (guarded : ∀ p, calls p → p.Guarded role Program.Settled .before)
variable (waits : ∀ p, calls p → Waiting role act I post p) {data : σ} (initial : I data)
include guarded waits initial

theorem Run.resourced (run : Run role act calls (Pool.idle data) events s) : Resourced role act I post events s := by
  induction run with
  | nil =>
    refine ⟨fun _ => initial, fun i p running => ?_⟩
    cases running
  | snoc run step ih => exact ih.step waits (run.invariant guarded).2 step

/-- A call that comes to its end without the semaphore has changed nothing; with
its release it leaves the data in order, and returns what it should. -/
theorem Run.returns (run : Run role act calls (Pool.idle data) events s) {i : ι} {op : Op} {answer : Answer op}
    (step : Step role act calls s (.performed i op answer) t) {value : α} (done : t.running i = some (.done value)) :
    (tallyOf role (events ++ [.performed i op answer]) i = Phase.tally .before ∧ t.data = s.data) ∨
      (role op answer = .release ∧ I t.data ∧ post value t.data) := by
  have ok := run.resourced guarded waits initial
  cases step with
  | @perform i op next answer left data at_call counts acts =>
    simp only [Function.update_self, Option.some.injEq] at done
    rw [tallyOf_performed]
    cases ok.standing i _ at_call with
    | waiting before waits =>
      have rest := waits answer s.data data acts
      rw [before]
      cases meaning : role op answer with
      | acquire =>
        rw [meaning] at rest counts
        change s.count = left + 1 at counts
        have one : s.count = 1 := by
          rcases (run.invariant guarded).2 with ⟨one, -⟩ | ⟨zero, -⟩ <;> omega
        have owns := rest (ok.free one)
        rw [done] at owns
        exact owns.elim
      | neutral =>
        rw [meaning] at rest
        exact .inl ⟨rfl, rest.1⟩
      | access | release =>
        rw [meaning] at rest
        exact rest.elim
    | owned inside owns =>
      have rest := owns answer data acts
      cases meaning : role op answer with
      | acquire =>
        rw [meaning] at rest
        exact rest.elim
      | release =>
        rw [meaning] at rest
        obtain ⟨kept, returned, ended, holds⟩ := rest
        rw [ended] at done
        cases done
        exact .inr ⟨rfl, kept, holds⟩
      | access | neutral =>
        rw [meaning, done] at rest
        exact rest.elim
    | ended after value ended => cases ended

end Runs

end
end Interaction
