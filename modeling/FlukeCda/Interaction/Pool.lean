import FlukeCda.Interaction.Guarded
import Mathlib.Logic.Function.Basic

namespace Interaction

/-- What an observer sees of a pool of processes. -/
inductive Event (ι : Type) (Op : Type) (Answer : Op → Type) (α : Type)
  | started (i : ι)
  | performed (i : ι) (op : Op) (answer : Answer op)
  | returned (i : ι) (value : α)

/-- Processes, each idle or in the middle of a call, over one semaphore and
the data behind it. -/
structure Pool (ι : Type) (Op : Type) (Answer : Op → Type) (α σ : Type) where
  running : ι → Option (Program Op Answer α)
  count : Nat
  data : σ

section
variable {ι : Type} [DecidableEq ι] {Op : Type} {Answer : Op → Type} {α σ : Type}
variable (role : (op : Op) → Answer op → Role) (act : (op : Op) → Answer op → σ → σ → Prop)
variable (calls : Program Op Answer α → Prop)

/-- How an operation changes the semaphore; an acquire waits for a positive count. -/
def Role.Counts : Role → Nat → Nat → Prop
  | .acquire, n, n' => n = n' + 1
  | .release, n, n' => n' = n + 1
  | .access, n, n' | .neutral, n, n' => n' = n

/-- One step of one process, the next one being anybody's. -/
inductive Step : Pool ι Op Answer α σ → Event ι Op Answer α → Pool ι Op Answer α σ → Prop
  | start {s : Pool ι Op Answer α σ} {i : ι} {p : Program Op Answer α}
      (idle : s.running i = none) (allowed : calls p) :
      Step s (.started i) { s with running := Function.update s.running i (some p) }
  | perform {s : Pool ι Op Answer α σ} {i : ι} {op : Op} {next : Answer op → Program Op Answer α}
      {answer : Answer op} {count : Nat} {data : σ} (at_call : s.running i = some (.call op next))
      (counts : (role op answer).Counts s.count count) (acts : act op answer s.data data) :
      Step s (.performed i op answer)
        { running := Function.update s.running i (some (next answer)), count, data }
  | finish {s : Pool ι Op Answer α σ} {i : ι} {value : α} (at_end : s.running i = some (.done value)) :
      Step s (.returned i value) { s with running := Function.update s.running i none }

inductive Run (s : Pool ι Op Answer α σ) : List (Event ι Op Answer α) → Pool ι Op Answer α σ → Prop
  | nil : Run s [] s
  | snoc {events : List (Event ι Op Answer α)} {t u : Pool ι Op Answer α σ} {event : Event ι Op Answer α}
      (run : Run s events t) (step : Step role act calls t event u) : Run s (events ++ [event]) u

/-- A pool nobody has called into yet, its semaphore initialised to 1. -/
def Pool.idle (data : σ) : Pool ι Op Answer α σ := ⟨fun _ => none, 1, data⟩

/-- Operations of one process on the semaphore since its last call began. -/
structure Tally where
  acquired : Nat
  released : Nat

def Tally.note (tally : Tally) : Role → Tally
  | .acquire => { tally with acquired := tally.acquired + 1 }
  | .release => { tally with released := tally.released + 1 }
  | .access | .neutral => tally

def Tally.step (i : ι) (tally : Tally) : Event ι Op Answer α → Tally
  | .started j => if j = i then ⟨0, 0⟩ else tally
  | .performed j op answer => if j = i then tally.note (role op answer) else tally
  | .returned _ _ => tally

def tallyOf (events : List (Event ι Op Answer α)) (i : ι) : Tally := events.foldl (Tally.step role i) ⟨0, 0⟩

/-- Between its acquire and its release. -/
def Holding (events : List (Event ι Op Answer α)) (i : ι) : Prop :=
  (tallyOf role events i).released < (tallyOf role events i).acquired

/-- Between two accesses of one call nobody else gets at the guarded data. -/
def AccessesApart (events : List (Event ι Op Answer α)) : Prop :=
  ∀ (i j : ι) (op op' op'' : Op) (answer : Answer op) (answer' : Answer op') (answer'' : Answer op'')
    (before middle middle' after : List (Event ι Op Answer α)),
    events = before ++ [.performed i op answer] ++ middle ++ [.performed j op' answer'] ++ middle' ++
      [.performed i op'' answer''] ++ after →
    (∀ e ∈ middle ++ .performed j op' answer' :: middle', e ≠ .started i) →
    role op answer = .access → role op' answer' = .access → role op'' answer'' = .access → j = i

theorem tallyOf_snoc (events : List (Event ι Op Answer α)) (event : Event ι Op Answer α) (i : ι) :
    tallyOf role (events ++ [event]) i = (tallyOf role events i).step role i event := by
  rw [tallyOf, List.foldl_append]
  rfl

/-- The tally of a call that keeps to the phases. -/
def Phase.tally : Phase → Tally
  | .before => ⟨0, 0⟩
  | .inside => ⟨1, 0⟩
  | .after => ⟨1, 1⟩

theorem Role.step_tally {role : Role} {phase phase' : Phase} (stepped : role.step phase = some phase') :
    phase.tally.note role = phase'.tally := by
  cases role <;> cases phase <;> cases stepped <;> rfl

theorem Phase.tally_inside {phase : Phase} : phase.tally.released < phase.tally.acquired ↔ phase = .inside := by
  cases phase <;> simp [Phase.tally]

/-- What every reachable pool satisfies, seen from one process: its remaining
program keeps to the phases from where its tally puts it. -/
def ProcessOk (events : List (Event ι Op Answer α)) (s : Pool ι Op Answer α σ) (i : ι) : Prop :=
  ∃ phase, tallyOf role events i = phase.tally ∧
    match s.running i with
    | some p => p.Guarded role Program.Settled phase
    | none => phase ≠ .inside

/-- The semaphore is down exactly while one process is inside. -/
def CountOk (events : List (Event ι Op Answer α)) (s : Pool ι Op Answer α σ) : Prop :=
  s.count = 1 ∧ (∀ i, ¬ Holding role events i) ∨ s.count = 0 ∧ ∃ i, ∀ j, Holding role events j ↔ j = i

variable {role act calls}
variable {events : List (Event ι Op Answer α)} {s t : Pool ι Op Answer α σ} {event : Event ι Op Answer α}

theorem ProcessOk.holding_iff {i : ι} {phase : Phase} (tally : tallyOf role events i = phase.tally) :
    Holding role events i ↔ phase = .inside := by
  rw [Holding, tally]
  exact phase.tally_inside

/-- A step of another process changes neither program nor tally. -/
theorem ProcessOk.of_other {i : ι} (ok : ProcessOk role events s i) (event : Event ι Op Answer α)
    (t : Pool ι Op Answer α σ) (tally : tallyOf role (events ++ [event]) i = tallyOf role events i)
    (same : t.running i = s.running i) :
    ProcessOk role (events ++ [event]) t i := by
  obtain ⟨phase, tallied, rest⟩ := ok
  refine ⟨phase, tally.trans tallied, ?_⟩
  rwa [same]

theorem ProcessOk.step (guarded : ∀ p, calls p → p.Guarded role Program.Settled .before)
    (ok : ∀ i, ProcessOk role events s i) (step : Step role act calls s event t) (i : ι) :
    ProcessOk role (events ++ [event]) t i := by
  have tally := tallyOf_snoc role events event i
  have others := (ok i).of_other event t
  cases step with
  | @start j p idle allowed =>
    by_cases same : j = i
    · subst same
      refine ⟨.before, by rw [tally, Tally.step, if_pos rfl]; rfl, ?_⟩
      simpa only [Function.update_self] using guarded p allowed
    · refine others ?_ (Function.update_of_ne (Ne.symm same) _ _)
      rw [tally, Tally.step, if_neg same]
  | @perform j op next answer count data at_call counts acts =>
    by_cases same : j = i
    · subst same
      obtain ⟨phase, tallied, rest⟩ := ok j
      rw [at_call] at rest
      obtain ⟨phase', stepped, rest'⟩ := rest answer
      refine ⟨phase', ?_, ?_⟩
      · rw [tally, Tally.step, if_pos rfl, tallied, Role.step_tally stepped]
      · simpa only [Function.update_self] using rest'
    · refine others ?_ (Function.update_of_ne (Ne.symm same) _ _)
      rw [tally, Tally.step, if_neg same]
  | @finish j value at_end =>
    by_cases same : j = i
    · subst same
      obtain ⟨phase, tallied, rest⟩ := ok j
      rw [at_end] at rest
      refine ⟨phase, tally.trans tallied, ?_⟩
      simp only [Function.update_self]
      exact rest
    · exact others tally (Function.update_of_ne (Ne.symm same) _ _)

/-- A step that nobody's hold on the semaphore depends on. -/
theorem CountOk.unchanged (ok : CountOk role events s)
    (holds : ∀ i, Holding role (events ++ [event]) i ↔ Holding role events i) (count : t.count = s.count) :
    CountOk role (events ++ [event]) t := by
  unfold CountOk at ok ⊢
  simpa only [holds, count] using ok

/-- With the semaphore taken by `j` nobody else is inside. -/
theorem CountOk.acquired {events' : List (Event ι Op Answer α)} {j : ι} (ok : CountOk role events s)
    (taken : s.count = t.count + 1) (itself : Holding role events' j)
    (others : ∀ i, j ≠ i → (Holding role events' i ↔ Holding role events i)) : CountOk role events' t := by
  rcases ok with ⟨one, none⟩ | ⟨zero, -⟩
  · refine .inr ⟨by omega, j, fun i => ?_⟩
    by_cases same : j = i
    · subst same
      exact iff_of_true itself rfl
    · rw [others i same]
      exact iff_of_false (none i) (Ne.symm same)
  · omega

/-- With the semaphore given back by `j`, who alone was inside, nobody is. -/
theorem CountOk.released {events' : List (Event ι Op Answer α)} {j : ι} (ok : CountOk role events s)
    (given : t.count = s.count + 1) (earlier : Holding role events j) (itself : ¬ Holding role events' j)
    (others : ∀ i, j ≠ i → (Holding role events' i ↔ Holding role events i)) : CountOk role events' t := by
  rcases ok with ⟨-, none⟩ | ⟨zero, k, only⟩
  · exact absurd earlier (none j)
  · have holder : j = k := (only j).mp earlier
    refine .inl ⟨by omega, fun i => ?_⟩
    by_cases same : j = i
    · subst same
      exact itself
    · rw [others i same, only i, ← holder]
      exact Ne.symm same

theorem CountOk.step (processes : ∀ i, ProcessOk role events s i) (ok : CountOk role events s)
    (step : Step role act calls s event t) : CountOk role (events ++ [event]) t := by
  have tally := tallyOf_snoc role events event
  cases step with
  | @start j p idle allowed =>
    refine ok.unchanged (fun i => ?_) rfl
    by_cases same : j = i
    · subst same
      obtain ⟨phase, tallied, rest⟩ := processes j
      rw [idle] at rest
      rw [ProcessOk.holding_iff tallied, Holding, tally, Tally.step, if_pos rfl]
      exact iff_of_false (Nat.lt_irrefl 0) rest
    · rw [Holding, tally, Tally.step, if_neg same]
      rfl
  | @finish j value at_end => exact ok.unchanged (fun i => by rw [Holding, tally]; rfl) rfl
  | @perform j op next answer count data at_call counts acts =>
    obtain ⟨phase, tallied, rest⟩ := processes j
    rw [at_call] at rest
    obtain ⟨phase', stepped, _⟩ := rest answer
    have others : ∀ i, j ≠ i →
        (Holding role (events ++ [.performed j op answer]) i ↔ Holding role events i) := by
      intro i other
      rw [Holding, tally, Tally.step, if_neg other]
      rfl
    have itself : tallyOf role (events ++ [.performed j op answer]) j = phase'.tally := by
      rw [tally, Tally.step, if_pos rfl, tallied, Role.step_tally stepped]
    have now := ProcessOk.holding_iff itself
    have earlier := ProcessOk.holding_iff tallied
    cases meaning : role op answer with
    | acquire =>
      rw [meaning] at counts stepped
      cases phase <;> cases stepped
      exact ok.acquired counts (now.mpr rfl) others
    | release =>
      rw [meaning] at counts stepped
      cases phase <;> cases stepped
      exact ok.released counts (earlier.mpr rfl) (by simp [now]) others
    | access | neutral =>
      rw [meaning] at counts stepped
      have kept : phase' = .inside ↔ phase = .inside := by
        cases phase <;> cases stepped <;> rfl
      refine ok.unchanged (fun i => ?_) counts
      by_cases same : j = i
      · subst same
        rw [now, earlier, kept]
      · exact others i same

/-- Both invariants hold after every run that starts idle. -/
theorem Run.invariant (guarded : ∀ p, calls p → p.Guarded role Program.Settled .before) {data : σ}
    (run : Run role act calls (Pool.idle data) events s) :
    (∀ i, ProcessOk role events s i) ∧ CountOk role events s := by
  induction run with
  | nil => exact ⟨fun i => ⟨.before, rfl, Phase.noConfusion⟩, Or.inl ⟨rfl, fun i => Nat.lt_irrefl 0⟩⟩
  | snoc run step ih => exact ⟨ProcessOk.step guarded ih.1 step, ih.2.step ih.1 step⟩

theorem Run.snoc_inv {u : Pool ι Op Answer α σ} (run : Run role act calls s (events ++ [event]) u) :
    ∃ t, Run role act calls s events t ∧ Step role act calls t event u := by
  generalize whole : events ++ [event] = all at run
  cases run with
  | nil => simp at whole
  | snoc run step =>
    obtain ⟨rfl, same⟩ := List.append_inj' whole rfl
    cases same
    exact ⟨_, run, step⟩

theorem Run.split {first second : List (Event ι Op Answer α)} {u : Pool ι Op Answer α σ}
    (run : Run role act calls s (first ++ second) u) :
    ∃ t, Run role act calls s first t ∧ Run role act calls t second u := by
  induction second using List.reverseRecOn generalizing u with
  | nil => exact ⟨u, by rwa [List.append_nil] at run, .nil⟩
  | append_singleton rest event ih =>
    rw [← List.append_assoc] at run
    obtain ⟨t, run', step⟩ := run.snoc_inv
    obtain ⟨m, first', rest'⟩ := ih run'
    exact ⟨m, first', rest'.snoc step⟩

/-- The count that goes with the phase of the only call that has begun. -/
def Phase.count : Phase → Nat
  | .before | .after => 1
  | .inside => 0

theorem Role.step_counts {role : Role} {phase phase' : Phase} (stepped : role.step phase = some phase') :
    role.Counts phase.count phase'.count := by
  cases role <;> cases phase <;> cases stepped <;> rfl

/-- A call that nobody interrupts can be played against a handler of its operations. -/
theorem Run.played {initial : Pool ι Op Answer α σ} {handle : (op : Op) → σ → Option (Answer op) × σ}
    (sound : ∀ op answer d d', handle op d = (some answer, d') → act op answer d d') {i : ι}
    {p : Program Op Answer α} {phase : Phase} (run : Run role act calls initial events s)
    (running : s.running i = some p) (guarded : p.Guarded role Program.Settled phase) (count : s.count = phase.count)
    {value : α} {data : σ} (ran : p.run handle s.data = (some value, data)) :
    ∃ events', Run role act calls initial events' ⟨Function.update s.running i (some (.done value)), 1, data⟩ := by
  induction p generalizing events s phase with
  | done result =>
    cases ran
    have settled : s.count = 1 := by
      cases phase with
      | before | after => exact count
      | inside => exact absurd rfl guarded
    refine ⟨events, ?_⟩
    rwa [← running, Function.update_eq_self, ← settled]
  | call op next ih =>
    simp only [Program.run] at ran
    split at ran
    · rename_i answer d handled
      obtain ⟨phase', stepped, rest⟩ := guarded answer
      have counts : (role op answer).Counts s.count phase'.count := count ▸ Role.step_counts stepped
      have step : Step role act calls s (.performed i op answer) _ :=
        Step.perform running counts (sound op answer s.data d handled)
      obtain ⟨events', played⟩ := ih answer (run.snoc step) (Function.update_self ..) rest rfl ran
      rw [Function.update_idem] at played
      exact ⟨events', played⟩
    · cases ran

section Exclusion
variable (guarded : ∀ p, calls p → p.Guarded role Program.Settled .before) {data : σ}
include guarded

theorem Run.exclusive (run : Run role act calls (Pool.idle data) events s) {i j : ι}
    (hi : Holding role events i) (hj : Holding role events j) : i = j := by
  rcases (run.invariant guarded).2 with ⟨_, none⟩ | ⟨_, k, only⟩
  · exact absurd hi (none i)
  · rw [(only i).mp hi, (only j).mp hj]

theorem Run.count_eq_one_iff (run : Run role act calls (Pool.idle data) events s) :
    s.count = 1 ↔ ∀ i, ¬ Holding role events i := by
  rcases (run.invariant guarded).2 with ⟨one, none⟩ | ⟨zero, k, only⟩
  · exact iff_of_true one none
  · exact iff_of_false (by omega) fun none => none k ((only k).mpr rfl)

/-- No call acquires twice, or releases what it does not hold. -/
theorem Run.tally_le (run : Run role act calls (Pool.idle data) events s) (i : ι) :
    (tallyOf role events i).released ≤ (tallyOf role events i).acquired ∧
    (tallyOf role events i).acquired ≤ 1 := by
  obtain ⟨phase, tallied, _⟩ := (run.invariant guarded).1 i
  rw [tallied]
  cases phase <;> simp [Phase.tally]

/-- A call that has returned has released exactly what it acquired. -/
theorem Run.returned_balanced (run : Run role act calls (Pool.idle data) events s) {i : ι}
    (idle : s.running i = none) :
    (tallyOf role events i).released = (tallyOf role events i).acquired := by
  obtain ⟨phase, tallied, outside⟩ := (run.invariant guarded).1 i
  rw [idle] at outside
  rw [tallied]
  cases phase with
  | before | after => rfl
  | inside => exact absurd rfl outside

/-- Who accesses the guarded data holds the semaphore. -/
theorem Run.access_holding {i : ι} {op : Op} {answer : Answer op}
    (run : Run role act calls (Pool.idle data) (events ++ [.performed i op answer]) s)
    (accesses : role op answer = .access) :
    tallyOf role events i = Phase.tally .inside := by
  obtain ⟨t, run', step⟩ := run.snoc_inv
  obtain ⟨phase, tallied, rest⟩ := (run'.invariant guarded).1 i
  cases step with
  | perform at_call counts acts =>
    rw [at_call] at rest
    obtain ⟨phase', stepped, _⟩ := rest answer
    rw [accesses] at stepped
    cases phase <;> cases stepped
    exact tallied

omit guarded in
theorem Tally.step_grows (role : (op : Op) → Answer op → Role) {i : ι} (tally : Tally)
    (same : event ≠ .started i) :
    tally.acquired ≤ (tally.step role i event).acquired ∧
    tally.released ≤ (tally.step role i event).released := by
  cases event with
  | started j =>
    have other : j ≠ i := fun own => same (own ▸ rfl)
    rw [Tally.step, if_neg other]
    exact ⟨Nat.le_refl _, Nat.le_refl _⟩
  | performed j op answer =>
    simp only [Tally.step]
    split_ifs
    · cases role op answer <;> simp [Tally.note]
    · exact ⟨Nat.le_refl _, Nat.le_refl _⟩
  | returned j value => exact ⟨Nat.le_refl _, Nat.le_refl _⟩

omit guarded in
/-- Within one call the tally only grows. -/
theorem tallyOf_grows (role : (op : Op) → Answer op → Role) {i : ι} (events middle : List (Event ι Op Answer α))
    (same : ∀ e ∈ middle, e ≠ .started i) :
    (tallyOf role events i).acquired ≤ (tallyOf role (events ++ middle) i).acquired ∧
      (tallyOf role events i).released ≤ (tallyOf role (events ++ middle) i).released := by
  induction middle using List.reverseRecOn with
  | nil =>
    rw [List.append_nil]
    exact ⟨Nat.le_refl _, Nat.le_refl _⟩
  | append_singleton rest event ih =>
    obtain ⟨acquired, released⟩ := ih fun e member => same e (List.mem_append_left _ member)
    have last := (tallyOf role (events ++ rest) i).step_grows role (same event (by simp))
    rw [← List.append_assoc, tallyOf_snoc]
    exact ⟨acquired.trans last.1, released.trans last.2⟩

theorem Run.accesses_apart (run : Run role act calls (Pool.idle data) events s) :
    AccessesApart role events := by
  rintro i j op op' op'' answer answer' answer'' before middle middle' after rfl same first other last
  obtain ⟨_, upToLast, _⟩ := run.split
  obtain ⟨_, run', _⟩ := upToLast.snoc_inv
  obtain ⟨_, upToOther, _⟩ := run'.split
  obtain ⟨_, beforeOther, _⟩ := upToOther.snoc_inv
  obtain ⟨_, upToFirst, _⟩ := beforeOther.split
  have entered := upToFirst.access_holding guarded first
  have others := upToOther.access_holding guarded other
  have leaving := upToLast.access_holding guarded last
  refine beforeOther.exclusive guarded (by rw [Holding, others]; exact Nat.zero_lt_one) ?_
  have afterFirst : tallyOf role (before ++ [.performed i op answer]) i = Phase.tally .inside := by
    rw [tallyOf_snoc, entered, Tally.step, if_pos rfl, first]
    rfl
  have grown := tallyOf_grows role (before ++ [.performed i op answer]) middle
    fun e member => same e (List.mem_append_left _ member)
  have grown' := tallyOf_grows role (before ++ [.performed i op answer] ++ middle)
    ([.performed j op' answer'] ++ middle')
    fun e member => same e (List.mem_append_right _ member)
  rw [← List.append_assoc, leaving] at grown'
  rw [afterFirst] at grown
  have one : 1 ≤ (tallyOf role (before ++ [.performed i op answer] ++ middle) i).acquired := grown.1
  have none : (tallyOf role (before ++ [.performed i op answer] ++ middle) i).released ≤ 0 := grown'.2
  unfold Holding
  omega

end Exclusion

end
end Interaction
