import FlukeCda.Interaction.Interference
import Mathlib.Logic.Function.Basic

/-! # Processes side by side

Each process makes calls of its own over a common state. What one of them may do
is what the others can rely on.
-/

namespace Interaction
open Program Relation

/-- Two accounts of one program, each with what it may do. -/
theorem Program.Safe.meet {Op : Type} {Answer : Op → Type} {α σ : Type} {act : (op : Op) → Answer op → σ → σ → Prop}
    {drift : σ → σ → Prop} {may may' : Op → σ → Prop} {I I' : σ → Prop} {Q Q' : α → σ → Prop} {p : Program Op Answer α}
    {s : σ} (safe : Safe act drift may I Q p s) (also : Safe act drift may' I' Q' p s) :
    Safe act drift (fun op s => may op s ∧ may' op s) (fun s => I s ∧ I' s) (fun value s => Q value s ∧ Q' value s)
      p s := by
  induction p generalizing s with
  | done value =>
    intro t later
    obtain ⟨here, post⟩ := safe t later
    obtain ⟨here', post'⟩ := also t later
    exact ⟨⟨here, here'⟩, post, post'⟩
  | call op next ih =>
    intro t later
    obtain ⟨⟨here, permitted⟩, rest⟩ := safe t later
    obtain ⟨⟨here', permitted'⟩, rest'⟩ := also t later
    refine ⟨⟨⟨here, here'⟩, permitted, permitted'⟩, fun answer u acts => ?_⟩
    exact ih answer (rest answer u acts) (rest' answer u acts)

/-- In a smaller environment a program is as safe. -/
theorem Program.Safe.narrow {Op : Type} {Answer : Op → Type} {α σ : Type}
    {act act' : (op : Op) → Answer op → σ → σ → Prop}
    {drift drift' : σ → σ → Prop} {may : Op → σ → Prop} {I : σ → Prop} {Q : α → σ → Prop} {p : Program Op Answer α}
    {s : σ}
    (fewer : ∀ op answer s t, act' op answer s t → act op answer s t) (less : ∀ s t, drift' s t → drift s t)
    (safe : Safe act drift may I Q p s) : Safe act' drift' may I Q p s := by
  induction p generalizing s with
  | done value => exact fun t later => safe t (ReflTransGen.mono less s t later)
  | call op next ih =>
    intro t later
    obtain ⟨here, rest⟩ := safe t (ReflTransGen.mono less s t later)
    exact ⟨here, fun answer u acts => ih answer (rest answer u (fewer op answer t u acts))⟩

/-- The common state, and of each process the rest of the call it is making. -/
structure Crowd (ι Op : Type) (Answer : Op → Type) (α σ : Type) where
  state : σ
  running : ι → Option (Program Op Answer α)

/-- Which calls a process may begin, what its operations do, and how a call ends. -/
structure Joint (ι Op : Type) (Answer : Op → Type) (α σ : Type) where
  calls : ι → Program Op Answer α → Prop
  act : ι → (op : Op) → Answer op → σ → σ → Prop
  ends : ι → α → σ → σ → Prop

section
variable {ι : Type} {Op : Type} {Answer : Op → Type} {α σ : Type}

/-- One step of one process, the next one being anybody's. -/
inductive Joint.Step [DecidableEq ι] (joint : Joint ι Op Answer α σ) :
    Crowd ι Op Answer α σ → Crowd ι Op Answer α σ → Prop
  | begin {crowd : Crowd ι Op Answer α σ} {i : ι} {p : Program Op Answer α} (idle : crowd.running i = none)
      (calls : joint.calls i p) : Step joint crowd { crowd with running := Function.update crowd.running i (some p) }
  | perform {crowd : Crowd ι Op Answer α σ} {i : ι} {op : Op} {next : Answer op → Program Op Answer α}
      {answer : Answer op} {t : σ} (at_call : crowd.running i = some (.call op next))
      (acts : joint.act i op answer crowd.state t) :
      Step joint crowd ⟨t, Function.update crowd.running i (some (next answer))⟩
  | finish {crowd : Crowd ι Op Answer α σ} {i : ι} {value : α} {t : σ} (at_end : crowd.running i = some (.done value))
      (ends : joint.ends i value crowd.state t) : Step joint crowd ⟨t, Function.update crowd.running i none⟩

variable (joint : Joint ι Op Answer α σ) (may : ι → Op → σ → Prop) (rely : ι → σ → σ → Prop) (I : σ → Prop)
  (Rest : ι → σ → Prop) (Leaves : ι → α → σ → Prop)

/-- The rest of a call, among the others. -/
abbrev Joint.Safely (i : ι) (p : Program Op Answer α) (s : σ) : Prop :=
  Safe (fun op answer s t => joint.act i op answer s t ∧ I s ∧ I t) (fun s t => rely i s t ∧ I s ∧ I t) (may i)
    (fun _ => True) (Leaves i) p s

/-- What one process does keeps `I` and what the others rely on; and relying on
the others each call is safe, and leaves its process at rest. -/
structure Joint.Sound : Prop where
  acts : ∀ i op answer s t, I s → may i op s → joint.act i op answer s t → I t ∧ ∀ j, j ≠ i → rely j s t
  ends : ∀ i value s t, I s → Leaves i value s → joint.ends i value s t → (I t ∧ Rest i t) ∧ ∀ j, j ≠ i → rely j s t
  rest : ∀ i, Stable (rely i) (Rest i)
  safe : ∀ i p s, I s → Rest i s → joint.calls i p → joint.Safely may rely I Leaves i p s

/-- A process is at rest, or safe for the rest of its call. -/
def Crowd.OkAt (crowd : Crowd ι Op Answer α σ) (i : ι) : Prop :=
  match crowd.running i with
  | none => Rest i crowd.state
  | some p => joint.Safely may rely I Leaves i p crowd.state

def Crowd.Ok (crowd : Crowd ι Op Answer α σ) : Prop :=
  I crowd.state ∧ ∀ i, crowd.OkAt joint may rely I Rest Leaves i

variable {joint may rely I Rest Leaves} {crowd later : Crowd ι Op Answer α σ}

theorem Crowd.Ok.at_call (ok : crowd.Ok joint may rely I Rest Leaves) {i : ι} {p : Program Op Answer α}
    (running : crowd.running i = some p) : joint.Safely may rely I Leaves i p crowd.state := by
  have own := ok.2 i
  rwa [Crowd.OkAt, running] at own

theorem Crowd.okAt_none {i : ι} (idle : crowd.running i = none) (rest : Rest i crowd.state) :
    crowd.OkAt joint may rely I Rest Leaves i := by
  rwa [Crowd.OkAt, idle]

theorem Crowd.okAt_some {i : ι} {p : Program Op Answer α} (running : crowd.running i = some p)
    (safe : joint.Safely may rely I Leaves i p crowd.state) : crowd.OkAt joint may rely I Rest Leaves i := by
  rwa [Crowd.OkAt, running]

/-- A process that another one's step passes over. -/
theorem Crowd.Ok.other (ok : crowd.Ok joint may rely I Rest Leaves) (sound : joint.Sound may rely I Rest Leaves) {i : ι}
    (same : later.running i = crowd.running i) (kept : I later.state) (relied : rely i crowd.state later.state) :
    later.OkAt joint may rely I Rest Leaves i := by
  have before := ok.2 i
  cases running : crowd.running i with
  | none =>
    rw [Crowd.OkAt, running] at before
    exact okAt_none (same.trans running) (sound.rest i _ _ relied before)
  | some p =>
    have safe := ok.at_call running
    exact okAt_some (same.trans running) (safe.drifted ⟨relied, ok.1, kept⟩)

theorem Crowd.Ok.step [DecidableEq ι] (ok : crowd.Ok joint may rely I Rest Leaves)
    (sound : joint.Sound may rely I Rest Leaves) (stepped : joint.Step crowd later) :
    later.Ok joint may rely I Rest Leaves := by
  cases stepped with
  | @begin i p idle calls =>
    refine ⟨ok.1, fun j => ?_⟩
    have before := ok.2 j
    by_cases same : j = i
    · subst same
      rw [Crowd.OkAt, idle] at before
      exact okAt_some (Function.update_self _ _ _) (sound.safe j p _ ok.1 before calls)
    · simp only [Crowd.OkAt, Function.update_of_ne same]
      exact before
  | @perform i op next answer t running acts =>
    have own := ok.at_call running
    obtain ⟨kept, relied⟩ := sound.acts i op answer _ t ok.1 own.permitted acts
    refine ⟨kept, fun j => ?_⟩
    by_cases same : j = i
    · subst same
      exact okAt_some (Function.update_self _ _ _) (own.performed ⟨acts, ok.1, kept⟩)
    · exact ok.other sound (Function.update_of_ne same _ _) kept (relied j same)
  | @finish i value t running ends =>
    have own := ok.at_call running
    obtain ⟨⟨kept, rest⟩, relied⟩ := sound.ends i value _ t ok.1 own.finished ends
    refine ⟨kept, fun j => ?_⟩
    by_cases same : j = i
    · subst same
      exact okAt_none (Function.update_self _ _ _) rest
    · exact ok.other sound (Function.update_of_ne same _ _) kept (relied j same)

theorem Crowd.Ok.run [DecidableEq ι] (ok : crowd.Ok joint may rely I Rest Leaves)
    (sound : joint.Sound may rely I Rest Leaves) (run : ReflTransGen joint.Step crowd later) :
    later.Ok joint may rely I Rest Leaves := by
  induction run with
  | refl => exact ok
  | tail _ last ih => exact ih.step sound last

/-- What a process does alone it can do among the others. -/
theorem Joint.alone [DecidableEq ι] {i : ι} {p q : Program Op Answer α} {t : σ} (running : crowd.running i = some p)
    (moves : ReflTransGen (Moves (joint.act i) fun _ _ => False) (p, crowd.state) (q, t)) :
    ReflTransGen joint.Step crowd ⟨t, Function.update crowd.running i (some q)⟩ := by
  have carried : ∀ now : Program Op Answer α × σ,
      ReflTransGen (Moves (joint.act i) fun _ _ => False) (p, crowd.state) now →
      ReflTransGen joint.Step crowd ⟨now.2, Function.update crowd.running i (some now.1)⟩ := by
    intro now moves
    induction moves with
    | refl => rw [← running, Function.update_eq_self]
    | tail _ last ih =>
      cases last with
      | drift never => exact never.elim
      | @perform op next answer s t acts =>
        have step : joint.Step ⟨s, Function.update crowd.running i (some (.call op next))⟩ _ :=
          .perform (Function.update_self ..) acts
        simp only [Function.update_idem] at step
        exact ih.tail step
  exact carried (q, t) moves

/-- A call that a process begins, and makes alone so far. -/
theorem Joint.begun [DecidableEq ι] {i : ι} {p q : Program Op Answer α} {t : σ} (idle : crowd.running i = none)
    (calls : joint.calls i p) (moves : ReflTransGen (Moves (joint.act i) fun _ _ => False) (p, crowd.state) (q, t)) :
    ReflTransGen joint.Step crowd ⟨t, Function.update crowd.running i (some q)⟩ := by
  have through : ReflTransGen joint.Step ⟨crowd.state, Function.update crowd.running i (some p)⟩ _ :=
    Joint.alone (Function.update_self ..) moves
  simp only [Function.update_idem] at through
  exact .head (.begin idle calls) through

/-- A whole call that a process makes alone. -/
theorem Joint.whole [DecidableEq ι] {i : ι} {p : Program Op Answer α} (value : α) {t u : σ}
    (idle : crowd.running i = none) (calls : joint.calls i p)
    (moves : ReflTransGen (Moves (joint.act i) fun _ _ => False) (p, crowd.state) (.done value, t))
    (ends : joint.ends i value t u) : ReflTransGen joint.Step crowd ⟨u, crowd.running⟩ := by
  have last : joint.Step ⟨t, Function.update crowd.running i (some (.done value))⟩ _ :=
    .finish (Function.update_self ..) ends
  simp only [Function.update_idem] at last
  rw [← idle, Function.update_eq_self] at last
  exact (Joint.begun idle calls moves).tail last

/-- Whatever a process comes to, it may do. -/
theorem Crowd.Ok.permitted (ok : crowd.Ok joint may rely I Rest Leaves) {i : ι} {op : Op}
    {next : Answer op → Program Op Answer α} (running : crowd.running i = some (.call op next)) :
    may i op crowd.state := (ok.at_call running).permitted

theorem Crowd.Ok.leaves (ok : crowd.Ok joint may rely I Rest Leaves) {i : ι} {value : α}
    (running : crowd.running i = some (.done value)) : Leaves i value crowd.state := (ok.at_call running).finished

end

/-! ## Waiting for each other -/

section
variable {ι M : Type} (waits : ι → Option M) (holder : M → Option ι)

/-- One waits for a lock that the other holds. -/
def WaitsFor (i j : ι) : Prop := ∃ m, waits i = some m ∧ holder m = some j

/-- The last one in a line waits for no lock, or for one that nobody holds or that it holds itself. -/
def LastInLine (i : ι) : Prop := ∀ m, waits i = some m → holder m = none ∨ holder m = some i

variable {waits holder}

theorem LastInLine.of_none {i : ι} (none : waits i = none) : LastInLine waits holder i := by
  intro m waiting
  rw [none] at waiting
  cases waiting

theorem LastInLine.of_some {i : ι} {m : M} (waiting : waits i = some m) (last : holder m = none ∨ holder m = some i) :
    LastInLine waits holder i := by
  intro m' waiting'
  cases waiting.symm.trans waiting'
  exact last

/-- Where each takes the locks in the order of their ranks, every line of waiting
ones has an end. -/
theorem waits_end {rank : M → Nat} {bound : Nat} (bounded : ∀ m, rank m < bound)
    (ordered : ∀ i m k, waits i = some m → holder k = some i → k = m ∨ rank k < rank m) (i : ι) :
    ∃ j, ReflTransGen (WaitsFor waits holder) i j ∧ LastInLine waits holder j := by
  -- the ranks of the locks along the line increase
  have line : ∀ n i m, waits i = some m → bound - rank m ≤ n →
      ∃ j, ReflTransGen (WaitsFor waits holder) i j ∧ LastInLine waits holder j := by
    intro n
    induction n with
    | zero =>
      intro i m _ beyond
      have inside := bounded m
      omega
    | succ n ih =>
      intro i m waiting left
      cases held : holder m with
      | none => exact ⟨i, .refl, .of_some waiting (.inl held)⟩
      | some j =>
        have first : WaitsFor waits holder i j := ⟨m, waiting, held⟩
        cases next : waits j with
        | none => exact ⟨j, .single first, .of_none next⟩
        | some k =>
          rcases ordered j k m next held with rfl | higher
          · exact ⟨j, .single first, .of_some next (.inr held)⟩
          · have inside := bounded m
            obtain ⟨l, further, last⟩ := ih j k next (by omega)
            exact ⟨l, .head first further, last⟩
  cases waiting : waits i with
  | none => exact ⟨i, .refl, .of_none waiting⟩
  | some m => exact line (bound - rank m) i m waiting le_rfl

end
end Interaction
