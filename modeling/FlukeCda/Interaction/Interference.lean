import FlukeCda.Interaction.Program
import Mathlib.Logic.Relation

namespace Interaction

/-- The environment cannot make a stable assertion false. -/
def Stable {σ : Type} (drift : σ → σ → Prop) (P : σ → Prop) : Prop := ∀ s t, drift s t → P s → P t

theorem Stable.drifts {σ : Type} {drift : σ → σ → Prop} {P : σ → Prop} {s t : σ} (stable : Stable drift P)
    (holds : P s) (later : Relation.ReflTransGen drift s t) : P t := by
  induction later with
  | refl => exact holds
  | tail _ last ih => exact stable _ _ last ih

/-- A stable assertion under which `I` holds. -/
structure Steady {σ : Type} (drift : σ → σ → Prop) (I P : σ → Prop) : Prop where
  stable : Stable drift P
  here : ∀ s, P s → I s

namespace Program
open Relation (ReflTransGen)

/-- No operation is ruled out. -/
def anything {Op σ : Type} (_ : Op) (_ : σ) : Prop := True

section
variable {Op : Type} {Answer : Op → Type} {α β σ : Type}
variable (act : (op : Op) → Answer op → σ → σ → Prop) (drift : σ → σ → Prop)

/-- The program keeps `I` at every moment, performs only what it may, and stops
in `Q`, whatever its operations answer and however the environment moves in
between. -/
def Safe (may : Op → σ → Prop) (I : σ → Prop) (Q : α → σ → Prop) : Program Op Answer α → σ → Prop
  | .done value, s => ∀ t, ReflTransGen drift s t → I t ∧ Q value t
  | .call op next, s =>
    ∀ t, ReflTransGen drift s t → (I t ∧ may op t) ∧ ∀ answer u, act op answer t u →
      Safe may I Q (next answer) u

/-- A program and its state move by an operation, or by the environment. -/
inductive Moves : Program Op Answer α × σ → Program Op Answer α × σ → Prop
  | drift {p : Program Op Answer α} {s t : σ} (drifts : drift s t) : Moves (p, s) (p, t)
  | perform {op : Op} {next : Answer op → Program Op Answer α} {answer : Answer op} {s t : σ}
      (acts : act op answer s t) :
      Moves (.call op next, s) (next answer, t)

variable {act drift} {may : Op → σ → Prop} {I : σ → Prop} {Q : α → σ → Prop} {p : Program Op Answer α} {s t : σ}

theorem Safe.here (safe : Safe act drift may I Q p s) : I s := by
  cases p with
  | done value => exact (safe s .refl).1
  | call op next => exact (safe s .refl).1.1

theorem Safe.drifted (safe : Safe act drift may I Q p s) (drifts : drift s t) : Safe act drift may I Q p t := by
  cases p with
  | done value => exact fun u later => safe u (.head drifts later)
  | call op next => exact fun u later => safe u (.head drifts later)

theorem Safe.permitted {op : Op} {next : Answer op → Program Op Answer α}
    (safe : Safe act drift may I Q (.call op next) s) :
    may op s := (safe s .refl).1.2

theorem Safe.performed {op : Op} {next : Answer op → Program Op Answer α}
    (safe : Safe act drift may I Q (.call op next) s) {answer : Answer op} (acts : act op answer s t) :
    Safe act drift may I Q (next answer) t :=
  (safe s .refl).2 answer t acts

theorem Safe.finished {value : α} (safe : Safe act drift may I Q (.done value) s) : Q value s :=
  (safe s .refl).2

/-- Safety is kept along every run. -/
theorem Safe.reaches {p' : Program Op Answer α} (safe : Safe act drift may I Q p s)
    (run : ReflTransGen (Moves act drift) (p, s) (p', t)) : Safe act drift may I Q p' t := by
  have carried : ∀ q : Program Op Answer α × σ, ReflTransGen (Moves act drift) (p, s) q →
    Safe act drift may I Q q.1 q.2 := by
    intro q reached
    induction reached with
    | refl => exact safe
    | tail _ last ih =>
      cases last with
      | drift drifts => exact ih.drifted drifts
      | perform acts => exact ih.performed acts
  exact carried (p', t) run

theorem Safe.mono {I' : σ → Prop} {Q' : α → σ → Prop} (keeps : ∀ t, I t → I' t)
    (weaker : ∀ value t, Q value t → Q' value t) (safe : Safe act drift may I Q p s) :
    Safe act drift may I' Q' p s := by
  induction p generalizing s with
  | done value =>
    intro t later
    obtain ⟨here, post⟩ := safe t later
    exact ⟨keeps t here, weaker value t post⟩
  | call op next ih =>
    intro t later
    obtain ⟨⟨here, permitted⟩, rest⟩ := safe t later
    exact ⟨⟨keeps t here, permitted⟩, fun answer u acts => ih answer (rest answer u acts)⟩

/-- The invariant also holds at the end. -/
theorem Safe.and_here (safe : Safe act drift may I Q p s) :
    Safe act drift may I (fun value t => Q value t ∧ I t) p s := by
  induction p generalizing s with
  | done value =>
    intro t later
    obtain ⟨here, post⟩ := safe t later
    exact ⟨here, post, here⟩
  | call op next ih =>
    intro t later
    obtain ⟨here, rest⟩ := safe t later
    exact ⟨here, fun answer u acts => ih answer (rest answer u acts)⟩

/-- Sequencing: what the first part stops in is safe for the second one. -/
theorem safe_bind {f : α → Program Op Answer β} {Q' : β → σ → Prop}
    (safe : Safe act drift may I (fun value t => Safe act drift may I Q' (f value) t) p s) :
    Safe act drift may I Q' (p >>= f) s := by
  induction p generalizing s with
  | done value => exact (safe s .refl).2
  | call op next ih =>
    intro t later
    obtain ⟨here, rest⟩ := safe t later
    exact ⟨here, fun answer u acts => ih answer (rest answer u acts)⟩

/-- The same, with the assertion in between named. -/
theorem Safe.andThen {f : α → Program Op Answer β} {Q' : β → σ → Prop} (safe : Safe act drift may I Q p s)
    (rest : ∀ value t, Q value t → Safe act drift may I Q' (f value) t) : Safe act drift may I Q' (p >>= f) s :=
  safe_bind (safe.mono (fun _ here => here) rest)

/-- One operation, from a steady assertion that permits it. -/
theorem safe_perform {P : σ → Prop} {op : Op} (steady : Steady drift I P) (permitted : ∀ s, P s → may op s)
    {f : Answer op → Program Op Answer α}
    (step : ∀ s answer t, P s → act op answer s t → Safe act drift may I Q (f answer) t) (holds : P s) :
    Safe act drift may I Q (perform op >>= f) s := by
  intro t later
  have now := steady.stable.drifts holds later
  exact ⟨⟨steady.here t now, permitted t now⟩, fun answer u acts => step t answer u now acts⟩

theorem safe_done {P : σ → Prop} {value : α} (steady : Steady drift I P) (post : ∀ s, P s → Q value s)
    (holds : P s) :
    Safe act drift may I Q (.done value) s := by
  intro t later
  have now := steady.stable.drifts holds later
  exact ⟨steady.here t now, post t now⟩

/-- A call in which the program ends, for the operation never answers. -/
theorem safe_never {P : σ → Prop} {op : Op} {next : Answer op → Program Op Answer α} (never : Answer op → False)
    (steady : Steady drift I P) (permitted : ∀ s, P s → may op s) (holds : P s) :
    Safe act drift may I Q (.call op next) s := by
  intro t later
  have now := steady.stable.drifts holds later
  exact ⟨⟨steady.here t now, permitted t now⟩, fun answer => (never answer).elim⟩

/-- Fewer outcomes of the operations leave a program safe. -/
theorem Safe.restrict {act' : (op : Op) → Answer op → σ → σ → Prop}
    (fewer : ∀ op answer s t, act' op answer s t → act op answer s t) (safe : Safe act drift may I Q p s) :
    Safe act' drift may I Q p s := by
  induction p generalizing s with
  | done value => exact safe
  | call op next ih =>
    intro t later
    obtain ⟨here, rest⟩ := safe t later
    exact ⟨here, fun answer u acts => ih answer (rest answer u (fewer op answer t u acts))⟩

/-- Where nothing is asked, nothing can go wrong. -/
theorem safe_anyhow (p : Program Op Answer α) (s : σ) :
    Safe act drift anything (fun _ => True) (fun _ _ => True) p s := by
  induction p generalizing s with
  | done value => exact fun _ _ => ⟨trivial, trivial⟩
  | call op next ih => exact fun t _ => ⟨⟨trivial, trivial⟩, fun answer u _ => ih answer u⟩

/-- What is permitted may be said less exactly. -/
theorem Safe.loosen {may' : Op → σ → Prop} (weaker : ∀ op s, may op s → may' op s) (safe : Safe act drift may I Q p s) :
    Safe act drift may' I Q p s := by
  induction p generalizing s with
  | done value => exact safe
  | call op next ih =>
    intro t later
    obtain ⟨⟨here, permitted⟩, rest⟩ := safe t later
    exact ⟨⟨here, weaker op t permitted⟩, fun answer u acts => ih answer (rest answer u acts)⟩

/-- Two accounts of one program. -/
theorem Safe.both {I' : σ → Prop} {Q' : α → σ → Prop} (safe : Safe act drift may I Q p s)
    (also : Safe act drift anything I' Q' p s) :
    Safe act drift may (fun s => I s ∧ I' s) (fun value s => Q value s ∧ Q' value s) p s := by
  induction p generalizing s with
  | done value =>
    intro t later
    obtain ⟨here, post⟩ := safe t later
    obtain ⟨here', post'⟩ := also t later
    exact ⟨⟨here, here'⟩, post, post'⟩
  | call op next ih =>
    intro t later
    obtain ⟨⟨here, permitted⟩, rest⟩ := safe t later
    obtain ⟨⟨here', -⟩, rest'⟩ := also t later
    refine ⟨⟨⟨here, here'⟩, permitted⟩, fun answer u acts => ?_⟩
    exact ih answer (rest answer u acts) (rest' answer u acts)

/-- A program is safe over a larger state if it is over the part that it moves. -/
theorem Safe.through {τ : Type} (view : τ → σ) {act' : (op : Op) → Answer op → τ → τ → Prop} {drift' : τ → τ → Prop}
    (acts : ∀ op answer a b, act' op answer a b → act op answer (view a) (view b))
    (drifts : ∀ a b, drift' a b → drift (view a) (view b)) {a : τ} (safe : Safe act drift may I Q p (view a)) :
    Safe act' drift' (fun op a => may op (view a)) (fun a => I (view a)) (fun value a => Q value (view a)) p a := by
  have later : ∀ {b}, ReflTransGen drift' a b → ReflTransGen drift (view a) (view b) :=
    fun later => later.lift view drifts
  induction p generalizing a with
  | done value => exact fun b moved => safe (view b) (later moved)
  | call op next ih =>
    intro b moved
    obtain ⟨here, rest⟩ := safe (view b) (later moved)
    refine ⟨here, fun answer c act => ih answer (rest answer (view c) (acts op answer b c act)) ?_⟩
    exact fun moved => moved.lift view drifts

/-- A further invariant, kept by the environment and by what is permitted. -/
theorem Safe.and {J : σ → Prop} (safe : Safe act drift may I Q p s)
    (stable : ∀ s t, I s → J s → drift s t → J t)
    (kept : ∀ op answer s t, I s → may op s → J s → act op answer s t → J t) (holds : J s) :
    Safe act drift may (fun s => I s ∧ J s) (fun value s => Q value s ∧ J s) p s := by
  have drifted : ∀ {p : Program Op Answer α} {s t}, Safe act drift may I Q p s → J s → ReflTransGen drift s t →
      J t := by
    intro p s t safe holds later
    have both : Safe act drift may I Q p t ∧ J t := by
      induction later with
      | refl => exact ⟨safe, holds⟩
      | tail _ last ih => exact ⟨ih.1.drifted last, stable _ _ ih.1.here ih.2 last⟩
    exact both.2
  induction p generalizing s with
  | done value =>
    intro t later
    obtain ⟨here, post⟩ := safe t later
    have now := drifted safe holds later
    exact ⟨⟨here, now⟩, post, now⟩
  | call op next ih =>
    intro t later
    obtain ⟨⟨here, permitted⟩, rest⟩ := safe t later
    have now := drifted safe holds later
    refine ⟨⟨⟨here, now⟩, permitted⟩, fun answer u acts => ih answer (rest answer u acts) ?_⟩
    exact kept op answer t u here permitted now acts

/-- The same over a record that has the state as a part, beside what stays as it is. -/
theorem Safe.part {τ : Type} (view : τ → σ) (put : τ → σ → τ) (view_put : ∀ a s, view (put a s) = s) {J : τ → Prop}
    (kept : ∀ a s, J a → J (put a s)) {a : τ} (safe : Safe act drift anything I Q p (view a)) (holds : J a) :
    Safe (fun op answer a b => ∃ s, act op answer (view a) s ∧ b = put a s)
      (fun a b => ∃ s, drift (view a) s ∧ b = put a s) anything (fun a => I (view a) ∧ J a)
      (fun value a => Q value (view a) ∧ J a) p a := by
  have acts : ∀ (op : Op) (answer : Answer op) (a b : τ), (∃ s, act op answer (view a) s ∧ b = put a s) →
      act op answer (view a) (view b) := by
    rintro op answer a _ ⟨s, acts, rfl⟩
    rwa [view_put]
  have drifts : ∀ a b : τ, (∃ s, drift (view a) s ∧ b = put a s) → drift (view a) (view b) := by
    rintro a _ ⟨s, drifts, rfl⟩
    rwa [view_put]
  refine ((Safe.through view acts drifts safe).and ?_ ?_ holds).loosen fun _ _ _ => trivial
  · rintro a _ - here ⟨s, -, rfl⟩
    exact kept a s here
  · rintro op answer a _ - - here ⟨s, -, rfl⟩
    exact kept a s here

/-- The run against one handler keeps `I` at every moment, and stops in `Q`. -/
def Always {τ : Type} (handle : (op : Op) → τ → Option (Answer op) × τ) (I : τ → Prop) (Q : α → τ → Prop) :
    Program Op Answer α → τ → Prop
  | .done value, s => I s ∧ Q value s
  | .call op next, s => I s ∧ ∀ answer, (handle op s).1 = some answer →
      Always handle I Q (next answer) (handle op s).2

section
variable {τ : Type} {handle : (op : Op) → τ → Option (Answer op) × τ} {J : τ → Prop}
    {R : α → τ → Prop} {a b : τ}

theorem always_done {value : α} (here : J a) (post : R value a) : Always handle J R (.done value) a :=
  ⟨here, post⟩

/-- One operation whose answer and effect are known. -/
theorem always_step {op : Op} {f : Answer op → Program Op Answer α} {answer : Answer op}
    (ran : handle op a = (some answer, b)) (here : J a) (rest : Always handle J R (f answer) b) :
    Always handle J R (perform op >>= f) a := by
  refine ⟨here, fun given same => ?_⟩
  rw [ran] at same ⊢
  cases same
  exact rest

theorem always_onlyIf {c : Prop} [Decidable c] {q : Program Op Answer Unit} {f : Unit → Program Op Answer α}
    (performs : c → Always handle J R (f ()) b → Always handle J R (q >>= f) a)
    (rest : Always handle J R (f ()) (if c then b else a)) : Always handle J R (onlyIf c q >>= f) a := by
  unfold onlyIf
  split_ifs at rest ⊢ with holds
  · exact performs holds rest
  · exact rest

theorem always_bind {f : α → Program Op Answer β} {R' : β → τ → Prop}
    (always : Always handle J (fun value b => Always handle J R' (f value) b) p a) :
    Always handle J R' (p >>= f) a := by
  induction p generalizing a with
  | done value => exact always.2
  | call op next ih => exact ⟨always.1, fun answer ran => ih answer (always.2 answer ran)⟩

end

/-- Where the environment moves only what a view of the state hides, it is
enough to run the program on the view. -/
theorem safe_of_always {τ : Type} {handle : (op : Op) → τ → Option (Answer op) × τ} {J : τ → Prop}
    {R : α → τ → Prop} (view : σ → τ) (quiet : ∀ s t, drift s t → view t = view s)
    (simulates : ∀ op answer s t, act op answer s t → handle op (view s) = (some answer, view t))
    (always : Always handle J R p (view s)) :
    Safe act drift anything (fun s => J (view s)) (fun value s => R value (view s)) p s := by
  have hidden : ∀ {s t}, ReflTransGen drift s t → view t = view s := by
    intro s t later
    induction later with
    | refl => rfl
    | tail _ last ih => exact (quiet _ _ last).trans ih
  induction p generalizing s with
  | done value =>
    intro t later
    simp only [hidden later]
    exact always
  | call op next ih =>
    intro t later
    have here : J (view t) := by
      rw [hidden later]
      exact always.1
    refine ⟨⟨here, trivial⟩, fun answer u acts => ih answer ?_⟩
    have ran := simulates op answer t u acts
    rw [hidden later] at ran
    have rest := always.2 answer (by rw [ran])
    rwa [ran] at rest

/-- Only such operations are performed, whatever is answered. -/
def OnlyPerforms (allowed : Op → Prop) : Program Op Answer α → Prop
  | .done _ => True
  | .call op next => allowed op ∧ ∀ answer, OnlyPerforms allowed (next answer)

theorem onlyPerforms_step {allowed : Op → Prop} {op : Op} {f : Answer op → Program Op Answer α} (fine : allowed op)
    (rest : ∀ answer, OnlyPerforms allowed (f answer)) : OnlyPerforms allowed (perform op >>= f) := ⟨fine, rest⟩

theorem onlyPerforms_bind {allowed : Op → Prop} {f : α → Program Op Answer β} (only : OnlyPerforms allowed p)
    (rest : ∀ value, OnlyPerforms allowed (f value)) : OnlyPerforms allowed (p >>= f) := by
  induction p with
  | done value => exact rest value
  | call op next ih => exact ⟨only.1, fun answer => ih answer (only.2 answer)⟩

/-- Operations that keep a steady assertion lead nowhere else. -/
theorem safe_only {allowed : Op → Prop} {P : σ → Prop} (steady : Steady drift I P)
    (permitted : ∀ op s, allowed op → P s → may op s)
    (kept : ∀ op answer s t, allowed op → P s → act op answer s t → P t) (only : OnlyPerforms allowed p) (holds : P s) :
    Safe act drift may I (fun _ => P) p s := by
  induction p generalizing s with
  | done value => exact safe_done steady (fun _ now => now) holds
  | call op next ih =>
    intro t later
    have now := steady.stable.drifts holds later
    refine ⟨⟨steady.here t now, permitted op t only.1 now⟩, fun answer u acts => ?_⟩
    exact ih answer (only.2 answer) (kept op answer t u only.1 now acts)

end
end Program
end Interaction
