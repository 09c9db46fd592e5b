import FlukeCda.Interaction.Interference

/-! # A program inside another

What a layer does below is one program; the layer above calls it among operations
of its own.
-/

namespace Interaction
namespace Program

section
variable {Op Op' : Type} {Answer : Op → Type} {Answer' : Op' → Type} {α β : Type}
variable (inject : Op → Op') (back : ∀ op, Answer' (inject op) → Answer op)

/-- The same program, with its operations among those of another signature. -/
def embed : Program Op Answer α → Program Op' Answer' α
  | .done value => .done value
  | .call op next => .call (inject op) fun answer => embed (next (back op answer))

variable {inject back} {σ τ : Type} {act : (op : Op) → Answer op → σ → σ → Prop} {drift : σ → σ → Prop}
  {act' : (op : Op') → Answer' op → τ → τ → Prop} {drift' : τ → τ → Prop} {may : Op → σ → Prop}
  {may' : Op' → τ → Prop} {I : σ → Prop} {Q : α → σ → Prop} {p : Program Op Answer α}

/-- What is safe below is safe above: `view` is the state below, and `J` what the
layer above knows beside it. -/
theorem Safe.embed (view : τ → σ) {J : τ → Prop}
    (acts : ∀ op answer a b, J a → may op (view a) → act' (inject op) answer a b →
      act op (back op answer) (view a) (view b) ∧ J b)
    (drifts : ∀ a b, J a → drift' a b → drift (view a) (view b) ∧ J b)
    (permits : ∀ op a, J a → may op (view a) → may' (inject op) a) {a : τ}
    (safe : Safe act drift may I Q p (view a)) (holds : J a) :
    Safe act' drift' may' (fun a => I (view a) ∧ J a) (fun value a => Q value (view a) ∧ J a)
      (embed inject back p) a := by
  have later : ∀ {a b}, Relation.ReflTransGen drift' a b → J a →
      Relation.ReflTransGen drift (view a) (view b) ∧ J b := by
    intro a b moved holds
    induction moved with
    | refl => exact ⟨.refl, holds⟩
    | tail _ last ih =>
      obtain ⟨step, kept⟩ := drifts _ _ ih.2 last
      exact ⟨ih.1.tail step, kept⟩
  induction p generalizing a with
  | done value =>
    intro b moved
    obtain ⟨below, kept⟩ := later moved holds
    obtain ⟨here, post⟩ := safe (view b) below
    exact ⟨⟨here, kept⟩, post, kept⟩
  | call op next ih =>
    intro b moved
    obtain ⟨below, kept⟩ := later moved holds
    obtain ⟨⟨here, permitted⟩, rest⟩ := safe (view b) below
    refine ⟨⟨⟨here, kept⟩, permits op b kept permitted⟩, fun answer c does => ?_⟩
    obtain ⟨step, kept⟩ := acts op answer b c kept permitted does
    exact ih (back op answer) (rest (back op answer) (view c) step) kept

/-- What runs below runs above. -/
theorem run_embed (inject : Op → Op') (back : ∀ op, Answer' (inject op) → Answer op) (put : σ → τ)
    {q : Program Op Answer α} {s t : σ}
    (acts : ∀ op (answer : Answer op) s t, act op answer s t →
      ∃ answer', back op answer' = answer ∧ act' (inject op) answer' (put s) (put t))
    (drifts : ∀ s t, drift s t → drift' (put s) (put t))
    (run : Relation.ReflTransGen (Moves act drift) (p, s) (q, t)) :
    Relation.ReflTransGen (Moves act' drift') (embed inject back p, put s) (embed inject back q, put t) := by
  have moved : ∀ from_ to_ : Program Op Answer α × σ, Moves act drift from_ to_ →
      Moves act' drift' (embed inject back from_.1, put from_.2) (embed inject back to_.1, put to_.2) := by
    intro from_ to_ moves
    cases moves with
    | drift step => exact .drift (drifts _ _ step)
    | perform does =>
      obtain ⟨answer', rfl, does'⟩ := acts _ _ _ _ does
      exact .perform does'
  exact run.lift (fun at_ => (embed inject back at_.1, put at_.2)) moved

/-- What runs alone runs before anything else. -/
theorem run_first {f : α → Program Op Answer β} {q : Program Op Answer α} {s t : σ}
    (run : Relation.ReflTransGen (Moves act drift) (p, s) (q, t)) :
    Relation.ReflTransGen (Moves act drift) (p >>= f, s) (q >>= f, t) := by
  have moved : ∀ from_ to_ : Program Op Answer α × σ, Moves act drift from_ to_ →
      Moves act drift (from_.1 >>= f, from_.2) (to_.1 >>= f, to_.2) := by
    intro from_ to_ moves
    cases moves with
    | drift step => exact .drift step
    | perform does => exact .perform does
  exact run.lift (fun at_ => (at_.1 >>= f, at_.2)) moved

/-- Whatever is answered, the value at the end satisfies `P`. -/
def Returns (P : α → Prop) : Program Op Answer α → Prop
  | .done value => P value
  | .call _ next => ∀ answer, Returns P (next answer)

theorem returns_perform {P : α → Prop} {op : Op} {f : Answer op → Program Op Answer α}
    (rest : ∀ answer, Returns P (f answer)) : Returns P (perform op >>= f) := rest

theorem Returns.andThen {P : α → Prop} {P' : β → Prop} {f : α → Program Op Answer β} (returns : Returns P p)
    (rest : ∀ value, P value → Returns P' (f value)) : Returns P' (p >>= f) := by
  induction p with
  | done value => exact rest value returns
  | call op next ih => exact fun answer => ih answer (returns answer)

theorem Returns.embed {P : α → Prop} (returns : Returns P p) : Returns P (embed inject back p) := by
  induction p with
  | done value => exact returns
  | call op next ih => exact fun answer => ih (back op answer) (returns (back op answer))

theorem returns_any (p : Program Op Answer α) : Returns (fun _ => True) p := by
  induction p with
  | done value => exact trivial
  | call op next ih => exact ih

theorem Safe.returning {P : α → Prop} {s : σ} (safe : Safe act drift may I Q p s) (returns : Returns P p) :
    Safe act drift may I (fun value s => Q value s ∧ P value) p s := by
  induction p generalizing s with
  | done value =>
    intro t later
    obtain ⟨here, post⟩ := safe t later
    exact ⟨here, post, returns⟩
  | call op next ih =>
    intro t later
    obtain ⟨here, rest⟩ := safe t later
    exact ⟨here, fun answer u acts => ih answer (rest answer u acts) (returns answer)⟩

end
end Program
end Interaction
