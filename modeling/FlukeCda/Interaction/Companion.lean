import FlukeCda.Interaction.Interference

/-! # A program and its companion

A second program runs over the same state, in steps of its own once it has begun.
For the first one it is a part of the environment.
-/

namespace Interaction

/-- A state, with what is left of the companion, which is nothing before it begins. -/
structure Accompanied (Op : Type) (Answer : Op → Type) (σ : Type) where
  state : σ
  companion : Option (Program Op Answer Unit)

namespace Accompanied
open Program Relation

section
variable {Op Op' : Type} {Answer : Op → Type} {Answer' : Op' → Type} {α σ : Type}
variable (act : (op : Op) → Answer op → σ → σ → Prop) (act' : (op : Op') → Answer' op → σ → σ → Prop)
variable (begins drift : σ → σ → Prop) (code : Program Op' Answer' Unit)

/-- An operation of the first program. -/
def Acts (op : Op) (answer : Answer op) (a b : Accompanied Op' Answer' σ) : Prop :=
  ∃ s, act op answer a.state s ∧ b = { a with state := s }

/-- What the first program sees happen: its companion begins, once, and goes on
step by step, and there are others. -/
inductive Drift : Accompanied Op' Answer' σ → Accompanied Op' Answer' σ → Prop
  | begin {a : Accompanied Op' Answer' σ} {s : σ} (fresh : a.companion = none) (starts : begins a.state s) :
      Drift a ⟨s, some code⟩
  | perform {a : Accompanied Op' Answer' σ} {op : Op'} {next : Answer' op → Program Op' Answer' Unit}
      {answer : Answer' op} {s : σ} (at_call : a.companion = some (.call op next)) (acts : act' op answer a.state s) :
      Drift a ⟨s, some (next answer)⟩
  | outside {a : Accompanied Op' Answer' σ} {s : σ} (drifts : drift a.state s) : Drift a ⟨s, a.companion⟩

/-- Each operation is one of `other`, one of `early`, or one of `late` that comes
after one of `early`. -/
def Ordered (early late other : Op' → Prop) : Prop → Program Op' Answer' α → Prop
  | _, .done _ => True
  | seen, .call op next => (early op ∨ seen ∧ late op ∨ other op) ∧
      ∀ answer, Ordered early late other (seen ∨ early op) (next answer)

variable {act act' begins drift code} {early late other : Op' → Prop} {seen : Prop}

theorem Ordered.mono {seen' : Prop} {p : Program Op' Answer' α} (ordered : Ordered early late other seen p)
    (weaker : seen → seen') : Ordered early late other seen' p := by
  induction p generalizing seen seen' with
  | done value => trivial
  | call op next ih =>
    obtain ⟨fine, rest⟩ := ordered
    refine ⟨?_, fun answer => ih answer (rest answer) (Or.imp_left weaker)⟩
    rcases fine with first | ⟨before, last⟩ | neither
    · exact Or.inl first
    · exact Or.inr (Or.inl ⟨weaker before, last⟩)
    · exact Or.inr (Or.inr neither)

section
variable {op : Op'} {f : Answer' op → Program Op' Answer' α}

theorem ordered_early (first : early op) (rest : ∀ answer, Ordered early late other True (f answer)) :
    Ordered early late other seen (perform op >>= f) :=
  ⟨Or.inl first, fun answer => (rest answer).mono fun _ => Or.inr first⟩

theorem ordered_late (last : late op) (rest : ∀ answer, Ordered early late other True (f answer)) :
    Ordered early late other True (perform op >>= f) :=
  ⟨Or.inr (Or.inl ⟨trivial, last⟩), fun answer => (rest answer).mono Or.inl⟩

theorem ordered_other (neither : other op) (rest : ∀ answer, Ordered early late other seen (f answer)) :
    Ordered early late other seen (perform op >>= f) :=
  ⟨Or.inr (Or.inr neither), fun answer => (rest answer).mono Or.inl⟩

end

/-- The companion keeps to an order, and `On` holds once it has done an early operation. -/
def Orderly (early late other : Op' → Prop) (On : σ → Prop) (a : Accompanied Op' Answer' σ) : Prop :=
  ∀ p, a.companion = some p → ∃ seen, (seen → On a.state) ∧ Ordered early late other seen p

variable {On P : σ → Prop} {a b : Accompanied Op' Answer' σ}

theorem orderly_fresh (fresh : a.companion = none) : Orderly early late other On a := by
  intro p left
  rw [fresh] at left
  cases left

/-- The first program does not make `On` false. -/
theorem Orderly.acts {op : Op} {answer : Answer op} (orderly : Orderly early late other On a)
    (kept : ∀ s t, On s → act op answer s t → On t) (acts : Acts act op answer a b) :
    Orderly early late other On b := by
  obtain ⟨s, acted, rfl⟩ := acts
  intro p left
  obtain ⟨seen, on, ordered⟩ := orderly p left
  exact ⟨seen, fun late => kept a.state s (on late) acted, ordered⟩

/-- An assertion is stable beside an orderly companion, if each kind of its
operations keeps it, the late ones under `On`. -/
theorem stable_orderly (enters : Ordered early late other False code)
    (begun : ∀ s t, begins s t → P s → P t) (outside : ∀ s t, drift s t → (P s → P t) ∧ (On s → On t))
    (earlier : ∀ op answer s t, early op → act' op answer s t → (P s → P t) ∧ On t)
    (later : ∀ op answer s t, late op → On s → act' op answer s t → (P s → P t) ∧ On t)
    (others : ∀ op answer s t, other op → act' op answer s t → (P s → P t) ∧ (On s → On t)) :
    Stable (Drift act' begins drift code) fun a => P a.state ∧ Orderly early late other On a := by
  rintro a b drifts ⟨holds, orderly⟩
  cases drifts with
  | begin fresh starts =>
    refine ⟨begun _ _ starts holds, fun p left => ⟨False, False.elim, ?_⟩⟩
    cases left
    exact enters
  | @perform op next answer s at_call acts =>
    obtain ⟨seen, on, fine, rest⟩ := orderly _ at_call
    have now : (P a.state → P s) ∧ (seen ∨ early op → On s) := by
      rcases fine with first | ⟨before, last⟩ | neither
      · obtain ⟨kept, turned⟩ := earlier op answer _ s first acts
        exact ⟨kept, fun _ => turned⟩
      · obtain ⟨kept, still⟩ := later op answer _ s last (on before) acts
        exact ⟨kept, fun _ => still⟩
      · obtain ⟨kept, still⟩ := others op answer _ s neither acts
        refine ⟨kept, fun either => ?_⟩
        rcases either with before | first
        · exact still (on before)
        · exact (earlier op answer _ s first acts).2
    refine ⟨now.1 holds, fun p left => ⟨seen ∨ early op, now.2, ?_⟩⟩
    cases left
    exact rest answer
  | @outside s drifts =>
    obtain ⟨kept, still⟩ := outside _ _ drifts
    refine ⟨kept holds, fun p left => ?_⟩
    obtain ⟨seen, on, ordered⟩ := orderly p left
    exact ⟨seen, fun before => still (on before), ordered⟩

/-- A companion that nothing lets begin has not begun. -/
theorem stable_fresh (waits : ∀ s t, P s → ¬ begins s t) (outside : ∀ s t, drift s t → P s → P t) :
    Stable (Drift act' begins drift code) fun a => P a.state ∧ a.companion = none := by
  rintro a b drifts ⟨holds, fresh⟩
  cases drifts with
  | begin _ starts => exact absurd starts (waits _ _ holds)
  | perform at_call =>
    rw [fresh] at at_call
    cases at_call
  | outside drifts => exact ⟨outside _ _ drifts holds, fresh⟩

end
end Accompanied
end Interaction
