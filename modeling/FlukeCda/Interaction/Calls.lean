import Mathlib.Data.List.Basic

/-! # Calls with their replies

A machine that answers one call after another, and what is on record of it.
-/

namespace Interaction

section
variable {Call Reply σ τ : Type}

/-- The calls made so far, with the reply to each, and the state they leave. -/
inductive Answered (step : Call → σ → Reply × σ) (allowed : Call → σ → Prop) (s : σ) :
    List (Call × Reply) → σ → Prop
  | nil : Answered step allowed s [] s
  | snoc {history : List (Call × Reply)} {t : σ} (sofar : Answered step allowed s history t) (call : Call)
      (fine : allowed call t) : Answered step allowed s (history ++ [(call, (step call t).1)]) (step call t).2

variable {step : Call → σ → Reply × σ} {allowed : Call → σ → Prop} {history : List (Call × Reply)} {s t : σ}

/-- What every call keeps holds of the record and the state of every run. -/
theorem Answered.invariant {I : List (Call × Reply) → σ → Prop} (answered : Answered step allowed s history t)
    (start : I [] s)
    (kept : ∀ history t call, I history t → allowed call t → I (history ++ [(call, (step call t).1)]) (step call t).2) :
    I history t := by
  induction answered with
  | nil => exact start
  | snoc _ call fine ih => exact kept _ _ call ih fine

/-- Where an invariant makes a call fine for one rule when it is for the other. -/
theorem Answered.mono {I : σ → Prop} {allowed' : Call → σ → Prop} (answered : Answered step allowed s history t)
    (start : I s) (kept : ∀ t call, I t → allowed call t → I (step call t).2)
    (fine : ∀ t call, I t → allowed call t → allowed' call t) : Answered step allowed' s history t ∧ I t := by
  induction answered with
  | nil => exact ⟨.nil, start⟩
  | snoc _ call allowed ih => exact ⟨ih.1.snoc call (fine _ call ih.2 allowed), kept _ call ih.2 allowed⟩

/-- Every reply on record was given in a state that the calls before it had left. -/
theorem Answered.entry (answered : Answered step allowed s history t) {before after : List (Call × Reply)} {call : Call}
    {reply : Reply} (split : history = before ++ (call, reply) :: after) :
    ∃ u, Answered step allowed s before u ∧ allowed call u ∧ reply = (step call u).1 := by
  induction answered generalizing after with
  | nil => cases before <;> cases split
  | @snoc history t sofar made fine ih =>
    rcases List.eq_nil_or_concat after with rfl | ⟨rest, last, rfl⟩
    · obtain ⟨rfl, same⟩ := List.append_inj' split rfl
      cases same
      exact ⟨t, sofar, fine, rfl⟩
    · rw [List.concat_eq_append, ← List.cons_append, ← List.append_assoc] at split
      exact ih (List.append_inj' split rfl).1

/-- A machine that answers as another one does, up to how a reply is put, has the
same records. -/
theorem Answered.simulates {Reply' : Type} {spec : Call → τ → Reply' × τ} {R : σ → τ → Prop} (put : Reply' → Reply)
    {u : τ} (answered : Answered step allowed s history t) (start : R s u)
    (same : ∀ s u call, R s u → allowed call s →
      (step call s).1 = put (spec call u).1 ∧ R (step call s).2 (spec call u).2) :
    ∃ record v, Answered spec (fun _ _ => True) u record v ∧ history = record.map (Prod.map id put) ∧ R t v := by
  induction answered with
  | nil => exact ⟨[], u, .nil, rfl, start⟩
  | snoc _ call fine ih =>
    obtain ⟨record, v, answered, rfl, related⟩ := ih
    obtain ⟨reply, related⟩ := same _ _ call related fine
    refine ⟨_, (spec call v).2, answered.snoc call trivial, ?_, related⟩
    rw [reply, List.map_append, List.map_singleton]
    rfl

end
end Interaction
