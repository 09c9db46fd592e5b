import FlukeCda.Interaction.Interference

/-! # One call after another

A caller that makes one call at a time, of whatever kind and however often, in
an environment that moves between any two operations.
-/

namespace Interaction
open Program Relation

/-- The state, and the rest of the call that is being made. -/
structure Session (Call Op : Type) (Answer : Op → Type) (α σ : Type) where
  state : σ
  running : Option (Call × Program Op Answer α)

/-- What the calls are, how one begins and ends, what its operations do, and how
the environment moves. -/
structure Service (Call Op : Type) (Answer : Op → Type) (α σ : Type) where
  code : Call → Program Op Answer α
  begins : Call → σ → σ → Prop
  ends : Call → α → σ → σ → Prop
  act : Call → (op : Op) → Answer op → σ → σ → Prop
  drift : σ → σ → Prop

section
variable {Call Op : Type} {Answer : Op → Type} {α σ : Type}

namespace Service

inductive Step (service : Service Call Op Answer α σ) :
    Session Call Op Answer α σ → Session Call Op Answer α σ → Prop
  | drift {s t : σ} {running : Option (Call × Program Op Answer α)} (drifts : service.drift s t) :
      Step service ⟨s, running⟩ ⟨t, running⟩
  | begin {s t : σ} {made : Call} (begins : service.begins made s t) :
      Step service ⟨s, none⟩ ⟨t, some (made, service.code made)⟩
  | perform {s t : σ} {made : Call} {op : Op} {next : Answer op → Program Op Answer α} {answer : Answer op}
      (acts : service.act made op answer s t) :
      Step service ⟨s, some (made, .call op next)⟩ ⟨t, some (made, next answer)⟩
  | finish {s t : σ} {made : Call} {value : α} (ends : service.ends made value s t) :
      Step service ⟨s, some (made, .done value)⟩ ⟨t, none⟩

/-- Every call that begins at rest is safe, and ends at rest. -/
structure Sound (service : Service Call Op Answer α σ) (may : Call → Op → σ → Prop) (I Rest : σ → Prop) : Prop where
  rest : Steady service.drift I Rest
  safe : ∀ made s t, Rest s → service.begins made s t →
    Safe (service.act made) service.drift (may made) I (fun value u => ∀ v, service.ends made value u v → Rest v)
      (service.code made) t

end Service

/-- At rest between calls, and safe for the rest of the call within one. -/
def Session.Ok (service : Service Call Op Answer α σ) (may : Call → Op → σ → Prop) (I Rest : σ → Prop)
    (session : Session Call Op Answer α σ) : Prop :=
  match session.running with
  | none => Rest session.state
  | some (made, p) =>
    Safe (service.act made) service.drift (may made) I (fun value u => ∀ v, service.ends made value u v → Rest v)
      p session.state

variable {service : Service Call Op Answer α σ} {may : Call → Op → σ → Prop} {I Rest : σ → Prop}
  {session later : Session Call Op Answer α σ}

theorem Session.Ok.step (ok : session.Ok service may I Rest) (sound : service.Sound may I Rest)
    (stepped : service.Step session later) : later.Ok service may I Rest := by
  cases stepped with
  | @drift s t running drifts =>
    cases running with
    | none => exact sound.rest.stable s t drifts ok
    | some current => exact Safe.drifted ok drifts
  | begin begins => exact sound.safe _ _ _ ok begins
  | perform acts => exact Safe.performed ok acts
  | @finish s t made value ends =>
    have stopped : Safe (service.act made) service.drift (may made) I
      (fun value u => ∀ v, service.ends made value u v → Rest v) (.done value) s := ok
    exact stopped.finished t ends

theorem Session.Ok.run (ok : session.Ok service may I Rest) (sound : service.Sound may I Rest)
    (run : ReflTransGen service.Step session later) : later.Ok service may I Rest := by
  induction run with
  | refl => exact ok
  | tail _ last ih => exact ih.step sound last

theorem Session.Ok.here (ok : session.Ok service may I Rest) (sound : service.Sound may I Rest) : I session.state := by
  obtain ⟨s, running⟩ := session
  cases running with
  | none => exact sound.rest.here s ok
  | some current => exact Safe.here ok

/-- From rest on, the invariant holds at every moment of every session. -/
theorem Service.Sound.invariant {s : σ} (sound : service.Sound may I Rest) (rest : Rest s)
    (run : ReflTransGen service.Step ⟨s, none⟩ later) : I later.state := by
  have ok : Session.Ok service may I Rest ⟨s, none⟩ := rest
  exact (ok.run sound run).here sound

end
end Interaction
