import Mathlib.Data.List.Infix

namespace Interaction

/-- A program seen from outside: it stops with a value, or calls an operation
of its environment and goes on with whatever answer comes back. -/
inductive Program (Op : Type) (Answer : Op → Type) (α : Type) : Type
  | done (value : α)
  | call (op : Op) (next : Answer op → Program Op Answer α)

namespace Program
variable {Op : Type} {Answer : Op → Type} {α β γ σ : Type}

protected def bind : Program Op Answer α → (α → Program Op Answer β) → Program Op Answer β
  | .done value, f => f value
  | .call op next, f => .call op (fun answer => (next answer).bind f)

instance : Monad (Program Op Answer) where
  pure := .done
  bind := Program.bind

/-- A single operation, answering with what the environment answers. -/
def perform (op : Op) : Program Op Answer (Answer op) := .call op .done

/-- A statement behind a condition, with nothing in its place otherwise. -/
def onlyIf (c : Prop) [Decidable c] (p : Program Op Answer Unit) : Program Op Answer Unit :=
  if c then p else .done ()

@[simp] theorem done_bind (value : α) (f : α → Program Op Answer β) :
  (.done value : Program Op Answer α) >>= f = f value := rfl

@[simp] theorem pure_bind (value : α) (f : α → Program Op Answer β) :
  (pure value : Program Op Answer α) >>= f = f value := rfl

@[simp] theorem call_bind (op : Op) (next : Answer op → Program Op Answer α) (f : α → Program Op Answer β) :
    Program.call op next >>= f = .call op (fun answer => next answer >>= f) := rfl

@[simp] theorem perform_bind (op : Op) (f : Answer op → Program Op Answer β) :
    (perform op : Program Op Answer (Answer op)) >>= f = .call op f := rfl

theorem bind_assoc (p : Program Op Answer α) (f : α → Program Op Answer β) (g : β → Program Op Answer γ) :
    p >>= f >>= g = p >>= fun value => f value >>= g := by
  induction p with
  | done value => rfl
  | call op next ih => exact congrArg (Program.call op) (funext ih)

/-- Running against a handler. An operation that never returns (`none`) ends
the run; the state it left behind is kept. -/
def run (handle : (op : Op) → σ → Option (Answer op) × σ) : Program Op Answer α → σ → Option α × σ
  | .done value, s => (some value, s)
  | .call op next, s =>
    match handle op s with
    | (some answer, t) => (next answer).run handle t
    | (none, t) => (none, t)

section Run
variable (handle : (op : Op) → σ → Option (Answer op) × σ)

@[simp] theorem run_done (value : α) (s : σ) : (Program.done value : Program Op Answer α).run handle s =
  (some value, s) := rfl

@[simp] theorem run_pure (value : α) (s : σ) : (pure value : Program Op Answer α).run handle s =
  (some value, s) := rfl

theorem run_bind (p : Program Op Answer α) (f : α → Program Op Answer β) (s : σ) :
    (p >>= f).run handle s =
      match p.run handle s with
      | (some value, t) => (f value).run handle t
      | (none, t) => (none, t) := by
  induction p generalizing s with
  | done value => rfl
  | call op next ih =>
    simp only [call_bind, run]
    rcases handle op s with ⟨_ | answer, t⟩
    · rfl
    · exact ih answer t

theorem run_bind_some {p : Program Op Answer α} {f : α → Program Op Answer β} {s t : σ} {value : α}
    (ran : p.run handle s = (some value, t)) : (p >>= f).run handle s = (f value).run handle t := by
  simp only [run_bind, ran]

theorem run_bind_none {p : Program Op Answer α} {f : α → Program Op Answer β} {s t : σ}
    (ran : p.run handle s = (none, t)) : (p >>= f).run handle s = (none, t) := by
  simp only [run_bind, ran]

/-- The state after at most `calls` operations: every state an observer can
find the program in is one of these. -/
def runFor : Nat → Program Op Answer α → σ → σ
  | 0, _, s => s
  | _ + 1, .done _, s => s
  | calls + 1, .call op next, s =>
    match handle op s with
    | (some answer, t) => runFor calls (next answer) t
    | (none, t) => t

/-- What every operation keeps holds at every point of every run. -/
theorem runFor_invariant {I : σ → Prop} (kept : ∀ op s, I s → I (handle op s).2)
    (calls : Nat) (p : Program Op Answer α) (s : σ) (initial : I s) : I (runFor handle calls p s) := by
  induction calls generalizing p s with
  | zero => exact initial
  | succ calls ih =>
    cases p with
    | done value => exact initial
    | call op next =>
      have after := kept op s initial
      simp only [runFor]
      split
      · rename_i answer t handled
        exact ih _ _ (by simpa only [handled] using after)
      · rename_i t handled
        simpa only [handled] using after

/-- What every operation keeps holds at the end of every run. -/
theorem run_invariant {I : σ → Prop} (kept : ∀ op s, I s → I (handle op s).2)
    (p : Program Op Answer α) (s : σ) (initial : I s) : I (p.run handle s).2 := by
  induction p generalizing s with
  | done value => exact initial
  | call op next ih =>
    have after := kept op s initial
    simp only [run]
    split
    · rename_i answer t handled
      exact ih _ _ (by simpa only [handled] using after)
    · rename_i t handled
      simpa only [handled] using after

/-- A relation that operations only extend also leads from every point of a
run to its end. -/
theorem runFor_extends {R : σ → σ → Prop} (refl : ∀ s, R s s) (trans : ∀ {s t u}, R s t → R t u → R s u)
    (grows : ∀ op s, R s (handle op s).2) (calls : Nat) (p : Program Op Answer α) (s : σ) :
    R (runFor handle calls p s) (p.run handle s).2 := by
  induction calls generalizing p s with
  | zero => exact run_invariant handle (I := R s) (fun op t reached => trans reached (grows op t)) p s (refl s)
  | succ calls ih =>
    cases p with
    | done value => exact refl s
    | call op next =>
      simp only [runFor, run]
      split
      · exact ih _ _
      · exact refl _

/-- The end of a run is one of its points. -/
theorem run_eq_runFor (p : Program Op Answer α) (s : σ) :
    ∃ calls, runFor handle calls p s = (p.run handle s).2 := by
  induction p generalizing s with
  | done value => exact ⟨0, rfl⟩
  | call op next ih =>
    cases handled : handle op s with
    | mk answer t =>
      cases answer with
      | none => exact ⟨1, by simp only [runFor, run, handled]⟩
      | some answer =>
        obtain ⟨calls, same⟩ := ih answer t
        exact ⟨calls + 1, by simp only [runFor, run, handled, same]⟩

/-- The run of a program comes to the point where another program is what is left of it. -/
inductive Reaches : Program Op Answer α → σ → Program Op Answer α → σ → Prop
  | here (p : Program Op Answer α) (s : σ) : Reaches p s p s
  | step {op : Op} {next : Answer op → Program Op Answer α} {s t u : σ} {answer : Answer op} {q : Program Op Answer α}
      (handled : handle op s = (some answer, t)) (rest : Reaches (next answer) t q u) : Reaches (.call op next) s q u

namespace Reaches
variable {handle} {p q r : Program Op Answer α} {s t u : σ}

theorem trans (first : Reaches handle p s q t) (second : Reaches handle q t r u) : Reaches handle p s r u := by
  induction first with
  | here => exact second
  | step handled _ ih => exact .step handled (ih second)

/-- What is left ends as the whole does. -/
theorem run_eq (reaches : Reaches handle p s q t) : p.run handle s = q.run handle t := by
  induction reaches with
  | here => rfl
  | step handled _ ih => simp only [run, handled, ih]

theorem of_run_bind {p : Program Op Answer β} {f : β → Program Op Answer α} {value : β}
    (ran : p.run handle s = (some value, t)) : Reaches handle (p >>= f) s (f value) t := by
  induction p generalizing s with
  | done other =>
    cases ran
    exact .here _ _
  | call op next ih =>
    simp only [run] at ran
    split at ran
    · rename_i answer middle handled
      exact .step handled (ih answer ran)
    · cases ran

/-- What every operation keeps holds at every point that is reached. -/
theorem invariant {I : σ → Prop} (kept : ∀ op s, I s → I (handle op s).2) (reaches : Reaches handle p s q t)
    (initial : I s) : I t := by
  induction reaches with
  | here => exact initial
  | @step op next s t u answer q handled rest ih =>
    have after := kept op s initial
    rw [handled] at after
    exact ih after

end Reaches

end Run

/-- What may be left of a program, whatever its operations have answered. -/
inductive Leads (p : Program Op Answer α) : Program Op Answer α → Prop
  | here : Leads p p
  | step {op : Op} {next : Answer op → Program Op Answer α} {answer : Answer op} (rest : Leads p (.call op next)) :
      Leads p (next answer)

/-- An endless loop, observed for a number of rounds. -/
def rounds (body : Program Op Answer Unit) : Nat → Program Op Answer Unit
  | 0 => pure ()
  | n + 1 => do
    rounds body n
    body

end Program
end Interaction
