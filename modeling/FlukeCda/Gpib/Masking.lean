import FlukeCda.Data.Bits
import FlukeCda.Gpib.Read.Source
import FlukeCda.Interaction.Companion

/-! # The masks around a transfer

Both directions of a transfer change the interrupt masks and a bit that says that
they are in progress, and so does the callback. It runs on another CPU, whenever
the engine calls it.
-/

namespace FlukeCda.Gpib.Masking
open Interaction Program Accompanied Bits
open Read (HR_DMAI)

/-- The directions of a transfer. -/
inductive Way
  | write
  | read
  deriving DecidableEq

/-- What a transfer sets up and has to undo. `issued` says that there is a transfer
whose callback the engine may call. -/
structure Masks where
  regBits : Reg → UInt8
  chipRegs : Reg → UInt8
  inProgress : Way → Bool
  issued : Bool

theorem masks_ext {m m' : Masks} (regBits : m.regBits = m'.regBits) (chipRegs : m.chipRegs = m'.chipRegs)
    (inProgress : ∀ way, m.inProgress way = m'.inProgress way) (issued : m.issued = m'.issued) : m = m' := by
  cases m
  cases m'
  cases regBits
  cases chipRegs
  cases issued
  cases funext inProgress
  rfl

/-- What an operation does to the masks. -/
inductive Effect
  | regBits (reg : Reg) (mask bits : UInt8)
  | inProgress (way : Way) (value : Bool)
  | issued (value : Bool)
  | nothing

def Masks.putRegBits (m : Masks) (reg : Reg) (mask bits : UInt8) : Masks :=
  let value := (m.regBits reg &&& ~~~mask) ||| (mask &&& bits)
  { m with regBits := Function.update m.regBits reg value, chipRegs := Function.update m.chipRegs reg value }

def Effect.apply : Effect → Masks → Masks
  | .regBits reg mask bits, m => m.putRegBits reg mask bits
  | .inProgress way value, m => { m with inProgress := Function.update m.inProgress way value }
  | .issued value, m => { m with issued := value }
  | .nothing, m => m

/-- The chip has what its shadow says. -/
def Shadowed (m : Masks) : Prop := m.chipRegs = m.regBits

def Enabled (m : Masks) : Prop := m.regBits .imr1 &&& (HR_DOIE ||| HR_DIIE) = HR_DOIE ||| HR_DIIE

def Off (bits : UInt8) (m : Masks) : Prop := m.regBits .imr2 &&& bits = 0

def Idle (way : Way) (m : Masks) : Prop := m.inProgress way = false

/-- Between two transfers: both interrupts enabled, no DMA, nothing in progress. -/
structure Clean (m : Masks) : Prop where
  enabled : Enabled m
  off : Off (HR_DMAO ||| HR_DMAI) m
  idle : ∀ way, Idle way m
  shadowed : Shadowed m

/-- What the callback enables. -/
def Effect.Enables (effect : Effect) : Prop := effect = .regBits .imr1 (HR_DOIE ||| HR_DIIE) (HR_DOIE ||| HR_DIIE)

def Effect.Ends (effect : Effect) : Prop := ∃ way, effect = .inProgress way false

/-- An assertion that the callback cannot spoil, if it enables the interrupts before
it ends a transfer. -/
structure Robust (P : Masks → Prop) : Prop where
  enables : ∀ (effect : Effect) m, effect.Enables → P m → P (effect.apply m)
  ends : ∀ (effect : Effect) m, effect.Ends → Enabled m → P m → P (effect.apply m)
  issued : ∀ value m, P m → P ((Effect.issued value).apply m)

theorem Robust.and {P Q : Masks → Prop} (first : Robust P) (second : Robust Q) : Robust fun m => P m ∧ Q m where
  enables effect m enables both := ⟨first.enables effect m enables both.1, second.enables effect m enables both.2⟩
  ends effect m ends enabled both := ⟨first.ends effect m ends enabled both.1, second.ends effect m ends enabled both.2⟩
  issued value m both := ⟨first.issued value m both.1, second.issued value m both.2⟩

section
variable {m : Masks} {effect : Effect}

theorem Effect.Enables.enabled (enables : effect.Enables) : Enabled (effect.apply m) := by
  rw [Effect.Enables] at enables
  subst enables
  exact replaced_same _ _

theorem Effect.Ends.enabled (ends : effect.Ends) (enabled : Enabled m) : Enabled (effect.apply m) := by
  obtain ⟨way, rfl⟩ := ends
  exact enabled

theorem shadowed_apply (shadowed : Shadowed m) : Shadowed (effect.apply m) := by
  cases effect with
  | regBits reg mask bits =>
    rw [Shadowed, Effect.apply, Masks.putRegBits, show m.chipRegs = m.regBits from shadowed]
  | _ => exact shadowed

theorem robust_shadowed : Robust Shadowed where
  enables _ _ _ := shadowed_apply
  ends _ _ _ _ := shadowed_apply
  issued _ _ := shadowed_apply

theorem robust_enabled : Robust Enabled where
  enables _ _ enables _ := enables.enabled
  ends _ _ ends enabled _ := ends.enabled enabled
  issued _ _ enabled := enabled

theorem robust_off (bits : UInt8) : Robust (Off bits) where
  enables effect m enables off := by
    rw [Effect.Enables] at enables
    subst enables
    exact off
  ends effect m ends _ off := by
    obtain ⟨way, rfl⟩ := ends
    exact off
  issued _ _ off := off

theorem idle_ended (way : Way) : Idle way ((Effect.inProgress way false).apply m) := by
  exact Function.update_self way false m.inProgress

theorem Effect.Ends.idle {way : Way} (ends : effect.Ends) (idle : Idle way m) : Idle way (effect.apply m) := by
  obtain ⟨ended, rfl⟩ := ends
  by_cases same : way = ended
  · subst same
    exact idle_ended way
  · exact (Function.update_of_ne same false m.inProgress).trans idle

theorem robust_idle (way : Way) : Robust (Idle way) where
  enables effect m enables idle := by
    rw [Effect.Enables] at enables
    subst enables
    exact idle
  ends _ _ ends _ := ends.idle
  issued _ _ idle := idle

/-- Interrupts that are disabled mean a transfer in progress. -/
theorem robust_guarded (way : Way) : Robust fun m => Idle way m → Enabled m where
  enables _ _ enables _ _ := enables.enabled
  ends _ _ ends enabled _ _ := ends.enabled enabled
  issued _ _ guarded := guarded

end

def Way.other : Way → Way
  | .write => .read
  | .read => .write

def Way.dma : Way → UInt8
  | .write => HR_DMAO
  | .read => HR_DMAI

/-- A transfer is set up, but its bit is still clear. -/
def Prepared (bits : UInt8) (m : Masks) : Prop := Shadowed m ∧ Off bits m ∧ Idle .write m ∧ Idle .read m

/-- A transfer is in progress, or its callback is past the end of it. -/
def Working (way : Way) (bits : UInt8) (m : Masks) : Prop :=
  Shadowed m ∧ Off bits m ∧ Idle way.other m ∧ (Idle way m → Enabled m)

/-- Only the bits of the transfers are left to clear. -/
def Restored (m : Masks) : Prop := Shadowed m ∧ Off (HR_DMAO ||| HR_DMAI) m ∧ Enabled m

/-- And the bit of a write is cleared. -/
def Written (m : Masks) : Prop := Restored m ∧ Idle .write m

section
variable {m : Masks} {way : Way} {bits : UInt8}

theorem robust_prepared : Robust (Prepared bits) :=
  robust_shadowed.and ((robust_off bits).and ((robust_idle .write).and (robust_idle .read)))

theorem robust_working : Robust (Working way bits) :=
  robust_shadowed.and ((robust_off bits).and ((robust_idle way.other).and (robust_guarded way)))

theorem robust_restored : Robust Restored := robust_shadowed.and ((robust_off _).and robust_enabled)

theorem robust_written : Robust Written := robust_restored.and (robust_idle .write)

theorem clean_iff : Clean m ↔ Written m ∧ Idle .read m := by
  constructor
  · intro clean
    exact ⟨⟨⟨clean.shadowed, clean.off, clean.enabled⟩, clean.idle .write⟩, clean.idle .read⟩
  · rintro ⟨⟨⟨shadowed, off, enabled⟩, write⟩, read⟩
    refine ⟨enabled, off, fun way => ?_, shadowed⟩
    cases way with
    | write => exact write
    | read => exact read

theorem robust_clean : Robust Clean := by
  have same : Clean = fun m => Written m ∧ Idle .read m := funext fun m => propext clean_iff
  rw [same]
  exact robust_written.and (robust_idle .read)

theorem Clean.disable (clean : Clean m) (mask : UInt8) :
    Prepared (HR_DMAO ||| HR_DMAI) ((Effect.regBits .imr1 mask 0).apply m) :=
  ⟨shadowed_apply clean.shadowed, clean.off, clean.idle .write, clean.idle .read⟩

theorem Prepared.dmaOn (prepared : Prepared (HR_DMAO ||| HR_DMAI) m) (way : Way) :
    Prepared way.other.dma ((Effect.regBits .imr2 way.dma way.dma).apply m) := by
  obtain ⟨shadowed, off, idle⟩ := prepared
  refine ⟨shadowed_apply shadowed, ?_, idle⟩
  have apart : way.dma &&& way.other.dma = 0 := by cases way <;> rfl
  have part : (HR_DMAO ||| HR_DMAI) &&& way.other.dma = way.other.dma := by cases way <;> rfl
  refine (replaced_apart way.dma apart).trans ?_
  rw [← part, ← UInt8.and_assoc, show m.regBits .imr2 &&& (HR_DMAO ||| HR_DMAI) = 0 from off, UInt8.zero_and]

theorem Prepared.start (prepared : Prepared bits m) (way : Way) :
    Working way bits ((Effect.inProgress way true).apply m) := by
  obtain ⟨shadowed, off, write, read⟩ := prepared
  refine ⟨shadowed_apply shadowed, off, ?_, fun idle => ?_⟩
  · cases way with
    | write => exact read
    | read => exact write
  · have started := Function.update_self way true m.inProgress
    cases started.symm.trans idle

theorem Working.dmaOff (way : Way) (working : Working way way.other.dma m) :
    Working way (HR_DMAO ||| HR_DMAI) ((Effect.regBits .imr2 way.dma 0).apply m) := by
  obtain ⟨shadowed, off, idle, guarded⟩ := working
  refine ⟨shadowed_apply shadowed, ?_, idle, guarded⟩
  have both : HR_DMAO ||| HR_DMAI = way.dma ||| way.other.dma := by cases way <;> rfl
  have apart : way.dma &&& way.other.dma = 0 := by cases way <;> rfl
  have own := replaced_zero (m.regBits .imr2) way.dma
  have other := (replaced_apart 0 apart).trans off
  rw [both, Off, UInt8.and_comm, or_and_distrib, UInt8.and_comm way.dma, UInt8.and_comm way.other.dma]
  exact (congrArg₂ (· ||| ·) own other).trans UInt8.or_self

/-- The callback has ended the transfer. -/
theorem Working.clean (working : Working way (HR_DMAO ||| HR_DMAI) m) (idle : Idle way m) : Clean m := by
  obtain ⟨shadowed, off, other, guarded⟩ := working
  refine ⟨guarded idle, off, fun any => ?_, shadowed⟩
  cases way <;> cases any <;> first | exact idle | exact other

theorem Working.restore (working : Working way (HR_DMAO ||| HR_DMAI) m) {effect : Effect} (enables : effect.Enables) :
    Restored (effect.apply m) := by
  obtain ⟨shadowed, off, -, -⟩ := working
  exact ⟨shadowed_apply shadowed, (robust_off _).enables effect m enables off, enables.enabled⟩

theorem Restored.endWrite (restored : Restored m) : Written ((Effect.inProgress .write false).apply m) :=
  ⟨robust_restored.ends _ m ⟨.write, rfl⟩ restored.2.2 restored, idle_ended .write⟩

theorem Written.endRead (written : Written m) : Clean ((Effect.inProgress .read false).apply m) := by
  have still := robust_written.ends _ m ⟨.read, rfl⟩ written.1.2.2 written
  exact clean_iff.mpr ⟨still, idle_ended .read⟩

end

/-- The masks are seen in the state: what an operation does to them, that the
callback begins only for a transfer that is issued, and that nobody else touches them. -/
structure Seen {Op : Type} {Answer : Op → Type} {σ : Type} (act : (op : Op) → Answer op → σ → σ → Prop)
    (begins drift : σ → σ → Prop) (effect : Op → Effect) (view : σ → Masks) : Prop where
  acts : ∀ op answer s t, act op answer s t → view t = (effect op).apply (view s)
  begins : ∀ s t, begins s t → (view s).issued = true ∧ view t = (Effect.issued false).apply (view s)
  drift : ∀ s t, drift s t → view t = view s

section
variable {Op : Type} {Answer : Op → Type} {σ α : Type} {act : (op : Op) → Answer op → σ → σ → Prop}
variable {begins drift : σ → σ → Prop} {effect : Op → Effect} {view : σ → Masks} {code : Program Op Answer Unit}
variable {P P' : Masks → Prop} {Q : α → Accompanied Op Answer σ → Prop} {a b : Accompanied Op Answer σ}

/-- A program that enables the interrupts before it ends a transfer, and leaves the
masks alone otherwise. -/
def Mends (effect : Op → Effect) : Prop → Program Op Answer α → Prop :=
  Ordered (fun op => (effect op).Enables) (fun op => (effect op).Ends) fun op => effect op = .nothing

/-- The callback has not begun, and cannot. -/
def Alone (view : σ → Masks) (P : Masks → Prop) (a : Accompanied Op Answer σ) : Prop :=
  (P (view a.state) ∧ (view a.state).issued = false) ∧ a.companion = none

/-- The callback is at any point. -/
def Joined (effect : Op → Effect) (view : σ → Masks) (P : Masks → Prop) (a : Accompanied Op Answer σ) : Prop :=
  P (view a.state) ∧
    Orderly (fun op => (effect op).Enables) (fun op => (effect op).Ends) (fun op => effect op = .nothing)
      (fun s => Enabled (view s)) a

abbrev Cleans (act : (op : Op) → Answer op → σ → σ → Prop) (begins drift : σ → σ → Prop)
    (code : Program Op Answer Unit) :
    (α → Accompanied Op Answer σ → Prop) → Program Op Answer α → Accompanied Op Answer σ → Prop :=
  Safe (Accompanied.Acts act) (Accompanied.Drift act begins drift code) anything fun _ => True

theorem Seen.steady_alone (seen : Seen act begins drift effect view) :
    Steady (Accompanied.Drift act begins drift code) (fun _ => True) (Alone view P) where
  stable := by
    refine stable_fresh (P := fun s => P (view s) ∧ (view s).issued = false) ?_ ?_
    · rintro s t ⟨-, unissued⟩ starts
      have issued := (seen.begins s t starts).1
      rw [unissued] at issued
      cases issued
    · rintro s t drifts ⟨holds, unissued⟩
      rw [seen.drift s t drifts]
      exact ⟨holds, unissued⟩
  here _ _ := trivial

theorem Seen.steady_joined (seen : Seen act begins drift effect view) (mends : Mends effect False code)
    (robust : Robust P) :
    Steady (Accompanied.Drift act begins drift code) (fun _ => True) (Joined effect view P) where
  stable := by
    refine stable_orderly (P := fun s => P (view s)) mends ?_ ?_ ?_ ?_ ?_
    · intro s t starts holds
      rw [(seen.begins s t starts).2]
      exact robust.issued false _ holds
    · intro s t drifts
      rw [seen.drift s t drifts]
      exact ⟨id, id⟩
    · intro op answer s t enables acts
      rw [seen.acts op answer s t acts]
      exact ⟨robust.enables _ _ enables, enables.enabled⟩
    · intro op answer s t ends enabled acts
      rw [seen.acts op answer s t acts]
      exact ⟨robust.ends _ _ ends enabled, ends.enabled enabled⟩
    · intro op answer s t nothing acts
      rw [seen.acts op answer s t acts, nothing]
      exact ⟨id, id⟩
  here _ _ := trivial

/-- One operation before a transfer is issued. -/
theorem Seen.alone_perform (seen : Seen act begins drift effect view) {op : Op} {f : Answer op → Program Op Answer α}
    (moves : ∀ m, P m → P' ((effect op).apply m)) (unissued : effect op ≠ .issued true)
    (rest : ∀ answer b, Alone view P' b → Cleans act begins drift code Q (f answer) b) (alone : Alone view P a) :
    Cleans act begins drift code Q (perform op >>= f) a := by
  refine safe_perform seen.steady_alone (fun _ _ => trivial) ?_ alone
  rintro a answer _ ⟨⟨holds, before⟩, fresh⟩ ⟨s, acts, rfl⟩
  refine rest answer _ ⟨?_, fresh⟩
  rw [seen.acts op answer _ _ acts]
  refine ⟨moves _ holds, ?_⟩
  cases does : effect op with
  | issued value =>
    rw [does] at unissued
    cases value with
    | false => rfl
    | true => exact absurd rfl unissued
  | _ => exact before

/-- From here on the callback may begin. -/
theorem Seen.alone_issue (seen : Seen act begins drift effect view) {op : Op} {f : Answer op → Program Op Answer α}
    (issues : effect op = .issued true) (robust : Robust P)
    (rest : ∀ answer b, Joined effect view P b → Cleans act begins drift code Q (f answer) b)
    (alone : Alone view P a) : Cleans act begins drift code Q (perform op >>= f) a := by
  refine safe_perform seen.steady_alone (fun _ _ => trivial) ?_ alone
  rintro a answer _ ⟨⟨holds, before⟩, fresh⟩ ⟨s, acts, rfl⟩
  refine rest answer _ ⟨?_, orderly_fresh fresh⟩
  rw [seen.acts op answer _ _ acts, issues]
  exact robust.issued true _ holds

theorem Joined.mono (joined : Joined effect view P a) (weaker : ∀ m, P m → P' m) : Joined effect view P' a :=
  ⟨weaker _ joined.1, joined.2⟩

/-- One operation beside the callback. -/
theorem Seen.joined_perform (seen : Seen act begins drift effect view) (mends : Mends effect False code) {op : Op}
    {f : Answer op → Program Op Answer α} (robust : Robust P) (moves : ∀ m, P m → P' ((effect op).apply m))
    (enabled : ∀ m, Enabled m → Enabled ((effect op).apply m))
    (rest : ∀ answer b, Joined effect view P' b → Cleans act begins drift code Q (f answer) b)
    (joined : Joined effect view P a) : Cleans act begins drift code Q (perform op >>= f) a := by
  refine safe_perform (seen.steady_joined mends robust) (fun _ _ => trivial) ?_ joined
  rintro a answer _ ⟨holds, orderly⟩ ⟨s, acted, rfl⟩
  refine rest answer _ ⟨?_, orderly.acts ?_ ⟨s, acted, rfl⟩⟩
  · rw [seen.acts op answer _ _ acted]
    exact moves _ holds
  · intro s t before acts
    rw [seen.acts op answer s t acts]
    exact enabled _ before

/-- An operation that tells something of the masks. -/
theorem Seen.joined_test (seen : Seen act begins drift effect view) (mends : Mends effect False code) {op : Op}
    {f : Answer op → Program Op Answer α} (robust : Robust P) (nothing : effect op = .nothing)
    {R : Answer op → Masks → Prop} (tells : ∀ answer s t, act op answer s t → R answer (view s))
    (rest : ∀ answer b, Joined effect view (fun m => P m ∧ R answer m) b →
      Cleans act begins drift code Q (f answer) b)
    (joined : Joined effect view P a) : Cleans act begins drift code Q (perform op >>= f) a := by
  refine safe_perform (seen.steady_joined mends robust) (fun _ _ => trivial) ?_ joined
  rintro a answer _ ⟨holds, orderly⟩ ⟨s, acted, rfl⟩
  refine rest answer _ ⟨?_, orderly.acts ?_ ⟨s, acted, rfl⟩⟩
  · rw [seen.acts op answer _ _ acted, nothing]
    exact ⟨holds, tells answer _ _ acted⟩
  · intro s t before acts
    rw [seen.acts op answer s t acts, nothing]
    exact before

/-- Operations that leave the masks alone. -/
theorem Seen.alone_only (seen : Seen act begins drift effect view) {p : Program Op Answer α}
    (only : OnlyPerforms (fun op => effect op = .nothing) p) (alone : Alone view P a) :
    Cleans act begins drift code (fun _ => Alone view P) p a := by
  refine safe_only seen.steady_alone (fun _ _ _ _ => trivial) ?_ only alone
  rintro op answer a _ nothing ⟨holds, fresh⟩ ⟨s, acts, rfl⟩
  refine ⟨?_, fresh⟩
  rw [seen.acts op answer _ _ acts, nothing]
  exact holds

theorem Seen.joined_only (seen : Seen act begins drift effect view) (mends : Mends effect False code)
    (robust : Robust P) {p : Program Op Answer α} (only : OnlyPerforms (fun op => effect op = .nothing) p)
    (joined : Joined effect view P a) : Cleans act begins drift code (fun _ => Joined effect view P) p a := by
  refine safe_only (seen.steady_joined mends robust) (fun _ _ _ _ => trivial) ?_ only joined
  rintro op answer a _ nothing ⟨holds, orderly⟩ ⟨s, acted, rfl⟩
  refine ⟨?_, orderly.acts ?_ ⟨s, acted, rfl⟩⟩
  · rw [seen.acts op answer _ _ acted, nothing]
    exact holds
  · intro s t before acts
    rw [seen.acts op answer s t acts, nothing]
    exact before

/-- One operation that leaves the masks alone. -/
theorem Seen.joined_skip (seen : Seen act begins drift effect view) (mends : Mends effect False code)
    (robust : Robust P) {op : Op} {f : Answer op → Program Op Answer α} (nothing : effect op = .nothing)
    (rest : ∀ answer b, Joined effect view P b → Cleans act begins drift code Q (f answer) b)
    (joined : Joined effect view P a) : Cleans act begins drift code Q (perform op >>= f) a :=
  (seen.joined_only mends robust (p := perform op) ⟨nothing, fun _ => trivial⟩ joined).andThen rest

end
end FlukeCda.Gpib.Masking
