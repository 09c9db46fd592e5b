import FlukeCda.Gpib.Board
import FlukeCda.Gpib.Masking

/-! # Cleaning up after a write -/

namespace FlukeCda.Gpib.CleanUp
open Interaction Program Accompanied Relation Masking Bits
open Read (HR_DMAI)

/-- The callback may be called for a running transfer. -/
def masks (board : Board) : Masks where
  regBits := board.regBits
  chipRegs := board.chipRegs
  inProgress
    | .write => board.flags .dmaWriteInProgress
    | .read => board.flags .dmaReadInProgress
  issued := match board.channel with
    | .running _ _ => true
    | .idle | .queued _ => false

/-- The engine calls `fluke_dma_callback`, at whatever point of the transfer. -/
def Begins (board after : Board) : Prop :=
  (∃ next length, board.channel = .running next length) ∧ after = { board with channel := .idle }

/-- Whatever else happens to the board, the masks and the spin lock stay as they are. -/
def Outside (board after : Board) : Prop := masks after = masks board ∧ after.locked = board.locked

def flagEffect : Flag → Bool → Effect
  | .dmaWriteInProgress, value => .inProgress .write value
  | .dmaReadInProgress, value => .inProgress .read value
  | _, _ => .nothing

def effect : Op → Effect
  | .terminateAll | .submit _ => .issued false
  | .issuePending => .issued true
  | .setRegBits reg mask bits => .regBits reg mask bits
  | .setBit flag => flagEffect flag true
  | .clearBit flag | .testAndClearBit flag => flagEffect flag false
  | _ => .nothing

theorem masks_putFlag (board : Board) (flag : Flag) (value : Bool) :
    masks (board.putFlag flag value) = (flagEffect flag value).apply (masks board) := by
  cases flag <;> refine masks_ext rfl rfl (fun way => ?_) rfl <;> cases way <;> rfl

theorem seen : Seen Act Begins Outside effect masks where
  acts op answer board after acts := by
    cases acts with
    | testAndClearBit | setBit | clearBit => exact masks_putFlag _ _ _
    | issuePending queued => rfl
    | internalInterrupt interrupted =>
      refine masks_ext rfl rfl (fun way => ?_) rfl
      cases way with
      | write => exact interrupted.2 _ (Or.inl rfl)
      | read => exact interrupted.2 _ (Or.inr rfl)
    | _ => rfl
  begins board after begins := by
    obtain ⟨⟨next, length, running⟩, rfl⟩ := begins
    exact ⟨by rw [masks, running], rfl⟩
  drift board after outside := outside.1

/-- The callback, at whatever point it is, keeps to its order. -/
theorem mends : Mends effect False flukeDmaCallback := by
  refine ordered_other rfl fun _ => ?_
  refine ordered_early rfl fun _ => ?_
  refine ordered_other rfl fun _ => ?_
  refine ordered_other rfl fun _ => ?_
  refine ordered_late ⟨.write, rfl⟩ fun _ => ?_
  refine ordered_late ⟨.read, rfl⟩ fun _ => ?_
  exact ordered_other rfl fun _ => trivial

section
variable {α : Type} {a : Accompanied Op Answer Board}

abbrev Cleaning (Q : α → Accompanied Op Answer Board → Prop) : Code α → Accompanied Op Answer Board → Prop :=
  Cleans Act Begins Outside flukeDmaCallback Q

abbrev Beside (P : Masks → Prop) (a : Accompanied Op Answer Board) : Prop := Joined effect masks P a

theorem startDmaWrite_cleans (desc : Desc) (alone : Alone masks Clean a) :
    Cleaning (fun _ => Beside (Working .write HR_DMAI)) (startDmaWrite desc) a := by
  refine seen.alone_perform (fun _ clean => clean) nofun (fun _ a alone => ?_) alone
  refine seen.alone_perform (fun _ clean => clean.disable HR_DOIE) nofun (fun _ a alone => ?_) alone
  refine seen.alone_perform (fun _ prepared => prepared.dmaOn .write) nofun (fun _ a alone => ?_) alone
  refine seen.alone_perform (robust_prepared.issued false) nofun (fun _ a alone => ?_) alone
  refine seen.alone_issue rfl robust_prepared (fun _ a joined => ?_) alone
  refine seen.joined_skip mends robust_prepared rfl (fun _ a joined => ?_) joined
  refine seen.joined_perform mends robust_prepared (fun _ prepared => prepared.start .write) (fun _ enabled => enabled)
    (fun _ a joined => ?_) joined
  exact seen.joined_only mends robust_working (onlyPerforms_step rfl fun _ => trivial) joined

/-- Called by hand, whatever has become of the engine's call. -/
theorem flukeDmaCallback_cleans (joined : Beside (Working .write (HR_DMAO ||| HR_DMAI)) a) :
    Cleaning (fun _ => Beside Clean) flukeDmaCallback a := by
  refine seen.joined_skip mends robust_working rfl (fun _ a joined => ?_) joined
  refine seen.joined_perform mends robust_working (fun _ working => working.restore rfl) (fun _ _ => replaced_same _ _)
    (fun _ a joined => ?_) joined
  refine seen.joined_skip mends robust_restored rfl (fun _ a joined => ?_) joined
  refine seen.joined_skip mends robust_restored rfl (fun _ a joined => ?_) joined
  refine seen.joined_perform mends robust_restored (fun _ restored => restored.endWrite) (fun _ enabled => enabled)
    (fun _ a joined => ?_) joined
  refine seen.joined_perform mends robust_written (fun _ written => written.endRead) (fun _ enabled => enabled)
    (fun _ a joined => ?_) joined
  exact seen.joined_only mends robust_clean (onlyPerforms_step rfl fun _ => trivial) joined

theorem stopDmaWrite_cleans (joined : Beside (Working .write HR_DMAI) a) :
    Cleaning (fun _ => Beside Clean) stopDmaWrite a := by
  refine seen.joined_perform mends robust_working (fun _ working => working.dmaOff .write) (fun _ enabled => enabled)
    (fun _ a joined => ?_) joined
  refine seen.joined_perform mends robust_working (robust_working.issued false) (fun _ enabled => enabled)
    (fun _ a joined => ?_) joined
  refine seen.joined_test mends robust_working rfl (R := fun inProgress m => m.inProgress .write = inProgress)
    ?_ (fun inProgress a joined => ?_) joined
  · intro answer s t acts
    cases acts
    rfl
  · unfold onlyIf
    split_ifs with busy
    · exact flukeDmaCallback_cleans (joined.mono fun m working => working.1)
    · have idle := (Bool.not_eq_true _).mp busy
      have clean := joined.mono fun m working => working.1.clean (working.2.trans idle)
      exact seen.joined_only mends robust_clean (p := pure ()) trivial clean

abbrev Untouched (p : Code α) : Prop := OnlyPerforms (fun op => effect op = .nothing) p

theorem perform_untouched {op : Op} (nothing : effect op = .nothing) : Untouched (perform op) :=
  ⟨nothing, fun _ => trivial⟩

theorem waitWritten_untouched (length : Nat) : Untouched (waitWritten length) := by
  refine onlyPerforms_step rfl fun waited => ?_
  refine onlyPerforms_bind (afterWait_only (perform_untouched rfl) (perform_untouched rfl) waited) fun retval => ?_
  exact overrideIf_only (perform_untouched rfl) _ _

theorem waitForIdle_untouched (wakeOnListenerIdle wakeOnTalkerIdle : Bool) :
    Untouched (waitForIdle wakeOnListenerIdle wakeOnTalkerIdle) := by
  refine onlyPerforms_step rfl fun waited => ?_
  exact afterWait_only (perform_untouched rfl) (perform_untouched rfl) waited

theorem countDmaWrite_untouched (length : Nat) (retval : Int) : Untouched (countDmaWrite length retval) := by
  refine onlyPerforms_step rfl fun counter => ?_
  change Untouched (if counter &&& writeTransferCounterMask > length then bug else _)
  split_ifs
  · exact ⟨rfl, nofun⟩
  · exact onlyPerforms_step rfl fun _ => trivial

theorem transferDma_cleans (length : Nat) (desc : Desc) (alone : Alone masks Clean a) :
    Cleaning (fun _ => Beside Clean) (transferDma length desc) a := by
  refine (startDmaWrite_cleans desc alone).andThen fun _ a joined => ?_
  refine (seen.joined_only mends robust_working (waitWritten_untouched length) joined).andThen fun retval a joined => ?_
  refine (stopDmaWrite_cleans joined).andThen fun _ a joined => ?_
  refine seen.joined_only mends robust_clean (onlyPerforms_bind ?_ fun _ => countDmaWrite_untouched length retval) joined
  unfold onlyIf
  split_ifs
  · exact perform_untouched rfl
  · trivial

/-- However far the write gets. -/
theorem flukeDmaWrite_cleans (buffer : Nat → UInt8) (length : Nat) (alone : Alone masks Clean a) :
    Cleaning (fun _ a => Clean (masks a.state)) (flukeDmaWrite buffer length) a := by
  have early : ∀ {p : Code (Int × Nat)} {a}, Untouched p →
      Alone masks Clean a → Cleaning (fun _ a => Clean (masks a.state)) p a :=
    fun only alone => (seen.alone_only only alone).mono (fun _ here => here) fun _ _ done => done.1.1
  have abandon : ∀ retval, Untouched (abandonDmaWrite length retval) :=
    fun _ => onlyPerforms_step rfl fun _ => trivial
  unfold flukeDmaWrite
  split_ifs
  · exact early ⟨rfl, nofun⟩ alone
  · refine seen.alone_perform (robust_clean.issued false) nofun (fun _ a alone => ?_) alone
    refine seen.alone_perform (fun _ clean => clean) nofun (fun _ a alone => ?_) alone
    refine (seen.alone_only (waitForIdle_untouched true false) alone).andThen fun retval a alone => ?_
    split_ifs
    · exact early trivial alone
    · refine seen.alone_perform (fun _ clean => clean) nofun (fun _ a alone => ?_) alone
      refine seen.alone_perform (fun _ clean => clean) nofun (fun _ a alone => ?_) alone
      refine seen.alone_perform (fun _ clean => clean) nofun (fun retval a alone => ?_) alone
      split_ifs
      · exact early (abandon retval) alone
      · refine seen.alone_perform (fun _ clean => clean) nofun (fun desc a alone => ?_) alone
        cases desc with
        | none => exact early (abandon _) alone
        | some desc =>
          exact (transferDma_cleans length desc alone).mono (fun _ here => here) fun _ _ done => done.1

end

/-- A course of `fluke_dma_write` up to its return, with the callback beside it. -/
abbrev Returns (buffer : Nat → UInt8) (length : Nat) (board : Board) (value : Int × Nat)
    (later : Accompanied Op Answer Board) : Prop :=
  ReflTransGen (Moves (Acts Act) (Accompanied.Drift Act Begins Outside flukeDmaCallback))
    (flukeDmaWrite buffer length, ⟨board, none⟩) (.done value, later)

end FlukeCda.Gpib.CleanUp
