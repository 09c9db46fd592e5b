import FlukeCda.Gpib.CleanUp
import FlukeCda.Gpib.Read.Board

/-! # Cleaning up after a read

A read stops its transfer as a write does, and the callback is the same. Whatever
fails, and whenever the callback runs, both leave the masks as they found them.
-/

namespace FlukeCda.Gpib.Read.CleanUp
open Interaction Program Accompanied Relation Masking Bits

/-- The callback may be called for a transfer that is running or paused. -/
def masks (board : Board) : Masks where
  regBits := board.regBits
  chipRegs := board.chipRegs
  inProgress
    | .write => board.flags .dmaWriteInProgress
    | .read => board.flags .dmaReadInProgress
  issued := match board.channel with
    | .running | .paused => true
    | .idle | .queued => false

/-- The engine calls `fluke_dma_callback`, at whatever point of the transfer. -/
def Begins (board after : Board) : Prop :=
  (board.channel = .running ∨ board.channel = .paused) ∧ after = { board with channel := .idle }

/-- Whatever else happens to the board, the masks and the spin lock stay as they are. -/
def Outside (board after : Board) : Prop := masks after = masks board ∧ after.locked = board.locked

def flagEffect : Flag → Bool → Effect
  | .dmaWriteInProgress, value => .inProgress .write value
  | .dmaReadInProgress, value => .inProgress .read value
  | _, _ => .nothing

def effect : Op → Effect
  | .terminateAll | .submit _ => .issued false
  | .issuePending => .issued true
  | .setRegBits reg mask bits => .regBits reg mask bits
  | .setBit flag => flagEffect flag true
  | .clearBit flag | .testAndClearBit flag => flagEffect flag false
  | _ => .nothing

theorem masks_putFlag (board : Board) (flag : Flag) (value : Bool) :
    masks (board.putFlag flag value) = (flagEffect flag value).apply (masks board) := by
  cases flag <;> refine masks_ext rfl rfl (fun way => ?_) rfl <;> cases way <;> rfl

/-- The interrupt routine leaves the bits of the transfers alone. -/
theorem masks_record (board : Board) (status1 : Isr1) : masks (board.record status1) = masks board := by
  refine masks_ext rfl rfl (fun way => ?_) rfl
  obtain ⟨endRx, di⟩ := status1
  cases way <;> cases endRx <;> cases di <;>
    simp [masks, Board.record, nec7210InterruptHaveStatus] <;> split_ifs <;> simp

theorem masks_pause (board : Board) : masks board.pause = masks board := by
  refine masks_ext rfl rfl (fun way => ?_) ?_
  · cases way <;> rfl
  · unfold masks Board.pause
    split_ifs with running
    · rw [running]
    · rfl

theorem seen : Seen Act Begins Outside effect masks where
  acts op answer board after acts := by
    cases acts with
    | testAndClearBit | setBit | clearBit => exact masks_putFlag _ _ _
    | haveStatus => exact masks_record _ _
    | paused fine => exact masks_pause _
    | _ => rfl
  begins board after begins := by
    obtain ⟨active, rfl⟩ := begins
    refine ⟨?_, rfl⟩
    rcases active with running | paused
    · rw [masks, running]
    · rw [masks, paused]
  drift board after outside := outside.1

theorem flukeDmaCallback_eq :
    flukeDmaCallback = (do
      spinLockIrqsave
      setRegBits .imr1 (HR_DOIE ||| HR_DIIE) (HR_DOIE ||| HR_DIIE)
      wakeUpInterruptible
      let status1 ← readIsr1
      haveStatus status1
      clearBit .dmaWriteInProgress
      clearBit .dmaReadInProgress
      spinUnlockIrqrestore) := rfl

/-- The callback, at whatever point it is, keeps to its order. -/
theorem mends : Mends effect False flukeDmaCallback := by
  rw [flukeDmaCallback_eq]
  refine ordered_other rfl fun _ => ?_
  refine ordered_early rfl fun _ => ?_
  refine ordered_other rfl fun _ => ?_
  refine ordered_other rfl fun _ => ?_
  refine ordered_other rfl fun _ => ?_
  refine ordered_late ⟨.write, rfl⟩ fun _ => ?_
  refine ordered_late ⟨.read, rfl⟩ fun _ => ?_
  exact ordered_other rfl fun _ => trivial

section
variable {α : Type} {a : Accompanied Op Answer Board}

abbrev Cleaning (Q : α → Accompanied Op Answer Board → Prop) : Code α → Accompanied Op Answer Board → Prop :=
  Cleans Act Begins Outside flukeDmaCallback Q

abbrev Beside (P : Masks → Prop) (a : Accompanied Op Answer Board) : Prop := Joined effect masks P a

abbrev Untouched (p : Code α) : Prop := OnlyPerforms (fun op => effect op = .nothing) p

theorem startDmaRead_cleans (desc : Desc) (alone : Alone masks Clean a) :
    Cleaning (fun _ => Beside (Working .read HR_DMAO)) (startDmaRead desc) a := by
  refine seen.alone_perform (fun _ clean => clean) nofun (fun _ a alone => ?_) alone
  refine seen.alone_perform (fun _ clean => clean.disable HR_DIIE) nofun (fun _ a alone => ?_) alone
  refine seen.alone_perform (fun _ prepared => prepared.dmaOn .read) nofun (fun _ a alone => ?_) alone
  refine seen.alone_perform (robust_prepared.issued false) nofun (fun _ a alone => ?_) alone
  refine seen.alone_issue rfl robust_prepared (fun _ a joined => ?_) alone
  refine seen.joined_perform mends robust_prepared (fun _ prepared => prepared.start .read) (fun _ enabled => enabled)
    (fun _ a joined => ?_) joined
  exact seen.joined_only mends robust_working (onlyPerforms_step rfl fun _ => onlyPerforms_step rfl fun _ => trivial)
    joined

/-- Called by hand, whatever has become of the engine's call. -/
theorem flukeDmaCallback_cleans (joined : Beside (Working .read (HR_DMAO ||| HR_DMAI)) a) :
    Cleaning (fun _ => Beside Clean) flukeDmaCallback a := by
  rw [flukeDmaCallback_eq]
  refine seen.joined_skip mends robust_working rfl (fun _ a joined => ?_) joined
  refine seen.joined_perform mends robust_working (fun _ working => working.restore rfl) (fun _ _ => replaced_same _ _)
    (fun _ a joined => ?_) joined
  refine seen.joined_skip mends robust_restored rfl (fun _ a joined => ?_) joined
  refine seen.joined_skip mends robust_restored rfl (fun _ a joined => ?_) joined
  refine seen.joined_skip mends robust_restored rfl (fun _ a joined => ?_) joined
  refine seen.joined_perform mends robust_restored (fun _ restored => restored.endWrite) (fun _ enabled => enabled)
    (fun _ a joined => ?_) joined
  refine seen.joined_perform mends robust_written (fun _ written => written.endRead) (fun _ enabled => enabled)
    (fun _ a joined => ?_) joined
  exact seen.joined_only mends robust_clean (onlyPerforms_step rfl fun _ => trivial) joined

theorem finishCallback_cleans (joined : Beside (Working .read (HR_DMAO ||| HR_DMAI)) a) :
    Cleaning (fun _ => Beside Clean) finishCallback a := by
  refine seen.joined_test mends robust_working rfl (R := fun inProgress m => m.inProgress .read = inProgress)
    ?_ (fun inProgress a joined => ?_) joined
  · intro answer s t acts
    cases acts
    rfl
  · unfold onlyIf
    split_ifs with busy
    · exact flukeDmaCallback_cleans (joined.mono fun m working => working.1)
    · have idle := (Bool.not_eq_true _).mp busy
      have clean := joined.mono fun m working => working.1.clean (working.2.trans idle)
      exact seen.joined_only mends robust_clean (p := pure ()) trivial clean

theorem bug_never {P : Masks → Prop} {β : Type} {Q : β → Accompanied Op Answer Board → Prop} (robust : Robust P)
    (joined : Beside P a) : Cleaning Q (bug : Code β) a :=
  safe_never Empty.elim (seen.steady_joined mends robust) (fun _ _ => trivial) joined

theorem flukeGetDmaResidue_untouched : Untouched flukeGetDmaResidue := by
  refine onlyPerforms_step rfl fun result => ?_
  split_ifs
  · exact ⟨rfl, nofun⟩
  · exact ⟨rfl, fun _ => trivial⟩

theorem stopDmaRead_cleans (length : Nat) (joined : Beside (Working .read HR_DMAO) a) :
    Cleaning (fun _ => Beside Clean) (stopDmaRead length) a := by
  refine seen.joined_perform mends robust_working (fun _ working => working.dmaOff .read) (fun _ enabled => enabled)
    (fun _ a joined => ?_) joined
  refine seen.joined_skip mends robust_working rfl (fun _ a joined => ?_) joined
  refine (seen.joined_only mends robust_working flukeGetDmaResidue_untouched joined).andThen fun residue a joined => ?_
  split_ifs
  · exact bug_never robust_working joined
  · refine seen.joined_perform mends robust_working (robust_working.issued false) (fun _ enabled => enabled)
      (fun _ a joined => ?_) joined
    refine (finishCallback_cleans joined).andThen fun _ a joined => ?_
    exact seen.joined_only mends robust_clean (p := pure (length - residue)) trivial joined

theorem waitForIdle_untouched (wakeOnListenerIdle wakeOnTalkerIdle : Bool) :
    Untouched (waitForIdle wakeOnListenerIdle wakeOnTalkerIdle) := by
  refine onlyPerforms_step rfl fun waited => ?_
  refine afterWait_only ?_ ?_ waited <;> exact ⟨rfl, fun _ => trivial⟩

theorem waitRead_untouched : Untouched waitRead := by
  refine onlyPerforms_step rfl fun waited => ?_
  refine afterWait_only ?_ ?_ waited <;> exact ⟨rfl, fun _ => trivial⟩

theorem settleEnd_untouched : Untouched settleEnd := by
  refine onlyPerforms_step rfl fun _ => ?_
  refine onlyPerforms_bind ?_ fun _ => onlyPerforms_step rfl fun _ => trivial
  refine onlyPerforms_step rfl fun dataIn => ?_
  split_ifs
  · exact onlyPerforms_step rfl fun _ => trivial
  · exact onlyPerforms_step rfl fun _ => ⟨rfl, fun _ => trivial⟩

theorem transferDma_cleans (length : Nat) (desc : Desc) (alone : Alone masks Clean a) :
    Cleaning (fun _ => Beside Clean) (transferDma length desc) a := by
  refine (startDmaRead_cleans desc alone).andThen fun _ a joined => ?_
  refine (seen.joined_only mends robust_working waitRead_untouched joined).andThen fun retval a joined => ?_
  refine (stopDmaRead_cleans length joined).andThen fun bytesRead a joined => ?_
  refine seen.joined_skip mends robust_clean rfl (fun _ a joined => ?_) joined
  refine seen.joined_skip mends robust_clean rfl (fun bytes a joined => ?_) joined
  exact seen.joined_only mends robust_clean (onlyPerforms_bind settleEnd_untouched fun _ => trivial) joined

/-- However far the read gets. -/
theorem flukeDmaRead_cleans (length : Nat) (alone : Alone masks Clean a) :
    Cleaning (fun _ a => Clean (masks a.state)) (flukeDmaRead length) a := by
  have early : ∀ {p : Code Outcome} {a}, Untouched p → Alone masks Clean a →
      Cleaning (fun _ a => Clean (masks a.state)) p a :=
    fun only alone => (seen.alone_only only alone).mono (fun _ here => here) fun _ _ done => done.1.1
  have abandon : ∀ retval, Untouched (abandonDmaRead length retval) :=
    fun _ => onlyPerforms_step rfl fun _ => trivial
  unfold flukeDmaRead
  split_ifs
  · exact early trivial alone
  · refine (seen.alone_only (waitForIdle_untouched false true) alone).andThen fun retval a alone => ?_
    split_ifs
    · exact early trivial alone
    · refine seen.alone_perform (fun _ clean => clean) nofun (fun _ a alone => ?_) alone
      refine seen.alone_perform (fun _ clean => clean) nofun (fun retval a alone => ?_) alone
      split_ifs
      · exact early (abandon retval) alone
      · refine seen.alone_perform (fun _ clean => clean) nofun (fun desc a alone => ?_) alone
        cases desc with
        | none => exact early (abandon _) alone
        | some desc =>
          exact (transferDma_cleans length desc alone).mono (fun _ here => here) fun _ _ done => done.1

end

/-- A course of `fluke_dma_read` up to its return, with the callback beside it. -/
abbrev Returns (length : Nat) (board : Board) (outcome : Outcome) (later : Accompanied Op Answer Board) : Prop :=
  ReflTransGen (Moves (Acts Act) (Accompanied.Drift Act Begins Outside flukeDmaCallback))
    (flukeDmaRead length, ⟨board, none⟩)
    (.done outcome, later)

/-- Whatever fails and whenever the callback runs, a call of either function that
starts between two transfers ends there, if no callback of an earlier one is left. -/
theorem dma_cleans_up :
    (∀ buffer length board value later, Gpib.CleanUp.Returns buffer length board value later →
      Clean (Gpib.CleanUp.masks board) → (Gpib.CleanUp.masks board).issued = false →
      Clean (Gpib.CleanUp.masks later.state)) ∧
    ∀ length board outcome later, Returns length board outcome later → Clean (masks board) →
      (masks board).issued = false → Clean (masks later.state) := by
  constructor
  · intro buffer length board value later run clean unissued
    exact ((Gpib.CleanUp.flukeDmaWrite_cleans buffer length ⟨⟨clean, unissued⟩, rfl⟩).reaches run).finished
  · intro length board outcome later run clean unissued
    exact ((flukeDmaRead_cleans length ⟨⟨clean, unissued⟩, rfl⟩).reaches run).finished

/-- Both DMA interrupts enabled, and nothing under way. -/
def resting : Board :=
  ⟨[], none, false, .clear, .clear, HR_HLDE, fun _ => 0, [], .idle, 0, false, fun _ => false,
    fun | .imr1 => HR_DOIE ||| HR_DIIE | .imr2 => 0, fun | .imr1 => HR_DOIE ||| HR_DIIE | .imr2 => 0, none, false⟩

/-- A signal ends a read while the callback is on its way to the lock, and the
callback is called by hand. -/
theorem interrupted_read_cleans_up :
    ∃ outcome later, Returns 1 resting outcome later ∧ Clean (masks later.state) := by
  have run : ∃ outcome later, Returns 1 resting outcome later := by
    refine ⟨?outcome, ?later, ?run⟩
    case run =>
      refine .head (.perform ⟨_, .waited rfl, rfl⟩) ?_
      refine .head (.perform ⟨_, .testBit, rfl⟩) ?_
      refine .head (.perform ⟨_, .testAndClearBit, rfl⟩) ?_
      refine .head (.perform ⟨_, .mapSingle, rfl⟩) ?_
      refine .head (.perform ⟨_, .slaveConfig (Int.le_refl 0), rfl⟩) ?_
      refine .head (.perform ⟨_, .prepared, rfl⟩) ?_
      refine .head (.perform ⟨_, .spinLockIrqsave rfl, rfl⟩) ?_
      refine .head (.perform ⟨_, .setRegBits, rfl⟩) ?_
      refine .head (.perform ⟨_, .setRegBits, rfl⟩) ?_
      refine .head (.perform ⟨_, .submit, rfl⟩) ?_
      refine .head (.perform ⟨_, .issuePending rfl, rfl⟩) ?_
      refine .head (.perform ⟨_, .setBit, rfl⟩) ?_
      refine .head (.perform ⟨_, .clearBit, rfl⟩) ?_
      refine .head (.perform ⟨_, .spinUnlockIrqrestore, rfl⟩) ?_
      refine .head (.drift (.begin rfl ⟨Or.inl rfl, rfl⟩)) ?_
      refine .head (.perform ⟨_, .signalled, rfl⟩) ?_
      refine .head (.perform ⟨_, .testBit, rfl⟩) ?_
      refine .head (.perform ⟨_, .testBit, rfl⟩) ?_
      refine .head (.perform ⟨_, .setRegBits, rfl⟩) ?_
      refine .head (.perform ⟨_, .udelay, rfl⟩) ?_
      refine .head (.perform ⟨_, .paused (Int.le_refl 0), rfl⟩) ?_
      refine .head (.perform ⟨_, .txStatus, rfl⟩) ?_
      refine .head (.perform ⟨_, .terminateAll, rfl⟩) ?_
      refine .head (.perform ⟨_, .testBit, rfl⟩) ?_
      refine .head (.perform ⟨_, .spinLockIrqsave rfl, rfl⟩) ?_
      refine .head (.perform ⟨_, .setRegBits, rfl⟩) ?_
      refine .head (.perform ⟨_, .wakeUpInterruptible, rfl⟩) ?_
      refine .head (.perform ⟨_, .readIsr1, rfl⟩) ?_
      refine .head (.perform ⟨_, .haveStatus, rfl⟩) ?_
      refine .head (.perform ⟨_, .clearBit, rfl⟩) ?_
      refine .head (.perform ⟨_, .clearBit, rfl⟩) ?_
      refine .head (.perform ⟨_, .spinUnlockIrqrestore, rfl⟩) ?_
      refine .head (.drift (.perform rfl (.spinLockIrqsave rfl))) ?_
      refine .head (.perform ⟨_, .unmapSingle, rfl⟩) ?_
      refine .head (.drift (.perform rfl .setRegBits)) ?_
      refine .head (.drift (.perform rfl .wakeUpInterruptible)) ?_
      refine .head (.drift (.perform rfl .readIsr1)) ?_
      refine .head (.perform ⟨_, .memcpy, rfl⟩) ?_
      refine .head (.drift (.perform rfl .haveStatus)) ?_
      refine .head (.drift (.perform rfl .clearBit)) ?_
      refine .head (.drift (.perform rfl .clearBit)) ?_
      refine .head (.drift (.perform rfl .spinUnlockIrqrestore)) ?_
      refine .head (.perform ⟨_, .spinLockIrqsave rfl, rfl⟩) ?_
      refine .head (.perform ⟨_, .readAdr0, rfl⟩) ?_
      refine .head (.perform ⟨_, .clearBit, rfl⟩) ?_
      refine .head (.perform ⟨_, .testAndClearBit, rfl⟩) ?_
      refine .head (.perform ⟨_, .spinUnlockIrqrestore, rfl⟩) ?_
      exact .refl
  obtain ⟨outcome, later, run⟩ := run
  have clean : Clean (masks resting) :=
    ⟨by unfold Enabled; decide, by unfold Off; decide, fun way => by cases way <;> rfl, rfl⟩
  exact ⟨outcome, later, run, dma_cleans_up.2 1 resting outcome later run clean rfl⟩

end FlukeCda.Gpib.Read.CleanUp
