import FlukeCda.FastUart.Receive
import Mathlib.Data.List.Nodup

namespace FlukeCda.FastUart
open Interaction Program

/-- The callback has been called: the whole transfer waits in the buffer. -/
structure Due (dma running : Bool) (length : Nat) (dev : Device) : Prop where
  dma_eq : dev.dma = dma
  engine_eq : dev.engine = .idle
  running_eq : dev.rxRunning = running
  length_eq : dev.rxXferLength = length
  moved : dev.rxBuf.length = length
  waiting : dev.tty ++ dev.rxBuf ++ dev.fifo = dev.arrived

theorem Due.stable (dma running : Bool) (length : Nat) : Stable drift (Due dma running length) := by
  intro dev after drifts due
  rcases drift_cases drifts with ⟨byte, rfl⟩ | ⟨_, byte, rest, moving, fifo, rfl⟩
  · refine ⟨due.dma_eq, due.engine_eq, due.running_eq, due.length_eq, due.moved, ?_⟩
    simp only [← due.waiting, List.append_assoc]
  · rw [due.engine_eq] at moving
    cases moving

theorem Due.steady (dma running : Bool) (length : Nat) : Steady drift InOrder (Due dma running length) := by
  refine ⟨Due.stable dma running length, fun dev due => ⟨⟨dev.rxBuf ++ dev.fifo, ?_⟩, fun n moving => ?_⟩⟩
  · rw [← List.append_assoc]
    exact due.waiting
  · rw [due.engine_eq] at moving
    cases moving

/-- Handing on the whole buffer. -/
theorem Due.inserted {dma : Bool} {length : Nat} {dev : Device} (due : Due dma false length dev) :
    Phase dma .idle false { dev with tty := dev.tty ++ dev.rxBuf.take length } := by
  refine ⟨due.dma_eq, due.engine_eq, due.running_eq, ?_⟩
  have whole : dev.rxBuf.take length = dev.rxBuf := List.take_of_length_le due.moved.le
  unfold Conserved Device.inFlight
  simp only [due.engine_eq, whole, List.append_nil]
  exact due.waiting

theorem fnFastUartDmaRxComplete_safe {c : Call} {dma : Bool} {length : Nat} {dev : Device}
    (due : Due dma true length dev) :
    Safe (act c) drift anything InOrder (fun _ => Resting dma) fnFastUartDmaRxComplete dev := by
  have steady := Due.steady dma false length
  have stopped : ∀ dev, Due dma true length dev → Due dma false length { dev with rxRunning := false } :=
    fun dev due => ⟨due.dma_eq, due.engine_eq, rfl, due.length_eq, due.moved, due.waiting⟩
  have free : ∀ dev value register, Due dma false length dev →
      Due dma false length { dev with ier := value, ierRegister := register } :=
    fun dev value register due => ⟨due.dma_eq, due.engine_eq, due.running_eq, due.length_eq,
      due.moved, due.waiting⟩
  refine safe_effect (Due.steady dma true length) (fun _ due => due) (fun _ dev due => ?_) due
  refine safe_effect (Due.steady dma true length) (fun _ due => due) (fun _ dev due => ?_) due
  refine safe_effect (Due.steady dma true length) (fun _ due => due) (fun _ dev due => ?_) due
  refine safe_effect (Due.steady dma true length) stopped (fun _ dev due => ?_) due
  refine (updateIer_safe steady free _ due).andThen fun _ dev due => ?_
  refine safe_read .txStatusResidue Device.residue steady (fun _ => rfl) (fun dev due => ?_) due
  have complete : dev.residue = 0 := by
    unfold Device.residue
    rw [due.engine_eq]
  rw [complete]
  refine safe_read .rxXferLength Device.rxXferLength steady (fun _ => rfl) (fun dev due => ?_) due
  rw [due.length_eq]
  refine safe_effect steady (fun dev due => due.inserted) (fun _ dev phase => ?_) due
  exact safe_effect (Phase.steady dma .idle false) (fun _ phase => phase)
    (fun _ _ => safe_done (Phase.steady dma .idle false) fun _ phase => .inl phase) phase

/-- A transfer of which everything is moved is due. -/
theorem Resting.due {dma : Bool} {dev : Device} (resting : Resting dma dev)
    (moved : dev.engine = .moving dev.rxBuf.length) :
    Due dma true dev.rxBuf.length { dev with engine := .idle } := by
  rcases resting with phase | ⟨-, length, phase, remembered⟩
  · rw [phase.engine_eq] at moved
    cases moved
  · have same : Engine.moving length = .moving dev.rxBuf.length := phase.engine_eq.symm.trans moved
    cases same
    have waiting := phase.conserved
    unfold Conserved Device.inFlight at waiting
    simp only [phase.engine_eq] at waiting
    exact ⟨phase.dma_eq, rfl, phase.running_eq, remembered, rfl, waiting⟩

/-- With the port lock free the port rests; otherwise the rest of the call that holds it is safe. -/
def SystemOk (dma : Bool) (s : System) : Prop :=
  match s.running with
  | none => Resting dma s.dev
  | some (current, p) => Safe (act current) drift anything InOrder (fun _ => Resting dma) p s.dev

theorem SystemOk.inOrder {dma : Bool} {s : System} (ok : SystemOk dma s) : InOrder s.dev := by
  unfold SystemOk at ok
  split at ok
  · exact ok.conserved.inOrder
  · exact ok.here

/-- A line status interrupt takes no byte from the FIFO past bytes that a
transfer has already moved into the buffer. -/
def Harmless (s : System) : Label → Prop
  | .perform =>
    match s.running with
    | some (current, .call .rxChar _) => current.LineStatus → s.dev.PassesNothing
    | _ => True
  | _ => True

theorem SystemOk.drifted {dma : Bool} {s : System} {dev : Device} (ok : SystemOk dma s)
    (drifts : drift s.dev dev) :
    SystemOk dma { s with dev } := by
  unfold SystemOk at ok ⊢
  cases running : s.running with
  | none =>
    rw [running] at ok
    exact Resting.stable dma _ _ drifts ok
  | some current =>
    rw [running] at ok
    exact Safe.drifted ok drifts

theorem SystemOk.step {dma : Bool} {s t : System} {label : Label} (ok : SystemOk dma s)
    (harmless : Harmless s label) (stepped : s.step label = some t) : SystemOk dma t := by
  cases label with
  | arrive value =>
    obtain ⟨dev, arrived, rfl⟩ := Option.map_eq_some_iff.mp stepped
    exact ok.drifted (.inl ⟨value, arrived⟩)
  | move =>
    obtain ⟨dev, moved, rfl⟩ := Option.map_eq_some_iff.mp stepped
    exact ok.drifted (.inr moved)
  | handleIrq iir o =>
    simp only [System.step, Option.ite_none_right_eq_some, Option.some.injEq,
      Option.isNone_iff_eq_none] at stepped
    obtain ⟨free, rfl⟩ := stepped
    unfold SystemOk at ok ⊢
    rw [free] at ok
    have kind : iir &&& 0x3f = uartIirRlsi → (Call.handleIrq iir o).LineStatus := fun lineStatus => lineStatus
    have steady := Resting.steady dma
    exact (fnFastUartHandleIrq_safe kind ok).andThen fun _ _ => safe_value steady fun _ resting => resting
  | rxComplete =>
    simp only [System.step, Option.ite_none_right_eq_some, Option.some.injEq,
      Option.isNone_iff_eq_none] at stepped
    obtain ⟨⟨free, moved⟩, rfl⟩ := stepped
    unfold SystemOk at ok ⊢
    rw [free] at ok
    exact fnFastUartDmaRxComplete_safe (ok.due moved)
  | perform =>
    simp only [System.step] at stepped
    split at stepped
    · rename_i current op next running
      split at stepped
      · rename_i answer dev ran
        cases stepped
        unfold SystemOk at ok ⊢
        rw [running] at ok
        refine Safe.performed ok ⟨ran, fun same lineStatus => ?_⟩
        subst same
        simp only [Harmless, running] at harmless
        exact harmless lineStatus
      · cases stepped
    · cases stepped
  | finish =>
    simp only [System.step] at stepped
    split at stepped
    · rename_i current value running
      cases stepped
      unfold SystemOk at ok ⊢
      rw [running] at ok
      exact ok.finished
    · cases stepped

/-- Every byte carries the number of bytes that came before it. -/
def Numbered (dev : Device) : Prop := dev.arrived.map Received.place = List.range dev.arrived.length

theorem Numbered.nodup {dev : Device} (numbered : Numbered dev) : dev.arrived.Nodup := by
  have distinct : (dev.arrived.map Received.place).Nodup := by
    rw [numbered]
    exact List.nodup_range
  exact List.Nodup.of_map _ distinct

theorem handle_arrived (o : Outcomes) (op : Op) (dev : Device) : (handle o op dev).2.arrived = dev.arrived := by
  cases op with
  | rxChar =>
    simp only [handle, Device.rxChar]
    split <;> rfl
  | issuePending =>
    simp only [handle, Device.issue]
    split <;> rfl
  | _ => rfl

theorem Numbered.step {s t : System} {label : Label} (numbered : Numbered s.dev)
    (stepped : s.step label = some t) :
    Numbered t.dev := by
  have kept : ∀ {dev : Device}, dev.arrived = s.dev.arrived → Numbered dev := by
    intro dev same
    unfold Numbered
    rw [same]
    exact numbered
  cases label with
  | arrive value =>
    obtain ⟨dev, arrived, rfl⟩ := Option.map_eq_some_iff.mp stepped
    obtain rfl := arrive_eq arrived
    unfold Numbered at numbered ⊢
    simp only [List.map_append, numbered, List.map_cons, List.map_nil, List.length_append,
      List.length_cons, List.length_nil, Nat.zero_add, List.range_succ]
  | move =>
    obtain ⟨dev, moved, rfl⟩ := Option.map_eq_some_iff.mp stepped
    obtain ⟨length, byte, rest, moving, fifo, rfl⟩ := move_cases moved
    exact kept rfl
  | handleIrq iir o =>
    simp only [System.step, Option.ite_none_right_eq_some, Option.some.injEq] at stepped
    obtain ⟨-, rfl⟩ := stepped
    exact numbered
  | rxComplete =>
    simp only [System.step, Option.ite_none_right_eq_some, Option.some.injEq] at stepped
    obtain ⟨-, rfl⟩ := stepped
    exact kept rfl
  | perform =>
    simp only [System.step] at stepped
    split at stepped
    · rename_i current op next running
      split at stepped
      · rename_i answer dev ran
        cases stepped
        have same := handle_arrived current.outcomes op s.dev
        rw [ran] at same
        exact kept same
      · cases stepped
    · cases stepped
  | finish =>
    simp only [System.step] at stepped
    split at stepped
    · cases stepped
      exact numbered
    · cases stepped

/-- A byte that overtakes shows at once. -/
theorem passes_of_ordered {dev : Device} (inOrder : InOrder dev) (numbered : Numbered dev)
    (ordered : dev.rxChar.tty <+: dev.rxChar.arrived) : dev.PassesNothing := by
  cases fifo : dev.fifo with
  | nil => exact .inr fifo
  | cons byte rest =>
    cases flight : dev.inFlight with
    | nil => exact .inl flight
    | cons first later =>
      have moving : ∃ length, dev.engine = .moving length := by
        unfold Device.inFlight at flight
        split at flight
        · rename_i length moving
          exact ⟨length, moving⟩
        · cases flight
      obtain ⟨length, moving⟩ := moving
      have conserved := inOrder.accounted length moving
      have distinct := numbered.nodup
      unfold Conserved at conserved
      rw [flight, fifo] at conserved
      simp only [Device.rxChar, fifo] at ordered
      obtain ⟨tail, joined⟩ := ordered
      rw [← conserved] at joined distinct
      simp only [List.append_assoc, List.cons_append, List.nil_append, List.append_cancel_left_eq,
        List.cons.injEq] at joined
      obtain ⟨same, -⟩ := joined
      have apart := (List.nodup_append.mp distinct).2.2
      exact absurd same.symm (apart first (by simp) byte List.mem_cons_self)

/-- Every step of the run that is taken is harmless. -/
def HarmlessRun : List Label → System → Prop
  | [], _ => True
  | label :: rest, s => ∀ t, s.step label = some t → Harmless s label ∧ HarmlessRun rest t

theorem SystemOk.run {dma : Bool} {labels : List Label} {s t : System} (ok : SystemOk dma s)
    (harmless : HarmlessRun labels s) (n : Nat) (ran : System.run (labels.take n) s = some t) :
    SystemOk dma t := by
  induction labels generalizing s n with
  | nil =>
    rw [List.take_nil] at ran
    cases ran
    exact ok
  | cons label rest ih =>
    cases n with
    | zero =>
      cases ran
      exact ok
    | succ n =>
      obtain ⟨m, stepped, ran'⟩ := Option.bind_eq_some_iff.mp ran
      obtain ⟨first, others⟩ := harmless m stepped
      exact ih (ok.step first stepped) others n ran'

theorem harmlessRun_of_ordered {dma : Bool} {labels : List Label} {s : System} (ok : SystemOk dma s)
    (numbered : Numbered s.dev)
    (ordered : ∀ n t, System.run (labels.take n) s = some t → t.dev.tty <+: t.dev.arrived) :
    HarmlessRun labels s := by
  induction labels generalizing s with
  | nil => trivial
  | cons label rest ih =>
    intro t stepped
    have harmless : Harmless s label := by
      unfold Harmless
      split
      · split
        · rename_i current next running
          intro lineStatus
          have ran : System.run ((Label.perform :: rest).take 1) s =
              some ⟨s.dev.rxChar, some (current, next ())⟩ := by
            simp only [List.take_succ_cons, List.take_zero, System.run, System.step, running,
              handle, Option.bind_some]
          exact passes_of_ordered ok.inOrder numbered (ordered 1 _ ran)
        · trivial
      · trivial
    refine ⟨harmless, ih (ok.step harmless stepped) (numbered.step stepped) fun n u ran => ordered (n + 1) u ?_⟩
    exact Option.bind_eq_some_iff.mpr ⟨t, stepped, ran⟩

/-- In a run of the port every byte handed on comes in its turn, at every
moment, if and only if no line status interrupt takes a byte past bytes that
wait in the buffer. -/
theorem received_in_order_iff (dma : Bool) (rxSize : Nat) (ier : UInt8) (labels : List Label) :
    (∀ n s, System.run (labels.take n) (.started dma rxSize ier) = some s → s.dev.tty <+: s.dev.arrived) ↔
      HarmlessRun labels (.started dma rxSize ier) := by
  have initial : SystemOk dma (.started dma rxSize ier) := .inl ⟨rfl, rfl, rfl, rfl⟩
  constructor
  · exact harmlessRun_of_ordered initial rfl
  · intro harmless n s ran
    exact (initial.run harmless n ran).inOrder.ordered

/-- One character may be taken, and a descriptor can be had. -/
def granted : Outcomes := ⟨uartLsrDr, true, 1, uartLsrDr, false⟩

/-- Three bytes arrive, an ordinary interrupt starts a transfer of two, one of
them is moved, and a line status interrupt takes the next. -/
def lineStatusRun : List Label :=
  [.arrive 1, .arrive 2, .arrive 3, .handleIrq 0x04 granted] ++ List.replicate 25 .perform ++
    [.finish, .move, .handleIrq uartIirRlsi granted] ++ List.replicate 5 .perform

theorem second_byte_first :
    ∃ s, System.run lineStatusRun (.started true 0x1000 0x05) = some s ∧
      s.dev.arrived.map Received.value = [1, 2, 3] ∧ s.dev.tty.map Received.value = [2] ∧
      ¬ s.dev.tty <+: s.dev.arrived :=
  ⟨_, rfl, rfl, rfl, by decide⟩

end FlukeCda.FastUart
