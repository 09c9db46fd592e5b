import FlukeCda.Keypad.Driver
import Mathlib.Logic.Function.Basic

namespace FlukeCda.Keypad
open Interaction Program

/-- While the handler is registered it can do its work: the driver data is
allocated, the registers are mapped and the input device is registered. -/
def HandlerSafe (dev : Device) : Prop :=
  0 < dev.handlers →
    ∃ data, dev.drvData = some data ∧ data.acquired.mapbase = true ∧ 0 < dev.mappings ∧
      0 < dev.inputsRegistered

def NothingHeld (dev : Device) : Prop :=
  dev.handlers = 0 ∧ dev.regions = 0 ∧ dev.mappings = 0 ∧ dev.inputsAllocated = 0 ∧ dev.inputsRegistered = 0

def Device.absent : Device := ⟨none, 0, 0, 0, 0, 0⟩

/-- An interrupt on the line. Where the handler would touch something that is
gone the kernel faults, and nothing is said about what follows. -/
def interrupt (kpdReg : Fin flukeKeypadNumRegisters → UInt32) (dev : Device) : Option Device :=
  if dev.handlers = 0 then some dev
  else
    match dev.drvData with
    | none => none
    | some data =>
      if data.acquired.mapbase = true ∧ 0 < dev.mappings ∧ 0 < dev.inputsRegistered then
        (flukeKeypadHandler kpdReg data).map fun (_, _, after) => { dev with drvData := some after }
      else none

/-- What the driver core has asked the driver for. -/
inductive Task
  | probe (o : Outcomes)
  | remove

/-- Remove acquires nothing, so no outcome matters to it. -/
def Task.outcomes : Task → Outcomes
  | probe o => o
  | remove => ⟨false, false, 0, 0, 0, false, false, 0, 0⟩

/-- The devices, which of them are bound, and the call in progress on each. -/
structure System (ι : Type) where
  devices : ι → Device
  bound : ι → Bool
  running : ι → Option (Task × Code Int)

inductive Label (ι : Type)
  | probe (d : ι) (o : Outcomes)
  | remove (d : ι)
  | perform (d : ι)
  | finish (d : ι)
  | interrupt (d : ι) (kpdReg : Fin flukeKeypadNumRegisters → UInt32)

section
variable {ι : Type} [DecidableEq ι]

def System.idle : System ι := ⟨fun _ => .absent, fun _ => false, fun _ => none⟩

/-- One step: the driver core begins a call, a call performs its next operation
or returns, or an interrupt arrives, at any time and on any device. -/
def System.step (s : System ι) : Label ι → Option (System ι)
  | .probe d o =>
    if (s.running d).isNone ∧ s.bound d = false then
      some { s with running := Function.update s.running d (some (.probe o, flukeKeypadProbe)) }
    else none
  | .remove d =>
    if (s.running d).isNone ∧ s.bound d = true then
      some { s with running := Function.update s.running d (some (.remove, flukeKeypadRemove))
                    bound := Function.update s.bound d false }
    else none
  | .perform d =>
    match s.running d with
    | some (task, .call op next) =>
      match handle task.outcomes op (s.devices d) with
      | (some answer, dev) =>
        some { s with devices := Function.update s.devices d dev,
                      running := Function.update s.running d (some (task, next answer)) }
      | (none, _) => none
    | _ => none
  | .finish d =>
    match s.running d with
    | some (.probe _, .done result) =>
      some { s with running := Function.update s.running d none,
                    bound := Function.update s.bound d (decide (result = 0)) }
    | some (.remove, .done _) => some { s with running := Function.update s.running d none }
    | _ => none
  | .interrupt d kpdReg => (interrupt kpdReg (s.devices d)).map fun dev =>
      { s with devices := Function.update s.devices d dev }

def System.run : List (Label ι) → System ι → Option (System ι)
  | [], s => some s
  | label :: rest, s => (s.step label).bind (run rest)

end

/-- All acquisitions up to the interrupt request succeed. -/
def Outcomes.ReachesIrq (o : Outcomes) : Prop :=
  o.kzalloc = true ∧ o.inputAllocate = true ∧ o.inputRegister = 0 ∧ o.address = 0 ∧ o.region = true

/-- A probe that gets to the interrupt request has mapped registers if it is
granted, and a region not at address 0 if it is refused. Nothing is removed. -/
def Harmless {ι : Type} : Label ι → Prop
  | .probe _ o => o.ReachesIrq → if o.requestIrq = 0 then o.ioremap = true else o.start ≠ 0
  | .remove _ => False
  | _ => True

/-- What interrupts leave alone: everything but the keys that are half pressed. -/
def Device.erase (dev : Device) : Device :=
  { dev with drvData := dev.drvData.map fun data => { data with active := fun _ => -1 } }

theorem interrupt_erase {kpdReg : Fin flukeKeypadNumRegisters → UInt32} {dev after : Device}
    (ran : interrupt kpdReg dev = some after) : after.erase = dev.erase := by
  unfold interrupt at ran
  split_ifs at ran with unregistered
  · cases ran
    rfl
  · cases present : dev.drvData with
    | none => simp [present] at ran
    | some data =>
      simp only [present] at ran
      split_ifs at ran
      · obtain ⟨⟨result, events, data'⟩, handled, rfl⟩ := Option.map_eq_some_iff.mp ran
        obtain ⟨acquired, keycode⟩ := flukeKeypadHandler_acquired handled
        simp only [Device.erase, present, Option.map_some, acquired, keycode]

theorem erase_update (dev : Device) (f : Acquired → Acquired) : (dev.update f).erase = dev.erase.update f := by
  simp only [Device.erase, Device.update, Option.map_map]
  rfl

theorem handle_erase {o : Outcomes} {op : Op} {answer : Answer op} {dev after : Device}
    (ran : handle o op dev = (some answer, after)) : handle o op dev.erase = (some answer, after.erase) := by
  cases op with
  | devSetDrvdata | kzalloc | inputFreeDevice | irqOfParseAndMap | freeIrq | iounmap | releaseMemRegion
    | inputUnregisterDevice | kfree =>
    cases ran
    rfl
  | devGetDrvdata =>
    cases ran
    simp only [handle, Device.erase, Option.map_map]
    rfl
  | storeInputDev | zeroStart =>
    cases ran
    simp only [handle, erase_update]
  | inputAllocateDevice | inputRegisterDevice | requestMemRegion | requestIrq =>
    cases ran
    simp only [handle]
    split_ifs <;> rfl
  | ofAddressToResource =>
    cases ran
    simp only [handle]
    split_ifs
    · rw [erase_update]
    · rfl
  | ioremapNocache =>
    cases ran
    simp only [handle]
    split_ifs
    · simp only [← erase_update]
      rfl
    · rfl

theorem handlerSafe_erase_iff {dev : Device} : HandlerSafe dev.erase ↔ HandlerSafe dev := by
  constructor
  · intro safe registered
    obtain ⟨data, present, mapped, mappings, inputs⟩ := safe registered
    obtain ⟨data', present', rfl⟩ := Option.map_eq_some_iff.mp present
    exact ⟨data', present', mapped, mappings, inputs⟩
  · intro safe registered
    obtain ⟨data, present, mapped, mappings, inputs⟩ := safe registered
    refine ⟨{ data with active := fun _ => -1 }, ?_, mapped, mappings, inputs⟩
    rw [Device.erase, present, Option.map_some]

theorem absent_of_erase {dev : Device} (absent : dev.erase = .absent) : dev = .absent := by
  obtain ⟨drvData, handlers, regions, mappings, inputsAllocated, inputsRegistered⟩ := dev
  cases drvData with
  | none => exact absent
  | some data => cases congrArg Device.drvData absent

theorem handlerSafe_unregistered {dev : Device} (unregistered : dev.handlers = 0) : HandlerSafe dev :=
  fun registered => absurd registered (by omega)

def Device.applyIf (c : Prop) [Decidable c] (f : Device → Device) (dev : Device) : Device :=
  if c then f dev else dev

theorem applyIf_handlers {c : Prop} [Decidable c] (f : Device → Device)
    (kept : ∀ dev, (f dev).handlers = dev.handlers) (dev : Device) :
    (dev.applyIf c f).handlers = dev.handlers := by
  unfold Device.applyIf
  split_ifs
  · exact kept dev
  · rfl

/-- What remove leaves of a device whose interrupt number was never recorded. -/
def Device.removed (dev : Device) (acquired : Acquired) : Device :=
  { ((dev.applyIf (acquired.mapbase = true) .iounmap).applyIf (acquired.start ≠ 0) .releaseMemRegion).applyIf
      (acquired.inputDev = true) .inputUnregisterDevice with drvData := none }

theorem remove_always {o : Outcomes} {dev : Device} {data : FlukeKeypadData} {Q : Int → Device → Prop}
    (present : dev.drvData = some data) (unrecorded : data.acquired.irq = 0) (unregistered : dev.handlers = 0)
    (post : Q 0 (dev.removed data.acquired)) : Always (handle o) HandlerSafe Q flukeKeypadRemove dev := by
  let unmapped := dev.applyIf (data.acquired.mapbase = true) .iounmap
  let released := unmapped.applyIf (data.acquired.start ≠ 0) .releaseMemRegion
  let dropped := released.applyIf (data.acquired.inputDev = true) .inputUnregisterDevice
  have still : unmapped.handlers = 0 :=
    (applyIf_handlers .iounmap (fun _ => rfl) dev).trans unregistered
  have still' : released.handlers = 0 :=
    (applyIf_handlers .releaseMemRegion (fun _ => rfl) unmapped).trans still
  have still'' : dropped.handlers = 0 :=
    (applyIf_handlers .inputUnregisterDevice (fun _ => rfl) released).trans still'
  have got : handle o .devGetDrvdata dev = (some (some data.acquired), dev) := by
    rw [handle, present]
    rfl
  refine always_step got (handlerSafe_unregistered unregistered) ?_
  refine always_onlyIf (b := dev) (fun recorded => absurd unrecorded recorded) ?_
  rw [if_neg (not_not.mpr unrecorded)]
  refine always_onlyIf (fun _ rest => always_step rfl (handlerSafe_unregistered unregistered) rest) ?_
  refine always_onlyIf (fun _ rest => always_step rfl (handlerSafe_unregistered still) rest) ?_
  refine always_onlyIf (fun _ rest => always_step rfl (handlerSafe_unregistered still') rest) ?_
  refine always_step rfl (handlerSafe_unregistered still'') ?_
  exact always_done (handlerSafe_unregistered still'') post

/-- What a call on a device that is not bound leaves when it fails. -/
def Undone (result : Int) (dev : Device) : Prop := result ≠ 0 → dev = .absent

theorem failure_always {o : Outcomes} {dev : Device} {data : FlukeKeypadData} {result : Int}
    (present : dev.drvData = some data) (unrecorded : data.acquired.irq = 0) (unregistered : dev.handlers = 0)
    (undone : dev.removed data.acquired = .absent) :
    Always (handle o) HandlerSafe Undone (flukeKeypadRemove >>= fun _ => pure result) dev := by
  refine always_bind (remove_always present unrecorded unregistered ?_)
  rw [undone]
  exact always_done (handlerSafe_unregistered rfl) fun _ => rfl

theorem probe_always {o : Outcomes}
    (mapped : o.ReachesIrq → if o.requestIrq = 0 then o.ioremap = true else o.start ≠ 0) :
    Always (handle o) HandlerSafe Undone flukeKeypadProbe .absent := by
  have idle : ∀ dev : Device, dev.handlers = 0 → HandlerSafe dev := fun _ => handlerSafe_unregistered
  refine always_step rfl (idle _ rfl) ?_
  by_cases kzalloc : o.kzalloc = false
  · rw [if_pos kzalloc]
    exact always_done (idle _ rfl) fun _ => rfl
  rw [if_neg kzalloc]
  refine always_step rfl (idle _ rfl) (always_step rfl (idle _ rfl) ?_)
  by_cases inputAllocate : o.inputAllocate = false
  · rw [if_pos inputAllocate, if_neg (by simp [inputAllocate])]
    exact failure_always rfl rfl rfl rfl
  rw [if_neg inputAllocate, if_pos (by simpa using inputAllocate)]
  refine always_step rfl (idle _ rfl) ?_
  by_cases inputRegister : o.inputRegister ≠ 0
  · rw [if_pos inputRegister, if_neg inputRegister]
    exact always_step rfl (idle _ rfl) (failure_always rfl rfl rfl rfl)
  rw [if_neg inputRegister, if_pos (not_not.mp inputRegister)]
  refine always_step rfl (idle _ rfl) (always_step rfl (idle _ rfl) ?_)
  by_cases address : o.address ≠ 0
  · rw [if_pos address, if_neg address]
    exact failure_always rfl rfl rfl rfl
  rw [if_neg address, if_pos (not_not.mp address)]
  refine always_step rfl (idle _ rfl) ?_
  by_cases region : o.region = false
  · rw [if_pos region, if_neg (by simp [region])]
    exact always_step rfl (idle _ rfl) (failure_always rfl rfl rfl rfl)
  rw [if_neg region, if_pos (by simpa using region)]
  have reached := mapped ⟨by simpa using kzalloc, by simpa using inputAllocate, not_not.mp inputRegister,
    not_not.mp address, by simpa using region⟩
  refine always_step rfl (idle _ rfl) ?_
  by_cases ioremap : o.ioremap = true
  · rw [if_pos ioremap]
    refine always_step rfl (idle _ rfl) (always_step rfl (idle _ rfl) ?_)
    by_cases requestIrq : o.requestIrq ≠ 0
    · rw [if_neg requestIrq] at reached
      rw [if_pos requestIrq, if_neg requestIrq]
      refine failure_always rfl rfl rfl ?_
      simp [Device.removed, Device.applyIf, reached, Device.absent, Device.inputUnregisterDevice,
        Device.releaseMemRegion, Device.iounmap, Device.update]
    · rw [if_neg requestIrq, if_pos (not_not.mp requestIrq)]
      exact always_done (fun _ => ⟨_, rfl, rfl, Nat.one_pos, Nat.one_pos⟩) fun failed => absurd rfl failed
  · rw [if_neg ioremap]
    refine always_step rfl (idle _ rfl) (always_step rfl (idle _ rfl) ?_)
    by_cases requestIrq : o.requestIrq ≠ 0
    · rw [if_neg requestIrq] at reached
      rw [if_pos requestIrq, if_neg requestIrq]
      refine failure_always rfl rfl rfl ?_
      simp [Device.removed, Device.applyIf, reached, Device.absent, Device.inputUnregisterDevice,
        Device.releaseMemRegion, Device.update, initialData]
    · rw [if_pos (not_not.mp requestIrq)] at reached
      exact absurd reached ioremap

/-- What an operation of a call does to the device of that call. -/
def act (o : Outcomes) (op : Op) (answer : Answer op) (dev after : Device) : Prop :=
  handle o op dev = (some answer, after)

def drift (dev after : Device) : Prop := ∃ kpdReg, interrupt kpdReg dev = some after

/-- A probe keeps the handler safe at every moment, whatever interrupts arrive
meanwhile, and leaves nothing behind when it fails. -/
theorem probe_safe {o : Outcomes}
    (mapped : o.ReachesIrq → if o.requestIrq = 0 then o.ioremap = true else o.start ≠ 0) :
    Safe (act o) drift anything HandlerSafe Undone flukeKeypadProbe .absent := by
  have viewed : Safe (act o) drift anything (fun dev => HandlerSafe dev.erase)
      (fun result dev => Undone result dev.erase) flukeKeypadProbe .absent := by
    refine safe_of_always Device.erase ?_ (fun op answer dev after ran => handle_erase ran)
      (probe_always mapped)
    rintro dev after ⟨kpdReg, ran⟩
    exact interrupt_erase ran
  refine viewed.mono (fun _ => handlerSafe_erase_iff.mp) fun result dev undone failed => ?_
  exact absent_of_erase (undone failed)

/-- Between its calls a device is safe to interrupt, and holds nothing unless it
is bound; in the middle of a probe the rest of the probe is safe. -/
def DeviceOk {ι : Type} (s : System ι) (d : ι) : Prop :=
  match s.running d with
  | none => HandlerSafe (s.devices d) ∧ (s.bound d = false → s.devices d = .absent)
  | some (.probe o, p) => Safe (act o) drift anything HandlerSafe Undone p (s.devices d)
  | some (.remove, _) => False

section
variable {ι : Type} {s t : System ι}

theorem DeviceOk.handlerSafe {d : ι} (ok : DeviceOk s d) : HandlerSafe (s.devices d) := by
  unfold DeviceOk at ok
  split at ok
  · exact ok.1
  · exact ok.here
  · exact absurd ok not_false

/-- A step on another device. -/
theorem DeviceOk.of_same {d : ι} (ok : DeviceOk s d) (device : t.devices d = s.devices d)
    (bound : t.bound d = s.bound d) (running : t.running d = s.running d) : DeviceOk t d := by
  unfold DeviceOk
  rw [device, bound, running]
  exact ok

/-- A probe goes on by one operation. -/
theorem DeviceOk.performed [DecidableEq ι] {d : ι} {task : Task} {op : Op} {next : Answer op → Code Int}
    {answer : Answer op} {dev : Device} (ok : DeviceOk s d) (running : s.running d = some (task, .call op next))
    (ran : handle task.outcomes op (s.devices d) = (some answer, dev)) :
    DeviceOk { s with devices := Function.update s.devices d dev,
                      running := Function.update s.running d (some (task, next answer)) } d := by
  unfold DeviceOk at ok ⊢
  rw [running] at ok
  simp only [Function.update_self]
  cases task with
  | probe o => exact Safe.performed ok ran
  | remove => exact absurd ok not_false

/-- A probe that fails leaves the device unbound, with nothing left behind. -/
theorem DeviceOk.finished [DecidableEq ι] {d : ι} {o : Outcomes} {result : Int} (ok : DeviceOk s d)
    (running : s.running d = some (.probe o, .done result)) :
    DeviceOk { s with running := Function.update s.running d none,
                      bound := Function.update s.bound d (decide (result = 0)) } d := by
  unfold DeviceOk at ok ⊢
  rw [running] at ok
  simp only [Function.update_self]
  refine ⟨ok.here, fun failed => Safe.finished ok ?_⟩
  simpa using failed

/-- An interrupt finds no handler, or one that is safe. -/
theorem DeviceOk.interrupted [DecidableEq ι] {d : ι} {kpdReg : Fin flukeKeypadNumRegisters → UInt32}
    {dev : Device} (ok : DeviceOk s d)
    (ran : interrupt kpdReg (s.devices d) = some dev) :
    DeviceOk { s with devices := Function.update s.devices d dev } d := by
  have erased := interrupt_erase ran
  unfold DeviceOk at ok ⊢
  simp only [Function.update_self]
  cases running : s.running d with
  | none =>
    rw [running] at ok
    refine ⟨?_, fun unbound => absent_of_erase ?_⟩
    · rw [← handlerSafe_erase_iff, erased, handlerSafe_erase_iff]
      exact ok.1
    · rw [erased, ok.2 unbound]
      rfl
  | some call =>
    obtain ⟨task, p⟩ := call
    rw [running] at ok
    cases task with
    | probe o => exact ok.drifted ⟨kpdReg, ran⟩
    | remove => exact absurd ok not_false

theorem DeviceOk.step [DecidableEq ι] {label : Label ι} (ok : ∀ d, DeviceOk s d) (harmless : Harmless label)
    (stepped : s.step label = some t) (d : ι) : DeviceOk t d := by
  cases label with
  | remove e => exact absurd harmless not_false
  | probe e o =>
    simp only [System.step, Option.ite_none_right_eq_some, Option.some.injEq,
      Option.isNone_iff_eq_none] at stepped
    obtain ⟨⟨idle, unbound⟩, rfl⟩ := stepped
    by_cases same : d = e
    · subst same
      have before := ok d
      unfold DeviceOk at before ⊢
      rw [idle] at before
      simp only [Function.update_self, before.2 unbound]
      exact probe_safe harmless
    · exact (ok d).of_same rfl rfl (Function.update_of_ne same _ _)
  | perform e =>
    simp only [System.step] at stepped
    split at stepped
    · rename_i task op next running
      split at stepped
      · rename_i answer dev ran
        cases stepped
        by_cases same : d = e
        · subst same
          exact (ok d).performed running ran
        · exact (ok d).of_same (Function.update_of_ne same _ _) rfl (Function.update_of_ne same _ _)
      · cases stepped
    · cases stepped
  | finish e =>
    simp only [System.step] at stepped
    split at stepped
    · rename_i o result running
      cases stepped
      by_cases same : d = e
      · subst same
        exact (ok d).finished running
      · exact (ok d).of_same rfl (Function.update_of_ne same _ _) (Function.update_of_ne same _ _)
    · rename_i result running
      have before := ok e
      unfold DeviceOk at before
      rw [running] at before
      exact absurd before not_false
    · cases stepped
  | interrupt e kpdReg =>
    obtain ⟨dev, ran, rfl⟩ := Option.map_eq_some_iff.mp stepped
    by_cases same : d = e
    · subst same
      exact (ok d).interrupted ran
    · exact (ok d).of_same (Function.update_of_ne same _ _) rfl rfl

theorem DeviceOk.run [DecidableEq ι] {labels : List (Label ι)} (ok : ∀ d, DeviceOk s d)
    (harmless : ∀ label ∈ labels, Harmless label) (ran : System.run labels s = some t) : ∀ d, DeviceOk t d := by
  induction labels generalizing s with
  | nil =>
    cases ran
    exact ok
  | cons label rest ih =>
    obtain ⟨m, stepped, ran'⟩ := Option.bind_eq_some_iff.mp ran
    refine ih (DeviceOk.step ok (harmless label List.mem_cons_self) stepped) (fun l member => ?_) ran'
    exact harmless l (List.mem_cons_of_mem _ member)

end

/-- In every run without a remove, and without a probe that meets one of the two
bad combinations of outcomes, a registered handler is always safe and a device
that is neither bound nor being probed holds nothing. -/
theorem harmless_run_safe {ι : Type} [DecidableEq ι] {labels : List (Label ι)} {s : System ι}
    (ran : System.run labels .idle = some s) (harmless : ∀ label ∈ labels, Harmless label) :
    (∀ d, HandlerSafe (s.devices d)) ∧
      ∀ d, s.bound d = false → s.running d = none → NothingHeld (s.devices d) := by
  have initial : ∀ d : ι, DeviceOk System.idle d := fun d => ⟨handlerSafe_unregistered rfl, fun _ => rfl⟩
  have ok := DeviceOk.run initial harmless ran
  refine ⟨fun d => (ok d).handlerSafe, fun d unbound idle => ?_⟩
  have resting := ok d
  unfold DeviceOk at resting
  rw [idle] at resting
  rw [resting.2 unbound]
  exact ⟨rfl, rfl, rfl, rfl, rfl⟩

def allGranted : Outcomes := ⟨true, true, 0, 0, 0xff200000, true, true, 40, 0⟩

def bindRun : List (Label Unit) := .probe () allGranted :: List.replicate 10 (.perform ()) ++ [.finish ()]

def unbindRun : List (Label Unit) := .remove () :: List.replicate 5 (.perform ()) ++ [.finish ()]

/-- A probe that is granted everything. -/
theorem bindRun_safe :
    ∃ s, System.run bindRun .idle = some s ∧ s.bound () = true ∧ HandlerSafe (s.devices ()) := by
  have harmless : ∀ label ∈ bindRun, Harmless label := by
    intro label member
    simp only [bindRun, List.mem_cons, List.mem_append, List.mem_replicate,
      List.not_mem_nil, or_false] at member
    rcases member with (rfl | ⟨_, rfl⟩) | rfl
    · exact fun _ => rfl
    · exact trivial
    · exact trivial
  exact ⟨_, rfl, rfl, (harmless_run_safe rfl harmless).1 ()⟩

/-- Unbinding the device releases everything the handler needs, and leaves the
handler registered. -/
theorem unbound_handler_registered :
    ∃ s, System.run (bindRun ++ unbindRun) .idle = some s ∧ s.bound () = false ∧ s.running () = none ∧
      ¬ HandlerSafe (s.devices ()) ∧ ¬ NothingHeld (s.devices ()) := by
  refine ⟨_, rfl, rfl, rfl, fun safe => ?_, fun nothing => ?_⟩
  · obtain ⟨data, present, _⟩ := safe Nat.one_pos
    cases present
  · exact absurd nothing.1 Nat.one_ne_zero

end FlukeCda.Keypad
