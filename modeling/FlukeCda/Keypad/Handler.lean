import Mathlib.Data.Fin.Basic

namespace FlukeCda.Keypad

abbrev flukeKeypadNumRegisters : Nat := 2
def flukeKeypadAxisLength : Nat := 8
def flukeKeypadKeymapSize : Nat := flukeKeypadAxisLength * flukeKeypadAxisLength

/-- What `remove` looks at to find out what `probe` has acquired. Pointers are
represented by whether they are set. -/
structure Acquired where
  mapbase : Bool
  start : Nat
  irq : Nat
  inputDev : Bool
  deriving DecidableEq

/-- `struct fluke_keypad_data`. -/
structure FlukeKeypadData where
  acquired : Acquired
  keycode : Fin flukeKeypadKeymapSize → UInt8
  active : Fin flukeKeypadNumRegisters → Int

inductive InputEvent
  | key (code : UInt8) (value : Int)
  | sync
  deriving DecidableEq

inductive IrqReturn
  | none
  | handled
  deriving DecidableEq

/-- The inner loop over one register: the highest of its low eight bits that is
set wins, and none set leaves `active` as it was. -/
def scanRegister (kpdReg : UInt32) (active : Int) : Int :=
  (List.range flukeKeypadAxisLength).foldl
    (fun active j => if kpdReg &&& (1 <<< UInt32.ofNat j) ≠ 0 then (j : Int) else active) active

/-- A lookup outside the key map has no result. -/
def FlukeKeypadData.keycodeAt (drvData : FlukeKeypadData) (index : Int) : Option UInt8 :=
  if h : 0 ≤ index ∧ index < flukeKeypadKeymapSize then some (drvData.keycode ⟨index.toNat, by omega⟩) else none

/-- One run of the handler with the values its two registers read as: what it
returns, the input events it reports, and the driver data it leaves. -/
def flukeKeypadHandler (kpdReg : Fin flukeKeypadNumRegisters → UInt32) (drvData : FlukeKeypadData) :
    Option (IrqReturn × List InputEvent × FlukeKeypadData) :=
  let active := fun i => scanRegister (kpdReg i) (drvData.active i)
  let drvData := { drvData with active }
  if active 0 < 0 ∧ active 1 < 0 then some (.none, [], drvData)
  else if active 0 ≥ 0 ∧ active 1 ≥ 0 then do
    let code ← drvData.keycodeAt (active 0 * flukeKeypadAxisLength + active 1)
    some (.handled, [.key code 1, .sync, .key code 0, .sync], { drvData with active := fun _ => -1 })
  else some (.handled, [], drvData)

/-- The handler only ever changes `active`. -/
theorem flukeKeypadHandler_acquired {kpdReg : Fin flukeKeypadNumRegisters → UInt32}
    {drvData after : FlukeKeypadData} {result : IrqReturn} {events : List InputEvent}
    (ran : flukeKeypadHandler kpdReg drvData = some (result, events, after)) :
    after.acquired = drvData.acquired ∧ after.keycode = drvData.keycode := by
  simp only [flukeKeypadHandler] at ran
  split_ifs at ran
  · cases ran
    exact ⟨rfl, rfl⟩
  · obtain ⟨code, _, same⟩ := Option.bind_eq_some_iff.mp ran
    cases same
    exact ⟨rfl, rfl⟩
  · cases ran
    exact ⟨rfl, rfl⟩

end FlukeCda.Keypad
