import FlukeCda.Keypad.Driver

/-! # From presses to key codes

A press reaches the handler in one invocation or as two halves, with invocations
for other devices in between. The half that came first waits in `active`.
-/

namespace FlukeCda.Keypad

/-- A loop that keeps the last hit ends with its start value when nothing hits,
and otherwise with the value of a hit. -/
theorem foldl_hit {α β : Type} {p : α → Prop} [DecidablePred p] (f : α → β) (list : List α) (start : β) :
    (list.foldl (fun value j => if p j then f j else value) start = start ∧ ∀ j ∈ list, ¬p j) ∨
      ∃ j ∈ list, p j ∧ list.foldl (fun value j => if p j then f j else value) start = f j := by
  induction list generalizing start with
  | nil => exact Or.inl ⟨rfl, fun _ absent => absurd absent List.not_mem_nil⟩
  | cons head rest ih =>
    simp only [List.foldl_cons]
    rcases ih (if p head then f head else start) with ⟨same, none⟩ | ⟨j, member, hit, value⟩
    · by_cases hit : p head
      · exact Or.inr ⟨head, List.mem_cons_self, hit, by rw [same, if_pos hit]⟩
      · refine Or.inl ⟨by rw [same, if_neg hit], ?_⟩
        rintro j (_ | ⟨_, member⟩)
        · exact hit
        · exact none j member
    · exact Or.inr ⟨j, List.mem_cons_of_mem head member, hit, value⟩

abbrev bit (j : Nat) : UInt32 := 1 <<< UInt32.ofNat j

/-- What one register does to its entry of `active`, for every word. -/
theorem scanRegister_cases (kpdReg : UInt32) (active : Int) :
    (scanRegister kpdReg active = active ∧
        ∀ j, j < flukeKeypadAxisLength → kpdReg &&& bit j = 0) ∨
      ∃ j, j < flukeKeypadAxisLength ∧ kpdReg &&& bit j ≠ 0 ∧ scanRegister kpdReg active = j := by
  rcases foldl_hit (p := fun j => kpdReg &&& bit j ≠ 0) (fun j => (j : Int))
    (List.range flukeKeypadAxisLength) active with ⟨same, none⟩ | ⟨j, member, hit, value⟩
  · exact Or.inl ⟨same, fun j small => not_not.mp (none j (List.mem_range.mpr small))⟩
  · exact Or.inr ⟨j, List.mem_range.mp member, hit, value⟩

/-- None of the low eight bits is set. -/
def Clear (kpdReg : UInt32) : Prop := kpdReg &&& 0xff = 0

/-- Exactly one of the low eight bits is set. -/
def OnlyBit (j : Fin flukeKeypadAxisLength) (kpdReg : UInt32) : Prop := kpdReg &&& 0xff = bit j

theorem and_low (kpdReg : UInt32) {j : Nat} (small : j < flukeKeypadAxisLength) :
    kpdReg &&& bit j = (kpdReg &&& 0xff) &&& bit j := by
  have inside : ∀ k : Fin flukeKeypadAxisLength, 0xff &&& bit k = bit k := by decide
  rw [UInt32.and_assoc, inside ⟨j, small⟩]

theorem Clear.scan {kpdReg : UInt32} (clear : Clear kpdReg) (active : Int) : scanRegister kpdReg active = active := by
  rcases scanRegister_cases kpdReg active with ⟨same, -⟩ | ⟨j, small, hit, -⟩
  · exact same
  · rw [and_low kpdReg small, clear, UInt32.zero_and] at hit
    exact absurd rfl hit

theorem OnlyBit.scan {kpdReg : UInt32} {j : Fin flukeKeypadAxisLength} (only : OnlyBit j kpdReg) (active : Int) :
    scanRegister kpdReg active = j.val := by
  have meet : ∀ r k : Fin flukeKeypadAxisLength,
      bit r &&& bit k ≠ (0 : UInt32) ↔ k = r := by decide
  rcases scanRegister_cases kpdReg active with ⟨-, none⟩ | ⟨k, small, hit, value⟩
  · have absent := none j j.isLt
    rw [and_low kpdReg j.isLt, only] at absent
    exact absurd absent ((meet j j).mpr rfl)
  · rw [and_low kpdReg small, only] at hit
    rw [value, ← (meet j ⟨k, small⟩).mp hit]

abbrev Registers := Fin flukeKeypadNumRegisters → UInt32

def registers (row column : UInt32) : Registers := fun i => if i.val = 0 then row else column

/-- One invocation after another, with the events of all of them. -/
def handlerRun : List Registers → FlukeKeypadData → Option (List InputEvent × FlukeKeypadData)
  | [], drvData => some ([], drvData)
  | kpdReg :: rest, drvData => do
    let (_, events, drvData) ← flukeKeypadHandler kpdReg drvData
    let (more, drvData) ← handlerRun rest drvData
    some (events ++ more, drvData)

structure Press where
  row : Fin flukeKeypadAxisLength
  column : Fin flukeKeypadAxisLength

def Press.key (press : Press) : Fin flukeKeypadKeymapSize :=
  ⟨press.row * flukeKeypadAxisLength + press.column, by
    have row := press.row.isLt
    have column := press.column.isLt
    simp only [flukeKeypadKeymapSize, flukeKeypadAxisLength] at *
    omega⟩

theorem Press.index_key (press : Press) :
    (press.row.val : Int) * flukeKeypadAxisLength + press.column.val = (press.key.val : Int) := by
  simp only [Press.key]
  omega

/-- An invocation for another device on the line. -/
def Spurious (kpdReg : Registers) : Prop := ∀ i, Clear (kpdReg i)

/-- The invocations that bring a list of presses. -/
inductive Delivered : List Press → List Registers → Prop
  | none : Delivered [] []
  | spurious {presses calls kpdReg} (spurious : Spurious kpdReg) (rest : Delivered presses calls) :
      Delivered presses (kpdReg :: calls)
  | whole {press presses calls kpdReg} (row : OnlyBit press.row (kpdReg 0)) (column : OnlyBit press.column (kpdReg 1))
      (rest : Delivered presses calls) : Delivered (press :: presses) (kpdReg :: calls)
  | rowFirst {press presses between calls first second}
      (row : OnlyBit press.row (first 0)) (noColumn : Clear (first 1))
      (others : ∀ kpdReg ∈ between, Spurious kpdReg)
      (noRow : Clear (second 0)) (column : OnlyBit press.column (second 1)) (rest : Delivered presses calls) :
      Delivered (press :: presses) (first :: (between ++ second :: calls))
  | columnFirst {press presses between calls first second}
      (noRow : Clear (first 0)) (column : OnlyBit press.column (first 1))
      (others : ∀ kpdReg ∈ between, Spurious kpdReg)
      (row : OnlyBit press.row (second 0)) (noColumn : Clear (second 1)) (rest : Delivered presses calls) :
      Delivered (press :: presses) (first :: (between ++ second :: calls))

/-- One press followed by one release of the same code. -/
def pressRelease (code : UInt8) : List InputEvent := [.key code 1, .sync, .key code 0, .sync]

def FlukeKeypadData.latch (drvData : FlukeKeypadData) (row column : Int) : FlukeKeypadData :=
  { drvData with active := fun i => if i.val = 0 then row else column }

section
variable (drvData : FlukeKeypadData) {kpdReg : Registers} {row column : Int}

theorem latch_initial (active : drvData.active = fun _ => -1) : drvData.latch (-1) (-1) = drvData := by
  simp only [FlukeKeypadData.latch, ite_self, ← active]

section
variable {row' column' : Int} (rows : scanRegister (kpdReg 0) row = row')
  (columns : scanRegister (kpdReg 1) column = column')
include rows columns

theorem handler_latch :
    flukeKeypadHandler kpdReg (drvData.latch row column) =
      if row' < 0 ∧ column' < 0 then some (.none, [], drvData.latch row' column')
      else if row' ≥ 0 ∧ column' ≥ 0 then
        (drvData.keycodeAt (row' * flukeKeypadAxisLength + column')).bind fun code =>
          some (.handled, pressRelease code, { drvData with active := fun _ => -1 })
      else some (.handled, [], drvData.latch row' column') := by
  have scanned : (fun i => scanRegister (kpdReg i) ((drvData.latch row column).active i)) =
      fun i => if i.val = 0 then row' else column' := by
    funext i
    match i with
    | 0 => exact rows
    | 1 => exact columns
  have scannedRow : scanRegister (kpdReg 0) ((drvData.latch row column).active 0) = row' := rows
  have scannedColumn : scanRegister (kpdReg 1) ((drvData.latch row column).active 1) = column' := columns
  simp only [flukeKeypadHandler, scanned, scannedRow, scannedColumn]
  rfl

/-- An invocation that leaves one half missing reports nothing. -/
theorem handler_silent (missing : row' < 0 ∨ column' < 0) :
    ∃ result,
      flukeKeypadHandler kpdReg (drvData.latch row column) = some (result, [], drvData.latch row' column') := by
  rw [handler_latch drvData rows columns]
  by_cases both : row' < 0 ∧ column' < 0
  · exact ⟨.none, if_pos both⟩
  · rw [if_neg both, if_neg (by omega)]
    exact ⟨.handled, rfl⟩

end

/-- The invocation that completes a press reports it and forgets both halves. -/
theorem handler_complete (press : Press) (rows : scanRegister (kpdReg 0) row = press.row.val)
    (columns : scanRegister (kpdReg 1) column = press.column.val) :
    flukeKeypadHandler kpdReg (drvData.latch row column) =
      some (.handled, pressRelease (drvData.keycode press.key), drvData.latch (-1) (-1)) := by
  have inside := press.key.isLt
  have code : drvData.keycodeAt press.key.val = some (drvData.keycode press.key) := dif_pos ⟨by omega, by omega⟩
  rw [handler_latch drvData rows columns, if_neg (by omega), if_pos (by omega), press.index_key, code]
  simp only [Option.bind_some, FlukeKeypadData.latch, ite_self]

theorem Spurious.handler (spurious : Spurious kpdReg) (missing : row < 0 ∨ column < 0) :
    ∃ result, flukeKeypadHandler kpdReg (drvData.latch row column) = some (result, [], drvData.latch row column) :=
  handler_silent drvData ((spurious 0).scan row) ((spurious 1).scan column) missing

theorem handlerRun_silent {result : IrqReturn} {calls : List Registers} {before after : FlukeKeypadData}
    (first : flukeKeypadHandler kpdReg before = some (result, [], after)) :
    handlerRun (kpdReg :: calls) before = handlerRun calls after := by
  simp only [handlerRun, first, Option.bind_eq_bind, Option.bind_some, List.nil_append]
  exact Option.bind_fun_some _

/-- A half press waits through any number of invocations for other devices. -/
theorem handlerRun_spurious {between : List Registers} (others : ∀ kpdReg ∈ between, Spurious kpdReg)
    (missing : row < 0 ∨ column < 0) (calls : List Registers) :
    handlerRun (between ++ calls) (drvData.latch row column) = handlerRun calls (drvData.latch row column) := by
  induction between with
  | nil => rfl
  | cons kpdReg rest ih =>
    obtain ⟨result, first⟩ := (others kpdReg List.mem_cons_self).handler drvData missing
    rw [List.cons_append, handlerRun_silent first]
    exact ih fun other member => others other (List.mem_cons_of_mem kpdReg member)

end

/-- What the listed presses are to report. -/
def pressEvents (keycode : Fin flukeKeypadKeymapSize → UInt8) (presses : List Press) : List InputEvent :=
  presses.flatMap fun press => pressRelease (keycode press.key)

theorem handlerRun_complete {drvData : FlukeKeypadData} {press : Press} {presses : List Press}
    {calls : List Registers} {kpdReg : Registers} {row column : Int}
    (rows : scanRegister (kpdReg 0) row = press.row.val) (columns : scanRegister (kpdReg 1) column = press.column.val)
    (rest : handlerRun calls (drvData.latch (-1) (-1)) =
      some (pressEvents drvData.keycode presses, drvData.latch (-1) (-1))) :
    handlerRun (kpdReg :: calls) (drvData.latch row column) =
      some (pressEvents drvData.keycode (press :: presses), drvData.latch (-1) (-1)) := by
  have first := handler_complete drvData press rows columns
  simp only [handlerRun, first, Option.bind_eq_bind, Option.bind_some, rest, pressEvents, List.flatMap_cons]

/-- Between presses nothing is latched, so the presses are reported one by one,
however each of them is delivered. -/
theorem handlerRun_delivered (drvData : FlukeKeypadData) {presses : List Press} {calls : List Registers}
    (delivered : Delivered presses calls) :
    handlerRun calls (drvData.latch (-1) (-1)) =
      some (pressEvents drvData.keycode presses, drvData.latch (-1) (-1)) := by
  induction delivered with
  | none => rfl
  | spurious spurious rest ih =>
    obtain ⟨result, first⟩ := @Spurious.handler drvData _ (-1) (-1) spurious (Or.inl (by decide))
    rw [handlerRun_silent first, ih]
  | whole row column rest ih => exact handlerRun_complete (row.scan _) (column.scan _) ih
  | rowFirst row noColumn others noRow column rest ih =>
    obtain ⟨result, half⟩ := handler_silent drvData (row.scan (-1)) (noColumn.scan (-1)) (Or.inr (by decide))
    rw [handlerRun_silent half, handlerRun_spurious drvData others (Or.inr (by decide))]
    exact handlerRun_complete (noRow.scan _) (column.scan _) ih
  | columnFirst noRow column others row noColumn rest ih =>
    obtain ⟨result, half⟩ := handler_silent drvData (noRow.scan (-1)) (column.scan (-1)) (Or.inl (by decide))
    rw [handlerRun_silent half, handlerRun_spurious drvData others (Or.inl (by decide))]
    exact handlerRun_complete (row.scan _) (noColumn.scan _) ih

/-- Code of a key in the key map that probe sets up. -/
theorem initial_keycode (press : Press) :
    (initialData.keycode press.key).toNat = 8 * press.row.val + press.column.val + 1 := by
  have row := press.row.isLt
  have column := press.column.isLt
  simp only [initialData, Press.key, flukeKeypadAxisLength, UInt8.toNat_ofNat'] at *
  omega

/-- From the state that probe sets up, with any key map put into it, the
handler reports the listed keys in their order and nothing else. -/
theorem presses_decoded {presses : List Press} {calls : List Registers} (delivered : Delivered presses calls)
    (acquired : Acquired) (keycode : Fin flukeKeypadKeymapSize → UInt8) :
    handlerRun calls { initialData with acquired, keycode } =
        some (pressEvents keycode presses, { initialData with acquired, keycode }) ∧
      ∀ press : Press, (initialData.keycode press.key).toNat = 8 * press.row.val + press.column.val + 1 := by
  have initial := latch_initial { initialData with acquired, keycode } rfl
  refine ⟨?_, initial_keycode⟩
  rw [← initial]
  exact handlerRun_delivered _ delivered

/-- Row 2 and column 5 in two halves, the column first, with another device between them. -/
theorem key_22_decoded :
    handlerRun [registers 0x100 0x20, registers 0 0x8000, registers 0x4 0] initialData =
        some (pressEvents initialData.keycode [⟨⟨2, by decide⟩, ⟨5, by decide⟩⟩], initialData) ∧
      ∀ press : Press, (initialData.keycode press.key).toNat = 8 * press.row.val + press.column.val + 1 := by
  have others : ∀ kpdReg ∈ [registers 0 0x8000], Spurious kpdReg := by
    intro kpdReg member
    rw [List.mem_singleton.mp member]
    exact fun
      | 0 => rfl
      | 1 => rfl
  have noRow : Clear (registers 0x100 0x20 0) := rfl
  have column : OnlyBit ⟨5, by decide⟩ (registers 0x100 0x20 1) := rfl
  have row : OnlyBit ⟨2, by decide⟩ (registers 0x4 0 0) := rfl
  have noColumn : Clear (registers 0x4 0 1) := rfl
  have delivered := @Delivered.columnFirst ⟨⟨2, by decide⟩, ⟨5, by decide⟩⟩ [] _ [] _ _
    noRow column others row noColumn .none
  exact presses_decoded delivered initialData.acquired initialData.keycode

end FlukeCda.Keypad
