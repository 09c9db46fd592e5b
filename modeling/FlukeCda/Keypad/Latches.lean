import FlukeCda.Keypad.Decoding

/-! # The latches between interrupts

Whatever the registers read as, an invocation leaves each entry of `active`
empty or on one of the eight lines, and never both on a line. The line of the
keypad is shared, and whether an interrupt is claimed is read off the latches.
-/

namespace FlukeCda.Keypad

/-- Empty, or one of the lines of an axis. -/
def InRange (active : Int) : Prop := -1 ≤ active ∧ active ≤ 7

/-- The latches as they are found between two invocations. -/
structure Latched (drvData : FlukeKeypadData) : Prop where
  row : InRange (drvData.active 0)
  column : InRange (drvData.active 1)
  half : drvData.active 0 < 0 ∨ drvData.active 1 < 0

/-- The entry of the key map that the handler looks up with such latches, if it looks one up. -/
def lookupIndex (row column : Int) : Option Int :=
  if row ≥ 0 ∧ column ≥ 0 then some (row * flukeKeypadAxisLength + column) else none

/-- An invocation looks up that entry, after its scan. -/
structure LooksUp (kpdReg : Registers) (drvData : FlukeKeypadData) (index : Int) : Prop where
  scanned : lookupIndex (scanRegister (kpdReg 0) (drvData.active 0)) (scanRegister (kpdReg 1) (drvData.active 1)) =
    some index

/-- The codes that probe registers with `input_set_capability`. -/
def capabilities : List UInt8 := (List.finRange flukeKeypadKeymapSize).map initialData.keycode

/-- What one invocation may do: it stays inside the key map and reports nothing
or one press with its release. -/
structure SafeInvocation (kpdReg : Registers) (drvData : FlukeKeypadData) (events : List InputEvent)
    (after : FlukeKeypadData) : Prop where
  ran : ∃ result, flukeKeypadHandler kpdReg drvData = some (result, events, after)
  inside : ∀ index, LooksUp kpdReg drvData index → 0 ≤ index ∧ index < flukeKeypadKeymapSize
  reported : events = [] ∨ ∃ key : Fin flukeKeypadKeymapSize,
    LooksUp kpdReg drvData key.val ∧ events = pressRelease (drvData.keycode key)
  latched : Latched after

theorem latch_self (drvData : FlukeKeypadData) : drvData.latch (drvData.active 0) (drvData.active 1) = drvData := by
  have same : (fun i : Fin flukeKeypadNumRegisters => if i.val = 0 then drvData.active 0 else drvData.active 1) =
      drvData.active := by
    funext i
    match i with
    | 0 => rfl
    | 1 => rfl
  simp only [FlukeKeypadData.latch, same]

theorem InRange.scan {active : Int} (range : InRange active) (kpdReg : UInt32) :
    InRange (scanRegister kpdReg active) := by
  rcases scanRegister_cases kpdReg active with ⟨same, -⟩ | ⟨j, small, -, value⟩
  · rwa [same]
  · simp only [flukeKeypadAxisLength] at small
    rw [value]
    constructor <;> omega

theorem Latched.latch (drvData : FlukeKeypadData) {row column : Int} (rowRange : InRange row)
    (columnRange : InRange column) (half : row < 0 ∨ column < 0) : Latched (drvData.latch row column) :=
  ⟨rowRange, columnRange, half⟩

theorem latched_empty (drvData : FlukeKeypadData) : Latched (drvData.latch (-1) (-1)) := by
  have empty : InRange (-1) := ⟨by decide, by decide⟩
  exact Latched.latch drvData empty empty (Or.inl (by decide))

/-- A latch that is on a line is the line of a key. -/
theorem InRange.line {active : Int} (range : InRange active) (present : 0 ≤ active) :
    ∃ line : Fin flukeKeypadAxisLength, active = line.val :=
  ⟨⟨active.toNat, by have top := range.2; simp only [flukeKeypadAxisLength]; omega⟩, by simp only []; omega⟩

/-- One invocation, for any words in the registers. -/
theorem handler_safe (kpdReg : Registers) {drvData : FlukeKeypadData} (latched : Latched drvData) :
    ∃ events after, SafeInvocation kpdReg drvData events after := by
  have rowRange := latched.row.scan (kpdReg 0)
  have columnRange := latched.column.scan (kpdReg 1)
  have self := latch_self drvData
  by_cases both : scanRegister (kpdReg 0) (drvData.active 0) ≥ 0 ∧ scanRegister (kpdReg 1) (drvData.active 1) ≥ 0
  · obtain ⟨row, rows⟩ := rowRange.line both.1
    obtain ⟨column, columns⟩ := columnRange.line both.2
    let press : Press := ⟨row, column⟩
    have ran := handler_complete drvData press rows columns
    rw [self] at ran
    have index : LooksUp kpdReg drvData press.key.val := by
      constructor
      rw [lookupIndex, if_pos both, rows, columns]
      exact congrArg some press.index_key
    refine ⟨_, _, ⟨.handled, ran⟩, ?_, Or.inr ⟨press.key, index, rfl⟩, latched_empty drvData⟩
    intro found same
    have bound := press.key.isLt
    have value := Option.some.inj (index.scanned.symm.trans same.scanned)
    omega
  · have missing : scanRegister (kpdReg 0) (drvData.active 0) < 0 ∨ scanRegister (kpdReg 1) (drvData.active 1) < 0 := by
      omega
    obtain ⟨result, ran⟩ := handler_silent drvData rfl rfl missing
    rw [self] at ran
    refine ⟨_, _, ⟨result, ran⟩, ?_, Or.inl rfl, Latched.latch drvData rowRange columnRange missing⟩
    rintro found ⟨scanned⟩
    rw [lookupIndex, if_neg both] at scanned
    cases scanned

/-- Any number of invocations: every key that was pressed has been released. -/
theorem handlerRun_safe (calls : List Registers) {drvData : FlukeKeypadData} (latched : Latched drvData) :
    ∃ (keys : List (Fin flukeKeypadKeymapSize)) (after : FlukeKeypadData),
      handlerRun calls drvData = some (keys.flatMap fun key => pressRelease (drvData.keycode key), after) ∧
        Latched after ∧ after.keycode = drvData.keycode := by
  induction calls generalizing drvData with
  | nil => exact ⟨[], drvData, rfl, latched, rfl⟩
  | cons kpdReg rest ih =>
    obtain ⟨events, middle, ⟨result, ran⟩, -, reported, still⟩ := handler_safe kpdReg latched
    have keymap := (flukeKeypadHandler_acquired ran).2
    obtain ⟨keys, after, more, last, same⟩ := ih still
    rw [keymap] at more same
    rcases reported with rfl | ⟨key, -, rfl⟩
    · refine ⟨keys, after, ?_, last, same⟩
      rw [handlerRun_silent ran, more]
    · refine ⟨key :: keys, after, ?_, last, same⟩
      simp only [handlerRun, ran, Option.bind_eq_bind, Option.bind_some, more, List.flatMap_cons]

/-- The state that probe sets up. -/
theorem initial_latched (acquired : Acquired) : Latched { initialData with acquired } := by
  have empty := latch_initial { initialData with acquired } rfl
  rw [← empty]
  exact latched_empty _

theorem keycode_capability (key : Fin flukeKeypadKeymapSize) : initialData.keycode key ∈ capabilities :=
  List.mem_map_of_mem (List.mem_finRange key)

/-- From the state of probe, after any invocations and for any next one. -/
theorem keypad_safe (acquired : Acquired) (calls : List Registers) :
    ∃ (codes : List UInt8) (drvData : FlukeKeypadData),
      handlerRun calls { initialData with acquired } = some (codes.flatMap pressRelease, drvData) ∧
      (∀ code ∈ codes, code ∈ capabilities) ∧ Latched drvData ∧
      ∀ kpdReg, ∃ events after, SafeInvocation kpdReg drvData events after ∧
        (events = [] ∨ ∃ code ∈ capabilities, events = pressRelease code) := by
  obtain ⟨keys, drvData, run, latched, keymap⟩ := handlerRun_safe calls (initial_latched acquired)
  refine ⟨keys.map initialData.keycode, drvData, ?_, ?_, latched, ?_⟩
  · rw [run, List.flatMap_map]
  · intro code member
    obtain ⟨key, -, rfl⟩ := List.mem_map.mp member
    exact keycode_capability key
  · intro kpdReg
    obtain ⟨events, after, safe⟩ := handler_safe kpdReg latched
    refine ⟨events, after, safe, ?_⟩
    rcases safe.reported with none | ⟨key, -, pressed⟩
    · exact Or.inl none
    · exact Or.inr ⟨initialData.keycode key, keycode_capability key, by rw [pressed, keymap]⟩

/-- The promise of a handler on a shared line: it claims the interrupts of its
own device, and leaves everything alone at those of another. -/
structure OwnsItsInterrupts (kpdReg : Registers) (drvData : FlukeKeypadData) : Prop where
  claimed_iff : (∃ events after, flukeKeypadHandler kpdReg drvData = some (.handled, events, after)) ↔
    ¬Spurious kpdReg
  declined : Spurious kpdReg → flukeKeypadHandler kpdReg drvData = some (.none, [], drvData)

/-- Neither half of a key is latched. -/
structure Empty (drvData : FlukeKeypadData) : Prop where
  row : drvData.active 0 = -1
  column : drvData.active 1 = -1

theorem and_or_zero {word one other : UInt32} (first : word &&& one = 0) (second : word &&& other = 0) :
    word &&& (one ||| other) = 0 := by
  have spread : word &&& (one ||| other) = (word &&& one) ||| (word &&& other) :=
    UInt32.toBitVec_inj.mp BitVec.and_or_distrib_left
  rw [spread, first, second, UInt32.or_zero]

/-- A register with none of its eight low bits set is clear. -/
theorem clear_of_bits {kpdReg : UInt32} (absent : ∀ j, j < flukeKeypadAxisLength → kpdReg &&& bit j = 0) :
    Clear kpdReg := by
  have mask : (0xff : UInt32) =
      bit 0 ||| (bit 1 ||| (bit 2 ||| (bit 3 ||| (bit 4 ||| (bit 5 ||| (bit 6 ||| bit 7)))))) := by decide
  rw [Clear, mask]
  repeat' apply and_or_zero
  all_goals exact absent _ (by decide)

theorem scan_present {kpdReg : UInt32} (present : ¬Clear kpdReg) (active : Int) : 0 ≤ scanRegister kpdReg active := by
  rcases scanRegister_cases kpdReg active with ⟨-, absent⟩ | ⟨j, -, -, value⟩
  · exact absurd (clear_of_bits absent) present
  · rw [value]
    exact Int.natCast_nonneg j

theorem spurious_iff (kpdReg : Registers) : Spurious kpdReg ↔ Clear (kpdReg 0) ∧ Clear (kpdReg 1) := by
  refine ⟨fun spurious => ⟨spurious 0, spurious 1⟩, fun both i => ?_⟩
  match i with
  | 0 => exact both.1
  | 1 => exact both.2

/-- The handler claims an interrupt when a latch is on a line after the scan. -/
theorem handler_claims {kpdReg : Registers} {drvData : FlukeKeypadData} (latched : Latched drvData)
    (present : 0 ≤ scanRegister (kpdReg 0) (drvData.active 0) ∨ 0 ≤ scanRegister (kpdReg 1) (drvData.active 1)) :
    ∃ events after, flukeKeypadHandler kpdReg drvData = some (.handled, events, after) := by
  obtain ⟨events, after, ⟨result, ran⟩, -, -, -⟩ := handler_safe kpdReg latched
  have latch := @handler_latch drvData kpdReg (drvData.active 0) (drvData.active 1) _ _ rfl rfl
  rw [latch_self, ran, if_neg (by omega)] at latch
  refine ⟨events, after, ?_⟩
  split_ifs at latch
  · obtain ⟨code, -, same⟩ := Option.bind_eq_some_iff.mp latch.symm
    cases same
    exact ran
  · cases latch
    exact ran

theorem handler_declines {kpdReg : Registers} {drvData : FlukeKeypadData} (spurious : Spurious kpdReg)
    (empty : Empty drvData) : flukeKeypadHandler kpdReg drvData = some (.none, [], drvData) := by
  have rows := (spurious 0).scan (drvData.active 0)
  have columns := (spurious 1).scan (drvData.active 1)
  have none : drvData.active 0 < 0 ∧ drvData.active 1 < 0 := by
    rw [empty.row, empty.column]
    decide
  have latch := handler_latch drvData rows columns
  rwa [latch_self, if_pos none] at latch

/-- With half a key latched the interrupt of another device is claimed, as the
test at the end of the handler is on the latches and not on what was read. -/
theorem owns_iff (kpdReg : Registers) {drvData : FlukeKeypadData} (latched : Latched drvData) :
    OwnsItsInterrupts kpdReg drvData ↔ Empty drvData ∨ ¬Spurious kpdReg := by
  constructor
  · intro owns
    by_contra neither
    obtain ⟨waiting, other⟩ := not_or.mp neither
    have spurious := not_not.mp other
    have rowLow := latched.row.1
    have columnLow := latched.column.1
    have half : 0 ≤ drvData.active 0 ∨ 0 ≤ drvData.active 1 := by
      by_contra low
      exact waiting ⟨by omega, by omega⟩
    rw [← (spurious 0).scan (drvData.active 0), ← (spurious 1).scan (drvData.active 1)] at half
    exact owns.claimed_iff.mp (handler_claims latched half) spurious
  · rintro (empty | own)
    · refine ⟨⟨?_, ?_⟩, fun spurious => handler_declines spurious empty⟩
      · rintro ⟨events, after, claimed⟩ spurious
        rw [handler_declines spurious empty] at claimed
        cases claimed
      · intro own
        rw [spurious_iff, not_and_or] at own
        exact handler_claims latched (own.imp (scan_present · _) (scan_present · _))
    · refine ⟨⟨fun _ => own, fun _ => ?_⟩, fun spurious => absurd spurious own⟩
      rw [spurious_iff, not_and_or] at own
      exact handler_claims latched (own.imp (scan_present · _) (scan_present · _))

/-- After any interrupts and for any next one. -/
theorem claims_own_interrupts (acquired : Acquired) (calls : List Registers) :
    ∃ events drvData, handlerRun calls { initialData with acquired } = some (events, drvData) ∧
      ∀ kpdReg, OwnsItsInterrupts kpdReg drvData ↔ Empty drvData ∨ ¬Spurious kpdReg := by
  obtain ⟨keys, drvData, run, latched, -⟩ := handlerRun_safe calls (initial_latched acquired)
  exact ⟨_, drvData, run, fun kpdReg => owns_iff kpdReg latched⟩

/-- Row 3 waits for its column when another device interrupts. -/
theorem half_key_claims : ¬∀ (acquired : Acquired) (calls : List Registers),
    ∃ events drvData, handlerRun calls { initialData with acquired } = some (events, drvData) ∧
      ∀ kpdReg, OwnsItsInterrupts kpdReg drvData := by
  intro claim
  obtain ⟨events, drvData, run, owns⟩ := claim initialData.acquired [registers 8 0]
  have row : OnlyBit ⟨3, by decide⟩ (registers 8 0 0) := rfl
  have noColumn : Clear (registers 8 0 1) := rfl
  obtain ⟨result, half⟩ := handler_silent initialData (row.scan (-1)) (noColumn.scan (-1)) (Or.inr (by decide))
  rw [latch_initial initialData rfl] at half
  rw [handlerRun_silent half] at run
  cases run
  have nothing : Spurious (registers 0 0) := (spurious_iff _).mpr ⟨rfl, rfl⟩
  have latched : Latched (initialData.latch 3 (-1)) := Latched.latch _ ⟨by decide, by decide⟩ ⟨by decide, by decide⟩
    (Or.inr (by decide))
  rcases (owns_iff _ latched).mp (owns (registers 0 0)) with ⟨waiting, -⟩ | own
  · exact absurd waiting (by decide)
  · exact own nothing

end FlukeCda.Keypad
