import FlukeCda.Data.TwoBytes

/-! # The timeout and watermark registers

`read_timeout`, `write_timeout`, `read_watermark` and `fn_fast_uart_ioctl` over
the register file. `int` and `unsigned long` have the 32 bits of the target.
-/

namespace FlukeCda.FastUart

/-- The words behind `membase`, by their offset. -/
abbrev Registers := Nat → UInt32

def readl (offset : Nat) (regs : Registers) : UInt32 := regs offset
def writel (value : UInt32) (offset : Nat) (regs : Registers) : Registers :=
  fun other => if other = offset then value else regs other

@[simp] theorem readl_writel_same (value : UInt32) (offset : Nat) (regs : Registers) :
    readl offset (writel value offset regs) = value := if_pos rfl

@[simp] theorem readl_writel_other {offset other : Nat} (apart : other ≠ offset) (value : UInt32)
    (regs : Registers) : readl other (writel value offset regs) = readl other regs := if_neg apart

def uartWatermarkLsb : Nat := 0x28
def uartWatermarkMsb : Nat := 0x2c
def uartTimeoutLsb : Nat := 0x30
def uartTimeoutMsb : Nat := 0x34
def ENOIOCTLCMD : Int32 := 515

/-- `_IOWR(type, nr, size)`: both directions, the size, the type and the number of the command. -/
def iowr (type nr size : UInt32) : UInt32 := ((3 : UInt32) <<< 30) ||| (size <<< 16) ||| (type <<< 8) ||| nr

def fastUartCode : UInt32 := 170
def readUartWatermark : UInt32 := iowr fastUartCode 1 4
def readUartTimeout : UInt32 := iowr fastUartCode 3 4
def writeUartTimeout : UInt32 := iowr fastUartCode 4 4

def readWatermark (regs : Registers) : UInt32 :=
  ((readl uartWatermarkMsb regs &&& 0x1f) <<< 8) ||| readl uartWatermarkLsb regs

def readTimeout (regs : Registers) : UInt32 :=
  ((readl uartTimeoutMsb regs &&& 0xff) <<< 8) ||| readl uartTimeoutLsb regs

def writeTimeout (timeout : Int32) (regs : Registers) : Int32 × Registers :=
  if timeout ≤ 0 then (-1, regs)
  else
    let regs := writel ((timeout &&& 0xff00) >>> 8).toUInt32 uartTimeoutMsb regs
    let regs := writel (timeout &&& 0xff).toUInt32 uartTimeoutLsb regs
    (0, regs)

def fnFastUartIoctl (reg value : UInt32) (regs : Registers) : Int32 × Registers :=
  if reg = readUartWatermark then ((readWatermark regs).toInt32, regs)
  else if reg = readUartTimeout then ((readTimeout regs).toInt32, regs)
  else if reg = writeUartTimeout then writeTimeout value.toInt32 regs
  else (-ENOIOCTLCMD, regs)

/-- A list of calls, each a command word and a value, one after another. -/
def ioctls : List (UInt32 × UInt32) → Registers → Registers
  | [], regs => regs
  | (reg, value) :: rest, regs => ioctls rest (fnFastUartIoctl reg value regs).2

/-- The number that `READ_UART_TIMEOUT` returns; the value passed with it is ignored. -/
def settingRead (ignored : UInt32) (regs : Registers) : Int := (fnFastUartIoctl readUartTimeout ignored regs).1.toInt

/-- A call that asks for a timeout and is granted it. -/
def AcceptedWrite (reg value : UInt32) (regs : Registers) : Prop :=
  reg = writeUartTimeout ∧ (fnFastUartIoctl reg value regs).1 = 0

def NoAcceptedWrite : List (UInt32 × UInt32) → Registers → Prop
  | [], _ => True
  | (reg, value) :: rest, regs =>
    ¬AcceptedWrite reg value regs ∧ NoAcceptedWrite rest (fnFastUartIoctl reg value regs).2

/-- The promise of the codec for one value: an accepted setting is what is read
back, and positive, until another one is accepted, and a refused one leaves the
timeout registers alone. -/
structure TimeoutKept (value : UInt32) : Prop where
  accepted : ∀ regs, (fnFastUartIoctl writeUartTimeout value regs).1 = 0 →
    ∀ calls, NoAcceptedWrite calls (fnFastUartIoctl writeUartTimeout value regs).2 → ∀ ignored,
      settingRead ignored (ioctls calls (fnFastUartIoctl writeUartTimeout value regs).2) = value.toNat ∧
      0 < settingRead ignored (ioctls calls (fnFastUartIoctl writeUartTimeout value regs).2)
  refused : ∀ regs, (fnFastUartIoctl writeUartTimeout value regs).1 ≠ 0 →
    readl uartTimeoutMsb (fnFastUartIoctl writeUartTimeout value regs).2 = readl uartTimeoutMsb regs ∧
    readl uartTimeoutLsb (fnFastUartIoctl writeUartTimeout value regs).2 = readl uartTimeoutLsb regs

theorem ioctl_write (value : UInt32) (regs : Registers) :
    fnFastUartIoctl writeUartTimeout value regs = writeTimeout value.toInt32 regs := by
  have notWatermark : writeUartTimeout ≠ readUartWatermark := by decide
  have notRead : writeUartTimeout ≠ readUartTimeout := by decide
  rw [fnFastUartIoctl, if_neg notWatermark, if_neg notRead, if_pos rfl]

theorem ioctl_read (ignored : UInt32) (regs : Registers) :
    fnFastUartIoctl readUartTimeout ignored regs = ((readTimeout regs).toInt32, regs) := by
  have notWatermark : readUartTimeout ≠ readUartWatermark := by decide
  rw [fnFastUartIoctl, if_neg notWatermark, if_pos rfl]

/-- The narrowed value is refused when it is zero or its sign bit is set. -/
theorem narrowed_nonpositive_iff (value : UInt32) :
    value.toInt32 ≤ 0 ↔ value.toNat = 0 ∨ 2 ^ 31 ≤ value.toNat := by
  have bound := value.toNat_lt
  rw [Int32.le_iff_toInt_le, Int32.toInt, UInt32.toBitVec_toInt32, BitVec.toInt_eq_toNat_cond]
  simp only [UInt32.toNat_toBitVec, Int32.toInt_zero]
  split <;> omega

theorem writeTimeout_refused {timeout : Int32} (nonpositive : timeout ≤ 0) (regs : Registers) :
    writeTimeout timeout regs = (-1, regs) := if_pos nonpositive

theorem writeTimeout_accepts {timeout : Int32} {regs : Registers}
    (accepted : (writeTimeout timeout regs).1 = 0) : ¬timeout ≤ 0 := by
  intro nonpositive
  have refused : (-1 : Int32) ≠ 0 := by decide
  rw [writeTimeout_refused nonpositive] at accepted
  exact refused accepted

theorem writeTimeout_returns {timeout : Int32} (positive : ¬timeout ≤ 0) (regs : Registers) :
    (writeTimeout timeout regs).1 = 0 := by
  rw [writeTimeout, if_neg positive]

theorem high_toNat (value : UInt32) :
    ((value.toInt32 &&& 0xff00) >>> 8).toUInt32.toNat = value.toNat / 256 % 256 := by
  have sign : (value.toBitVec &&& 0xff00#32).msb = false := by
    rw [BitVec.msb_and]
    exact Bool.and_false _
  have shifted : ((value.toInt32 &&& 0xff00) >>> 8).toUInt32.toNat =
      ((value.toBitVec &&& 0xff00#32).sshiftRight 8).toNat := rfl
  rw [shifted, BitVec.sshiftRight_eq_of_msb_false sign, BitVec.toNat_ushiftRight, BitVec.toNat_and]
  exact TwoBytes.mask_high value.toNat

theorem low_toNat (value : UInt32) : (value.toInt32 &&& 0xff).toUInt32.toNat = value.toNat % 256 :=
  TwoBytes.mask_low value.toNat

/-- The two registers joined, for a mask that keeps some low bits of the upper one. -/
theorem joined_toNat {mask low : UInt32} {bits : Nat} (keeps : mask.toNat = 2 ^ bits - 1) (narrow : bits ≤ 8)
    (byte : low.toNat < 256) (high : UInt32) :
    (((high &&& mask) <<< 8) ||| low).toNat = TwoBytes.join bits high.toNat low.toNat := by
  have kept : high.toNat &&& (2 ^ bits - 1) < 2 ^ bits := by
    rw [Nat.and_two_pow_sub_one_eq_mod]
    exact Nat.mod_lt _ (Nat.two_pow_pos bits)
  have cap : 2 ^ bits ≤ 2 ^ 8 := Nat.pow_le_pow_right (by decide) narrow
  have fits : ((high.toNat &&& (2 ^ bits - 1)) <<< 8) < 2 ^ 32 := by
    rw [Nat.shiftLeft_eq]
    omega
  rw [← TwoBytes.join_masked byte, UInt32.toNat_or, UInt32.toNat_shiftLeft, UInt32.toNat_and, keeps]
  exact congrArg (· ||| low.toNat) (Nat.mod_eq_of_lt fits)

/-- What is read after an accepted write: the value without its upper half. -/
theorem readTimeout_written {value : UInt32} (positive : ¬value.toInt32 ≤ 0) (regs : Registers) :
    (readTimeout (writeTimeout value.toInt32 regs).2).toNat = value.toNat % 2 ^ 16 := by
  have apart : uartTimeoutMsb ≠ uartTimeoutLsb := by decide
  have low := low_toNat value
  have byte : (value.toInt32 &&& 0xff).toUInt32.toNat < 256 := by omega
  have mask : (0xff : UInt32).toNat = 2 ^ 8 - 1 := rfl
  simp only [readTimeout, writeTimeout, if_neg positive, readl_writel_same, readl_writel_other apart]
  rw [joined_toNat mask (by decide) byte, high_toNat, low]
  exact TwoBytes.join_split (by decide) value.toNat

/-- Only an accepted write changes a register. -/
theorem ioctl_registers {reg value : UInt32} {regs : Registers} (none : ¬AcceptedWrite reg value regs) :
    (fnFastUartIoctl reg value regs).2 = regs := by
  by_cases write : reg = writeUartTimeout
  · subst write
    have refused : value.toInt32 ≤ 0 := by
      by_contra positive
      exact none ⟨rfl, (congrArg Prod.fst (ioctl_write value regs)).trans (writeTimeout_returns positive regs)⟩
    rw [ioctl_write, writeTimeout_refused refused]
  · unfold fnFastUartIoctl
    rw [if_neg write]
    split
    · rfl
    · split <;> rfl

theorem ioctls_registers {calls : List (UInt32 × UInt32)} {regs : Registers} (none : NoAcceptedWrite calls regs) :
    ioctls calls regs = regs := by
  induction calls generalizing regs with
  | nil => rfl
  | cons call rest ih =>
    have same := ioctl_registers none.1
    rw [ioctls, same]
    exact ih (same ▸ none.2)

/-- Without its sign bit a word is the same number as an `int`. -/
theorem toInt_narrowed {word : UInt32} (small : word.toNat < 2 ^ 31) : word.toInt32.toInt = word.toNat := by
  rw [Int32.toInt, UInt32.toBitVec_toInt32, BitVec.toInt_eq_toNat_cond]
  simp only [UInt32.toNat_toBitVec]
  exact if_pos (by omega)

theorem read_after_write {value : UInt32} (positive : ¬value.toInt32 ≤ 0) (ignored : UInt32) (regs : Registers) :
    settingRead ignored (fnFastUartIoctl writeUartTimeout value regs).2 = (value.toNat % 2 ^ 16 : Nat) := by
  have written := readTimeout_written positive regs
  rw [settingRead, ioctl_read, ioctl_write, toInt_narrowed (by omega), written]

/-- The encoder takes every positive `int`, the decoder knows 16 bits: a value
is kept when it fits these, or is refused. -/
theorem timeoutKept_iff (value : UInt32) : TimeoutKept value ↔ value.toNat < 2 ^ 16 ∨ 2 ^ 31 ≤ value.toNat := by
  have sign := narrowed_nonpositive_iff value
  constructor
  · intro kept
    by_contra outside
    have positive : ¬value.toInt32 ≤ 0 := by rw [sign]; omega
    let start : Registers := fun _ => 0
    have zero : (fnFastUartIoctl writeUartTimeout value start).1 = 0 := by
      rw [ioctl_write]
      exact writeTimeout_returns positive start
    have same := (kept.accepted start zero [] trivial 0).1
    rw [ioctls, read_after_write positive] at same
    omega
  · intro fits
    refine ⟨?_, ?_⟩
    · intro regs accepted calls none ignored
      rw [ioctl_write] at accepted
      have positive := writeTimeout_accepts accepted
      have read := read_after_write positive ignored regs
      rw [ioctls_registers none, read]
      rw [sign] at positive
      omega
    · intro regs refused
      have nonpositive : value.toInt32 ≤ 0 := by
        by_contra positive
        exact refused (by rw [ioctl_write]; exact writeTimeout_returns positive regs)
      rw [ioctl_write, writeTimeout_refused nonpositive]
      exact ⟨rfl, rfl⟩

/-- 65536 is accepted and reads back as 0. -/
theorem timeout_lost : ¬TimeoutKept 0x10000 := by
  intro kept
  have zero := (kept.accepted (fun _ => 0) (by decide) [] trivial 0).2
  exact absurd zero (by decide)

end FlukeCda.FastUart
