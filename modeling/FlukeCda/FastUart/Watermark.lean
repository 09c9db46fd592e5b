import FlukeCda.FastUart.Port
import FlukeCda.FastUart.Registers

/-! # The receive watermark

`write_watermark` and the settings `fn_fast_uart_probe` starts from. The level
must be above the burst length: a burst that empties the fifo suppresses the
receive timeout.
-/

namespace FlukeCda.FastUart

def fnFastBurstLength : Nat := 16
def EINVAL : Int32 := 22

def writeWatermark (watermarkLevel : UInt32) (regs : Registers) : Int32 × Registers :=
  if fnFastUartRxFifoSize < watermarkLevel.toNat ∨ watermarkLevel.toNat ≤ fnFastBurstLength then (- EINVAL, regs)
  else
    let regs := writel ((watermarkLevel &&& 0xff00) >>> 8) uartWatermarkMsb regs
    let regs := writel (watermarkLevel &&& 0xff) uartWatermarkLsb regs
    (0, regs)

/-- The registers as `fn_fast_uart_probe` leaves them. -/
def probeSettings (regs : Registers) : Registers :=
  (writeTimeout 600 (writeWatermark (UInt32.ofNat (fnFastBurstLength + 1)) regs).2).2

/-- The number that `READ_UART_WATERMARK` returns; the value passed with it is ignored. -/
def watermarkRead (ignored : UInt32) (regs : Registers) : Int := (fnFastUartIoctl readUartWatermark ignored regs).1.toInt

/-- A level that leaves something in the fifo after a burst and that the fifo can reach. -/
def Workable (level : UInt32) : Prop := fnFastBurstLength < level.toNat ∧ level.toNat ≤ fnFastUartRxFifoSize

instance (level : UInt32) : Decidable (Workable level) := inferInstanceAs (Decidable (_ ∧ _))

/-- The promise of the codec for one level and one state of the registers. -/
structure WatermarkKept (level : UInt32) (regs : Registers) : Prop where
  accepted_iff : (writeWatermark level regs).1 = 0 ↔ Workable level
  read_back : (writeWatermark level regs).1 = 0 → readWatermark (writeWatermark level regs).2 = level
  refused : (writeWatermark level regs).1 ≠ 0 → writeWatermark level regs = (- EINVAL, regs)

/-- The check of `write_watermark` turns away what is not workable. -/
theorem turned_away_iff (level : UInt32) :
    (fnFastUartRxFifoSize < level.toNat ∨ level.toNat ≤ fnFastBurstLength) ↔ ¬Workable level := by
  rw [Workable]
  omega

theorem writeWatermark_refused {level : UInt32} (outside : ¬Workable level) (regs : Registers) :
    writeWatermark level regs = (- EINVAL, regs) := if_pos ((turned_away_iff level).mpr outside)

theorem writeWatermark_accepted {level : UInt32} (workable : Workable level) (regs : Registers) :
    writeWatermark level regs = ((0 : Int32), writel (level &&& 0xff) uartWatermarkLsb
      (writel ((level &&& 0xff00) >>> 8) uartWatermarkMsb regs)) :=
  if_neg fun outside => (turned_away_iff level).mp outside workable

/-- The reader keeps five bits of the upper byte, which hold every workable level. -/
theorem readWatermark_written {level : UInt32} (workable : Workable level) (regs : Registers) :
    readWatermark (writeWatermark level regs).2 = level := by
  have apart : uartWatermarkMsb ≠ uartWatermarkLsb := by decide
  have mask : (0x1f : UInt32).toNat = 2 ^ 5 - 1 := rfl
  have high : ((level &&& 0xff00) >>> 8).toNat = level.toNat / 256 % 256 := TwoBytes.mask_high level.toNat
  have low : (level &&& 0xff).toNat = level.toNat % 256 := TwoBytes.mask_low level.toNat
  have byte : (level &&& 0xff).toNat < 256 := by omega
  have small : level.toNat ≤ 0x800 := workable.2
  apply UInt32.toNat_inj.mp
  simp only [readWatermark, writeWatermark_accepted workable, readl_writel_same, readl_writel_other apart]
  rw [joined_toNat mask (by decide) byte, high, low, TwoBytes.join_split (by decide)]
  exact Nat.mod_eq_of_lt (by omega)

theorem watermarkKept (level : UInt32) (regs : Registers) : WatermarkKept level regs := by
  have refusal : - EINVAL ≠ 0 := by decide
  by_cases workable : Workable level
  · have zero : (writeWatermark level regs).1 = 0 := by rw [writeWatermark_accepted workable]
    exact ⟨iff_of_true zero workable, fun _ => readWatermark_written workable regs, absurd zero⟩
  · have refused := writeWatermark_refused workable regs
    have nonzero : (writeWatermark level regs).1 ≠ 0 := by rw [refused]; exact refusal
    exact ⟨iff_of_false nonzero workable, fun zero => absurd zero nonzero, fun _ => refused⟩

/-- Two register files with the same watermark. -/
def SameWatermark (regs other : Registers) : Prop := readWatermark regs = readWatermark other

theorem writeTimeout_watermark (timeout : Int32) (regs : Registers) :
    SameWatermark (writeTimeout timeout regs).2 regs := by
  have msbMsb : uartWatermarkMsb ≠ uartTimeoutMsb := by decide
  have msbLsb : uartWatermarkMsb ≠ uartTimeoutLsb := by decide
  have lsbMsb : uartWatermarkLsb ≠ uartTimeoutMsb := by decide
  have lsbLsb : uartWatermarkLsb ≠ uartTimeoutLsb := by decide
  unfold SameWatermark writeTimeout
  split
  · rfl
  · simp only [readWatermark, readl_writel_other msbMsb, readl_writel_other msbLsb, readl_writel_other lsbMsb,
      readl_writel_other lsbLsb]

/-- No command of the ioctl reaches the watermark registers. -/
theorem ioctl_watermark (reg value : UInt32) (regs : Registers) :
    SameWatermark (fnFastUartIoctl reg value regs).2 regs := by
  by_cases accepted : AcceptedWrite reg value regs
  · obtain ⟨rfl, -⟩ := accepted
    rw [ioctl_write]
    exact writeTimeout_watermark value.toInt32 regs
  · rw [ioctl_registers accepted]
    exact rfl

theorem ioctls_watermark (calls : List (UInt32 × UInt32)) (regs : Registers) :
    SameWatermark (ioctls calls regs) regs := by
  induction calls generalizing regs with
  | nil => rfl
  | cons call rest ih => exact (ih _).trans (ioctl_watermark call.1 call.2 regs)

theorem probe_watermark (regs : Registers) : readWatermark (probeSettings regs) = UInt32.ofNat (fnFastBurstLength + 1) :=
  (writeTimeout_watermark 600 _).trans (readWatermark_written (by decide) regs)

/-- One above the burst length, and no call changes that. -/
theorem watermark_after (calls : List (UInt32 × UInt32)) (regs : Registers) :
    readWatermark (ioctls calls (probeSettings regs)) = UInt32.ofNat (fnFastBurstLength + 1) :=
  (ioctls_watermark calls _).trans (probe_watermark regs)

theorem watermarkRead_eq (ignored : UInt32) (regs : Registers) (small : (readWatermark regs).toNat < 2 ^ 31) :
    watermarkRead ignored regs = (readWatermark regs).toNat := by
  rw [watermarkRead, fnFastUartIoctl, if_pos rfl]
  exact toInt_narrowed small

theorem watermark_codec_and_bound :
    (∀ level regs, WatermarkKept level regs) ∧
    ∀ regs calls ignored, Workable (readWatermark (ioctls calls (probeSettings regs))) ∧
      fnFastBurstLength < watermarkRead ignored (ioctls calls (probeSettings regs)) ∧
      watermarkRead ignored (ioctls calls (probeSettings regs)) ≤ fnFastUartRxFifoSize := by
  refine ⟨watermarkKept, ?_⟩
  intro regs calls ignored
  have level := watermark_after calls regs
  have read := watermarkRead_eq ignored (ioctls calls (probeSettings regs)) (by rw [level]; decide)
  rw [read, level]
  decide

end FlukeCda.FastUart
