import Mathlib.Data.List.Basic
import Mathlib.Tactic

/-!
# The kyouko2 card, as `dmaBuffer.c` sees it

The driver talks to the card through 32-bit registers in the control region.
Two of them matter to the DMA engine: a write to `STREAMBUFFERACONFIG` starts a
transfer of that many bytes from the address last written to
`STREAMBUFFERAADDRESS`.  `started` is every transfer ever started, in order;
`busy` is those whose flush interrupt is still to come.

A register access reaches the card only while the control region is mapped
(between `ioremap_nocache` and `iounmap`).
-/

namespace LinuxKerDev.Dma

/-! ### Registers (`regdmaBuffer.h`, `macrodmaBuffer.h`) -/

def configReboot : UInt32 := 0x1000
def configModeset : UInt32 := 0x1008
def configInterrupt : UInt32 := 0x100C
def configAcceleration : UInt32 := 0x1010
def streamBufferAAddress : UInt32 := 0x2000
def streamBufferAConfig : UInt32 := 0x2008
def rasterClear : UInt32 := 0x3008
def rasterFlush : UInt32 := 0x3FFC
def infoStatus : UInt32 := 0x4008
def drawClearColorR : UInt32 := 0x5100
def drawClearColorG : UInt32 := 0x5104
def drawClearColorB : UInt32 := 0x5108
def drawClearColorAlpha : UInt32 := 0x510C
def frameColumns : UInt32 := 0x8000
def frameRows : UInt32 := 0x8004
def frameRowPitch : UInt32 := 0x8008
def framePixelFormat : UInt32 := 0x800C
def frameStartAddress : UInt32 := 0x8010
def encoderWidth : UInt32 := 0x9000
def encoderHeight : UInt32 := 0x9004
def encoderOffsetX : UInt32 := 0x9008
def encoderOffsetY : UInt32 := 0x900C
def encoderFrame : UInt32 := 0x9010

abbrev BUFFERS : Nat := 8

instance : NeZero BUFFERS := ⟨by decide⟩

/-- The bytes of one DMA buffer, `124*1024` everywhere in the source. -/
def bufferBytes : Nat := 124 * 1024

abbrev Transfer := UInt32 × UInt32

structure Device where
  mapped : Bool
  address : UInt32
  started : List Transfer
  busy : List Transfer
  deriving DecidableEq, Repr

namespace Device

def fresh : Device := { mapped := true, address := 0, started := [], busy := [] }

/-- The oldest transfer in flight completes: its flush interrupt is raised. -/
def flush (d : Device) : Device := { d with busy := d.busy.tail }

end Device

/-- `K_WRITE_REG`: `*(k_control_base + (reg>>2)) = value`.  Every register
offset the driver uses is a multiple of four. -/
def kWriteReg (d : Device) (reg value : UInt32) : Device :=
  if d.mapped = false then d
  else if reg = streamBufferAAddress then { d with address := value }
  else if reg = streamBufferAConfig then
    { d with started := d.started ++ [(d.address, value)], busy := d.busy ++ [(d.address, value)] }
  else d

/-- `sync`: polls `InfoFifoDepth` until it is zero.  The loop only reads, so
where it ends the card is as it was. -/
def sync (d : Device) : Device := d

def program (d : Device) (address count : UInt32) : Device :=
  kWriteReg (kWriteReg d streamBufferAAddress address) streamBufferAConfig count

section

variable {d : Device}

theorem program_mapped (h : d.mapped = true) (address count : UInt32) :
    program d address count =
      { d with address := address, started := d.started ++ [(address, count)],
               busy := d.busy ++ [(address, count)] } := by
  have hne : streamBufferAConfig ≠ streamBufferAAddress := by decide
  simp [program, kWriteReg, h, hne]

theorem program_started (h : d.mapped = true) (address count : UInt32) :
    (program d address count).started = d.started ++ [(address, count)] := by
  rw [program_mapped h]

theorem program_busy (h : d.mapped = true) (address count : UInt32) :
    (program d address count).busy = d.busy ++ [(address, count)] := by
  rw [program_mapped h]

theorem program_busy_ne_nil (h : d.mapped = true) (address count : UInt32) :
    (program d address count).busy ≠ [] := by
  rw [program_busy h]
  simp

theorem program_unmapped (h : d.mapped = false) (address count : UInt32) :
    program d address count = d := by
  simp [program, kWriteReg, h]

@[simp] theorem kWriteReg_mapped (d : Device) (reg value : UInt32) :
    (kWriteReg d reg value).mapped = d.mapped := by
  unfold kWriteReg
  split_ifs <;> rfl

@[simp] theorem program_keeps_mapped (d : Device) (address count : UInt32) :
    (program d address count).mapped = d.mapped := by
  simp [program]

theorem kWriteReg_other {reg : UInt32} (ha : reg ≠ streamBufferAAddress)
    (hc : reg ≠ streamBufferAConfig) (value : UInt32) : kWriteReg d reg value = d := by
  simp [kWriteReg, ha, hc]

@[simp] theorem kWriteReg_infoStatus (value : UInt32) : kWriteReg d infoStatus value = d :=
  kWriteReg_other (by decide) (by decide) value

@[simp] theorem sync_eq (d : Device) : sync d = d := rfl

@[simp] theorem flush_mapped (d : Device) : d.flush.mapped = d.mapped := rfl
@[simp] theorem flush_started (d : Device) : d.flush.started = d.started := rfl
@[simp] theorem flush_busy (d : Device) : d.flush.busy = d.busy.tail := rfl

end

end LinuxKerDev.Dma
