import R3000.Device.Basic
import R3000.Text.Hex

/-!
# Interrupt controller

Devices raise lines in `status`, and a line that `mask` lets through reaches
the processor. A write replaces a whole register, so a line is acknowledged by
writing its bit as zero. Both registers are sixteen bits wide and read as zero
above.
-/

namespace R3000

structure InterruptController where
  status : UInt16 := 0
  mask : UInt16 := 0
deriving DecidableEq, Repr, Inhabited

namespace InterruptController

/-- The line of the DMA controller. -/
def dmaLine : UInt16 := 0x0008

/-- The line of timer `n`. -/
def timerLine (n : Fin 3) : UInt16 :=
  match n with
  | 0 => 0x0010
  | 1 => 0x0020
  | 2 => 0x0040

/-- Raise lines. -/
def request (c : InterruptController) (lines : UInt16) : InterruptController :=
  { c with status := c.status ||| lines }

/-- Whether a line that the mask lets through is raised. -/
def isPending (c : InterruptController) : Bool :=
  c.status &&& c.mask != 0

def writeStatus (c : InterruptController) (value : UInt32) : InterruptController :=
  { c with status := value.toUInt16 }

def writeMask (c : InterruptController) (value : UInt32) : InterruptController :=
  { c with mask := value.toUInt16 }

/-! ## Registers -/

def answers (offset : UInt32) : Bool :=
  offset == 0 || offset == 4

def readWord (c : InterruptController) (offset : UInt32) : UInt32 :=
  if offset == 0 then c.status.toUInt32
  else if offset == 4 then c.mask.toUInt32
  else 0

def writeWord (c : InterruptController) (offset value : UInt32) : InterruptController :=
  if offset == 0 then c.writeStatus value
  else if offset == 4 then c.writeMask value
  else c

/-! ## Notes -/

private def note (severity : Severity) (text : String) : Note :=
  ⟨severity, .interrupt, text⟩

def requestNotes (c : InterruptController) (lines : UInt16) : List Note :=
  [note .trace ("IRQ requested: 0x" ++ Hex.fixed 4 lines.toNat ++ ", status=0x" ++
    Hex.fixed 4 (c.request lines).status.toNat)]

def wordNotes (offset value : UInt32) : List Note :=
  if offset == 0 then [note .trace ("I_STAT = 0x" ++ Hex.fixed 4 value.toUInt16.toNat)]
  else if offset == 4 then [note .debug ("IRQ mask set: 0x" ++ Hex.fixed 4 value.toUInt16.toNat)]
  else []

/-- The register content that a write of any width leaves behind. -/
def merged (c : InterruptController) (w : Width) (offset value : UInt32) : UInt32 :=
  w.merge offset (c.readWord (wordAddress offset)) value

instance : Device InterruptController where
  name := "Interrupt Controller"
  first := 0x1F801070
  last := 0x1F801077
  readHole? := registerHole? answers
  writeHole? := registerHole? answers
  read c w offset := (w.lane offset (c.readWord (wordAddress offset)), c)
  write c w offset value := c.writeWord (wordAddress offset) (c.merged w offset value)
  writeNotes c w offset value := wordNotes (wordAddress offset) (c.merged w offset value)

end InterruptController

end R3000
