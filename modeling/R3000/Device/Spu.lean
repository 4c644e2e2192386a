import R3000.Device.Basic
import R3000.Text.Hex

/-!
# SPU registers

The sound unit shows 512 halfword registers: eight for each of 24 voices, then
the global block. The low six bits of its status register repeat those of its
control register.
-/

namespace R3000

structure Spu where
  registers : Array UInt16 := Array.replicate 512 0
deriving DecidableEq, Repr, Inhabited

namespace Spu

/-- Offset of the control register. -/
def controlOffset : UInt32 := 0x1AA

/-- Offset of the status register. -/
def statusOffset : UInt32 := 0x1AE

/-- Place of the halfword at `offset`; offsets beyond the block wrap around. -/
def index (offset : UInt32) : Nat :=
  ((offset >>> 1) &&& 0x1FF).toNat

def readHalf (s : Spu) (offset : UInt32) : UInt16 :=
  s.registers.getD (index offset) 0

def setHalf (s : Spu) (offset : UInt32) (value : UInt16) : Spu :=
  ⟨s.registers.setIfInBounds (index offset) value⟩

/-- Whether a write at `offset` goes to the control register by its own name. -/
def isControl (offset : UInt32) : Bool :=
  offset &&& 0xFFFFFFFE == controlOffset

/-- Write a halfword; the control register shows in the status register. -/
def writeHalf (s : Spu) (offset : UInt32) (value : UInt16) : Spu :=
  let written := s.setHalf offset value
  if isControl offset then
    written.setHalf statusOffset
      ((written.readHalf statusOffset &&& 0xFFC0) ||| (value &&& 0x003F))
  else written

/-- Register `reg` of voice `voice`. -/
def voiceRegister (s : Spu) (voice reg : UInt32) : UInt16 :=
  s.readHalf (voice * 0x10 + reg * 2)

/-! ## The control register -/

/-- How data moves between memory and sound memory. -/
inductive TransferMode where
  | stop
  | manualWrite
  | dmaWrite
  | dmaRead
deriving DecidableEq, Repr, Inhabited

def TransferMode.name : TransferMode → String
  | stop => "Stop"
  | manualWrite => "ManualWrite"
  | dmaWrite => "DMAWrite"
  | dmaRead => "DMARead"

/-- The fields of the control register. -/
structure Control where
  enabled : Bool
  unmute : Bool
  noiseClock : UInt16
  noiseStep : UInt16
  reverb : Bool
  irq : Bool
  transfer : TransferMode
  externalReverb : Bool
  cdReverb : Bool
  externalAudio : Bool
  cdAudio : Bool
deriving DecidableEq, Repr, Inhabited

def Control.ofBits (v : UInt16) : Control where
  enabled := v &&& 0x8000 != 0
  unmute := v &&& 0x4000 != 0
  noiseClock := (v >>> 10) &&& 0xF
  noiseStep := (v >>> 8) &&& 0x3
  reverb := v &&& 0x0080 != 0
  irq := v &&& 0x0040 != 0
  transfer :=
    let mode := (v >>> 4) &&& 3
    if mode == 0 then .stop else if mode == 1 then .manualWrite
    else if mode == 2 then .dmaWrite else .dmaRead
  externalReverb := v &&& 0x0008 != 0
  cdReverb := v &&& 0x0004 != 0
  externalAudio := v &&& 0x0002 != 0
  cdAudio := v &&& 0x0001 != 0

/-- The fields by name, in one line. -/
def Control.describe (c : Control) : String :=
  let fields := [
    "enabled: " ++ toString c.enabled,
    "unmute: " ++ toString c.unmute,
    "noise_clock: " ++ toString c.noiseClock,
    "noise_step: " ++ toString c.noiseStep,
    "reverb_enabled: " ++ toString c.reverb,
    "irq_enabled: " ++ toString c.irq,
    "transfer_mode: " ++ c.transfer.name,
    "external_audio_reverb: " ++ toString c.externalReverb,
    "cd_audio_reverb: " ++ toString c.cdReverb,
    "external_audio_enabled: " ++ toString c.externalAudio,
    "cd_audio_enabled: " ++ toString c.cdAudio]
  "SPUControl \x7b " ++ ", ".intercalate fields ++ " \x7d"

def control (s : Spu) : Control :=
  Control.ofBits (s.readHalf controlOffset)

/-! ## Access -/

def readByte (s : Spu) (offset : UInt32) : UInt32 :=
  Width.byte.truncate ((s.readHalf offset).toUInt32 >>> ((offset &&& 1) * 8))

/-- The halfword around `offset` with one byte replaced. -/
def mergeByte (s : Spu) (offset value : UInt32) : UInt16 :=
  let current := s.readHalf offset
  let byte := value.toUInt16
  if offset &&& 1 == 0 then (current &&& 0xFF00) ||| (byte &&& 0x00FF)
  else (current &&& 0x00FF) ||| (byte <<< (8 : UInt16))

def readWord (s : Spu) (offset : UInt32) : UInt32 :=
  (s.readHalf offset).toUInt32 ||| ((s.readHalf (offset + 2)).toUInt32 <<< 16)

def writeWord (s : Spu) (offset value : UInt32) : Spu :=
  (s.writeHalf offset value.toUInt16).writeHalf (offset + 2) (value >>> 16).toUInt16

/-! ## Notes -/

private def spuNote (severity : Severity) (text : String) : Note :=
  ⟨severity, .spu, text⟩

def halfNotes (offset : UInt32) (value : UInt16) : List Note :=
  if isControl offset then
    [spuNote .debug ("SPUCNT = 0x" ++ Hex.fixed 4 value.toNat ++ " (" ++
      (Control.ofBits value).describe ++ ")")]
  else
    [spuNote .trace ("SPU +0x" ++ Hex.padded 3 (offset &&& 0xFFFFFFFE).toNat ++ " = 0x" ++
      Hex.fixed 4 value.toNat)]

/-- Every offset answers. -/
instance : Device Spu where
  name := "SPU"
  first := 0x1F801C00
  last := 0x1F801FFF
  readHole? _ _ := none
  writeHole? _ _ := none
  read s w offset :=
    match w with
    | .byte => (s.readByte offset, s)
    | .half => ((s.readHalf offset).toUInt32, s)
    | .word => (s.readWord offset, s)
  write s w offset value :=
    match w with
    | .byte => s.writeHalf offset (s.mergeByte offset value)
    | .half => s.writeHalf offset value.toUInt16
    | .word => s.writeWord offset value
  writeNotes s w offset value :=
    match w with
    | .byte => halfNotes offset (s.mergeByte offset value)
    | .half => halfNotes offset value.toUInt16
    | .word =>
      halfNotes offset value.toUInt16 ++ halfNotes (offset + 2) (value >>> 16).toUInt16

end Spu

end R3000
