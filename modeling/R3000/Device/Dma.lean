import R3000.Device.Basic
import R3000.Text.Hex

/-!
# DMA controller

The register file of seven transfer channels, with the bookkeeping that a
transfer engine needs: which channels were started, and how the end of a
transfer shows in the interrupt register.
-/

namespace R3000

/-- The three registers of one channel. -/
structure DmaChannel where
  /-- Where in memory the transfer starts, 24 bits. -/
  base : UInt32 := 0
  /-- Size and count of the blocks. -/
  blockControl : UInt32 := 0
  /-- Direction in bit 0, mode in bits 9 and 10, start in bit 24, manual start in bit 28. -/
  control : UInt32 := 0
deriving DecidableEq, Repr, Inhabited

namespace DmaChannel

def isActive (c : DmaChannel) : Bool :=
  c.control &&& 0x01000000 != 0

/-- One when the transfer goes from memory to the device. -/
def direction (c : DmaChannel) : UInt32 :=
  c.control &&& 1

def syncMode (c : DmaChannel) : UInt32 :=
  (c.control >>> 9) &&& 3

def isTriggered (c : DmaChannel) : Bool :=
  c.control &&& 0x10000000 != 0

/-- A started channel may run, in mode zero only with the manual start as well. -/
def isReady (c : DmaChannel) : Bool :=
  c.isActive && (c.syncMode != 0 || c.isTriggered)

/-- Take back both start bits. -/
def stop (c : DmaChannel) : DmaChannel :=
  { c with control := c.control &&& ~~~0x11000000 }

end DmaChannel

structure Dma where
  channels : Vector DmaChannel 7 := Vector.replicate 7 {}
  /-- Priority of each channel in three bits, and its enable in the fourth. -/
  control : UInt32 := 0x07654321
  /-- Interrupt enables and flags. -/
  interrupt : UInt32 := 0
  /-- Two registers without a known use, kept as written. -/
  spare : Vector UInt32 2 := Vector.replicate 2 0
  /-- One bit for each channel started since they were last taken. -/
  triggered : UInt8 := 0
deriving DecidableEq, Repr, Inhabited

namespace Dma

/-- The channel that clears ordering tables; it always steps backward. -/
def orderingTable : Fin 7 := 6

/-- Whether the control register lets channel `ch` run. -/
def isEnabled (d : Dma) (ch : Fin 7) : Bool :=
  (d.control >>> (UInt32.ofNat (ch.val * 4 + 3))) &&& 1 != 0

/-- The bit of channel `ch` in a set of channels. -/
def channelBit (ch : Fin 7) : UInt8 :=
  1 <<< UInt8.ofNat ch.val

def modifyChannel (d : Dma) (ch : Fin 7) (f : DmaChannel → DmaChannel) : Dma :=
  { d with channels := d.channels.set ch (f d.channels[ch]) }

/-! ## The interrupt register -/

/-- Bit 31 of an interrupt register: forced by bit 15, or the enable of all in
bit 23 with some channel enabled and flagged. -/
def masterFlag (interrupt : UInt32) : Bool :=
  interrupt &&& 0x00008000 != 0 ||
    (interrupt &&& 0x00800000 != 0 && (interrupt >>> 16) &&& (interrupt >>> 24) &&& 0x7F != 0)

/-- Bring bit 31 up to date. -/
def withMasterFlag (interrupt : UInt32) : UInt32 :=
  if masterFlag interrupt then interrupt ||| 0x80000000 else interrupt &&& 0x7FFFFFFF

/-! ## Writes -/

def writeBase (d : Dma) (ch : Fin 7) (value : UInt32) : Dma :=
  d.modifyChannel ch ({ · with base := value &&& 0x00FFFFFF })

def writeBlockControl (d : Dma) (ch : Fin 7) (value : UInt32) : Dma :=
  d.modifyChannel ch ({ · with blockControl := value })

/-- What channel `ch` keeps of a value written to its control register. -/
def channelControl (ch : Fin 7) (value : UInt32) : UInt32 :=
  if ch = orderingTable then (value &&& 0x51000000) ||| 0x2 else value

/-- Whether a write of `value` to its control register starts channel `ch`. -/
def starts (d : Dma) (ch : Fin 7) (value : UInt32) : Bool :=
  ({ d.channels[ch] with control := channelControl ch value } : DmaChannel).isReady &&
    d.isEnabled ch

def writeChannelControl (d : Dma) (ch : Fin 7) (value : UInt32) : Dma :=
  let written := d.modifyChannel ch ({ · with control := channelControl ch value })
  if d.starts ch value then { written with triggered := d.triggered ||| channelBit ch }
  else written

def writeControl (d : Dma) (value : UInt32) : Dma :=
  { d with control := value }

/-- A one written to a flag clears it; the enables are replaced. -/
def writeInterrupt (d : Dma) (value : UInt32) : Dma :=
  let flags := (d.interrupt &&& 0x7F000000) &&& ~~~(value &&& 0x7F000000)
  { d with interrupt := withMasterFlag (flags ||| (value &&& 0x00FF803F)) }

/-! ## The transfer engine's side -/

/-- The channels started since the last call, in rising order. -/
def takeTriggered (d : Dma) : List (Fin 7) × Dma :=
  ((List.finRange 7).filter fun ch => d.triggered &&& channelBit ch != 0, { d with triggered := 0 })

/-- The interrupt register after a transfer on channel `ch` has ended. -/
def completedInterrupt (d : Dma) (ch : Fin 7) : UInt32 :=
  let enabled := d.interrupt &&& (1 <<< UInt32.ofNat (16 + ch.val)) != 0
  withMasterFlag
    (if enabled then d.interrupt ||| (1 <<< UInt32.ofNat (24 + ch.val)) else d.interrupt)

/-- Mark the transfer on channel `ch` as ended. The answer says whether bit 31
of the interrupt register rose. -/
def complete (d : Dma) (ch : Fin 7) : Bool × Dma :=
  let interrupt := d.completedInterrupt ch
  (d.interrupt &&& 0x80000000 == 0 && interrupt &&& 0x80000000 != 0,
    { d.modifyChannel ch DmaChannel.stop with interrupt })

/-! ## Registers -/

inductive Register where
  | base (ch : Fin 7)
  | blockControl (ch : Fin 7)
  | channelControl (ch : Fin 7)
  | control
  | interrupt
  | spare (i : Fin 2)
deriving DecidableEq, Repr

/-- The register at an offset, whose two lowest bits do not matter. -/
def Register.ofOffset? (offset : UInt32) : Option Register :=
  let ch := (offset >>> 4).toNat
  let slot := (offset >>> 2) &&& 3
  if h : ch < 7 then
    if slot == 0 then some (.base ⟨ch, h⟩)
    else if slot == 1 then some (.blockControl ⟨ch, h⟩)
    else if slot == 2 then some (.channelControl ⟨ch, h⟩)
    else none
  else if ch == 7 then
    if slot == 0 then some .control
    else if slot == 1 then some .interrupt
    else if slot == 2 then some (.spare 0)
    else some (.spare 1)
  else none

def readRegister (d : Dma) : Register → UInt32
  | .base ch => d.channels[ch].base
  | .blockControl ch => d.channels[ch].blockControl
  | .channelControl ch => d.channels[ch].control
  | .control => d.control
  | .interrupt => d.interrupt
  | .spare i => d.spare[i]

def writeRegister (d : Dma) (r : Register) (value : UInt32) : Dma :=
  match r with
  | .base ch => d.writeBase ch value
  | .blockControl ch => d.writeBlockControl ch value
  | .channelControl ch => d.writeChannelControl ch value
  | .control => d.writeControl value
  | .interrupt => d.writeInterrupt value
  | .spare i => { d with spare := d.spare.set i value }

/-! ## Notes -/

private def dmaNote (severity : Severity) (text : String) : Note :=
  ⟨severity, .dma, text⟩

private def channelName (ch : Fin 7) : String :=
  "DMA" ++ toString ch.val

def completeNotes (d : Dma) (ch : Fin 7) : List Note :=
  [dmaNote .trace (channelName ch ++ " complete, DICR=" ++ Hex.word (d.completedInterrupt ch))]

def registerNotes (d : Dma) (r : Register) (value : UInt32) : List Note :=
  match r with
  | .base ch => [dmaNote .trace (channelName ch ++ " MADR = " ++ Hex.word value)]
  | .blockControl ch => [dmaNote .trace (channelName ch ++ " BCR = " ++ Hex.word value)]
  | .channelControl ch =>
    let written := dmaNote .trace
      (channelName ch ++ " CHCR = " ++ Hex.word (channelControl ch value))
    if d.starts ch value then
      let c : DmaChannel := { d.channels[ch] with control := channelControl ch value }
      [written, dmaNote .debug (channelName ch ++ " started: addr=" ++ Hex.word c.base ++
        " bcr=" ++ Hex.word c.blockControl ++ " mode=" ++ toString c.syncMode)]
    else [written]
  | .control => [dmaNote .trace ("DPCR = " ++ Hex.word value)]
  | .interrupt => [dmaNote .trace ("DICR = " ++ Hex.word (d.writeInterrupt value).interrupt)]
  | .spare _ => []

def answers (offset : UInt32) : Bool :=
  (Register.ofOffset? offset).isSome

instance : Device Dma where
  name := "DMA"
  first := 0x1F801080
  last := 0x1F8010FF
  readHole? := registerHole? answers
  writeHole? := registerHole? answers
  read d w offset :=
    match Register.ofOffset? offset with
    | some r => (w.lane offset (d.readRegister r), d)
    | none => (0, d)
  write d w offset value :=
    match Register.ofOffset? offset with
    | some r => d.writeRegister r (w.merge offset (d.readRegister r) value)
    | none => d
  writeNotes d w offset value :=
    match Register.ofOffset? offset with
    | some r => d.registerNotes r (w.merge offset (d.readRegister r) value)
    | none => []

end Dma

end R3000
