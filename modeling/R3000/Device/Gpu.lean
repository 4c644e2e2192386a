import R3000.Device.Basic
import R3000.Text.Hex

/-!
# GPU ports

The processor sees the GPU through two words. Drawing words go into a queue
that the rasterizer drains; of a queue that is full the oldest word is lost.
Control words change the status register at once.
-/

namespace R3000

structure Gpu where
  /-- The status register, of which some ready bits are forced on when it is read. -/
  status : UInt32 := 0x14802000
  /-- Drawing words that wait for the rasterizer, oldest first. -/
  queue : Array UInt32 := #[]
  /-- The value that the next data read gives. -/
  latch : UInt32 := 0
  displayStart : UInt32 := 0
  horizontalRange : UInt32 := 0
  verticalRange : UInt32 := 0
deriving DecidableEq, Repr, Inhabited

namespace Gpu

/-- How many drawing words wait at most. -/
def queueCapacity : Nat := 4096

/-! ## Drawing words -/

/-- Queue a drawing word. -/
def submit (g : Gpu) (word : UInt32) : Gpu :=
  let waiting := if g.queue.size = queueCapacity then g.queue.extract 1 g.queue.size else g.queue
  { g with queue := waiting.push word }

/-- Take every waiting word, oldest first. -/
def drain (g : Gpu) : Array UInt32 × Gpu :=
  (g.queue, { g with queue := #[] })

/-! ## Control words -/

/-- A control word has its kind in the high byte and a parameter below. -/
inductive Control where
  | reset
  | clearQueue
  | acknowledge
  | displayEnable
  | dmaDirection
  | displayStart
  | horizontalRange
  | verticalRange
  | displayMode
  | info
  | unhandled
deriving DecidableEq, Repr

def Control.ofWord (word : UInt32) : Control :=
  match (word >>> 24).toNat with
  | 0x00 => reset
  | 0x01 => clearQueue
  | 0x02 => acknowledge
  | 0x03 => displayEnable
  | 0x04 => dmaDirection
  | 0x05 => displayStart
  | 0x06 => horizontalRange
  | 0x07 => verticalRange
  | 0x08 => displayMode
  | kind => if 0x10 ≤ kind ∧ kind ≤ 0x1F then info else unhandled

/-- The parameter of a control word. -/
def parameter (word : UInt32) : UInt32 :=
  word &&& 0x00FFFFFF

/-- Bit `source` of `p`, moved to bit `target`. -/
def moveBit (p source target : UInt32) : UInt32 :=
  ((p >>> source) &&& 1) <<< target

/-- The status bits that the display mode `p` stands for. -/
def displayModeBits (p : UInt32) : UInt32 :=
  moveBit p 0 17 ||| moveBit p 1 18 ||| moveBit p 2 19 ||| moveBit p 3 20 ||| moveBit p 4 21 |||
    moveBit p 5 22 ||| moveBit p 6 16 ||| moveBit p 7 14

/-- The answer to a request for information; only the version is known. -/
def infoValue (p : UInt32) : UInt32 :=
  if p &&& 7 == 7 then 2 else 0

/-- Carry out a control word. -/
def control (g : Gpu) (word : UInt32) : Gpu :=
  let p := parameter word
  match Control.ofWord word with
  | .reset => { g with status := 0x14802000, queue := #[], latch := 0 }
  | .clearQueue => { g with queue := #[] }
  | .acknowledge => { g with status := g.status &&& ~~~0x01000000 }
  | .displayEnable =>
    let off := p &&& 1 != 0
    { g with status := if off then g.status ||| 0x00800000 else g.status &&& ~~~0x00800000 }
  | .dmaDirection =>
    { g with status := (g.status &&& 0x9FFFFFFF) ||| ((p &&& 3) <<< (29 : UInt32)) }
  | .displayStart => { g with displayStart := p }
  | .horizontalRange => { g with horizontalRange := p }
  | .verticalRange => { g with verticalRange := p }
  | .displayMode => { g with status := (g.status &&& 0xFF80BFFF) ||| displayModeBits p }
  | .info => { g with latch := infoValue p }
  | .unhandled => g

/-! ## What is seen -/

/-- The status register as it is read, with the ready bits on. -/
def readStatus (g : Gpu) : UInt32 :=
  g.status ||| 0x1C000000

def displayDisabled (g : Gpu) : Bool :=
  g.status &&& 0x00800000 != 0

def dmaDirection (g : Gpu) : UInt32 :=
  (g.status >>> 29) &&& 3

def answers (offset : UInt32) : Bool :=
  offset == 0 || offset == 4

def readWord (g : Gpu) (offset : UInt32) : UInt32 :=
  if offset == 0 then g.latch
  else if offset == 4 then g.readStatus
  else 0

def writeWord (g : Gpu) (offset value : UInt32) : Gpu :=
  if offset == 0 then g.submit value
  else if offset == 4 then g.control value
  else g

/-! ## Notes -/

private def gpuNote (severity : Severity) (text : String) : Note :=
  ⟨severity, .gpu, text⟩

def submitNotes (g : Gpu) (word : UInt32) : List Note :=
  let queued := gpuNote .trace ("GP0 " ++ Hex.word word)
  if g.queue.size = queueCapacity then
    [gpuNote .trace "GP0 FIFO full, dropping oldest word", queued]
  else [queued]

def controlNotes (word : UInt32) : List Note :=
  let p := parameter word
  match Control.ofWord word with
  | .reset => [gpuNote .debug "GP1 reset GPU"]
  | .clearQueue => [gpuNote .debug "GP1 clear command buffer"]
  | .acknowledge => [gpuNote .debug "GP1 acknowledge IRQ1"]
  | .displayEnable =>
    [gpuNote .debug ("GP1 display " ++ if p &&& 1 != 0 then "off" else "on")]
  | .dmaDirection => [gpuNote .debug ("GP1 DMA direction " ++ toString (p &&& 3))]
  | .displayStart | .horizontalRange | .verticalRange => []
  | .displayMode =>
    [gpuNote .debug ("GP1 display mode 0x" ++ Hex.fixed 2 (p &&& 0xFF).toNat)]
  | .info => [gpuNote .debug ("GPU info request " ++ Hex.number (p &&& 0xF).toNat)]
  | .unhandled =>
    [gpuNote .warn ("Unhandled GP1 command 0x" ++ Hex.fixed 2 (word >>> 24).toNat ++
      " (" ++ Hex.word word ++ ")")]

def refusalNotes (bits digits : Nat) (offset value : UInt32) : List Note :=
  [gpuNote .warn ("Ignoring " ++ toString bits ++ "-bit GPU write +0x" ++
    Hex.number offset.toNat ++ " = 0x" ++ Hex.fixed digits value.toNat)]

/-- Narrow writes cannot form a command word and are dropped. -/
instance : Device Gpu where
  name := "GPU"
  first := 0x1F801810
  last := 0x1F801817
  readHole? := registerHole? answers
  writeHole? w offset :=
    match w with
    | .word => registerHole? answers w offset
    | _ => none
  read g w offset := (w.lane offset (g.readWord (wordAddress offset)), g)
  write g w offset value :=
    match w with
    | .word => g.writeWord offset value
    | _ => g
  writeNotes g w offset value :=
    match w with
    | .word =>
      if offset == 0 then g.submitNotes value
      else if offset == 4 then controlNotes value
      else []
    | .half => refusalNotes 16 4 offset value
    | .byte => refusalNotes 8 2 offset value

end Gpu

end R3000
