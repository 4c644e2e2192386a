import R3000.Device.Peripheral
import R3000.Memory

/-!
# The bus

The bus owns memory and every device, and takes each load and store to what
answers at its address. The upper quarter of the address space holds one
register, the cache control. Below it the segment bits are dropped and the
physical memory map decides.

An access first finds its *target*, which depends on the address, the width
and the direction alone, and may fail. Using a target cannot fail. So a refused
access changes nothing.
-/

namespace R3000

structure Bus where
  memory : Memory := Memory.blank
  cacheControl : UInt32 := 0
  /-- The cache is isolated: stores go to it and are lost. -/
  isolated : Bool := false
  interrupt : InterruptController := {}
  dma : Dma := {}
  timers : Timers := {}
  gpu : Gpu := {}
  spu : Spu := {}

/-- What answers an access. -/
inductive Target where
  /-- The cache control register, at one of its addresses. -/
  | cacheControl (address : UInt32)
  | cell (r : Region) (offset : Nat)
  | device (p : Peripheral) (offset : UInt32)
  | absent (name : String)
deriving DecidableEq, Repr

namespace Target

/-- Where the last kernel segment begins. -/
def controlSegment : UInt32 := 0xC0000000

/-- Address of the cache control register. -/
def cacheControlAddress : UInt32 := 0xFFFE0130

/-- The target of an access at a physical address of the I/O window, given
which offsets of a device do not answer. -/
def ofOccupant (hole? : Peripheral → Width → UInt32 → Option UInt32) (w : Width)
    (address : UInt32) : Except Error Target :=
  match Occupant.ofPhysical? address with
  | none => .error (.unmappedIo address w.bytes)
  | some .latch => .ok (.cell .ports (Region.ports.offset address))
  | some (.absent name) => .ok (.absent name)
  | some (.device p) =>
    match hole? p w (address - p.first) with
    | some _ => .error (.unmappedIo address w.bytes)
    | none => .ok (.device p (address - p.first))

/-- The target of an access at an address that is aligned to its width. -/
def ofAddress (hole? : Peripheral → Width → UInt32 → Option UInt32) (w : Width)
    (address : UInt32) : Except Error Target :=
  if controlSegment ≤ address then
    if wordAddress address == cacheControlAddress then .ok (.cacheControl address)
    else .error (.invalidMemoryAccess address)
  else
    match Region.ofPhysical (physical address) with
    | .ports => ofOccupant hole? w (physical address)
    | r => .ok (.cell r (r.offset (physical address)))

def ofLoad (w : Width) (address : UInt32) : Except Error Target :=
  ofAddress (fun p => Device.readHole? p.State) w (w.align address)

def ofStore (w : Width) (address : UInt32) : Except Error Target :=
  ofAddress (fun p => Device.writeHole? p.State) w (w.align address)

end Target

namespace Bus

/-! ## Devices -/

def device (b : Bus) : (p : Peripheral) → p.State
  | .interrupt => b.interrupt
  | .dma => b.dma
  | .timers => b.timers
  | .gpu => b.gpu
  | .spu => b.spu

def setDevice (b : Bus) : (p : Peripheral) → p.State → Bus
  | .interrupt, d => { b with interrupt := d }
  | .dma, d => { b with dma := d }
  | .timers, d => { b with timers := d }
  | .gpu, d => { b with gpu := d }
  | .spu, d => { b with spu := d }

/-- Read a device register. -/
def readDevice (b : Bus) (p : Peripheral) (w : Width) (offset : UInt32) : UInt32 × Bus :=
  let (value, d) := Device.read (b.device p) w offset
  (value, b.setDevice p d)

/-- Write a device register. -/
def writeDevice (b : Bus) (p : Peripheral) (w : Width) (offset value : UInt32) : Bus :=
  match p with
  | .interrupt => { b with interrupt := Device.write b.interrupt w offset value }
  | .dma => { b with dma := Device.write b.dma w offset value }
  | .timers => { b with timers := Device.write b.timers w offset value }
  | .gpu => { b with gpu := Device.write b.gpu w offset value }
  | .spu => { b with spu := Device.write b.spu w offset value }

/-! ## Targets -/

def read (b : Bus) (t : Target) (w : Width) : UInt32 × Bus :=
  match t with
  | .cacheControl address => (w.lane address b.cacheControl, b)
  | .cell r offset => (b.memory.load r w offset, b)
  | .device p offset => b.readDevice p w offset
  | .absent _ => (0, b)

/-- The BIOS keeps its content. -/
def write (b : Bus) (t : Target) (w : Width) (value : UInt32) : Bus :=
  match t with
  | .cacheControl address => { b with cacheControl := w.merge address b.cacheControl value }
  | .cell .bios _ => b
  | .cell r offset => { b with memory := b.memory.store r w offset value }
  | .device p offset => b.writeDevice p w offset (w.truncate value)
  | .absent _ => b

/-! ## Loads and stores -/

/-- Whether isolation keeps a store at `address` from the bus. -/
def hides (b : Bus) (w : Width) (address : UInt32) : Bool :=
  b.isolated && w.align address < Target.controlSegment

@[inline] def load (b : Bus) (w : Width) (address : UInt32) : Except Error (UInt32 × Bus) :=
  match Target.ofLoad w address with
  | .error e => .error e
  | .ok t => .ok (b.read t w)

@[inline] def store (b : Bus) (w : Width) (address value : UInt32) : Except Error Bus :=
  if b.hides w address then .ok b
  else
    match Target.ofStore w address with
    | .error e => .error e
    | .ok t => .ok (b.write t w value)

/-! ## The host's side -/

/-- Power-on state, but for the content of the BIOS. -/
def reset (b : Bus) : Bus :=
  { memory := b.memory.clear }

/-- Install a BIOS image. -/
def loadBios (b : Bus) (image : ByteArray) : Except Error Bus :=
  match Bank.ofBytes? Region.bios.size image with
  | some bios => .ok { b with memory := { b.memory with bios } }
  | none => .error (.invalidBiosSize Region.bios.size image.size)

/-- Write `data` to RAM from `address` on, wrapping at the end of RAM. -/
def copyToRam (b : Bus) (address : UInt32) (data : ByteArray) : Bus :=
  { b with memory := b.memory.copy (physical address) data }

/-- How many bytes a fill of `count` bytes writes: never more than RAM holds. -/
def fillCount (count : UInt32) : Nat :=
  min count.toNat Region.ram.size

/-- Write `value` to `count` bytes of RAM from `address` on. -/
def fillRam (b : Bus) (address count : UInt32) (value : UInt8) : Bus :=
  { b with memory := b.memory.fill (physical address) (fillCount count) value }

def setIsolated (b : Bus) (isolated : Bool) : Bus :=
  { b with isolated }

/-- Advance the devices by one step. The answer says whether an interrupt is
pending afterwards. -/
def tick (b : Bus) : Bool × Bus :=
  let (lines, timers) := b.timers.tick
  let interrupt := if lines == 0 then b.interrupt else b.interrupt.request lines
  (interrupt.isPending, { b with timers, interrupt })

/-- Report the end of a transfer on channel `ch`; the controller's interrupt is
raised when its master flag rises. -/
def completeDma (b : Bus) (ch : Fin 7) : Bus :=
  let (rose, dma) := b.dma.complete ch
  let interrupt :=
    if rose then b.interrupt.request InterruptController.dmaLine else b.interrupt
  { b with dma, interrupt }

/-! ## Notes -/

private def absentNote (what : String) (w : Width) (address : UInt32) (tail : String) : Note :=
  ⟨.warn, .ports, "Unimplemented " ++ what ++ " (" ++ toString w.bytes ++ " bytes) at " ++
    Hex.word address ++ tail⟩

/-- What a load reports. -/
def loadNotes (w : Width) (address : UInt32) : List Note :=
  match Target.ofLoad w address with
  | .ok (.absent name) => [absentNote (name ++ " read") w (physical (w.align address)) ""]
  | _ => []

/-- What a store reports. -/
def storeNotes (b : Bus) (w : Width) (address value : UInt32) : List Note :=
  if b.hides w address then
    [⟨.trace, .memory, "Isolated store to " ++ Hex.word (w.align address) ++ " dropped"⟩]
  else
    match Target.ofStore w address with
    | .ok (.cacheControl a) =>
      [⟨.debug, .cache, "Cache control = " ++ Hex.word (w.merge a b.cacheControl value)⟩]
    | .ok (.cell .bios _) =>
      [⟨.trace, .memory, "Ignoring write to BIOS ROM at " ++ Hex.word (w.align address)⟩]
    | .ok (.device p offset) => Device.writeNotes (b.device p) w offset (w.truncate value)
    | .ok (.absent name) =>
      [absentNote (name ++ " write") w (physical (w.align address))
        (": " ++ Hex.word (w.truncate value))]
    | _ => []

/-- What a change of isolation reports. -/
def isolationNotes (b : Bus) (isolated : Bool) : List Note :=
  if isolated = b.isolated then []
  else [⟨.debug, .cache, "Cache isolation " ++ if isolated then "on" else "off"⟩]

/-- What a tick reports. -/
def tickNotes (b : Bus) : List Note :=
  let lines := b.timers.tick.1
  if lines == 0 then [] else Timers.tickNotes lines ++ b.interrupt.requestNotes lines

/-- What the end of a transfer on channel `ch` reports. -/
def completeNotes (b : Bus) (ch : Fin 7) : List Note :=
  let requested :=
    if (b.dma.complete ch).1 then b.interrupt.requestNotes InterruptController.dmaLine else []
  b.dma.completeNotes ch ++ requested

/-- What a fill reports. -/
def fillNotes (address count : UInt32) : List Note :=
  if Region.ram.size < count.toNat then
    [⟨.warn, .memory, "RAM fill of 0x" ++ Hex.number count.toNat ++ " bytes at " ++
      Hex.word address ++ " clamped to 0x" ++ Hex.number Region.ram.size⟩]
  else []

end Bus

end R3000
