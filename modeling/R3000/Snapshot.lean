import R3000.Bus
import R3000.Cpu.State
import R3000.Snapshot.Timestamp
import R3000.Snapshot.Wire

/-!
# Snapshots

A snapshot holds all that a machine needs to go on later: the processor, the
content of every region but the BIOS, and the registers of every device. It is
written as bytes and read back; restoring one checks that it fits the machine
before anything is changed.
-/

namespace R3000

/-- Files are compared as bytes. -/
instance (priority := high) decidableEqBytes : DecidableEq ByteArray :=
  ByteArray.instDecidableEq

structure Snapshot where
  version : UInt32
  /-- When the snapshot was taken. -/
  timestamp : Timestamp
  cycles : UInt64
  cpu : Cpu
  /-- The content of each region in order; that of the BIOS is left empty. -/
  regions : Array ByteArray
  cacheControl : UInt32
  interrupt : InterruptController
  dma : Dma
  timers : Timers
  gpu : Gpu
  spu : Spu
deriving DecidableEq

namespace Snapshot

/-- The version of the layout. -/
def currentVersion : UInt32 := 1

/-! ## Capture and restore -/

/-- What a snapshot keeps of a region. -/
def regionBytes (m : Memory) (r : Region) : ByteArray :=
  if r = .bios then ByteArray.empty else (m.bank r).bytes

def capture (cpu : Cpu) (bus : Bus) (cycles : UInt64) (timestamp : Timestamp) : Snapshot where
  version := currentVersion
  timestamp
  cycles
  cpu
  regions := (Region.all.map (regionBytes bus.memory)).toArray
  cacheControl := bus.cacheControl
  interrupt := bus.interrupt
  dma := bus.dma
  timers := bus.timers
  gpu := bus.gpu
  spu := bus.spu

/-- Why a snapshot does not fit a machine. -/
inductive Mismatch where
  | regionCount (found : Nat)
  | regionSize (r : Region) (found : Nat)
deriving DecidableEq, Repr

def Mismatch.describe : Mismatch → String
  | regionCount found =>
    "expected " ++ toString Region.all.length ++ " memory regions, found " ++ toString found
  | regionSize r found =>
    r.name ++ " is " ++ toString found ++ " bytes, expected " ++ toString r.size

/-- The first region whose content has the wrong size. -/
def misfit? (s : Snapshot) : Option Mismatch :=
  if s.regions.size ≠ Region.all.length then some (.regionCount s.regions.size)
  else
    Region.all.findSome? fun r =>
      let size := (s.regions.getD r.index ByteArray.empty).size
      if r ≠ .bios ∧ size ≠ r.size then some (.regionSize r size) else none

def checkVersion (s : Snapshot) : Except Error Unit :=
  if s.version = currentVersion then .ok ()
  else .error (.saveStateVersion currentVersion s.version)

/-- Whether the snapshot fits a machine. -/
def check (s : Snapshot) : Except Error Unit := do
  s.checkVersion
  match s.misfit? with
  | some m => .error (.invalidSaveState m.describe)
  | none => .ok ()

/-- The kept content of a region, or what it held before if the sizes differ. -/
def bankOr (s : Snapshot) (r : Region) (old : Bank r.size) : Bank r.size :=
  ((s.regions[r.index]?).bind (Bank.ofBytes? r.size)).getD old

/-- The memory that the snapshot describes, with the BIOS of `m`. -/
def memory (s : Snapshot) (m : Memory) : Memory where
  ram := s.bankOr .ram m.ram
  expansion1 := s.bankOr .expansion1 m.expansion1
  scratchpad := s.bankOr .scratchpad m.scratchpad
  ports := s.bankOr .ports m.ports
  expansion2 := s.bankOr .expansion2 m.expansion2
  expansion3 := s.bankOr .expansion3 m.expansion3
  bios := m.bios

/-- The bus that the snapshot describes. Isolation is not kept; it follows
from the processor's Status. -/
def restoredBus (s : Snapshot) (bus : Bus) : Bus where
  memory := s.memory bus.memory
  cacheControl := s.cacheControl
  isolated := Status.isolates s.cpu.cop0.status
  interrupt := s.interrupt
  dma := s.dma
  timers := s.timers
  gpu := s.gpu
  spu := s.spu

/-- The processor that the snapshot describes. Register zero is zero, whatever
the snapshot says. -/
def restoredCpu (s : Snapshot) : Cpu :=
  { s.cpu with registers := s.cpu.registers.set 0 0 }

/-- What restoring reports. -/
def restoreNotes (s : Snapshot) (bus : Bus) : List Note :=
  bus.isolationNotes (Status.isolates s.cpu.cop0.status) ++
    [⟨.info, .saveState, "Restored save state from " ++ s.timestamp.display ++ " (cycles: " ++
      toString s.cycles ++ ")"⟩]

/-! ## Layout -/

section Layout

open Wire

instance : Wire Timestamp where
  put buffer t := put buffer t.render
  get := do Reader.ofOption (Timestamp.parse? (← get))

instance : Wire Cpu where
  put buffer c :=
    let buffer := put buffer c.registers
    let buffer := put buffer c.pc
    let buffer := put buffer c.nextPc
    let buffer := put buffer c.currentPc
    let buffer := put buffer c.currentInstruction
    let buffer := put buffer c.hi
    let buffer := put buffer c.lo
    put buffer c.cop0.registers
  get := do
    let registers ← get
    let pc ← get
    let nextPc ← get
    let currentPc ← get
    let currentInstruction ← get
    let hi ← get
    let lo ← get
    let cop0 ← get
    return { registers, pc, nextPc, currentPc, currentInstruction, hi, lo, cop0 := ⟨cop0⟩ }

instance : Wire InterruptController where
  put buffer c := put (put buffer c.status) c.mask
  get := do
    let status ← get
    let mask ← get
    return { status, mask }

instance : Wire DmaChannel where
  put buffer c := put (put (put buffer c.base) c.blockControl) c.control
  get := do
    let base ← get
    let blockControl ← get
    let control ← get
    return { base, blockControl, control }

instance : Wire Dma where
  put buffer d :=
    let buffer := put buffer d.channels
    let buffer := put buffer d.control
    let buffer := put buffer d.interrupt
    let buffer := put buffer d.spare
    put buffer d.triggered
  get := do
    let channels ← get
    let control ← get
    let interrupt ← get
    let spare ← get
    let triggered ← get
    return { channels, control, interrupt, spare, triggered }

instance : Wire TimerChannel where
  put buffer c := put (put (put (put buffer c.counter) c.mode) c.target) c.fired
  get := do
    let counter ← get
    let mode ← get
    let target ← get
    let fired ← get
    return { counter, mode, target, fired }

instance : Wire Timers where
  put buffer t := put buffer t.channels
  get := do return ⟨← get⟩

instance : Wire Gpu where
  put buffer g :=
    let buffer := put buffer g.status
    let buffer := put buffer g.queue
    let buffer := put buffer g.latch
    let buffer := put buffer g.displayStart
    let buffer := put buffer g.horizontalRange
    put buffer g.verticalRange
  get := do
    let status ← get
    let queue ← get
    let latch ← get
    let displayStart ← get
    let horizontalRange ← get
    let verticalRange ← get
    return { status, queue, latch, displayStart, horizontalRange, verticalRange }

instance : Wire Spu where
  put buffer s := put buffer s.registers
  get := do return ⟨← get⟩

instance : Wire Snapshot where
  put buffer s :=
    let buffer := put buffer s.version
    let buffer := put buffer s.timestamp
    let buffer := put buffer s.cycles
    let buffer := put buffer s.cpu
    let buffer := put buffer s.regions
    let buffer := put buffer s.cacheControl
    let buffer := put buffer s.interrupt
    let buffer := put buffer s.dma
    let buffer := put buffer s.timers
    let buffer := put buffer s.gpu
    put buffer s.spu
  get := do
    let version ← get
    let timestamp ← get
    let cycles ← get
    let cpu ← get
    let regions ← get
    let cacheControl ← get
    let interrupt ← get
    let dma ← get
    let timers ← get
    let gpu ← get
    let spu ← get
    return { version, timestamp, cycles, cpu, regions, cacheControl, interrupt, dma, timers, gpu,
             spu }

end Layout

/-- The snapshot as bytes. -/
def encode (s : Snapshot) : ByteArray :=
  Wire.put ByteArray.empty s

/-- Read a snapshot of the current version. Bytes behind it are ignored. -/
def decode (bytes : ByteArray) : Except Error Snapshot :=
  match (Wire.get : Reader Snapshot) bytes 0 with
  | none => .error .saveStateDecode
  | some (s, _) => do
    s.checkVersion
    return s

end Snapshot

end R3000
