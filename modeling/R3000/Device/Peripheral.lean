import R3000.Device.Dma
import R3000.Device.Gpu
import R3000.Device.Spu
import R3000.Device.Timer

/-!
# Peripherals

The devices of the machine by name, and the map of the I/O window: which
addresses hold plain bytes, which belong to a device, and which belong to a
device that is known but absent.
-/

namespace R3000

inductive Peripheral where
  | interrupt
  | dma
  | timers
  | gpu
  | spu
deriving DecidableEq, Repr, Inhabited

namespace Peripheral

/-- The registers of each device. -/
abbrev State : Peripheral → Type
  | interrupt => InterruptController
  | dma => Dma
  | timers => Timers
  | gpu => Gpu
  | spu => Spu

instance instDeviceState : (p : Peripheral) → Device p.State
  | interrupt => inferInstanceAs (Device InterruptController)
  | dma => inferInstanceAs (Device Dma)
  | timers => inferInstanceAs (Device Timers)
  | gpu => inferInstanceAs (Device Gpu)
  | spu => inferInstanceAs (Device Spu)

def name (p : Peripheral) : String :=
  Device.name p.State

def first (p : Peripheral) : UInt32 :=
  Device.first p.State

def last (p : Peripheral) : UInt32 :=
  Device.last p.State

def contains (p : Peripheral) (address : UInt32) : Bool :=
  Device.contains p.State address

end Peripheral

/-- What answers at an address of the I/O window. -/
inductive Occupant where
  /-- Plain bytes without further meaning. -/
  | latch
  | device (p : Peripheral)
  /-- A device that is not there: it reads as zero and takes no writes. -/
  | absent (name : String)
deriving DecidableEq, Repr

/-- The map of the I/O window; addresses that are not on it are vacant. -/
def Occupant.ofPhysical? (address : UInt32) : Option Occupant :=
  let within (first last : UInt32) : Bool := first ≤ address && address ≤ last
  if within 0x1F801000 0x1F801023 then some .latch
  else if within 0x1F801040 0x1F80105F then some (.absent "SIO")
  else if within 0x1F801060 0x1F801063 then some .latch
  else if within 0x1F801070 0x1F801077 then some (.device .interrupt)
  else if within 0x1F801080 0x1F8010FF then some (.device .dma)
  else if within 0x1F801100 0x1F80112F then some (.device .timers)
  else if within 0x1F801800 0x1F801803 then some (.absent "CD-ROM")
  else if within 0x1F801810 0x1F801817 then some (.device .gpu)
  else if within 0x1F801820 0x1F801827 then some (.absent "MDEC")
  else if within 0x1F801C00 0x1F801FFF then some (.device .spu)
  else none

end R3000
