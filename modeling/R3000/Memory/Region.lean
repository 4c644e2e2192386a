/-!
# The physical memory map

Three address bits select a segment and are dropped, so that every segment
shows the same physical addresses. These are cut into seven regions that
follow each other. A region repeats its backing store over its whole window:
two addresses in one window that agree under the region's mask name the same
byte.
-/

namespace R3000

/-- The physical address behind a virtual one. -/
def physical (address : UInt32) : UInt32 :=
  address &&& 0x1FFFFFFF

inductive Region where
  | ram
  | expansion1
  | scratchpad
  | ports
  | expansion2
  | expansion3
  | bios
deriving DecidableEq, Repr, Inhabited

namespace Region

/-- Every region, by rising address. -/
def all : List Region :=
  [ram, expansion1, scratchpad, ports, expansion2, expansion3, bios]

/-- Place in `all`. -/
def index : Region → Nat
  | ram => 0
  | expansion1 => 1
  | scratchpad => 2
  | ports => 3
  | expansion2 => 4
  | expansion3 => 5
  | bios => 6

def ofIndex? (i : Nat) : Option Region :=
  all[i]?

def name : Region → String
  | ram => "RAM"
  | expansion1 => "EXP1"
  | scratchpad => "Scratchpad"
  | ports => "I/O"
  | expansion2 => "EXP2"
  | expansion3 => "EXP3"
  | bios => "BIOS"

/-- First physical address of the region's window. -/
def first : Region → UInt32
  | ram => 0x00000000
  | expansion1 => 0x1F000000
  | scratchpad => 0x1F800000
  | ports => 0x1F801000
  | expansion2 => 0x1F802000
  | expansion3 => 0x1FA00000
  | bios => 0x1FC00000

/-- One past the last physical address of the region's window. -/
def limit : Region → UInt32
  | ram => 0x1F000000
  | expansion1 => 0x1F800000
  | scratchpad => 0x1F801000
  | ports => 0x1F802000
  | expansion2 => 0x1FA00000
  | expansion3 => 0x1FC00000
  | bios => 0x20000000

/-- The backing store holds two to this power of bytes. -/
def sizeLog2 : Region → Nat
  | ram => 21
  | expansion1 => 23
  | scratchpad => 10
  | ports => 13
  | expansion2 => 13
  | expansion3 => 21
  | bios => 19

/-- Bytes in the backing store. -/
def size (r : Region) : Nat :=
  1 <<< r.sizeLog2

/-- The address bits that tell bytes of the backing store apart. -/
def mask : Region → UInt32
  | ram => 0x001FFFFF
  | expansion1 => 0x007FFFFF
  | scratchpad => 0x000003FF
  | ports => 0x00001FFF
  | expansion2 => 0x00001FFF
  | expansion3 => 0x001FFFFF
  | bios => 0x0007FFFF

/-- Where a physical address falls in the backing store. -/
def offset (r : Region) (address : UInt32) : Nat :=
  (address &&& r.mask).toNat

/-- The region whose window holds a physical address. -/
def ofPhysical (address : UInt32) : Region :=
  if address < 0x1F000000 then ram
  else if address < 0x1F800000 then expansion1
  else if address < 0x1F801000 then scratchpad
  else if address < 0x1F802000 then ports
  else if address < 0x1FA00000 then expansion2
  else if address < 0x1FC00000 then expansion3
  else bios

/-- The region behind a virtual address. -/
def ofAddress (address : UInt32) : Region :=
  ofPhysical (physical address)

theorem mask_eq_size_sub_one (r : Region) : r.mask.toNat = r.size - 1 := by
  cases r <;> decide

theorem ofIndex?_index (r : Region) : ofIndex? r.index = some r := by
  cases r <;> rfl

end Region

end R3000
