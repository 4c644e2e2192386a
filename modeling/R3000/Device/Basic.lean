import R3000.Error
import R3000.Note
import R3000.Width

/-!
# Devices

A device owns a range of physical addresses and answers accesses by their
offset in that range. Most devices have 32-bit registers and no others: a
narrow read gives one lane of a register, and a narrow write reads the
register, replaces the lane and writes the register back. A device whose
registers are narrower, or which refuses narrow writes, says so itself.

An offset at which no register answers is a *hole*. Holes are decided before
the device is touched, so that a refused access leaves it alone.
-/

namespace R3000

class Device (D : Type) where
  name : String
  /-- First and last physical address. -/
  first : UInt32
  last : UInt32
  /-- The offset that does not answer when `offset` is read. -/
  readHole? : Width → (offset : UInt32) → Option UInt32
  /-- The offset that does not answer when `offset` is written. -/
  writeHole? : Width → (offset : UInt32) → Option UInt32
  read : D → Width → (offset : UInt32) → UInt32 × D
  write : D → Width → (offset value : UInt32) → D
  /-- What a write reports. -/
  writeNotes : D → Width → (offset value : UInt32) → List Note

namespace Device

variable {D : Type} [Device D]

def contains (D : Type) [Device D] (address : UInt32) : Bool :=
  first D ≤ address && address ≤ last D

/-- The error for a register that does not answer. -/
def unmapped (D : Type) [Device D] (offset : UInt32) : Error :=
  .unmappedIo (first D + offset) 4

def load (d : D) (w : Width) (offset : UInt32) : Except Error (UInt32 × D) :=
  match readHole? D w offset with
  | some hole => .error (unmapped D hole)
  | none => .ok (read d w offset)

def store (d : D) (w : Width) (offset value : UInt32) : Except Error D :=
  match writeHole? D w offset with
  | some hole => .error (unmapped D hole)
  | none => .ok (write d w offset value)

end Device

/-- The hole that an access meets in a device of 32-bit registers, of which
`answers` says where they are. A narrow access uses the register around it. -/
def registerHole? (answers : UInt32 → Bool) (w : Width) (offset : UInt32) : Option UInt32 :=
  let used := match w with
    | .word => offset
    | _ => wordAddress offset
  if answers used then none else some used

end R3000
