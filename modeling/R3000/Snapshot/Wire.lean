/-!
# Wire format

How values are laid out as bytes in a save state. Fields follow each other
without marks between them. Bytes and truth values take one byte. Wider
numbers take one byte below 251; a larger number is led by 251, 252 or 253 and
takes two, four or eight bytes, least significant first. Sequences whose
length is not fixed begin with it.

A number need not be written in its shortest form to be read, but a form wider
than its type is refused.
-/

namespace R3000

/-- Reads a value at a position, and gives the position behind it. -/
def Reader (α : Type) : Type :=
  ByteArray → Nat → Option (α × Nat)

namespace Reader

instance : Monad Reader where
  pure a := fun _ pos => some (a, pos)
  bind r f := fun bytes pos =>
    match r bytes pos with
    | some (a, pos) => f a bytes pos
    | none => none

/-- Refuse. -/
def refuse {α : Type} : Reader α :=
  fun _ _ => none

def ofOption {α : Type} : Option α → Reader α
  | some a => pure a
  | none => refuse

def byte : Reader UInt8 :=
  fun bytes pos => if h : pos < bytes.size then some (bytes[pos], pos + 1) else none

/-- The next `count` bytes. -/
def take (count : Nat) : Reader ByteArray :=
  fun bytes pos =>
    if count ≤ bytes.size - pos ∧ pos ≤ bytes.size then
      some (bytes.extract pos (pos + count), pos + count)
    else none

/-- A number in `count` bytes, least significant first. -/
def littleEndian : (count : Nat) → Reader Nat
  | 0 => pure 0
  | count + 1 => do
    let low ← byte
    let high ← littleEndian count
    return low.toNat + 256 * high

/-- A number of at most `width` bytes. -/
def number (width : Nat) : Reader Nat := do
  let first ← byte
  if first < 251 then return first.toNat
  else if first == 251 then littleEndian 2
  else if first == 252 ∧ 4 ≤ width then littleEndian 4
  else if first == 253 ∧ 8 ≤ width then littleEndian 8
  else refuse

/-- `count` values, added to those already read. -/
def many {α : Type} (item : Reader α) : (count : Nat) → Array α → Reader (Array α)
  | 0, read => pure read
  | count + 1, read => fun bytes pos =>
    match item bytes pos with
    | some (a, pos) => many item count (read.push a) bytes pos
    | none => none

/-- Exactly `count` values. -/
def vector {α : Type} (item : Reader α) : (count : Nat) → Reader (Vector α count)
  | 0 => pure #v[]
  | count + 1 => do
    let first ← vector item count
    let last ← item
    return first.push last

end Reader

/-! ## Numbers -/

/-- Add a number in `count` bytes, least significant first. -/
def putLittleEndian (buffer : ByteArray) : (count n : Nat) → ByteArray
  | 0, _ => buffer
  | count + 1, n => putLittleEndian (buffer.push (UInt8.ofNat n)) count (n / 256)

/-- Add a number in its shortest form. -/
def putNumber (buffer : ByteArray) (n : Nat) : ByteArray :=
  if n < 251 then buffer.push (UInt8.ofNat n)
  else if n < UInt16.size then putLittleEndian (buffer.push 251) 2 n
  else if n < UInt32.size then putLittleEndian (buffer.push 252) 4 n
  else putLittleEndian (buffer.push 253) 8 n

/-! ## Types -/

/-- Types that have a layout as bytes. -/
class Wire (α : Type) where
  /-- Add a value to a buffer. -/
  put : ByteArray → α → ByteArray
  get : Reader α

namespace Wire

instance : Wire UInt8 where
  put := ByteArray.push
  get := Reader.byte

instance : Wire Bool where
  put buffer b := buffer.push (if b then 1 else 0)
  get := do
    let b ← Reader.byte
    if b == 0 then return false
    else if b == 1 then return true
    else Reader.refuse

instance : Wire UInt16 where
  put buffer n := putNumber buffer n.toNat
  get := do return UInt16.ofNat (← Reader.number 2)

instance : Wire UInt32 where
  put buffer n := putNumber buffer n.toNat
  get := do return UInt32.ofNat (← Reader.number 4)

instance : Wire UInt64 where
  put buffer n := putNumber buffer n.toNat
  get := do return UInt64.ofNat (← Reader.number 8)

/-- Bytes, led by their count. -/
instance : Wire ByteArray where
  put buffer bytes := putNumber buffer bytes.size ++ bytes
  get := do Reader.take (← Reader.number 8)

/-- Text as the bytes of its UTF-8 form. -/
instance : Wire String where
  put buffer text := put buffer text.toUTF8
  get := do Reader.ofOption (String.fromUTF8? (← get))

variable {α : Type} [Wire α]

/-- Values, led by their count. -/
instance : Wire (Array α) where
  put buffer items := items.foldl put (putNumber buffer items.size)
  get := do Reader.many get (← Reader.number 8) #[]

/-- A fixed count of values. -/
instance {n : Nat} : Wire (Vector α n) where
  put buffer items := items.toArray.foldl put buffer
  get := Reader.vector get n

end Wire

end R3000
