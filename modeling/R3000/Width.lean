/-!
# Access widths

The bus moves bytes, halfwords and words. A value travels in a 32-bit word
whatever its width; an access ignores the address bits below its width.
A narrow access inside a 32-bit register uses one *lane* of that register.
-/

namespace R3000

inductive Width where
  | byte
  | half
  | word
deriving DecidableEq, Repr, Inhabited

namespace Width

/-- Size in bytes. -/
def bytes : Width → Nat
  | byte => 1
  | half => 2
  | word => 4

/-- The bits a value of this width may use. -/
def mask : Width → UInt32
  | byte => 0xFF
  | half => 0xFFFF
  | word => 0xFFFFFFFF

/-- `address` without the bits below the width. -/
def align (w : Width) (address : UInt32) : UInt32 :=
  match w with
  | byte => address
  | half => address &&& 0xFFFFFFFE
  | word => address &&& 0xFFFFFFFC

/-- Drop the bits of `value` that the width cannot carry. -/
def truncate (w : Width) (value : UInt32) : UInt32 :=
  value &&& w.mask

/-- Position of the lowest bit of the lane that `address` selects in its word. -/
def shift (w : Width) (address : UInt32) : UInt32 :=
  (w.align address &&& 3) * 8

/-- The lane of `content` that `address` selects. -/
def lane (w : Width) (address content : UInt32) : UInt32 :=
  w.truncate (content >>> w.shift address)

/-- `content` with the lane that `address` selects replaced by `value`. -/
def merge (w : Width) (address content value : UInt32) : UInt32 :=
  let selected := w.mask <<< w.shift address
  (content &&& ~~~selected) ||| ((value <<< w.shift address) &&& selected)

end Width

/-- The address of the word that holds `address`. -/
def wordAddress (address : UInt32) : UInt32 :=
  address &&& 0xFFFFFFFC

end R3000
