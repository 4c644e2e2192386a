/-!
# Arithmetic on words

A word stands for an unsigned number, or in two's complement for a signed one.
-/

namespace R3000.Arithmetic

def isNegative (a : UInt32) : Bool :=
  0x80000000 ≤ a

/-- A sum does not fit when both operands have one sign and it has the other. -/
def addOverflows (a b : UInt32) : Bool :=
  isNegative a == isNegative b && isNegative (a + b) != isNegative a

/-- A difference does not fit when the operands differ in sign and it has the
sign of the second. -/
def subOverflows (a b : UInt32) : Bool :=
  isNegative a != isNegative b && isNegative (a - b) != isNegative a

def signedLt (a b : UInt32) : Bool :=
  a.toInt32 < b.toInt32

/-- Move right and fill with the sign. -/
def shiftRightSigned (a amount : UInt32) : UInt32 :=
  (a.toInt32 >>> amount.toInt32).toUInt32

def ofBool (b : Bool) : UInt32 :=
  if b then 1 else 0

/-- A byte, extended by its sign. -/
def extendByte (a : UInt32) : UInt32 :=
  a.toUInt8.toInt8.toInt32.toUInt32

/-- A halfword, extended by its sign. -/
def extendHalf (a : UInt32) : UInt32 :=
  a.toUInt16.toInt16.toInt32.toUInt32

/-! ## Products and quotients -/

/-- The two words that a multiplication or a division leaves. -/
structure HiLo where
  hi : UInt32
  lo : UInt32
deriving DecidableEq, Repr

def HiLo.ofDouble (v : UInt64) : HiLo :=
  ⟨(v >>> 32).toUInt32, v.toUInt32⟩

def multiplySigned (a b : UInt32) : HiLo :=
  .ofDouble (a.toInt32.toInt64 * b.toInt32.toInt64).toUInt64

def multiplyUnsigned (a b : UInt32) : HiLo :=
  .ofDouble (a.toUInt64 * b.toUInt64)

/-- Quotient in `lo`, rounded toward zero, and remainder in `hi`. Division by
zero leaves all ones and the dividend; the one quotient that does not fit
leaves the dividend and zero. -/
def divideSigned (a b : UInt32) : HiLo :=
  if b == 0 then ⟨a, 0xFFFFFFFF⟩
  else if a == 0x80000000 && b == 0xFFFFFFFF then ⟨0, 0x80000000⟩
  else ⟨(a.toInt32 % b.toInt32).toUInt32, (a.toInt32 / b.toInt32).toUInt32⟩

/-- Quotient in `lo` and remainder in `hi`. -/
def divideUnsigned (a b : UInt32) : HiLo :=
  if b == 0 then ⟨a, 0xFFFFFFFF⟩ else ⟨a % b, a / b⟩

/-! ## Words across an alignment boundary -/

/-- The high bytes of `register` replaced by the low bytes of `memory`, up to
and including the byte at `address`. -/
def loadLeft (address memory register : UInt32) : UInt32 :=
  let low := address &&& 3
  if low == 0 then (register &&& 0x00FFFFFF) ||| (memory <<< (24 : UInt32))
  else if low == 1 then (register &&& 0x0000FFFF) ||| (memory <<< (16 : UInt32))
  else if low == 2 then (register &&& 0x000000FF) ||| (memory <<< (8 : UInt32))
  else memory

/-- The low bytes of `register` replaced by the high bytes of `memory`, from
the byte at `address` on. -/
def loadRight (address memory register : UInt32) : UInt32 :=
  let low := address &&& 3
  if low == 0 then memory
  else if low == 1 then (register &&& 0xFF000000) ||| (memory >>> (8 : UInt32))
  else if low == 2 then (register &&& 0xFFFF0000) ||| (memory >>> (16 : UInt32))
  else (register &&& 0xFFFFFF00) ||| (memory >>> (24 : UInt32))

/-- The low bytes of `memory`, up to and including the byte at `address`,
replaced by the high bytes of `register`. -/
def storeLeft (address memory register : UInt32) : UInt32 :=
  let low := address &&& 3
  if low == 0 then (memory &&& 0xFFFFFF00) ||| (register >>> (24 : UInt32))
  else if low == 1 then (memory &&& 0xFFFF0000) ||| (register >>> (16 : UInt32))
  else if low == 2 then (memory &&& 0xFF000000) ||| (register >>> (8 : UInt32))
  else register

/-- The high bytes of `memory`, from the byte at `address` on, replaced by the
low bytes of `register`. -/
def storeRight (address memory register : UInt32) : UInt32 :=
  let low := address &&& 3
  if low == 0 then register
  else if low == 1 then (memory &&& 0x000000FF) ||| (register <<< (8 : UInt32))
  else if low == 2 then (memory &&& 0x0000FFFF) ||| (register <<< (16 : UInt32))
  else (memory &&& 0x00FFFFFF) ||| (register <<< (24 : UInt32))

end R3000.Arithmetic
