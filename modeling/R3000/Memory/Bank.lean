import R3000.Width

/-!
# Banks of bytes

A bank is the backing store of a region: a fixed number of bytes, read and
written in little-endian order. Reading outside the bank gives zero and
writing there changes nothing.
-/

namespace R3000

structure Bank (size : Nat) where
  bytes : ByteArray
  size_eq : bytes.size = size

namespace Bank

variable {size : Nat}

instance : BEq (Bank size) where
  beq a b := a.bytes == b.bytes

/-! ## Blank storage -/

/-- `2 ^ k` zero bytes. -/
def zeros : Nat → ByteArray
  | 0 => ⟨#[0]⟩
  | k + 1 =>
    let lower := zeros k
    lower ++ lower

theorem size_zeros (k : Nat) : (zeros k).size = 1 <<< k := by
  induction k with
  | zero => rfl
  | succ k ih =>
    rw [zeros, ByteArray.size_append, ih, Nat.shiftLeft_succ]
    omega

/-- A bank of `2 ^ k` zero bytes. -/
def blank (k : Nat) : Bank (1 <<< k) :=
  ⟨zeros k, size_zeros k⟩

/-- The given bytes as a bank, if there are as many as it holds. -/
def ofBytes? (size : Nat) (bytes : ByteArray) : Option (Bank size) :=
  if h : bytes.size = size then some ⟨bytes, h⟩ else none

/-! ## Bytes -/

def get (b : Bank size) (i : Nat) : UInt8 :=
  if h : i < b.bytes.size then b.bytes[i] else 0

def set (b : Bank size) (i : Nat) (value : UInt8) : Bank size :=
  if h : i < b.bytes.size then
    ⟨b.bytes.set i value h, by
      rw [← ByteArray.size_data, ByteArray.data_set, Array.size_set, ByteArray.size_data,
        b.size_eq]⟩
  else b

/-! ## Little-endian values -/

def load (b : Bank size) (w : Width) (i : Nat) : UInt32 :=
  match w with
  | .byte => (b.get i).toUInt32
  | .half => (b.get i).toUInt32 ||| ((b.get (i + 1)).toUInt32 <<< 8)
  | .word =>
    (b.get i).toUInt32 ||| ((b.get (i + 1)).toUInt32 <<< 8) |||
      ((b.get (i + 2)).toUInt32 <<< 16) ||| ((b.get (i + 3)).toUInt32 <<< 24)

def store (b : Bank size) (w : Width) (i : Nat) (value : UInt32) : Bank size :=
  match w with
  | .byte => b.set i value.toUInt8
  | .half => (b.set i value.toUInt8).set (i + 1) (value >>> 8).toUInt8
  | .word =>
    (((b.set i value.toUInt8).set (i + 1) (value >>> 8).toUInt8).set
      (i + 2) (value >>> 16).toUInt8).set (i + 3) (value >>> 24).toUInt8

end Bank

end R3000
