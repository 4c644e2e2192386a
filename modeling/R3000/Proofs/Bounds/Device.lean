import Mathlib.Algebra.Group.Nat.Defs
import R3000.Device.Peripheral
import R3000.Memory.Bank

/-!
# Bounds of device accesses

An access computes indices, sums and shifts, and on a machine with checks each
of them can go out of range. Beside each function that does so stands one with
a question mark: it gives nothing where an index has no place in its table, a
sum or a product has no place in a word, or a shift moves everything out.
Indices that a `Fin` bounds and shifts by a fixed amount need no check.
-/

namespace R3000

/-! ## Words -/

def sum? (a b : UInt32) : Option UInt32 :=
  if a.toNat + b.toNat < 2 ^ 32 then some (a + b) else none

def difference? (a b : UInt32) : Option UInt32 :=
  if b ≤ a then some (a - b) else none

def product? (a b : UInt32) : Option UInt32 :=
  if a.toNat * b.toNat < 2 ^ 32 then some (a * b) else none

def shiftedLeft? (a amount : UInt32) : Option UInt32 :=
  if amount < 32 then some (a <<< amount) else none

def shiftedRight? (a amount : UInt32) : Option UInt32 :=
  if amount < 32 then some (a >>> amount) else none

theorem sum?_eq {a b : UInt32} (h : a.toNat + b.toNat < 2 ^ 32) : sum? a b = some (a + b) :=
  if_pos h

theorem toNat_and_le (a m : UInt32) : (a &&& m).toNat ≤ m.toNat :=
  Nat.and_le_right

theorem product?_and (a : UInt32) {m : UInt32} (hm : m.toNat * 8 < 2 ^ 32) :
    product? (a &&& m) 8 = some ((a &&& m) * 8) :=
  if_pos (Nat.lt_of_le_of_lt (Nat.mul_le_mul_right 8 (toNat_and_le a m)) hm)

theorem and_mul_lt (a : UInt32) {m n : UInt32} (hm : m.toNat * 8 < n.toNat) :
    (a &&& m) * 8 < n := by
  rw [UInt32.lt_iff_toNat_lt, UInt32.toNat_mul]
  have h := Nat.mul_le_mul_right 8 (toNat_and_le a m)
  exact Nat.lt_of_le_of_lt (Nat.mod_le _ _) (Nat.lt_of_le_of_lt h hm)

namespace Width

variable (w : Width) (address content value : UInt32)

def shift? : Option UInt32 :=
  product? (w.align address &&& 3) 8

def lane? : Option UInt32 := do
  let shift ← w.shift? address
  let moved ← shiftedRight? content shift
  return w.truncate moved

def merge? : Option UInt32 := do
  let shift ← w.shift? address
  let selected ← shiftedLeft? w.mask shift
  let moved ← shiftedLeft? value shift
  return (content &&& ~~~selected) ||| (moved &&& selected)

theorem shift?_eq : w.shift? address = some (w.shift address) :=
  product?_and _ (by decide)

theorem shift_lt : w.shift address < 32 :=
  and_mul_lt _ (by decide)

theorem lane?_eq : w.lane? address content = some (w.lane address content) := by
  have h : shiftedRight? content (w.shift address) = some (content >>> w.shift address) :=
    if_pos (w.shift_lt address)
  rw [lane?, shift?_eq]
  simp only [Option.bind_eq_bind, Option.bind_some, h]
  rfl

theorem merge?_eq : w.merge? address content value = some (w.merge address content value) := by
  have h (a : UInt32) : shiftedLeft? a (w.shift address) = some (a <<< w.shift address) :=
    if_pos (w.shift_lt address)
  rw [merge?, shift?_eq]
  simp only [Option.bind_eq_bind, Option.bind_some, h]
  rfl

end Width

/-! ## Banks -/

namespace Bank

variable {size : Nat} (b : Bank size) (w : Width) (i : Nat) (value : UInt32)

def load? : Option UInt32 :=
  if i + w.bytes ≤ b.bytes.size then some (b.load w i) else none

def store? : Option (Bank size) :=
  if i + w.bytes ≤ b.bytes.size then some (b.store w i value) else none

variable {b w i}

theorem load?_eq (h : i + w.bytes ≤ size) : b.load? w i = some (b.load w i) :=
  if_pos (b.size_eq.symm ▸ h)

theorem store?_eq (h : i + w.bytes ≤ size) : b.store? w i value = some (b.store w i value) :=
  if_pos (b.size_eq.symm ▸ h)

end Bank

/-! ## Sound unit -/

namespace Spu

variable (s : Spu) (w : Width) (offset value : UInt32)

/-- How many halfword registers the unit has. -/
def registerCount : Nat := 512

def readHalf? : Option UInt16 :=
  s.registers[index offset]?

def setHalf? (half : UInt16) : Option Spu :=
  if index offset < s.registers.size then some (s.setHalf offset half) else none

def writeHalf? (half : UInt16) : Option Spu := do
  let written ← s.setHalf? offset half
  if isControl offset then
    let status ← written.readHalf? statusOffset
    written.setHalf? statusOffset ((status &&& 0xFFC0) ||| (half &&& 0x003F))
  else return written

def read? : Option UInt32 :=
  match w with
  | .byte => do
    let half ← s.readHalf? offset
    let shift ← product? (offset &&& 1) 8
    if shift < 16 then return Width.byte.truncate (half.toUInt32 >>> shift) else none
  | .half => do return (← s.readHalf? offset).toUInt32
  | .word => do
    let low ← s.readHalf? offset
    let high ← s.readHalf? (← sum? offset 2)
    return low.toUInt32 ||| (high.toUInt32 <<< 16)

def write? : Option Spu :=
  match w with
  | .byte => do
    let shift ← product? (offset &&& 1) 8
    let _ ← s.readHalf? offset
    if shift < 16 then s.writeHalf? offset (s.mergeByte offset value) else none
  | .half => s.writeHalf? offset value.toUInt16
  | .word => do
    let written ← s.writeHalf? offset value.toUInt16
    written.writeHalf? (← sum? offset 2) (value >>> 16).toUInt16

theorem index_lt : index offset < registerCount :=
  Nat.lt_of_le_of_lt Nat.and_le_right (by decide)

@[simp] theorem size_setHalf (half : UInt16) :
    (s.setHalf offset half).registers.size = s.registers.size :=
  Array.size_setIfInBounds ..

@[simp] theorem size_writeHalf (half : UInt16) :
    (s.writeHalf offset half).registers.size = s.registers.size := by
  unfold writeHalf
  split <;> simp only [size_setHalf]

@[simp] theorem size_write : (Device.write s w offset value).registers.size = s.registers.size := by
  cases w with
  | byte | half => exact size_writeHalf ..
  | word => exact (size_writeHalf ..).trans (size_writeHalf ..)

section

variable {s} (h : registerCount ≤ s.registers.size)
include h

theorem readHalf?_eq : s.readHalf? offset = some (s.readHalf offset) := by
  have hi := Nat.lt_of_lt_of_le (index_lt offset) h
  rw [readHalf?, readHalf, Array.getD_eq_getD_getElem?, Array.getElem?_eq_getElem hi]
  rfl

theorem setHalf?_eq (half : UInt16) : s.setHalf? offset half = some (s.setHalf offset half) :=
  if_pos (Nat.lt_of_lt_of_le (index_lt offset) h)

theorem writeHalf?_eq (half : UInt16) :
    s.writeHalf? offset half = some (s.writeHalf offset half) := by
  have hw : registerCount ≤ (s.setHalf offset half).registers.size := by
    rw [size_setHalf]
    exact h
  rw [writeHalf?, setHalf?_eq offset h, writeHalf]
  simp only [Option.bind_eq_bind, Option.bind_some, readHalf?_eq _ hw, setHalf?_eq _ hw]
  split <;> rfl

variable {offset} (ho : offset.toNat + 2 < 2 ^ 32)
include ho

theorem read?_eq : s.read? w offset = some (Device.read s w offset).1 := by
  cases w with
  | byte =>
    have hshift : (offset &&& 1) * 8 < 16 := and_mul_lt offset (by decide)
    rw [read?, readHalf?_eq _ h, product?_and _ (by decide)]
    simp only [Option.bind_eq_bind, Option.bind_some, if_pos hshift]
    rfl
  | half =>
    rw [read?, readHalf?_eq _ h]
    rfl
  | word =>
    rw [read?, readHalf?_eq _ h, sum?_eq ho]
    simp only [Option.bind_eq_bind, Option.bind_some, readHalf?_eq _ h]
    rfl

theorem write?_eq : s.write? w offset value = some (Device.write s w offset value) := by
  cases w with
  | byte =>
    have hshift : (offset &&& 1) * 8 < 16 := and_mul_lt offset (by decide)
    rw [write?, readHalf?_eq _ h, product?_and _ (by decide)]
    simp only [Option.bind_eq_bind, Option.bind_some, if_pos hshift,
      writeHalf?_eq _ h]
    rfl
  | half => exact writeHalf?_eq _ h _
  | word =>
    have hw : registerCount ≤ (s.writeHalf offset value.toUInt16).registers.size := by
      rw [size_writeHalf]
      exact h
    rw [write?, writeHalf?_eq _ h, sum?_eq ho]
    exact writeHalf?_eq _ hw _

end

/-- A register file that is too short fails at its last register. -/
theorem readHalf?_last (h : s.registers.size < registerCount) : s.readHalf? 0x3FE = none :=
  Array.getElem?_eq_none (Nat.le_of_lt_succ h)

end Spu

/-! ## Timers and DMA controller -/

/-- Whether the channel that an access selects is there; none is selected in the
upper half of a word. -/
def Timers.selects (w : Width) (offset : UInt32) : Bool :=
  (w == .half && isUpperHalf offset) || decide ((offset >>> 4).toNat < 3)

theorem Timers.selects_of_le (w : Width) {offset : UInt32} (h : offset ≤ 0x2F) :
    selects w offset = true := by
  have ho : (offset >>> 4).toNat < 3 := by
    rw [UInt32.le_iff_toNat_le] at h
    rw [UInt32.toNat_shiftRight, Nat.shiftRight_eq_div_pow]
    exact Nat.div_lt_of_lt_mul (Nat.lt_of_le_of_lt h (by decide))
  rw [selects, decide_eq_true ho, Bool.or_true]

/-- Writing a channel's control register looks its enable bit up. -/
def Dma.writeRegister? (d : Dma) (r : Register) (value : UInt32) : Option Dma :=
  match r with
  | .channelControl ch => do
    let _ ← shiftedRight? d.control (UInt32.ofNat (ch.val * 4 + 3))
    return d.writeRegister r value
  | _ => some (d.writeRegister r value)

theorem Dma.writeRegister?_eq (d : Dma) (r : Register) (value : UInt32) :
    d.writeRegister? r value = some (d.writeRegister r value) := by
  cases r with
  | channelControl ch =>
    have h (ch : Fin 7) : UInt32.ofNat (ch.val * 4 + 3) < 32 := by decide +revert
    rw [writeRegister?, shiftedRight?, if_pos (h ch)]
    rfl
  | _ => rfl

end R3000
