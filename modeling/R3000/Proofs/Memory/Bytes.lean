import R3000.Proofs.Alignment
import R3000.Proofs.Bits
import R3000.Proofs.Memory.Bank

/-!
# Bytes of a word

A word is known by its four bytes. What masks and shifts make of a word is said
byte by byte: two words that are moved and joined share out the bytes between
them, a lane is one byte, and a merge replaces the bytes that an access uses.
-/

namespace R3000

theorem toNat_byteOf (value : UInt32) (k : Nat) :
    (byteOf value k).toNat = value.toNat / 256 ^ k % 256 := by
  rw [byteOf, UInt8.toNat_ofNat']

/-- Byte `k` holds eight bits from bit `8 * k` on. -/
theorem testBit_byteOf (value : UInt32) (k i : Nat) :
    (byteOf value k).toNat.testBit i = (decide (i < 8) && value.toNat.testBit (8 * k + i)) := by
  have hbyte : (byteOf value k).toNat = value.toNat / 2 ^ (8 * k) % 2 ^ 8 := by
    rw [toNat_byteOf, Nat.pow_mul]
    rfl
  rw [hbyte, Nat.testBit_mod_two_pow, Nat.testBit_div_two_pow, Nat.add_comm i]

theorem byte_ext {x y : UInt8} (h : ∀ i < 8, x.toNat.testBit i = y.toNat.testBit i) : x = y := by
  apply UInt8.toNat_inj.mp
  apply Nat.eq_of_testBit_eq
  intro i
  by_cases hi : i < 8
  · exact h i hi
  · have hbig (z : UInt8) : z.toNat < 2 ^ i :=
      Nat.lt_of_lt_of_le z.toNat_lt (Nat.pow_le_pow_right (by decide) (Nat.le_of_not_lt hi))
    rw [Nat.testBit_lt_two_pow (hbig x), Nat.testBit_lt_two_pow (hbig y)]

/-- Bytes are equal when the words have the same bits there. -/
theorem byteOf_congr {x y : UInt32} {j k : Nat}
    (h : ∀ i < 8, x.toNat.testBit (8 * j + i) = y.toNat.testBit (8 * k + i)) :
    byteOf x j = byteOf y k := by
  apply byte_ext
  intro i hi
  rw [testBit_byteOf, testBit_byteOf, h i hi]

/-- A word is known by its four bytes. -/
theorem eq_of_byteOf_eq {x y : UInt32} (h : ∀ k < 4, byteOf x k = byteOf y k) : x = y := by
  apply UInt32.toNat_inj.mp
  apply Nat.eq_of_testBit_eq
  intro i
  by_cases hi : i < 32
  · have hbit (z : UInt32) : z.toNat.testBit i = (byteOf z (i / 8)).toNat.testBit (i % 8) := by
      rw [testBit_byteOf, decide_eq_true (Nat.mod_lt i (by decide)), Bool.true_and, Nat.div_add_mod]
    rw [hbit x, hbit y, h (i / 8) (by omega)]
  · rw [testBit_eq_false_of_le x (Nat.le_of_not_lt hi), testBit_eq_false_of_le y (Nat.le_of_not_lt hi)]

/-- Of a word that is cut off at sixteen bits the two lowest bytes are left. -/
theorem toUInt16_congr {x y : UInt32} (h : ∀ k < 2, byteOf x k = byteOf y k) :
    x.toUInt16 = y.toUInt16 := by
  have h0 := congrArg UInt8.toNat (h 0 (by decide))
  have h1 := congrArg UInt8.toNat (h 1 (by decide))
  rw [toNat_byteOf, toNat_byteOf] at h0 h1
  apply UInt16.toNat_inj.mp
  rw [UInt32.toNat_toUInt16, UInt32.toNat_toUInt16]
  omega

/-- The bytes of a value that is composed of bytes are those bytes. -/
theorem byteOf_of_composed {x : UInt32} {byte : Nat → UInt8} (h : x.toNat = composed 4 byte)
    {k : Nat} (hk : k < 4) : byteOf x k = byte k := by
  have h0 := (byte 0).toNat_lt
  have h1 := (byte 1).toNat_lt
  have h2 := (byte 2).toNat_lt
  have h3 := (byte 3).toNat_lt
  have hsum : x.toNat = (byte 0).toNat + (byte 1).toNat * 256 + (byte 2).toNat * 256 ^ 2 +
      (byte 3).toNat * 256 ^ 3 := by
    simpa [composed, Finset.sum_range_succ] using h
  apply UInt8.toNat_inj.mp
  rw [toNat_byteOf, hsum]
  obtain rfl | rfl | rfl | rfl : k = 0 ∨ k = 1 ∨ k = 2 ∨ k = 3 := by omega
  all_goals omega

/-- A word is the value of its bytes. -/
theorem composed_byteOf (x : UInt32) : composed 4 (byteOf x) = x.toNat := by
  have hx := x.toNat_lt
  simp only [composed, Finset.sum_range_succ, Finset.sum_range_zero, toNat_byteOf]
  omega

/-! ## Moved and joined words -/

section Join

variable {s mask : UInt32} {j k : Nat}

/-- The lowest `j` bytes of `x`, and above them the lowest bytes of `y`. -/
theorem byteOf_joinAbove (x y : UInt32) (hs : s.toNat = 8 * j) (hmask : mask.toNat = 2 ^ (8 * j) - 1)
    (hj : j < 4) (hk : k < 4) :
    byteOf ((x &&& mask) ||| (y <<< s)) k = if k < j then byteOf x k else byteOf y (k - j) := by
  have hbit (i : Nat) (hi : i < 32) : ((x &&& mask) ||| (y <<< s)).toNat.testBit i =
      if i < 8 * j then x.toNat.testBit i else y.toNat.testBit (i - 8 * j) := by
    rw [UInt32.toNat_or, Nat.testBit_or, testBit_shiftLeft y hs (by omega) hi, UInt32.toNat_and,
      Nat.testBit_and, hmask, Nat.testBit_two_pow_sub_one]
    by_cases h : i < 8 * j
    · simp [h, Nat.not_le.mpr h]
    · simp [h, Nat.le_of_not_lt h]
  by_cases h : k < j
  · rw [if_pos h]
    apply byteOf_congr
    intro i hi
    rw [hbit _ (by omega), if_pos (by omega)]
  · rw [if_neg h]
    apply byteOf_congr
    intro i hi
    rw [hbit _ (by omega), if_neg (by omega)]
    congr 1
    omega

/-- The highest bytes of `y` from byte `j` on, and above them the highest bytes of `x`. -/
theorem byteOf_joinBelow (x y : UInt32) (hs : s.toNat = 8 * j)
    (hmask : mask.toNat = 2 ^ 32 - 2 ^ (32 - 8 * j)) (hj : j < 4) :
    byteOf ((x &&& mask) ||| (y >>> s)) k = if k + j < 4 then byteOf y (k + j) else byteOf x k := by
  have hkeep (i : Nat) : (x.toNat &&& mask.toNat).testBit i =
      (decide (32 - 8 * j ≤ i) && x.toNat.testBit i) := by
    -- Clearing the lower bits is rounding down.
    rw [hmask, toNat_and_high x (Nat.sub_le 32 (8 * j)), ← Nat.mul_div_self_eq_mod_sub_self,
      Nat.testBit_two_pow_mul, Nat.testBit_div_two_pow]
    by_cases h : 32 - 8 * j ≤ i
    · rw [Nat.sub_add_cancel h]
    · simp [h]
  have hbit (i : Nat) : ((x &&& mask) ||| (y >>> s)).toNat.testBit i =
      if i < 32 - 8 * j then y.toNat.testBit (8 * j + i) else x.toNat.testBit i := by
    rw [UInt32.toNat_or, Nat.testBit_or, testBit_shiftRight y hs (by omega), UInt32.toNat_and, hkeep]
    by_cases h : i < 32 - 8 * j
    · simp [h, Nat.not_le.mpr h]
    · simp [h, Nat.le_of_not_lt h, testBit_eq_false_of_le y (by omega : 32 ≤ 8 * j + i)]
  by_cases h : k + j < 4
  · rw [if_pos h]
    apply byteOf_congr
    intro i hi
    rw [hbit, if_pos (by omega)]
    congr 1
    omega
  · rw [if_neg h]
    apply byteOf_congr
    intro i hi
    rw [hbit, if_neg (by omega)]

end Join

/-! ## Lanes -/

namespace Width

/-- The first byte of its word that an access uses. -/
def start (w : Width) (address : UInt32) : Nat :=
  (w.align address).toNat % 4

/-- Byte `k` of the word around `address` is one of those that an access uses. -/
def Uses (w : Width) (address : UInt32) (k : Nat) : Prop :=
  w.start address ≤ k ∧ k < w.start address + w.bytes

instance (w : Width) (address : UInt32) (k : Nat) : Decidable (w.Uses address k) :=
  inferInstanceAs (Decidable (_ ∧ _))

theorem start_add_bytes_le (w : Width) (address : UInt32) : w.start address + w.bytes ≤ 4 := by
  have hd := w.bytes_dvd_align address
  rw [start]
  cases w <;> simp only [bytes] at hd ⊢ <;> omega

theorem toNat_shift (w : Width) (address : UInt32) :
    (w.shift address).toNat = 8 * w.start address := by
  have hand : (w.align address &&& 3).toNat = w.start address := toNat_and_low (k := 2) rfl _
  have hlt : w.start address < 4 := Nat.mod_lt _ (by decide)
  have height : (8 : UInt32).toNat = 8 := rfl
  rw [shift, UInt32.toNat_mul, hand, height, Nat.mul_comm]
  exact Nat.mod_eq_of_lt (by omega)

theorem toNat_mask (w : Width) : w.mask.toNat = 2 ^ (8 * w.bytes) - 1 := by
  cases w <;> rfl

theorem toNat_truncate (w : Width) (value : UInt32) :
    (w.truncate value).toNat = value.toNat % 2 ^ (8 * w.bytes) :=
  toNat_and_low w.toNat_mask value

/-- The selected lane of a word is the value of its bytes. -/
theorem toNat_lane (w : Width) (address content : UInt32) :
    (w.lane address content).toNat = content.toNat / 256 ^ w.start address % 256 ^ w.bytes := by
  have hlt : w.start address < 4 := Nat.mod_lt _ (by decide)
  have hshift : (w.shift address).toNat % 32 = 8 * w.start address := by
    rw [toNat_shift]
    exact Nat.mod_eq_of_lt (by omega)
  rw [lane, toNat_truncate, UInt32.toNat_shiftRight, hshift, Nat.shiftRight_eq_div_pow, Nat.pow_mul,
    Nat.pow_mul]

/-- The selected byte of a word. -/
theorem lane_byte (address content : UInt32) :
    byte.lane address content = (byteOf content (address.toNat % 4)).toUInt32 := by
  apply UInt32.toNat_inj.mp
  rw [toNat_lane, UInt8.toNat_toUInt32, toNat_byteOf]
  rfl

/-- Only the place where the access begins matters. -/
theorem lane_congr {w : Width} {a₁ a₂ : UInt32} (h : w.start a₁ = w.start a₂) (content : UInt32) :
    w.lane a₁ content = w.lane a₂ content := by
  apply UInt32.toNat_inj.mp
  rw [toNat_lane, toNat_lane, h]

/-- A merge replaces the bytes that the access uses, by the lowest bytes of the value. -/
theorem byteOf_merge (w : Width) (address content value : UInt32) {k : Nat} (hk : k < 4) :
    byteOf (w.merge address content value) k =
      if w.Uses address k then byteOf value (k - w.start address) else byteOf content k := by
  have hend := w.start_add_bytes_le address
  have hstart : w.start address < 4 := Nat.mod_lt _ (by decide)
  -- The mask has the bits of the bytes that are used.
  have hselected (i : Nat) (hi : i < 8) :
      (w.mask <<< w.shift address).toNat.testBit (8 * k + i) = decide (w.Uses address k) := by
    rw [testBit_shiftLeft _ (w.toNat_shift address) (by omega) (by omega), toNat_mask,
      Nat.testBit_two_pow_sub_one, ← Bool.decide_and, decide_eq_decide, Uses]
    omega
  have hbit (i : Nat) (hi : i < 8) :
      (w.merge address content value).toNat.testBit (8 * k + i) =
        if w.Uses address k then value.toNat.testBit (8 * (k - w.start address) + i)
        else content.toNat.testBit (8 * k + i) := by
    rw [merge, UInt32.toNat_or, Nat.testBit_or, UInt32.toNat_and, UInt32.toNat_and, Nat.testBit_and,
      Nat.testBit_and, testBit_complement _ (by omega), hselected i hi,
      testBit_shiftLeft _ (w.toNat_shift address) (by omega) (by omega)]
    by_cases h : w.Uses address k
    · have hle : 8 * w.start address ≤ 8 * k + i := by
        rw [Uses] at h
        omega
      have hsub : 8 * k + i - 8 * w.start address = 8 * (k - w.start address) + i := by
        rw [Uses] at h
        omega
      simp [h, hle, hsub]
    · simp [h]
  split
  · rename_i h
    apply byteOf_congr
    intro i hi
    rw [hbit i hi, if_pos h]
  · rename_i h
    apply byteOf_congr
    intro i hi
    rw [hbit i hi, if_neg h]

/-- What a store brings for byte `k` of the word around its address. -/
def supplied? (w : Width) (address value : UInt32) (k : Nat) : Option UInt8 :=
  if w.Uses address k then some (byteOf value (k - w.start address)) else none

/-- A merged word has the bytes that a store brings, and keeps the others. -/
theorem byteOf_merge_supplied (w : Width) (address content value : UInt32) {k : Nat} (hk : k < 4) :
    byteOf (w.merge address content value) k =
      (w.supplied? address value k).getD (byteOf content k) := by
  rw [byteOf_merge w address content value hk, supplied?]
  split <;> rfl

theorem start_align (w : Width) (address : UInt32) : w.start (w.align address) = w.start address := by
  rw [start, align_align, start]

/-- Only the place of the address within its word matters. -/
theorem start_congr (w : Width) {a₁ a₂ : UInt32} (h : a₁.toNat % 4 = a₂.toNat % 4) :
    w.start a₁ = w.start a₂ := by
  rw [start, start, toNat_align, toNat_align]
  cases w <;> simp only [bytes] <;> omega

theorem supplied?_congr {w : Width} {a₁ a₂ : UInt32} (h : w.start a₁ = w.start a₂)
    (value : UInt32) (k : Nat) : w.supplied? a₁ value k = w.supplied? a₂ value k := by
  have huses : w.Uses a₁ k ↔ w.Uses a₂ k := by rw [Uses, Uses, h]
  rw [supplied?, supplied?, h]
  exact if_congr huses rfl rfl

/-- What the width cannot carry is not brought anyway. -/
theorem supplied?_truncate (w : Width) (address value : UInt32) (k : Nat) :
    w.supplied? address (w.truncate value) k = w.supplied? address value k := by
  rw [supplied?, supplied?]
  split
  · rename_i h
    have hbyte : byteOf (w.truncate value) (k - w.start address) =
        byteOf value (k - w.start address) := by
      apply byteOf_congr
      intro i hi
      have hlt : 8 * (k - w.start address) + i < 8 * w.bytes := by
        rw [Uses] at h
        omega
      rw [truncate, UInt32.toNat_and, Nat.testBit_and, toNat_mask, Nat.testBit_two_pow_sub_one,
        decide_eq_true hlt, Bool.and_true]
    rw [hbyte]
  · rfl

end Width

end R3000
