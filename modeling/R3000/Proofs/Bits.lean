import Mathlib.Data.Nat.Bitwise

/-!
# Bits of a word

Registers are described by their bits. A mask of one bit asks for that bit, and
`Within` says that a word has no bits but those of a mask.
-/

namespace R3000

theorem testBit_eq_false_of_le (a : UInt32) {i : Nat} (hi : 32 ≤ i) : a.toNat.testBit i = false :=
  Nat.testBit_lt_two_pow (Nat.lt_of_lt_of_le a.toNat_lt (Nat.pow_le_pow_right (by decide) hi))

theorem testBit_complement (a : UInt32) {i : Nat} (hi : i < 32) :
    (~~~a).toNat.testBit i = !a.toNat.testBit i := by
  have hbit := BitVec.getLsbD_not (x := a.toBitVec) (i := i)
  rwa [decide_eq_true hi, Bool.true_and] at hbit

theorem testBit_shiftLeft (a : UInt32) {n : UInt32} {k i : Nat} (hn : n.toNat = k) (hk : k < 32)
    (hi : i < 32) : (a <<< n).toNat.testBit i = (decide (k ≤ i) && a.toNat.testBit (i - k)) := by
  rw [UInt32.toNat_shiftLeft, hn, Nat.mod_eq_of_lt hk, Nat.testBit_mod_two_pow,
    Nat.testBit_shiftLeft, decide_eq_true hi, Bool.true_and]

theorem testBit_shiftRight (a : UInt32) {n : UInt32} {k : Nat} (hn : n.toNat = k) (hk : k < 32)
    (i : Nat) : (a >>> n).toNat.testBit i = a.toNat.testBit (k + i) := by
  rw [UInt32.toNat_shiftRight, hn, Nat.mod_eq_of_lt hk, Nat.testBit_shiftRight]

theorem word_or_and (a b mask : UInt32) : (a ||| b) &&& mask = (a &&& mask) ||| (b &&& mask) := by
  apply UInt32.toNat_inj.mp
  simp only [UInt32.toNat_and, UInt32.toNat_or, Nat.and_or_distrib_right]

theorem half_or_and (a b mask : UInt16) : (a ||| b) &&& mask = (a &&& mask) ||| (b &&& mask) := by
  apply UInt16.toNat_inj.mp
  simp only [UInt16.toNat_and, UInt16.toNat_or, Nat.and_or_distrib_right]

theorem testBit_cleared (a mask : UInt32) (i : Nat) :
    (a &&& ~~~mask).toNat.testBit i = (a.toNat.testBit i && !mask.toNat.testBit i) := by
  rw [UInt32.toNat_and, Nat.testBit_and]
  by_cases hi : i < 32
  · rw [testBit_complement mask hi]
  · rw [testBit_eq_false_of_le a (Nat.le_of_not_lt hi), Bool.false_and, Bool.false_and]

/-- Replacing the bits in `mask` takes these from `b` and leaves the others. -/
theorem testBit_replaced (a b mask : UInt32) (i : Nat) :
    ((a &&& ~~~mask) ||| (b &&& mask)).toNat.testBit i =
      if mask.toNat.testBit i then b.toNat.testBit i else a.toNat.testBit i := by
  rw [UInt32.toNat_or, Nat.testBit_or, testBit_cleared, UInt32.toNat_and, Nat.testBit_and]
  cases mask.toNat.testBit i <;> simp

/-- A mask of the lowest bits leaves a remainder. -/
theorem toNat_and_low {mask : UInt32} {k : Nat} (hmask : mask.toNat = 2 ^ k - 1) (a : UInt32) :
    (a &&& mask).toNat = a.toNat % 2 ^ k := by
  rw [UInt32.toNat_and, hmask, Nat.and_two_pow_sub_one_eq_mod]

/-- A mask of one bit asks for that bit. -/
theorem and_ne_zero_eq_testBit {mask : UInt32} {k : Nat} (hmask : mask.toNat = 2 ^ k)
    (a : UInt32) : (a &&& mask != 0) = a.toNat.testBit k := by
  have hbit : (a &&& mask).toNat = (a.toNat.testBit k).toNat * 2 ^ k := by
    rw [UInt32.toNat_and, hmask, Nat.and_two_pow]
  rw [bne, Bool.eq_iff_iff, Bool.not_eq_true', beq_eq_false_iff_ne, ne_eq, ← UInt32.toNat_inj,
    hbit]
  cases a.toNat.testBit k <;> simp

/-- A word is not zero when one of its bits is set. -/
theorem ne_zero_iff_exists_testBit (a : UInt32) :
    (a != 0) = true ↔ ∃ i, a.toNat.testBit i = true := by
  rw [bne_iff_ne, ne_eq, ← UInt32.toNat_inj]
  constructor
  · exact Nat.exists_testBit_of_ne_zero
  · rintro ⟨i, hi⟩ hzero
    simp [hzero] at hi

/-- Every bit that is set in `a` is set in `mask`. -/
def Within (mask a : UInt32) : Prop :=
  ∀ i, a.toNat.testBit i = true → mask.toNat.testBit i = true

namespace Within

variable {mask a b : UInt32}

theorem of_and_eq (h : a &&& mask = a) : Within mask a := by
  intro i hi
  rw [← h, UInt32.toNat_and, Nat.testBit_and, Bool.and_eq_true] at hi
  exact hi.2

theorem and_left (h : Within mask a) (b : UInt32) : Within mask (a &&& b) := by
  intro i hi
  rw [UInt32.toNat_and, Nat.testBit_and, Bool.and_eq_true] at hi
  exact h i hi.1

theorem and_right (a : UInt32) (h : Within mask b) : Within mask (a &&& b) := by
  intro i hi
  rw [UInt32.toNat_and, Nat.testBit_and, Bool.and_eq_true] at hi
  exact h i hi.2

theorem or (ha : Within mask a) (hb : Within mask b) : Within mask (a ||| b) := by
  intro i hi
  rw [UInt32.toNat_or, Nat.testBit_or, Bool.or_eq_true] at hi
  exact hi.elim (ha i) (hb i)

/-- A bit that the mask lacks is clear. -/
theorem testBit_eq_false (h : Within mask a) {i : Nat} (hi : mask.toNat.testBit i = false) :
    a.toNat.testBit i = false := by
  rw [Bool.eq_false_iff]
  intro hset
  nomatch (h i hset).symm.trans hi

end Within

end R3000
