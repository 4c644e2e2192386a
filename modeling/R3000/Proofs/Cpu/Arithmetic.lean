import Mathlib.Algebra.Group.Int.Defs
import Mathlib.Algebra.Group.Nat.Defs
import R3000.Cpu.Arithmetic

/-!
# Words as signed numbers

The tests of the processor on words say what they should about the numbers that
the words stand for in two's complement.
-/

namespace R3000.Arithmetic

/-- The number that a word stands for in two's complement. -/
def signed (a : UInt32) : Int :=
  a.toInt32.toInt

/-- The number can be written as a word in two's complement. -/
def FitsSigned (n : Int) : Prop :=
  -2 ^ 31 ≤ n ∧ n < 2 ^ 31

instance (n : Int) : Decidable (FitsSigned n) :=
  inferInstanceAs (Decidable (_ ∧ _))

theorem signed_eq (a : UInt32) :
    signed a = if a.toNat < 2 ^ 31 then (a.toNat : Int) else a.toNat - 2 ^ 32 := by
  have h := BitVec.toInt_eq_toNat_cond a.toBitVec
  simp only [UInt32.toNat_toBitVec] at h
  rw [signed, Int32.toInt, UInt32.toBitVec_toInt32, h]
  split <;> split <;> omega

theorem isNegative_iff (a : UInt32) : isNegative a = true ↔ signed a < 0 := by
  have ha := a.toNat_lt
  rw [isNegative, decide_eq_true_iff, UInt32.le_iff_toNat_le, signed_eq]
  split <;> simp <;> omega

theorem not_isNegative_iff (a : UInt32) : (!isNegative a) = true ↔ 0 ≤ signed a := by
  have h := isNegative_iff a
  cases hn : isNegative a with
  | true => exact ⟨nofun, fun ha => absurd (h.mp hn) (Int.not_lt.mpr ha)⟩
  | false => exact ⟨fun _ => Int.not_lt.mp fun ha => Bool.noConfusion (hn.symm.trans (h.mpr ha)),
      fun _ => rfl⟩

theorem signed_eq_zero_iff (a : UInt32) : signed a = 0 ↔ a = 0 := by
  have ha := a.toNat_lt
  rw [signed_eq, ← UInt32.toNat_inj, UInt32.toNat_ofNat]
  split <;> omega

theorem isNotPositive_iff (a : UInt32) : (isNegative a || a == 0) = true ↔ signed a ≤ 0 := by
  rw [Bool.or_eq_true, isNegative_iff, beq_iff_eq, ← signed_eq_zero_iff]
  omega

theorem isPositive_iff (a : UInt32) : (!(isNegative a || a == 0)) = true ↔ 0 < signed a := by
  rw [Bool.not_eq_true', Bool.eq_false_iff, ne_eq, isNotPositive_iff, Int.not_le]

theorem fitsSigned_signed (a : UInt32) : FitsSigned (signed a) := by
  have ha := a.toNat_lt
  rw [FitsSigned, signed_eq]
  split <;> omega

/-- A wrapped sum is the exact one, up to one turn. -/
theorem signed_add (a b : UInt32) :
    signed (a + b) = signed a + signed b ∨ signed (a + b) = signed a + signed b + 2 ^ 32 ∨
      signed (a + b) = signed a + signed b - 2 ^ 32 := by
  have ha := a.toNat_lt
  have hb := b.toNat_lt
  rw [signed_eq, signed_eq a, signed_eq b, UInt32.toNat_add]
  split <;> split <;> split <;> omega

/-- A wrapped difference is the exact one, up to one turn. -/
theorem signed_sub (a b : UInt32) :
    signed (a - b) = signed a - signed b ∨ signed (a - b) = signed a - signed b + 2 ^ 32 ∨
      signed (a - b) = signed a - signed b - 2 ^ 32 := by
  have ha := a.toNat_lt
  have hb := b.toNat_lt
  rw [signed_eq, signed_eq a, signed_eq b, UInt32.toNat_sub]
  split <;> split <;> split <;> omega

theorem addOverflows_iff (a b : UInt32) :
    addOverflows a b = true ↔ ¬ FitsSigned (signed a + signed b) := by
  have ha := isNegative_iff a
  have hb := isNegative_iff b
  have hab := isNegative_iff (a + b)
  have hra := fitsSigned_signed a
  have hrb := fitsSigned_signed b
  have hrab := fitsSigned_signed (a + b)
  have hsum := signed_add a b
  -- Only the three signs matter from here on, and each case of them is linear.
  simp only [FitsSigned] at *
  rw [addOverflows]
  generalize isNegative a = na at *
  generalize isNegative b = nb at *
  generalize isNegative (a + b) = nab at *
  cases na <;> cases nb <;> cases nab <;>
    simp only [Bool.false_eq_true, false_iff, true_iff] at ha hb hab <;> simp <;> omega

theorem subOverflows_iff (a b : UInt32) :
    subOverflows a b = true ↔ ¬ FitsSigned (signed a - signed b) := by
  have ha := isNegative_iff a
  have hb := isNegative_iff b
  have hab := isNegative_iff (a - b)
  have hra := fitsSigned_signed a
  have hrb := fitsSigned_signed b
  have hrab := fitsSigned_signed (a - b)
  have hdiff := signed_sub a b
  -- As for sums, only the three signs matter.
  simp only [FitsSigned] at *
  rw [subOverflows]
  generalize isNegative a = na at *
  generalize isNegative b = nb at *
  generalize isNegative (a - b) = nab at *
  cases na <;> cases nb <;> cases nab <;>
    simp only [Bool.false_eq_true, false_iff, true_iff] at ha hb hab <;> simp <;> omega

/-! ## Products and quotients -/

theorem natAbs_signed_le (a : UInt32) : (signed a).natAbs ≤ 2 ^ 31 := by
  have h := fitsSigned_signed a
  rw [FitsSigned] at h
  omega

/-- A product of words has its place in two words. -/
theorem product_fits (a b : UInt32) :
    -2 ^ 63 ≤ signed a * signed b ∧ signed a * signed b < 2 ^ 63 := by
  have h : (signed a * signed b).natAbs ≤ 2 ^ 31 * 2 ^ 31 := by
    rw [Int.natAbs_mul]
    exact Nat.mul_le_mul (natAbs_signed_le a) (natAbs_signed_le b)
  omega

theorem signed_eq_neg_one_iff (a : UInt32) : signed a = -1 ↔ a = 0xFFFFFFFF := by
  have ha := a.toNat_lt
  rw [signed_eq, ← UInt32.toNat_inj, UInt32.toNat_ofNat]
  split <;> omega

theorem signed_eq_min_iff (a : UInt32) : signed a = -2 ^ 31 ↔ a = 0x80000000 := by
  have ha := a.toNat_lt
  rw [signed_eq, ← UInt32.toNat_inj, UInt32.toNat_ofNat]
  split <;> omega

/-- A quotient of words is a word again, with one exception. -/
theorem quotient_fits (a b : UInt32) :
    b = 0 ∨ (a = 0x80000000 ∧ b = 0xFFFFFFFF) ∨ FitsSigned ((signed a).tdiv (signed b)) := by
  have ha := fitsSigned_signed a
  have hq : ((signed a).tdiv (signed b)).natAbs = (signed a).natAbs / (signed b).natAbs :=
    Int.natAbs_tdiv ..
  rw [← signed_eq_zero_iff, ← signed_eq_min_iff, ← signed_eq_neg_one_iff]
  rw [FitsSigned] at ha ⊢
  by_cases hneg : signed b = -1
  · have hm : (signed a).tdiv (signed b) = -signed a := by rw [hneg, Int.tdiv_neg, Int.tdiv_one]
    omega
  · by_cases hone : signed b = 1
    · have hm : (signed a).tdiv (signed b) = signed a := by rw [hone, Int.tdiv_one]
      omega
    · by_cases hzero : signed b = 0
      · exact .inl hzero
      · -- Any other divisor makes the quotient at most half as great.
        have hhalf : (signed a).natAbs / (signed b).natAbs ≤ (signed a).natAbs / 2 :=
          Nat.div_le_div_left (by omega) (by decide)
        have habs := natAbs_signed_le a
        omega

end R3000.Arithmetic
