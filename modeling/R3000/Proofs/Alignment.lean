import Mathlib.Algebra.Group.Nat.Defs
import R3000.Width

/-!
# Alignment

What an access does to its address, in natural numbers. Dropping the bits below
a width is rounding down to a multiple of its size; the bytes of an access then
follow each other without a carry into the bits above.
-/

namespace R3000

/-- Clearing the lowest `k` bits of a word rounds it down. -/
theorem toNat_and_high (a : UInt32) {k : Nat} (hk : k ≤ 32) :
    a.toNat &&& (2 ^ 32 - 2 ^ k) = a.toNat - a.toNat % 2 ^ k := by
  have hm : 2 ^ 32 - 2 ^ k = 2 ^ k * (2 ^ (32 - k) - 1) := by
    rw [Nat.mul_sub, ← Nat.pow_add, Nat.add_sub_cancel' hk, Nat.mul_one]
  have hd : a.toNat - a.toNat % 2 ^ k = 2 ^ k * (a.toNat / 2 ^ k) := by
    have := Nat.div_add_mod a.toNat (2 ^ k)
    omega
  rw [hm, hd]
  apply Nat.eq_of_testBit_eq
  intro i
  rw [Nat.testBit_and, Nat.testBit_two_pow_mul, Nat.testBit_two_pow_mul,
    Nat.testBit_two_pow_sub_one, Nat.testBit_div_two_pow]
  by_cases hi : k ≤ i
  · simp only [hi, decide_true, Bool.true_and, Nat.sub_add_cancel hi]
    by_cases hl : i - k < 32 - k
    · simp [hl]
    · have hbig : a.toNat < 2 ^ i :=
        Nat.lt_of_lt_of_le a.toNat_lt (Nat.pow_le_pow_right (by decide) (by omega))
      simp [Nat.testBit_lt_two_pow hbig]
  · simp [hi]

namespace Width

theorem bytes_le (w : Width) : w.bytes ≤ 4 := by
  cases w <;> decide

theorem bytes_dvd (w : Width) : w.bytes ∣ 4 := by
  cases w <;> decide

theorem toNat_align (w : Width) (a : UInt32) :
    (w.align a).toNat = a.toNat - a.toNat % w.bytes := by
  cases w with
  | byte => simp [align, bytes, Nat.mod_one]
  | half => simpa [align, bytes] using toNat_and_high a (k := 1) (by decide)
  | word => simpa [align, bytes] using toNat_and_high a (k := 2) (by decide)

theorem align_le (w : Width) (a : UInt32) : w.align a ≤ a := by
  rw [UInt32.le_iff_toNat_le, toNat_align]
  exact Nat.sub_le _ _

theorem bytes_dvd_align (w : Width) (a : UInt32) : w.bytes ∣ (w.align a).toNat := by
  rw [toNat_align]
  exact Nat.dvd_sub_mod _

/-- An aligned address stays as it is. -/
theorem align_of_dvd {w : Width} {a : UInt32} (h : w.bytes ∣ a.toNat) : w.align a = a := by
  apply UInt32.toNat_inj.mp
  rw [toNat_align, Nat.mod_eq_zero_of_dvd h, Nat.sub_zero]

/-- The bytes of an access do not run past the end of the address space. -/
theorem toNat_align_add (w : Width) (a : UInt32) {k : Nat} (hk : k < w.bytes) :
    (w.align a + UInt32.ofNat k).toNat = (w.align a).toNat + k := by
  have hd := w.bytes_dvd_align a
  have hlt := (w.align a).toNat_lt
  have h4 := w.bytes_le
  have hsum : (w.align a).toNat + k < 2 ^ 32 := by
    cases w <;> simp only [bytes] at hd hk <;> omega
  rw [UInt32.toNat_add, UInt32.toNat_ofNat', Nat.mod_eq_of_lt (by omega : k < 2 ^ 32),
    Nat.mod_eq_of_lt hsum]

@[simp] theorem align_align (w : Width) (a : UInt32) : w.align (w.align a) = w.align a :=
  align_of_dvd (w.bytes_dvd_align a)

/-- Aligned addresses stay on the same side of a word's first byte. -/
theorem le_align_iff {first : UInt32} (h : first.toNat % 4 = 0) (w : Width) (a : UInt32) :
    first ≤ w.align a ↔ first ≤ a := by
  rw [UInt32.le_iff_toNat_le, UInt32.le_iff_toNat_le, toNat_align]
  cases w <;> simp only [bytes] <;> omega

theorem align_sub {first : UInt32} (h : first.toNat % 4 = 0) (w : Width) (a : UInt32) :
    w.align (a - first) = w.align a - first := by
  have ha := a.toNat_lt
  have hfirst := first.toNat_lt
  apply UInt32.toNat_inj.mp
  rw [toNat_align, UInt32.toNat_sub, UInt32.toNat_sub, toNat_align]
  cases w <;> simp only [bytes] <;> omega

end Width

/-! ## The word around an address -/

theorem toNat_wordAddress (a : UInt32) : (wordAddress a).toNat = a.toNat - a.toNat % 4 :=
  Width.word.toNat_align a

theorem wordAddress_add (a : UInt32) : wordAddress a + UInt32.ofNat (a.toNat % 4) = a := by
  have h : (wordAddress a + UInt32.ofNat (a.toNat % 4)).toNat =
      (wordAddress a).toNat + a.toNat % 4 :=
    Width.word.toNat_align_add a (Nat.mod_lt _ (by decide))
  apply UInt32.toNat_inj.mp
  rw [h, toNat_wordAddress]
  omega

theorem le_wordAddress_iff {first : UInt32} (h : first.toNat % 4 = 0) (a : UInt32) :
    first ≤ wordAddress a ↔ first ≤ a :=
  Width.word.le_align_iff h a

theorem wordAddress_le_iff {last : UInt32} (h : last.toNat % 4 = 3) (a : UInt32) :
    wordAddress a ≤ last ↔ a ≤ last := by
  rw [UInt32.le_iff_toNat_le, UInt32.le_iff_toNat_le, toNat_wordAddress]
  omega

theorem wordAddress_sub {first : UInt32} (h : first.toNat % 4 = 0) (a : UInt32) :
    wordAddress (a - first) = wordAddress a - first :=
  Width.word.align_sub h a

theorem toNat_add_ofNat_mod (a : UInt32) (k : Nat) :
    (a + UInt32.ofNat k).toNat % 4 = (a.toNat % 4 + k) % 4 := by
  rw [UInt32.toNat_add, UInt32.toNat_ofNat']
  omega

theorem toNat_add_three_mod (a : UInt32) : (a + 3).toNat % 4 = (a.toNat % 4 + 3) % 4 :=
  toNat_add_ofNat_mod a 3

/-- Of four bytes from `a` on, the first ones are in the word around `a`. -/
theorem wordAddress_add_below {a : UInt32} {k : Nat} (hk : k + a.toNat % 4 < 4) :
    wordAddress (a + UInt32.ofNat k) = wordAddress a := by
  have ha := a.toNat_lt
  apply UInt32.toNat_inj.mp
  rw [toNat_wordAddress, toNat_wordAddress, UInt32.toNat_add, UInt32.toNat_ofNat']
  omega

/-- The last ones are in the word around `a + 3`. -/
theorem wordAddress_add_above {a : UInt32} {k : Nat} (hk : k < 4)
    (hk' : 3 ≤ k + (a + 3).toNat % 4) : wordAddress (a + UInt32.ofNat k) = wordAddress (a + 3) := by
  have ha := a.toNat_lt
  have hthree : (3 : UInt32).toNat = 3 := rfl
  rw [UInt32.toNat_add, hthree] at hk'
  apply UInt32.toNat_inj.mp
  rw [toNat_wordAddress, toNat_wordAddress, UInt32.toNat_add, UInt32.toNat_add, UInt32.toNat_ofNat',
    hthree]
  omega

/-! ## Multiples of four -/

theorem four_dvd_add {a b : UInt32} (ha : 4 ∣ a.toNat) (hb : 4 ∣ b.toNat) :
    4 ∣ (a + b).toNat := by
  rw [UInt32.toNat_add]
  omega

theorem four_dvd_or {a b : UInt32} (ha : 4 ∣ a.toNat) (hb : 4 ∣ b.toNat) :
    4 ∣ (a ||| b).toNat := by
  rw [Nat.dvd_iff_mod_eq_zero] at *
  have hor := Nat.or_mod_two_pow (a := a.toNat) (b := b.toNat) (n := 2)
  rw [UInt32.toNat_or]
  exact hor.trans (by rw [ha, hb]; rfl)

theorem four_dvd_shiftLeft (a : UInt32) : 4 ∣ (a <<< (2 : UInt32)).toNat := by
  have hshift : (a <<< (2 : UInt32)).toNat = a.toNat <<< 2 % 2 ^ 32 := UInt32.toNat_shiftLeft ..
  rw [hshift, Nat.shiftLeft_eq]
  omega

/-- The lowest two bits of a multiple of four are clear. -/
theorem and_three_eq_zero_iff (a : UInt32) : a &&& 3 = 0 ↔ 4 ∣ a.toNat := by
  have hlow : (a &&& 3).toNat = a.toNat % 4 := Nat.and_two_pow_sub_one_eq_mod a.toNat 2
  rw [← UInt32.toNat_inj, hlow]
  exact (Nat.dvd_iff_mod_eq_zero ..).symm

end R3000
