import R3000.Proofs.Cpu.Sequencing

/-!
# Products and quotients

The multiplier computes in machine words, and each of its operations has operands
for which it has no result. Here those operations are checked: no operand of an
instruction is among them. What is left in the two words of the result is the
exact product, or quotient and remainder as integer division defines them.
-/

namespace R3000

namespace Arithmetic

/-! ## Operations that may have no result -/

/-- The product, if it fits. -/
def product? (a b : Int64) : Option Int64 :=
  if -2 ^ 63 ≤ a.toInt * b.toInt ∧ a.toInt * b.toInt < 2 ^ 63 then some (a * b) else none

/-- The product of unsigned numbers, if it fits. -/
def productUnsigned? (a b : UInt64) : Option UInt64 :=
  if a.toNat * b.toNat < 2 ^ 64 then some (a * b) else none

/-- Quotient and remainder, if the divisor is not zero and the quotient fits. -/
def quotient? (a b : Int32) : Option (Int32 × Int32) :=
  if b ≠ 0 ∧ FitsSigned (a.toInt.tdiv b.toInt) then some (a / b, a % b) else none

/-- Quotient and remainder of unsigned numbers, if the divisor is not zero. -/
def quotientUnsigned? (a b : UInt32) : Option (UInt32 × UInt32) :=
  if b ≠ 0 then some (a / b, a % b) else none

def multiplySigned? (a b : UInt32) : Option HiLo := do
  let product ← product? a.toInt32.toInt64 b.toInt32.toInt64
  return .ofDouble product.toUInt64

def multiplyUnsigned? (a b : UInt32) : Option HiLo := do
  let product ← productUnsigned? a.toUInt64 b.toUInt64
  return .ofDouble product

def divideSigned? (a b : UInt32) : Option HiLo := do
  if b == 0 then return ⟨a, 0xFFFFFFFF⟩
  else if a == 0x80000000 && b == 0xFFFFFFFF then return ⟨0, 0x80000000⟩
  else
    let (quotient, remainder) ← quotient? a.toInt32 b.toInt32
    return ⟨remainder.toUInt32, quotient.toUInt32⟩

def divideUnsigned? (a b : UInt32) : Option HiLo := do
  if b == 0 then return ⟨a, 0xFFFFFFFF⟩
  else
    let (quotient, remainder) ← quotientUnsigned? a b
    return ⟨remainder, quotient⟩

theorem multiplySigned?_eq (a b : UInt32) : multiplySigned? a b = some (multiplySigned a b) := by
  have hfits := product_fits a b
  rw [signed, signed, ← Int32.toInt_toInt64, ← Int32.toInt_toInt64 b.toInt32] at hfits
  rw [multiplySigned?, product?, if_pos hfits]
  rfl

theorem productUnsigned_lt (a b : UInt32) : a.toNat * b.toNat < 2 ^ 64 :=
  calc a.toNat * b.toNat < 2 ^ 32 * 2 ^ 32 := Nat.mul_lt_mul'' a.toNat_lt b.toNat_lt
    _ = 2 ^ 64 := rfl

theorem multiplyUnsigned?_eq (a b : UInt32) :
    multiplyUnsigned? a b = some (multiplyUnsigned a b) := by
  have hfits : a.toUInt64.toNat * b.toUInt64.toNat < 2 ^ 64 := productUnsigned_lt a b
  rw [multiplyUnsigned?, productUnsigned?, if_pos hfits]
  rfl

theorem divideSigned?_eq (a b : UInt32) : divideSigned? a b = some (divideSigned a b) := by
  rw [divideSigned?, divideSigned]
  split
  · rfl
  · rename_i hzero
    split
    · rfl
    · rename_i hbeyond
      rw [beq_iff_eq] at hzero
      rw [Bool.and_eq_true, beq_iff_eq, beq_iff_eq] at hbeyond
      have hdivisor : b.toInt32 ≠ 0 := by
        intro h
        exact hzero ((signed_eq_zero_iff b).mp (by rw [signed, h]; rfl))
      have hfits : FitsSigned (a.toInt32.toInt.tdiv b.toInt32.toInt) :=
        ((quotient_fits a b).resolve_left hzero).resolve_left hbeyond
      rw [quotient?, if_pos ⟨hdivisor, hfits⟩]
      rfl

theorem divideUnsigned?_eq (a b : UInt32) :
    divideUnsigned? a b = some (divideUnsigned a b) := by
  rw [divideUnsigned?, divideUnsigned]
  split
  · rfl
  · rename_i hzero
    rw [beq_iff_eq] at hzero
    rw [quotientUnsigned?, if_pos hzero]
    rfl

/-! ## Products -/

namespace HiLo

/-- Both words as one unsigned number. -/
def toNat (r : HiLo) : Nat :=
  2 ^ 32 * r.hi.toNat + r.lo.toNat

/-- Both words as one signed number. -/
def toInt (r : HiLo) : Int :=
  2 ^ 32 * signed r.hi + r.lo.toNat

theorem toNat_ofDouble (v : UInt64) : (ofDouble v).toNat = v.toNat := by
  have hv := v.toNat_lt
  have hhi : (v >>> 32).toNat = v.toNat / 2 ^ 32 := by
    rw [UInt64.toNat_shiftRight]
    exact Nat.shiftRight_eq_div_pow ..
  rw [toNat, ofDouble, UInt64.toNat_toUInt32, UInt64.toNat_toUInt32, hhi]
  omega

theorem toInt_ofDouble (v : Int64) : (ofDouble v.toUInt64).toInt = v.toInt := by
  have hnat := toNat_ofDouble v.toUInt64
  have hlo := (ofDouble v.toUInt64).lo.toNat_lt
  have hhi := (ofDouble v.toUInt64).hi.toNat_lt
  have hvalue : v.toInt = if 2 * v.toUInt64.toNat < 2 ^ 64 then (v.toUInt64.toNat : Int)
      else v.toUInt64.toNat - (2 ^ 64 : Nat) := BitVec.toInt_eq_toNat_cond v.toBitVec
  -- The sign of the double word is that of its upper half.
  rw [toNat] at hnat
  rw [toInt, signed_eq, hvalue]
  split <;> split <;> omega

end HiLo

theorem toInt_multiplySigned (a b : UInt32) :
    (multiplySigned a b).toInt = signed a * signed b := by
  obtain ⟨hlow, hhigh⟩ := product_fits a b
  rw [multiplySigned, HiLo.toInt_ofDouble, Int64.toInt_mul, Int32.toInt_toInt64,
    Int32.toInt_toInt64]
  apply Int.bmod_eq_of_le_mul_two
  · change _ ≤ signed a * signed b * 2
    omega
  · change signed a * signed b * 2 < _
    omega

theorem toNat_multiplyUnsigned (a b : UInt32) :
    (multiplyUnsigned a b).toNat = a.toNat * b.toNat := by
  rw [multiplyUnsigned, HiLo.toNat_ofDouble, UInt64.toNat_mul, UInt32.toNat_toUInt64,
    UInt32.toNat_toUInt64, Nat.mod_eq_of_lt (productUnsigned_lt a b)]

/-! ## Quotients -/

/-- The divisor is not zero and the signed quotient fits. -/
def Divisible (a b : UInt32) : Prop :=
  b ≠ 0 ∧ ¬ (a = 0x80000000 ∧ b = 0xFFFFFFFF)

/-- `r` holds the signed quotient of `a` and `b` with its remainder, or what stands
for them where there is no quotient. -/
structure HiLo.DividesSigned (a b : UInt32) (r : HiLo) : Prop where
  zero : b = 0 → r = ⟨a, 0xFFFFFFFF⟩
  beyond : a = 0x80000000 → b = 0xFFFFFFFF → r = ⟨0, 0x80000000⟩
  sum : Divisible a b → signed a = signed r.lo * signed b + signed r.hi
  below : Divisible a b → (signed r.hi).natAbs < (signed b).natAbs
  sign : Divisible a b → signed r.hi = 0 ∨ (signed r.hi).sign = (signed a).sign

/-- `r` holds the unsigned quotient of `a` and `b` with its remainder. -/
structure HiLo.DividesUnsigned (a b : UInt32) (r : HiLo) : Prop where
  zero : b = 0 → r = ⟨a, 0xFFFFFFFF⟩
  sum : b ≠ 0 → a.toNat = r.lo.toNat * b.toNat + r.hi.toNat
  below : b ≠ 0 → r.hi.toNat < b.toNat

theorem signed_quotient {a b : UInt32} (h : FitsSigned ((signed a).tdiv (signed b))) :
    signed (a.toInt32 / b.toInt32).toUInt32 = (signed a).tdiv (signed b) := by
  obtain ⟨hlow, hhigh⟩ := h
  rw [signed, Int32.toInt32_toUInt32, Int32.toInt_div]
  apply Int.bmod_eq_of_le_mul_two
  · change _ ≤ (signed a).tdiv (signed b) * 2
    omega
  · change (signed a).tdiv (signed b) * 2 < _
    omega

theorem signed_remainder (a b : UInt32) :
    signed (a.toInt32 % b.toInt32).toUInt32 = (signed a).tmod (signed b) := by
  rw [signed, Int32.toInt32_toUInt32, Int32.toInt_mod, signed, signed]

/-- The quotient is rounded toward zero. -/
theorem signed_divideSigned {a b : UInt32} (h : Divisible a b) :
    signed (divideSigned a b).lo = (signed a).tdiv (signed b) ∧
      signed (divideSigned a b).hi = (signed a).tmod (signed b) := by
  have hfits : FitsSigned ((signed a).tdiv (signed b)) :=
    ((quotient_fits a b).resolve_left h.1).resolve_left h.2
  rw [divideSigned, if_neg (by simpa using h.1), if_neg (by simpa using h.2)]
  exact ⟨signed_quotient hfits, signed_remainder a b⟩

theorem dividesSigned (a b : UInt32) : (divideSigned a b).DividesSigned a b where
  zero := by
    rintro rfl
    rfl
  beyond := by
    rintro rfl rfl
    rfl
  sum h := by
    obtain ⟨hlo, hhi⟩ := signed_divideSigned h
    rw [hlo, hhi, Int.tdiv_mul_add_tmod]
  below h := by
    have hdivisor : signed b ≠ 0 := fun hb => h.1 ((signed_eq_zero_iff b).mp hb)
    rw [(signed_divideSigned h).2, Int.natAbs_tmod]
    exact Nat.mod_lt _ (Int.natAbs_pos.mpr hdivisor)
  sign h := by
    rw [(signed_divideSigned h).2, Int.sign_tmod]
    by_cases hdvd : signed b ∣ signed a
    · exact .inl (Int.tmod_eq_zero_of_dvd hdvd)
    · exact .inr (if_neg hdvd)

theorem dividesUnsigned (a b : UInt32) : (divideUnsigned a b).DividesUnsigned a b where
  zero := by
    rintro rfl
    rfl
  sum h := by
    rw [divideUnsigned, if_neg (by simpa using h), UInt32.toNat_div, UInt32.toNat_mod,
      Nat.div_add_mod']
  below h := by
    have hdivisor : b.toNat ≠ 0 := fun hb => h (UInt32.toNat_inj.mp hb)
    rw [divideUnsigned, if_neg (by simpa using h), UInt32.toNat_mod]
    exact Nat.mod_lt _ (Nat.pos_of_ne_zero hdivisor)

end Arithmetic

open Arithmetic

namespace Cpu

variable {c : Cpu} {b : Bus} {i : Instruction}

/-- The result of the last multiplication or division. -/
def hiLo (c : Cpu) : HiLo :=
  ⟨c.hi, c.lo⟩

/-- A step that carries out an instruction of the multiplier leaves what that computes. -/
theorem step_of_setHiLo {r : HiLo} (hf : c.fetch? b = some i)
    (he : ∀ word b₁, (c.fetched word).execute b₁ i = ((c.fetched word).setHiLo r).done b₁) :
    (c.step b).fault = none ∧ (c.step b).cpu.hiLo = r := by
  obtain ⟨word, b₁, hl, rfl⟩ := load_of_fetch hf
  rw [step_of_load hl, Outcome.after_fault, Outcome.after_cpu, he]
  exact ⟨rfl, rfl⟩

/-- Multiplications leave the exact product, and divisions quotient and remainder;
nothing that they compute on the way is out of range. -/
theorem step_hiLo (hf : c.fetch? b = some i) :
    let s := c.reg i.rs
    let t := c.reg i.rt
    let o := c.step b
    let r := o.cpu.hiLo
    (i.opcode = .mult →
        o.fault = none ∧ multiplySigned? s t = some r ∧ r.toInt = signed s * signed t) ∧
      (i.opcode = .multu →
        o.fault = none ∧ multiplyUnsigned? s t = some r ∧ r.toNat = s.toNat * t.toNat) ∧
      (i.opcode = .div → o.fault = none ∧ divideSigned? s t = some r ∧ r.DividesSigned s t) ∧
      (i.opcode = .divu →
        o.fault = none ∧ divideUnsigned? s t = some r ∧ r.DividesUnsigned s t) := by
  intro s t o r
  refine ⟨?_, ?_, ?_, ?_⟩
  · intro ho
    obtain ⟨hok, hr⟩ : o.fault = none ∧ r = multiplySigned s t :=
      step_of_setHiLo hf fun word b₁ => by rw [execute, ho]; rfl
    rw [hr, multiplySigned?_eq, toInt_multiplySigned]
    exact ⟨hok, rfl, rfl⟩
  · intro ho
    obtain ⟨hok, hr⟩ : o.fault = none ∧ r = multiplyUnsigned s t :=
      step_of_setHiLo hf fun word b₁ => by rw [execute, ho]; rfl
    rw [hr, multiplyUnsigned?_eq, toNat_multiplyUnsigned]
    exact ⟨hok, rfl, rfl⟩
  · intro ho
    obtain ⟨hok, hr⟩ : o.fault = none ∧ r = divideSigned s t :=
      step_of_setHiLo hf fun word b₁ => by rw [execute, ho]; rfl
    rw [hr, divideSigned?_eq]
    exact ⟨hok, rfl, dividesSigned s t⟩
  · intro ho
    obtain ⟨hok, hr⟩ : o.fault = none ∧ r = divideUnsigned s t :=
      step_of_setHiLo hf fun word b₁ => by rw [execute, ho]; rfl
    rw [hr, divideUnsigned?_eq]
    exact ⟨hok, rfl, dividesUnsigned s t⟩

/-- Minus seven by two. -/
theorem step_hiLo_negative :
    let c := ((Cpu.reset.setPc 0x1F8010F8).setReg 8 0xFFFFFFF9).setReg 9 2
    let b : Bus := { dma := { spare := #v[0x0109001A, 0] } }
    c.fetch? b = some (.decode 0x0109001A) ∧
      divideSigned? 0xFFFFFFF9 2 = some (c.step b).cpu.hiLo ∧
      (c.step b).cpu.hiLo.DividesSigned 0xFFFFFFF9 2 ∧
      (c.step b).cpu.hiLo = ⟨0xFFFFFFFF, 0xFFFFFFFD⟩ := by
  intro c b
  have hf : c.fetch? b = some (.decode 0x0109001A) := by decide
  have hs : c.reg (Instruction.decode 0x0109001A).rs = 0xFFFFFFF9 := by decide
  have ht : c.reg (Instruction.decode 0x0109001A).rt = 2 := by decide
  obtain ⟨-, -, hdiv, -⟩ := step_hiLo hf
  rw [hs, ht] at hdiv
  obtain ⟨-, hchecked, hr⟩ := hdiv (by decide)
  have hvalue : divideSigned? 0xFFFFFFF9 2 = some ⟨0xFFFFFFFF, 0xFFFFFFFD⟩ := by decide
  exact ⟨hf, hchecked, hr, Option.some.inj (hchecked.symm.trans hvalue)⟩

end Cpu

end R3000
