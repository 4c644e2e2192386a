import R3000.Cpu.Cop0
import R3000.Proofs.Bits

/-!
# Fields after a change to system control

Writes, traps and returns change some bits of some registers of the bank. The
bits of a word outside the replaced ones are as they were.
-/

namespace R3000

/-- Bits outside `mask` do not change when the bits in `mask` are replaced. -/
theorem replaced_and (a b : UInt32) {mask kept : UInt32} (h : mask &&& kept = 0) :
    ((a &&& ~~~mask) ||| (b &&& mask)) &&& kept = a &&& kept := by
  rw [← UInt32.toNat_inj]
  apply Nat.eq_of_testBit_eq
  intro i
  -- A bit that is kept is not in the mask, by `h` at that bit.
  have hbit := congrArg (fun v : UInt32 => v.toNat.testBit i) h
  simp only [UInt32.toNat_and, Nat.testBit_and, UInt32.toNat_ofNat, Nat.zero_mod,
    Nat.zero_testBit] at hbit
  rw [UInt32.toNat_and, Nat.testBit_and, testBit_replaced, UInt32.toNat_and, Nat.testBit_and]
  cases hmask : mask.toNat.testBit i <;> simp_all

namespace Status

/-- Entering a trap clears the current level and moves the lower two up. -/
theorem testBit_push (status : UInt32) (i : Nat) :
    (push status).toNat.testBit i =
      if i < 6 then decide (2 ≤ i) && status.toNat.testBit (i - 2) else status.toNat.testBit i := by
  have hmask : modeStack.toNat.testBit i = decide (i < 6) := Nat.testBit_two_pow_sub_one 6 i
  rw [push, testBit_replaced, hmask]
  by_cases hi : i < 6
  · rw [decide_eq_true hi, if_pos rfl, if_pos hi,
      testBit_shiftLeft status (k := 2) rfl (by decide) (by omega)]
  · rw [decide_eq_false hi, if_neg Bool.false_ne_true, if_neg hi]

/-- Returning moves the upper two levels down and keeps the uppermost. -/
theorem testBit_pop (status : UInt32) (i : Nat) :
    (pop status).toNat.testBit i =
      if i < 4 then status.toNat.testBit (2 + i) else status.toNat.testBit i := by
  have hmask : lowerLevels.toNat.testBit i = decide (i < 4) := Nat.testBit_two_pow_sub_one 4 i
  rw [pop, testBit_replaced, hmask, testBit_shiftRight status (k := 2) rfl (by decide)]
  by_cases hi : i < 4
  · rw [decide_eq_true hi, if_pos rfl, if_pos hi]
  · rw [decide_eq_false hi, if_neg Bool.false_ne_true, if_neg hi]

@[simp] theorem isolates_push (status : UInt32) : isolates (push status) = isolates status := by
  rw [isolates, push, replaced_and _ _ (by decide), isolates]

@[simp] theorem isolates_pop (status : UInt32) : isolates (pop status) = isolates status := by
  rw [isolates, pop, replaced_and _ _ (by decide), isolates]

end Status

namespace Cause

theorem testBit_codeMask (i : Nat) : codeMask.toNat.testBit i = decide (2 ≤ i ∧ i < 7) := by
  have hmask : codeMask.toNat = 2 ^ 2 * (2 ^ 5 - 1) := rfl
  rw [hmask, Nat.testBit_two_pow_mul, Nat.testBit_two_pow_sub_one, ← Bool.decide_and,
    decide_eq_decide]
  omega

theorem testBit_code (cause : UInt32) (i : Nat) :
    (code cause).toNat.testBit i = (decide (i < 5) && cause.toNat.testBit (2 + i)) := by
  rw [code, testBit_shiftRight _ (k := 2) rfl (by decide), UInt32.toNat_and, Nat.testBit_and,
    testBit_codeMask, Bool.and_comm]
  congr 1
  rw [decide_eq_decide]
  omega

theorem testBit_withCode (cause code : UInt32) (i : Nat) :
    (withCode cause code).toNat.testBit i =
      if 2 ≤ i ∧ i < 7 then code.toNat.testBit (i - 2) else cause.toNat.testBit i := by
  rw [withCode, testBit_replaced, testBit_codeMask]
  by_cases hi : 2 ≤ i ∧ i < 7
  · rw [decide_eq_true hi, if_pos rfl, if_pos hi,
      testBit_shiftLeft code (k := 2) rfl (by decide) (by omega), decide_eq_true hi.1, Bool.true_and]
  · rw [decide_eq_false hi, if_neg Bool.false_ne_true, if_neg hi]

end Cause

namespace Cop0

section

variable (c : Cop0) (i j : Fin 32) (value : UInt32)

theorem get_set : (c.set i value).get j = if j = i then value else c.get j := by
  unfold get set
  by_cases h : j = i
  · simp [h]
  · have hv : i.val ≠ j.val := fun he => h (Fin.ext he.symm)
    simp [h, Vector.getElem_set_ne _ _ hv]

@[simp] theorem status_set_cause : (c.set causeIndex value).status = c.status := by
  rw [status, get_set, if_neg (by decide), status]

@[simp] theorem status_set_epc : (c.set epcIndex value).status = c.status := by
  rw [status, get_set, if_neg (by decide), status]

@[simp] theorem status_set_status : (c.set statusIndex value).status = value := by
  rw [status, get_set, if_pos rfl]

/-- A write by number leaves the other registers. -/
theorem get_write {i j : Fin 32} (h : i ≠ j) : (c.write i value).get j = c.get j := by
  rw [write]
  split
  · rename_i hi
    rw [get_set, if_neg (hi ▸ h.symm)]
  · split
    · rfl
    · rw [get_set, if_neg h.symm]

theorem status_write (h : i ≠ statusIndex) : (c.write i value).status = c.status :=
  c.get_write value h

end

@[simp] theorem status_setHardwareInterrupt (c : Cop0) (line : UInt32) (asserted : Bool) :
    (c.setHardwareInterrupt line asserted).status = c.status :=
  status_set_cause ..

theorem get_setHardwareInterrupt (c : Cop0) (line : UInt32) (asserted : Bool) {j : Fin 32}
    (hj : j ≠ causeIndex) : (c.setHardwareInterrupt line asserted).get j = c.get j := by
  rw [setHardwareInterrupt, get_set, if_neg hj]

/-- The first hardware line has bit 10 of Cause, and drives nothing else there. -/
theorem testBit_cause_setHardwareInterrupt (c : Cop0) (asserted : Bool) (i : Nat) :
    (c.setHardwareInterrupt 0 asserted).cause.toNat.testBit i =
      if i = 10 then asserted else c.cause.toNat.testBit i := by
  have hcause : (c.setHardwareInterrupt 0 asserted).cause =
      if asserted then c.cause ||| Cause.lineBit 0 else c.cause &&& ~~~Cause.lineBit 0 := by
    rw [cause, setHardwareInterrupt, get_set, if_pos rfl]
  have hline : (Cause.lineBit 0).toNat.testBit i = decide (i = 10) := by
    have hbit : (Cause.lineBit 0).toNat = 2 ^ 10 := rfl
    rw [hbit, Nat.testBit_two_pow, decide_eq_decide]
    exact eq_comm
  rw [hcause]
  cases asserted with
  | true =>
    rw [if_pos rfl, UInt32.toNat_or, Nat.testBit_or, hline]
    by_cases hi : i = 10 <;> simp [hi]
  | false =>
    rw [if_neg Bool.false_ne_true, testBit_cleared, hline]
    by_cases hi : i = 10 <;> simp [hi]

theorem status_enterTrap (c : Cop0) (t : Trap) (pc : UInt32) :
    (c.enterTrap t pc).status = Status.push c.status := by
  simp only [enterTrap, status_set_epc, status_set_cause, status_set_status]

theorem epc_enterTrap (c : Cop0) (t : Trap) (pc : UInt32) : (c.enterTrap t pc).epc = pc := by
  rw [epc, enterTrap, get_set, if_pos rfl]

/-- Of Cause a trap replaces the code and clears the topmost bit. -/
theorem testBit_cause_enterTrap (c : Cop0) (t : Trap) (pc : UInt32) (i : Nat) :
    (c.enterTrap t pc).cause.toNat.testBit i =
      if 2 ≤ i ∧ i < 7 then t.code.toNat.testBit (i - 2)
      else decide (i ≠ 31) && c.cause.toNat.testBit i := by
  have hcause : (c.enterTrap t pc).cause =
      Cause.withCode c.cause t.code &&& ~~~Cause.delaySlot := by
    rw [cause, enterTrap, get_set, if_neg (by decide), get_set, if_pos rfl]
  have hslot : Cause.delaySlot.toNat = 2 ^ 31 := rfl
  rw [hcause, testBit_cleared, Cause.testBit_withCode, hslot, Nat.testBit_two_pow]
  by_cases hi : 2 ≤ i ∧ i < 7
  · rw [if_pos hi, if_pos hi, decide_eq_false (by omega), Bool.not_false, Bool.and_true]
  · rw [if_neg hi, if_neg hi, Bool.and_comm, ← decide_not, decide_eq_decide.mpr ne_comm]

theorem code_enterTrap (c : Cop0) (t : Trap) (pc : UInt32) :
    Cause.code (c.enterTrap t pc).cause = t.code := by
  have hcode : t.code.toNat < 2 ^ 5 := by cases t <;> decide
  rw [← UInt32.toNat_inj]
  apply Nat.eq_of_testBit_eq
  intro i
  rw [Cause.testBit_code, testBit_cause_enterTrap]
  by_cases hi : i < 5
  · rw [decide_eq_true hi, Bool.true_and, if_pos (by omega), Nat.add_sub_cancel_left]
  · have hbound : t.code.toNat < 2 ^ i :=
      Nat.lt_of_lt_of_le hcode (Nat.pow_le_pow_right (by decide) (Nat.le_of_not_lt hi))
    rw [decide_eq_false hi, Bool.false_and, Nat.testBit_lt_two_pow hbound]

theorem get_enterTrap (c : Cop0) (t : Trap) (pc : UInt32) {j : Fin 32}
    (hj : j ∉ [statusIndex, causeIndex, epcIndex]) : (c.enterTrap t pc).get j = c.get j := by
  simp only [List.mem_cons, List.not_mem_nil, or_false, not_or] at hj
  rw [enterTrap, get_set, if_neg hj.2.2, get_set, if_neg hj.2.1, get_set, if_neg hj.1]

theorem get_leaveTrap (c : Cop0) {j : Fin 32} (hj : j ≠ statusIndex) :
    c.leaveTrap.get j = c.get j := by
  rw [leaveTrap, get_set, if_neg hj]

theorem status_leaveTrap (c : Cop0) : c.leaveTrap.status = Status.pop c.status :=
  status_set_status ..

end Cop0

end R3000
