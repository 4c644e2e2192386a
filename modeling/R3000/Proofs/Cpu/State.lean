import R3000.Cpu.State

/-!
# Fields after a register write

A register write changes one general register and nothing else, and none at all
when the register is zero. No two registers have one name.
-/

namespace R3000

theorem RegisterIndex.name_inj {r r' : RegisterIndex} : r.name = r'.name ↔ r = r' := by
  have hnames : ∀ r r' : RegisterIndex, r.name = r'.name → r = r' := by decide +kernel
  exact ⟨hnames r r', congrArg name⟩

namespace Cpu

section

variable (c : Cpu) (r q : RegisterIndex) (value : UInt32)

@[simp] theorem setReg_zero : c.setReg 0 value = c :=
  if_pos rfl

theorem setReg_eq : c.setReg r value = { c with registers := (c.setReg r value).registers } := by
  unfold setReg
  split <;> rfl

@[simp] theorem setReg_pc : (c.setReg r value).pc = c.pc := by
  rw [setReg_eq]

@[simp] theorem setReg_nextPc : (c.setReg r value).nextPc = c.nextPc := by
  rw [setReg_eq]

@[simp] theorem setReg_currentPc : (c.setReg r value).currentPc = c.currentPc := by
  rw [setReg_eq]

@[simp] theorem setReg_currentInstruction :
    (c.setReg r value).currentInstruction = c.currentInstruction := by
  rw [setReg_eq]

@[simp] theorem setReg_hi : (c.setReg r value).hi = c.hi := by
  rw [setReg_eq]

@[simp] theorem setReg_lo : (c.setReg r value).lo = c.lo := by
  rw [setReg_eq]

@[simp] theorem setReg_cop0 : (c.setReg r value).cop0 = c.cop0 := by
  rw [setReg_eq]

theorem reg_setReg :
    (c.setReg r value).reg q = if q = r ∧ r ≠ 0 then value else c.reg q := by
  unfold setReg reg
  by_cases hr : r = 0
  · simp [hr]
  · rw [if_neg hr]
    by_cases hq : q = r
    · subst hq
      simp [hr]
    · have hv : r.val ≠ q.val := fun h => hq (Fin.ext h.symm)
      simp [hq, Vector.getElem_set_ne _ _ hv]

theorem reg_setReg_self (hr : r ≠ 0) : (c.setReg r value).reg r = value := by
  rw [reg_setReg, if_pos ⟨rfl, hr⟩]

/-- The later of two writes to one register counts. -/
theorem setReg_setReg (value' : UInt32) :
    (c.setReg r value).setReg r value' = c.setReg r value' := by
  by_cases hr : r = 0
  · subst hr
    rw [setReg_zero, setReg_zero, setReg_zero]
  · simp only [setReg, if_neg hr, Vector.set_set]

end

/-- Register zero holds zero. -/
def ZeroFixed (c : Cpu) : Prop :=
  c.reg 0 = 0

theorem ZeroFixed.setReg {c : Cpu} (h : c.ZeroFixed) (r : RegisterIndex) (value : UInt32) :
    (c.setReg r value).ZeroFixed := by
  rw [ZeroFixed, reg_setReg, if_neg fun hr => hr.2 hr.1.symm]
  exact h

end Cpu

end R3000
