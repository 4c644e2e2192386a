import R3000.Proofs.Cpu.Cop0
import R3000.Proofs.Cpu.Frame

/-!
# Traps

Arithmetic that is checked traps exactly when its exact result does not fit, and is
what it would be without the check otherwise. Whatever the trap is, `Entered` says
what it leaves: where it was taken and why, the mode stack with a level more, and
everything else as it was.
-/

namespace R3000

open Arithmetic

/-- `j` is the instruction `i` without the check of its result. -/
inductive Instruction.Unchecked (i j : Instruction) : Prop where
  | add (hi : i.opcode = .add) (hj : j.opcode = .addu) (hs : j.rs = i.rs) (ht : j.rt = i.rt)
      (hd : j.rd = i.rd)
  | addi (hi : i.opcode = .addi) (hj : j.opcode = .addiu) (hs : j.rs = i.rs) (ht : j.rt = i.rt)
      (hm : j.imm = i.imm)
  | sub (hi : i.opcode = .sub) (hj : j.opcode = .subu) (hs : j.rs = i.rs) (ht : j.rt = i.rt)
      (hd : j.rd = i.rd)

example : Instruction.Unchecked (.decode 0x010A4822) (.decode 0x010A4823) :=
  .sub (by decide) (by decide) (by decide) (by decide) (by decide)

theorem Instruction.signed_immSigned (i : Instruction) :
    signed i.immSigned = i.signedImm.toInt := by
  rw [signed, immSigned, Int32.toInt32_toUInt32, Int16.toInt_toInt32]

namespace Cpu

variable {c : Cpu} {b b₁ : Bus} {i j : Instruction} {word : UInt32} {t : Trap} {result : Int}

/-- Carrying out the instruction `i` is taking the trap `t`. -/
def Takes (c : Cpu) (b : Bus) (i : Instruction) (t : Trap) : Prop :=
  c.execute b i = c.trap b t

/-- The exact result of an instruction that is checked. -/
def exactResult? (c : Cpu) (i : Instruction) : Option Int :=
  match i.opcode with
  | .add => some (signed (c.reg i.rs) + signed (c.reg i.rt))
  | .addi => some (signed (c.reg i.rs) + i.signedImm.toInt)
  | .sub => some (signed (c.reg i.rs) - signed (c.reg i.rt))
  | _ => none

/-- What a trap from the state `c` leaves, its code being `code`. The instruction
was fetched over the bus, which left that as `b`. -/
structure Entered (c : Cpu) (b : Bus) (code : UInt32) (o : Outcome) : Prop where
  fault : o.fault = none
  epc : o.cpu.cop0.epc = c.pc
  code : Cause.code o.cpu.cop0.cause = code
  delaySlot : o.cpu.cop0.cause.toNat.testBit 31 = false
  cause : ∀ k, ¬ (2 ≤ k ∧ k < 7) → k ≠ 31 →
    o.cpu.cop0.cause.toNat.testBit k = c.cop0.cause.toNat.testBit k
  current : ∀ k < 2, o.cpu.cop0.status.toNat.testBit k = false
  levels : ∀ k < 4, o.cpu.cop0.status.toNat.testBit (k + 2) = c.cop0.status.toNat.testBit k
  status : ∀ k, 6 ≤ k → o.cpu.cop0.status.toNat.testBit k = c.cop0.status.toNat.testBit k
  pc : o.cpu.pc = if c.cop0.status.toNat.testBit 22 then 0xBFC00180 else 0x80000080
  nextPc : o.cpu.nextPc = o.cpu.pc + 4
  registers : o.cpu.registers = c.registers
  hi : o.cpu.hi = c.hi
  lo : o.cpu.lo = c.lo
  cop0 : ∀ j, j ∉ [Cop0.statusIndex, Cop0.causeIndex, Cop0.epcIndex] →
    o.cpu.cop0.get j = c.cop0.get j
  bus : o.bus = b

/-! ## Which instructions trap -/

theorem trap?_of_exactResult (h : c.exactResult? i = some result) :
    i.opcode ∈ Opcode.trapping ∧ c.trap? i = overflowTrap? result := by
  unfold exactResult? at h
  unfold trap?
  cases ho : i.opcode with
  | add | sub =>
    rw [ho] at h
    obtain rfl := Option.some.inj h
    exact ⟨by decide, rfl⟩
  | addi =>
    rw [ho] at h
    obtain rfl := Option.some.inj h
    rw [i.signed_immSigned]
    exact ⟨by decide, rfl⟩
  | _ =>
    rw [ho] at h
    nomatch h

/-- Writing a register is not a trap: a trap is reported. -/
theorem done_ne_trap (c' : Cpu) (b : Bus) (t : Trap) : c'.done b ≠ c.trap b t := by
  intro h
  nomatch congrArg Outcome.notes h

theorem takes_of_trap (c : Cpu) (word : UInt32) (b : Bus) (h : c.trap? i = some t) :
    (c.fetched word).Takes b i t := by
  rcases c.execute_trapping word b (trapping_of_trap h) with ⟨t', ht', htaken⟩ | ⟨hnone, -⟩
  · obtain rfl := Option.some.inj (h.symm.trans ht')
    exact htaken
  · nomatch h.symm.trans hnone

/-- Checked arithmetic whose result fits writes a register and takes no trap. -/
theorem execute_of_fits (c : Cpu) (word : UInt32) (b : Bus)
    (h : c.exactResult? i = some result) (hf : FitsSigned result) :
    ∃ r value, (c.fetched word).execute b i = ((c.fetched word).setReg r value).done b := by
  obtain ⟨ho, htrap⟩ := trap?_of_exactResult h
  rw [overflowTrap?, if_pos hf] at htrap
  rcases c.execute_trapping word b ho with ⟨t, ht, -⟩ | ⟨-, hdone⟩
  · nomatch htrap.symm.trans ht
  · exact hdone

theorem takes_overflow_iff (c : Cpu) (word : UInt32) (b : Bus)
    (h : c.exactResult? i = some result) :
    (c.fetched word).Takes b i .overflow ↔ ¬ FitsSigned result := by
  constructor
  · intro htaken hf
    obtain ⟨r, value, hdone⟩ := c.execute_of_fits word b h hf
    exact done_ne_trap _ _ _ (hdone.symm.trans htaken)
  · intro hf
    obtain ⟨-, htrap⟩ := trap?_of_exactResult h
    rw [overflowTrap?, if_neg hf] at htrap
    exact c.takes_of_trap word b htrap

/-- Arithmetic whose result fits is what it would be without the check. -/
theorem execute_unchecked (hu : i.Unchecked j) (h : c.exactResult? i = some result)
    (hf : FitsSigned result) (b : Bus) : c.execute b i = c.execute b j := by
  cases hu with
  | add hi hj hs ht hd =>
    simp only [exactResult?, hi, Option.some.injEq] at h
    subst h
    simp only [execute, hi, hj, hs, ht, hd]
    exact checked_of_fits (addOverflows_iff _ _) hf
  | addi hi hj hs ht hm =>
    simp only [exactResult?, hi, Option.some.injEq, ← i.signed_immSigned] at h
    subst h
    have himm : j.immSigned = i.immSigned := by
      rw [Instruction.immSigned, Instruction.signedImm, hm]
      rfl
    simp only [execute, hi, hj, hs, ht, himm]
    exact checked_of_fits (addOverflows_iff _ _) hf
  | sub hi hj hs ht hd =>
    simp only [exactResult?, hi, Option.some.injEq] at h
    subst h
    simp only [execute, hi, hj, hs, ht, hd]
    exact checked_of_fits (subOverflows_iff _ _) hf

/-! ## What a trap leaves -/

theorem trapVector_eq (status : UInt32) :
    trapVector status = if status.toNat.testBit 22 then 0xBFC00180 else 0x80000080 := by
  rw [trapVector, Status.usesBootVectors, and_ne_zero_eq_testBit (k := 22) rfl]

theorem entered_of_enterTrap {o : Outcome} (hfault : o.fault = none)
    (hcpu : o.cpu = (c.fetched word).enterTrap t) (hbus : o.bus = b) :
    c.Entered b t.code o := by
  have hcop0 : o.cpu.cop0 = c.cop0.enterTrap t c.pc := congrArg Cpu.cop0 hcpu
  have hstatus : o.cpu.cop0.status = Status.push c.cop0.status := by
    rw [hcop0, Cop0.status_enterTrap]
  have hpc : o.cpu.pc = trapVector c.cop0.status := congrArg Cpu.pc hcpu
  exact {
    fault := hfault
    epc := by rw [hcop0, Cop0.epc_enterTrap]
    code := by rw [hcop0, Cop0.code_enterTrap]
    delaySlot := by rw [hcop0]; exact Cop0.testBit_cause_enterTrap ..
    cause := fun k hcode hslot => by
      rw [hcop0, Cop0.testBit_cause_enterTrap, if_neg hcode, decide_eq_true hslot, Bool.true_and]
    current := fun k hk => by
      rw [hstatus, Status.testBit_push, if_pos (by omega), decide_eq_false (by omega),
        Bool.false_and]
    levels := fun k hk => by
      rw [hstatus, Status.testBit_push, if_pos (by omega), decide_eq_true (by omega),
        Bool.true_and, Nat.add_sub_cancel]
    status := fun k hk => by rw [hstatus, Status.testBit_push, if_neg (by omega)]
    pc := by rw [hpc, trapVector_eq]
    nextPc := by
      rw [hpc]
      exact congrArg Cpu.nextPc hcpu
    registers := by rw [hcpu]; rfl
    hi := by rw [hcpu]; rfl
    lo := by rw [hcpu]; rfl
    cop0 := fun j hj => by rw [hcop0, Cop0.get_enterTrap _ _ _ hj]
    bus := hbus }

/-- A step that takes a trap leaves what the trap does. -/
theorem step_of_takes (hl : b.load .word c.pc = .ok (word, b₁))
    (ht : (c.fetched word).Takes b₁ (.decode word) t) : c.Entered b₁ t.code (c.step b) := by
  rw [Takes] at ht
  have hfault : (c.step b).fault = none := by
    rw [step_of_load hl, Outcome.after_fault, ht]
    rfl
  have hcpu : (c.step b).cpu = (c.fetched word).enterTrap t := by
    rw [step_of_load hl, Outcome.after_cpu, ht]
    rfl
  have hbus : (c.step b).bus = b₁ := by
    rw [step_of_load hl, Outcome.after_bus, ht]
    rfl
  exact entered_of_enterTrap hfault hcpu hbus

/-- Checked arithmetic traps exactly when its exact result does not fit, and is as
without the check otherwise; every trap, in a delay slot too, leaves what `Entered` says. -/
theorem step_traps (hl : b.load .word c.pc = .ok (word, b₁)) :
    let i := Instruction.decode word
    let f := c.fetched word
    let o := c.step b
    (∀ result, c.exactResult? i = some result →
        (f.Takes b₁ i .overflow ↔ ¬ FitsSigned result) ∧
          (¬ FitsSigned result → c.Entered b₁ 12 o) ∧
          (FitsSigned result → ∀ j, i.Unchecked j →
            o = Outcome.after (Bus.loadNotes .word c.pc) (f.execute b₁ j) ∧ o.fault = none)) ∧
      (i.opcode = .syscall → c.Entered b₁ 8 o) ∧
      (i.opcode = .breakpoint → c.Entered b₁ 9 o) ∧
      ∀ t, f.Takes b₁ i t → c.Entered b₁ t.code o := by
  intro i f o
  refine ⟨fun result h => ⟨takes_overflow_iff c word b₁ h, fun hf => ?_, fun hf j hu => ?_⟩, ?_,
    ?_, fun t ht => step_of_takes hl ht⟩
  · exact step_of_takes (t := .overflow) hl ((takes_overflow_iff c word b₁ h).mpr hf)
  · obtain ⟨r, value, hdone⟩ := c.execute_of_fits word b₁ h hf
    have hstep : o = Outcome.after (Bus.loadNotes .word c.pc) (f.execute b₁ i) := by
      refine (step_of_load hl).trans ?_
      rw [hdone]
      rfl
    refine ⟨?_, ?_⟩
    · rw [hstep, execute_unchecked (c := f) hu h hf]
    · rw [hstep, Outcome.after_fault, hdone]
      rfl
  · intro ho
    have htrap : c.trap? i = some .syscall := by simp only [trap?, ho]
    exact step_of_takes hl (c.takes_of_trap word b₁ htrap)
  · intro ho
    have htrap : c.trap? i = some .breakpoint := by simp only [trap?, ho]
    exact step_of_takes hl (c.takes_of_trap word b₁ htrap)

/-- The least number less one, in the delay slot of a jump. -/
theorem step_traps_slot :
    let c : Cpu := { (Cpu.reset.setReg 8 0x80000000).setReg 10 1 with
      pc := 0x1F8010F8
      nextPc := 0x80001000
      cop0 := (Cop0.reset.set Cop0.statusIndex 0x0000040B).set Cop0.causeIndex 0xA0000300 }
    let b : Bus := { dma := { spare := #v[0x010A4822, 0] } }
    ∃ b₁, b.load .word c.pc = .ok (0x010A4822, b₁) ∧
      c.exactResult? (.decode 0x010A4822) = some (-2 ^ 31 - 1) ∧ ¬ FitsSigned (-2 ^ 31 - 1) ∧
      c.Entered b₁ 12 (c.step b) := by
  intro c b
  have hf : c.fetch? b = some (.decode 0x010A4822) := by decide
  obtain ⟨word, b₁, hl, hword⟩ := load_of_fetch hf
  obtain rfl : 0x010A4822 = word := congrArg Instruction.word hword
  have hresult : c.exactResult? (.decode 0x010A4822) = some (-2 ^ 31 - 1) := by decide
  have hbeyond : ¬ FitsSigned (-2 ^ 31 - 1) := by decide
  obtain ⟨harithmetic, -⟩ := step_traps hl
  exact ⟨b₁, hl, hresult, hbeyond, (harithmetic _ hresult).2.1 hbeyond⟩

end Cpu

end R3000
