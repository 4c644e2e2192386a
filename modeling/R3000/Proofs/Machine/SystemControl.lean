import R3000.Proofs.Bits
import R3000.Proofs.Machine.Consistency

/-!
# The bank of system control

Programs and devices write the bank through four operations only. What these
preserve, every step preserves, and with it every operation of a host that
restores its own snapshots. So the processor's number never changes, and Cause
shows nothing but a trap's code, the software interrupts and the first
hardware line.
-/

namespace R3000

theorem Status.isolates_eq_testBit (status : UInt32) :
    isolates status = status.toNat.testBit 16 :=
  and_ne_zero_eq_testBit rfl status

namespace Cause

/-- The bits that are ever set: the trap's code, the software interrupts and
the first hardware line. -/
def used : UInt32 := codeMask ||| writable ||| lineBit 0

theorem testBit_used {i : Nat} (h : used.toNat.testBit i = true) :
    (2 ≤ i ∧ i ≤ 6) ∨ (8 ≤ i ∧ i ≤ 10) := by
  have hlow : ∀ i < 11, used.toNat.testBit i = true → (2 ≤ i ∧ i ≤ 6) ∨ (8 ≤ i ∧ i ≤ 10) := by
    decide
  by_cases hi : i < 11
  · exact hlow i hi h
  · have hhigh : used.toNat < 2 ^ i :=
      Nat.lt_of_lt_of_le (by decide : used.toNat < 2 ^ 11)
        (Nat.pow_le_pow_right (by decide) (Nat.le_of_not_lt hi))
    rw [Nat.testBit_lt_two_pow hhigh] at h
    nomatch h

theorem within_withCode {cause : UInt32} (h : Within used cause) (code : UInt32) :
    Within used (withCode cause code) :=
  (h.and_left _).or (.and_right _ (.of_and_eq (by decide)))

end Cause

/-! ## The four operations -/

namespace Cop0

/-- The operations on the bank that programs and devices have preserve `P`. -/
structure Stable (P : Cop0 → Prop) : Prop where
  write : ∀ c i value, P c → P (c.write i value)
  enterTrap : ∀ c t pc, P c → P (c.enterTrap t pc)
  leaveTrap : ∀ c, P c → P c.leaveTrap
  -- No device drives the other lines.
  interrupt : ∀ c asserted, P c → P (c.setHardwareInterrupt 0 asserted)

/-- The processor's number is fixed and Cause shows only what is used of it. -/
structure Regular (c : Cop0) : Prop where
  processor : c.get processorIndex = 2
  cause : Within Cause.used c.cause

namespace Regular

variable {c : Cop0}

theorem reset : Cop0.reset.Regular where
  processor := by decide
  cause := .of_and_eq (by decide)

theorem setCause (h : c.Regular) {value : UInt32} (hv : Within Cause.used value) :
    (c.set causeIndex value).Regular where
  processor := by
    rw [get_set, if_neg (by decide)]
    exact h.processor
  cause := by
    rw [Cop0.cause, get_set, if_pos rfl]
    exact hv

/-- The other registers may hold anything. -/
theorem setOther (h : c.Regular) {i : Fin 32} (hc : i ≠ causeIndex) (hp : i ≠ processorIndex)
    (value : UInt32) : (c.set i value).Regular where
  processor := by
    rw [get_set, if_neg hp.symm]
    exact h.processor
  cause := by
    rw [Cop0.cause, get_set, if_neg hc.symm]
    exact h.cause

theorem write (h : c.Regular) (i : Fin 32) (value : UInt32) : (c.write i value).Regular := by
  unfold Cop0.write
  split
  -- Of a value written to Cause only the software interrupts are taken.
  · exact h.setCause ((h.cause.and_left _).or (.and_right value (.of_and_eq (by decide))))
  · rename_i hc
    split
    · exact h
    · rename_i hp
      exact h.setOther hc hp value

theorem enterTrap (h : c.Regular) (t : Trap) (pc : UInt32) : (c.enterTrap t pc).Regular := by
  have hstatus := h.setOther (i := statusIndex) (by decide) (by decide) (Status.push c.status)
  have hcause := hstatus.setCause
    ((Cause.within_withCode h.cause t.code).and_left (~~~Cause.delaySlot))
  exact hcause.setOther (by decide) (by decide) pc

theorem leaveTrap (h : c.Regular) : c.leaveTrap.Regular :=
  h.setOther (by decide) (by decide) _

theorem interrupt (h : c.Regular) (asserted : Bool) :
    (c.setHardwareInterrupt 0 asserted).Regular := by
  cases asserted with
  | true => exact h.setCause (h.cause.or (.of_and_eq (by decide)))
  | false => exact h.setCause (h.cause.and_left _)

end Regular

theorem stable_regular : Stable Regular where
  write _ i value h := h.write i value
  enterTrap _ t pc h := h.enterTrap t pc
  leaveTrap _ h := h.leaveTrap
  interrupt _ asserted h := h.interrupt asserted

/-! ## Instructions and steps -/

namespace Stable

variable {P : Cop0 → Prop} (hP : Stable P)
include hP

theorem executes {c c' : Cpu} {b b' : Bus} {i : Instruction} {fault? : Option Error}
    (he : c.Executes b i c' b' fault?) (h : P c.cop0) : P c'.cop0 := by
  cases he with
  | register => rwa [Cpu.setReg_cop0]
  | load => rwa [Cpu.setReg_cop0]
  | linkTransfer =>
    rw [Cpu.jump, Cpu.link, Cpu.setReg_cop0]
    exact h
  | trap => exact hP.enterTrap _ _ _ h
  | system value => exact hP.write _ _ value h
  | systemStatus value => exact hP.write _ statusIndex value h
  | leave => exact hP.leaveTrap _ h
  | _ => exact h

theorem step {c : Cpu} (h : P c.cop0) (b : Bus) : P (c.step b).cpu.cop0 := by
  rcases c.step_cases b with ⟨e, -, hcpu, -, -⟩ | ⟨word, b₁, -, fault?, he, -⟩
  · rw [hcpu]
    exact h
  · exact hP.executes he h

theorem advance {c : Cpu} (h : P c.cop0) (order : TickOrder) (b : Bus) :
    P (Machine.advance order c b).cpu.cop0 :=
  Machine.advance_preserves (P := fun c _ => P c.cop0) (fun _ b hc => hP.step hc b)
    (fun _ _ hc => hP.interrupt _ _ hc) order h

theorem machineStep (m : Machine) (h : P m.cpu.cop0) : P m.step.machine.cpu.cop0 := by
  rw [Machine.step_cpu]
  exact hP.advance h m.order m.bus

/-- A host changes the bank by steps and resets, and by restoring a snapshot. -/
theorem perform (h₀ : P Cop0.reset) {m : Machine} (operation : Operation)
    (hs : ∀ s, operation = .restore s → P s.cpu.cop0) (h : P m.cpu.cop0) :
    P (m.perform operation).machine.cpu.cop0 := by
  have hsettle (notes : List Note) (answer : Except Error Bus) :
      P (m.settle notes answer).machine.cpu.cop0 := by
    cases answer <;> exact h
  cases operation with
  | step => exact hP.machineStep m h
  | steps n => exact Machine.steps_preserves (P := (P ·.cpu.cop0)) hP.machineStep n h
  | run limit => exact Machine.run_preserves (P := (P ·.cpu.cop0)) hP.machineStep limit h
  | reset =>
    simp only [Machine.perform, Machine.reset]
    cases m.calls <;> exact h₀
  | loadBios image =>
    simp only [Machine.perform, Machine.loadBios, Bus.loadBios]
    cases Bank.ofBytes? Region.bios.size image <;> exact h
  | load x =>
    simp only [Machine.perform, Machine.load, Machine.enter]
    cases x.initialStack? <;> simp only [Cpu.setReg_cop0] <;> exact h
  | restore s =>
    simp only [Machine.perform]
    cases hr : m.restore s with
    | error e => exact h
    | ok m' =>
      rw [Machine.restore_ok hr]
      exact hs s rfl
  | busLoad | busStore | copyToRam | fillRam | completeDma | takeTriggered | drainQueue =>
    exact hsettle _ _
  | setOrder | startTrace | stopTrace => exact h
  | reportCalls on =>
    simp only [Machine.perform, Machine.reportCalls]
    cases on <;> cases m.calls <;> exact h

end Stable

end Cop0

/-! ## Machines -/

namespace Machine

theorem Attainable.regular {m : Machine} (h : m.Attainable) : m.cpu.cop0.Regular := by
  induction h with
  | start => exact .reset
  | perform operation _ ho ih =>
    exact Cop0.stable_regular.perform .reset operation (fun s hs => absurd hs (ho s)) ih
  | @restore m saved timestamp _ _ ih ihs =>
    -- A snapshot keeps the bank of the machine it was saved from.
    apply Cop0.stable_regular.perform .reset _ _ ih
    rintro s ⟨⟩
    exact ihs

/-- In every machine that a host gets to without writing the bank, the bus or a
snapshot by hand, the bus knows the isolation bit of Status, register zero is
zero, the processor's number is 2, and Cause shows only a code, the software
interrupts and the first hardware line. -/
theorem Attainable.control_bits {m : Machine} (h : m.Attainable) :
    m.bus.isolated = m.cpu.cop0.status.toNat.testBit 16 ∧ m.cpu.reg 0 = 0 ∧
      m.cpu.cop0.get Cop0.processorIndex = 2 ∧
      ∀ i, m.cpu.cop0.cause.toNat.testBit i = true → (2 ≤ i ∧ i ≤ 6) ∨ (8 ≤ i ∧ i ≤ 10) := by
  have hcoherent : m.Coherent := h.reachable.coherent
  refine ⟨?_, hcoherent.zero, h.regular.processor, ?_⟩
  · rw [hcoherent.isolated, Status.isolates_eq_testBit]
  · intro i hi
    exact Cause.testBit_used (h.regular.cause i hi)

/-- A machine that was stepped with its devices first, was reset, and goes on
from a snapshot of another one. -/
theorem Attainable.control_bits_restored :
    ∃ saved old m : Machine, saved = performAll {} [.busStore .word 0x1F801104 8, .steps 10] ∧
      old = performAll {} [.setOrder .peripheralsFirst, .step, .reset] ∧
      m = (old.perform (.restore (saved.save ⟨0, 0⟩))).machine ∧ m.Attainable ∧
      m.bus.isolated = m.cpu.cop0.status.toNat.testBit 16 ∧ m.cpu.reg 0 = 0 ∧
      m.cpu.cop0.get Cop0.processorIndex = 2 ∧
      ∀ i, m.cpu.cop0.cause.toNat.testBit i = true → (2 ≤ i ∧ i ≤ 6) ∨ (8 ≤ i ∧ i ≤ 10) := by
  have hsaved : (performAll {} [.busStore .word 0x1F801104 8, .steps 10]).Attainable :=
    attainable_performAll .start _ (by simp)
  have hold : (performAll {} [.setOrder .peripheralsFirst, .step, .reset]).Attainable :=
    attainable_performAll .start _ (by simp)
  have h := hold.restore ⟨0, 0⟩ hsaved
  exact ⟨_, _, _, rfl, rfl, rfl, h, h.control_bits⟩

end Machine

end R3000
