import R3000.Proofs.Cpu.Cop0
import R3000.Proofs.Cpu.Sequencing
import R3000.Proofs.Machine.TickOrder

/-!
# The interrupt line in Cause

The first hardware line of Cause shows whether the interrupt controller has an
interrupt that its mask lets through. A tick brings the line up to date and does
nothing else to the processor. So the line is right wherever a tick was the last
thing to happen: behind a step with the instruction first, and before the instruction
of a step with the devices first.
-/

namespace R3000

/-- The first hardware line of `cause` shows whether an interrupt is pending on the bus. -/
def ShowsPending (cause : UInt32) (b : Bus) : Prop :=
  cause.toNat.testBit 10 = true ↔ b.interrupt.status &&& b.interrupt.mask ≠ 0

/-- Between `c` and `c'` nothing but the first hardware line of Cause has changed. -/
structure Cpu.LineDriven (c c' : Cpu) : Prop where
  cop0 : ∀ j k, ¬ (j = Cop0.causeIndex ∧ k = 10) →
    (c'.cop0.get j).toNat.testBit k = (c.cop0.get j).toNat.testBit k
  pc : c'.pc = c.pc
  nextPc : c'.nextPc = c.nextPc
  elsewhere : c' = { c with cop0 := c'.cop0 }

/-- Instructions that read a system control register of their choice. -/
def Opcode.systemReaders : List Opcode := [mfc0, cfc0]

namespace Cpu

/-- Fetching does not touch the registers. -/
theorem registers_setReg_fetched (c : Cpu) (word : UInt32) (r : RegisterIndex) (value : UInt32) :
    ((c.fetched word).setReg r value).registers = (c.setReg r value).registers := by
  simp only [setReg, fetched]
  split <;> rfl

/-- A register of system control is read as it was before the step. -/
theorem step_of_systemReader {c : Cpu} {b : Bus} {i : Instruction} (hf : c.fetch? b = some i)
    (ho : i.opcode ∈ Opcode.systemReaders) :
    (c.step b).fault = none ∧
      (c.step b).cpu.registers = (c.setReg i.rt (c.cop0.get i.rd)).registers := by
  obtain ⟨word, b₁, hl, rfl⟩ := load_of_fetch hf
  let i := Instruction.decode word
  have hread : (c.fetched word).execute b₁ i =
      ((c.fetched word).setReg i.rt (c.cop0.get i.rd)).done b₁ := by
    simp only [Opcode.systemReaders, List.mem_cons, List.not_mem_nil, or_false] at ho
    rcases ho with ho | ho <;> simp only [execute, i, ho] <;> rfl
  rw [step_of_load hl, Outcome.after_fault, Outcome.after_cpu, hread]
  exact ⟨rfl, c.registers_setReg_fetched word _ _⟩

end Cpu

namespace Machine

/-! ## Ticks -/

theorem tick_showsPending (c : Cpu) (b : Bus) :
    ShowsPending (tick c b).cpu.cop0.cause (tick c b).bus := by
  have hpending : b.tick.1 = (b.tick.2.interrupt.status &&& b.tick.2.interrupt.mask != 0) := rfl
  rw [ShowsPending, tick_cpu, tick_bus, Cpu.setHardwareInterrupt,
    Cop0.testBit_cause_setHardwareInterrupt, if_pos rfl, hpending, bne_iff_ne]

theorem tick_lineDriven (c : Cpu) (b : Bus) : c.LineDriven (tick c b).cpu where
  cop0 j k hjk := by
    rw [tick_cpu, Cpu.setHardwareInterrupt]
    by_cases hj : j = Cop0.causeIndex
    · subst hj
      have hk : k ≠ 10 := fun hk => hjk ⟨rfl, hk⟩
      exact (Cop0.testBit_cause_setHardwareInterrupt ..).trans (if_neg hk)
    · rw [Cop0.get_setHardwareInterrupt _ _ _ hj]
  pc := rfl
  nextPc := rfl
  elsewhere := rfl

/-! ## Steps -/

variable {m : Machine}

theorem step_showsPending (ho : m.order = .cpuFirst) (hs : m.step.fault = none) :
    ShowsPending m.step.machine.cpu.cop0.cause m.step.machine.bus := by
  have hinstruction : (m.cpu.step m.bus).fault = none := by
    rw [← advance_cpuFirst_fault, ← ho, ← step_fault, hs]
  rw [step_cpu, step_bus, ho, advance_cpuFirst_of_ok hinstruction, Outcome.after_cpu,
    Outcome.after_bus]
  exact tick_showsPending _ _

theorem steps_order (n : Nat) : (m.steps n).machine.order = m.order :=
  steps_preserves (P := (·.order = m.order)) (fun m' h => m'.step_order.trans h) n rfl

/-- Any number of steps but none end with a tick. -/
theorem steps_showsPending {n : Nat} (ho : m.order = .cpuFirst)
    (hs : (m.steps (n + 1)).fault = none) :
    ShowsPending (m.steps (n + 1)).machine.cpu.cop0.cause (m.steps (n + 1)).machine.bus := by
  obtain ⟨hm, hf⟩ := Prod.mk.inj (ending_succ_last (ok_of_succ hs))
  rw [hm]
  exact step_showsPending ((steps_order n).trans ho) (hf.symm.trans hs)

/-- What an instruction reads of system control is what the tick before it left. -/
theorem step_reads_ticked {i : Instruction} (ho : m.order = .peripheralsFirst)
    (hf : m.ticked.cpu.fetch? m.ticked.bus = some i) (hi : i.opcode ∈ Opcode.systemReaders) :
    m.step.fault = none ∧ m.step.machine.cpu.registers =
      (m.cpu.setReg i.rt (m.ticked.cpu.cop0.get i.rd)).registers := by
  obtain ⟨hfault, hregisters⟩ := Cpu.step_of_systemReader hf hi
  rw [step_fault, step_cpu, ho, advance_peripheralsFirst, Outcome.after_fault, Outcome.after_cpu]
  refine ⟨hfault, hregisters.trans ?_⟩
  -- The tick does not touch the registers either.
  simp only [Cpu.setReg]
  split <;> rfl

/-- After every step with the instruction first, whatever the instruction was, Cause
shows whether an interrupt is pending, and so it does at the end of several steps.
With the devices first, an instruction that reads Cause sees what is pending after the
tick of its step. The tick changes that one bit of system control and sends control
nowhere. -/
theorem pending_shown :
    (∀ m : Machine, m.order = .cpuFirst →
        (m.step.fault = none →
          ShowsPending m.step.machine.cpu.cop0.cause m.step.machine.bus) ∧
        ∀ n, (m.steps (n + 1)).fault = none →
          ShowsPending (m.steps (n + 1)).machine.cpu.cop0.cause (m.steps (n + 1)).machine.bus) ∧
      (∀ (m : Machine) (i : Instruction), m.order = .peripheralsFirst →
        m.ticked.cpu.fetch? m.ticked.bus = some i → i.opcode ∈ Opcode.systemReaders →
        i.rd = Cop0.causeIndex →
        m.step.fault = none ∧ ∃ value, ShowsPending value m.ticked.bus ∧
          m.step.machine.cpu.registers = (m.cpu.setReg i.rt value).registers) ∧
      ∀ (c : Cpu) (b : Bus), c.LineDriven (tick c b).cpu := by
  refine ⟨fun m ho => ⟨step_showsPending ho, fun n => steps_showsPending ho⟩, ?_, tick_lineDriven⟩
  intro m i ho hf hi hr
  obtain ⟨hfault, hregisters⟩ := step_reads_ticked ho hf hi
  rw [hr] at hregisters
  exact ⟨hfault, _, tick_showsPending m.cpu m.bus, hregisters⟩

/-- A program of one word, in a register of the first DMA channel, which finds the base
of the devices in register 8 and one in register 9. -/
def servicing (word : UInt32) : Machine where
  cpu := ((Cpu.reset.setPc 0x1F801080).setReg 8 0x1F801000).setReg 9 1
  bus := { dma := { channels := #v[⟨word, 0, 0⟩, {}, {}, {}, {}, {}, {}] } }

/-- A store that lets a waiting interrupt through, and a read of Cause at the tick that
raises the interrupt of a timer. -/
theorem pending_shown_raised :
    let storing : Machine :=
      let m := servicing 0xAD090074
      { m with bus := { m.bus with interrupt := { status := 1 } } }
    let reading : Machine :=
      let m := servicing 0x400A6800
      { m with
        order := .peripheralsFirst
        bus := { m.bus with
          interrupt := { mask := 0x0010 }
          timers := ⟨#v[{ counter := 4, mode := 0x0410, target := 5 }, {}, {}]⟩ } }
    storing.step.fault = none ∧
      ShowsPending storing.step.machine.cpu.cop0.cause storing.step.machine.bus ∧
      storing.step.machine.cpu.cop0.cause.toNat.testBit 10 = true ∧
      reading.step.fault = none ∧
      ∃ value, ShowsPending value reading.ticked.bus ∧
        reading.step.machine.cpu.reg 10 = value ∧ value.toNat.testBit 10 = true := by
  intro storing reading
  have hstored : storing.step.fault = none := rfl
  have hshown := (pending_shown.1 storing rfl).1 hstored
  have hbus : storing.step.machine.bus.interrupt.status &&&
      storing.step.machine.bus.interrupt.mask ≠ 0 := by decide
  have hfetch : reading.ticked.cpu.fetch? reading.ticked.bus = some (.decode 0x400A6800) := by decide
  obtain ⟨hread, value, hvalue, hregisters⟩ :=
    pending_shown.2.1 reading _ rfl hfetch (by decide) (by decide)
  have hpending : reading.ticked.bus.interrupt.status &&&
      reading.ticked.bus.interrupt.mask ≠ 0 := by decide
  refine ⟨hstored, hshown, hshown.mpr hbus, hread, value, hvalue, ?_, hvalue.mpr hpending⟩
  exact (congrArg (·[10]) hregisters).trans (Vector.getElem_set_self ..)

end Machine

end R3000
