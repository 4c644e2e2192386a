import R3000.Proofs.Machine.Counting

/-!
# The two tick orders

Instructions and ticks follow each other by turns in both orders, and the orders
differ only in which of the two a step begins with. So steps with the devices first
are one tick, then steps with the instruction first, and at the end an instruction
alone. Where such a step fails, it is that last instruction that fails.
-/

namespace R3000

/-- The progress `p` ends as the outcome `o` of an instruction does. -/
structure Progress.EndsAs (p : Progress) (o : Outcome) : Prop where
  fault : p.fault = o.fault
  cpu : p.machine.cpu = o.cpu
  bus : p.machine.bus = o.bus

theorem Progress.EndsAs.of_ending {p q : Progress} {o : Outcome} (h : p.EndsAs o)
    (hq : q.ending = p.ending) : q.EndsAs o := by
  obtain ⟨hm, hf⟩ := Prod.mk.inj hq
  exact ⟨hf.trans h.fault, by rw [hm, h.cpu], by rw [hm, h.bus]⟩

namespace Machine

variable {m ahead : Machine} {n : Nat} {e : Error}

def inOrder (m : Machine) (order : TickOrder) : Machine :=
  { m with order }

/-- The machine after one tick of its devices. -/
def ticked (m : Machine) : Machine :=
  { m with cpu := (tick m.cpu m.bus).cpu, bus := (tick m.cpu m.bus).bus }

/-- The next instruction, carried out without a tick. -/
def instructionAlone (m : Machine) : Outcome :=
  m.cpu.step m.bus

theorem step_endsAs (m : Machine) : m.step.EndsAs (advance m.order m.cpu m.bus) :=
  ⟨m.step_fault, m.step_cpu, m.step_bus⟩

/-! ## One tick ahead -/

/-- The machine `m` begins its steps with a tick. To the machine `ahead` that tick
has happened already, and it ends its steps with one. -/
structure Leads (ahead m : Machine) : Prop where
  devices : m.order = .peripheralsFirst
  instruction : ahead.order = .cpuFirst
  cpu : ahead.cpu = (tick m.cpu m.bus).cpu
  bus : ahead.bus = (tick m.cpu m.bus).bus
  cycles : ahead.cycles = m.cycles

theorem leads_ticked (m : Machine) :
    (m.ticked.inOrder .cpuFirst).Leads (m.inOrder .peripheralsFirst) :=
  ⟨rfl, rfl, rfl, rfl, rfl⟩

namespace Leads

/-- What is left of a step of `m` is the instruction. -/
theorem endsAs (h : ahead.Leads m) : m.step.EndsAs ahead.instructionAlone := by
  obtain ⟨hfault, hcpu, hbus⟩ := m.step_endsAs
  rw [h.devices, advance_peripheralsFirst] at hfault hcpu hbus
  rw [instructionAlone, h.cpu, h.bus]
  exact ⟨hfault.trans (Outcome.after_fault ..), hcpu.trans (Outcome.after_cpu ..),
    hbus.trans (Outcome.after_bus ..)⟩

theorem step_fault (h : ahead.Leads m) : ahead.step.fault = m.step.fault := by
  rw [Machine.step_fault, h.instruction, advance_cpuFirst_fault]
  exact h.endsAs.fault.symm

/-- After a step of both, the tick that ends the one step begins the next of the other. -/
theorem step (h : ahead.Leads m) (hs : m.step.fault = none) :
    ahead.step.machine.Leads m.step.machine := by
  have halone : (ahead.cpu.step ahead.bus).fault = none := h.endsAs.fault.symm.trans hs
  exact {
    devices := m.step_order.trans h.devices
    instruction := ahead.step_order.trans h.instruction
    cpu := by
      rw [step_cpu ahead, h.instruction, advance_cpuFirst_of_ok halone, Outcome.after_cpu,
        h.endsAs.cpu, h.endsAs.bus]
      rfl
    bus := by
      rw [step_bus ahead, h.instruction, advance_cpuFirst_of_ok halone, Outcome.after_bus,
        h.endsAs.cpu, h.endsAs.bus]
      rfl
    cycles := by
      rw [cycles_of_ok hs, cycles_of_ok (h.step_fault.trans hs), h.cycles] }

theorem steps (h : ahead.Leads m) (hs : (m.steps n).fault = none) :
    (ahead.steps n).fault = none ∧ (ahead.steps n).machine.Leads (m.steps n).machine := by
  induction n generalizing m ahead with
  | zero => exact ⟨rfl, h⟩
  | succ n ih =>
    cases hfirst : m.step.fault with
    | some e =>
      rw [(steps_succ_of_fault n hfirst).2] at hs
      nomatch hs
    | none =>
      -- Both take a step, and the one is a tick ahead of the other as before.
      obtain ⟨hm, hf⟩ := steps_succ_of_ok n hfirst
      obtain ⟨hm', hf'⟩ := steps_succ_of_ok n (h.step_fault.trans hfirst)
      rw [hm, hm', hf']
      exact ih (h.step hfirst) (hf.symm.trans hs)

end Leads

/-! ## Several steps -/

/-- Steps with the devices first end as one tick, then steps with the instruction
first, and at the end an instruction alone. If one of them fails, the others before
it succeed and are counted, and the instruction alone fails with the same error. -/
theorem steps_shifted (m : Machine) (n : Nat) :
    let devicesFirst := m.inOrder .peripheralsFirst
    let instructionFirst := m.ticked.inOrder .cpuFirst
    ((devicesFirst.steps (n + 1)).fault = none →
        (instructionFirst.steps n).fault = none ∧
        (devicesFirst.steps (n + 1)).EndsAs (instructionFirst.steps n).machine.instructionAlone ∧
        (devicesFirst.steps (n + 1)).machine.cycles = m.cycles + UInt64.ofNat (n + 1)) ∧
      ∀ e, (devicesFirst.steps n).fault = some e → ∃ k < n,
        (devicesFirst.steps k).fault = none ∧ (instructionFirst.steps k).fault = none ∧
        (devicesFirst.steps n).EndsAs (instructionFirst.steps k).machine.instructionAlone ∧
        (devicesFirst.steps n).machine.cycles = m.cycles + UInt64.ofNat k := by
  intro devicesFirst instructionFirst
  have hleads : instructionFirst.Leads devicesFirst := leads_ticked m
  refine ⟨fun hok => ?_, fun e he => ?_⟩
  · have hbefore := ok_of_succ hok
    obtain ⟨hok', hlast⟩ := hleads.steps hbefore
    refine ⟨hok', hlast.endsAs.of_ending (ending_succ_last hbefore), ?_⟩
    exact (stepped_of_ok hok).cycles
  · obtain ⟨k, hk, last, hbefore, hlast, hend⟩ := stepped_of_fault he
    obtain ⟨hm, hok⟩ := Prod.mk.inj hbefore.ending
    obtain ⟨hok', hlead⟩ := hleads.steps hok
    rw [hm] at hlead
    refine ⟨k, hk, hok, hok', ?_, ?_⟩
    · exact hlead.endsAs.of_ending (Prod.ext hend (he.trans hlast.symm))
    · rw [hend, cycles_of_fault hlast]
      exact hbefore.cycles

/-- A machine with a program in the registers of the first DMA channel: a load of
the count of the first timer, and a word that is no instruction. -/
def readingTimer : Machine where
  cpu := (Cpu.reset.setPc 0x1F801080).setReg 8 0x1F801100
  bus := { dma := { channels := #v[⟨0x95090000, 0xFC000000, 0⟩, {}, {}, {}, {}, {}, {}] } }

/-- The load reads a count of one in the one order, and so it does in the other when a
tick comes before it. The second step fails after its tick. -/
theorem steps_shifted_failing :
    let devicesFirst := readingTimer.inOrder .peripheralsFirst
    let instructionFirst := readingTimer.ticked.inOrder .cpuFirst
    (devicesFirst.steps 1).fault = none ∧
      (devicesFirst.steps 1).EndsAs (instructionFirst.steps 0).machine.instructionAlone ∧
      (devicesFirst.steps 1).machine.cpu.reg 9 = 1 ∧
      (devicesFirst.steps 2).fault = some (.unsupportedInstruction 0x1F801084 0xFC000000) ∧
      ∃ k < 2, (instructionFirst.steps k).fault = none ∧
        (devicesFirst.steps 2).EndsAs (instructionFirst.steps k).machine.instructionAlone ∧
        (devicesFirst.steps 2).machine.cycles = UInt64.ofNat k := by
  intro devicesFirst instructionFirst
  have hok : (devicesFirst.steps 1).fault = none := rfl
  have hfault : (devicesFirst.steps 2).fault =
      some (.unsupportedInstruction 0x1F801084 0xFC000000) := rfl
  obtain ⟨-, hends, -⟩ := (steps_shifted readingTimer 0).1 hok
  obtain ⟨k, hk, -, hok', hends', hcycles⟩ := (steps_shifted readingTimer 2).2 _ hfault
  exact ⟨hok, hends, rfl, hfault, k, hk, hok', hends', hcycles.trans (UInt64.zero_add _)⟩

end Machine

end R3000
