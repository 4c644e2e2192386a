import R3000.Proofs.Bus.Reading
import R3000.Proofs.Cpu.Access
import R3000.Proofs.Machine.Operation

/-!
# Steps that fail

A step fails when its instruction cannot be fetched, has no meaning, jumps to
an unaligned address, or meets a refused access. Nothing of the instruction is
then done: what remains is the fetch and the advance of the two addresses. An
instruction that loads a word and stores it back is no exception, because where
a word can be loaded it can be stored.
-/

namespace R3000

namespace Cpu

variable {c : Cpu} {b : Bus} {e : Error}

/-! ## Steps -/

/-- What a step that fails leaves of the processor and the bus. -/
inductive Stopped (c : Cpu) (b : Bus) : Cpu → Bus → Prop where
  /-- The fetch was refused and did nothing. -/
  | unfetched {e : Error} (hf : b.load .word c.pc = .error e)
      (hplace : Bus.loadInPlace .word c.pc b = .error e b) :
      Stopped c b { c with currentPc := c.pc } b
  /-- The word was fetched, and nothing was done of the instruction. -/
  | fetched {word : UInt32} {b' : Bus} (hf : b.load .word c.pc = .ok (word, b'))
      (ha : (c.fetched word).access (.decode word) = .none ∨
        ∃ e, ((c.fetched word).access (.decode word)).inPlace b' = .error e b') :
      Stopped c b
        { c with
          currentPc := c.pc
          currentInstruction := word
          pc := c.nextPc
          nextPc := c.nextPc + 4 }
        b'

theorem step_stopped (h : (c.step b).fault = some e) :
    c.Stopped b (c.step b).cpu (c.step b).bus := by
  unfold step at h ⊢
  simp only [Outcome.after_cpu, Outcome.after_bus, Outcome.after_fault] at h ⊢
  cases hl : b.load .word c.pc with
  | error e' => exact .unfetched hl (Bus.loadInPlace_error hl)
  | ok x =>
    obtain ⟨word, b'⟩ := x
    simp only [hl] at h
    obtain ⟨e', he', -⟩ := Option.map_eq_some_iff.mp h
    have hends := ends_execute (c.fetched word) b' (.decode word)
    rw [Ends, he'] at hends
    obtain ⟨hcpu, hbus⟩ := hends.unchanged
    simp only [hcpu, hbus]
    exact .fetched hl ((execute_fault he').imp_right fun hplace => ⟨e', hplace⟩)

end Cpu

namespace Machine

/-- A step that fails has done nothing of its instruction and is not counted.
The devices have advanced when they come first, and otherwise not. -/
theorem failed_step :
    (∀ (c : Cpu) (b : Bus) (e : Error), (c.step b).fault = some e →
      c.Stopped b (c.step b).cpu (c.step b).bus) ∧
    ∀ (m : Machine) (e : Error), m.step.fault = some e →
      m.step.machine.cycles = m.cycles ∧
      (m.order = .cpuFirst →
        m.cpu.Stopped m.bus m.step.machine.cpu m.step.machine.bus) ∧
      (m.order = .peripheralsFirst →
        (tick m.cpu m.bus).cpu.Stopped (tick m.cpu m.bus).bus
          m.step.machine.cpu m.step.machine.bus) := by
  refine ⟨fun c b e h => Cpu.step_stopped h, fun m e h => ⟨?_, ?_, ?_⟩⟩
  · rw [step_cycles, h]
    rfl
  · intro horder
    rw [step_fault, horder] at h
    rw [step_cpu, step_bus, horder]
    simp only [advance] at h ⊢
    cases hf : (m.cpu.step m.bus).fault with
    | some e' =>
      rw [hf] at h
      exact Cpu.step_stopped hf
    | none =>
      -- The tick comes only after a step without an error, and has none itself.
      simp only [hf, Outcome.after_fault, tick_fault, reduceCtorEq] at h
  · intro horder
    rw [step_fault, horder] at h
    rw [step_cpu, step_bus, horder]
    simp only [advance, Outcome.after_fault, Outcome.after_cpu, Outcome.after_bus] at h ⊢
    exact Cpu.step_stopped h

/-- A processor whose next instruction is at a vacant address. -/
def atVacantAddress : Cpu :=
  Cpu.reset.setPc 0xFFFE0000

/-- A machine whose next instruction is the mode of a timer, which has no meaning
as one. Reading it clears two of its flags. -/
def atTimerMode (order : TickOrder) : Machine where
  cpu := Cpu.reset.setPc 0x1F801104
  bus := { timers := .flagged }
  order := order

/-- A fetch that is refused, and one that clears flags before its word is found to
have no meaning. The timers have then advanced only where the devices come first. -/
theorem failed_step_fetches :
    ((atVacantAddress.step {}).fault =
        some (.executionFault 0xFFFE0000 none (.invalidMemoryAccess 0xFFFE0000)) ∧
      atVacantAddress.Stopped {} (atVacantAddress.step {}).cpu (atVacantAddress.step {}).bus) ∧
    ((atTimerMode .cpuFirst).step.fault = some (.unsupportedInstruction 0x1F801104 0x1C01) ∧
      (atTimerMode .cpuFirst).step.machine.cycles = 0 ∧
      (atTimerMode .cpuFirst).cpu.Stopped (atTimerMode .cpuFirst).bus
        (atTimerMode .cpuFirst).step.machine.cpu (atTimerMode .cpuFirst).step.machine.bus ∧
      (atTimerMode .cpuFirst).step.machine.bus.timers = ⟨#v[{ mode := 0x0401 }, {}, {}]⟩) ∧
    ((atTimerMode .peripheralsFirst).step.fault =
        some (.unsupportedInstruction 0x1F801104 0x1C01) ∧
      (atTimerMode .peripheralsFirst).step.machine.cycles = 0 ∧
      (tick (atTimerMode .peripheralsFirst).cpu (atTimerMode .peripheralsFirst).bus).cpu.Stopped
        (tick (atTimerMode .peripheralsFirst).cpu (atTimerMode .peripheralsFirst).bus).bus
        (atTimerMode .peripheralsFirst).step.machine.cpu
        (atTimerMode .peripheralsFirst).step.machine.bus ∧
      (atTimerMode .peripheralsFirst).step.machine.bus.timers =
        ⟨#v[{ counter := 1, mode := 0x0401 }, { counter := 1 }, { counter := 1 }]⟩) := by
  have hvacant : (atVacantAddress.step {}).fault =
      some (.executionFault 0xFFFE0000 none (.invalidMemoryAccess 0xFFFE0000)) := rfl
  have hcpu : (atTimerMode .cpuFirst).step.fault =
      some (.unsupportedInstruction 0x1F801104 0x1C01) := rfl
  have hperipherals : (atTimerMode .peripheralsFirst).step.fault =
      some (.unsupportedInstruction 0x1F801104 0x1C01) := rfl
  have hrefused := failed_step.1 _ _ _ hvacant
  obtain ⟨hcycles, hstopped, -⟩ := failed_step.2 _ _ hcpu
  obtain ⟨hcycles', -, hstopped'⟩ := failed_step.2 _ _ hperipherals
  exact ⟨⟨hvacant, hrefused⟩, ⟨hcpu, hcycles, hstopped rfl, rfl⟩, hperipherals, hcycles', hstopped' rfl, rfl⟩

end Machine

end R3000
