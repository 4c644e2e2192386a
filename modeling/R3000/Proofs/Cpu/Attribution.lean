import R3000.Proofs.Bus.Refusal
import R3000.Proofs.Cpu.Access

/-!
# What an error says of its instruction

The error of a step names the address that the step began at, and under at most
one wrapping it is what the fetch or the instruction raised. It names the word
too, with one exception: when a jump to a register is refused, the error names
the address and the target, and nothing adds the word.
-/

namespace R3000

/-- The errors of a refused access. -/
inductive Error.Refusal : Error → Prop where
  | unmapped (address : UInt32) (width : Nat) : Refusal (.unmappedIo address width)
  | invalid (address : UInt32) : Refusal (.invalidMemoryAccess address)

namespace Error.Refusal

variable {e : Error}

/-- A refusal names no instruction, so it is wrapped. -/
theorem raisedAt (h : e.Refusal) (pc : UInt32) (instruction : Option UInt32) :
    e.raisedAt pc instruction = .executionFault pc instruction e := by
  cases h <;> rfl

theorem root (h : e.Refusal) : e.root = e := by
  cases h <;> rfl

end Error.Refusal

namespace Bus

variable {b : Bus} {w : Width} {a value : UInt32} {e : Error}

theorem refusal_of_load (h : b.load w a = .error e) : e.Refusal := by
  rcases (b.load_refusals w a).error e h with rfl | ⟨rfl, -⟩
  · exact .invalid _
  · exact .unmapped _ _

theorem refusal_of_store (h : b.store w a value = .error e) : e.Refusal := by
  rcases (b.store_refusals w a value).error e h with rfl | ⟨rfl, -⟩
  · exact .invalid _
  · exact .unmapped _ _

end Bus

/-- Jumps to the value of a register. -/
def Opcode.registerJumps : List Opcode := [jr, jalr]

namespace Cpu

variable {c : Cpu} {b : Bus} {i : Instruction} {e : Error}

/-- What an instruction raises itself, before anything is wrapped. -/
inductive Raises (c : Cpu) (i : Instruction) : Error → Prop where
  | refused {e : Error} (hi : i.opcode ∉ Opcode.registerJumps) (he : e.Refusal) : Raises c i e
  | unsupported (hi : i.opcode ∉ Opcode.registerJumps) :
      Raises c i (.unsupportedInstruction c.currentPc c.currentInstruction)
  | misaligned (hi : i.opcode ∈ Opcode.registerJumps) :
      Raises c i (.addressError c.currentPc (c.reg i.rs))

theorem jumpRegister_fault {target : UInt32} {linked : Cpu}
    (h : (c.jumpRegister b target linked).fault = some e) :
    e = .addressError c.currentPc target := by
  rw [jumpRegister] at h
  split at h
  · exact (Option.some.inj h).symm
  · cases h

theorem execute_raises (h : (c.execute b i).fault = some e) : c.Raises i e := by
  unfold execute at h
  cases ho : i.opcode with
  | lb | lbu | lh | lhu | lw | lwl | lwr =>
    rw [ho] at h
    exact .refused (by rw [ho]; decide) (Bus.refusal_of_load (load_refused h))
  | sb | sh | sw =>
    rw [ho] at h
    exact .refused (by rw [ho]; decide) (Bus.refusal_of_store (store_refused h))
  | swl | swr =>
    rw [ho] at h
    exact .refused (by rw [ho]; decide) (Bus.refusal_of_load (update_refused h))
  | jr | jalr =>
    rw [ho] at h
    rw [jumpRegister_fault h]
    exact .misaligned (by rw [ho]; decide)
  | cop | lwc | swc | illegal =>
    rw [ho] at h
    cases h
    exact .unsupported (by simp [ho, Opcode.registerJumps])
  -- Results that do not fit trap, and writes to system control are never refused.
  | add | sub | addi =>
    rw [ho] at h
    simp only [checked] at h
    split at h <;> cases h
  | mtc0 | ctc0 =>
    rw [ho] at h
    simp only [moveToSystem] at h
    split at h <;> cases h
  | _ =>
    rw [ho] at h
    cases h

/-- The error `e` of a step from `c` and `b` identifies the instruction. -/
structure Attributed (c : Cpu) (b : Bus) (e : Error) : Prop where
  pc : e.pc? = some c.pc
  unfetched : ∀ refusal, b.load .word c.pc = .error refusal →
    e.instruction? = none ∧ e.root = refusal ∧ refusal.Refusal
  fetched : ∀ word b', b.load .word c.pc = .ok (word, b') →
    e.instruction? =
        (if (Instruction.decode word).opcode ∈ Opcode.registerJumps then none else some word) ∧
      ((c.fetched word).execute b' (.decode word)).fault = some e.root ∧
      (c.fetched word).Raises (.decode word) e.root
  unwrapped : ∀ pc instruction source, e.root ≠ .executionFault pc instruction source

/-- No instruction raises an error that is wrapped already. -/
theorem Raises.unwrapped (h : c.Raises i e) (pc : UInt32) (instruction : Option UInt32)
    (source : Error) : e ≠ .executionFault pc instruction source := by
  rintro rfl
  cases h with
  | refused _ he => nomatch he

/-- What the error of a step says, when `e` is what the instruction raised. -/
theorem Raises.named {word : UInt32} (h : (c.fetched word).Raises (.decode word) e) :
    (e.raisedAt c.pc (some word)).pc? = some c.pc ∧
      (e.raisedAt c.pc (some word)).instruction? =
        (if (Instruction.decode word).opcode ∈ Opcode.registerJumps then none else some word) ∧
      (e.raisedAt c.pc (some word)).root = e := by
  cases h with
  | refused hi he =>
    rw [he.raisedAt, if_neg hi]
    exact ⟨rfl, rfl, he.root⟩
  | unsupported hi =>
    rw [if_neg hi]
    exact ⟨rfl, rfl, rfl⟩
  -- This error names its address itself, so it is not wrapped and has no place for the word.
  | misaligned hi =>
    rw [if_pos hi]
    exact ⟨rfl, rfl, rfl⟩

theorem attributed_unfetched {refusal : Error} (hl : b.load .word c.pc = .error refusal) :
    c.Attributed b (refusal.raisedAt c.pc none) := by
  have hr := Bus.refusal_of_load hl
  have hroot : (Error.executionFault c.pc none refusal).root = refusal := hr.root
  rw [hr.raisedAt]
  refine ⟨rfl, ?_, ?_, ?_⟩
  · intro refusal' hl'
    obtain rfl : refusal = refusal' := Except.error.inj (hl.symm.trans hl')
    exact ⟨rfl, hroot, hr⟩
  · intro word b' hl'
    nomatch hl.symm.trans hl'
  · intro pc instruction source h
    rw [hroot] at h
    subst h
    nomatch hr

theorem attributed_fetched {word : UInt32} {b' : Bus} (hl : b.load .word c.pc = .ok (word, b'))
    (he : ((c.fetched word).execute b' (.decode word)).fault = some e) :
    c.Attributed b (e.raisedAt c.pc (some word)) := by
  have hraises := execute_raises he
  obtain ⟨hpc, hinstruction, hroot⟩ := hraises.named
  refine ⟨hpc, ?_, ?_, ?_⟩
  · intro refusal hl'
    nomatch hl.symm.trans hl'
  · intro word' b'' hl'
    obtain ⟨rfl, rfl⟩ : word = word' ∧ b' = b'' :=
      Prod.mk.inj (Except.ok.inj (hl.symm.trans hl'))
    rw [hroot]
    exact ⟨hinstruction, he, hraises⟩
  · rw [hroot]
    exact hraises.unwrapped

/-- The error of a step names the address that the step began at, and under at
most one wrapping it is what the fetch or the instruction raised. It names the
word exactly if one was fetched and asks for no jump to a register. -/
theorem step_attributed (h : (c.step b).fault = some e) : c.Attributed b e := by
  unfold step at h
  simp only [Outcome.after_fault] at h
  cases hl : b.load .word c.pc with
  | error refusal =>
    rw [hl] at h
    obtain rfl : refusal.raisedAt c.pc none = e := Option.some.inj h
    exact attributed_unfetched hl
  | ok x =>
    rw [hl] at h
    obtain ⟨e', he', rfl⟩ := Option.map_eq_some_iff.mp h
    exact attributed_fetched hl he'

/-- A processor at one of the DMA controller's registers, with a base for accesses. -/
def atSpareRegister (base : UInt32) : Cpu :=
  (Cpu.reset.setPc 0x1F8010F8).setReg 8 base

/-- A bus on which that register holds an instruction. -/
def spareRegister (word : UInt32) : Bus :=
  { dma := { spare := #v[word, 0] } }

/-- A load between the registers of the memory control and the serial port. -/
theorem step_attributed_load :
    ∃ e, ((atSpareRegister 0x1F800000).step (spareRegister 0x8D091030)).fault = some e ∧
      (atSpareRegister 0x1F800000).Attributed (spareRegister 0x8D091030) e ∧
      e = .executionFault 0x1F8010F8 (some 0x8D091030) (.unmappedIo 0x1F801030 4) := by
  have h : ((atSpareRegister 0x1F800000).step (spareRegister 0x8D091030)).fault =
      some (.executionFault 0x1F8010F8 (some 0x8D091030) (.unmappedIo 0x1F801030 4)) := rfl
  exact ⟨_, h, step_attributed h, rfl⟩

/-- A jump to a misaligned address: its word is fetched, and the error does not name it. -/
theorem misaligned_jump_unnamed :
    ∃ e b', (spareRegister 0x01000008).load .word (atSpareRegister 0x80020002).pc =
        .ok (0x01000008, b') ∧
      ((atSpareRegister 0x80020002).step (spareRegister 0x01000008)).fault = some e ∧
      e.pc? = some 0x1F8010F8 ∧ e.instruction? = none := by
  exact ⟨.addressError 0x1F8010F8 0x80020002, _, rfl, rfl, rfl, rfl⟩

end Cpu

end R3000
