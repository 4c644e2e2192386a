import R3000.Proofs.Bus.Reading
import R3000.Proofs.Cpu.Cop0
import R3000.Proofs.Cpu.Sequencing

/-!
# What an instruction may change

The encoding of an instruction names the only general register that it may
write, and its operation says which other parts of the state it may change. A
trap changes system control and the addresses alone. The rest is as it was,
whatever registers the operands are, and so it is over a run of instructions.
-/

namespace R3000

open Arithmetic

/-- The instruction writes register `r` of system control by its number. -/
def Instruction.WritesSystem (i : Instruction) (r : Fin 32) : Prop :=
  i.opcode ∈ Opcode.systemWriters ∧ i.rd = r

namespace Cpu

variable {c c' : Cpu} {b b' : Bus} {i : Instruction} {fault? : Option Error}

/-- The trap for a result that does not fit. -/
def overflowTrap? (result : Int) : Option Trap :=
  if FitsSigned result then none else some .overflow

/-- The trap that the instruction `i` takes when it is fetched in the state `c`. -/
def trap? (c : Cpu) (i : Instruction) : Option Trap :=
  match i.opcode with
  | .syscall => some .syscall
  | .breakpoint => some .breakpoint
  | .add => overflowTrap? (signed (c.reg i.rs) + signed (c.reg i.rt))
  | .addi => overflowTrap? (signed (c.reg i.rs) + signed i.immSigned)
  | .sub => overflowTrap? (signed (c.reg i.rs) - signed (c.reg i.rt))
  | _ => none

/-! ## The ways in which an instruction ends -/

theorem reg_setReg_other {d r : RegisterIndex} (hd : i.destination? = some d)
    (hr : i.destination? ≠ some r) (value : UInt32) : (c.setReg d value).reg r = c.reg r := by
  rw [reg_setReg, if_neg]
  rintro ⟨rfl, -⟩
  exact hr hd

namespace Executes

theorem reg_eq (h : c.Executes b i c' b' fault?) {r : RegisterIndex}
    (hr : i.destination? ≠ some r) : c'.reg r = c.reg r := by
  cases h with
  | register value hd => exact reg_setReg_other hd hr value
  | linkTransfer hd => exact reg_setReg_other hd hr c.nextPc
  | load kept _ hd => exact reg_setReg_other hd hr kept
  | _ => rfl

theorem zeroFixed (h : c.Executes b i c' b' fault?) (hc : c.ZeroFixed) : c'.ZeroFixed := by
  cases h with
  | register value => exact hc.setReg _ value
  | linkTransfer => exact hc.setReg _ c.nextPc
  | load kept => exact hc.setReg _ kept
  | _ => exact hc

theorem hiLo_eq (h : c.Executes b i c' b' fault?) (ho : i.opcode ∉ Opcode.hiLoWriters) :
    c'.hi = c.hi ∧ c'.lo = c.lo := by
  cases h with
  | hiLo _ _ hw => exact absurd hw ho
  | register | linkTransfer | load => exact ⟨setReg_hi .., setReg_lo ..⟩
  | _ => exact ⟨rfl, rfl⟩

theorem cop0_eq (h : c.Executes b i c' b' fault?) (hs : i.opcode ∉ Opcode.systemWriters)
    (hl : i.opcode ≠ .rfe) (ht : i.opcode ∉ Opcode.trapping) : c'.cop0 = c.cop0 := by
  cases h with
  | register | linkTransfer | load => exact setReg_cop0 ..
  | trap ho => exact absurd ho ht
  | system _ _ ho | systemStatus _ ho => exact absurd ho hs
  | leave ho => exact absurd ho hl
  | _ => rfl

/-- Without a store the bus is as reading leaves it. -/
theorem unwritten (h : c.Executes b i c' b' fault?) (ho : i.opcode ∉ Opcode.stores) :
    b.Unwritten b' ∧ b'.cacheControl = b.cacheControl := by
  cases h with
  | load _ hl | updateFault hl => exact ⟨.load hl, Bus.cacheControl_load hl⟩
  | store _ hw | update _ _ hw => exact absurd hw ho
  | _ => exact ⟨⟨rfl, rfl, rfl, .refl _, rfl, rfl⟩, rfl⟩

end Executes

/-! ## Traps -/

/-- Checked arithmetic traps and writes nothing, or it writes its result. -/
theorem checked_cases (c : Cpu) (b : Bus) (r : RegisterIndex) {overflows : Bool} (value : UInt32)
    {result : Int} (h : overflows = true ↔ ¬ FitsSigned result) :
    (∃ t, overflowTrap? result = some t ∧ c.checked b r overflows value = c.trap b t) ∨
      (overflowTrap? result = none ∧
        c.checked b r overflows value = (c.setReg r value).done b) := by
  by_cases hf : FitsSigned result
  · exact .inr ⟨if_pos hf, checked_of_fits h hf⟩
  · exact .inl ⟨.overflow, if_neg hf, checked_of_not_fits h hf⟩

/-- An instruction that may trap does so, or it writes its result. -/
theorem execute_trapping (c : Cpu) (word : UInt32) (b : Bus) (ho : i.opcode ∈ Opcode.trapping) :
    (∃ t, c.trap? i = some t ∧ (c.fetched word).execute b i = (c.fetched word).trap b t) ∨
      (c.trap? i = none ∧
        ∃ r value, (c.fetched word).execute b i = ((c.fetched word).setReg r value).done b) := by
  simp only [Opcode.trapping, List.mem_cons, List.not_mem_nil, or_false] at ho
  unfold trap? execute
  rcases ho with ho | ho | ho | ho | ho <;> rw [ho]
  · exact .inl ⟨.syscall, rfl, rfl⟩
  · exact .inl ⟨.breakpoint, rfl, rfl⟩
  · exact (checked_cases _ b _ _ (addOverflows_iff _ _)).imp id fun h => ⟨h.1, _, _, h.2⟩
  · exact (checked_cases _ b _ _ (addOverflows_iff _ _)).imp id fun h => ⟨h.1, _, _, h.2⟩
  · exact (checked_cases _ b _ _ (subOverflows_iff _ _)).imp id fun h => ⟨h.1, _, _, h.2⟩

theorem trapping_of_trap {t : Trap} (h : c.trap? i = some t) : i.opcode ∈ Opcode.trapping := by
  unfold trap? at h
  cases ho : i.opcode with
  | syscall | breakpoint | add | addi | sub => decide
  | _ =>
    rw [ho] at h
    nomatch h

/-! ## The frame of a step -/

/-- What the instruction `i`, fetched in the state `c` on the bus `b`, leaves as it was. -/
structure Framed (c : Cpu) (b : Bus) (i : Instruction) (c' : Cpu) (b' : Bus) : Prop where
  reg : ∀ r, i.destination? ≠ some r → c'.reg r = c.reg r
  zero : c.ZeroFixed → c'.ZeroFixed
  hiLo : i.opcode ∉ Opcode.hiLoWriters → c'.hi = c.hi ∧ c'.lo = c.lo
  cop0 : i.opcode ∉ Opcode.systemWriters → i.opcode ≠ .rfe → c.trap? i = none →
    c'.cop0 = c.cop0
  trap : ∀ t, c.trap? i = some t → c'.registers = c.registers ∧ c'.hi = c.hi ∧ c'.lo = c.lo ∧
    c'.cop0 = c.cop0.enterTrap t c.pc
  bus : i.opcode ∉ Opcode.stores → b.Unwritten b' ∧ b'.cacheControl = b.cacheControl

theorem execute_framed (c : Cpu) (word : UInt32) (b : Bus) (i : Instruction) :
    let o := (c.fetched word).execute b i
    c.Framed b i o.cpu o.bus := by
  intro o
  -- The fetched state differs from `c` in addresses alone, which no field is about.
  have he : (c.fetched word).Executes b i o.cpu o.bus o.fault := ends_execute _ _ _
  refine ⟨fun _ => he.reg_eq, he.zeroFixed, he.hiLo_eq, ?_, ?_, he.unwritten⟩
  · intro hs hl ht
    by_cases ho : i.opcode ∈ Opcode.trapping
    · rcases execute_trapping c word b ho with ⟨t, ht', -⟩ | ⟨-, r, value, hdone⟩
      · nomatch ht.symm.trans ht'
      · exact (congrArg (·.cpu.cop0) hdone).trans (setReg_cop0 ..)
    · exact he.cop0_eq hs hl ho
  · intro t ht
    rcases execute_trapping c word b (trapping_of_trap ht) with ⟨t', ht', htrap⟩ | ⟨hnone, -⟩
    · obtain rfl : t = t' := Option.some.inj (ht.symm.trans ht')
      have hcpu : o.cpu = (c.fetched word).enterTrap t := congrArg Outcome.cpu htrap
      rw [hcpu]
      exact ⟨rfl, rfl, rfl, rfl⟩
    · nomatch ht.symm.trans hnone

/-- Failing or not, a step keeps to the frame of the instruction that it fetches. -/
theorem framed_of_fetch (hf : c.fetch? b = some i) :
    c.Framed b i (c.step b).cpu (c.step b).bus := by
  obtain ⟨word, b₁, hl, rfl⟩ := load_of_fetch hf
  rw [step_of_load hl, Outcome.after_cpu, Outcome.after_bus]
  have h := c.execute_framed word b₁ (.decode word)
  refine { h with bus := fun ho => ⟨?_, ?_⟩ }
  · exact (Bus.Unwritten.load hl).trans (h.bus ho).1
  · exact (h.bus ho).2.trans (Bus.cacheControl_load hl)

/-- A register of system control is kept where there is no trap and the instruction does not
write it by its number. A return is an exception for Status. -/
theorem system_kept (hf : c.fetch? b = some i) (ht : c.trap? i = none) {r : Fin 32}
    (ho : r = Cop0.statusIndex → i.opcode ≠ .rfe) (hw : ¬ i.WritesSystem r) :
    (c.step b).cpu.cop0.get r = c.cop0.get r := by
  obtain ⟨word, b₁, -, hcpu, -⟩ := step_of_fetch hf
  by_cases hs : i.opcode ∈ Opcode.systemWriters
  · have hr : i.rd ≠ r := fun hr => hw ⟨hs, hr⟩
    rw [hcpu, execute_systemWriter _ _ hs, moveToSystem]
    split <;> exact Cop0.get_write _ _ hr
  · by_cases hrfe : i.opcode = .rfe
    · rw [hcpu]
      simp only [execute, hrfe]
      exact Cop0.get_leaveTrap _ fun hr => ho hr hrfe
    · rw [(framed_of_fetch hf).cop0 hs hrfe ht]

/-- A step that succeeds has fetched an instruction, keeps to the frame of it and
leaves register zero at zero. -/
theorem step_framed (hc : c.ZeroFixed) (hs : (c.step b).fault = none) :
    ∃ i, c.fetch? b = some i ∧ c.Framed b i (c.step b).cpu (c.step b).bus ∧
      (c.step b).cpu.ZeroFixed := by
  obtain ⟨i, hf⟩ := fetch_of_step hs
  have h := framed_of_fetch hf
  exact ⟨i, hf, h, h.zero hc⟩

/-- An addition that overflows, with one register as operand and destination:
the register keeps its value, and system control records the trap. -/
theorem step_framed_overflow :
    let c := (Cpu.reset.setPc 0x1F8010F8).setReg 8 0x7FFFFFFF
    let b : Bus := { dma := { spare := #v[0x21080001, 0] } }
    c.ZeroFixed ∧ (c.step b).fault = none ∧
      ∃ i, c.fetch? b = some i ∧ c.Framed b i (c.step b).cpu (c.step b).bus ∧
        (c.step b).cpu.ZeroFixed ∧ i.destination? = some 8 ∧
        c.trap? i = some .overflow ∧ (c.step b).cpu.reg 8 = 0x7FFFFFFF ∧
        (c.step b).cpu.cop0.epc = 0x1F8010F8 := by
  intro c b
  have hc : c.ZeroFixed := rfl
  have hs : (c.step b).fault = none := by decide
  obtain ⟨i, hf, hframed, hzero⟩ := step_framed hc hs
  have hf' : c.fetch? b = some (.decode 0x21080001) := by decide
  obtain rfl := Option.some.inj (hf'.symm.trans hf)
  exact ⟨hc, hs, _, hf, hframed, hzero, by decide, by decide, by decide, by decide⟩

end Cpu

/-! ## The frame of a run -/

namespace Run

variable {c c' : Cpu} {b b' : Bus} {moments : List Moment}

/-- A register keeps its value over instructions none of which has it as its destination. -/
theorem reg_eq (h : Run c b moments c' b') {r : RegisterIndex}
    (hr : ∀ m ∈ moments, m.instruction.destination? ≠ some r) : c'.reg r = c.reg r := by
  induction h with
  | nil => rfl
  | cons hf hs _ ih =>
    rw [List.forall_mem_cons] at hr
    exact (ih hr.2).trans ((Cpu.framed_of_fetch hf).reg r hr.1)

/-- Without stores a run only reads. -/
theorem unwritten (h : Run c b moments c' b')
    (hs : ∀ m ∈ moments, m.instruction.opcode ∉ Opcode.stores) :
    b.Unwritten b' ∧ b'.cacheControl = b.cacheControl := by
  induction h with
  | nil => exact ⟨.refl _, rfl⟩
  | cons hf _ _ ih =>
    rw [List.forall_mem_cons] at hs
    obtain ⟨hfirst, hcontrol⟩ := (Cpu.framed_of_fetch hf).bus hs.1
    obtain ⟨hrest, hcontrol'⟩ := ih hs.2
    exact ⟨hfirst.trans hrest, hcontrol'.trans hcontrol⟩

end Run

end R3000
