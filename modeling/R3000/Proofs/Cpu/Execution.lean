import R3000.Cpu.Step
import R3000.Proofs.Cpu.State

/-!
# What an instruction can do

`Executes` lists every way in which an instruction can end: what becomes of the
processor and of the bus, which error is raised, and which instructions can end
so. Properties of single steps are proved by cases on it.
-/

namespace R3000

/-- The register that an instruction writes by its encoding. -/
def Instruction.destination? (i : Instruction) : Option RegisterIndex :=
  match i.opcode with
  | .sll | .srl | .sra | .sllv | .srlv | .srav | .jalr | .mfhi | .mflo
  | .add | .addu | .sub | .subu | .and | .or | .xor | .nor | .slt | .sltu => some i.rd
  | .addi | .addiu | .slti | .sltiu | .andi | .ori | .xori | .lui | .mfc0 | .cfc0
  | .lb | .lh | .lwl | .lw | .lbu | .lhu | .lwr => some i.rt
  | .jal | .bltzal | .bgezal => some 31
  | _ => none

namespace Opcode

/-- Instructions that write the multiplier's result. -/
def hiLoWriters : List Opcode := [mult, multu, div, divu, mthi, mtlo]

/-- Instructions that may trap. -/
def trapping : List Opcode := [syscall, breakpoint, add, addi, sub]

/-- Instructions that write to the bus. -/
def stores : List Opcode := [sb, sh, sw, swl, swr]

/-- Instructions that write a system control register of their choice. -/
def systemWriters : List Opcode := [mtc0, ctc0]

end Opcode

namespace Outcome

@[simp] theorem after_cpu (notes : List Note) (o : Outcome) : (after notes o).cpu = o.cpu := by
  cases notes <;> rfl

@[simp] theorem after_bus (notes : List Note) (o : Outcome) : (after notes o).bus = o.bus := by
  cases notes <;> rfl

@[simp] theorem after_fault (notes : List Note) (o : Outcome) :
    (after notes o).fault = o.fault := by
  cases notes <;> rfl

end Outcome

namespace Cpu

/-- Where an instruction may go on after its delay slot. -/
def MayLead (c : Cpu) (i : Instruction) (target : UInt32) : Prop :=
  target = c.nextPc ∨ target = c.branchTarget i ∨ target = c.jumpTarget i ∨
    (target = c.reg i.rs ∧ c.reg i.rs &&& 3 = 0)

/-- The ways in which the instruction `i` can end. -/
inductive Executes (c : Cpu) (b : Bus) (i : Instruction) : Cpu → Bus → Option Error → Prop where
  -- Ends without an error.
  | register {r : RegisterIndex} (value : UInt32) (hd : i.destination? = some r) :
      Executes c b i (c.setReg r value) b none
  | hiLo (hi lo : UInt32) (ho : i.opcode ∈ Opcode.hiLoWriters) :
      Executes c b i { c with hi, lo } b none
  | transfer {target : UInt32} (ht : c.MayLead i target) :
      Executes c b i (c.jump target) b none
  | linkTransfer {r : RegisterIndex} {target : UInt32} (hd : i.destination? = some r)
      (ht : c.MayLead i target) :
      Executes c b i ((c.link r).jump target) b none
  | trap {t : Trap} (ho : i.opcode ∈ Opcode.trapping) :
      Executes c b i (c.enterTrap t) b none
  | load {w : Width} {a value : UInt32} {b' : Bus} {r : RegisterIndex} (kept : UInt32)
      (hl : b.load w a = .ok (value, b')) (hd : i.destination? = some r) :
      Executes c b i (c.setReg r kept) b' none
  | store {w : Width} {a value : UInt32} {b' : Bus} (hs : b.store w a value = .ok b')
      (ho : i.opcode ∈ Opcode.stores) :
      Executes c b i c b' none
  | update {a value merged : UInt32} {b₁ b' : Bus} (hl : b.load .word a = .ok (value, b₁))
      (hs : b₁.store .word (wordAddress a) merged = .ok b') (ho : i.opcode ∈ Opcode.stores) :
      Executes c b i c b' none
  | system {r : RegisterIndex} (value : UInt32) (hr : r ≠ Cop0.statusIndex)
      (ho : i.opcode ∈ Opcode.systemWriters) :
      Executes c b i { c with cop0 := c.cop0.write r value } b none
  | systemStatus (value : UInt32) (ho : i.opcode ∈ Opcode.systemWriters) :
      Executes c b i { c with cop0 := c.cop0.write Cop0.statusIndex value }
        (b.setIsolated (Status.isolates (c.cop0.write Cop0.statusIndex value).status)) none
  | leave (ho : i.opcode = .rfe) :
      Executes c b i { c with cop0 := c.cop0.leaveTrap } b none
  -- Ends with an error. Nothing is undone: a load before a store that fails stays done.
  | loadFault {w : Width} {a : UInt32} {e : Error} (hl : b.load w a = .error e) :
      Executes c b i c b (some e)
  | storeFault {w : Width} {a value : UInt32} {e : Error} (hs : b.store w a value = .error e) :
      Executes c b i c b (some e)
  | updateFault {a value merged : UInt32} {b₁ : Bus} {e : Error}
      (hl : b.load .word a = .ok (value, b₁))
      (hs : b₁.store .word (wordAddress a) merged = .error e) :
      Executes c b i c b₁ (some e)
  | unaligned (ht : c.reg i.rs &&& 3 ≠ 0) :
      Executes c b i c b (some (.addressError c.currentPc (c.reg i.rs)))
  | reject :
      Executes c b i c b (some (.unsupportedInstruction c.currentPc c.currentInstruction))

/-! ## Every instruction ends in one of these ways -/

/-- The outcome `o` is one of the ways in which `i` can end. -/
def Ends (c : Cpu) (b : Bus) (i : Instruction) (o : Outcome) : Prop :=
  c.Executes b i o.cpu o.bus o.fault

section

variable {c : Cpu} {b : Bus} {i : Instruction}

theorem ends_loadInto (w : Width) (a : UInt32) {r : RegisterIndex} (f : UInt32 → UInt32)
    (hd : i.destination? = some r) : c.Ends b i (c.loadInto b w a r f) := by
  simp only [Ends, loadInto, Outcome.after_cpu, Outcome.after_bus, Outcome.after_fault]
  cases hl : b.load w a with
  | error e => exact .loadFault hl
  | ok x => exact .load (f x.1) hl hd

theorem ends_storeFrom (w : Width) (a value : UInt32) (ho : i.opcode ∈ Opcode.stores) :
    c.Ends b i (c.storeFrom b w a value) := by
  simp only [Ends, storeFrom, Outcome.after_cpu, Outcome.after_bus, Outcome.after_fault]
  cases hs : b.store w a value with
  | error e => exact .storeFault hs
  | ok b' => exact .store hs ho

theorem ends_update (a : UInt32) (f : UInt32 → UInt32) (ho : i.opcode ∈ Opcode.stores) :
    c.Ends b i (c.update b a f) := by
  simp only [Ends, update, storeFrom, Outcome.after_cpu, Outcome.after_bus, Outcome.after_fault]
  cases hl : b.load .word a with
  | error e => exact .loadFault hl
  | ok x =>
    simp only [Outcome.after_cpu, Outcome.after_bus, Outcome.after_fault]
    cases hs : x.2.store .word (wordAddress a) (f x.1) with
    | error e => exact .updateFault hl hs
    | ok b' => exact .update hl hs ho

theorem ends_checked {r : RegisterIndex} (overflows : Bool) (value : UInt32)
    (hd : i.destination? = some r) (ho : i.opcode ∈ Opcode.trapping) :
    c.Ends b i (c.checked b r overflows value) := by
  cases overflows with
  | true => exact .trap ho
  | false => exact .register value hd

theorem ends_jumpRegister (linked : Cpu)
    (hl : linked = c ∨ ∃ r, i.destination? = some r ∧ linked = c.link r) :
    c.Ends b i (c.jumpRegister b (c.reg i.rs) linked) := by
  rw [Ends, jumpRegister]
  by_cases ht : c.reg i.rs &&& 3 = 0
  · have hm : c.MayLead i (c.reg i.rs) := .inr (.inr (.inr ⟨rfl, ht⟩))
    rw [if_neg (by simp [ht])]
    rcases hl with rfl | ⟨r, hd, rfl⟩
    · exact .transfer hm
    · exact .linkTransfer hd hm
  · rw [if_pos (by simpa using ht)]
    exact .unaligned ht

theorem ends_branchIf (taken : Bool) : c.Ends b i ((c.branchIf i taken).done b) := by
  cases taken with
  | true => exact .transfer (.inr (.inl rfl))
  | false => exact .transfer (.inl rfl)

theorem ends_branchLinkIf (taken : Bool) (hd : i.destination? = some 31) :
    c.Ends b i ((c.branchLinkIf i taken).done b) := by
  -- The branch goes out from the linked state, whose addresses are those of `c`.
  have hpc : (c.link 31).pc = c.pc := setReg_pc ..
  have hnext : (c.link 31).nextPc = c.nextPc := setReg_nextPc ..
  cases taken with
  | true =>
    have h : c.branchLinkIf i true = (c.link 31).jump (c.branchTarget i) := by
      rw [branchTarget, ← hpc]
      rfl
    rw [h]
    exact .linkTransfer hd (.inr (.inl rfl))
  | false =>
    have h : c.branchLinkIf i false = (c.link 31).jump c.nextPc := by
      calc c.branchLinkIf i false = (c.link 31).jump (c.link 31).nextPc := rfl
        _ = (c.link 31).jump c.nextPc := by rw [hnext]
    rw [h]
    exact .linkTransfer hd (.inl rfl)

theorem ends_moveToSystem (r : RegisterIndex) (value : UInt32)
    (ho : i.opcode ∈ Opcode.systemWriters) : c.Ends b i (c.moveToSystem b r value) := by
  rw [Ends, moveToSystem]
  by_cases hr : r = Cop0.statusIndex
  · subst hr
    rw [if_pos rfl]
    exact .systemStatus value ho
  · rw [if_neg hr]
    exact .system value hr ho

end

theorem ends_execute (c : Cpu) (b : Bus) (i : Instruction) : c.Ends b i (c.execute b i) := by
  unfold execute
  cases ho : i.opcode with
  | sll | srl | sra | sllv | srlv | srav | mfhi | mflo | addu | subu | and | or | xor | nor | slt
  | sltu | addiu | slti | sltiu | andi | ori | xori | lui | mfc0 | cfc0 =>
    exact .register _ (by rw [Instruction.destination?, ho])
  | add | sub | addi =>
    exact ends_checked _ _ (by rw [Instruction.destination?, ho]) (by rw [ho]; decide)
  | mult | multu | div | divu | mthi | mtlo => exact .hiLo _ _ (by rw [ho]; decide)
  | syscall | breakpoint => exact .trap (by rw [ho]; decide)
  | jr => exact ends_jumpRegister c (.inl rfl)
  | jalr => exact ends_jumpRegister _ (.inr ⟨i.rd, by rw [Instruction.destination?, ho], rfl⟩)
  | bltz | bgez | beq | bne | blez | bgtz => exact ends_branchIf _
  | bltzal | bgezal => exact ends_branchLinkIf _ (by rw [Instruction.destination?, ho])
  | j => exact .transfer (.inr (.inr (.inl rfl)))
  | jal =>
    exact .linkTransfer (by rw [Instruction.destination?, ho]) (.inr (.inr (.inl rfl)))
  | mtc0 | ctc0 => exact ends_moveToSystem _ _ (by rw [ho]; decide)
  | rfe => exact .leave ho
  | lb | lh | lwl | lw | lbu | lhu | lwr =>
    exact ends_loadInto _ _ _ (by rw [Instruction.destination?, ho])
  | sb | sh | sw => exact ends_storeFrom _ _ _ (by rw [ho]; decide)
  | swl | swr => exact ends_update _ _ (by rw [ho]; decide)
  | cop | lwc | swc | illegal => exact .reject

/-- Both instructions that write to system control do so in one way. -/
theorem execute_systemWriter (c : Cpu) (b : Bus) {i : Instruction}
    (ho : i.opcode ∈ Opcode.systemWriters) :
    c.execute b i = c.moveToSystem b i.rd (c.reg i.rt) := by
  simp only [Opcode.systemWriters, List.mem_cons, List.not_mem_nil, or_false] at ho
  rcases ho with ho | ho <;> simp only [execute, ho]

/-- A step that could fetch its word carries it out. -/
theorem step_of_load {c : Cpu} {b b₁ : Bus} {word : UInt32}
    (hl : b.load .word c.pc = .ok (word, b₁)) :
    c.step b = Outcome.after (Bus.loadNotes .word c.pc)
      { (c.fetched word).execute b₁ (.decode word) with
        fault := ((c.fetched word).execute b₁ (.decode word)).fault.map
          (·.raisedAt c.pc (some word)) } := by
  rw [step, hl]

end Cpu

end R3000
