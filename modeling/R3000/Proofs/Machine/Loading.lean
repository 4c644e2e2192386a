import R3000.Machine
import R3000.Proofs.Cpu.State
import R3000.Proofs.Executable

/-!
# Putting an executable in place

The payload is copied to RAM first, and then the memory that the program wants cleared
is filled with zeros. Both may come round at the end of RAM, and they may overlap: then
the later byte counts, and a zero counts more than any byte of the payload. Of the
processor only the pair of addresses and up to three registers change.
-/

namespace R3000

namespace Executable

/-- The byte at offset `o` of RAM once the executable is in place, where `old` was before. -/
def ramByte (x : Executable) (o : Nat) (old : UInt8) : UInt8 :=
  if ∃ j < x.fillSize.toNat, fallsOn x.fillStart j = o then 0
  else (lastOn? x.loadAddress o x.payload.size).elim old (byteIn x.payload)

/-- The value of register `r` once the executable is in place, where `old` was before. -/
def registerValue (x : Executable) (r : RegisterIndex) (old : UInt32) : UInt32 :=
  if r = 28 then x.globalPointer
  else if (r = 29 ∨ r = 30) ∧ x.stackBase ≠ 0 then x.stackBase + x.stackOffset
  else old

end Executable

namespace Machine

/-- `after` is the machine `before` with an executable in place and nothing else changed. -/
structure Receives (before : Machine) (x : Executable) (after : Machine) : Prop where
  ram : ∀ o < Region.ram.size,
    after.bus.memory.get .ram o = x.ramByte o (before.bus.memory.get .ram o)
  regions : ∀ r ≠ .ram, after.bus.memory.bank r = before.bus.memory.bank r
  bus : after.bus = { before.bus with memory := after.bus.memory }
  registers : ∀ r, after.cpu.reg r = x.registerValue r (before.cpu.reg r)
  cpu : after.cpu =
    { before.cpu with pc := x.entry, nextPc := x.entry + 4, registers := after.cpu.registers }
  machine : after = { before with cpu := after.cpu, bus := after.bus }

/-! ## Memory -/

/-- Clearing nothing is a fill of no bytes. -/
theorem clearFor_eq (b : Bus) (x : Executable) : clearFor b x = b.fillRam x.fillStart x.fillSize 0 := by
  unfold clearFor
  by_cases h : x.fillSize = 0
  · simp [h, Bus.fillRam, Bus.fillCount, Memory.fill]
  · simp [h]

theorem load_memory (m : Machine) (x : Executable) :
    (m.load x).bus.memory =
      (m.bus.memory.copy (physical x.loadAddress) x.payload).fill (physical x.fillStart)
        (min x.fillSize.toNat Region.ram.size) 0 := by
  rw [load, clearFor_eq]
  rfl

theorem get_load_ram (m : Machine) (x : Executable) (o : Nat) :
    (m.load x).bus.memory.get .ram o = x.ramByte o (m.bus.memory.get .ram o) := by
  rw [load_memory, Memory.get_fill, Memory.get_copy, Executable.ramByte]

theorem bank_load_other (m : Machine) (x : Executable) {r : Region} (hr : r ≠ .ram) :
    (m.load x).bus.memory.bank r = m.bus.memory.bank r := by
  rw [load_memory, Memory.bank_fill_other _ _ hr, Memory.bank_copy_other _ _ hr]

/-! ## Processor -/

/-- A register write behind others leaves the same alone as they did. -/
theorem setReg_framed {c d : Cpu} (h : d = { c with registers := d.registers })
    (r : RegisterIndex) (value : UInt32) :
    d.setReg r value = { c with registers := (d.setReg r value).registers } := by
  obtain ⟨registers, rfl⟩ : ∃ registers, d = { c with registers } := ⟨_, h⟩
  exact Cpu.setReg_eq ..

theorem enter_eq (c : Cpu) (x : Executable) :
    enter c x =
      { c with pc := x.entry, nextPc := x.entry + 4, registers := (enter c x).registers } := by
  have hfirst := (c.setPc x.entry).setReg_eq 28 x.globalPointer
  unfold enter
  cases x.initialStack? with
  | none => exact hfirst
  | some stack => exact setReg_framed (setReg_framed hfirst 29 stack) 30 stack

theorem reg_setPc (c : Cpu) (pc : UInt32) (r : RegisterIndex) : (c.setPc pc).reg r = c.reg r :=
  rfl

/-- The stack pointer is set in two registers, if the program has a stack of its own. -/
theorem reg_enter (c : Cpu) (x : Executable) (r : RegisterIndex) :
    (enter c x).reg r = x.registerValue r (c.reg r) := by
  unfold enter Executable.registerValue Executable.initialStack?
  by_cases hs : x.stackBase = 0
  · simp [hs, Cpu.reg_setReg, reg_setPc]
  · simp only [hs, beq_iff_eq, if_false, Cpu.reg_setReg, reg_setPc]
    -- Register 30 is written last, so it is what the outermost write decides.
    by_cases h30 : r = 30
    · simp [h30, hs]
    · by_cases h29 : r = 29 <;> simp [h29, h30, hs]

theorem load_receives (m : Machine) (x : Executable) : m.Receives x (m.load x) where
  ram o _ := m.get_load_ram x o
  regions r hr := m.bank_load_other x hr
  bus := by
    simp only [load, clearFor_eq]
    rfl
  registers := reg_enter m.cpu x
  cpu := enter_eq m.cpu x
  machine := rfl

/-- A file is read exactly if it has a header, and gives what it describes; every
executable, also one whose sizes and addresses make no sense, is put in place and nothing
else changes. -/
theorem load_parsed (file : ByteArray) (m : Machine) :
    ((∃ x, Executable.parse file = .ok x) ↔ Executable.HasHeader file) ∧
      (∀ x, Executable.parse file = .ok x → x.DescribedBy file) ∧
      ∀ x, m.Receives x (m.load x) :=
  ⟨Executable.parse_ok_iff file, fun _ => Executable.describedBy_of_parse, m.load_receives⟩

/-- A file with a payload of four bytes, of which the header states eight. They come round
at the end of a mirror of RAM, and the last of them is to be cleared. -/
def wrappingFile : ByteArray :=
  let header : List UInt8 :=
    [0x50, 0x53, 0x2D, 0x58, 0x20, 0x45, 0x58, 0x45, 0, 0, 0, 0, 0, 0, 0, 0,
      0x00, 0x00, 0x01, 0x80, 0x00, 0x00, 0x02, 0x80, 0xFE, 0xFF, 0x3F, 0x80, 0x08, 0, 0, 0,
      0, 0, 0, 0, 0, 0, 0, 0, 0x01, 0, 0, 0, 0x01, 0, 0, 0,
      0xF0, 0xFF, 0xFF, 0xFF, 0x20, 0, 0, 0]
  ⟨⟨header ++ List.replicate (Executable.headerSize - header.length) 0 ++ [1, 2, 3, 4]⟩⟩

/-- What the file gives. The sum of its stack's base and offset does not fit a word. -/
def wrappingExecutable : Executable where
  entry := 0x80010000
  globalPointer := 0x80020000
  loadAddress := 0x803FFFFE
  fillStart := 0x00000001
  fillSize := 1
  stackBase := 0xFFFFFFF0
  stackOffset := 0x20
  payload := ⟨#[1, 2, 3, 4]⟩

set_option maxRecDepth 10000 in
/-- The file put in place while the cache is isolated. -/
theorem load_parsed_wrapping :
    Executable.parse wrappingFile = .ok wrappingExecutable ∧ Executable.HasHeader wrappingFile ∧
      wrappingExecutable.DescribedBy wrappingFile ∧
      ∃ m, m = ({ bus := { isolated := true } } : Machine).load wrappingExecutable ∧
        m.bus.memory.get .ram 0x1FFFFF = 2 ∧ m.bus.memory.get .ram 0 = 3 ∧
        m.bus.memory.get .ram 1 = 0 ∧ m.cpu.reg 30 = 0x10 := by
  obtain ⟨hread, hdescribed, hreceives⟩ := load_parsed wrappingFile { bus := { isolated := true } }
  have hparse : Executable.parse wrappingFile = .ok wrappingExecutable := rfl
  have hplaced := hreceives wrappingExecutable
  refine ⟨hparse, hread.mp ⟨_, hparse⟩, hdescribed _ hparse, _, rfl, ?_, ?_, ?_, ?_⟩
  · exact hplaced.ram 0x1FFFFF (by decide)
  · exact hplaced.ram 0 (by decide)
  · exact hplaced.ram 1 (by decide)
  · exact hplaced.registers 30

end Machine

end R3000
