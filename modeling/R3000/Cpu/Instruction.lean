/-!
# Instructions

A word is one instruction. Its operation follows from the primary code in the
top six bits and, for some primary codes, from a second field; the other
fields are the operands. Every word decodes: one without a meaning decodes as
`illegal`.
-/

namespace R3000

inductive Opcode where
  | sll | srl | sra | sllv | srlv | srav
  | jr | jalr | syscall | breakpoint
  | mfhi | mthi | mflo | mtlo
  | mult | multu | div | divu
  | add | addu | sub | subu | and | or | xor | nor | slt | sltu
  | bltz | bgez | bltzal | bgezal
  | j | jal | beq | bne | blez | bgtz
  | addi | addiu | slti | sltiu | andi | ori | xori | lui
  | mfc0 | cfc0 | mtc0 | ctc0 | rfe
  | lb | lh | lwl | lw | lbu | lhu | lwr
  | sb | sh | swl | sw | swr
  /-- An operation of one of the coprocessors 1 to 3, none of which is there. -/
  | cop (n : Fin 4)
  /-- A load into such a coprocessor, or into coprocessor 0. -/
  | lwc (n : Fin 4)
  /-- A store from such a coprocessor, or from coprocessor 0. -/
  | swc (n : Fin 4)
  | illegal
deriving DecidableEq, Repr, Inhabited

namespace Opcode

/-- The name in assembly text. -/
def mnemonic : Opcode → String
  | sll => "sll" | srl => "srl" | sra => "sra"
  | sllv => "sllv" | srlv => "srlv" | srav => "srav"
  | jr => "jr" | jalr => "jalr" | syscall => "syscall" | breakpoint => "break"
  | mfhi => "mfhi" | mthi => "mthi" | mflo => "mflo" | mtlo => "mtlo"
  | mult => "mult" | multu => "multu" | div => "div" | divu => "divu"
  | add => "add" | addu => "addu" | sub => "sub" | subu => "subu"
  | and => "and" | or => "or" | xor => "xor" | nor => "nor"
  | slt => "slt" | sltu => "sltu"
  | bltz => "bltz" | bgez => "bgez" | bltzal => "bltzal" | bgezal => "bgezal"
  | j => "j" | jal => "jal" | beq => "beq" | bne => "bne" | blez => "blez" | bgtz => "bgtz"
  | addi => "addi" | addiu => "addiu" | slti => "slti" | sltiu => "sltiu"
  | andi => "andi" | ori => "ori" | xori => "xori" | lui => "lui"
  | mfc0 => "mfc0" | cfc0 => "cfc0" | mtc0 => "mtc0" | ctc0 => "ctc0" | rfe => "rfe"
  | lb => "lb" | lh => "lh" | lwl => "lwl" | lw => "lw" | lbu => "lbu" | lhu => "lhu"
  | lwr => "lwr"
  | sb => "sb" | sh => "sh" | swl => "swl" | sw => "sw" | swr => "swr"
  | cop n => "cop" ++ toString n.val
  | lwc n => "lwc" ++ toString n.val
  | swc n => "swc" ++ toString n.val
  | illegal => "illegal"

/-- The name in reports: the mnemonic with a capital, and the number of a
coprocessor in parentheses. -/
def name : Opcode → String
  | cop n => "Cop(" ++ toString n.val ++ ")"
  | lwc n => "Lwc(" ++ toString n.val ++ ")"
  | swc n => "Swc(" ++ toString n.val ++ ")"
  | op => op.mnemonic.capitalize

/-- Operation of primary code 0, by the low six bits. -/
def ofFunction : Nat → Opcode
  | 0x00 => sll | 0x02 => srl | 0x03 => sra
  | 0x04 => sllv | 0x06 => srlv | 0x07 => srav
  | 0x08 => jr | 0x09 => jalr | 0x0C => syscall | 0x0D => breakpoint
  | 0x10 => mfhi | 0x11 => mthi | 0x12 => mflo | 0x13 => mtlo
  | 0x18 => mult | 0x19 => multu | 0x1A => div | 0x1B => divu
  | 0x20 => add | 0x21 => addu | 0x22 => sub | 0x23 => subu
  | 0x24 => and | 0x25 => or | 0x26 => xor | 0x27 => nor
  | 0x2A => slt | 0x2B => sltu
  | _ => illegal

/-- Operation of primary code 1, by the rt field. Its lowest bit chooses the
comparison, and 10000 and 10001 alone link. -/
def ofCondition (rt : Nat) : Opcode :=
  if rt % 2 = 1 then
    if rt = 17 then bgezal else bgez
  else
    if rt = 16 then bltzal else bltz

/-- Operation of primary code 16, by the rs field and the low six bits. -/
def ofSystem (rs function : Nat) : Opcode :=
  match rs with
  | 0x00 => mfc0
  | 0x02 => cfc0
  | 0x04 => mtc0
  | 0x06 => ctc0
  | rs => if 0x10 ≤ rs ∧ function = 0x10 then rfe else illegal

end Opcode

/-- A general register by number. -/
abbrev RegisterIndex := Fin 32

/-- Register numbers can be written as numerals. -/
instance RegisterIndex.neZero : @NeZero Nat Zero.ofOfNat0 32 :=
  ⟨by decide⟩

structure Instruction where
  word : UInt32
  opcode : Opcode
deriving DecidableEq, Repr, Inhabited

namespace Instruction

/-- The five-bit field of `word` whose lowest bit is bit `shift`. -/
def field (word shift : UInt32) : RegisterIndex :=
  ⟨(word >>> shift).toNat % 32, Nat.mod_lt _ (by decide)⟩

/-- The operation that a word asks for. -/
def opcodeOf (word : UInt32) : Opcode :=
  let function := word.toNat % 64
  match (word >>> 26).toNat with
  | 0x00 => .ofFunction function
  | 0x01 => .ofCondition (field word 16)
  | 0x02 => .j | 0x03 => .jal
  | 0x04 => .beq | 0x05 => .bne | 0x06 => .blez | 0x07 => .bgtz
  | 0x08 => .addi | 0x09 => .addiu | 0x0A => .slti | 0x0B => .sltiu
  | 0x0C => .andi | 0x0D => .ori | 0x0E => .xori | 0x0F => .lui
  | 0x10 => .ofSystem (field word 21) function
  | 0x11 => .cop 1 | 0x12 => .cop 2 | 0x13 => .cop 3
  | 0x20 => .lb | 0x21 => .lh | 0x22 => .lwl | 0x23 => .lw
  | 0x24 => .lbu | 0x25 => .lhu | 0x26 => .lwr
  | 0x28 => .sb | 0x29 => .sh | 0x2A => .swl | 0x2B => .sw | 0x2E => .swr
  | 0x30 => .lwc 0 | 0x31 => .lwc 1 | 0x32 => .lwc 2 | 0x33 => .lwc 3
  | 0x38 => .swc 0 | 0x39 => .swc 1 | 0x3A => .swc 2 | 0x3B => .swc 3
  | _ => .illegal

def decode (word : UInt32) : Instruction :=
  ⟨word, opcodeOf word⟩

/-! ## Operands -/

def rs (i : Instruction) : RegisterIndex := field i.word 21

def rt (i : Instruction) : RegisterIndex := field i.word 16

def rd (i : Instruction) : RegisterIndex := field i.word 11

/-- Shift amount. -/
def shamt (i : Instruction) : RegisterIndex := field i.word 6

/-- The low sixteen bits. -/
def imm (i : Instruction) : UInt16 := i.word.toUInt16

/-- The low sixteen bits as a signed number. -/
def signedImm (i : Instruction) : Int16 := i.imm.toInt16

/-- The low sixteen bits, extended by their sign. -/
def immSigned (i : Instruction) : UInt32 := i.signedImm.toInt32.toUInt32

/-- The low sixteen bits, extended by zeros. -/
def immZero (i : Instruction) : UInt32 := i.imm.toUInt32

/-- The low twenty-six bits. -/
def target (i : Instruction) : UInt32 := i.word &&& 0x03FFFFFF

/-- Distance of a branch in bytes, from its delay slot. -/
def branchOffset (i : Instruction) : UInt32 := i.immSigned <<< 2

end Instruction

end R3000
