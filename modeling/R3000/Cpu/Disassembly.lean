import R3000.Cpu.State

/-!
# Assembly text

An instruction is shown by its mnemonic and the operands it uses. Branches and
jumps show the absolute address they go to.
-/

namespace R3000.Instruction

/-- Address of a branch at `pc` that is taken. -/
def branchAddress (i : Instruction) (pc : UInt32) : UInt32 :=
  pc + 4 + i.branchOffset

/-- Address of a jump at `pc`. -/
def jumpAddress (i : Instruction) (pc : UInt32) : UInt32 :=
  ((pc + 4) &&& 0xF0000000) ||| (i.target <<< (2 : UInt32))

/-- Decimal text with a sign where it is negative. -/
def signedText (i : Instruction) : String :=
  toString i.signedImm.toInt

def hexText (i : Instruction) : String :=
  "0x" ++ Hex.fixed 4 i.imm.toNat

/-- Address operand of a load or store. -/
def addressText (i : Instruction) : String :=
  i.signedText ++ "(" ++ i.rs.name ++ ")"

/-- The operands of an instruction at `pc`, in the order they are shown. -/
def operands (i : Instruction) (pc : UInt32) : List String :=
  match i.opcode with
  | .sll | .srl | .sra => [i.rd.name, i.rt.name, toString i.shamt.val]
  | .sllv | .srlv | .srav => [i.rd.name, i.rt.name, i.rs.name]
  | .jr | .mthi | .mtlo => [i.rs.name]
  | .jalr => if i.rd = 31 then [i.rs.name] else [i.rd.name, i.rs.name]
  | .syscall | .breakpoint | .rfe => []
  | .mfhi | .mflo => [i.rd.name]
  | .mult | .multu | .div | .divu => [i.rs.name, i.rt.name]
  | .add | .addu | .sub | .subu | .and | .or | .xor | .nor | .slt | .sltu =>
    [i.rd.name, i.rs.name, i.rt.name]
  | .bltz | .bgez | .bltzal | .bgezal | .blez | .bgtz =>
    [i.rs.name, Hex.word (i.branchAddress pc)]
  | .beq | .bne => [i.rs.name, i.rt.name, Hex.word (i.branchAddress pc)]
  | .j | .jal => [Hex.word (i.jumpAddress pc)]
  | .addi | .addiu | .slti | .sltiu => [i.rt.name, i.rs.name, i.signedText]
  | .andi | .ori | .xori => [i.rt.name, i.rs.name, i.hexText]
  | .lui => [i.rt.name, i.hexText]
  | .mfc0 | .cfc0 | .mtc0 | .ctc0 => [i.rt.name, "cop0r" ++ toString i.rd.val]
  | .lb | .lh | .lwl | .lw | .lbu | .lhu | .lwr | .sb | .sh | .swl | .sw | .swr =>
    [i.rt.name, i.addressText]
  | .cop _ => ["0x" ++ Hex.fixed 7 (i.word &&& 0x01FFFFFF).toNat]
  | .lwc _ | .swc _ => ["$" ++ toString i.rt.val, i.addressText]
  | .illegal => [Hex.word i.word]

/-- Assembly text of an instruction at `pc`. -/
def assembly (i : Instruction) (pc : UInt32) : String :=
  if i.word == 0 then "nop"
  else
    match i.operands pc with
    | [] => i.opcode.mnemonic
    | operands => i.opcode.mnemonic ++ " " ++ ", ".intercalate operands

end R3000.Instruction

namespace R3000

/-- Assembly text of the instruction `word` at `pc`. -/
def disassemble (word pc : UInt32) : String :=
  (Instruction.decode word).assembly pc

end R3000
