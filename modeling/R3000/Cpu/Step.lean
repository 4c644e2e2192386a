import R3000.Bus
import R3000.Cpu.Arithmetic
import R3000.Cpu.State

/-!
# Execution

One step fetches the word at `pc`, advances the pair of addresses and carries
the instruction out. Because the pair advances first, an instruction sees `pc`
at its own delay slot and `nextPc` behind that: a branch replaces `nextPc`
alone, so the instruction in the delay slot still comes next, and a link is
the value of `nextPc`.
-/

namespace R3000

/-- Processor and bus after an instruction or a part of it, and the error that
ended it, if one did. -/
structure Outcome where
  cpu : Cpu
  bus : Bus
  fault : Option Error := none
  /-- What was reported, oldest first. -/
  notes : List Note := []

namespace Outcome

/-- The same outcome after some earlier notes. -/
def after (notes : List Note) (o : Outcome) : Outcome :=
  match notes with
  | [] => o
  | _ => { o with notes := notes ++ o.notes }

end Outcome

namespace Cpu

open Arithmetic

/-- Address of a load or store. -/
def effectiveAddress (c : Cpu) (i : Instruction) : UInt32 :=
  c.reg i.rs + i.immSigned

/-! ## Without the bus -/

def setHiLo (c : Cpu) (r : HiLo) : Cpu :=
  { c with hi := r.hi, lo := r.lo }

/-- Address of a branch that is taken, once the pair has advanced. -/
def branchTarget (c : Cpu) (i : Instruction) : UInt32 :=
  c.pc + i.branchOffset

/-- Address of a jump within the segment of 256 megabytes of its delay slot. -/
def jumpTarget (c : Cpu) (i : Instruction) : UInt32 :=
  (c.pc &&& 0xF0000000) ||| (i.target <<< (2 : UInt32))

/-- Go on at `target` after the delay slot. -/
def jump (c : Cpu) (target : UInt32) : Cpu :=
  { c with nextPc := target }

def branchIf (c : Cpu) (i : Instruction) (taken : Bool) : Cpu :=
  if taken then c.jump (c.branchTarget i) else c

/-- Keep the address behind the delay slot in register `r`. -/
def link (c : Cpu) (r : RegisterIndex) : Cpu :=
  c.setReg r c.nextPc

/-- The condition is taken before the link is written. -/
def branchLinkIf (c : Cpu) (i : Instruction) (taken : Bool) : Cpu :=
  (c.link 31).branchIf i taken

/-! ## Outcomes -/

@[inline] def done (c : Cpu) (b : Bus) : Outcome :=
  { cpu := c, bus := b }

@[inline] def fail (c : Cpu) (b : Bus) (e : Error) : Outcome :=
  { cpu := c, bus := b, fault := some e }

/-- The instruction has no meaning. -/
def reject (c : Cpu) (b : Bus) (i : Instruction) : Outcome :=
  { cpu := c, bus := b, fault := some (.unsupportedInstruction c.currentPc c.currentInstruction),
    notes := [⟨.error, .instructions, "Unsupported instruction " ++ Hex.word i.word ++ " (" ++
      i.opcode.name ++ ") at PC=" ++ Hex.word c.currentPc⟩] }

/-- Jump to a register's value, which must be a multiple of four. -/
def jumpRegister (c : Cpu) (b : Bus) (target : UInt32) (linked : Cpu) : Outcome :=
  if target &&& 3 != 0 then
    { cpu := c, bus := b, fault := some (.addressError c.currentPc target),
      notes := [⟨.error, .jumps, "Unaligned jump target " ++ Hex.word target ++ " at PC=" ++
        Hex.word c.currentPc⟩] }
  else (linked.jump target).done b

def trap (c : Cpu) (b : Bus) (t : Trap) : Outcome :=
  { cpu := c.enterTrap t, bus := b, notes := c.trapNotes t }

/-- Write a result, or trap if it does not fit. -/
def checked (c : Cpu) (b : Bus) (r : RegisterIndex) (overflows : Bool) (value : UInt32) :
    Outcome :=
  if overflows then c.trap b .overflow else (c.setReg r value).done b

/-! ## Loads and stores -/

/-- Load at `address` and put what `f` makes of the value into register `r`. -/
@[inline] def loadInto (c : Cpu) (b : Bus) (w : Width) (address : UInt32) (r : RegisterIndex)
    (f : UInt32 → UInt32) : Outcome :=
  Outcome.after (Bus.loadNotes w address)
    (match b.load w address with
    | .error e => c.fail b e
    | .ok (value, b) => (c.setReg r (f value)).done b)

@[inline] def storeFrom (c : Cpu) (b : Bus) (w : Width) (address value : UInt32) : Outcome :=
  let notes := b.storeNotes w address value
  Outcome.after notes
    (match b.store w address value with
    | .error e => c.fail b e
    | .ok b => c.done b)

/-- Load the word around `address` and store what `f` makes of it in its place. -/
@[inline] def update (c : Cpu) (b : Bus) (address : UInt32) (f : UInt32 → UInt32) : Outcome :=
  Outcome.after (Bus.loadNotes .word address)
    (match b.load .word address with
    | .error e => c.fail b e
    | .ok (value, b) => c.storeFrom b .word (wordAddress address) (f value))

/-! ## System control -/

/-- A write of Status also tells the bus whether the cache is isolated. -/
def moveToSystem (c : Cpu) (b : Bus) (r : RegisterIndex) (value : UInt32) : Outcome :=
  let cop0 := c.cop0.write r value
  let c := { c with cop0 }
  if r = Cop0.statusIndex then
    let isolated := Status.isolates cop0.status
    { cpu := c, bus := b.setIsolated isolated, notes := b.isolationNotes isolated }
  else { cpu := c, bus := b, notes := Cop0.writeNotes r value }

/-! ## Dispatch -/

/-- Carry out an instruction. -/
def execute (c : Cpu) (b : Bus) (i : Instruction) : Outcome :=
  let s := c.reg i.rs
  let t := c.reg i.rt
  match i.opcode with
  | .sll => (c.setReg i.rd (t <<< UInt32.ofNat i.shamt.val)).done b
  | .srl => (c.setReg i.rd (t >>> UInt32.ofNat i.shamt.val)).done b
  | .sra => (c.setReg i.rd (shiftRightSigned t (UInt32.ofNat i.shamt.val))).done b
  | .sllv => (c.setReg i.rd (t <<< (s &&& 31))).done b
  | .srlv => (c.setReg i.rd (t >>> (s &&& 31))).done b
  | .srav => (c.setReg i.rd (shiftRightSigned t (s &&& 31))).done b
  | .jr => c.jumpRegister b s c
  | .jalr => c.jumpRegister b s (c.link i.rd)
  | .syscall => c.trap b .syscall
  | .breakpoint => c.trap b .breakpoint
  | .mfhi => (c.setReg i.rd c.hi).done b
  | .mthi => { c with hi := s }.done b
  | .mflo => (c.setReg i.rd c.lo).done b
  | .mtlo => { c with lo := s }.done b
  | .mult => (c.setHiLo (multiplySigned s t)).done b
  | .multu => (c.setHiLo (multiplyUnsigned s t)).done b
  | .div => (c.setHiLo (divideSigned s t)).done b
  | .divu => (c.setHiLo (divideUnsigned s t)).done b
  | .add => c.checked b i.rd (addOverflows s t) (s + t)
  | .addu => (c.setReg i.rd (s + t)).done b
  | .sub => c.checked b i.rd (subOverflows s t) (s - t)
  | .subu => (c.setReg i.rd (s - t)).done b
  | .and => (c.setReg i.rd (s &&& t)).done b
  | .or => (c.setReg i.rd (s ||| t)).done b
  | .xor => (c.setReg i.rd (s ^^^ t)).done b
  | .nor => (c.setReg i.rd (~~~(s ||| t))).done b
  | .slt => (c.setReg i.rd (ofBool (signedLt s t))).done b
  | .sltu => (c.setReg i.rd (ofBool (s < t))).done b
  | .bltz => (c.branchIf i (isNegative s)).done b
  | .bgez => (c.branchIf i (!isNegative s)).done b
  | .bltzal => (c.branchLinkIf i (isNegative s)).done b
  | .bgezal => (c.branchLinkIf i (!isNegative s)).done b
  | .j => (c.jump (c.jumpTarget i)).done b
  | .jal => ((c.link 31).jump (c.jumpTarget i)).done b
  | .beq => (c.branchIf i (s == t)).done b
  | .bne => (c.branchIf i (s != t)).done b
  | .blez => (c.branchIf i (isNegative s || s == 0)).done b
  | .bgtz => (c.branchIf i (!(isNegative s || s == 0))).done b
  | .addi => c.checked b i.rt (addOverflows s i.immSigned) (s + i.immSigned)
  | .addiu => (c.setReg i.rt (s + i.immSigned)).done b
  | .slti => (c.setReg i.rt (ofBool (signedLt s i.immSigned))).done b
  | .sltiu => (c.setReg i.rt (ofBool (s < i.immSigned))).done b
  | .andi => (c.setReg i.rt (s &&& i.immZero)).done b
  | .ori => (c.setReg i.rt (s ||| i.immZero)).done b
  | .xori => (c.setReg i.rt (s ^^^ i.immZero)).done b
  | .lui => (c.setReg i.rt (i.immZero <<< (16 : UInt32))).done b
  | .mfc0 | .cfc0 => (c.setReg i.rt (c.cop0.get i.rd)).done b
  | .mtc0 | .ctc0 => c.moveToSystem b i.rd t
  | .rfe => { c with cop0 := c.cop0.leaveTrap }.done b
  | .lb => c.loadInto b .byte (c.effectiveAddress i) i.rt extendByte
  | .lbu => c.loadInto b .byte (c.effectiveAddress i) i.rt id
  | .lh => c.loadInto b .half (c.effectiveAddress i) i.rt extendHalf
  | .lhu => c.loadInto b .half (c.effectiveAddress i) i.rt id
  | .lw => c.loadInto b .word (c.effectiveAddress i) i.rt id
  | .lwl =>
    c.loadInto b .word (c.effectiveAddress i) i.rt (loadLeft (c.effectiveAddress i) · t)
  | .lwr =>
    c.loadInto b .word (c.effectiveAddress i) i.rt (loadRight (c.effectiveAddress i) · t)
  | .sb => c.storeFrom b .byte (c.effectiveAddress i) t
  | .sh => c.storeFrom b .half (c.effectiveAddress i) t
  | .sw => c.storeFrom b .word (c.effectiveAddress i) t
  | .swl => c.update b (c.effectiveAddress i) (storeLeft (c.effectiveAddress i) · t)
  | .swr => c.update b (c.effectiveAddress i) (storeRight (c.effectiveAddress i) · t)
  | .cop _ | .lwc _ | .swc _ | .illegal => c.reject b i

/-! ## The step -/

/-- The state in which a fetched word is carried out. -/
def fetched (c : Cpu) (word : UInt32) : Cpu :=
  { c with
    currentPc := c.pc
    currentInstruction := word
    pc := c.nextPc
    nextPc := c.nextPc + 4 }

/-- Carry out one instruction. An error names the instruction it came from. -/
def step (c : Cpu) (b : Bus) : Outcome :=
  let pc := c.pc
  Outcome.after (Bus.loadNotes .word pc)
    (match b.load .word pc with
    | .error e => { c with currentPc := pc }.fail b (e.raisedAt pc none)
    | .ok (word, b) =>
      let o := (c.fetched word).execute b (.decode word)
      { o with fault := o.fault.map (·.raisedAt pc (some word)) })

end Cpu

end R3000
