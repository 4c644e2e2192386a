import R3000.Cpu.Cop0
import R3000.Cpu.Instruction
import R3000.Text.Column

/-!
# Processor state

Thirty-two general registers, the pair of addresses that gives branches their
delay slot, the multiplier's result and the system control bank. Register
zero is never written.
-/

namespace R3000

structure Cpu where
  registers : Vector UInt32 32
  /-- Address of the next instruction to fetch. -/
  pc : UInt32
  /-- Address of the instruction after that. -/
  nextPc : UInt32
  /-- Address of the instruction that was fetched last. -/
  currentPc : UInt32
  /-- The instruction that was fetched last. -/
  currentInstruction : UInt32
  hi : UInt32
  lo : UInt32
  cop0 : Cop0
deriving DecidableEq, Repr

/-- The name of a general register. -/
def RegisterIndex.name (i : RegisterIndex) : String :=
  #v["zero", "at", "v0", "v1", "a0", "a1", "a2", "a3", "t0", "t1", "t2", "t3", "t4", "t5", "t6",
    "t7", "s0", "s1", "s2", "s3", "s4", "s5", "s6", "s7", "t8", "t9", "k0", "k1", "gp", "sp", "fp",
    "ra"][i]

namespace Cpu

/-- Where execution begins. -/
def resetVector : UInt32 := 0xBFC00000

def reset : Cpu where
  registers := Vector.replicate 32 0
  pc := resetVector
  nextPc := resetVector + 4
  currentPc := resetVector
  currentInstruction := 0
  hi := 0
  lo := 0
  cop0 := Cop0.reset

instance : Inhabited Cpu := ⟨reset⟩

def reg (c : Cpu) (i : RegisterIndex) : UInt32 :=
  c.registers[i]

/-- Write a general register; a write to register zero is dropped. -/
def setReg (c : Cpu) (i : RegisterIndex) (value : UInt32) : Cpu :=
  if i = 0 then c else { c with registers := c.registers.set i value }

/-- Go on at `pc`, with no delay slot pending. -/
def setPc (c : Cpu) (pc : UInt32) : Cpu :=
  { c with pc := pc, nextPc := pc + 4 }

def setHardwareInterrupt (c : Cpu) (line : UInt32) (asserted : Bool) : Cpu :=
  { c with cop0 := c.cop0.setHardwareInterrupt line asserted }

/-! ## Traps -/

/-- Where a trap goes on, under a Status word. -/
def trapVector (status : UInt32) : UInt32 :=
  if Status.usesBootVectors status then 0xBFC00180 else 0x80000080

/-- Take a trap at the instruction that was fetched last. -/
def enterTrap (c : Cpu) (t : Trap) : Cpu :=
  { c with cop0 := c.cop0.enterTrap t c.currentPc }.setPc (trapVector c.cop0.status)

/-- What a trap reports. -/
def trapNotes (c : Cpu) (t : Trap) : List Note :=
  [⟨.debug, .cpu, "EXCEPTION: cause=" ++ t.name ++ ", EPC=" ++ Hex.word c.currentPc ++
    ", handler=" ++ Hex.word (trapVector c.cop0.status) ++ ", instruction=" ++
    Hex.word c.currentInstruction⟩]

/-! ## Dump -/

/-- One row of a dump: four registers from number `4 * row` on. -/
def dumpRow (c : Cpu) (row : Fin 8) : String :=
  String.join ((List.finRange 4).map fun col =>
    let i : RegisterIndex := ⟨row.val * 4 + col.val, by omega⟩
    Column.right 4 i.name ++ ": " ++ Hex.word (c.reg i) ++ "  ")

/-- All registers as text. -/
def dump (c : Cpu) : String :=
  let lines :=
    ["PC: " ++ Hex.word c.pc ++ "  Next PC: " ++ Hex.word c.nextPc ++ "  Current: " ++
        Hex.word c.currentPc ++ " [" ++ Hex.word c.currentInstruction ++ "]",
      "HI: " ++ Hex.word c.hi ++ "  LO: " ++ Hex.word c.lo] ++
    (List.finRange 8).map c.dumpRow ++
    ["SR: " ++ Hex.word c.cop0.status ++ "  CAUSE: " ++ Hex.word c.cop0.cause ++ "  EPC: " ++
      Hex.word c.cop0.epc]
  String.join (lines.map (· ++ "\n"))

end Cpu

end R3000
