import R3000.Cpu.Instruction
import R3000.Error
import R3000.Note

/-!
# System control

Coprocessor 0 is a bank of 32 words. Three of them have a meaning here: Status
holds the mode stack and the isolation of the cache, Cause says why the last
trap was taken and which interrupts wait, and EPC where it was taken.

The mode stack has three levels of two bits, the current one lowest. A trap
pushes a level of kernel mode with interrupts off, and returning pops one.
-/

namespace R3000

/-! ## Status -/

namespace Status

/-- The six bits of the mode stack. -/
def modeStack : UInt32 := 0x3F

/-- The lower two levels of the mode stack. -/
def lowerLevels : UInt32 := 0xF

/-- The cache is isolated. -/
def isolateCache : UInt32 := 0x00010000

/-- Traps go to the boot vector. -/
def bootVectors : UInt32 := 0x00400000

/-- A trap moves every level up by one; the uppermost is lost. -/
def push (status : UInt32) : UInt32 :=
  (status &&& ~~~modeStack) ||| ((status <<< 2) &&& modeStack)

/-- A return moves every level down by one; the uppermost stays in place. -/
def pop (status : UInt32) : UInt32 :=
  (status &&& ~~~lowerLevels) ||| ((status >>> 2) &&& lowerLevels)

def isolates (status : UInt32) : Bool :=
  status &&& isolateCache != 0

def usesBootVectors (status : UInt32) : Bool :=
  status &&& bootVectors != 0

/-- The eight bits that let interrupts through. -/
def interruptMask (status : UInt32) : UInt8 :=
  (status >>> 8).toUInt8

/-- The named bits, from the lowest. -/
def fields : List (String × UInt32) := [
  ("IEC", 0x00000001), ("KUC", 0x00000002), ("IEP", 0x00000004), ("KUP", 0x00000008),
  ("IEO", 0x00000010), ("KUO", 0x00000020), ("IM", 0x0000FF00), ("ISC", 0x00010000),
  ("SWC", 0x00020000), ("PZ", 0x00040000), ("CM", 0x00080000), ("PE", 0x00100000),
  ("TS", 0x00200000), ("BEV", 0x00400000), ("RE", 0x02000000), ("CU0", 0x10000000),
  ("CU1", 0x20000000), ("CU2", 0x40000000), ("CU3", 0x80000000)]

end Status

/-! ## Cause -/

namespace Cause

/-- The five bits of the trap's code. -/
def codeMask : UInt32 := 0x7C

/-- The trap was taken in a delay slot. -/
def delaySlot : UInt32 := 0x80000000

/-- The bits that a program may write. -/
def writable : UInt32 := 0x00000300

def code (cause : UInt32) : UInt32 :=
  (cause &&& codeMask) >>> 2

def withCode (cause code : UInt32) : UInt32 :=
  (cause &&& ~~~codeMask) ||| ((code <<< 2) &&& codeMask)

/-- The interrupts that wait, two of software and six of hardware. -/
def pending (cause : UInt32) : UInt8 :=
  (cause >>> 8).toUInt8

/-- The bit of hardware line `line`. -/
def lineBit (line : UInt32) : UInt32 :=
  1 <<< (10 + line)

/-- The named bits, from the lowest. -/
def fields : List (String × UInt32) := [
  ("EXCODE", 0x0000007C), ("SW", 0x00000300), ("HW", 0x0000FC00), ("CE", 0x30000000),
  ("BD", 0x80000000)]

end Cause

/-- The names of the fields all of whose bits are set in `word`. -/
def namesOfSet (fields : List (String × UInt32)) (word : UInt32) : List String :=
  (fields.filter fun f => word &&& f.2 == f.2).map (·.1)

/-! ## The bank -/

structure Cop0 where
  registers : Vector UInt32 32
deriving DecidableEq, Repr

namespace Cop0

def statusIndex : Fin 32 := 12

def causeIndex : Fin 32 := 13

def epcIndex : Fin 32 := 14

/-- Which processor this is; it cannot be written. -/
def processorIndex : Fin 32 := 15

def reset : Cop0 :=
  ⟨((Vector.replicate 32 0).set statusIndex Status.bootVectors).set processorIndex 2⟩

instance : Inhabited Cop0 := ⟨reset⟩

def get (c : Cop0) (i : Fin 32) : UInt32 :=
  c.registers[i]

def set (c : Cop0) (i : Fin 32) (value : UInt32) : Cop0 :=
  ⟨c.registers.set i value⟩

/-- Write as a program does: of Cause only the software interrupts change, and
the processor's number stays. -/
def write (c : Cop0) (i : Fin 32) (value : UInt32) : Cop0 :=
  if i = causeIndex then
    c.set causeIndex ((c.get causeIndex &&& ~~~Cause.writable) ||| (value &&& Cause.writable))
  else if i = processorIndex then c
  else c.set i value

def status (c : Cop0) : UInt32 := c.get statusIndex

def cause (c : Cop0) : UInt32 := c.get causeIndex

def epc (c : Cop0) : UInt32 := c.get epcIndex

/-- Drive hardware interrupt line `line`. -/
def setHardwareInterrupt (c : Cop0) (line : UInt32) (asserted : Bool) : Cop0 :=
  c.set causeIndex
    (if asserted then c.cause ||| Cause.lineBit line else c.cause &&& ~~~Cause.lineBit line)

/-- What a trap from the instruction at `pc` leaves in the bank. -/
def enterTrap (c : Cop0) (t : Trap) (pc : UInt32) : Cop0 :=
  let cause := Cause.withCode c.cause t.code &&& ~~~Cause.delaySlot
  ((c.set statusIndex (Status.push c.status)).set causeIndex cause).set epcIndex pc

/-- What returning from a trap leaves in the bank. -/
def leaveTrap (c : Cop0) : Cop0 :=
  c.set statusIndex (Status.pop c.status)

/-- What a write by a program reports. -/
def writeNotes (i : Fin 32) (value : UInt32) : List Note :=
  if i = processorIndex then
    [⟨.debug, .cop0, "Ignoring write to COP0 PRID: " ++ Hex.word value⟩]
  else []

end Cop0

end R3000
