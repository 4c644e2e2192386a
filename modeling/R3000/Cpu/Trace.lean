import R3000.Cpu.Disassembly

/-!
# Instruction trace

A trace holds one line for each instruction that was carried out: its address,
its word, its assembly text and the registers after it that are not zero.
-/

namespace R3000

namespace Trace

/-- The part of a line that names the instruction. -/
def instructionText (c : Cpu) : String :=
  Hex.word c.currentPc ++ " [" ++ Hex.word c.currentInstruction ++ "] " ++
    Column.left 30 (disassemble c.currentInstruction c.currentPc) ++ " |"

/-- One register of a line. -/
def registerText (c : Cpu) (i : RegisterIndex) : String :=
  " " ++ i.name ++ "=" ++ Hex.fixed 8 (c.reg i).toNat

/-- A line that shows the given registers. -/
def lineOf (c : Cpu) (shown : List RegisterIndex) : String :=
  instructionText c ++ String.join (shown.map (registerText c))

/-- The registers other than register zero that are not zero. -/
def nonzero (c : Cpu) : List RegisterIndex :=
  (List.finRange 32).filter fun i => i ≠ 0 && c.reg i != 0

def line (c : Cpu) : String :=
  lineOf c (nonzero c)

/-- How many registers a line of chosen registers shows at most. -/
def chosenLimit : Nat := 8

end Trace

/-- A trace being written. Its medium takes each line it is given, or refuses it. -/
structure Tracer where
  lines : Array String := #[]
  enabled : Bool := true
  /-- How many lines the medium was given. -/
  given : Nat := 0
  /-- Why the medium refuses a line that it is given, if it does. -/
  refusal? : (given : Nat) → Option FileFailure := fun _ => none
deriving Inhabited

namespace Tracer

/-- Add a line; a medium that refuses it says why. -/
def push (t : Tracer) (line : String) : Option FileFailure × Tracer :=
  let after := { t with given := t.given + 1 }
  match t.refusal? t.given with
  | some e => (some e, after)
  | none => (none, { after with lines := t.lines.push line })

/-- The trace with a medium that takes no more lines. -/
def breakMedium (t : Tracer) : Tracer :=
  { t with refusal? := fun _ => some (.other "trace medium failed") }

/-- Trace the instruction that was just carried out. -/
def trace (t : Tracer) (c : Cpu) : Option FileFailure × Tracer :=
  if t.enabled then t.push (Trace.line c) else (none, t)

/-- Like `trace`, but show only the first of the chosen registers. -/
def traceChosen (t : Tracer) (c : Cpu) (chosen : List RegisterIndex) :
    Option FileFailure × Tracer :=
  if t.enabled then t.push (Trace.lineOf c (chosen.take Trace.chosenLimit)) else (none, t)

/-- The lines so far, to be written out, and the trace without them. -/
def drain (t : Tracer) : Array String × Tracer :=
  (t.lines, { t with lines := #[] })

end Tracer

end R3000
