import R3000.Bios.Call
import R3000.Note

/-!
# Call tracer

The tracer looks at the processor before each instruction and reports the
kernel calls it sees. Characters that a program writes to the terminal are
collected into lines; a line ends at a line feed, at a flush, or when it has
grown to its limit. Carriage returns are dropped.
-/

namespace R3000.Bios

/-- What the tracer reports. -/
inductive Report where
  | call (call : Call)
  /-- A line of terminal output. -/
  | line (text : String)
deriving DecidableEq, Repr

def Report.message : Report → String
  | call c => c.describe
  | line text => "TTY: " ++ text

def Report.note (r : Report) : Note :=
  ⟨.info, .bios, r.message⟩

structure CallTracer where
  /-- Terminal output of the line that has not ended. -/
  terminal : String := ""
deriving DecidableEq, Repr, Inhabited

namespace CallTracer

/-- A line of this many bytes ends of itself. -/
def lineLimit : Nat := 256

/-- End the line, if there is any text on it. -/
def flush (t : CallTracer) : List Report × CallTracer :=
  if t.terminal.isEmpty then ([], t) else ([.line t.terminal], { t with terminal := "" })

/-- The character that a byte stands for. -/
def character (byte : UInt8) : Char :=
  Char.ofNat byte.toNat

/-- Put one character on the line. -/
def push (t : CallTracer) (ch : Char) : List Report × CallTracer :=
  let t := { t with terminal := t.terminal.push ch }
  if lineLimit ≤ t.terminal.utf8ByteSize then t.flush else ([], t)

/-- Write one byte to the terminal. -/
def putchar (t : CallTracer) (byte : UInt8) : List Report × CallTracer :=
  if byte == 10 then t.flush
  else if byte == 13 then ([], t)
  else t.push (character byte)

/-- Note a kernel call. -/
def record (t : CallTracer) (call : Call) : List Report × CallTracer :=
  if call.isPutchar then t.putchar call.arguments[0].toUInt8 else ([.call call], t)

/-- Look at the processor before it steps. -/
def observe (t : CallTracer) (cpu : Cpu) : List Report × CallTracer :=
  match Call.ofCpu? cpu with
  | some call => t.record call
  | none => ([], t)

end CallTracer

end R3000.Bios
