import R3000.CommandLine.Arguments
import R3000.CommandLine.Environment
import R3000.Log

/-!
# Command line

The program reads its settings, sets a machine up and runs it, and writes a log
of what it does. It asks the system it runs on, the host, for every file; all
else is decided here.
-/

namespace R3000

/-- What the program asks of the system it runs on. -/
class Host (m : Type → Type) where
  /-- The value of a variable of the environment. -/
  getVariable : (name : String) → m (Option String)
  read : (file : String) → m (Except FileFailure ByteArray)
  /-- Make an empty file. -/
  create : (file : String) → m (Except FileFailure Unit)
  /-- Write at the end of a file. -/
  append : (file text : String) → m (Except FileFailure Unit)
  /-- Write a line of the log. -/
  log : (line : String) → m Unit
  /-- Write a line of help. -/
  print : (line : String) → m Unit

/-- A step that may fail asks the same host. -/
instance {m : Type → Type} [Monad m] [Host m] : Host (ExceptT Error m) where
  getVariable name := ExceptT.lift (Host.getVariable name)
  read file := ExceptT.lift (Host.read file)
  create file := ExceptT.lift (Host.create file)
  append file text := ExceptT.lift (Host.append file text)
  log line := ExceptT.lift (Host.log line)
  print line := ExceptT.lift (Host.print line)

inductive ExitStatus where
  | success
  /-- The run ended with an error. -/
  | failure
  /-- The run did not begin. -/
  | refusal
deriving DecidableEq, Repr, Inhabited

def ExitStatus.code : ExitStatus → UInt32
  | success => 0
  | failure => 1
  | refusal => 2

namespace CommandLine

def version : String := "0.1.0"

def helpLines : List String := [
  "Run a PlayStation BIOS or executable on the R3000A interpreter",
  "",
  "Usage: psxcore [OPTIONS]",
  "",
  "Options:",
  "      --config <CONFIG>              TOML configuration file; command-line options override it",
  "      --bios <BIOS>                  Path to PlayStation BIOS file (e.g., SCPH1001.BIN)",
  "      --exe <EXE>                    PSX-EXE to side-load into RAM before running",
  "  -n, --instructions <INSTRUCTIONS>  Number of instructions to execute (default: run until a fatal error)",
  "      --trace <TRACE>                Write a per-instruction trace to this file",
  "      --bios-calls                   Log BIOS A/B/C kernel calls and TTY output",
  "  -h, --help                         Print help"]

/-- The file that may set variables which the environment does not set. -/
def environmentFile : String := ".env"

/-- The variable that holds the log filter. -/
def filterVariable : String := "RUST_LOG"

/-- The log filter when no variable sets one. -/
def defaultFilter : String := "info"

variable {m : Type → Type} [Monad m] [Host m]

/-! ## Log -/

def report (f : LogFilter) (notes : List Note) : m Unit :=
  (notes.filter f.allows).forM fun n => n.lines.forM Host.log

def say (f : LogFilter) (severity : Severity) (text : String) : m Unit :=
  report f [⟨severity, .program, text⟩]

/-! ## Setting up -/

def readFile (file : String) : ExceptT Error m ByteArray := do
  match ← Host.read file with
  | .ok bytes => return bytes
  | .error e => throw (.file e)

def readText (file : String) : ExceptT Error m String := do
  match String.fromUTF8? (← readFile file) with
  | some text => return text
  | none => throw (.file .invalidUtf8)

/-- The settings that arguments ask for. -/
def settingsOf (f : LogFilter) (a : Arguments) : ExceptT Error m Settings := do
  match a.config with
  | none => return a.override {}
  | some file =>
    let s ← liftExcept (Settings.parse (← readText file))
    report f (Settings.readNotes file)
    return a.override s
where
  liftExcept (r : Except Error Settings) : ExceptT Error m Settings := ExceptT.mk (pure r)

def loadBios (f : LogFilter) (bios : Option String) (machine : Machine) :
    ExceptT Error m Machine := do
  match bios with
  | none =>
    say f .warn "No BIOS given; the reset vector will execute zeroed memory"
    return machine
  | some file =>
    say f .info ("Loading BIOS from: " ++ file)
    let image ← readFile file
    match machine.loadBios image with
    | .error e => throw e
    | .ok machine =>
      report f [⟨.info, .memory, "BIOS loaded from " ++ file⟩]
      return machine

def loadExecutable (f : LogFilter) (exe : Option String) (machine : Machine) :
    ExceptT Error m Machine := do
  match exe with
  | none => return machine
  | some file =>
    say f .info ("Loading executable from: " ++ file)
    let bytes ← readFile file
    report f (Executable.parseNotes bytes)
    match Executable.parse bytes with
    | .error d => throw d.toError
    | .ok x =>
      report f (Machine.loadNotes x)
      return machine.load x

def startTrace (f : LogFilter) (trace : Option String) (machine : Machine) :
    ExceptT Error m Machine := do
  match trace with
  | none => return machine
  | some file =>
    match ← Host.create file with
    | .error e => throw (.file e)
    | .ok () =>
      report f [⟨.info, .system, "CPU tracing enabled: " ++ file⟩]
      return machine.startTrace {}

/-- A machine set up as settings ask. -/
def setUp (f : LogFilter) (s : Settings) : ExceptT Error m Machine := do
  let machine ← loadBios f s.bios { order := s.tickOrder }
  let machine ← loadExecutable f s.exe machine
  let machine ← startTrace f s.trace machine
  return (machine.reportCalls s.biosCalls).2

/-! ## Running -/

/-- Write the trace of the steps so far. A file that takes no more lines breaks the trace. -/
def writeTrace (trace : Option String) (machine : Machine) : m Machine := do
  match trace, machine.tracer with
  | some file, some t =>
    let (lines, t) := t.drain
    match ← Host.append file (String.join (lines.toList.map (· ++ "\n"))) with
    | .ok () => return { machine with tracer := some t }
    | .error _ => return { machine with tracer := some t.breakMedium }
  | _, _ => return machine

/-- How many steps are taken between two writes of the log. -/
def sliceSize : Nat := 4096

/-- Run for `left` steps, in at most `fuel` slices, until an error. -/
def runSlices (f : LogFilter) (trace : Option String) : (fuel left : Nat) → Machine →
    m (Option Error × Machine)
  | 0, _, machine => return (none, machine)
  | fuel + 1, left, machine => do
    if left = 0 then return (none, machine)
    else
      let p := machine.steps (min left sliceSize)
      report f p.notes
      let machine ← writeTrace trace p.machine
      match p.fault with
      | some e => return (some e, machine)
      | none => runSlices f trace fuel (left - sliceSize) machine

/-- Run for `count` steps, until an error. -/
def runFor (f : LogFilter) (trace : Option String) (count : Nat) (machine : Machine) :
    m (Option Error × Machine) :=
  runSlices f trace (count / sliceSize + 1) count machine

/-- How many steps of `total` are taken between two reports of progress. -/
def chunkOf (total : Nat) : Nat := max (total / 10) 1

/-- Run on from `done` of `total` steps, in at most `fuel` chunks, and report progress
after each. -/
def runChunks (f : LogFilter) (trace : Option String) (total : Nat) : (fuel done : Nat) →
    Machine → m (Option Error × Machine)
  | 0, _, machine => return (none, machine)
  | fuel + 1, done, machine => do
    if total ≤ done then return (none, machine)
    else
      let count := min (chunkOf total) (total - done)
      match ← runFor f trace count machine with
      | (some e, machine) => return (some e, machine)
      | (none, machine) =>
        say f .info ("Progress: " ++ toString (done + count) ++ "/" ++ toString total ++
          " instructions | PC: " ++ Hex.word machine.cpu.pc)
        runChunks f trace total fuel (done + count) machine

def run (f : LogFilter) (s : Settings) (machine : Machine) : m (Option Error × Machine) := do
  say f .info "Starting emulation..."
  match s.instructions with
  | none => runFor f s.trace Machine.unlimited machine
  | some total =>
    runChunks f s.trace total.toNat (total.toNat / chunkOf total.toNat + 1) 0 machine

/-- Where an error arose, as the log shows it. -/
def faultText (e : Error) (cpu : Cpu) : String :=
  let shown := match e.instruction? with
    | some word => " (instruction " ++ Hex.word word ++ ")"
    | none => ""
  "Fatal error at PC=" ++ Hex.word (e.pc?.getD cpu.currentPc) ++ shown ++ ": " ++ e.root.message

/-- Report how a run ended. -/
def conclude (f : LogFilter) (fault : Option Error) (machine : Machine) : m ExitStatus := do
  match fault with
  | none =>
    say f .info "Emulation completed successfully!"
    say f .info ("Total instructions: " ++ toString machine.cycles)
    say f .info ("Final PC: " ++ Hex.word machine.cpu.pc)
    return .success
  | some e =>
    say f .error (faultText e machine.cpu)
    say f .error ("Instruction count: " ++ toString machine.cycles)
    say f .error ("Register dump:\n" ++ machine.cpu.dump)
    return .failure

/-! ## The program -/

/-- Carry out what the arguments ask for. -/
def perform (f : LogFilter) (a : Arguments) : m ExitStatus := do
  match ← (settingsOf f a).run with
  | .error e =>
    say f .error ("Failed to load configuration: " ++ e.message)
    return .refusal
  | .ok s =>
    match ← (setUp f s).run with
    | .error e =>
      say f .error e.message
      return .refusal
    | .ok machine =>
      let (fault, machine) ← run f s machine
      conclude f fault machine

/-- Variables that the environment file sets, if there is one. -/
def readVariables : m Variables := do
  match ← Host.read environmentFile with
  | .ok bytes => return Environment.parseBytes bytes
  | .error _ => return []

/-- The log filter that the environment or its file sets. -/
def readFilter : m LogFilter := do
  let fromFile ← readVariables
  let set ← Host.getVariable filterVariable
  return LogFilter.parse ((set <|> fromFile.lookup filterVariable).getD defaultFilter)

def program (args : List String) : m ExitStatus := do
  let f ← readFilter
  say f .info ("psxcore v" ++ version)
  match Arguments.parse args with
  | .help =>
    helpLines.forM Host.print
    return .success
  | .invalid => return .refusal
  | .run a => perform f a

end CommandLine

end R3000
