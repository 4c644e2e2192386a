import R3000.Bios.CallTracer
import R3000.Cpu.Step
import R3000.Cpu.Trace
import R3000.Executable
import R3000.Snapshot

/-!
# The machine

Processor and bus, stepped together. Each step carries out one instruction and
advances the devices once; the tick order says which comes first. After the
devices have advanced, Cause shows whether an interrupt is pending.

A machine may also report kernel calls and write a trace. Neither changes what
it does.
-/

namespace R3000

inductive TickOrder where
  | cpuFirst
  | peripheralsFirst
deriving DecidableEq, Repr, Inhabited

namespace TickOrder

def name : TickOrder → String
  | cpuFirst => "cpu-first"
  | peripheralsFirst => "peripherals-first"

def ofName? (name : String) : Option TickOrder :=
  if name = cpuFirst.name then some cpuFirst
  else if name = peripheralsFirst.name then some peripheralsFirst
  else none

end TickOrder

structure Machine where
  cpu : Cpu := Cpu.reset
  bus : Bus := {}
  /-- Instructions carried out since the last reset. -/
  cycles : UInt64 := 0
  order : TickOrder := .cpuFirst
  tracer : Option Tracer := none
  calls : Option Bios.CallTracer := none

/-- A machine after an operation, the error that ended it, if one did, and what
was reported. -/
structure Progress where
  machine : Machine
  fault : Option Error := none
  notes : List Note := []

namespace Machine

/-- Reports as notes. -/
def notesOf (reports : List Bios.Report) : List Note :=
  reports.map Bios.Report.note

/-! ## Tracing -/

/-- Let the call tracer look at the processor. -/
def observe (calls : Option Bios.CallTracer) (cpu : Cpu) :
    List Note × Option Bios.CallTracer :=
  match calls with
  | none => ([], none)
  | some t =>
    let (reports, t) := t.observe cpu
    (notesOf reports, some t)

/-- Write the trace line of the instruction that was just carried out. -/
def traceStep (tracer : Option Tracer) (cpu : Cpu) : List Note × Option Tracer :=
  match tracer with
  | none => ([], none)
  | some t =>
    let (failure, t) := t.trace cpu
    let notes := failure.toList.map fun e =>
      ⟨.warn, .system, "Failed to write trace: " ++ (Error.file e).message⟩
    (notes, some t)

/-- Begin a trace on a new medium. -/
def startTrace (m : Machine) (medium : Tracer) : Machine :=
  { m with tracer := some medium }

def stopTrace (m : Machine) : Machine :=
  { m with tracer := none }

/-- What stopping a trace reports. -/
def stopTraceNotes (m : Machine) : List Note :=
  if m.tracer.isSome then [⟨.info, .system, "CPU tracing disabled"⟩] else []

/-- Turn the report of kernel calls on or off; turning it off ends the line of
terminal output. -/
def reportCalls (m : Machine) (on : Bool) : List Note × Machine :=
  match on, m.calls with
  | true, none => ([], { m with calls := some {} })
  | true, some _ => ([], m)
  | false, none => ([], m)
  | false, some t => (notesOf t.flush.1, { m with calls := none })

/-! ## Steps -/

/-- Advance the devices and show in Cause whether an interrupt is pending. -/
def tick (cpu : Cpu) (bus : Bus) : Outcome :=
  let notes := bus.tickNotes
  let (pending, bus) := bus.tick
  { cpu := cpu.setHardwareInterrupt 0 pending, bus, notes }

/-- One instruction and one tick, in the given order. The tick is left out when
the instruction comes first and fails. -/
def advance (order : TickOrder) (cpu : Cpu) (bus : Bus) : Outcome :=
  match order with
  | .cpuFirst =>
    let o := cpu.step bus
    match o.fault with
    | some _ => o
    | none => (tick o.cpu o.bus).after o.notes
  | .peripheralsFirst =>
    let t := tick cpu bus
    (t.cpu.step t.bus).after t.notes

/-- One step. A step that fails is not counted and not traced. -/
def step (m : Machine) : Progress :=
  let ⟨cpu, bus, cycles, order, tracer, calls⟩ := m
  let (callNotes, calls) := observe calls cpu
  let o := advance order cpu bus
  match o.fault with
  | some e =>
    { machine := ⟨o.cpu, o.bus, cycles, order, tracer, calls⟩
      fault := some e
      notes := callNotes ++ o.notes }
  | none =>
    let (traceNotes, tracer) := traceStep tracer o.cpu
    { machine := ⟨o.cpu, o.bus, cycles + 1, order, tracer, calls⟩
      notes := callNotes ++ o.notes ++ traceNotes }

/-- Up to `n` steps, until one fails, with the notes so far newest first. -/
def stepsFrom : (n : Nat) → Machine → List Note → Progress
  | 0, m, notes => { machine := m, notes := notes.reverse }
  | n + 1, m, notes =>
    let p := m.step
    let notes := p.notes.reverseAux notes
    match p.fault with
    | some e => { machine := p.machine, fault := some e, notes := notes.reverse }
    | none => stepsFrom n p.machine notes

/-- Up to `n` steps, until one fails. -/
def steps (n : Nat) (m : Machine) : Progress :=
  stepsFrom n m []

/-- How many steps a run without a limit takes at most: as many as the count of
instructions can tell apart. -/
def unlimited : Nat := UInt64.size

/-- Run until an error or for `limit` steps. -/
def run (limit : Option UInt64) (m : Machine) : Progress :=
  match limit with
  | some n => m.steps n.toNat
  | none => m.steps unlimited

/-! ## The host's side -/

/-- Power-on state, but for the content of the BIOS, the tick order and the tracers. -/
def reset (m : Machine) : List Note × Machine :=
  let m := { m with cpu := Cpu.reset, bus := m.bus.reset, cycles := 0 }
  match m.calls with
  | none => ([], m)
  | some t =>
    let (reports, t) := t.flush
    (notesOf reports, { m with calls := some t })

def loadBios (m : Machine) (image : ByteArray) : Except Error Machine :=
  (m.bus.loadBios image).map fun bus => { m with bus }

/-- Clear the memory that an executable wants cleared. -/
def clearFor (b : Bus) (x : Executable) : Bus :=
  if x.fillSize == 0 then b else b.fillRam x.fillStart x.fillSize 0

/-- Stand at the start of an executable. -/
def enter (c : Cpu) (x : Executable) : Cpu :=
  let c := (c.setPc x.entry).setReg 28 x.globalPointer
  match x.initialStack? with
  | some stack => (c.setReg 29 stack).setReg 30 stack
  | none => c

/-- Put an executable into memory and go to its start. -/
def load (m : Machine) (x : Executable) : Machine :=
  { m with
    cpu := enter m.cpu x
    bus := clearFor (m.bus.copyToRam x.loadAddress x.payload) x }

/-- What loading an executable reports. -/
def loadNotes (x : Executable) : List Note :=
  let cleared := if x.fillSize == 0 then [] else Bus.fillNotes x.fillStart x.fillSize
  cleared ++
    [⟨.info, .system, "Executable loaded: " ++ toString x.payload.size ++ " bytes at " ++
      Hex.word x.loadAddress ++ ", entry " ++ Hex.word x.entry⟩]

/-- The whole machine, to go on from later. -/
def save (m : Machine) (timestamp : Timestamp) : Snapshot :=
  Snapshot.capture m.cpu m.bus m.cycles timestamp

/-- Go on from a snapshot, if it fits. -/
def restore (m : Machine) (s : Snapshot) : Except Error Machine :=
  match s.check with
  | .error e => .error e
  | .ok () =>
    .ok { m with cpu := s.restoredCpu, bus := s.restoredBus m.bus, cycles := s.cycles }

end Machine

end R3000
