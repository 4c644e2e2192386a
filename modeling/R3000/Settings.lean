import R3000.Machine
import R3000.Toml

/-!
# Settings

What to run and how. Every setting has a default, so that an empty file gives
settings too; a key that is no setting is an error.
-/

namespace R3000

structure Settings where
  /-- File of the BIOS image. -/
  bios : Option String := none
  /-- File of an executable to start. -/
  exe : Option String := none
  /-- How many instructions to run; without it, until an error. -/
  instructions : Option UInt64 := none
  /-- File for a trace of every instruction. -/
  trace : Option String := none
  /-- Report kernel calls. -/
  biosCalls : Bool := false
  tickOrder : TickOrder := .cpuFirst
deriving DecidableEq, Repr, Inhabited

namespace Settings

/-- A tick order by its name, or as a table with nothing but that name in it. -/
def tickOrderOf? : Toml.Value → Option TickOrder
  | .text name => TickOrder.ofName? name
  | .table _ [(name, .emptyList)] => TickOrder.ofName? name
  | .table _ [(name, .table _ [])] => TickOrder.ofName? name
  | _ => none

/-- Whether a number can count instructions. -/
def isCount (n : Int) : Bool := 0 ≤ n && n.toNat < UInt64.size

/-- Take over one entry of a settings file. -/
def set (s : Settings) (key : String) (value : Toml.Value) : Option Settings :=
  match key, value with
  | "bios", .text file => some { s with bios := some file }
  | "exe", .text file => some { s with exe := some file }
  | "instructions", .number n =>
    if isCount n then some { s with instructions := some (UInt64.ofInt n) } else none
  | "trace", .text file => some { s with trace := some file }
  | "bios_calls", .flag on => some { s with biosCalls := on }
  | "tick_order", value => (tickOrderOf? value).map fun order => { s with tickOrder := order }
  | _, _ => none

/-- The settings of a file's text. -/
def parse (text : String) : Except Error Settings :=
  match (Toml.parse? text).bind fun entries =>
      entries.foldlM (fun s e => s.set e.1 e.2) {} with
  | some s => .ok s
  | none => .error .config

/-- What reading a settings file reports. -/
def readNotes (file : String) : List Note :=
  [⟨.debug, .config, "Loaded config from " ++ file⟩]

end Settings

end R3000
