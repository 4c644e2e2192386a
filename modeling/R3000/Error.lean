import R3000.Text.Hex

/-!
# Errors

Every way an operation of the machine can fail, with its text. An error of the
bus that arises while an instruction runs is wrapped in `executionFault`, which
names the instruction; `root` takes the wrapping off again.
-/

namespace R3000

/-- Why a file could not be used. -/
inductive FileFailure where
  | notFound
  | isDirectory
  | notDirectory
  | invalidUtf8
  | other (text : String)
deriving DecidableEq, Repr, Inhabited

def FileFailure.message : FileFailure → String
  | notFound => "No such file or directory (os error 2)"
  | isDirectory => "Is a directory (os error 21)"
  | notDirectory => "Not a directory (os error 20)"
  | invalidUtf8 => "stream did not contain valid UTF-8"
  | other text => text

inductive Error where
  /-- The instruction has no meaning on this machine. -/
  | unsupportedInstruction (pc instruction : UInt32)
  /-- A register jump to an address that is not a multiple of four. -/
  | addressError (pc target : UInt32)
  /-- No device register answers at this address of the I/O window. -/
  | unmappedIo (address : UInt32) (width : Nat)
  /-- An address of the third kernel segment that is not the cache control register. -/
  | invalidMemoryAccess (address : UInt32)
  /-- `source` arose at `pc`; there is no instruction when it could not be fetched. -/
  | executionFault (pc : UInt32) (instruction : Option UInt32) (source : Error)
  | invalidBiosSize (expected got : Nat)
  | invalidExecutable (reason : String)
  | file (failure : FileFailure)
  | config
  | saveStateEncode
  | saveStateDecode
  | invalidSaveState (reason : String)
  | saveStateVersion (expected found : UInt32)
deriving DecidableEq, Repr, Inhabited

/-- Traps that the processor can take, with their codes. -/
inductive Trap where
  | interrupt
  | addressErrorLoad
  | addressErrorStore
  | busErrorInstruction
  | busErrorData
  | syscall
  | breakpoint
  | reservedInstruction
  | coprocessorUnusable
  | overflow
deriving DecidableEq, Repr, Inhabited

namespace Trap

def code : Trap → UInt32
  | interrupt => 0
  | addressErrorLoad => 4
  | addressErrorStore => 5
  | busErrorInstruction => 6
  | busErrorData => 7
  | syscall => 8
  | breakpoint => 9
  | reservedInstruction => 10
  | coprocessorUnusable => 11
  | overflow => 12

def all : List Trap :=
  [interrupt, addressErrorLoad, addressErrorStore, busErrorInstruction, busErrorData, syscall,
    breakpoint, reservedInstruction, coprocessorUnusable, overflow]

def ofCode? (code : UInt32) : Option Trap :=
  all.find? (·.code == code)

def name : Trap → String
  | interrupt => "Interrupt"
  | addressErrorLoad => "AddressErrorLoad"
  | addressErrorStore => "AddressErrorStore"
  | busErrorInstruction => "BusErrorInstruction"
  | busErrorData => "BusErrorData"
  | syscall => "Syscall"
  | breakpoint => "Breakpoint"
  | reservedInstruction => "ReservedInstruction"
  | coprocessorUnusable => "CoprocessorUnusable"
  | overflow => "Overflow"

end Trap

namespace Error

def message : Error → String
  | unsupportedInstruction pc instruction =>
    "Unsupported instruction " ++ Hex.word instruction ++ " at PC=" ++ Hex.word pc
  | addressError pc target =>
    "Address error at PC=" ++ Hex.word pc ++ ": jump target " ++ Hex.word target ++
      " is not word aligned"
  | unmappedIo address width =>
    "Unmapped I/O " ++ toString width ++ "-byte access at " ++ Hex.word address
  | invalidMemoryAccess address => "Invalid memory access at " ++ Hex.word address
  | executionFault pc instruction source =>
    let shown := match instruction with
      | some word => " (instruction " ++ Hex.word word ++ ")"
      | none => ""
    "Fault at PC=" ++ Hex.word pc ++ shown ++ ": " ++ source.message
  | invalidBiosSize expected got =>
    "Invalid BIOS size: " ++ toString got ++ " bytes (expected " ++ toString expected ++ ")"
  | invalidExecutable reason => "Invalid PSX-EXE: " ++ reason
  | file failure => "I/O error: " ++ failure.message
  | config => "Config error:"
  | saveStateEncode => "Save state encode error:"
  | saveStateDecode => "Save state decode error:"
  | invalidSaveState reason => "Save state does not match this machine: " ++ reason
  | saveStateVersion expected found =>
    "Save state version " ++ toString found ++ " is not supported (expected " ++
      toString expected ++ ")"

/-- The trap that stands for the error on the processor. -/
def trap? : Error → Option Trap
  | addressError .. => some .addressErrorLoad
  | _ => none

/-- Address of the instruction that failed. -/
def pc? : Error → Option UInt32
  | unsupportedInstruction pc _ => some pc
  | addressError pc _ => some pc
  | executionFault pc _ _ => some pc
  | _ => none

/-- The instruction that failed, where it was fetched and the error names it. -/
def instruction? : Error → Option UInt32
  | unsupportedInstruction _ instruction => some instruction
  | executionFault _ instruction _ => instruction
  | _ => none

/-- The error under all wrapping. -/
def root : Error → Error
  | executionFault _ _ source => source.root
  | e => e

/-- Name the instruction that failed, unless the error already names its own. -/
def raisedAt (e : Error) (pc : UInt32) (instruction : Option UInt32) : Error :=
  match e with
  | unsupportedInstruction .. => e
  | addressError .. => e
  | executionFault .. => e
  | _ => executionFault pc instruction e

end Error

end R3000
