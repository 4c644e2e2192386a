import R3000.Cpu.State

/-!
# Kernel calls

A program calls the kernel by jumping to one of three fixed addresses with the
number of the function in register 9 and its arguments in the registers from 4
on.
-/

namespace R3000.Bios

/-- The three tables of kernel functions. -/
inductive Table where
  | a
  | b
  | c
deriving DecidableEq, Repr, Inhabited

namespace Table

/-- The table whose entry is at `pc`, in any segment. -/
def ofAddress? (pc : UInt32) : Option Table :=
  let address := pc &&& 0x1FFFFFFF
  if address == 0xA0 then some a
  else if address == 0xB0 then some b
  else if address == 0xC0 then some c
  else none

def letter : Table → String
  | a => "A"
  | b => "B"
  | c => "C"

/-- The functions whose names are known. -/
def names : Table → List (UInt8 × String)
  | a => [
    (0x00, "FileOpen"), (0x01, "FileSeek"), (0x02, "FileRead"), (0x03, "FileWrite"),
    (0x04, "FileClose"), (0x13, "setjmp"), (0x14, "longjmp"), (0x15, "strcat"),
    (0x17, "strcmp"), (0x19, "strcpy"), (0x1B, "strlen"), (0x25, "toupper"),
    (0x26, "tolower"), (0x2A, "memcpy"), (0x2B, "memset"), (0x2F, "rand"), (0x30, "srand"),
    (0x33, "malloc"), (0x34, "free"), (0x39, "InitHeap"), (0x3C, "putchar"), (0x3E, "puts"),
    (0x3F, "printf"), (0x44, "FlushCache"), (0x49, "GPU_cw"), (0x96, "AddCDROMDevice")]
  | b => [
    (0x00, "alloc_kernel_memory"), (0x07, "DeliverEvent"), (0x08, "OpenEvent"),
    (0x09, "CloseEvent"), (0x0A, "WaitEvent"), (0x0B, "TestEvent"), (0x0C, "EnableEvent"),
    (0x0D, "DisableEvent"), (0x12, "InitPad"), (0x13, "StartPad"),
    (0x17, "ReturnFromException"), (0x18, "SetDefaultExitFromException"),
    (0x19, "SetCustomExitFromException"), (0x3D, "putchar"), (0x3F, "puts"),
    (0x47, "AddDevice"), (0x5B, "ChangeClearPad")]
  | c => [
    (0x00, "EnqueueTimerAndVblankIrqs"), (0x01, "EnqueueSyscallHandler"),
    (0x02, "SysEnqIntRP"), (0x03, "SysDeqIntRP"), (0x07, "InstallExceptionHandlers"),
    (0x08, "SysInitMemory"), (0x0A, "ChangeClearRCnt"), (0x0C, "InitDefInt"),
    (0x12, "InstallDevices"), (0x1C, "AdjustA0Table")]

end Table

structure Call where
  table : Table
  function : UInt8
  /-- The first four argument registers. -/
  arguments : Vector UInt32 4
deriving DecidableEq, Repr

namespace Call

/-- The call that the processor is about to enter. -/
def ofCpu? (cpu : Cpu) : Option Call :=
  (Table.ofAddress? cpu.pc).map fun table =>
    { table
      function := (cpu.reg 9).toUInt8
      arguments := #v[cpu.reg 4, cpu.reg 5, cpu.reg 6, cpu.reg 7] }

def name? (call : Call) : Option String :=
  call.table.names.lookup call.function

/-- Whether the call writes one character to the terminal. -/
def isPutchar (call : Call) : Bool :=
  (call.table = .a && call.function == 0x3C) || (call.table = .b && call.function == 0x3D)

/-- The call as text, with its arguments if its name is known. -/
def describe (call : Call) : String :=
  let number := "BIOS " ++ call.table.letter ++ "(" ++ Hex.fixed 2 call.function.toNat ++ "h)"
  match call.name? with
  | some name =>
    number ++ " " ++ name ++ "(" ++
      ", ".intercalate (call.arguments.toList.map Hex.word) ++ ")"
  | none => number

end Call

end R3000.Bios
