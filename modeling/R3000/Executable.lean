import R3000.Error
import R3000.Note

/-!
# Executables

An executable file has a header of 2048 bytes and then the program. The header
begins with eight characters that mark the format, and says where the program
goes, where it starts and which memory it wants cleared.
-/

namespace R3000

structure Executable where
  /-- Where the program starts. -/
  entry : UInt32
  globalPointer : UInt32
  /-- Where the program goes. -/
  loadAddress : UInt32
  fillStart : UInt32
  fillSize : UInt32
  /-- Zero when the program keeps the stack it finds. -/
  stackBase : UInt32
  stackOffset : UInt32
  payload : ByteArray

namespace Executable

/-- What can be wrong with a file. -/
inductive Defect where
  | tooSmall (size : Nat)
  | badMagic
deriving DecidableEq, Repr

def Defect.describe : Defect → String
  | tooSmall size => "file too small (" ++ toString size ++ " bytes)"
  | badMagic => "bad magic number"

def Defect.toError (d : Defect) : Error :=
  .invalidExecutable d.describe

def headerSize : Nat := 0x800

/-- The characters that a file begins with. -/
def magic : ByteArray := "PS-X EXE".toUTF8

/-- The word at an offset of a file, least significant byte first. -/
def wordAt (file : ByteArray) (i : Nat) : UInt32 :=
  let byte (k : Nat) : UInt32 := (file.data.getD (i + k) 0).toUInt32
  byte 0 ||| (byte 1 <<< (8 : UInt32)) ||| (byte 2 <<< (16 : UInt32)) |||
    (byte 3 <<< (24 : UInt32))

/-- The size of the program that the header gives. -/
def statedSize (file : ByteArray) : Nat :=
  (wordAt file 0x1C).toNat

/-- How many bytes follow the header. -/
def availableSize (file : ByteArray) : Nat :=
  file.size - headerSize

/-- Read a file. A program that is shorter than its header says is taken as it is. -/
def parse (file : ByteArray) : Except Defect Executable :=
  if file.size < headerSize then .error (.tooSmall file.size)
  else if file.extract 0 8 != magic then .error .badMagic
  else .ok {
    entry := wordAt file 0x10
    globalPointer := wordAt file 0x14
    loadAddress := wordAt file 0x18
    fillStart := wordAt file 0x28
    fillSize := wordAt file 0x2C
    stackBase := wordAt file 0x30
    stackOffset := wordAt file 0x34
    payload :=
      file.extract headerSize (headerSize + min (statedSize file) (availableSize file)) }

/-- The stack pointer to start with, if the program asks for one. -/
def initialStack? (x : Executable) : Option UInt32 :=
  if x.stackBase == 0 then none else some (x.stackBase + x.stackOffset)

/-- What reading a file reports. -/
def parseNotes (file : ByteArray) : List Note :=
  match parse file with
  | .error _ => []
  | .ok x =>
    let truncated : List Note :=
      if availableSize file < statedSize file then
        [⟨.warn, .loader, "PSX-EXE load size 0x" ++ Hex.number (statedSize file) ++
          " exceeds payload (0x" ++ Hex.number (availableSize file) ++ "), truncating"⟩]
      else []
    truncated ++
      [⟨.info, .loader, "PSX-EXE parsed: PC=" ++ Hex.word x.entry ++ ", GP=" ++
        Hex.word x.globalPointer ++ ", Load=" ++ Hex.word x.loadAddress ++ ", Size=0x" ++
        Hex.number x.payload.size⟩]

end Executable

end R3000
