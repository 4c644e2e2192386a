import R3000.CommandLine

/-!
# The program on a real system

Files are those of the system, and the log goes to standard error.
-/

namespace R3000

/-- Why the system refused to use a file. -/
def FileFailure.ofSystem : IO.Error → FileFailure
  | .noFileOrDirectory .. => .notFound
  | .inappropriateType _ 21 _ => .isDirectory
  | .inappropriateType _ 20 _ => .notDirectory
  | .permissionDenied _ code details =>
    .other (details ++ " (os error " ++ toString code ++ ")")
  | e => .other (toString e)

/-- Try something that the system may refuse. -/
def attempt {α : Type} (action : IO α) : IO (Except FileFailure α) := do
  match ← action.toBaseIO with
  | .ok a => return .ok a
  | .error e => return .error (.ofSystem e)

instance : Host IO where
  getVariable name := IO.getEnv name
  read file := attempt (IO.FS.readBinFile file)
  create file := attempt (IO.FS.writeFile file "")
  append file text := attempt (IO.FS.withFile file .append fun handle => handle.putStr text)
  log line := IO.eprintln line
  print line := IO.println line

end R3000

def main (args : List String) : IO UInt32 := do
  let status ← R3000.CommandLine.program args
  return status.code
