import R3000.Settings

/-!
# Arguments

Options of the command line. An option that takes a value has it in the next
argument or behind an equals sign; the short option may also have it directly
behind. A value that follows must not look like an option. No option may be
given twice, and nothing but options may be given.
-/

namespace R3000

structure Arguments where
  config : Option String := none
  bios : Option String := none
  exe : Option String := none
  instructions : Option UInt64 := none
  trace : Option String := none
  biosCalls : Bool := false
deriving DecidableEq, Repr, Inhabited

/-- What the arguments ask for. -/
inductive Invocation where
  | run (a : Arguments)
  | help
  | invalid
deriving DecidableEq, Repr, Inhabited

namespace Arguments

/-- Options that take a value. -/
inductive ValueOption where
  | config
  | bios
  | exe
  | instructions
  | trace
deriving DecidableEq, Repr, Inhabited

/-- Long options. -/
inductive LongOption where
  | help
  | biosCalls
  | takesValue (o : ValueOption)
deriving DecidableEq, Repr, Inhabited

def LongOption.ofName? : String → Option LongOption
  | "help" => some .help
  | "bios-calls" => some .biosCalls
  | "config" => some (.takesValue .config)
  | "bios" => some (.takesValue .bios)
  | "exe" => some (.takesValue .exe)
  | "instructions" => some (.takesValue .instructions)
  | "trace" => some (.takesValue .trace)
  | _ => none

/-! ## Values -/

/-- A decimal number below 2^64, which may have a plus sign. -/
def count? (text : String) : Option UInt64 :=
  let digits := match text.toList with
    | '+' :: rest => rest
    | text => text
  if digits.isEmpty || !digits.all Char.isDigit then none
  else
    let n := digits.foldl (fun n ch => n * 10 + (ch.toNat - 48)) 0
    if n < UInt64.size then some (UInt64.ofNat n) else none

/-- The name of a file, which is not empty. -/
def file? (text : String) : Option String :=
  if text = "" then none else some text

/-- Put a value where none was before. -/
def once {α : Type} (old new : Option α) : Option (Option α) :=
  match old, new with
  | none, some a => some (some a)
  | _, _ => none

def setValue (a : Arguments) (o : ValueOption) (value : String) : Option Arguments :=
  match o with
  | .config => (once a.config (file? value)).map ({ a with config := · })
  | .bios => (once a.bios (file? value)).map ({ a with bios := · })
  | .exe => (once a.exe (file? value)).map ({ a with exe := · })
  | .instructions => (once a.instructions (count? value)).map ({ a with instructions := · })
  | .trace => (once a.trace (file? value)).map ({ a with trace := · })

/-! ## Options -/

/-- One argument by its looks. -/
inductive Shape where
  /-- Two dashes alone: no options come after it. -/
  | endOfOptions
  /-- A long option, with what stands behind an equals sign. -/
  | long (name : String) (attached : Option String)
  /-- Short options without their dash. -/
  | short (letters : List Char)
  | plain
deriving DecidableEq, Repr

def Shape.of (arg : String) : Shape :=
  match arg.toList with
  | ['-', '-'] => .endOfOptions
  | '-' :: '-' :: rest =>
    let name := String.ofList (rest.takeWhile (· ≠ '='))
    match rest.dropWhile (· ≠ '=') with
    | _ :: value => .long name (some (String.ofList value))
    | [] => .long name none
  | ['-'] => .plain
  | '-' :: letters => .short letters
  | _ => .plain

/-- What a short option finds directly behind it. -/
def attached? : List Char → Option String
  | [] => none
  | '=' :: rest => some (String.ofList rest)
  | rest => some (String.ofList rest)

/-- An option and its value, if it has one at once, or the answer right away. -/
inductive Request where
  | answer (i : Invocation)
  | flag
  | value (o : ValueOption) (attached : Option String)
deriving DecidableEq, Repr

def Request.of : Shape → Request
  | .long name attached =>
    match LongOption.ofName? name, attached with
    | some .help, none => .answer .help
    | some .biosCalls, none => .flag
    | some (.takesValue o), attached => .value o attached
    | _, _ => .answer .invalid
  | .short ('h' :: _) => .answer .help
  | .short ('n' :: rest) => .value .instructions (attached? rest)
  | _ => .answer .invalid

/-- Read the arguments that come after those in `a`. -/
def parseFrom (a : Arguments) : List String → Invocation
  | [] => .run a
  | arg :: rest =>
    if Shape.of arg = .endOfOptions then
      if rest.isEmpty then .run a else .invalid
    else
      match Request.of (Shape.of arg), rest with
      | .answer i, _ => i
      | .flag, rest =>
        if a.biosCalls then .invalid else parseFrom { a with biosCalls := true } rest
      | .value o (some value), rest =>
        match a.setValue o value with
        | some a => parseFrom a rest
        | none => .invalid
      | .value .., [] => .invalid
      | .value o none, value :: rest =>
        if Shape.of value ≠ .plain then .invalid
        else
          match a.setValue o value with
          | some a => parseFrom a rest
          | none => .invalid

def parse (args : List String) : Invocation :=
  parseFrom {} args

/-- Settings with what the arguments say in their place. -/
def override (a : Arguments) (s : Settings) : Settings :=
  { s with
    bios := a.bios <|> s.bios
    exe := a.exe <|> s.exe
    instructions := a.instructions <|> s.instructions
    trace := a.trace <|> s.trace
    biosCalls := s.biosCalls || a.biosCalls }

end Arguments

end R3000
