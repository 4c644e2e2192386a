import R3000.Text.Blank

/-!
# Environment file

Variables may be set in a file of lines `NAME=value`. Values may stand in
single or double quotes, and quotes may hold line breaks; a backslash takes the
meaning away from the next character, and `$NAME` stands for the value of an
earlier variable. A number sign behind a blank begins a comment.

The file is read up to the first line that makes no sense; what came before
counts.
-/

namespace R3000

/-- Variables in the order they were set. -/
abbrev Variables := List (String × String)

namespace Environment

/-! ## Lines -/

/-- Where in a line reading stands, as far as its end is concerned. -/
inductive Context where
  | plain
  | escape
  | single
  | singleEscape
  | double
  | doubleEscape
  | blank
  | comment
deriving DecidableEq, Repr, Inhabited

/-- The context after one more character. A number sign behind a blank does not get here. -/
def Context.next (c : Context) (ch : Char) : Context :=
  let opened : Context :=
    if ch = '\\' then escape
    else if ch = '"' then double
    else if ch = '\'' then single
    else plain
  match c with
  | plain => if isBlank ch && ch ≠ '\n' && ch ≠ '\r' then blank else opened
  | blank => opened
  | escape => plain
  | double => if ch = '\\' then doubleEscape else if ch = '"' then plain else double
  | doubleEscape => double
  | single => if ch = '\\' then singleEscape else if ch = '\'' then plain else single
  | singleEscape => single
  | comment => comment

/-- Read to the end of a row of the file, or to a comment. `read` holds what was read,
last character first. -/
def scanRow : Context → (row read : List Char) → Context × List Char
  | c, [], read => (c, read)
  | .blank, '#' :: _, read => (.comment, read)
  | c, ch :: rest, read => scanRow (c.next ch) rest (ch :: read)

/-- Drop the line break from a line that is held last character first. -/
def dropBreak : List Char → List Char
  | '\n' :: '\r' :: rest => rest
  | '\n' :: rest => rest
  | line => line

def isComment (row : List Char) : Bool :=
  (skipBlanks row).head? = some '#'

/-- Rows of a file with their line breaks. -/
def rowsFrom : (text row : List Char) → List (List Char)
  | [], [] => []
  | [], row => [row.reverse]
  | '\n' :: rest, row => ('\n' :: row).reverse :: rowsFrom rest []
  | ch :: rest, row => rowsFrom rest (ch :: row)

/-- Lines of a file. A line goes on over the rows that its quotes hold; `none` stands for
one that does not end. -/
def linesFrom : (rows : List (List Char)) → Context → (read : List Char) →
    List (Option (List Char))
  | [], .plain, _ => []
  | [], _, _ => [none]
  | row :: rows, c, read =>
    if read.isEmpty && isComment row then some [] :: linesFrom rows .plain []
    else
      let (c, read) := scanRow c row read
      match c with
      | .plain => some (dropBreak read).reverse :: linesFrom rows .plain []
      | .comment => some read.reverse :: linesFrom rows .plain []
      | c => linesFrom rows c read

/-! ## Values -/

/-- Where in a value reading stands. -/
inductive Mode where
  | plain
  | escape
  | single
  /-- Behind a dollar sign; in the name of a variable. -/
  | name (name : List Char)
  /-- In a name in braces. -/
  | braced (name : List Char)
  /-- Behind the value: only blanks and a comment may follow. -/
  | ended
deriving DecidableEq, Repr, Inhabited

/-- A value that is being read, last character first. -/
structure Partial where
  mode : Mode := .plain
  /-- In double quotes. -/
  quoted : Bool := false
  read : List Char := []
deriving DecidableEq, Repr, Inhabited

/-- Add the value of a variable, whose name is held last character first. A variable
that was never set has no text. -/
def Partial.substitute (p : Partial) (known : Variables) (name : List Char) : Partial :=
  let value := (known.lookup (String.ofList name.reverse)).getD ""
  { p with mode := .plain, read := value.toList.reverse ++ p.read }

/-- One more character outside of escapes, names and single quotes. -/
def Partial.take (p : Partial) (ch : Char) : Partial :=
  if ch = '$' then { p with mode := .name [] }
  else if p.quoted then
    if ch = '"' then { p with quoted := false }
    else if ch = '\\' then { p with mode := .escape }
    else { p with read := ch :: p.read }
  else if ch = '\'' then { p with mode := .single }
  else if ch = '"' then { p with quoted := true }
  else if ch = '\\' then { p with mode := .escape }
  else if ch = ' ' || ch = '\t' then { p with mode := .ended }
  else { p with read := ch :: p.read }

/-- The character that stands behind a backslash. -/
def unescape? (ch : Char) : Option Char :=
  if ch = 'n' then some '\n'
  else if ch = '\\' || ch = '\'' || ch = '"' || ch = '$' || ch = ' ' then some ch
  else none

/-- One more character; none if it makes no sense. -/
def Partial.next? (p : Partial) (known : Variables) (ch : Char) : Option Partial :=
  match p.mode with
  | .plain => some (p.take ch)
  | .escape => (unescape? ch).map fun ch => { p with mode := .plain, read := ch :: p.read }
  | .single =>
    some (if ch = '\'' then { p with mode := .plain } else { p with read := ch :: p.read })
  | .name name =>
    if ch.isAlphanum then some { p with mode := .name (ch :: name) }
    else if ch = '\x7b' && name.isEmpty then some { p with mode := .braced [] }
    else
      let p := p.substitute known name
      some (if ch = '$' then { p with mode := .name [] } else { p with read := ch :: p.read })
  | .braced name =>
    some (if ch = '\x7d' then p.substitute known name
      else { p with mode := .braced (ch :: name) })
  | .ended => if ch = ' ' || ch = '\t' then some p else none

def valueFrom? (known : Variables) (p : Partial) : List Char → Option String
  | [] =>
    match p.mode, p.quoted with
    | .braced _, _ => none
    | .single, _ => none
    | _, true => none
    | .name name, false => some (String.ofList (p.substitute known name).read.reverse)
    | _, false => some (String.ofList p.read.reverse)
  | ch :: rest =>
    if p.mode = .ended ∧ ch = '#' then valueFrom? known p []
    else do valueFrom? known (← p.next? known ch) rest

/-! ## Assignments -/

/-- The name at the front of a line. -/
def name? (line : List Char) : Option (String × List Char) :=
  match line with
  | ch :: _ =>
    if ch.isAlpha || ch = '_' then
      let isName (ch : Char) : Bool := ch.isAlphanum || ch = '_' || ch = '.'
      some (String.ofList (line.takeWhile isName), skipBlanks (line.dropWhile isName))
    else none
  | [] => none

/-- The name that a line assigns to and the text behind the equals sign. The word
`export` may stand before the name. -/
def target? (line : List Char) : Option (String × List Char) := do
  let (name, rest) ← name? line
  match name, rest with
  | name, '=' :: rest => some (name, skipBlanks rest)
  | "export", rest =>
    match ← name? rest with
    | (name, '=' :: rest) => some (name, skipBlanks rest)
    | _ => none
  | _, _ => none

/-- What a line assigns, `some none` for a line that assigns nothing. -/
def assignment? (known : Variables) (line : List Char) : Option (Option (String × String)) :=
  let line := skipBlanks (skipBlanks line.reverse).reverse
  if line.isEmpty || line.head? = some '#' then some none
  else do
    let (name, rest) ← target? line
    if rest.isEmpty || rest.head? = some '#' then some (some (name, ""))
    else
      let value ← valueFrom? known {} rest
      some (some (name, value))

/-- The variables that lines set, until one makes no sense. The first value of a
variable stays. -/
def collect (known : Variables) : List (Option (List Char)) → Variables
  | [] => known
  | none :: _ => known
  | some line :: rest =>
    match assignment? known line with
    | none => known
    | some none => collect known rest
    | some (some (name, value)) =>
      collect (if (known.lookup name).isSome then known else known ++ [(name, value)]) rest

/-- The variables that a text sets. -/
def parse (text : String) : Variables :=
  let text := match text.toList with
    | ch :: rest => if ch = '\uFEFF' then rest else ch :: rest
    | [] => []
  collect [] (linesFrom (rowsFrom text []) .plain [])

/-- The text in front of the first row of bytes that is no text. -/
def textFrom : (bytes row : List UInt8) → String
  | [], row => (String.fromUTF8? ⟨row.reverse.toArray⟩).getD ""
  | 10 :: rest, row =>
    match String.fromUTF8? ⟨(10 :: row).reverse.toArray⟩ with
    | some text => text ++ textFrom rest []
    | none => ""
  | byte :: rest, row => textFrom rest (byte :: row)

/-- The variables that a file sets. -/
def parseBytes (bytes : ByteArray) : Variables :=
  parse (textFrom bytes.data.toList [])

end Environment

end R3000
