import R3000.Text.Blank

/-!
# TOML

A document is a row of statements: headers of tables, and assignments of values
to keys. A key may be a path of names with dots between.

This reads what settings are made of: texts, whole numbers, truth values and
tables. No setting takes a fraction, a date or a list with items, so these are
refused where they stand, and so are headers of lists of tables.
-/

namespace R3000.Toml

/-- How a table came to be, which decides what may be added to it later. -/
inductive Origin where
  /-- Written in braces: complete. -/
  | braces
  /-- Made by an assignment to a path. -/
  | dotted
  /-- Made by the header of a table inside it. -/
  | implied
  /-- Made by its own header. -/
  | header
deriving DecidableEq, Repr, Inhabited

inductive Value where
  | text (s : String)
  | number (n : Int)
  | flag (b : Bool)
  | emptyList
  | table (origin : Origin) (entries : List (String × Value))
deriving Inhabited

abbrev Entries := List (String × Value)

inductive Statement where
  | header (path : List String)
  | assign (path : List String) (value : Value)
deriving Inhabited

/-! ## Tables -/

namespace Entries

/-- Replace the value of a key that is there. -/
def replace (entries : Entries) (key : String) (value : Value) : Entries :=
  entries.map fun e => if e.1 = key then (key, value) else e

/-- Give a path a value that it does not have yet. -/
def assign : (path : List String) → Value → Entries → Option Entries
  | [], _, _ => none
  | [key], value, entries =>
    match entries.lookup key with
    | none => some (entries ++ [(key, value)])
    | some _ => none
  | key :: path, value, entries =>
    match entries.lookup key with
    | none => do
      let sub ← assign path value []
      some (entries ++ [(key, .table .dotted sub)])
    | some (.table .dotted sub) => do
      let sub ← assign path value sub
      some (replace entries key (.table .dotted sub))
    | some _ => none

/-- Open the table at a path by its header. -/
def openTable : (path : List String) → Entries → Option Entries
  | [], _ => none
  | [key], entries =>
    match entries.lookup key with
    | none => some (entries ++ [(key, .table .header [])])
    | some (.table .implied sub) => some (replace entries key (.table .header sub))
    | some _ => none
  | key :: path, entries =>
    match entries.lookup key with
    | none => do
      let sub ← openTable path []
      some (entries ++ [(key, .table .implied sub)])
    | some (.table .braces _) => none
    | some (.table origin sub) => do
      let sub ← openTable path sub
      some (replace entries key (.table origin sub))
    | some _ => none

/-- Change the table at a path. -/
def within (f : Entries → Option Entries) : (path : List String) → Entries → Option Entries
  | [], entries => f entries
  | key :: path, entries =>
    match entries.lookup key with
    | some (.table origin sub) => do
      let sub ← within f path sub
      some (replace entries key (.table origin sub))
    | _ => none

end Entries

/-- What statements say about the table at `path` and the tables below it. -/
def collectFrom (path : List String) : List Statement → Entries → Option Entries
  | [], entries => some entries
  | .header path :: rest, entries => do
    collectFrom path rest (← Entries.openTable path entries)
  | .assign key value :: rest, entries => do
    collectFrom path rest (← Entries.within (Entries.assign key value) path entries)

/-- The table that statements describe. -/
def collect (statements : List Statement) : Option Entries :=
  collectFrom [] statements []

/-! ## Characters -/

/-- Reads something from the front of a text. -/
abbrev Scan (α : Type) := StateT (List Char) Option α

namespace Scan

def refuse {α : Type} : Scan α := fun _ => none

/-- Take `mark` if the text begins with it. -/
def accept (mark : String) : Scan Bool := fun text =>
  if mark.toList.isPrefixOf text then some (true, text.drop mark.length)
  else some (false, text)

def expect (mark : String) : Scan Unit := do
  unless ← accept mark do refuse

def takeWhile (p : Char → Bool) : Scan (List Char) := fun text =>
  some (text.takeWhile p, text.dropWhile p)

end Scan

open Scan

/-- Space or tab. -/
def isGap (ch : Char) : Bool := ch = ' ' || ch = '\t'

/-- Characters that a line may hold. -/
def isPlain (ch : Char) : Bool :=
  ch = '\t' || (' ' ≤ ch && ch ≠ '\x7f')

/-- Characters of a key without quotes. -/
def isBare (ch : Char) : Bool :=
  ch.isAlphanum || ch = '_' || ch = '-'

/-- Characters of a number or a word. -/
def isAtom (ch : Char) : Bool :=
  ch.isAlphanum || ch = '_' || ch = '-' || ch = '+' || ch = '.' || ch = ':'

def gap : Scan Unit := do
  discard (takeWhile isGap)

def newline : Scan Bool := do
  return (← accept "\n") || (← accept "\r\n")

def comment : Scan Unit := do
  if ← accept "#" then discard (takeWhile isPlain)

/-- The end of a line: a comment and a line break, or the end of the text. -/
def endOfLine : Scan Unit := do
  gap
  comment
  unless (← newline) || (← get).isEmpty do refuse

/-- Spaces, line breaks and comments, as they may stand in brackets. -/
def wideGap : (fuel : Nat) → Scan Unit
  | 0 => refuse
  | fuel + 1 => do
    gap
    comment
    if ← newline then wideGap fuel

/-! ## Texts -/

/-- The value of a digit in a base up to sixteen. -/
def digit? (base : Nat) (ch : Char) : Option Nat :=
  let value? :=
    if ch.isDigit then some (ch.toNat - 48)
    else if 'a' ≤ ch ∧ ch ≤ 'f' then some (ch.toNat - 87)
    else if 'A' ≤ ch ∧ ch ≤ 'F' then some (ch.toNat - 55)
    else none
  value?.filter (· < base)

/-- The character whose number is written in the next `count` digits. -/
def codePoint (count : Nat) : Scan Char := fun text => do
  let digits ← (text.take count).mapM (digit? 16)
  let n := digits.foldl (fun n d => n * 16 + d) 0
  if digits.length = count ∧ n.isValidChar then some (Char.ofNat n, text.drop count) else none

/-- What stands for a character behind a backslash. -/
def escaped : Scan Char := do
  match ← get with
  | mark :: rest =>
    set rest
    match mark with
    | 'b' => return '\x08'
    | 't' => return '\t'
    | 'n' => return '\n'
    | 'f' => return '\x0c'
    | 'r' => return '\r'
    | 'e' => return '\x1b'
    | '"' => return '"'
    | '\\' => return '\\'
    | 'x' => codePoint 2
    | 'u' => codePoint 4
    | 'U' => codePoint 8
    | _ => refuse
  | [] => refuse

/-- The rest of a text in double quotes. -/
def quoted : (fuel : Nat) → (read : List Char) → Scan String
  | 0, _ => refuse
  | fuel + 1, read => do
    if ← accept "\"" then return String.ofList read.reverse
    else if ← accept "\\" then quoted fuel ((← escaped) :: read)
    else match ← get with
      | ch :: rest => if isPlain ch then set rest; quoted fuel (ch :: read) else refuse
      | [] => refuse

/-- The rest of a text in single quotes. -/
def literal : Scan String := do
  let body ← takeWhile fun ch => isPlain ch && ch ≠ '\''
  expect "'"
  return String.ofList body

/-- The quotes at the end of a text in triple quotes: up to two more belong to it. -/
def closing (quote : Char) : Scan (Option Nat) := fun text =>
  let count := (text.takeWhile (· = quote)).length
  if count < 3 then some (none, text)
  else some (some (min (count - 3) 2), text.drop (min count 5))

/-- The rest of a text in triple quotes, with or without escapes. Line breaks are kept,
but a backslash at the end of a line takes away all blank space behind it. -/
def block (quote : Char) (escapes : Bool) : (fuel : Nat) → (read : List Char) → Scan String
  | 0, _ => refuse
  | fuel + 1, read => do
    if let some more ← closing quote then
      return String.ofList (List.replicate more quote ++ read).reverse
    else if ← accept "\n" then block quote escapes fuel ('\n' :: read)
    else if ← accept "\r\n" then block quote escapes fuel ('\n' :: '\r' :: read)
    else if escapes && (← accept "\\") then
      let text ← get
      let rest := text.dropWhile isGap
      if "\n".toList.isPrefixOf rest || "\r\n".toList.isPrefixOf rest then
        set (rest.dropWhile fun ch => isGap ch || ch = '\n' || ch = '\r')
        block quote escapes fuel read
      else block quote escapes fuel ((← escaped) :: read)
    else match ← get with
      | ch :: rest =>
        if isPlain ch then set rest; block quote escapes fuel (ch :: read) else refuse
      | [] => refuse

/-- A text in triple quotes, behind them; a line break right there is dropped. -/
def blockOf (quote : Char) (escapes : Bool) (fuel : Nat) : Scan String := do
  discard newline
  block quote escapes fuel []

/-! ## Keys -/

def name (fuel : Nat) : Scan String := do
  if ← accept "\"" then quoted fuel []
  else if ← accept "'" then literal
  else
    let bare ← takeWhile isBare
    if bare.isEmpty then refuse else return String.ofList bare

/-- Names with dots between, and the blank behind them. -/
def path : (fuel : Nat) → Scan (List String)
  | 0 => refuse
  | fuel + 1 => do
    let first ← name fuel
    gap
    if ← accept "." then
      gap
      return first :: (← path fuel)
    else return [first]

/-! ## Values -/

/-- Digits that may have single underscores between, behind those that give `n`. -/
def moreDigits? (base : Nat) : (n : Nat) → List Char → Option Nat
  | n, [] => some n
  | n, '_' :: ch :: rest => do moreDigits? base (n * base + (← digit? base ch)) rest
  | n, ch :: rest => do moreDigits? base (n * base + (← digit? base ch)) rest

def digits? (base : Nat) : List Char → Option Nat
  | ch :: rest => do moreDigits? base (← digit? base ch) rest
  | [] => none

/-- A decimal number, which begins with a zero only if it is zero. -/
def decimal? : List Char → Option Nat
  | '0' :: _ :: _ => none
  | digits => digits? 10 digits

def number? : List Char → Option Int
  | '0' :: 'x' :: digits => (digits? 16 digits).map Int.ofNat
  | '0' :: 'o' :: digits => (digits? 8 digits).map Int.ofNat
  | '0' :: 'b' :: digits => (digits? 2 digits).map Int.ofNat
  | '-' :: digits => (decimal? digits).map fun n => -(n : Int)
  | '+' :: digits => (decimal? digits).map Int.ofNat
  | digits => (decimal? digits).map Int.ofNat

/-- A number or a truth value. -/
def atom : Scan Value := do
  let word ← takeWhile isAtom
  if word = "true".toList then return .flag true
  else if word = "false".toList then return .flag false
  else match number? word with
    | some n => return .number n
    | none => refuse

mutual

def value : (fuel : Nat) → Scan Value
  | 0 => refuse
  | fuel + 1 => do
    if ← accept "\"\"\"" then return .text (← blockOf '"' true fuel)
    else if ← accept "'''" then return .text (← blockOf '\'' false fuel)
    else if ← accept "\"" then return .text (← quoted fuel [])
    else if ← accept "'" then return .text (← literal)
    else if ← accept "[" then
      wideGap fuel
      expect "]"
      return .emptyList
    else if ← accept "\x7b" then
      wideGap fuel
      if ← accept "\x7d" then return .table .braces []
      else return .table .braces (← braced fuel [])
    else atom

/-- The rest of a table in braces. -/
def braced : (fuel : Nat) → Entries → Scan Entries
  | 0, _ => refuse
  | fuel + 1, entries => do
    let key ← path fuel
    expect "="
    gap
    let v ← value fuel
    match Entries.assign key v entries with
    | none => refuse
    | some entries =>
      wideGap fuel
      if ← accept "," then
        wideGap fuel
        if ← accept "\x7d" then return entries else braced fuel entries
      else
        expect "\x7d"
        return entries

end

/-! ## Statements -/

def statement (fuel : Nat) : Scan Statement := do
  if ← accept "[" then
    gap
    let path ← path fuel
    expect "]"
    return .header path
  else
    let key ← path fuel
    expect "="
    gap
    return .assign key (← value fuel)

/-- Every statement of a text. -/
def statements : (fuel : Nat) → Scan (List Statement)
  | 0 => refuse
  | fuel + 1 => do
    wideGap fuel
    if (← get).isEmpty then return []
    else
      let first ← statement fuel
      endOfLine
      return first :: (← statements fuel)

/-- The mark of byte order that a text may begin with. -/
def byteOrderMark : Char := '\uFEFF'

/-- The top table of a document. No step of reading needs more fuel than there are
characters. -/
def parse? (document : String) : Option Entries := do
  let text := match document.toList with
    | ch :: rest => if ch = byteOrderMark then rest else ch :: rest
    | [] => []
  collect (← (statements (text.length + 3)).run' text)

end R3000.Toml
