import R3000.Text.Blank

/-!
# Timestamps

A moment in Coordinated Universal Time, to the nanosecond. Its text is a date
and a time of day in the form of RFC 3339, such as `1970-01-02T00:00:00Z`.
Reading is more lenient than writing: it takes blanks between the parts, a
blank between date and time, and any offset from Greenwich.

Dates are those of the Gregorian calendar, continued into the past.
-/

namespace R3000

/-! ## Calendar -/

structure Date where
  year : Int
  month : Nat
  day : Nat
deriving DecidableEq, Repr, Inhabited

namespace Date

def isLeapYear (year : Int) : Bool :=
  year % 4 == 0 && (year % 100 != 0 || year % 400 == 0)

def daysInMonth (year : Int) (month : Nat) : Nat :=
  if month == 2 then if isLeapYear year then 29 else 28
  else if month == 4 || month == 6 || month == 9 || month == 11 then 30
  else 31

/-- The first and the last year that a timestamp may fall in. -/
def firstYear : Int := -262143

def lastYear : Int := 262142

def isValid (d : Date) : Bool :=
  firstYear ≤ d.year && d.year ≤ lastYear && 1 ≤ d.month && d.month ≤ 12 && 1 ≤ d.day &&
    d.day ≤ daysInMonth d.year d.month

/-- Days from 1970-01-01 to the date. Years are counted from March, so that a
leap day ends its year. -/
def toDays (d : Date) : Int :=
  let year := if d.month ≤ 2 then d.year - 1 else d.year
  let month := if d.month ≤ 2 then d.month + 9 else d.month - 3
  let dayOfYear : Int := (153 * month + 2) / 5 + d.day - 1
  year * 365 + year / 4 - year / 100 + year / 400 + dayOfYear - 719468

/-- The date that many days after 1970-01-01. -/
def ofDays (days : Int) : Date :=
  let shifted := days + 719468
  let era := shifted / 146097
  let dayOfEra := (shifted % 146097).toNat
  let yearOfEra := (dayOfEra - dayOfEra / 1460 + dayOfEra / 36524 - dayOfEra / 146096) / 365
  let dayOfYear := dayOfEra - (365 * yearOfEra + yearOfEra / 4 - yearOfEra / 100)
  let month := (5 * dayOfYear + 2) / 153
  let day := dayOfYear - (153 * month + 2) / 5 + 1
  let year := era * 400 + yearOfEra
  if month < 10 then ⟨year, month + 3, day⟩ else ⟨year + 1, month - 9, day⟩

end Date

/-- A moment. In a leap second `nanos` goes on beyond a thousand million. -/
structure Timestamp where
  /-- Seconds since the beginning of 1970. -/
  seconds : Int
  nanos : Nat := 0
deriving DecidableEq, Repr, Inhabited

namespace Timestamp

/-! ## Writing -/

/-- `n` in decimal, led by zeros up to `count` digits. -/
def padded (count n : Nat) : String :=
  let text := toString n
  String.ofList (List.replicate (count - text.length) '0') ++ text

/-- Four digits, or a sign and as many as needed. -/
def yearText (year : Int) : String :=
  if 0 ≤ year ∧ year ≤ 9999 then padded 4 year.toNat
  else (if year < 0 then "-" else "+") ++ padded 4 year.natAbs

/-- Fractions of a second in groups of three digits, as many as needed. -/
def fractionText (nanos : Nat) : String :=
  if nanos == 0 then ""
  else if nanos % 1000000 == 0 then "." ++ padded 3 (nanos / 1000000)
  else if nanos % 1000 == 0 then "." ++ padded 6 (nanos / 1000)
  else "." ++ padded 9 nanos

/-- Date and time of day with text between and after them. -/
def format (t : Timestamp) (between after : String) : String :=
  let date := Date.ofDays (t.seconds / 86400)
  let time := (t.seconds % 86400).toNat
  let leap := t.nanos / 1000000000
  yearText date.year ++ "-" ++ padded 2 date.month ++ "-" ++ padded 2 date.day ++ between ++
    padded 2 (time / 3600) ++ ":" ++ padded 2 (time / 60 % 60) ++ ":" ++
    padded 2 (time % 60 + leap) ++ fractionText (t.nanos % 1000000000) ++ after

/-- The moment as written in a save state. -/
def render (t : Timestamp) : String :=
  t.format "T" "Z"

/-- The moment as written for people. -/
def display (t : Timestamp) : String :=
  t.format " " " UTC"

/-! ## Reading -/

/-- Up to `most` digits, at least one. -/
def number? (most : Nat) (text : List Char) : Option (Nat × List Char) :=
  let digits := (text.take most).takeWhile Char.isDigit
  if digits.isEmpty then none
  else some (digits.foldl (fun n ch => n * 10 + (ch.toNat - 48)) 0, text.drop digits.length)

/-- A number after blanks. -/
def field? (most : Nat) (text : List Char) : Option (Nat × List Char) :=
  number? most (skipBlanks text)

/-- A year after blanks: with a sign any count of digits, without one at most four. -/
def year? (text : List Char) : Option (Int × List Char) :=
  match skipBlanks text with
  | '-' :: rest => (number? rest.length rest).map fun (n, rest) => (-(n : Int), rest)
  | '+' :: rest => (number? rest.length rest).map fun (n, rest) => ((n : Int), rest)
  | text => (number? 4 text).map fun (n, rest) => ((n : Int), rest)

/-- A separator after blanks. -/
def separator? (mark : Char) (text : List Char) : Option (List Char) :=
  match skipBlanks text with
  | ch :: rest => if ch = mark then some rest else none
  | [] => none

/-- Fractions of a second as nanoseconds, cut after nine digits; there may be none. -/
def fraction? (text : List Char) : Option (Nat × List Char) :=
  match text with
  | '.' :: rest =>
    (number? 9 rest).map fun (n, after) =>
      (n * Nat.pow 10 (9 - (rest.length - after.length)), after.dropWhile Char.isDigit)
  | text => some (0, text)

/-- Two digits. -/
def twoDigits? : List Char → Option (Nat × List Char)
  | a :: b :: rest =>
    if a.isDigit && b.isDigit then some ((a.toNat - 48) * 10 + (b.toNat - 48), rest) else none
  | _ => none

/-- Offset from Greenwich in seconds. -/
def offset? (text : List Char) : Option (Int × List Char) :=
  match text with
  | 'Z' :: rest | 'z' :: rest => some (0, rest)
  | sign :: rest =>
    if sign ≠ '+' ∧ sign ≠ '-' ∧ sign ≠ '\u2212' then none
    else do
      let (hours, rest) ← twoDigits? rest
      let (minutes, rest) ← twoDigits? (rest.dropWhile fun ch => ch == ':' || isBlank ch)
      if 60 ≤ minutes then none
      else
        let seconds : Int := hours * 3600 + minutes * 60
        some (if sign = '+' then seconds else -seconds, rest)
  | [] => none

/-- Offset by name or by number. -/
def zone? (text : List Char) : Option (Int × List Char) :=
  match text with
  | a :: b :: c :: rest =>
    if a.toUpper = 'U' ∧ b.toUpper = 'T' ∧ c.toUpper = 'C' then some (0, rest) else offset? text
  | _ => offset? text

/-- The moment of a local date and time, if it exists. -/
def ofLocal? (date : Date) (hour minute second nanos : Nat) (offset : Int) : Option Timestamp :=
  if date.isValid && hour < 24 && minute < 60 && second ≤ 60 && offset.natAbs < 86400 then
    let leap := second / 60
    let ofDay : Int := hour * 3600 + minute * 60 + (second - leap : Nat)
    let seconds := date.toDays * 86400 + ofDay - offset
    if (Date.ofDays (seconds / 86400)).isValid then
      some ⟨seconds, nanos + leap * 1000000000⟩
    else none
  else none

/-- Read a moment from all of `text`. -/
def parse? (text : String) : Option Timestamp := do
  let (year, rest) ← year? text.toList
  let rest ← separator? '-' rest
  let (month, rest) ← field? 2 rest
  let rest ← separator? '-' rest
  let (day, rest) ← field? 2 rest
  let rest ← match rest with
    | 'T' :: rest | 't' :: rest | ' ' :: rest => some rest
    | _ => none
  let (hour, rest) ← field? 2 rest
  let rest ← separator? ':' rest
  let (minute, rest) ← field? 2 rest
  let rest ← separator? ':' rest
  let (second, rest) ← field? 2 rest
  let (nanos, rest) ← fraction? rest
  let (offset, rest) ← zone? (skipBlanks rest)
  if (skipBlanks rest).isEmpty then
    ofLocal? ⟨year, month, day⟩ hour minute second nanos offset
  else none

end Timestamp

end R3000
