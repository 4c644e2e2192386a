import R3000.Note
import R3000.Text.Blank
import R3000.Text.Column

/-!
# Log

How notes are written as lines, and which of them are written. A filter is a
list of directives: each sets the limit of severity for the components whose
path begins with its target, and the longest target that fits decides.
-/

namespace R3000

namespace Severity

def name : Severity → String
  | error => "ERROR"
  | warn => "WARN"
  | info => "INFO"
  | debug => "DEBUG"
  | trace => "TRACE"

def all : List Severity := [error, warn, info, debug, trace]

/-- How much is written when this is the limit. -/
def rank : Severity → Nat
  | error => 1
  | warn => 2
  | info => 3
  | debug => 4
  | trace => 5

end Severity

namespace Note

/-- The lines of a note. Lines after the first are set in. -/
def lines (n : Note) : List String :=
  match n.text.splitOn "\n" with
  | [] => []
  | first :: rest =>
    ("[" ++ Column.left 5 n.severity.name ++ " " ++ n.component.path ++ "] " ++ first) ::
      rest.map ("    " ++ ·)

end Note

/-! ## Limits -/

/-- The limit of severity; without one nothing is written. -/
abbrev LogLimit := Option Severity

namespace LogLimit

def rank (limit : LogLimit) : Nat :=
  limit.elim 0 Severity.rank

/-- A limit by its name, in capitals or not. -/
def ofName? (name : String) : Option LogLimit :=
  let name := name.map Char.toUpper
  if name = "OFF" then some none
  else (Severity.all.find? (·.name = name)).map some

end LogLimit

structure LogDirective where
  /-- What the path of a component begins with. -/
  target : String
  limit : LogLimit
deriving DecidableEq, Repr, Inhabited

namespace LogDirective

/-- Text without the blanks around it. -/
def trim (text : String) : String :=
  String.ofList (skipBlanks (skipBlanks text.toList).reverse).reverse

/-- Read `limit`, `target` or `target=limit`. -/
def parse? (text : String) : Option LogDirective :=
  match text.splitOn "=" with
  | [word] =>
    match LogLimit.ofName? word with
    | some limit => some ⟨"", limit⟩
    | none => some ⟨word, some .trace⟩
  | [target, limit] =>
    if trim limit = "" then some ⟨target, some .trace⟩
    else (LogLimit.ofName? (trim limit)).map (⟨target, ·⟩)
  | _ => none

end LogDirective

/-! ## Filters -/

structure LogFilter where
  directives : List LogDirective
  /-- Text that a note must hold. -/
  needle : String := ""
deriving DecidableEq, Repr, Inhabited

namespace LogFilter

/-- Directives between commas; those that cannot be read are left out. -/
def directivesOf (text : String) : List LogDirective :=
  (((text.splitOn ",").map LogDirective.trim).filter (· ≠ "")).filterMap LogDirective.parse?

/-- Only errors are written when there is no directive. -/
def ofDirectives (directives : List LogDirective) (needle : String) : LogFilter :=
  match directives with
  | [] => ⟨[⟨"", some .error⟩], needle⟩
  | _ => ⟨directives, needle⟩

/-- Directives, and after a slash the needle. -/
def parse (text : String) : LogFilter :=
  match text.splitOn "/" with
  | [directives] => ofDirectives (directivesOf directives) ""
  | [directives, needle] => ofDirectives (directivesOf directives) needle
  | _ => ofDirectives [] ""

/-- The directive that decides about a component: of the longest target, the last. -/
def decisive? (f : LogFilter) (c : Component) : Option LogDirective :=
  (f.directives.filter fun d => d.target.isPrefixOf c.path).foldl
    (fun best d =>
      match best with
      | some b => if b.target.length ≤ d.target.length then some d else some b
      | none => some d)
    none

/-- Whether `needle` stands anywhere in `text`. -/
def occurs (needle : List Char) : (text : List Char) → Bool
  | [] => needle.isEmpty
  | ch :: rest => needle.isPrefixOf (ch :: rest) || occurs needle rest

def allows (f : LogFilter) (n : Note) : Bool :=
  match f.decisive? n.component with
  | none => false
  | some d => n.severity.rank ≤ d.limit.rank && occurs f.needle.toList n.text.toList

end LogFilter

end R3000
