/-!
# Columns

Text filled with blanks to a given number of characters. Longer text is kept
whole.
-/

namespace R3000.Column

/-- `text` with blanks before it, at least `width` characters in all. -/
def right (width : Nat) (text : String) : String :=
  String.ofList (List.replicate (width - text.length) ' ') ++ text

/-- `text` with blanks after it, at least `width` characters in all. -/
def left (width : Nat) (text : String) : String :=
  text ++ String.ofList (List.replicate (width - text.length) ' ')

end R3000.Column
