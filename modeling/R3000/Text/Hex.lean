/-!
# Hexadecimal text

Numbers are shown in upper-case hexadecimal, either with a fixed count of
digits (words, halfwords, bytes) or with as many digits as they need.
-/

namespace R3000.Hex

/-- The digit of a value below sixteen; larger values show their last digit. -/
def digit (n : Nat) : Char :=
  let d := n % 16
  if d < 10 then Char.ofNat (48 + d) else Char.ofNat (55 + d)

/-- The lowest `count` digits of `n`, most significant first. -/
def digits : (count n : Nat) → List Char
  | 0, _ => []
  | count + 1, n => digits count (n / 16) ++ [digit n]

theorem length_digits (count n : Nat) : (digits count n).length = count := by
  induction count generalizing n with
  | zero => rfl
  | succ count ih => simp [digits, ih]

/-- How many digits `n` needs; zero needs one. -/
def size (n : Nat) : Nat :=
  if n < 16 then 1 else size (n / 16) + 1

/-- The lowest `count` digits of `n`. -/
def fixed (count n : Nat) : String :=
  String.ofList (digits count n)

/-- All digits of `n`, led by zeros up to `count` of them. -/
def padded (count n : Nat) : String :=
  fixed (max count (size n)) n

/-- All digits of `n` and no more. -/
def number (n : Nat) : String :=
  padded 1 n

/-- A word as `0x` and eight digits. -/
def word (w : UInt32) : String :=
  "0x" ++ fixed 8 w.toNat

end R3000.Hex
