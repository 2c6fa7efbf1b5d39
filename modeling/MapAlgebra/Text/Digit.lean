import MapAlgebra.Text.Basic

/-!
# Decimal digits

A decimal digit of any script stands for the same value as its ASCII counterpart. Unicode keeps
the ten digits of a script together, in order of value.
-/

namespace MapAlgebra.Text

/-- The code points of the digit zero, one for each run of ten digits. -/
def zeroDigits : List Nat := [
  48, 1632, 1776, 1984, 2406, 2534, 2662, 2790, 2918, 3046, 3174, 3302, 3430, 3558, 3664, 3792,
  3872, 4160, 4240, 6112, 6160, 6470, 6608, 6784, 6800, 6992, 7088, 7232, 7248, 42528, 43216,
  43264, 43472, 43504, 43600, 44016, 65296, 66720, 68912, 69734, 69872, 69942, 70096, 70384,
  70736, 70864, 71248, 71360, 71472, 71904, 72016, 72784, 73040, 73120, 92768, 92864, 93008,
  120782, 120792, 120802, 120812, 120822, 123200, 123632, 125264, 130032]

/-- The value of a decimal digit of any script. -/
def digit? (c : Char) : Option Nat :=
  let n := c.toNat
  if n < 128 then
    if 48 ≤ n && n ≤ 57 then some (n - 48) else none
  else
    (zeroDigits.find? fun first => first ≤ n && n < first + 10).map (n - ·)

def isDigit (c : Char) : Bool :=
  (digit? c).isSome

/-- The number written by a run of digits, the most significant first. -/
def digitsValue (digits : Text) : Nat :=
  digits.foldl (fun value c => 10 * value + (digit? c).getD 0) 0

end MapAlgebra.Text
