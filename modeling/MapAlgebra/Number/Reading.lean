import MapAlgebra.Text.Basic
import MapAlgebra.Text.Digit
import MapAlgebra.Text.Case

/-!
# Numbers read from text

Decimal digits of any script are accepted. Whole and decimal numbers may carry blanks around them,
a sign, and single underscores between digits.
-/

namespace MapAlgebra.Reading

/-- A blank that may stand around a number: any but the information separators. -/
def isPadding (c : Char) : Bool :=
  Text.isBlank c && !(28 ≤ c.toNat && c.toNat ≤ 31)

/-- The text without the padding at its two ends. -/
def unpadded (text : Text) : Text :=
  ((text.dropWhile isPadding).reverse.dropWhile isPadding).reverse

/-- Removes the underscores of a text in which each stands between two digits. -/
def joinDigits? (text : Text) : Option Text :=
  go none text
where
  /-- `last` is the character before the text. -/
  go (last : Option Char) : Text → Option Text
    | [] => if last == some '_' then none else some []
    | c :: rest =>
        if c == '_' then
          if last.any Text.isDigit then go (some c) rest else none
        else if last == some '_' && !Text.isDigit c then none
        else (go (some c) rest).map (c :: ·)

/-- The sign in front of a number and the rest. -/
def sign : Text → Bool × Text
  | '-' :: rest => (true, rest)
  | '+' :: rest => (false, rest)
  | text => (false, text)

/-- The longest number of digits a whole number may have. -/
def digitLimit : Nat := 4300

/-- A whole number: digits, at most `digitLimit` of them, with an optional sign. -/
def whole? (text : Text) : Option Int := do
  let joined ← joinDigits? (unpadded text)
  let (negative, digits) := sign joined
  if digits.isEmpty || !digits.all Text.isDigit || digitLimit < digits.length then
    none
  else
    let value : Int := Text.digitsValue digits
    some (if negative then -value else value)

/-- A decimal number `± digits * 10 ^ exponent`, or one of the words for what no digits write. -/
inductive Numeral
  | decimal (negative : Bool) (digits : Nat) (exponent : Int)
  | infinite (negative : Bool)
  | notANumber
  deriving DecidableEq, Repr

/-- The exponent part behind the letter `e`: a sign and at least one digit. -/
def exponent? (text : Text) : Option Int :=
  let (negative, digits) := sign text
  if digits.isEmpty || !digits.all Text.isDigit then none
  else
    let value : Int := Text.digitsValue digits
    some (if negative then -value else value)

/-- Digits with an optional point among them and an optional exponent; at least one digit stands
before or behind the point. -/
def unsignedDecimal? (text : Text) : Option (Nat × Int) :=
  let (whole, rest) := Text.span Text.isDigit text
  let (fraction, rest) :=
    match rest with
    | '.' :: tail => Text.span Text.isDigit tail
    | _ => ([], rest)
  let digits := Text.digitsValue (whole ++ fraction)
  if whole.isEmpty && fraction.isEmpty then none
  else
    match rest with
    | [] => some (digits, -(fraction.length : Int))
    | c :: tail =>
        if c == 'e' || c == 'E' then
          (exponent? tail).map fun exponent => (digits, exponent - fraction.length)
        else none

/-- A decimal number or one of the words `inf`, `infinity` and `nan`. -/
def numeral? (text : Text) : Option Numeral := do
  let joined ← joinDigits? (unpadded text)
  let (negative, body) := sign joined
  let word := Text.lowerAscii body
  if word == ['i', 'n', 'f'] || word == ['i', 'n', 'f', 'i', 'n', 'i', 't', 'y'] then
    some (.infinite negative)
  else if word == ['n', 'a', 'n'] then
    some .notANumber
  else
    let (digits, exponent) ← unsignedDecimal? body
    some (.decimal negative digits exponent)

end MapAlgebra.Reading
