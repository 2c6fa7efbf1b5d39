/-!
# Decimal grids

A positive rational number is compared with the multiples of a power of ten. All arithmetic is
exact, on natural numbers.
-/

namespace MapAlgebra.Decimal

/-- The quotient rounded to the nearest natural number, a half to the even neighbour. -/
def roundHalfEven (num den : Nat) : Nat :=
  let quotient := num / den
  let twice := 2 * (num % den)
  if twice < den then quotient
  else if den < twice then quotient + 1
  else if quotient % 2 = 0 then quotient
  else quotient + 1

/-- The number of decimal digits, one for zero. -/
def digitCount (n : Nat) : Nat :=
  (Nat.toDigits 10 n).length

/-- The exponent of the greatest power of ten that is at most `num / den`, for positive `num`
and `den`. -/
def exponentOf (num den : Nat) : Int :=
  if den ≤ num then
    (digitCount (num / den) : Int) - 1
  else
    let count := digitCount (den / num)
    if den ≤ num * Nat.pow 10 (count - 1) then 1 - (count : Int) else -(count : Int)

/-- Numerator and denominator of `num / den * 10 ^ shift`. -/
def shifted (num den : Nat) (shift : Int) : Nat × Nat :=
  if 0 ≤ shift then (num * Nat.pow 10 shift.toNat, den)
  else (num, den * Nat.pow 10 (-shift).toNat)

/-- Numerator and denominator of `magnitude * 2 ^ exponent`. -/
def ofBinary (magnitude : Nat) (exponent : Int) : Nat × Nat :=
  if 0 ≤ exponent then (magnitude * Nat.pow 2 exponent.toNat, 1)
  else (magnitude, Nat.pow 2 (-exponent).toNat)

/-- Decimal digits without the zeros at the end. -/
def stripZeros (digits : List Char) : List Char :=
  (digits.reverse.dropWhile (· == '0')).reverse

/-- A sign, at least two digits of the exponent. -/
def exponentText (exponent : Int) : List Char :=
  let sign := if exponent < 0 then '-' else '+'
  let digits := Nat.toDigits 10 exponent.natAbs
  'e' :: sign :: (if digits.length < 2 then '0' :: digits else digits)

/-- Digits `d₁d₂…` read as `d₁.d₂… * 10 ^ exponent` and written without an exponent. The point is
left out when no digit follows it. -/
def positional (digits : List Char) (exponent : Int) : List Char :=
  if exponent < 0 then
    '0' :: '.' :: List.replicate (exponent.natAbs - 1) '0' ++ digits
  else
    let whole := exponent.toNat + 1
    let padded := digits ++ List.replicate (whole - digits.length) '0'
    let fraction := padded.drop whole
    padded.take whole ++ if fraction.isEmpty then [] else '.' :: fraction

/-- Digits `d₁d₂…` written as `d₁.d₂…e±xx`. -/
def scientific (digits : List Char) (exponent : Int) : List Char :=
  let fraction := digits.drop 1
  digits.take 1 ++ (if fraction.isEmpty then [] else '.' :: fraction) ++ exponentText exponent

end MapAlgebra.Decimal
