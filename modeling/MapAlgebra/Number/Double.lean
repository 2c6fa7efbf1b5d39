import MapAlgebra.Number.Arithmetic
import MapAlgebra.Number.Decimal
import MapAlgebra.Number.Printing

/-!
# Binary floating point

The arithmetic the program runs on: coordinates and calculations in double precision, cells in
single precision. Whole numbers, remainders and decimals are taken from the exact binary value.
-/

namespace MapAlgebra.Double

open Float.Model (UnpackedFloat)

/-- Rounds to single precision once, a half to the even neighbour. -/
def toSingle (x : Float) : Float32 :=
  match x.toModel.unpack with
  | .finite sign magnitude exponent _ =>
      .ofModel (.pack (UnpackedFloat.round .binary32 sign magnitude exponent))
  | special => .ofModel (.pack special)

/-- Every single precision number is a double precision number. -/
def ofSingle (x : Float32) : Float :=
  match x.toModel.unpack with
  | .finite sign magnitude exponent _ =>
      .ofModel (.pack (UnpackedFloat.round .binary64 sign magnitude exponent))
  | special => .ofModel (.pack special)

/-- Single precision, unless a finite number leaves its range. -/
def toSingle? (x : Float) : Option Float32 :=
  let single := toSingle x
  if single.isInf && !x.isInf then none else some single

private def signed (sign : UnpackedFloat.Sign) (magnitude : Nat) : Int :=
  match sign with
  | .positive => magnitude
  | .negative => -magnitude

/-- Passes the exact binary value of a finite number on. -/
def withBinary {α : Type} (x : Float) (zero : α) (finite : UnpackedFloat.Sign → Nat → Int → α) :
    Except NumberFault α :=
  match x.toModel.unpack with
  | .notANumber => .error .notANumber
  | .infinity _ => .error .infinite
  | .zero _ => .ok zero
  | .finite sign magnitude exponent _ => .ok (finite sign magnitude exponent)

def floor (x : Float) : Except NumberFault Int :=
  withBinary x 0 fun sign magnitude exponent =>
    let (num, den) := Decimal.ofBinary magnitude exponent
    signed sign num / den

def ceil (x : Float) : Except NumberFault Int :=
  withBinary x 0 fun sign magnitude exponent =>
    let (num, den) := Decimal.ofBinary magnitude exponent
    (signed sign num + den - 1) / den

def round (x : Float) : Except NumberFault Int :=
  withBinary x 0 fun sign magnitude exponent =>
    let (num, den) := Decimal.ofBinary magnitude exponent
    signed sign (Decimal.roundHalfEven num den)

def truncate (x : Float) : Except NumberFault Int :=
  withBinary x 0 fun sign magnitude exponent =>
    let (num, den) := Decimal.ofBinary magnitude exponent
    signed sign (num / den)

/-- The index of all that has no index of 64 bits. -/
def farOutside : Int := Int64.minValue.toInt

/-- A whole number as an index. -/
def index (whole : Except NumberFault Int) : Int :=
  match whole with
  | .ok n => if Int64.minValue.toInt ≤ n && n ≤ Int64.maxValue.toInt then n else farOutside
  | .error _ => farOutside

/-- The whole number nearest to a number, as a number, with the sign of the number. -/
def roundToWhole (x : Float) : Float :=
  match x.toModel.unpack with
  | .finite sign magnitude exponent _ =>
      if 0 ≤ exponent then x
      else
        let whole := Float.ofNat (Decimal.roundHalfEven magnitude (Nat.pow 2 (-exponent).toNat))
        match sign with
        | .positive => whole
        | .negative => -whole
  | _ => x

/-- The remainder of a division, exact and with the sign of the dividend. -/
def remainder (x y : Float) : Float :=
  match x.toModel.unpack, y.toModel.unpack with
  | .finite sign magnitude exponent _, .finite _ magnitude' exponent' _ =>
      let common := min exponent exponent'
      let num := magnitude * Nat.pow 2 (exponent - common).toNat
      let den := magnitude' * Nat.pow 2 (exponent' - common).toNat
      let rest := num % den
      if rest = 0 then
        match sign with
        | .positive => 0
        | .negative => -0
      else .ofModel (.pack (UnpackedFloat.round .binary64 sign rest common))
  | .zero _, .finite .. => x
  | .zero _, .infinity _ => x
  | .finite .., .infinity _ => x
  | _, _ => 0 / 0

/-- The quotient rounded down, by way of the remainder. -/
def floorQuotient (x y : Float) : Float :=
  if y == 0 then x / y
  else
    let rest := remainder x y
    let quotient := (x - rest) / y
    let quotient := if rest != 0 && (y < 0) != (rest < 0) then quotient - 1 else quotient
    if quotient == 0 then 0
    else
      match floor quotient with
      | .ok whole =>
          let down := Float.ofInt whole
          if quotient - down > 0.5 then down + 1 else down
      | .error _ => quotient

/-- Powers of ten by repeated multiplication, infinite when out of range. -/
def powerOfTen (n : Nat) : Float :=
  (List.range (min n 400)).foldl (fun power _ => power * 10) 1

/-- Scales by a power of ten, rounds to a whole number and scales back. -/
def roundScaled (decimals : Int) (x : Float) : Float :=
  if 0 < decimals then
    let power := powerOfTen decimals.toNat
    roundToWhole (x * power) / power
  else if decimals < 0 then
    let power := powerOfTen (-decimals).toNat
    roundToWhole (x / power) * power
  else roundToWhole x

private def withSign (sign : UnpackedFloat.Sign) (x : Float) : Float :=
  match sign with
  | .positive => x
  | .negative => -x

/-- The nearest number with the given count of decimals, from the exact value. Beyond the digits
that a number can have it is the number itself or zero. -/
def roundExact (decimals : Int) (x : Float) : Except NumberFault Float :=
  match x.toModel.unpack with
  | .finite sign magnitude exponent _ =>
      if 323 < decimals then .ok x
      else if decimals < -308 then .ok (withSign sign 0)
      else
        let (num, den) := Decimal.ofBinary magnitude exponent
        let (num, den) := Decimal.shifted num den decimals
        let digits := Decimal.roundHalfEven num den
        let rounded := Float.ofScientific digits (0 < decimals) decimals.natAbs
        if rounded.isInf then .error .tooLarge else .ok (withSign sign rounded)
  | _ => .ok x

/-- The number nearest to `digits * 10 ^ exponent`. Its first digit tells when that is certain to be
zero or out of range. -/
def ofDecimal (digits : Nat) (exponent : Int) : Float :=
  let top := Decimal.digitCount digits + exponent
  if digits = 0 || top < -400 then 0
  else if 400 < top then 1 / 0
  else .ofScientific digits (exponent < 0) exponent.natAbs

/-- The number nearest to a numeral. -/
def ofNumeral : Reading.Numeral → Float
  | .notANumber => 0 / 0
  | .infinite negative => if negative then -1 / 0 else 1 / 0
  | .decimal negative digits exponent =>
      let x := ofDecimal digits exponent
      if negative then -x else x

def powerBy (exponent base : Float) : Float :=
  if exponent == 2 then base * base
  else if exponent == 0.5 then base.sqrt
  else if exponent == -1 then 1 / base
  else base.pow exponent

instance : Coordinate Float where
  decidableLT := inferInstance
  decidableLE := inferInstance
  ofInt := Float.ofInt
  isInfinite := Float.isInf
  floor := floor
  ceil := ceil
  round := round
  cellIndex x := index (floor x)
  steps x y := index (truncate (floorQuotient x y))
  ofNumeral := ofNumeral
  shortest := Printing.shortest
  general := Printing.general
  ofSingle := ofSingle
  toSingle? := toSingle?

instance : Number Float where
  decidableLT := inferInstance
  decidableLE := inferInstance
  ofInt := Float.ofInt
  notANumber := 0 / 0
  isNaN := Float.isNaN
  isFinite := Float.isFinite
  power := Float.pow
  powerBy := powerBy
  truncate := truncate
  roundExact := roundExact
  roundScaled := roundScaled
  decimalsFit decimals :=
    Int32.minValue.toInt ≤ decimals && decimals ≤ Int32.maxValue.toInt
  ofNumeral := ofNumeral
  general := Printing.general
  shortest := Printing.shortest
  ofSingle := ofSingle
  toSingle? := toSingle?

instance : Cell Float32 Float where
  widen := ofSingle
  narrow := toSingle
  toSingle := id
  ofSingle := id

instance : Conversion Float Float where
  toNumber := id
  toCoordinate := id

end MapAlgebra.Double
