import MapAlgebra.Fault
import MapAlgebra.Number.Reading

/-!
# The arithmetic under the maps

Maps use three kinds of numbers: coordinates for positions and sizes, numbers for calculations on
cell values, and the cells themselves, which are kept in single precision. Every operation of the
library is written for any arithmetic; the program runs on binary floating point, and geometry can
as well be read with exact fractions.
-/

namespace MapAlgebra

/-- Numbers that measure positions and sizes. -/
class Coordinate (K : Type) extends Add K, Sub K, Mul K, Div K, LT K, LE K, BEq K where
  decidableLT : DecidableLT K
  decidableLE : DecidableLE K
  ofInt : Int → K
  isInfinite : K → Bool
  /-- The greatest whole number that is at most the coordinate. -/
  floor : K → Except NumberFault Int
  /-- The least whole number that is at least the coordinate. -/
  ceil : K → Except NumberFault Int
  /-- The nearest whole number, a half to the even neighbour. -/
  round : K → Except NumberFault Int
  /-- The cell that a distance in cells falls in. What has no floor lies far outside. -/
  cellIndex : K → Int
  /-- How many whole steps fit into a distance. -/
  steps : (distance step : K) → Int
  ofNumeral : Reading.Numeral → K
  /-- The text with the fewest digits that reads back. -/
  shortest : K → String
  /-- The text with six significant digits. -/
  general : K → String
  ofSingle : Float32 → K
  /-- The nearest single precision number; none beyond its range. -/
  toSingle? : K → Option Float32

attribute [reducible, instance] Coordinate.decidableLT Coordinate.decidableLE

namespace Coordinate

variable {K : Type} [Coordinate K]

def zero : K := ofInt 0

def half : K := ofInt 1 / ofInt 2

/-- Coordinates closer than this count as equal: file headers are single precision. -/
def tolerance : K := ofInt 1 / ofInt 10000

def least (a b : K) : K := if b < a then b else a

def greatest (a b : K) : K := if a < b then b else a

def distance (a b : K) : K := if a - b < zero then b - a else a - b

/-- Whether two coordinates are equal up to the tolerance. -/
def near (a b : K) : Bool := distance a b ≤ tolerance

/-- The quotient of sizes; a size of zero divides nothing. -/
def ratio (a b : K) : Except NumberFault K :=
  if b == zero then .error .divisionByZero else .ok (a / b)

end Coordinate

/-- Numbers of calculations on cell values. -/
class Number (V : Type) extends Add V, Sub V, Mul V, Div V, Neg V, LT V, LE V, BEq V where
  decidableLT : DecidableLT V
  decidableLE : DecidableLE V
  ofInt : Int → V
  notANumber : V
  isNaN : V → Bool
  isFinite : V → Bool
  power : (base exponent : V) → V
  /-- The power with one exponent for all bases, which takes the square, the square root and the
  reciprocal by their own operations. -/
  powerBy : (exponent base : V) → V
  /-- The whole part, digits behind the point left out. -/
  truncate : V → Except NumberFault Int
  /-- The nearest number with the given count of decimals. -/
  roundExact : (decimals : Int) → V → Except NumberFault V
  /-- The number scaled by a power of ten, rounded and scaled back. -/
  roundScaled : (decimals : Int) → V → V
  /-- The limits of the count of decimals of `roundScaled`. -/
  decimalsFit : Int → Bool
  ofNumeral : Reading.Numeral → V
  general : V → String
  shortest : V → String
  ofSingle : Float32 → V
  toSingle? : V → Option Float32

attribute [reducible, instance] Number.decidableLT Number.decidableLE

namespace Number

variable {V : Type} [Number V]

def zero : V := ofInt 0

def one : V := ofInt 1

/-- Truth as a number. -/
def ofBool (b : Bool) : V := if b then one else zero

/-- Every number but zero counts as true. -/
def isTrue (v : V) : Bool := !(v == zero)

/-- Equality of NoData values, under which a number that is none equals itself. -/
def same (a b : V) : Bool :=
  if isNaN a || isNaN b then isNaN a && isNaN b else a == b

end Number

/-- Numbers in the form in which a raster keeps them. -/
class Cell (S : Type) (V : outParam Type) where
  /-- The number a cell holds. -/
  widen : S → V
  /-- The cell nearest to a number. -/
  narrow : V → S
  toSingle : S → Float32
  ofSingle : Float32 → S

/-- Passage between coordinates and numbers of calculations. -/
class Conversion (K V : Type) where
  toNumber : K → V
  toCoordinate : V → K

end MapAlgebra
