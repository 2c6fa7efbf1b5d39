import MapAlgebra.Number.Arithmetic

/-!
# Extents

An extent is the bounding box of a map in model coordinates. Comparisons of extents allow for a
tolerance.
-/

namespace MapAlgebra

/-- A box given by its lower left and upper right corners. -/
structure Extent (K : Type) where
  xll : K
  yll : K
  xur : K
  yur : K
  deriving DecidableEq, Repr

namespace Extent

variable {K : Type} [Coordinate K]

/-- The box with the given corners. The upper right corner may not lie below or left of the lower
left one. -/
def of (xll yll xur yur : K) : Except Fault (Extent K) :=
  if xur < xll || yur < yll then
    let text : K → String := Coordinate.shortest
    .error (.grid (.cornersSwapped (text xur) (text yur) (text xll) (text yll)))
  else .ok ⟨xll, yll, xur, yur⟩

/-- Reads four coordinates divided by commas or blanks. -/
def ofText (text : Text) : Except Fault (Extent K) :=
  let words := Text.words (text.map fun c => if c == ',' then ' ' else c)
  match words with
  | [a, b, c, d] =>
      match [a, b, c, d].mapM Reading.numeral? with
      | some [xll, yll, xur, yur] =>
          let read : Reading.Numeral → K := Coordinate.ofNumeral
          of (read xll) (read yll) (read xur) (read yur)
      | _ => .error (.settings (.coordinates text))
  | _ => .error (.settings (.coordinateCount text))

def width (extent : Extent K) : K := extent.xur - extent.xll

def height (extent : Extent K) : K := extent.yur - extent.yll

/-- Whether a side is no longer than the tolerance. -/
def isEmpty (extent : Extent K) : Bool :=
  extent.width ≤ Coordinate.tolerance || extent.height ≤ Coordinate.tolerance

/-- Whether all four sides agree up to a tolerance. -/
def agreesWithin (tolerance : K) (a b : Extent K) : Bool :=
  Coordinate.distance a.xll b.xll ≤ tolerance && Coordinate.distance a.yll b.yll ≤ tolerance &&
    Coordinate.distance a.xur b.xur ≤ tolerance && Coordinate.distance a.yur b.yur ≤ tolerance

def agrees (a b : Extent K) : Bool :=
  a.agreesWithin Coordinate.tolerance b

/-- Whether the second box lies in the first up to a tolerance. -/
def containsWithin (tolerance : K) (a b : Extent K) : Bool :=
  a.xll - tolerance ≤ b.xll && a.yll - tolerance ≤ b.yll &&
    b.xur ≤ a.xur + tolerance && b.yur ≤ a.yur + tolerance

def contains (a b : Extent K) : Bool :=
  a.containsWithin Coordinate.tolerance b

/-- The least box around two boxes. -/
def union (a b : Extent K) : Extent K where
  xll := Coordinate.least a.xll b.xll
  yll := Coordinate.least a.yll b.yll
  xur := Coordinate.greatest a.xur b.xur
  yur := Coordinate.greatest a.yur b.yur

/-- The common part of two boxes; none when they are apart. -/
def intersection? (a b : Extent K) : Option (Extent K) :=
  let xll := Coordinate.greatest a.xll b.xll
  let yll := Coordinate.greatest a.yll b.yll
  let xur := Coordinate.least a.xur b.xur
  let yur := Coordinate.least a.yur b.yur
  if xur < xll || yur < yll then none else some ⟨xll, yll, xur, yur⟩

/-- The four coordinates with six significant digits. -/
def toText (extent : Extent K) : String :=
  let corners := [extent.xll, extent.yll, extent.xur, extent.yur]
  "(" ++ String.intercalate "," (corners.map Coordinate.general) ++ ")"

end Extent

end MapAlgebra
