import MapAlgebra.Number.Arithmetic
import MapAlgebra.Operator

/-!
# Constants

A constant is one number for every cell of whatever it is combined with. It has a NoData value of
its own, usually none that a number equals.
-/

namespace MapAlgebra

structure Constant (V : Type) where
  value : V
  nodata : V
  name : Text
  /-- Where the constant is kept for further use, as for grids. -/
  slot : Option Nat := none

namespace Constant

variable {V : Type} [Number V]

/-- A constant that carries its value as its name unless another name is given. -/
def of (value : V) (nodata : V := Number.notANumber) (name : Text := []) : Constant V where
  value
  nodata
  name := if name.isEmpty then (Number.general value).toList else name

/-- The NoData value of maps that have no other. -/
def defaultNodata : V := Number.ofInt (-9999)

def nodataName : Text := "NoData".toList

/-- The constant without a value that the keyword NoData stands for. -/
def ofKeyword : Constant V :=
  of defaultNodata defaultNodata nodataName

def isNodata (constant : Constant V) : Bool :=
  Number.same constant.value constant.nodata

/-- Whether a constant without data decides a combination: the first one does. -/
def nodataOf? (a b : Constant V) : Option (Constant V) :=
  if a.isNodata then some (of a.nodata a.nodata)
  else if b.isNodata then some (of b.nodata b.nodata)
  else none

/-- The combination of two constants. A result that is not finite becomes the NoData value of the
first, if that is a number. -/
def apply (op : Operator) (a b : Constant V) (reverse : Bool := false) : Constant V :=
  match nodataOf? a b with
  | some constant => constant
  | none =>
      let (left, right) := if reverse then (b.value, a.value) else (a.value, b.value)
      let result := op.calculate true left right
      if !Number.isFinite result && !Number.isNaN a.nodata then of a.nodata a.nodata
      else of result a.nodata

def negate (constant : Constant V) : Constant V :=
  of (-constant.value) constant.nodata

/-- The same value and NoData value under a name, its own unless another is given. -/
def copy (constant : Constant V) (name : Text := []) : Constant V :=
  of constant.value constant.nodata (if name.isEmpty then constant.name else name)

def roundTo (places : Int) (constant : Constant V) : Except Fault (Constant V) := do
  return of (← Number.roundExact places constant.value) constant.nodata

/-- The constant with another NoData value, which it takes over when it has no data. -/
def withNodata (nodata : V) (constant : Constant V) : Constant V :=
  if Number.same nodata constant.nodata then constant
  else of (if constant.isNodata then nodata else constant.value) nodata

end Constant

end MapAlgebra
