import MapAlgebra.Constant
import MapAlgebra.Grid.Basic

/-!
# Combining grids

A binary operator works cell by cell. The other operand is a constant, a grid of the same geometry
or a grid that is read at the middles of the cells.
-/

namespace MapAlgebra

/-- A constant or a grid. -/
inductive Operand (K V S : Type)
  | constant (constant : Constant V)
  | grid (grid : Grid K V S)

namespace Grid

variable {K V S : Type} [Coordinate K] [Number V] [Cell S V]

/-- The result of an operator in one cell. Arithmetic without data on a side, or without a finite
result, gives no data. -/
def combineSamples (nodata : V) (op : Operator) (uniform : Bool) (a b : Sample V) : V :=
  let result := op.calculate uniform a.value b.value
  if op.isArithmetic && (a.isNodata || b.isNodata || !Number.isFinite result) then nodata
  else result

/-- What calculations read from the other operand at the cells of this grid. A constant is one
sample for all cells. -/
def operandSamples (grid : Grid K V S) :
    Operand K V S → Except Fault (Sample V ⊕ Raster (Sample V))
  | .constant constant => return .inl ⟨constant.value, constant.isNodata⟩
  | .grid other =>
      if grid.sameGeometry other then return .inr (← other.samples)
      else return .inr (← other.sampleOnto grid)

/-- Samples of this grid and of another operand combined in the shape of this grid. -/
def combine (grid : Grid K V S) (op : Operator) (reverse : Bool) (left : Raster (Sample V))
    (right : Sample V ⊕ Raster (Sample V)) : Except Fault (Raster V) :=
  let joined : Option (Raster V) :=
    match right with
    | .inl sample =>
        some <| left.map fun own =>
          if reverse then combineSamples grid.nodata op false sample own
          else combineSamples grid.nodata op true own sample
    | .inr samples =>
        left.zipWith? (fun own other =>
          if reverse then combineSamples grid.nodata op false other own
          else combineSamples grid.nodata op false own other) samples
  let result := if grid.rows < 0 || grid.cols < 0 then none
    else joined.bind fun cells => cells.stretch? grid.rows.toNat grid.cols.toNat
  match result with
  | some cells => .ok cells
  | none => .error (.grid .shapesDiffer)

/-- This grid combined with another operand, in the geometry and with the NoData value of this
grid. When reversed, the other operand is the left one. -/
def apply (grid : Grid K V S) (op : Operator) (other : Operand K V S) (reverse : Bool := false) :
    Except Fault (Grid K V S) := do
  let left ← grid.samples
  let right ← grid.operandSamples other
  let cells ← grid.combine op reverse left right
  return grid.derive (cells.map Cell.narrow)

def negate (grid : Grid K V S) : Except Fault (Grid K V S) := do
  let cells := (← grid.samples).map fun sample =>
    (Cell.narrow (if sample.isNodata then grid.nodata else -sample.value) : S)
  return grid.derive cells

end Grid

namespace Operand

variable {K V S : Type} [Coordinate K] [Number V] [Cell S V]

/-- Two operands combined. When reversed, the second is the left one. -/
def apply (op : Operator) (a b : Operand K V S) (reverse : Bool := false) :
    Except Fault (Operand K V S) :=
  match a, b with
  | .constant c, .constant d => return .constant (c.apply op d reverse)
  | .constant _, .grid g => return .grid (← g.apply op a !reverse)
  | .grid g, other => return .grid (← g.apply op other reverse)

/-- Two operands combined by an operator that is given by its sign. A sign without an operator is
refused once the samples have been read. -/
def applySign (sign : Text) (a b : Operand K V S) (reverse : Bool := false) :
    Except Fault (Operand K V S) :=
  match Operator.ofSign? sign with
  | some op => a.apply op b reverse
  | none =>
      let refused := Fault.grid (.unknownOperator sign)
      match a, b with
      | .constant c, .constant d =>
          match c.nodataOf? d with
          | some source => return .constant source
          | none => throw refused
      | .constant _, .grid g | .grid g, .constant _ => do
          let _ ← g.samples
          throw refused
      | .grid g, .grid other => do
          let _ ← g.samples
          let _ ← g.operandSamples (.grid other)
          throw refused

def negate : Operand K V S → Except Fault (Operand K V S)
  | .constant c => return .constant c.negate
  | .grid g => return .grid (← g.negate)

def isConstant : Operand K V S → Bool
  | .constant _ => true
  | .grid _ => false

def name : Operand K V S → Text
  | .constant c => c.name
  | .grid g => g.name

def nodata : Operand K V S → V
  | .constant c => c.nodata
  | .grid g => g.nodata

def slot : Operand K V S → Option Nat
  | .constant c => c.slot
  | .grid g => g.slot

/-- The operand kept at a slot. -/
def atSlot (slot : Nat) : Operand K V S → Operand K V S
  | .constant c => .constant { c with slot }
  | .grid g => .grid { g with slot }

end Operand

end MapAlgebra
