import MapAlgebra.Grid.Combine
import MapAlgebra.Grid.Window

/-!
# Changing the values of grids

Rounding, replacing the cells that a mask selects, and changing the NoData value. The geometry
stays.
-/

namespace MapAlgebra

namespace Grid

variable {K V S : Type} [Coordinate K] [Number V] [Cell S V]

/-- The grid rounded to a number of decimals. Cells without data stay. -/
def roundTo (grid : Grid K V S) (places : Int) : Except Fault (Grid K V S) := do
  let cells ← grid.values
  if !Number.decimalsFit (V := V) places then
    throw (.number .tooLarge)
  return grid.derive <| cells.map fun cell =>
    if holdsNodata grid.nodata cell then cell
    else Cell.narrow (Number.roundScaled places (Cell.widen cell))

/-- The cells of another grid in the geometry of this one. -/
def aligned (grid other : Grid K V S) : Except Fault (Raster S) := do
  if grid.sameGeometry other then other.values else (← other.sampleTo grid).values

/-- Whether a cell of a mask with the given NoData value selects. -/
def selects (nodata : V) (cell : S) : Bool :=
  Number.isTrue (Cell.widen cell) && !holdsNodata nodata cell

/-- A copy whose cells come from the replacement where the mask is neither zero nor NoData. NoData
of the replacement becomes NoData of this grid. -/
def replace (grid mask : Grid K V S) (replacement : V ⊕ Grid K V S) :
    Except Fault (Grid K V S) := do
  let selector := (← grid.aligned mask).map (selects mask.nodata)
  let chosen : Option (Raster (Option S)) ←
    match replacement with
    | .inl number =>
        pure <| some <| selector.map fun selected =>
          if selected then some (Cell.narrow number) else none
    | .inr other =>
        let source ← grid.aligned other
        pure <| selector.zipWith? (fun selected cell =>
          if !selected then none
          else if holdsNodata other.nodata cell then some (Cell.narrow grid.nodata)
          else some cell) source
  let own ← grid.values
  match chosen.bind fun cells => cells.zipWith? (fun taken cell => taken.getD cell) own with
  | some cells => return grid.derive cells
  | none => throw (.grid .shapesDiffer)

/-- The grid with a number in one cell. Negative rows and columns count from the far end. -/
def setCell (grid : Grid K V S) (row col : Int) (number : V) : Except Fault (Grid K V S) := do
  let cells ← grid.values
  let row := if row < 0 then row + cells.rows else row
  let col := if col < 0 then col + cells.cols else col
  let changed :=
    if row < 0 || col < 0 then none else cells.set? row.toNat col.toNat (Cell.narrow number)
  match changed with
  | some cells => return { grid with cells := .resident cells }
  | none => throw (.grid .outsideCells)

/-- The grid with another NoData value in all cells without data; the grid itself when that is its
NoData value. -/
def withNodata (grid : Grid K V S) (nodata : V) : Except Fault (Grid K V S) := do
  if Number.same nodata grid.nodata then
    return grid
  let cells ← grid.values
  let cells := cells.map fun cell =>
    if holdsNodata grid.nodata cell then Cell.narrow nodata else cell
  return { grid.derive cells with nodata }

end Grid

namespace Constant

variable {K V S : Type} [Coordinate K] [Number V] [Cell S V]

/-- A grid that holds the constant in every cell of the geometry of another one. -/
def allocate (constant : Constant V) (like : Grid K V S) : Except Fault (Grid K V S) :=
  if like.rows < 0 || like.cols < 0 then .error (.grid .shapesDiffer)
  else
    Grid.of like.extent like.cellWidth like.cellHeight like.nodata
      (.fill like.rows.toNat like.cols.toNat (Cell.narrow constant.value)) constant.name

end Constant

namespace Operand

variable {K V S : Type} [Coordinate K] [Number V] [Cell S V]

def copy (name : Text := []) : Operand K V S → Except Fault (Operand K V S)
  | .constant c => return .constant (c.copy name)
  | .grid g => return .grid (← g.copy name)

def roundTo (places : Int) : Operand K V S → Except Fault (Operand K V S)
  | .constant c => return .constant (← c.roundTo places)
  | .grid g => return .grid (← g.roundTo places)

/-- Rounds to a number of decimals that is given as a number. -/
def roundBy (places : V) : Operand K V S → Except Fault (Operand K V S)
  | .constant c => do return .constant (← c.roundTo (← Number.truncate places))
  | .grid g => do
      let _ ← g.values
      return .grid (← g.roundTo (← Number.truncate places))

def withNodata (nodata : V) : Operand K V S → Except Fault (Operand K V S)
  | .constant c => return .constant (c.withNodata nodata)
  | .grid g => return .grid (← g.withNodata nodata)

end Operand

end MapAlgebra
