import MapAlgebra.Grid.Aggregate
import MapAlgebra.Grid.Revalue

/-!
# Changing the cell size

Refining reads every new cell at its middle. Coarsening sorts the cells by the new cell that their
middle falls in, aggregates each run of one new cell and keeps the upper left corner.
-/

namespace MapAlgebra

/-- How the value of a cell goes to the cells it is refined into: whole, or divided by their number. -/
inductive Refinement
  | block
  | divide
  deriving DecidableEq, Repr

namespace Refinement

def all : List Refinement := [block, divide]

/-- The refinement with a number. -/
def ofIndex? (index : Int) : Option Refinement :=
  if 0 ≤ index then all[index.toNat]? else none

def label : Refinement → String
  | block => "Block"
  | divide => "Divide"

end Refinement

namespace Grid

variable {K V S : Type} [Coordinate K] [Number V] [Cell S V] [Conversion K V]

/-- The grid in smaller cells over the same extent. -/
def refine (grid : Grid K V S) (cellSize : K) (method : Refinement) :
    Except Fault (Grid K V S) := do
  let cols ← Coordinate.round (← Coordinate.ratio grid.extent.width cellSize)
  let rows ← Coordinate.round (← Coordinate.ratio grid.extent.height cellSize)
  let cells := Raster.fill (max 1 rows).toNat (max 1 cols).toNat (Cell.narrow Number.zero)
  let template ← of grid.extent cellSize cellSize grid.nodata cells grid.name
  let refined ← grid.sampleTo template
  let refined ←
    match method with
    | .block => pure refined
    | .divide => do
        let area := grid.cellWidth * grid.cellHeight
        let parts : V := Conversion.toNumber (← Coordinate.ratio area (cellSize * cellSize))
        let parts : V := Cell.widen (Cell.narrow parts : S)
        let cells := (← refined.values).map fun cell =>
          if holdsNodata refined.nodata cell then cell
          else Cell.narrow (Cell.widen cell / parts)
        pure (refined.derive cells)
  return { refined with top := grid.top, bottom := grid.bottom }

/-- A cell of the grid to be coarsened, and the number of the new cell it falls in. -/
structure Member (V : Type) where
  target : Int
  sample : Sample V

/-- The new row or column, of a number of them, that the middle of an old one falls in. What lies
beyond the last one belongs to it. -/
def target (size cellSize : K) (count i : Nat) : Int :=
  min (Coordinate.steps (middle i * size) cellSize) (count - 1)

/-- The cells of the grid, row by row, with the number of the new cell that each falls in. -/
def members (grid : Grid K V S) (cells : Raster S) (cellSize : K) (rows cols : Nat) :
    Option (List (Member V)) := do
  let col : Vector Int grid.cols.toNat := .ofFn fun j => target grid.cellWidth cellSize cols j
  let row : Vector Int grid.rows.toNat := .ofFn fun i => target grid.cellHeight cellSize rows i
  let flat := cells.toList.toArray
  let raster ← Raster.build? grid.rows.toNat grid.cols.toNat fun i j => do
    let cell ← flat[i.val * grid.cols.toNat + j.val]?
    some ⟨row.get i * cols + col.get j, ⟨Cell.widen cell, holdsNodata grid.nodata cell⟩⟩
  return raster.toList

/-- The members of each new cell: sorted by its number, so that those of one new cell stay in the
order in which they come, and cut where the number changes. -/
def runs (members : List (Member V)) : List (List (Member V)) :=
  (members.mergeSort fun a b => a.target ≤ b.target).splitBy fun a b => a.target == b.target

/-- The values of a run that the aggregate takes. -/
def taken (aggregate : Aggregate) (run : List (Member V)) : List V :=
  (run.filter fun member => aggregate.countsNodata || !member.sample.isNodata).map
    fun member => member.sample.value

/-- Writes the aggregate of a run to the new cell that its first member falls in. Numbers below zero
count from the far end, and a run without values leaves all as it is. -/
def write? {size : Nat} (aggregate : Aggregate) (values : Vector V size) (run : List (Member V)) :
    Option (Vector V size) :=
  match run, taken aggregate run with
  | first :: _, value :: rest =>
      let place := if first.target < 0 then first.target + size else first.target
      if h : 0 ≤ place ∧ place < size then
        some (values.set place.toNat (aggregate.apply (value :: rest)) (by omega))
      else none
  | _, _ => some values

/-- The larger cells needed to cover a distance, at least one. -/
def coarseCount (distance cellSize : K) : Except Fault Nat := do
  return (max 1 (← cellsOver distance cellSize)).toNat

/-- The grid in larger cells, each the aggregate of its group. A new cell without a group holds no
data. -/
def coarsen (grid : Grid K V S) (cellSize : K) (aggregate : Aggregate) :
    Except Fault (Grid K V S) := do
  let cols ← coarseCount grid.extent.width cellSize
  let rows ← coarseCount grid.extent.height cellSize
  let extent ← Extent.of grid.extent.xll (grid.extent.yur - Coordinate.ofInt rows * cellSize)
    (grid.extent.xll + Coordinate.ofInt cols * cellSize) grid.extent.yur
  let cells ← grid.values
  let written := do
    let members ← grid.members cells cellSize rows cols
    (runs members).foldlM (write? aggregate) (Vector.replicate (rows * cols) grid.nodata)
  match written with
  | none => throw (.grid .outsideCells)
  | some values =>
      let cells := (Raster.ofVector rows cols values).map fun value => (Cell.narrow value : S)
      of extent cellSize cellSize grid.nodata cells grid.name grid.top grid.bottom

end Grid

end MapAlgebra
