import MapAlgebra.Extent
import MapAlgebra.Raster
import MapAlgebra.Files.Path

/-!
# Grids

A grid is a raster with a place in model coordinates, the top row at the upper side of its extent,
and a NoData value that marks cells without a value. The cells of a grid may still be on disk; its
header then tells the shape.
-/

namespace MapAlgebra

/-- Where the cells of a grid are. -/
inductive Residence (S : Type)
  | resident (cells : Raster S)
  | onDisk (path : Path)

/-- A raster in model coordinates. `K` are coordinates, `V` numbers of calculations and `S` the
cells. -/
structure Grid (K V S : Type) where
  extent : Extent K
  cellWidth : K
  cellHeight : K
  nodata : V
  /-- Stands in for NoData cells in calculations. -/
  substitute : Option V := none
  name : Text
  /-- The file behind the grid. -/
  path : Option Path := none
  top : Option V := none
  bottom : Option V := none
  rows : Int
  cols : Int
  cells : Residence S
  /-- Where the grid is kept for further use. A result that nobody keeps has no slot, and grids with
  one slot are one grid. -/
  slot : Option Nat := none

/-- A number read from a cell, and whether the cell holds no data. -/
structure Sample (V : Type) where
  value : V
  isNodata : Bool

namespace Grid

variable {K V S : Type} [Coordinate K] [Number V] [Cell S V]

def defaultName : Text := ['g', 'r', 'i', 'd']

/-- A grid with the given cells. The cell width has to be positive. -/
def of (extent : Extent K) (cellWidth cellHeight : K) (nodata : V) (cells : Raster S)
    (name : Text := defaultName) (top : Option V := none) (bottom : Option V := none) :
    Except Fault (Grid K V S) :=
  if cellWidth ≤ Coordinate.zero then
    .error (.grid (.cellSize (Coordinate.shortest cellWidth)))
  else
    .ok {
      extent, cellWidth, cellHeight, nodata
      name := if name.isEmpty then defaultName else name
      top, bottom
      rows := cells.rows
      cols := cells.cols
      cells := .resident cells }

/-- The grid over an extent, in cells without data. -/
def empty (extent : Extent K) (cellWidth cellHeight : K) (nodata : V) (name : Text := defaultName)
    (top : Option V := none) (bottom : Option V := none) : Except Fault (Grid K V S) := do
  if cellWidth ≤ Coordinate.zero then
    throw (.grid (.cellSize (Coordinate.shortest cellWidth)))
  let rows ← Coordinate.round (← Coordinate.ratio extent.height cellHeight)
  let cols ← Coordinate.round (← Coordinate.ratio extent.width cellWidth)
  if rows < 0 || cols < 0 then
    throw (.grid .shapesDiffer)
  of extent cellWidth cellHeight nodata (.fill rows.toNat cols.toNat (Cell.narrow nodata)) name
    top bottom

/-- A grid of square cells with its lower left corner at a point. -/
def ofRaster (cells : Raster S) (xll yll cellSize : K) (nodata : V) (name : Text := defaultName) :
    Except Fault (Grid K V S) := do
  let xur := xll + Coordinate.ofInt cells.cols * cellSize
  let yur := yll + Coordinate.ofInt cells.rows * cellSize
  of (← Extent.of xll yll xur yur) cellSize cellSize nodata cells name

/-- The cells, when they are resident. -/
def values (grid : Grid K V S) : Except Fault (Raster S) :=
  match grid.cells with
  | .resident cells => .ok cells
  | .onDisk _ => .error (.grid (.onDisk grid.slot))

def isLoaded (grid : Grid K V S) : Bool :=
  match grid.cells with
  | .resident _ => true
  | .onDisk _ => false

/-- Whether a cell holds a NoData value. -/
def holdsNodata (nodata : V) (cell : S) : Bool :=
  if Number.isNaN nodata then Number.isNaN (Cell.widen cell)
  else Cell.widen cell == Cell.widen (Cell.narrow nodata : S)

/-- The cells without data. -/
def nodataMask (grid : Grid K V S) : Except Fault (Raster Bool) := do
  return (← grid.values).map (holdsNodata grid.nodata)

/-- What calculations read from a cell. -/
def sample (grid : Grid K V S) (cell : S) : Sample V :=
  let missing := holdsNodata grid.nodata cell
  match grid.substitute with
  | some value => ⟨if missing then value else Cell.widen cell, false⟩
  | none => ⟨Cell.widen cell, missing⟩

/-- What calculations read from all cells. -/
def samples (grid : Grid K V S) : Except Fault (Raster (Sample V)) := do
  return (← grid.values).map grid.sample

/-- A new grid with other cells in place of those of this one. -/
def derive (grid : Grid K V S) (cells : Raster S) : Grid K V S :=
  { grid with
    substitute := none
    path := none
    rows := cells.rows
    cols := cells.cols
    cells := .resident cells
    slot := none }

def sameGeometry (grid other : Grid K V S) : Bool :=
  grid.rows == other.rows && grid.cols == other.cols &&
    Coordinate.near grid.cellWidth other.cellWidth &&
    Coordinate.near grid.cellHeight other.cellHeight && grid.extent.agrees other.extent

/-- The middle of the `i`-th cell of a row or column, measured from its start in cells. -/
def middle (i : Nat) : K := Coordinate.ofInt i + Coordinate.half

/-- What calculations read at the middles of the cells of `target`: NoData outside this grid. -/
def sampleOnto (grid target : Grid K V S) : Except Fault (Raster (Sample V)) := do
  let cells ← grid.samples
  if target.rows < 0 || target.cols < 0 then
    throw (.grid .shapesDiffer)
  let col : Vector Int target.cols.toNat := .ofFn fun j =>
    let x := target.extent.xll + middle j * target.cellWidth
    Coordinate.cellIndex ((x - grid.extent.xll) / grid.cellWidth)
  let row : Vector Int target.rows.toNat := .ofFn fun i =>
    let y := target.extent.yur - middle i * target.cellHeight
    Coordinate.cellIndex ((grid.extent.yur - y) / grid.cellHeight)
  let found := Raster.build? target.rows.toNat target.cols.toNat fun i j =>
    let r := row[i.val]
    let c := col[j.val]
    if 0 ≤ r && r < grid.rows && 0 ≤ c && c < grid.cols then cells.get? r.toNat c.toNat
    else some ⟨grid.nodata, true⟩
  match found with
  | some samples => return samples
  | none => throw (.grid .outsideCells)

/-- This grid in the geometry of another one. -/
def sampleTo (grid target : Grid K V S) : Except Fault (Grid K V S) := do
  let samples ← grid.sampleOnto target
  let cells := samples.map fun sample =>
    (Cell.narrow (if sample.isNodata then grid.nodata else sample.value) : S)
  of target.extent target.cellWidth target.cellHeight grid.nodata cells grid.name

end Grid

end MapAlgebra
