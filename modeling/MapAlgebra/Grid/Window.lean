import MapAlgebra.Grid.Basic

/-!
# Windows of grids

A grid is cut to the cells that overlap an extent, grown by whole cells until it covers one, or
trimmed to the cells that hold data. All keep the cell size and the place of every cell that stays.
-/

namespace MapAlgebra.Grid

variable {K V S : Type} [Coordinate K] [Number V] [Cell S V]

/-- The first cell that a distance reaches, from the start of a row or column. -/
def firstCell (distance size : K) : Except Fault Int := do
  return max 0 (← Coordinate.floor ((← Coordinate.ratio distance size) + Coordinate.tolerance))

/-- The cells needed to cover a distance. -/
def cellsOver (distance size : K) : Except Fault Int := do
  Coordinate.ceil ((← Coordinate.ratio distance size) - Coordinate.tolerance)

/-- The cells that overlap an extent; none when no cell does. -/
def clip (grid : Grid K V S) (extent : Extent K) : Except Fault (Option (Grid K V S)) := do
  let width := grid.cellWidth
  let height := grid.cellHeight
  let left ← firstCell (extent.xll - grid.extent.xll) width
  let right := min grid.cols (← cellsOver (extent.xur - grid.extent.xll) width)
  let top ← firstCell (grid.extent.yur - extent.yur) height
  let bottom := min grid.rows (← cellsOver (grid.extent.yur - extent.yll) height)
  if right ≤ left || bottom ≤ top then
    return none
  let clipped ← Extent.of
    (grid.extent.xll + Coordinate.ofInt left * width)
    (grid.extent.yur - Coordinate.ofInt bottom * height)
    (grid.extent.xll + Coordinate.ofInt right * width)
    (grid.extent.yur - Coordinate.ofInt top * height)
  let cells := (← grid.values).window top.toNat bottom.toNat left.toNat right.toNat
  return some { grid.derive cells with extent := clipped }

/-- The grid grown outward in whole cells to cover an extent; the new cells hold no data. -/
def enlarge (grid : Grid K V S) (extent : Extent K) : Except Fault (Grid K V S) := do
  let width := grid.cellWidth
  let height := grid.cellHeight
  let left := max 0 (← cellsOver (grid.extent.xll - extent.xll) width)
  let right := max 0 (← cellsOver (extent.xur - grid.extent.xur) width)
  let top := max 0 (← cellsOver (extent.yur - grid.extent.yur) height)
  let bottom := max 0 (← cellsOver (grid.extent.yll - extent.yll) height)
  let cells := (← grid.values).pad top.toNat bottom.toNat left.toNat right.toNat
    (Cell.narrow grid.nodata)
  let enlarged ← Extent.of
    (grid.extent.xll - Coordinate.ofInt left * width)
    (grid.extent.yll - Coordinate.ofInt bottom * height)
    (grid.extent.xur + Coordinate.ofInt right * width)
    (grid.extent.yur + Coordinate.ofInt top * height)
  return { grid.derive cells with extent := enlarged }

/-- A new grid with the same cells, NoData value and substitute. -/
def copy (grid : Grid K V S) (name : Text := []) : Except Fault (Grid K V S) := do
  let cells ← grid.values
  return { grid.derive cells with
    substitute := grid.substitute
    name := if name.isEmpty then grid.name else name }

/-- The least window that holds all cells with data. A grid without such cells stays whole. -/
def boundingBox (grid : Grid K V S) : Except Fault (Option (Grid K V S)) := do
  let mask ← grid.nodataMask
  let rows := mask.rowsWith not
  let cols := mask.colsWith not
  match rows.head?, rows.getLast?, cols.head?, cols.getLast? with
  | some top, some bottom, some left, some right =>
      let width := grid.cellWidth
      let height := grid.cellHeight
      let box ← Extent.of
        (grid.extent.xll + Coordinate.ofInt left * width)
        (grid.extent.yur - Coordinate.ofInt (bottom + 1) * height)
        (grid.extent.xll + Coordinate.ofInt (right + 1) * width)
        (grid.extent.yur - Coordinate.ofInt top * height)
      grid.clip box
  | _, _, _, _ => return some (← grid.copy)

end MapAlgebra.Grid
