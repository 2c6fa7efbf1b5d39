import MapAlgebra.Grid.Combine

/-!
# Descriptions

One line that tells what a constant or a grid is.
-/

namespace MapAlgebra

variable {K V S : Type} [Coordinate K] [Number V] [Cell S V]

def Constant.describe (constant : Constant V) : String :=
  s!"ConstantGrid({Number.general constant.value})"

/-- Name, extent, cell width and shape of the grid, and whether its cells are resident. -/
def Grid.describe (grid : Grid K V S) : String :=
  let name := str (Text.quoted grid.name)
  let size := Coordinate.general grid.cellWidth
  let loaded := if grid.isLoaded then "True" else "False"
  s!"Grid(name={name}, extent={grid.extent.toText}, cellsize={size}, " ++
    s!"shape=({grid.rows}, {grid.cols}), loaded={loaded})"

def Operand.describe : Operand K V S → String
  | .constant c => c.describe
  | .grid g => g.describe

end MapAlgebra
