import MapAlgebra.Log
import MapAlgebra.Grid.Window
import MapAlgebra.Grid.Combine

/-!
# Bringing operands to one extent

Before grids are combined they are brought to a common extent: a fixed one, or one that depends on
the operation. Constants have no extent and stay as they are.
-/

namespace MapAlgebra

/-- Which extent the operands of an operation take when none is fixed. -/
inductive ExtentPolicy
  | first
  | union
  deriving DecidableEq, Repr

variable {K V S : Type} [Coordinate K] [Number V] [Cell S V]

namespace Operand

def extent? : Operand K V S → Option (Extent K)
  | .constant _ => none
  | .grid g => some g.extent

end Operand

/-- The common extent of operands; none when all are constants and no extent is fixed. -/
def targetExtent (fixed : Option (Extent K)) (policy : ExtentPolicy)
    (operands : List (Operand K V S)) : Option (Extent K) :=
  match fixed, operands.filterMap Operand.extent? with
  | some extent, _ => some extent
  | none, [] => none
  | none, first :: rest =>
      match policy with
      | .first => some first
      | .union => some (rest.foldl Extent.union first)

namespace Grid

/-- The grid cut to an extent. When no cell is left, a single cell with the value one stands in. -/
def clipOrDummy (grid : Grid K V S) (extent : Extent K) : Traced (Grid K V S) := do
  let clipped ← if extent.isEmpty then pure none else liftExcept (grid.clip extent)
  match clipped with
  | some clipped => return clipped
  | none =>
      Traced.record .warning <|
        s!"Clipping {str grid.name} to extent {extent.toText} leaves no cells, " ++
          "a dummy grid with value 1 is used"
      let size := grid.cellWidth
      let box ← liftExcept <|
        Extent.of extent.xll extent.yll (extent.xll + size) (extent.yll + size)
      liftExcept <| of box size size grid.nodata (.fill 1 1 (Cell.narrow Number.one)) grid.name

/-- The grid enlarged and cut to an extent. A grid that has the extent already is kept. -/
def reconcile (grid : Grid K V S) (target : Extent K) (label : String) :
    Traced (Grid K V S) := do
  if grid.extent.agrees target then
    return grid
  let grown ←
    if grid.extent.contains target then pure grid
    else do
      Traced.record .debug s!"Enlarging {label} to extent: {target.toText}"
      liftExcept (grid.enlarge target)
  if target.contains grown.extent then
    return grown
  Traced.record .debug s!"Clipping {label} to extent: {target.toText}"
  grown.clipOrDummy target

end Grid

namespace Operand

/-- The operand brought to an extent, if there is one to be brought to. -/
def reconcile (operand : Operand K V S) (target : Option (Extent K)) (label : String) :
    Traced (Operand K V S) := do
  match operand, target with
  | .grid g, some target => return .grid (← g.reconcile target label)
  | operand, _ => return operand

end Operand

end MapAlgebra
