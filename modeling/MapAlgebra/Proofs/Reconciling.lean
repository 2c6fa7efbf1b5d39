import MapAlgebra.Grid.Alignment

/-!
# The steps that bring a grid to an extent

A grid that has the extent is kept. Any other one is enlarged unless it contains the extent, and
what comes of that is cut unless it lies in the extent. A single cell stands in for a grid that the
cut leaves no cell of.
-/

namespace MapAlgebra.Grid

variable {K V S : Type} [Coordinate K] [Number V] [Cell S V]

/-- The single cell with the value one at the lower left corner of an extent. -/
def soleCell (grid : Grid K V S) (extent : Extent K) : Traced (Grid K V S) := do
  Traced.record .warning <|
    s!"Clipping {str grid.name} to extent {extent.toText} leaves no cells, " ++
      "a dummy grid with value 1 is used"
  let size := grid.cellWidth
  let box ← liftExcept <|
    Extent.of extent.xll extent.yll (extent.xll + size) (extent.yll + size)
  liftExcept <| of box size size grid.nodata (.fill 1 1 (Cell.narrow Number.one)) grid.name

/-- The grid cut to an extent, unless it lies in it. -/
def cutTo (grid : Grid K V S) (target : Extent K) (label : String) : Traced (Grid K V S) := do
  if target.contains grid.extent then
    return grid
  Traced.record .debug s!"Clipping {label} to extent: {target.toText}"
  grid.clipOrDummy target

theorem clipOrDummy_eq (grid : Grid K V S) (extent : Extent K) :
    grid.clipOrDummy extent =
      if extent.isEmpty then grid.soleCell extent
      else liftExcept (grid.clip extent) >>= fun
        | some clipped => pure clipped
        | none => grid.soleCell extent := by
  unfold clipOrDummy
  split
  next =>
    rw [pure_bind]
    rfl
  next => rfl

theorem reconcile_eq (grid : Grid K V S) (target : Extent K) (label : String) :
    grid.reconcile target label =
      if grid.extent.agrees target then pure grid
      else if grid.extent.contains target then grid.cutTo target label
      else (do
        Traced.record .debug s!"Enlarging {label} to extent: {target.toText}"
        let grown ← liftExcept (grid.enlarge target)
        grown.cutTo target label) := by
  unfold reconcile
  split
  next => rfl
  next =>
    split
    next =>
      rw [pure_bind]
      rfl
    next => rfl

end MapAlgebra.Grid
