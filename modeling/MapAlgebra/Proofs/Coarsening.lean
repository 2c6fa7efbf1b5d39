import MapAlgebra.Proofs.Aggregates
import MapAlgebra.Proofs.Comparisons
import MapAlgebra.Proofs.GridFile
import MapAlgebra.Proofs.Groups

/-!
# Cells of coarser grids

A coarser grid has in each cell the aggregate of the cells that fall in it, row by row, and NoData
if none with data does. The cell that a cell falls in is found by whole steps from the upper left
corner, and what lies beyond the last row or column belongs to it. Steps downwards are below zero
where the height of the cells is negative, and then count from the far end of the grid.
-/

namespace MapAlgebra

variable {K V S : Type}

namespace Raster

theorem toList_ofFn {α : Type} (rows cols : ℕ) (cell : Fin rows → Fin cols → α) :
    (ofFn rows cols cell).toList =
      (List.finRange rows).flatMap fun i => (List.finRange cols).map (cell i) := by
  unfold toList toRows ofFn
  simp only [Vector.toList_ofFn, List.ofFn_eq_map, List.map_map, List.flatMap_def,
    Function.comp_def]

end Raster

namespace Grid

section Falling

variable [Coordinate K] {grid : Grid K V S} {cellSize : K} {rows cols : ℕ}

/-- The number of the new cell that a cell falls in, counted row by row. -/
def newCell (grid : Grid K V S) (cellSize : K) (rows cols i j : ℕ) : ℤ :=
  target grid.cellHeight cellSize rows i * cols + target grid.cellWidth cellSize cols j

theorem target_lt {size : K} {count : ℕ} (i : ℕ) : target size cellSize count i < count := by
  unfold target
  omega

/-- No cell falls behind the last new one. -/
theorem newCell_lt (i j : ℕ) : grid.newCell cellSize rows cols i j < (rows * cols : ℕ) := by
  have hrow : target grid.cellHeight cellSize rows i < rows := target_lt i
  have hcol : target grid.cellWidth cellSize cols j < cols := target_lt j
  unfold newCell
  push_cast
  calc _ < target grid.cellHeight cellSize rows i * cols + cols := by omega
    _ = (target grid.cellHeight cellSize rows i + 1) * cols := by ring
    _ ≤ rows * cols := Int.mul_le_mul_of_nonneg_right hrow (Int.natCast_nonneg cols)

/-- A cell that falls below no new one falls in one of them. -/
theorem exists_newCell {i j : ℕ} (hin : 0 ≤ grid.newCell cellSize rows cols i j) :
    ∃ k : Fin (rows * cols), grid.newCell cellSize rows cols i j = k := by
  have hlt : grid.newCell cellSize rows cols i j < (rows * cols : ℕ) := newCell_lt i j
  exact ⟨⟨(grid.newCell cellSize rows cols i j).toNat, by omega⟩, (Int.toNat_of_nonneg hin).symm⟩

variable [Number V] [Cell S V] {cells : Raster S}

/-- A cell of the grid with the new cell that it falls in. -/
def memberAt (grid : Grid K V S) (cells : Raster S) (cellSize : K) (rows cols : ℕ)
    (i : Fin cells.rows) (j : Fin cells.cols) : Member V :=
  ⟨grid.newCell cellSize rows cols i j,
    ⟨Cell.widen (cells.get i j), holdsNodata grid.nodata (cells.get i j)⟩⟩

/-- The members are all cells, row by row. -/
theorem members_eq (hfits : grid.Fits cells) :
    grid.members cells cellSize rows cols = some ((List.finRange cells.rows).flatMap fun i =>
      (List.finRange cells.cols).map (grid.memberAt cells cellSize rows cols i)) := by
  have hrows : grid.rows.toNat = cells.rows := by have := hfits.rows; omega
  have hcols : grid.cols.toNat = cells.cols := by have := hfits.cols; omega
  have hflat (i : Fin cells.rows) (j : Fin cells.cols) :
      cells.toList.toArray[i.val * cells.cols + j.val]? = some (cells.get i j) := by
    rw [List.getElem?_toArray, cells.getElem?_toList]
  have hbuild : Raster.build? cells.rows cells.cols
      (fun i j => some (grid.memberAt cells cellSize rows cols i j)) =
        some (.ofFn _ _ (grid.memberAt cells cellSize rows cols)) :=
    dif_pos fun _ _ => rfl
  unfold members
  dsimp only
  rw [hrows, hcols]
  simp only [hflat, Option.bind_eq_bind, Option.bind_some, Vector.get_eq_getElem,
    Vector.getElem_ofFn]
  exact (congrArg (Option.bind · fun raster => some raster.toList) hbuild).trans
    (congrArg some (Raster.toList_ofFn _ _ _))

/-- The values that an aggregate takes for a new cell, row by row: those of the cells that fall in
it, without the ones that hold no data unless the aggregate counts them. -/
def grouped (grid : Grid K V S) (cells : Raster S) (cellSize : K) (rows cols : ℕ)
    (aggregate : Aggregate) (k : ℤ) : List V :=
  (List.finRange cells.rows).flatMap fun i : Fin cells.rows =>
    (List.finRange cells.cols).filterMap fun j : Fin cells.cols =>
    if grid.newCell cellSize rows cols i j = k ∧
        (aggregate.countsNodata ∨ ¬ holdsNodata grid.nodata (cells.get i j)) then
      some (Cell.widen (cells.get i j))
    else none

/-- The number of a new cell: the aggregate of its group, and NoData for an empty group. -/
def aggregated (grid : Grid K V S) (cells : Raster S) (cellSize : K) (rows cols : ℕ)
    (aggregate : Aggregate) (k : ℤ) : V :=
  aggregateOr aggregate grid.nodata (grid.grouped cells cellSize rows cols aggregate k)

theorem aggregated_of_eq_nil {aggregate : Aggregate} {k : ℤ}
    (h : grid.grouped cells cellSize rows cols aggregate k = []) :
    grid.aggregated cells cellSize rows cols aggregate k = grid.nodata := by
  unfold aggregated
  rw [h]
  rfl

theorem aggregated_of_ne_nil {aggregate : Aggregate} {k : ℤ}
    (h : grid.grouped cells cellSize rows cols aggregate k ≠ []) :
    grid.aggregated cells cellSize rows cols aggregate k =
      aggregate.apply (grid.grouped cells cellSize rows cols aggregate k) := by
  unfold aggregated
  cases hgroup : grid.grouped cells cellSize rows cols aggregate k with
  | nil => exact absurd hgroup h
  | cons value rest => rfl

/-- Choosing the members with a number, and those that count, takes the values of the group. -/
theorem taken_group (aggregate : Aggregate) (k : ℤ) :
    taken aggregate (group ((List.finRange cells.rows).flatMap fun i =>
      (List.finRange cells.cols).map (grid.memberAt cells cellSize rows cols i)) k) =
        grid.grouped cells cellSize rows cols aggregate k := by
  unfold taken group grouped
  rw [List.filter_flatMap, List.filter_flatMap, List.map_flatMap]
  congr 1
  funext i
  rw [← List.filterMap_eq_map, ← List.filterMap_eq_filter, ← List.filterMap_eq_filter,
    ← List.filterMap_eq_map, List.filterMap_filterMap, List.filterMap_filterMap,
    List.filterMap_filterMap]
  congr 1
  funext j
  by_cases hfalls : grid.newCell cellSize rows cols i j = k <;>
    by_cases hcounts : aggregate.countsNodata ∨ ¬ holdsNodata grid.nodata (cells.get i j) <;>
    simp_all [memberAt, Option.guard]

theorem gathered_eq (aggregate : Aggregate) (k : ℤ) :
    gathered aggregate grid.nodata ((List.finRange cells.rows).flatMap fun i =>
      (List.finRange cells.cols).map (grid.memberAt cells cellSize rows cols i)) k =
        grid.aggregated cells cellSize rows cols aggregate k := by
  unfold gathered aggregated
  rw [taken_group]

/-- The numbers of rows and columns of a coarser grid and its extent, which has the upper left
corner of the grid. -/
structure Coarser (grid : Grid K V S) (cellSize : K) (rows cols : ℕ) (extent : Extent K) :
    Prop where
  size_pos : ¬ cellSize ≤ Coordinate.zero
  colCount : coarseCount grid.extent.width cellSize = .ok cols
  rowCount : coarseCount grid.extent.height cellSize = .ok rows
  box : Extent.of grid.extent.xll (grid.extent.yur - Coordinate.ofInt rows * cellSize)
    (grid.extent.xll + Coordinate.ofInt cols * cellSize) grid.extent.yur = .ok extent

/-- Nothing is coarsened without such numbers and extent. -/
theorem coarser_of_coarsen (grid : Grid K V S) (cellSize : K) (aggregate : Aggregate) :
    Gives (fun result => ∃ rows cols, grid.Coarser cellSize rows cols result.extent)
      (grid.coarsen cellSize aggregate) := by
  unfold coarsen
  refine .bind (fun _ h => h) fun cols hcols => .bind (fun _ h => h) fun rows hrows =>
    .bind (fun _ h => h) fun extent hbox => .last fun cells => ?_
  dsimp only
  split
  next => exact .throw _
  next values =>
    unfold of
    split
    next => exact fun _ h => nomatch h
    next hsize => exact .pure ⟨rows, cols, hsize, hcols, hrows, hbox⟩

/-- What the runs write to the new cells is kept in the cells of the coarser grid. -/
theorem Coarser.exists_of_written {extent : Extent K}
    (h : grid.Coarser cellSize rows cols extent) (hcells : grid.cells = .resident cells)
    {aggregate : Aggregate} {members : List (Member V)} {values : Vector V (rows * cols)}
    (hmembers : grid.members cells cellSize rows cols = some members)
    (hvalues : (runs members).foldlM (write? aggregate)
      (Vector.replicate (rows * cols) grid.nodata) = some values) :
    ∃ result out, grid.coarsen cellSize aggregate = .ok result ∧ result.extent = extent ∧
      result.cellWidth = cellSize ∧ result.cellHeight = cellSize ∧ result.nodata = grid.nodata ∧
      result.cells = .resident out ∧ result.Fits out ∧ out.rows = rows ∧ out.cols = cols ∧
      ∀ (r c : ℕ) (hr : r < rows) (hc : c < cols),
        out.get? r c = some (Cell.narrow (values.get ⟨r * cols + c, Raster.index_lt hr hc⟩)) := by
  let out := (Raster.ofVector rows cols values).map fun value => (Cell.narrow value : S)
  obtain ⟨result, hresult, hextent, hwidth, hheight, hnodata, hout, hfits⟩ : ∃ result,
      grid.coarsen cellSize aggregate = .ok result ∧ result.extent = extent ∧
        result.cellWidth = cellSize ∧ result.cellHeight = cellSize ∧ result.nodata = grid.nodata ∧
        result.cells = .resident out ∧ result.Fits out := by
    unfold coarsen of
    simp only [h.colCount, h.rowCount, h.box, values_eq_ok_iff.mpr hcells, hmembers, hvalues,
      bind, Except.bind, Option.bind, if_neg h.size_pos]
    exact ⟨_, rfl, rfl, rfl, rfl, rfl, rfl, ⟨rfl, rfl⟩⟩
  refine ⟨result, out, hresult, hextent, hwidth, hheight, hnodata, hout, hfits, rfl, rfl, ?_⟩
  intro r c hr hc
  rw [Raster.get?_map]
  exact congrArg (Option.map Cell.narrow) (Raster.get?_ofFn
    (fun i j => values.get ⟨i.val * cols + j.val, Raster.index_lt i.isLt j.isLt⟩) ⟨r, hr⟩ ⟨c, hc⟩)

/-- A coarser grid has the aggregates of its groups in its cells, if no cell of the grid falls below
the first new one. -/
theorem Coarser.exists_coarsen {extent : Extent K} (h : grid.Coarser cellSize rows cols extent)
    (hcells : grid.cells = .resident cells) (hfits : grid.Fits cells)
    (hin : ∀ (i : Fin cells.rows) (j : Fin cells.cols), 0 ≤ grid.newCell cellSize rows cols i j)
    (aggregate : Aggregate) :
    ∃ result out, grid.coarsen cellSize aggregate = .ok result ∧ result.extent = extent ∧
      result.cellWidth = cellSize ∧ result.cellHeight = cellSize ∧ result.nodata = grid.nodata ∧
      result.cells = .resident out ∧ result.Fits out ∧ out.rows = rows ∧ out.cols = cols ∧
      ∀ r c : ℕ, r < rows → c < cols → out.get? r c = some (Cell.narrow
        (grid.aggregated cells cellSize rows cols aggregate (r * cols + c : ℕ))) := by
  have hmembers : ∀ member ∈ (List.finRange cells.rows).flatMap fun i =>
      (List.finRange cells.cols).map (grid.memberAt cells cellSize rows cols i),
      0 ≤ member.target ∧ member.target < (rows * cols : ℕ) := by
    intro member hmember
    obtain ⟨i, -, hmember⟩ := List.mem_flatMap.mp hmember
    obtain ⟨j, -, rfl⟩ := List.mem_map.mp hmember
    exact ⟨hin i j, newCell_lt _ _⟩
  obtain ⟨values, hvalues, hget⟩ := exists_written aggregate grid.nodata hmembers
  obtain ⟨result, out, hresult, hextent, hwidth, hheight, hnodata, hout, hfitsOut, hrows, hcols,
    hgetOut⟩ := h.exists_of_written hcells (members_eq hfits) hvalues
  refine ⟨result, out, hresult, hextent, hwidth, hheight, hnodata, hout, hfitsOut, hrows, hcols, ?_⟩
  intro r c hr hc
  rw [hgetOut r c hr hc, hget, gathered_eq]

end Falling

end Grid

namespace Exact

variable [Number V] [Cell S V] (exact : Exact V S)

/-- What a cell adds to a total: its number, and nothing without data. -/
def amount (nodata : V) (cell : S) : ℚ :=
  if Grid.holdsNodata nodata cell then 0 else exact.value (Cell.widen cell)

/-- The total of the cells with data. -/
def totalOf (nodata : V) (cells : Raster S) : ℚ :=
  ∑ i, ∑ j, exact.amount nodata (cells.get i j)

include exact in
theorem holdsNodata_narrow (nodata : V) :
    Grid.holdsNodata nodata (Cell.narrow nodata : S) = true := by
  unfold Grid.holdsNodata
  rw [exact.isNaN_eq_false, if_neg Bool.false_ne_true]
  exact exact.beq_iff.mpr rfl

include exact in
/-- A cell without data holds the NoData value. -/
theorem narrow_eq_of_holdsNodata {nodata : V} {cell : S} (h : Grid.holdsNodata nodata cell) :
    Cell.narrow nodata = cell := by
  unfold Grid.holdsNodata at h
  rw [exact.isNaN_eq_false, if_neg Bool.false_ne_true] at h
  rw [← exact.narrow_widen cell, exact.beq_iff.mp h, exact.widen_narrow]

variable [Coordinate K] {grid : Grid K V S} {cellSize : K} {rows cols : ℕ} {cells : Raster S}

/-- A new cell adds the sum of its group to the total, unless that sum counts as NoData. -/
theorem amount_aggregated {k : ℤ}
    (h : grid.grouped cells cellSize rows cols .sum k ≠ [] → Grid.holdsNodata grid.nodata
      (Cell.narrow (grid.aggregated cells cellSize rows cols .sum k) : S) = false) :
    exact.amount grid.nodata (Cell.narrow (grid.aggregated cells cellSize rows cols .sum k) : S) =
      ((grid.grouped cells cellSize rows cols .sum k).map exact.value).sum := by
  unfold amount
  by_cases hgroup : grid.grouped cells cellSize rows cols .sum k = []
  · rw [Grid.aggregated_of_eq_nil hgroup, exact.holdsNodata_narrow, if_pos rfl, hgroup]
    rfl
  · rw [h hgroup, if_neg Bool.false_ne_true, exact.widen_narrow, Grid.aggregated_of_ne_nil hgroup]
    exact exact.value_total _

/-- The sum of a group, cell by cell. -/
theorem sum_grouped (k : ℤ) :
    ((grid.grouped cells cellSize rows cols .sum k).map exact.value).sum =
      ∑ i : Fin cells.rows, ∑ j : Fin cells.cols,
        if grid.newCell cellSize rows cols i j = k then exact.amount grid.nodata (cells.get i j)
        else 0 := by
  have hchoose (choice : Fin cells.cols → Option V) (columns : List (Fin cells.cols)) :
      ((columns.filterMap choice).map exact.value).sum =
        (columns.map fun j => (choice j).elim 0 exact.value).sum := by
    induction columns with
    | nil => rfl
    | cons j columns ih =>
        rw [List.filterMap_cons, List.map_cons, List.sum_cons, ← ih]
        cases choice j with
        | none => exact (zero_add _).symm
        | some value => rfl
  unfold Grid.grouped
  rw [List.map_flatMap, List.flatMap_def, List.sum_flatten, List.map_map, Fin.sum_univ_def]
  congr 2
  funext i
  rw [Fin.sum_univ_def]
  refine (hchoose _ _).trans (congrArg List.sum (congrArg (List.map · _) (funext fun j => ?_)))
  unfold amount
  by_cases hfalls : grid.newCell cellSize rows cols i j = k <;>
    cases Grid.holdsNodata grid.nodata (cells.get i j) <;>
    simp [hfalls, Aggregate.countsNodata]

/-- Cells that are counted by rows and columns, and by their numbers. -/
theorem sum_rows_cols (f : ℕ → ℚ) :
    ∑ r : Fin rows, ∑ c : Fin cols, f (r * cols + c) = ∑ k : Fin (rows * cols), f k := by
  rw [← finProdFinEquiv.sum_comp, Fintype.sum_prod_type]
  refine Finset.sum_congr rfl fun r _ => Finset.sum_congr rfl fun c _ => congrArg f ?_
  show r.val * cols + c.val = c.val + cols * r.val
  rw [mul_comm, add_comm]

/-- Sums that do not count as NoData keep the total of the cells with data. -/
theorem totalOf_coarser {out : Raster S}
    (hin : ∀ (i : Fin cells.rows) (j : Fin cells.cols),
      0 ≤ grid.newCell cellSize out.rows out.cols i j)
    (hget : ∀ (r : Fin out.rows) (c : Fin out.cols), out.get r c = Cell.narrow
      (grid.aggregated cells cellSize out.rows out.cols .sum (r * out.cols + c : ℕ)))
    (hdata : ∀ k : ℕ, k < out.rows * out.cols →
      grid.grouped cells cellSize out.rows out.cols .sum k ≠ [] →
      Grid.holdsNodata grid.nodata
        (Cell.narrow (grid.aggregated cells cellSize out.rows out.cols .sum k) : S) = false) :
    exact.totalOf grid.nodata out = exact.totalOf grid.nodata cells := by
  calc exact.totalOf grid.nodata out
    _ = ∑ r : Fin out.rows, ∑ c : Fin out.cols, ((grid.grouped cells cellSize out.rows out.cols .sum
          (r * out.cols + c : ℕ)).map exact.value).sum :=
        Finset.sum_congr rfl fun r _ => Finset.sum_congr rfl fun c _ => by
          rw [hget, exact.amount_aggregated (hdata _ (Raster.index_lt r.isLt c.isLt))]
    _ = ∑ k : Fin (out.rows * out.cols), ∑ i : Fin cells.rows, ∑ j : Fin cells.cols,
          if grid.newCell cellSize out.rows out.cols i j = k then
            exact.amount grid.nodata (cells.get i j) else 0 := by
        rw [sum_rows_cols fun k => ((grid.grouped cells cellSize out.rows out.cols .sum k).map
          exact.value).sum]
        exact Finset.sum_congr rfl fun k _ => exact.sum_grouped k
    _ = ∑ i : Fin cells.rows, ∑ j : Fin cells.cols, ∑ k : Fin (out.rows * out.cols),
          if grid.newCell cellSize out.rows out.cols i j = k then
            exact.amount grid.nodata (cells.get i j) else 0 := by
        rw [Finset.sum_comm]
        exact Finset.sum_congr rfl fun i _ => Finset.sum_comm
    _ = exact.totalOf grid.nodata cells :=
        Finset.sum_congr rfl fun i _ => Finset.sum_congr rfl fun j _ => by
          obtain ⟨k, hk⟩ := Grid.exists_newCell (hin i j)
          simp [hk, Fin.val_inj]

end Exact

namespace Grid

section Geometry

variable {grid : Grid ℚ V S} {cellSize : ℚ} {rows cols : ℕ}

/-- The larger cells that cover a distance, up to the tolerance. -/
def coarseCells (distance cellSize : ℚ) : ℕ :=
  (max 1 ⌈distance / cellSize - 1 / 10000⌉).toNat

theorem coarseCells_pos (distance cellSize : ℚ) : 0 < coarseCells distance cellSize := by
  unfold coarseCells
  omega

theorem coarseCount_eq (distance : ℚ) (hsize : cellSize ≠ 0) :
    coarseCount distance cellSize = .ok (coarseCells distance cellSize) := by
  unfold coarseCount
  rw [cellsOver_eq_ceil distance hsize]
  rfl

/-- With exact coordinates a grid can be coarsened to cells of any size. -/
theorem coarser_of_pos (grid : Grid ℚ V S) (hsize : 0 < cellSize) :
    grid.Coarser cellSize (coarseCells grid.extent.height cellSize)
      (coarseCells grid.extent.width cellSize)
      ⟨grid.extent.xll, grid.extent.yur - coarseCells grid.extent.height cellSize * cellSize,
        grid.extent.xll + coarseCells grid.extent.width cellSize * cellSize, grid.extent.yur⟩ where
  size_pos := not_le.mpr hsize
  colCount := coarseCount_eq _ hsize.ne'
  rowCount := coarseCount_eq _ hsize.ne'
  box := by
    have hspan (count : ℕ) : 0 ≤ (count : ℚ) * cellSize := by positivity
    have hsides : ¬ (grid.extent.xll + coarseCells grid.extent.width cellSize * cellSize <
          grid.extent.xll ∨
        grid.extent.yur < grid.extent.yur - coarseCells grid.extent.height cellSize * cellSize) :=
      not_or.mpr ⟨not_lt.mpr (le_add_of_nonneg_right (hspan _)),
        not_lt.mpr (sub_le_self _ (hspan _))⟩
    have hcast (count : ℕ) : Coordinate.ofInt (K := ℚ) count = count := Int.cast_natCast count
    unfold Extent.of
    rw [hcast, hcast, if_neg (by simpa only [Bool.or_eq_true, decide_eq_true_eq] using hsides)]

theorem target_eq (size : ℚ) (count i : ℕ) :
    target size cellSize count i = min ⌊(i + 1 / 2) * size / cellSize⌋ (count - 1) := by
  rw [← middle_eq]
  rfl

/-- With exact coordinates no cell falls below the first new one, unless its sides are negative. -/
theorem Coarser.newCell_nonneg {extent : Extent ℚ} (h : grid.Coarser cellSize rows cols extent)
    (hwidth : 0 ≤ grid.cellWidth) (hheight : 0 ≤ grid.cellHeight) (i j : ℕ) :
    0 ≤ grid.newCell cellSize rows cols i j := by
  have hsize : 0 < cellSize := not_le.mp h.size_pos
  have hcount {distance : ℚ} {count : ℕ} (h : coarseCount distance cellSize = .ok count) :
      0 < count := by
    rw [coarseCount_eq _ hsize.ne'] at h
    exact Except.ok.inj h ▸ coarseCells_pos _ _
  have htarget {size : ℚ} (h : 0 ≤ size) {count : ℕ} (hcount : 0 < count) (i : ℕ) :
      0 ≤ target size cellSize count i := by
    have hsteps : 0 ≤ ⌊((i : ℚ) + 1 / 2) * size / cellSize⌋ := Int.floor_nonneg.mpr (by positivity)
    rw [target_eq]
    omega
  exact add_nonneg (mul_nonneg (htarget hheight (hcount h.rowCount) i) (Int.natCast_nonneg cols))
    (htarget hwidth (hcount h.colCount) j)

end Geometry

section Coarsening

variable [Coordinate K] [Number V] [Cell S V] {grid : Grid K V S} {cellSize : K} {rows cols : ℕ}
variable {cells : Raster S}

/-- Every cell falls in one cell of the coarser grid, if none falls below the first one. The coarser
grid has in each cell the aggregate of the cells that fall in it, and NoData if the aggregate takes
none of them. With exact numbers, the sums have the total of the cells with data, if none of the
sums counts as NoData. -/
theorem Coarser.exists_grouped {extent : Extent K} (h : grid.Coarser cellSize rows cols extent)
    (hcells : grid.cells = .resident cells) (hfits : grid.Fits cells)
    (hin : ∀ (i : Fin cells.rows) (j : Fin cells.cols), 0 ≤ grid.newCell cellSize rows cols i j)
    (aggregate : Aggregate) :
    ∃ result out, grid.coarsen cellSize aggregate = .ok result ∧ result.extent = extent ∧
      result.cellWidth = cellSize ∧ result.cellHeight = cellSize ∧ result.nodata = grid.nodata ∧
      result.cells = .resident out ∧ result.Fits out ∧ out.rows = rows ∧ out.cols = cols ∧
      (∀ (i : Fin cells.rows) (j : Fin cells.cols),
        ∃! k : Fin (rows * cols), grid.newCell cellSize rows cols i j = k) ∧
      (∀ r c : ℕ, r < rows → c < cols → out.get? r c = some (Cell.narrow
        (grid.aggregated cells cellSize rows cols aggregate (r * cols + c : ℕ)))) ∧
      ∀ exact : Exact V S, aggregate = .sum →
        (∀ k : ℕ, k < rows * cols → grid.grouped cells cellSize rows cols .sum k ≠ [] →
          holdsNodata grid.nodata
            (Cell.narrow (grid.aggregated cells cellSize rows cols .sum k) : S) = false) →
        exact.totalOf grid.nodata out = exact.totalOf grid.nodata cells := by
  obtain ⟨result, out, hresult, hextent, hwidth, hheight, hnodata, hout, hfitsOut, rfl, rfl,
    hget⟩ := h.exists_coarsen hcells hfits hin aggregate
  refine ⟨result, out, hresult, hextent, hwidth, hheight, hnodata, hout, hfitsOut, rfl, rfl, ?_,
    hget, ?_⟩
  · intro i j
    obtain ⟨k, hk⟩ := exists_newCell (hin i j)
    exact ⟨k, hk, fun other hother => Fin.ext (Int.ofNat.inj (hother.symm.trans hk))⟩
  · rintro exact rfl hdata
    refine exact.totalOf_coarser hin (fun r c => ?_) hdata
    have hcell := hget r c r.isLt c.isLt
    rw [out.get?_eq_get r.isLt c.isLt] at hcell
    exact Option.some.inj hcell

/-- A grid of two exact numbers beside each other. -/
def couple (a b : ℚ) : Grid ℚ ℚ ℚ where
  extent := ⟨0, 0, 2, 1⟩
  cellWidth := 1
  cellHeight := 1
  nodata := -9999
  name := defaultName
  rows := 1
  cols := 2
  cells := .resident (.ofFn 1 2 fun _ j => if j.val = 0 then a else b)

/-- One and two come to three in a cell that is twice as wide, and have the same total there. -/
theorem exists_grouped_couple : ∃ extent result out,
    (couple 1 2).Coarser 2 1 1 extent ∧
      (couple 1 2).Fits (.ofFn 1 2 fun _ j => if j.val = 0 then (1 : ℚ) else 2) ∧
      (∀ (i : Fin 1) (j : Fin 2), 0 ≤ (couple 1 2).newCell 2 1 1 i j) ∧
      (couple 1 2).coarsen 2 .sum = .ok result ∧ result.cells = .resident out ∧
      out.get? 0 0 = some 3 ∧ holdsNodata (S := ℚ) (-9999 : ℚ) 3 = false ∧
      Fraction.exact.totalOf (-9999) out = 3 := by
  let cells : Raster ℚ := .ofFn 1 2 fun _ j => if j.val = 0 then 1 else 2
  have hone : coarseCells (couple 1 2).extent.height 2 = 1 ∧
      coarseCells (couple 1 2).extent.width 2 = 1 := by
    decide +kernel
  have hframe := (couple 1 2).coarser_of_pos (by norm_num : (0 : ℚ) < 2)
  rw [hone.1, hone.2] at hframe
  have hfits : (couple 1 2).Fits cells := ⟨rfl, rfl⟩
  have hin : ∀ (i : Fin 1) (j : Fin 2), 0 ≤ (couple 1 2).newCell 2 1 1 i j := by decide +kernel
  have hthree : (couple 1 2).aggregated cells 2 1 1 .sum 0 = 3 := by
    have hgroup : (couple 1 2).grouped cells 2 1 1 .sum 0 = [1, 2] := by decide +kernel
    unfold aggregated
    rw [hgroup]
    exact (Fraction.exact.value_total [1, 2]).trans (by norm_num [Fraction.exact])
  have hdata : holdsNodata (S := ℚ) (-9999 : ℚ) 3 = false := by decide +kernel
  obtain ⟨result, out, hresult, -, -, -, -, hout, -, -, -, -, hget, htotal⟩ :=
    hframe.exists_grouped rfl hfits hin .sum
  refine ⟨_, result, out, hframe, hfits, hin, hresult, hout, ?_, hdata, ?_⟩
  · exact (hget 0 0 Nat.one_pos Nat.one_pos).trans (congrArg some hthree)
  · refine (htotal Fraction.exact rfl fun k hk _ => ?_).trans ?_
    · obtain rfl : k = 0 := by omega
      exact hthree ▸ hdata
    · decide +kernel

/-- A grid of one cell that has a negative height. -/
def upended (cell : Float32) : Grid ℚ Float Float32 :=
  { single (-9999) cell with cellHeight := -1 }

/-- A cell of negative height falls below the first cell of the coarser grid, which so has no cells
to aggregate; but counted from the far end its number is that of the first cell, which gets it. -/
theorem coarsened_cell_differs : ∃ extent result out,
    (upended 1).Coarser 1 1 1 extent ∧ (upended 1).newCell 1 1 1 0 0 = -1 ∧
      (Cell.narrow ((upended 1).aggregated (.fill 1 1 1) 1 1 1 .mean 0) : Float32) = -9999 ∧
      (upended 1).coarsen 1 .mean = .ok result ∧ result.cells = .resident out ∧
      out.get? 0 0 = some 1 := by
  have hone : coarseCells (upended 1).extent.height 1 = 1 ∧
      coarseCells (upended 1).extent.width 1 = 1 := by
    decide +kernel
  have hframe := (upended 1).coarser_of_pos one_pos
  rw [hone.1, hone.2] at hframe
  have hfits : (upended 1).Fits (.fill 1 1 (1 : Float32)) := ⟨rfl, rfl⟩
  have hbelow : (upended 1).newCell 1 1 1 0 0 = -1 := by decide +kernel
  have hmember (i j : Fin 1) : (upended 1).memberAt (.fill 1 1 1) 1 1 1 i j = ⟨-1, ⟨1, false⟩⟩ := by
    have hsample : (Cell.widen (1 : Float32) : Float) = 1 ∧
        holdsNodata (-9999 : Float) (1 : Float32) = false := by
      decide +kernel
    obtain rfl := Subsingleton.elim i 0
    obtain rfl := Subsingleton.elim j 0
    exact congrArg₂ Member.mk hbelow (congrArg₂ Sample.mk hsample.1 hsample.2)
  have hmembers : (upended 1).members (.fill 1 1 1) 1 1 1 = some [⟨-1, ⟨1, false⟩⟩] :=
    (members_eq hfits).trans (congrArg (fun member => some [member]) (hmember 0 0))
  have hmean : Aggregate.meanOf [(1 : Float)] = 1 := by
    unfold Aggregate.meanOf Aggregate.total
    decide +kernel
  have hwritten : (runs [(⟨-1, ⟨1, false⟩⟩ : Member Float)]).foldlM (write? .mean)
      (Vector.replicate (1 * 1) (-9999)) = some (Vector.replicate (1 * 1) 1) := by
    unfold runs
    rw [List.mergeSort_singleton]
    show some ((Vector.replicate (1 * 1) (-9999 : Float)).set 0 (Aggregate.meanOf [1])) = _
    rw [hmean]
    rfl
  obtain ⟨result, out, hresult, -, -, -, -, hout, -, -, -, hget⟩ :=
    hframe.exists_of_written rfl hmembers hwritten
  have hcell : (Cell.narrow (1 : Float) : Float32) = 1 := by decide +kernel
  exact ⟨_, result, out, hframe, hbelow, by decide +kernel, hresult, hout,
    (hget 0 0 Nat.one_pos Nat.one_pos).trans (congrArg some hcell)⟩

end Coarsening

end Grid

end MapAlgebra
