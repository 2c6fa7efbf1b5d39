import MapAlgebra.Proofs.Consistency
import MapAlgebra.Proofs.Places

/-!
# Cells under points

A cell holds its left and its upper side, so that a point in the extent of a grid lies in exactly
one cell. A grid that is enlarged or cut shows at every point of its extent the cell that the grid
has there, and NoData where the grid has none. Sampling reads the cells under the middles of others.
-/

namespace MapAlgebra

variable {α V S : Type}

namespace Raster

/-- The cell at a row and a column, which may lie outside on any side. -/
def at? (raster : Raster α) (i j : ℤ) : Option α :=
  if 0 ≤ i ∧ 0 ≤ j then raster.get? i.toNat j.toNat else none

variable {raster : Raster α} {i j : ℤ}

theorem at?_natCast (raster : Raster α) (i j : ℕ) : raster.at? i j = raster.get? i j :=
  if_pos ⟨Int.natCast_nonneg i, Int.natCast_nonneg j⟩

theorem isSome_at?_iff :
    (raster.at? i j).isSome ↔ (0 ≤ i ∧ i < raster.rows) ∧ 0 ≤ j ∧ j < raster.cols := by
  unfold at? get?
  split
  · split <;> simp <;> omega
  · simp
    omega

/-- The cells of a window, counted from its first row and column. -/
theorem at?_window {top bottom left right : ℕ} (hbottom : bottom ≤ raster.rows)
    (hright : right ≤ raster.cols) (hi : 0 ≤ i) (hj : 0 ≤ j) (hi' : top + i < bottom)
    (hj' : left + j < right) :
    (raster.window top bottom left right).at? i j = raster.at? (top + i) (left + j) := by
  obtain ⟨row, rfl⟩ := Int.eq_ofNat_of_zero_le hi
  obtain ⟨col, rfl⟩ := Int.eq_ofNat_of_zero_le hj
  rw [← Int.natCast_add, ← Int.natCast_add, at?_natCast, at?_natCast]
  exact get?_window hbottom hright (by omega) (by omega)

/-- Around a raster that was padded stands the filling. -/
theorem at?_pad (top bottom left right : ℕ) (a : α)
    (h : ((raster.pad top bottom left right a).at? i j).isSome) :
    (raster.pad top bottom left right a).at? i j =
      some ((raster.at? (i - top) (j - left)).getD a) := by
  obtain ⟨⟨hi, hi'⟩, hj, hj'⟩ := isSome_at?_iff.mp h
  obtain ⟨row, rfl⟩ := Int.eq_ofNat_of_zero_le hi
  obtain ⟨col, rfl⟩ := Int.eq_ofNat_of_zero_le hj
  simp only [pad, rows_ofFn, cols_ofFn] at hi' hj'
  rw [at?_natCast]
  refine (get?_ofFn _ ⟨row, by omega⟩ ⟨col, by omega⟩).trans (congrArg some ?_)
  dsimp only
  split
  next hwithin =>
    have hrow : (row : ℤ) - top = ((row - top : ℕ) : ℤ) := by omega
    have hcol : (col : ℤ) - left = ((col - left : ℕ) : ℤ) := by omega
    rw [hrow, hcol, at?_natCast, raster.get?_eq_get (by omega) (by omega)]
    rfl
  next hwithout =>
    have hnone : raster.at? (row - top) (col - left) = none := by
      rw [← Option.not_isSome_iff_eq_none, isSome_at?_iff]
      omega
    rw [hnone]
    rfl

end Raster

/-- A point lies in an extent. The upper and the left side belong to it, as they do to cells. -/
structure Extent.Holds (extent : Extent ℚ) (x y : ℚ) : Prop where
  left : extent.xll ≤ x
  right : x < extent.xur
  lower : extent.yll < y
  upper : y ≤ extent.yur

theorem floor_sub_mul_div {x size : ℚ} (n : ℤ) (hsize : size ≠ 0) :
    ⌊(x - n * size) / size⌋ = ⌊x / size⌋ - n := by
  rw [sub_div, mul_div_cancel_right₀ _ hsize, Int.floor_sub_intCast]

/-- A distance lies within a number of cells if that many cells hold the cell it falls in. -/
theorem floor_div_within_iff {d size : ℚ} {count : ℤ} (hsize : 0 < size) :
    (0 ≤ ⌊d / size⌋ ∧ ⌊d / size⌋ < count) ↔ 0 ≤ d ∧ d < count * size := by
  rw [Int.floor_nonneg, Int.floor_lt, div_lt_iff₀ hsize, le_div_iff₀ hsize, zero_mul]

namespace Grid

/-- The column that a coordinate falls in. -/
def colAt (grid : Grid ℚ V S) (x : ℚ) : ℤ :=
  ⌊(x - grid.extent.xll) / grid.cellWidth⌋

/-- The row that a coordinate falls in. -/
def rowAt (grid : Grid ℚ V S) (y : ℚ) : ℤ :=
  ⌊(grid.extent.yur - y) / grid.cellHeight⌋

/-- The cell under a point. -/
def cellAt? (grid : Grid ℚ V S) (x y : ℚ) : Option S :=
  match grid.cells with
  | .resident cells => cells.at? (grid.rowAt y) (grid.colAt x)
  | .onDisk _ => none

variable {grid view : Grid ℚ V S} {cells : Raster S} {x y : ℚ}

theorem cellAt?_of_resident (h : grid.cells = .resident cells) (x y : ℚ) :
    grid.cellAt? x y = cells.at? (grid.rowAt y) (grid.colAt x) := by
  unfold cellAt?
  rw [h]

/-- The extent of a consistent grid is made of its cells. -/
theorem Consistent.holds_iff (h : grid.Consistent) (hwidth : 0 < grid.cellWidth)
    (hheight : 0 < grid.cellHeight) : grid.extent.Holds x y ↔
      (0 ≤ grid.rowAt y ∧ grid.rowAt y < grid.rows) ∧
        0 ≤ grid.colAt x ∧ grid.colAt x < grid.cols := by
  unfold rowAt colAt
  rw [floor_div_within_iff hwidth, floor_div_within_iff hheight]
  have hright := h.right
  have hupper := h.upper
  constructor
  · rintro ⟨hleft, hright', hlower, hupper'⟩
    refine ⟨⟨?_, ?_⟩, ?_, ?_⟩ <;> linarith
  · rintro ⟨⟨hupper', hlower⟩, hleft, hright'⟩
    refine ⟨?_, ?_, ?_, ?_⟩ <;> linarith

theorem Consistent.isSome_cellAt?_iff (h : grid.Consistent) (hwidth : 0 < grid.cellWidth)
    (hheight : 0 < grid.cellHeight) : (grid.cellAt? x y).isSome ↔ grid.extent.Holds x y := by
  obtain ⟨cells, hcells, hrows, hcols⟩ := h.isShaped
  rw [cellAt?_of_resident hcells, Raster.isSome_at?_iff, hrows, hcols,
    h.holds_iff hwidth hheight]

/-- At every point of its extent a grid shows the cell that another one has there, and NoData where
that one has none. -/
structure Shows [Number V] [Cell S V] (view grid : Grid ℚ V S) : Prop where
  cellWidth : view.cellWidth = grid.cellWidth
  cellHeight : view.cellHeight = grid.cellHeight
  nodata : view.nodata = grid.nodata
  substitute : grid.substitute = none → view.substitute = none
  cellAt? : ∀ x y, view.extent.Holds x y →
    view.cellAt? x y = some ((grid.cellAt? x y).getD (Cell.narrow grid.nodata))

section Shown

variable [Number V] [Cell S V]

theorem Consistent.shows_self (h : grid.Consistent) (hwidth : 0 < grid.cellWidth)
    (hheight : 0 < grid.cellHeight) : grid.Shows grid where
  cellWidth := rfl
  cellHeight := rfl
  nodata := rfl
  substitute := id
  cellAt? x y hholds := by
    obtain ⟨cell, hcell⟩ := Option.isSome_iff_exists.mp
      ((h.isSome_cellAt?_iff hwidth hheight).mpr hholds)
    rw [hcell]
    rfl

/-- What a view inside of another one shows is what that one shows. -/
theorem Shows.trans {third : Grid ℚ V S} (h : third.Shows view) (hview : view.Shows grid)
    (hwithin : ∀ x y, third.extent.Holds x y → view.extent.Holds x y) : third.Shows grid where
  cellWidth := h.cellWidth.trans hview.cellWidth
  cellHeight := h.cellHeight.trans hview.cellHeight
  nodata := h.nodata.trans hview.nodata
  substitute := h.substitute ∘ hview.substitute
  cellAt? x y hholds := by
    rw [h.cellAt? x y hholds, hview.cellAt? x y (hwithin x y hholds)]
    rfl

end Shown

/-- Other cells in place of those of a grid, with the first one some rows further down and some
columns further to the right. -/
theorem cellAt?_derive {held : Raster S} {extent : Extent ℚ} (down across : ℤ)
    (hwidth : grid.cellWidth ≠ 0) (hheight : grid.cellHeight ≠ 0)
    (hleft : extent.xll = grid.extent.xll + across * grid.cellWidth)
    (hupper : extent.yur = grid.extent.yur - down * grid.cellHeight) (x y : ℚ) :
    cellAt? { grid.derive held with extent } x y =
      held.at? (grid.rowAt y - down) (grid.colAt x - across) := by
  have hrow : rowAt { grid.derive held with extent } y = grid.rowAt y - down := by
    show ⌊(extent.yur - y) / grid.cellHeight⌋ = _
    rw [hupper, sub_right_comm]
    exact floor_sub_mul_div down hheight
  have hcol : colAt { grid.derive held with extent } x = grid.colAt x - across := by
    show ⌊(x - extent.xll) / grid.cellWidth⌋ = _
    rw [hleft, ← sub_sub]
    exact floor_sub_mul_div across hwidth
  rw [cellAt?_of_resident rfl, hrow, hcol]

section Windows

variable [Number V] [Cell S V] {extent : Extent ℚ} {top bottom left right : ℕ}

/-- A padded grid shows the grid with NoData around it. -/
theorem shows_pad (hcells : grid.cells = .resident cells) (hwidth : 0 < grid.cellWidth)
    (hheight : 0 < grid.cellHeight) (hleft : extent.xll = grid.extent.xll - left * grid.cellWidth)
    (hupper : extent.yur = grid.extent.yur + top * grid.cellHeight)
    (h : Consistent
      { grid.derive (cells.pad top bottom left right (Cell.narrow grid.nodata)) with extent }) :
    Shows { grid.derive (cells.pad top bottom left right (Cell.narrow grid.nodata)) with extent }
      grid := by
  refine ⟨rfl, rfl, rfl, fun _ => rfl, fun x y hholds => ?_⟩
  have hsome := (h.isSome_cellAt?_iff hwidth hheight).mpr hholds
  rw [cellAt?_derive (-top) (-left) hwidth.ne' hheight.ne'
    (by rw [hleft]; push_cast; ring) (by rw [hupper]; push_cast; ring)] at hsome ⊢
  rw [Raster.at?_pad _ _ _ _ _ hsome, cellAt?_of_resident hcells]
  simp only [sub_neg_eq_add, add_sub_cancel_right]

/-- A window of a grid shows the grid. -/
theorem shows_window (hcells : grid.cells = .resident cells) (hwidth : 0 < grid.cellWidth)
    (hheight : 0 < grid.cellHeight) (hleft : extent.xll = grid.extent.xll + left * grid.cellWidth)
    (hupper : extent.yur = grid.extent.yur - top * grid.cellHeight) (hbottom : bottom ≤ cells.rows)
    (hright : right ≤ cells.cols)
    (h : Consistent { grid.derive (cells.window top bottom left right) with extent }) :
    Shows { grid.derive (cells.window top bottom left right) with extent } grid := by
  refine ⟨rfl, rfl, rfl, fun _ => rfl, fun x y hholds => ?_⟩
  have hsome := (h.isSome_cellAt?_iff hwidth hheight).mpr hholds
  rw [cellAt?_derive top left hwidth.ne' hheight.ne' (by rw [hleft]; simp)
    (by rw [hupper]; simp)] at hsome ⊢
  obtain ⟨⟨hi, hi'⟩, hj, hj'⟩ := Raster.isSome_at?_iff.mp hsome
  simp only [Raster.window, Raster.rows_ofFn, Raster.cols_ofFn] at hi' hj'
  rw [Raster.at?_window hbottom hright hi hj (by omega) (by omega), add_sub_cancel, add_sub_cancel,
    cellAt?_of_resident hcells]
  obtain ⟨cell, hcell⟩ : ∃ cell, cells.at? (grid.rowAt y) (grid.colAt x) = some cell := by
    rw [← Option.isSome_iff_exists, Raster.isSome_at?_iff]
    omega
  rw [hcell]
  rfl

omit [Number V] in
/-- A grid grows by the cells that are needed to cover an extent on each side. -/
theorem Consistent.enlarge_eq (h : grid.Consistent) (hcells : grid.cells = .resident cells)
    (hwidth : 0 < grid.cellWidth) (hheight : 0 < grid.cellHeight) {target : Extent ℚ}
    {left right top bottom : ℤ}
    (hleft : cellsOver (grid.extent.xll - target.xll) grid.cellWidth = .ok left)
    (hright : cellsOver (target.xur - grid.extent.xur) grid.cellWidth = .ok right)
    (htop : cellsOver (target.yur - grid.extent.yur) grid.cellHeight = .ok top)
    (hbottom : cellsOver (grid.extent.yll - target.yll) grid.cellHeight = .ok bottom) :
    grid.enlarge target = .ok { grid.derive (cells.pad (max 0 top).toNat (max 0 bottom).toNat
        (max 0 left).toNat (max 0 right).toNat (Cell.narrow grid.nodata)) with
      extent :=
        ⟨grid.extent.xll - (max 0 left : ℤ) * grid.cellWidth,
          grid.extent.yll - (max 0 bottom : ℤ) * grid.cellHeight,
          grid.extent.xur + (max 0 right : ℤ) * grid.cellWidth,
          grid.extent.yur + (max 0 top : ℤ) * grid.cellHeight⟩ } := by
  have hspan (n : ℤ) {size : ℚ} (hsize : 0 < size) : 0 ≤ ((max 0 n : ℤ) : ℚ) * size :=
    mul_nonneg (by exact_mod_cast le_max_left 0 n) hsize.le
  obtain ⟨hx, hy⟩ := h.ordered hwidth.le hheight.le
  have hboxed : Extent.of (grid.extent.xll - Coordinate.ofInt (max 0 left) * grid.cellWidth)
      (grid.extent.yll - Coordinate.ofInt (max 0 bottom) * grid.cellHeight)
      (grid.extent.xur + Coordinate.ofInt (max 0 right) * grid.cellWidth)
      (grid.extent.yur + Coordinate.ofInt (max 0 top) * grid.cellHeight) = .ok _ :=
    Extent.of_eq_ok
      ((sub_le_self _ (hspan left hwidth)).trans
        (hx.trans (le_add_of_nonneg_right (hspan right hwidth))))
      ((sub_le_self _ (hspan bottom hheight)).trans
        (hy.trans (le_add_of_nonneg_right (hspan top hheight))))
  unfold enlarge
  simp only [hleft, hright, htop, hbottom, bind, Except.bind, values_eq_ok_iff.mpr hcells, hboxed]
  rfl

omit [Number V] [Cell S V] in
/-- A grid is cut to the cells that an extent covers. -/
theorem clip_eq (hcells : grid.cells = .resident cells) (hwidth : 0 < grid.cellWidth)
    (hheight : 0 < grid.cellHeight) (target : Extent ℚ) {left right top bottom : ℤ}
    (hleft : firstCell (target.xll - grid.extent.xll) grid.cellWidth = .ok left)
    (hright : cellsOver (target.xur - grid.extent.xll) grid.cellWidth = .ok right)
    (htop : firstCell (grid.extent.yur - target.yur) grid.cellHeight = .ok top)
    (hbottom : cellsOver (grid.extent.yur - target.yll) grid.cellHeight = .ok bottom) :
    grid.clip target = .ok (if min grid.cols right ≤ left ∨ min grid.rows bottom ≤ top then none
      else some { grid.derive (cells.window top.toNat (min grid.rows bottom).toNat left.toNat
          (min grid.cols right).toNat) with
        extent :=
          ⟨grid.extent.xll + left * grid.cellWidth,
            grid.extent.yur - (min grid.rows bottom : ℤ) * grid.cellHeight,
            grid.extent.xll + (min grid.cols right : ℤ) * grid.cellWidth,
            grid.extent.yur - top * grid.cellHeight⟩ }) := by
  unfold clip
  simp only [hleft, hright, htop, hbottom, bind, Except.bind, Bool.or_eq_true, decide_eq_true_eq]
  split
  next => rfl
  next hsome =>
    rw [not_or, not_le, not_le] at hsome
    have hspan {m n : ℤ} {size : ℚ} (hsize : 0 < size) (hmn : m < n) : m * size ≤ n * size :=
      mul_le_mul_of_nonneg_right (by exact_mod_cast hmn.le) hsize.le
    have hboxed : Extent.of (grid.extent.xll + Coordinate.ofInt left * grid.cellWidth)
        (grid.extent.yur - Coordinate.ofInt (min grid.rows bottom) * grid.cellHeight)
        (grid.extent.xll + Coordinate.ofInt (min grid.cols right) * grid.cellWidth)
        (grid.extent.yur - Coordinate.ofInt top * grid.cellHeight) = .ok _ :=
      Extent.of_eq_ok (add_le_add_right (hspan hwidth hsome.1) _)
        (sub_le_sub_left (hspan hheight hsome.2) _)
    simp only [hboxed, values_eq_ok_iff.mpr hcells]
    rfl

theorem Consistent.shows_enlarge (h : grid.Consistent) (hwidth : 0 < grid.cellWidth)
    (hheight : 0 < grid.cellHeight) (target : Extent ℚ) :
    Gives (fun grown => grown.Consistent → grown.Shows grid) (grid.enlarge target) := by
  obtain ⟨cells, hcells, -⟩ := h.isShaped
  unfold enlarge
  refine .last fun left => .last fun right => .last fun top => .last fun bottom => ?_
  rw [values_eq_ok_iff.mpr hcells]
  refine .bind (p := (· = cells)) (.pure rfl) fun found hfound => ?_
  refine (Extent.gives_of _ _ _ _).bind fun box hbox => .pure fun hmade => ?_
  subst hfound hbox
  refine shows_pad hcells hwidth hheight ?_ ?_ hmade
  · rw [cast_toNat_max_zero]
    rfl
  · rw [cast_toNat_max_zero]
    rfl

theorem Consistent.shows_clip (h : grid.Consistent) (hwidth : 0 < grid.cellWidth)
    (hheight : 0 < grid.cellHeight) (target : Extent ℚ) :
    Gives (fun found => ∀ cut, found = some cut → cut.Consistent → cut.Shows grid)
      (grid.clip target) := by
  obtain ⟨cells, hcells, hfits⟩ := h.isShaped
  have hrows := hfits.rows
  have hcols := hfits.cols
  unfold clip
  refine (nonneg_firstCell _ _).bind fun left hleft => .last fun reach =>
    (nonneg_firstCell _ _).bind fun top htop => .last fun depth => ?_
  dsimp only
  split
  next => exact .pure fun _ h => nomatch h
  next hsome =>
    rw [values_eq_ok_iff.mpr hcells]
    refine (Extent.gives_of _ _ _ _).bind fun box hbox =>
      .bind (p := (· = cells)) (.pure rfl) fun found hfound => .pure fun cut hcut hmade => ?_
    subst hfound hbox
    cases hcut
    have hcast {n : ℤ} (hn : 0 ≤ n) : ((n.toNat : ℕ) : ℚ) = (n : ℚ) := by
      rw [← Int.cast_natCast, Int.toNat_of_nonneg hn]
    refine shows_window hcells hwidth hheight ?_ ?_ (by omega) (by omega) hmade
    · rw [hcast hleft]
      rfl
    · rw [hcast htop]
      rfl

end Windows

section Reading

variable {K : Type} [Coordinate K] [Number V] [Cell S V]

/-- The row that the middle of a row of another grid falls in. -/
def rowOver (grid target : Grid K V S) (i : ℕ) : ℤ :=
  Coordinate.cellIndex
    ((grid.extent.yur - (target.extent.yur - middle i * target.cellHeight)) / grid.cellHeight)

/-- The column that the middle of a column of another grid falls in. -/
def colOver (grid target : Grid K V S) (j : ℕ) : ℤ :=
  Coordinate.cellIndex
    ((target.extent.xll + middle j * target.cellWidth - grid.extent.xll) / grid.cellWidth)

/-- A grid is read at the rows and columns that the middles of the cells of another one fall in:
NoData where it has none. -/
theorem exists_sampleOnto_over {grid target : Grid K V S} {cells : Raster S}
    (hcells : grid.cells = .resident cells) (hfits : grid.Fits cells) (htarget : target.IsShaped) :
    ∃ samples, grid.sampleOnto target = .ok samples ∧ target.Fits samples ∧
      ∀ i j : ℕ, i < target.rows → j < target.cols →
        samples.get? i j = some (((cells.at? (grid.rowOver target i) (grid.colOver target j)).map
          grid.sample).getD ⟨grid.nodata, true⟩) := by
  obtain ⟨hrows, hcols⟩ := hfits
  obtain ⟨own, -, hownRows, hownCols⟩ := htarget
  have hnonneg : ¬ (target.rows < 0 ∨ target.cols < 0) := by omega
  -- the test for the shape is the one that finds a cell
  have hcell (r c : ℤ) :
      (if 0 ≤ r && r < grid.rows && 0 ≤ c && c < grid.cols then
        (cells.map grid.sample).get? r.toNat c.toNat
      else some ⟨grid.nodata, true⟩) =
        some (((cells.at? r c).map grid.sample).getD ⟨grid.nodata, true⟩) := by
    have hsome : (cells.at? r c).isSome ↔ _ := Raster.isSome_at?_iff
    rw [hrows, hcols] at hsome
    split
    next hwithin =>
      simp only [Bool.and_eq_true, decide_eq_true_eq] at hwithin
      obtain ⟨cell, hcell⟩ := Option.isSome_iff_exists.mp (hsome.mpr (by omega))
      have hget : cells.get? r.toNat c.toNat = some cell := by
        rwa [Raster.at?, if_pos (by omega)] at hcell
      rw [Raster.get?_map, hget, hcell]
      rfl
    next hwithout =>
      simp only [Bool.and_eq_true, decide_eq_true_eq] at hwithout
      have hnone : cells.at? r c = none := by
        rw [← Option.not_isSome_iff_eq_none, hsome]
        omega
      rw [hnone]
      rfl
  let read (i : Fin target.rows.toNat) (j : Fin target.cols.toNat) : Option (Sample V) :=
    some (((cells.at? (grid.rowOver target i) (grid.colOver target j)).map grid.sample).getD
      ⟨grid.nodata, true⟩)
  have hread : ∀ i j, (read i j).isSome := fun _ _ => rfl
  obtain ⟨samples, hbuilt, hrows', hcols', hget⟩ := Raster.exists_build? hread
  refine ⟨samples, ?_, ⟨by omega, by omega⟩, fun i j hi hj => hget ⟨i, by omega⟩ ⟨j, by omega⟩⟩
  unfold read rowOver colOver at hbuilt
  unfold sampleOnto
  rw [samples_of_resident hcells]
  simp only [bind, Except.bind, Bool.or_eq_true, decide_eq_true_eq, if_neg hnonneg,
    Vector.getElem_ofFn, hcell]
  split
  next found hfound => exact congrArg Except.ok (Option.some.inj (hfound.symm.trans hbuilt))
  next hnone => cases hnone.symm.trans hbuilt

end Reading

section Sampling

variable [Number V] [Cell S V]

theorem middle_eq (i : ℕ) : (middle i : ℚ) = i + 1 / 2 := by
  show ((i : ℤ) : ℚ) + ((1 : ℤ) : ℚ) / ((2 : ℤ) : ℚ) = i + 1 / 2
  norm_num

/-- The middle of a column. -/
def colMiddle (grid : Grid ℚ V S) (j : ℕ) : ℚ :=
  grid.extent.xll + middle j * grid.cellWidth

/-- The middle of a row. -/
def rowMiddle (grid : Grid ℚ V S) (i : ℕ) : ℚ :=
  grid.extent.yur - middle i * grid.cellHeight

/-- What calculations read at a point: the cell there, and NoData where the grid has none. -/
def sampleAt (grid : Grid ℚ V S) (x y : ℚ) : Sample V :=
  ((grid.cellAt? x y).map grid.sample).getD ⟨grid.nodata, true⟩

/-- A grid is read at the middles of the cells of another one. -/
theorem IsShaped.exists_sampleOnto {target : Grid ℚ V S} (h : grid.IsShaped)
    (htarget : target.IsShaped) :
    ∃ samples, grid.sampleOnto target = .ok samples ∧ target.Fits samples ∧
      ∀ i j : ℕ, i < target.rows → j < target.cols →
        samples.get? i j = some (grid.sampleAt (target.colMiddle j) (target.rowMiddle i)) := by
  obtain ⟨cells, hcells, hfits⟩ := h
  obtain ⟨samples, hsamples, hshape, hget⟩ := exists_sampleOnto_over hcells hfits htarget
  refine ⟨samples, hsamples, hshape, fun i j hi hj => (hget i j hi hj).trans ?_⟩
  unfold sampleAt
  rw [cellAt?_of_resident hcells]
  rfl

end Sampling

/-- A grid of two square cells beside each other, on the horizontal axis. -/
def pair (left size : ℚ) (a b : Float32) : Grid ℚ Float Float32 where
  extent := ⟨left, 0, left + 2 * size, size⟩
  cellWidth := size
  cellHeight := size
  nodata := -9999
  name := defaultName
  rows := 1
  cols := 2
  cells := .resident (.ofFn 1 2 fun _ j => if j.val = 0 then a else b)

theorem consistent_pair (left size : ℚ) (a b : Float32) : (pair left size a b).Consistent where
  isShaped := ⟨_, rfl, rfl, rfl⟩
  right := by
    show left + 2 * size = left + ((2 : ℤ) : ℚ) * size
    norm_num
  upper := by
    show size = 0 + ((1 : ℤ) : ℚ) * size
    norm_num

end Grid

end MapAlgebra
