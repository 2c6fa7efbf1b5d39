import MapAlgebra.Proofs.Reach

/-!
# Growing grids and cutting them back

A grid that grows for an extent, wherever that lies, is the same grid with cells without data around
it: as many whole cells on each side as the extent needs. What is cut out of it over the extent that
the grid had is the grid again. Cells without height cannot be counted, so nothing is gained from
them.
-/

namespace MapAlgebra

variable {α V S : Type}

namespace Raster

/-- The cells inside the padding are those of the raster. -/
theorem get?_pad (raster : Raster α) (top bottom left right : ℕ) (a : α) {i j : ℕ}
    (hi : i < raster.rows) (hj : j < raster.cols) :
    (raster.pad top bottom left right a).get? (top + i) (left + j) = raster.get? i j := by
  have hsome : ((raster.pad top bottom left right a).at? ((top + i : ℕ) : ℤ)
      ((left + j : ℕ) : ℤ)).isSome := by
    rw [isSome_at?_iff]
    simp only [pad, rows_ofFn, cols_ofFn]
    omega
  have hcell := at?_pad top bottom left right a hsome
  rw [Int.natCast_add, Int.natCast_add, add_sub_cancel_left, add_sub_cancel_left, at?_natCast,
    raster.get?_eq_get hi hj, ← Int.natCast_add, ← Int.natCast_add, at?_natCast] at hcell
  rw [hcell, raster.get?_eq_get hi hj]
  rfl

/-- A raster is cut out of its padding. -/
theorem window_pad (raster : Raster α) (top bottom left right : ℕ) (a : α) :
    (raster.pad top bottom left right a).window top (top + raster.rows) left
      (left + raster.cols) = raster := by
  have hrows : (raster.pad top bottom left right a).rows = top + raster.rows + bottom := rfl
  have hcols : (raster.pad top bottom left right a).cols = left + raster.cols + right := rfl
  refine eq_of_get? ?_ ?_ fun i j hi hj => ?_
  · simp only [window, rows_ofFn, hrows]
    omega
  · simp only [window, cols_ofFn, hcols]
    omega
  · simp only [window, rows_ofFn, cols_ofFn, hrows, hcols] at hi hj
    rw [get?_window (by omega) (by omega) (by omega) (by omega)]
    exact get?_pad _ _ _ _ _ _ (by omega) (by omega)

end Raster

namespace Grid

theorem Overlies.encloses {outer inner : Grid ℚ V S} {down across : ℕ}
    (h : outer.Overlies inner down across) (hwidth : 0 < inner.cellWidth)
    (hheight : 0 < inner.cellHeight) : outer.extent.Encloses inner.extent where
  left := (h.within hwidth hheight).1
  lower := h.lower
  right := h.right
  upper := (h.within hwidth hheight).2

section Growing

variable {grid : Grid ℚ V S} {cells : Raster S}

/-- Cells without height cannot be counted, neither to cut a grid nor to let it grow. -/
theorem clip_flat (hwidth : grid.cellWidth ≠ 0) (hheight : grid.cellHeight = 0)
    (target : Extent ℚ) : grid.clip target = .error (.number .divisionByZero) := by
  unfold clip
  simp only [firstCell_eq_floor _ hwidth, cellsOver_eq_ceil _ hwidth, hheight]
  rfl

variable [Cell S V]

/-- A grid that grew is the grid with cells without data around it. -/
theorem Consistent.exists_pad (h : grid.Consistent) (hcells : grid.cells = .resident cells)
    (hwidth : 0 < grid.cellWidth) (hheight : 0 < grid.cellHeight) (target : Extent ℚ) :
    ∃ grown, ∃ top bottom left right : ℕ, grid.enlarge target = .ok grown ∧
      grown.nodata = grid.nodata ∧ grown.Overlies grid top left ∧
      grown.cells = .resident (cells.pad top bottom left right (Cell.narrow grid.nodata)) := by
  have hspan (n : ℤ) {size : ℚ} (hsize : 0 < size) : 0 ≤ ((max 0 n : ℤ) : ℚ) * size :=
    mul_nonneg (by exact_mod_cast le_max_left 0 n) hsize.le
  refine ⟨_, _, _, _, _, h.enlarge_eq hcells hwidth hheight (cellsOver_eq_ceil _ hwidth.ne')
    (cellsOver_eq_ceil _ hwidth.ne') (cellsOver_eq_ceil _ hheight.ne')
    (cellsOver_eq_ceil _ hheight.ne'), rfl, ⟨rfl, rfl, ?_, ?_, ?_, ?_⟩, rfl⟩
  · rw [cast_toNat_max_zero, sub_add_cancel]
  · rw [cast_toNat_max_zero, add_sub_cancel_right]
  · exact le_add_of_nonneg_right (hspan _ hwidth)
  · exact sub_le_self _ (hspan _ hheight)

theorem enlarge_flat (hwidth : grid.cellWidth ≠ 0) (hheight : grid.cellHeight = 0)
    (target : Extent ℚ) : grid.enlarge target = .error (.number .divisionByZero) := by
  unfold enlarge
  simp only [cellsOver_eq_ceil _ hwidth, hheight]
  rfl

end Growing

/-- A grid that grows for an extent has each of its cells at its place, NoData in the cells that
were added, and covers the extent but for a ten-thousandth of a cell. Cut to the extent that the
grid had, it is the grid again. -/
theorem Consistent.exists_regained {grid : Grid ℚ Float Float32} (h : grid.Consistent)
    (hwidth : 0 < grid.cellWidth) (hheight : 0 < grid.cellHeight) (hrows : 0 < grid.rows)
    (hcols : 0 < grid.cols) (target : Extent ℚ) :
    ∃ grown regained, grid.enlarge target = .ok grown ∧ grown.Consistent ∧
      grown.nodata = grid.nodata ∧ (∃ down across, grown.Overlies grid down across) ∧
      (∀ x y, grid.extent.Holds x y →
        grown.cellAt? x y = grid.cellAt? x y ∧ (grid.cellAt? x y).isSome) ∧
      (∀ x y, grown.extent.Holds x y → ¬ grid.extent.Holds x y →
        ∃ cell, grown.cellAt? x y = some cell ∧ holdsNodata grown.nodata cell) ∧
      grown.extent.Reaches (grid.cellWidth / 10000) (grid.cellHeight / 10000) target ∧
      grown.clip grid.extent = .ok (some regained) ∧ grid.Matches regained ∧
      regained.nodata = grid.nodata ∧ regained.cells = grid.cells := by
  obtain ⟨cells, hcells, hfits⟩ := h.isShaped
  obtain ⟨grown, top, bottom, left, right, henlarge, hnodata, hover, hpadded⟩ :=
    h.exists_pad hcells hwidth hheight target
  have hgrown := consistent_enlarge h target grown henlarge
  have hshows := h.shows_enlarge hwidth hheight target grown henlarge hgrown
  obtain ⟨grown', henlarge', hreaches⟩ := h.exists_enlarge hwidth hheight target
  cases henlarge.symm.trans henlarge'
  have hclip := hover.clip_eq hgrown h hwidth hheight hcols hrows hpadded
  have hdown : (top + grid.rows).toNat = top + cells.rows := by
    have hheld := hfits.rows
    omega
  have hacross : (left + grid.cols).toNat = left + cells.cols := by
    have hheld := hfits.cols
    omega
  rw [hdown, hacross, Raster.window_pad] at hclip
  have hown (x y : ℚ) : (grid.cellAt? x y).isSome ↔ grid.extent.Holds x y :=
    h.isSome_cellAt?_iff hwidth hheight
  have hbeyond := hover.encloses hwidth hheight
  have hmatches : grid.Matches { grown.derive cells with extent := grid.extent } :=
    ⟨⟨cells, rfl, rfl, rfl⟩, hfits.rows, hfits.cols, rfl, hover.cellWidth, hover.cellHeight⟩
  refine ⟨grown, _, henlarge, hgrown, hnodata, ⟨top, left, hover⟩, ?_, ?_, hreaches, hclip,
    hmatches, hnodata, hcells.symm⟩
  · intro x y hholds
    obtain ⟨cell, hcell⟩ := Option.isSome_iff_exists.mp ((hown x y).mpr hholds)
    rw [hshows.cellAt? x y (hbeyond.holds hholds), hcell]
    exact ⟨rfl, rfl⟩
  · intro x y hholds hwithout
    have hnone : grid.cellAt? x y = none := by
      rw [← Option.not_isSome_iff_eq_none, hown]
      exact hwithout
    refine ⟨Cell.narrow grid.nodata, ?_, ?_⟩
    · rw [hshows.cellAt? x y hholds, hnone]
      rfl
    · rw [hnodata]
      exact Double.holdsNodata_narrow grid.nodata

/-- Two cells grow to an extent above and to the left that shares no point with theirs, and are cut
back. -/
theorem exists_regained_pair : ∃ grown regained,
    (pair 0 1 5 7).Consistent ∧ 0 < (pair 0 1 5 7).cellWidth ∧ 0 < (pair 0 1 5 7).cellHeight ∧
      0 < (pair 0 1 5 7).rows ∧ 0 < (pair 0 1 5 7).cols ∧
      (pair 0 1 5 7).enlarge ⟨-5 / 2, 3 / 2, -1, 2⟩ = .ok grown ∧
      grown.clip (pair 0 1 5 7).extent = .ok (some regained) ∧
      regained.cells = (pair 0 1 5 7).cells := by
  have hwidth : 0 < (pair 0 1 5 7).cellWidth := by norm_num [pair]
  have hheight : 0 < (pair 0 1 5 7).cellHeight := by norm_num [pair]
  have hrows : 0 < (pair 0 1 5 7).rows := by norm_num [pair]
  have hcols : 0 < (pair 0 1 5 7).cols := by norm_num [pair]
  obtain ⟨grown, regained, henlarge, -, -, -, -, -, -, hclip, -, -, hcells⟩ :=
    (consistent_pair 0 1 5 7).exists_regained hwidth hheight hrows hcols ⟨-5 / 2, 3 / 2, -1, 2⟩
  exact ⟨grown, regained, consistent_pair 0 1 5 7, hwidth, hheight, hrows, hcols, henlarge, hclip,
    hcells⟩

/-- A grid of one cell without height. Only the width of cells is tested when a grid is made. -/
def flat : Grid ℚ Float Float32 where
  extent := ⟨0, 0, 1, 0⟩
  cellWidth := 1
  cellHeight := 0
  nodata := -9999
  name := defaultName
  rows := 1
  cols := 1
  cells := .resident (.fill 1 1 5)

theorem of_eq_flat : of ⟨0, 0, 1, 0⟩ 1 0 (-9999) (.fill 1 1 5) = .ok flat := by
  have hpos : ¬ (1 : ℚ) ≤ Coordinate.zero := by decide
  exact if_neg hpos

theorem consistent_flat : flat.Consistent where
  isShaped := ⟨_, rfl, rfl, rfl⟩
  right := by norm_num [flat]
  upper := by norm_num [flat]

/-- A cell without height does not grow, even to its own extent, so that nothing can be cut. -/
theorem enlarge_flat_fails : flat.Consistent ∧ 0 < flat.rows ∧ 0 < flat.cols ∧
    of ⟨0, 0, 1, 0⟩ 1 0 (-9999) (.fill 1 1 5) = .ok flat ∧
    flat.enlarge flat.extent = .error (.number .divisionByZero) :=
  ⟨consistent_flat, by decide, by decide, of_eq_flat,
    enlarge_flat (by norm_num [flat]) rfl flat.extent⟩

end Grid

end MapAlgebra
