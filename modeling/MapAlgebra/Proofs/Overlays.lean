import MapAlgebra.Proofs.Points

/-!
# Grids that lie in others

Two grids in cells of one size on one lattice, the extent of one around that of the other. The outer
one is cut to exactly the cells of the inner one before they are combined, unless their extents are
the same up to the tolerance.
-/

namespace MapAlgebra

namespace Fraction

theorem tolerance_eq : (Coordinate.tolerance : ℚ) = 1 / 10000 := by
  show (((1 : ℤ) : ℚ) / ((10000 : ℤ) : ℚ)) = 1 / 10000
  norm_num

theorem ratio_eq {a b : ℚ} (h : b ≠ 0) : Coordinate.ratio a b = .ok (a / b) := by
  unfold Coordinate.ratio
  rw [if_neg]
  intro heq
  exact h (eq_of_beq heq)

theorem distance_le_iff {a b : ℚ} :
    Coordinate.distance a b ≤ Coordinate.tolerance ↔ |a - b| ≤ 1 / 10000 := by
  have hdistance : Coordinate.distance a b = |a - b| := by
    unfold Coordinate.distance
    show (if a - b < ((0 : ℤ) : ℚ) then b - a else a - b) = |a - b|
    rw [Int.cast_zero]
    split
    next h => rw [abs_of_neg h, neg_sub]
    next h => rw [abs_of_nonneg (not_lt.mp h)]
  rw [hdistance, tolerance_eq]

theorem near_self (a : ℚ) : Coordinate.near a a := by
  unfold Coordinate.near
  rw [decide_eq_true_eq, distance_le_iff, sub_self, abs_zero]
  norm_num

end Fraction

open Fraction

namespace Extent

theorem agrees_iff {a b : Extent ℚ} : a.agrees b ↔ |a.xll - b.xll| ≤ 1 / 10000 ∧
    |a.yll - b.yll| ≤ 1 / 10000 ∧ |a.xur - b.xur| ≤ 1 / 10000 ∧ |a.yur - b.yur| ≤ 1 / 10000 := by
  unfold Extent.agrees Extent.agreesWithin
  simp only [Bool.and_eq_true, decide_eq_true_eq, distance_le_iff, and_assoc]

theorem contains_iff {a b : Extent ℚ} : a.contains b ↔ a.xll - 1 / 10000 ≤ b.xll ∧
    a.yll - 1 / 10000 ≤ b.yll ∧ b.xur ≤ a.xur + 1 / 10000 ∧ b.yur ≤ a.yur + 1 / 10000 := by
  unfold Extent.contains Extent.containsWithin
  rw [tolerance_eq]
  simp only [Bool.and_eq_true, decide_eq_true_eq, and_assoc]

theorem agrees_self (extent : Extent ℚ) : extent.agrees extent := by
  rw [agrees_iff]
  simp only [sub_self, abs_zero]
  norm_num

theorem isEmpty_eq_false_iff {extent : Extent ℚ} : extent.isEmpty = false ↔
    1 / 10000 < extent.width ∧ 1 / 10000 < extent.height := by
  unfold Extent.isEmpty
  rw [tolerance_eq]
  simp only [Bool.or_eq_false_iff, decide_eq_false_iff_not, not_le]

end Extent

namespace Grid

variable {V S : Type}

/-- Grids with cells of one size have the same geometry if they have as many cells in nearly the
same extent. -/
theorem sameGeometry_of_agrees {grid other : Grid ℚ V S} (hrows : grid.rows = other.rows)
    (hcols : grid.cols = other.cols) (hwidth : grid.cellWidth = other.cellWidth)
    (hheight : grid.cellHeight = other.cellHeight) (h : grid.extent.agrees other.extent) :
    grid.sameGeometry other := by
  unfold sameGeometry
  rw [hrows, hcols, hwidth, hheight]
  simp only [Bool.and_eq_true, beq_self_eq_true]
  exact ⟨⟨⟨⟨trivial, trivial⟩, near_self _⟩, near_self _⟩, h⟩

theorem cellsOver_eq_ceil (distance : ℚ) {size : ℚ} (hsize : size ≠ 0) :
    cellsOver distance size = .ok ⌈distance / size - 1 / 10000⌉ := by
  unfold cellsOver
  rw [ratio_eq hsize, tolerance_eq]
  rfl

theorem firstCell_eq_floor (distance : ℚ) {size : ℚ} (hsize : size ≠ 0) :
    firstCell distance size = .ok (max 0 ⌊distance / size + 1 / 10000⌋) := by
  unfold firstCell
  rw [ratio_eq hsize, tolerance_eq]
  rfl

/-- As many whole cells as a distance has are skipped. -/
theorem firstCell_eq (n : ℕ) {size : ℚ} (hsize : 0 < size) :
    firstCell (n * size) size = .ok (n : ℤ) := by
  have hfloor : ⌊(n : ℚ) + 1 / 10000⌋ = n := by
    rw [Int.floor_eq_iff]
    constructor <;> push_cast <;> linarith
  rw [firstCell_eq_floor _ hsize.ne', mul_div_cancel_right₀ _ hsize.ne', hfloor,
    max_eq_right (Int.natCast_nonneg n)]

/-- A distance of whole cells is covered by as many. -/
theorem cellsOver_eq (n : ℤ) {size : ℚ} (hsize : 0 < size) :
    cellsOver (n * size) size = .ok n := by
  have hceil : ⌈(n : ℚ) - 1 / 10000⌉ = n := by
    rw [Int.ceil_eq_iff]
    constructor <;> linarith
  rw [cellsOver_eq_ceil _ hsize.ne', mul_div_cancel_right₀ _ hsize.ne', hceil]

/-- The middle of a cell, counted in cells of the same size. -/
theorem cellIndex_middle (skipped k : ℕ) {size : ℚ} (hsize : 0 < size) :
    Coordinate.cellIndex ((skipped * size + middle k * size) / size) = (skipped + k : ℤ) := by
  have hquotient : (skipped * size + middle k * size) / size = skipped + k + 1 / 2 := by
    rw [middle_eq]
    field_simp
    ring
  show ⌊(skipped * size + middle k * size) / size⌋ = _
  rw [hquotient, Int.floor_eq_iff]
  push_cast
  constructor <;> linarith

/-- An extent whose sides are whole cells away from those of a grid is cut out of it as a window. -/
theorem clip_eq_window {grid : Grid ℚ V S} {extent : Extent ℚ} {cells : Raster S}
    (hcells : grid.cells = .resident cells) (hwidth : 0 < grid.cellWidth)
    (hheight : 0 < grid.cellHeight) {left top : ℕ} {right bottom : ℤ}
    (hleft : extent.xll - grid.extent.xll = left * grid.cellWidth)
    (hright : extent.xur - grid.extent.xll = right * grid.cellWidth)
    (htop : grid.extent.yur - extent.yur = top * grid.cellHeight)
    (hbottom : grid.extent.yur - extent.yll = bottom * grid.cellHeight)
    (hacross : left < right) (hdown : top < bottom) (hcols : right ≤ grid.cols)
    (hrows : bottom ≤ grid.rows) :
    grid.clip extent = .ok (some
      { grid.derive (cells.window top bottom.toNat left right.toNat) with extent }) := by
  have hboxed : extent = ⟨grid.extent.xll + ((left : ℤ) : ℚ) * grid.cellWidth,
      grid.extent.yur - bottom * grid.cellHeight, grid.extent.xll + right * grid.cellWidth,
      grid.extent.yur - ((top : ℤ) : ℚ) * grid.cellHeight⟩ := by
    rw [Int.cast_natCast, Int.cast_natCast, ← hleft, ← hright, ← htop, ← hbottom, add_sub_cancel,
      sub_sub_cancel, add_sub_cancel, sub_sub_cancel]
  have hsome : ¬ (right ≤ left ∨ bottom ≤ top) := by omega
  rw [clip_eq hcells hwidth hheight extent (hleft ▸ firstCell_eq left hwidth)
    (hright ▸ cellsOver_eq right hwidth) (htop ▸ firstCell_eq top hheight)
    (hbottom ▸ cellsOver_eq bottom hheight), min_eq_right hcols, min_eq_right hrows, if_neg hsome,
    ← hboxed]
  rfl

/-- A grid around another one, in cells of one size on one lattice. The first cell of the inner grid
is the cell `down` rows and `across` columns further in the outer one. -/
structure Overlies (outer inner : Grid ℚ V S) (down across : ℕ) : Prop where
  cellWidth : outer.cellWidth = inner.cellWidth
  cellHeight : outer.cellHeight = inner.cellHeight
  left : inner.extent.xll = outer.extent.xll + across * inner.cellWidth
  upper : inner.extent.yur = outer.extent.yur - down * inner.cellHeight
  right : inner.extent.xur ≤ outer.extent.xur
  lower : outer.extent.yll ≤ inner.extent.yll

namespace Overlies

variable {outer inner : Grid ℚ V S} {down across : ℕ}

theorem cols_le (h : outer.Overlies inner down across) (houter : outer.Consistent)
    (hinner : inner.Consistent) (hwidth : 0 < inner.cellWidth) :
    across + inner.cols ≤ outer.cols := by
  have hright := h.right
  rw [hinner.right, houter.right, h.left, h.cellWidth] at hright
  have hscaled : ((across : ℚ) + inner.cols) * inner.cellWidth ≤
      (outer.cols : ℚ) * inner.cellWidth := by linarith
  exact_mod_cast le_of_mul_le_mul_right hscaled hwidth

theorem rows_le (h : outer.Overlies inner down across) (houter : outer.Consistent)
    (hinner : inner.Consistent) (hheight : 0 < inner.cellHeight) :
    down + inner.rows ≤ outer.rows := by
  have hlower := h.lower
  have hupper := h.upper
  rw [hinner.upper, houter.upper, h.cellHeight] at hupper
  have hscaled : ((down : ℚ) + inner.rows) * inner.cellHeight ≤
      (outer.rows : ℚ) * inner.cellHeight := by linarith
  exact_mod_cast le_of_mul_le_mul_right hscaled hheight

theorem within (h : outer.Overlies inner down across) (hwidth : 0 < inner.cellWidth)
    (hheight : 0 < inner.cellHeight) : outer.extent.xll ≤ inner.extent.xll ∧
      inner.extent.yur ≤ outer.extent.yur := by
  rw [h.left, h.upper]
  constructor
  · exact le_add_of_nonneg_right (by positivity)
  · exact sub_le_self _ (by positivity)

/-- The row of the outer grid over the middle of a row of the inner one. -/
theorem cellIndex_row (h : outer.Overlies inner down across) (hheight : 0 < inner.cellHeight)
    (i : ℕ) : Coordinate.cellIndex ((outer.extent.yur -
      (inner.extent.yur - middle i * inner.cellHeight)) / outer.cellHeight) = (down + i : ℤ) := by
  rw [← cellIndex_middle down i hheight, h.upper, h.cellHeight]
  congr 2
  ring

/-- The column of the outer grid over the middle of a column of the inner one. -/
theorem cellIndex_col (h : outer.Overlies inner down across) (hwidth : 0 < inner.cellWidth)
    (j : ℕ) : Coordinate.cellIndex ((inner.extent.xll + middle j * inner.cellWidth -
      outer.extent.xll) / outer.cellWidth) = (across + j : ℤ) := by
  rw [← cellIndex_middle across j hwidth, h.left, h.cellWidth]
  congr 2
  ring

/-- Cut to the inner extent, the outer grid has the cells that lie over the inner grid. -/
theorem clip_eq (h : outer.Overlies inner down across) (houter : outer.Consistent)
    (hinner : inner.Consistent) (hwidth : 0 < inner.cellWidth) (hheight : 0 < inner.cellHeight)
    (hcols : 0 < inner.cols) (hrows : 0 < inner.rows) {cells : Raster S}
    (hcells : outer.cells = .resident cells) :
    outer.clip inner.extent = .ok (some
      { outer.derive (cells.window down (down + inner.rows).toNat across
          (across + inner.cols).toNat) with extent := inner.extent }) := by
  refine clip_eq_window hcells (h.cellWidth ▸ hwidth) (h.cellHeight ▸ hheight) ?_ ?_ ?_ ?_
    (by omega) (by omega) (h.cols_le houter hinner hwidth) (h.rows_le houter hinner hheight)
  · rw [h.left, h.cellWidth]
    ring
  · rw [hinner.right, h.left, h.cellWidth]
    push_cast
    ring
  · rw [h.upper, h.cellHeight]
    ring
  · have hupper := h.upper
    rw [hinner.upper] at hupper
    rw [h.cellHeight]
    push_cast
    linarith

end Overlies

theorem pos_of_span {count : ℤ} {size : ℚ} (hsize : 0 < size) (h : 0 < count * size) :
    0 < count := by
  exact_mod_cast pos_of_mul_pos_left h hsize.le

/-- A grid whose extent is not empty has cells. -/
theorem Consistent.pos_of_isEmpty {grid : Grid ℚ V S} (h : grid.Consistent)
    (hwidth : 0 < grid.cellWidth) (hheight : 0 < grid.cellHeight)
    (hempty : grid.extent.isEmpty = false) : 0 < grid.cols ∧ 0 < grid.rows := by
  obtain ⟨hlong, hhigh⟩ := Extent.isEmpty_eq_false_iff.mp hempty
  have hacross : grid.extent.width = grid.cols * grid.cellWidth := by
    show grid.extent.xur - grid.extent.xll = _
    rw [h.right, add_sub_cancel_left]
  have hdown : grid.extent.height = grid.rows * grid.cellHeight := by
    show grid.extent.yur - grid.extent.yll = _
    rw [h.upper, add_sub_cancel_left]
  exact ⟨pos_of_span hwidth (by linarith), pos_of_span hheight (by linarith)⟩

variable [Number V] [Cell S V]

namespace Overlies

variable {outer inner : Grid ℚ V S} {down across : ℕ} {cells : Raster S}

/-- A grid that reaches beyond the inner one is cut to it. -/
theorem succeeds_reconcile (h : outer.Overlies inner down across) (houter : outer.Consistent)
    (hinner : inner.Consistent) (hwidth : 0 < inner.cellWidth) (hheight : 0 < inner.cellHeight)
    (hcells : outer.cells = .resident cells) (hbeyond : ¬ outer.extent.agrees inner.extent)
    (hempty : inner.extent.isEmpty = false) (label : String) :
    Traced.Succeeds (· = { outer.derive (cells.window down (down + inner.rows).toNat across
      (across + inner.cols).toNat) with extent := inner.extent })
      (outer.reconcile inner.extent label) := by
  obtain ⟨hxll, hyur⟩ := h.within hwidth hheight
  have hright := h.right
  have hlower := h.lower
  obtain ⟨hcols, hrows⟩ := hinner.pos_of_isEmpty hwidth hheight hempty
  have hcontains : outer.extent.contains inner.extent := by
    rw [Extent.contains_iff]
    refine ⟨?_, ?_, ?_, ?_⟩ <;> linarith
  have hreaches : ¬ inner.extent.contains outer.extent := by
    intro hwithin
    obtain ⟨hx, hy, hx', hy'⟩ := Extent.contains_iff.mp hwithin
    refine hbeyond (Extent.agrees_iff.mpr ⟨?_, ?_, ?_, ?_⟩) <;> rw [abs_le] <;> constructor <;>
      linarith
  rw [reconcile_eq, if_neg hbeyond, if_pos hcontains]
  unfold cutTo
  rw [if_neg hreaches]
  refine .bind (.record _ _) fun _ _ => ?_
  rw [clipOrDummy_eq, if_neg (hempty ▸ Bool.false_ne_true)]
  exact .lift_bind (h.clip_eq houter hinner hwidth hheight hcols hrows hcells) (.pure rfl)

/-- Read at the middles of the inner cells, the outer grid has the samples of the cells over
them. -/
theorem exists_sampleOnto (h : outer.Overlies inner down across) (houter : outer.Consistent)
    (hinner : inner.Consistent) (hwidth : 0 < inner.cellWidth) (hheight : 0 < inner.cellHeight)
    (hcells : outer.cells = .resident cells) :
    ∃ samples, outer.sampleOnto inner = .ok samples ∧ inner.Fits samples ∧
      ∀ i j : ℕ, i < inner.rows → j < inner.cols →
        samples.get? i j = (cells.get? (down + i) (across + j)).map outer.sample := by
  have hcolsle := h.cols_le houter hinner hwidth
  have hrowsle := h.rows_le houter hinner hheight
  obtain ⟨hrows, hcols⟩ := houter.isShaped.values cells (values_eq_ok_iff.mpr hcells)
  obtain ⟨samples, hsamples, hfits, hget⟩ := houter.isShaped.exists_sampleOnto hinner.isShaped
  refine ⟨samples, hsamples, hfits, fun i j hi hj => ?_⟩
  have hrow : outer.rowAt (inner.rowMiddle i) = ((down + i : ℕ) : ℤ) := h.cellIndex_row hheight i
  have hcol : outer.colAt (inner.colMiddle j) = ((across + j : ℕ) : ℤ) := h.cellIndex_col hwidth j
  have hcell := cells.get?_eq_get (by omega : down + i < cells.rows)
    (by omega : across + j < cells.cols)
  rw [hget i j hi hj, sampleAt, cellAt?_of_resident hcells, hrow, hcol, Raster.at?_natCast, hcell]
  rfl

/-- The samples of the outer grid at the cells of the inner one. -/
theorem exists_operandSamples (h : outer.Overlies inner down across) (houter : outer.Consistent)
    (hinner : inner.Consistent) (hwidth : 0 < inner.cellWidth) (hheight : 0 < inner.cellHeight)
    (hcells : outer.cells = .resident cells) :
    ∃ samples, inner.operandSamples (.grid outer) = .ok (.inr samples) ∧ inner.Fits samples ∧
      ∀ i j : ℕ, i < inner.rows → j < inner.cols →
        samples.get? i j = (cells.get? (down + i) (across + j)).map outer.sample := by
  by_cases hsame : inner.sameGeometry outer
  · obtain ⟨hsameRows, hsameCols⟩ := eq_of_sameGeometry hsame
    obtain ⟨hrows, hcols⟩ := houter.isShaped.values cells (values_eq_ok_iff.mpr hcells)
    refine ⟨_, operandSamples_of_sameGeometry hsame hcells,
      ⟨hrows.trans hsameRows.symm, hcols.trans hsameCols.symm⟩, fun i j _ _ => ?_⟩
    -- as many rows and columns leave no room to shift
    have hcolsle := h.cols_le houter hinner hwidth
    have hrowsle := h.rows_le houter hinner hheight
    have hdown : down = 0 := by omega
    have hacross : across = 0 := by omega
    subst hdown hacross
    rw [Raster.get?_map, Nat.zero_add, Nat.zero_add]
  · obtain ⟨samples, hsamples, hfits, hget⟩ :=
      h.exists_sampleOnto houter hinner hwidth hheight hcells
    exact ⟨samples, operandSamples_of_not_sameGeometry hsame hsamples, hfits, hget⟩

end Overlies

/-- What a merge reads from a cell of a grid that is brought to the extent of another one. A grid
that is cut for it does not keep its substitute. -/
def mergedSample (outer inner : Grid ℚ V S) (cell : S) : Sample V :=
  if outer.extent.agrees inner.extent then outer.sample cell
  else ⟨Cell.widen cell, holdsNodata outer.nodata cell⟩

/-- Brought to the inner extent, the outer grid has a sample for each cell of the inner one. -/
theorem Overlies.exists_reconciled {outer inner : Grid ℚ V S} {down across : ℕ} {cells : Raster S}
    (h : outer.Overlies inner down across) (houter : outer.Consistent) (hinner : inner.Consistent)
    (hwidth : 0 < inner.cellWidth) (hheight : 0 < inner.cellHeight)
    (hcells : outer.cells = .resident cells)
    (hsize : outer.extent.agrees inner.extent ∨ inner.extent.isEmpty = false) (label : String) :
    ∃ reconciled samples,
      Traced.Succeeds (· = reconciled) (outer.reconcile inner.extent label) ∧
      inner.operandSamples (.grid reconciled) = .ok (.inr samples) ∧ inner.Fits samples ∧
      ∀ i j : ℕ, i < inner.rows → j < inner.cols →
        samples.get? i j = (cells.get? (down + i) (across + j)).map (outer.mergedSample inner) := by
  by_cases hagrees : outer.extent.agrees inner.extent
  · obtain ⟨samples, hsamples, hfits, hget⟩ :=
      h.exists_operandSamples houter hinner hwidth hheight hcells
    have hkept : outer.mergedSample inner = outer.sample := funext fun cell => if_pos hagrees
    exact ⟨outer, samples, reconcile_of_agrees hagrees label, hsamples, hfits, by rwa [hkept]⟩
  · have hempty := hsize.resolve_left hagrees
    obtain ⟨hcols, hrows⟩ := hinner.pos_of_isEmpty hwidth hheight hempty
    have hclip := h.clip_eq houter hinner hwidth hheight hcols hrows hcells
    have hcut := consistent_clip houter.isShaped inner.extent _ hclip _ rfl
    -- the grid that was cut lies over the inner one without an offset
    have hover : Overlies { outer.derive (cells.window down (down + inner.rows).toNat across
        (across + inner.cols).toNat) with extent := inner.extent } inner 0 0 :=
      ⟨h.cellWidth, h.cellHeight, by simp, by simp, le_rfl, le_rfl⟩
    obtain ⟨samples, hsamples, hfits, hget⟩ :=
      hover.exists_operandSamples hcut hinner hwidth hheight rfl
    refine ⟨_, samples, h.succeeds_reconcile houter hinner hwidth hheight hcells hagrees hempty
      label, hsamples, hfits, fun i j hi hj => ?_⟩
    have hkept : outer.mergedSample inner =
        fun cell => ⟨Cell.widen cell, holdsNodata outer.nodata cell⟩ :=
      funext fun cell => if_neg hagrees
    have hown := houter.isShaped.values cells (values_eq_ok_iff.mpr hcells)
    have hheld := hown.rows
    have hwide := hown.cols
    have hrowsle := h.rows_le houter hinner hheight
    have hcolsle := h.cols_le houter hinner hwidth
    rw [hget i j hi hj, hkept, Nat.zero_add, Nat.zero_add,
      Raster.get?_window (by omega) (by omega) (by omega) (by omega)]
    rfl

end Grid

end MapAlgebra
