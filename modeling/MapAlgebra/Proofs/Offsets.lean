import MapAlgebra.Proofs.Points
import MapAlgebra.Proofs.Selection

/-!
# Grids of nearly one geometry

Operands whose geometry is the same up to the tolerance are combined cell by cell, without a look at
what lies under the middles of the cells. The middles lie in the same rows and columns if the cells
are larger than twice the tolerance. Smaller cells may be shifted by a whole cell and still count as
in place.
-/

namespace MapAlgebra

/-- Two rows of equally many cells that begin and end near each other are near in between. -/
theorem abs_sub_le_of_ends {a b w v slack t : ℚ} {count : ℤ} (hstart : |a - b| ≤ slack)
    (hend : |(a + count * w) - (b + count * v)| ≤ slack) (ht : 0 ≤ t) (htcount : t ≤ count) :
    |(a + t * w) - (b + t * v)| ≤ slack := by
  rcases ht.eq_or_lt with rfl | hpos
  · simpa using hstart
  have hcount : (0 : ℚ) < count := hpos.trans_le htcount
  -- the offset in between is a mean of those at the ends
  have hmean : (count : ℚ) * ((a + t * w) - (b + t * v)) =
      (count - t) * (a - b) + t * ((a + count * w) - (b + count * v)) := by
    ring
  obtain ⟨hstart', hstart⟩ := abs_le.mp hstart
  obtain ⟨hend', hend⟩ := abs_le.mp hend
  have hrest : 0 ≤ (count : ℚ) - t := sub_nonneg.mpr htcount
  refine abs_le.mpr ⟨?_, ?_⟩
  · refine le_of_mul_le_mul_left ?_ hcount
    rw [hmean]
    linarith [mul_le_mul_of_nonneg_left hstart' hrest, mul_le_mul_of_nonneg_left hend' ht]
  · refine le_of_mul_le_mul_left ?_ hcount
    rw [hmean]
    linarith [mul_le_mul_of_nonneg_left hstart hrest, mul_le_mul_of_nonneg_left hend ht]

/-- The middles of such rows lie in cells of one number, if the cells are wider than twice the
tolerance. -/
theorem floor_middle_of_ends {a b w v : ℚ} {count : ℤ} {j : ℕ} (hstart : |a - b| ≤ 1 / 10000)
    (hend : |(a + count * w) - (b + count * v)| ≤ 1 / 10000) (hj : j < count)
    (hwide : 2 / 10000 < v) : ⌊(a + ((j : ℚ) + 1 / 2) * w - b) / v⌋ = j := by
  have hpos : 0 < v := lt_trans (by norm_num) hwide
  have hmiddle : (j : ℚ) + 1 / 2 ≤ count := by
    have hnext : ((j + 1 : ℤ) : ℚ) ≤ count := by exact_mod_cast hj
    push_cast at hnext
    linarith
  obtain ⟨hlower, hupper⟩ := abs_le.mp (abs_sub_le_of_ends hstart hend (by positivity) hmiddle)
  rw [Int.floor_eq_iff, le_div_iff₀ hpos, div_lt_iff₀ hpos]
  push_cast
  constructor <;> linarith

namespace Grid

variable {V S : Type} {grid other : Grid ℚ V S}

/-- The middles of the columns of one grid lie in the columns of another one of the same number. -/
theorem Consistent.colAt_colMiddle (h : grid.Consistent) (hother : other.Consistent)
    (hcols : grid.cols = other.cols) (hagrees : grid.extent.agrees other.extent)
    (hwide : 2 / 10000 < other.cellWidth) {j : ℕ} (hj : j < grid.cols) :
    other.colAt (grid.colMiddle j) = j := by
  obtain ⟨hleft, -, hright, -⟩ := Extent.agrees_iff.mp hagrees
  rw [h.right, hother.right, ← hcols] at hright
  unfold colAt colMiddle
  rw [middle_eq]
  exact floor_middle_of_ends hleft hright hj hwide

theorem Consistent.rowAt_rowMiddle (h : grid.Consistent) (hother : other.Consistent)
    (hrows : grid.rows = other.rows) (hagrees : grid.extent.agrees other.extent)
    (hhigh : 2 / 10000 < other.cellHeight) {i : ℕ} (hi : i < grid.rows) :
    other.rowAt (grid.rowMiddle i) = i := by
  obtain ⟨-, hlower, -, hupper⟩ := Extent.agrees_iff.mp hagrees
  -- rows are counted downwards
  have hstart : |(-grid.extent.yur) - (-other.extent.yur)| ≤ 1 / 10000 := by
    rwa [neg_sub_neg, abs_sub_comm]
  have hend : |(-grid.extent.yur + grid.rows * grid.cellHeight) -
      (-other.extent.yur + grid.rows * other.cellHeight)| ≤ 1 / 10000 := by
    have hlow : (-grid.extent.yur + grid.rows * grid.cellHeight) -
        (-other.extent.yur + grid.rows * other.cellHeight) =
          other.extent.yll - grid.extent.yll := by
      rw [h.upper, hother.upper, hrows]
      ring
    rwa [hlow, abs_sub_comm]
  have hfloor := floor_middle_of_ends hstart hend hi hhigh
  unfold rowAt rowMiddle
  rw [middle_eq, ← hfloor]
  congr 2
  ring

section Sampling

variable [Number V] [Cell S V] {cells : Raster S}

/-- The sample of a cell is what is read at the points in the cell. -/
theorem Fits.get?_samples (h : other.Fits cells) (hcells : other.cells = .resident cells) {i j : ℕ}
    (hi : i < other.rows) (hj : j < other.cols) {x y : ℚ} (hrow : other.rowAt y = i)
    (hcol : other.colAt x = j) :
    (cells.map other.sample).get? i j = some (other.sampleAt x y) := by
  have hrows := h.rows
  have hcols := h.cols
  have hcell := cells.get?_eq_get (by omega : i < cells.rows) (by omega : j < cells.cols)
  unfold sampleAt
  rw [cellAt?_of_resident hcells, hrow, hcol, Raster.at?_natCast, Raster.get?_map, hcell]
  rfl

/-- With cells larger than twice the tolerance, what is read of a grid at the cells of another one
is what lies under their middles, whether the two count as of one geometry or not. -/
theorem Consistent.exists_operandSamples (h : grid.Consistent) (hother : other.Consistent)
    (hwide : 2 / 10000 < other.cellWidth) (hhigh : 2 / 10000 < other.cellHeight) :
    ∃ samples, grid.operandSamples (.grid other) = .ok (.inr samples) ∧ grid.Fits samples ∧
      ∀ i j : ℕ, i < grid.rows → j < grid.cols →
        samples.get? i j = some (other.sampleAt (grid.colMiddle j) (grid.rowMiddle i)) := by
  by_cases hsame : grid.sameGeometry other
  · obtain ⟨hrows, hcols⟩ := eq_of_sameGeometry hsame
    obtain ⟨cells, hcells, hfits⟩ := hother.isShaped
    have hagrees := agrees_of_sameGeometry hsame
    refine ⟨_, operandSamples_of_sameGeometry hsame hcells, (hfits.map _).of_sameGeometry hsame,
      fun i j hi hj => ?_⟩
    exact hfits.get?_samples hcells (hrows ▸ hi) (hcols ▸ hj)
      (h.rowAt_rowMiddle hother hrows hagrees hhigh hi)
      (h.colAt_colMiddle hother hcols hagrees hwide hj)
  · obtain ⟨samples, hsamples, hfits, hget⟩ := hother.isShaped.exists_sampleOnto h.isShaped
    exact ⟨samples, operandSamples_of_not_sameGeometry hsame hsamples, hfits, hget⟩

/-- Where two grids count as of one geometry, the cells are taken as they are. Sampling reads the
same in every cell whose middle lies in the same row and column of the other grid, and so in all
cells if those of the other grid are larger than twice the tolerance. -/
theorem Consistent.exists_direct (h : grid.Consistent) (hother : other.Consistent)
    (hsame : grid.sameGeometry other) :
    ∃ direct sampled, grid.operandSamples (.grid other) = .ok (.inr direct) ∧
      other.samples = .ok direct ∧ other.sampleOnto grid = .ok sampled ∧
      grid.Fits direct ∧ grid.Fits sampled ∧
      (∀ i j : ℕ, i < grid.rows → j < grid.cols → other.rowAt (grid.rowMiddle i) = i →
        other.colAt (grid.colMiddle j) = j → sampled.get? i j = direct.get? i j) ∧
      (2 / 10000 < other.cellWidth → 2 / 10000 < other.cellHeight →
        ∀ i j : ℕ, sampled.get? i j = direct.get? i j) := by
  obtain ⟨hrows, hcols⟩ := eq_of_sameGeometry hsame
  have hagrees := agrees_of_sameGeometry hsame
  obtain ⟨cells, hcells, hfits⟩ := hother.isShaped
  obtain ⟨sampled, hsampled, hshape, hget⟩ := hother.isShaped.exists_sampleOnto h.isShaped
  have hdirect : grid.Fits (cells.map other.sample) := (hfits.map _).of_sameGeometry hsame
  have hcell (i j : ℕ) (hi : i < grid.rows) (hj : j < grid.cols)
      (hrow : other.rowAt (grid.rowMiddle i) = i) (hcol : other.colAt (grid.colMiddle j) = j) :
      sampled.get? i j = (cells.map other.sample).get? i j := by
    rw [hget i j hi hj, hfits.get?_samples hcells (hrows ▸ hi) (hcols ▸ hj) hrow hcol]
  refine ⟨_, sampled, operandSamples_of_sameGeometry hsame hcells, samples_of_resident hcells,
    hsampled, hdirect, hshape, hcell, fun hwide hhigh i j => ?_⟩
  by_cases hwithin : (i : ℤ) < grid.rows ∧ (j : ℤ) < grid.cols
  · exact hcell i j hwithin.1 hwithin.2
      (h.rowAt_rowMiddle hother hrows hagrees hhigh hwithin.1)
      (h.colAt_colMiddle hother hcols hagrees hwide hwithin.2)
  · rw [hshape.get?_eq_none hwithin, hdirect.get?_eq_none hwithin]

end Sampling

theorem sameGeometry_pair {left right : ℚ} (h : |left - right| ≤ 1 / 10000) (size : ℚ)
    (a b c d : Float32) : (pair left size a b).sameGeometry (pair right size c d) := by
  have hend : |(left + 2 * size) - (right + 2 * size)| ≤ 1 / 10000 := by
    rwa [add_sub_add_right_eq_sub]
  have hagrees : (pair left size a b).extent.agrees (pair right size c d).extent := by
    rw [Extent.agrees_iff]
    refine ⟨h, ?_, hend, ?_⟩ <;> norm_num [pair]
  exact sameGeometry_of_agrees rfl rfl rfl rfl hagrees

/-- Two grids of unit cells, the second of which lies a little further to the right. -/
theorem exists_direct_pair : ∃ direct sampled,
    (pair 0 1 1 1).Consistent ∧ (pair (1 / 16384) 1 5 7).Consistent ∧
      (pair 0 1 1 1).sameGeometry (pair (1 / 16384) 1 5 7) ∧
      (pair 0 1 1 1).operandSamples (.grid (pair (1 / 16384) 1 5 7)) = .ok (.inr direct) ∧
      (pair (1 / 16384) 1 5 7).sampleOnto (pair 0 1 1 1) = .ok sampled ∧
      ∀ i j : ℕ, sampled.get? i j = direct.get? i j := by
  have hgrid := consistent_pair 0 1 1 1
  have hother := consistent_pair (1 / 16384) 1 5 7
  have hsame : (pair 0 1 1 1).sameGeometry (pair (1 / 16384) 1 5 7) :=
    sameGeometry_pair (by norm_num) 1 1 1 5 7
  obtain ⟨direct, sampled, hdirect, -, hsampled, -, -, -, hcells⟩ :=
    hgrid.exists_direct hother hsame
  exact ⟨direct, sampled, hgrid, hother, hsame, hdirect, hsampled,
    hcells (by norm_num [pair]) (by norm_num [pair])⟩

/-- With cells below the tolerance a grid that lies one cell further to the right counts as of the
same geometry: its first cell is read where sampling finds no data. -/
theorem shifted_cells_differ : ∃ direct sampled first second,
    (pair 0 (1 / 16384) 1 1).Consistent ∧ (pair (1 / 16384) (1 / 16384) 5 7).Consistent ∧
      (pair 0 (1 / 16384) 1 1).sameGeometry (pair (1 / 16384) (1 / 16384) 5 7) ∧
      (pair 0 (1 / 16384) 1 1).operandSamples (.grid (pair (1 / 16384) (1 / 16384) 5 7)) =
        .ok (.inr direct) ∧
      (pair (1 / 16384) (1 / 16384) 5 7).sampleOnto (pair 0 (1 / 16384) 1 1) = .ok sampled ∧
      direct.get? 0 0 = some first ∧ first.value = 5 ∧ first.isNodata = false ∧
      sampled.get? 0 0 = some second ∧ second.isNodata = true := by
  have hgrid := consistent_pair 0 (1 / 16384) 1 1
  have hother := consistent_pair (1 / 16384) (1 / 16384) 5 7
  have hsame : (pair 0 (1 / 16384) 1 1).sameGeometry (pair (1 / 16384) (1 / 16384) 5 7) :=
    sameGeometry_pair (by norm_num) (1 / 16384) 1 1 5 7
  obtain ⟨sampled, hsampled, -, hget⟩ := hother.isShaped.exists_sampleOnto hgrid.isShaped
  have hnone : (pair (1 / 16384) (1 / 16384) 5 7).cellAt?
      ((pair 0 (1 / 16384) 1 1).colMiddle 0) ((pair 0 (1 / 16384) 1 1).rowMiddle 0) = none := by
    rw [← Option.not_isSome_iff_eq_none,
      hother.isSome_cellAt?_iff (by norm_num [pair]) (by norm_num [pair])]
    exact fun hholds => absurd hholds.left (by norm_num [pair, colMiddle, middle_eq])
  have hsecond := hget 0 0 (by decide) (by decide)
  unfold sampleAt at hsecond
  rw [hnone] at hsecond
  have hfive : ((pair (1 / 16384) (1 / 16384) 5 7).sample (5 : Float32)).value = (5 : Float) ∧
      ((pair (1 / 16384) (1 / 16384) 5 7).sample (5 : Float32)).isNodata = false := by
    decide +kernel
  let cells : Raster Float32 := .ofFn 1 2 fun _ j => if j.val = 0 then 5 else 7
  have hdirect := operandSamples_of_sameGeometry hsame (rfl : _ = Residence.resident cells)
  have hcell : cells.get? 0 0 = some 5 := rfl
  have hfirst := Raster.get?_map (pair (1 / 16384) (1 / 16384) 5 7).sample cells 0 0
  rw [hcell] at hfirst
  exact ⟨_, sampled, _, _, hgrid, hother, hsame, hdirect, hsampled, hfirst, hfive.1, hfive.2,
    hsecond, rfl⟩

end Grid

end MapAlgebra
