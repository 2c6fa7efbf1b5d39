import MapAlgebra.Proofs.Coarsening
import MapAlgebra.Proofs.Resampling

/-!
# Refined and coarsened again

A grid of square cells is refined into blocks: each cell becomes as many rows as columns of copies.
Coarsened to the size that the cells had, the copies of a cell are the group of one new cell, in the
place that the cell had. All aggregates but the sum give the cell back, and cells without data are
left without.
-/

namespace MapAlgebra

variable {V S : Type}

namespace Raster

/-- Rows and columns that are counted as one number are those of one cell. -/
theorem index_inj {cols i j r c : ℕ} (hj : j < cols) (hc : c < cols)
    (h : i * cols + j = r * cols + c) : i = r ∧ j = c := by
  have hcols : 0 < cols := by omega
  have hdiv {a b : ℕ} (hb : b < cols) : (a * cols + b) / cols = a := by
    rw [Nat.mul_comm, Nat.mul_add_div hcols, Nat.div_eq_of_lt hb, Nat.add_zero]
  have hrow : i = r := by rw [← hdiv (a := i) hj, h, hdiv hc]
  subst hrow
  exact ⟨rfl, by omega⟩

/-- A raster that has each cell of another one as a block of copies. -/
structure IsBlocksOf (fine cells : Raster S) (k : ℕ) : Prop where
  rows : fine.rows = cells.rows * k
  cols : fine.cols = cells.cols * k
  get? : ∀ i j, i < fine.rows → j < fine.cols → fine.get? i j = cells.get? (i / k) (j / k)

/-- A cell of a block is the cell that the block is of. -/
theorem IsBlocksOf.get_eq {fine cells : Raster S} {k : ℕ} (h : fine.IsBlocksOf cells k)
    {i : Fin fine.rows} {j : Fin fine.cols} {r : Fin cells.rows} {c : Fin cells.cols}
    (hr : i / k = r.val) (hc : j / k = c.val) : fine.get i j = cells.get r c := by
  have hget := h.get? i j i.isLt j.isLt
  rw [hr, hc, fine.get?_eq_get i.isLt j.isLt, cells.get?_eq_get r.isLt c.isLt] at hget
  exact Option.some.inj hget

end Raster

namespace Grid

/-- The middle of a part of a cell, counted in whole cells. -/
theorem floor_block (i : ℕ) {k : ℕ} (hk : 0 < k) {size : ℚ} (hsize : 0 < size) :
    ⌊((i : ℚ) + 1 / 2) * (size / k) / size⌋ = (i / k : ℕ) := by
  have hpos : (0 : ℚ) < k := by exact_mod_cast hk
  have hquotient : ((i : ℚ) + 1 / 2) * (size / k) / size = (i + 1 / 2) / k := by
    field_simp
  have hlow : ((i / k : ℕ) : ℚ) * k ≤ i := by exact_mod_cast Nat.div_mul_le_self i k
  have hhigh : (i : ℚ) + 1 ≤ ((i / k : ℕ) + 1) * k := by
    exact_mod_cast (Nat.div_lt_iff_lt_mul hk).mp (Nat.lt_succ_self (i / k))
  rw [hquotient, Int.floor_eq_iff, le_div_iff₀ hpos, div_lt_iff₀ hpos, Int.cast_natCast]
  constructor <;> linarith

/-- The sides of a consistent grid of square cells are as long as its rows and columns. -/
theorem Consistent.sides_of_square {grid : Grid ℚ V S} {cells : Raster S} {size : ℚ}
    (h : grid.Consistent) (hfits : grid.Fits cells) (hwidth : grid.cellWidth = size)
    (hheight : grid.cellHeight = size) :
    grid.extent.width = cells.cols * size ∧ grid.extent.height = cells.rows * size := by
  have hcols : (grid.cols : ℚ) = cells.cols := by rw [← hfits.cols, Int.cast_natCast]
  have hrows : (grid.rows : ℚ) = cells.rows := by rw [← hfits.rows, Int.cast_natCast]
  rw [← hcols, ← hrows, ← hwidth]
  exact ⟨sub_eq_of_eq_add' h.right, hwidth ▸ hheight ▸ sub_eq_of_eq_add' h.upper⟩

section Refining

variable [Number V] [Cell S V] [Conversion ℚ V] {grid : Grid ℚ V S} {cells : Raster S}
variable {size : ℚ} {k : ℕ}

omit [Conversion ℚ V] in
/-- Without a substitute, exact cells are what they were when they are read and kept again. -/
theorem restated_of_exact (exact : Exact V S) (hplain : grid.substitute = none) (cell : S) :
    grid.restated cell = cell := by
  unfold restated
  rw [sample_of_plain hplain]
  dsimp only
  split
  next hnodata => exact exact.narrow_eq_of_holdsNodata hnodata
  next => exact exact.narrow_widen cell

omit [Number V] [Cell S V] [Conversion ℚ V] in
/-- A row of parts is read in the row of the cells that the parts are of. -/
theorem rowOver_block {target : Grid ℚ V S} (hextent : target.extent = grid.extent)
    (htarget : target.cellHeight = size / k) (hheight : grid.cellHeight = size) (hsize : 0 < size)
    (hk : 0 < k) (i : ℕ) : grid.rowOver target i = (i / k : ℕ) := by
  unfold rowOver
  rw [hextent, htarget, hheight, sub_sub_cancel, middle_eq]
  exact floor_block i hk hsize

omit [Number V] [Cell S V] [Conversion ℚ V] in
/-- A column of parts is read in the column of the cells that the parts are of. -/
theorem colOver_block {target : Grid ℚ V S} (hextent : target.extent = grid.extent)
    (htarget : target.cellWidth = size / k) (hwidth : grid.cellWidth = size) (hsize : 0 < size)
    (hk : 0 < k) (j : ℕ) : grid.colOver target j = (j / k : ℕ) := by
  unfold colOver
  rw [hextent, htarget, hwidth, add_sub_cancel_left, middle_eq]
  exact floor_block j hk hsize

/-- A side of whole cells has as many parts as its cells have. -/
theorem round_parts {n : ℕ} (hn : 0 < n) (hk : 0 < k) (hsize : 0 < size) :
    max 1 (Fraction.round (n * size / (size / k))) = (n * k : ℕ) := by
  have hpos : (0 : ℚ) < k := by exact_mod_cast hk
  have hparts : (n : ℚ) * size = (n * k : ℕ) * (size / k) := by
    push_cast
    field_simp
  rw [hparts, max_one_round_eq (Nat.mul_pos hn hk) (div_pos hsize hpos)]

/-- A grid of square cells is refined into blocks by reading it in the geometry of the parts. -/
theorem refine_block_eq (hacross : grid.extent.width = cells.cols * size)
    (hdown : grid.extent.height = cells.rows * size) (hrows : 0 < cells.rows)
    (hcols : 0 < cells.cols) (hk : 0 < k) (hsize : 0 < size) :
    grid.refine (size / k) .block = (of grid.extent (size / k) (size / k) grid.nodata
      (.fill (cells.rows * k) (cells.cols * k) (Cell.narrow Number.zero)) grid.name >>=
        fun template => grid.sampleTo template >>= fun sampled =>
          pure { sampled with top := grid.top, bottom := grid.bottom }) := by
  have hne : size / k ≠ 0 := (div_pos hsize (by exact_mod_cast hk)).ne'
  unfold refine
  rw [Fraction.ratio_eq hne, Fraction.ratio_eq hne, hacross, hdown,
    ← Int.toNat_natCast (cells.rows * k), ← Int.toNat_natCast (cells.cols * k),
    ← round_parts hrows hk hsize, ← round_parts hcols hk hsize]
  rfl

/-- A consistent grid of square cells is refined into blocks. -/
theorem Consistent.exists_refine (h : grid.Consistent) (exact : Exact V S)
    (hcells : grid.cells = .resident cells) (hplain : grid.substitute = none) (hsize : 0 < size)
    (hwidth : grid.cellWidth = size) (hheight : grid.cellHeight = size) (hrows : 0 < grid.rows)
    (hcols : 0 < grid.cols) (hk : 0 < k) :
    ∃ refined fine, grid.refine (size / k) .block = .ok refined ∧
      refined.extent = grid.extent ∧ refined.cellWidth = size / k ∧ refined.cellHeight = size / k ∧
      refined.nodata = grid.nodata ∧ refined.cells = .resident fine ∧ refined.Fits fine ∧
      fine.IsBlocksOf cells k := by
  have hfits : grid.Fits cells := h.isShaped.values _ (values_eq_ok_iff.mpr hcells)
  have hcellRows := hfits.rows
  have hcellCols := hfits.cols
  have hpos : 0 < size / k := div_pos hsize (by exact_mod_cast hk)
  obtain ⟨hacross, hdown⟩ := h.sides_of_square hfits hwidth hheight
  -- the grid in whose geometry the cells are read
  obtain ⟨template, htemplate, hplace, htemplateWidth, htemplateHeight, htemplateRows,
    htemplateCols, hshaped⟩ : ∃ template : Grid ℚ V S,
      of grid.extent (size / k) (size / k) grid.nodata (.fill (cells.rows * k) (cells.cols * k)
        (Cell.narrow Number.zero)) grid.name = .ok template ∧ template.extent = grid.extent ∧
      template.cellWidth = size / k ∧ template.cellHeight = size / k ∧
      template.rows = (cells.rows * k : ℕ) ∧ template.cols = (cells.cols * k : ℕ) ∧
      template.IsShaped := by
    unfold of
    exact ⟨_, if_neg (not_le.mpr hpos), rfl, rfl, rfl, rfl, rfl, _, rfl, rfl, rfl⟩
  obtain ⟨sampled, fine, hsampled, hmatches, hnodata, hfine, hfineFits, hget⟩ :=
    exists_sampleTo_over hcells hfits hshaped (by rw [htemplateWidth]; exact not_le.mpr hpos)
  have hrefine : grid.refine (size / k) .block =
      .ok { sampled with top := grid.top, bottom := grid.bottom } := by
    rw [refine_block_eq hacross hdown (by omega) (by omega) hk hsize, htemplate]
    show (grid.sampleTo template >>= _) = _
    rw [hsampled]
    rfl
  have hfineRows : fine.rows = cells.rows * k := by
    exact_mod_cast hfineFits.rows.trans htemplateRows
  have hfineCols : fine.cols = cells.cols * k := by
    exact_mod_cast hfineFits.cols.trans htemplateCols
  refine ⟨_, fine, hrefine, hmatches.extent.trans hplace, hmatches.cellWidth.trans htemplateWidth,
    hmatches.cellHeight.trans htemplateHeight, hnodata, hfine,
    ⟨hfineFits.rows.trans hmatches.rows.symm, hfineFits.cols.trans hmatches.cols.symm⟩, hfineRows,
    hfineCols, fun i j hi hj => ?_⟩
  rw [hget i j (by rw [htemplateRows, ← hfineRows]; exact_mod_cast hi)
    (by rw [htemplateCols, ← hfineCols]; exact_mod_cast hj),
    rowOver_block hplace htemplateHeight hheight hsize hk,
    colOver_block hplace htemplateWidth hwidth hsize hk, Raster.at?_natCast]
  rw [hfineRows] at hi
  rw [hfineCols] at hj
  rw [cells.get?_eq_get ((Nat.div_lt_iff_lt_mul hk).mpr hi) ((Nat.div_lt_iff_lt_mul hk).mpr hj)]
  exact congrArg some (restated_of_exact exact hplain _)

end Refining

section Coarsening

variable [Number V] [Cell S V] {refined : Grid ℚ V S} {cells fine : Raster S}
variable {size : ℚ} {k : ℕ} {aggregate : Aggregate}

/-- A distance of whole cells is covered by as many larger cells of their size. -/
theorem coarseCells_mul {n : ℕ} (hn : 0 < n) (hsize : 0 < size) :
    coarseCells (n * size) size = n := by
  have hceil : ⌈(n : ℚ) - 1 / 10000⌉ = n := by
    rw [Int.ceil_eq_iff, Int.cast_natCast]
    constructor <;> linarith
  unfold coarseCells
  rw [mul_div_cancel_right₀ _ hsize.ne', hceil]
  omega

omit [Number V] [Cell S V] in
/-- A grid whose sides are whole numbers of larger cells keeps its extent when it is coarsened. -/
theorem coarser_of_sides {rows cols : ℕ} (hrows : 0 < rows) (hcols : 0 < cols) (hsize : 0 < size)
    (hacross : refined.extent.width = cols * size) (hdown : refined.extent.height = rows * size) :
    refined.Coarser size rows cols refined.extent := by
  have hframe := refined.coarser_of_pos hsize
  rw [hdown, hacross, coarseCells_mul hrows hsize, coarseCells_mul hcols hsize, ← hdown,
    ← hacross] at hframe
  have hbox : (⟨refined.extent.xll, refined.extent.yur - refined.extent.height,
      refined.extent.xll + refined.extent.width, refined.extent.yur⟩ : Extent ℚ) =
        refined.extent := by
    unfold Extent.width Extent.height
    rw [sub_sub_cancel, add_sub_cancel]
  rwa [hbox] at hframe

omit [Number V] [Cell S V] in
/-- The parts of a cell fall in one new cell, at the place that the cell had. -/
theorem newCell_block (hwidth : refined.cellWidth = size / k)
    (hheight : refined.cellHeight = size / k) (hsize : 0 < size) (hk : 0 < k)
    {rows cols i j : ℕ} (hi : i < rows * k) (hj : j < cols * k) :
    refined.newCell size rows cols i j = (i / k * cols + j / k : ℕ) := by
  have hi := (Nat.div_lt_iff_lt_mul hk).mpr hi
  have hj := (Nat.div_lt_iff_lt_mul hk).mpr hj
  have hrow : target refined.cellHeight size rows i = (i / k : ℕ) := by
    rw [target_eq, hheight, floor_block i hk hsize]
    omega
  have hcol : target refined.cellWidth size cols j = (j / k : ℕ) := by
    rw [target_eq, hwidth, floor_block j hk hsize]
    omega
  unfold newCell
  rw [hrow, hcol]
  push_cast
  rfl

theorem mem_grouped {K : Type} [Coordinate K] {grid : Grid K V S} {cellSize : K} {rows cols : ℕ}
    {number : ℤ} {value : V} : value ∈ grid.grouped cells cellSize rows cols aggregate number ↔
      ∃ (i : Fin cells.rows) (j : Fin cells.cols), grid.newCell cellSize rows cols i j = number ∧
        (aggregate.countsNodata ∨ ¬ holdsNodata grid.nodata (cells.get i j)) ∧
        Cell.widen (cells.get i j) = value := by
  unfold grouped
  simp only [List.mem_flatMap, List.mem_filterMap, List.mem_finRange, true_and,
    Option.ite_none_right_eq_some, Option.some.injEq, and_assoc]

/-- The group of a new cell are copies of the cell that was in its place, or nothing if that cell
holds no data and the aggregate does not count it. -/
theorem grouped_blocks (hblocks : fine.IsBlocksOf cells k) (hk : 0 < k) (hsize : 0 < size)
    (hwidth : refined.cellWidth = size / k) (hheight : refined.cellHeight = size / k)
    (r : Fin cells.rows) (c : Fin cells.cols) :
    let group := refined.grouped fine size cells.rows cells.cols aggregate (r * cells.cols + c : ℕ)
    group = List.replicate group.length (Cell.widen (cells.get r c)) ∧
      (0 < group.length ↔
        aggregate.countsNodata ∨ ¬ holdsNodata refined.nodata (cells.get r c)) := by
  intro group
  have hnew (i : Fin fine.rows) (j : Fin fine.cols) :
      refined.newCell size cells.rows cells.cols i j = (i / k * cells.cols + j / k : ℕ) :=
    newCell_block hwidth hheight hsize hk (by rw [← hblocks.rows]; exact i.isLt)
      (by rw [← hblocks.cols]; exact j.isLt)
  have hsource {i : Fin fine.rows} {j : Fin fine.cols} (hfalls : refined.newCell size cells.rows
      cells.cols i j = (r * cells.cols + c : ℕ)) : fine.get i j = cells.get r c := by
    have hj : j / k < cells.cols := (Nat.div_lt_iff_lt_mul hk).mpr (by
      rw [← hblocks.cols]
      exact j.isLt)
    rw [hnew] at hfalls
    obtain ⟨hr, hc⟩ := Raster.index_inj hj c.isLt (Int.ofNat.inj hfalls)
    exact hblocks.get_eq hr hc
  refine ⟨List.eq_replicate_iff.mpr ⟨rfl, fun value hvalue => ?_⟩, ?_⟩
  · obtain ⟨i, j, hfalls, -, rfl⟩ := mem_grouped.mp hvalue
    rw [hsource hfalls]
  · rw [List.length_pos_iff_exists_mem]
    constructor
    · rintro ⟨value, hvalue⟩
      obtain ⟨i, j, hfalls, hcounts, -⟩ := mem_grouped.mp hvalue
      rwa [hsource hfalls] at hcounts
    · intro hcounts
      -- the first part of the cell
      obtain ⟨i, hi⟩ : ∃ i : Fin fine.rows, i / k = r.val := by
        refine ⟨⟨r * k, ?_⟩, Nat.mul_div_cancel _ hk⟩
        rw [hblocks.rows]
        exact Nat.mul_lt_mul_of_pos_right r.isLt hk
      obtain ⟨j, hj⟩ : ∃ j : Fin fine.cols, j / k = c.val := by
        refine ⟨⟨c * k, ?_⟩, Nat.mul_div_cancel _ hk⟩
        rw [hblocks.cols]
        exact Nat.mul_lt_mul_of_pos_right c.isLt hk
      have hfalls : refined.newCell size cells.rows cells.cols i j =
          (r * cells.cols + c : ℕ) := by
        rw [hnew, hi, hj]
      refine ⟨_, mem_grouped.mpr ⟨i, j, hfalls, ?_, rfl⟩⟩
      rwa [hsource hfalls]

/-- Each new cell gets the cell back that was in its place. -/
theorem aggregated_blocks (exact : Exact V S) (hblocks : fine.IsBlocksOf cells k) (hk : 0 < k)
    (hsize : 0 < size) (hwidth : refined.cellWidth = size / k)
    (hheight : refined.cellHeight = size / k) (haggregate : aggregate ≠ .sum)
    (r : Fin cells.rows) (c : Fin cells.cols) :
    (Cell.narrow (refined.aggregated fine size cells.rows cells.cols aggregate
      (r * cells.cols + c : ℕ)) : S) = cells.get r c := by
  obtain ⟨hcopies, hcounts⟩ := grouped_blocks hblocks hk hsize hwidth hheight r c
  by_cases hempty : refined.grouped fine size cells.rows cells.cols aggregate
      (r * cells.cols + c : ℕ) = []
  · have hnodata : holdsNodata refined.nodata (cells.get r c) := by
      by_contra hdata
      exact absurd (hcounts.mpr (.inr hdata)) (by rw [hempty]; exact lt_irrefl 0)
    rw [aggregated_of_eq_nil hempty]
    exact exact.narrow_eq_of_holdsNodata hnodata
  · rw [aggregated_of_ne_nil hempty, hcopies,
      exact.apply_replicate haggregate (List.length_pos_iff.mpr hempty), exact.narrow_widen]

variable [Conversion ℚ V] {grid : Grid ℚ V S}

/-- A consistent grid of square cells that is refined into blocks and coarsened to the size of its
cells, by any aggregate but the sum, has its place, its NoData value and its cells back. -/
theorem Consistent.exists_restored (h : grid.Consistent) (exact : Exact V S)
    (hcells : grid.cells = .resident cells) (hplain : grid.substitute = none) (hsize : 0 < size)
    (hwidth : grid.cellWidth = size) (hheight : grid.cellHeight = size) (hrows : 0 < grid.rows)
    (hcols : 0 < grid.cols) (hk : 0 < k) (haggregate : aggregate ≠ .sum) :
    ∃ refined result out, grid.refine (size / k) .block = .ok refined ∧
      refined.coarsen size aggregate = .ok result ∧ grid.Matches result ∧
      result.nodata = grid.nodata ∧ result.cells = .resident out ∧
      ∀ i j, out.get? i j = cells.get? i j := by
  have hfits : grid.Fits cells := h.isShaped.values _ (values_eq_ok_iff.mpr hcells)
  have hcellRows := hfits.rows
  have hcellCols := hfits.cols
  obtain ⟨refined, fine, hrefined, hextent, hrefinedWidth, hrefinedHeight, hnodata, hfine,
    hfineFits, hblocks⟩ :=
    h.exists_refine exact hcells hplain hsize hwidth hheight hrows hcols hk
  obtain ⟨hacross, hdown⟩ := h.sides_of_square hfits hwidth hheight
  rw [← hextent] at hacross hdown
  have hframe := coarser_of_sides (by omega) (by omega) hsize hacross hdown
  rw [hextent] at hframe
  obtain ⟨result, out, hresult, hplace, hresultWidth, hresultHeight, hresultNodata, hout, houtFits,
    houtRows, houtCols, hget⟩ := hframe.exists_coarsen hfine hfineFits
      (fun i j => hframe.newCell_nonneg (by rw [hrefinedWidth]; positivity)
        (by rw [hrefinedHeight]; positivity) i j) aggregate
  refine ⟨refined, result, out, hrefined, hresult, ?_, hresultNodata.trans hnodata, hout, ?_⟩
  · have hresultRows : result.rows = grid.rows := by rw [← houtFits.rows, houtRows, hcellRows]
    have hresultCols : result.cols = grid.cols := by rw [← houtFits.cols, houtCols, hcellCols]
    exact ⟨⟨out, hout, houtFits⟩, hresultRows, hresultCols, hplace, hresultWidth.trans hwidth.symm,
      hresultHeight.trans hheight.symm⟩
  · intro i j
    by_cases hwithin : i < cells.rows ∧ j < cells.cols
    · rw [hget i j hwithin.1 hwithin.2, cells.get?_eq_get hwithin.1 hwithin.2]
      exact congrArg some (aggregated_blocks exact hblocks hk hsize hrefinedWidth hrefinedHeight
        haggregate ⟨i, hwithin.1⟩ ⟨j, hwithin.2⟩)
    · rw [cells.get?_eq_none hwithin, out.get?_eq_none (by rw [houtRows, houtCols]; exact hwithin)]

/-- One, and no data beside it, come back from four parts of each by their means. -/
theorem exists_restored_couple : ∃ refined result out,
    (couple 1 (-9999)).Consistent ∧ (couple 1 (-9999)).substitute = none ∧
      (couple 1 (-9999)).refine (1 / (2 : ℕ)) .block = .ok refined ∧
      refined.coarsen 1 .mean = .ok result ∧ (couple 1 (-9999)).Matches result ∧
      result.nodata = -9999 ∧ result.cells = .resident out ∧ out.get? 0 0 = some 1 ∧
      out.get? 0 1 = some (-9999) := by
  have hconsistent : (couple 1 (-9999)).Consistent := by
    refine ⟨⟨_, rfl, rfl, rfl⟩, ?_, ?_⟩
    · show (2 : ℚ) = 0 + ((2 : ℤ) : ℚ) * 1
      norm_num
    · show (1 : ℚ) = 0 + ((1 : ℤ) : ℚ) * 1
      norm_num
  obtain ⟨refined, result, out, hrefined, hresult, hmatches, hnodata, hout, hget⟩ :=
    hconsistent.exists_restored Fraction.exact rfl rfl one_pos rfl rfl (by decide) (by decide)
      Nat.two_pos (nofun : Aggregate.mean ≠ .sum)
  exact ⟨refined, result, out, hconsistent, rfl, hrefined, hresult, hmatches, hnodata, hout,
    hget 0 0, hget 0 1⟩

end Coarsening

end Grid

end MapAlgebra
