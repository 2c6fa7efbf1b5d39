import MapAlgebra.Proofs.Placements

/-!
# How far a grid reaches that was brought to an extent

Grids grow and are cut by whole cells, where a small part of a cell does not count, and extents are
compared up to the tolerance. A grid that is brought to an extent may therefore miss a strip of it
on each side. The strips are no wider than the slack of the cells, and an extent that is longer than
twice the slack leaves no window empty.
-/

namespace MapAlgebra

/-- The first extent reaches the sides of the second one but for a strip. -/
structure Extent.Reaches (outer : Extent ℚ) (across down : ℚ) (inner : Extent ℚ) : Prop where
  left : outer.xll ≤ inner.xll + across
  lower : outer.yll ≤ inner.yll + down
  right : inner.xur ≤ outer.xur + across
  upper : inner.yur ≤ outer.yur + down

theorem Extent.Reaches.mono {outer inner : Extent ℚ} {across down wider higher : ℚ}
    (h : outer.Reaches across down inner) (hacross : across ≤ wider) (hdown : down ≤ higher) :
    outer.Reaches wider higher inner where
  left := h.left.trans (by linarith)
  lower := h.lower.trans (by linarith)
  right := h.right.trans (by linarith)
  upper := h.upper.trans (by linarith)

theorem Extent.reaches_of_contains {outer inner : Extent ℚ} (h : outer.contains inner) :
    outer.Reaches (1 / 10000) (1 / 10000) inner := by
  obtain ⟨hleft, hlower, hright, hupper⟩ := Extent.contains_iff.mp h
  exact ⟨by linarith, by linarith, hright, hupper⟩

theorem Extent.reaches_of_agrees {a b : Extent ℚ} (h : a.agrees b) :
    a.Reaches (1 / 10000) (1 / 10000) b := by
  obtain ⟨hxll, hyll, hxur, hyur⟩ := Extent.agrees_iff.mp h
  rw [abs_le] at hxll hyll hxur hyur
  exact ⟨by linarith, by linarith, by linarith, by linarith⟩

namespace Grid

variable {V S : Type}

/-- As many cells as are added cover a distance but for a part of a cell. -/
theorem sub_le_ceil_mul (distance : ℚ) {size : ℚ} (hsize : 0 < size) :
    distance - size / 10000 ≤ ⌈distance / size - 1 / 10000⌉ * size := by
  have hpart : (distance / size - 1 / 10000) * size = distance - size / 10000 := by
    rw [sub_mul, div_mul_cancel₀ _ hsize.ne']
    ring
  rw [← hpart]
  exact mul_le_mul_of_nonneg_right (Int.le_ceil _) hsize.le

/-- As many cells as are skipped lie within a distance but for a part of a cell. -/
theorem floor_mul_le_add (distance : ℚ) {size : ℚ} (hsize : 0 < size) :
    ⌊distance / size + 1 / 10000⌋ * size ≤ distance + size / 10000 := by
  have hpart : (distance / size + 1 / 10000) * size = distance + size / 10000 := by
    rw [add_mul, div_mul_cancel₀ _ hsize.ne']
    ring
  rw [← hpart]
  exact mul_le_mul_of_nonneg_right (Int.floor_le _) hsize.le

/-- The cells from the first to the last that an extent covers on one axis, which starts `near` and
ends `far` from the side of a grid: there are some if the extent is longer than twice the slack. -/
theorem cells_between (near far : ℚ) {size slack : ℚ} (count : ℤ) (hsize : 0 < size)
    (hslack : size / 10000 ≤ slack) (hnear : -slack ≤ near) (hfar : far - slack ≤ count * size)
    (hlong : 2 * slack < far - near) :
    max 0 ⌊near / size + 1 / 10000⌋ < min count ⌈far / size - 1 / 10000⌉ ∧
      ((max 0 ⌊near / size + 1 / 10000⌋ : ℤ) : ℚ) * size ≤ near + slack ∧
      far - slack ≤ ((min count ⌈far / size - 1 / 10000⌉ : ℤ) : ℚ) * size := by
  have hfirst : ((max 0 ⌊near / size + 1 / 10000⌋ : ℤ) : ℚ) * size ≤ near + slack := by
    rw [cast_max_zero_mul _ hsize]
    exact max_le (by linarith) (by linarith [floor_mul_le_add near hsize])
  have hlast : far - slack ≤ ((min count ⌈far / size - 1 / 10000⌉ : ℤ) : ℚ) * size := by
    rw [Int.cast_min, min_mul_of_nonneg _ _ hsize.le]
    exact le_min hfar (by linarith [sub_le_ceil_mul far hsize])
  refine ⟨?_, hfirst, hlast⟩
  have hscaled := lt_of_le_of_lt hfirst (lt_of_lt_of_le (by linarith) hlast)
  exact_mod_cast lt_of_mul_lt_mul_right hscaled hsize.le

variable {grid : Grid ℚ V S} {target : Extent ℚ}

/-- Cut to an extent, a grid has a window or no cell at all. -/
theorem Consistent.exists_clip_eq_ok (h : grid.Consistent) (hwidth : 0 < grid.cellWidth)
    (hheight : 0 < grid.cellHeight) (target : Extent ℚ) :
    ∃ found, grid.clip target = .ok found := by
  obtain ⟨cells, hcells, -⟩ := h.isShaped
  exact ⟨_, clip_eq hcells hwidth hheight target (firstCell_eq_floor _ hwidth.ne')
    (cellsOver_eq_ceil _ hwidth.ne') (firstCell_eq_floor _ hheight.ne')
    (cellsOver_eq_ceil _ hheight.ne')⟩

/-- Cut to an extent that it reaches, a grid reaches the extent still, and has a window if the
extent is longer than twice the slack. -/
theorem Consistent.exists_clip (h : grid.Consistent) (hwidth : 0 < grid.cellWidth)
    (hheight : 0 < grid.cellHeight) {across down : ℚ} (hacross : grid.cellWidth / 10000 ≤ across)
    (hdown : grid.cellHeight / 10000 ≤ down) (hreaches : grid.extent.Reaches across down target)
    (hwide : 2 * across < target.width) (hhigh : 2 * down < target.height) :
    ∃ cut, grid.clip target = .ok (some cut) ∧ cut.extent.Reaches across down target ∧
      grid.extent.Encloses cut.extent := by
  obtain ⟨cells, hcells, -⟩ := h.isShaped
  have hright := h.right
  have hupper := h.upper
  have hlong : target.width = target.xur - target.xll := rfl
  have htall : target.height = target.yur - target.yll := rfl
  obtain ⟨hcols, hleft', hright'⟩ := cells_between
    (target.xll - grid.extent.xll) (target.xur - grid.extent.xll) grid.cols hwidth hacross
    (by linarith [hreaches.left]) (by linarith [hreaches.right]) (by linarith)
  obtain ⟨hrows, htop', hbottom'⟩ := cells_between
    (grid.extent.yur - target.yur) (grid.extent.yur - target.yll) grid.rows hheight hdown
    (by linarith [hreaches.upper]) (by linarith [hreaches.lower]) (by linarith)
  have hclip := clip_eq hcells hwidth hheight target (firstCell_eq_floor _ hwidth.ne')
    (cellsOver_eq_ceil _ hwidth.ne') (firstCell_eq_floor _ hheight.ne')
    (cellsOver_eq_ceil _ hheight.ne')
  rw [if_neg (by omega)] at hclip
  have hstart {n : ℤ} {size : ℚ} (hsize : 0 < size) : 0 ≤ ((max 0 n : ℤ) : ℚ) * size :=
    mul_nonneg (by exact_mod_cast le_max_left 0 n) hsize.le
  have hend {m n : ℤ} {size : ℚ} (hsize : 0 < size) : ((min m n : ℤ) : ℚ) * size ≤ m * size :=
    mul_le_mul_of_nonneg_right (by exact_mod_cast min_le_left m n) hsize.le
  refine ⟨_, hclip, ⟨?_, ?_, ?_, ?_⟩, ?_, ?_, ?_, ?_⟩
  · linarith
  · linarith
  · linarith
  · linarith
  · exact le_add_of_nonneg_right (hstart hwidth)
  · linarith [hend (m := grid.rows) (n := ⌈(grid.extent.yur - target.yll) / grid.cellHeight -
      1 / 10000⌉) hheight]
  · linarith [hend (m := grid.cols) (n := ⌈(target.xur - grid.extent.xll) / grid.cellWidth -
      1 / 10000⌉) hwidth]
  · exact sub_le_self _ (hstart hheight)

section Enlarging

variable [Cell S V]

/-- Enlarged for an extent, a grid reaches it but for a part of a cell. -/
theorem Consistent.exists_enlarge (h : grid.Consistent) (hwidth : 0 < grid.cellWidth)
    (hheight : 0 < grid.cellHeight) (target : Extent ℚ) :
    ∃ grown, grid.enlarge target = .ok grown ∧
      grown.extent.Reaches (grid.cellWidth / 10000) (grid.cellHeight / 10000) target := by
  obtain ⟨cells, hcells, -⟩ := h.isShaped
  have hcover (distance : ℚ) {size : ℚ} (hsize : 0 < size) : distance - size / 10000 ≤
      ((max 0 ⌈distance / size - 1 / 10000⌉ : ℤ) : ℚ) * size := by
    rw [cast_max_zero_mul _ hsize]
    exact (sub_le_ceil_mul distance hsize).trans (le_max_right ..)
  refine ⟨_, h.enlarge_eq hcells hwidth hheight (cellsOver_eq_ceil _ hwidth.ne')
    (cellsOver_eq_ceil _ hwidth.ne') (cellsOver_eq_ceil _ hheight.ne')
    (cellsOver_eq_ceil _ hheight.ne'), ?_, ?_, ?_, ?_⟩
  · linarith [hcover (grid.extent.xll - target.xll) hwidth]
  · linarith [hcover (grid.extent.yll - target.yll) hheight]
  · linarith [hcover (target.xur - grid.extent.xur) hwidth]
  · linarith [hcover (target.yur - grid.extent.yur) hheight]

end Enlarging

/-- How wide the strips are at most that a grid misses of an extent: the tolerance, or as small a
part of a cell if that is larger. -/
def slack (size : ℚ) : ℚ :=
  max 1 size / 10000

theorem tolerance_le_slack (size : ℚ) : 1 / 10000 ≤ slack size :=
  div_le_div_of_nonneg_right (le_max_left ..) (by norm_num)

theorem part_le_slack (size : ℚ) : size / 10000 ≤ slack size :=
  div_le_div_of_nonneg_right (le_max_right ..) (by norm_num)

/-- An extent is longer than twice the slack of the cells of a grid, in both directions. -/
structure Spans (target : Extent ℚ) (grid : Grid ℚ V S) : Prop where
  wide : 2 * slack grid.cellWidth < target.width
  high : 2 * slack grid.cellHeight < target.height

theorem Spans.isEmpty (h : Spans target grid) : target.isEmpty = false := by
  refine Extent.isEmpty_eq_false_iff.mpr ⟨?_, ?_⟩
  · linarith [h.wide, tolerance_le_slack grid.cellWidth]
  · linarith [h.high, tolerance_le_slack grid.cellHeight]

section Bringing

variable [Number V] [Cell S V] {brought : Grid ℚ V S}

/-- A grid around an extent in place of another one: it shows that one and reaches the extent. -/
structure Surrounds (brought : Grid ℚ V S) (target : Extent ℚ) (grid : Grid ℚ V S) : Prop where
  shows : brought.Shows grid
  reaches : brought.extent.Reaches (slack grid.cellWidth) (slack grid.cellHeight) target

/-- What becomes of a grid that is brought to an extent: a grid around the extent, unless the extent
is too short. -/
structure Becomes (grid : Grid ℚ V S) (target : Extent ℚ) (brought : Grid ℚ V S) : Prop where
  consistent : brought.Consistent
  cellWidth : brought.cellWidth = grid.cellWidth
  cellHeight : brought.cellHeight = grid.cellHeight ∨ brought.cellHeight = grid.cellWidth
  surrounds : Spans target grid → brought.Surrounds target grid

theorem Surrounds.becomes (h : brought.Surrounds target grid) (hbrought : brought.Consistent) :
    grid.Becomes target brought :=
  ⟨hbrought, h.shows.cellWidth, .inl h.shows.cellHeight, fun _ => h⟩

/-- A single square cell stands in for a grid that leaves no window. -/
theorem Consistent.exists_standIn (h : grid.Consistent) (hwidth : 0 < grid.cellWidth)
    (hnone : target.isEmpty ∨ grid.clip target = .ok none) :
    ∃ made, made.Consistent ∧ made.cellWidth = grid.cellWidth ∧
      made.cellHeight = grid.cellWidth ∧
      Traced.Logs (fun _ => True) (· = made) (grid.clipOrDummy target) := by
  let size := grid.cellWidth
  have hbox : Extent.of target.xll target.yll (target.xll + size) (target.yll + size) = .ok _ :=
    Extent.of_eq_ok (le_add_of_nonneg_right hwidth.le) (le_add_of_nonneg_right hwidth.le)
  obtain ⟨made, hmade, hmadeWidth, hmadeHeight⟩ : ∃ made : Grid ℚ V S,
      of ⟨target.xll, target.yll, target.xll + size, target.yll + size⟩ size size grid.nodata
        (.fill 1 1 (Cell.narrow Number.one)) grid.name = .ok made ∧
      made.cellWidth = size ∧ made.cellHeight = size :=
    ⟨_, of_eq_ok hwidth _ _ _ _ _ _ _, rfl, rfl⟩
  have hsole : Traced.Logs (fun _ => True) (· = made) (grid.soleCell target) :=
    .record_bind trivial (.lift_bind hbox (.lift hmade rfl))
  have hlogs : Traced.Logs (fun _ => True) (· = made) (grid.clipOrDummy target) := by
    rw [clipOrDummy_eq]
    split
    next => exact hsole
    next hempty => exact .lift_bind (hnone.resolve_left hempty) hsole
  exact ⟨made, hlogs.of_gives (consistent_clipOrDummy h.isShaped target), hmadeWidth, hmadeHeight,
    hlogs⟩

/-- A grid around an extent is cut to one, or a single cell stands in for it. -/
theorem Surrounds.exists_clipOrDummy (h : brought.Surrounds target grid)
    (hbrought : brought.Consistent) (hwidth : 0 < grid.cellWidth) (hheight : 0 < grid.cellHeight) :
    ∃ cut, grid.Becomes target cut ∧
      Traced.Logs (fun _ => True) (· = cut) (brought.clipOrDummy target) := by
  have hcellWidth := h.shows.cellWidth
  have hcellHeight := h.shows.cellHeight
  have hwidth' : 0 < brought.cellWidth := hcellWidth ▸ hwidth
  have hheight' : 0 < brought.cellHeight := hcellHeight ▸ hheight
  by_cases hspans : Spans target grid
  · obtain ⟨cut, hclip, hreaches, hinside⟩ := hbrought.exists_clip hwidth' hheight'
      (hcellWidth ▸ part_le_slack _) (hcellHeight ▸ part_le_slack _) h.reaches hspans.wide
      hspans.high
    have hlogs : Traced.Logs (fun _ => True) (· = cut) (brought.clipOrDummy target) :=
      logs_clipOrDummy hspans.isEmpty hclip rfl
    have hcut : cut.Consistent := consistent_clip hbrought.isShaped target _ hclip cut rfl
    have hwindow : cut.Shows brought :=
      hbrought.shows_clip hwidth' hheight' target _ hclip cut rfl hcut
    have hshows : cut.Shows grid := hwindow.trans h.shows fun x y => hinside.holds
    exact ⟨cut, Surrounds.becomes ⟨hshows, hreaches⟩ hcut, hlogs⟩
  obtain ⟨found, hclip⟩ := hbrought.exists_clip_eq_ok hwidth' hheight' target
  by_cases hnone : target.isEmpty ∨ found = none
  · obtain ⟨made, hmade, hmadeWidth, hmadeHeight, hlogs⟩ :=
      hbrought.exists_standIn hwidth' (hnone.imp_right fun hfound => hfound ▸ hclip)
    exact ⟨made, ⟨hmade, hmadeWidth.trans hcellWidth, .inr (hmadeHeight.trans hcellWidth),
      fun hlong => absurd hlong hspans⟩, hlogs⟩
  · rw [not_or, Bool.not_eq_true] at hnone
    obtain ⟨cut, rfl⟩ := Option.ne_none_iff_exists'.mp hnone.2
    have hcut : cut.Consistent := consistent_clip hbrought.isShaped target _ hclip cut rfl
    have hwindow : cut.Shows brought :=
      hbrought.shows_clip hwidth' hheight' target _ hclip cut rfl hcut
    exact ⟨cut, ⟨hcut, hwindow.cellWidth.trans hcellWidth,
      .inl (hwindow.cellHeight.trans hcellHeight), fun hlong => absurd hlong hspans⟩,
      logs_clipOrDummy hnone.1 hclip rfl⟩

/-- Brought to any extent, a grid becomes one around it, unless the extent is too short. -/
theorem Consistent.exists_becomes (h : grid.Consistent) (hwidth : 0 < grid.cellWidth)
    (hheight : 0 < grid.cellHeight) (target : Extent ℚ) :
    ∃ brought, grid.Becomes target brought ∧ ∀ label,
      Traced.Logs (fun _ => True) (· = brought) (grid.reconcile target label) := by
  have hself := h.shows_self hwidth hheight
  -- the grid before it is cut
  obtain ⟨grown, hgrown, hsurrounds, hcontains, henlarge⟩ : ∃ grown : Grid ℚ V S,
      grown.Consistent ∧ grown.Surrounds target grid ∧
        (grid.extent.contains target → grown = grid) ∧
        (¬ grid.extent.contains target → grid.enlarge target = .ok grown) := by
    by_cases hcontains : grid.extent.contains target
    · have hreaches := (Extent.reaches_of_contains hcontains).mono
        (tolerance_le_slack grid.cellWidth) (tolerance_le_slack grid.cellHeight)
      exact ⟨grid, h, ⟨hself, hreaches⟩, fun _ => rfl, fun hnot => absurd hcontains hnot⟩
    · obtain ⟨grown, henlarge, hreaches⟩ := h.exists_enlarge hwidth hheight target
      have hgrown := consistent_enlarge h target grown henlarge
      have hshows := h.shows_enlarge hwidth hheight target grown henlarge hgrown
      exact ⟨grown, hgrown, ⟨hshows, hreaches.mono (part_le_slack _) (part_le_slack _)⟩,
        fun hcontained => absurd hcontained hcontains, fun _ => henlarge⟩
  refine exists_reconciled (fun _ => trivial) (fun hagrees => ?_) hcontains henlarge
    (fun _ => hsurrounds.becomes hgrown) fun _ =>
      hsurrounds.exists_clipOrDummy hgrown hwidth hheight
  exact Surrounds.becomes ⟨hself, (Extent.reaches_of_agrees hagrees).mono (tolerance_le_slack _)
    (tolerance_le_slack _)⟩ h

end Bringing

end Grid

end MapAlgebra
