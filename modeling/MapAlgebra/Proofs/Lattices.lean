import MapAlgebra.Proofs.Overlays

/-!
# Grids on a lattice

The lines between the cells of a grid are part of a lattice. When cells are larger than the
tolerance, an extent with its sides on the lines is either that of the grid or whole cells away from
it, and a grid that is enlarged and cut for it has this extent exactly.
-/

namespace MapAlgebra

/-- A coordinate is that of a line, a whole number of steps of a size from an origin. -/
def OnLine (origin size x : ℚ) : Prop :=
  ∃ n : ℤ, x = origin + n * size

namespace OnLine

variable {origin size x y : ℚ}

theorem refl (origin size : ℚ) : OnLine origin size origin :=
  ⟨0, by rw [Int.cast_zero, zero_mul, add_zero]⟩

theorem sub (hx : OnLine origin size x) (hy : OnLine origin size y) :
    ∃ n : ℤ, x - y = n * size := by
  obtain ⟨n, rfl⟩ := hx
  obtain ⟨m, rfl⟩ := hy
  exact ⟨n - m, by push_cast; ring⟩

/-- The same lines, counted from another one of them. -/
theorem from_line (hx : OnLine origin size x) (hy : OnLine origin size y) : OnLine y size x := by
  obtain ⟨n, hn⟩ := hx.sub hy
  exact ⟨n, by linarith⟩

theorem min (hx : OnLine origin size x) (hy : OnLine origin size y) :
    OnLine origin size (min x y) := by
  rcases min_choice x y with h | h <;> rwa [h]

theorem max (hx : OnLine origin size x) (hy : OnLine origin size y) :
    OnLine origin size (max x y) := by
  rcases max_choice x y with h | h <;> rwa [h]

/-- The tolerance makes no difference to the order of lines that are farther apart. -/
theorem le_of_sub_le (hx : OnLine origin size x) (hy : OnLine origin size y)
    (hsize : 1 / 10000 < size) (h : x - 1 / 10000 ≤ y) : x ≤ y := by
  obtain ⟨n, hn⟩ := hx.sub hy
  have hstep : (n : ℚ) * size < 1 * size := by linarith
  have hn0 : n ≤ 0 := by
    have hlt : (n : ℚ) < 1 := lt_of_mul_lt_mul_right hstep (by linarith)
    have hlt' : n < 1 := by exact_mod_cast hlt
    omega
  have hle : (n : ℚ) * size ≤ 0 :=
    mul_nonpos_of_nonpos_of_nonneg (by exact_mod_cast hn0) (by linarith)
  linarith

theorem exists_nat_of_le (hx : OnLine origin size x) (hy : OnLine origin size y) (hsize : 0 < size)
    (h : y ≤ x) : ∃ n : ℕ, x - y = n * size := by
  obtain ⟨n, hn⟩ := hx.sub hy
  have hnonneg : (0 : ℚ) ≤ n := by
    refine nonneg_of_mul_nonneg_left ?_ hsize
    linarith
  obtain ⟨count, rfl⟩ := Int.eq_ofNat_of_zero_le (by exact_mod_cast hnonneg : 0 ≤ n)
  exact ⟨count, by exact_mod_cast hn⟩

theorem eq_of_abs_sub_le (hx : OnLine origin size x) (hy : OnLine origin size y)
    (hsize : 1 / 10000 < size) (h : |x - y| ≤ 1 / 10000) : x = y := by
  obtain ⟨hlower, hupper⟩ := abs_le.mp h
  exact le_antisymm (hx.le_of_sub_le hy hsize (by linarith))
    (hy.le_of_sub_le hx hsize (by linarith))

end OnLine

/-- The lines between cells of one size, in both directions. -/
structure CellLattice where
  x : ℚ
  y : ℚ
  width : ℚ
  height : ℚ

namespace Extent

variable {a b c : Extent ℚ} {lattice : CellLattice}

/-- All sides are on lines of a lattice. -/
structure On (extent : Extent ℚ) (lattice : CellLattice) : Prop where
  left : OnLine lattice.x lattice.width extent.xll
  lower : OnLine lattice.y lattice.height extent.yll
  right : OnLine lattice.x lattice.width extent.xur
  upper : OnLine lattice.y lattice.height extent.yur

/-- The second extent lies in the first one, without a tolerance. -/
structure Encloses (outer inner : Extent ℚ) : Prop where
  left : outer.xll ≤ inner.xll
  lower : outer.yll ≤ inner.yll
  right : inner.xur ≤ outer.xur
  upper : inner.yur ≤ outer.yur

theorem union_eq (a b : Extent ℚ) : a.union b =
    ⟨min a.xll b.xll, min a.yll b.yll, max a.xur b.xur, max a.yur b.yur⟩ := by
  have hleast (x y : ℚ) : Coordinate.least x y = min x y := by
    rw [min_comm, min_def_lt]
    rfl
  have hgreatest (x y : ℚ) : Coordinate.greatest x y = max x y := by
    rw [max_def_lt]
    rfl
  unfold union
  simp only [hleast, hgreatest]

namespace Encloses

theorem refl (extent : Extent ℚ) : extent.Encloses extent :=
  ⟨le_rfl, le_rfl, le_rfl, le_rfl⟩

theorem trans (h : a.Encloses b) (h' : b.Encloses c) : a.Encloses c :=
  ⟨h.left.trans h'.left, h.lower.trans h'.lower, h'.right.trans h.right, h'.upper.trans h.upper⟩

theorem antisymm (h : a.Encloses b) (h' : b.Encloses a) : a = b := by
  obtain ⟨xll, yll, xur, yur⟩ := a
  obtain ⟨xll', yll', xur', yur'⟩ := b
  rw [Extent.mk.injEq]
  exact ⟨h.left.antisymm h'.left, h.lower.antisymm h'.lower, h'.right.antisymm h.right,
    h'.upper.antisymm h.upper⟩

theorem union_eq_left (h : a.Encloses b) : a.union b = a := by
  rw [union_eq, min_eq_left h.left, min_eq_left h.lower, max_eq_left h.right, max_eq_left h.upper]

theorem union_eq_right (h : a.Encloses b) : b.union a = a := by
  rw [union_eq, min_eq_right h.left, min_eq_right h.lower, max_eq_right h.right,
    max_eq_right h.upper]

end Encloses

theorem encloses_union_left (a b : Extent ℚ) : (a.union b).Encloses a := by
  rw [union_eq]
  exact ⟨min_le_left .., min_le_left .., le_max_left .., le_max_left ..⟩

theorem encloses_union_right (a b : Extent ℚ) : (a.union b).Encloses b := by
  rw [union_eq]
  exact ⟨min_le_right .., min_le_right .., le_max_right .., le_max_right ..⟩

namespace On

theorem union (ha : a.On lattice) (hb : b.On lattice) : (a.union b).On lattice := by
  rw [union_eq]
  exact ⟨ha.left.min hb.left, ha.lower.min hb.lower, ha.right.max hb.right, ha.upper.max hb.upper⟩

/-- The tolerance makes no difference to whether one extent on wide lines contains another one. -/
theorem contains_iff (ha : a.On lattice) (hb : b.On lattice) (hwidth : 1 / 10000 < lattice.width)
    (hheight : 1 / 10000 < lattice.height) : a.contains b ↔ a.Encloses b := by
  rw [Extent.contains_iff]
  constructor
  · rintro ⟨hleft, hlower, hright, hupper⟩
    exact ⟨ha.left.le_of_sub_le hb.left hwidth hleft, ha.lower.le_of_sub_le hb.lower hheight hlower,
      hb.right.le_of_sub_le ha.right hwidth (by linarith),
      hb.upper.le_of_sub_le ha.upper hheight (by linarith)⟩
  · rintro ⟨hleft, hlower, hright, hupper⟩
    exact ⟨by linarith, by linarith, by linarith, by linarith⟩

theorem eq_of_agrees (ha : a.On lattice) (hb : b.On lattice) (hwidth : 1 / 10000 < lattice.width)
    (hheight : 1 / 10000 < lattice.height) (h : a.agrees b) : a = b := by
  obtain ⟨hxll, hyll, hxur, hyur⟩ := Extent.agrees_iff.mp h
  obtain ⟨xll, yll, xur, yur⟩ := a
  obtain ⟨xll', yll', xur', yur'⟩ := b
  rw [Extent.mk.injEq]
  exact ⟨ha.left.eq_of_abs_sub_le hb.left hwidth hxll,
    ha.lower.eq_of_abs_sub_le hb.lower hheight hyll,
    ha.right.eq_of_abs_sub_le hb.right hwidth hxur, ha.upper.eq_of_abs_sub_le hb.upper hheight hyur⟩

end On

end Extent

namespace Grid

variable {V S : Type} {grid other : Grid ℚ V S} {extent target : Extent ℚ}

/-- The lattice of the cells of a grid. -/
def lattice (grid : Grid ℚ V S) : CellLattice :=
  ⟨grid.extent.xll, grid.extent.yll, grid.cellWidth, grid.cellHeight⟩

variable {lattice : CellLattice}

/-- A consistent grid in cells that are larger than the tolerance. -/
structure Regular (grid : Grid ℚ V S) : Prop where
  consistent : grid.Consistent
  wide : 1 / 10000 < grid.cellWidth
  high : 1 / 10000 < grid.cellHeight

/-- The cells of a grid are cells of a lattice. -/
structure LiesOn (grid : Grid ℚ V S) (lattice : CellLattice) : Prop where
  extent : grid.extent.On lattice
  width : grid.cellWidth = lattice.width
  height : grid.cellHeight = lattice.height

namespace Regular

theorem width_pos (h : grid.Regular) : 0 < grid.cellWidth :=
  lt_trans (by norm_num) h.wide

theorem height_pos (h : grid.Regular) : 0 < grid.cellHeight :=
  lt_trans (by norm_num) h.high

theorem liesOn (h : grid.Regular) : grid.LiesOn grid.lattice where
  extent := ⟨.refl _ _, .refl _ _, ⟨_, h.consistent.right⟩, ⟨_, h.consistent.upper⟩⟩
  width := rfl
  height := rfl

theorem of_matches (h : grid.Regular) (hother : grid.Matches other) : other.Regular where
  consistent := h.consistent.of_matches hother
  wide := hother.cellWidth ▸ h.wide
  high := hother.cellHeight ▸ h.high

end Regular

/-- What lies on the lattice of a grid lies on the lines that are counted from the grid. -/
theorem LiesOn.on (h : grid.LiesOn lattice) (hon : extent.On lattice) :
    extent.On grid.lattice := by
  obtain ⟨hgrid, hwidth, hheight⟩ := h
  have hlattice : grid.lattice =
      ⟨grid.extent.xll, grid.extent.yll, lattice.width, lattice.height⟩ := by
    unfold Grid.lattice
    rw [hwidth, hheight]
  rw [hlattice]
  exact ⟨hon.left.from_line hgrid.left, hon.lower.from_line hgrid.lower,
    hon.right.from_line hgrid.left, hon.upper.from_line hgrid.lower⟩

/-- A grid is made of cells and a positive cell width. -/
theorem of_eq_ok {cellWidth : ℚ} (hwidth : 0 < cellWidth) (extent : Extent ℚ) (cellHeight : ℚ)
    (nodata : V) (cells : Raster S) (name : Text) (top bottom : Option V) :
    of extent cellWidth cellHeight nodata cells name top bottom = .ok
      { extent, cellWidth, cellHeight, nodata, name := if name.isEmpty then defaultName else name,
        top, bottom, rows := cells.rows, cols := cells.cols, cells := .resident cells } := by
  refine if_neg ?_
  show ¬ cellWidth ≤ ((0 : ℤ) : ℚ)
  rw [Int.cast_zero]
  exact not_le.mpr hwidth

theorem cast_max_zero_mul (n : ℤ) {size : ℚ} (hsize : 0 < size) :
    ((max 0 n : ℤ) : ℚ) * size = max 0 (n * size) := by
  rw [Int.cast_max, Int.cast_zero, max_mul_of_nonneg _ _ hsize.le, zero_mul]

namespace Regular

/-- Enlarged for an extent on its lattice, a grid has the least extent around both. -/
theorem exists_enlarge [Number V] [Cell S V] (h : grid.Regular) (hon : target.On grid.lattice) :
    ∃ grown, grid.enlarge target = .ok grown ∧ grown.Regular ∧ grown.LiesOn grid.lattice ∧
      grown.extent = grid.extent.union target := by
  obtain ⟨cells, hcells, -⟩ := h.consistent.isShaped
  have hself := h.liesOn.extent
  have hwidth := h.width_pos
  have hheight := h.height_pos
  obtain ⟨left, hleft⟩ : ∃ n : ℤ, grid.extent.xll - target.xll = n * grid.cellWidth :=
    hself.left.sub hon.left
  obtain ⟨right, hright⟩ : ∃ n : ℤ, target.xur - grid.extent.xur = n * grid.cellWidth :=
    hon.right.sub hself.right
  obtain ⟨top, htop⟩ : ∃ n : ℤ, target.yur - grid.extent.yur = n * grid.cellHeight :=
    hon.upper.sub hself.upper
  obtain ⟨bottom, hbottom⟩ : ∃ n : ℤ, grid.extent.yll - target.yll = n * grid.cellHeight :=
    hself.lower.sub hon.lower
  have hlow (x y : ℚ) : x - max 0 (x - y) = min x y := by
    rw [← min_sub_sub_left, sub_zero, sub_sub_cancel]
  have hhigh (x y : ℚ) : x + max 0 (y - x) = max x y := by
    rw [← max_add_add_left, add_zero, add_sub_cancel]
  have hboxed : (⟨grid.extent.xll - (max 0 left : ℤ) * grid.cellWidth,
      grid.extent.yll - (max 0 bottom : ℤ) * grid.cellHeight,
      grid.extent.xur + (max 0 right : ℤ) * grid.cellWidth,
      grid.extent.yur + (max 0 top : ℤ) * grid.cellHeight⟩ : Extent ℚ) =
        grid.extent.union target := by
    rw [cast_max_zero_mul _ hwidth, cast_max_zero_mul _ hwidth, cast_max_zero_mul _ hheight,
      cast_max_zero_mul _ hheight, ← hleft, ← hright, ← htop, ← hbottom, hlow, hlow, hhigh, hhigh,
      Extent.union_eq]
  have hgrown := h.consistent.enlarge_eq hcells hwidth hheight (hleft ▸ cellsOver_eq left hwidth)
    (hright ▸ cellsOver_eq right hwidth) (htop ▸ cellsOver_eq top hheight)
    (hbottom ▸ cellsOver_eq bottom hheight)
  rw [hboxed] at hgrown
  exact ⟨_, hgrown, ⟨consistent_enlarge h.consistent target _ hgrown, h.wide, h.high⟩,
    ⟨hself.union hon, rfl, rfl⟩, rfl⟩

/-- An extent on its lattice inside a grid is cut out exactly. -/
theorem exists_clip (h : grid.Regular) (hon : target.On grid.lattice)
    (hinside : grid.extent.Encloses target) (hx : target.xll < target.xur)
    (hy : target.yll < target.yur) :
    ∃ cut, grid.clip target = .ok (some cut) ∧ cut.Regular ∧ cut.extent = target := by
  obtain ⟨cells, hcells, -⟩ := h.consistent.isShaped
  have hself := h.liesOn.extent
  have hwidth := h.width_pos
  have hheight := h.height_pos
  obtain ⟨left, hleft⟩ : ∃ n : ℕ, target.xll - grid.extent.xll = n * grid.cellWidth :=
    hon.left.exists_nat_of_le hself.left hwidth hinside.left
  obtain ⟨top, htop⟩ : ∃ n : ℕ, grid.extent.yur - target.yur = n * grid.cellHeight :=
    hself.upper.exists_nat_of_le hon.upper hheight hinside.upper
  obtain ⟨right, hright⟩ : ∃ n : ℤ, target.xur - grid.extent.xll = n * grid.cellWidth :=
    hon.right.sub hself.left
  obtain ⟨bottom, hbottom⟩ : ∃ n : ℤ, grid.extent.yur - target.yll = n * grid.cellHeight :=
    hself.upper.sub hon.lower
  have hcount {m n : ℤ} {size : ℚ} (hsize : 0 < size) (hmn : m * size ≤ n * size) : m ≤ n := by
    exact_mod_cast le_of_mul_le_mul_right hmn hsize
  have hcountlt {m n : ℤ} {size : ℚ} (hsize : 0 < size) (hmn : m * size < n * size) : m < n := by
    exact_mod_cast lt_of_mul_lt_mul_right hmn hsize.le
  have hacross : (left : ℤ) < right := hcountlt hwidth (by push_cast; linarith)
  have hdown : (top : ℤ) < bottom := hcountlt hheight (by push_cast; linarith)
  have hcols : right ≤ grid.cols := by
    have hwhole := h.consistent.right
    exact hcount hwidth (by linarith [hinside.right])
  have hrows : bottom ≤ grid.rows := by
    have hwhole := h.consistent.upper
    exact hcount hheight (by linarith [hinside.lower])
  have hcut := clip_eq_window hcells hwidth hheight hleft hright htop hbottom hacross hdown hcols
    hrows
  exact ⟨_, hcut, ⟨consistent_clip h.consistent.isShaped _ _ hcut _ rfl, h.wide, h.high⟩, rfl⟩

variable [Number V] [Cell S V]

/-- The single cell that stands in for a grid is a square of the grid's cell width. -/
theorem succeeds_soleCell (h : grid.Regular) (target : Extent ℚ) :
    Traced.Succeeds Grid.Regular (grid.soleCell target) := by
  have hwidth := h.width_pos
  unfold soleCell
  refine .bind (.record _ _) fun _ _ => ?_
  refine .lift_bind (Extent.of_eq_ok (le_add_of_nonneg_right hwidth.le)
    (le_add_of_nonneg_right hwidth.le)) ?_
  refine .lift (of_eq_ok hwidth _ _ _ _ _ _ _) ⟨⟨⟨_, rfl, rfl, rfl⟩, ?_, ?_⟩, h.wide, h.wide⟩
  · show target.xll + grid.cellWidth = target.xll + ((1 : ℕ) : ℚ) * grid.cellWidth
    rw [Nat.cast_one, one_mul]
  · show target.yll + grid.cellWidth = target.yll + ((1 : ℕ) : ℚ) * grid.cellWidth
    rw [Nat.cast_one, one_mul]

/-- Cut to an extent on its lattice, a grid has it exactly, unless the extent counts as empty. -/
theorem succeeds_clipOrDummy (h : grid.Regular) (hon : target.On grid.lattice)
    (hinside : grid.extent.Encloses target) :
    Traced.Succeeds (fun cut => cut.Regular ∧ (target.isEmpty = false → cut.extent = target))
      (grid.clipOrDummy target) := by
  rw [clipOrDummy_eq]
  cases hempty : target.isEmpty with
  | false =>
      obtain ⟨hlong, hhigh⟩ := Extent.isEmpty_eq_false_iff.mp hempty
      have hx : target.xll < target.xur := sub_pos.mp (lt_trans (by norm_num) hlong)
      have hy : target.yll < target.yur := sub_pos.mp (lt_trans (by norm_num) hhigh)
      obtain ⟨cut, hcut, hregular, hextent⟩ := h.exists_clip hon hinside hx hy
      rw [if_neg Bool.false_ne_true]
      exact .lift_bind hcut (.pure ⟨hregular, fun _ => hextent⟩)
  | true =>
      rw [if_pos rfl]
      exact (h.succeeds_soleCell target).mono fun cut hcut => ⟨hcut, nofun⟩

/-- Brought to an extent on its lattice, a grid has it exactly, unless the extent counts as empty
and does not go around the grid. -/
theorem succeeds_reconcile (h : grid.Regular) (hon : target.On grid.lattice) (label : String) :
    Traced.Succeeds (fun brought => brought.Regular ∧
        (target.isEmpty = false ∨ target.Encloses grid.extent → brought.extent = target))
      (grid.reconcile target label) := by
  -- what is cut last goes around both extents
  have hcut (grown : Grid ℚ V S) (hgrown : grown.Regular) (hlies : grown.LiesOn grid.lattice)
      (hunion : grown.extent = grid.extent.union target) :
      Traced.Succeeds (fun brought => brought.Regular ∧
          (target.isEmpty = false ∨ target.Encloses grid.extent → brought.extent = target))
        (grown.cutTo target label) := by
    have haround : grown.extent.Encloses target := hunion ▸ Extent.encloses_union_right ..
    have hcontains := hon.contains_iff hlies.extent h.wide h.high
    unfold cutTo
    split
    next hinside =>
      exact .pure ⟨hgrown, fun _ => haround.antisymm (hcontains.mp hinside)⟩
    next houtside =>
      refine .bind (.record _ _) fun _ _ => ?_
      refine (hgrown.succeeds_clipOrDummy (hlies.on hon) haround).mono fun cut hcut => ⟨hcut.1, ?_⟩
      rintro (hempty | henclosed)
      · exact hcut.2 hempty
      · refine absurd (hcontains.mpr ?_) houtside
        rw [hunion, henclosed.union_eq_right]
        exact .refl _
  rw [reconcile_eq]
  split
  next hagrees =>
    exact .pure ⟨h, fun _ => h.liesOn.extent.eq_of_agrees hon h.wide h.high hagrees⟩
  next =>
    split
    next hcontains =>
      have haround := (h.liesOn.extent.contains_iff hon h.wide h.high).mp hcontains
      exact hcut grid h h.liesOn haround.union_eq_left.symm
    next =>
      obtain ⟨grown, henlarge, hgrown, hlies, hunion⟩ := h.exists_enlarge hon
      exact .bind (.record _ _) fun _ _ => .lift_bind henlarge (hcut grown hgrown hlies hunion)

end Regular

end Grid

end MapAlgebra
