import MapAlgebra.Proofs.Fractions
import MapAlgebra.Proofs.Shapes

/-!
# Grids that keep their geometry in step

A grid says three times how large it is: by its extent, by its cell size with the numbers of rows
and columns, and by its cells. Operations change these on their own, and a file keeps only one
corner, the cell size and the cells.
-/

namespace MapAlgebra

variable {α V S : Type}

theorem Gives.number {p : α → Prop} {outcome : Except NumberFault α}
    (h : ∀ a, outcome = .ok a → p a) : Gives p (liftM outcome : Except Fault α) := by
  intro a ha
  cases outcome with
  | error fault => cases ha
  | ok found =>
      cases ha
      exact h _ rfl

theorem Extent.gives_of (xll yll xur yur : ℚ) :
    Gives (· = ⟨xll, yll, xur, yur⟩) (Extent.of xll yll xur yur) := by
  unfold Extent.of
  split
  next => exact .throw _
  next => exact .pure rfl

theorem Extent.of_eq_ok {xll yll xur yur : ℚ} (hx : xll ≤ xur) (hy : yll ≤ yur) :
    Extent.of xll yll xur yur = .ok ⟨xll, yll, xur, yur⟩ := by
  unfold Extent.of
  rw [if_neg]
  simpa using And.intro (not_lt.mpr hx) (not_lt.mpr hy)

theorem Fraction.gives_ratio (a b : ℚ) :
    Gives (· = a / b) (liftM (Coordinate.ratio a b) : Except Fault ℚ) := by
  refine .number fun q hq => ?_
  unfold Coordinate.ratio at hq
  split at hq
  next => cases hq
  next => exact (Except.ok.inj hq).symm

theorem Fraction.gives_round (x : ℚ) :
    Gives (· = Fraction.round x) (liftM (Coordinate.round x) : Except Fault Int) :=
  .number fun _ h => (Except.ok.inj h).symm

/-- Whole numbers of square cells of a size fill the extent. -/
def Extent.HoldsWholeCells (extent : Extent ℚ) (cellSize : ℚ) : Prop :=
  ∃ cols rows : ℕ, 0 < cols ∧ 0 < rows ∧
    extent.width = cols * cellSize ∧ extent.height = rows * cellSize

namespace Grid

/-- A grid whose cells have its shape and whose extent is that of its rows and columns. -/
structure Consistent (grid : Grid ℚ V S) : Prop where
  isShaped : grid.IsShaped
  right : grid.extent.xur = grid.extent.xll + grid.cols * grid.cellWidth
  upper : grid.extent.yur = grid.extent.yll + grid.rows * grid.cellHeight

section Consistency

variable {grid : Grid ℚ V S}

theorem Consistent.of_matches {target : Grid ℚ V S} (h : target.Consistent)
    (hgrid : target.Matches grid) : grid.Consistent where
  isShaped := hgrid.isShaped
  right := by rw [hgrid.extent, hgrid.cols, hgrid.cellWidth, h.right]
  upper := by rw [hgrid.extent, hgrid.rows, hgrid.cellHeight, h.upper]

theorem Consistent.ordered (h : grid.Consistent) (hwidth : 0 ≤ grid.cellWidth)
    (hheight : 0 ≤ grid.cellHeight) :
    grid.extent.xll ≤ grid.extent.xur ∧ grid.extent.yll ≤ grid.extent.yur := by
  obtain ⟨cells, -, hrows, hcols⟩ := h.isShaped
  rw [h.right, h.upper, ← hrows, ← hcols]
  constructor
  · exact le_add_of_nonneg_right (by positivity)
  · exact le_add_of_nonneg_right (by positivity)

/-- A grid with cells of its own is consistent if its extent is that of the cells. -/
theorem consistent_of {extent : Extent ℚ} {cellWidth cellHeight : ℚ} {cells : Raster S}
    (hright : extent.xur = extent.xll + cells.cols * cellWidth)
    (hupper : extent.yur = extent.yll + cells.rows * cellHeight) (nodata : V) (name : Text)
    (top bottom : Option V) : Gives Grid.Consistent
      (of extent cellWidth cellHeight nodata cells name top bottom) := by
  unfold of
  split
  next => exact .throw _
  next => exact .pure ⟨⟨cells, rfl, rfl, rfl⟩, hright, hupper⟩

/-- Other cells in the place of those of a grid, over an extent that is theirs. -/
theorem consistent_derive {extent : Extent ℚ} {cells : Raster S}
    (hright : extent.xur = extent.xll + cells.cols * grid.cellWidth)
    (hupper : extent.yur = extent.yll + cells.rows * grid.cellHeight) :
    Consistent { grid.derive cells with extent } :=
  ⟨⟨cells, rfl, rfl, rfl⟩, hright, hupper⟩

theorem nonneg_firstCell (distance size : ℚ) : Gives (0 ≤ ·) (firstCell distance size) :=
  .last fun _ => .last fun _ => .pure (le_max_left ..)

theorem Fits.cast_window {cells : Raster S} (h : grid.Fits cells) {top bottom left right : Int}
    (htop : 0 ≤ top) (hrows : top < min grid.rows bottom) (hleft : 0 ≤ left)
    (hcols : left < min grid.cols right) :
    (((cells.window top.toNat (min grid.rows bottom).toNat left.toNat
        (min grid.cols right).toNat).rows : ℕ) : ℚ) = ((min grid.rows bottom : ℤ) : ℚ) - top ∧
      (((cells.window top.toNat (min grid.rows bottom).toNat left.toNat
        (min grid.cols right).toNat).cols : ℕ) : ℚ) = ((min grid.cols right : ℤ) : ℚ) - left := by
  obtain ⟨hheight, hwidth⟩ := h
  constructor
  · rw [← Int.cast_sub, ← Int.cast_natCast, Int.cast_inj]
    simp only [Raster.window, Raster.rows_ofFn]
    omega
  · rw [← Int.cast_sub, ← Int.cast_natCast, Int.cast_inj]
    simp only [Raster.window, Raster.cols_ofFn]
    omega

/-- A window of a grid is consistent, as its sides are counted from the lower left corner of the
grid and from the upper side. -/
theorem consistent_clip (h : grid.IsShaped) (extent : Extent ℚ) :
    Gives (fun found => ∀ clipped, found = some clipped → clipped.Consistent)
      (grid.clip extent) := by
  unfold clip
  refine (nonneg_firstCell _ _).bind fun left hleft => .last fun reach =>
    (nonneg_firstCell _ _).bind fun top htop => .last fun depth => ?_
  dsimp only
  split
  next => exact .pure fun _ h => nomatch h
  next hsome =>
    simp only [Bool.or_eq_true, decide_eq_true_eq, not_or, not_le] at hsome
    refine (Extent.gives_of _ _ _ _).bind fun box hbox => h.values.bind fun cells hcells =>
      .pure fun clipped hclipped => ?_
    cases hclipped
    subst hbox
    obtain ⟨hrows, hcols⟩ := hcells.cast_window htop hsome.2 hleft hsome.1
    refine consistent_derive ?_ ?_
    · show grid.extent.xll + ((min grid.cols reach : ℤ) : ℚ) * grid.cellWidth =
        grid.extent.xll + (left : ℚ) * grid.cellWidth + _ * grid.cellWidth
      rw [hcols]
      ring
    · show grid.extent.yur - (top : ℚ) * grid.cellHeight =
        grid.extent.yur - ((min grid.rows depth : ℤ) : ℚ) * grid.cellHeight + _ * grid.cellHeight
      rw [hrows]
      ring

theorem cast_toNat_max_zero (n : ℤ) : (((max 0 n).toNat : ℕ) : ℚ) = ((max 0 n : ℤ) : ℚ) := by
  rw [← Int.cast_natCast, Int.toNat_of_nonneg (le_max_left ..)]

theorem consistent_enlarge [Number V] [Cell S V] (h : grid.Consistent) (extent : Extent ℚ) :
    Gives Grid.Consistent (grid.enlarge extent) := by
  unfold enlarge
  refine .last fun left => .last fun right => .last fun top => .last fun bottom => ?_
  refine h.isShaped.values.bind fun cells hcells =>
    (Extent.gives_of _ _ _ _).bind fun box hbox => .pure ?_
  subst hbox
  have hcols : (cells.cols : ℚ) = grid.cols := by rw [← Int.cast_natCast, hcells.cols]
  have hrows : (cells.rows : ℚ) = grid.rows := by rw [← Int.cast_natCast, hcells.rows]
  refine consistent_derive ?_ ?_
  · show grid.extent.xur + ((max 0 right : ℤ) : ℚ) * grid.cellWidth =
      grid.extent.xll - ((max 0 left : ℤ) : ℚ) * grid.cellWidth +
        (((max 0 left).toNat + cells.cols + (max 0 right).toNat : ℕ) : ℚ) * grid.cellWidth
    rw [Nat.cast_add, Nat.cast_add, cast_toNat_max_zero, cast_toNat_max_zero, hcols, h.right]
    ring
  · show grid.extent.yur + ((max 0 top : ℤ) : ℚ) * grid.cellHeight =
      grid.extent.yll - ((max 0 bottom : ℤ) : ℚ) * grid.cellHeight +
        (((max 0 top).toNat + cells.rows + (max 0 bottom).toNat : ℕ) : ℚ) * grid.cellHeight
    rw [Nat.cast_add, Nat.cast_add, cast_toNat_max_zero, cast_toNat_max_zero, hrows, h.upper]
    ring

variable [Number V] [Cell S V]

theorem consistent_boundingBox (h : grid.Consistent) :
    Gives (fun found => ∀ box, found = some box → box.Consistent) grid.boundingBox := by
  unfold boundingBox
  refine .last fun _ => ?_
  dsimp only
  split
  next => exact .last fun box => consistent_clip h.isShaped box
  next =>
    refine (matches_copy h.isShaped []).bind fun copied hcopied => .pure fun box hbox => ?_
    cases hbox
    exact h.of_matches hcopied

theorem consistent_soleCell (grid : Grid ℚ V S) (extent : Extent ℚ) :
    Traced.Gives Grid.Consistent (grid.soleCell extent) := by
  refine .last fun _ => .bind (.lift (Extent.gives_of _ _ _ _)) fun box hbox => .lift ?_
  subst hbox
  refine consistent_of ?_ ?_ _ _ _ _
  · show extent.xll + grid.cellWidth = extent.xll + ((1 : ℕ) : ℚ) * grid.cellWidth
    ring
  · show extent.yll + grid.cellWidth = extent.yll + ((1 : ℕ) : ℚ) * grid.cellWidth
    ring

/-- The single cell that stands in for an empty window is consistent as well. -/
theorem consistent_clipOrDummy (h : grid.IsShaped) (extent : Extent ℚ) :
    Traced.Gives Grid.Consistent (grid.clipOrDummy extent) :=
  gives_clipOrDummy (consistent_clip h extent) (consistent_soleCell grid extent)

theorem consistent_reconcile (h : grid.Consistent) (target : Extent ℚ) (label : String) :
    Traced.Gives Grid.Consistent (grid.reconcile target label) :=
  gives_reconcile h (consistent_enlarge h target)
    (fun _ hgrown => consistent_clipOrDummy hgrown.isShaped target) label

theorem consistent_coarsen (grid : Grid ℚ V S) (cellSize : ℚ) (aggregate : Aggregate) :
    Gives Grid.Consistent (grid.coarsen cellSize aggregate) := by
  unfold coarsen
  refine .last fun cols => .last fun rows => (Extent.gives_of _ _ _ _).bind fun box hbox =>
    .last fun cells => ?_
  subst hbox
  dsimp only
  split
  next => exact .throw _
  next values =>
    refine consistent_of rfl ?_ _ _ _ _
    show grid.extent.yur = grid.extent.yur - ((rows : ℤ) : ℚ) * cellSize + (rows : ℚ) * cellSize
    push_cast
    ring

end Consistency

section Refining

variable {grid result : Grid ℚ V S}

/-- A grid over the extent of another one, in square cells of a size. The numbers of rows and
columns are rounded. -/
structure Refines (grid : Grid ℚ V S) (cellSize : ℚ) (result : Grid ℚ V S) : Prop where
  isShaped : result.IsShaped
  extent : result.extent = grid.extent
  cellWidth : result.cellWidth = cellSize
  cellHeight : result.cellHeight = cellSize
  cols : result.cols = max 1 (Fraction.round (grid.extent.width / cellSize))
  rows : result.rows = max 1 (Fraction.round (grid.extent.height / cellSize))

theorem Refines.of_matches {cellSize : ℚ} {template : Grid ℚ V S}
    (h : grid.Refines cellSize template) (hresult : template.Matches result) :
    grid.Refines cellSize result where
  isShaped := hresult.isShaped
  extent := hresult.extent.trans h.extent
  cellWidth := hresult.cellWidth.trans h.cellWidth
  cellHeight := hresult.cellHeight.trans h.cellHeight
  cols := hresult.cols.trans h.cols
  rows := hresult.rows.trans h.rows

theorem Refines.withLevels {cellSize : ℚ} (h : grid.Refines cellSize result)
    (top bottom : Option V) : grid.Refines cellSize { result with top, bottom } where
  isShaped :=
    have ⟨cells, hcells, hfits⟩ := h.isShaped
    ⟨cells, hcells, hfits.rows, hfits.cols⟩
  extent := h.extent
  cellWidth := h.cellWidth
  cellHeight := h.cellHeight
  cols := h.cols
  rows := h.rows

theorem refines_refine [Number V] [Cell S V] [Conversion ℚ V] (grid : Grid ℚ V S) (cellSize : ℚ)
    (method : Refinement) : Gives (grid.Refines cellSize) (grid.refine cellSize method) := by
  unfold refine
  refine (Fraction.gives_ratio _ _).bind fun across hacross =>
    (Fraction.gives_round _).bind fun cols hcols =>
    (Fraction.gives_ratio _ _).bind fun down hdown =>
      (Fraction.gives_round _).bind fun rows hrows => ?_
  subst hcols hacross hrows hdown
  have hfit (n : Int) : (((max 1 n).toNat : ℕ) : ℤ) = max 1 n := by omega
  refine .bind (p := grid.Refines cellSize) ?_ fun template htemplate => ?_
  · unfold of
    split
    next => exact .throw _
    next => exact .pure ⟨⟨_, rfl, rfl, rfl⟩, rfl, rfl, rfl, hfit _, hfit _⟩
  · refine (matches_sampleTo grid template).bind fun refined hmatches => ?_
    have hrefined := htemplate.of_matches hmatches
    cases method with
    | block => exact .pure (hrefined.withLevels grid.top grid.bottom)
    | divide =>
        refine .last fun _ => hmatches.isShaped.values.bind fun cells hcells => .pure ?_
        exact (hrefined.of_matches (hcells.map _).matches_derive).withLevels grid.top grid.bottom

theorem max_one_round_eq {count : ℕ} (hcount : 0 < count) {cellSize : ℚ} (hpos : 0 < cellSize) :
    max 1 (Fraction.round (count * cellSize / cellSize)) = count := by
  rw [mul_div_cancel_right₀ _ hpos.ne', ← Int.cast_natCast, Fraction.round_intCast]
  omega

/-- A refined grid is consistent if and only if its cells fill the extent that it keeps. -/
theorem Refines.consistent_iff {cellSize : ℚ} (h : grid.Refines cellSize result)
    (hpos : 0 < cellSize) : result.Consistent ↔ grid.extent.HoldsWholeCells cellSize := by
  have hextent : result.Consistent ↔ grid.extent.width = result.cols * cellSize ∧
      grid.extent.height = result.rows * cellSize := by
    have hwidth : grid.extent.width = grid.extent.xur - grid.extent.xll := rfl
    have hheight : grid.extent.height = grid.extent.yur - grid.extent.yll := rfl
    constructor
    · rintro ⟨-, hright, hupper⟩
      rw [h.extent, h.cellWidth] at hright
      rw [h.extent, h.cellHeight] at hupper
      constructor <;> linarith
    · rintro ⟨hcols, hrows⟩
      refine ⟨h.isShaped, ?_, ?_⟩
      · rw [h.extent, h.cellWidth]
        linarith
      · rw [h.extent, h.cellHeight]
        linarith
  have hcast {count : ℤ} (hcount : 1 ≤ count) : ((count.toNat : ℕ) : ℚ) = count := by
    rw [← Int.cast_natCast, Int.toNat_of_nonneg (by omega)]
  rw [hextent]
  constructor
  · rintro ⟨hwidth, hheight⟩
    have hcols : 1 ≤ result.cols := h.cols ▸ le_max_left ..
    have hrows : 1 ≤ result.rows := h.rows ▸ le_max_left ..
    exact ⟨result.cols.toNat, result.rows.toNat, by omega, by omega, by rw [hcast hcols, hwidth],
      by rw [hcast hrows, hheight]⟩
  · rintro ⟨cols, rows, hcols, hrows, hwidth, hheight⟩
    rw [h.cols, h.rows, hwidth, hheight, max_one_round_eq hcols hpos, max_one_round_eq hrows hpos]
    exact ⟨rfl, rfl⟩

end Refining

section Making

variable [Number V] [Cell S V] [Conversion ℚ V] {grid result : Grid ℚ V S}

/-- The grids that one operation makes of a grid, of constants and of other consistent grids. -/
inductive Makes (grid : Grid ℚ V S) : Grid ℚ V S → Prop
  | apply {op : Operator} {other : Operand ℚ V S} {reverse : Bool} {result : Grid ℚ V S}
      (hother : ∀ second, other = .grid second → second.Consistent)
      (h : grid.apply op other reverse = .ok result) : Makes grid result
  | negate {result : Grid ℚ V S} (h : grid.negate = .ok result) : Makes grid result
  | clip {extent : Extent ℚ} {result : Grid ℚ V S} (h : grid.clip extent = .ok (some result)) :
      Makes grid result
  | enlarge {extent : Extent ℚ} {result : Grid ℚ V S} (h : grid.enlarge extent = .ok result) :
      Makes grid result
  | reconcile {extent : Extent ℚ} {label : String} {records : List Record} {result : Grid ℚ V S}
      (h : ((grid.reconcile extent label).run.run records).1 = .ok result) : Makes grid result
  | clipOrDummy {extent : Extent ℚ} {records : List Record} {result : Grid ℚ V S}
      (h : ((grid.clipOrDummy extent).run.run records).1 = .ok result) : Makes grid result
  | boundingBox {result : Grid ℚ V S} (h : grid.boundingBox = .ok (some result)) :
      Makes grid result
  | copy {name : Text} {result : Grid ℚ V S} (h : grid.copy name = .ok result) : Makes grid result
  | roundTo {places : Int} {result : Grid ℚ V S} (h : grid.roundTo places = .ok result) :
      Makes grid result
  | replace {mask : Grid ℚ V S} {replacement : V ⊕ Grid ℚ V S} {result : Grid ℚ V S}
      (hmask : mask.Consistent) (hother : ∀ other, replacement = .inr other → other.Consistent)
      (h : grid.replace mask replacement = .ok result) : Makes grid result
  | withNodata {nodata : V} {result : Grid ℚ V S} (h : grid.withNodata nodata = .ok result) :
      Makes grid result
  | sampleTo {target result : Grid ℚ V S} (htarget : target.Consistent)
      (h : grid.sampleTo target = .ok result) : Makes grid result
  | allocate {constant : Constant V} {result : Grid ℚ V S}
      (h : constant.allocate grid = .ok result) : Makes grid result
  | coarsen {cellSize : ℚ} {aggregate : Aggregate} {result : Grid ℚ V S}
      (h : grid.coarsen cellSize aggregate = .ok result) : Makes grid result
  | refine {cellSize : ℚ} {method : Refinement} {result : Grid ℚ V S} (hpos : 0 < cellSize)
      (hwhole : grid.extent.HoldsWholeCells cellSize)
      (h : grid.refine cellSize method = .ok result) : Makes grid result

/-- An operation keeps the geometry of a grid in step. -/
theorem Consistent.of_makes (hgrid : grid.Consistent) (hmakes : grid.Makes result) :
    result.Consistent := by
  have hshaped := hgrid.isShaped
  cases hmakes with
  | apply _ h => exact hgrid.of_matches (matches_apply _ _ _ _ _ h)
  | negate h => exact hgrid.of_matches (matches_negate hshaped _ h)
  | clip h => exact consistent_clip hshaped _ _ h _ rfl
  | enlarge h => exact consistent_enlarge hgrid _ _ h
  | reconcile h => exact consistent_reconcile hgrid _ _ _ _ h
  | clipOrDummy h => exact consistent_clipOrDummy hshaped _ _ _ h
  | boundingBox h => exact consistent_boundingBox hgrid _ h _ rfl
  | copy h => exact hgrid.of_matches (matches_copy hshaped _ _ h)
  | roundTo h => exact hgrid.of_matches (matches_roundTo hshaped _ _ h)
  | replace hmask hother h =>
      exact hgrid.of_matches
        (matches_replace hshaped hmask.isShaped (fun other heq => (hother other heq).isShaped) _ h)
  | withNodata h => exact hgrid.of_matches (matches_withNodata hshaped _ _ h)
  | sampleTo htarget h => exact htarget.of_matches (matches_sampleTo _ _ _ h)
  | allocate h => exact hgrid.of_matches (matches_allocate _ _ _ h)
  | coarsen h => exact consistent_coarsen _ _ _ _ h
  | refine hpos hwhole h => exact ((refines_refine _ _ _ _ h).consistent_iff hpos).mpr hwhole

/-- Operations one after the other keep it in step as well. -/
theorem Consistent.of_run (hgrid : grid.Consistent)
    (hrun : Relation.ReflTransGen Makes grid result) : result.Consistent := by
  induction hrun with
  | refl => exact hgrid
  | tail _ hmakes ih => exact ih.of_makes hmakes

end Making

end Grid

end MapAlgebra
