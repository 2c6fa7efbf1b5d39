import MapAlgebra.Proofs.Comparisons

/-!
# Constants laid out beside a grid

A constant stands for the grid that holds it in every cell: beside it, on the left or on the right,
an operator gives the same cells, if single precision keeps the constant and it is not the NoData
value of the grid. A constant exponent can be an exception. The square, the square root and the
reciprocal have operations of their own, while the cells of a grid of exponents are taken as powers.
-/

namespace MapAlgebra

namespace Double

/-- The exponents whose powers have an operation of their own. -/
def hasOwnPower (exponent : Float) : Bool :=
  exponent == 2 || exponent == 0.5 || exponent == -1

theorem powerBy_of_hasOwnPower_eq_false {exponent : Float} (h : hasOwnPower exponent = false)
    (base : Float) : Number.powerBy exponent base = Number.power base exponent := by
  simp only [hasOwnPower, Bool.or_eq_false_iff] at h
  obtain ⟨⟨hsquare, hroot⟩, hreciprocal⟩ := h
  show powerBy exponent base = base.pow exponent
  unfold powerBy
  rw [hsquare, hroot, hreciprocal]
  rfl

/-- Only for powers it matters whether the right side is the same number for all cells. -/
theorem calculate_uniform {op : Operator} {b : Float}
    (h : op = .power → hasOwnPower b = false) (a : Float) :
    op.calculate true a b = op.calculate false a b := by
  cases op with
  | power => exact powerBy_of_hasOwnPower_eq_false (h rfl) a
  | _ => rfl

/-- A number that single precision keeps is data unless it is the NoData value there. -/
theorem holdsNodata_narrow_eq_false {nodata number : Float} (hnumber : number.isNaN = false)
    (hkept : nearest number = number) (hdiffers : (number == nearest nodata) = false) :
    Grid.holdsNodata nodata (Cell.narrow number : Float32) = false := by
  have hwiden : (Cell.widen (Cell.narrow number : Float32) : Float) = number := hkept
  unfold Grid.holdsNodata
  rw [hwiden]
  split
  next => exact hnumber
  next => exact hdiffers

end Double

variable {K : Type} [Coordinate K] {grid : Grid K Float Float32} {cells : Raster Float32}

namespace Grid

omit [Coordinate K] in
/-- A grid that is filled with a number has that number everywhere. -/
theorem sample_filled {filled : Grid K Float Float32} {number : Float}
    (hnumber : number.isNaN = false) (hkept : Double.nearest number = number)
    (hdiffers : (number == Double.nearest filled.nodata) = false) :
    filled.sample (Cell.narrow number) = ⟨number, false⟩ := by
  rw [sample_of_data (Double.holdsNodata_narrow_eq_false hnumber hkept hdiffers)]
  exact congrArg (Sample.mk · false) hkept

/-- On either side of a grid, a constant and the grid that is filled with it give the same cells.
With the constant on the right, a power is taken by the operation that its exponent has of its own,
if any; so the cells are known to be the same unless it has one. -/
theorem Sound.exists_broadcast (h : grid.Sound cells) {constant : Constant Float}
    (hplain : constant.isNodata = false) (hnumber : constant.value.isNaN = false)
    (hkept : Double.nearest constant.value = constant.value)
    (hdiffers : (constant.value == Double.nearest grid.nodata) = false) (op : Operator) :
    ∃ filled left leftFilled right rightFilled,
      constant.allocate grid = .ok filled ∧ grid.Matches filled ∧ filled.nodata = grid.nodata ∧
      Operand.apply op (.constant constant) (.grid grid) = .ok (.grid (grid.derive left)) ∧
      Operand.apply op (.grid filled) (.grid grid) = .ok (.grid (filled.derive leftFilled)) ∧
      Operand.apply op (.grid grid) (.constant constant) = .ok (.grid (grid.derive right)) ∧
      Operand.apply op (.grid grid) (.grid filled) = .ok (.grid (grid.derive rightFilled)) ∧
      grid.Fits left ∧ grid.Fits leftFilled ∧ grid.Fits right ∧ grid.Fits rightFilled ∧
      (∀ i j, left.get? i j = (cells.get? i j).map (grid.cellBeside op true constant)) ∧
      (∀ i j, leftFilled.get? i j = left.get? i j) ∧
      (∀ i j, right.get? i j = (cells.get? i j).map (grid.cellBeside op false constant)) ∧
      (∀ i j, rightFilled.get? i j = (cells.get? i j).map fun cell =>
        grid.combinedCell op cell ⟨constant.value, false⟩) ∧
      ((op = .power → Double.hasOwnPower constant.value = false) →
        ∀ i j, rightFilled.get? i j = right.get? i j) := by
  obtain ⟨filled, held, hallocate, hmatches, hfilled, hnodata, hheld⟩ := h.exists_allocate constant
  obtain ⟨hsame, hsame', -⟩ := hmatches.sameGeometry h.sameGeometry
  have hfits := hfilled.fits.of_sameGeometry hsame
  have hsample : filled.sample (Cell.narrow constant.value) = ⟨constant.value, false⟩ :=
    sample_filled hnumber hkept (hnodata ▸ hdiffers)
  obtain ⟨left, hleft, hleftFits, hgetLeft⟩ :=
    exists_apply_constant h.resident h.fits op true constant
  obtain ⟨right, hright, hrightFits, hgetRight⟩ :=
    exists_apply_constant h.resident h.fits op false constant
  obtain ⟨leftFilled, hleftFilled, hleftFilledFits, hgetLeftFilled⟩ :=
    exists_apply hfilled.resident hfilled.fits (operandSamples_of_sameGeometry hsame' h.resident)
      ((h.fits.of_sameGeometry hsame').map _) op
  obtain ⟨rightFilled, hrightFilled, hrightFilledFits, hgetRightFilled⟩ :=
    exists_apply h.resident h.fits (operandSamples_of_sameGeometry hsame hfilled.resident)
      (hfits.map _) op
  have hspread (i j : Nat) : rightFilled.get? i j = (cells.get? i j).map fun cell =>
      grid.combinedCell op cell ⟨constant.value, false⟩ := by
    rw [hgetRightFilled, Raster.get?_map, hheld]
    cases cells.get? i j with
    | none => rfl
    | some cell => exact congrArg (fun sample => some (grid.combinedCell op cell sample)) hsample
  refine ⟨filled, left, leftFilled, right, rightFilled, hallocate, hmatches, hnodata,
    congrArg (Except.map Operand.grid) hleft, congrArg (Except.map Operand.grid) hleftFilled,
    congrArg (Except.map Operand.grid) hright, congrArg (Except.map Operand.grid) hrightFilled,
    hleftFits, hleftFilledFits.of_sameGeometry hsame, hrightFits, hrightFilledFits, hgetLeft, ?_,
    hgetRight, hspread, ?_⟩
  · intro i j
    rw [hgetLeftFilled, hgetLeft, hheld, Raster.get?_map]
    cases cells.get? i j with
    | none => rfl
    | some cell =>
        show some (filled.combinedCell op (Cell.narrow constant.value) (grid.sample cell)) =
          some (grid.cellBeside op true constant cell)
        unfold combinedCell cellBeside
        rw [hsample, hnodata, hplain]
        rfl
  · intro hpower i j
    rw [hspread, hgetRight]
    congr 1
    funext cell
    unfold combinedCell cellBeside combineSamples
    rw [hplain]
    dsimp only
    rw [Double.calculate_uniform hpower]
    rfl

/-- Three minus five, with the three as a constant and laid out, and five minus three. -/
theorem exists_broadcast_single : ∃ filled left leftFilled right rightFilled,
    (single (-9999) 5).Sound (.fill 1 1 5) ∧
      (Constant.of 3 : Constant Float).isNodata = false ∧ (3 : Float).isNaN = false ∧
      Double.nearest 3 = 3 ∧ ((3 : Float) == Double.nearest (-9999)) = false ∧
      (Constant.of 3 : Constant Float).allocate (single (-9999) 5) = .ok filled ∧
      Operand.apply .subtract (.constant (.of 3)) (.grid (single (-9999) 5)) =
        .ok (.grid ((single (-9999) 5).derive left)) ∧
      Operand.apply .subtract (.grid filled) (.grid (single (-9999) 5)) =
        .ok (.grid (filled.derive leftFilled)) ∧
      Operand.apply .subtract (.grid (single (-9999) 5)) (.constant (.of 3)) =
        .ok (.grid ((single (-9999) 5).derive right)) ∧
      Operand.apply .subtract (.grid (single (-9999) 5)) (.grid filled) =
        .ok (.grid ((single (-9999) 5).derive rightFilled)) ∧
      left.get? 0 0 = some (-2) ∧ leftFilled.get? 0 0 = some (-2) ∧
      right.get? 0 0 = some 2 ∧ rightFilled.get? 0 0 = some 2 := by
  have hsound := sound_single (-9999) 5
  have hconstant : (Constant.of 3 : Constant Float).isNodata = false ∧ (3 : Float).isNaN = false ∧
      Double.nearest 3 = 3 ∧ ((3 : Float) == Double.nearest (-9999)) = false := by
    decide +kernel
  obtain ⟨hplain, hnumber, hkept, hdiffers⟩ := hconstant
  obtain ⟨filled, left, leftFilled, right, rightFilled, hallocate, -, -, hleft, hleftFilled, hright,
    hrightFilled, -, -, -, -, hgetLeft, hsameLeft, hgetRight, -, hsameRight⟩ :=
    hsound.exists_broadcast hplain hnumber hkept hdiffers .subtract
  have hcells : (single (-9999) 5).cellBeside .subtract true (.of 3) 5 = -2 ∧
      (single (-9999) 5).cellBeside .subtract false (.of 3) 5 = 2 := by
    decide +kernel
  have hminus := (hgetLeft 0 0).trans (congrArg some hcells.1)
  have hplus := (hgetRight 0 0).trans (congrArg some hcells.2)
  exact ⟨filled, left, leftFilled, right, rightFilled, hsound, hplain, hnumber, hkept, hdiffers,
    hallocate, hleft, hleftFilled, hright, hrightFilled, hminus, (hsameLeft 0 0).trans hminus,
    hplus, (hsameRight nofun 0 0).trans hplus⟩

/-- A grid of one cell that has no left side. -/
def unbounded (cell : Float32) : Grid Float Float Float32 where
  extent := ⟨-1 / 0, 0, 1, 1⟩
  cellWidth := 1
  cellHeight := 1
  nodata := -9999
  name := defaultName
  rows := 1
  cols := 1
  cells := .resident (.fill 1 1 cell)

/-- Without a left side, a grid is not of one geometry with the grid that a constant fills beside
it, and has none of its cells: five plus three is eight, but has no data once the three is laid
out. -/
theorem broadcast_cells_differ : ∃ filled right rightFilled,
    (Constant.of 3 : Constant Float).isNodata = false ∧ (3 : Float).isNaN = false ∧
      Double.nearest 3 = 3 ∧ ((3 : Float) == Double.nearest (-9999)) = false ∧
      (Constant.of 3 : Constant Float).allocate (unbounded 5) = .ok filled ∧
      Operand.apply .add (.grid (unbounded 5)) (.constant (.of 3)) =
        .ok (.grid ((unbounded 5).derive right)) ∧
      Operand.apply .add (.grid (unbounded 5)) (.grid filled) =
        .ok (.grid ((unbounded 5).derive rightFilled)) ∧
      right.get? 0 0 = some 8 ∧ rightFilled.get? 0 0 = some (-9999) := by
  have hconstant : (Constant.of 3 : Constant Float).isNodata = false ∧ (3 : Float).isNaN = false ∧
      Double.nearest 3 = 3 ∧ ((3 : Float) == Double.nearest (-9999)) = false := by
    decide +kernel
  obtain ⟨hplain, hnumber, hkept, hdiffers⟩ := hconstant
  have hfits : (unbounded 5).Fits (.fill 1 1 (5 : Float32)) := ⟨rfl, rfl⟩
  obtain ⟨filled, hallocate, hheld, hnodata⟩ : ∃ filled,
      (Constant.of 3 : Constant Float).allocate (unbounded 5) = .ok filled ∧
        filled.cells = .resident (.fill 1 1 (Cell.narrow 3)) ∧ filled.nodata = -9999 := by
    have hwidth : ¬ (1 : Float) ≤ Coordinate.zero := by decide +kernel
    unfold Constant.allocate of
    exact ⟨_, if_neg hwidth, rfl, rfl⟩
  have hmatches := matches_allocate (Constant.of 3 : Constant Float) (unbounded 5) filled hallocate
  have hfilledFits := hmatches.isShaped.values _ (values_eq_ok_iff.mpr hheld)
  have hdiffer : ¬ (unbounded 5).sameGeometry filled := by
    have hself : (unbounded 5).sameGeometry (unbounded 5) = false := by decide +kernel
    unfold sameGeometry at hself ⊢
    rw [hmatches.rows, hmatches.cols, hmatches.cellWidth, hmatches.cellHeight, hmatches.extent,
      hself]
    exact Bool.false_ne_true
  obtain ⟨samples, hsamples, hsamplesFits, hget⟩ :=
    exists_sampleOnto_over hheld hfilledFits ⟨_, rfl, hfits⟩
  -- what is measured from the left side is undefined
  have hcol : filled.colOver (unbounded 5) 0 = Double.farOutside := by
    unfold colOver
    rw [hmatches.extent, hmatches.cellWidth]
    decide +kernel
  obtain ⟨right, hright, -, hgetRight⟩ := exists_apply_constant rfl hfits .add false (.of 3)
  obtain ⟨rightFilled, hrightFilled, -, hgetRightFilled⟩ := exists_apply rfl hfits
    (operandSamples_of_not_sameGeometry hdiffer hsamples) hsamplesFits .add
  refine ⟨filled, right, rightFilled, hplain, hnumber, hkept, hdiffers, hallocate,
    congrArg (Except.map Operand.grid) hright, congrArg (Except.map Operand.grid) hrightFilled, ?_,
    ?_⟩
  · have height : (unbounded 5).cellBeside .add false (.of 3) 5 = 8 := by decide +kernel
    exact (hgetRight 0 0).trans (congrArg some height)
  · have hmissing : (unbounded 5).combinedCell .add 5 ⟨-9999, true⟩ = -9999 := by decide +kernel
    have houtside : (Raster.fill 1 1 (Cell.narrow 3 : Float32)).at?
        (filled.rowOver (unbounded 5) 0) Double.farOutside = none :=
      if_neg fun hwithin => absurd hwithin.2 (by decide)
    rw [hgetRightFilled, hget 0 0 (by decide) (by decide), hcol, houtside, hnodata]
    exact congrArg some hmissing

end Grid

end MapAlgebra
