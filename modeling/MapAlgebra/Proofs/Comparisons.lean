import MapAlgebra.Proofs.Selection

/-!
# Comparisons as grids of zeros and ones

A comparison or a logical operator gives one in the cells where it holds and zero in the others,
whether they have data or not. The result takes over the NoData value of the grid, which may be one
of the two numbers: cells with that truth value then count as cells without data, and a condition
does not hold in them.
-/

namespace MapAlgebra

variable {K V S : Type}

namespace Operator

/-- Whether a comparison or a logical operator holds of two numbers. The others hold of none. -/
def holds [Number V] (op : Operator) (a b : V) : Bool :=
  match op with
  | equal => a == b
  | notEqual => !(a == b)
  | greater => decide (b < a)
  | greaterEqual => decide (b ≤ a)
  | lesser => decide (a < b)
  | lesserEqual => decide (a ≤ b)
  | both => Number.isTrue a && Number.isTrue b
  | either => Number.isTrue a || Number.isTrue b
  | power | multiply | divide | add | subtract => false

theorem calculate_of_not_arithmetic [Number V] {op : Operator} (h : op.isArithmetic = false)
    (uniform : Bool) (a b : V) : op.calculate uniform a b = Number.ofBool (op.holds a b) := by
  cases op <;> first | rfl | cases h

end Operator

variable [Number V] [Cell S V]

theorem Grid.combineSamples_of_not_arithmetic {op : Operator} (h : op.isArithmetic = false)
    (nodata : V) (uniform : Bool) (a b : Sample V) :
    combineSamples nodata op uniform a b = Number.ofBool (op.holds a.value b.value) := by
  simp [combineSamples, h, Operator.calculate_of_not_arithmetic h]

/-- The number that calculations read from an operand at a place. -/
def Operand.value? : Operand K V S → Nat → Nat → Option V
  | .constant c, _, _ => some c.value
  | .grid g, i, j =>
      match g.cells with
      | .resident cells => (cells.get? i j).map fun cell => (g.sample cell).value
      | .onDisk _ => none

/-- Whether an operator holds at a place of a grid of what is read there from the grid and from
another operand. -/
def Grid.truth? (grid : Grid K V S) (op : Operator) (other : Operand K V S) (i j : Nat) :
    Option Bool :=
  ((Operand.grid grid).value? i j).bind fun a => (other.value? i j).map (op.holds a)

variable [Coordinate K] {grid : Grid K V S} {cells : Raster S}

namespace Grid

/-- An operand that is read cell by cell beside a grid: a constant, or a grid of the same geometry
that has its cells. -/
def IsBeside (grid : Grid K V S) : Operand K V S → Prop
  | .constant _ => True
  | .grid other => grid.sameGeometry other ∧ other.IsShaped

/-- What an operator gives where a grid has a cell, beside a constant on the right or, when
reversed, on the left. -/
def cellBeside (grid : Grid K V S) (op : Operator) (reverse : Bool) (constant : Constant V)
    (cell : S) : S :=
  let given : Sample V := ⟨constant.value, constant.isNodata⟩
  Cell.narrow <|
    if reverse then combineSamples grid.nodata op false given (grid.sample cell)
    else combineSamples grid.nodata op true (grid.sample cell) given

/-- A grid is combined with a constant cell by cell. -/
theorem exists_apply_constant (hcells : grid.cells = .resident cells) (hfits : grid.Fits cells)
    (op : Operator) (reverse : Bool) (constant : Constant V) :
    ∃ out, grid.apply op (.constant constant) reverse = .ok (grid.derive out) ∧ grid.Fits out ∧
      ∀ i j, out.get? i j = (cells.get? i j).map (grid.cellBeside op reverse constant) := by
  let given : Sample V := ⟨constant.value, constant.isNodata⟩
  let joined := (cells.map grid.sample).map fun own =>
    if reverse then combineSamples grid.nodata op false given own
    else combineSamples grid.nodata op true own given
  have hrows := hfits.rows
  have hcols := hfits.cols
  have hnonneg : ¬ (grid.rows < 0 ∨ grid.cols < 0) := by omega
  have hstretch : joined.stretch? grid.rows.toNat grid.cols.toNat = some joined := by
    rw [← hrows, ← hcols]
    exact joined.stretch?_self
  have hcombine : grid.combine op reverse (cells.map grid.sample) (.inl given) = .ok joined := by
    unfold combine
    simp only [Bool.or_eq_true, decide_eq_true_eq, if_neg hnonneg, Option.bind_some]
    rw [hstretch]
  refine ⟨joined.map Cell.narrow, ?_, ((hfits.map _).map _).map _, ?_⟩
  · unfold apply operandSamples
    rw [samples_of_resident hcells]
    simp only [bind, Except.bind, pure, Except.pure]
    rw [hcombine]
  · intro i j
    simp only [joined, Raster.get?_map, Option.map_map]
    rfl

/-- A comparison is one where it holds and zero elsewhere, with data or without. -/
theorem exists_apply_truths (hcells : grid.cells = .resident cells) (hfits : grid.Fits cells)
    {op : Operator} (hop : op.isArithmetic = false) (other : Operand K V S)
    (hother : grid.IsBeside other) :
    ∃ truths, grid.apply op other = .ok (grid.derive truths) ∧ grid.Fits truths ∧
      ∀ i j, truths.get? i j =
        (grid.truth? op other i j).map fun b => Cell.narrow (Number.ofBool b : V) := by
  have hown (i j : Nat) : (Operand.grid grid).value? i j =
      (cells.get? i j).map fun cell => (grid.sample cell).value := by
    simp [Operand.value?, hcells]
  cases other with
  | constant c =>
      obtain ⟨out, hout, houtFits, hget⟩ := exists_apply_constant hcells hfits op false c
      refine ⟨out, hout, houtFits, ?_⟩
      intro i j
      rw [hget, truth?, hown]
      cases cells.get? i j <;>
        simp [Operand.value?, cellBeside, combineSamples_of_not_arithmetic hop]
  | grid second =>
      obtain ⟨hsame, held, hheld, hheldFits⟩ := hother
      have hshape := (hheldFits.map second.sample).of_sameGeometry hsame
      have hsamples := operandSamples_of_sameGeometry hsame hheld
      obtain ⟨out, hout, houtFits, hget⟩ := exists_apply hcells hfits hsamples hshape op
      refine ⟨out, hout, houtFits, ?_⟩
      intro i j
      rw [hget, truth?, hown, Raster.get?_map]
      cases cells.get? i j <;> cases hsecond : held.get? i j <;>
        simp [Operand.value?, hheld, hsecond, combinedCell, combineSamples_of_not_arithmetic hop]

end Grid

namespace Double

theorem isTrue_ofBool (b : Bool) : Number.isTrue (Number.ofBool b : Float) = b := by
  cases b <;> decide

/-- A one in a cell selects unless it counts as no data, and a zero does not. -/
theorem selects_ofBool (nodata : Float) (b : Bool) :
    Grid.selects nodata (Cell.narrow (Number.ofBool b : Float) : Float32) =
      (b && !isTruth nodata true) := by
  have hwiden : (Cell.widen (Cell.narrow (Number.ofBool b : Float) : Float32) : Float) =
      Number.ofBool b := nearest_ofBool b
  unfold Grid.selects
  rw [hwiden, isTrue_ofBool, holdsNodata_ofBool]
  cases b <;> rfl

end Double

namespace Expression

/-- The number that a branch of a condition puts into the cells: a constant without data becomes the
NoData value of the grid. -/
def Part.number (part : Part K V S) (constant : Constant V) (nodata : V) : V :=
  if part.isNodata then nodata else constant.value

variable {grid : Grid K Float Float32} {marks : Raster Float32}

/-- A choice between two constants by a grid: the first one where the grid selects. -/
theorem exists_choose_constants (h : grid.Sound marks) (hplain : grid.substitute = none)
    (fixed : Option (Extent K)) (hfixed : ∀ wanted ∈ fixed, grid.extent.agrees wanted)
    {condition yes no : Part K Float Float32} {x y : Constant Float}
    (hcondition : condition.value = .grid grid) (hyes : yes.value = .constant x)
    (hno : no.value = .constant y) :
    ∃ chosen held, Traced.Succeeds (· = .grid chosen) (choose fixed condition yes no) ∧
      grid.Matches chosen ∧ chosen.nodata = grid.nodata ∧ chosen.cells = .resident held ∧
      ∀ i j, held.get? i j = (marks.get? i j).map fun mark => Cell.narrow
        (if Grid.selects grid.nodata mark then yes.number x grid.nodata
          else no.number y grid.nodata) := by
  have hbranch (part : Part K Float Float32) (c : Constant Float) : ∃ constant : Constant Float,
      branch part (.constant c) grid = .constant constant ∧
        constant.value = part.number c grid.nodata := by
    unfold branch Part.number
    rw [hplain]
    by_cases hnodata : part.isNodata <;> simp [hnodata, Constant.of]
  obtain ⟨first, hfirst, hfirstValue⟩ := hbranch yes x
  obtain ⟨last, hlast, hlastValue⟩ := hbranch no y
  obtain ⟨base, filled, hallocate, hmatches, hbase, hnodata, hfilled⟩ := h.exists_allocate last
  obtain ⟨hother, hsame, -⟩ := hmatches.sameGeometry h.sameGeometry
  obtain ⟨held, hreplace, hfits, hheld⟩ := hbase.exists_replace_number h hsame first.value
  have hextent : ∀ value ∈ [condition.value, yes.value, no.value], ∀ own ∈ value.extent?,
      own = grid.extent := by
    simp [hcondition, hyes, hno, Operand.extent?]
  refine ⟨base.derive held, held, ?_, ?_, hnodata, rfl, ?_⟩
  · have hlaid : onto (branch no no.value grid) grid = .ok base := by
      rw [hno, hlast]
      exact hallocate
    have hkept : base.withNodata grid.nodata = .ok base := by
      unfold Grid.withNodata
      rw [hnodata, if_pos (Double.same_self _)]
      rfl
    exact choose_of_agrees hcondition (agrees_of_common h.agrees_self hfixed hextent) hlaid hkept
      (by rw [hyes, hfirst]; exact hreplace)
  · exact hmatches.trans hfits.matches_derive
  · intro i j
    rw [hheld, hfilled, hfirstValue, hlastValue]
    cases marks.get? i j with
    | none => rfl
    | some mark => by_cases hselected : Grid.selects grid.nodata mark <;> simp [hselected]

end Expression

section Truths

variable [Conversion K Float] {grid : Grid K Float Float32} {cells : Raster Float32}

/-- A comparison is a grid of zeros and ones. The cells that have its NoData value for their truth
value count as cells without data, and a choice between two constants takes the first one where the
comparison holds unless a one counts as no data. -/
theorem Grid.Sound.exists_truths (h : grid.Sound cells) {op : Operator}
    (hop : op.isArithmetic = false) (other : Operand K Float Float32)
    (hother : grid.IsBeside other) :
    ∃ truths mask, grid.apply op other = .ok (grid.derive truths) ∧ grid.Fits truths ∧
      (∀ i j, truths.get? i j = (grid.truth? op other i j).map fun b =>
        Cell.narrow (Number.ofBool b : Float)) ∧
      (grid.derive truths).nodataMask = .ok mask ∧
      (∀ i j, mask.get? i j = (grid.truth? op other i j).map (Double.isTruth grid.nodata)) ∧
      ∀ (fixed : Option (Extent K)) (prepared : Expression.Prepared)
        (condition yes no : Expression.Part K Float Float32) (x y : Constant Float),
        (∀ wanted ∈ fixed, grid.extent.agrees wanted) →
        condition.value = .grid (grid.derive truths) → yes.value = .constant x →
        no.value = .constant y →
        ∃ chosen held, Traced.Succeeds (· = .grid chosen)
            (Expression.Function.compute fixed prepared .ifThenElse [condition, yes, no]) ∧
          grid.Matches chosen ∧ chosen.nodata = grid.nodata ∧ chosen.cells = .resident held ∧
          ∀ i j, held.get? i j = (grid.truth? op other i j).map fun b =>
            Cell.narrow (if b && !Double.isTruth grid.nodata true then yes.number x grid.nodata
              else no.number y grid.nodata) := by
  obtain ⟨truths, happly, hfits, hget⟩ := exists_apply_truths h.resident h.fits hop other hother
  have hmask : (grid.derive truths).nodataMask = .ok (truths.map (holdsNodata grid.nodata)) := rfl
  refine ⟨truths, _, happly, hfits, hget, hmask, ?_, ?_⟩
  · intro i j
    rw [Raster.get?_map, hget, Option.map_map]
    exact congrArg (Option.map · _) (funext (Double.holdsNodata_ofBool grid.nodata))
  · intro fixed prepared condition yes no x y hfixed hcondition hyes hno
    obtain ⟨chosen, held, hchoose, hmatches, hnodata, hheld, hchosen⟩ :=
      Expression.exists_choose_constants (h.derive hfits) rfl fixed hfixed hcondition hyes hno
    refine ⟨chosen, held, hchoose, hfits.matches_derive.trans hmatches, hnodata, hheld, ?_⟩
    intro i j
    rw [hchosen, hget, Option.map_map]
    congr 1
    ext b
    show Cell.narrow (if Grid.selects grid.nodata (Cell.narrow (Number.ofBool b)) then _ else _) = _
    rw [Double.selects_ofBool]
    rfl

/-- A grid of one cell. -/
def Grid.single (nodata : Float) (cell : Float32) : Grid ℚ Float Float32 where
  extent := ⟨0, 0, 1, 1⟩
  cellWidth := 1
  cellHeight := 1
  nodata
  name := defaultName
  rows := 1
  cols := 1
  cells := .resident (.fill 1 1 cell)

theorem Grid.sound_single (nodata : Float) (cell : Float32) :
    (single nodata cell).Sound (.fill 1 1 cell) := by
  have hwidth : ¬ (1 : ℚ) ≤ ((0 : ℤ) : ℚ) := by norm_num
  exact ⟨rfl, ⟨rfl, rfl⟩, hwidth, sameGeometry_of_agrees rfl rfl rfl rfl (Extent.agrees_self _)⟩

/-- Two is greater than zero, whatever stands for NoData. -/
theorem Grid.truth?_single (nodata : Float) :
    (single nodata 2).truth? .greater (.constant (.of 0)) 0 0 = some true := by
  have hgreater : Operator.greater.holds (Cell.widen (2 : Float32)) (0 : Float) = true := rfl
  exact congrArg some hgreater

/-- A part of an expression that is a constant. -/
def Expression.Part.ofNumber (number : Float) : Part ℚ Float Float32 :=
  ⟨.constant (.of number), .constant, []⟩

/-- A part of an expression that is the result of an operator. -/
def Expression.Part.ofGrid (grid : Grid ℚ Float Float32) : Part ℚ Float Float32 :=
  ⟨.grid grid, .complex, []⟩

/-- Where two is greater than zero, three is chosen over four. -/
theorem Grid.exists_truths_single : ∃ truths mask chosen held,
    (single (-9999) 2).Sound (.fill 1 1 2) ∧
      (single (-9999) 2).apply .greater (.constant (.of 0)) =
        .ok ((single (-9999) 2).derive truths) ∧
      truths.get? 0 0 = some 1 ∧ ((single (-9999) 2).derive truths).nodataMask = .ok mask ∧
      mask.get? 0 0 = some false ∧
      Traced.Succeeds (· = .grid chosen) (Expression.Function.compute none ⟨[], [], []⟩ .ifThenElse
        [.ofGrid ((single (-9999) 2).derive truths), .ofNumber 3, .ofNumber 4]) ∧
      chosen.cells = .resident held ∧ held.get? 0 0 = some 3 := by
  have hsound := sound_single (-9999) 2
  obtain ⟨truths, mask, happly, -, htruths, hmask, hvalid, hchoice⟩ :=
    hsound.exists_truths (rfl : Operator.greater.isArithmetic = false) (.constant (.of 0)) trivial
  obtain ⟨chosen, held, hchoose, -, -, hheld, hchosen⟩ := hchoice none ⟨[], [], []⟩
    (.ofGrid ((single (-9999) 2).derive truths)) (.ofNumber 3) (.ofNumber 4) _ _ (by simp) rfl rfl
    rfl
  have hfirst := htruths 0 0
  have hdata := hvalid 0 0
  have hcell := hchosen 0 0
  rw [truth?_single] at hfirst hdata hcell
  have hnumbers : (Cell.narrow (Number.ofBool true : Float) : Float32) = 1 ∧
      Double.isTruth (-9999) true = false ∧ Cell.narrow (if true && !Double.isTruth (-9999) true then
        (Expression.Part.ofNumber 3).number (.of 3) (-9999)
        else (Expression.Part.ofNumber 4).number (.of 4) (-9999)) = (3 : Float32) := by
    decide +kernel
  exact ⟨truths, mask, chosen, held, hsound, happly, hfirst.trans (congrArg some hnumbers.1), hmask,
    hdata.trans (congrArg some hnumbers.2.1), hchoose, hheld,
    hcell.trans (congrArg some hnumbers.2.2)⟩

/-- With one for NoData, the cell where two is greater than zero has no data, and four is chosen. -/
theorem Grid.comparison_has_no_data : ∃ truths mask chosen held,
    (single 1 2).Sound (.fill 1 1 2) ∧
      (single 1 2).apply .greater (.constant (.of 0)) = .ok ((single 1 2).derive truths) ∧
      (single 1 2).truth? .greater (.constant (.of 0)) 0 0 = some true ∧
      truths.get? 0 0 = some 1 ∧ ((single 1 2).derive truths).nodataMask = .ok mask ∧
      mask.get? 0 0 = some true ∧
      Traced.Succeeds (· = .grid chosen) (Expression.Function.compute none ⟨[], [], []⟩ .ifThenElse
        [.ofGrid ((single 1 2).derive truths), .ofNumber 3, .ofNumber 4]) ∧
      chosen.cells = .resident held ∧ held.get? 0 0 = some 4 := by
  have hsound := sound_single 1 2
  obtain ⟨truths, happly, hfits, hget⟩ := exists_apply_truths hsound.resident hsound.fits
    (rfl : Operator.greater.isArithmetic = false) (.constant (.of 0)) trivial
  obtain ⟨chosen, held, hchoose, -, -, hheld, hchosen⟩ :=
    Expression.exists_choose_constants (hsound.derive hfits) rfl none (by simp)
      (rfl : (Expression.Part.ofGrid ((single 1 2).derive truths)).value = _)
      (rfl : (Expression.Part.ofNumber 3).value = _) (rfl : (Expression.Part.ofNumber 4).value = _)
  have hfirst := hget 0 0
  rw [truth?_single] at hfirst
  have hcell := hchosen 0 0
  rw [hfirst] at hcell
  have hnumbers : (Cell.narrow (Number.ofBool true : Float) : Float32) = 1 ∧
      holdsNodata 1 (Cell.narrow (Number.ofBool true : Float) : Float32) = true ∧
      Cell.narrow (if selects 1 (Cell.narrow (Number.ofBool true : Float) : Float32) then
        (Expression.Part.ofNumber 3).number (.of 3) 1
        else (Expression.Part.ofNumber 4).number (.of 4) 1) = (4 : Float32) := by
    decide +kernel
  have hmask : (truths.map (holdsNodata (1 : Float))).get? 0 0 = some true := by
    rw [Raster.get?_map, hfirst]
    exact congrArg some hnumbers.2.1
  exact ⟨truths, _, chosen, held, hsound, happly, truth?_single 1,
    hfirst.trans (congrArg some hnumbers.1), rfl, hmask, hchoose, hheld,
    hcell.trans (congrArg some hnumbers.2.2)⟩

end Truths

end MapAlgebra
