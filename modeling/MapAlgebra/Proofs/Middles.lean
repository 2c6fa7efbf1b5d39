import MapAlgebra.Proofs.Extrema
import MapAlgebra.Proofs.Offsets
import MapAlgebra.Proofs.Reach

/-!
# Middles of cells in grids that are brought around them

An operator brings its right operand to the extent of the left one and reads it at the middles of
the cells. The middles stay away from the sides by half a cell, which is more than the slack of the
right grid unless its cells are very much larger. So they lie in the grid that was brought, and what
is read there is what the right operand has there itself.
-/

namespace MapAlgebra

/-- A sample that was kept in a cell, and read from it again. -/
def Sample.kept (sample : Sample Float) : Sample Float :=
  ⟨Double.nearest sample.value, sample.isNodata⟩

theorem Double.nearest_widen (cell : Float32) :
    nearest (Cell.widen cell) = (Cell.widen cell : Float) :=
  congrArg ofSingle (toSingle_ofSingle cell)

namespace Grid

/-- A grid in place of another one is read as that one, but for a NoData value that single precision
does not keep. -/
theorem Shows.sampleAt_eq {grid view : Grid ℚ Float Float32} (h : view.Shows grid)
    (hplain : grid.substitute = none) {x y : ℚ} (hholds : view.extent.Holds x y) :
    view.sampleAt x y = (grid.sampleAt x y).kept := by
  have hview (cell : Float32) := sample_of_plain (h.substitute hplain) cell
  unfold sampleAt
  rw [h.cellAt? x y hholds, Option.map_some, Option.getD_some, hview, h.nodata]
  cases grid.cellAt? x y with
  | none => exact congrArg (Sample.mk _) (Double.holdsNodata_narrow grid.nodata)
  | some cell =>
      rw [Option.map_some, Option.getD_some, Option.getD_some, sample_of_plain hplain]
      exact congrArg (Sample.mk · _) (Double.nearest_widen cell).symm

/-- A number that was read from a cell is kept by cells, and so is a NoData value of single
precision. -/
theorem kept_sampleAt {grid : Grid ℚ Float Float32} (hplain : grid.substitute = none) {x y : ℚ}
    (h : (grid.sampleAt x y).isNodata = false ∨ Double.nearest grid.nodata = grid.nodata) :
    (grid.sampleAt x y).kept = grid.sampleAt x y := by
  unfold sampleAt at h ⊢
  cases hcell : grid.cellAt? x y with
  | none =>
      rw [hcell] at h
      exact congrArg (Sample.mk · true) (h.resolve_left (nomatch ·))
  | some cell =>
      rw [Option.map_some, Option.getD_some, sample_of_plain hplain]
      exact congrArg (Sample.mk · _) (Double.nearest_widen cell)

section Middles

variable {V S : Type} {grid other : Grid ℚ V S}

/-- The slack of cells is less than half as wide as others that are not much smaller. -/
theorem two_mul_slack_lt {size own : ℚ} (hown : 1 / 100 ≤ own) (hsize : size ≤ 1000 * own) :
    2 * slack size < own := by
  unfold slack
  rcases max_choice 1 size with h | h <;> rw [h] <;> linarith

/-- The middle of a cell lies half a cell and more within the sides of its row or column. -/
theorem middle_within {size : ℚ} (hsize : 0 ≤ size) {count : ℤ} {k : ℕ} (hk : k < count) :
    size / 2 ≤ middle k * size ∧ middle k * size + size / 2 ≤ count * size := by
  have hnext : ((k + 1 : ℤ) : ℚ) ≤ count := by exact_mod_cast hk
  have hspan := mul_le_mul_of_nonneg_right hnext hsize
  have hstart : 0 ≤ (k : ℚ) * size := by positivity
  push_cast at hspan
  rw [middle_eq]
  constructor <;> linarith

/-- An extent that all but reaches the sides of a grid holds the middles of the cells. -/
theorem Consistent.holds_middle (h : grid.Consistent) {outer : Extent ℚ} {across down : ℚ}
    (hreaches : outer.Reaches across down grid.extent) (hacross : 2 * across < grid.cellWidth)
    (hdown : 2 * down < grid.cellHeight) (hwidth : 0 ≤ grid.cellWidth)
    (hheight : 0 ≤ grid.cellHeight) {i j : ℕ} (hi : i < grid.rows) (hj : j < grid.cols) :
    outer.Holds (grid.colMiddle j) (grid.rowMiddle i) := by
  obtain ⟨hleft, hlower, hright, hupper⟩ := hreaches
  have hxur := h.right
  have hyur := h.upper
  obtain ⟨hcol, hcol'⟩ := middle_within hwidth hj
  obtain ⟨hrow, hrow'⟩ := middle_within hheight hi
  unfold colMiddle rowMiddle
  refine ⟨?_, ?_, ?_, ?_⟩ <;> linarith

/-- A grid with cells is longer than twice the slack of others that are not much larger. -/
theorem Consistent.spans (h : grid.Consistent) (hwide : 2 * slack other.cellWidth < grid.cellWidth)
    (hhigh : 2 * slack other.cellHeight < grid.cellHeight) (hwidth : 0 ≤ grid.cellWidth)
    (hheight : 0 ≤ grid.cellHeight) {i j : ℕ} (hi : i < grid.rows) (hj : j < grid.cols) :
    Spans grid.extent other := by
  have hlong : grid.extent.width = grid.extent.xur - grid.extent.xll := rfl
  have htall : grid.extent.height = grid.extent.yur - grid.extent.yll := rfl
  have hxur := h.right
  have hyur := h.upper
  obtain ⟨hcol, hcol'⟩ := middle_within hwidth hj
  obtain ⟨hrow, hrow'⟩ := middle_within hheight hi
  constructor <;> linarith

end Middles

/-- Cells that are large against the tolerance, and not very much smaller than those of another
grid, which are large as well. -/
structure SizedFor {V S : Type} (grid other : Grid ℚ V S) : Prop where
  width : 1 / 100 ≤ grid.cellWidth
  height : 1 / 100 ≤ grid.cellHeight
  otherWidth : 1 / 100 ≤ other.cellWidth
  otherHeight : 1 / 100 ≤ other.cellHeight
  wide : other.cellWidth ≤ 1000 * grid.cellWidth
  high : other.cellHeight ≤ 1000 * grid.cellHeight

/-- Brought to the extent of a grid, another one is read as before at the middles of the cells. -/
theorem Consistent.exists_around {grid other : Grid ℚ Float Float32} (h : grid.Consistent)
    (hother : other.Consistent) (hplain : other.substitute = none) (hsizes : grid.SizedFor other) :
    ∃ brought, brought.Consistent ∧ 2 / 10000 < brought.cellWidth ∧
      2 / 10000 < brought.cellHeight ∧
      (∀ label, Traced.Succeeds (· = brought) (other.reconcile grid.extent label)) ∧
      ∀ i j : ℕ, i < grid.rows → j < grid.cols →
        brought.sampleAt (grid.colMiddle j) (grid.rowMiddle i) =
          (other.sampleAt (grid.colMiddle j) (grid.rowMiddle i)).kept := by
  obtain ⟨hwidth, hheight, hwidth', hheight', hwide, hhigh⟩ := hsizes
  have hacross : 2 * slack other.cellWidth < grid.cellWidth := two_mul_slack_lt hwidth hwide
  have hdown : 2 * slack other.cellHeight < grid.cellHeight := two_mul_slack_lt hheight hhigh
  obtain ⟨brought, hbecomes, hlogs⟩ :=
    hother.exists_becomes (by linarith) (by linarith) grid.extent
  refine ⟨brought, hbecomes.consistent, ?_, ?_, fun label => (hlogs label).succeeds,
    fun i j hi hj => ?_⟩
  · rw [hbecomes.cellWidth]
    linarith
  · rcases hbecomes.cellHeight with hsize | hsize <;> rw [hsize] <;> linarith
  · have hsurrounds := hbecomes.surrounds
      (h.spans hacross hdown (by linarith) (by linarith) hi hj)
    exact hsurrounds.shows.sampleAt_eq hplain
      (h.holds_middle hsurrounds.reaches hacross hdown (by linarith) (by linarith) hi hj)

end Grid

namespace Expression

section Operations

variable {K V S : Type} [Coordinate K] [Number V] [Cell S V]

/-- Two grids are combined in the extent of the first one, which the second one is brought to. -/
theorem Scope.combine_of_reconciled {scope : Scope K V} {left right : Part K V S} {op : Operator}
    {grid other brought result : Grid K V S} (hextent : scope.settings.extent = none)
    (hleft : left.Shows (.grid grid)) (hright : right.Shows (.grid other))
    (hself : grid.extent.agrees grid.extent)
    (hbrought : ∀ label, Traced.Succeeds (· = brought) (other.reconcile grid.extent label))
    (hresult : grid.apply op (.grid brought) = .ok result) :
    Traced.Succeeds (· = .grid result) (scope.combine left op right) := by
  have htarget : targetExtent scope.settings.extent .first
      [Operand.grid grid, Operand.grid other] = some grid.extent := by
    rw [hextent]
    rfl
  have hown : ∀ extent ∈ (Operand.grid grid).extent?, ∀ wanted ∈ some grid.extent,
      extent.agrees wanted := by
    rintro _ ⟨⟩ _ ⟨⟩
    exact hself
  unfold combine nodataResolved
  simp only [hleft.token, hright.token, hleft.value, hright.value, Bool.false_eq_true, if_false,
    htarget]
  refine .bind (Operand.reconcile_of_agrees hown _) fun a ha => ?_
  refine .bind (p := (· = .grid brought))
    ((hbrought _).bind fun b hb => .pure (congrArg Operand.grid hb)) fun b hb => ?_
  subst ha hb
  refine .lift (a := .grid result) ?_ rfl
  show (grid.apply op (.grid brought) >>= fun g => pure (Operand.grid g)) = _
  rw [hresult]
  rfl

variable [Conversion K V] {offers : List (Text × Operand K V S)} {session : Session K V S}

/-- Two names with an operator between them are evaluated to what their values are combined to. -/
theorem AreOffers.exists_parse_operation (h : AreOffers offers) (hsession : Offering offers session)
    {source a b : Text} {op : Operator} {first second value : Operand K V S}
    (hpair : IsPair session.table.namesLongestFirst source a op b) (ha : (a, first) ∈ offers)
    (hb : (b, second) ∈ offers)
    (hcombine : ∀ (scope : Scope K V) (left right : Part K V S), scope.settings.extent = none →
      left.Shows first → right.Shows second →
        Traced.Succeeds (· = value) (scope.combine left op right)) :
    ∃ provenance after, Run.from? session (parse {} source) =
      (.ok (value, provenance), after) := by
  obtain ⟨prepared, left, right, hprepare, htext, hleft, hright⟩ := hpair
  obtain ⟨m, rfl⟩ := exists_placeholder_of_name? hprepare hleft
  obtain ⟨n, rfl⟩ := exists_placeholder_of_name? hprepare hright
  let scope : Scope K V := ⟨{}, prepared⟩
  have hfirst : scope.YieldsTerm (Offering offers) (.token (placeholder m)) first :=
    h.yieldsTerm rfl ha hleft rfl
  have hsecond : scope.YieldsTerm (Offering offers) (.token (placeholder n)) second :=
    h.yieldsTerm rfl hb hright rfl
  have hyields : scope.Yields (Offering offers)
      (.join (.token (placeholder m)) op (.last (.token (placeholder n)))) value :=
    hfirst.join hsecond (isSteady_offering offers) rfl fun left right =>
      hcombine scope left right rfl
  have hspells : (Chain.join (.token (placeholder m)) op (.last (.token (placeholder n)))).Spells
      prepared.text := by
    rw [htext]
    exact .join (.token (isToken_placeholder m))
      (fun hawaits => absurd hawaits (not_awaitsSign_placeholder m))
      (.last (.token (isToken_placeholder n)))
  obtain ⟨provenance, after, hparse, -⟩ :=
    hyields.exists_parse_eq_ok hsession hprepare hspells (by simp [Chain.nesting, Term.nesting])
  exact ⟨provenance, after, hparse⟩

end Operations

/-- A grid that is brought to the extent of another one is read at the middles of the cells there as
it is itself; only a NoData value that single precision does not keep is rounded. So two grids with
an operator between them are combined with what lies under the middles of the cells of the first,
and with NoData where the second has no cell. -/
theorem evaluates_under_middles {grid other : Grid ℚ Float Float32} {cells : Raster Float32}
    (h : grid.Consistent) (hother : other.Consistent) (hcells : grid.cells = .resident cells)
    (hplain : other.substitute = none) (hsizes : grid.SizedFor other) :
    ∃ brought direct around,
      (∀ label, Traced.Succeeds (· = brought) (other.reconcile grid.extent label)) ∧
      other.sampleOnto grid = .ok direct ∧ brought.sampleOnto grid = .ok around ∧
      grid.Fits direct ∧ grid.Fits around ∧
      (∀ i j, around.get? i j = (direct.get? i j).map Sample.kept) ∧
      (∀ i j sample, direct.get? i j = some sample →
        sample.isNodata = false ∨ Double.nearest other.nodata = other.nodata →
          around.get? i j = some sample) ∧
      (∀ i j : ℕ, i < grid.rows → j < grid.cols →
        direct.get? i j = some (other.sampleAt (grid.colMiddle j) (grid.rowMiddle i))) ∧
      ∀ (session : Session ℚ Float Float32) (source a b : Text) (op : Operator),
        IsPair session.table.namesLongestFirst source a op b →
        AreOffers [(a, .grid grid), (b, .grid other)] →
        Offering [(a, .grid grid), (b, .grid other)] session →
        ∃ out, Evaluates session source grid out ∧
          ∀ i j cell, cells.get? i j = some cell → out.get? i j = some (grid.combinedCell op cell
            (other.sampleAt (grid.colMiddle j) (grid.rowMiddle i)).kept) := by
  obtain ⟨brought, hbrought, hwide, hhigh, hlogs, hread⟩ := h.exists_around hother hplain hsizes
  obtain ⟨direct, hdirect, hdirectFits, hgetDirect⟩ := hother.isShaped.exists_sampleOnto h.isShaped
  obtain ⟨around, haround, haroundFits, hgetAround⟩ :=
    hbrought.isShaped.exists_sampleOnto h.isShaped
  have hkept (i j : ℕ) : around.get? i j = (direct.get? i j).map Sample.kept := by
    by_cases hwithin : (i : ℤ) < grid.rows ∧ (j : ℤ) < grid.cols
    · rw [hgetDirect i j hwithin.1 hwithin.2, hgetAround i j hwithin.1 hwithin.2,
        hread i j hwithin.1 hwithin.2]
      rfl
    · rw [hdirectFits.get?_eq_none hwithin, haroundFits.get?_eq_none hwithin]
      rfl
  refine ⟨brought, direct, around, hlogs, hdirect, haround, hdirectFits, haroundFits, hkept, ?_,
    hgetDirect, ?_⟩
  · intro i j sample hsample hor
    obtain ⟨hi, hj⟩ : (i : ℤ) < grid.rows ∧ (j : ℤ) < grid.cols := by
      refine Decidable.byContradiction fun hout => ?_
      rw [hdirectFits.get?_eq_none hout] at hsample
      cases hsample
    obtain rfl := Option.some.inj ((hgetDirect i j hi hj).symm.trans hsample)
    rw [hkept, hsample, Option.map_some, Grid.kept_sampleAt hplain hor]
  · intro session source a b op hpair hoffers hsession
    have hfits : grid.Fits cells :=
      h.isShaped.values cells (Grid.values_eq_ok_iff.mpr hcells)
    obtain ⟨samples, hsamples, hsamplesFits, hget⟩ :=
      h.exists_operandSamples hbrought hwide hhigh
    obtain ⟨out, happly, hout, hgetOut⟩ :=
      Grid.exists_apply hcells hfits hsamples hsamplesFits op
    obtain ⟨provenance, after, hparse⟩ := hoffers.exists_parse_operation hsession hpair
      List.mem_cons_self (List.mem_cons_of_mem _ List.mem_cons_self)
      fun scope left right hextent hleft hright => Scope.combine_of_reconciled hextent hleft hright
        (Extent.agrees_self _) hlogs happly
    refine ⟨out, ⟨_, provenance, after, hparse, hout.matches_derive, rfl, rfl⟩, ?_⟩
    intro i j cell hcell
    obtain ⟨hi, hj⟩ := Raster.lt_of_get?_eq_some hcell
    have hrows := hfits.rows
    have hcols := hfits.cols
    rw [hgetOut, hcell, Option.bind_some, hget i j (by omega) (by omega),
      hread i j (by omega) (by omega)]
    rfl

/-- A session in which two names stand for grids. -/
def namedGrids (first second : Grid ℚ Float Float32) : Session ℚ Float Float32 where
  files := ⟨[], []⟩
  table := ⟨[⟨"A".toList, .grid first, .variable, none, none, false⟩,
    ⟨"B".toList, .grid second, .variable, none, none, false⟩], 0⟩

/-- The sum of two grids is read under the middles of the first one: the left cell lies beside the
second grid, and the right one over its first cell. -/
theorem evaluates_under_middles_pair : ∃ out,
    (Grid.pair 0 1 5 7).Consistent ∧ (Grid.pair 1 (3 / 4) 2 3).Consistent ∧
      (Grid.pair 1 (3 / 4) 2 3).substitute = none ∧
      (Grid.pair 0 1 5 7).SizedFor (Grid.pair 1 (3 / 4) 2 3) ∧
      Evaluates (namedGrids (.pair 0 1 5 7) (.pair 1 (3 / 4) 2 3)) "A+B".toList (.pair 0 1 5 7)
        out ∧
      out.get? 0 0 = some (-9999) ∧ out.get? 0 1 = some 9 := by
  have hgrid := Grid.consistent_pair 0 1 5 7
  have hother := Grid.consistent_pair 1 (3 / 4) 2 3
  have hsizes : (Grid.pair 0 1 5 7).SizedFor (Grid.pair 1 (3 / 4) 2 3) := by
    constructor <;> norm_num [Grid.pair]
  obtain ⟨-, -, -, -, -, -, -, -, -, -, -, hevaluates⟩ :=
    evaluates_under_middles hgrid hother rfl rfl hsizes
  have hoffers : AreOffers [("A".toList, Operand.grid (Grid.pair 0 1 5 7)),
      ("B".toList, .grid (Grid.pair 1 (3 / 4) 2 3))] := by
    constructor
    · rintro offer (_ | ⟨_, _ | ⟨_, ⟨⟩⟩⟩) files <;> rfl
    · rintro offer (_ | ⟨_, _ | ⟨_, ⟨⟩⟩⟩) other - hsome <;> cases hsome
  have hsession : Offering [("A".toList, Operand.grid (Grid.pair 0 1 5 7)),
      ("B".toList, .grid (Grid.pair 1 (3 / 4) 2 3))]
      (namedGrids (.pair 0 1 5 7) (.pair 1 (3 / 4) 2 3)) := by
    rintro offer (_ | ⟨_, _ | ⟨_, ⟨⟩⟩⟩)
    · exact ⟨_, rfl, by decide, .inl rfl⟩
    · exact ⟨_, rfl, by decide, .inl rfl⟩
  obtain ⟨out, hout, hget⟩ := hevaluates (namedGrids (.pair 0 1 5 7) (.pair 1 (3 / 4) 2 3))
    "A+B".toList "A".toList "B".toList .add isPair_addition hoffers hsession
  have hrow : (Grid.pair 1 (3 / 4) 2 3).rowAt ((Grid.pair 0 1 5 7).rowMiddle 0) = 0 := by
    norm_num [Grid.rowAt, Grid.rowMiddle, Grid.middle_eq, Grid.pair]
  have hbeside : (Grid.pair 1 (3 / 4) 2 3).sampleAt ((Grid.pair 0 1 5 7).colMiddle 0)
      ((Grid.pair 0 1 5 7).rowMiddle 0) = ⟨-9999, true⟩ := by
    have hcol : (Grid.pair 1 (3 / 4) 2 3).colAt ((Grid.pair 0 1 5 7).colMiddle 0) = -1 := by
      norm_num [Grid.colAt, Grid.colMiddle, Grid.middle_eq, Grid.pair]
    unfold Grid.sampleAt
    rw [Grid.cellAt?_of_resident rfl, hrow, hcol]
    rfl
  have hover : (Grid.pair 1 (3 / 4) 2 3).sampleAt ((Grid.pair 0 1 5 7).colMiddle 1)
      ((Grid.pair 0 1 5 7).rowMiddle 0) = ⟨Cell.widen (2 : Float32), false⟩ := by
    have hcol : (Grid.pair 1 (3 / 4) 2 3).colAt ((Grid.pair 0 1 5 7).colMiddle 1) = 0 := by
      norm_num [Grid.colAt, Grid.colMiddle, Grid.middle_eq, Grid.pair]
    unfold Grid.sampleAt
    rw [Grid.cellAt?_of_resident rfl, hrow, hcol]
    rfl
  refine ⟨out, hgrid, hother, rfl, hsizes, hout, ?_, ?_⟩
  · rw [hget 0 0 5 rfl, hbeside]
    rfl
  · rw [hget 0 1 7 rfl, hover]
    decide +kernel

end Expression

end MapAlgebra
