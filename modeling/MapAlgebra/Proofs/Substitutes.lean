import MapAlgebra.Proofs.Overlays
import MapAlgebra.Proofs.Pairs

/-!
# Values that stand in for NoData

With the settings for it, cells without data take part in calculations with a value of the settings.
The value is given to a grid when its name is looked up. A merge that cuts the second grid to the
extent of the first one loses it.
-/

namespace MapAlgebra

variable {K V S : Type} [Coordinate K] [Number V] [Cell S V]

namespace Grid

/-- What a cell counts as when cells without data count as a value. -/
def filled (value : V) (grid : Grid K V S) (cell : S) : V :=
  if holdsNodata grid.nodata cell then value else Cell.widen cell

/-- The cell for the result of an operator, without data only if the result is not finite. -/
def resultCell (grid : Grid K V S) (op : Operator) (a b : V) : S :=
  let result := op.calculate false a b
  Cell.narrow (if Number.isFinite result then result else grid.nodata)

/-- The grid with a value that stands in for cells without data. -/
def counting (grid : Grid K V S) (value : V) : Grid K V S :=
  { grid with substitute := some value }

omit [Coordinate K] in
theorem sample_counting (grid : Grid K V S) (value : V) (cell : S) :
    (grid.counting value).sample cell = ⟨grid.filled value cell, false⟩ :=
  rfl

omit [Coordinate K] in
theorem combinedCell_counting (grid : Grid K V S) {op : Operator} (hop : op.isArithmetic)
    (value : V) (cell : S) (b : V) :
    (grid.counting value).combinedCell op cell ⟨b, false⟩ =
      grid.resultCell op (grid.filled value cell) b := by
  unfold combinedCell combineSamples resultCell
  rw [sample_counting]
  simp only [hop, Bool.true_and, Bool.or_false, Bool.false_or, Bool.not_eq_true']
  congr 1
  cases Number.isFinite (op.calculate false (grid.filled value cell) b) <;> rfl

omit [Coordinate K] in
theorem combinedCell_nodata (grid : Grid K V S) {op : Operator} (hop : op.isArithmetic)
    (value : V) (cell : S) (b : V) :
    (grid.counting value).combinedCell op cell ⟨b, true⟩ = Cell.narrow grid.nodata := by
  unfold combinedCell combineSamples
  simp only [hop, Bool.true_and, Bool.or_true, Bool.true_or, if_true]
  rfl

section Geometry

variable {inner outer : Grid ℚ V S}

omit [Number V] [Cell S V] in
theorem Consistent.counting (h : inner.Consistent) (value : V) :
    (inner.counting value).Consistent :=
  have ⟨cells, hcells, hfits⟩ := h.isShaped
  ⟨⟨cells, hcells, hfits.rows, hfits.cols⟩, h.right, h.upper⟩

omit [Number V] [Cell S V] in
theorem Overlies.counting {down across : ℕ} (h : outer.Overlies inner down across) (value : V) :
    (outer.counting value).Overlies (inner.counting value) down across :=
  ⟨h.cellWidth, h.cellHeight, h.left, h.upper, h.right, h.lower⟩

/-- The cell of the result over a cell of each grid: without data where the outer grid was cut and
has no data itself. -/
def mergedCell (outer inner : Grid ℚ V S) (op : Operator) (value : V) (x y : S) : S :=
  if outer.extent.agrees inner.extent ∨ ¬ holdsNodata outer.nodata y then
    inner.resultCell op (inner.filled value x) (outer.filled value y)
  else Cell.narrow inner.nodata

theorem combinedCell_mergedSample (outer inner : Grid ℚ V S) {op : Operator} (hop : op.isArithmetic)
    (value : V) (x y : S) :
    (inner.counting value).combinedCell op x
      ((outer.counting value).mergedSample (inner.counting value) y) =
        outer.mergedCell inner op value x y := by
  have hsample : (outer.counting value).mergedSample (inner.counting value) y =
      if outer.extent.agrees inner.extent then ⟨outer.filled value y, false⟩
      else ⟨Cell.widen y, holdsNodata outer.nodata y⟩ := rfl
  unfold mergedCell
  rw [hsample]
  by_cases hagrees : outer.extent.agrees inner.extent
  · rw [if_pos hagrees, if_pos (.inl hagrees), combinedCell_counting _ hop]
  · rw [if_neg hagrees]
    unfold filled
    cases hdata : holdsNodata outer.nodata y with
    | false =>
        rw [if_pos (.inr Bool.false_ne_true), combinedCell_counting _ hop]
        rfl
    | true =>
        rw [if_neg (by simp [hagrees]), combinedCell_nodata _ hop]

end Geometry

end Grid

namespace Expression

variable {inner outer : Grid ℚ V S} {down across : ℕ} {own cells : Raster S}

/-- A grid and another one around it are combined in the cells of the first. -/
theorem Scope.succeeds_combine (scope : Scope ℚ V) (hextent : scope.settings.extent = none)
    (left : Part ℚ V S) (hleft : left.value = .grid inner)
    (hleftToken : isNodataToken left.token = false) (right : Part ℚ V S)
    (hright : right.value = .grid outer)
    (hrightToken : isNodataToken right.token = false) (hover : outer.Overlies inner down across)
    (houter : outer.Consistent) (hinner : inner.Consistent) (hwidth : 0 < inner.cellWidth)
    (hheight : 0 < inner.cellHeight) (hown : inner.cells = .resident own)
    (hcells : outer.cells = .resident cells)
    (hsize : outer.extent.agrees inner.extent ∨ inner.extent.isEmpty = false) (op : Operator) :
    Traced.Succeeds (fun value => ∃ out, value = .grid (inner.derive out) ∧ inner.Fits out ∧
        ∀ i j : ℕ, i < inner.rows → j < inner.cols → out.get? i j =
          (own.get? i j).bind fun x => (cells.get? (down + i) (across + j)).map fun y =>
            inner.combinedCell op x (outer.mergedSample inner y))
      (scope.combine left op right) := by
  obtain ⟨reconciled, samples, hreconcile, hsamples, hfits, hget⟩ :=
    hover.exists_reconciled houter hinner hwidth hheight hcells hsize "right operand"
  obtain ⟨out, happly, hout, houtget⟩ := Grid.exists_apply hown
    (hinner.isShaped.values own (Grid.values_eq_ok_iff.mpr hown)) hsamples hfits op
  have hresolved : nodataResolved left right = (.grid inner, .grid outer) := by
    unfold nodataResolved
    rw [hleftToken, hrightToken, hleft, hright]
    rfl
  unfold combine
  rw [hresolved, hextent]
  refine .bind (p := (· = .grid inner)) ?_ fun a ha => ?_
  · exact (Grid.reconcile_of_agrees (inner.extent.agrees_self) _).bind fun kept hkept =>
      .pure (congrArg Operand.grid hkept)
  · refine .bind (p := (· = .grid reconciled)) ?_ fun b hb => ?_
    · exact hreconcile.bind fun kept hkept => .pure (congrArg Operand.grid hkept)
    · subst ha hb
      refine .lift (a := .grid (inner.derive out)) ?_ ⟨out, rfl, hout, fun i j hi hj => ?_⟩
      · show (inner.apply op (.grid reconciled) >>= fun g => pure (Operand.grid g)) = _
        rw [happly]
        rfl
      · rw [houtget, hget i j hi hj]
        simp only [Option.map_map, Function.comp_def]

end Expression

omit [Coordinate K] [Number V] [Cell S V] in
/-- A value that changes its state changes it wherever it is bound. -/
theorem VariableTable.get?_update (table : VariableTable K V S) (value : Operand K V S)
    (name : Text) :
    (table.update value).get? name = (table.get? name).map fun binding =>
      if value.slot.isSome ∧ binding.value.slot = value.slot then { binding with value }
      else binding := by
  unfold update get?
  cases hslot : value.slot with
  | none => simp
  | some slot =>
      have hnamed (binding : Binding K V S) :
          (if binding.value.slot = some slot then { binding with value } else binding).name =
            binding.name := by
        split <;> rfl
      simp only [Option.isNone_some, Bool.false_eq_true, if_false, List.find?_map,
        Option.isSome_some, true_and, beq_iff_eq, Function.comp_def, hnamed]

/-- A name is bound to a grid, which is as given once it is loaded. -/
def Session.Binds (session : Session K V S) (name : Text) (grid : Grid K V S) : Prop :=
  ∃ binding, session.table.get? name = some binding ∧
    binding.value.load session.files = .ok (.grid grid) ∧
    Expression.isNodataToken binding.name = false

/-- The session after the grid was looked up, with the value for its cells without data. -/
def Session.afterCounting (session : Session K V S) (grid : Grid K V S) (value : V) :
    Session K V S :=
  { session with
    table := session.table.update (.grid (grid.counting value))
    counter := session.counter + 1 }

theorem Operand.slot_of_load {files : FileTree} {operand value : Operand K V S}
    (h : operand.load files = .ok value) : operand.slot = value.slot := by
  have hreloaded : operand.Reloaded (Expression.substituteNodata ({} : Settings K V) value) :=
    .of_load h
  rw [← hreloaded.slot_eq]
  cases value <;> rfl

theorem Grid.load_of_resident {files : FileTree} {grid : Grid K V S} {cells : Raster S}
    (h : grid.cells = .resident cells) :
    (Operand.grid grid).load files = .ok (.grid grid) := by
  have hload : grid.load files = .ok grid := by
    unfold load
    rw [h]
    rfl
  show (grid.load files >>= fun g => pure (Operand.grid g)) = _
  rw [hload]
  rfl

/-- Looking a grid up leaves the other grids as they are. A grid at the same slot is the same. -/
theorem Session.Binds.afterCounting {session : Session K V S} {name : Text}
    {inner outer : Grid K V S} {cells : Raster S} (h : session.Binds name outer)
    (hcells : inner.cells = .resident cells)
    (hslots : inner.slot.isSome → outer.slot = inner.slot → outer = inner) (value : V) :
    ∃ grid, (session.afterCounting inner value).Binds name grid ∧
      grid.counting value = outer.counting value := by
  obtain ⟨binding, hbinding, hload, hname⟩ := h
  have hfound := session.table.get?_update (.grid (inner.counting value)) name
  rw [hbinding, Option.map_some] at hfound
  split at hfound
  next hsame =>
    have houter : outer = inner :=
      hslots hsame.1 ((Operand.slot_of_load hload).symm.trans hsame.2)
    have hcounting : (inner.counting value).cells = .resident cells := hcells
    exact ⟨inner.counting value, ⟨_, hfound, Grid.load_of_resident hcounting, hname⟩, by
      rw [houter]; rfl⟩
  next => exact ⟨outer, ⟨binding, hfound, hload, hname⟩, rfl⟩

namespace Expression

/-- The settings with which cells without data count as a value, each grid at its own extent. -/
structure CountsNodataAs (settings : Settings K V) (value : V) : Prop where
  nodataAsValue : settings.nodataAsValue
  nodata : settings.nodata = some value
  extent : settings.extent = none
  maxDepth : 0 ≤ settings.maxDepth

/-- A placeholder is looked up as the grid behind its name, which counts from then on. -/
theorem from?_resolveToken {settings : Settings K V} {value : V}
    (hsettings : CountsNodataAs settings value) {prepared : Prepared} {index : Nat} {name : Text}
    (hname : prepared.name? (placeholder index) = some name) {session : Session K V S}
    {binding : Binding K V S} (hbinding : session.table.get? name = some binding)
    {grid : Grid K V S} (hload : binding.value.load session.files = .ok (.grid grid)) :
    Run.from? session ((⟨settings, prepared⟩ : Scope K V).resolveToken (placeholder index)) =
      (.ok ⟨.grid (grid.counting value), .variable, binding.name⟩,
        { session with table := session.table.update (.grid (grid.counting value)) }) := by
  have hvalue : Operand.grid (grid.counting value) = substituteNodata settings (.grid grid) := by
    unfold substituteNodata
    dsimp only
    rw [if_pos hsettings.nodataAsValue, hsettings.nodata]
    rfl
  exact resolveToken_eq_ok.mpr (.name (literal?_placeholder index)
    (.variable hname (VariableTable.item_eq_ok_iff.mpr hbinding) hload hvalue) .plain)

/-- When cells without data count as a value, a grid and another one around it are combined with
the value in place of NoData, except where the outer grid is cut and has no data itself. -/
theorem cells_of_parse_pair [Conversion ℚ V] {settings : Settings ℚ V} {value : V}
    (hsettings : CountsNodataAs settings value) {session : Session ℚ V S} {source a b : Text}
    {op : Operator} (hop : op.isArithmetic)
    (hpair : IsPair session.table.namesLongestFirst source a op b) {inner outer : Grid ℚ V S}
    (ha : session.Binds a inner) (hb : session.Binds b outer)
    (hslots : inner.slot.isSome → outer.slot = inner.slot → outer = inner)
    (hinner : inner.Consistent) (houter : outer.Consistent) (hwidth : 0 < inner.cellWidth)
    (hheight : 0 < inner.cellHeight) {down across : ℕ} (hover : outer.Overlies inner down across)
    (hsize : outer.extent.agrees inner.extent ∨ inner.extent.isEmpty = false) :
    (settings.traces = false → ∃ result provenance after,
      Run.from? session (parse settings source) = (.ok (result, provenance), after)) ∧
    ∀ result provenance after,
      Run.from? session (parse settings source) = (.ok (result, provenance), after) →
        ∃ grid own cells out, result = .grid grid ∧ inner.Matches grid ∧
          grid.nodata = inner.nodata ∧ inner.cells = .resident own ∧
          outer.cells = .resident cells ∧ grid.cells = .resident out ∧
          ∀ (i j : ℕ) (x : S), own.get? i j = some x →
            ∃ y, cells.get? (down + i) (across + j) = some y ∧
              out.get? i j = some (outer.mergedCell inner op value x y) := by
  obtain ⟨prepared, left, right, hprepare, htext, hleft, hright⟩ := hpair
  obtain ⟨m, rfl⟩ := exists_placeholder_of_name? hprepare hleft
  obtain ⟨n, rfl⟩ := exists_placeholder_of_name? hprepare hright
  obtain ⟨own, hown, hfits⟩ := hinner.isShaped
  obtain ⟨cells, hcells, hspan⟩ := houter.isShaped
  -- the names are looked up one after the other, the second one in the changed table
  obtain ⟨_, hbound, hcounting⟩ := hb.afterCounting hown hslots value
  obtain ⟨first, hfirst, hloadFirst, hfirstName⟩ := ha
  obtain ⟨second, hsecond, hloadSecond, hsecondName⟩ := hbound
  have hlookup := from?_resolveToken hsettings hleft hfirst hloadFirst
  have hlookup' := from?_resolveToken hsettings hright hsecond hloadSecond
  rw [hcounting] at hlookup'
  have hsucceeds := Scope.succeeds_combine ⟨settings, prepared⟩ hsettings.extent
    ⟨.grid (inner.counting value), .variable, first.name⟩ rfl hfirstName
    ⟨.grid (outer.counting value), .variable, second.name⟩ rfl hsecondName (hover.counting value)
    (houter.counting value) (hinner.counting value) hwidth hheight hown hcells hsize op
  obtain ⟨_, records, hmerged, out, rfl, hout, hget⟩ := hsucceeds []
  obtain ⟨hexists, hunique⟩ := parse_pair_eq_ok hprepare htext (isToken_placeholder m)
    (not_awaitsSign_placeholder m) (isToken_placeholder n) hsettings.maxDepth hlookup
    hlookup' (congrArg Prod.fst hmerged)
  refine ⟨fun htraces => ⟨_, hexists htraces⟩, fun result provenance after hresult => ?_⟩
  refine ⟨_, own, cells, out, hunique result provenance after hresult, ?_, rfl, hown, hcells, rfl,
    fun i j x hx => ?_⟩
  · have hown : inner.Fits out := ⟨hout.rows, hout.cols⟩
    exact hown.matches_derive
  · obtain ⟨hi, hj⟩ := Raster.lt_of_get?_eq_some hx
    have hrows := hfits.rows
    have hcols := hfits.cols
    have hrowsle := hover.rows_le houter hinner hheight
    have hcolsle := hover.cols_le houter hinner hwidth
    have hspanRows := hspan.rows
    have hspanCols := hspan.cols
    have hy := cells.get?_eq_get (by omega : down + i < cells.rows)
      (by omega : across + j < cells.cols)
    have hwithin : (i : ℤ) < inner.rows ∧ (j : ℤ) < inner.cols := by omega
    have hcell := hget i j hwithin.1 hwithin.2
    rw [hx, hy, Option.bind_some, Option.map_some,
      Grid.combinedCell_mergedSample outer inner hop] at hcell
    exact ⟨_, hy, hcell⟩

/-- A grid of one cell that holds one. -/
def oneCell : Grid ℚ Float Float32 where
  extent := ⟨0, 0, 1, 1⟩
  cellWidth := 1
  cellHeight := 1
  nodata := -9999
  name := Grid.defaultName
  rows := 1
  cols := 1
  cells := .resident (.fill 1 1 1)
  slot := some 0

/-- A grid around it, without data in the cell over it. -/
def twoCells : Grid ℚ Float Float32 where
  extent := ⟨0, 0, 2, 1⟩
  cellWidth := 1
  cellHeight := 1
  nodata := -9999
  name := Grid.defaultName
  rows := 1
  cols := 2
  cells := .resident (.ofFn 1 2 fun _ j => if j = 0 then -9999 else 5)
  slot := some 1

def twoGrids : Session ℚ Float Float32 where
  files := ⟨[], []⟩
  table := ⟨[⟨"A".toList, .grid oneCell, .variable, none, none, false⟩,
    ⟨"B".toList, .grid twoCells, .variable, none, none, false⟩], 2⟩

/-- Cells without data count as nought. -/
def countsAsZero : Settings ℚ Float where
  nodataAsValue := true
  nodata := some 0

def addition : Prepared :=
  ⟨"A+B".toList, "#0#+#1#".toList, [("#0#".toList, "A".toList), ("#1#".toList, "B".toList)]⟩

theorem prepare_addition :
    prepare "A+B".toList twoGrids.table.namesLongestFirst = .ok addition := by
  have hnames : twoGrids.table.namesLongestFirst = ["A".toList, "B".toList] :=
    List.mergeSort_of_pairwise (by decide)
  rw [hnames]
  decide +kernel

theorem countsNodataAs_zero : CountsNodataAs countsAsZero 0 :=
  ⟨rfl, rfl, rfl, by decide⟩

theorem consistent_oneCell : oneCell.Consistent :=
  ⟨⟨_, rfl, rfl, rfl⟩, by norm_num [oneCell], by norm_num [oneCell]⟩

theorem consistent_twoCells : twoCells.Consistent :=
  ⟨⟨_, rfl, rfl, rfl⟩, by norm_num [twoCells], by norm_num [twoCells]⟩

theorem overlies_twoCells : twoCells.Overlies oneCell 0 0 :=
  ⟨rfl, rfl, by norm_num [oneCell, twoCells], by norm_num [oneCell, twoCells], by decide, by decide⟩

theorem isPair_addition :
    IsPair twoGrids.table.namesLongestFirst "A+B".toList "A".toList .add "B".toList :=
  ⟨addition, "#0#".toList, "#1#".toList, prepare_addition, by decide, by decide,
    by decide⟩

theorem binds_oneCell : twoGrids.Binds "A".toList oneCell :=
  ⟨_, rfl, rfl, by decide⟩

theorem binds_twoCells : twoGrids.Binds "B".toList twoCells :=
  ⟨_, rfl, rfl, by decide⟩

/-- The grids are added in the one cell they share. -/
theorem cells_of_parse_addition : ∃ grid provenance after out,
    IsPair twoGrids.table.namesLongestFirst "A+B".toList "A".toList .add "B".toList ∧
      twoGrids.Binds "A".toList oneCell ∧ twoGrids.Binds "B".toList twoCells ∧
      twoCells.Overlies oneCell 0 0 ∧
      Run.from? twoGrids (parse countsAsZero "A+B".toList) =
        (.ok (.grid grid, provenance), after) ∧
      oneCell.Matches grid ∧ grid.cells = .resident out ∧
      out.get? 0 0 = some (twoCells.mergedCell oneCell .add 0 1 (-9999)) := by
  obtain ⟨hexists, hcells⟩ := cells_of_parse_pair countsNodataAs_zero rfl isPair_addition
    binds_oneCell binds_twoCells (fun _ h => nomatch h) consistent_oneCell consistent_twoCells
    (by decide) (by decide) overlies_twoCells (.inr (by decide +kernel))
  obtain ⟨result, provenance, after, hparse⟩ := hexists rfl
  obtain ⟨grid, own, cells, out, rfl, hmatches, -, hown, hspan, hout, hget⟩ :=
    hcells result provenance after hparse
  cases hown
  cases hspan
  obtain ⟨y, hy, hcell⟩ := hget 0 0 1 rfl
  have hfirst : y = -9999 := Option.some.inj (hy.symm.trans (Raster.get?_ofFn _ 0 0))
  rw [hfirst] at hcell
  exact ⟨grid, provenance, after, out, isPair_addition, binds_oneCell, binds_twoCells,
    overlies_twoCells, hparse, hmatches, hout, hcell⟩

/-- The bits of the first cell. -/
def firstBits? : Operand ℚ Float Float32 → Option UInt32
  | .constant _ => none
  | .grid grid => grid.values.toOption.bind fun cells => (cells.get? 0 0).map Float32.toBits

/-- The cell over the first one has no data and counts as nought, yet the sum has no data. -/
theorem nodata_of_parse_addition : ∃ result provenance after,
    CountsNodataAs countsAsZero 0 ∧
      IsPair twoGrids.table.namesLongestFirst "A+B".toList "A".toList .add "B".toList ∧
      twoGrids.Binds "A".toList oneCell ∧ twoGrids.Binds "B".toList twoCells ∧
      oneCell.Consistent ∧ twoCells.Consistent ∧ twoCells.Overlies oneCell 0 0 ∧
      Run.from? twoGrids (parse countsAsZero "A+B".toList) =
        (.ok (result, provenance), after) ∧
      firstBits? result = some 0xc61c3c00 ∧
      firstBits? (.grid oneCell) = some 0x3f800000 ∧
      firstBits? (.grid twoCells) = some 0xc61c3c00 ∧
      (oneCell.resultCell .add (oneCell.filled 0 1) (twoCells.filled 0 (-9999))).toBits =
        0x3f800000 := by
  let scope : Scope ℚ Float := ⟨countsAsZero, addition⟩
  let first : Part ℚ Float Float32 := ⟨.grid (oneCell.counting 0), .variable, "A".toList⟩
  let second : Part ℚ Float Float32 := ⟨.grid (twoCells.counting 0), .variable, "B".toList⟩
  have hfirst := from?_resolveToken countsNodataAs_zero
    (by decide : addition.name? (placeholder 0) = some "A".toList)
    (rfl : twoGrids.table.get? "A".toList = some ⟨_, _, _, _, _, _⟩) rfl
  have hsecond := from?_resolveToken countsNodataAs_zero
    (by decide : addition.name? (placeholder 1) = some "B".toList)
    (rfl : (twoGrids.afterCounting oneCell 0).table.get? "B".toList = some ⟨_, _, _, _, _, _⟩) rfl
  have hcombine : (scope.combine first .add second).outcome.1.toOption.any
      (fun value => firstBits? value == some 0xc61c3c00) := by decide +kernel
  cases houtcome : (scope.combine first .add second).outcome.1 with
  | error fault =>
      rw [houtcome] at hcombine
      cases hcombine
  | ok value =>
      rw [houtcome] at hcombine
      obtain ⟨hexists, -⟩ := parse_pair_eq_ok prepare_addition (by decide)
        (isToken_placeholder 0) (not_awaitsSign_placeholder 0) (isToken_placeholder 1)
        countsNodataAs_zero.maxDepth hfirst hsecond houtcome
      obtain ⟨provenance, after, hparse⟩ := hexists rfl
      exact ⟨value, provenance, after, countsNodataAs_zero, isPair_addition, binds_oneCell,
        binds_twoCells, consistent_oneCell, consistent_twoCells, overlies_twoCells, hparse,
        beq_iff_eq.mp hcombine, by decide, by decide, by decide +kernel⟩

end Expression

end MapAlgebra
