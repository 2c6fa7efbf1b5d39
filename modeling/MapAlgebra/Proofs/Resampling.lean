import MapAlgebra.Proofs.Comparisons

/-!
# Replacing by grids that were sampled first

A mask and a replacement in the geometry of a grid are taken cell by cell, as they are stored. Read
at the middles of the cells first, they are what calculations read: the same numbers, but with the
substitute in place of NoData. So the two ways of replacing cells agree without substitutes, and a
substitute that counts as data makes a difference.
-/

namespace MapAlgebra

variable {K V S : Type}

namespace Grid

section Cells

variable [Number V] [Cell S V]

/-- What sampling leaves of a cell. -/
def restated (grid : Grid K V S) (cell : S) : S :=
  Cell.narrow (if (grid.sample cell).isNodata then grid.nodata else (grid.sample cell).value)

/-- What a replacement puts into a grid: its cell, and for NoData the NoData value of the grid. -/
def supplied (grid other : Grid K V S) (source : S) : S :=
  if holdsNodata other.nodata source then Cell.narrow grid.nodata else source

/-- What becomes of a cell of a grid by the cells of a mask and of a replacement in its place. -/
def replaced (grid mask other : Grid K V S) (mark source own : S) : S :=
  if selects mask.nodata mark then grid.supplied other source else own

theorem selects_eq_false_of_holdsNodata {nodata : V} {mark : S} (h : holdsNodata nodata mark) :
    selects nodata mark = false := by
  unfold selects
  rw [h, Bool.not_true, Bool.and_false]

/-- A substitute of a mask or of a replacement makes no difference to a cell. It makes one if it
selects a cell that holds something else, or if it counts as data and is taken over. -/
structure Indifferent (grid mask other : Grid K V S) (mark source own : S) : Prop where
  unselected : holdsNodata mask.nodata mark → selects mask.nodata (mask.restated mark) →
    grid.supplied other (other.restated source) = own
  supplied : selects mask.nodata mark → holdsNodata other.nodata source →
    grid.supplied other (other.restated source) = Cell.narrow grid.nodata

end Cells

section SinglePrecision

variable {grid mask other : Grid K Float Float32} {cell mark source own : Float32}

theorem restated_of_data (h : holdsNodata grid.nodata cell = false) :
    grid.restated cell = cell := by
  unfold restated
  rw [sample_of_data h]
  exact Double.toSingle_ofSingle cell

/-- Without a substitute the cells that hold no data stay the same. -/
theorem holdsNodata_restated (hplain : grid.substitute = none) (cell : Float32) :
    holdsNodata grid.nodata (grid.restated cell) = holdsNodata grid.nodata cell := by
  cases hnodata : holdsNodata grid.nodata cell with
  | false => rw [restated_of_data hnodata, hnodata]
  | true =>
      have hsample : (grid.sample cell).isNodata = true := by
        rw [sample_of_plain hplain]
        exact hnodata
      unfold restated
      rw [if_pos hsample]
      exact Double.holdsNodata_narrow grid.nodata

/-- The substitutes make no difference exactly where the cell stays what it is without sampling. -/
theorem replaced_restated_iff :
    grid.replaced mask other (mask.restated mark) (other.restated source) own =
        grid.replaced mask other mark source own ↔
      grid.Indifferent mask other mark source own := by
  have hkept (h : holdsNodata other.nodata source = false) :
      grid.supplied other (other.restated source) = grid.supplied other source := by
    rw [restated_of_data h]
  have hnodata (h : holdsNodata other.nodata source = true) :
      grid.supplied other source = Cell.narrow grid.nodata := if_pos h
  unfold replaced
  cases hmark : holdsNodata mask.nodata mark with
  | true =>
      -- the stored mask does not select
      have hnot := selects_eq_false_of_holdsNodata hmark
      rw [hnot, if_neg Bool.false_ne_true]
      constructor
      · intro hsame
        refine ⟨fun _ hselects => ?_, fun hselects => absurd (hnot.symm.trans hselects) nofun⟩
        rwa [if_pos hselects] at hsame
      · intro h
        split
        next hselects => exact h.unselected hmark hselects
        next => rfl
  | false =>
      -- the mask selects as it did
      rw [restated_of_data hmark]
      constructor
      · intro hsame
        refine ⟨fun hholds => absurd (hmark.symm.trans hholds) nofun, fun hselects hholds => ?_⟩
        rwa [if_pos hselects, if_pos hselects, hnodata hholds] at hsame
      · intro h
        split
        next hselects =>
          cases hholds : holdsNodata other.nodata source with
          | false => exact hkept hholds
          | true => rw [h.supplied hselects hholds, hnodata hholds]
        next => rfl

theorem indifferent_of_plain (hmask : mask.substitute = none) (hother : other.substitute = none) :
    grid.Indifferent mask other mark source own where
  unselected hholds hselects := by
    rw [← holdsNodata_restated hmask] at hholds
    exact absurd ((selects_eq_false_of_holdsNodata hholds).symm.trans hselects) nofun
  supplied _ hholds := by
    rw [← holdsNodata_restated hother] at hholds
    exact if_pos hholds

end SinglePrecision

section Sampling

variable [Coordinate K] [Number V] [Cell S V] {grid other : Grid K V S}

/-- The middle of a cell lies in the cell, as the arithmetic of the coordinates has it. -/
structure InPlace (grid : Grid K V S) (i j : ℕ) : Prop where
  row : grid.rowOver grid i = i
  col : grid.colOver grid j = j

/-- A grid sampled over another one has its cells restated, and NoData where it has none. -/
theorem exists_sampleTo_over {target : Grid K V S} {cells : Raster S}
    (hcells : grid.cells = .resident cells) (hfits : grid.Fits cells) (htarget : target.IsShaped)
    (hwidth : ¬ target.cellWidth ≤ Coordinate.zero) :
    ∃ sampled out, grid.sampleTo target = .ok sampled ∧ target.Matches sampled ∧
      sampled.nodata = grid.nodata ∧ sampled.cells = .resident out ∧ target.Fits out ∧
      ∀ i j : ℕ, i < target.rows → j < target.cols →
        out.get? i j = some (((cells.at? (grid.rowOver target i) (grid.colOver target j)).map
          grid.restated).getD (Cell.narrow grid.nodata)) := by
  obtain ⟨samples, hsamples, hshape, hget⟩ := exists_sampleOnto_over hcells hfits htarget
  let out := samples.map fun sample =>
    (Cell.narrow (if sample.isNodata then grid.nodata else sample.value) : S)
  obtain ⟨sampled, hsampled, hnodata, hout⟩ : ∃ sampled, grid.sampleTo target = .ok sampled ∧
      sampled.nodata = grid.nodata ∧ sampled.cells = .resident out := by
    unfold sampleTo of
    rw [hsamples]
    simp only [bind, Except.bind, if_neg hwidth]
    exact ⟨_, rfl, rfl, rfl⟩
  refine ⟨sampled, out, hsampled, matches_sampleTo grid target sampled hsampled, hnodata, hout,
    hshape.map _, fun i j hi hj => ?_⟩
  rw [Raster.get?_map, hget i j hi hj]
  cases cells.at? (grid.rowOver target i) (grid.colOver target j) <;> rfl

/-- A grid that was sampled in its own geometry has all its cells restated. -/
theorem Sound.exists_sampleTo {cells held : Raster S} (h : grid.Sound cells)
    (hother : other.Sound held) (hmatches : grid.Matches other) :
    ∃ sampled out, other.sampleTo grid = .ok sampled ∧ grid.Matches sampled ∧
      sampled.Sound out ∧ sampled.nodata = other.nodata ∧
      ∀ i j, grid.InPlace i j → out.get? i j = (held.get? i j).map other.restated := by
  obtain ⟨sampled, out, hsampled, hplace, hnodata, hout, houtFits, hget⟩ :=
    exists_sampleTo_over hother.resident hother.fits h.isShaped h.width_pos
  refine ⟨sampled, out, hsampled, hplace, h.of_matches hplace hout, hnodata, ?_⟩
  intro i j hin
  have hrow : other.rowOver grid i = i := by
    rw [← hin.row]
    unfold rowOver
    rw [hmatches.extent, hmatches.cellHeight]
  have hcol : other.colOver grid j = j := by
    rw [← hin.col]
    unfold colOver
    rw [hmatches.extent, hmatches.cellWidth]
  have hfits := hother.fits.of_sameGeometry (hmatches.sameGeometry h.sameGeometry).1
  by_cases hwithin : (i : ℤ) < grid.rows ∧ (j : ℤ) < grid.cols
  · obtain ⟨found, hfound⟩ := hfits.exists_get? hwithin
    rw [hget i j hwithin.1 hwithin.2, hrow, hcol, Raster.at?_natCast, hfound]
    rfl
  · rw [hfits.get?_eq_none hwithin, houtFits.get?_eq_none hwithin]
    rfl

end Sampling

variable [Coordinate K] {grid mask other : Grid K Float Float32}
variable {cells marks held : Raster Float32}

/-- Replaced as they are stored, the selected cells are those of the replacement, with the NoData
value of the grid for NoData. Where the middle of a cell lies in it, a mask and a replacement that
were sampled first leave the same cell exactly if their substitutes make no difference to it. -/
theorem Sound.exists_replaced (h : grid.Sound cells) (hmask : mask.Sound marks)
    (hother : other.Sound held) (hmaskPlace : grid.Matches mask) (hplace : grid.Matches other) :
    ∃ sampledMask sampledOther direct around,
      mask.sampleTo grid = .ok sampledMask ∧ other.sampleTo grid = .ok sampledOther ∧
      grid.replace mask (.inr other) = .ok (grid.derive direct) ∧
      grid.replace sampledMask (.inr sampledOther) = .ok (grid.derive around) ∧
      grid.Fits direct ∧ grid.Fits around ∧
      (∀ i j mark source own, marks.get? i j = some mark → held.get? i j = some source →
        cells.get? i j = some own →
          direct.get? i j = some (grid.replaced mask other mark source own) ∧
          (grid.InPlace i j → (around.get? i j = direct.get? i j ↔
            grid.Indifferent mask other mark source own))) ∧
      (mask.substitute = none → other.substitute = none →
        ∀ i j, grid.InPlace i j → around.get? i j = direct.get? i j) := by
  have hsame := (hmaskPlace.sameGeometry h.sameGeometry).1
  have hsource := (hplace.sameGeometry h.sameGeometry).1
  obtain ⟨sampledMask, sampledMarks, hsampledMask, hmaskMatches, hmaskSound, hmaskNodata,
    hgetMarks⟩ := h.exists_sampleTo hmask hmaskPlace
  obtain ⟨sampledOther, sampledHeld, hsampledOther, hotherMatches, hotherSound, hotherNodata,
    hgetHeld⟩ := h.exists_sampleTo hother hplace
  obtain ⟨direct, hdirect, hdirectFits, hgetDirect⟩ :=
    h.exists_replace_grid hmask hsame hother hsource
  obtain ⟨around, haround, haroundFits, hgetAround⟩ := h.exists_replace_grid hmaskSound
    (hmaskMatches.sameGeometry h.sameGeometry).1 hotherSound
    (hotherMatches.sameGeometry h.sameGeometry).1
  have hmarksFits := hmask.fits.of_sameGeometry hsame
  have hheldFits := hother.fits.of_sameGeometry hsource
  have hcell (i j mark source own) (hmark : marks.get? i j = some mark)
      (hheld : held.get? i j = some source) (hown : cells.get? i j = some own) :
      direct.get? i j = some (grid.replaced mask other mark source own) ∧
        (grid.InPlace i j → (around.get? i j = direct.get? i j ↔
          grid.Indifferent mask other mark source own)) := by
    have hleft : direct.get? i j = some (grid.replaced mask other mark source own) := by
      rw [hgetDirect, hmark, hheld, hown]
      rfl
    refine ⟨hleft, fun hin => ?_⟩
    have hright : around.get? i j = some
        (grid.replaced mask other (mask.restated mark) (other.restated source) own) := by
      rw [hgetAround, hgetMarks i j hin, hgetHeld i j hin, hmark, hheld, hown, hmaskNodata,
        hotherNodata]
      rfl
    rw [hleft, hright, Option.some.injEq]
    exact replaced_restated_iff
  refine ⟨sampledMask, sampledOther, direct, around, hsampledMask, hsampledOther, hdirect,
    haround, hdirectFits, haroundFits, hcell, fun hplainMask hplain i j hin => ?_⟩
  by_cases hwithin : (i : ℤ) < grid.rows ∧ (j : ℤ) < grid.cols
  · obtain ⟨mark, hmark⟩ := hmarksFits.exists_get? hwithin
    obtain ⟨source, hheld⟩ := hheldFits.exists_get? hwithin
    obtain ⟨own, hown⟩ := h.fits.exists_get? hwithin
    exact ((hcell i j mark source own hmark hheld hown).2 hin).mpr
      (indifferent_of_plain hplainMask hplain)
  · rw [hdirectFits.get?_eq_none hwithin, haroundFits.get?_eq_none hwithin]

/-- With exact coordinates the middle of a cell lies in the cell. -/
theorem inPlace_of_ne_zero {grid : Grid ℚ V S} (hwidth : grid.cellWidth ≠ 0)
    (hheight : grid.cellHeight ≠ 0) (i j : ℕ) : grid.InPlace i j := by
  have hfloor {size : ℚ} (hsize : size ≠ 0) (k : ℕ) : ⌊middle k * size / size⌋ = (k : ℤ) := by
    rw [mul_div_cancel_right₀ _ hsize, middle_eq, Int.floor_eq_iff]
    push_cast
    constructor <;> linarith
  constructor
  · rw [← hfloor hheight i, ← sub_sub_cancel grid.extent.yur (middle i * grid.cellHeight)]
    rfl
  · rw [← hfloor hwidth j, ← add_sub_cancel_left grid.extent.xll (middle j * grid.cellWidth)]
    rfl

/-- Grids of one cell have one geometry, whatever they hold. -/
theorem matches_single (nodata other : Float) (cell held : Float32) (substitute : Option Float) :
    (single nodata cell).Matches { single other held with substitute } :=
  ⟨⟨.fill 1 1 held, rfl, ⟨rfl, rfl⟩⟩, rfl, rfl, rfl, rfl, rfl⟩

theorem sound_substituted (nodata value : Float) (cell : Float32) :
    Sound { single nodata cell with substitute := some value } (.fill 1 1 cell) :=
  (sound_single nodata cell).of_matches (matches_single nodata nodata cell cell (some value)) rfl

/-- A cell without data replaces another one by the NoData value of the grid, sampled or not. -/
theorem exists_replaced_single : ∃ sampledMask sampledOther direct around,
    (single (-9999) 5).Sound (.fill 1 1 5) ∧ (single (-9999) 1).Sound (.fill 1 1 1) ∧
      (single (-1) (-1)).Sound (.fill 1 1 (-1)) ∧
      (single (-9999) 5).Matches (single (-9999) 1) ∧
      (single (-9999) 5).Matches (single (-1) (-1)) ∧
      (single (-9999) 1).sampleTo (single (-9999) 5) = .ok sampledMask ∧
      (single (-1) (-1)).sampleTo (single (-9999) 5) = .ok sampledOther ∧
      (single (-9999) 5).replace (single (-9999) 1) (.inr (single (-1) (-1))) =
        .ok ((single (-9999) 5).derive direct) ∧
      (single (-9999) 5).replace sampledMask (.inr sampledOther) =
        .ok ((single (-9999) 5).derive around) ∧
      direct.get? 0 0 = some (-9999) ∧ around.get? 0 0 = some (-9999) := by
  have hown := sound_single (-9999) 5
  have hmask := sound_single (-9999) 1
  have hother := sound_single (-1) (-1)
  have hmaskPlace := matches_single (-9999) (-9999) 5 1 none
  have hplace := matches_single (-9999) (-1) 5 (-1) none
  obtain ⟨sampledMask, sampledOther, direct, around, hsampledMask, hsampledOther, hdirect, haround,
    -, -, hcell, hagree⟩ := hown.exists_replaced hmask hother hmaskPlace hplace
  have hnodata : (single (-9999) 5).replaced (single (-9999) 1) (single (-1) (-1)) 1 (-1) 5 =
      -9999 := by
    decide +kernel
  have hleft := (hcell 0 0 1 (-1) 5 rfl rfl rfl).1.trans (congrArg some hnodata)
  have hin : (single (-9999) 5).InPlace 0 0 := inPlace_of_ne_zero one_ne_zero one_ne_zero 0 0
  exact ⟨sampledMask, sampledOther, direct, around, hown, hmask, hother, hmaskPlace, hplace,
    hsampledMask, hsampledOther, hdirect, haround, hleft, (hagree rfl rfl 0 0 hin).trans hleft⟩

/-- With a seven in place of NoData, a cell without data replaces another one by the NoData value,
but by the seven once it was sampled. -/
theorem replaced_cells_differ : ∃ sampledMask sampledOther direct around,
    (single (-9999) 1).sampleTo (single (-9999) 5) = .ok sampledMask ∧
      Grid.sampleTo { single (-9999) (-9999) with substitute := some 7 } (single (-9999) 5) =
        .ok sampledOther ∧
      (single (-9999) 5).replace (single (-9999) 1)
          (.inr { single (-9999) (-9999) with substitute := some 7 }) =
        .ok ((single (-9999) 5).derive direct) ∧
      (single (-9999) 5).replace sampledMask (.inr sampledOther) =
        .ok ((single (-9999) 5).derive around) ∧
      direct.get? 0 0 = some (-9999) ∧ around.get? 0 0 = some 7 := by
  have hown := sound_single (-9999) 5
  have hmask := sound_single (-9999) 1
  have hmaskPlace := matches_single (-9999) (-9999) 5 1 none
  have hplace := matches_single (-9999) (-9999) 5 (-9999) (some 7)
  obtain ⟨sampledMask, sampledMarks, hsampledMask, hmaskMatches, hmaskSound, hmaskNodata, hmarks⟩ :=
    hown.exists_sampleTo hmask hmaskPlace
  obtain ⟨sampledOther, sampledHeld, hsampledOther, hotherMatches, hotherSound, hotherNodata,
    hheld⟩ := hown.exists_sampleTo (sound_substituted (-9999) 7 (-9999)) hplace
  obtain ⟨direct, hdirect, -, hgetDirect⟩ := hown.exists_replace_grid hmask
    (hmaskPlace.sameGeometry hown.sameGeometry).1 (sound_substituted (-9999) 7 (-9999))
    (hplace.sameGeometry hown.sameGeometry).1
  obtain ⟨around, haround, -, hgetAround⟩ := hown.exists_replace_grid hmaskSound
    (hmaskMatches.sameGeometry hown.sameGeometry).1 hotherSound
    (hotherMatches.sameGeometry hown.sameGeometry).1
  have hin : (single (-9999) 5).InPlace 0 0 := inPlace_of_ne_zero one_ne_zero one_ne_zero 0 0
  let seven : Grid ℚ Float Float32 := { single (-9999) (-9999) with substitute := some 7 }
  have hcells : (single (-9999) 5).replaced (single (-9999) 1) seven 1 (-9999) 5 = -9999 ∧
      (single (-9999) 5).replaced (single (-9999) 1) seven ((single (-9999) 1).restated 1)
        (seven.restated (-9999)) 5 = 7 := by
    decide +kernel
  refine ⟨sampledMask, sampledOther, direct, around, hsampledMask, hsampledOther, hdirect, haround,
    ?_, ?_⟩
  · rw [hgetDirect]
    exact congrArg some hcells.1
  · rw [hgetAround, hmarks 0 0 hin, hheld 0 0 hin, hmaskNodata, hotherNodata]
    exact congrArg some hcells.2

end Grid

end MapAlgebra
