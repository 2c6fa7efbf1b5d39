import MapAlgebra.Proofs.Ordering
import MapAlgebra.Proofs.Overlays

/-!
# Cells that a mask selects

Grids of one geometry are combined and replaced cell by cell: the cells that a mask selects come
from the replacement and the others stay. Parts of an expression that have the common extent already
are put together as they are.
-/

namespace MapAlgebra

variable {K V S : Type}

theorem Extent.union_self [Coordinate K] (extent : Extent K) : extent.union extent = extent := by
  simp [union, Coordinate.least, Coordinate.greatest]

theorem Extent.foldl_union_self [Coordinate K] {extent : Extent K} {extents : List (Extent K)}
    (h : ∀ other ∈ extents, other = extent) : extents.foldl union extent = extent := by
  induction extents with
  | nil => rfl
  | cons other extents ih =>
      rw [List.foldl_cons, h other List.mem_cons_self, union_self]
      exact ih fun next hnext => h next (List.mem_cons_of_mem _ hnext)

namespace Grid

/-- A grid with resident cells in its shape and cells of a positive width. It counts as of one
geometry with itself, since none of its sides and sizes is infinite or undefined. -/
structure Sound [Coordinate K] (grid : Grid K V S) (cells : Raster S) : Prop where
  resident : grid.cells = .resident cells
  fits : grid.Fits cells
  width_pos : ¬ grid.cellWidth ≤ Coordinate.zero
  sameGeometry : grid.sameGeometry grid

section Geometry

variable [Coordinate K] {grid other : Grid K V S} {cells held : Raster S}

theorem Matches.sameGeometry (h : grid.Matches other) (hgrid : grid.sameGeometry grid) :
    grid.sameGeometry other ∧ other.sameGeometry grid ∧ other.sameGeometry other := by
  unfold Grid.sameGeometry at hgrid ⊢
  simpa [h.rows, h.cols, h.extent, h.cellWidth, h.cellHeight] using hgrid

omit [Coordinate K] in
theorem Matches.trans {third : Grid K V S} (h : grid.Matches other) (hother : other.Matches third) :
    grid.Matches third :=
  ⟨hother.isShaped, hother.rows.trans h.rows, hother.cols.trans h.cols,
    hother.extent.trans h.extent, hother.cellWidth.trans h.cellWidth,
    hother.cellHeight.trans h.cellHeight⟩

theorem Sound.of_matches (hgrid : grid.Sound cells) (h : grid.Matches other)
    (hheld : other.cells = .resident held) : other.Sound held where
  resident := hheld
  fits := h.isShaped.values held (values_eq_ok_iff.mpr hheld)
  width_pos := by simpa [h.cellWidth] using hgrid.width_pos
  sameGeometry := (h.sameGeometry hgrid.sameGeometry).2.2

/-- Other cells in the shape of a sound grid. -/
theorem Sound.derive (h : grid.Sound cells) (hout : grid.Fits held) :
    (grid.derive held).Sound held :=
  h.of_matches hout.matches_derive rfl

theorem Sound.isShaped (h : grid.Sound cells) : grid.IsShaped :=
  ⟨cells, h.resident, h.fits⟩

theorem Sound.agrees_self (h : grid.Sound cells) : grid.extent.agrees grid.extent :=
  agrees_of_sameGeometry h.sameGeometry

omit [Coordinate K] in
theorem Fits.shape_eq {α β : Type} {values : Raster α} {others : Raster β}
    (h : grid.Fits values) (hothers : grid.Fits others) :
    others.rows = values.rows ∧ others.cols = values.cols :=
  ⟨Int.ofNat.inj (hothers.rows.trans h.rows.symm), Int.ofNat.inj (hothers.cols.trans h.cols.symm)⟩

theorem Fits.of_sameGeometry {α : Type} {values : Raster α} (h : other.Fits values)
    (hsame : grid.sameGeometry other) : grid.Fits values := by
  obtain ⟨hrows, hcols⟩ := eq_of_sameGeometry hsame
  exact ⟨h.rows.trans hrows.symm, h.cols.trans hcols.symm⟩

end Geometry

section Replacing

variable [Coordinate K] [Number V] [Cell S V] {grid mask other : Grid K V S}
variable {cells marks held : Raster S}

theorem aligned_of_sameGeometry (hsame : grid.sameGeometry other)
    (hheld : other.cells = .resident held) : grid.aligned other = .ok held := by
  unfold aligned
  rw [if_pos hsame, values_eq_ok_iff.mpr hheld]

omit [Number V] [Cell S V] in
/-- The cells that are taken come in place of those of the grid. -/
theorem Sound.exists_taken (h : grid.Sound cells) {taken : Raster (Option S)}
    (htaken : grid.Fits taken) :
    ∃ out, taken.zipWith? (fun taken cell => taken.getD cell) cells = some out ∧ grid.Fits out ∧
      ∀ i j, out.get? i j =
        (taken.get? i j).bind fun given => (cells.get? i j).map fun cell => given.getD cell := by
  obtain ⟨hrows, hcols⟩ := htaken.shape_eq h.fits
  obtain ⟨out, hout, -, -, hget⟩ :=
    Raster.exists_zipWith? (fun (taken : Option S) cell => taken.getD cell) hrows hcols
  exact ⟨out, hout, htaken.zipWith? h.fits hout, hget⟩

/-- Selected cells are replaced by a number. -/
theorem Sound.exists_replace_number (h : grid.Sound cells) (hmask : mask.Sound marks)
    (hsame : grid.sameGeometry mask) (number : V) :
    ∃ out, grid.replace mask (.inl number) = .ok (grid.derive out) ∧ grid.Fits out ∧
      ∀ i j, out.get? i j = (marks.get? i j).bind fun mark => (cells.get? i j).map fun cell =>
        if selects mask.nodata mark then Cell.narrow number else cell := by
  have hfits := hmask.fits.of_sameGeometry hsame
  obtain ⟨out, hout, houtFits, hget⟩ := h.exists_taken ((hfits.map (selects mask.nodata)).map
    fun selected => if selected then some (Cell.narrow number : S) else none)
  refine ⟨out, ?_, houtFits, ?_⟩
  · unfold replace
    simp only [aligned_of_sameGeometry hsame hmask.resident, values_eq_ok_iff.mpr h.resident, bind,
      Except.bind, pure, Except.pure, Option.bind_some, hout]
  · intro i j
    rw [hget, Raster.get?_map, Raster.get?_map]
    cases marks.get? i j with
    | none => rfl
    | some mark => by_cases hselected : selects mask.nodata mark <;> simp [hselected]

/-- Selected cells are replaced by those of a grid, whose NoData becomes that of the grid that is
changed. -/
theorem Sound.exists_replace_grid (h : grid.Sound cells) (hmask : mask.Sound marks)
    (hsame : grid.sameGeometry mask) (hother : other.Sound held)
    (hsource : grid.sameGeometry other) :
    ∃ out, grid.replace mask (.inr other) = .ok (grid.derive out) ∧ grid.Fits out ∧
      ∀ i j, out.get? i j = (marks.get? i j).bind fun mark => (held.get? i j).bind fun source =>
        (cells.get? i j).map fun cell => if selects mask.nodata mark then
          if holdsNodata other.nodata source then Cell.narrow grid.nodata else source
          else cell := by
  have hfits := hmask.fits.of_sameGeometry hsame
  obtain ⟨hrows, hcols⟩ :=
    (hfits.map (selects mask.nodata)).shape_eq (hother.fits.of_sameGeometry hsource)
  obtain ⟨taken, htaken, htakenRows, htakenCols, hgetTaken⟩ := Raster.exists_zipWith?
    (fun selected cell => if !selected then none
      else if holdsNodata other.nodata cell then some (Cell.narrow grid.nodata : S) else some cell)
    hrows hcols
  have htakenFits : grid.Fits taken :=
    (hfits.map (selects mask.nodata)).zipWith? (hother.fits.of_sameGeometry hsource) htaken
  obtain ⟨out, hout, houtFits, hget⟩ := h.exists_taken htakenFits
  refine ⟨out, ?_, houtFits, ?_⟩
  · unfold replace
    simp only [aligned_of_sameGeometry hsame hmask.resident,
      aligned_of_sameGeometry hsource hother.resident, values_eq_ok_iff.mpr h.resident, bind,
      Except.bind, pure, Except.pure, htaken, Option.bind_some, hout]
  · intro i j
    rw [hget, hgetTaken, Raster.get?_map]
    cases marks.get? i j with
    | none => rfl
    | some mark =>
        cases held.get? i j with
        | none => rfl
        | some source =>
            by_cases hselected : selects mask.nodata mark <;>
              by_cases hnodata : holdsNodata other.nodata source <;> simp [hselected, hnodata]

omit [Number V] in
/-- A constant in the geometry of a grid, with the NoData value of the grid. -/
theorem Sound.exists_allocate (h : grid.Sound cells) (constant : Constant V) :
    ∃ filled held, constant.allocate grid = .ok filled ∧ grid.Matches filled ∧
      filled.Sound held ∧ filled.nodata = grid.nodata ∧
      ∀ i j, held.get? i j = (cells.get? i j).map fun _ => Cell.narrow constant.value := by
  have hrows := h.fits.rows
  have hcols := h.fits.cols
  have hnonneg : ¬ (grid.rows < 0 ∨ grid.cols < 0) := by omega
  obtain ⟨filled, hallocate, hheld, hnodata⟩ : ∃ filled, constant.allocate grid = .ok filled ∧
      filled.cells = .resident
        (.fill grid.rows.toNat grid.cols.toNat (Cell.narrow constant.value)) ∧
      filled.nodata = grid.nodata := by
    unfold Constant.allocate of
    simp only [Bool.or_eq_true, decide_eq_true_eq, if_neg hnonneg, if_neg h.width_pos]
    exact ⟨_, rfl, rfl, rfl⟩
  have hmatches := matches_allocate constant grid filled hallocate
  refine ⟨filled, _, hallocate, hmatches, h.of_matches hmatches hheld, hnodata, ?_⟩
  intro i j
  by_cases hwithin : i < cells.rows ∧ j < cells.cols
  · rw [cells.get?_eq_get hwithin.1 hwithin.2]
    exact Raster.get?_ofFn _ ⟨i, by omega⟩ ⟨j, by omega⟩
  · rw [cells.get?_eq_none hwithin]
    apply Raster.get?_eq_none
    simp only [Raster.fill, Raster.rows_ofFn, Raster.cols_ofFn]
    omega

end Replacing

end Grid

variable [Coordinate K] [Number V] [Cell S V]

omit [Number V] [Cell S V] in
/-- Operands that have one extent, or none, have it in common. -/
theorem agrees_of_common {fixed : Option (Extent K)} {policy : ExtentPolicy} {extent : Extent K}
    {values : List (Operand K V S)} (hself : extent.agrees extent)
    (hfixed : ∀ wanted ∈ fixed, extent.agrees wanted)
    (hvalues : ∀ value ∈ values, ∀ own ∈ value.extent?, own = extent) :
    ∀ value ∈ values, ∀ own ∈ value.extent?, ∀ wanted ∈ targetExtent fixed policy values,
      own.agrees wanted := by
  intro value hvalue own hown wanted hwanted
  rw [hvalues value hvalue own hown]
  cases fixed with
  | some target => exact hfixed wanted hwanted
  | none =>
      have hall : ∀ other ∈ values.filterMap Operand.extent?, other = extent := by
        intro other hother
        obtain ⟨value, hvalue, hother⟩ := List.mem_filterMap.mp hother
        exact hvalues value hvalue other hother
      unfold targetExtent at hwanted
      split at hwanted
      next hsome => cases hsome
      next => cases hwanted
      next first rest _ hextents =>
        rw [hextents] at hall
        obtain rfl := hall first List.mem_cons_self
        have hunion : rest.foldl Extent.union first = first :=
          Extent.foldl_union_self fun other hother => hall other (List.mem_cons_of_mem _ hother)
        cases policy with
        | first =>
            cases hwanted
            exact hself
        | union =>
            cases hunion.symm.trans (Option.some.inj hwanted)
            exact hself

/-- An operand that has the extent already, or has none, stays as it is. -/
theorem Operand.reconcile_of_agrees {operand : Operand K V S} {target : Option (Extent K)}
    (h : ∀ extent ∈ operand.extent?, ∀ wanted ∈ target, extent.agrees wanted) (label : String) :
    Traced.Succeeds (· = operand) (operand.reconcile target label) := by
  cases operand with
  | constant c => cases target <;> exact .pure rfl
  | grid g =>
      cases target with
      | none => exact .pure rfl
      | some wanted =>
          have hkept := Grid.reconcile_of_agrees (h g.extent rfl wanted rfl) label
          exact hkept.bind fun kept hkept => .pure (congrArg Operand.grid hkept)

namespace Expression

/-- With a grid as the condition, parts that have the common extent are chosen from in its
geometry. -/
theorem choose_of_agrees {fixed : Option (Extent K)} {condition yes no : Part K V S}
    {grid laid base chosen : Grid K V S} (hcondition : condition.value = .grid grid)
    (hextent : ∀ value ∈ [condition.value, yes.value, no.value], ∀ extent ∈ value.extent?,
      ∀ wanted ∈ targetExtent fixed .union [condition.value, yes.value, no.value],
        extent.agrees wanted)
    (hlaid : onto (branch no no.value grid) grid = .ok laid)
    (hbase : laid.withNodata grid.nodata = .ok base)
    (hchosen : base.replace grid (replacement (branch yes yes.value grid)) = .ok chosen) :
    Traced.Succeeds (· = .grid chosen) (choose fixed condition yes no) := by
  rw [hcondition] at hextent
  unfold choose
  rw [hcondition]
  dsimp only
  refine .bind (.record _ _) fun _ _ => ?_
  refine .bind (Operand.reconcile_of_agrees (hextent _ (by simp)) _) fun c hc => ?_
  refine .bind (Operand.reconcile_of_agrees (hextent _ (by simp)) _) fun a ha => ?_
  refine .bind (Operand.reconcile_of_agrees (hextent _ (by simp)) _) fun b hb => ?_
  subst hc ha hb
  exact .lift_bind hlaid (.lift_bind hbase (.lift_bind rfl (.lift_bind hchosen (.pure rfl))))

/-- Two parts of which the first is a grid are combined as they are when they have the extent
already. -/
theorem Scope.combine_of_agrees {scope : Scope K V} {left right : Part K V S} {op : Operator}
    {grid result : Grid K V S} (hleft : left.value = .grid grid)
    (hleftToken : isNodataToken left.token = false)
    (hrightToken : isNodataToken right.token = false)
    (hextent : ∀ value ∈ [left.value, right.value], ∀ extent ∈ value.extent?,
      ∀ wanted ∈ targetExtent scope.settings.extent .first [left.value, right.value],
        extent.agrees wanted)
    (hresult : grid.apply op right.value = .ok result) :
    Traced.Succeeds (· = .grid result) (scope.combine left op right) := by
  rw [hleft] at hextent
  unfold combine nodataResolved
  simp only [hleftToken, hrightToken, hleft, Bool.false_eq_true, if_false]
  refine .bind (Operand.reconcile_of_agrees (hextent _ (by simp)) _) fun a ha => ?_
  refine .bind (Operand.reconcile_of_agrees (hextent _ (by simp)) _) fun b hb => ?_
  subst ha hb
  refine .lift (a := .grid result) ?_ rfl
  show (grid.apply op right.value >>= fun g => pure (Operand.grid g)) = _
  rw [hresult]
  rfl

/-- The smaller or the greater of a grid and an operand that has its extent. -/
theorem extremum_of_agrees {fixed : Option (Extent K)} {function : Function} {op : Operator}
    {grid mask chosen : Grid K V S} {other : Operand K V S}
    (hgrid : grid.extent.agrees (fixed.getD grid.extent))
    (hother : ∀ extent ∈ other.extent?, extent.agrees (fixed.getD grid.extent))
    (hmask : grid.apply op other = .ok mask)
    (hchosen : grid.replace mask (replacement other) = .ok chosen) :
    Traced.Succeeds (· = .grid chosen) (extremum fixed function op (.grid grid) other) := by
  unfold extremum
  refine .bind (Grid.reconcile_of_agrees hgrid _) fun a ha => ?_
  refine .bind (Operand.reconcile_of_agrees (by simpa using hother) _) fun b hb => ?_
  subst ha hb
  exact .lift_bind hmask (.lift_bind hchosen (.pure rfl))

end Expression

end MapAlgebra
