import MapAlgebra.Proofs.Shapes

/-!
# Cells at their places

What stands at a row and a column of a raster that was made of others, and of a grid that was
combined with another one.
-/

namespace MapAlgebra

variable {K V S α β γ : Type}

namespace Raster

variable {raster : Raster α}

theorem get?_eq_get (raster : Raster α) {i j : Nat} (hi : i < raster.rows) (hj : j < raster.cols) :
    raster.get? i j = some (raster.get ⟨i, hi⟩ ⟨j, hj⟩) :=
  dif_pos ⟨hi, hj⟩

theorem get?_eq_none (raster : Raster α) {i j : Nat} (h : ¬ (i < raster.rows ∧ j < raster.cols)) :
    raster.get? i j = none :=
  dif_neg h

theorem lt_of_get?_eq_some {i j : Nat} {a : α} (h : raster.get? i j = some a) :
    i < raster.rows ∧ j < raster.cols := by
  refine Decidable.byContradiction fun hout => ?_
  rw [raster.get?_eq_none hout] at h
  cases h

theorem get?_ofFn {rows cols : Nat} (cell : Fin rows → Fin cols → α) (i : Fin rows)
    (j : Fin cols) : (ofFn rows cols cell).get? i j = some (cell i j) :=
  (get?_eq_get _ i.isLt j.isLt).trans (congrArg some (get_ofFn _ _ _ _ _))

/-- A raster is told by its shape and its cells. -/
theorem eq_of_get? {a b : Raster α} (hrows : a.rows = b.rows) (hcols : a.cols = b.cols)
    (h : ∀ i j, i < a.rows → j < a.cols → a.get? i j = b.get? i j) : a = b := by
  obtain ⟨rows, cols, cells⟩ := a
  obtain ⟨_, _, others⟩ := b
  dsimp only at hrows hcols
  subst hrows hcols
  congr 1
  ext i hi j hj
  have hcell := h i j hi hj
  rw [get?_eq_get _ hi hj, get?_eq_get _ hi hj] at hcell
  exact Option.some.inj hcell

theorem get?_map (f : α → β) (raster : Raster α) (i j : Nat) :
    (raster.map f).get? i j = (raster.get? i j).map f := by
  by_cases h : i < raster.rows ∧ j < raster.cols
  · rw [raster.get?_eq_get h.1 h.2]
    exact get?_ofFn _ ⟨i, h.1⟩ ⟨j, h.2⟩
  · rw [raster.get?_eq_none h, (raster.map f).get?_eq_none h]
    rfl

theorem get?_window {top bottom left right i j : Nat} (hbottom : bottom ≤ raster.rows)
    (hright : right ≤ raster.cols) (hi : top + i < bottom) (hj : left + j < right) :
    (raster.window top bottom left right).get? i j = raster.get? (top + i) (left + j) := by
  rw [raster.get?_eq_get (by omega : top + i < raster.rows) (by omega : left + j < raster.cols)]
  exact get?_ofFn _ ⟨i, by omega⟩ ⟨j, by omega⟩

theorem exists_build? {rows cols : Nat} {cell : Fin rows → Fin cols → Option α}
    (h : ∀ i j, (cell i j).isSome) :
    ∃ built, build? rows cols cell = some built ∧ built.rows = rows ∧ built.cols = cols ∧
      ∀ i j, built.get? i.val j.val = cell i j :=
  ⟨_, dif_pos h, rfl, rfl, fun i j => (get?_ofFn _ i j).trans (Option.some_get _)⟩

theorem stretch?_self (raster : Raster α) :
    raster.stretch? raster.rows raster.cols = some raster :=
  if_pos ⟨rfl, rfl⟩

/-- Rasters of one shape are combined cell by cell. -/
theorem exists_zipWith? (f : α → β → γ) {a : Raster α} {b : Raster β} (hrows : b.rows = a.rows)
    (hcols : b.cols = a.cols) :
    ∃ joined, zipWith? f a b = some joined ∧ joined.rows = a.rows ∧ joined.cols = a.cols ∧
      ∀ i j, joined.get? i j = (a.get? i j).bind fun x => (b.get? i j).map (f x) := by
  have hjoin (n : Nat) : joinLength? n n = some n := by simp [joinLength?]
  have hfound (i : Fin a.rows) (j : Fin a.cols) :
      ((a.get? i.val j.val).bind fun x => (b.get? i.val j.val).bind fun y =>
        some (f x y)).isSome := by
    rw [a.get?_eq_get i.isLt j.isLt, b.get?_eq_get (by omega : i.val < b.rows) (by omega)]
    rfl
  obtain ⟨joined, hjoined, hrows', hcols', hget⟩ := exists_build? hfound
  refine ⟨joined, ?_, hrows', hcols', fun i j => ?_⟩
  · have ha := a.stretch?_self
    have hb := b.stretch?_self
    rw [hrows, hcols] at hb
    unfold zipWith?
    rw [hrows, hcols, hjoin, hjoin]
    simp only [Option.bind_eq_bind, Option.bind_some, ha, hb]
    exact hjoined
  · by_cases h : i < a.rows ∧ j < a.cols
    · exact (hget ⟨i, h.1⟩ ⟨j, h.2⟩).trans (by simp only [Option.map_eq_bind, Function.comp_def])
    · rw [a.get?_eq_none h, joined.get?_eq_none (by rw [hrows', hcols']; exact h)]
      rfl

end Raster

namespace Grid

theorem Fits.exists_get? {grid : Grid K V S} {values : Raster α} (h : grid.Fits values) {i j : Nat}
    (hin : (i : Int) < grid.rows ∧ (j : Int) < grid.cols) :
    ∃ found, values.get? i j = some found := by
  have hrows := h.rows
  have hcols := h.cols
  exact ⟨_, values.get?_eq_get (by omega) (by omega)⟩

/-- Values in the shape of a grid end with its rows and columns. -/
theorem Fits.get?_eq_none {grid : Grid K V S} {values : Raster α} (h : grid.Fits values) {i j : Nat}
    (hout : ¬ (i < grid.rows ∧ j < grid.cols)) : values.get? i j = none := by
  have hrows := h.rows
  have hcols := h.cols
  exact values.get?_eq_none (by omega)

variable [Coordinate K] [Number V] [Cell S V] {grid : Grid K V S} {cells : Raster S}

omit [Coordinate K] in
theorem samples_of_resident (h : grid.cells = .resident cells) :
    grid.samples = .ok (cells.map grid.sample) := by
  unfold samples
  rw [values_eq_ok_iff.mpr h]
  rfl

omit [Coordinate K] in
/-- A cell with data is read as it is, with or without a substitute. -/
theorem sample_of_data {cell : S} (h : holdsNodata grid.nodata cell = false) :
    grid.sample cell = ⟨Cell.widen cell, false⟩ := by
  unfold sample
  rw [h]
  cases grid.substitute <;> rfl

omit [Coordinate K] in
/-- Without a substitute a cell is read as it is. -/
theorem sample_of_plain (h : grid.substitute = none) (cell : S) :
    grid.sample cell = ⟨Cell.widen cell, holdsNodata grid.nodata cell⟩ := by
  unfold sample
  rw [h]

/-- A grid of the same geometry is read cell by cell. -/
theorem operandSamples_of_sameGeometry {other : Grid K V S} (hsame : grid.sameGeometry other)
    (h : other.cells = .resident cells) :
    grid.operandSamples (.grid other) = .ok (.inr (cells.map other.sample)) := by
  unfold operandSamples
  simp only [hsame, if_true, samples_of_resident h]
  rfl

theorem operandSamples_of_not_sameGeometry {other : Grid K V S} {samples : Raster (Sample V)}
    (hdiffer : ¬ grid.sameGeometry other) (h : other.sampleOnto grid = .ok samples) :
    grid.operandSamples (.grid other) = .ok (.inr samples) := by
  unfold operandSamples
  simp only [hdiffer, Bool.false_eq_true, if_false, h]
  rfl

/-- What an operator gives where a grid has a cell and the other operand has a sample. -/
def combinedCell (grid : Grid K V S) (op : Operator) (cell : S) (sample : Sample V) : S :=
  Cell.narrow (combineSamples grid.nodata op false (grid.sample cell) sample)

/-- A grid is combined cell by cell with samples that have its shape. -/
theorem exists_apply (hcells : grid.cells = .resident cells) (hfits : grid.Fits cells)
    {other : Operand K V S} {samples : Raster (Sample V)}
    (hsamples : grid.operandSamples other = .ok (.inr samples)) (hshape : grid.Fits samples)
    (op : Operator) :
    ∃ out, grid.apply op other = .ok (grid.derive out) ∧ grid.Fits out ∧
      ∀ i j, out.get? i j =
        (cells.get? i j).bind fun cell => (samples.get? i j).map (grid.combinedCell op cell) := by
  have hrows := hfits.rows
  have hcols := hfits.cols
  have hnonneg : ¬ (grid.rows < 0 ∨ grid.cols < 0) := by omega
  let left := cells.map grid.sample
  obtain ⟨joined, hjoined, hjrows, hjcols, hget⟩ := Raster.exists_zipWith?
    (combineSamples grid.nodata op false) (a := left) (b := samples)
    (Int.ofNat.inj (hshape.rows.trans hrows.symm)) (Int.ofNat.inj (hshape.cols.trans hcols.symm))
  have hstretch : joined.stretch? grid.rows.toNat grid.cols.toNat = some joined := by
    have hself := joined.stretch?_self
    rw [hjrows, hjcols] at hself
    rw [← hrows, ← hcols, Int.toNat_natCast, Int.toNat_natCast]
    exact hself
  have hcombine : grid.combine op false left (.inr samples) = .ok joined := by
    unfold combine
    simp only [Bool.or_eq_true, decide_eq_true_eq, if_neg hnonneg, Bool.false_eq_true, if_false,
      hjoined, Option.bind_some, hstretch]
  refine ⟨joined.map Cell.narrow, ?_, ⟨?_, ?_⟩, fun i j => ?_⟩
  · unfold apply
    rw [samples_of_resident hcells, hsamples]
    show (grid.combine op false left (.inr samples) >>= _) = _
    rw [hcombine]
    rfl
  · exact (congrArg Int.ofNat hjrows).trans hrows
  · exact (congrArg Int.ofNat hjcols).trans hcols
  · rw [Raster.get?_map, hget, Raster.get?_map]
    cases cells.get? i j <;> cases samples.get? i j <;> rfl

/-- A grid that has an extent is not brought to it. -/
theorem reconcile_of_agrees {extent : Extent K} (h : grid.extent.agrees extent) (label : String) :
    Traced.Succeeds (· = grid) (grid.reconcile extent label) := by
  unfold reconcile
  rw [if_pos h]
  exact .pure rfl

end Grid

end MapAlgebra
