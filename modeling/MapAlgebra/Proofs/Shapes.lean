import MapAlgebra.Proofs.Origin

/-!
# Grids of one geometry

A grid says how many rows and columns it has, and its cells say it again. Operations that change
the cells only, or read one grid at the cells of another, give a grid at the same place in cells of
the same number and size.
-/

namespace MapAlgebra

variable {K V S α β γ : Type}

namespace Raster

variable {raster : Raster α}

theorem shape_of_build? {rows cols : Nat} {cell : Fin rows → Fin cols → Option α}
    (h : build? rows cols cell = some raster) : raster.rows = rows ∧ raster.cols = cols := by
  unfold build? at h
  split at h
  next => cases h; exact ⟨rfl, rfl⟩
  next => cases h

theorem shape_of_stretch? {other : Raster α} {rows cols : Nat}
    (h : other.stretch? rows cols = some raster) : raster.rows = rows ∧ raster.cols = cols := by
  unfold stretch? at h
  split at h
  next hshape => cases h; exact hshape
  next =>
    split at h
    next => exact shape_of_build? h
    next => cases h

/-- Rasters of one shape are combined in it. -/
theorem shape_of_zipWith? {f : α → β → γ} {a : Raster α} {b : Raster β} {joined : Raster γ}
    (h : zipWith? f a b = some joined) (hrows : b.rows = a.rows) (hcols : b.cols = a.cols) :
    joined.rows = a.rows ∧ joined.cols = a.cols := by
  have hjoin (n : Nat) : joinLength? n n = some n := by simp [joinLength?]
  unfold zipWith? at h
  rw [hrows, hcols, hjoin, hjoin] at h
  simp only [Option.bind_eq_bind, Option.bind_some, Option.bind_eq_some_iff] at h
  obtain ⟨_, -, _, -, h⟩ := h
  exact shape_of_build? h

end Raster

namespace Grid

/-- Cells in the shape of the grid. -/
structure Fits (grid : Grid K V S) (cells : Raster α) : Prop where
  rows : (cells.rows : Int) = grid.rows
  cols : (cells.cols : Int) = grid.cols

/-- A grid whose cells are resident and have its shape. -/
def IsShaped (grid : Grid K V S) : Prop :=
  ∃ cells, grid.cells = .resident cells ∧ grid.Fits cells

/-- A grid at the place of another one, in cells of the same number and size. -/
structure Matches (target grid : Grid K V S) : Prop where
  isShaped : grid.IsShaped
  rows : grid.rows = target.rows
  cols : grid.cols = target.cols
  extent : grid.extent = target.extent
  cellWidth : grid.cellWidth = target.cellWidth
  cellHeight : grid.cellHeight = target.cellHeight

section Shape

variable {grid : Grid K V S}

theorem values_eq_ok_iff {cells : Raster S} :
    grid.values = .ok cells ↔ grid.cells = .resident cells := by
  unfold values
  constructor
  · intro h
    split at h
    next own hcells =>
      cases h
      exact hcells
    next => cases h
  · intro h
    rw [h]

theorem IsShaped.values (h : grid.IsShaped) : Gives grid.Fits grid.values := by
  obtain ⟨cells, hcells, hfits⟩ := h
  intro found hfound
  cases hcells.symm.trans (values_eq_ok_iff.mp hfound)
  exact hfits

theorem Fits.map {cells : Raster α} (h : grid.Fits cells) (f : α → β) :
    grid.Fits (cells.map f) :=
  ⟨h.rows, h.cols⟩

theorem Fits.zipWith? {a : Raster α} {b : Raster β} {joined : Raster γ} {f : α → β → γ}
    (ha : grid.Fits a) (hb : grid.Fits b) (h : a.zipWith? f b = some joined) :
    grid.Fits joined := by
  obtain ⟨hrows, hcols⟩ := Raster.shape_of_zipWith? h
    (Int.ofNat.inj (hb.rows.trans ha.rows.symm)) (Int.ofNat.inj (hb.cols.trans ha.cols.symm))
  exact ⟨by rw [hrows, ha.rows], by rw [hcols, ha.cols]⟩

theorem Fits.matches_derive {cells : Raster S} (h : grid.Fits cells) :
    grid.Matches (grid.derive cells) :=
  ⟨⟨cells, rfl, rfl, rfl⟩, h.rows, h.cols, rfl, rfl, rfl⟩

theorem matches_copy (h : grid.IsShaped) (name : Text) :
    Gives grid.Matches (grid.copy name) :=
  h.values.bind fun cells hcells =>
    .pure ⟨⟨cells, rfl, rfl, rfl⟩, hcells.rows, hcells.cols, rfl, rfl, rfl⟩

variable [Number V] [Cell S V]

theorem matches_negate (h : grid.IsShaped) : Gives grid.Matches grid.negate :=
  (h.values.bind fun _ hcells => .pure (hcells.map _)).bind fun _ hcells =>
    .pure (hcells.map _).matches_derive

theorem matches_roundTo (h : grid.IsShaped) (places : Int) :
    Gives grid.Matches (grid.roundTo places) := by
  unfold roundTo
  refine h.values.bind fun cells hcells => ?_
  split
  next => exact .throw _
  next => exact .pure (hcells.map _).matches_derive

theorem matches_withNodata (h : grid.IsShaped) (nodata : V) :
    Gives grid.Matches (grid.withNodata nodata) := by
  unfold withNodata
  split
  next => exact .pure ⟨h, rfl, rfl, rfl, rfl, rfl⟩
  next =>
    exact h.values.bind fun cells hcells =>
      .pure ⟨⟨_, rfl, rfl, rfl⟩, hcells.rows, hcells.cols, rfl, rfl, rfl⟩

omit [Cell S V] in
theorem fits_combine (grid : Grid K V S) (op : Operator) (reverse : Bool)
    (left : Raster (Sample V)) (right : Sample V ⊕ Raster (Sample V)) :
    Gives grid.Fits (grid.combine op reverse left right) := by
  intro cells hcells
  unfold combine at hcells
  dsimp only at hcells
  split at hcells
  next found hfound =>
    cases hcells
    split at hfound
    next => cases hfound
    next hnonneg =>
      simp only [Bool.or_eq_true, decide_eq_true_eq, not_or, Int.not_lt] at hnonneg
      obtain ⟨_, -, hstretch⟩ := Option.bind_eq_some_iff.mp hfound
      obtain ⟨hrows, hcols⟩ := Raster.shape_of_stretch? hstretch
      exact ⟨by rw [hrows, Int.toNat_of_nonneg hnonneg.1],
        by rw [hcols, Int.toNat_of_nonneg hnonneg.2]⟩
  next => cases hcells

variable [Coordinate K]

theorem matches_apply (grid : Grid K V S) (op : Operator) (other : Operand K V S)
    (reverse : Bool) : Gives grid.Matches (grid.apply op other reverse) :=
  .last fun left => .last fun right => (fits_combine grid op reverse left right).bind
    fun _ hcells => .pure (hcells.map _).matches_derive

theorem fits_sampleOnto (grid target : Grid K V S) :
    Gives target.Fits (grid.sampleOnto target) := by
  unfold sampleOnto
  refine .last fun cells => ?_
  dsimp only
  split
  next => exact .throw_bind _ _
  next hnonneg =>
    simp only [Bool.or_eq_true, decide_eq_true_eq, not_or, Int.not_lt] at hnonneg
    split
    next found hfound =>
      obtain ⟨hrows, hcols⟩ := Raster.shape_of_build? hfound
      exact .pure ⟨by rw [hrows, Int.toNat_of_nonneg hnonneg.1],
        by rw [hcols, Int.toNat_of_nonneg hnonneg.2]⟩
    next => exact .throw _

omit [Number V] [Cell S V] in
theorem matches_of {target : Grid K V S} {cells : Raster S} (h : target.Fits cells) (nodata : V)
    (name : Text) (top bottom : Option V) :
    Gives target.Matches
      (of target.extent target.cellWidth target.cellHeight nodata cells name top bottom) := by
  unfold of
  split
  next => exact .throw _
  next => exact .pure ⟨⟨cells, rfl, rfl, rfl⟩, h.rows, h.cols, rfl, rfl, rfl⟩

theorem matches_sampleTo (grid target : Grid K V S) :
    Gives target.Matches (grid.sampleTo target) :=
  (fits_sampleOnto grid target).bind fun _ h => matches_of (h.map _) _ _ _ _

omit [Number V] in
/-- A constant in the geometry of a grid. -/
theorem matches_allocate (constant : Constant V) (like : Grid K V S) :
    Gives like.Matches (constant.allocate like) := by
  unfold Constant.allocate
  split
  next => exact .throw _
  next hnonneg =>
    simp only [Bool.or_eq_true, decide_eq_true_eq, not_or, Int.not_lt] at hnonneg
    exact matches_of ⟨Int.toNat_of_nonneg hnonneg.1, Int.toNat_of_nonneg hnonneg.2⟩ _ _ _ _

omit [Number V] [Cell S V] in
theorem eq_of_sameGeometry {other : Grid K V S} (h : grid.sameGeometry other) :
    grid.rows = other.rows ∧ grid.cols = other.cols := by
  simp only [sameGeometry, Bool.and_eq_true, beq_iff_eq] at h
  exact ⟨h.1.1.1.1, h.1.1.1.2⟩

omit [Number V] [Cell S V] in
theorem agrees_of_sameGeometry {other : Grid K V S} (h : grid.sameGeometry other) :
    grid.extent.agrees other.extent := by
  simp only [sameGeometry, Bool.and_eq_true] at h
  exact h.2

theorem fits_aligned (grid : Grid K V S) {other : Grid K V S} (hother : other.IsShaped) :
    Gives grid.Fits (grid.aligned other) := by
  unfold aligned
  split
  next hsame =>
    obtain ⟨hrows, hcols⟩ := eq_of_sameGeometry hsame
    exact hother.values.mono fun cells h => ⟨h.rows.trans hrows.symm, h.cols.trans hcols.symm⟩
  next =>
    refine (matches_sampleTo other grid).bind fun sampled hsampled => ?_
    exact hsampled.isShaped.values.mono fun cells h =>
      ⟨h.rows.trans hsampled.rows, h.cols.trans hsampled.cols⟩

theorem matches_replace (h : grid.IsShaped) {mask : Grid K V S} (hmask : mask.IsShaped)
    {replacement : V ⊕ Grid K V S} (hreplacement : ∀ other, replacement = .inr other →
      other.IsShaped) : Gives grid.Matches (grid.replace mask replacement) := by
  unfold replace
  refine (fits_aligned grid hmask).bind fun selected hselected => ?_
  extract_lets selector derived
  have hderived (chosen : Option (Raster (Option S)))
      (hchosen : ∀ cells, chosen = some cells → grid.Fits cells) :
      Gives grid.Matches (derived chosen) := by
    refine h.values.bind fun own hown => ?_
    split
    next cells hcells =>
      obtain ⟨taken, htaken, hzip⟩ := Option.bind_eq_some_iff.mp hcells
      exact .pure ((hchosen taken htaken).zipWith? hown hzip).matches_derive
    next => exact .throw _
  cases replacement with
  | inl number =>
      refine hderived _ fun cells hcells => ?_
      cases hcells
      exact (hselected.map _).map _
  | inr other =>
      refine (fits_aligned grid (hreplacement other rfl)).bind fun source hsource => ?_
      exact hderived _ fun cells hcells => (hselected.map _).zipWith? hsource hcells

end Shape

end Grid

end MapAlgebra
