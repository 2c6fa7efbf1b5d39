import MapAlgebra.Proofs.Lattices

/-!
# Combining grids that have their cells

Grids whose cells have their shape can be read at each other's cells, combined and replaced by each
other, wherever they lie. None of this fails, and the result has the geometry of the grid that is
changed.
-/

namespace MapAlgebra

variable {K V S α β γ : Type}

/-- A computation gives a result with a property. -/
def Succeeds (p : α → Prop) (outcome : Except Fault α) : Prop :=
  ∃ a, outcome = .ok a ∧ p a

namespace Succeeds

variable {p : α → Prop} {q : β → Prop}

theorem pure {a : α} (h : p a) : Succeeds p (Pure.pure a : Except Fault α) :=
  ⟨a, rfl, h⟩

theorem bind {step : Except Fault α} {next : α → Except Fault β} (hstep : Succeeds p step)
    (hnext : ∀ a, p a → Succeeds q (next a)) : Succeeds q (step >>= next) := by
  obtain ⟨a, rfl, ha⟩ := hstep
  exact hnext a ha

theorem mono {p' : α → Prop} {outcome : Except Fault α} (h : Succeeds p outcome)
    (hp : ∀ a, p a → p' a) : Succeeds p' outcome := by
  obtain ⟨a, houtcome, ha⟩ := h
  exact ⟨a, houtcome, hp a ha⟩

/-- A result, if there is one, is known to have the property. -/
theorem of_gives {outcome : Except Fault α} (h : Succeeds (fun _ => True) outcome)
    (hgives : Gives p outcome) : Succeeds p outcome := by
  obtain ⟨a, houtcome, -⟩ := h
  exact ⟨a, houtcome, hgives a houtcome⟩

theorem lift {outcome : Except Fault α} (h : Succeeds p outcome) :
    Traced.Succeeds p (liftExcept outcome) := by
  obtain ⟨a, houtcome, ha⟩ := h
  exact .lift houtcome ha

end Succeeds

namespace Grid

variable {grid target mask : Grid K V S} {other : Operand K V S}

theorem Fits.exists_zipWith? {a : Raster α} {b : Raster β} (ha : grid.Fits a) (hb : grid.Fits b)
    (f : α → β → γ) : ∃ joined, a.zipWith? f b = some joined ∧ grid.Fits joined := by
  obtain ⟨joined, hjoined, -⟩ := Raster.exists_zipWith? f
    (Int.ofNat.inj (hb.rows.trans ha.rows.symm)) (Int.ofNat.inj (hb.cols.trans ha.cols.symm))
  exact ⟨joined, hjoined, ha.zipWith? hb hjoined⟩

theorem IsShaped.nonneg (h : grid.IsShaped) : 0 ≤ grid.rows ∧ 0 ≤ grid.cols := by
  obtain ⟨cells, -, hrows, hcols⟩ := h
  omega

theorem IsShaped.succeeds_values (h : grid.IsShaped) : Succeeds grid.Fits grid.values := by
  obtain ⟨cells, hcells, hfits⟩ := h
  exact ⟨cells, values_eq_ok_iff.mpr hcells, hfits⟩

variable [Number V] [Cell S V]

theorem IsShaped.succeeds_samples (h : grid.IsShaped) : Succeeds grid.Fits grid.samples :=
  h.succeeds_values.bind fun _ hcells => .pure (hcells.map _)

theorem IsShaped.succeeds_withNodata (h : grid.IsShaped) (nodata : V) :
    Succeeds grid.Matches (grid.withNodata nodata) := by
  refine .of_gives ?_ (matches_withNodata h nodata)
  unfold withNodata
  split
  next => exact .pure trivial
  next => exact h.succeeds_values.bind fun _ _ => .pure trivial

omit [Cell S V] in
/-- Samples of one shape are combined in it. -/
theorem IsShaped.succeeds_combine (h : grid.IsShaped) (op : Operator) (reverse : Bool)
    {left : Raster (Sample V)} (hleft : grid.Fits left) {right : Sample V ⊕ Raster (Sample V)}
    (hright : ∀ samples, right = .inr samples → grid.Fits samples) :
    Succeeds grid.Fits (grid.combine op reverse left right) := by
  have hnonneg : ¬ (grid.rows < 0 ∨ grid.cols < 0) := by
    have := h.nonneg
    omega
  have hstretch (joined : Raster V) (hjoined : grid.Fits joined) :
      joined.stretch? grid.rows.toNat grid.cols.toNat = some joined := by
    rw [← hjoined.rows, ← hjoined.cols]
    exact joined.stretch?_self
  refine .of_gives ?_ (fits_combine grid op reverse left right)
  unfold combine
  simp only [Bool.or_eq_true, decide_eq_true_eq, if_neg hnonneg]
  cases right with
  | inl sample =>
      dsimp only
      rw [Option.bind_some, hstretch _ (hleft.map _)]
      exact .pure trivial
  | inr samples =>
      obtain ⟨joined, hjoined, hfits⟩ := hleft.exists_zipWith? (hright samples rfl)
        fun own other => if reverse then combineSamples grid.nodata op false other own
          else combineSamples grid.nodata op false own other
      dsimp only
      rw [hjoined, Option.bind_some, hstretch joined hfits]
      exact .pure trivial

variable [Coordinate K]

/-- A grid can be read at the cells of any other one. -/
theorem IsShaped.succeeds_sampleOnto (h : grid.IsShaped) (htarget : target.IsShaped) :
    Succeeds target.Fits (grid.sampleOnto target) := by
  obtain ⟨cells, hcells, hfits⟩ := h
  obtain ⟨samples, hsamples, hshape, -⟩ := exists_sampleOnto_over hcells hfits htarget
  exact ⟨samples, hsamples, hshape⟩

theorem IsShaped.succeeds_operandSamples (h : grid.IsShaped)
    (hother : ∀ second, other = .grid second → second.IsShaped) :
    Succeeds (fun right => ∀ samples, right = .inr samples → grid.Fits samples)
      (grid.operandSamples other) := by
  unfold operandSamples
  cases other with
  | constant c =>
      refine .pure fun samples hsamples => ?_
      cases hsamples
  | grid second =>
      have hsecond := hother second rfl
      dsimp only
      split
      next hsame =>
        obtain ⟨hrows, hcols⟩ := eq_of_sameGeometry hsame
        refine hsecond.succeeds_samples.bind fun found hfound => .pure fun samples hsamples => ?_
        cases hsamples
        exact ⟨hfound.rows.trans hrows.symm, hfound.cols.trans hcols.symm⟩
      next =>
        refine (hsecond.succeeds_sampleOnto h).bind fun found hfound =>
          .pure fun samples hsamples => ?_
        cases hsamples
        exact hfound

/-- An operator has a result for a grid and any other operand. -/
theorem IsShaped.succeeds_apply (h : grid.IsShaped)
    (hother : ∀ second, other = .grid second → second.IsShaped) (op : Operator) (reverse : Bool) :
    Succeeds grid.Matches (grid.apply op other reverse) :=
  .of_gives (h.succeeds_samples.bind fun _ hleft => (h.succeeds_operandSamples hother).bind
    fun _ hright => (h.succeeds_combine op reverse hleft hright).bind fun _ _ => .pure trivial)
    (matches_apply grid op other reverse)

section Regular

variable {grid target mask : Grid ℚ V S}

theorem succeeds_sampleTo (h : grid.IsShaped) (htarget : target.Regular) :
    Succeeds target.Matches (grid.sampleTo target) :=
  .of_gives ((h.succeeds_sampleOnto htarget.consistent.isShaped).bind fun _ _ =>
    ⟨_, of_eq_ok htarget.width_pos _ _ _ _ _ _ _, trivial⟩) (matches_sampleTo grid target)

omit [Number V] in
theorem succeeds_allocate (constant : Constant V) (htarget : target.Regular) :
    Succeeds target.Matches (constant.allocate target) := by
  refine .of_gives ?_ (matches_allocate constant target)
  unfold Constant.allocate
  have hnonneg : ¬ (target.rows < 0 ∨ target.cols < 0) := by
    have := htarget.consistent.isShaped.nonneg
    omega
  rw [if_neg (by simpa using hnonneg)]
  exact ⟨_, of_eq_ok htarget.width_pos _ _ _ _ _ _ _, trivial⟩

theorem Regular.succeeds_aligned (h : grid.Regular) {other : Grid ℚ V S}
    (hother : other.IsShaped) : Succeeds grid.Fits (grid.aligned other) := by
  refine .of_gives ?_ (fits_aligned grid hother)
  unfold aligned
  split
  next => exact hother.succeeds_values.mono fun _ _ => trivial
  next =>
    exact (succeeds_sampleTo hother h).bind fun sampled hsampled =>
      hsampled.isShaped.succeeds_values.mono fun _ _ => trivial

/-- The cells that a mask selects can be replaced by a number or by those of any grid. -/
theorem Regular.succeeds_replace (h : grid.Regular) (hmask : mask.IsShaped)
    {replacement : V ⊕ Grid ℚ V S}
    (hreplacement : ∀ other, replacement = .inr other → other.IsShaped) :
    Succeeds grid.Matches (grid.replace mask replacement) := by
  have hshaped := h.consistent.isShaped
  refine .of_gives ?_ (matches_replace hshaped hmask hreplacement)
  unfold replace
  refine (h.succeeds_aligned hmask).bind fun selected hselected => ?_
  extract_lets selector derived
  have hderived (cells : Raster (Option S)) (hcells : grid.Fits cells) :
      Succeeds (fun _ => True) (derived (some cells)) := by
    refine hshaped.succeeds_values.bind fun own hown => ?_
    obtain ⟨joined, hjoined, -⟩ := hcells.exists_zipWith? hown fun taken cell => taken.getD cell
    rw [Option.bind_some, hjoined]
    exact .pure trivial
  cases replacement with
  | inl number => exact hderived _ ((hselected.map _).map _)
  | inr other =>
      refine (h.succeeds_aligned (hreplacement other rfl)).bind fun source hsource => ?_
      obtain ⟨joined, hjoined, hfits⟩ := (hselected.map (selects mask.nodata)).exists_zipWith?
        hsource fun selected cell => if !selected then none
          else if holdsNodata other.nodata cell then some (Cell.narrow grid.nodata) else some cell
      refine .bind (p := (· = some joined)) ⟨_, hjoined ▸ rfl, rfl⟩ fun found hfound => ?_
      subst hfound
      exact hderived joined hfits

end Regular

end Grid

end MapAlgebra
