import MapAlgebra.Proofs.Lattices
import MapAlgebra.Proofs.Ordering
import MapAlgebra.Proofs.Points

/-!
# Placing grids on aligned extents

An extent whose sides lie whole cells away from those of a grid, wherever it is, gets the cells of
the grid that lie in it, each at its place, and NoData around them. Bringing a grid to such an
extent makes debug records only: the single cell that stands in for an empty window never does so
here.
-/

namespace MapAlgebra

variable {K V S α β : Type}

namespace Traced

/-- A computation gives a result with a property, and the records it adds are all of one kind. -/
def Logs (kind : Record → Prop) (p : α → Prop) (computation : Traced α) : Prop :=
  ∀ records, ∃ a made, computation.run.run records = (.ok a, records ++ made) ∧
    (∀ record ∈ made, kind record) ∧ p a

namespace Logs

variable {kind : Record → Prop} {p : α → Prop} {q : β → Prop}

theorem pure {a : α} (h : p a) : Traced.Logs kind p (Pure.pure a) :=
  fun records => ⟨a, [], by rw [List.append_nil]; rfl, nofun, h⟩

theorem lift {outcome : Except Fault α} {a : α} (houtcome : outcome = .ok a) (h : p a) :
    Traced.Logs kind p (liftExcept outcome) := by
  subst houtcome
  exact pure h

theorem bind {step : Traced α} {next : α → Traced β} (hstep : Traced.Logs kind p step)
    (hnext : ∀ a, p a → Traced.Logs kind q (next a)) : Traced.Logs kind q (step >>= next) := by
  intro records
  obtain ⟨a, first, hrun, hfirst, ha⟩ := hstep records
  obtain ⟨b, second, hlater, hsecond, hb⟩ := hnext a ha (records ++ first)
  refine ⟨b, first ++ second, ?_, fun record hrecord => ?_, hb⟩
  · rw [ExceptT.run_bind, StateT.run_bind, hrun, ← List.append_assoc]
    exact hlater
  · exact (List.mem_append.mp hrecord).elim (hfirst record) (hsecond record)

theorem lift_bind {outcome : Except Fault α} {a : α} {next : α → Traced β}
    (houtcome : outcome = .ok a) (hnext : Traced.Logs kind q (next a)) :
    Traced.Logs kind q (liftExcept outcome >>= next) :=
  bind (p := (· = a)) (lift houtcome rfl) fun _ hfound => hfound ▸ hnext

theorem record_bind {level : Level} {text : String} {next : Unit → Traced β}
    (h : kind ⟨level, text⟩) (hnext : Traced.Logs kind q (next ())) :
    Traced.Logs kind q (Traced.record level text >>= next) := by
  have hrecord : Traced.Logs kind (fun _ => True) (Traced.record level text) := fun records =>
    ⟨(), [⟨level, text⟩], rfl, by simpa using h, trivial⟩
  exact hrecord.bind fun _ _ => hnext

theorem succeeds {computation : Traced α} (h : Traced.Logs kind p computation) :
    Traced.Succeeds p computation := by
  intro records
  obtain ⟨a, made, hrun, -, ha⟩ := h records
  exact ⟨a, _, hrun, ha⟩

/-- What holds of whatever is given holds of the one result. -/
theorem of_gives {a : α} {computation : Traced α} (h : Traced.Logs kind (· = a) computation)
    (hgives : Traced.Gives p computation) : p a := by
  obtain ⟨found, made, hrun, -, rfl⟩ := h []
  exact hgives [] found (congrArg Prod.fst hrun)

end Logs

end Traced

theorem Extent.Encloses.holds {outer inner : Extent ℚ} (h : outer.Encloses inner) {x y : ℚ}
    (hholds : inner.Holds x y) : outer.Holds x y where
  left := h.left.trans hholds.left
  right := hholds.right.trans_le h.right
  lower := h.lower.trans_lt hholds.lower
  upper := hholds.upper.trans h.upper

namespace Grid

section Bringing

variable [Coordinate K] [Number V] [Cell S V] {grid grown : Grid K V S} {target : Extent K}
variable {kind : Record → Prop} {p : Grid K V S → Prop}

/-- What is left of a grid when it is cut is the window, if that has cells. -/
theorem logs_clipOrDummy {cut : Grid K V S} (hempty : target.isEmpty = false)
    (hclip : grid.clip target = .ok (some cut)) (hcut : p cut) :
    Traced.Logs kind p (grid.clipOrDummy target) := by
  rw [clipOrDummy_eq, if_neg (hempty ▸ Bool.false_ne_true)]
  exact .lift_bind hclip (.pure hcut)

/-- A grid is brought to an extent in three ways: it is kept if it has the extent already, enlarged
unless it contains the extent, and then cut unless it lies in the extent. -/
theorem exists_reconciled (hdebug : ∀ text, kind ⟨.debug, text⟩)
    (hkept : grid.extent.agrees target → p grid)
    (hcontains : grid.extent.contains target → grown = grid)
    (henlarge : ¬ grid.extent.contains target → grid.enlarge target = .ok grown)
    (hinside : target.contains grown.extent → p grown)
    (hcut : ¬ target.contains grown.extent →
      ∃ cut, p cut ∧ Traced.Logs kind (· = cut) (grown.clipOrDummy target)) :
    ∃ brought, p brought ∧
      ∀ label, Traced.Logs kind (· = brought) (grid.reconcile target label) := by
  by_cases hagrees : grid.extent.agrees target
  · refine ⟨grid, hkept hagrees, fun label => ?_⟩
    unfold reconcile
    rw [if_pos hagrees]
    exact .pure rfl
  -- what is done with the grid that was enlarged if need be
  obtain ⟨brought, hbrought, hcutTo⟩ : ∃ brought, p brought ∧
      ∀ label, Traced.Logs kind (· = brought) (grown.cutTo target label) := by
    unfold cutTo
    by_cases hwithin : target.contains grown.extent
    · exact ⟨grown, hinside hwithin, fun label => by rw [if_pos hwithin]; exact .pure rfl⟩
    · obtain ⟨cut, hp, hlogs⟩ := hcut hwithin
      exact ⟨cut, hp, fun label => by
        rw [if_neg hwithin]
        exact .record_bind (hdebug _) hlogs⟩
  refine ⟨brought, hbrought, fun label => ?_⟩
  rw [reconcile_eq, if_neg hagrees]
  split
  next hcontained => exact hcontains hcontained ▸ hcutTo label
  next hcontained =>
    exact .record_bind (hdebug _) (.lift_bind (henlarge hcontained) (hcutTo label))

end Bringing

section Placing

variable {grid : Grid ℚ V S} {target : Extent ℚ}

/-- A grid that stands on an aligned extent in place of another one: it shows that one. -/
structure Places [Number V] [Cell S V] (grid : Grid ℚ V S) (target : Extent ℚ)
    (placed : Grid ℚ V S) : Prop where
  regular : placed.Regular
  extent : placed.extent = target
  shows : placed.Shows grid

variable [Number V] [Cell S V]

/-- A grid is brought to an aligned extent without a stand-in, whatever the two have in common. -/
theorem Regular.exists_places (h : grid.Regular) (hon : target.On grid.lattice)
    (hempty : target.isEmpty = false) :
    ∃ placed, grid.Places target placed ∧ ∀ label,
      Traced.Logs (·.level = .debug) (· = placed) (grid.reconcile target label) := by
  have hself := h.liesOn
  have hshows := h.consistent.shows_self h.width_pos h.height_pos
  have haround := hself.extent.contains_iff hon h.wide h.high
  -- the grid before it is cut
  obtain ⟨grown, hgrown, hlies, hunion, hshown, hcontains, henlarge⟩ : ∃ grown : Grid ℚ V S,
      grown.Regular ∧ grown.LiesOn grid.lattice ∧ grown.extent = grid.extent.union target ∧
        grown.Shows grid ∧ (grid.extent.contains target → grown = grid) ∧
        (¬ grid.extent.contains target → grid.enlarge target = .ok grown) := by
    by_cases hcontains : grid.extent.contains target
    · exact ⟨grid, h, hself, (haround.mp hcontains).union_eq_left.symm, hshows, fun _ => rfl,
        fun hnot => absurd hcontains hnot⟩
    · obtain ⟨grown, henlarge, hgrown, hlies, hunion⟩ := h.exists_enlarge hon
      have hshown := h.consistent.shows_enlarge h.width_pos h.height_pos target grown henlarge
        hgrown.consistent
      exact ⟨grown, hgrown, hlies, hunion, hshown, fun hcontained => absurd hcontained hcontains,
        fun _ => henlarge⟩
  have houter : grown.extent.Encloses target := hunion ▸ Extent.encloses_union_right ..
  refine exists_reconciled (fun _ => rfl) (fun hagrees => ?_) hcontains henlarge
    (fun hinside => ?_) fun _ => ?_
  · exact ⟨h, hself.extent.eq_of_agrees hon h.wide h.high hagrees, hshows⟩
  · have hinner := (hon.contains_iff hlies.extent h.wide h.high).mp hinside
    exact ⟨hgrown, houter.antisymm hinner, hshown⟩
  · obtain ⟨hlong, hhigh⟩ := Extent.isEmpty_eq_false_iff.mp hempty
    have hx : target.xll < target.xur := sub_pos.mp (lt_trans (by norm_num) hlong)
    have hy : target.yll < target.yur := sub_pos.mp (lt_trans (by norm_num) hhigh)
    obtain ⟨cut, hclip, hcut, hextent⟩ := hgrown.exists_clip (hlies.on hon) houter hx hy
    have hwindow : cut.Shows grown := hgrown.consistent.shows_clip hgrown.width_pos
      hgrown.height_pos target _ hclip cut rfl hcut.consistent
    have hshown' : cut.Shows grid :=
      hwindow.trans hshown fun x y hholds => houter.holds (hextent ▸ hholds)
    exact ⟨cut, ⟨hcut, hextent, hshown'⟩, logs_clipOrDummy hempty hclip rfl⟩

end Placing

/-- Brought to an extent whose sides lie whole cells away from its own, a grid has exactly that
extent with each of its cells at its place and NoData elsewhere, and no cell stands in for it. A
grid that has the extent is kept. -/
theorem Regular.exists_placed {grid : Grid ℚ Float Float32} {target : Extent ℚ} (h : grid.Regular)
    (hon : target.On grid.lattice) (hwide : 1 / 10000 < target.width)
    (hhigh : 1 / 10000 < target.height) :
    ∃ placed, (∀ label, Traced.Logs (·.level = .debug) (· = placed) (grid.reconcile target label)) ∧
      placed.extent = target ∧ placed.cellWidth = grid.cellWidth ∧
      placed.cellHeight = grid.cellHeight ∧ placed.nodata = grid.nodata ∧ placed.Consistent ∧
      (∀ x y, ¬ target.Holds x y → placed.cellAt? x y = none) ∧
      (∀ x y, target.Holds x y → grid.extent.Holds x y →
        placed.cellAt? x y = grid.cellAt? x y ∧ (grid.cellAt? x y).isSome) ∧
      (∀ x y, target.Holds x y → ¬ grid.extent.Holds x y →
        ∃ cell, placed.cellAt? x y = some cell ∧ holdsNodata placed.nodata cell) ∧
      (grid.extent = target → placed = grid) ∧
      ∀ label, placed.reconcile target label = pure placed := by
  obtain ⟨placed, ⟨hplaced, hextent, hshows⟩, hlogs⟩ :=
    h.exists_places hon (Extent.isEmpty_eq_false_iff.mpr ⟨hwide, hhigh⟩)
  have hkept {kept : Grid ℚ Float Float32} (hkept : kept.extent = target) (label : String) :
      kept.reconcile target label = pure kept := by
    unfold reconcile
    rw [hkept, if_pos (Extent.agrees_self target)]
  have hown (x y : ℚ) : (grid.cellAt? x y).isSome ↔ grid.extent.Holds x y :=
    h.consistent.isSome_cellAt?_iff h.width_pos h.height_pos
  refine ⟨placed, hlogs, hextent, hshows.cellWidth, hshows.cellHeight, hshows.nodata,
    hplaced.consistent, ?_, ?_, ?_, ?_, hkept hextent⟩
  · intro x y hout
    rw [← Option.not_isSome_iff_eq_none,
      hplaced.consistent.isSome_cellAt?_iff hplaced.width_pos hplaced.height_pos, hextent]
    exact hout
  · intro x y hholds hwithin
    obtain ⟨cell, hcell⟩ := Option.isSome_iff_exists.mp ((hown x y).mpr hwithin)
    rw [hshows.cellAt? x y (hextent ▸ hholds), hcell]
    exact ⟨rfl, rfl⟩
  · intro x y hholds hwithout
    have hnone : grid.cellAt? x y = none := by
      rw [← Option.not_isSome_iff_eq_none, hown]
      exact hwithout
    refine ⟨Cell.narrow grid.nodata, ?_, ?_⟩
    · rw [hshows.cellAt? x y (hextent ▸ hholds), hnone]
      rfl
    · rw [hshows.nodata]
      exact Double.holdsNodata_narrow grid.nodata
  · intro hsame
    -- the run that brings the grid keeps it
    obtain ⟨found, made, hrun, -, hfound⟩ := hlogs "" []
    rw [hkept hsame] at hrun
    cases hrun
    exact hfound.symm

/-- The right one of two cells is placed on an extent that reaches one cell further. -/
theorem exists_placed_pair : ∃ placed,
    (pair 0 1 5 7).Regular ∧ (⟨1, 0, 3, 1⟩ : Extent ℚ).On (pair 0 1 5 7).lattice ∧
      1 / 10000 < (⟨1, 0, 3, 1⟩ : Extent ℚ).width ∧ 1 / 10000 < (⟨1, 0, 3, 1⟩ : Extent ℚ).height ∧
      (∀ label, Traced.Logs (·.level = .debug) (· = placed)
        ((pair 0 1 5 7).reconcile ⟨1, 0, 3, 1⟩ label)) ∧
      placed.extent = ⟨1, 0, 3, 1⟩ ∧ placed.cellAt? (3 / 2) (1 / 2) = some 7 ∧
      ∃ cell, placed.cellAt? (5 / 2) (1 / 2) = some cell ∧ holdsNodata placed.nodata cell := by
  have hregular : (pair 0 1 5 7).Regular :=
    ⟨consistent_pair 0 1 5 7, by norm_num [pair], by norm_num [pair]⟩
  have hon : (⟨1, 0, 3, 1⟩ : Extent ℚ).On (pair 0 1 5 7).lattice :=
    ⟨⟨1, by norm_num [pair, lattice]⟩, ⟨0, by norm_num [pair, lattice]⟩,
      ⟨3, by norm_num [pair, lattice]⟩, ⟨1, by norm_num [pair, lattice]⟩⟩
  have hwide : 1 / 10000 < (⟨1, 0, 3, 1⟩ : Extent ℚ).width := by norm_num [Extent.width]
  have hhigh : 1 / 10000 < (⟨1, 0, 3, 1⟩ : Extent ℚ).height := by norm_num [Extent.height]
  obtain ⟨placed, hlogs, hextent, -, -, -, -, -, hinside, houtside, -, -⟩ :=
    hregular.exists_placed hon hwide hhigh
  have hright : (⟨1, 0, 3, 1⟩ : Extent ℚ).Holds (3 / 2) (1 / 2) ∧
      (pair 0 1 5 7).extent.Holds (3 / 2) (1 / 2) := by
    constructor <;> constructor <;> norm_num [pair]
  have hbeyond : (⟨1, 0, 3, 1⟩ : Extent ℚ).Holds (5 / 2) (1 / 2) := by
    constructor <;> norm_num
  have hnot : ¬ (pair 0 1 5 7).extent.Holds (5 / 2) (1 / 2) := fun hholds =>
    absurd hholds.right (by norm_num [pair])
  have hrow : (pair 0 1 5 7).rowAt (1 / 2) = 0 := by norm_num [rowAt, pair]
  have hcol : (pair 0 1 5 7).colAt (3 / 2) = 1 := by norm_num [colAt, pair]
  have hseven : (pair 0 1 5 7).cellAt? (3 / 2) (1 / 2) = some 7 := by
    rw [cellAt?_of_resident rfl, hrow, hcol]
    rfl
  exact ⟨placed, hregular, hon, hwide, hhigh, hlogs, hextent,
    (hinside _ _ hright.1 hright.2).1.trans hseven, houtside _ _ hbeyond hnot⟩

end Grid

end MapAlgebra
