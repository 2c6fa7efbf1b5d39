import MapAlgebra.Expression.Evaluation
import MapAlgebra.Proofs.Combinations

/-!
# The extents of combinations

Operators and functions that combine operands bring them to one extent first, the fixed one or one
that follows from the operands. No step sets the extent of the result: it is that of the operand
whose geometry the result has.
-/

namespace MapAlgebra

variable {V S : Type}

namespace Extent

variable {lattice : CellLattice}

/-- The least extent around those of a list. -/
def around? : List (Extent ℚ) → Option (Extent ℚ)
  | [] => none
  | first :: rest => some (rest.foldl Extent.union first)

theorem encloses_foldl_union (first : Extent ℚ) (rest : List (Extent ℚ)) :
    (rest.foldl Extent.union first).Encloses first ∧
      ∀ extent ∈ rest, (rest.foldl Extent.union first).Encloses extent := by
  induction rest generalizing first with
  | nil => exact ⟨.refl first, fun extent h => absurd h List.not_mem_nil⟩
  | cons second rest ih =>
      obtain ⟨hboth, hrest⟩ := ih (first.union second)
      refine ⟨hboth.trans (encloses_union_left ..), fun extent hextent => ?_⟩
      rcases List.mem_cons.mp hextent with rfl | hextent
      · exact hboth.trans (encloses_union_right ..)
      · exact hrest extent hextent

theorem encloses_of_around? {extents : List (Extent ℚ)} {target : Extent ℚ}
    (h : around? extents = some target) : ∀ extent ∈ extents, target.Encloses extent := by
  cases extents with
  | nil => cases h
  | cons first rest =>
      cases h
      exact List.forall_mem_cons.mpr (encloses_foldl_union first rest)

theorem On.around? {extents : List (Extent ℚ)} {target : Extent ℚ}
    (h : around? extents = some target) (hon : ∀ extent ∈ extents, extent.On lattice) :
    target.On lattice := by
  cases extents with
  | nil => cases h
  | cons first rest =>
      cases h
      obtain ⟨hfirst, hrest⟩ := List.forall_mem_cons.mp hon
      clear hon
      induction rest generalizing first with
      | nil => exact hfirst
      | cons second rest ih =>
          obtain ⟨hsecond, hothers⟩ := List.forall_mem_cons.mp hrest
          exact ih (first.union second) (hfirst.union hsecond) hothers

end Extent

/-- The extent that a policy chooses of those of the grids among operands. -/
def ExtentPolicy.extent? : ExtentPolicy → List (Extent ℚ) → Option (Extent ℚ)
  | .first => List.head?
  | .union => Extent.around?

namespace Operand

variable {operand : Operand ℚ V S} {operands : List (Operand ℚ V S)} {target : Extent ℚ}
  {lattice : CellLattice}

/-- A constant, or a grid with a property. -/
def EachGrid (p : Grid ℚ V S → Prop) (operand : Operand ℚ V S) : Prop :=
  ∀ grid, operand = .grid grid → p grid

theorem eachGrid_constant (p : Grid ℚ V S → Prop) (c : Constant V) :
    (Operand.constant c : Operand ℚ V S).EachGrid p := by
  intro grid h
  cases h

theorem eachGrid_grid {p : Grid ℚ V S → Prop} {grid : Grid ℚ V S} (h : p grid) :
    (Operand.grid grid).EachGrid p := by
  intro other hother
  cases hother
  exact h

theorem EachGrid.mono {p q : Grid ℚ V S → Prop} (h : operand.EachGrid p)
    (hpq : ∀ grid, p grid → q grid) : operand.EachGrid q :=
  fun grid hgrid => hpq grid (h grid hgrid)

/-- A constant, or a regular grid with the sides of an extent on its lattice. -/
abbrev AlignedTo (target : Extent ℚ) (operand : Operand ℚ V S) : Prop :=
  operand.EachGrid fun grid => grid.Regular ∧ target.On grid.lattice

/-- A constant, or a regular grid on a lattice. -/
abbrev LiesOn (lattice : CellLattice) (operand : Operand ℚ V S) : Prop :=
  operand.EachGrid fun grid => grid.Regular ∧ grid.LiesOn lattice

/-- A constant, or a regular grid over an extent. -/
abbrev Fills (target : Extent ℚ) (operand : Operand ℚ V S) : Prop :=
  operand.EachGrid fun grid => grid.Regular ∧ grid.extent = target

/-- A regular grid over an extent. -/
def Covers (target : Extent ℚ) (operand : Operand ℚ V S) : Prop :=
  ∃ grid, operand = .grid grid ∧ grid.Regular ∧ grid.extent = target

theorem Covers.of_matches {grid other : Grid ℚ V S} (hregular : grid.Regular)
    (hextent : grid.extent = target) (h : grid.Matches other) :
    (Operand.grid other).Covers target :=
  ⟨other, rfl, hregular.of_matches h, h.extent.trans hextent⟩

theorem Covers.fills (h : operand.Covers target) : operand.Fills target := by
  obtain ⟨grid, rfl, hgrid⟩ := h
  exact eachGrid_grid hgrid

theorem Covers.extent?_eq (h : operand.Covers target) : operand.extent? = some target := by
  obtain ⟨grid, rfl, -, rfl⟩ := h
  rfl

theorem extent?_of_isConstant (h : operand.isConstant) : operand.extent? = none := by
  cases operand with
  | constant c => rfl
  | grid g => cases h

theorem fills_of_isConstant (h : operand.isConstant) : operand.Fills target := by
  cases operand with
  | constant c => exact eachGrid_constant _ c
  | grid g => cases h

theorem Fills.alignedTo (h : operand.Fills target) : operand.AlignedTo target := by
  intro grid hgrid
  obtain ⟨hregular, rfl⟩ := h grid hgrid
  exact ⟨hregular, hregular.liesOn.extent⟩

/-- Operands with a grid among them that can all be brought to their common extent. -/
structure Meets (fixed : Option (Extent ℚ)) (policy : ExtentPolicy)
    (operands : List (Operand ℚ V S)) (target : Extent ℚ) : Prop where
  common : targetExtent fixed policy operands = some target
  grid : ∃ operand ∈ operands, operand.isConstant = false
  aligned : ∀ operand ∈ operands, operand.AlignedTo target
  reach : target.isEmpty = false ∨ fixed = none

/-- Operands that are aligned to a fixed extent meet there. -/
theorem meets_fixed (policy : ExtentPolicy) (hempty : target.isEmpty = false)
    (hgrid : ∃ operand ∈ operands, operand.isConstant = false)
    (haligned : ∀ operand ∈ operands, operand.AlignedTo target) :
    Meets (some target) policy operands target where
  common := by
    unfold targetExtent
    rfl
  grid := hgrid
  aligned := haligned
  reach := .inl hempty

/-- Either there is a grid among operands or all are constants. -/
theorem exists_grid_or (operands : List (Operand ℚ V S)) :
    (∃ operand ∈ operands, operand.isConstant = false) ∨
      ∀ operand ∈ operands, operand.isConstant := by
  by_cases h : ∃ operand ∈ operands, operand.isConstant = false
  · exact .inl h
  · refine .inr fun operand hmem => ?_
    rw [← Bool.not_eq_false]
    exact fun hgrid => h ⟨operand, hmem, hgrid⟩

theorem extents_eq_nil (h : ∀ operand ∈ operands, operand.isConstant) :
    operands.filterMap extent? = [] :=
  List.filterMap_eq_nil_iff.mpr fun operand hmem => extent?_of_isConstant (h operand hmem)

theorem extents_ne_nil (hgrid : ∃ operand ∈ operands, operand.isConstant = false) :
    operands.filterMap extent? ≠ [] := by
  obtain ⟨operand, hmem, hconstant⟩ := hgrid
  intro hnil
  have hnone := List.filterMap_eq_nil_iff.mp hnil operand hmem
  cases operand with
  | constant c => cases hconstant
  | grid g => cases hnone

theorem on_of_mem_extents (hlies : ∀ operand ∈ operands, operand.LiesOn lattice)
    {extent : Extent ℚ} (h : extent ∈ operands.filterMap extent?) : extent.On lattice := by
  obtain ⟨operand, hmem, hextent⟩ := List.mem_filterMap.mp h
  cases operand with
  | constant c => cases hextent
  | grid g =>
      cases hextent
      exact (hlies _ hmem g rfl).2.extent

theorem aligned_of_on (hlies : ∀ operand ∈ operands, operand.LiesOn lattice)
    (hon : target.On lattice) : ∀ operand ∈ operands, operand.AlignedTo target :=
  fun operand hmem => (hlies operand hmem).mono fun _ hgrid => ⟨hgrid.1, hgrid.2.on hon⟩

/-- Operands on one lattice meet in the extent that a policy chooses. -/
theorem exists_meets (policy : ExtentPolicy)
    (hgrid : ∃ operand ∈ operands, operand.isConstant = false)
    (hlies : ∀ operand ∈ operands, operand.LiesOn lattice) :
    ∃ target, policy.extent? (operands.filterMap extent?) = some target ∧
      Meets none policy operands target := by
  cases hextents : operands.filterMap extent? with
  | nil => exact absurd hextents (extents_ne_nil hgrid)
  | cons first rest =>
      have hon : ∀ extent ∈ first :: rest, extent.On lattice :=
        fun extent hextent => on_of_mem_extents hlies (by rwa [hextents])
      cases policy with
      | first =>
          refine ⟨first, rfl, ?_, hgrid, ?_, .inr rfl⟩
          · unfold targetExtent
            rw [hextents]
          · exact aligned_of_on hlies (hon first List.mem_cons_self)
      | union =>
          refine ⟨rest.foldl Extent.union first, rfl, ?_, hgrid, ?_, .inr rfl⟩
          · unfold targetExtent
            rw [hextents]
          · exact aligned_of_on hlies (.around? rfl hon)

namespace Meets

variable {fixed : Option (Extent ℚ)} {policy : ExtentPolicy}

/-- A constant in front of the others has no part in it. -/
theorem of_constant {c : Constant V} (h : Meets fixed policy (.constant c :: operands) target) :
    Meets fixed policy operands target := by
  obtain ⟨hcommon, ⟨operand, hmem, hgrid⟩, haligned, hreach⟩ := h
  refine ⟨hcommon, ⟨operand, ?_, hgrid⟩, (List.forall_mem_cons.mp haligned).2, hreach⟩
  rcases List.mem_cons.mp hmem with rfl | hmem
  · cases hgrid
  · exact hmem

/-- The common extent goes around the first operand, unless it is a fixed one. -/
theorem reach_first (h : Meets fixed .first (operand :: operands) target) :
    target.isEmpty = false ∨ operand.EachGrid fun grid => target.Encloses grid.extent := by
  refine h.reach.imp_right fun hfixed grid hgrid => ?_
  subst hfixed hgrid
  cases h.common
  exact .refl _

/-- The extent around all operands goes around each of them. -/
theorem reach_around (h : Meets fixed .union operands target) (hmem : operand ∈ operands) :
    target.isEmpty = false ∨ operand.EachGrid fun grid => target.Encloses grid.extent := by
  refine h.reach.imp_right fun hfixed grid hgrid => ?_
  have hextent : grid.extent ∈ operands.filterMap extent? :=
    List.mem_filterMap.mpr ⟨operand, hmem, by rw [hgrid]; rfl⟩
  have haround : Extent.around? (operands.filterMap extent?) = some target := by
    have hcommon := h.common
    subst hfixed
    unfold targetExtent at hcommon
    cases hextents : operands.filterMap extent? with
    | nil =>
        rw [hextents] at hextent
        cases hextent
    | cons first rest =>
        rw [hextents] at hcommon
        exact hcommon
  exact Extent.encloses_of_around? haround _ hextent

end Meets

/-- A computation that combines operands: to a grid over an extent in which they meet, and to a
constant if all of them are constants. -/
structure Combines (fixed : Option (Extent ℚ)) (policy : ExtentPolicy)
    (operands : List (Operand ℚ V S)) (computation : Traced (Operand ℚ V S)) : Prop where
  covers : ∀ {target}, Meets fixed policy operands target →
    Traced.Succeeds (Covers target) computation
  isConstant : (∀ operand ∈ operands, operand.isConstant) →
    Traced.Succeeds (fun value => value.isConstant) computation

namespace Combines

variable {fixed : Option (Extent ℚ)} {policy : ExtentPolicy} {computation : Traced (Operand ℚ V S)}

/-- Without a fixed extent the result has the extent that the policy chooses. -/
theorem extent?_eq (h : Combines none policy operands computation)
    (hlies : ∀ operand ∈ operands, operand.LiesOn lattice) :
    Traced.Succeeds (fun value => value.extent? = policy.extent? (operands.filterMap extent?))
      computation := by
  rcases exists_grid_or operands with hgrid | hconstants
  · obtain ⟨target, hextent, hmeets⟩ := exists_meets policy hgrid hlies
    rw [hextent]
    exact (h.covers hmeets).mono fun _ => Covers.extent?_eq
  · have hnone : policy.extent? [] = none := by cases policy <;> rfl
    rw [extents_eq_nil hconstants, hnone]
    exact (h.isConstant hconstants).mono fun _ => extent?_of_isConstant

/-- With a fixed extent the result has this one, unless it is a constant. -/
theorem fills (h : Combines (some target) policy operands computation)
    (hempty : target.isEmpty = false) (haligned : ∀ operand ∈ operands, operand.AlignedTo target) :
    Traced.Succeeds (Fills target) computation := by
  rcases exists_grid_or operands with hgrid | hconstants
  · exact (h.covers (meets_fixed policy hempty hgrid haligned)).mono fun _ => Covers.fills
  · exact (h.isConstant hconstants).mono fun _ => fills_of_isConstant

end Combines

variable [Number V] [Cell S V]

/-- What an operand is once it is brought to an extent. -/
structure BroughtTo (target : Extent ℚ) (before after : Operand ℚ V S) : Prop where
  isConstant : after.isConstant = before.isConstant
  regular : after.EachGrid Grid.Regular
  extent : target.isEmpty = false ∨ before.EachGrid (fun grid => target.Encloses grid.extent) →
    after.EachGrid fun grid => grid.extent = target

theorem AlignedTo.succeeds_reconcile (h : operand.AlignedTo target) (label : String) :
    Traced.Succeeds (operand.BroughtTo target) (operand.reconcile (some target) label) := by
  unfold Operand.reconcile
  cases operand with
  | constant c =>
      exact .pure ⟨rfl, eachGrid_constant _ c, fun _ => eachGrid_constant _ c⟩
  | grid g =>
      obtain ⟨hregular, hon⟩ := h g rfl
      refine (hregular.succeeds_reconcile hon label).bind fun brought hbrought => .pure ?_
      refine ⟨rfl, eachGrid_grid hbrought.1, fun hreach => eachGrid_grid (hbrought.2 ?_)⟩
      exact hreach.imp_right fun henclosed => henclosed g rfl

/-- Brought to the extent around all operands, each of them fills it. -/
theorem Meets.succeeds_reconcile {fixed : Option (Extent ℚ)}
    (h : Meets fixed .union operands target) (hmem : operand ∈ operands) (label : String) :
    Traced.Succeeds (fun after => after.isConstant = operand.isConstant ∧ after.Fills target)
      (operand.reconcile (some target) label) :=
  ((h.aligned operand hmem).succeeds_reconcile label).mono fun _ hafter =>
    ⟨hafter.isConstant, fun grid hgrid =>
      ⟨hafter.regular grid hgrid, hafter.extent (h.reach_around hmem) grid hgrid⟩⟩

/-- The result of an operator covers what the first grid does. -/
theorem succeeds_apply {a b : Operand ℚ V S} (ha : a.EachGrid Grid.Regular)
    (hb : b.EachGrid Grid.Regular) (hgrid : a.isConstant = false ∨ b.isConstant = false)
    (hextenta : a.EachGrid fun grid => grid.extent = target)
    (hextentb : a.isConstant → b.EachGrid fun grid => grid.extent = target) (op : Operator) :
    Succeeds (Covers target) (a.apply op b) := by
  have hcovers {grid : Grid ℚ V S} {other : Operand ℚ V S} (hregular : grid.Regular)
      (hextent : grid.extent = target) (hother : other.EachGrid Grid.Regular) (reverse : Bool) :
      Succeeds (Covers target) (do
        let result ← grid.apply op other reverse
        return .grid result) :=
    (hregular.consistent.isShaped.succeeds_apply
      (fun second hsecond => (hother second hsecond).consistent.isShaped) op reverse).bind
      fun result hresult => .pure (.of_matches hregular hextent hresult)
  cases a with
  | constant c =>
      cases b with
      | constant d => simp [isConstant] at hgrid
      | grid g => exact hcovers (hb g rfl) (hextentb rfl g rfl) (eachGrid_constant _ c) true
  | grid g => cases b with
    | constant d => exact hcovers (ha g rfl) (hextenta g rfl) hb false
    | grid second => exact hcovers (ha g rfl) (hextenta g rfl) hb false

end Operand

namespace Expression

open Operand

variable [Number V] [Cell S V] {scope : Scope ℚ V} {fixed : Option (Extent ℚ)}
  {target : Extent ℚ}

/-- Two operands that meet in an extent are combined to a grid over it. -/
theorem succeeds_combine {left right : Part ℚ V S} {a b : Operand ℚ V S}
    (hresolved : Scope.nodataResolved left right = (a, b))
    (hmeets : Meets scope.settings.extent .first [a, b] target) (op : Operator) :
    Traced.Succeeds (Covers target) (scope.combine left op right) := by
  have haligned := hmeets.aligned
  unfold Scope.combine
  rw [hresolved]
  dsimp only
  rw [hmeets.common]
  refine ((haligned a (by simp)).succeeds_reconcile _).bind fun a' ha => ?_
  refine ((haligned b (by simp)).succeeds_reconcile _).bind fun b' hb => Succeeds.lift ?_
  refine succeeds_apply ha.regular hb.regular ?_ (ha.extent hmeets.reach_first) ?_ op
  · rw [ha.isConstant, hb.isConstant]
    simpa using hmeets.grid
  · intro hconstant
    rw [ha.isConstant] at hconstant
    cases a with
    | constant c => exact hb.extent hmeets.of_constant.reach_first
    | grid g => cases hconstant

omit [Number V] [Cell S V] in
theorem isShaped_replacement {operand : Operand ℚ V S} (h : operand.EachGrid Grid.Regular) :
    ∀ other, replacement operand = .inr other → other.IsShaped := by
  intro other hother
  cases operand with
  | constant c => cases hother
  | grid g =>
      cases hother
      exact (h other rfl).consistent.isShaped

/-- The smaller or greater of two operands that meet in an extent is a grid over it. -/
theorem succeeds_extremum {first second : Operand ℚ V S}
    (hmeets : Meets fixed .first [first, second] target) (function : Function) (op : Operator) :
    Traced.Succeeds (Covers target) (extremum fixed function op first second) := by
  unfold extremum
  extract_lets inCells
  have hcells {g : Grid ℚ V S} {other : Operand ℚ V S} {rest : List (Operand ℚ V S)}
      (hg : Meets fixed .first (.grid g :: rest) target) (hother : other.AlignedTo target) :
      Traced.Succeeds (Covers target) (inCells g other) := by
    have htarget : fixed.getD g.extent = target := by
      have hcommon := hg.common
      cases fixed with
      | none => exact Option.some.inj hcommon
      | some extent => exact Option.some.inj hcommon
    obtain ⟨hregular, hon⟩ := hg.aligned _ List.mem_cons_self g rfl
    unfold inCells
    rw [htarget]
    refine (hregular.succeeds_reconcile hon _).bind fun g' hg' => ?_
    refine (hother.succeeds_reconcile _).bind fun other' hother' => ?_
    have hextent := hg'.2 (hg.reach_first.imp_right fun hencloses => hencloses g rfl)
    refine (Succeeds.lift (hg'.1.consistent.isShaped.succeeds_apply
      (fun second hsecond => (hother'.regular second hsecond).consistent.isShaped) op
        false)).bind fun mask hmask => ?_
    refine (Succeeds.lift (hg'.1.succeeds_replace hmask.isShaped
      (isShaped_replacement hother'.regular))).bind fun result hresult => ?_
    exact .pure (.of_matches hg'.1 hextent hresult)
  cases first with
  | constant c =>
      cases second with
      | constant d => simpa [isConstant] using hmeets.grid
      | grid g => exact hcells hmeets.of_constant (eachGrid_constant _ c)
  | grid g =>
      have hsecond := hmeets.aligned second (by simp)
      cases second with
      | constant d => exact hcells hmeets hsecond
      | grid other => exact hcells hmeets hsecond

/-- What operands are brought to in the geometry of a grid over an extent covers it as well. -/
theorem succeeds_onto {operand : Operand ℚ V S} {reference : Grid ℚ V S}
    (h : operand.EachGrid fun grid => grid.Regular ∧ grid.extent = target)
    (hreference : reference.Regular) (hextent : reference.extent = target) :
    Succeeds (fun grid => grid.Regular ∧ grid.extent = target) (onto operand reference) := by
  have hmatches {other : Grid ℚ V S} (hother : reference.Matches other) :
      other.Regular ∧ other.extent = target :=
    ⟨hreference.of_matches hother, hother.extent.trans hextent⟩
  unfold onto
  cases operand with
  | constant c => exact (Grid.succeeds_allocate c hreference).mono fun _ => hmatches
  | grid g =>
      have hg := h g rfl
      dsimp only
      split
      next => exact .pure hg
      next =>
        exact (Grid.succeeds_sampleTo hg.1.consistent.isShaped hreference).mono fun _ => hmatches

omit [Number V] in
theorem succeeds_maskGrid {operand : Operand ℚ V S} {reference : Grid ℚ V S}
    (h : operand.EachGrid Grid.Regular) (hreference : reference.Regular) :
    Succeeds Grid.IsShaped (maskGrid operand reference) := by
  unfold maskGrid
  cases operand with
  | constant c =>
      exact (Grid.succeeds_allocate c hreference).mono fun _ hmask => hmask.isShaped
  | grid g => exact .pure (h g rfl).consistent.isShaped

omit [Cell S V] in
theorem eachGrid_branch {p : Grid ℚ V S → Prop} {value : Operand ℚ V S} (h : value.EachGrid p)
    (part : Part ℚ V S) (reference : Grid ℚ V S) :
    (branch part value reference).EachGrid p := by
  unfold branch
  cases value with
  | constant c =>
      dsimp only
      split
      next => exact eachGrid_constant p _
      next => exact eachGrid_constant p _
  | grid g => exact h

/-- The cells of a choice are put together over the extent that its operands fill. -/
theorem succeeds_chosen {c a b : Operand ℚ V S} (hc : c.Fills target) (ha : a.Fills target)
    (hb : b.Fills target) (yes no : Part ℚ V S) {reference : Grid ℚ V S}
    (hreference : reference.Regular) (hextent : reference.extent = target) :
    Traced.Succeeds (Covers target) (do
      let base ← liftExcept (onto (branch no b reference) reference)
      let base ← liftExcept (base.withNodata reference.nodata)
      let mask ← liftExcept (maskGrid c reference)
      return .grid (← liftExcept (base.replace mask (replacement (branch yes a reference))))) := by
  have hregular {operand : Operand ℚ V S} (h : operand.Fills target) :
      operand.EachGrid Grid.Regular := h.mono fun _ => And.left
  refine (Succeeds.lift (succeeds_onto (eachGrid_branch hb no reference) hreference
    hextent)).bind fun base hbase => ?_
  refine (Succeeds.lift (hbase.1.consistent.isShaped.succeeds_withNodata _)).bind
    fun marked hmarked => ?_
  have hgeometry := hbase.1.of_matches hmarked
  refine (Succeeds.lift (succeeds_maskGrid (hregular hc) hreference)).bind fun mask hmask => ?_
  refine (Succeeds.lift (hgeometry.succeeds_replace hmask
    (isShaped_replacement (eachGrid_branch (hregular ha) yes reference)))).bind
      fun result hresult => ?_
  exact .pure (.of_matches hgeometry (hmarked.extent.trans hbase.2) hresult)

/-- A choice between operands that meet in an extent, by one that does as well, is a grid over
it. -/
theorem succeeds_choose {condition yes no : Part ℚ V S}
    (hmeets : Meets fixed .union [condition.value, yes.value, no.value] target) :
    Traced.Succeeds (Covers target) (choose fixed condition yes no) := by
  unfold choose
  split
  next hc ha hb =>
    have hgrid := hmeets.grid
    rw [hc, ha, hb] at hgrid
    simp [isConstant] at hgrid
  next =>
    rw [hmeets.common]
    extract_lets
    refine .bind (.record _ _) fun _ _ => ?_
    refine .bind (hmeets.succeeds_reconcile (by simp) _) fun c hc => ?_
    refine .bind (hmeets.succeeds_reconcile (by simp) _) fun a ha => ?_
    refine .bind (hmeets.succeeds_reconcile (by simp) _) fun b hb => ?_
    dsimp only
    split
    next hnone =>
      obtain ⟨operand, hmem, hgrid⟩ : ∃ operand ∈ [c, a, b], operand.isConstant = false := by
        simpa [hc.1, ha.1, hb.1] using hmeets.grid
      have hmissing := List.filterMap_eq_nil_iff.mp hnone operand hmem
      cases operand with
      | constant d => cases hgrid
      | grid g => cases hmissing
    next reference rest hsome =>
      have hall : ∀ operand ∈ [c, a, b], operand.Fills target := by
        simpa using ⟨hc.2, ha.2, hb.2⟩
      obtain ⟨operand, hmem, hfound⟩ :=
        List.mem_filterMap.mp (hsome ▸ List.mem_cons_self (a := reference) (l := rest))
      cases operand with
      | constant d => cases hfound
      | grid g =>
          cases hfound
          obtain ⟨hreference, hextent⟩ := hall _ hmem reference rfl
          exact succeeds_chosen hc.2 ha.2 hb.2 yes no hreference hextent

theorem succeeds_reconcile_constant {operand : Operand ℚ V S} (h : operand.isConstant)
    (common : Option (Extent ℚ)) (label : String) :
    Traced.Succeeds (fun after => after.isConstant) (operand.reconcile common label) := by
  unfold Operand.reconcile
  cases operand with
  | constant c => exact .pure rfl
  | grid g => cases h

theorem combines_combine (scope : Scope ℚ V) {left right : Part ℚ V S} {a b : Operand ℚ V S}
    (hresolved : Scope.nodataResolved left right = (a, b)) (op : Operator) :
    Combines scope.settings.extent .first [a, b] (scope.combine left op right) where
  covers hmeets := succeeds_combine hresolved hmeets op
  isConstant hconstants := by
    unfold Scope.combine
    rw [hresolved]
    refine (succeeds_reconcile_constant (hconstants a (by simp)) _ _).bind fun a' ha => ?_
    refine (succeeds_reconcile_constant (hconstants b (by simp)) _ _).bind fun b' hb =>
      Succeeds.lift ?_
    cases a' with
    | grid g => cases ha
    | constant c =>
        cases b' with
        | grid g => cases hb
        | constant d => exact .pure rfl

theorem combines_extremum (fixed : Option (Extent ℚ)) (function : Function) (op : Operator)
    (first second : Operand ℚ V S) :
    Combines fixed .first [first, second] (extremum fixed function op first second) where
  covers hmeets := succeeds_extremum hmeets function op
  isConstant hconstants := by
    have hfirst := hconstants first (by simp)
    have hsecond := hconstants second (by simp)
    unfold extremum
    cases first with
    | grid g => cases hfirst
    | constant c =>
        cases second with
        | grid g => cases hsecond
        | constant d => exact .pure rfl

theorem combines_choose (fixed : Option (Extent ℚ)) (condition yes no : Part ℚ V S) :
    Combines fixed .union [condition.value, yes.value, no.value]
      (choose fixed condition yes no) where
  covers := succeeds_choose
  isConstant hconstants := by
    unfold choose
    split
    next => exact .pure rfl
    next hgrid =>
      have hconstant {operand : Operand ℚ V S} (h : operand.isConstant) :
          ∃ c, operand = .constant c := by
        cases operand with
        | constant c => exact ⟨c, rfl⟩
        | grid g => cases h
      obtain ⟨c, hc⟩ := hconstant (hconstants condition.value (by simp))
      obtain ⟨a, ha⟩ := hconstant (hconstants yes.value (by simp))
      obtain ⟨b, hb⟩ := hconstant (hconstants no.value (by simp))
      exact absurd hb (hgrid c a b hc ha)

end Expression

end MapAlgebra
