import MapAlgebra.Proofs.Comparisons
import MapAlgebra.Proofs.NamedValues

/-!
# The smaller and the greater of two grids

The greater of two grids is the first one with the cells of the second where these are greater; a
choice by a comparison starts from its last part. Both decide with a grid of zeros and ones, so they
give the same numbers unless a one counts as no data: then nothing is taken over, and each gives the
grid that it starts from.
-/

namespace MapAlgebra

open Script (IsVariable)

namespace Grid

/-- A cell of a grid, or that of another one in its place, unless a one counts as no data. -/
def takenCell (nodata : Float) (takes : Bool) (own other : Float32) : Float32 :=
  if takes && !Double.isTruth nodata true then
    if holdsNodata nodata other then Cell.narrow nodata else other
  else own

section Cells

variable {nodata : Float} {x y : Float32}

/-- A cell without data becomes one with the same number. -/
theorem widen_restated (nodata : Float) (hy : (Cell.widen y : Float).isNaN = false) :
    ((Cell.widen (if holdsNodata nodata y then Cell.narrow nodata else y) : Float) ==
      Cell.widen y) = true := by
  by_cases hholds : holdsNodata nodata y
  · rw [if_pos hholds, Double.beq_comm]
    unfold holdsNodata at hholds
    split at hholds
    next => exact absurd (hholds.symm.trans hy) (by simp)
    next => exact hholds
  · rw [if_neg hholds]
    simpa using hy

/-- Which of two grids is started from makes no difference to the numbers, unless a one counts as
no data. -/
theorem widen_takenCell_iff (nodata : Float) {op : Operator} (hop : op = .greater ∨ op = .lesser)
    (hx : (Cell.widen x : Float).isNaN = false) (hy : (Cell.widen y : Float).isNaN = false) :
    ((Cell.widen (takenCell nodata (op.holds (Cell.widen x : Float) (Cell.widen y)) x y) : Float) ==
        Cell.widen (takenCell nodata (op.holds (Cell.widen y : Float) (Cell.widen x)) y x)) = true ↔
      Double.isTruth nodata true = false ∨ ((Cell.widen x : Float) == Cell.widen y) = true := by
  unfold takenCell
  by_cases htruth : Double.isTruth nodata true = true
  · simp [htruth]
  · have hfirst := widen_restated nodata hx
    have hsecond := widen_restated nodata hy
    have hback := (Double.beq_comm _ _).trans hfirst
    simp only [Bool.not_eq_true] at htruth
    rcases Double.lt_or_beq_or_gt hx hy with ⟨hlt, hnot⟩ | ⟨hequal, hless, hmore⟩ | ⟨hlt, hnot⟩ <;>
      rcases hop with rfl | rfl <;> simp [Operator.holds, *]

end Cells

variable {K : Type} [Coordinate K]

/-- Two grids of one geometry and one NoData value, without calculation values and without cells
that hold no number. -/
structure AreAlike (first second : Grid K Float Float32) (cells held : Raster Float32) : Prop where
  sound : first.Sound cells
  matched : first.Matches second
  resident : second.cells = .resident held
  nodata : second.nodata = first.nodata
  plain : first.substitute = none ∧ second.substitute = none
  defined : ∀ i j cell, cells.get? i j = some cell ∨ held.get? i j = some cell →
    (Cell.widen cell : Float).isNaN = false

namespace AreAlike

variable {first second : Grid K Float Float32} {cells held : Raster Float32}

theorem sameGeometry (h : first.AreAlike second cells held) :
    first.sameGeometry second ∧ second.sameGeometry first ∧ second.sameGeometry second :=
  h.matched.sameGeometry h.sound.sameGeometry

theorem sound_second (h : first.AreAlike second cells held) : second.Sound held :=
  h.sound.of_matches h.matched h.resident

theorem swap (h : first.AreAlike second cells held) : second.AreAlike first held cells where
  sound := h.sound_second
  matched := ⟨h.sound.isShaped, h.matched.rows.symm, h.matched.cols.symm, h.matched.extent.symm,
    h.matched.cellWidth.symm, h.matched.cellHeight.symm⟩
  resident := h.sound.resident
  nodata := h.nodata.symm
  plain := h.plain.symm
  defined i j cell hcell := h.defined i j cell hcell.symm

/-- A comparison of the grids. -/
theorem exists_compared (h : first.AreAlike second cells held) {op : Operator}
    (hop : op.isArithmetic = false) :
    ∃ truths, first.apply op (.grid second) = .ok (first.derive truths) ∧ first.Fits truths ∧
      ∀ i j, truths.get? i j = (cells.get? i j).bind fun x => (held.get? i j).map fun y =>
        Cell.narrow (Number.ofBool (op.holds (Cell.widen x : Float) (Cell.widen y)) : Float) := by
  obtain ⟨truths, happly, hfits, hget⟩ := exists_apply_truths h.sound.resident h.sound.fits hop
    (.grid second) ⟨h.sameGeometry.1, held, h.resident, h.sound_second.fits⟩
  refine ⟨truths, happly, hfits, ?_⟩
  intro i j
  rw [hget]
  cases hcell : cells.get? i j <;> cases hother : held.get? i j <;>
    simp [truth?, Operand.value?, h.sound.resident, h.resident, hcell, hother, sample, h.plain]

/-- The first grid with cells of the second one where they compare with its own. -/
theorem exists_extremum (h : first.AreAlike second cells held) {op : Operator}
    (hop : op.isArithmetic = false) (function : Expression.Function) :
    ∃ out, Traced.Succeeds (· = .grid (first.derive out))
        (Expression.extremum none function op (.grid first) (.grid second)) ∧ first.Fits out ∧
      ∀ i j, out.get? i j = (cells.get? i j).bind fun x => (held.get? i j).map fun y =>
        takenCell first.nodata (op.holds (Cell.widen x : Float) (Cell.widen y)) x y := by
  obtain ⟨truths, happly, hfits, hget⟩ := h.exists_compared hop
  have hmask := h.sound.derive hfits
  have hsame := (hfits.matches_derive.sameGeometry h.sound.sameGeometry).1
  obtain ⟨out, hreplace, houtFits, hout⟩ :=
    h.sound.exists_replace_grid hmask hsame h.sound_second h.sameGeometry.1
  have hagrees : second.extent.agrees first.extent := h.matched.extent ▸ h.sound.agrees_self
  refine ⟨out, ?_, houtFits, ?_⟩
  · exact Expression.extremum_of_agrees h.sound.agrees_self (by simpa [Operand.extent?]) happly
      hreplace
  · intro i j
    rw [hout, hget]
    cases cells.get? i j <;> cases held.get? i j <;>
      simp [takenCell, derive, h.nodata, Double.selects_ofBool]

/-- A choice by a comparison starts from the second grid. -/
theorem exists_choice (h : first.AreAlike second cells held) {op : Operator}
    (hop : op.isArithmetic = false) :
    ∃ truths out, first.apply op (.grid second) = .ok (first.derive truths) ∧
      second.Fits out ∧
      (∀ condition yes no : Expression.Part K Float Float32,
        condition.value = .grid (first.derive truths) → yes.value = .grid first →
        no.value = .grid second → Traced.Succeeds (· = .grid (second.derive out))
          (Expression.choose none condition yes no)) ∧
      ∀ i j, out.get? i j = (cells.get? i j).bind fun x => (held.get? i j).map fun y =>
        takenCell first.nodata (op.holds (Cell.widen x : Float) (Cell.widen y)) y x := by
  obtain ⟨truths, happly, hfits, hget⟩ := h.exists_compared hop
  have hmask := h.sound.derive hfits
  have hmatches := h.swap.matched.trans hfits.matches_derive
  obtain ⟨hsame, hback, -⟩ := hmatches.sameGeometry h.sameGeometry.2.2
  obtain ⟨out, hreplace, houtFits, hout⟩ :=
    h.sound_second.exists_replace_grid hmask hsame h.sound h.sameGeometry.2.1
  refine ⟨truths, out, happly, houtFits, ?_, ?_⟩
  · intro condition yes no hcondition hyes hno
    have hlaid : Expression.onto (Expression.branch no no.value (first.derive truths))
        (first.derive truths) = .ok second := by
      rw [hno]
      exact if_pos hsame
    have hkept : second.withNodata (first.derive truths).nodata = .ok second := by
      unfold withNodata
      rw [h.nodata]
      exact if_pos (Double.same_self _)
    have hextent : ∀ value ∈ [condition.value, yes.value, no.value], ∀ own ∈ value.extent?,
        own = first.extent := by
      simp [hcondition, hyes, hno, Operand.extent?, derive, h.matched.extent]
    exact Expression.choose_of_agrees hcondition
      (agrees_of_common h.sound.agrees_self (by simp) hextent) hlaid hkept
      (by rw [hyes]; exact hreplace)
  · intro i j
    rw [hout, hget]
    cases cells.get? i j <;> cases held.get? i j <;>
      simp [takenCell, derive, h.nodata, Double.selects_ofBool]

end AreAlike

end Grid

/-- Rasters of one shape whose cells hold the same numbers. -/
structure Raster.SameNumbers (first second : Raster Float32) : Prop where
  rows : first.rows = second.rows
  cols : first.cols = second.cols
  numbers : ∀ i j x y, first.get? i j = some x → second.get? i j = some y →
    ((Cell.widen x : Float) == Cell.widen y) = true

namespace Expression

variable {K : Type} [Coordinate K] [Conversion K Float] {first second : Grid K Float Float32}
variable {cells held : Raster Float32} {session : Session K Float Float32} {a b : Text}

/-- With default settings, an expression has a grid with certain cells for its value, in the
geometry of another grid and with its NoData value. -/
def Evaluates (session : Session K Float Float32) (source : Text) (like : Grid K Float Float32)
    (cells : Raster Float32) : Prop :=
  ∃ grid provenance after, Run.from? session (parse {} source) =
      (.ok (.grid grid, provenance), after) ∧
    like.Matches grid ∧ grid.nodata = like.nodata ∧ grid.cells = .resident cells

omit [Conversion K Float] in
/-- Started from either grid, the cells have the same numbers exactly if a one counts as data or the
grids have the same numbers. -/
theorem sameNumbers_iff (h : first.AreAlike second cells held) {op : Operator}
    (hop : op = .greater ∨ op = .lesser) {forth back : Raster Float32} (hforth : first.Fits forth)
    (hback : first.Fits back)
    (hgetForth : ∀ i j, forth.get? i j = (cells.get? i j).bind fun x => (held.get? i j).map fun y =>
      Grid.takenCell first.nodata (op.holds (Cell.widen x : Float) (Cell.widen y)) x y)
    (hgetBack : ∀ i j, back.get? i j = (cells.get? i j).bind fun x => (held.get? i j).map fun y =>
      Grid.takenCell first.nodata (op.holds (Cell.widen y : Float) (Cell.widen x)) y x) :
    forth.SameNumbers back ↔
      Double.isTruth first.nodata true = false ∨ cells.SameNumbers held := by
  have hcell {i j : Nat} {x y : Float32} (hx : cells.get? i j = some x)
      (hy : held.get? i j = some y) :=
    Grid.widen_takenCell_iff first.nodata hop (h.defined i j x (.inl hx)) (h.defined i j y (.inr hy))
  constructor
  · intro hsame
    by_cases htruth : Double.isTruth first.nodata true = false
    · exact .inl htruth
    · obtain ⟨hrows, hcols⟩ := (h.sound_second.fits.of_sameGeometry h.sameGeometry.1).shape_eq
        h.sound.fits
      refine .inr ⟨hrows, hcols, ?_⟩
      intro i j x y hx hy
      have hnumber := hsame.numbers i j _ _ (by rw [hgetForth, hx, hy]; rfl)
        (by rw [hgetBack, hx, hy]; rfl)
      exact ((hcell hx hy).mp hnumber).resolve_left htruth
  · intro hor
    obtain ⟨hrows, hcols⟩ := hback.shape_eq hforth
    refine ⟨hrows, hcols, ?_⟩
    intro i j x y hx hy
    obtain ⟨own, hown, other, hother, rfl⟩ :
        ∃ own, cells.get? i j = some own ∧ ∃ other, held.get? i j = some other ∧
          Grid.takenCell first.nodata (op.holds (Cell.widen own : Float) (Cell.widen other)) own
            other = x := by
      simpa [Option.bind_eq_some_iff, hgetForth] using hx
    rw [hgetBack, hown, hother] at hy
    cases hy
    exact (hcell hown hother).mpr (hor.imp_right fun hsame => hsame.numbers i j _ _ hown hother)

theorem Evaluates.of_matches {source : Text} (h : Evaluates session source second cells)
    (hmatches : first.Matches second) (hnodata : second.nodata = first.nodata) :
    Evaluates session source first cells := by
  obtain ⟨grid, provenance, after, hparse, hgrid, hgridNodata, hcells⟩ := h
  exact ⟨grid, provenance, after, hparse, hmatches.trans hgrid, hgridNodata.trans hnodata, hcells⟩

/-- The functions that take over cells of the second grid where these compare with the first. -/
inductive IsExtremum : Function → Operator → Prop
  | maximum : IsExtremum .maximum .lesser
  | minimum : IsExtremum .minimum .greater

section Offers

variable {offers : List (Text × Operand K Float Float32)} {function : Function} {op : Operator}

/-- The smaller or the greater of two named grids. -/
theorem AreOffers.exists_evaluates_extremum (hoffers : AreOffers offers)
    (hsession : Offering offers session)
    (hnames : ∀ binding ∈ session.table.bindings, IsVariable binding.name)
    (h : first.AreAlike second cells held) (ha : (a, .grid first) ∈ offers)
    (hb : (b, .grid second) ∈ offers) (hva : IsVariable a) (hvb : IsVariable b)
    (hfunction : IsExtremum function op) :
    ∃ out, Evaluates session (callText function.name.toList [a, b]) first out ∧ first.Fits out ∧
      ∀ i j, out.get? i j = (cells.get? i j).bind fun x => (held.get? i j).map fun y =>
        Grid.takenCell first.nodata (op.holds (Cell.widen x : Float) (Cell.widen y)) x y := by
  obtain ⟨hcount, hop, hcompute⟩ : function.admits 2 ∧ op.isArithmetic = false ∧
      ∀ prepared (x y : Part K Float Float32), function.compute none prepared [x, y] =
        extremum none function op x.value y.value := by
    cases hfunction <;> exact ⟨rfl, rfl, fun _ _ _ => rfl⟩
  obtain ⟨out, hout, hfits, hget⟩ := h.exists_extremum hop function
  have hcall : ∀ prepared (parts : List (Part K Float Float32)),
      List.Forall₂ Part.Shows parts [.grid first, .grid second] →
        Traced.Succeeds (· = .grid (first.derive out)) (function.compute none prepared parts) := by
    intro prepared parts hparts
    obtain _ | ⟨hx, _ | ⟨hy, ⟨⟩⟩⟩ := hparts
    rw [hcompute, hx.value, hy.value]
    exact hout
  obtain ⟨provenance, after, hparse⟩ :=
    hoffers.exists_parse_pair hsession hnames ha hb hva hvb hcount hcall
  exact ⟨out, ⟨_, provenance, after, hparse, hfits.matches_derive, rfl, rfl⟩, hfits, hget⟩

/-- A choice by a comparison of two named grids. -/
theorem AreOffers.exists_evaluates_choice (hoffers : AreOffers offers)
    (hsession : Offering offers session)
    (hnames : ∀ binding ∈ session.table.bindings, IsVariable binding.name)
    (h : first.AreAlike second cells held) (ha : (a, .grid first) ∈ offers)
    (hb : (b, .grid second) ∈ offers) (hva : IsVariable a) (hvb : IsVariable b)
    (hop : op.isArithmetic = false) :
    ∃ out, Evaluates session
        (callText Function.ifThenElse.name.toList [a ++ (op.sign ++ b), a, b]) first out ∧
      first.Fits out ∧
      ∀ i j, out.get? i j = (cells.get? i j).bind fun x => (held.get? i j).map fun y =>
        Grid.takenCell first.nodata (op.holds (Cell.widen x : Float) (Cell.widen y)) y x := by
  obtain ⟨truths, out, happly, hfits, hchoose, hget⟩ := h.exists_choice hop
  have hcombine : ∀ (scope : Scope K Float) (left right : Part K Float Float32),
      scope.settings.extent = none → left.Shows (.grid first) → right.Shows (.grid second) →
        Traced.Succeeds (· = .grid (first.derive truths)) (scope.combine left op right) := by
    intro scope left right hextent hleft hright
    have hown : ∀ value ∈ [left.value, right.value], ∀ own ∈ value.extent?, own = first.extent := by
      simp [hleft.value, hright.value, Operand.extent?, h.matched.extent]
    exact Scope.combine_of_agrees hleft.value hleft.token hright.token
      (agrees_of_common h.sound.agrees_self (by simp [hextent]) hown)
      (by rw [hright.value, happly])
  have hcall : ∀ prepared (parts : List (Part K Float Float32)),
      List.Forall₂ Part.Shows parts [.grid (first.derive truths), .grid first, .grid second] →
        Traced.Succeeds (· = .grid (second.derive out))
          (Function.ifThenElse.compute none prepared parts) := by
    intro prepared parts hparts
    obtain _ | ⟨hcondition, _ | ⟨hyes, _ | ⟨hno, ⟨⟩⟩⟩⟩ := hparts
    exact hchoose _ _ _ hcondition.value hyes.value hno.value
  obtain ⟨provenance, after, hparse⟩ :=
    hoffers.exists_parse_choice hsession hnames ha hb ha hb hva hvb hva hvb hcombine hcall
  exact ⟨out, ⟨_, provenance, after, hparse, h.matched.trans hfits.matches_derive, h.nodata, rfl⟩,
    hfits.of_sameGeometry h.sameGeometry.1, hget⟩

end Offers

/-- The greater of two grids has the numbers of the choice of the greater, and they do not hang on
the order of the grids, exactly if a one counts as data or the grids have the same numbers. So it is
for the smaller. -/
theorem parse_extremum_eq_choice (h : first.AreAlike second cells held)
    (hoffers : AreOffers [(a, .grid first), (b, .grid second)])
    (hsession : Offering [(a, .grid first), (b, .grid second)] session)
    (hnames : ∀ binding ∈ session.table.bindings, IsVariable binding.name) (ha : IsVariable a)
    (hb : IsVariable b) {function : Function} {op : Operator}
    (hfunction : function = .maximum ∧ op = .greater ∨ function = .minimum ∧ op = .lesser) :
    ∃ forth back chosen, Evaluates session (callText function.name.toList [a, b]) first forth ∧
      Evaluates session (callText function.name.toList [b, a]) first back ∧
      Evaluates session (callText Function.ifThenElse.name.toList [a ++ (op.sign ++ b), a, b]) first
        chosen ∧
      (forth.SameNumbers chosen ↔
        Double.isTruth first.nodata true = false ∨ cells.SameNumbers held) ∧
      (forth.SameNumbers back ↔
        Double.isTruth first.nodata true = false ∨ cells.SameNumbers held) := by
  -- what is taken from the second grid for the greater one is less than it
  obtain ⟨wins, hextremum, hwins, hop, hholds⟩ : ∃ wins, IsExtremum function wins ∧
      (wins = .greater ∨ wins = .lesser) ∧ op.isArithmetic = false ∧
      ∀ u v : Float, op.holds u v = wins.holds v u := by
    rcases hfunction with ⟨rfl, rfl⟩ | ⟨rfl, rfl⟩
    · exact ⟨.lesser, .maximum, .inr rfl, rfl, fun _ _ => rfl⟩
    · exact ⟨.greater, .minimum, .inl rfl, rfl, fun _ _ => rfl⟩
  have hmema : (a, Operand.grid first) ∈ [(a, Operand.grid first), (b, .grid second)] := by simp
  have hmemb : (b, Operand.grid second) ∈ [(a, Operand.grid first), (b, .grid second)] := by simp
  obtain ⟨forth, hforth, hforthFits, hgetForth⟩ :=
    hoffers.exists_evaluates_extremum hsession hnames h hmema hmemb ha hb hextremum
  obtain ⟨back, hback, hbackFits, hgetBack⟩ :=
    hoffers.exists_evaluates_extremum hsession hnames h.swap hmemb hmema hb ha hextremum
  obtain ⟨chosen, hchosen, hchosenFits, hgetChosen⟩ :=
    hoffers.exists_evaluates_choice hsession hnames h hmema hmemb ha hb hop
  refine ⟨forth, back, chosen, hforth, hback.of_matches h.matched h.nodata, hchosen,
    sameNumbers_iff h hwins hforthFits hchosenFits hgetForth ?_,
    sameNumbers_iff h hwins hforthFits (hbackFits.of_sameGeometry h.sameGeometry.1) hgetForth ?_⟩
  · simpa only [hholds] using hgetChosen
  · intro i j
    rw [hgetBack, h.nodata]
    cases cells.get? i j <;> cases held.get? i j <;> simp

section SingleCells

/-- A session in which two names stand for grids of one cell. -/
def singleCells (nodata : Float) (x y : Float32) : Session ℚ Float Float32 where
  files := ⟨[], []⟩
  table := ⟨[⟨"A".toList, .grid (.single nodata x), .variable, none, none, false⟩,
    ⟨"B".toList, .grid (.single nodata y), .variable, none, none, false⟩], 0⟩

theorem areAlike_single (nodata : Float) {x y : Float32}
    (hx : (Cell.widen x : Float).isNaN = false) (hy : (Cell.widen y : Float).isNaN = false) :
    (Grid.single nodata x).AreAlike (.single nodata y) (.fill 1 1 x) (.fill 1 1 y) := by
  have hcell {v cell : Float32} {i j : Nat} (h : (Raster.fill 1 1 v).get? i j = some cell) :
      cell = v := by
    obtain ⟨hi, hj⟩ := Raster.lt_of_get?_eq_some h
    exact Option.some.inj (h.symm.trans (Raster.get?_ofFn _ ⟨i, hi⟩ ⟨j, hj⟩))
  refine ⟨Grid.sound_single nodata x, ⟨(Grid.sound_single nodata y).isShaped, rfl, rfl, rfl, rfl,
    rfl⟩, rfl, rfl, ⟨rfl, rfl⟩, ?_⟩
  rintro i j cell (h | h)
  · rwa [hcell h]
  · rwa [hcell h]

/-- The names stand for the grids. -/
def singleOffers (nodata : Float) (x y : Float32) : List (Text × Operand ℚ Float Float32) :=
  [("A".toList, .grid (.single nodata x)), ("B".toList, .grid (.single nodata y))]

theorem areOffers_singleCells (nodata : Float) (x y : Float32) :
    AreOffers (singleOffers nodata x y) where
  resident := by
    rintro offer (_ | ⟨_, _ | ⟨_, ⟨⟩⟩⟩) files <;> rfl
  slots := by
    rintro offer (_ | ⟨_, _ | ⟨_, ⟨⟩⟩⟩) other - hsome <;> cases hsome

theorem isVariable_first : IsVariable "A".toList := by decide

theorem isVariable_second : IsVariable "B".toList := by decide

theorem offering_singleCells (nodata : Float) (x y : Float32) :
    Offering (singleOffers nodata x y) (singleCells nodata x y) := by
  have hfirst : isNodataToken "A".toList = false := by decide
  have hsecond : isNodataToken "B".toList = false := by decide
  rintro offer (_ | ⟨_, _ | ⟨_, ⟨⟩⟩⟩)
  · exact ⟨_, rfl, hfirst, .inl rfl⟩
  · exact ⟨_, rfl, hsecond, .inl rfl⟩

theorem isVariable_singleCells (nodata : Float) (x y : Float32) :
    ∀ binding ∈ (singleCells nodata x y).table.bindings, IsVariable binding.name := by
  rintro binding (_ | ⟨_, _ | ⟨_, ⟨⟩⟩⟩)
  · exact isVariable_first
  · exact isVariable_second

/-- The greater of two and three is chosen, in either order. -/
theorem parse_extremum_singleCells : ∃ forth back chosen,
    (Grid.single (-9999) 2).AreAlike (.single (-9999) 3) (.fill 1 1 2) (.fill 1 1 3) ∧
      Evaluates (singleCells (-9999) 2 3) "max(A,B)".toList (.single (-9999) 2) forth ∧
      Evaluates (singleCells (-9999) 2 3) "max(B,A)".toList (.single (-9999) 2) back ∧
      Evaluates (singleCells (-9999) 2 3) "if(A>B,A,B)".toList (.single (-9999) 2) chosen ∧
      forth.SameNumbers chosen ∧ forth.SameNumbers back := by
  have hnumbers : (Cell.widen (2 : Float32) : Float).isNaN = false ∧
      (Cell.widen (3 : Float32) : Float).isNaN = false ∧ Double.isTruth (-9999) true = false := by
    decide +kernel
  have halike := areAlike_single (-9999) hnumbers.1 hnumbers.2.1
  obtain ⟨forth, back, chosen, hforth, hback, hchosen, hchoice, horder⟩ :=
    parse_extremum_eq_choice halike (areOffers_singleCells (-9999) 2 3)
      (offering_singleCells (-9999) 2 3) (isVariable_singleCells (-9999) 2 3) isVariable_first
      isVariable_second (.inl ⟨rfl, rfl⟩)
  exact ⟨forth, back, chosen, halike, hforth, hback, hchosen, hchoice.mpr (.inl hnumbers.2.2),
    horder.mpr (.inl hnumbers.2.2)⟩

/-- A number that is one in single precision. -/
def nearlyOne : Float := 1.00000001

/-- Where a one counts as no data, two is greater than three, and three is chosen over it. -/
theorem maximum_differs_from_choice : ∃ forth chosen,
    nearlyOne.isNaN = false ∧ (nearlyOne == 1) = false ∧
      (Grid.single nearlyOne 2).AreAlike (.single nearlyOne 3) (.fill 1 1 2) (.fill 1 1 3) ∧
      Evaluates (singleCells nearlyOne 2 3) "max(A,B)".toList (.single nearlyOne 2) forth ∧
      Evaluates (singleCells nearlyOne 2 3) "if(A>B,A,B)".toList (.single nearlyOne 2) chosen ∧
      forth.get? 0 0 = some 2 ∧ chosen.get? 0 0 = some 3 := by
  have hnumbers : nearlyOne.isNaN = false ∧ (nearlyOne == 1) = false ∧
      (Cell.widen (2 : Float32) : Float).isNaN = false ∧
      (Cell.widen (3 : Float32) : Float).isNaN = false ∧
      Double.isTruth nearlyOne true = true := by
    decide +kernel
  obtain ⟨hnumber, hone, htwo, hthree, htruth⟩ := hnumbers
  have halike := areAlike_single nearlyOne htwo hthree
  have hoffers := areOffers_singleCells nearlyOne 2 3
  have hsession := offering_singleCells nearlyOne 2 3
  have hnames := isVariable_singleCells nearlyOne 2 3
  have hmema : ("A".toList, .grid (.single nearlyOne 2)) ∈ singleOffers nearlyOne 2 3 :=
    List.mem_cons_self
  have hmemb : ("B".toList, .grid (.single nearlyOne 3)) ∈ singleOffers nearlyOne 2 3 :=
    List.mem_cons_of_mem _ List.mem_cons_self
  obtain ⟨forth, hforth, -, hgetForth⟩ := hoffers.exists_evaluates_extremum hsession hnames halike
    hmema hmemb isVariable_first isVariable_second .maximum
  obtain ⟨chosen, hchosen, -, hgetChosen⟩ := hoffers.exists_evaluates_choice hsession hnames halike
    hmema hmemb isVariable_first isVariable_second (rfl : Operator.greater.isArithmetic = false)
  refine ⟨forth, chosen, hnumber, hone, halike, hforth, hchosen, ?_, ?_⟩
  · rw [hgetForth]
    show some (Grid.takenCell nearlyOne _ 2 3) = _
    simp [Grid.takenCell, htruth]
  · rw [hgetChosen]
    show some (Grid.takenCell nearlyOne _ 3 2) = _
    simp [Grid.takenCell, htruth]

end SingleCells

end Expression

end MapAlgebra
