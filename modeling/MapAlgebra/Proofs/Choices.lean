import MapAlgebra.Proofs.Comparisons

/-!
# Choices by a constant

A choice among three constants looks at the number of the condition alone. With a grid among the
branches the condition is laid out in the cells of the grid, in single precision and with its NoData
value, and the cells that count as zero or as no data there get the else value. The two agree unless
a number is true and its cell is not.
-/

namespace MapAlgebra

namespace Double

theorem beq_zero_iff {x : Float} :
    (x == (Number.zero : Float)) = true ↔ ∃ sign, x.toModel.unpack = .zero sign := by
  have hzero : (Number.zero : Float).toModel.unpack = .zero .positive := rfl
  rw [beq_iff]
  unfold order
  rw [hzero]
  generalize x.toModel.unpack = unpacked
  rcases unpacked with (_ | _) | _ | _ | ⟨_ | _, _, _, _⟩ <;>
    simp [Float.Model.UnpackedFloat.compare]

/-- Zero stays zero in single precision. -/
theorem isTrue_nearest_of_isTrue_eq_false {x : Float} (h : Number.isTrue x = false) :
    Number.isTrue (nearest x) = false := by
  have hzero : (x == (Number.zero : Float)) = true := by simpa [Number.isTrue] using h
  obtain ⟨sign, hsign⟩ := beq_zero_iff.mp hzero
  suffices hnearest : (nearest x == (Number.zero : Float)) = true by
    simpa [Number.isTrue] using hnearest
  refine beq_zero_iff.mpr ⟨sign, ?_⟩
  unfold nearest
  rw [unpack_ofSingle, toSingle_eq, hsign]
  cases sign <;> rfl

/-- Whether single precision loses the truth of a number: it is not zero, and its cell is zero or
counts as no data. -/
def isLost (nodata number : Float) : Bool :=
  Number.isTrue number && (!Number.isTrue (nearest number) || nearest number == nearest nodata)

/-- A cell selects if the number that it was made of is true and keeps its truth. -/
theorem selects_narrow {nodata : Float} (h : nodata.isNaN = false) (number : Float) :
    Grid.selects nodata (Cell.narrow number : Float32) =
      (Number.isTrue number && !isLost nodata number) := by
  have hselects : Grid.selects nodata (Cell.narrow number : Float32) =
      (Number.isTrue (nearest number) && !(nearest number == nearest nodata)) := by
    have hnan : Number.isNaN nodata = false := h
    unfold Grid.selects Grid.holdsNodata
    rw [hnan]
    rfl
  rw [hselects]
  unfold isLost
  cases htrue : Number.isTrue number with
  | true => simp
  | false => simp [isTrue_nearest_of_isTrue_eq_false htrue]

end Double

namespace Expression

variable {K : Type} [Coordinate K] {grid : Grid K Float Float32} {cells : Raster Float32}

/-- A constant in place of the cells of a grid where a constant condition selects. -/
theorem exists_choose_over (h : grid.Sound cells) (fixed : Option (Extent K))
    (hfixed : ∀ wanted ∈ fixed, grid.extent.agrees wanted)
    {condition yes no : Part K Float Float32} {c x : Constant Float}
    (hcondition : condition.value = .constant c) (hyes : yes.value = .constant x)
    (hdata : yes.isNodata = false) (hno : no.value = .grid grid) :
    ∃ chosen held, Traced.Succeeds (· = .grid chosen) (choose fixed condition yes no) ∧
      grid.Matches chosen ∧ chosen.nodata = grid.nodata ∧ chosen.cells = .resident held ∧
      ∀ i j, held.get? i j = (cells.get? i j).map fun own =>
        if Grid.selects grid.nodata (Cell.narrow c.value : Float32) then Cell.narrow x.value
        else own := by
  obtain ⟨mask, marks, hallocate, hmatches, hmask, hnodata, hmarks⟩ := h.exists_allocate c
  obtain ⟨hsame, -⟩ := hmatches.sameGeometry h.sameGeometry
  obtain ⟨held, hreplace, hfits, hheld⟩ := h.exists_replace_number hmask hsame x.value
  have hextent : ∀ value ∈ [condition.value, yes.value, no.value], ∀ own ∈ value.extent?,
      own = grid.extent := by
    simp [hcondition, hyes, hno, Operand.extent?]
  have hagrees : ∀ value ∈ [condition.value, yes.value, no.value], ∀ own ∈ value.extent?,
      ∀ wanted ∈ targetExtent fixed .union [condition.value, yes.value, no.value],
        own.agrees wanted := agrees_of_common h.agrees_self hfixed hextent
  have hlaid : onto (.grid grid) grid = .ok grid := if_pos h.sameGeometry
  have hkept : grid.withNodata grid.nodata = .ok grid := if_pos (Double.same_self _)
  have hreplacement : branch yes (.constant x) grid = .constant x := by
    simp [branch, hdata]
  refine ⟨grid.derive held, held, ?_, hfits.matches_derive, rfl, rfl, ?_⟩
  · rw [hcondition, hyes, hno] at hagrees
    unfold choose
    rw [hcondition, hyes, hno]
    dsimp only
    refine .bind (.record _ _) fun _ _ => ?_
    refine .bind (Operand.reconcile_of_agrees (hagrees _ (by simp)) _) fun a ha => ?_
    refine .bind (Operand.reconcile_of_agrees (hagrees _ (by simp)) _) fun b hb => ?_
    refine .bind (Operand.reconcile_of_agrees (hagrees _ (by simp)) _) fun d hd => ?_
    subst ha hb hd
    dsimp only [List.filterMap_cons, List.filterMap_nil]
    rw [hreplacement]
    exact .lift_bind hlaid (.lift_bind hkept (.lift_bind hallocate
      (.lift_bind hreplace (.pure rfl))))
  · intro i j
    rw [hheld, hmarks, hnodata]
    cases cells.get? i j <;> rfl

end Expression

section Choices

variable {K : Type} [Coordinate K] [Conversion K Float]

/-- A choice among constants gives the number that stands in every cell of the same choice over a
grid of the else constant, unless single precision loses the truth of the condition. -/
theorem Grid.Sound.choice_agrees_iff {like : Grid K Float Float32} {cells : Raster Float32}
    (h : like.Sound cells) (hnodata : like.nodata = Constant.defaultNodata)
    (fixed : Option (Extent K)) (hfixed : ∀ wanted ∈ fixed, like.extent.agrees wanted)
    (prepared : Expression.Prepared) {condition yes no laid : Expression.Part K Float Float32}
    {c x y : Constant Float} {filled : Grid K Float Float32}
    (hcondition : condition.value = .constant c) (hyes : yes.value = .constant x)
    (hdata : yes.isNodata = false) (hno : no.value = .constant y)
    (hfilled : y.allocate like = .ok filled) (hlaid : laid.value = .grid filled) :
    ∃ constant chosen held,
      Traced.Succeeds (· = .constant constant)
        (Expression.Function.compute fixed prepared .ifThenElse [condition, yes, no]) ∧
      constant.value = (if Number.isTrue c.value then x.value else y.value) ∧
      Traced.Succeeds (· = .grid chosen)
        (Expression.Function.compute fixed prepared .ifThenElse [condition, yes, laid]) ∧
      like.Matches chosen ∧ chosen.nodata = like.nodata ∧ chosen.cells = .resident held ∧
      (∀ i j, held.get? i j = (cells.get? i j).map fun _ => Cell.narrow
        (if Number.isTrue c.value && !Double.isLost Constant.defaultNodata c.value then x.value
          else y.value)) ∧
      ∀ i j cell, held.get? i j = some cell →
        (cell = Cell.narrow constant.value ↔
          Double.isLost Constant.defaultNodata c.value = false ∨
            (Cell.narrow x.value : Float32) = Cell.narrow y.value) := by
  obtain ⟨laidOut, own, hallocate, hmatches, hsound, hkept, hown⟩ := h.exists_allocate y
  obtain rfl : laidOut = filled := Except.ok.inj (hallocate.symm.trans hfilled)
  have hfixed' : ∀ wanted ∈ fixed, laidOut.extent.agrees wanted := by
    simpa only [hmatches.extent] using hfixed
  obtain ⟨chosen, held, hchoose, hchosen, hnodata', hheld, hget⟩ :=
    Expression.exists_choose_over hsound fixed hfixed' hcondition hyes hdata hlaid
  have hnan : (Constant.defaultNodata : Float).isNaN = false := rfl
  have hcells : ∀ i j, held.get? i j = (cells.get? i j).map fun _ => Cell.narrow
      (if Number.isTrue c.value && !Double.isLost Constant.defaultNodata c.value then x.value
        else y.value) := by
    intro i j
    rw [hget, hown, Option.map_map, hkept, hnodata]
    congr 1
    ext cell
    simp only [Function.comp_apply, Double.selects_narrow hnan]
    split <;> rfl
  have hvalue : (if Number.isTrue c.value then x.copy else y.copy : Constant Float).value =
      if Number.isTrue c.value then x.value else y.value := by
    split <;> rfl
  refine ⟨if Number.isTrue c.value then x.copy else y.copy, chosen, held, ?_, hvalue, hchoose,
    hmatches.trans hchosen, hnodata'.trans hkept, hheld, hcells, ?_⟩
  · show Traced.Succeeds _ (Expression.choose fixed condition yes no)
    unfold Expression.choose
    rw [hcondition, hyes, hno]
    exact .pure rfl
  · intro i j cell hcell
    rw [hcells] at hcell
    obtain ⟨-, -, rfl⟩ := Option.map_eq_some_iff.mp hcell
    rw [hvalue]
    cases hlost : Double.isLost Constant.defaultNodata c.value with
    | false => simp
    | true =>
        have htrue : Number.isTrue c.value = true := (Bool.and_eq_true_iff.mp hlost).1
        simp only [htrue, Bool.not_true, Bool.and_false, Bool.false_eq_true, if_false, if_true,
          Bool.true_eq_false, false_or]
        exact eq_comm

/-- With five for a condition both choices take three over four. -/
theorem Grid.choice_agrees_single : ∃ filled constant chosen held,
    (single (-9999) 7).Sound (.fill 1 1 7) ∧
      (Expression.Part.ofNumber 3).isNodata = false ∧
      (Constant.of 4 : Constant Float).allocate (single (-9999) 7) = .ok filled ∧
      Traced.Succeeds (· = .constant constant)
        (Expression.Function.compute none ⟨[], [], []⟩ .ifThenElse
          [.ofNumber 5, .ofNumber 3, .ofNumber 4]) ∧
      constant.value = 3 ∧
      Traced.Succeeds (· = .grid chosen) (Expression.Function.compute none ⟨[], [], []⟩ .ifThenElse
        [.ofNumber 5, .ofNumber 3, .ofGrid filled]) ∧
      chosen.cells = .resident held ∧ held.get? 0 0 = some (Cell.narrow constant.value) := by
  have hsound := sound_single (-9999) 7
  have hdata : (Expression.Part.ofNumber 3).isNodata = false := rfl
  obtain ⟨filled, -, hfilled, -⟩ := hsound.exists_allocate (Constant.of 4)
  obtain ⟨constant, chosen, held, hconstant, hvalue, hchoose, -, -, hheld, hget, hagrees⟩ :=
    hsound.choice_agrees_iff rfl none (by simp) ⟨[], [], []⟩
      (rfl : (Expression.Part.ofNumber 5).value = _) (rfl : (Expression.Part.ofNumber 3).value = _)
      hdata (rfl : (Expression.Part.ofNumber 4).value = _) hfilled
      (rfl : (Expression.Part.ofGrid filled).value = _)
  have hkept :
      Double.isLost Constant.defaultNodata (Constant.of 5 : Constant Float).value = false := rfl
  have htrue : Number.isTrue (Constant.of 5 : Constant Float).value = true := rfl
  rw [htrue] at hvalue
  have hfirst := hget 0 0
  have hcell := (hagrees 0 0 _ hfirst).mpr (.inl hkept)
  exact ⟨filled, constant, chosen, held, hsound, hdata, hfilled, hconstant, hvalue, hchoose, hheld,
    hfirst.trans (congrArg some hcell)⟩

/-- The part that the keyword NoData is. -/
def Expression.Part.ofKeyword : Part ℚ Float Float32 :=
  ⟨.constant .ofKeyword, .constant, Constant.nodataName⟩

/-- The keyword NoData for a condition selects one over two, but in the cells of a grid two. -/
theorem Grid.keyword_choice_differs : ∃ filled constant chosen held,
    (single (-9999) 7).Sound (.fill 1 1 7) ∧
      (Constant.ofKeyword : Constant Float).isNodata = true ∧
      (Expression.Part.ofNumber 1).isNodata = false ∧
      (Expression.Part.ofNumber 2).isNodata = false ∧
      (Constant.of 2 : Constant Float).allocate (single (-9999) 7) = .ok filled ∧
      Traced.Succeeds (· = .constant constant)
        (Expression.Function.compute none ⟨[], [], []⟩ .ifThenElse
          [.ofKeyword, .ofNumber 1, .ofNumber 2]) ∧
      constant.value = 1 ∧
      Traced.Succeeds (· = .grid chosen) (Expression.Function.compute none ⟨[], [], []⟩ .ifThenElse
        [.ofKeyword, .ofNumber 1, .ofGrid filled]) ∧
      chosen.cells = .resident held ∧ held.get? 0 0 = some 2 := by
  have hsound := sound_single (-9999) 7
  have hnodata : (Constant.ofKeyword : Constant Float).isNodata = true ∧
      (Expression.Part.ofNumber 1).isNodata = false ∧
      (Expression.Part.ofNumber 2).isNodata = false :=
    ⟨rfl, rfl, rfl⟩
  obtain ⟨filled, laid, hfilled, hmatches, hlaid, hkept, hown⟩ :=
    hsound.exists_allocate (Constant.of 2)
  obtain ⟨chosen, held, hchoose, -, -, hheld, hget⟩ :=
    Expression.exists_choose_over hlaid none (by simp)
      (rfl : Expression.Part.ofKeyword.value = _) (rfl : (Expression.Part.ofNumber 1).value = _)
      hnodata.2.1 (rfl : (Expression.Part.ofGrid filled).value = _)
  have hcell := hget 0 0
  rw [hown, hkept] at hcell
  have hselects : selects (single (-9999) 7).nodata
      (Cell.narrow (Constant.ofKeyword : Constant Float).value : Float32) = false := rfl
  have htwo : (Cell.narrow (Constant.of 2 : Constant Float).value : Float32) = 2 := by
    decide +kernel
  rw [hselects, htwo] at hcell
  refine ⟨filled, (Constant.of 1).copy, chosen, held, hsound, hnodata.1, hnodata.2.1, hnodata.2.2,
    hfilled, ?_, rfl, hchoose, hheld, hcell⟩
  show Traced.Succeeds _ (Expression.choose none .ofKeyword (.ofNumber 1) (.ofNumber 2))
  have htrue : Number.isTrue (Constant.ofKeyword : Constant Float).value = true := rfl
  unfold Expression.choose
  dsimp only [Expression.Part.ofKeyword, Expression.Part.ofNumber]
  rw [htrue]
  exact .pure rfl

end Choices

end MapAlgebra
