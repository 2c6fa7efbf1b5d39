import MapAlgebra.Proofs.RoundTrip

/-!
# Comparing in double precision

Two numbers that are not undefined are less, equal or greater, and the other way round when they
change places. The numbers for truth are what they were after they have been kept in single
precision.
-/

namespace MapAlgebra.Double

open Float.Model (UnpackedFloat)

/-- How two numbers compare; what is no number does not compare with any. -/
def order (x y : Float) : Option Ordering :=
  x.toModel.unpack.compare y.toModel.unpack

theorem lt_iff {x y : Float} : x < y ↔ order x y = some .lt := by
  have hdecided : x < y ↔ decide (x.toModel < y.toModel) = true := Iff.rfl
  rw [hdecided, decide_eq_true_iff]
  show (order x y == some .lt) = true ↔ _
  simp

theorem beq_iff {x y : Float} : (x == y) = true ↔ order x y = some .eq := by
  show (order x y == some .eq) = true ↔ _
  simp

theorem order_swap (x y : Float) : order y x = (order x y).map Ordering.swap := by
  unfold order
  generalize x.toModel.unpack = first, y.toModel.unpack = second
  rcases first with (_ | _) | _ | _ | ⟨_ | _, _, _, _⟩ <;>
    rcases second with (_ | _) | _ | _ | ⟨_ | _, _, _, _⟩ <;>
    simp [UnpackedFloat.compare, Ordering.swap_then, Int.compare_swap, Nat.compare_swap] <;> rfl

theorem order_eq_none_iff {x y : Float} : order x y = none ↔ x.isNaN ∨ y.isNaN := by
  show _ ↔ x.toModel.unpack.isNaN ∨ y.toModel.unpack.isNaN
  unfold order
  generalize x.toModel.unpack = first, y.toModel.unpack = second
  rcases first with (_ | _) | _ | _ | ⟨_ | _, _, _, _⟩ <;>
    rcases second with (_ | _) | _ | _ | ⟨_ | _, _, _, _⟩ <;>
    simp [UnpackedFloat.compare, UnpackedFloat.isNaN]

theorem exists_order {x y : Float} (hx : x.isNaN = false) (hy : y.isNaN = false) :
    ∃ result, order x y = some result := by
  apply Option.ne_none_iff_exists'.mp
  intro hnone
  rcases order_eq_none_iff.mp hnone with h | h
  · exact Bool.false_ne_true (hx.symm.trans h)
  · exact Bool.false_ne_true (hy.symm.trans h)

theorem beq_comm (x y : Float) : (x == y) = (y == x) := by
  rw [Bool.eq_iff_iff, beq_iff, beq_iff, order_swap x y]
  cases order x y with
  | none => simp
  | some result => cases result <;> simp

/-- Of two numbers the first is less, equal or greater. -/
theorem lt_or_beq_or_gt {x y : Float} (hx : x.isNaN = false) (hy : y.isNaN = false) :
    (x < y ∧ ¬ y < x) ∨ (x == y ∧ ¬ x < y ∧ ¬ y < x) ∨ (y < x ∧ ¬ x < y) := by
  obtain ⟨result, hresult⟩ := exists_order hx hy
  simp only [lt_iff, beq_iff, order_swap x y, hresult]
  cases result <;> simp

theorem same_self (x : Float) : Number.same x x := by
  show (if x.isNaN || x.isNaN then x.isNaN && x.isNaN else x == x) = true
  by_cases hnan : x = Float.nan <;> simp [hnan]

/-- A cell that was made of a NoData value holds no data. -/
theorem holdsNodata_narrow (nodata : Float) :
    Grid.holdsNodata nodata (Cell.narrow nodata : Float32) = true := by
  have hsame : (if (nearest nodata).isNaN || (nearest nodata).isNaN then
      (nearest nodata).isNaN && (nearest nodata).isNaN else nearest nodata == nearest nodata) =
      true := same_self _
  rw [isNaN_nearest, Bool.or_self, Bool.and_self] at hsame
  show (if nodata.isNaN then (nearest nodata).isNaN else nearest nodata == nearest nodata) = true
  rwa [isNaN_nearest]

/-- The numbers for truth are kept by single precision. -/
theorem nearest_ofBool (b : Bool) : nearest (Number.ofBool b) = Number.ofBool b := by
  cases b <;> decide +kernel

/-- Whether a truth value, written as a number, counts as a NoData value. -/
def isTruth (nodata : Float) (b : Bool) : Bool :=
  Number.ofBool b == nearest nodata

theorem holdsNodata_ofBool (nodata : Float) (b : Bool) :
    Grid.holdsNodata nodata (Cell.narrow (Number.ofBool b : Float) : Float32) =
      isTruth nodata b := by
  have hwiden : (Cell.widen (Cell.narrow (Number.ofBool b : Float) : Float32) : Float) =
      Number.ofBool b := nearest_ofBool b
  unfold Grid.holdsNodata isTruth
  rw [hwiden]
  split
  next hnan =>
    have hnearest : nearest nodata = Float.nan := by
      simpa using (isNaN_nearest nodata).trans hnan
    rw [hnearest, Float.beq_nan_eq_false]
    cases b <;> decide
  next => rfl

end MapAlgebra.Double
