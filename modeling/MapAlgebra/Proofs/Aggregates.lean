import MapAlgebra.Grid.Aggregate
import MapAlgebra.Proofs.Fractions

/-!
# Aggregates in exact arithmetic

Where numbers are added and divided without rounding, the blocks in which a sum is taken make no
difference to it, and copies of a number have that number for their mean. All other aggregates take
one of their numbers, so that they give a number back whose copies they take in any arithmetic.
-/

namespace MapAlgebra

/-- Numbers of calculations that are fractions, calculated exactly, and cells that keep them. -/
structure Exact (V S : Type) [Number V] [Cell S V] where
  /-- The fraction that a number is. -/
  value : V → ℚ
  injective : Function.Injective value
  value_ofInt (n : ℤ) : value (Number.ofInt n) = n
  value_add (a b : V) : value (a + b) = value a + value b
  value_neg (a : V) : value (-a) = -value a
  value_div (a b : V) : value (a / b) = value a / value b
  isNaN_eq_false (a : V) : Number.isNaN a = false
  beq_iff {a b : V} : (a == b) = true ↔ a = b
  widen_narrow (a : V) : Cell.widen (Cell.narrow a : S) = a
  narrow_widen (cell : S) : Cell.narrow (Cell.widen cell) = cell

namespace Aggregate

section Copies

variable {V : Type} [Number V]

omit [Number V] in
theorem foldl_replicate {f : V → V → V} {x : V} (h : f x x = x) (n : ℕ) :
    (List.replicate n x).foldl f x = x := by
  induction n with
  | zero => rfl
  | succ n ih => rwa [List.replicate_succ, List.foldl_cons, h]

omit [Number V] in
theorem mergeSort_replicate (le : V → V → Bool) (n : ℕ) (x : V) :
    (List.replicate n x).mergeSort le = List.replicate n x :=
  List.perm_replicate.mp (List.mergeSort_perm _ _)

theorem least_replicate {n : ℕ} (hn : 0 < n) (x : V) : least (List.replicate n x) = x := by
  have hself : lesser x x = x := by
    unfold lesser
    split_ifs <;> rfl
  obtain ⟨n, rfl⟩ := Nat.exists_eq_succ_of_ne_zero hn.ne'
  exact foldl_replicate hself n

theorem largest_replicate {n : ℕ} (hn : 0 < n) (x : V) : largest (List.replicate n x) = x := by
  have hself : larger x x = x := by
    unfold larger
    split_ifs <;> rfl
  obtain ⟨n, rfl⟩ := Nat.exists_eq_succ_of_ne_zero hn.ne'
  exact foldl_replicate hself n

theorem boundaryOf_replicate {n : ℕ} (hn : 0 < n) (x : V) :
    boundaryOf (List.replicate n x) = x := by
  have hcopies : (List.replicate n x).isEmpty = false := by
    rw [List.isEmpty_replicate, decide_eq_false hn.ne']
  unfold boundaryOf
  rw [List.filter_replicate]
  by_cases hnegative : x < Number.zero
  · simp only [hnegative, decide_true, if_true, hcopies, Bool.false_eq_true, if_false]
    exact least_replicate hn x
  · simp only [hnegative, decide_false, Bool.false_eq_true, if_false, List.isEmpty_nil, if_true]
    exact largest_replicate hn x

theorem mostFrom_nil (best : V) (found : ℕ) : mostFrom best found [] = best := by
  unfold mostFrom
  rfl

/-- Copies of a number are most frequent among themselves, even if it does not equal itself. -/
theorem mostFrom_replicate {best x : V} {found n : ℕ}
    (h : best = x ∧ 0 < found ∨ found = 0 ∧ 0 < n) :
    mostFrom best found (List.replicate n x) = x := by
  induction n generalizing best found with
  | zero =>
      obtain ⟨rfl, -⟩ := h.resolve_right fun h => absurd h.2 (lt_irrefl 0)
      exact mostFrom_nil best found
  | succ n ih =>
      rw [List.replicate_succ]
      unfold mostFrom
      rw [List.takeWhile_replicate, List.dropWhile_replicate]
      cases hsame : Number.same x x with
      | true =>
          simp only [if_true, mostFrom_nil, List.length_replicate]
          split_ifs with hmore
          · rfl
          · exact (h.resolve_right fun h => by omega).1
      | false =>
          simp only [Bool.false_eq_true, if_false, List.length_nil]
          split_ifs with hmore
          · exact ih (.inl ⟨rfl, Nat.one_pos⟩)
          · exact ih (.inl (h.resolve_right fun h => by omega))

theorem mostOf_replicate {n : ℕ} (hn : 0 < n) (x : V) : mostOf (List.replicate n x) = x := by
  unfold mostOf
  rw [mergeSort_replicate]
  exact mostFrom_replicate (.inr ⟨rfl, hn⟩)

end Copies

end Aggregate

namespace Exact

open Aggregate

variable {V S : Type} [Number V] [Cell S V] (exact : Exact V S)

theorem value_neg_zero : exact.value (-Number.zero) = 0 := by
  show exact.value (-Number.ofInt 0) = 0
  rw [exact.value_neg, exact.value_ofInt, Int.cast_zero, neg_zero]

theorem value_foldl (values : List V) (start : V) :
    exact.value (values.foldl (· + ·) start) =
      exact.value start + (values.map exact.value).sum := by
  induction values generalizing start with
  | nil => simp
  | cons a values ih =>
      rw [List.foldl_cons, ih, exact.value_add, List.map_cons, List.sum_cons, add_assoc]

theorem value_joinEight (values : List V) :
    exact.value (joinEight values) = (values.map exact.value).sum := by
  unfold joinEight
  split
  next =>
    simp only [exact.value_add, List.map_cons, List.map_nil, List.sum_cons, List.sum_nil]
    ring
  next => rw [exact.value_foldl, exact.value_neg_zero, zero_add]

theorem sum_zipWith {sums rest : List V} (h : sums.length = rest.length) :
    ((List.zipWith (· + ·) sums rest).map exact.value).sum =
      (sums.map exact.value).sum + (rest.map exact.value).sum := by
  induction sums generalizing rest with
  | nil =>
      obtain rfl := List.length_eq_zero_iff.mp h.symm
      simp
  | cons a sums ih =>
      cases rest with
      | nil => cases h
      | cons b rest =>
          simp only [List.zipWith_cons_cons, List.map_cons, List.sum_cons, exact.value_add,
            ih (Nat.succ.inj h)]
          ring

theorem sum_take_drop (values : List V) (n : ℕ) :
    ((values.take n).map exact.value).sum + ((values.drop n).map exact.value).sum =
      (values.map exact.value).sum := by
  rw [← List.sum_append, ← List.map_append, List.take_append_drop]

/-- Running sums and the numbers behind them come to the sum of both. -/
theorem value_blocks {blocks : ℕ} {sums rest : List V} (hsums : sums.length = 8)
    (hrest : 8 * blocks ≤ rest.length) :
    exact.value (blockSum.add blocks sums rest) =
      (sums.map exact.value).sum + (rest.map exact.value).sum := by
  induction blocks generalizing sums rest with
  | zero => exact (exact.value_foldl _ _).trans (by rw [exact.value_joinEight])
  | succ blocks ih =>
      have htake : sums.length = (rest.take 8).length := by
        rw [List.length_take]
        omega
      unfold blockSum.add
      rw [ih (by rw [List.length_zipWith]; omega) (by rw [List.length_drop]; omega),
        exact.sum_zipWith htake, add_assoc, exact.sum_take_drop]

theorem value_blockSum (values : List V) :
    exact.value (blockSum values) = (values.map exact.value).sum := by
  unfold blockSum
  split
  next => rw [exact.value_foldl, exact.value_neg_zero, zero_add]
  next hlong =>
    rw [exact.value_blocks (by rw [List.length_take]; omega) (by rw [List.length_drop]; omega),
      exact.sum_take_drop]

/-- A sum is that of the fractions, whatever blocks it is taken in. -/
theorem value_total (values : List V) :
    exact.value (total values) = (values.map exact.value).sum := by
  induction values using total.induct with
  | case1 values hshort =>
      unfold total
      rw [dif_pos hshort, exact.value_blockSum]
  | case2 values hlong half cut hfront hback =>
      unfold total
      rw [dif_neg hlong, exact.value_add]
      exact (congrArg₂ (· + ·) hfront hback).trans (exact.sum_take_drop values cut)

include exact

/-- The mean of copies of a number is that number. -/
theorem meanOf_replicate {n : ℕ} (hn : 0 < n) (x : V) : meanOf (List.replicate n x) = x := by
  have hcount : ((n : ℤ) : ℚ) ≠ 0 := by exact_mod_cast hn.ne'
  apply exact.injective
  show exact.value (total _ / Number.ofInt _) = _
  rw [exact.value_div, exact.value_total, exact.value_ofInt, List.map_replicate, List.sum_replicate,
    List.length_replicate, nsmul_eq_mul]
  push_cast at hcount ⊢
  exact mul_div_cancel_left₀ _ hcount

theorem medianOf_replicate {n : ℕ} (hn : 0 < n) (x : V) : medianOf (List.replicate n x) = x := by
  have hnumbers : (List.replicate n x).any Number.isNaN = false := by
    simp [exact.isNaN_eq_false]
  unfold medianOf
  rw [hnumbers, if_neg Bool.false_ne_true]
  dsimp only
  rw [mergeSort_replicate, List.length_replicate, List.drop_replicate, List.take_replicate]
  exact exact.meanOf_replicate (by split_ifs <;> omega) x

/-- Copies of a number have it for their aggregate, if that is not the sum. -/
theorem apply_replicate {aggregate : Aggregate} (h : aggregate ≠ .sum) {n : ℕ} (hn : 0 < n)
    (x : V) :
    aggregate.apply (List.replicate n x) = x := by
  cases aggregate with
  | mean => exact exact.meanOf_replicate hn x
  | median => exact exact.medianOf_replicate hn x
  | minimum => exact least_replicate hn x
  | maximum => exact largest_replicate hn x
  | mostOccurring => exact mostOf_replicate hn x
  | boundary => exact boundaryOf_replicate hn x
  | sum => exact absurd rfl h
  | mostOccurringNodata => exact mostOf_replicate hn x

end Exact

namespace Fraction

/-- A power with a whole exponent; zero for the others, whose powers need not be fractions. -/
def power (base exponent : ℚ) : ℚ :=
  if exponent.den = 1 then base ^ exponent.num else 0

/-- The nearest fraction with a number of decimals. -/
def roundTo (decimals : Int) (x : ℚ) : ℚ :=
  round (x * 10 ^ decimals) / 10 ^ decimals

instance : Number ℚ where
  decidableLT := inferInstance
  decidableLE := inferInstance
  ofInt n := n
  notANumber := 0
  isNaN _ := false
  isFinite _ := true
  power := power
  powerBy exponent base := power base exponent
  truncate x := .ok (x.num.tdiv x.den)
  roundExact decimals x := .ok (roundTo decimals x)
  roundScaled := roundTo
  decimalsFit _ := true
  ofNumeral := ofNumeral
  general x := Printing.general (toDouble x)
  shortest x := Printing.shortest (toDouble x)
  ofSingle := ofSingle
  toSingle? := toSingle?

instance : Cell ℚ ℚ where
  widen := id
  narrow := id
  toSingle x := .ofModel (.pack (unpacked .binary32 x))
  ofSingle := ofSingle

instance : Conversion ℚ ℚ where
  toNumber := id
  toCoordinate := id

/-- Fractions are calculated exactly. -/
def exact : Exact ℚ ℚ where
  value := id
  injective := Function.injective_id
  value_ofInt _ := rfl
  value_add _ _ := rfl
  value_neg _ := rfl
  value_div _ _ := rfl
  isNaN_eq_false _ := rfl
  beq_iff := beq_iff_eq
  widen_narrow _ := rfl
  narrow_widen _ := rfl

end Fraction

end MapAlgebra
