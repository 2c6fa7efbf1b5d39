import Mathlib
import MapAlgebra.Proofs.Widening

/-!
# Exact geometry

Coordinates that are fractions. Their arithmetic is exact, and floating point comes in only where a
file keeps a coordinate or a calculation turns one into a number.
-/

namespace MapAlgebra.Fraction

open Float.Model (Format UnpackedFloat)
open Float.Model.UnpackedFloat

/-- The number of a format that is nearest to a fraction. The fraction is cut behind the last digit
that can matter, and one more digit tells whether anything was cut off. -/
def unpacked (spec : Format) (x : ℚ) : UnpackedFloat :=
  let shift := (2 - spec.minExponent).toNat
  let scaled := |x| * 2 ^ shift
  let whole := ⌊scaled⌋₊
  UnpackedFloat.round spec (if x < 0 then .negative else .positive)
    (2 * whole + if (whole : ℚ) = scaled then 0 else 1) (-(shift + 1))

/-- The exact value of a number; zero for what has none. -/
def value : UnpackedFloat → ℚ
  | .finite .positive mantissa exponent _ => mantissa * 2 ^ exponent
  | .finite .negative mantissa exponent _ => -(mantissa * 2 ^ exponent)
  | _ => 0

def ofSingle (x : Float32) : ℚ := value x.toModel.unpack

def toSingle? (x : ℚ) : Option Float32 :=
  let single : Float32 := .ofModel (.pack (unpacked .binary32 x))
  if single.isInf then none else some single

def ofDouble (x : Float) : ℚ := value x.toModel.unpack

def toDouble (x : ℚ) : Float := .ofModel (.pack (unpacked .binary64 x))

/-- The nearest whole number, a half to the even neighbour. -/
def round (x : ℚ) : Int := x.num.sign * Decimal.roundHalfEven x.num.natAbs x.den

/-- The fraction that a numeral writes; zero for what is no number. -/
def ofNumeral : Reading.Numeral → ℚ
  | .decimal negative digits exponent =>
      let x : ℚ := digits * 10 ^ exponent
      if negative then -x else x
  | _ => 0

instance : Coordinate ℚ where
  decidableLT := inferInstance
  decidableLE := inferInstance
  ofInt n := n
  isInfinite _ := false
  floor x := .ok ⌊x⌋
  ceil x := .ok ⌈x⌉
  round x := .ok (round x)
  cellIndex x := ⌊x⌋
  steps distance step := ⌊distance / step⌋
  ofNumeral := ofNumeral
  shortest x := Printing.shortest (toDouble x)
  general x := Printing.general (toDouble x)
  ofSingle := ofSingle
  toSingle? := toSingle?

instance : Conversion ℚ Float where
  toNumber := toDouble
  toCoordinate := ofDouble

/-- What a file keeps of a coordinate. -/
def stored? (x : ℚ) : Option ℚ := (toSingle? x).map ofSingle

theorem round_intCast (n : Int) : round n = n := by
  have hwhole : Decimal.roundHalfEven n.natAbs 1 = n.natAbs := by
    simp [Decimal.roundHalfEven, Nat.mod_one]
  unfold round
  rw [Rat.num_intCast, Rat.den_intCast, hwhole, Int.sign_mul_natAbs]

theorem abs_value {sign : Sign} {mantissa : Nat} {exponent : Int} (hpos : 0 < mantissa) :
    |value (.finite sign mantissa exponent hpos)| = mantissa * 2 ^ exponent := by
  have hnonneg : (0 : ℚ) ≤ mantissa * 2 ^ exponent := by positivity
  cases sign with
  | positive => exact abs_of_nonneg hnonneg
  | negative => exact (abs_neg _).trans (abs_of_nonneg hnonneg)

theorem sign_value {sign : Sign} {mantissa : Nat} {exponent : Int} (hpos : 0 < mantissa) :
    (if value (.finite sign mantissa exponent hpos) < 0 then Sign.negative else .positive) =
      sign := by
  have hvalue : (0 : ℚ) < mantissa * 2 ^ exponent := by positivity
  cases sign with
  | positive => exact if_neg (not_lt.mpr hvalue.le)
  | negative => exact if_pos (neg_lt_zero.mpr hvalue)

/-- Nothing is cut off a single precision number. -/
theorem unpacked_value {sign : Sign} {mantissa : Nat} {exponent : Int} (hpos : 0 < mantissa)
    (hcanonical : Double.Canonical .binary32 mantissa exponent) (hleast : -149 ≤ exponent) :
    unpacked .binary32 (value (.finite sign mantissa exponent hpos)) =
      .finite sign mantissa exponent hpos := by
  obtain ⟨digits, hdigits⟩ : ∃ digits : Nat, exponent = (digits : Int) - 151 :=
    ⟨(exponent + 151).toNat, by omega⟩
  have hshift : (2 - Format.binary32.minExponent).toNat = 151 := rfl
  have hscaled : |value (.finite sign mantissa exponent hpos)| * 2 ^ 151 =
      ((mantissa * 2 ^ digits : Nat) : ℚ) := by
    have hpow : (2 : ℚ) ^ exponent * 2 ^ 151 = 2 ^ digits := by
      rw [hdigits, zpow_sub₀ two_ne_zero, zpow_natCast]
      norm_num
    rw [abs_value, mul_assoc, hpow]
    push_cast
    rfl
  have hmantissa : 2 * (mantissa * 2 ^ digits) + 0 = mantissa * 2 ^ (digits + 1) := by ring
  have hexponent : -((151 : Nat) + 1 : Int) = exponent - (digits + 1 : Nat) := by omega
  unfold unpacked
  dsimp only
  rw [hshift, hscaled, Nat.floor_natCast, if_pos rfl, sign_value, hmantissa, hexponent]
  exact Double.round_mul_two_pow sign hpos hcanonical (digits + 1)

theorem unpacked_zero : unpacked .binary32 0 = .zero .positive := by
  have hshift : (2 - Format.binary32.minExponent).toNat = 151 := rfl
  unfold unpacked
  dsimp only
  rw [hshift, abs_zero, zero_mul, Nat.floor_zero, Nat.cast_zero, if_pos rfl, if_neg (lt_irrefl _)]
  rfl

/-- A single precision number is kept as it is. -/
theorem stored?_ofSingle (x : Float32) : stored? (ofSingle x) = some (ofSingle x) := by
  have hzero : stored? 0 = some 0 := by
    unfold stored? toSingle?
    rw [unpacked_zero]
    rfl
  cases h : x.toModel.unpack with
  | infinity sign => rw [ofSingle, h]; exact hzero
  | notANumber => rw [ofSingle, h]; exact hzero
  | zero sign => rw [ofSingle, h]; exact hzero
  | finite sign mantissa exponent hpos =>
      obtain ⟨hcanonical, -, hleast, -⟩ := Double.canonical_unpack h
      have hsingle : Float32.ofModel (.pack (unpacked .binary32 (ofSingle x))) = x := by
        rw [ofSingle, h, unpacked_value hpos hcanonical hleast, ← h]
        exact Double.ofBits_toBits x
      have hfinite : x.isInf = false := by
        show x.toModel.unpack.isInf = false
        rw [h]
        rfl
      unfold stored? toSingle?
      dsimp only
      rw [hsingle, hfinite]
      rfl

end MapAlgebra.Fraction
