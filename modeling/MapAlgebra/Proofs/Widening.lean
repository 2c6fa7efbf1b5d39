import Mathlib
import MapAlgebra.Proofs.Single

/-!
# Single precision within double precision

A single precision number is kept by double precision: widened and rounded to single precision
again it is what it was. Rounding makes no number out of what is none, and the other way round.
-/

namespace MapAlgebra.Double

open Float.Model (Format UnpackedFloat totalExponent)
open Float.Model.UnpackedFloat

theorem log2_mul_two_pow {mantissa : Nat} (hpos : 0 < mantissa) (shift : Nat) :
    (mantissa * 2 ^ shift).log2 = mantissa.log2 + shift := by
  have hpow : 0 < 2 ^ shift := Nat.two_pow_pos shift
  have hne : mantissa * 2 ^ shift ≠ 0 := (Nat.mul_pos hpos hpow).ne'
  refine (Nat.log2_eq_iff hne).mpr ⟨?_, ?_⟩
  · rw [Nat.pow_add]
    exact Nat.mul_le_mul_right _ (Nat.log2_self_le hpos.ne')
  · have hsum : mantissa.log2 + shift + 1 = mantissa.log2 + 1 + shift := by omega
    rw [hsum, Nat.pow_add]
    exact Nat.mul_lt_mul_of_pos_right Nat.lt_log2_self hpow

/-- Zeros at the end of a mantissa are shifted out without a trace. -/
theorem shiftRight_mul_two_pow (mantissa shift : Nat) :
    (⟨mantissa * 2 ^ shift, false, false⟩ : ExtendedMantissa) >>> shift =
      ⟨mantissa, false, false⟩ := by
  induction shift generalizing mantissa with
  | zero => rw [Nat.pow_zero, Nat.mul_one]; rfl
  | succ shift ih =>
      have hsplit : mantissa * 2 ^ (shift + 1) = mantissa * 2 * 2 ^ shift := by
        rw [Nat.pow_succ, Nat.mul_comm (2 ^ shift), Nat.mul_assoc]
      rw [hsplit]
      show ExtendedMantissa.shiftRightOne
        ((⟨mantissa * 2 * 2 ^ shift, false, false⟩ : ExtendedMantissa) >>> shift) = _
      rw [ih]
      simp [ExtendedMantissa.shiftRightOne]

/-- The exponent that the format has for a number of this size. -/
def Canonical (spec : Format) (mantissa : Nat) (exponent : Int) : Prop :=
  spec.targetExponent (totalExponent mantissa exponent) = exponent

section Rounding

variable {spec : Format} {mantissa : Nat} {exponent : Int}

theorem totalExponent_mul_two_pow (hpos : 0 < mantissa) (shift : Nat) :
    totalExponent (mantissa * 2 ^ shift) (exponent - shift) = totalExponent mantissa exponent := by
  unfold totalExponent
  rw [log2_mul_two_pow hpos]
  omega

theorem shiftToTargetExponent_mul_two_pow (hpos : 0 < mantissa)
    (h : Canonical spec mantissa exponent) (shift : Nat) :
    shiftToTargetExponent spec (mantissa * 2 ^ shift) (exponent - shift) .exact =
      (⟨mantissa, false, false⟩, exponent) := by
  have hshift : (exponent - (exponent - shift)).toNat = shift := by omega
  unfold shiftToTargetExponent shiftToExponent
  dsimp only
  rw [totalExponent_mul_two_pow hpos, h, hshift]
  refine Prod.ext (shiftRight_mul_two_pow mantissa shift) ?_
  show exponent - (shift : Int) + (shift : Int) = exponent
  omega

theorem roundWithAccuracy_mul_two_pow (sign : Sign) (hpos : 0 < mantissa)
    (h : Canonical spec mantissa exponent) (shift : Nat) :
    roundWithAccuracy spec sign (mantissa * 2 ^ shift) (exponent - shift) .exact =
      .finite sign mantissa exponent hpos := by
  -- the second shift has nothing left to do
  have hagain := shiftToTargetExponent_mul_two_pow hpos h 0
  rw [Nat.pow_zero, Nat.mul_one, Int.ofNat_zero, Int.sub_zero] at hagain
  have hrounded : (⟨mantissa, false, false⟩ : ExtendedMantissa).roundedMantissa = mantissa := rfl
  unfold roundWithAccuracy
  simp only [shiftToTargetExponent_mul_two_pow hpos h, hrounded, hagain, dif_neg hpos.ne']

/-- A mantissa of the format is what is left of it with zeros at its end. -/
theorem round_mul_two_pow (sign : Sign) (hpos : 0 < mantissa)
    (h : Canonical spec mantissa exponent) (shift : Nat) :
    UnpackedFloat.round spec sign (mantissa * 2 ^ shift) (exponent - shift) =
      .finite sign mantissa exponent hpos := by
  have hnone : (exponent - shift - exponent).toNat = 0 := by omega
  unfold UnpackedFloat.round decreaseExponent
  dsimp only
  rw [totalExponent_mul_two_pow hpos, h, hnone, Nat.shiftLeft_zero, Int.ofNat_zero, Int.sub_zero]
  exact roundWithAccuracy_mul_two_pow sign hpos h shift

/-- A mantissa that is short for the format gets zeros at its end. -/
theorem round_of_le (sign : Sign) (hpos : 0 < mantissa) {shift : Nat}
    (htarget : spec.targetExponent (totalExponent mantissa exponent) = exponent - shift) :
    UnpackedFloat.round spec sign mantissa exponent =
      .finite sign (mantissa * 2 ^ shift) (exponent - shift)
        (Nat.mul_pos hpos (Nat.two_pow_pos shift)) := by
  have hcanonical : Canonical spec (mantissa * 2 ^ shift) (exponent - shift) := by
    unfold Canonical
    rw [totalExponent_mul_two_pow hpos, htarget]
  have hshift : (exponent - (exponent - shift)).toNat = shift := by omega
  have hround := roundWithAccuracy_mul_two_pow sign
    (Nat.mul_pos hpos (Nat.two_pow_pos shift)) hcanonical 0
  rw [Nat.pow_zero, Nat.mul_one, Int.ofNat_zero, Int.sub_zero] at hround
  unfold UnpackedFloat.round decreaseExponent
  dsimp only
  rw [htarget, hshift, Nat.shiftLeft_eq]
  exact hround

end Rounding

theorem unpackSign_packComponents {spec : Format} (sign : Sign)
    (exponent : BitVec spec.exponentBits)
    (mantissa : BitVec spec.mantissaBitsWithoutImplicit) :
    Sign.ofBitVec (unpackSign (packComponents spec sign exponent mantissa)) = sign := by
  have hbit : unpackSign (packComponents spec sign exponent mantissa) = sign.toBitVec := by
    apply BitVec.eq_of_getLsbD_eq
    intro i hi
    have hzero : i = 0 := by omega
    subst hzero
    simp [unpackSign, packComponents, BitVec.getLsbD_append, BitVec.getElem_append]
  rw [hbit]
  cases sign <;> rfl

/-- A word whose exponent field is neither zero nor full stands for a mantissa with the implicit
bit. -/
theorem unpack_packComponents {sign : Sign} {biased : BitVec 11} {mantissa : BitVec 52}
    (hspecial : biased ≠ -1#11) (hzero : biased ≠ 0#11) (hpos : 0 < (1#1 ++ mantissa).toNat) :
    unpack .binary64 (packComponents .binary64 sign biased mantissa) =
      .finite sign (1#1 ++ mantissa).toNat (biased.toNat - 1075) hpos := by
  generalize hword : packComponents .binary64 sign biased mantissa = word
  have hexponent : unpackExponent word = biased := hword ▸ unpackExponent_packComponents
  have hmantissa : unpackMantissa word = mantissa := hword ▸ unpackMantissa_packComponents
  have hsign : Sign.ofBitVec (unpackSign word) = sign := hword ▸ unpackSign_packComponents _ _ _
  subst hexponent hmantissa hsign
  unfold unpack
  dsimp only
  rw [if_neg hspecial, if_neg hzero]
  rfl

/-- A mantissa of full length is unpacked as it was packed. -/
theorem unpack_pack_of_log2 {sign : Sign} {mantissa : Nat} {exponent : Int} (hpos : 0 < mantissa)
    (hlog : mantissa.log2 = 52) (hleast : -1074 ≤ exponent) (hgreatest : exponent ≤ 971) :
    unpack .binary64 (pack .binary64 (.finite sign mantissa exponent hpos)) =
      .finite sign mantissa exponent hpos := by
  obtain ⟨hlow, hhigh⟩ := (Nat.log2_eq_iff hpos.ne').mp hlog
  obtain ⟨biased, hbiased⟩ : ∃ biased : Nat, exponent = (biased : Int) - 1075 :=
    ⟨(exponent + 1075).toNat, by omega⟩
  have hstored : (exponent + (1023 : Nat) + (52 : Nat)).toNat = biased := by omega
  have hpack : pack .binary64 (.finite sign mantissa exponent hpos) =
      packComponents .binary64 sign (BitVec.ofNat 11 biased) (BitVec.ofNat 52 mantissa) := by
    unfold pack
    show (if 2 ^ 11 ≤ (exponent + (1023 : Nat) + (52 : Nat)).toNat + 1 then _
      else if mantissa.log2 + 1 = 53 then
        packComponents .binary64 sign (BitVec.ofNat 11 (exponent + (1023 : Nat) + (52 : Nat)).toNat)
          (BitVec.ofNat 52 mantissa)
      else _) = _
    rw [hstored, if_neg (by omega), if_pos (by omega)]
  have hvalue : (BitVec.ofNat 11 biased).toNat = biased := by
    rw [BitVec.toNat_ofNat, Nat.mod_eq_of_lt (by omega)]
  have hspecial : BitVec.ofNat 11 biased ≠ -1#11 := by
    intro h
    have hfull : biased = 2047 := hvalue.symm.trans (congrArg BitVec.toNat h)
    omega
  have hzero : BitVec.ofNat 11 biased ≠ 0#11 := by
    intro h
    have hnone : biased = 0 := hvalue.symm.trans (congrArg BitVec.toNat h)
    omega
  -- the implicit bit is the highest one of the mantissa
  have hmantissa : (1#1 ++ BitVec.ofNat 52 mantissa).toNat = mantissa := by
    rw [BitVec.toNat_append, ← Nat.shiftLeft_add_eq_or_of_lt (BitVec.isLt _), BitVec.toNat_ofNat]
    show 1 <<< 52 + mantissa % 2 ^ 52 = mantissa
    omega
  rw [hpack, unpack_packComponents hspecial hzero (by rw [hmantissa]; exact hpos)]
  congr 1
  rw [hvalue, hbiased]

theorem canonical_binary32 {mantissa : Nat} {exponent : Int}
    (h : max (mantissa.log2 - 23 + exponent) (-149) = exponent) :
    Canonical .binary32 mantissa exponent := by
  have hbits : Format.binary32.mantissaBits = 24 := rfl
  have hleast : Format.binary32.minExponent = -149 := rfl
  unfold Canonical Format.targetExponent totalExponent
  rw [hbits, hleast]
  omega

/-- What a word of single precision stands for has a mantissa of the format. -/
theorem canonical_unpack {word : BitVec Format.binary32.numBits} {sign : Sign} {mantissa : Nat}
    {exponent : Int} {hpos : 0 < mantissa}
    (h : unpack .binary32 word = .finite sign mantissa exponent hpos) :
    Canonical .binary32 mantissa exponent ∧ mantissa.log2 ≤ 23 ∧ -149 ≤ exponent ∧
      exponent ≤ 104 := by
  have hbound : (unpackMantissa word).toNat < 2 ^ 23 := (unpackMantissa word).isLt
  have hlt : (unpackExponent word).toNat < 2 ^ 8 := (unpackExponent word).isLt
  have hbias : (Format.binary32.exponentBias : Int) +
      (Format.binary32.mantissaBitsWithoutImplicit : Int) = 150 := rfl
  unfold unpack at h
  dsimp only at h
  rw [hbias] at h
  split at h
  next => split at h <;> cases h
  next hspecial =>
    split at h
    next hzero =>
      split at h
      next => cases h
      next =>
        -- without the implicit bit the exponent is the least one
        obtain ⟨-, rfl, rfl⟩ := UnpackedFloat.finite.inj h
        have hlog := (Nat.log2_lt hpos.ne').mpr hbound
        have hexponent : (unpackExponent word).toNat = 0 := by rw [hzero]; rfl
        refine ⟨canonical_binary32 ?_, ?_, ?_, ?_⟩ <;> omega
    next hzero =>
      obtain ⟨-, rfl, rfl⟩ := UnpackedFloat.finite.inj h
      have hvalue : (1#1 ++ unpackMantissa word).toNat = 8388608 + (unpackMantissa word).toNat := by
        rw [BitVec.toNat_append, ← Nat.shiftLeft_add_eq_or_of_lt hbound]
        rfl
      have hlog : (1#1 ++ unpackMantissa word).toNat.log2 = 23 := by
        refine (Nat.log2_eq_iff hpos.ne').mpr ⟨?_, ?_⟩ <;> omega
      have hfull : (unpackExponent word).toNat ≠ 255 := fun h => hspecial (BitVec.toNat_inj.mp h)
      have hnone : (unpackExponent word).toNat ≠ 0 := fun h => hzero (BitVec.toNat_inj.mp h)
      refine ⟨canonical_binary32 ?_, ?_, ?_, ?_⟩ <;> omega

/-- A number rounded to a format. -/
def rounded (spec : Format) : UnpackedFloat → UnpackedFloat
  | .finite sign mantissa exponent _ => UnpackedFloat.round spec sign mantissa exponent
  | special => special

theorem toSingle_eq (x : Float) :
    toSingle x = .ofModel (.pack (rounded .binary32 x.toModel.unpack)) := by
  unfold toSingle
  cases x.toModel.unpack <;> rfl

theorem ofSingle_eq (x : Float32) :
    ofSingle x = .ofModel (.pack (rounded .binary64 x.toModel.unpack)) := by
  unfold ofSingle
  cases x.toModel.unpack <;> rfl

/-- What a word of single precision stands for has a place in double precision. -/
theorem unpack_pack_rounded (word : BitVec Format.binary32.numBits) :
    unpack .binary64 (pack .binary64 (rounded .binary64 (unpack .binary32 word))) =
        rounded .binary64 (unpack .binary32 word) ∧
      rounded .binary32 (rounded .binary64 (unpack .binary32 word)) = unpack .binary32 word := by
  cases h : unpack .binary32 word with
  | infinity sign => cases sign <;> exact ⟨rfl, rfl⟩
  | notANumber => exact ⟨rfl, rfl⟩
  | zero sign => cases sign <;> exact ⟨rfl, rfl⟩
  | finite sign mantissa exponent hpos =>
      obtain ⟨hcanonical, hlog, hleast, hgreatest⟩ := canonical_unpack h
      obtain ⟨shift, hshift⟩ : ∃ shift : Nat, mantissa.log2 + shift = 52 :=
        ⟨52 - mantissa.log2, by omega⟩
      have htarget : Format.binary64.targetExponent (totalExponent mantissa exponent) =
          exponent - shift := by
        have hbits : Format.binary64.mantissaBits = 53 := rfl
        have hfloor : Format.binary64.minExponent = -1074 := rfl
        unfold Format.targetExponent totalExponent
        rw [hbits, hfloor]
        omega
      have hround : rounded .binary64 (.finite sign mantissa exponent hpos) = _ :=
        round_of_le sign hpos htarget
      rw [hround]
      refine ⟨unpack_pack_of_log2 _ ?_ ?_ ?_, round_mul_two_pow sign hpos hcanonical shift⟩
      · rw [log2_mul_two_pow hpos, hshift]
      · omega
      · omega

theorem unpack_ofSingle (x : Float32) :
    (ofSingle x).toModel.unpack = rounded .binary64 x.toModel.unpack := by
  rw [ofSingle_eq]
  exact (unpack_pack_rounded x.toModel.toBits.toBitVec).1

/-- A single precision number comes back from double precision. -/
theorem toSingle_ofSingle (x : Float32) : toSingle (ofSingle x) = x := by
  have hnarrow : rounded .binary32 (rounded .binary64 x.toModel.unpack) = x.toModel.unpack :=
    (unpack_pack_rounded x.toModel.toBits.toBitVec).2
  rw [toSingle_eq, unpack_ofSingle, hnarrow]
  exact ofBits_toBits x

theorem isNaN_rounded (spec : Format) (x : UnpackedFloat) :
    (rounded spec x).isNaN = x.isNaN := by
  cases x with
  | finite sign mantissa exponent hpos =>
      show (UnpackedFloat.round spec sign mantissa exponent).isNaN = false
      unfold UnpackedFloat.round roundWithAccuracy
      dsimp only
      split <;> rfl
  | infinity sign => rfl
  | notANumber => rfl
  | zero sign => rfl

theorem isNaN_unpack_of_ne {word : BitVec Format.binary32.numBits}
    (h : unpackExponent word ≠ -1#8) : (unpack .binary32 word).isNaN = false := by
  unfold unpack
  dsimp only
  rw [if_neg h]
  split
  next => split <;> rfl
  next => rfl

theorem isNaN_unpack_pack (x : UnpackedFloat) :
    (unpack .binary32 (pack .binary32 x)).isNaN = x.isNaN := by
  cases x with
  | infinity sign => cases sign <;> rfl
  | notANumber => rfl
  | zero sign => cases sign <;> rfl
  | finite sign mantissa exponent hpos =>
      show (unpack .binary32 (pack .binary32 (.finite sign mantissa exponent hpos))).isNaN = false
      unfold pack
      dsimp only
      -- too great a number becomes infinite, and others have no full exponent field
      split
      next => cases sign <;> rfl
      next hbound =>
        split
        next =>
          refine isNaN_unpack_of_ne ?_
          rw [unpackExponent_packComponents]
          intro h
          have hfull := congrArg BitVec.toNat h
          rw [BitVec.toNat_ofNat] at hfull
          have hvalue : (-1#8).toNat = 255 := rfl
          omega
        next =>
          refine isNaN_unpack_of_ne ?_
          rw [unpackExponent_packComponents]
          decide

theorem isNaN_ofSingle_toSingle (x : Float) : (ofSingle (toSingle x)).isNaN = x.isNaN := by
  have hsingle : (toSingle x).toModel.unpack.isNaN = x.isNaN := by
    rw [toSingle_eq]
    exact (isNaN_unpack_pack _).trans (isNaN_rounded _ _)
  show (ofSingle (toSingle x)).toModel.unpack.isNaN = x.isNaN
  rw [unpack_ofSingle, isNaN_rounded, hsingle]

end MapAlgebra.Double
