import Mathlib.Tactic.NormNum
import MapAlgebra.Number.Double

/-!
# Words of single precision numbers

A single precision number is the number that its word stands for, since all that is no number has
one and the same word.
-/

namespace MapAlgebra.Double

open Float.Model (Format UnpackedFloat)
open Float.Model.UnpackedFloat

/-- The fields of a word put together again. -/
theorem packComponents_fields (word : BitVec Format.binary32.numBits) :
    packComponents .binary32 (Sign.ofBitVec (unpackSign word)) (unpackExponent word)
      (unpackMantissa word) = word := by
  have hsign (bit : BitVec 1) : (Sign.ofBitVec bit).toBitVec = bit := by
    revert bit
    decide
  unfold packComponents
  rw [hsign]
  show word.extractLsb' 31 1 ++ word.extractLsb' 23 8 ++ word.extractLsb' 0 23 = word
  apply BitVec.eq_of_getLsbD_eq
  intro i hi
  rw [BitVec.getLsbD_append, BitVec.getLsbD_append]
  simp only [BitVec.getLsbD_extractLsb']
  -- each bit is in one of the three fields
  by_cases hmantissa : i < 23
  · rw [if_pos hmantissa, decide_eq_true hmantissa, Bool.true_and, Nat.zero_add]
  · rw [if_neg hmantissa]
    by_cases hexponent : i - 23 < 8
    · have hbit : 23 + (i - 23) = i := by omega
      rw [if_pos hexponent, decide_eq_true hexponent, Bool.true_and, hbit]
    · have hbit : 31 + (i - 23 - 8) = i := by omega
      have hlast : i - 23 - 8 < 1 := by omega
      rw [if_neg hexponent, decide_eq_true hlast, Bool.true_and, hbit]

theorem packComponents_of_fields {word : BitVec Format.binary32.numBits} {exponent : BitVec 8}
    {mantissa : BitVec 23} (hexponent : unpackExponent word = exponent)
    (hmantissa : unpackMantissa word = mantissa) :
    packComponents .binary32 (Sign.ofBitVec (unpackSign word)) exponent mantissa = word := by
  subst hexponent hmantissa
  exact packComponents_fields word

/-- A magnitude below the implicit bit is packed without an exponent. -/
theorem pack_subnormal {sign : Sign} {mantissa : BitVec 23} {exponent : Int}
    (hpos : 0 < mantissa.toNat) (hexponent : exponent = -149) :
    pack .binary32 (.finite sign mantissa.toNat exponent hpos) =
      packComponents .binary32 sign 0 mantissa := by
  have hbits : Format.binary32.mantissaBits = 24 := rfl
  have hlog : mantissa.toNat.log2 < 23 := (Nat.log2_lt hpos.ne').mpr mantissa.isLt
  have hmantissa : BitVec.ofNat 23 mantissa.toNat = mantissa := by
    rw [BitVec.ofNat_toNat, BitVec.setWidth_eq]
  subst hexponent
  unfold pack
  dsimp only
  rw [if_neg (by decide), if_neg (by omega), hmantissa]
  rfl

/-- A magnitude with the implicit bit is packed with its exponent. -/
theorem pack_normal {sign : Sign} {biased : BitVec 8} {mantissa : BitVec 23} {exponent : Int}
    (hpos : 0 < (1#1 ++ mantissa).toNat) (hexponent : exponent = biased.toNat - 150)
    (hbiased : biased ≠ -1#8) :
    pack .binary32 (.finite sign (1#1 ++ mantissa).toNat exponent hpos) =
      packComponents .binary32 sign biased mantissa := by
  have hbits : Format.binary32.mantissaBits = 24 := rfl
  have hbound := mantissa.isLt
  have hvalue : (1#1 ++ mantissa).toNat = 8388608 + mantissa.toNat := by
    rw [BitVec.toNat_append, ← Nat.shiftLeft_add_eq_or_of_lt hbound]
    rfl
  -- the implicit bit is the highest one, so that no bit is shifted out
  have hlog : (1#1 ++ mantissa).toNat.log2 = 23 := by
    refine (Nat.log2_eq_iff (by omega)).mpr ⟨?_, ?_⟩ <;> omega
  have hfull : biased.toNat ≠ 255 := fun h => hbiased (BitVec.toNat_inj.mp h)
  have hstored : (exponent + (127 : Nat) + (23 : Nat)).toNat = biased.toNat := by omega
  have hexp : BitVec.ofNat 8 biased.toNat = biased := by
    rw [BitVec.ofNat_toNat, BitVec.setWidth_eq]
  have hmantissa : BitVec.ofNat 23 (1#1 ++ mantissa).toNat = mantissa := by
    apply BitVec.eq_of_toNat_eq
    rw [BitVec.toNat_ofNat, hvalue]
    omega
  have hlt := biased.isLt
  unfold pack
  show (if 2 ^ 8 ≤ (exponent + (127 : Nat) + (23 : Nat)).toNat + 1 then _
    else if (1#1 ++ mantissa).toNat.log2 + 1 = Format.binary32.mantissaBits then
      packComponents .binary32 sign (BitVec.ofNat 8 (exponent + (127 : Nat) + (23 : Nat)).toNat)
        (BitVec.ofNat 23 (1#1 ++ mantissa).toNat)
    else _) = _
  rw [hstored, if_neg (by omega), if_pos (by omega), hexp, hmantissa]

/-- Words with one spelling of what is no number are packed as they were unpacked. -/
theorem pack_unpack {word : BitVec Format.binary32.numBits} (h : Format.binary32.Valid word) :
    pack .binary32 (unpack .binary32 word) = word := by
  unfold unpack
  dsimp only
  by_cases hspecial : unpackExponent word = -1#8
  · rw [if_pos hspecial]
    by_cases hmantissa : unpackMantissa word = 0#23
    · rw [if_pos hmantissa]
      exact packComponents_of_fields hspecial hmantissa
    · -- of the words that stand for no number one is valid
      rw [if_neg hmantissa]
      exact (h.eq_packedNaN hspecial hmantissa).symm
  · rw [if_neg hspecial]
    by_cases hexponent : unpackExponent word = 0#8
    · rw [if_pos hexponent]
      by_cases hmantissa : unpackMantissa word = 0#23
      · rw [dif_pos hmantissa]
        exact packComponents_of_fields hexponent hmantissa
      · rw [dif_neg hmantissa]
        refine (pack_subnormal _ ?_).trans (packComponents_of_fields hexponent rfl)
        rw [hexponent]
        rfl
    · rw [if_neg hexponent]
      exact (pack_normal _ rfl hspecial).trans (packComponents_of_fields rfl rfl)

theorem ofBits_toBits (x : Float32) : Float32.ofBits x.toBits = x := by
  obtain ⟨⟨bits, hvalid⟩⟩ := x
  have hbits : UInt32.ofBitVec (pack .binary32 (unpack .binary32 bits.toBitVec)) = bits :=
    congrArg UInt32.ofBitVec (pack_unpack hvalid)
  have hmodel (other : UInt32) (hother : Format.binary32.Valid other.toBitVec)
      (heq : other = bits) : Float32.ofModel ⟨other, hother⟩ = ⟨⟨bits, hvalid⟩⟩ := by
    subst heq
    rfl
  exact hmodel _ _ hbits

end MapAlgebra.Double
