import Mathlib
import Dialogue.Number.Basic

/-!
# Counts are exact

A number of single precision gives its bits back unless they stand for no number (`toBits_ofBits`), so a finite number
gives its code back (`toBinary_ofBinary`). Rounding leaves a count of at most 24 bits as it is and no bit of it is
behind the point, so every count up to `2 ^ 24` comes back from the number nearest to it (`toCount_ofNat`).
-/

namespace Dialogue.Number

open Float.Model (Format.binary32)
open Float.Model.UnpackedFloat (Sign packComponents unpackSign unpackExponent unpackMantissa pack unpack)

/-! ## Bits -/

theorem packComponents_parts (b : BitVec Format.binary32.numBits) :
    packComponents Format.binary32 (Sign.ofBitVec (unpackSign b)) (unpackExponent b) (unpackMantissa b) = b := by
  have hs : ∀ s : BitVec 1, (Sign.ofBitVec s).toBitVec = s := by decide
  simp only [packComponents, hs, unpackSign, unpackExponent, unpackMantissa, BitVec.extractLsb]
  ext i hi
  grind

/-- Bits without an exponent. -/
theorem pack_subnormal (sign : Sign) (m : BitVec 23) (hm : 0 < m.toNat) :
    pack Format.binary32 (.finite sign m.toNat (-149) hm) = packComponents Format.binary32 sign 0#8 m := by
  have hlt : m.toNat < 2 ^ 23 := m.isLt
  have hlog : m.toNat.log2 < 23 := (Nat.log2_lt (Nat.ne_of_gt hm)).2 hlt
  have hbits : Format.binary32.mantissaBits = 24 := rfl
  have hbias : Format.binary32.exponentBias = 127 := rfl
  simp only [pack, hbits, hbias]
  rw [if_neg (by omega), if_neg (by omega), BitVec.ofNat_toNat, BitVec.setWidth_eq]

/-- Bits with an exponent, which have one bit more before those of the mantissa. -/
theorem pack_normal (sign : Sign) (e : BitVec 8) (m : BitVec 23) (he : e.toNat < 255)
    (hm : 0 < (1#1 ++ m).toNat) : pack Format.binary32 (.finite sign (1#1 ++ m).toNat ((e.toNat : Int) - 150) hm) =
      packComponents Format.binary32 sign e m := by
  have hlt : m.toNat < 2 ^ 23 := m.isLt
  have hv : (1#1 ++ m).toNat = 8388608 + m.toNat := by
    rw [BitVec.toNat_append, ← Nat.shiftLeft_add_eq_or_of_lt hlt]
    rfl
  have hlog : (8388608 + m.toNat).log2 = 23 := by
    rw [Nat.log2_eq_iff (by omega)]
    omega
  have hbits : Format.binary32.mantissaBits = 24 := rfl
  have hbias : Format.binary32.exponentBias = 127 := rfl
  have hexp : ((e.toNat : Int) - 150 + (127 : Nat) + (23 : Nat)).toNat = e.toNat := by omega
  simp only [pack, hv, hlog, hbits, hbias, hexp]
  rw [if_neg (by omega), if_pos trivial, BitVec.ofNat_toNat, BitVec.setWidth_eq]
  congr 1
  rw [← BitVec.toNat_inj, BitVec.toNat_ofNat]
  omega

/-- Bits that stand for a number are kept. -/
theorem pack_unpack (b : BitVec Format.binary32.numBits) (h : unpackExponent b ≠ -1#_) :
    pack Format.binary32 (unpack Format.binary32 b) = b := by
  conv_rhs => rw [← packComponents_parts b]
  unfold unpack
  dsimp only
  rw [if_neg h]
  split
  · rename_i h₀
    rw [h₀]
    split
    · rename_i hm
      rw [hm]
      rfl
    · rename_i hm
      exact pack_subnormal _ _ _
  · have hne : (unpackExponent b).toNat ≠ 255 := fun hh => h (BitVec.toNat_inj.1 hh)
    have hlt : (unpackExponent b).toNat < 256 := (unpackExponent b).isLt
    exact pack_normal _ _ _ (by omega) _

/-- The bits of a number are the ones it was made of. -/
theorem toBits_ofBits {bits : UInt32} (h : bits.toNat / 8388608 % 256 ≠ 255) :
    (Float32.ofBits bits).toBits = bits := by
  have hexponent : (unpackExponent (show BitVec Format.binary32.numBits from bits.toBitVec)).toNat =
      bits.toNat / 8388608 % 256 := by
    simp [unpackExponent, Nat.shiftRight_eq_div_pow]
  have hne : unpackExponent (show BitVec Format.binary32.numBits from bits.toBitVec) ≠ -1#_ := by
    intro hh
    rw [hh] at hexponent
    exact h hexponent.symm
  show UInt32.ofBitVec (pack Format.binary32 (unpack Format.binary32 bits.toBitVec)) = bits
  rw [pack_unpack _ hne]

/-- **A finite number without a sign gives its code back.** -/
theorem toBinary_ofBinary {code : Nat} (h : code < single.infinity) :
    toBinary (ofBinary ⟨false, code⟩) = ⟨false, code⟩ := by
  have h : code < 2139095040 := h
  have hn : (UInt32.ofNat (0 + code)).toNat = code := by
    rw [UInt32.toNat_ofNat']
    omega
  have hs : signBit = 2147483648 := rfl
  simp only [toBinary, ofBinary, Bool.false_eq_true, if_false]
  rw [toBits_ofBits (by omega), hn, Nat.mod_eq_of_lt (by omega)]
  simp
  omega

/-! ## Counts -/

theorem floorLog_one {n : Nat} (hn : n ≠ 0) : floorLog n 1 = n.log2 := by
  have h := Nat.log2_self_le hn
  have h₁ : Nat.log2 1 = 0 := by decide
  simp only [floorLog, h₁]
  rw [if_neg]
  · simp
  · simpa [Nat.shiftLeft_eq] using h

/-- The code nearest to a count of up to 24 bits, by the number of its bits. -/
theorem round_of_lt {n : Nat} (hn : n ≠ 0) (hlt : n < 16777216) :
    single.round n 1 = (126 + n.log2) * 8388608 + n * 2 ^ (23 - n.log2) ∧
      8388608 ≤ n * 2 ^ (23 - n.log2) ∧ n * 2 ^ (23 - n.log2) < 16777216 := by
  have hlog : n.log2 < 24 := (Nat.log2_lt hn).2 hlt
  have hm : 8388608 ≤ n * 2 ^ (23 - n.log2) ∧ n * 2 ^ (23 - n.log2) < 16777216 := by
    constructor
    · calc 8388608 = 2 ^ n.log2 * 2 ^ (23 - n.log2) := by
            rw [← Nat.pow_add, Nat.add_sub_cancel' (by omega)]
        _ ≤ n * 2 ^ (23 - n.log2) := Nat.mul_le_mul_right _ (Nat.log2_self_le hn)
    · calc n * 2 ^ (23 - n.log2) < 2 ^ (n.log2 + 1) * 2 ^ (23 - n.log2) :=
            Nat.mul_lt_mul_of_pos_right Nat.lt_log2_self (Nat.two_pow_pos _)
        _ = 16777216 := by
            rw [← Nat.pow_add, show n.log2 + 1 + (23 - n.log2) = 24 by omega]
  refine ⟨?_, hm⟩
  have hleast : single.least = -149 := rfl
  have hfraction : single.fraction = 23 := rfl
  have hspan : single.span = 8388608 := rfl
  have hinf : single.infinity = 2139095040 := rfl
  have hq : max single.least (floorLog n 1 - single.fraction) = (n.log2 : Int) - 23 := by
    rw [floorLog_one hn, hleast, hfraction]
    omega
  have heven : ∀ m : Nat, nearestEven m 1 = m := fun m => by simp [nearestEven, Nat.mod_one]
  have h₁ : (-((n.log2 : Int) - 23)).toNat = 23 - n.log2 := by omega
  have h₂ : ((n.log2 : Int) - 23).toNat = 0 := by omega
  have h₃ : ((n.log2 : Int) - 23 - -149).toNat = 126 + n.log2 := by omega
  rw [Format.round, if_neg hn]
  simp only [hq, h₁, h₂, Nat.shiftLeft_zero, heven]
  simp only [hleast, h₃, hspan, hinf, Nat.shiftLeft_eq]
  generalize n * 2 ^ (23 - n.log2) = m at hm
  exact Nat.min_eq_left (by omega)

theorem significand_round {n : Nat} (hn : n ≠ 0) (hlt : n < 16777216) :
    single.significand (single.round n 1) = (n * 2 ^ (23 - n.log2), (n.log2 : Int) - 23) ∧
      single.round n 1 < single.infinity := by
  obtain ⟨hr, hm⟩ := round_of_lt hn hlt
  have hlog : n.log2 < 24 := (Nat.log2_lt hn).2 hlt
  have hspan : single.span = 8388608 := rfl
  have hinf : single.infinity = 2139095040 := rfl
  have hleast : single.least = -149 := rfl
  rw [hr]
  constructor
  · rw [Format.significand, hspan, if_neg (by omega), hleast, Prod.mk.injEq]
    omega
  · rw [hinf]
    omega

/-- **A count of up to 24 bits is a magnitude**: the code that is nearest to it has it as its integer part. -/
theorem whole_round {n : Nat} (hn : n ≤ 16777216) {limit : Nat} (hl : n ≤ limit) :
    single.round n 1 < single.infinity ∧ Binary.whole single limit ⟨false, single.round n 1⟩ = n := by
  by_cases h₀ : n = 0
  · subst h₀
    exact ⟨by decide, by simp [Binary.whole, Binary.isNaN, Binary.isFinite, Format.significand, Format.infinity,
      Format.span, single]⟩
  by_cases h₁ : n = 16777216
  · subst h₁
    have hr : single.round 16777216 1 = 1266679808 := by decide
    have hsig : single.significand 1266679808 = (8388608, 1) := by decide
    rw [hr]
    refine ⟨by decide, ?_⟩
    simp only [Binary.whole, Binary.isNaN, Binary.isFinite, hsig, show single.infinity = 2139095040 from rfl]
    simpa using hl
  · have hlt : n < 16777216 := by omega
    obtain ⟨hsig, hinf⟩ := significand_round h₀ hlt
    have hlog : n.log2 < 24 := (Nat.log2_lt h₀).2 hlt
    have hleft : ((n.log2 : Int) - 23).toNat = 0 := by omega
    have hright : (-((n.log2 : Int) - 23)).toNat = 23 - n.log2 := by omega
    refine ⟨hinf, ?_⟩
    simp only [Binary.whole, Binary.isNaN, Binary.isFinite, hsig, hleft, hright, hinf, decide_true, if_true,
      Nat.shiftLeft_zero, Nat.shiftRight_eq_div_pow, Nat.mul_div_cancel _ (Nat.two_pow_pos _)]
    simp [Nat.not_lt.2 (Nat.le_of_lt hinf), hl]

/-- **A count comes back from the number nearest to it.** -/
theorem toCount_ofNat {n : Nat} (hn : n ≤ 16777216) : toCount (ofNat n) = n := by
  have hl : n ≤ Text.wordLimit - 1 := Nat.le_trans hn (by decide)
  obtain ⟨hlt, hw⟩ := whole_round hn hl
  rw [toCount, ofNat, toBinary_ofBinary hlt, Binary.truncated, if_neg Bool.false_ne_true, hw]

end Dialogue.Number
