import Mathlib
import RayTracer.Binary.Parts
import RayTracer.Proofs.Binary.Narrowing
import RayTracer.Proofs.Exact.Reals

/-! Truncation of binary64 numbers to counts. The fields of a finite number write a real number, and what it is
truncated to is the whole part of that, kept within the words; an infinity becomes the nearest word and what is
not a number becomes zero. -/

namespace RayTracer.Binary

open Float.Model Format UnpackedFloat

/-- The real number that the fields of a finite number write. -/
noncomputable def realOf (negative : Bool) (mantissa : ℕ) (exponent : ℤ) : ℝ :=
  (if negative then -1 else 1) * (mantissa * ((2 : ℕ) : ℝ) ^ exponent)

/-- The index among so many that a number stands for: its whole part, towards zero, kept from zero to the last
index. What is not a number stands for zero. -/
noncomputable def Parts.indexBelow (extent : ℕ) : Parts → ℤ
  | .notANumber => 0
  | .infinite negative => if negative then 0 else extent - 1
  | .finite negative mantissa exponent =>
      max 0 (min (wholePart (realOf negative mantissa exponent)) (extent - 1))

/-- An index below a great extent that is kept below a lesser one is the index below that. -/
theorem Parts.min_indexBelow {extent limit : ℕ} (hPos : 0 < extent) (hLimit : extent ≤ limit) (parts : Parts) :
    min (parts.indexBelow limit) (extent - 1) = parts.indexBelow extent := by
  cases parts with
  | notANumber =>
      simp only [indexBelow]
      omega
  | infinite negative =>
      cases negative <;> simp only [indexBelow, Bool.false_eq_true, ↓reduceIte] <;> omega
  | finite negative mantissa exponent =>
      simp only [indexBelow]
      omega

/-- The whole part of a scaled mantissa is what shifts in either direction leave of it. -/
theorem floor_scaled (mantissa : ℕ) (exponent : ℤ) :
    ⌊(mantissa : ℝ) * 2 ^ exponent⌋ = ((mantissa * 2 ^ exponent.toNat / 2 ^ (-exponent).toNat : ℕ) : ℤ) := by
  have hScaled : (mantissa : ℝ) * 2 ^ exponent =
      ((mantissa * 2 ^ exponent.toNat : ℕ) : ℝ) / ((2 ^ (-exponent).toNat : ℕ) : ℝ) := by
    rcases le_total 0 exponent with hUp | hDown
    · obtain ⟨count, rfl⟩ := Int.eq_ofNat_of_zero_le hUp
      simp
    · obtain ⟨count, hCount⟩ := Int.eq_ofNat_of_zero_le (neg_nonneg.mpr hDown)
      obtain rfl : exponent = -(count : ℤ) := by omega
      simp [div_eq_mul_inv]
  rw [hScaled, Int.floor_div_natCast, Int.floor_natCast]
  rfl

/-- Shifting drops the low bits of the mantissa. -/
theorem mantissa_shiftRight (extended : ExtendedMantissa) (count : ℕ) :
    (extended >>> count).mantissa = extended.mantissa / 2 ^ count := by
  induction count with
  | zero => simp [HShiftRight.hShiftRight, Nat.repeat]
  | succ count ih =>
      change (extended >>> count).mantissa / 2 = _
      rw [ih, Nat.div_div_eq_div_mul, pow_succ]

/-- The sign of fields that state whether a number is negative. -/
def signOf (negative : Bool) : Sign := if negative then .negative else .positive

/-- Rounding toward zero is taking the whole part of the real number. -/
theorem roundToInt_signOf (negative : Bool) (mantissa : ℕ) (exponent : ℤ) :
    roundToInt (signOf negative) mantissa exponent = wholePart (realOf negative mantissa exponent) := by
  have hShifts : roundToInt (signOf negative) mantissa exponent =
      (signOf negative).apply ⌊(mantissa : ℝ) * 2 ^ exponent⌋ := by
    have hCount : (0 - (exponent - (exponent.toNat : ℤ))).toNat = (-exponent).toNat := by omega
    simp only [floor_scaled, roundToInt, decreaseExponent, shiftToExponent, mantissa_shiftRight, sub_zero, hCount,
      Nat.shiftLeft_eq, ExtendedMantissa.ofMantissaAndAccuracy]
  have hPos : (0 : ℝ) ≤ mantissa * 2 ^ exponent := by positivity
  rw [hShifts, wholePart, realOf, Nat.cast_ofNat]
  cases negative with
  | false => simp [signOf, Sign.apply, hPos]
  | true =>
      simp only [signOf, Sign.apply, ↓reduceIte, neg_mul, one_mul, Int.ceil_neg]
      split
      next hNotNegative =>
          have hZero : (mantissa * 2 ^ exponent : ℝ) = 0 := by linarith
          simp [hZero]
      next => rfl

theorem wholePart_realOf_zero (negative : Bool) (exponent : ℤ) : wholePart (realOf negative 0 exponent) = 0 := by
  rw [realOf, Nat.cast_zero, zero_mul, mul_zero, wholePart, if_pos le_rfl, Int.floor_zero]

section Fields

variable (word : BitVec binary64.numBits)

theorem ofBitVec_unpackSign :
    Sign.ofBitVec (@unpackSign binary64 word) = signOf (decide (2 ^ 63 ≤ word.toNat)) := by
  have hWord : word.toNat < 2 ^ 64 := word.isLt
  have hBit : (@unpackSign binary64 word).toNat = word.toNat / 2 ^ 63 := by
    simp only [unpackSign, BitVec.toNat_cast, BitVec.extractLsb_toNat, Nat.shiftRight_eq_div_pow]
    omega
  have hSign : @unpackSign binary64 word = 0#1 ↔ ¬2 ^ 63 ≤ word.toNat := by
    rw [← BitVec.toNat_inj, hBit, BitVec.toNat_zero]
    omega
  by_cases hNegative : 2 ^ 63 ≤ word.toNat
  · rw [Sign.ofBitVec, if_neg fun hZero => hSign.mp hZero hNegative, decide_eq_true hNegative]
    rfl
  · rw [Sign.ofBitVec, if_pos (hSign.mpr hNegative), decide_eq_false hNegative]
    rfl

/-- The mantissa is in the lowest 52 bits. -/
theorem toNat_unpackMantissa : (@unpackMantissa binary64 word).toNat = word.toNat % 2 ^ 52 := by
  simp [unpackMantissa]

theorem toNat_unpackExponent : (@unpackExponent binary64 word).toNat = word.toNat / 2 ^ 52 % 2048 := by
  simp [unpackExponent, Nat.shiftRight_eq_div_pow]

theorem toNat_append_one {width : ℕ} (fraction : BitVec width) :
    (1#1 ++ fraction).toNat = 2 ^ width + fraction.toNat := by
  rw [BitVec.toNat_append, ← Nat.shiftLeft_add_eq_or_of_lt fraction.isLt]
  simp [Nat.shiftLeft_eq]

/-- What a word is truncated to is told by its fields. -/
theorem toInt_unpack (low high : ℤ) :
    (UnpackedFloat.unpack binary64 word).toInt low high =
      match Parts.ofBits word.toNat with
      | .notANumber => 0
      | .infinite negative => if negative then low else high
      | .finite negative mantissa exponent => wholePart (realOf negative mantissa exponent) := by
  have hBias : ((binary64.exponentBias : ℕ) : ℤ) = 1023 := rfl
  have hTop : @unpackExponent binary64 word = -1#11 ↔ word.toNat / 2 ^ 52 % 2048 = 2047 := by
    rw [← BitVec.toNat_inj, toNat_unpackExponent]
    rfl
  have hBottom : @unpackExponent binary64 word = 0#11 ↔ word.toNat / 2 ^ 52 % 2048 = 0 := by
    rw [← BitVec.toNat_inj, toNat_unpackExponent]
    rfl
  have hNone : @unpackMantissa binary64 word = 0#52 ↔ word.toNat % 2 ^ 52 = 0 := by
    rw [← BitVec.toNat_inj, toNat_unpackMantissa]
    rfl
  rw [UnpackedFloat.unpack, ofBits_eq]
  simp only [hTop, hBottom, hNone, ofBitVec_unpackSign, toNat_append_one, toNat_unpackMantissa,
    toNat_unpackExponent, hBias, ← roundToInt_signOf]
  by_cases hInfinite : word.toNat / 2 ^ 52 % 2048 = 2047
  · simp only [if_pos hInfinite]
    by_cases hZero : word.toNat % 2 ^ 52 = 0
    · simp only [if_pos hZero]
      cases decide (2 ^ 63 ≤ word.toNat) <;> rfl
    · simp only [if_neg hZero, toInt]
  · simp only [if_neg hInfinite]
    by_cases hSmall : word.toNat / 2 ^ 52 % 2048 = 0
    · rw [if_pos hSmall, if_pos hSmall]
      by_cases hZero : word.toNat % 2 ^ 52 = 0
      -- A zero is a number of its own when unpacked, and a mantissa of zero among the fields.
      · rw [dif_pos hZero]
        simp only [toInt, hZero, roundToInt_signOf, wholePart_realOf_zero]
      · rw [dif_neg hZero]
        simp only [toInt, hSmall]
        rfl
    · simp only [if_neg hSmall, toInt]
      rfl

end Fields

/-- Numbers that do not fit into a word become the greatest one. -/
theorem toNat_ofNatClamp (n : ℕ) : (UInt64.ofNatClamp n).toNat = min n (UInt64.size - 1) := by
  unfold UInt64.ofNatClamp
  split <;> rw [UInt64.toNat_ofNatLT] <;> omega

/-- A number is truncated to the index that it stands for among all words. -/
theorem truncateNat_eq (x : Float) :
    ((Scalar.truncateNat x : ℕ) : ℤ) = (Parts.ofFloat x).indexBelow UInt64.size := by
  have hClamped : Scalar.truncateNat x =
      min ((UnpackedFloat.unpack binary64 x.toBits.toBitVec).toInt 0 (UInt64.size - 1)).toNat
        (UInt64.size - 1) := toNat_ofNatClamp _
  have hSize : UInt64.size = 2 ^ 64 := rfl
  rw [hClamped, toInt_unpack, UInt64.toNat_toBitVec, Parts.ofFloat]
  cases Parts.ofBits x.toBits.toNat with
  | notANumber => rfl
  | infinite negative => cases negative <;> rfl
  | finite negative mantissa exponent =>
      simp only [Parts.indexBelow]
      omega

end RayTracer.Binary
