import Mathlib
import RayTracer.Binary.Single

/-! Narrowing to binary32 and widening back. Every binary32 number is a binary64 number, which narrowing maps
back to it, and what is not a number stays none in both directions. -/

namespace RayTracer.Binary

/-- The fields of a word are its quotients and remainders. -/
theorem ofBits_eq (bits : Nat) :
    Parts.ofBits bits =
      if bits / 2 ^ 52 % 2048 = 2047 then
        if bits % 2 ^ 52 = 0 then .infinite (decide (2 ^ 63 ≤ bits)) else .notANumber
      else if bits / 2 ^ 52 % 2048 = 0 then .finite (decide (2 ^ 63 ≤ bits)) (bits % 2 ^ 52) (-1074)
      else .finite (decide (2 ^ 63 ≤ bits)) (2 ^ 52 + bits % 2 ^ 52)
        (((bits / 2 ^ 52 % 2048 : Nat) : Int) - 1075) := by
  simp only [Parts.ofBits, Nat.shiftRight_eq_div_pow]
  rfl

/-- The cases of widening: infinity, no number, zero, subnormal and normal numbers. -/
theorem widenMagnitude_eq (magnitude : Nat) :
    widenMagnitude magnitude =
      if magnitude / 2 ^ 23 = 255 then
        if magnitude % 2 ^ 23 = 0 then 2047 * 2 ^ 52
        else 2047 * 2 ^ 52 + 2 ^ 51 + magnitude % 2 ^ 23 % 2 ^ 22 * 2 ^ 29
      else if magnitude / 2 ^ 23 = 0 then
        if magnitude % 2 ^ 23 = 0 then 0 else normalBits (magnitude % 2 ^ 23) (-149)
      else normalBits (2 ^ 23 + magnitude % 2 ^ 23) (((magnitude / 2 ^ 23 : Nat) : Int) - 150) := by
  simp only [widenMagnitude, Nat.shiftRight_eq_div_pow, Nat.shiftLeft_eq, one_mul]

/-- The bits of a normal number are its biased exponent and its mantissa without the highest bit. -/
theorem normalBits_eq (mantissa : Nat) (exponent : Int) :
    normalBits mantissa exponent =
      (exponent + mantissa.log2 + 1023).toNat * 2 ^ 52 +
        (mantissa - 2 ^ mantissa.log2) * 2 ^ (52 - mantissa.log2) := by
  simp only [normalBits, Nat.shiftLeft_eq, one_mul]

theorem narrowMagnitude_eq (mantissa : Nat) (exponent : Int) :
    narrowMagnitude mantissa exponent =
      if mantissa = 0 then 0
      else
        let last : Int := max (exponent + (mantissa.log2 : Int) - 23) (-149)
        min ((last + 149).toNat * 2 ^ 23 +
          (if last ≤ exponent then mantissa * 2 ^ (exponent - last).toNat
            else Decimal.roundQuotient mantissa (2 ^ (last - exponent).toNat))) (255 * 2 ^ 23) := by
  simp only [narrowMagnitude, singleInfinity, Nat.shiftLeft_eq, one_mul]

/-- A quotient without a remainder is not rounded. -/
theorem roundQuotient_mul {denominator : Nat} (quotient : Nat) (h : 0 < denominator) :
    Decimal.roundQuotient (quotient * denominator) denominator = quotient := by
  simp [Decimal.roundQuotient, Nat.mul_div_cancel quotient h, h]

/-- The leading bit of a number with at most fifty-three bits, moved to its place, is the implied one. -/
theorem shifted_mantissa {mantissa : Nat} (hPos : 0 < mantissa) (hTop : mantissa.log2 ≤ 52) :
    2 ^ 52 + (mantissa - 2 ^ mantissa.log2) * 2 ^ (52 - mantissa.log2) =
        mantissa * 2 ^ (52 - mantissa.log2) ∧
      (mantissa - 2 ^ mantissa.log2) * 2 ^ (52 - mantissa.log2) < 2 ^ 52 := by
  have hLow := Nat.log2_self_le (Nat.ne_of_gt hPos)
  have hHigh : mantissa < 2 ^ (mantissa.log2 + 1) := Nat.lt_log2_self
  have hSplit : 2 ^ mantissa.log2 * 2 ^ (52 - mantissa.log2) = 2 ^ 52 := by
    rw [← Nat.pow_add, Nat.add_sub_cancel' hTop]
  constructor
  · rw [Nat.sub_mul, hSplit, Nat.add_sub_cancel']
    calc
      2 ^ 52 = 2 ^ mantissa.log2 * 2 ^ (52 - mantissa.log2) := hSplit.symm
      _ ≤ mantissa * 2 ^ (52 - mantissa.log2) := Nat.mul_le_mul_right _ hLow
  · calc
      (mantissa - 2 ^ mantissa.log2) * 2 ^ (52 - mantissa.log2)
          < 2 ^ mantissa.log2 * 2 ^ (52 - mantissa.log2) :=
        Nat.mul_lt_mul_of_pos_right (by omega) (Nat.two_pow_pos _)
      _ = 2 ^ 52 := hSplit

/-- The fields of the binary64 number with a mantissa that fits: the mantissa moved to its place. -/
theorem ofBits_normalBits (negative : Bool) {mantissa : Nat} {exponent : Int} (hPos : 0 < mantissa)
    (hTop : mantissa.log2 ≤ 52) (hLow : -1022 ≤ exponent + mantissa.log2)
    (hHigh : exponent + mantissa.log2 ≤ 1023) :
    Parts.ofBits ((if negative then 2 ^ 63 else 0) + normalBits mantissa exponent) =
      .finite negative (mantissa * 2 ^ (52 - mantissa.log2))
        (exponent - (52 - mantissa.log2 : Nat)) := by
  obtain ⟨hMantissa, hFraction⟩ := shifted_mantissa hPos hTop
  rw [normalBits_eq, ofBits_eq, ← hMantissa]
  generalize (mantissa - 2 ^ mantissa.log2) * 2 ^ (52 - mantissa.log2) = fraction at hFraction ⊢
  obtain ⟨biased, hBiased⟩ : ∃ biased : Nat, exponent + mantissa.log2 + 1023 = biased :=
    ⟨_, (Int.toNat_of_nonneg (by omega)).symm⟩
  rw [hBiased, Int.toNat_natCast]
  have hExponent : ((if negative then 2 ^ 63 else 0) + (biased * 2 ^ 52 + fraction)) / 2 ^ 52 % 2048 =
      biased := by
    cases negative <;> simp only [Bool.false_eq_true, ↓reduceIte] <;> omega
  have hRest : ((if negative then 2 ^ 63 else 0) + (biased * 2 ^ 52 + fraction)) % 2 ^ 52 =
      fraction := by
    cases negative <;> simp only [Bool.false_eq_true, ↓reduceIte] <;> omega
  have hSign : decide (2 ^ 63 ≤ (if negative then 2 ^ 63 else 0) + (biased * 2 ^ 52 + fraction)) =
      negative := by
    cases negative <;> simp only [Bool.false_eq_true, ↓reduceIte, decide_eq_true_eq,
      decide_eq_false_iff_not] <;> omega
  rw [hExponent, hRest, hSign, if_neg (by omega), if_neg (by omega)]
  congr 1
  omega

/-- A number that has a place among the binary32 numbers is narrowed without rounding. -/
theorem narrowMagnitude_exact {mantissa : Nat} {exponent : Int} (hPos : 0 < mantissa)
    (hTop : mantissa.log2 ≤ 23) (hLow : -149 ≤ exponent) :
    let last : Int := max (exponent + mantissa.log2 - 23) (-149)
    narrowMagnitude (mantissa * 2 ^ (52 - mantissa.log2)) (exponent - (52 - mantissa.log2 : Nat)) =
      min ((last + 149).toNat * 2 ^ 23 + mantissa * 2 ^ (exponent - last).toNat) (255 * 2 ^ 23) := by
  intro last
  have hLast : last ≤ exponent := by omega
  have hShifted : mantissa * 2 ^ (52 - mantissa.log2) ≠ 0 :=
    Nat.mul_ne_zero (Nat.ne_of_gt hPos) (Nat.ne_of_gt (Nat.two_pow_pos _))
  have hLog : (mantissa * 2 ^ (52 - mantissa.log2)).log2 = 52 := by
    have hBelow := Nat.log2_self_le (Nat.ne_of_gt hPos)
    have hAbove : mantissa < 2 ^ (mantissa.log2 + 1) := Nat.lt_log2_self
    have hSplit : mantissa.log2 + (52 - mantissa.log2) = 52 := by omega
    rw [Nat.log2_eq_iff hShifted]
    constructor
    · calc
        2 ^ 52 = 2 ^ mantissa.log2 * 2 ^ (52 - mantissa.log2) := by rw [← Nat.pow_add, hSplit]
        _ ≤ mantissa * 2 ^ (52 - mantissa.log2) := Nat.mul_le_mul_right _ hBelow
    · calc
        mantissa * 2 ^ (52 - mantissa.log2) < 2 ^ (mantissa.log2 + 1) * 2 ^ (52 - mantissa.log2) :=
          Nat.mul_lt_mul_of_pos_right hAbove (Nat.two_pow_pos _)
        _ = 2 ^ (52 + 1) := by rw [← Nat.pow_add]; congr 1; omega
  have hPlace : max (exponent - (52 - mantissa.log2 : Nat) + (52 : Nat) - 23) (-149) = last := by omega
  have hQuotient : mantissa * 2 ^ (52 - mantissa.log2) =
      mantissa * 2 ^ (exponent - last).toNat *
        2 ^ (last - (exponent - (52 - mantissa.log2 : Nat))).toNat := by
    rw [Nat.mul_assoc, ← Nat.pow_add]
    congr 2
    omega
  rw [narrowMagnitude_eq, if_neg hShifted, hLog]
  simp only [hPlace]
  rw [if_neg (by omega), hQuotient, roundQuotient_mul _ (Nat.two_pow_pos _)]

/-- What the magnitude of a binary32 number widens to. -/
inductive Widened : Nat → Nat → Prop
  | zero : Widened 0 0
  /-- A number of at most twenty-four significant bits, counted in units of the last place. -/
  | number {mantissa : Nat} {exponent last : Int} (hPos : 0 < mantissa) (hTop : mantissa.log2 ≤ 23)
      (hLow : -149 ≤ exponent) (hHigh : exponent + mantissa.log2 ≤ 127)
      (hLast : last = max (exponent + mantissa.log2 - 23) (-149)) :
      Widened ((last + 149).toNat * 2 ^ 23 + mantissa * 2 ^ (exponent - last).toNat)
        (normalBits mantissa exponent)
  | infinite : Widened (255 * 2 ^ 23) (2047 * 2 ^ 52)
  | notANumber {magnitude wide : Nat} (hNarrow : 255 * 2 ^ 23 < magnitude)
      (hWide : 2047 * 2 ^ 52 + 2 ^ 51 ≤ wide) (hBits : wide < 2 ^ 63) : Widened magnitude wide

/-- Every magnitude is widened in one of these ways. -/
theorem widened_widenMagnitude {magnitude : Nat} (h : magnitude < 2 ^ 31) :
    Widened magnitude (widenMagnitude magnitude) := by
  have hSplit := Nat.div_add_mod magnitude (2 ^ 23)
  have hFraction := Nat.mod_lt magnitude (Nat.two_pow_pos 23)
  rw [widenMagnitude_eq]
  generalize hBiasedIs : magnitude / 2 ^ 23 = biased at hSplit ⊢
  generalize hFractionIs : magnitude % 2 ^ 23 = fraction at hSplit hFraction ⊢
  by_cases hTopBiased : biased = 255
  · by_cases hNone : fraction = 0
    · have hMagnitude : magnitude = 255 * 2 ^ 23 := by omega
      rw [if_pos hTopBiased, if_pos hNone, hMagnitude]
      exact Widened.infinite
    · rw [if_pos hTopBiased, if_neg hNone]
      exact Widened.notANumber (by omega) (by omega) (by omega)
  · by_cases hSmall : biased = 0
    · by_cases hNone : fraction = 0
      · have hMagnitude : magnitude = 0 := by omega
        rw [if_neg hTopBiased, if_pos hSmall, if_pos hNone, hMagnitude]
        exact Widened.zero
      · have hLog : fraction.log2 < 23 := (Nat.log2_lt hNone).mpr hFraction
        have hMagnitude : magnitude = ((-149 : Int) + 149).toNat * 2 ^ 23 +
            fraction * 2 ^ ((-149 : Int) - -149).toNat := by
          simp
          omega
        rw [if_neg hTopBiased, if_pos hSmall, if_neg hNone, hMagnitude]
        exact Widened.number (Nat.pos_of_ne_zero hNone) (by omega) (by omega) (by omega) (by omega)
    · have hLog : (2 ^ 23 + fraction).log2 = 23 := by
        rw [Nat.log2_eq_iff (by omega)]
        omega
      have hMagnitude : magnitude = ((biased : Int) - 150 + 149).toNat * 2 ^ 23 +
          (2 ^ 23 + fraction) * 2 ^ ((biased : Int) - 150 - (biased - 150)).toNat := by
        simp
        omega
      rw [if_neg hTopBiased, if_neg hSmall, hMagnitude]
      exact Widened.number (by omega) (by omega) (by omega) (by omega) (by omega)

/-- The significant bits of a binary32 number, in units of the last place, are at most twenty-four. -/
private theorem units_lt {mantissa : Nat} {exponent last : Int}
    (hLast : last = max (exponent + mantissa.log2 - 23) (-149)) (hTop : mantissa.log2 ≤ 23) :
    mantissa * 2 ^ (exponent - last).toNat < 2 ^ 24 := by
  have hAbove : mantissa < 2 ^ (mantissa.log2 + 1) := Nat.lt_log2_self
  calc
    mantissa * 2 ^ (exponent - last).toNat
        < 2 ^ (mantissa.log2 + 1) * 2 ^ (exponent - last).toNat :=
      Nat.mul_lt_mul_of_pos_right hAbove (Nat.two_pow_pos _)
    _ = 2 ^ (mantissa.log2 + 1 + (exponent - last).toNat) := (Nat.pow_add 2 _ _).symm
    _ ≤ 2 ^ 24 := Nat.pow_le_pow_right (by decide) (by omega)

/-- Only what is not a number widens to what is not a number, and none widens beyond a magnitude. -/
theorem Widened.bounds {magnitude wide : Nat} (h : Widened magnitude wide) :
    wide < 2 ^ 63 ∧ (255 * 2 ^ 23 < magnitude ↔ 2047 * 2 ^ 52 < wide) := by
  cases h with
  | zero => decide
  | @number mantissa exponent last hPos hTop hLow hHigh hLast =>
      have hFraction := (shifted_mantissa hPos (by omega)).2
      have hUnits := units_lt hLast hTop
      have hWide : normalBits mantissa exponent < 2047 * 2 ^ 52 := by
        rw [normalBits_eq]
        omega
      omega
  | infinite => decide
  | notANumber hNarrow hWide hBits => omega

theorem toNat_withSign (negative : Bool) {magnitude : Nat} (h : magnitude < 2 ^ 31) :
    (withSign negative magnitude).toNat = (if negative then 2 ^ 31 else 0) + magnitude := by
  have hSize : UInt32.size / 2 = 2 ^ 31 := by decide
  cases negative <;> simp only [withSign, hSize, Bool.false_eq_true, ↓reduceIte, UInt32.toNat_ofNat'] <;>
    omega

/-- A word is its sign and its magnitude. -/
theorem withSign_eq_self (word : UInt32) :
    withSign (decide (2 ^ 31 ≤ word.toNat)) (word.toNat % 2 ^ 31) = word := by
  have hWord := word.toNat_lt
  apply UInt32.toNat_inj.mp
  rw [toNat_withSign _ (Nat.mod_lt _ (Nat.two_pow_pos 31))]
  by_cases hSign : 2 ^ 31 ≤ word.toNat <;> simp only [hSign, decide_true, decide_false,
    Bool.false_eq_true, ↓reduceIte] <;> omega

/-- Widening keeps the sign and widens the magnitude. -/
theorem toNat_bits_widen (word : UInt32) :
    (widen word).bits.toNat =
      (if decide (2 ^ 31 ≤ word.toNat) then 2 ^ 63 else 0) + widenMagnitude (word.toNat % 2 ^ 31) := by
  have hHalf : UInt32.size / 2 = 2 ^ 31 := by decide
  have hWhole : UInt64.size / 2 = 2 ^ 63 := by decide
  have hMagnitude := (widened_widenMagnitude (Nat.mod_lt word.toNat (Nat.two_pow_pos 31))).bounds.1
  by_cases hSign : 2 ^ 31 ≤ word.toNat <;> simp only [widen, hHalf, hWhole, hSign, decide_true,
    decide_false, Bool.false_eq_true, ↓reduceIte, UInt64.toNat_ofNat'] <;> omega

/-- What is no number has a magnitude above that of infinity. -/
theorem isNaN_eq (x : Double) : x.isNaN = decide (2047 * 2 ^ 52 < x.bits.toNat % 2 ^ 63) := by
  have hMagnitude : x.magnitudeBits.toNat = x.bits.toNat % 2 ^ 63 := by
    have hMask : (~~~Double.signBit).toNat = 2 ^ 63 - 1 := by decide
    rw [Double.magnitudeBits, UInt64.toNat_and, hMask, Nat.and_two_pow_sub_one_eq_mod]
  have hInfinity : Double.infinityBits.toNat = 2047 * 2 ^ 52 := by decide
  rw [Double.isNaN, decide_eq_decide, UInt64.lt_iff_toNat_lt, hMagnitude, hInfinity]

/-- Widening leaves numbers numbers, and what is none stays none. -/
theorem isNaN_widen (word : UInt32) :
    (widen word).isNaN = decide (255 * 2 ^ 23 < word.toNat % 2 ^ 31) := by
  have hBounds := (widened_widenMagnitude (Nat.mod_lt word.toNat (Nat.two_pow_pos 31))).bounds
  rw [isNaN_eq, toNat_bits_widen, decide_eq_decide, hBounds.2]
  by_cases hSign : 2 ^ 31 ≤ word.toNat <;> simp only [hSign, decide_true, decide_false,
    Bool.false_eq_true, ↓reduceIte] <;> omega

/-- A binary32 number is narrowed to the word that it was widened from. -/
theorem narrow_widen {word : UInt32} (hNumber : (widen word).isNaN = false) :
    narrow (widen word) = word := by
  rw [isNaN_widen, decide_eq_false_iff_not] at hNumber
  have hWidened := widened_widenMagnitude (Nat.mod_lt word.toNat (Nat.two_pow_pos 31))
  have hWord := withSign_eq_self word
  unfold narrow
  simp only [toNat_bits_widen]
  generalize decide (2 ^ 31 ≤ word.toNat) = negative at hWord ⊢
  generalize word.toNat % 2 ^ 31 = magnitude at hNumber hWidened hWord ⊢
  generalize widenMagnitude magnitude = wide at hWidened ⊢
  cases hWidened with
  | zero =>
      have hFields : Parts.ofBits ((if negative then 2 ^ 63 else 0) + 0) =
          .finite negative 0 (-1074) := by
        cases negative <;> rfl
      rw [hFields, ← hWord]
      rfl
  | @number mantissa exponent last hPos hTop hLow hHigh hLast =>
      have hUnits := units_lt hLast hTop
      rw [ofBits_normalBits negative hPos (by omega) (by omega) (by omega)]
      simp only [narrowMagnitude_exact hPos hTop hLow, ← hLast]
      rw [min_eq_left (by omega), hWord]
  | infinite =>
      have hFields : Parts.ofBits ((if negative then 2 ^ 63 else 0) + 2047 * 2 ^ 52) =
          .infinite negative := by
        cases negative <;> rfl
      rw [hFields, ← hWord]
      rfl
  | notANumber hNarrow hWide hBits => exact absurd hNarrow hNumber

/-- The numbers that binary32 has as well. -/
def IsSingle (x : Double) : Prop := x.isNaN = false ∧ ∃ word, widen word = x

/-- A binary64 number that is one of binary32 survives narrowing. -/
theorem widen_narrow {x : Double} (hSingle : IsSingle x) : widen (narrow x) = x := by
  obtain ⟨hNumber, word, rfl⟩ := hSingle
  rw [narrow_widen hNumber]

theorem ofBits_eq_notANumber_iff {x : Double} :
    Parts.ofBits x.bits.toNat = .notANumber ↔ x.isNaN = true := by
  have hBits := x.bits.toNat_lt
  rw [isNaN_eq, decide_eq_true_eq, ofBits_eq]
  by_cases hTop : x.bits.toNat / 2 ^ 52 % 2048 = 2047
  · by_cases hNone : x.bits.toNat % 2 ^ 52 = 0
    · simp only [hTop, hNone, ↓reduceIte, reduceCtorEq, false_iff]
      omega
    · simp only [hTop, hNone, ↓reduceIte, true_iff]
      omega
  · by_cases hSmall : x.bits.toNat / 2 ^ 52 % 2048 = 0
    · simp only [hSmall, OfNat.zero_ne_ofNat, ↓reduceIte, reduceCtorEq, false_iff]
      omega
    · simp only [hTop, hSmall, ↓reduceIte, reduceCtorEq, false_iff]
      omega

/-- What is not a number stays none on the way to binary32 and back. -/
theorem isNaN_widen_narrow {x : Double} (hNaN : x.isNaN = true) : (widen (narrow x)).isNaN = true := by
  have hFields := ofBits_eq_notANumber_iff.mpr hNaN
  have hPayload : narrowPayload x.bits.toNat =
      255 * 2 ^ 23 + 2 ^ 22 + x.bits.toNat / 2 ^ 29 % 2 ^ 22 := by
    simp only [narrowPayload, singleInfinity, Nat.shiftRight_eq_div_pow, Nat.shiftLeft_eq, one_mul]
  have hWord : (narrow x).toNat % 2 ^ 31 = narrowPayload x.bits.toNat := by
    simp only [narrow, hFields]
    rw [toNat_withSign _ (by omega)]
    split <;> omega
  rw [isNaN_widen, decide_eq_true_eq, hWord]
  omega

/-- Numbers are narrowed to words of numbers, the largest of them infinite. -/
theorem toNat_narrow_le {x : Double} (hNumber : x.isNaN = false) :
    (narrow x).toNat % 2 ^ 31 ≤ 255 * 2 ^ 23 := by
  have hSigned (negative : Bool) {magnitude : Nat} (h : magnitude ≤ 255 * 2 ^ 23) :
      (withSign negative magnitude).toNat % 2 ^ 31 ≤ 255 * 2 ^ 23 := by
    rw [toNat_withSign _ (by omega)]
    split <;> omega
  have hSmall (mantissa : Nat) (exponent : Int) : narrowMagnitude mantissa exponent ≤ 255 * 2 ^ 23 := by
    rw [narrowMagnitude_eq]
    split
    · exact Nat.zero_le _
    · exact min_le_right _ _
  cases hFields : Parts.ofBits x.bits.toNat with
  | notANumber =>
      rw [ofBits_eq_notANumber_iff.mp hFields] at hNumber
      cases hNumber
  | infinite negative =>
      simp only [narrow, hFields]
      exact hSigned negative le_rfl
  | finite negative mantissa exponent =>
      simp only [narrow, hFields]
      exact hSigned negative (hSmall mantissa exponent)

end RayTracer.Binary
