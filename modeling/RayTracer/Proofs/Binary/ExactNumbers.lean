import Mathlib
import RayTracer.Proofs.Binary.Truncation

/-! Integers as binary64 numbers. An integer of at most fifty-three bits, counted in units of a power of two, is a
binary64 number: its mantissa is the integer with zeros behind it, and rounding takes none but zeros away. The
bits of such numbers are in the order of the integers, and counts are read back from them as they are. -/

namespace RayTracer.Binary

open Float.Model Format UnpackedFloat

/-- Zeros behind a number make it longer by as many bits. -/
theorem log2_mul_two_pow {mantissa : ℕ} (hPos : 0 < mantissa) (zeros : ℕ) :
    (mantissa * 2 ^ zeros).log2 = mantissa.log2 + zeros := by
  have hLow := Nat.log2_self_le (Nat.ne_of_gt hPos)
  have hHigh : mantissa < 2 ^ (mantissa.log2 + 1) := Nat.lt_log2_self
  rw [Nat.log2_eq_iff (by positivity), Nat.pow_add, Nat.add_right_comm, Nat.pow_add 2 (mantissa.log2 + 1)]
  exact ⟨Nat.mul_le_mul_right _ hLow, Nat.mul_lt_mul_of_pos_right hHigh (Nat.two_pow_pos _)⟩

/-- A number below two to the power of 53 has its highest bit at 52 or lower. -/
theorem log2_le_of_lt {mantissa : ℕ} (hPos : 0 < mantissa) (hFew : mantissa < 2 ^ 53) : mantissa.log2 ≤ 52 :=
  Nat.lt_succ_iff.mp ((Nat.log2_lt (Nat.ne_of_gt hPos)).mpr hFew)

/-- Shifting out zeros leaves nothing to be remembered for rounding. -/
theorem shiftRight_zeros (mantissa zeros : ℕ) :
    (⟨mantissa * 2 ^ zeros, false, false⟩ : ExtendedMantissa) >>> zeros = ⟨mantissa, false, false⟩ := by
  induction zeros generalizing mantissa with
  | zero => simp [HShiftRight.hShiftRight, Nat.repeat]
  | succ zeros ih =>
      have hTwice : mantissa * 2 ^ (zeros + 1) = mantissa * 2 * 2 ^ zeros := by ring
      change ExtendedMantissa.shiftRightOne
        ((⟨mantissa * 2 ^ (zeros + 1), false, false⟩ : ExtendedMantissa) >>> zeros) = _
      rw [hTwice, ih]
      simp [ExtendedMantissa.shiftRightOne]

/-- Shifting to the target exponent takes zeros away and no other bit, so it stays exact. -/
theorem shiftToTargetExponent_zeros {mantissa : ℕ} {exponent : ℤ} (hPos : 0 < mantissa)
    (hTop : mantissa.log2 = 52) (hLow : -1074 ≤ exponent) (zeros : ℕ) :
    shiftToTargetExponent binary64 (mantissa * 2 ^ zeros) (exponent - zeros) .exact =
      (⟨mantissa, false, false⟩, exponent) := by
  have hTarget : binary64.targetExponent (totalExponent (mantissa * 2 ^ zeros) (exponent - zeros)) = exponent := by
    rw [targetExponent, totalExponent, log2_mul_two_pow hPos, hTop]
    simp only [minExponent, mantissaBits]
    omega
  have hShift : (exponent - (exponent - (zeros : ℤ))).toNat = zeros := by omega
  simp only [shiftToTargetExponent, shiftToExponent, hTarget, hShift, ExtendedMantissa.ofMantissaAndAccuracy,
    shiftRight_zeros, sub_add_cancel]

/-- A mantissa that fills its place stays as it is when the zeros behind it are cut off. -/
theorem roundWithAccuracy_zeros (sign : Sign) {mantissa : ℕ} {exponent : ℤ} (hPos : 0 < mantissa)
    (hTop : mantissa.log2 = 52) (hLow : -1074 ≤ exponent) (zeros : ℕ) :
    roundWithAccuracy binary64 sign (mantissa * 2 ^ zeros) (exponent - zeros) .exact =
      .finite sign mantissa exponent hPos := by
  have hAgain := shiftToTargetExponent_zeros hPos hTop hLow 0
  simp only [pow_zero, mul_one, Nat.cast_zero, sub_zero] at hAgain
  have hRounded : (⟨mantissa, false, false⟩ : ExtendedMantissa).roundedMantissa = mantissa := rfl
  simp only [roundWithAccuracy, shiftToTargetExponent_zeros hPos hTop hLow zeros, hRounded, hAgain]
  rw [dif_neg (Nat.ne_of_gt hPos)]

/-- The places between the leading bit of an integer and that of a mantissa that fills its place. -/
def spare (units : ℕ) : ℕ := 52 - units.log2

/-- The zeros that are spare make up a whole mantissa. -/
theorem log2_mul_spare {units : ℕ} (hPos : 0 < units) (hFew : units < 2 ^ 53) :
    (units * 2 ^ spare units).log2 = 52 := by
  have hTop := log2_le_of_lt hPos hFew
  rw [log2_mul_two_pow hPos, spare]
  omega

/-- Rounding takes only zeros away. -/
theorem round_zeros (sign : Sign) {units : ℕ} {exponent : ℤ} (hPos : 0 < units) (hFew : units < 2 ^ 53)
    (hLow : -1022 ≤ exponent) (zeros : ℕ) :
    UnpackedFloat.round binary64 sign (units * 2 ^ zeros) (exponent - zeros) =
      .finite sign (units * 2 ^ spare units) (exponent - spare units) (by positivity) := by
  have hTop := log2_le_of_lt hPos hFew
  have hTarget : binary64.targetExponent (totalExponent (units * 2 ^ zeros) (exponent - zeros)) =
      exponent - spare units := by
    rw [targetExponent, totalExponent, log2_mul_two_pow hPos]
    simp only [minExponent, mantissaBits, spare]
    omega
  have hShift : (exponent - (zeros : ℤ) - (exponent - (spare units : ℤ))).toNat = spare units - zeros := by omega
  -- Zeros are either missing or too many; in both cases there are as many on the left as on the right.
  have hMantissa : units * 2 ^ zeros * 2 ^ (spare units - zeros) =
      units * 2 ^ spare units * 2 ^ (zeros - spare units) := by
    rw [Nat.mul_assoc, Nat.mul_assoc, ← Nat.pow_add, ← Nat.pow_add]
    congr 2
    omega
  have hExponent : exponent - (zeros : ℤ) - ((spare units - zeros : ℕ) : ℤ) =
      exponent - spare units - ((zeros - spare units : ℕ) : ℤ) := by omega
  simp only [UnpackedFloat.round, hTarget, decreaseExponent, hShift, Nat.shiftLeft_eq, hMantissa, hExponent]
  exact roundWithAccuracy_zeros sign _ (log2_mul_spare hPos hFew) (by rw [spare]; omega) _

/-- Integers of at most fifty-three bits, counted in units that are neither too small nor too great for them. -/
structure Fits (units exponent : ℤ) : Prop where
  few : units.natAbs < 2 ^ 53
  low : -1022 ≤ exponent := by omega
  high : exponent ≤ 971 := by omega

/-- An integer in units of a power of two, with its leading bit at the place of the implied one. -/
def placed (units exponent : ℤ) : UnpackedFloat :=
  if h : units = 0 then .zero .positive
  else .finite (signOf (decide (units < 0))) (units.natAbs * 2 ^ spare units.natAbs)
    (exponent - spare units.natAbs) (by positivity)

theorem placed_zero (exponent : ℤ) : placed 0 exponent = .zero .positive := rfl

/-- Anything but zero is placed with its sign and a whole mantissa. -/
theorem placed_of_ne {units : ℤ} (hUnits : units ≠ 0) (exponent : ℤ) :
    placed units exponent =
      .finite (signOf (decide (units < 0))) (units.natAbs * 2 ^ spare units.natAbs)
        (exponent - spare units.natAbs) (by positivity) := dif_neg hUnits

/-- Sign and size make up the integer again. -/
theorem apply_signOf_mul (units : ℤ) (count : ℕ) :
    (signOf (decide (units < 0))).apply ((units.natAbs * count : ℕ) : ℤ) = units * count := by
  rcases lt_or_ge units 0 with hNegative | hPositive
  · simp [signOf, Sign.apply, hNegative, abs_of_neg hNegative]
  · simp [signOf, Sign.apply, hPositive.not_gt, abs_of_nonneg hPositive]

/-- Zeros behind an integer change its unit only. -/
theorem normalize_zeros {units exponent : ℤ} (hFew : units.natAbs < 2 ^ 53) (hLow : -1022 ≤ exponent)
    (zeros : ℕ) :
    UnpackedFloat.normalize binary64 (units * 2 ^ zeros) (exponent - zeros) .positive = placed units exponent := by
  have hPower : (0 : ℤ) < 2 ^ zeros := by positivity
  have hAbs : (units * 2 ^ zeros).natAbs = units.natAbs * 2 ^ zeros := by
    rw [Int.natAbs_mul, Int.natAbs_pow]
    rfl
  rcases lt_trichotomy units 0 with hNegative | rfl | hPositive
  · have hProduct : units * 2 ^ zeros < 0 := Int.mul_neg_of_neg_of_pos hNegative hPower
    have hMantissa : (-(units * 2 ^ zeros)).toNat = units.natAbs * 2 ^ zeros := by omega
    simp only [UnpackedFloat.normalize, compare_lt_iff_lt.mpr hProduct, hMantissa, placed_of_ne hNegative.ne,
      decide_eq_true hNegative]
    exact round_zeros .negative (by omega) hFew hLow zeros
  · rw [zero_mul]
    rfl
  · have hProduct : 0 < units * 2 ^ zeros := Int.mul_pos hPositive hPower
    have hMantissa : (units * 2 ^ zeros).toNat = units.natAbs * 2 ^ zeros := by omega
    simp only [UnpackedFloat.normalize, compare_gt_iff_gt.mpr hProduct, hMantissa, placed_of_ne hPositive.ne',
      decide_eq_false hPositive.not_gt]
    exact round_zeros .positive (by omega) hFew hLow zeros

theorem unpackSign_packComponents {format : Format} (sign : Sign) (exponent : BitVec format.exponentBits)
    (mantissa : BitVec format.mantissaBitsWithoutImplicit) :
    unpackSign (packComponents format sign exponent mantissa) = sign.toBitVec := by
  ext place hPlace
  obtain rfl : place = 0 := by omega
  simp [unpackSign, packComponents, BitVec.getLsbD_append, BitVec.getElem_append]

theorem ofBitVec_toBitVec (sign : Sign) : Sign.ofBitVec sign.toBitVec = sign := by cases sign <;> rfl

/-- A number with a mantissa that fills its place has fields of its own. -/
theorem pack_finite (sign : Sign) {mantissa : ℕ} {exponent : ℤ} (hPos : 0 < mantissa) (hTop : mantissa.log2 = 52)
    (hHigh : exponent ≤ 971) :
    UnpackedFloat.pack binary64 (.finite sign mantissa exponent hPos) =
      packComponents binary64 sign (BitVec.ofNat 11 (exponent + 1075).toNat) (BitVec.ofNat 52 mantissa) := by
  have hBiased : (exponent + ((binary64.exponentBias : ℕ) : ℤ) + ((52 : ℕ) : ℤ)).toNat =
      (exponent + 1075).toNat := by
    have hBias : ((binary64.exponentBias : ℕ) : ℤ) = 1023 := rfl
    omega
  simp only [UnpackedFloat.pack, mantissaBits, hTop, hBiased]
  rw [if_neg (by omega), if_pos trivial]

/-- A finite number with a whole mantissa is unpacked from its bits as it was packed. -/
theorem unpack_pack_finite (sign : Sign) {mantissa : ℕ} {exponent : ℤ} (hPos : 0 < mantissa)
    (hTop : mantissa.log2 = 52) (hLow : -1074 ≤ exponent) (hHigh : exponent ≤ 971) :
    UnpackedFloat.unpack binary64 (UnpackedFloat.pack binary64 (.finite sign mantissa exponent hPos)) =
      .finite sign mantissa exponent hPos := by
  obtain ⟨hAbove, hBelow⟩ := (Nat.log2_eq_iff (Nat.ne_of_gt hPos)).mp hTop
  have hExponent : (BitVec.ofNat 11 (exponent + 1075).toNat).toNat = (exponent + 1075).toNat := by
    rw [BitVec.toNat_ofNat]
    omega
  have hMantissa : (1#1 ++ BitVec.ofNat 52 mantissa).toNat = mantissa := by
    rw [toNat_append_one, BitVec.toNat_ofNat]
    omega
  have hNumber : BitVec.ofNat 11 (exponent + 1075).toNat ≠ -1#11 := by
    rw [ne_eq, ← BitVec.toNat_inj, hExponent]
    change ¬_ = 2047
    omega
  have hNormal : BitVec.ofNat 11 (exponent + 1075).toNat ≠ 0#11 := by
    rw [ne_eq, ← BitVec.toNat_inj, hExponent]
    change ¬_ = 0
    omega
  have hBias : ((binary64.exponentBias : ℕ) : ℤ) = 1023 := rfl
  rw [pack_finite sign hPos hTop hHigh, UnpackedFloat.unpack]
  simp only [unpackExponent_packComponents, unpackMantissa_packComponents, unpackSign_packComponents,
    ofBitVec_toBitVec, if_neg hNumber, if_neg hNormal, hMantissa, hExponent, hBias]
  congr 1
  omega

/-- The binary64 number that is an integer in units of a power of two. -/
def dyadic (units exponent : ℤ) : Float := .ofModel (.pack (placed units exponent))

variable {units other exponent : ℤ}

/-- A number that fits is placed with its highest bit at 52. -/
theorem Fits.log2_placed (h : Fits units exponent) (hUnits : units ≠ 0) :
    (units.natAbs * 2 ^ spare units.natAbs).log2 = 52 := log2_mul_spare (by omega) h.few

/-- The bits of such a number unpack to the number as it was placed. -/
theorem unpack_dyadic (h : Fits units exponent) : (dyadic units exponent).toModel.unpack = placed units exponent := by
  have hLow := h.low
  have hHigh := h.high
  by_cases hUnits : units = 0
  · rw [dyadic, hUnits, placed_zero]
    rfl
  · have hTop := h.log2_placed hUnits
    have hSpare : spare units.natAbs ≤ 52 := Nat.sub_le _ _
    simp only [dyadic, placed_of_ne hUnits]
    exact unpack_pack_finite _ _ hTop (by omega) (by omega)

/-- The exponent stands above the mantissa in the bits of a positive number. -/
theorem toNat_packComponents (exponent : BitVec 11) (mantissa : BitVec 52) :
    (packComponents binary64 .positive exponent mantissa).toNat = exponent.toNat * 2 ^ 52 + mantissa.toNat := by
  have hSign : ((0#1) ++ exponent).toNat = exponent.toNat := by
    rw [BitVec.toNat_append]
    simp
  change ((0#1 ++ exponent) ++ mantissa).toNat = _
  rw [BitVec.toNat_append, hSign, ← Nat.shiftLeft_add_eq_or_of_lt mantissa.isLt, Nat.shiftLeft_eq]

/-- The bits of a positive number that fits, as a count. -/
theorem toNat_toBits_dyadic {count : ℕ} (hPos : 0 < count) (hFits : Fits count exponent) :
    (dyadic count exponent).toBits.toNat = normalBits count exponent := by
  have hFew : count < 2 ^ 53 := hFits.few
  have hTop := log2_le_of_lt hPos hFew
  obtain ⟨hMantissa, hFraction⟩ := shifted_mantissa hPos hTop
  have hLow := hFits.low
  have hHigh := hFits.high
  have hPlaced : placed count exponent =
      .finite .positive (count * 2 ^ spare count) (exponent - spare count) (by positivity) := by
    rw [placed_of_ne (by omega)]
    simp only [Int.natAbs_natCast, decide_eq_false (Int.natCast_nonneg _).not_gt]
    rfl
  change (UnpackedFloat.pack binary64 (placed count exponent)).toNat = _
  rw [hPlaced, pack_finite .positive _ (log2_mul_spare hPos hFew) (by omega), toNat_packComponents, normalBits_eq,
    BitVec.toNat_ofNat, BitVec.toNat_ofNat, spare, ← hMantissa]
  omega

/-- Bits in front come before bits behind them. -/
theorem normalBits_lt {count more : ℕ} (hPos : 0 < count) (hMore : count < more) (hFits : Fits more exponent) :
    normalBits count exponent < normalBits more exponent := by
  have hLow := hFits.low
  have hFew : more < 2 ^ 53 := hFits.few
  have hTop := log2_le_of_lt (hPos.trans hMore) hFew
  have hOrder : count.log2 ≤ more.log2 := by
    rw [Nat.le_log2 (by omega)]
    exact (Nat.log2_self_le (Nat.ne_of_gt hPos)).trans hMore.le
  obtain ⟨-, hFraction⟩ := shifted_mantissa hPos (hOrder.trans hTop)
  rw [normalBits_eq, normalBits_eq]
  rcases hOrder.lt_or_eq with hLess | hSame
  · omega
  · rw [hSame] at hFraction ⊢
    have hLeast := Nat.log2_self_le (Nat.ne_of_gt hPos)
    rw [hSame] at hLeast
    have hFractions := Nat.mul_lt_mul_of_pos_right (show count - 2 ^ more.log2 < more - 2 ^ more.log2 by omega)
      (Nat.two_pow_pos (52 - more.log2))
    omega

/-- A positive number that fits has neither the bits of zero nor those of a negative number. -/
theorem normalBits_bounds {count : ℕ} (hPos : 0 < count) (hFits : Fits count exponent) :
    0 < normalBits count exponent ∧ normalBits count exponent < 2 ^ 63 := by
  have hLow := hFits.low
  have hHigh := hFits.high
  have hTop := log2_le_of_lt hPos hFits.few
  obtain ⟨-, hFraction⟩ := shifted_mantissa hPos hTop
  rw [normalBits_eq]
  omega

/-- The keys of counts are in the order of their bits. -/
theorem orderKey_dyadic {count : ℕ} (hFits : Fits count exponent) :
    orderKey (dyadic count exponent).toBits =
      2 ^ 63 + if count = 0 then 0 else normalBits count exponent := by
  have hHalf : UInt64.size / 2 = 2 ^ 63 := by decide
  rcases Nat.eq_zero_or_pos count with rfl | hPos
  · rfl
  · have hBounds := normalBits_bounds hPos hFits
    rw [orderKey, toNat_toBits_dyadic hPos hFits, hHalf, if_pos hBounds.2, if_neg (by omega)]

/-- Counts in one unit are ranked by themselves. -/
theorem totalLe_dyadic {count other : ℕ} (hCount : Fits count exponent) (hOther : Fits other exponent) :
    Scalar.totalLe (dyadic count exponent) (dyadic other exponent) = decide (count ≤ other) := by
  have hKeys {count more : ℕ} (hMore : Fits more exponent) (hLess : count < more) :
      (if count = 0 then 0 else normalBits count exponent) < if more = 0 then 0 else normalBits more exponent := by
    rw [if_neg (show more ≠ 0 by omega)]
    split
    · exact (normalBits_bounds (by omega) hMore).1
    · exact normalBits_lt (by omega) hLess hMore
  change decide (orderKey _ ≤ orderKey _) = _
  rw [orderKey_dyadic hCount, orderKey_dyadic hOther, decide_eq_decide]
  rcases lt_trichotomy count other with hLess | rfl | hGreater
  · have := hKeys hOther hLess
    omega
  · omega
  · have := hKeys hCount hGreater
    omega

/-- A count is the nearest count to itself. -/
theorem nearestCount_finite {count greatest : ℕ} (hCount : count ≤ greatest) (zeros : ℕ) :
    (Parts.finite false (count * 2 ^ zeros) (-(zeros : ℤ))).nearestCount greatest = count := by
  cases zeros with
  | zero => simp [Parts.nearestCount, hCount]
  | succ zeros =>
      have hBelow : ¬(0 : ℤ) ≤ -((zeros + 1 : ℕ) : ℤ) := by omega
      have hHalf : 2 ^ zeros < 2 ^ (zeros + 1) := Nat.pow_lt_pow_right (by decide) (Nat.lt_succ_self zeros)
      have hQuotient : (count * 2 ^ (zeros + 1) + 2 ^ zeros) / 2 ^ (zeros + 1) = count := by
        rw [Nat.mul_comm, Nat.mul_add_div (by positivity), Nat.div_eq_of_lt hHalf, Nat.add_zero]
      simp only [Parts.nearestCount, Bool.false_eq_true, ↓reduceIte, hBelow, Int.natAbs_neg, Int.natAbs_natCast,
        Nat.add_sub_cancel, Nat.shiftLeft_eq, one_mul, Nat.shiftRight_eq_div_pow, hQuotient, min_eq_left hCount]

/-- A whole number is the count nearest to it. -/
theorem nearestCount_dyadic {count greatest : ℕ} (hFew : count < 2 ^ 53) (hCount : count ≤ greatest) :
    (Parts.ofFloat (dyadic count 0)).nearestCount greatest = count := by
  rcases Nat.eq_zero_or_pos count with rfl | hPos
  · have hFields : Parts.ofFloat (dyadic (0 : ℕ) 0) = .finite false (0 * 2 ^ 1074) (-(1074 : ℕ)) := by
      rw [Nat.zero_mul]
      rfl
    rw [hFields, nearestCount_finite hCount]
  · have hTop := log2_le_of_lt hPos hFew
    have hFields : Parts.ofBits (_ + normalBits count 0) = _ :=
      ofBits_normalBits false hPos hTop (by omega) (by omega)
    simp only [Bool.false_eq_true, ↓reduceIte, Nat.zero_add, zero_sub] at hFields
    rw [Parts.ofFloat, toNat_toBits_dyadic hPos { few := hFew }, hFields, nearestCount_finite hCount]

end RayTracer.Binary
