import Mathlib
import RayTracer.Proofs.Binary.ExactNumbers

/-! Binary64 arithmetic where nothing is rounded away. Sums, differences, products and halves of integers in units
of a power of two are exact where they are such integers of at most fifty-three bits again, and so are the roots
of squares. -/

namespace RayTracer.Binary

open Float.Model Format UnpackedFloat

variable {units other exponent : ℤ}

/-- Twice as many units of half the size are the same number. -/
theorem dyadic_double (h : Fits units exponent) (hDouble : Fits (units * 2) (exponent - 1)) :
    dyadic (units * 2) (exponent - 1) = dyadic units exponent := by
  have hOne := normalize_zeros h.few h.low 1
  have hSame := normalize_zeros hDouble.few hDouble.low 0
  simp only [pow_one, Nat.cast_one, pow_zero, mul_one, Nat.cast_zero, sub_zero] at hOne hSame
  rw [dyadic, dyadic, ← hOne, hSame]

/-- In a unit that is small enough for the mantissa of a number, the number is its integer followed by zeros. -/
theorem apply_decreaseExponent {zeros : ℕ} (hZeros : spare units.natAbs ≤ zeros) :
    (signOf (decide (units < 0))).apply ((decreaseExponent (units.natAbs * 2 ^ spare units.natAbs)
      (exponent - spare units.natAbs) (exponent - zeros)).1 : ℤ) = units * 2 ^ zeros := by
  have hShift : (exponent - (spare units.natAbs : ℤ) - (exponent - zeros)).toNat =
      zeros - spare units.natAbs := by omega
  simp only [decreaseExponent, hShift, Nat.shiftLeft_eq]
  rw [Nat.mul_assoc, ← Nat.pow_add, Nat.add_sub_cancel' hZeros, apply_signOf_mul, Nat.cast_pow, Nat.cast_ofNat]

/-- Of two numbers in the same units, the one with more spare zeros has the lower exponent. -/
theorem min_exponents (units other exponent : ℤ) :
    min (exponent - (spare units.natAbs : ℤ)) (exponent - spare other.natAbs) =
      exponent - (max (spare units.natAbs) (spare other.natAbs) : ℕ) := by omega

/-- Sums of placed numbers are placed, since both are shifted by spare zeros only. -/
theorem add_placed (hSum : Fits (units + other) exponent) :
    UnpackedFloat.add binary64 (placed units exponent) (placed other exponent) = placed (units + other) exponent := by
  by_cases hUnits : units = 0 <;> by_cases hOther : other = 0
  · rw [hUnits, hOther]
    rfl
  · rw [hUnits, zero_add, placed_zero, placed_of_ne hOther]
    rfl
  · rw [hOther, add_zero, placed_zero, placed_of_ne hUnits]
    rfl
  · rw [placed_of_ne hUnits, placed_of_ne hOther, UnpackedFloat.add]
    simp only [min_exponents, apply_decreaseExponent (le_max_left _ _), apply_decreaseExponent (le_max_right _ _)]
    rw [← add_mul]
    exact normalize_zeros hSum.few hSum.low _

theorem neg_placed (hUnits : units ≠ 0) (exponent : ℤ) :
    (placed units exponent).neg = placed (-units) exponent := by
  have hSign : -signOf (decide (units < 0)) = signOf (decide (-units < 0)) := by
    rcases lt_or_gt_of_ne hUnits with hNegative | hPositive
    · rw [decide_eq_true hNegative, decide_eq_false (by omega)]
      rfl
    · rw [decide_eq_false hPositive.not_gt, decide_eq_true (by omega)]
      rfl
  simp only [placed_of_ne hUnits, placed_of_ne (neg_ne_zero.mpr hUnits), UnpackedFloat.neg, hSign, Int.natAbs_neg]

theorem sub_placed (hDifference : Fits (units - other) exponent) :
    UnpackedFloat.sub binary64 (placed units exponent) (placed other exponent) = placed (units - other) exponent := by
  by_cases hUnits : units = 0 <;> by_cases hOther : other = 0
  · rw [hUnits, hOther]
    rfl
  · rw [hUnits, zero_sub, placed_zero, ← neg_placed hOther, placed_of_ne hOther]
    rfl
  · rw [hOther, sub_zero, placed_zero, placed_of_ne hUnits]
    rfl
  · rw [placed_of_ne hUnits, placed_of_ne hOther, UnpackedFloat.sub]
    simp only [min_exponents, apply_decreaseExponent (le_max_left _ _), apply_decreaseExponent (le_max_right _ _)]
    rw [← sub_mul]
    exact normalize_zeros hDifference.few hDifference.low _

/-- The sum is exact where it fits. -/
theorem dyadic_add (hLeft : Fits units exponent) (hRight : Fits other exponent) (hSum : Fits (units + other) exponent) :
    dyadic units exponent + dyadic other exponent = dyadic (units + other) exponent := by
  change Float.ofModel (.pack (UnpackedFloat.add binary64 _ _)) = _
  rw [unpack_dyadic hLeft, unpack_dyadic hRight, add_placed hSum, dyadic]

theorem dyadic_sub (hLeft : Fits units exponent) (hRight : Fits other exponent)
    (hDifference : Fits (units - other) exponent) :
    dyadic units exponent - dyadic other exponent = dyadic (units - other) exponent := by
  change Float.ofModel (.pack (UnpackedFloat.sub binary64 _ _)) = _
  rw [unpack_dyadic hLeft, unpack_dyadic hRight, sub_placed hDifference, dyadic]

/-- A product has at least as many bits as its factors together, but for one. -/
theorem log2_add_log2_le {left right : ℕ} (hLeft : 0 < left) (hRight : 0 < right) :
    left.log2 + right.log2 ≤ (left * right).log2 := by
  rw [Nat.le_log2 (by positivity), Nat.pow_add]
  exact Nat.mul_le_mul (Nat.log2_self_le (Nat.ne_of_gt hLeft)) (Nat.log2_self_le (Nat.ne_of_gt hRight))

/-- Signs multiply as the integers do. -/
theorem signOf_mul (hUnits : units ≠ 0) (hOther : other ≠ 0) :
    signOf (decide (units < 0)) * signOf (decide (other < 0)) = signOf (decide (units * other < 0)) := by
  rcases lt_or_gt_of_ne hUnits with hUnits | hUnits <;> rcases lt_or_gt_of_ne hOther with hOther | hOther
  · rw [decide_eq_true hUnits, decide_eq_true hOther, decide_eq_false (mul_pos_of_neg_of_neg hUnits hOther).not_gt]
    rfl
  · rw [decide_eq_true hUnits, decide_eq_false hOther.not_gt, decide_eq_true (mul_neg_of_neg_of_pos hUnits hOther)]
    rfl
  · rw [decide_eq_false hUnits.not_gt, decide_eq_true hOther, decide_eq_true (mul_neg_of_pos_of_neg hUnits hOther)]
    rfl
  · rw [decide_eq_false hUnits.not_gt, decide_eq_false hOther.not_gt, decide_eq_false (mul_pos hUnits hOther).not_gt]
    rfl

/-- The mantissas of two numbers have more zeros behind them than their product needs. -/
theorem mul_placed {scale : ℤ} (hUnits : units ≠ 0) (hOther : other ≠ 0)
    (hProduct : Fits (units * other) (exponent + scale)) :
    UnpackedFloat.mul binary64 (placed units exponent) (placed other scale) =
      placed (units * other) (exponent + scale) := by
  have hNonzero := mul_ne_zero hUnits hOther
  have hPos : 0 < (units * other).natAbs := Int.natAbs_pos.mpr hNonzero
  have hBits := log2_add_log2_le (Int.natAbs_pos.mpr hUnits) (Int.natAbs_pos.mpr hOther)
  have hTop := log2_le_of_lt hPos hProduct.few
  rw [← Int.natAbs_mul] at hBits
  obtain ⟨zeros, hZeros⟩ : ∃ zeros, spare units.natAbs + spare other.natAbs =
      spare (units * other).natAbs + zeros := Nat.exists_eq_add_of_le (by simp only [spare]; omega)
  have hMantissa : units.natAbs * 2 ^ spare units.natAbs * (other.natAbs * 2 ^ spare other.natAbs) =
      (units * other).natAbs * 2 ^ spare (units * other).natAbs * 2 ^ zeros := by
    rw [Nat.mul_mul_mul_comm, ← Int.natAbs_mul, ← Nat.pow_add, hZeros, Nat.pow_add, Nat.mul_assoc]
  have hExponent : exponent - (spare units.natAbs : ℤ) + (scale - (spare other.natAbs : ℤ)) =
      exponent + scale - (spare (units * other).natAbs : ℤ) - (zeros : ℤ) := by omega
  rw [placed_of_ne hUnits, placed_of_ne hOther, placed_of_ne hNonzero, UnpackedFloat.mul]
  simp only [signOf_mul hUnits hOther, hMantissa, hExponent]
  have hLow := hProduct.low
  exact roundWithAccuracy_zeros _ (by positivity) (hProduct.log2_placed hNonzero) (by rw [spare]; omega) zeros

/-- A square is exact where it fits. -/
theorem dyadic_square {twice : ℤ} (hUnits : Fits units exponent) (hTwice : exponent + exponent = twice)
    (hSquare : Fits (units * units) twice) :
    dyadic units exponent * dyadic units exponent = dyadic (units * units) twice := by
  change Float.ofModel (.pack (UnpackedFloat.mul binary64 _ _)) = _
  rw [unpack_dyadic hUnits]
  by_cases hZero : units = 0
  · rw [hZero]
    rfl
  · subst hTwice
    rw [mul_placed hZero hZero hSquare, dyadic]

/-- A quotient by two has one more bit than it needs. -/
theorem divCore_two {mantissa : ℕ} {exponent : ℤ} (hTop : mantissa.log2 = 52) (hLow : -1072 ≤ exponent) :
    divCore binary64 mantissa exponent (2 ^ 52) (-51) = (mantissa * 2 ^ 1, exponent - 2, .exact) := by
  have hTarget : min (exponent - -51)
      (binary64.targetExponent (totalExponent mantissa exponent - totalExponent (2 ^ 52) (-51))) = exponent - 2 := by
    rw [targetExponent, totalExponent, totalExponent, hTop, Nat.log2_two_pow]
    simp only [minExponent, mantissaBits]
    omega
  have hShift : (exponent - -51 - (exponent - 2)).toNat = 53 := by omega
  have hQuotient : mantissa * 2 ^ 53 / 2 ^ 52 = mantissa * 2 ^ 1 := by omega
  have hRest : mantissa * 2 ^ 53 % 2 ^ 52 = 0 := by omega
  rw [divCore, hTarget, hShift, Nat.shiftLeft_eq, hQuotient, hRest]
  rfl

/-- Halving counts in half the unit. -/
theorem div_placed_two (hUnits : units ≠ 0) (hNumber : Fits units exponent) (hLow : -1020 ≤ exponent) :
    UnpackedFloat.div binary64 (placed units exponent) (.finite .positive (2 ^ 52) (-51) (by decide)) =
      placed units (exponent - 1) := by
  have hTop := hNumber.log2_placed hUnits
  have hSpare : spare units.natAbs ≤ 52 := Nat.sub_le _ _
  have hSign (sign : Sign) : sign / .positive = sign := by cases sign <;> rfl
  have hExponent : exponent - (spare units.natAbs : ℤ) - 2 =
      exponent - 1 - (spare units.natAbs : ℤ) - ((1 : ℕ) : ℤ) := by omega
  rw [placed_of_ne hUnits, placed_of_ne hUnits, UnpackedFloat.div, divCore_two hTop (by omega)]
  simp only [hSign, hExponent]
  exact roundWithAccuracy_zeros _ (by positivity) hTop (by omega) 1

theorem unpack_two : (2.0 : Float).toModel.unpack = .finite .positive (2 ^ 52) (-51) (by decide) := rfl

/-- A half has the same mantissa and an exponent less by one, as long as there is one. -/
theorem dyadic_half (hNumber : Fits units exponent) (hLow : -1020 ≤ exponent) :
    dyadic units exponent / 2.0 = dyadic units (exponent - 1) := by
  change Float.ofModel (.pack (UnpackedFloat.div binary64 _ _)) = _
  rw [unpack_dyadic hNumber, unpack_two]
  by_cases hUnits : units = 0
  · rw [hUnits]
    rfl
  · rw [div_placed_two hUnits hNumber hLow, dyadic]

/-- Whole numbers of at most fifty-three bits are read as they are. -/
theorem ofNat_eq_dyadic {count : ℕ} (hCount : count < 2 ^ 53) : Float.ofNat count = dyadic count 0 := by
  have hFits : Fits count 0 := { few := by omega }
  have hWord : count.toUInt64.toNat = count := by
    rw [Nat.toUInt64, UInt64.toNat_ofNat']
    omega
  have hPlaced : UnpackedFloat.normalize binary64 count 0 .positive = placed count 0 := by
    have hZeros := normalize_zeros hFits.few hFits.low 0
    rwa [pow_zero, mul_one, Nat.cast_zero, sub_zero] at hZeros
  have hWhole : count.toUInt64.toFloat = dyadic count 0 := by
    change Float.ofModel (.pack (UnpackedFloat.normalize binary64 count.toUInt64.toNat 0 .positive)) = _
    rw [hWord, hPlaced, dyadic]
  have hPowers : Float.ofNat count = count.toUInt64.toFloat * dyadic 1 0 := by
    change Float.ofScientific count false 0 = _
    rw [Float.ofScientific, dif_pos ⟨hCount, by decide⟩]
    rfl
  rw [hPowers, hWhole]
  change Float.ofModel (.pack (UnpackedFloat.mul binary64 _ _)) = _
  rw [unpack_dyadic hFits, unpack_dyadic { few := by decide }]
  by_cases hZero : count = 0
  · rw [hZero]
    rfl
  · have hProduct : Fits (count * 1) (0 + 0) := by rwa [mul_one, add_zero]
    rw [mul_placed (by omega) one_ne_zero hProduct, mul_one, add_zero, dyadic]

/-- A square is at most twice as long as its root and a bit. -/
theorem log2_mul_self_le {root : ℕ} (hPos : 0 < root) : (root * root).log2 ≤ 2 * root.log2 + 1 := by
  have hHigh : root < 2 ^ (root.log2 + 1) := Nat.lt_log2_self
  have hPower : 2 ^ (2 * root.log2 + 2) = 2 ^ (root.log2 + 1) * 2 ^ (root.log2 + 1) := by ring
  rw [← Nat.lt_succ_iff, Nat.log2_lt (by positivity), hPower]
  exact Nat.mul_lt_mul'' hHigh hHigh

/-- The root of a square has more bits than it needs, and nothing is left of the square. -/
theorem sqrtCore_square {root : ℕ} (hPos : 0 < root) (hFew : root * root < 2 ^ 53) :
    ∃ zeros : ℕ, sqrtCore binary64 (root * root * 2 ^ spare (root * root)) (0 - (spare (root * root) : ℤ)) =
      (root * 2 ^ spare root * 2 ^ zeros, 0 - (spare root : ℤ) - zeros, .exact) := by
  have hSquare : 0 < root * root := by positivity
  have hTop := log2_mul_spare hSquare hFew
  have hBits := log2_mul_self_le hPos
  have hSpare : spare (root * root) ≤ 52 := Nat.sub_le _ _
  have hTarget : min ((0 - (spare (root * root) : ℤ)).ediv 2)
      (binary64.targetExponent ((totalExponent (root * root * 2 ^ spare (root * root))
        (0 - (spare (root * root) : ℤ)) + 1).ediv 2)) = -((26 + (spare (root * root) + 1) / 2 : ℕ) : ℤ) := by
    rw [targetExponent, totalExponent, hTop]
    simp only [minExponent, mantissaBits]
    change min ((0 - (spare (root * root) : ℤ)) / 2)
      (max ((((52 : ℕ) : ℤ) + 1 + (0 - (spare (root * root) : ℤ)) + 1) / 2 - _) _) = _
    omega
  obtain ⟨zeros, hZeros⟩ : ∃ zeros, 26 + (spare (root * root) + 1) / 2 = spare root + zeros :=
    Nat.exists_eq_add_of_le (by simp only [spare] at hSpare ⊢; omega)
  have hShift : (0 - (spare (root * root) : ℤ) - 2 * -((spare root + zeros : ℕ) : ℤ)).toNat =
      2 * (spare root + zeros) - spare (root * root) := by omega
  have hRadicand : root * root * 2 ^ spare (root * root) * 2 ^ (2 * (spare root + zeros) - spare (root * root)) =
      (root * 2 ^ spare root * 2 ^ zeros) * (root * 2 ^ spare root * 2 ^ zeros) := by
    rw [Nat.mul_assoc (root * root), ← Nat.pow_add, Nat.add_sub_cancel' (by omega)]
    ring
  have hExponent : -((spare root + zeros : ℕ) : ℤ) = 0 - (spare root : ℤ) - zeros := by omega
  refine ⟨zeros, ?_⟩
  rw [sqrtCore, hTarget, hZeros, hShift, Nat.shiftLeft_eq, hRadicand, Nat.sqrt_eq, Nat.sub_self, hExponent]
  rfl

/-- The root of a placed square is found without a remainder. -/
theorem sqrt_placed {root : ℕ} (hPos : 0 < root) (hFew : root * root < 2 ^ 53) :
    UnpackedFloat.sqrt binary64 (placed (root * root : ℕ) 0) = placed root 0 := by
  have hSquare : 0 < root * root := by positivity
  have hRoot : root < 2 ^ 53 := (Nat.le_mul_self root).trans_lt hFew
  have hSpare : spare root ≤ 52 := Nat.sub_le _ _
  obtain ⟨zeros, hCore⟩ := sqrtCore_square hPos hFew
  rw [placed_of_ne (by omega), placed_of_ne (by omega)]
  simp only [Int.natAbs_natCast, decide_eq_false (Int.natCast_nonneg _).not_gt]
  change (let (m, e, acc) := sqrtCore binary64 (root * root * 2 ^ spare (root * root)) (0 - (spare (root * root) : ℤ))
    roundWithAccuracy binary64 .positive m e acc) = _
  rw [hCore]
  exact roundWithAccuracy_zeros .positive (by positivity) (log2_mul_spare hPos hRoot) (by omega) zeros

/-- The root of a square is exact. -/
theorem sqrt_dyadic {root : ℕ} (hFew : root * root < 2 ^ 53) :
    Float.sqrt (dyadic (root * root : ℕ) 0) = dyadic root 0 := by
  change Float.ofModel (.pack (UnpackedFloat.sqrt binary64 _)) = _
  rw [unpack_dyadic { few := by omega }]
  rcases Nat.eq_zero_or_pos root with rfl | hPos
  · rfl
  · rw [sqrt_placed hPos hFew, dyadic]

end RayTracer.Binary
