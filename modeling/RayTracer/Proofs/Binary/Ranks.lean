import Mathlib
import RayTracer.Scalar

/-! The order of binary64 numbers. What is not a number stands in no comparison; everything else, the
infinities and the two equal zeros included, has a rank in one linear order, and comparing numbers is
comparing ranks. -/

namespace RayTracer.Binary

open Float.Model UnpackedFloat

/-- A rank: the class of a number from negative infinity over zero to positive infinity, then its exponent
and its mantissa, both counted downwards below zero. -/
abbrev Rank : Type := ℤ ×ₗ ℤ ×ₗ ℤ

def Rank.mk (place exponent mantissa : ℤ) : Rank := toLex (place, toLex (exponent, mantissa))

/-- The rank of a number. What is not a number has none, and the value here is not used. -/
def unpackedRank : UnpackedFloat → Rank
  | .infinity .negative => .mk (-2) 0 0
  | .finite .negative mantissa exponent _ => .mk (-1) (-exponent) (-mantissa)
  | .zero _ => .mk 0 0 0
  | .finite .positive mantissa exponent _ => .mk 1 exponent mantissa
  | .infinity .positive => .mk 2 0 0
  | .notANumber => .mk 0 0 0

/-- Ranks are compared part by part, the sign first. -/
theorem Rank.compare_mk (p q e f m n : ℤ) :
    compare (Rank.mk p e m) (Rank.mk q f n) = (compare p q).then ((compare e f).then (compare m n)) := rfl

theorem compare_natCast (m n : ℕ) : compare (m : ℤ) (n : ℤ) = compare m n := by
  rw [← cmp_eq_compare, ← cmp_eq_compare]
  exact Nat.strictMono_cast.cmp_map_eq m n

/-- Opposite numbers are in the opposite order. -/
theorem compare_neg (m n : ℤ) : compare (-m) (-n) = (compare m n).swap := by
  have hAnti : StrictAnti (fun k : ℤ => -k) := fun _ _ hLt => neg_lt_neg hLt
  rw [← cmp_eq_compare, ← cmp_eq_compare, cmp_swap]
  exact hAnti.cmp_map_eq m n

/-- Numbers compare as their ranks do. Only two finite numbers of one sign need more than their classes:
there the exponents come before the mantissas. -/
theorem compare_eq {a b : UnpackedFloat} (ha : a.isNaN = false) (hb : b.isNaN = false) :
    a.compare b = some (compare (unpackedRank a) (unpackedRank b)) := by
  rcases a with (_ | _) | _ | _ | ⟨_ | _, m, e, _⟩ <;> rcases b with (_ | _) | _ | _ | ⟨_ | _, n, f, _⟩
  -- Below zero a greater exponent or mantissa makes a lesser number.
  case finite.negative.finite.negative =>
    simp only [unpackedRank, Rank.compare_mk, compare_neg, compare_natCast]
    change _ = some ((compare e f).swap.then (compare m n).swap)
    rw [← Ordering.swap_then]
    rfl
  case finite.positive.finite.positive =>
    simp only [unpackedRank, Rank.compare_mk, compare_natCast]
    rfl
  all_goals first
    | rfl
    | exact absurd ha (by decide)
    | exact absurd hb (by decide)

theorem eq_notANumber {a : UnpackedFloat} (h : a.isNaN = true) : a = .notANumber := by
  cases a with
  | notANumber => rfl
  | infinity => cases h
  | zero => cases h
  | finite => cases h

/-- What is not a number stands in no comparison. -/
theorem compare_eq_none {a b : UnpackedFloat} (h : a.isNaN = true ∨ b.isNaN = true) :
    a.compare b = none := by
  rcases h with ha | hb
  · rw [eq_notANumber ha]
    rfl
  · rw [eq_notANumber hb]
    cases a with
    | notANumber => rfl
    | infinity sign => cases sign <;> rfl
    | zero => rfl
    | finite sign => cases sign <;> rfl

/-- What a comparison of two floats finds, given by their ranks. -/
theorem compare_eq_some_iff {a b : UnpackedFloat} {order : Ordering} :
    a.compare b = some order ↔
      a.isNaN = false ∧ b.isNaN = false ∧ compare (unpackedRank a) (unpackedRank b) = order := by
  by_cases h : a.isNaN = true ∨ b.isNaN = true
  · rw [compare_eq_none h]
    rcases h with ha | hb
    · simp [ha]
    · simp [hb]
  · obtain ⟨ha, hb⟩ := not_or.mp h
    rw [Bool.not_eq_true] at ha hb
    rw [compare_eq ha hb]
    simp [ha, hb]

def rank (x : Float) : Rank := unpackedRank x.toModel.unpack

/-- To be less is to be a number of a lower rank. -/
theorem lt_iff_rank {a b : Float} :
    a < b ↔ a.isNaN = false ∧ b.isNaN = false ∧ rank a < rank b := by
  have hCompare : a < b ↔ a.toModel.unpack.compare b.toModel.unpack = some .lt := by
    change decide (UnpackedFloat.lt _ _ = true) = true ↔ _
    rw [decide_eq_true_eq, UnpackedFloat.lt, beq_iff_eq]
  rw [hCompare, compare_eq_some_iff, compare_lt_iff_lt]
  rfl

/-- To be at most is to be a number of no higher rank. -/
theorem le_iff_rank {a b : Float} :
    a ≤ b ↔ a.isNaN = false ∧ b.isNaN = false ∧ rank a ≤ rank b := by
  have hCompare : a ≤ b ↔ ∃ order, a.toModel.unpack.compare b.toModel.unpack = some order ∧
      order.isLE = true := by
    change decide (UnpackedFloat.le _ _ = true) = true ↔ _
    rw [decide_eq_true_eq, UnpackedFloat.le, Option.any_eq_true]
  rw [hCompare]
  constructor
  · rintro ⟨order, hOrder, hLe⟩
    obtain ⟨ha, hb, rfl⟩ := compare_eq_some_iff.mp hOrder
    exact ⟨ha, hb, compare_le_iff_le.mp (Ordering.ne_gt_iff_isLE.mpr hLe)⟩
  · rintro ⟨ha, hb, hRank⟩
    exact ⟨_, compare_eq_some_iff.mpr ⟨ha, hb, rfl⟩, Ordering.ne_gt_iff_isLE.mp (compare_le_iff_le.mpr hRank)⟩

/-- Equal values have one rank: the two zeros share theirs. -/
theorem beq_iff_rank {a b : Float} :
    (a == b) = true ↔ a.isNaN = false ∧ b.isNaN = false ∧ rank a = rank b := by
  have hCompare : (a == b) = true ↔ a.toModel.unpack.compare b.toModel.unpack = some .eq := by
    change UnpackedFloat.beq _ _ = true ↔ _
    rw [UnpackedFloat.beq, beq_iff_eq]
  rw [hCompare, compare_eq_some_iff, compare_eq_iff_eq]
  rfl

theorem not_lt_of_isNaN {a c : Float} (h : a.isNaN = true) : ¬c < a := by
  intro hLess
  exact absurd (lt_iff_rank.mp hLess).2.1 (ne_false_of_eq_true h)

/-- What lies below the larger of two numbers lies below one of them, also where one is not a number. -/
theorem lt_larger_iff {a b c : Float} : c < Scalar.larger a b ↔ c < a ∨ c < b := by
  have hLarger : Scalar.larger a b =
      if a.isNaN then b else if b.isNaN then a else if a < b then b else a := rfl
  rw [hLarger]
  cases hLeft : a.isNaN with
  | true => simp only [↓reduceIte, not_lt_of_isNaN hLeft, false_or]
  | false =>
      cases hRight : b.isNaN with
      | true => simp only [Bool.false_eq_true, ↓reduceIte, not_lt_of_isNaN hRight, or_false]
      | false =>
          by_cases hLess : a < b
          · have hRank := (lt_iff_rank.mp hLess).2.2
            simp only [Bool.false_eq_true, hLess, ↓reduceIte]
            refine ⟨Or.inr, ?_⟩
            rintro (hBelow | hBelow)
            · obtain ⟨hNumber, -, hBelow⟩ := lt_iff_rank.mp hBelow
              exact lt_iff_rank.mpr ⟨hNumber, hRight, hBelow.trans hRank⟩
            · exact hBelow
          · have hRank : rank b ≤ rank a := by
              by_contra hAbove
              exact hLess (lt_iff_rank.mpr ⟨hLeft, hRight, not_le.mp hAbove⟩)
            simp only [Bool.false_eq_true, hLess, ↓reduceIte]
            refine ⟨Or.inl, ?_⟩
            rintro (hBelow | hBelow)
            · exact hBelow
            · obtain ⟨hNumber, -, hBelow⟩ := lt_iff_rank.mp hBelow
              exact lt_iff_rank.mpr ⟨hNumber, hLeft, hBelow.trans_le hRank⟩

end RayTracer.Binary
