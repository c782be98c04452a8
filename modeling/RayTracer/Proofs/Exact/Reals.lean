import Mathlib
import RayTracer.Color
import RayTracer.Scalar

/-! Exact arithmetic: the real numbers as numbers to compute with. Sums, products and the functions of
analysis have no error here, there is neither an infinite number nor one that is none, and zero has one
sign. Whole numbers are still kept within the words that hold them. -/

namespace RayTracer

/-- A real number without what is behind its point. -/
noncomputable def wholePart (x : ℝ) : ℤ := if 0 ≤ x then ⌊x⌋ else ⌈x⌉

theorem wholePart_intCast (k : ℤ) : wholePart k = k := by
  rw [wholePart, Int.floor_intCast, Int.ceil_intCast, ite_self]

noncomputable instance : Scalar ℝ where
  toAdd := inferInstance
  toSub := inferInstance
  toMul := inferInstance
  toDiv := inferInstance
  toNeg := inferInstance
  toLT := inferInstance
  toLE := inferInstance
  toOfScientific := inferInstance
  decLt := inferInstance
  decLe := inferInstance
  same := fun x y => decide (x = y)
  ofNat := fun n => (n : ℝ)
  pi := Real.pi
  abs := fun x => |x|
  sqrt := Real.sqrt
  sin := Real.sin
  cos := Real.cos
  acos := Real.arccos
  atan := Real.arctan
  atan2 := fun y x => Complex.arg ⟨x, y⟩
  pow := fun x y => x ^ y
  log10 := Real.logb 10
  floor := fun x => (⌊x⌋ : ℝ)
  larger := max
  smaller := min
  unitSign := fun x => if 0 ≤ x then 1 else -1
  belowInfinity := fun _ => true
  truncate := fun x => max (-2 ^ 63) (min (wholePart x) (2 ^ 63 - 1))
  truncateNat := fun x => min (wholePart x).toNat (UInt64.size - 1)
  truncateByte := fun x => UInt8.ofNat (min (wholePart x).toNat (UInt8.size - 1))
  totalLe := fun x y => decide (x ≤ y)

namespace Scalar

theorem zero_exact : (0.0 : ℝ) = 0 := by norm_num

theorem one_exact : (1.0 : ℝ) = 1 := by norm_num

theorem two_exact : (2.0 : ℝ) = 2 := by norm_num

theorem sqrt_four : √(4 : ℝ) = 2 := by
  rw [show (4 : ℝ) = 2 ^ 2 by norm_num, Real.sqrt_sq two_pos.le]

/-- Numbers that are no cosine have the angle of the nearest one. -/
theorem acos_clamp (x : ℝ) : Scalar.acos (Scalar.clamp (-1.0) 1.0 x) = Real.arccos x := by
  change Real.arccos (Scalar.clamp (-1.0) 1.0 x) = Real.arccos x
  rw [Scalar.clamp, one_exact]
  rcases lt_or_ge x (-1) with hLow | hLow
  · rw [if_pos hLow, if_neg (by norm_num), Real.arccos_neg_one, Real.arccos_of_le_neg_one hLow.le]
  · rw [if_neg hLow.not_gt]
    split
    next hHigh => rw [Real.arccos_one, Real.arccos_of_one_le hHigh.le]
    next => rfl

end Scalar

namespace Color

attribute [ext] Color

theorem black_exact : (black : Color ℝ) = ⟨0, 0, 0⟩ := by
  rw [black]
  norm_num

theorem add_exact (a b : Color ℝ) : a + b = ⟨a.r + b.r, a.g + b.g, a.b + b.b⟩ := rfl

theorem mul_exact (a b : Color ℝ) : a * b = ⟨a.r * b.r, a.g * b.g, a.b * b.b⟩ := rfl

theorem mul_scalar_exact (a : Color ℝ) (k : ℝ) : a * k = ⟨a.r * k, a.g * k, a.b * k⟩ := rfl

theorem add_black (a : Color ℝ) : a + black = a := by
  rw [black_exact, add_exact]
  simp only [add_zero]

theorem add_swap (a b c : Color ℝ) : a + b + c = a + c + b := by
  simp only [add_exact]
  ext <;> ring

theorem maxComponent_exact (a : Color ℝ) : a.maxComponent = max (max a.r a.g) a.b := rfl

/-- A color without negative channels has no positive one only when it is black. -/
theorem eq_black_of_not_pos {a : Color ℝ} (hRed : 0 ≤ a.r) (hGreen : 0 ≤ a.g) (hBlue : 0 ≤ a.b)
    (hNotPos : ¬0 < a.maxComponent) : a = ⟨0, 0, 0⟩ := by
  rw [maxComponent_exact, not_lt, max_le_iff, max_le_iff] at hNotPos
  obtain ⟨⟨hRedLe, hGreenLe⟩, hBlueLe⟩ := hNotPos
  ext
  · exact le_antisymm hRedLe hRed
  · exact le_antisymm hGreenLe hGreen
  · exact le_antisymm hBlueLe hBlue

/-- Of two colors one is darker if it is so in every channel. -/
instance : Preorder (Color ℝ) where
  le a b := a.r ≤ b.r ∧ a.g ≤ b.g ∧ a.b ≤ b.b
  le_refl a := ⟨le_rfl, le_rfl, le_rfl⟩
  le_trans a b c h h' := ⟨h.1.trans h'.1, h.2.1.trans h'.2.1, h.2.2.trans h'.2.2⟩

section Order

variable {a b c d : Color ℝ}

/-- One color is below another when it is in every channel. -/
theorem le_exact : a ≤ b ↔ a.r ≤ b.r ∧ a.g ≤ b.g ∧ a.b ≤ b.b := Iff.rfl

/-- Black is below the colors without a negative channel. -/
theorem black_le_iff : black ≤ a ↔ 0 ≤ a.r ∧ 0 ≤ a.g ∧ 0 ≤ a.b := by rw [black_exact, le_exact]

/-- Sums keep the order of their parts, channel by channel. -/
theorem add_mono (h : a ≤ b) (h' : c ≤ d) : a + c ≤ b + d :=
  ⟨add_le_add h.1 h'.1, add_le_add h.2.1 h'.2.1, add_le_add h.2.2 h'.2.2⟩

/-- Light that is added makes nothing darker. -/
theorem le_add_right (h : black ≤ b) : a ≤ a + b := by
  obtain ⟨hRed, hGreen, hBlue⟩ := black_le_iff.mp h
  exact ⟨le_add_of_nonneg_right hRed, le_add_of_nonneg_right hGreen, le_add_of_nonneg_right hBlue⟩

/-- Light that passes a filter keeps its order, if the filter takes nothing below zero. -/
theorem mul_mono (hWeight : black ≤ c) (h : a ≤ b) : c * a ≤ c * b := by
  obtain ⟨hRed, hGreen, hBlue⟩ := black_le_iff.mp hWeight
  exact ⟨mul_le_mul_of_nonneg_left h.1 hRed, mul_le_mul_of_nonneg_left h.2.1 hGreen,
    mul_le_mul_of_nonneg_left h.2.2 hBlue⟩

theorem scale_mono {k : ℝ} (hk : 0 ≤ k) (h : a ≤ b) : a * k ≤ b * k :=
  ⟨mul_le_mul_of_nonneg_right h.1 hk, mul_le_mul_of_nonneg_right h.2.1 hk,
    mul_le_mul_of_nonneg_right h.2.2 hk⟩

/-- Products of colors that are not negative are not negative. -/
theorem black_le_mul (ha : black ≤ a) (hb : black ≤ b) : black ≤ a * b := by
  obtain ⟨hRed, hGreen, hBlue⟩ := black_le_iff.mp ha
  obtain ⟨hRed', hGreen', hBlue'⟩ := black_le_iff.mp hb
  exact black_le_iff.mpr ⟨mul_nonneg hRed hRed', mul_nonneg hGreen hGreen', mul_nonneg hBlue hBlue'⟩

/-- A color that is not negative stays so under such a factor. -/
theorem black_le_scale {k : ℝ} (ha : black ≤ a) (hk : 0 ≤ k) : black ≤ a * k := by
  obtain ⟨hRed, hGreen, hBlue⟩ := black_le_iff.mp ha
  exact black_le_iff.mpr ⟨mul_nonneg hRed hk, mul_nonneg hGreen hk, mul_nonneg hBlue hk⟩

end Order

end Color

end RayTracer
