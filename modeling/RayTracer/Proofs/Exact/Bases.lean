import Mathlib
import RayTracer.Proofs.Exact.Vectors

/-! Orthonormal bases. A combination of the axes is as long as its three coefficients say, and its product with an
axis gives the coefficient back. Around every unit normal a basis is built without asking which way the normal
points: the sign of its third component keeps the only divisor away from zero. -/

namespace RayTracer

namespace Scalar

theorem unitSign_mul_self (x : ℝ) : unitSign x * unitSign x = 1 := by
  change (if 0 ≤ x then (1 : ℝ) else -1) * (if 0 ≤ x then (1 : ℝ) else -1) = 1
  split <;> norm_num

/-- A number times its sign is never negative. -/
theorem unitSign_mul_nonneg (x : ℝ) : 0 ≤ unitSign x * x := by
  change 0 ≤ (if 0 ≤ x then (1 : ℝ) else -1) * x
  split <;> linarith

/-- A number is not the opposite of its sign. -/
theorem sign_add_ne_zero {sign x : ℝ} (hSign : sign * sign = 1) (hSide : 0 ≤ sign * x) : sign + x ≠ 0 := by
  intro hNone
  have hProduct : sign * (sign + x) = 1 + sign * x := by rw [mul_add, hSign]
  rw [hNone, mul_zero] at hProduct
  linarith

/-- The divisor of the construction never comes to zero, since the sign takes it away from there. -/
theorem unitSign_add_ne_zero (x : ℝ) : unitSign x + x ≠ 0 :=
  sign_add_ne_zero (unitSign_mul_self x) (unitSign_mul_nonneg x)

end Scalar

namespace Basis

/-- Axes of unit length that are perpendicular to each other. -/
structure Orthonormal (basis : Basis ℝ) : Prop where
  first_unit : basis.first.squaredNorm = 1
  second_unit : basis.second.squaredNorm = 1
  third_unit : basis.third.squaredNorm = 1
  first_second : basis.first.dot basis.second = 0
  first_third : basis.first.dot basis.third = 0
  second_third : basis.second.dot basis.third = 0

section Combinations

variable {basis : Basis ℝ} (h : basis.Orthonormal) (p q r : ℝ)

include h

/-- A combination is as long as its coefficients say. -/
theorem Orthonormal.squaredNorm_combination :
    (basis.first * p + basis.second * q + basis.third * r).squaredNorm = p * p + q * q + r * r := by
  obtain ⟨hFirst, hSecond, hThird, hFirstSecond, hFirstThird, hSecondThird⟩ := h
  simp only [Vec.squaredNorm_exact, Vec.dot_exact, Vec.add_exact, Vec.scale_exact] at *
  linear_combination p * p * hFirst + q * q * hSecond + r * r * hThird + 2 * p * q * hFirstSecond +
    2 * p * r * hFirstThird + 2 * q * r * hSecondThird

/-- The product with the third axis gives its coefficient. -/
theorem Orthonormal.third_dot_combination :
    basis.third.dot (basis.first * p + basis.second * q + basis.third * r) = r := by
  rw [Vec.dot_add, Vec.dot_add, Vec.dot_scale, Vec.dot_scale, Vec.dot_scale, Vec.dot_comm _ basis.first,
    h.first_third, Vec.dot_comm _ basis.second, h.second_third]
  have hThird : basis.third.dot basis.third = 1 := h.third_unit
  rw [hThird, zero_mul, zero_mul, one_mul, zero_add, zero_add]

end Combinations

/-- The basis around a normal for either choice of the sign. -/
noncomputable def around (sign : ℝ) (n : Normal ℝ) : Basis ℝ :=
  let a := -1 / (sign + n.z)
  { first := ⟨1 + sign * n.x * n.x * a, sign * (n.x * n.y * a), -sign * n.x⟩
    second := ⟨n.x * n.y * a, sign + n.y * n.y * a, -n.y⟩
    third := n.toVec }

/-- The basis around a normal is built with the sign of its third component. -/
theorem ofNormal_eq_around (n : Normal ℝ) : ofNormal n = around (Scalar.unitSign n.z) n := by
  simp only [ofNormal, around, Scalar.one_exact]

section Around

variable {sign : ℝ} {n : Normal ℝ} (hSign : sign * sign = 1) (hDivisor : sign + n.z ≠ 0)
  (hUnit : n.toVec.squaredNorm = 1)

include hSign hDivisor hUnit

/-- The factor undoes what a unit normal has apart from the third axis. -/
theorem factor_mul_flat : -1 / (sign + n.z) * (n.x * n.x + n.y * n.y) = n.z - sign := by
  have hFactor : -1 / (sign + n.z) * (sign + n.z) = -1 := div_mul_cancel₀ _ hDivisor
  rw [Vec.squaredNorm_exact] at hUnit
  simp only [Normal.toVec] at hUnit
  linear_combination -1 / (sign + n.z) * (hUnit - hSign) + (sign - n.z) * hFactor

/-- Either sign gives an orthonormal basis, if it keeps the divisor from zero. -/
theorem orthonormal_around : (around sign n).Orthonormal := by
  have hFactor : -1 / (sign + n.z) * (sign + n.z) = -1 := div_mul_cancel₀ _ hDivisor
  have hFlat := factor_mul_flat hSign hDivisor hUnit
  obtain ⟨x, y, z⟩ := n
  simp only [around] at hFactor hFlat ⊢
  generalize -1 / (sign + z) = a at hFactor hFlat
  rw [Vec.squaredNorm_exact] at hUnit
  simp only [Normal.toVec] at hUnit ⊢
  constructor <;> simp only [Vec.squaredNorm_exact, Vec.dot_exact]
  · linear_combination x * x * (a * a * (x * x + y * y) + 1) * hSign + x * x * a * hFlat + x * x * hFactor
  · linear_combination hSign + y * y * a * hFlat + y * y * hFactor
  · exact hUnit
  · linear_combination x * y * (sign * a * hFlat + sign * hFactor - a * hSign)
  · linear_combination x * sign * hFlat - x * hSign
  · linear_combination y * hFlat

/-- The axes follow each other by the right-hand rule. -/
theorem cross_around : (around sign n).first.cross (around sign n).second = n.toVec := by
  have hFlat := factor_mul_flat hSign hDivisor hUnit
  ext <;> simp only [around, Vec.cross, Normal.toVec]
  · linear_combination n.x * hSign
  · ring
  · linear_combination n.x * n.x * (-1 / (sign + n.z)) * hSign + hFlat

end Around

/-- Around every unit normal the basis is orthonormal. -/
theorem orthonormal_ofNormal {n : Normal ℝ} (hUnit : n.toVec.squaredNorm = 1) : (ofNormal n).Orthonormal := by
  rw [ofNormal_eq_around]
  exact orthonormal_around (Scalar.unitSign_mul_self n.z) (Scalar.unitSign_add_ne_zero n.z) hUnit

end Basis

end RayTracer
