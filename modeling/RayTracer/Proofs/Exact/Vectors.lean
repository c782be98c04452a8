import Mathlib
import RayTracer.Geometry.Vector
import RayTracer.Proofs.Exact.Reals

/-! Vectors of exact numbers. Products are linear in both factors, only the zero vector has no length, and every
other vector has a direction: the vector of unit length that it is a multiple of. A normal of any length has the
direction of the vector with its components. -/

namespace RayTracer

attribute [ext] Vec

namespace Vec

variable (u v w : Vec ℝ) (k : ℝ)

theorem add_exact : v + w = ⟨v.x + w.x, v.y + w.y, v.z + w.z⟩ := rfl

theorem sub_exact : v - w = ⟨v.x - w.x, v.y - w.y, v.z - w.z⟩ := rfl

theorem neg_exact : -v = ⟨-v.x, -v.y, -v.z⟩ := rfl

theorem scale_exact : v * k = ⟨v.x * k, v.y * k, v.z * k⟩ := rfl

/-- Dividing is multiplying by the reciprocal, also by zero. -/
theorem div_exact : v / k = v * (1 / k) := by
  change (⟨v.x / k, v.y / k, v.z / k⟩ : Vec ℝ) = ⟨_, _, _⟩
  simp only [mul_one_div]

theorem scale_one : v * (1 : ℝ) = v := by simp only [scale_exact, mul_one]

theorem add_scale_zero : v + w * (0 : ℝ) = v := by simp only [add_exact, scale_exact, mul_zero, add_zero]

theorem scale_zero_add : v * (0 : ℝ) + w = w := by simp only [add_exact, scale_exact, mul_zero, zero_add]

theorem dot_exact : v.dot w = v.x * w.x + v.y * w.y + v.z * w.z := rfl

theorem squaredNorm_exact : v.squaredNorm = v.x * v.x + v.y * v.y + v.z * v.z := rfl

theorem dot_comm : v.dot w = w.dot v := by
  simp only [dot_exact]
  ring

theorem dot_zero : v.dot ⟨0, 0, 0⟩ = 0 := by simp [dot_exact]

/-- Products of sums are sums of products. -/
theorem dot_add : u.dot (v + w) = u.dot v + u.dot w := by
  simp only [dot_exact, add_exact]
  ring

theorem dot_sub : u.dot (v - w) = u.dot v - u.dot w := by
  simp only [dot_exact, sub_exact]
  ring

theorem dot_neg : v.dot (-w) = -v.dot w := by
  simp only [dot_exact, neg_exact]
  ring

/-- A longer factor makes the product larger in proportion. -/
theorem dot_scale : v.dot (w * k) = v.dot w * k := by
  simp only [dot_exact, scale_exact]
  ring

theorem scale_dot : (v * k).dot w = v.dot w * k := by rw [dot_comm, dot_scale, dot_comm]

theorem squaredNorm_neg : (-v).squaredNorm = v.squaredNorm := by
  simp only [squaredNorm_exact, neg_exact, neg_mul_neg]

/-- The law of cosines. -/
theorem squaredNorm_sub : (v - w).squaredNorm = v.squaredNorm - 2 * v.dot w + w.squaredNorm := by
  simp only [squaredNorm_exact, dot_exact, sub_exact]
  ring

/-- Squared lengths grow with the square of the factor. -/
theorem squaredNorm_scale : (v * k).squaredNorm = v.squaredNorm * (k * k) := by
  simp only [squaredNorm_exact, scale_exact]
  ring

theorem squaredNorm_nonneg : 0 ≤ v.squaredNorm :=
  add_nonneg (add_nonneg (mul_self_nonneg v.x) (mul_self_nonneg v.y)) (mul_self_nonneg v.z)

theorem norm_exact : v.norm = √v.squaredNorm := rfl

theorem zero_le_norm : 0 ≤ v.norm := Real.sqrt_nonneg _

/-- The length is the root of the squared length. -/
theorem norm_mul_norm : v.norm * v.norm = v.squaredNorm := Real.mul_self_sqrt v.squaredNorm_nonneg

/-- Lengths grow with the size of the factor, whatever its sign. -/
theorem norm_scale : (v * k).norm = v.norm * |k| := by
  rw [norm_exact, squaredNorm_scale, Real.sqrt_mul v.squaredNorm_nonneg, Real.sqrt_mul_self_eq_abs, norm_exact]

theorem norm_eq_one_iff : v.norm = 1 ↔ v.squaredNorm = 1 := by rw [norm_exact, Real.sqrt_eq_one]

variable {v}

/-- Only the zero vector has no length. -/
theorem eq_zero_of_squaredNorm (h : v.squaredNorm = 0) : v = ⟨0, 0, 0⟩ := by
  obtain ⟨x, y, z⟩ := v
  have hx := mul_self_nonneg x
  have hy := mul_self_nonneg y
  have hz := mul_self_nonneg z
  rw [squaredNorm_exact] at h
  obtain rfl : x = 0 := mul_self_eq_zero.mp (by linarith)
  obtain rfl : y = 0 := mul_self_eq_zero.mp (by linarith)
  obtain rfl : z = 0 := mul_self_eq_zero.mp (by linarith)
  rfl

/-- All other vectors have a squared length. -/
theorem squaredNorm_pos (h : v ≠ ⟨0, 0, 0⟩) : 0 < v.squaredNorm :=
  lt_of_le_of_ne v.squaredNorm_nonneg fun hNone => h (eq_zero_of_squaredNorm hNone.symm)

theorem norm_pos (h : v ≠ ⟨0, 0, 0⟩) : 0 < v.norm := Real.sqrt_pos.mpr (squaredNorm_pos h)

theorem normalized_exact : v.normalized = v * (1 / v.norm) := v.div_exact v.norm

/-- A vector is its direction, taken as often as it is long. -/
theorem normalized_scale_norm (h : v ≠ ⟨0, 0, 0⟩) : v.normalized * v.norm = v := by
  have hLength := (norm_pos h).ne'
  rw [normalized_exact]
  ext <;> simp only [scale_exact] <;> field_simp

/-- Directions have unit length. -/
theorem squaredNorm_normalized (h : v ≠ ⟨0, 0, 0⟩) : v.normalized.squaredNorm = 1 := by
  have hLength := (norm_pos h).ne'
  rw [normalized_exact, squaredNorm_scale, ← norm_mul_norm]
  field_simp

/-- A vector of unit length is its own direction. -/
theorem normalized_of_unit (h : v.squaredNorm = 1) : v.normalized = v := by
  rw [normalized_exact, (norm_eq_one_iff v).mpr h, div_one, scale_exact]
  simp only [mul_one]

/-- Opposite vectors have opposite directions. -/
theorem normalized_neg : (-v).normalized = -v.normalized := by
  have hLength : (-v).norm = v.norm := by rw [norm_exact, norm_exact, squaredNorm_neg]
  rw [normalized_exact, normalized_exact, hLength]
  simp only [neg_exact, scale_exact, neg_mul]

end Vec

namespace Normal

variable (n : Normal ℝ)

theorem dot_exact (v : Vec ℝ) : n.dot v = n.toVec.dot v := rfl

theorem scale_exact (k : ℝ) : n * k = ⟨n.x * k, n.y * k, n.z * k⟩ := rfl

theorem scale_dot (k : ℝ) (v : Vec ℝ) : (n * k).dot v = n.dot v * k := n.toVec.scale_dot v k

theorem toVec_normalized : n.normalized.toVec = n.toVec.normalized := rfl

/-- Only the zero normal has the components of the zero vector. -/
theorem toVec_ne_zero {n : Normal ℝ} (h : n ≠ ⟨0, 0, 0⟩) : n.toVec ≠ ⟨0, 0, 0⟩ := by
  rintro hZero
  obtain ⟨x, y, z⟩ := n
  obtain ⟨rfl, rfl, rfl⟩ := Vec.mk.inj hZero
  exact h rfl

/-- The direction of a normal has unit length, however long the normal is. -/
theorem squaredNorm_axis {n : Normal ℝ} (h : n ≠ ⟨0, 0, 0⟩) : n.toVec.normalized.squaredNorm = 1 :=
  Vec.squaredNorm_normalized (toVec_ne_zero h)

end Normal

/-- From a point to another one there is a way. -/
theorem Point.sub_ne_zero {p q : Point ℝ} (hDistinct : p ≠ q) : p - q ≠ (⟨0, 0, 0⟩ : Vec ℝ) := by
  intro hNone
  obtain ⟨a, b, c⟩ := p
  obtain ⟨x, y, z⟩ := q
  obtain ⟨hx, hy, hz⟩ := Vec.mk.inj hNone
  obtain rfl := sub_eq_zero.mp hx
  obtain rfl := sub_eq_zero.mp hy
  obtain rfl := sub_eq_zero.mp hz
  exact hDistinct rfl

end RayTracer
