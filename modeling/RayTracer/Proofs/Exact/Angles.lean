import Mathlib
import RayTracer.Proofs.Exact.Vectors

/-! Angles between vectors of exact numbers. They are the angles of Euclidean space, so a detour over a third vector
is never shorter than the way, and as short only if the third one lies between the two. Of two vectors above a plane
the angles to its axis differ by at most the angle between the vectors. They differ by all of it exactly when a
half-plane that the axis bounds contains both. -/

namespace RayTracer.Vec

noncomputable section

/-- The angle between two vectors, from zero to half a turn. -/
def angle (v w : Vec ℝ) : ℝ := Real.arccos (v.dot w / (v.norm * w.norm))

/-- A vector as a point of Euclidean space. -/
def euclidean (v : Vec ℝ) : EuclideanSpace ℝ (Fin 3) := WithLp.toLp _ ![v.x, v.y, v.z]

end

/-- What can be put together from two vectors without turning one of them around. -/
def Between (u w v : Vec ℝ) : Prop := ∃ a b : ℝ, 0 ≤ a ∧ 0 ≤ b ∧ u * a + w * b = v

/-- One half-plane that an axis bounds contains both vectors. -/
def SameSide (axis v w : Vec ℝ) : Prop :=
  ∃ (side : Vec ℝ) (a b c d : ℝ), 0 ≤ b ∧ 0 ≤ d ∧ v = axis * a + side * b ∧ w = axis * c + side * d

section Embedding

variable (v w : Vec ℝ) (k : ℝ)

theorem euclidean_add : (v + w).euclidean = v.euclidean + w.euclidean := by
  ext i
  fin_cases i <;> rfl

theorem euclidean_scale : (v * k).euclidean = k • v.euclidean := by
  ext i
  fin_cases i <;> exact mul_comm _ _

/-- No two vectors are the same vector of Euclidean space. -/
theorem euclidean_injective : Function.Injective euclidean := by
  intro v w hSame
  have hCoordinates := congrArg WithLp.ofLp hSame
  ext
  · exact congrFun hCoordinates 0
  · exact congrFun hCoordinates 1
  · exact congrFun hCoordinates 2

theorem euclidean_ne_zero {v : Vec ℝ} (h : v ≠ ⟨0, 0, 0⟩) : v.euclidean ≠ 0 := by
  intro hZero
  have hNone : (⟨0, 0, 0⟩ : Vec ℝ).euclidean = 0 := by
    ext i
    fin_cases i <;> rfl
  exact h (euclidean_injective (hZero.trans hNone.symm))

/-- The product of two vectors is the inner product. -/
theorem inner_euclidean : inner ℝ v.euclidean w.euclidean = v.dot w := by
  simp only [euclidean, EuclideanSpace.inner_eq_star_dotProduct, dot_exact]
  simp [dotProduct, Fin.sum_univ_three, mul_comm]

theorem norm_euclidean : ‖v.euclidean‖ = v.norm := by
  rw [norm_eq_sqrt_real_inner, inner_euclidean]
  rfl

/-- The angle between two vectors is that of Euclidean space. -/
theorem angle_euclidean : InnerProductGeometry.angle v.euclidean w.euclidean = v.angle w := by
  rw [InnerProductGeometry.angle, inner_euclidean, norm_euclidean, norm_euclidean, angle]

/-- A vector lies between two others when it is a sum of parts of them. -/
theorem between_iff_mem_span (u w v : Vec ℝ) :
    Between u w v ↔ v.euclidean ∈ Submodule.span NNReal {u.euclidean, w.euclidean} := by
  rw [Submodule.mem_span_pair]
  constructor
  · rintro ⟨a, b, hA, hB, rfl⟩
    exact ⟨⟨a, hA⟩, ⟨b, hB⟩, by rw [euclidean_add, euclidean_scale, euclidean_scale]; rfl⟩
  · rintro ⟨a, b, hSum⟩
    refine ⟨a, b, a.2, b.2, euclidean_injective ?_⟩
    rw [euclidean_add, euclidean_scale, euclidean_scale]
    exact hSum

end Embedding

section Angles

variable (u v w : Vec ℝ)

theorem angle_comm : v.angle w = w.angle v := by
  rw [← angle_euclidean, InnerProductGeometry.angle_comm, angle_euclidean]

theorem cos_angle : Real.cos (v.angle w) = v.dot w / (v.norm * w.norm) := by
  rw [← angle_euclidean, InnerProductGeometry.cos_angle, inner_euclidean, norm_euclidean, norm_euclidean]

/-- A detour is never shorter than the way. -/
theorem angle_le_angle_add_angle : u.angle w ≤ u.angle v + v.angle w := by
  simp only [← angle_euclidean]
  exact InnerProductGeometry.angle_le_angle_add_angle _ _ _

/-- Unless it goes half around, a way is as short as a detour only if the stop lies between its ends. -/
theorem angle_eq_angle_add_angle_iff {v : Vec ℝ} (hStop : v ≠ ⟨0, 0, 0⟩) (hShort : u.angle w ≠ Real.pi) :
    u.angle w = u.angle v + v.angle w ↔ Between u w v := by
  simp only [← angle_euclidean] at hShort ⊢
  rw [InnerProductGeometry.angle_eq_angle_add_angle_iff (euclidean_ne_zero hStop), or_iff_right hShort,
    between_iff_mem_span]

end Angles

section Axes

variable {axis v w : Vec ℝ}

/-- What lies on the side of an axis is at most at a right angle to it. -/
theorem angle_le_right (h : 0 ≤ axis.dot v) : axis.angle v ≤ Real.pi / 2 :=
  Real.arccos_le_pi_div_two.mpr (div_nonneg h (mul_nonneg axis.zero_le_norm v.zero_le_norm))

theorem angle_ne_pi (h : 0 ≤ axis.dot v) : axis.angle v ≠ Real.pi :=
  ((angle_le_right h).trans_lt (half_lt_self Real.pi_pos)).ne

/-- A detour over the axis is never shorter, so the angles to it cannot differ by more than the angle between the
vectors. -/
theorem abs_angle_sub_le (axis v w : Vec ℝ) : |axis.angle v - axis.angle w| ≤ v.angle w := by
  have hThere := angle_le_angle_add_angle axis v w
  have hBack := angle_le_angle_add_angle axis w v
  rw [angle_comm w v] at hBack
  rw [abs_le]
  constructor <;> linarith

/-- What points along the axis lies between the axis and anything. -/
theorem between_of_multiple {k : ℝ} (hAxis : axis ≠ ⟨0, 0, 0⟩) (hAbove : 0 ≤ axis.dot (axis * k)) :
    Between axis w (axis * k) := by
  have hLength : 0 < axis.dot axis := squaredNorm_pos hAxis
  rw [dot_scale] at hAbove
  exact ⟨k, 0, nonneg_of_mul_nonneg_right hAbove hLength, le_rfl, add_scale_zero _ _⟩

/-- In one half-plane the steeper of two vectors lies between the axis and the other one. -/
theorem between_of_steeper {side : Vec ℝ} {a b c d : ℝ} (hB : 0 ≤ b) (hD : 0 < d) (hSteeper : c * b ≤ a * d) :
    Between axis (axis * c + side * d) (axis * a + side * b) := by
  refine ⟨(a * d - c * b) / d, b / d, div_nonneg (sub_nonneg.mpr hSteeper) hD.le, div_nonneg hB hD.le, ?_⟩
  ext <;> simp only [add_exact, scale_exact] <;> field_simp <;> ring

variable (hAxis : axis ≠ ⟨0, 0, 0⟩) (hv : 0 ≤ axis.dot v) (hw : 0 ≤ axis.dot w)

include hAxis hv hw

/-- Two vectors are on the same side when one of them lies between the axis and the other. -/
theorem sameSide_iff : SameSide axis v w ↔ Between axis v w ∨ Between axis w v := by
  constructor
  · rintro ⟨side, a, b, c, d, hB, hD, rfl, rfl⟩
    -- The half-plane tells which vector is steeper only where neither is a multiple of the axis.
    rcases hB.eq_or_lt with rfl | hB'
    · rw [add_scale_zero] at hv ⊢
      exact .inr (between_of_multiple hAxis hv)
    rcases hD.eq_or_lt with rfl | hD'
    · rw [add_scale_zero] at hw ⊢
      exact .inl (between_of_multiple hAxis hw)
    rcases le_total (c * b) (a * d) with hSteeper | hSteeper
    · exact .inr (between_of_steeper hB hD' hSteeper)
    · exact .inl (between_of_steeper hD hB' hSteeper)
  · rintro (⟨a, b, -, hB, rfl⟩ | ⟨a, b, -, hB, rfl⟩)
    · exact ⟨v, 0, 1, a, b, zero_le_one, hB, by rw [scale_zero_add, scale_one], rfl⟩
    · exact ⟨w, a, b, 0, 1, hB, zero_le_one, rfl, by rw [scale_zero_add, scale_one]⟩

/-- The angles to the axis differ by the whole angle between two vectors only where a half-plane that the axis
bounds contains both. -/
theorem abs_angle_sub_eq_iff (hv' : v ≠ ⟨0, 0, 0⟩) (hw' : w ≠ ⟨0, 0, 0⟩) :
    |axis.angle v - axis.angle w| = v.angle w ↔ SameSide axis v w := by
  have hFirst := angle_eq_angle_add_angle_iff axis v hw' (angle_ne_pi hv)
  have hSecond := angle_eq_angle_add_angle_iff axis w hv' (angle_ne_pi hw)
  have hNonneg : 0 ≤ v.angle w := Real.arccos_nonneg _
  rw [sameSide_iff hAxis hv hw, ← hFirst, ← hSecond, abs_eq hNonneg, angle_comm w v]
  refine or_congr ?_ ?_ <;> constructor <;> intro h <;> linarith

end Axes

end RayTracer.Vec
