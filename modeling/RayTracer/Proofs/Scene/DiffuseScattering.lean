import Mathlib
import RayTracer.Proofs.Exact.Bases
import RayTracer.Proofs.Render.SamplingRules

/-! Rays that a diffuse surface scatters, over exact numbers. The first number drawn is the squared cosine of the
angle to the normal and the second one a turn around it. In a basis around the normal such a direction has unit
length, and it never points below the surface. -/

namespace RayTracer.Reflection

/-- The direction in the basis around the normal. -/
theorem cosineDirection_exact (normal : Normal ℝ) (squaredCosine turn : ℝ) :
    cosineDirection normal squaredCosine turn =
      (Basis.ofNormal normal).first * (Real.cos (2 * Real.pi * turn) * √(1 - squaredCosine)) +
        (Basis.ofNormal normal).second * (Real.sin (2 * Real.pi * turn) * √(1 - squaredCosine)) +
        (Basis.ofNormal normal).third * √squaredCosine := by
  simp only [cosineDirection, Scalar.one_exact, Scalar.two_exact, Scalar.cos, Scalar.sin, Scalar.sqrt, Scalar.pi]

section Directions

variable {normal : Normal ℝ} (hUnit : normal.toVec.squaredNorm = 1)

include hUnit

theorem squaredNorm_cosineDirection {squaredCosine : ℝ} (h : squaredCosine ∈ Set.Icc 0 1) (turn : ℝ) :
    (cosineDirection normal squaredCosine turn).squaredNorm = 1 := by
  have hCosine : √squaredCosine * √squaredCosine = squaredCosine := Real.mul_self_sqrt h.1
  have hSine : √(1 - squaredCosine) * √(1 - squaredCosine) = 1 - squaredCosine :=
    Real.mul_self_sqrt (sub_nonneg.mpr h.2)
  have hTurn := Real.sin_sq_add_cos_sq (2 * Real.pi * turn)
  rw [cosineDirection_exact, (Basis.orthonormal_ofNormal hUnit).squaredNorm_combination]
  linear_combination hCosine + hSine + √(1 - squaredCosine) * √(1 - squaredCosine) * hTurn

/-- The cosine to the normal is the root of what was drawn for it. -/
theorem dot_cosineDirection (squaredCosine turn : ℝ) :
    normal.dot (cosineDirection normal squaredCosine turn) = √squaredCosine := by
  rw [cosineDirection_exact]
  exact (Basis.orthonormal_ofNormal hUnit).third_dot_combination _ _ _

end Directions

/-- A diffuse surface scatters into the hemisphere over it. Whatever generator is at hand, and whichever way the
normal points, it takes two draws. With them it gives a ray from the point at the depth that is asked for, from a
thousandth on without an end, whose direction has unit length and stands to the normal as the square root of the
first number drawn. Where the light came from does not matter. -/
theorem scatter_diffuse_hemisphere {normal : Normal ℝ} (hUnit : normal.norm = 1) (pigment : Pigment ℝ)
    (reflectance : ℝ) (point : Point ℝ) (depth : ℕ) (generator : Pcg) :
    ∃ direction : Vec ℝ,
      (∀ incoming, ((diffuse pigment reflectance).scatter incoming point normal depth :
          Sampling (Ray ℝ)).run generator =
        .ok (⟨point, direction, ⟨1e-3, .unbounded⟩, depth⟩, (generator.draws 2).2)) ∧
      direction.norm = 1 ∧
      normal.dot direction = √(generator.draw.1.toNat / 4294967295) ∧ 0 ≤ normal.dot direction := by
  have hSquared : normal.toVec.squaredNorm = 1 := normal.toVec.norm_eq_one_iff.mp hUnit
  have hProduct := dot_cosineDirection hSquared (Pcg.unitOf generator.draw.1) (Pcg.unitOf generator.next.draw.1)
  refine ⟨cosineDirection normal (Pcg.unitOf generator.draw.1) (Pcg.unitOf generator.next.draw.1),
    fun _ => rfl, (Vec.norm_eq_one_iff _).mpr ?_, ?_, ?_⟩
  · exact squaredNorm_cosineDirection hSquared (Sampling.unitOf_mem_Icc _) _
  · rw [hProduct, Sampling.unitOf_exact]
  · rw [hProduct]
    exact Real.sqrt_nonneg _

/-- A ray that leaves the underside of a ceiling, where the normal points straight down. -/
theorem scatter_diffuse_hemisphere_downwards :
    (⟨0, 0, -1⟩ : Normal ℝ).norm = 1 ∧
      ∃ direction : Vec ℝ, direction.norm = 1 ∧ direction.z = -√(2707161783 / 4294967295) ∧
        ∀ incoming, ((diffuse (.uniform Color.white) 0.5).scatter incoming ⟨1, 2, 3⟩ ⟨0, 0, -1⟩ 4 :
            Sampling (Ray ℝ)).run (Pcg.seeded 42 54) =
          .ok (⟨⟨1, 2, 3⟩, direction, ⟨1e-3, .unbounded⟩, 4⟩, ((Pcg.seeded 42 54).draws 2).2) := by
  have hUnit : (⟨0, 0, -1⟩ : Normal ℝ).norm = 1 := by
    simp [Normal.norm, Normal.squaredNorm, Scalar.sqrt]
  have hDrawn : (Pcg.seeded 42 54).draw.1.toNat = 2707161783 := by decide
  obtain ⟨direction, hRun, hLength, hProduct, -⟩ :=
    scatter_diffuse_hemisphere hUnit (.uniform Color.white) 0.5 ⟨1, 2, 3⟩ 4 (Pcg.seeded 42 54)
  refine ⟨hUnit, direction, hLength, ?_, hRun⟩
  rw [hDrawn, Normal.dot] at hProduct
  push_cast at hProduct
  linarith

end RayTracer.Reflection
