import Mathlib
import RayTracer.Proofs.Exact.Vectors
import RayTracer.Scene.Material

/-! Rays that a mirror scatters, over exact numbers. A mirror turns the part of a direction along its axis around
and leaves the rest, so lengths stay and a second reflection takes the first one back. Scattering works with the
direction in which light travels, evaluation with directions that point away from the surface. The angles to the
normal that it compares are those of one vector and its mirror image, so it always finds them equal. -/

namespace RayTracer

namespace Vec

/-- The mirror image of a vector in the plane across an axis of unit length. -/
noncomputable def reflection (axis v : Vec ℝ) : Vec ℝ := v - axis * (2.0 * axis.dot v)

theorem reflection_exact (axis v : Vec ℝ) : axis.reflection v = v - axis * (2 * axis.dot v) := by
  rw [reflection, Scalar.two_exact]

section Reflections

variable {axis : Vec ℝ} (hUnit : axis.squaredNorm = 1) (v : Vec ℝ)

include hUnit

/-- A reflection turns the part along the axis around. -/
theorem dot_reflection : axis.dot (axis.reflection v) = -axis.dot v := by
  have hAxis : axis.dot axis = 1 := hUnit
  rw [reflection_exact, dot_sub, dot_scale, hAxis]
  ring

theorem squaredNorm_reflection : (axis.reflection v).squaredNorm = v.squaredNorm := by
  rw [reflection_exact, squaredNorm_sub, squaredNorm_scale, dot_scale, hUnit, dot_comm v]
  ring

/-- What is reflected twice is as it was. -/
theorem reflection_reflection : axis.reflection (axis.reflection v) = v := by
  have hTwice : axis.reflection (axis.reflection v) = axis.reflection v - axis * (2 * -axis.dot v) := by
    rw [← dot_reflection hUnit, ← reflection_exact]
  rw [hTwice, reflection_exact]
  ext <;> simp only [sub_exact, scale_exact] <;> ring

end Reflections

end Vec

namespace Reflection

theorem mirrored_exact (normal : Normal ℝ) (incoming : Vec ℝ) :
    mirrored normal incoming = normal.toVec.normalized.reflection incoming.normalized := rfl

section Directions

variable {normal : Normal ℝ} (hNormal : normal ≠ ⟨0, 0, 0⟩) {incoming : Vec ℝ} (hIncoming : incoming ≠ ⟨0, 0, 0⟩)

/-- What is scattered lies in the plane of the direction and the normal. -/
theorem exists_combination_mirrored (normal : Normal ℝ) (incoming : Vec ℝ) :
    ∃ along across : ℝ, mirrored normal incoming = incoming * along + normal.toVec * across := by
  refine ⟨1 / incoming.norm, -(1 / normal.toVec.norm *
    (2 * normal.toVec.normalized.dot incoming.normalized)), ?_⟩
  rw [mirrored_exact, Vec.reflection_exact]
  generalize 2 * normal.toVec.normalized.dot incoming.normalized = twice
  rw [Vec.normalized_exact, Vec.normalized_exact]
  ext <;> simp only [Vec.sub_exact, Vec.add_exact, Vec.scale_exact] <;> ring

include hNormal

theorem axis_dot_mirrored (incoming : Vec ℝ) : normal.toVec.normalized.dot (mirrored normal incoming) =
    -normal.toVec.normalized.dot incoming.normalized := by
  rw [mirrored_exact]
  exact Vec.dot_reflection (Normal.squaredNorm_axis hNormal) _

theorem dot_mirrored (incoming : Vec ℝ) :
    normal.dot (mirrored normal incoming) = -normal.dot incoming / incoming.norm := by
  have hLength : normal.toVec.normalized * normal.toVec.norm = normal.toVec :=
    Vec.normalized_scale_norm (Normal.toVec_ne_zero hNormal)
  calc
    normal.dot (mirrored normal incoming) =
        (normal.toVec.normalized * normal.toVec.norm).dot (mirrored normal incoming) := by rw [hLength]; rfl
    _ = -(normal.toVec.normalized * normal.toVec.norm).dot incoming.normalized := by
        rw [Vec.scale_dot, axis_dot_mirrored hNormal, Vec.scale_dot, neg_mul]
    _ = -normal.dot incoming / incoming.norm := by
        rw [hLength, Vec.normalized_exact, Vec.dot_scale, mul_one_div, neg_div]; rfl

include hIncoming

/-- Mirrored directions have unit length. -/
theorem squaredNorm_mirrored : (mirrored normal incoming).squaredNorm = 1 := by
  rw [mirrored_exact, Vec.squaredNorm_reflection (Normal.squaredNorm_axis hNormal),
    Vec.squaredNorm_normalized hIncoming]

/-- What is mirrored twice has the direction that it had. -/
theorem mirrored_mirrored : mirrored normal (mirrored normal incoming) = incoming.normalized := by
  rw [mirrored_exact normal (mirrored normal incoming),
    Vec.normalized_of_unit (squaredNorm_mirrored hNormal hIncoming), mirrored_exact]
  exact Vec.reflection_reflection (Normal.squaredNorm_axis hNormal) _

/-- Where light comes from and where the mirror sends it are seen at the same angle to the normal. -/
theorem polarAngle_mirrored : polarAngle normal.normalized.toVec (mirrored normal incoming) =
    polarAngle normal.normalized.toVec (-incoming) := by
  rw [polarAngle, polarAngle, Vec.normalized_of_unit (squaredNorm_mirrored hNormal hIncoming),
    Normal.toVec_normalized, axis_dot_mirrored hNormal, Vec.normalized_neg, Vec.dot_neg]

/-- Along the mirrored direction the mirror shows its pigment. -/
theorem eval_mirrored {tolerance : ℝ} (hTolerance : 0 < tolerance) (pigment : Pigment ℝ) (uv : SurfacePoint ℝ) :
    (specular pigment tolerance).eval normal (-incoming) (mirrored normal incoming) uv = pigment.colorAt uv := by
  have hSame : Scalar.abs (polarAngle normal.normalized.toVec (-incoming) -
      polarAngle normal.normalized.toVec (mirrored normal incoming)) < tolerance := by
    rw [polarAngle_mirrored hNormal hIncoming, sub_self]
    simpa [Scalar.abs] using hTolerance
  exact if_pos hSame

end Directions

/-- A mirror scatters what it says it reflects. Whatever the lengths of the incoming direction and of the normal
are, and on whichever side the normal stands, scattering draws nothing and gives a direction of unit length in the
plane of both, which leaves the normal as steeply as the light came towards it. Scattered again at the same normal
it becomes the direction in which the light came. Evaluated between where the light came from and where it goes,
the mirror shows its pigment, for every positive tolerance. -/
theorem scatter_specular_reflects {incoming : Vec ℝ} (hIncoming : incoming ≠ ⟨0, 0, 0⟩) {normal : Normal ℝ}
    (hNormal : normal ≠ ⟨0, 0, 0⟩) (pigment : Pigment ℝ) {tolerance : ℝ} (hTolerance : 0 < tolerance)
    (point : Point ℝ) (depth : ℕ) (uv : SurfacePoint ℝ) :
    ∃ outgoing : Vec ℝ,
      (∀ generator, ((specular pigment tolerance).scatter incoming point normal depth :
          Sampling (Ray ℝ)).run generator =
        .ok (⟨point, outgoing, ⟨1e-5, .unbounded⟩, depth⟩, generator)) ∧
      outgoing.norm = 1 ∧
      (∃ along across : ℝ, outgoing = incoming * along + normal.toVec * across) ∧
      normal.dot outgoing = -normal.dot incoming / incoming.norm ∧
      (∀ generator, ((specular pigment tolerance).scatter outgoing point normal depth :
          Sampling (Ray ℝ)).run generator =
        .ok (⟨point, incoming * (1 / incoming.norm), ⟨1e-5, .unbounded⟩, depth⟩, generator)) ∧
      (specular pigment tolerance).eval normal (-incoming) outgoing uv = pigment.colorAt uv := by
  have hTwice := mirrored_mirrored hNormal hIncoming
  rw [Vec.normalized_exact] at hTwice
  refine ⟨mirrored normal incoming, fun _ => rfl, ?_, exists_combination_mirrored normal incoming,
    dot_mirrored hNormal incoming, fun generator => ?_, eval_mirrored hNormal hIncoming hTolerance pigment uv⟩
  · exact (Vec.norm_eq_one_iff _).mpr (squaredNorm_mirrored hNormal hIncoming)
  · rw [← hTwice]
    rfl

/-- Light that falls onto a red mirror at a slant, with a direction of length three and a normal of length two. -/
theorem scatter_specular_reflects_slanted :
    (⟨1, 2, -2⟩ : Vec ℝ) ≠ ⟨0, 0, 0⟩ ∧ (⟨0, 0, 2⟩ : Normal ℝ) ≠ ⟨0, 0, 0⟩ ∧ (0 : ℝ) < 0.001 ∧
      ∃ outgoing : Vec ℝ, outgoing.norm = 1 ∧ outgoing.z = 2 / 3 ∧
        (specular (.uniform ⟨1, 0, 0⟩) 0.001).eval ⟨0, 0, 2⟩ (-⟨1, 2, -2⟩) outgoing ⟨0.5, 0.5⟩ =
          .ok (⟨1, 0, 0⟩ : Color ℝ) := by
  have hIncoming : (⟨1, 2, -2⟩ : Vec ℝ) ≠ ⟨0, 0, 0⟩ := by simp
  have hNormal : (⟨0, 0, 2⟩ : Normal ℝ) ≠ ⟨0, 0, 0⟩ := by simp
  have hTolerance : (0 : ℝ) < 0.001 := by norm_num
  obtain ⟨outgoing, -, hUnit, -, hSteep, -, hShown⟩ := scatter_specular_reflects hIncoming hNormal
    (.uniform ⟨1, 0, 0⟩) hTolerance ⟨0, 0, 0⟩ 1 ⟨0.5, 0.5⟩
  refine ⟨hIncoming, hNormal, hTolerance, outgoing, hUnit, ?_, hShown⟩
  have hLength : (⟨1, 2, -2⟩ : Vec ℝ).norm = 3 := by
    rw [Vec.norm_exact, Vec.squaredNorm_exact, show (1 * 1 + 2 * 2 + -2 * -2 : ℝ) = 3 ^ 2 by norm_num]
    exact Real.sqrt_sq (by norm_num)
  rw [hLength, Normal.dot, Normal.dot] at hSteep
  linarith

end Reflection

end RayTracer
