import Mathlib
import RayTracer.Proofs.Exact.Matrices

/-! Transformations put together from translations, scalings, rotations, products and inverses. The two
matrices of a transformation are never compared when it is built. That they stay inverse to each other, and
affine, is an invariant of every step of building. -/

namespace RayTracer.Transformation

/-- The two matrices are inverse to each other, and both are those of affine maps. -/
structure Regular (t : Transformation ℝ) : Prop where
  forward_backward : t.forward * t.backward = Matrix.identity
  backward_forward : t.backward * t.forward = Matrix.identity
  forward_affine : t.forward.row3 = Row.affine
  backward_affine : t.backward.row3 = Row.affine

/-- Transformations that finitely many constructors, products and inverses lead to. Scaling by zero along
an axis is left out, since nothing undoes it. -/
inductive Composed : Transformation ℝ → Prop where
  | identity : Composed .identity
  | translation (offset : Vec ℝ) : Composed (.translation offset)
  | scaling {factors : Vec ℝ} (hx : factors.x ≠ 0) (hy : factors.y ≠ 0) (hz : factors.z ≠ 0) :
      Composed (.scaling factors)
  | rotationX (angle : ℝ) : Composed (.rotationX angle)
  | rotationY (angle : ℝ) : Composed (.rotationY angle)
  | rotationZ (angle : ℝ) : Composed (.rotationZ angle)
  | mul {a b : Transformation ℝ} (ha : Composed a) (hb : Composed b) : Composed (a * b)
  | inverse {t : Transformation ℝ} (h : Composed t) : Composed t.inverse

theorem regular_identity : (identity : Transformation ℝ).Regular := by
  have hAffine : (Matrix.identity : Matrix ℝ).row3 = Row.affine := by
    rw [Matrix.identity_exact, Row.affine]
  exact ⟨Matrix.mul_identity _, Matrix.mul_identity _, hAffine, hAffine⟩

/-- A translation is undone by the opposite one. -/
theorem regular_translation (offset : Vec ℝ) : (translation offset).Regular := by
  have hCancel : offset + -offset = ⟨0, 0, 0⟩ := by
    change (⟨offset.x + -offset.x, offset.y + -offset.y, offset.z + -offset.z⟩ : Vec ℝ) = ⟨0, 0, 0⟩
    simp only [add_neg_cancel]
  have hBack : -offset + offset = ⟨0, 0, 0⟩ := by
    change (⟨-offset.x + offset.x, -offset.y + offset.y, -offset.z + offset.z⟩ : Vec ℝ) = ⟨0, 0, 0⟩
    simp only [neg_add_cancel]
  constructor
  · rw [translation, Matrix.translation_mul, hCancel, Matrix.translation_zero]
  · rw [translation, Matrix.translation_mul, hBack, Matrix.translation_zero]
  · exact regular_identity.forward_affine
  · exact regular_identity.forward_affine

/-- A scaling is undone by the reciprocal factors, if there are any. -/
theorem regular_scaling {factors : Vec ℝ} (hx : factors.x ≠ 0) (hy : factors.y ≠ 0)
    (hz : factors.z ≠ 0) : (scaling factors).Regular := by
  have hCancel {k : ℝ} (hk : k ≠ 0) : k * (1.0 / k) = 1 := by
    field_simp
    norm_num
  constructor
  · rw [scaling, Matrix.scaling_mul, hCancel hx, hCancel hy, hCancel hz, Matrix.scaling_one]
  · rw [scaling, Matrix.scaling_mul, mul_comm _ factors.x, mul_comm _ factors.y, mul_comm _ factors.z,
      hCancel hx, hCancel hy, hCancel hz, Matrix.scaling_one]
  · exact regular_identity.forward_affine
  · exact regular_identity.forward_affine

/-- Rotations around one axis, given as a family of matrices, are undone by those of the opposite angle. -/
theorem regular_rotation {rotation : ℝ → Matrix ℝ} (hMul : ∀ a b, rotation a * rotation b = rotation (a + b))
    (hZero : rotation 0 = Matrix.identity) (hAffine : ∀ a, (rotation a).row3 = Row.affine) (angle : ℝ) :
    (⟨rotation angle, rotation (-angle)⟩ : Transformation ℝ).Regular := by
  constructor
  · rw [hMul, add_neg_cancel, hZero]
  · rw [hMul, neg_add_cancel, hZero]
  · exact hAffine angle
  · exact hAffine (-angle)

/-- A rotation around the first axis is undone by turning back. -/
theorem regular_rotationX (angle : ℝ) : (rotationX angle).Regular :=
  regular_rotation Matrix.rotationX_mul Matrix.rotationX_zero
    (fun _ => regular_identity.forward_affine) (Scalar.radians angle)

theorem regular_rotationY (angle : ℝ) : (rotationY angle).Regular :=
  regular_rotation Matrix.rotationY_mul Matrix.rotationY_zero
    (fun _ => regular_identity.forward_affine) (Scalar.radians angle)

theorem regular_rotationZ (angle : ℝ) : (rotationZ angle).Regular :=
  regular_rotation Matrix.rotationZ_mul Matrix.rotationZ_zero
    (fun _ => regular_identity.forward_affine) (Scalar.radians angle)

/-- Products of the inverses in reverse order: the inner pair meets and cancels, then the outer one. -/
theorem cancel_between {a a' b b' : Matrix ℝ} (hInner : b * b' = Matrix.identity)
    (hOuter : a * a' = Matrix.identity) : a * b * (b' * a') = Matrix.identity := by
  calc
    a * b * (b' * a') = a * (b * b') * a' := by simp only [mul_assoc]
    _ = a * a' := by rw [hInner, Matrix.mul_identity]
    _ = Matrix.identity := hOuter

/-- Products keep the matrices inverse to each other and affine. -/
theorem Regular.mul {a b : Transformation ℝ} (ha : a.Regular) (hb : b.Regular) : (a * b).Regular where
  forward_backward := cancel_between hb.forward_backward ha.forward_backward
  backward_forward := cancel_between ha.backward_forward hb.backward_forward
  forward_affine := Matrix.row3_mul_of_affine ha.forward_affine hb.forward_affine
  backward_affine := Matrix.row3_mul_of_affine hb.backward_affine ha.backward_affine

/-- Inverses only let the two matrices change places. -/
theorem Regular.inverse {t : Transformation ℝ} (h : t.Regular) : t.inverse.Regular :=
  ⟨h.backward_forward, h.forward_backward, h.backward_affine, h.forward_affine⟩

/-- Whatever is put together is regular, by induction on how it is. -/
theorem Composed.regular {t : Transformation ℝ} (h : t.Composed) : t.Regular := by
  induction h with
  | identity => exact regular_identity
  | translation offset => exact regular_translation offset
  | scaling hx hy hz => exact regular_scaling hx hy hz
  | rotationX angle => exact regular_rotationX angle
  | rotationY angle => exact regular_rotationY angle
  | rotationZ angle => exact regular_rotationZ angle
  | mul _ _ ha hb => exact ha.mul hb
  | inverse _ h => exact h.inverse

/-- The image of a point under an affine map has weight one and is taken as it is. -/
theorem applyPoint_of_affine {t : Transformation ℝ} (hAffine : t.forward.row3 = Row.affine) (p : Point ℝ) :
    Scalar.same (t.forward.apply ⟨p.x, p.y, p.z, 1.0⟩).w 1.0 = true ∧
      t.applyPoint p = ⟨(t.forward.apply ⟨p.x, p.y, p.z, 1.0⟩).x,
        (t.forward.apply ⟨p.x, p.y, p.z, 1.0⟩).y, (t.forward.apply ⟨p.x, p.y, p.z, 1.0⟩).z⟩ := by
  have hWeight : Scalar.same (t.forward.apply ⟨p.x, p.y, p.z, 1.0⟩).w (1.0 : ℝ) = true := by
    rw [Matrix.apply_w_of_affine hAffine]
    norm_num [Scalar.same]
  refine ⟨hWeight, ?_⟩
  simp only [applyPoint, hWeight, ↓reduceIte]

/-- Every transformation that is put together keeps its two matrices inverse to each other and affine, so a
point is mapped without a division. -/
theorem inverse_affine_of_composed {t : Transformation ℝ} (h : t.Composed) :
    (t.forward * t.backward = Matrix.identity ∧ t.backward * t.forward = Matrix.identity) ∧
      (t.forward.row3 = ⟨0, 0, 0, 1⟩ ∧ t.backward.row3 = ⟨0, 0, 0, 1⟩) ∧
      ∀ p : Point ℝ, Scalar.same (t.forward.apply ⟨p.x, p.y, p.z, 1.0⟩).w 1.0 = true ∧
        t.applyPoint p = ⟨(t.forward.apply ⟨p.x, p.y, p.z, 1.0⟩).x,
          (t.forward.apply ⟨p.x, p.y, p.z, 1.0⟩).y, (t.forward.apply ⟨p.x, p.y, p.z, 1.0⟩).z⟩ := by
  have hRegular := h.regular
  exact ⟨⟨hRegular.forward_backward, hRegular.backward_forward⟩,
    ⟨hRegular.forward_affine, hRegular.backward_affine⟩, applyPoint_of_affine hRegular.forward_affine⟩

/-- Turned around all three axes, stretched unevenly, mirrored and moved, with a part of it undone. -/
noncomputable def tilted : Transformation ℝ :=
  let placed : Transformation ℝ := translation ⟨1.0, -2.0, 3.0⟩ * rotationX 30.0 * scaling ⟨2.0, -0.5, 4.0⟩
  placed.inverse * (rotationY (-45.0) * rotationZ 100.0)

theorem composed_tilted : tilted.Composed := by
  have hScaling : (scaling ⟨2.0, -0.5, 4.0⟩ : Transformation ℝ).Composed :=
    .scaling (by norm_num) (by norm_num) (by norm_num)
  exact .mul (.inverse (.mul (.mul (.translation _) (.rotationX 30.0)) hScaling))
    (.mul (.rotationY (-45.0)) (.rotationZ 100.0))

/-- A transformation of every kind there is, whose matrices are inverse to each other. -/
theorem inverse_affine_of_composed_tilted :
    tilted.Composed ∧ (tilted.forward * tilted.backward = Matrix.identity ∧
      tilted.backward * tilted.forward = Matrix.identity) ∧ tilted.backward.row3 = ⟨0, 0, 0, 1⟩ := by
  obtain ⟨hInverse, ⟨-, hBackward⟩, -⟩ := inverse_affine_of_composed composed_tilted
  exact ⟨composed_tilted, hInverse, hBackward⟩

end RayTracer.Transformation
