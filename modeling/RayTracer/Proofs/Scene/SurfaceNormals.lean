import Mathlib
import RayTracer.Proofs.Scene.SphereShadows

/-! Normals of surfaces, over exact numbers. A surface runs in the directions of the paths on it, and a normal is
perpendicular to all of them. When the surface is transformed, its paths are transformed point by point and their
directions by the matrix without its translation. Normals are mapped by the transposed inverse instead, which is what
keeps every product of a normal and a vector, whichever way the transformation has been put together. -/

namespace RayTracer

/-- A path of points that moves with a velocity when it passes the time zero. -/
structure Point.MovesBy (path : ℝ → Point ℝ) (velocity : Vec ℝ) : Prop where
  x : HasDerivAt (fun time => (path time).x) velocity.x 0
  y : HasDerivAt (fun time => (path time).y) velocity.y 0
  z : HasDerivAt (fun time => (path time).z) velocity.z 0

/-- A vector along a surface at a point: the velocity of a path that stays on the surface. -/
def Vec.IsAlong (v : Vec ℝ) (surface : Set (Point ℝ)) (p : Point ℝ) : Prop :=
  ∃ path : ℝ → Point ℝ, path 0 = p ∧ (∀ time, path time ∈ surface) ∧ Point.MovesBy path v

/-- A normal has no part along the surface. -/
def Normal.IsPerpendicularTo (n : Normal ℝ) (surface : Set (Point ℝ)) (p : Point ℝ) : Prop :=
  ∀ v : Vec ℝ, v.IsAlong surface p → n.dot v = 0

namespace Transformation

section Images

variable {t : Transformation ℝ}

/-- The translation moves all points of a path alike and does not change its velocity. -/
theorem hasDerivAt_dot {path : ℝ → Point ℝ} {velocity : Vec ℝ} (h : Point.MovesBy path velocity) (row : Row ℝ) :
    HasDerivAt (fun time => row.dot (homogeneous (path time))) (row.dotVec velocity) 0 :=
  (((h.x.const_mul row.x).add (h.y.const_mul row.y)).add (h.z.const_mul row.z)).add_const (row.w * 1.0)

/-- A point that is moved along moves by the velocity that is turned along. -/
theorem movesBy_applyPoint (hAffine : t.forward.row3 = Row.affine) {path : ℝ → Point ℝ} {velocity : Vec ℝ}
    (h : Point.MovesBy path velocity) :
    Point.MovesBy (fun time => t.applyPoint (path time)) (t.applyVec velocity) := by
  simp only [(applyPoint_of_affine hAffine _).2]
  exact ⟨hasDerivAt_dot h t.forward.row0, hasDerivAt_dot h t.forward.row1, hasDerivAt_dot h t.forward.row2⟩

/-- What runs along a surface runs along the moved surface when it is turned with it. -/
theorem isAlong_applyVec (hAffine : t.forward.row3 = Row.affine) {v : Vec ℝ} {surface : Set (Point ℝ)}
    {p : Point ℝ} (h : v.IsAlong surface p) :
    (t.applyVec v).IsAlong (t.applyPoint '' surface) (t.applyPoint p) := by
  obtain ⟨path, rfl, hOn, hMoves⟩ := h
  exact ⟨_, rfl, fun time => ⟨path time, hOn time, rfl⟩, movesBy_applyPoint hAffine hMoves⟩

theorem Regular.inverse_image_image (ht : t.Regular) (surface : Set (Point ℝ)) :
    t.inverse.applyPoint '' (t.applyPoint '' surface) = surface := by
  simp only [Set.image_image, ht.inverse_applyPoint, Set.image_id']

/-- Nothing runs along the image of a surface but the images of what runs along the surface. -/
theorem Regular.isAlong_inverse_applyVec (ht : t.Regular) {w : Vec ℝ} {surface : Set (Point ℝ)} {p : Point ℝ}
    (h : w.IsAlong (t.applyPoint '' surface) (t.applyPoint p)) : (t.inverse.applyVec w).IsAlong surface p := by
  have hBack := isAlong_applyVec ht.inverse.forward_affine h
  rwa [ht.inverse_image_image, ht.inverse_applyPoint] at hBack

/-- Normals and vectors keep their product when both are turned. -/
theorem Regular.dot_applyNormal_applyVec (ht : t.Regular) (n : Normal ℝ) (v : Vec ℝ) :
    (t.applyNormal n).dot (t.applyVec v) = n.dot v := by
  rw [dot_applyNormal, ht.inverse_applyVec]

/-- A turned normal is perpendicular to the moved surface when it was so before. -/
theorem Regular.isPerpendicularTo_applyNormal_iff (ht : t.Regular) (n : Normal ℝ) (surface : Set (Point ℝ))
    (p : Point ℝ) :
    (t.applyNormal n).IsPerpendicularTo (t.applyPoint '' surface) (t.applyPoint p) ↔
      n.IsPerpendicularTo surface p := by
  constructor
  · intro hImage v hAlong
    rw [← ht.dot_applyNormal_applyVec]
    exact hImage _ (isAlong_applyVec ht.forward_affine hAlong)
  · intro hNormal w hAlong
    rw [dot_applyNormal]
    exact hNormal _ (ht.isAlong_inverse_applyVec hAlong)

end Images

end Transformation

theorem Normal.IsPerpendicularTo.scale {n : Normal ℝ} {surface : Set (Point ℝ)} {p : Point ℝ}
    (h : n.IsPerpendicularTo surface p) (k : ℝ) : (n * k).IsPerpendicularTo surface p := by
  intro v hAlong
  rw [scale_dot, h v hAlong, zero_mul]

/-- A path on the unit sphere keeps its distance from the center, and one on the plane its height. -/
theorem Solid.isPerpendicularTo_outward (solid : Solid) (p : Point ℝ) :
    (solid.outward p).IsPerpendicularTo {q | solid.Contains q} p := by
  rintro v ⟨path, rfl, hOn, hMoves⟩
  cases solid with
  | sphere =>
      have hSlope : HasDerivAt (fun time => (path time).x ^ 2 + (path time).y ^ 2 + (path time).z ^ 2)
          (2 * (outward .sphere (path 0)).dot v) 0 := by
        refine (((hMoves.x.pow 2).add (hMoves.y.pow 2)).add (hMoves.z.pow 2)).congr_deriv ?_
        simp only [outward, Normal.dot]
        ring
      have hKept : (fun time => (path time).x ^ 2 + (path time).y ^ 2 + (path time).z ^ 2) = fun _ => 1 := funext hOn
      rw [hKept] at hSlope
      linarith [hSlope.unique (hasDerivAt_const 0 1)]
  | plane =>
      have hSlope := hMoves.z
      have hKept : (fun time => (path time).z) = fun _ => 0 := funext hOn
      rw [hKept] at hSlope
      simp only [outward, Normal.dot, hSlope.unique (hasDerivAt_const 0 0)]
      ring

/-- The normal of a hit is perpendicular to the surface that was hit. -/
theorem Shape.isPerpendicularTo_of_intersect? {shape : Shape ℝ} (hRegular : shape.transformation.Regular)
    {ray : Ray ℝ} {hit : Hit ℝ} (h : shape.intersect? ray = some hit) :
    hit.normal.IsPerpendicularTo shape.surface hit.point := by
  obtain ⟨t, -, rfl⟩ := Option.map_eq_some_iff.mp h
  refine (hRegular.isPerpendicularTo_applyNormal_iff _ _ _).mpr ?_
  rw [Solid.normalAt_eq]
  exact (shape.solid.isPerpendicularTo_outward _).scale _

/-- Normals and vectors are dual under every transformation that is composed of translations, rotations, scalings by
other factors than zero and inverses of these, and under every affine one whose matrices are inverse to each other: the
image of a normal stands to the image of a vector as the normal does to the vector. So a normal is perpendicular to a
surface at a point exactly if its image is so to the transformed surface at the image of the point, whatever the surface
is, and the normal of a hit is perpendicular to the surface of the shape in the world. -/
theorem Transformation.applyNormal_dual {t : Transformation ℝ}
    (h : t.Composed ∨ t.forward * t.backward = Matrix.identity ∧ t.forward.row3 = ⟨0, 0, 0, 1⟩) :
    (∀ (n : Normal ℝ) (v : Vec ℝ), (t.applyNormal n).dot (t.applyVec v) = n.dot v) ∧
      (∀ (n : Normal ℝ) (surface : Set (Point ℝ)) (p : Point ℝ),
        (t.applyNormal n).IsPerpendicularTo (t.applyPoint '' surface) (t.applyPoint p) ↔
          n.IsPerpendicularTo surface p) ∧
      ∀ (shape : Shape ℝ) (ray : Ray ℝ) (hit : Hit ℝ), shape.transformation = t → shape.intersect? ray = some hit →
        hit.normal.IsPerpendicularTo shape.surface hit.point := by
  have hRegular : t.Regular := by
    rcases h with hComposed | ⟨hInverse, hAffine⟩
    · exact hComposed.regular
    · exact regular_of_affine hInverse hAffine
  refine ⟨hRegular.dot_applyNormal_applyVec, hRegular.isPerpendicularTo_applyNormal_iff, ?_⟩
  rintro shape ray hit rfl hHit
  exact Shape.isPerpendicularTo_of_intersect? hRegular hHit

/-- An upright plane that runs from one quadrant of the ground to the opposite one. -/
def Point.diagonal : Set (Point ℝ) := {p | p.x + p.y = 0}

theorem Normal.isPerpendicularTo_diagonal : (⟨1, 1, 0⟩ : Normal ℝ).IsPerpendicularTo Point.diagonal ⟨0, 0, 0⟩ := by
  rintro v ⟨path, -, hOn, hMoves⟩
  have hSlope : HasDerivAt (fun time => (path time).x + (path time).y) (v.x + v.y) 0 := hMoves.x.add hMoves.y
  have hKept : (fun time => (path time).x + (path time).y) = fun _ => 0 := funext hOn
  rw [hKept] at hSlope
  rw [dot]
  linarith [hSlope.unique (hasDerivAt_const 0 0)]

theorem Vec.isAlong_diagonal : (⟨1, -1, 0⟩ : Vec ℝ).IsAlong Point.diagonal ⟨0, 0, 0⟩ := by
  refine ⟨fun time => ⟨time, -time, 0⟩, ?_, fun time => add_neg_cancel time, ?_⟩
  · simp only [neg_zero]
  · exact ⟨hasDerivAt_id' 0, (hasDerivAt_id' 0).neg, hasDerivAt_const 0 0⟩

/-- Under the uneven scaling of the egg a normal of the diagonal plane stays perpendicular to it. A vector with the same
components, which is mapped by the matrix, does not. The normal of the egg itself is perpendicular to it at its top. -/
theorem Transformation.applyNormal_dual_egg :
    Shape.egg.transformation.Composed ∧
      (Shape.egg.transformation.applyNormal ⟨1, 1, 0⟩).IsPerpendicularTo
        (Shape.egg.transformation.applyPoint '' Point.diagonal) (Shape.egg.transformation.applyPoint ⟨0, 0, 0⟩) ∧
      ¬(Shape.egg.transformation.applyVec ⟨1, 1, 0⟩).toNormal.IsPerpendicularTo
        (Shape.egg.transformation.applyPoint '' Point.diagonal) (Shape.egg.transformation.applyPoint ⟨0, 0, 0⟩) ∧
      (Shape.egg.hitAt Shape.fromCenter (1 / 2)).normal.IsPerpendicularTo Shape.egg.surface ⟨0, 0, 1 / 2⟩ := by
  have hComposed : Shape.egg.transformation.Composed :=
    .scaling (by norm_num) (by norm_num) (by norm_num)
  obtain ⟨-, hSurfaces, hHits⟩ := applyNormal_dual (.inl hComposed)
  have hHit : Shape.egg.intersect? Shape.fromCenter = some (Shape.egg.hitAt Shape.fromCenter (1 / 2)) := by
    rw [Shape.intersect?, Shape.parameter?_egg, Option.map_some]
  have hTop : (Shape.egg.hitAt Shape.fromCenter (1 / 2)).point = ⟨0, 0, 1 / 2⟩ := by
    rw [Shape.point_hitAt Shape.regular_egg, Ray.pointAt_exact]
    norm_num [Shape.fromCenter]
  refine ⟨hComposed, (hSurfaces _ _ _).mpr Normal.isPerpendicularTo_diagonal, fun hMapped => ?_,
    hTop ▸ hHits _ _ _ rfl hHit⟩
  have hNone := hMapped _ (isAlong_applyVec Shape.regular_egg.forward_affine Vec.isAlong_diagonal)
  norm_num [Shape.egg, scaling, applyVec, Matrix.applyVec, Matrix.scaling, Row.dotVec, Vec.toNormal,
    Normal.dot] at hNone

end RayTracer
