import Mathlib
import RayTracer.Proofs.Scene.FirstNearest

/-! Shadows and sight. Whether a point is visible is found by asking the shapes one by one whether they are in
the way, without working out where they are met. A shape is in the way of exactly the rays that meet it, so
this agrees with what the ray towards the point sees. -/

namespace RayTracer

variable {α : Type} [Scalar α]

/-- A shape blocks the rays for which it has a hit, whatever the numbers of the ray are. -/
theorem Shape.blocks_eq_isSome (shape : Shape α) (ray : Ray α) :
    shape.blocks ray = (shape.intersect? ray).isSome := by
  rw [blocks, intersect?, Option.isSome_map]

namespace World

/-- The scan that stops at the first shape in the way finds one exactly when the search for the nearest hit
has one to keep. -/
theorem any_blocks_eq_isSome (world : World α) (ray : Ray α) :
    world.shapes.any (·.blocks ray) = (world.intersect? ray).isSome := by
  cases hSeen : world.intersect? ray with
  | none =>
      rw [intersect?_eq_none_iff] at hSeen
      refine List.any_eq_false.mpr fun shape hShape => ?_
      rw [shape.blocks_eq_isSome, hSeen shape hShape]
      exact Bool.false_ne_true
  | some hit =>
      obtain ⟨shape, hShape, met, hMet, -⟩ := exists_shape_of_intersect? hSeen
      refine List.any_eq_true.mpr ⟨shape, hShape, ?_⟩
      rw [shape.blocks_eq_isSome, hMet]
      rfl

/-- A point is visible when the sight line sees nothing. -/
theorem isVisible_eq_isNone (world : World α) (point observer : Point α) :
    world.isVisible point observer = (world.intersect? (sightLine point observer)).isNone := by
  rw [isVisible, any_blocks_eq_isSome, Option.not_isSome]

/-- In binary64 a point is visible exactly when the ray towards it, which leaves out a hundredth of a unit of
length at the observer and ends just before the point, sees nothing. A hidden point is hidden by what that ray
sees, strictly inside its interval. Coordinates may be infinite or no numbers, and both points may be one. -/
theorem isVisible_iff_unseen (world : World Float) (point observer : Point Float) :
    let towards : Ray Float :=
      ⟨observer, point - observer, ⟨1e-2 / (point - observer).norm, .below 1.0⟩, 0⟩
    (world.isVisible point observer = true ↔ world.intersect? towards = none) ∧
      (world.isVisible point observer = false ↔ ∃ hit, world.intersect? towards = some hit ∧
        1e-2 / (point - observer).norm < hit.t ∧ hit.t < 1.0) := by
  intro towards
  have hTowards : sightLine point observer = towards := rfl
  rw [isVisible_eq_isNone, hTowards]
  refine ⟨Option.isNone_iff_eq_none, ?_⟩
  rw [Option.isNone_eq_false_iff, Option.isSome_iff_exists]
  refine exists_congr fun hit => (and_iff_left_of_imp fun hSeen => ?_).symm
  have hInside := surrounds_of_intersect? hSeen
  rw [Interval.surrounds, Bool.and_eq_true, decide_eq_true_eq] at hInside
  exact ⟨hInside.1, of_decide_eq_true hInside.2⟩

end World

end RayTracer
