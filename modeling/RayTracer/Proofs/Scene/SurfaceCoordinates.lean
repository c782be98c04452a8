import Mathlib
import RayTracer.Proofs.Scene.HitGeometry
import RayTracer.Proofs.Scene.RescaledRays

/-! Coordinates on surfaces, over exact numbers. Longitude and colatitude give a point of the unit sphere back: the
colatitude gives its height and its distance from the axis, and the longitude gives the direction from the axis, where
there is one. At the poles there is none, and any longitude does. The coordinates of a plane are what is left of its
own coordinates when whole squares are taken away. -/

namespace RayTracer.Solid

/-- The point of the unit sphere at a longitude and a colatitude, as parts of a full and of a half turn. -/
noncomputable def spherePoint (uv : SurfacePoint ℝ) : Point ℝ :=
  ⟨Real.sin (Real.pi * uv.v) * Real.cos (2.0 * Real.pi * uv.u),
    Real.sin (Real.pi * uv.v) * Real.sin (2.0 * Real.pi * uv.u), Real.cos (Real.pi * uv.v)⟩

/-- The angle around the axis of a point, from minus a half turn to a half turn. -/
noncomputable def azimuth (p : Point ℝ) : ℝ := Complex.arg ⟨p.x, p.y⟩

theorem spherePoint_exact (uv : SurfacePoint ℝ) : spherePoint uv =
    ⟨Real.sin (Real.pi * uv.v) * Real.cos (2 * Real.pi * uv.u),
      Real.sin (Real.pi * uv.v) * Real.sin (2 * Real.pi * uv.u), Real.cos (Real.pi * uv.v)⟩ := by
  rw [spherePoint, Scalar.two_exact]

theorem u_sphereCoordinates (p : Point ℝ) : (sphereCoordinates p).u =
    if 0 ≤ azimuth p then azimuth p / (2 * Real.pi) else azimuth p / (2 * Real.pi) + 1 := by
  have hSign : 0 ≤ azimuth p / (2 * Real.pi) ↔ 0 ≤ azimuth p := by
    rw [le_div_iff₀ Real.two_pi_pos, zero_mul]
  have hU : (sphereCoordinates p).u = if (0.0 : ℝ) ≤ azimuth p / (2.0 * Real.pi) then azimuth p / (2.0 * Real.pi)
      else azimuth p / (2.0 * Real.pi) + 1.0 := rfl
  rw [hU, Scalar.zero_exact, Scalar.one_exact, Scalar.two_exact]
  simp only [hSign]

theorem v_sphereCoordinates (p : Point ℝ) : (sphereCoordinates p).v = Real.arccos p.z / Real.pi := by
  rw [← Scalar.acos_clamp]
  rfl

/-- The shift of negative angles keeps the longitude below a full turn. -/
theorem u_mem_Ico (p : Point ℝ) : (sphereCoordinates p).u ∈ Set.Ico 0 1 := by
  have hTurn := Real.two_pi_pos
  have hLower : -Real.pi < azimuth p := Complex.neg_pi_lt_arg _
  have hUpper : azimuth p ≤ Real.pi := Complex.arg_le_pi _
  rw [u_sphereCoordinates]
  split
  next hAhead =>
      refine ⟨by positivity, ?_⟩
      rw [div_lt_one hTurn]
      linarith [Real.pi_pos]
  next hBehind =>
      have hPart : azimuth p / (2 * Real.pi) < 0 := div_neg_of_neg_of_pos (not_le.mp hBehind) hTurn
      have hHalf : -1 < azimuth p / (2 * Real.pi) := by
        rw [lt_div_iff₀ hTurn]
        linarith [Real.pi_pos]
      constructor <;> linarith

/-- The longitude is the azimuth, up to a full turn. -/
theorem exists_turns (p : Point ℝ) : ∃ turns : ℤ, 2 * Real.pi * (sphereCoordinates p).u =
    azimuth p + turns * (2 * Real.pi) := by
  have hTurn := Real.two_pi_pos.ne'
  rw [u_sphereCoordinates]
  split
  next => exact ⟨0, by field_simp; norm_num⟩
  next => exact ⟨1, by field_simp; norm_num⟩

theorem v_mem_Icc (p : Point ℝ) : (sphereCoordinates p).v ∈ Set.Icc 0 1 := by
  rw [v_sphereCoordinates]
  refine ⟨div_nonneg (Real.arccos_nonneg _) Real.pi_pos.le, ?_⟩
  rw [div_le_one Real.pi_pos]
  exact Real.arccos_le_pi _

theorem height_mem_Icc {p : Point ℝ} (hOn : sphere.Contains p) : p.z ∈ Set.Icc (-1) 1 := by
  have hSum : p.x ^ 2 + p.y ^ 2 + p.z ^ 2 = 1 := hOn
  have hSquare : p.z ^ 2 ≤ 1 := by linarith [sq_nonneg p.x, sq_nonneg p.y]
  exact abs_le.mp ((sq_le_one_iff_abs_le_one _).mp hSquare)

/-- The distance from the axis is the sine of the colatitude. -/
theorem sin_colatitude {p : Point ℝ} (hOn : sphere.Contains p) :
    Real.sin (Real.pi * (sphereCoordinates p).v) = ‖(⟨p.x, p.y⟩ : ℂ)‖ := by
  have hSum : p.x ^ 2 + p.y ^ 2 + p.z ^ 2 = 1 := hOn
  have hRest : 1 - p.z ^ 2 = p.x ^ 2 + p.y ^ 2 := by linarith
  rw [v_sphereCoordinates, mul_div_cancel₀ _ Real.pi_ne_zero, Real.sin_arccos, hRest,
    Complex.norm_eq_sqrt_sq_add_sq]

/-- The height on the sphere is the cosine of the colatitude. -/
theorem cos_colatitude {p : Point ℝ} (hOn : sphere.Contains p) :
    Real.cos (Real.pi * (sphereCoordinates p).v) = p.z := by
  have hHeight := height_mem_Icc hOn
  rw [v_sphereCoordinates, mul_div_cancel₀ _ Real.pi_ne_zero, Real.cos_arccos hHeight.1 hHeight.2]

/-- The point of a sphere is found again by its coordinates. -/
theorem spherePoint_sphereCoordinates {p : Point ℝ} (hOn : sphere.Contains p) :
    spherePoint (sphereCoordinates p) = p := by
  obtain ⟨turns, hTurns⟩ := exists_turns p
  have hX : ‖(⟨p.x, p.y⟩ : ℂ)‖ * Real.cos (azimuth p) = p.x := Complex.norm_mul_cos_arg _
  have hY : ‖(⟨p.x, p.y⟩ : ℂ)‖ * Real.sin (azimuth p) = p.y := Complex.norm_mul_sin_arg _
  rw [spherePoint_exact, sin_colatitude hOn, cos_colatitude hOn, hTurns, Real.cos_add_int_mul_two_pi,
    Real.sin_add_int_mul_two_pi, hX, hY]

/-- What is left of the coordinates of a point when the whole squares before it are taken away. -/
theorem planeCoordinates_exact (p : Point ℝ) : planeCoordinates p = ⟨Int.fract p.x, Int.fract p.y⟩ := rfl

/-- Every square of the plane has the coordinates of the unit square. -/
theorem planeCoordinates_mem_Ico (p : Point ℝ) :
    (planeCoordinates p).u ∈ Set.Ico 0 1 ∧ (planeCoordinates p).v ∈ Set.Ico 0 1 := by
  rw [planeCoordinates_exact]
  exact ⟨⟨Int.fract_nonneg _, Int.fract_lt_one _⟩, ⟨Int.fract_nonneg _, Int.fract_lt_one _⟩⟩

/-- A point of the plane is found again by its coordinates and its square. -/
theorem exists_squares {p : Point ℝ} (hOn : plane.Contains p) :
    ∃ right up : ℤ, p = ⟨(planeCoordinates p).u + right, (planeCoordinates p).v + up, 0⟩ := by
  have hHeight : p.z = 0 := hOn
  refine ⟨⌊p.x⌋, ⌊p.y⌋, ?_⟩
  rw [planeCoordinates_exact, Int.fract_add_floor, Int.fract_add_floor, ← hHeight]

/-- Where a shape is hit, in its own space, and what this makes of the hit. -/
theorem exists_local_of_intersect? {shape : Shape ℝ} {ray : Ray ℝ} {hit : Hit ℝ}
    (h : shape.intersect? ray = some hit) :
    shape.solid.Contains ((shape.localRay ray).pointAt hit.t) ∧
      hit.uv = shape.solid.coordinatesAt ((shape.localRay ray).pointAt hit.t) ∧
      hit.point = shape.transformation.applyPoint ((shape.localRay ray).pointAt hit.t) := by
  obtain ⟨t, hParameter, rfl⟩ := Option.map_eq_some_iff.mp h
  exact ⟨contains_of_parameter? hParameter, rfl, rfl⟩

/-- Surface coordinates say where on the surface a point is. Every point of the unit sphere has a longitude from zero
up to a full turn, which it does not reach, and a colatitude from zero to a half turn, and it is the point that
spherical coordinates give for the two; this holds at the poles and on both sides of the meridian where longitudes
begin. So a hit of a sphere is where the shape carries the point with its coordinates. A hit of a plane has coordinates
inside the unit square, and whole squares lie between them and the place of the hit in the space of the plane. -/
theorem coordinates_parametrize_surface :
    (∀ p : Point ℝ, sphere.Contains p → ∃ u v, sphereCoordinates p = ⟨u, v⟩ ∧ (0 ≤ u ∧ u < 1) ∧ (0 ≤ v ∧ v ≤ 1) ∧
      p = ⟨Real.sin (Real.pi * v) * Real.cos (2 * Real.pi * u), Real.sin (Real.pi * v) * Real.sin (2 * Real.pi * u),
        Real.cos (Real.pi * v)⟩) ∧
    ∀ (shape : Shape ℝ) (ray : Ray ℝ) (hit : Hit ℝ), shape.intersect? ray = some hit →
      (shape.solid = .sphere → hit.point = shape.transformation.applyPoint (spherePoint hit.uv)) ∧
      (shape.solid = .plane → (0 ≤ hit.uv.u ∧ hit.uv.u < 1) ∧ (0 ≤ hit.uv.v ∧ hit.uv.v < 1) ∧
        ∃ right up : ℤ, (shape.localRay ray).pointAt hit.t = ⟨hit.uv.u + right, hit.uv.v + up, 0⟩ ∧
          hit.point = shape.transformation.applyPoint ⟨hit.uv.u + right, hit.uv.v + up, 0⟩) := by
  refine ⟨fun p hOn => ?_, fun shape ray hit hHit => ?_⟩
  · exact ⟨_, _, rfl, u_mem_Ico p, v_mem_Icc p,
      (spherePoint_sphereCoordinates hOn).symm.trans (spherePoint_exact (sphereCoordinates p))⟩
  · obtain ⟨hOn, hCoordinates, hPoint⟩ := exists_local_of_intersect? hHit
    refine ⟨fun hSphere => ?_, fun hPlane => ?_⟩
    · rw [hSphere] at hOn hCoordinates
      rw [hPoint, hCoordinates, coordinatesAt, spherePoint_sphereCoordinates hOn]
    · rw [hPlane] at hOn hCoordinates
      obtain ⟨hAcross, hUp⟩ := planeCoordinates_mem_Ico ((shape.localRay ray).pointAt hit.t)
      obtain ⟨right, up, hSquares⟩ := exists_squares hOn
      have hUv : hit.uv = planeCoordinates ((shape.localRay ray).pointAt hit.t) := hCoordinates
      rw [← hUv] at hAcross hUp hSquares
      exact ⟨hAcross, hUp, right, up, hSquares, by rw [hPoint, hSquares]⟩

/-- A ray straight down, left of the axis of the ground by five quarters of a square. -/
noncomputable def ontoTiles : Ray ℝ := ⟨⟨-1.25, 3.5, 1⟩, ⟨0, 0, -1⟩, ⟨0, .unbounded⟩, 0⟩

/-- A point close before the meridian where longitudes begin, the pole of the egg, and a tile of the ground. -/
theorem coordinates_parametrize_surface_seam :
    (sphere.Contains ⟨4 / 5, -(3 / 5), 0⟩ ∧ ∃ u v, sphereCoordinates (⟨4 / 5, -(3 / 5), 0⟩ : Point ℝ) = ⟨u, v⟩ ∧
      (0 ≤ u ∧ u < 1) ∧ Real.sin (Real.pi * v) * Real.sin (2 * Real.pi * u) = -(3 / 5)) ∧
    (∃ hit, Shape.egg.intersect? Shape.fromCenter = some hit ∧
      hit.point = Shape.egg.transformation.applyPoint (spherePoint hit.uv)) ∧
    ∃ hit, Shape.ground.intersect? ontoTiles = some hit ∧ hit.uv = ⟨3 / 4, 1 / 2⟩ := by
  have hOn : sphere.Contains ⟨4 / 5, -(3 / 5), 0⟩ := by norm_num [Contains]
  have hEgg : Shape.egg.intersect? Shape.fromCenter = some (Shape.egg.hitAt Shape.fromCenter (1 / 2)) := by
    rw [Shape.intersect?, Shape.parameter?_egg, Option.map_some]
  have hParameter : Shape.ground.parameter? ontoTiles = some 1 := by
    rw [Shape.parameter?, Shape.localRay_ground, Shape.ground, parameter?, planeParameter?]
    norm_num [ontoTiles, Scalar.abs, Interval.surrounds, UpperBound.exceeds, Scalar.belowInfinity]
  have hGround : Shape.ground.intersect? ontoTiles = some (Shape.ground.hitAt ontoTiles 1) := by
    rw [Shape.intersect?, hParameter, Option.map_some]
  refine ⟨⟨hOn, ?_⟩, ⟨_, hEgg, (coordinates_parametrize_surface.2 _ _ _ hEgg).1 rfl⟩, _, hGround, ?_⟩
  · obtain ⟨u, v, hCoordinates, hLongitude, -, hPoint⟩ := coordinates_parametrize_surface.1 _ hOn
    exact ⟨u, v, hCoordinates, hLongitude, (congrArg Point.y hPoint).symm⟩
  · obtain ⟨⟨hULow, hUHigh⟩, ⟨hVLow, hVHigh⟩, right, up, hPlace, -⟩ :=
      (coordinates_parametrize_surface.2 _ _ _ hGround).2 rfl
    have hParameterOne : (Shape.ground.hitAt ontoTiles 1).t = 1 := rfl
    generalize (Shape.ground.hitAt ontoTiles 1).uv = uv at *
    rw [Shape.localRay_ground, hParameterOne, Ray.pointAt_exact, ontoTiles, Point.mk.injEq] at hPlace
    obtain ⟨hAcross, hAlong, -⟩ := hPlace
    -- The squares are the only whole numbers that leave coordinates inside the unit square.
    have hRight : right = -2 := by
      have hAbove : (-3 : ℝ) < right := by linarith
      have hBelow : (right : ℝ) < -1 := by linarith
      norm_cast at hAbove hBelow
      omega
    have hUp : up = 3 := by
      have hAbove : (2 : ℝ) < up := by linarith
      have hBelow : (up : ℝ) < 4 := by linarith
      norm_cast at hAbove hBelow
      omega
    subst hRight hUp
    obtain ⟨u, v⟩ := uv
    rw [SurfacePoint.mk.injEq]
    norm_num at hAcross hAlong
    constructor <;> linarith

end RayTracer.Solid
