import Mathlib
import RayTracer.Proofs.Scene.HitGeometry

/-! Where a ray meets the unit sphere, over exact numbers. A line passes the sphere by, touches it, or runs
through it at two parameters. Only the last is a hit, and then the first parameter is taken that lies strictly
inside the interval of the ray: the near one if it does, else the far one. -/

namespace RayTracer

namespace Ray

/-- The whole line of a ray passes the unit sphere by. -/
def MissesSphere (ray : Ray ℝ) : Prop := ∀ t, ¬Solid.sphere.Contains (ray.pointAt t)

/-- The whole line of a ray has a single point on the unit sphere. -/
def TouchesSphere (ray : Ray ℝ) : Prop := ∃! t, Solid.sphere.Contains (ray.pointAt t)

/-- The parameters strictly inside the interval of a ray whose points lie on the unit sphere. -/
def sphereParameters (ray : Ray ℝ) : Set ℝ :=
  {t | (ray.interval.min < t ∧ ray.interval.max.exceeds t = true) ∧ Solid.sphere.Contains (ray.pointAt t)}

end Ray

namespace Solid

variable {ray : Ray ℝ}

section Lines

variable (hDirection : ray.direction ≠ ⟨0, 0, 0⟩)

include hDirection

/-- The discriminant vanishes where the line of the ray touches the sphere. -/
theorem sphereDiscriminant_eq_zero_iff : sphereDiscriminant ray = 0 ↔ ray.TouchesSphere := by
  rw [sphereDiscriminant_eq, discrim_eq_zero_iff (Vec.squaredNorm_pos hDirection).ne',
    Ray.TouchesSphere]
  simp only [contains_sphere_iff]

theorem sphereDiscriminant_neg_iff : sphereDiscriminant ray < 0 ↔ ray.MissesSphere := by
  constructor
  · intro hNegative t hOn
    have hSquare := discrim_eq_sq_of_quadratic_eq_zero ((contains_sphere_iff ray t).mp hOn)
    rw [← sphereDiscriminant_eq] at hSquare
    exact absurd hNegative (not_lt.mpr (hSquare ▸ sq_nonneg _))
  · intro hMisses
    by_contra hNotNegative
    -- A discriminant that is not negative has a root, and with it the equation.
    obtain ⟨t, hRoot⟩ := exists_quadratic_eq_zero (Vec.squaredNorm_pos hDirection).ne'
      ⟨_, sphereDiscriminant_eq ray ▸ (Real.mul_self_sqrt (not_lt.mp hNotNegative)).symm⟩
    exact hMisses t ((contains_sphere_iff ray t).mpr hRoot)

theorem sphereDiscriminant_pos_iff : 0 < sphereDiscriminant ray ↔ ¬ray.TouchesSphere ∧ ¬ray.MissesSphere := by
  rw [← sphereDiscriminant_eq_zero_iff hDirection, ← sphereDiscriminant_neg_iff hDirection, not_lt,
    lt_iff_le_and_ne, and_comm, ne_comm]

/-- There are two roots, the near one first. -/
theorem nearRoot_lt_farRoot (h : 0 < sphereDiscriminant ray) : nearRoot ray < farRoot ray := by
  have hLength := Vec.squaredNorm_pos hDirection
  have hRoot := Real.sqrt_pos.mpr h
  rw [nearRoot_eq, farRoot_eq]
  gcongr
  linarith

end Lines

/-- The parameters on the sphere are the two roots, as far as they are within the interval. -/
theorem mem_sphereParameters (h : 0 < sphereDiscriminant ray) (t : ℝ) :
    t ∈ ray.sphereParameters ↔ ray.interval.surrounds t = true ∧ (t = farRoot ray ∨ t = nearRoot ray) := by
  simp [Ray.sphereParameters, contains_iff_root h, Interval.surrounds]

/-- The interval decides between the two roots, the near one coming first. -/
theorem sphereParameter?_cases (hDirection : ray.direction ≠ ⟨0, 0, 0⟩) (h : 0 < sphereDiscriminant ray) :
    (∃ t, sphereParameter? ray = some t ∧ IsLeast ray.sphereParameters t) ∨
      sphereParameter? ray = none ∧ ray.sphereParameters = ∅ := by
  have hOrder := nearRoot_lt_farRoot hDirection h
  rw [sphereParameter?_eq, if_neg (not_le.mpr h)]
  by_cases hNear : ray.interval.surrounds (nearRoot ray) = true
  · refine Or.inl ⟨nearRoot ray, if_pos hNear, (mem_sphereParameters h _).mpr ⟨hNear, Or.inr rfl⟩, ?_⟩
    intro t hMem
    rcases ((mem_sphereParameters h t).mp hMem).2 with hFar | hSame
    · exact hFar ▸ hOrder.le
    · exact hSame.ge
  · rw [if_neg hNear]
    by_cases hFar : ray.interval.surrounds (farRoot ray) = true
    · refine Or.inl ⟨farRoot ray, if_pos hFar, (mem_sphereParameters h _).mpr ⟨hFar, Or.inl rfl⟩, ?_⟩
      intro t hMem
      obtain ⟨hInside, hSame | hOther⟩ := (mem_sphereParameters h t).mp hMem
      · exact hSame.ge
      · exact absurd (hOther ▸ hInside) hNear
    · refine Or.inr ⟨if_neg hFar, Set.eq_empty_of_forall_notMem ?_⟩
      intro t hMem
      obtain ⟨hInside, rfl | rfl⟩ := (mem_sphereParameters h t).mp hMem
      · exact hFar hInside
      · exact hNear hInside

/-- The parameter of a hit is right, and it is found whenever there is one. A ray with a direction hits the
unit sphere at a parameter exactly if its line neither touches the sphere nor misses it and the parameter is
the least one strictly inside the interval at which the line is on the sphere. It hits nothing exactly if the
discriminant is not positive, so that the line touches or misses, or if the interval holds no such
parameter. -/
theorem sphereParameter?_isLeast {ray : Ray ℝ} (hDirection : ray.direction ≠ ⟨0, 0, 0⟩) :
    (∀ t, sphereParameter? ray = some t ↔ (¬ray.TouchesSphere ∧ ¬ray.MissesSphere) ∧
      IsLeast {s | (ray.interval.min < s ∧ ray.interval.max.exceeds s = true) ∧
        (ray.pointAt s).x ^ 2 + (ray.pointAt s).y ^ 2 + (ray.pointAt s).z ^ 2 = 1} t) ∧
    (sphereParameter? ray = none ↔
      (2 * ray.origin.toVec.dot ray.direction) ^ 2 -
          4 * ray.direction.squaredNorm * (ray.origin.toVec.squaredNorm - 1) ≤ 0 ∨
        ∀ s, ray.interval.min < s → ray.interval.max.exceeds s = true →
          (ray.pointAt s).x ^ 2 + (ray.pointAt s).y ^ 2 + (ray.pointAt s).z ^ 2 ≠ 1) ∧
    ((2 * ray.origin.toVec.dot ray.direction) ^ 2 -
        4 * ray.direction.squaredNorm * (ray.origin.toVec.squaredNorm - 1) ≤ 0 ↔
      ray.TouchesSphere ∨ ray.MissesSphere) := by
  have hHits (t : ℝ) : sphereParameter? ray = some t ↔
      0 < sphereDiscriminant ray ∧ IsLeast ray.sphereParameters t := by
    constructor
    · intro hTaken
      have hPositive := (root_of_sphereParameter? hTaken).1
      rcases sphereParameter?_cases hDirection hPositive with ⟨s, hSome, hLeast⟩ | ⟨hNone, -⟩
      · obtain rfl := Option.some.inj (hSome.symm.trans hTaken)
        exact ⟨hPositive, hLeast⟩
      · cases hNone.symm.trans hTaken
    · rintro ⟨hPositive, hLeast⟩
      rcases sphereParameter?_cases hDirection hPositive with ⟨s, hSome, hLeast'⟩ | ⟨-, hEmpty⟩
      · rw [hSome, hLeast'.unique hLeast]
      · exact absurd hLeast.1 (hEmpty ▸ Set.notMem_empty t)
  have hMissed : sphereParameter? ray = none ↔
      sphereDiscriminant ray ≤ 0 ∨ ray.sphereParameters = ∅ := by
    by_cases hPositive : 0 < sphereDiscriminant ray
    · rcases sphereParameter?_cases hDirection hPositive with ⟨t, hSome, hLeast⟩ | ⟨hNone, hEmpty⟩
      · simp [hSome, hPositive, Set.nonempty_iff_ne_empty.mp ⟨t, hLeast.1⟩]
      · simp [hNone, hEmpty]
    · simp [sphereParameter?_eq, not_lt.mp hPositive]
  have hDiscriminant : (2 * ray.origin.toVec.dot ray.direction) ^ 2 -
      4 * ray.direction.squaredNorm * (ray.origin.toVec.squaredNorm - 1) = sphereDiscriminant ray := by
    rw [sphereDiscriminant_eq, discrim]
  have hEmpty : ray.sphereParameters = ∅ ↔
      ∀ s, ray.interval.min < s → ray.interval.max.exceeds s = true →
        (ray.pointAt s).x ^ 2 + (ray.pointAt s).y ^ 2 + (ray.pointAt s).z ^ 2 ≠ 1 := by
    simp [Set.eq_empty_iff_forall_notMem, Ray.sphereParameters, Contains]
  rw [hDiscriminant, ← hEmpty]
  refine ⟨fun t => ?_, hMissed, ?_⟩
  · rw [hHits, sphereDiscriminant_pos_iff hDirection]
    rfl
  · rw [le_iff_eq_or_lt, sphereDiscriminant_eq_zero_iff hDirection, sphereDiscriminant_neg_iff hDirection]

/-- A ray of speed two down the third axis, through both poles. -/
noncomputable def throughPoles (limits : Interval ℝ) : Ray ℝ :=
  ⟨⟨0.0, 0.0, 3.0⟩, ⟨0.0, 0.0, -2.0⟩, limits, 0⟩

theorem onSphere_throughPoles (limits : Interval ℝ) (s : ℝ) :
    ((throughPoles limits).pointAt s).x ^ 2 + ((throughPoles limits).pointAt s).y ^ 2 +
      ((throughPoles limits).pointAt s).z ^ 2 = 1 ↔ s = 1 ∨ s = 2 := by
  have hFactors : ((throughPoles limits).pointAt s).x ^ 2 + ((throughPoles limits).pointAt s).y ^ 2 +
      ((throughPoles limits).pointAt s).z ^ 2 - 1 = 4 * ((s - 1) * (s - 2)) := by
    rw [Ray.pointAt_exact]
    norm_num [throughPoles]
    ring
  rw [← sub_eq_zero, hFactors]
  simp [sub_eq_zero]

/-- An interval that starts at the upper pole leaves only the lower one, and none if it ends there. -/
theorem sphereParameter?_isLeast_throughPoles :
    (throughPoles ⟨1, .below 3⟩).direction ≠ ⟨0, 0, 0⟩ ∧
      sphereParameter? (throughPoles ⟨1, .below 3⟩) = some 2 ∧
      sphereParameter? (throughPoles ⟨1, .below 2⟩) = none := by
  have hDirection (limits : Interval ℝ) : (throughPoles limits).direction ≠ ⟨0, 0, 0⟩ := by
    norm_num [throughPoles]
  refine ⟨hDirection _, ((sphereParameter?_isLeast (hDirection _)).1 2).mpr ⟨⟨?_, ?_⟩, ?_, ?_⟩,
    (sphereParameter?_isLeast (hDirection _)).2.1.mpr (Or.inr ?_)⟩
  · rintro ⟨t, -, hOnly⟩
    have hFirst := hOnly 1 ((onSphere_throughPoles _ 1).mpr (Or.inl rfl))
    have hSecond := hOnly 2 ((onSphere_throughPoles _ 2).mpr (Or.inr rfl))
    linarith
  · intro hMisses
    exact hMisses 1 ((onSphere_throughPoles _ 1).mpr (Or.inl rfl))
  · refine ⟨?_, (onSphere_throughPoles _ 2).mpr (Or.inr rfl)⟩
    norm_num [throughPoles, UpperBound.exceeds]
  · rintro s ⟨⟨hAfter, -⟩, hOn⟩
    rcases (onSphere_throughPoles _ s).mp hOn with rfl | rfl
    · exact absurd hAfter (lt_irrefl _)
    · exact le_rfl
  · intro s hAfter hBefore hOn
    rcases (onSphere_throughPoles _ s).mp hOn with rfl | rfl
    · exact lt_irrefl _ hAfter
    · exact lt_irrefl _ (of_decide_eq_true hBefore)

end Solid

end RayTracer
